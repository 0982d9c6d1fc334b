import Codebank.Convolution.Equivalence
import Codebank.ImageMetadata.Isolation
import Codebank.ImageMetadata.TextLines
import Codebank.KVStore.MasterCache
import Codebank.KVStore.Placement
import Codebank.KVStore.Registration
import Codebank.KVStore.SecondChance
import Codebank.KVStore.Selection
import Codebank.KVStore.ThreadPool
import Codebank.KVStore.Vote
import Codebank.LogParser.OutputName
import Codebank.NetworkGame.AlphaBeta
import Codebank.Pintos.Arguments
import Codebank.Pintos.Freeing
import Codebank.Pintos.Handshake
import Codebank.RipRouter.Lookups
import Codebank.RipRouter.LoopFreedom
import Codebank.RipRouter.PoisonReverse
import Codebank.SharksAndFish.Receiver
import Codebank.SharksAndFish.Rules
import Codebank.SharksAndFish.RunArrays
