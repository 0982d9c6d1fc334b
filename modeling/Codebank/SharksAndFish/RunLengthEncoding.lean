import Codebank.SharksAndFish.DList

namespace Codebank
namespace SharksAndFish

open Ocean

/-!
# The run-length encoding of an ocean

Each node of the list stands for a run of equal cells; its item has the type, the
length and the hunger of the run.  A method fails where the program would throw:
when it follows a null reference or reads behind the end of an item.  The numbers
of the messages printed by the consistency check are recorded.

The loops are written for any way to count, so that they serve both all integers and
the `int`s that wrap around, and for any kind of ocean to draw on.
-/

/-- What decoding draws on: what becomes of a computed number, how wide a row is, and the
methods that add a creature. -/
structure Canvas (Surface : Type) where
  int : Int -> Int
  width : Nat
  addFish : Surface -> Int -> Int -> Option Surface
  addSharkFed : Surface -> Int -> Int -> Int -> Option Surface

/-- An ocean that is a plain value, with all integers. -/
def Canvas.value (size : Size) : Canvas (Ocean size) where
  int := id
  width := size.width
  addFish ocean x y := some (ocean.addFish x y)
  addSharkFed ocean x y hunger := some (ocean.addSharkFed x y hunger)

/-- The next run, or null when all have been returned. -/
def DList.nextRun (runs : DList) : Option (Option (List Int) × DList) :=
  if runs.isNextRun then do
    let (returnRun, runs) <- runs.trackerValue
    let node := runs.nodes returnRun
    some (some [node.getRunType, node.getRunLength], runs)
  else
    some (none, runs)

/-- What a number of calls in a row return. -/
def DList.nextRuns : Nat -> DList -> Option (List (Option (List Int)))
  | 0, _ => some []
  | calls + 1, runs => do
      let (run, after) <- runs.nextRun
      let rest <- nextRuns calls after
      some (run :: rest)

/-- A `RunLengthEncoding` object. -/
structure RunLengthEncoding (size : Size) where
  starveTime : Int
  runs : DList
  printed : List Nat

namespace RunLengthEncoding

variable {size : Size}

/-! ## The consistency check -/

/-- Neighbouring runs that should have been one. -/
def uncompressed (currRun nextRun : DListNode) : Option (List Nat) := do
  let sharks <-
    if currRun.getRunType = SHARK ∧ nextRun.getRunType = SHARK then do
      let currHunger <- currRun.getRunHunger
      let nextHunger <- nextRun.getRunHunger
      some (decide (currHunger = nextHunger))
    else
      some false
  if sharks then
    some [1]
  else if currRun.getRunType = FISH ∧ nextRun.getRunType = FISH then
    some [2]
  else if currRun.getRunType = EMPTY ∧ nextRun.getRunType = EMPTY then
    some [3]
  else
    some []

/-- The check of the hunger; only a shark has one. -/
def wrongHunger (currRun : DListNode) : Option (List Nat) :=
  if currRun.getRunType = SHARK then do
    let hunger <- currRun.getRunHunger
    some (if hunger < 0 then [6] else [])
  else if currRun.getRunType = EMPTY ∨ currRun.getRunType = FISH then do
    let hunger <- currRun.getRunHunger
    some (if hunger ≠ NULL_HUNGER then [7] else [])
  else
    some []

/-- The loop of `check` over the given number of runs, counting cells. -/
def checkRuns (list : DList) : Nat -> Ref -> Int -> Option (Int × List Nat)
  | 0, _, numCells => some (numCells, [])
  | remaining + 1, currRun, numCells => do
      let length := (list.nodes currRun).getRunLength
      let short := if length < 1 then [4] else []
      let nextRun <- list.getNext currRun
      let alike <- uncompressed (list.nodes currRun) (list.nodes nextRun)
      let hungers <- wrongHunger (list.nodes currRun)
      let (total, printed) <- checkRuns list remaining nextRun (numCells + length)
      some (total, short ++ alike ++ hungers ++ printed)

/-- The number of cells is counted with all integers; wrapping around with every addition
would be the same as wrapping around once at the end. -/
def checkCells (int : Int -> Int) (cells : Int) (list : DList) : Option (List Nat) := do
  let first <- list.getFirst
  let (numCells, printed) <- checkRuns list list.size.toNat first 0
  some (if int numCells ≠ int cells then printed ++ [5] else printed)

/-- The lines that `check` prints. -/
def check (size : Size) (list : DList) : Option (List Nat) :=
  checkCells id (size.width * size.height) list

/-- The last call of the constructor and of both inserting methods. -/
def checked (encoding : RunLengthEncoding size) (list : DList) :
    Option (RunLengthEncoding size) := do
  let printed <- check size list
  some { encoding with runs := list, printed := encoding.printed ++ printed }

/-! ## Encoding an ocean -/

/-- The local variables of the constructor. -/
structure Scan where
  runs : DList
  currEncodeType : Int
  currEncodeLength : Int
  currSharkHunger : Int

def Scan.flush (scan : Scan) : Option DList :=
  let (list, runNode) := scan.runs.allocate
    [scan.currEncodeType, scan.currEncodeLength, scan.currSharkHunger]
  list.addLast runNode

/-- One round of the loops, with what the two methods return for the cell. -/
def Scan.step (int : Int -> Int) (scan : Scan) (cellContents sharkFeeding : Option Int) :
    Option Scan := do
  let contents <- cellContents
  let same <-
    if contents = scan.currEncodeType then do
      let feeding <- sharkFeeding
      some (decide (feeding = scan.currSharkHunger))
    else
      some false
  if same then
    some { scan with currEncodeLength := int (scan.currEncodeLength + 1) }
  else
    let runs <- scan.flush
    let feeding <- sharkFeeding
    some ⟨runs, contents, 1, feeding⟩

/-- A cell continues the open run or begins another. -/
def scanCell (sea : Ocean size) (scan : Scan) (coordinates : Nat × Nat) : Option Scan :=
  scan.step id (some (sea.cellContents coordinates.1 coordinates.2))
    (sea.sharkFeeding coordinates.1 coordinates.2)

/-- The last run is added behind the loop. -/
def Scan.finish (scan : Scan) : Option DList :=
  if 0 < scan.currEncodeLength then scan.flush else some scan.runs

/-- The coordinates in the order of the two nested loops. -/
def visitOrder (size : Size) : List (Nat × Nat) :=
  (List.range size.height).flatMap fun y => (List.range size.width).map fun x => (x, y)

/-- The constructor that takes an ocean. -/
def ofOcean (sea : Ocean size) : Option (RunLengthEncoding size) := do
  let feeding <- sea.sharkFeeding 0 0
  let scan <- (visitOrder size).foldlM (scanCell sea) ⟨DList.new, sea.cellContents 0 0, 0, feeding⟩
  let runs <- scan.finish
  checked ⟨sea.starveTime, DList.new, []⟩ runs

/-! ## Enumerating the runs -/

def restartRuns (encoding : RunLengthEncoding size) : RunLengthEncoding size :=
  { encoding with runs := encoding.runs.resetTracker }

/-- The type and the length of the next run, or null. -/
def nextRun (encoding : RunLengthEncoding size) :
    Option (Option (List Int) × RunLengthEncoding size) :=
  encoding.runs.nextRun.map fun next => (next.1, { encoding with runs := next.2 })

def nextRuns (calls : Nat) (encoding : RunLengthEncoding size) :
    Option (List (Option (List Int))) :=
  encoding.runs.nextRuns calls

/-! ## Decoding -/

/-- The local variables of `toOcean`. -/
structure Drawing (Surface : Type) where
  ocean : Surface
  insertX : Int
  insertY : Int

section

variable {Surface : Type} (canvas : Canvas Surface)

namespace Drawing

def newRow (drawing : Drawing Surface) : Drawing Surface :=
  { drawing with
    insertX := canvas.int (drawing.insertX - canvas.width)
    insertY := canvas.int (drawing.insertY + 1) }

/-- The loop that moves the position behind an empty run into its row.  The first
argument bounds the number of rounds. -/
def skipRows : Nat -> Drawing Surface -> Option (Drawing Surface)
  | 0, _ => none
  | rounds + 1, drawing =>
    if drawing.insertX > canvas.width then skipRows rounds (drawing.newRow canvas)
    else some drawing

def skip (drawing : Drawing Surface) (length : Int) : Option (Drawing Surface) :=
  let moved := { drawing with insertX := canvas.int (drawing.insertX + length) }
  skipRows canvas (moved.insertX.toNat + 1) moved

/-- One round of the loops that draw fish or sharks. -/
def drawCell (drawing : Drawing Surface) (add : Surface -> Int -> Int -> Option Surface) :
    Option (Drawing Surface) := do
  let drawing := if drawing.insertX ≥ canvas.width then drawing.newRow canvas else drawing
  let ocean <- add drawing.ocean drawing.insertX drawing.insertY
  some { drawing with ocean := ocean, insertX := canvas.int (drawing.insertX + 1) }

def drawCells (add : Surface -> Int -> Int -> Option Surface) :
    Nat -> Drawing Surface -> Option (Drawing Surface)
  | 0, drawing => some drawing
  | remaining + 1, drawing => do
      let after <- drawing.drawCell canvas add
      drawCells add remaining after

/-- The cells of a run, added one by one. -/
def drawRun (node : DListNode) (drawing : Drawing Surface) : Option (Drawing Surface) :=
  if node.getRunType = EMPTY then
    drawing.skip canvas node.getRunLength
  else if node.getRunType = FISH then
    drawing.drawCells canvas canvas.addFish node.getRunLength.toNat
  else if node.getRunType = SHARK then
    drawing.drawCells canvas (fun ocean x y => do
      let hunger <- node.getRunHunger
      canvas.addSharkFed ocean x y hunger) node.getRunLength.toNat
  else
    some drawing

end Drawing

def drawRuns (list : DList) : Nat -> Ref -> Drawing Surface -> Option (Drawing Surface)
  | 0, _, drawing => some drawing
  | remaining + 1, currNode, drawing => do
      let after <- drawing.drawRun canvas (list.nodes currNode)
      let nextNode <- list.getNext currNode
      drawRuns list remaining nextNode after

end

def toOcean (encoding : RunLengthEncoding size) : Option (Ocean size) := do
  let first <- encoding.runs.getFirst
  let drawing <- drawRuns (.value size) encoding.runs encoding.runs.size.toNat first
    ⟨Ocean.new size encoding.starveTime, 0, 0⟩
  some drawing.ocean

/-! ## Finding a run -/

def addRows (width : Nat) : Nat -> Int -> Int
  | 0, encodedPosition => encodedPosition
  | y + 1, encodedPosition => addRows width y (encodedPosition + width)

def getEncodedPosition (size : Size) (x y : Int) : Int :=
  addRows size.width (convertCoord y size.height).toNat 0 + convertCoord x size.width

/-- The search loop.  A round takes the length of a run off the position, so with
runs that are not empty the position bounds the number of rounds. -/
def walk (list : DList) : Nat -> Int -> Ref -> Option (Int × Ref)
  | 0, _, _ => none
  | rounds + 1, encodedPosition, currRun =>
    if encodedPosition > 0 then do
      let nextRun <- list.getNext currRun
      walk list rounds (encodedPosition - (list.nodes currRun).getRunLength) nextRun
    else
      some (encodedPosition, currRun)

/-- The run that has the cell, with the rest of the position: zero at the start of
the run, otherwise minus the number of cells from the given one to its end. -/
def findRun (list : DList) (encodedPosition : Int) : Option (Int × Ref) := do
  let first <- list.getFirst
  let (rest, currRun) <- walk list (encodedPosition.toNat + 1) encodedPosition first
  if rest < 0 then do
    let prevRun <- list.getPrev currRun
    some (rest, prevRun)
  else
    some (rest, currRun)

/-! ## Inserting a creature -/

/-- What differs between the two inserting methods: the run that a creature makes
and the test whether a neighbouring run is of the same kind. -/
structure Newcomer where
  type : Int
  hunger : Int
  joins : DListNode -> Option Bool

def Newcomer.fish : Newcomer where
  type := FISH
  hunger := NULL_HUNGER
  joins node := some (decide (node.getRunType = FISH))

def Newcomer.shark (starveTime : Int) : Newcomer where
  type := SHARK
  hunger := starveTime
  joins node := do
    let hunger <- node.getRunHunger
    some (decide (node.getRunType = SHARK ∧ hunger = starveTime))

namespace Newcomer

variable (newcomer : Newcomer)

/-- The current run takes over the creature's type, with a new length. -/
def takeOver (list : DList) (currRun : Ref) (length : Int) : DList :=
  ((list.change currRun fun node => node.setType newcomer.type).change currRun
    fun node => node.setRunLength length).change currRun
      fun node => node.setHunger newcomer.hunger

/-- The current run has length one. -/
def replaceRun (list : DList) (currRun : Ref) : Option DList := do
  let prevRun <- list.getPrev currRun
  let nextRun <- list.getNext currRun
  let prevJoins <- newcomer.joins (list.nodes prevRun)
  let nextJoins <- newcomer.joins (list.nodes nextRun)
  let prevLength := (list.nodes prevRun).getRunLength
  let nextLength := (list.nodes nextRun).getRunLength
  if prevJoins && nextJoins then
    let list <- list.removeNode prevRun
    let nextRun <- list.getNext currRun
    let list <- list.removeNode nextRun
    some (newcomer.takeOver list currRun (1 + prevLength + nextLength))
  else if nextJoins then
    let list <- list.removeNode nextRun
    some (newcomer.takeOver list currRun (1 + nextLength))
  else if prevJoins then
    let list <- list.removeNode prevRun
    some (newcomer.takeOver list currRun (1 + prevLength))
  else
    some ((list.change currRun fun node => node.setType newcomer.type).change currRun
      fun node => node.setHunger newcomer.hunger)

/-- One cell less. -/
def shorten (list : DList) (currRun : Ref) : DList :=
  list.change currRun fun node => node.setRunLength (node.getRunLength - 1)

def insertAtStart (list : DList) (currRun : Ref) : Option DList := do
  let prevRun <- list.getPrev currRun
  let joins <- newcomer.joins (list.nodes prevRun)
  if joins then
    some (shorten (list.change prevRun fun node => node.setRunLength (1 + node.getRunLength))
      currRun)
  else
    let (list, newNode) := list.allocate [newcomer.type, 1, newcomer.hunger]
    let list <- list.addBefore currRun newNode
    some (shorten list currRun)

def insertAtEnd (list : DList) (currRun : Ref) : Option DList := do
  let nextRun <- list.getNext currRun
  let joins <- newcomer.joins (list.nodes nextRun)
  if joins then
    some (shorten (list.change nextRun fun node => node.setRunLength (1 + node.getRunLength))
      currRun)
  else
    let (list, newNode) := list.allocate [newcomer.type, 1, newcomer.hunger]
    let list <- list.addAfter currRun newNode
    some (shorten list currRun)

/-- Three runs instead of one. -/
def insertInside (list : DList) (currRun : Ref) (encodedPosition : Int) : Option DList := do
  let length := (list.nodes currRun).getRunLength
  let firstSplitLength := length + encodedPosition
  let secondSplitLength := length - firstSplitLength - 1
  let (list, firstSplit) := list.allocate [EMPTY, firstSplitLength, NULL_HUNGER]
  let (list, secondSplit) := list.allocate [EMPTY, secondSplitLength, NULL_HUNGER]
  let list := newcomer.takeOver list currRun 1
  let list <- list.addBefore currRun firstSplit
  list.addAfter currRun secondSplit

def insertInto (list : DList) (currRun : Ref) (encodedPosition : Int) : Option DList :=
  if (list.nodes currRun).getRunType ≠ EMPTY then
    some list
  else if (list.nodes currRun).getRunLength = 1 then
    newcomer.replaceRun list currRun
  else if encodedPosition = 0 then
    newcomer.insertAtStart list currRun
  else if encodedPosition = -1 then
    newcomer.insertAtEnd list currRun
  else
    newcomer.insertInside list currRun encodedPosition

end Newcomer

def insert (encoding : RunLengthEncoding size) (newcomer : Newcomer) (x y : Int) :
    Option (RunLengthEncoding size) := do
  let (encodedPosition, currRun) <- findRun encoding.runs (getEncodedPosition size x y)
  let list <- newcomer.insertInto encoding.runs currRun encodedPosition
  encoding.checked list

def addFish (encoding : RunLengthEncoding size) (x y : Int) : Option (RunLengthEncoding size) :=
  encoding.insert .fish x y

def addShark (encoding : RunLengthEncoding size) (x y : Int) : Option (RunLengthEncoding size) :=
  encoding.insert (.shark encoding.starveTime) x y

end RunLengthEncoding

end SharksAndFish
end Codebank
