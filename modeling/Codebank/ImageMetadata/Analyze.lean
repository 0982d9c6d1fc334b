import Codebank.ImageMetadata.Jpg
import Codebank.ImageMetadata.Png

namespace Codebank
namespace ImageMetadata

open Foundation Foundation.Routine TiffState

/-!
# The program over its list of files

`main` analyses the files it is given one after the other, each as a PNG file and,
if that fails, as a JPEG file.  The static variables of `png.c` and `jpg.c` live as
long as the program, so what one file leaves in them is there for the next.
-/

/-- The static variables of the program; `pngValid` is the `valid` of `png.c`. -/
structure Statics where
  pngValid : Bool
  jpg : JpgStatics
  deriving Repr, DecidableEq

def Statics.initial : Statics where
  pngValid := true
  jpg := JpgStatics.initial

/-- A file name, and what the file holds unless it cannot be opened. -/
structure File where
  name : Bytes
  content : Option Bytes

/-- What an analysis prints and returns. -/
structure Report where
  printed : Bytes
  result : Int
  deriving Repr, DecidableEq

/-- The report on a run of `analyze_png` and the `valid` it leaves; `none` as long as the
decompression loop has not ended. -/
def pngReport : Except Stop Unit × PngState -> Option (Report × Bool)
  | (.ok (), after) => some (⟨after.printed, 0⟩, after.valid)
  | (.error (.code value), after) => some (⟨after.printed, value⟩, after.valid)
  | (.error .running, _) => none

def tryAnalyzePngFile (library : Library) (limit : Nat) (file : File) (valid : Bool) :
    Option (Report × Bool) :=
  match file.content with
  | none => some (⟨[], -1⟩, valid)
  | some content => pngReport (analyzePng library limit content (.opening valid))

def analyzeJpg (realloc : Nat -> Bool) (content : Bytes) (statics : JpgStatics) :
    Option (Report × JpgStatics) :=
  match (scanJpg realloc content content.length).2 with
  | (.code value, _) => some (⟨[], value⟩, statics)
  | (.tiff len, scan) =>
    let after := (analyzeTiff content len (.opening scan.position statics)).2
    some (⟨after.printed, 0⟩, after.statics)
  | (.running, _) => none

def tryAnalyzeJpgFile (library : Library) (file : File) (statics : JpgStatics) :
    Option (Report × JpgStatics) :=
  match file.content with
  | none => some (⟨[], -1⟩, statics)
  | some content => analyzeJpg library.realloc content statics

def analyze (library : Library) (limit : Nat) (file : File) (statics : Statics) :
    Option (Report × Statics) := do
  let heading := text "File: " ++ file.name ++ text "\n"
  let png <- tryAnalyzePngFile library limit file statics.pngValid
  if png.1.result < 0 then do
    let jpg <- tryAnalyzeJpgFile library file statics.jpg
    some (⟨heading ++ png.1.printed ++ jpg.1.printed, jpg.1.result⟩, ⟨png.2, jpg.2⟩)
  else some (⟨heading ++ png.1.printed, png.1.result⟩, ⟨png.2, statics.jpg⟩)

/-- The loop of `main`: the reports on the files, in order, as far as it gets. -/
def mainLoop (library : Library) (limit : Nat) : Statics -> List File -> List Report
  | _, [] => []
  | statics, file :: rest =>
    match analyze library limit file statics with
    | some (report, after) => report :: mainLoop library limit after rest
    | none => []

/-- The static variables after some files. -/
def staticsAfter (library : Library) (limit : Nat) : Statics -> List File -> Option Statics
  | statics, [] => some statics
  | statics, file :: rest =>
    match analyze library limit file statics with
    | some (_, after) => staticsAfter library limit after rest
    | none => none

end ImageMetadata
end Codebank
