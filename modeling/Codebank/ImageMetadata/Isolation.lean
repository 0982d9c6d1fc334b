import Codebank.ImageMetadata.Analyze
import Codebank.ImageMetadata.Segments

namespace Codebank
namespace ImageMetadata

open Foundation Foundation.Routine TiffState

/-!
# One file after others

The analysis of a file depends on the files before it through the static variables
only.  The flags among them decide: as long as both `valid` flags are set and no Exif
pointer has been found, every file is analysed as if it were alone, and after that
there is always a file that is not.
-/

/-! ## What the static variables and the output go through -/

section

variable {Holds : JpgStatics -> Bytes -> Prop}

/-- A property of the static variables and of the text printed. -/
def OnReport (Holds : JpgStatics -> Bytes -> Prop) (state : TiffState) : Prop :=
  Holds state.statics state.printed

theorem keeps_fread (file : Bytes) (count : Nat) : Keeps (OnReport Holds) (fread file count) :=
  fun _ holds => holds

theorem keeps_seek (position : Nat) : Keeps (OnReport Holds) (seek position) :=
  keeps_change (fun _ => id)

theorem keeps_setBytesRead (count : Nat) : Keeps (OnReport Holds) (setBytesRead count) :=
  keeps_change (fun _ => id)

theorem keeps_addBytesRead (count : Nat) : Keeps (OnReport Holds) (addBytesRead count) :=
  keeps_change (fun _ => id)

theorem keeps_numStructs (file : Bytes) (len : Nat) :
    Keeps (OnReport Holds) (numStructs file len) :=
  (keeps_inspect _).bind (fun _ => (keeps_leaveIf _ _).bind (fun _ =>
    (keeps_fread _ _).bind (fun _ => (keeps_leaveIf _ _).bind (fun _ =>
      (keeps_addBytesRead _).bind (fun _ => (keeps_leaveIf _ _).bind (fun _ => keeps_pure _))))))

theorem keeps_readHeader (file : Bytes) (len : Nat) :
    Keeps (OnReport Holds) (readHeader file len) :=
  (keeps_leaveIf _ _).bind (fun _ => (keeps_fread _ _).bind (fun _ =>
    (keeps_leaveIf _ _).bind (fun _ => (keeps_leaveIf _ _).bind (fun _ =>
      (keeps_leaveIf _ _).bind (fun _ => (keeps_leaveIf _ _).bind (fun _ =>
        (keeps_setBytesRead _).bind (fun _ => (keeps_inspect _).bind (fun _ =>
          (keeps_seek _).bind (fun _ => keeps_addBytesRead _)))))))))

/-- Only the entries touch the static variables and the output. -/
theorem keeps_analyzeTiff (file : Bytes) (len : Nat)
    (first : ∀ begPos, Keeps (OnReport Holds) (ifdEntry file begPos len keepPointer))
    (second : ∀ begPos, Keeps (OnReport Holds) (ifdEntry file begPos len refusePointer)) :
    Keeps (OnReport Holds) (analyzeTiff file len) := by
  have firstIfd : ∀ begPos, Keeps (OnReport Holds) (firstIfd file begPos len) := fun begPos =>
    (keeps_numStructs _ _).bind (fun count => (first begPos).turns count)
  have exifIfd : ∀ begPos, Keeps (OnReport Holds) (exifIfd file begPos len) := fun begPos =>
    (keeps_inspect _).bind (fun _ => (keeps_leaveIf _ _).bind (fun _ =>
      (keeps_leaveIf _ _).bind (fun _ => (keeps_leaveIf _ _).bind (fun _ =>
        (keeps_seek _).bind (fun _ => (keeps_setBytesRead _).bind (fun _ =>
          (keeps_numStructs _ _).bind (fun count => (second begPos).turns count)))))))
  exact (keeps_inspect _).bind (fun begPos => (keeps_readHeader _ _).bind (fun _ =>
    (firstIfd begPos).bind (fun _ => exifIfd begPos)))

variable (shown : ∀ statics printed output, Holds statics printed ->
    Holds statics (printed ++ output))
  (cleared : ∀ statics printed, Holds statics printed ->
    Holds { statics with valid := false } printed)

include shown

theorem keeps_display (output : Bytes) : Keeps (OnReport Holds) (display output) :=
  keeps_change (fun state => shown state.statics state.printed output)

theorem keeps_distantEntry (file : Bytes) (begPos len : Nat) (entry : Entry) (size : Nat) :
    Keeps (OnReport Holds) (distantEntry file begPos len entry size) := by
  refine (keeps_leaveIf _ _).bind (fun _ => Keeps.branch ?_ (keeps_leaveIf _ _))
  exact (keeps_inspect _).bind (fun _ => (keeps_seek _).bind (fun _ =>
    (keeps_fread _ _).bind (fun _ => (keeps_leaveIf _ _).bind (fun _ =>
      (keeps_display shown _).bind (fun _ => keeps_seek _)))))

include cleared

theorem keeps_ifdEntry (file : Bytes) (begPos len : Nat)
    {pointer : Nat -> Routine TiffState Int Unit}
    (pointed : ∀ offset, Keeps (OnReport Holds) (pointer offset)) :
    Keeps (OnReport Holds) (ifdEntry file begPos len pointer) := by
  have numBytes : ∀ datatype count, Keeps (OnReport Holds) (numBytes datatype count) :=
    fun _ _ => (Keeps.whenever (keeps_change (fun state =>
      cleared state.statics state.printed))).bind (fun _ => keeps_pure _)
  refine (keeps_inspect _).bind (fun _ => (keeps_leaveIf _ _).bind (fun _ =>
    (keeps_fread _ _).bind (fun _ => (keeps_leaveIf _ _).bind (fun _ =>
      (keeps_addBytesRead _).bind (fun _ => (numBytes _ _).bind (fun _ =>
        (keeps_leaveIf _ _).bind (fun _ => (keeps_inspect _).bind (fun _ =>
          (keeps_leaveIf _ _).bind (fun _ => Keeps.branch ?_ ?_)))))))))
  · exact (Keeps.whenever (keeps_display shown _)).bind (fun _ => Keeps.whenever (pointed _))
  · exact keeps_distantEntry shown _ _ _ _ _

end

/-! ## The Exif offset -/

variable {library : Library} {before : Statics} {statics : JpgStatics} {limit len : Nat}
  {report : Report} {content : Bytes}

/-- An Exif offset is kept only together with the flag that tells so. -/
def Unpointed (statics : JpgStatics) (_ : Bytes) : Prop :=
  statics.exifFound = false -> statics.exifOffset = 0

variable {state : TiffState}

theorem analyzeTiff_unpointed (file : Bytes) (len : Nat) (holds : OnReport Unpointed state) :
    OnReport Unpointed (analyzeTiff file len state).2 := by
  have entry : ∀ begPos (pointer : Nat -> Routine TiffState Int Unit),
      (∀ offset, Keeps (OnReport Unpointed) (pointer offset)) ->
        Keeps (OnReport Unpointed) (ifdEntry file begPos len pointer) := fun begPos _ =>
    keeps_ifdEntry (fun _ _ _ holds => holds) (fun _ _ holds => holds) file begPos len
  have kept : Keeps (OnReport Unpointed) (analyzeTiff file len) := by
    refine keeps_analyzeTiff file len (fun begPos => entry begPos _ ?_)
      (fun begPos => entry begPos _ ?_)
    · exact fun offset => (keeps_inspect _).bind (fun _ => (keeps_leaveIf _ _).bind (fun _ =>
        keeps_change (fun _ _ found => Bool.noConfusion found)))
    · exact fun offset => keeps_leave _
  exact (kept state holds).after

theorem analyzeJpg_unpointed {realloc : Nat -> Bool} {after : JpgStatics}
    (run : analyzeJpg realloc content statics = some (report, after))
    (holds : Unpointed statics []) : Unpointed after [] := by
  rw [analyzeJpg] at run
  split at run
  · cases run
    exact holds
  · cases run
    exact analyzeTiff_unpointed content _ (show OnReport Unpointed (.opening _ statics) from holds)
  · cases run

theorem tryAnalyzeJpgFile_unpointed {file : File} {after : JpgStatics}
    (run : tryAnalyzeJpgFile library file statics = some (report, after))
    (holds : Unpointed statics []) : Unpointed after [] := by
  rw [tryAnalyzeJpgFile] at run
  split at run
  · cases run
    exact holds
  · exact analyzeJpg_unpointed run holds

theorem analyze_unpointed {file : File} {after : Statics}
    (run : analyze library limit file before = some (report, after))
    (holds : Unpointed before.jpg []) : Unpointed after.jpg [] := by
  rcases Option.bind_eq_some_iff.mp run with ⟨png, _, rest⟩
  split at rest
  · rcases Option.bind_eq_some_iff.mp rest with ⟨⟨jpg, left⟩, analysed, last⟩
    cases last
    exact tryAnalyzeJpgFile_unpointed analysed holds
  · cases rest
    exact holds

theorem staticsAfter_unpointed {files : List File} {after : Statics}
    (run : staticsAfter library limit before files = some after) (holds : Unpointed before.jpg []) :
    Unpointed after.jpg [] := by
  induction files generalizing before with
  | nil =>
    cases run
    exact holds
  | cons file rest ih =>
    rw [staticsAfter] at run
    cases first : analyze library limit file before with
    | none =>
      rw [first] at run
      cases run
    | some analysis =>
      rw [first] at run
      exact ih run (analyze_unpointed first holds)

/-- The report on a file is that of an analysis that begins with what the earlier files
left in the static variables. -/
theorem mainLoop_at {earlier : List File} (file : File) (later : List File) {after : Statics}
    (run : staticsAfter library limit before earlier = some after) :
    (mainLoop library limit before (earlier ++ file :: later))[earlier.length]? =
      (analyze library limit file after).map Prod.fst := by
  induction earlier generalizing before with
  | nil =>
    cases run
    rw [List.nil_append, mainLoop]
    cases analysed : analyze library limit file after with
    | none => rfl
    | some analysis => rfl
  | cons first rest ih =>
    rw [staticsAfter] at run
    rw [List.cons_append, mainLoop]
    cases analysed : analyze library limit first before with
    | none =>
      rw [analysed] at run
      cases run
    | some analysis =>
      rw [analysed] at run
      exact ih run

/-- Both `valid` flags are set, and no Exif pointer has been found. -/
structure Clean (statics : Statics) : Prop where
  pngValid : statics.pngValid = true
  jpgValid : statics.jpg.valid = true
  exifFound : statics.jpg.exifFound = false

theorem Clean.eq_initial {statics : Statics} (clean : Clean statics)
    (holds : Unpointed statics.jpg []) : statics = .initial := by
  rcases statics with ⟨pngValid, valid, exifOffset, exifFound⟩
  rcases clean with ⟨rfl, rfl, rfl⟩
  cases holds rfl
  rfl

/-! ## Flags that have changed -/

/-- While `valid` is cleared nothing is printed. -/
def Silent (printed : Bytes) (statics : JpgStatics) (output : Bytes) : Prop :=
  statics.valid = false ∧ output = printed

theorem ifdEntry_silent (file : Bytes) (begPos len : Nat) (printed : Bytes)
    (pointer : Nat -> Routine TiffState Int Unit) :
    Keeps (OnReport (Silent printed)) (ifdEntry file begPos len pointer) := by
  refine (keeps_inspect _).bind (fun _ => (keeps_leaveIf _ _).bind (fun _ =>
    (keeps_fread _ _).bind (fun _ => (keeps_leaveIf _ _).bind (fun _ =>
      (keeps_addBytesRead _).bind (fun _ => Keeps.bind ?_ (fun _ =>
        (keeps_leaveIf _ _).bind (fun _ => ?_)))))))
  · exact (Keeps.whenever (keeps_change (fun _ holds => ⟨rfl, holds.2⟩))).bind
      (fun _ => keeps_pure _)
  · intro state silent
    rw [inspect_bind]
    exact Ends.leaveIf (fun _ => silent) (fun valid => absurd silent.1 valid)

theorem invalid_prints_nothing (file : Bytes) (len position : Nat)
    (invalid : statics.valid = false) :
    (analyzeTiff file len (.opening position statics)).2.printed = [] := by
  have kept := keeps_analyzeTiff file len
    (fun begPos => ifdEntry_silent file begPos len [] keepPointer)
    (fun begPos => ifdEntry_silent file begPos len [] refusePointer)
  exact (kept (.opening position statics) ⟨invalid, rfl⟩).after.2

theorem TiffState.fread_bind {Value : Type} (file : Bytes) (count : Nat)
    (next : Bytes -> Routine TiffState Int Value) (state : TiffState) :
    (fread file count >>= next) state =
      next (readAt file state.position count) (fread file count state).2 := rfl

/-- An entry that is an Exif pointer ends the first loop once a pointer has been found. -/
theorem ifdEntry_pointed {file : Bytes} {begPos : Nat} (found : state.statics.exifFound = true)
    (pointer : (Entry.ofBuffer (readAt file state.position 12)).tagid = 0x8769)
    (typed : (Entry.ofBuffer (readAt file state.position 12)).datatype = 0x0004)
    (single : (Entry.ofBuffer (readAt file state.position 12)).count = 1) :
    Ends (ifdEntry file begPos len keepPointer state) (fun _ _ => False)
      (fun _ after => after.printed = state.printed) := by
  rw [ifdEntry, inspect_bind]
  refine Ends.leaveIf (fun _ => rfl) (fun _ => ?_)
  rw [fread_bind]
  refine Ends.leaveIf (fun _ => rfl) (fun _ => ?_)
  rw [addBytesRead, change_bind, typed, single]
  refine Ends.leaveIf (fun _ => rfl) (fun _ => ?_)
  rw [inspect_bind]
  refine Ends.leaveIf (fun _ => rfl) (fun _ => ?_)
  rw [branch_apply, if_pos (by decide), inlineEntry, pointer, typed, single]
  exact Ends.leaveIf (fun _ => rfl) (fun unfound => absurd found unfound)

/-- The offset of the 0th IFD, as the header gives it. -/
def ifdOffset (file : Bytes) (begPos : Nat) : Nat :=
  littleEndian (readAt file (begPos + 4) 4)

/-- The header leads to the 0th IFD. -/
theorem readHeader_position (file : Bytes) (len : Nat) (state : TiffState) :
    Ends (readHeader file len state)
      (fun _ after => after.position = state.position + ifdOffset file state.position)
      (fun _ _ => True) := by
  rw [readHeader]
  refine Ends.leaveIf (fun _ => trivial) (fun _ => ?_)
  rw [fread_bind]
  refine Ends.leaveIf (fun _ => trivial) (fun whole => ?_)
  have eight : (readAt file state.position 8).length = 8 := not_not.mp whole
  rw [readAt_readAt file (by decide), readAt_readAt file (by decide), <- ifdOffset]
  refine Ends.leaveIf (fun _ => trivial) (fun _ => ?_)
  refine Ends.leaveIf (fun _ => trivial) (fun behind => ?_)
  refine Ends.leaveIf (fun _ => trivial) (fun _ => ?_)
  show state.position + (readAt file state.position 8).length +
    (ifdOffset file state.position - 8) = _
  omega

/-- The entries stand behind their number, which is not zero. -/
theorem numStructs_position (file : Bytes) (len : Nat) (state : TiffState) :
    Ends (numStructs file len state)
      (fun count after => after.position = state.position + 2 ∧ count ≠ 0) (fun _ _ => True) := by
  rw [numStructs, inspect_bind]
  refine Ends.leaveIf (fun _ => trivial) (fun _ => ?_)
  rw [fread_bind]
  refine Ends.leaveIf (fun _ => trivial) (fun whole => ?_)
  have two : (readAt file state.position 2).length = 2 := not_not.mp whole
  rw [addBytesRead, change_bind]
  exact Ends.leaveIf (fun _ => trivial)
    (fun some => ⟨congrArg (state.position + ·) two, some⟩)

/-- The first entry of the 0th IFD. -/
def firstEntry (file : Bytes) (begPos : Nat) : Entry :=
  Entry.ofBuffer (readAt file (begPos + ifdOffset file begPos + 2) 12)

/-- A block that begins with an Exif pointer prints nothing once a pointer has been found. -/
theorem pointer_prints_nothing {file : Bytes} {begPos : Nat} (found : statics.exifFound = true)
    (pointer : (firstEntry file begPos).tagid = 0x8769)
    (typed : (firstEntry file begPos).datatype = 0x0004)
    (single : (firstEntry file begPos).count = 1) :
    (analyzeTiff file len (.opening begPos statics)).2.printed = [] := by
  suffices ends : Ends (analyzeTiff file len (.opening begPos statics))
      (fun _ after => after.printed = []) (fun _ after => after.printed = []) from ends.after
  have opened : OnReport (fun kept printed => kept = statics ∧ printed = [])
      (.opening begPos statics) := ⟨rfl, rfl⟩
  rw [analyzeTiff, inspect_bind]
  have header := (readHeader_position file len (.opening begPos statics)).and
      (keeps_readHeader file len _ opened)
  refine Ends.bind _ (header.mono (fun _ _ => id) (fun _ _ kept => kept.2.2)) ?_
  rintro _ atIfd ⟨position, kept⟩
  refine Ends.bind (fun _ _ => False) ?_ (fun _ _ => False.elim)
  rw [firstIfd]
  have counted := (numStructs_position file len atIfd).and (keeps_numStructs file len atIfd kept)
  refine Ends.bind _ (counted.mono (fun _ _ => id) (fun _ _ kept => kept.2.2)) ?_
  rintro count atEntry ⟨⟨moved, some⟩, kept⟩
  have here : atEntry.position = begPos + ifdOffset file begPos + 2 := by
    rw [moved, position]
    rfl
  cases count with
  | zero => exact absurd rfl some
  | succ count =>
    refine Ends.bind (fun _ _ => False) ?_ (fun _ _ => False.elim)
    refine (ifdEntry_pointed ?_ ?_ ?_ ?_).mono (fun _ _ => id) (fun _ _ same => same.trans kept.2)
    · rw [kept.1]
      exact found
    · rw [here]
      exact pointer
    · rw [here]
      exact typed
    · rw [here]
      exact single

/-! ## Files that show a flag -/

/-- A block with one entry, which ends where the block ends. -/
def oneEntry : Bytes :=
  [0x49, 0x49, 0x2A, 0x00, 0x08, 0x00, 0x00, 0x00, 0x01, 0x00,
    0x0F, 0x01, 0x02, 0x00, 0x03, 0x00, 0x00, 0x00, 0x41, 0x62, 0x00, 0x00]

/-- A JPEG file whose only entry is a `Make`. -/
def makeFile : ExifFile where
  segments := []
  block := oneEntry
  short := by decide
  trailer := []

/-- A JPEG file with an Exif pointer and then a `Make`. -/
def pointerFile : ExifFile where
  segments := []
  block := [0x49, 0x49, 0x2A, 0x00, 0x08, 0x00, 0x00, 0x00, 0x02, 0x00,
    0x69, 0x87, 0x04, 0x00, 0x01, 0x00, 0x00, 0x00, 0x00, 0x00, 0x00, 0x00,
    0x0F, 0x01, 0x02, 0x00, 0x03, 0x00, 0x00, 0x00, 0x41, 0x62, 0x00, 0x00]
  short := by decide
  trailer := []

/-- A PNG file with one empty chunk of another type. -/
def plainPng : Bytes :=
  pngHeader ++ [0x00, 0x00, 0x00, 0x00, 0x61, 0x62, 0x63, 0x64, 0x00, 0x00, 0x00, 0x00]

theorem makeFile_scan (realloc : Nat -> Bool) :
    (scanJpg realloc makeFile.bytes makeFile.bytes.length).2 = (.tiff 22, ⟨12, 4⟩) := rfl

theorem pointerFile_scan (realloc : Nat -> Bool) :
    (scanJpg realloc pointerFile.bytes pointerFile.bytes.length).2 = (.tiff 34, ⟨12, 4⟩) := rfl

theorem makeFile_png (library : Library) (limit : Nat) (name : Bytes) (valid : Bool) :
    tryAnalyzePngFile library limit ⟨name, some makeFile.bytes⟩ valid =
      some (⟨[], -1⟩, valid) := rfl

theorem pointerFile_png (library : Library) (limit : Nat) (name : Bytes) (valid : Bool) :
    tryAnalyzePngFile library limit ⟨name, some pointerFile.bytes⟩ valid =
      some (⟨[], -1⟩, valid) := rfl

theorem plainPng_png (library : Library) (limit : Nat) (name : Bytes) :
    tryAnalyzePngFile library limit ⟨name, some plainPng⟩ false = some (⟨[], 1⟩, false) := rfl

/-- The report on a file that is no PNG file and whose scan reaches `analyze_tiff`. -/
theorem analyze_exif {name : Bytes} {scan : Scan}
    (png : tryAnalyzePngFile library limit ⟨name, some content⟩ before.pngValid =
      some (⟨[], -1⟩, before.pngValid))
    (scanned : (scanJpg library.realloc content content.length).2 = (.tiff len, scan)) :
    (analyze library limit ⟨name, some content⟩ before).map Prod.fst =
      some ⟨text "File: " ++ name ++ text "\n" ++ [] ++
        (analyzeTiff content len (.opening scan.position before.jpg)).2.printed, 0⟩ := by
  have jpg : tryAnalyzeJpgFile library ⟨name, some content⟩ before.jpg =
      some (⟨(analyzeTiff content len (.opening scan.position before.jpg)).2.printed, 0⟩,
        (analyzeTiff content len (.opening scan.position before.jpg)).2.statics) := by
    show analyzeJpg library.realloc content before.jpg = _
    rw [analyzeJpg, scanned]
  rw [analyze, png, jpg]
  rfl

/-- Two analyses of such a file with the same report have printed the same. -/
theorem analyze_exif_inj {name : Bytes} {other : Statics} {scan : Scan}
    (png : ∀ valid, tryAnalyzePngFile library limit ⟨name, some content⟩ valid =
      some (⟨[], -1⟩, valid))
    (scanned : (scanJpg library.realloc content content.length).2 = (.tiff len, scan))
    (same : (analyze library limit ⟨name, some content⟩ before).map Prod.fst =
      (analyze library limit ⟨name, some content⟩ other).map Prod.fst) :
    (analyzeTiff content len (.opening scan.position before.jpg)).2.printed =
      (analyzeTiff content len (.opening scan.position other.jpg)).2.printed := by
  rw [analyze_exif (png _) scanned, analyze_exif (png _) scanned] at same
  exact List.append_cancel_left (congrArg Report.printed (Option.some.inj same))

theorem makeFile_prints :
    (analyzeTiff makeFile.bytes 22 (.opening 12 .initial)).2.printed = text "Make: Ab\n" := by
  decide +kernel

theorem pointerFile_prints :
    (analyzeTiff pointerFile.bytes 34 (.opening 12 .initial)).2.printed = text "Make: Ab\n" := by
  decide +kernel

theorem pointerFile_silent (found : statics.exifFound = true) :
    (analyzeTiff pointerFile.bytes 34 (.opening 12 statics)).2.printed = [] :=
  pointer_prints_nothing found (by decide +kernel) (by decide +kernel) (by decide +kernel)

/-- With `valid` set, the analysis of the plain PNG file ends well, or at its checksum. -/
theorem plainPng_valid (library : Library) (limit : Nat) :
    Ends (analyzePng library limit plainPng (.opening true)) (fun _ _ => True)
      (fun stop _ => stop = .code (-1)) := by
  rw [analyzePng]
  refine Ends.leaveIf (fun _ => rfl) (fun _ => ?_)
  rw [PngState.fread_bind]
  refine Ends.leaveIf (fun _ => rfl) (fun _ => ?_)
  refine Ends.leaveIf (fun _ => rfl) (fun _ => ?_)
  rw [PngState.addBytesRead_bind]
  show Ends (pngLoop library limit plainPng 20 ⟨8, 8, true, [], []⟩) _ _
  rw [pngLoop, inspect_bind, branch_apply, if_pos (by decide)]
  refine Ends.bind (fun _ after => ¬ after.numBytesRead < plainPng.length) ?_ ?_
  · rw [pngChunk, PngState.fread_bind]
    refine Ends.leaveIf (fun short => absurd short (by decide)) (fun _ => ?_)
    rw [PngState.fread_bind]
    refine Ends.leaveIf (fun short => absurd short (by decide)) (fun _ => ?_)
    rw [leaveUnlessValid_bind, if_neg (by decide), PngState.addBytesRead_bind]
    refine Ends.leaveIf (fun large => absurd large (by decide +kernel)) (fun _ => ?_)
    rw [PngState.freadData_bind]
    refine Ends.leaveIf (fun short => absurd short (by decide)) (fun _ => ?_)
    rw [PngState.fread_bind]
    refine Ends.leaveIf (fun short => absurd short (by decide)) (fun _ => ?_)
    rw [PngState.addBytesRead_bind]
    refine Ends.leaveIf (fun _ => rfl) (fun _ => ?_)
    exact Nat.lt_irrefl 20
  · intro _ after outside
    rw [pngLoop, inspect_bind, branch_apply, id_eq, if_neg outside]
    trivial

theorem plainPng_fresh (library : Library) (limit : Nat) (name : Bytes)
    (analysed : (analyze library limit ⟨name, some plainPng⟩ .initial).map Prod.fst = some report) :
    report.result ≠ 1 := by
  have ends := plainPng_valid library limit
  have png : tryAnalyzePngFile library limit ⟨name, some plainPng⟩ true =
      pngReport (analyzePng library limit plainPng (.opening true)) := rfl
  have jpg : tryAnalyzeJpgFile library ⟨name, some plainPng⟩ .initial =
      some (⟨[], -1⟩, .initial) := rfl
  rcases run : analyzePng library limit plainPng (.opening true) with ⟨stop | _, after⟩
  · rw [run] at ends png
    cases ends
    rw [analyze, Statics.initial, png, jpg] at analysed
    cases analysed
    show (-1 : Int) ≠ 1
    decide
  · rw [run] at png
    rw [analyze, Statics.initial, png] at analysed
    cases analysed
    show (0 : Int) ≠ 1
    decide

theorem plainPng_stale (library : Library) (limit : Nat) (name : Bytes)
    (invalid : before.pngValid = false) :
    (analyze library limit ⟨name, some plainPng⟩ before).map Prod.fst =
      some ⟨text "File: " ++ name ++ text "\n" ++ [], 1⟩ := by
  rw [analyze, invalid, plainPng_png]
  rfl

/-- Every file is analysed after the earlier ones as it is alone, in what is printed and
in what is returned, exactly when the earlier files have left both `valid` flags set and
no Exif pointer found. -/
theorem alone_iff_clean (library : Library) (limit : Nat) (earlier : List File)
    (before : Statics) (reached : staticsAfter library limit .initial earlier = some before) :
    (∀ file later,
      (mainLoop library limit .initial (earlier ++ file :: later))[earlier.length]? =
        (mainLoop library limit .initial [file])[0]?) <-> Clean before := by
  have alone : ∀ file, (mainLoop library limit .initial [file])[0]? =
      (analyze library limit file .initial).map Prod.fst := fun file =>
    mainLoop_at file [] (show staticsAfter library limit .initial [] = some .initial from rfl)
  constructor
  · intro same
    have equal : ∀ file, (analyze library limit file before).map Prod.fst =
        (analyze library limit file .initial).map Prod.fst := by
      intro file
      rw [<- mainLoop_at file [] reached, same file [], alone]
    refine ⟨?_, ?_, ?_⟩
    · by_contra cleared
      have report := equal ⟨[], some plainPng⟩
      rw [plainPng_stale library limit [] (eq_false_of_ne_true cleared)] at report
      exact plainPng_fresh library limit [] report.symm rfl
    · by_contra cleared
      have printed := analyze_exif_inj (makeFile_png library limit []) (makeFile_scan _)
        (equal ⟨[], some makeFile.bytes⟩)
      rw [invalid_prints_nothing _ _ _ (eq_false_of_ne_true cleared)] at printed
      exact absurd (printed.trans makeFile_prints) (by decide)
    · by_contra found
      have printed := analyze_exif_inj (pointerFile_png library limit []) (pointerFile_scan _)
        (equal ⟨[], some pointerFile.bytes⟩)
      rw [pointerFile_silent (eq_true_of_ne_false found)] at printed
      exact absurd (printed.trans pointerFile_prints) (by decide)
  · intro clean file later
    have initial := clean.eq_initial (staticsAfter_unpointed reached (fun _ => rfl))
    rw [mainLoop_at file later reached, initial, alone]

/-- A library for runs on given files. -/
def sampleLibrary : Library where
  crc32 := fun _ => 0
  uncompress := fun _ _ => ⟨.dataError, 0, []⟩
  realloc := glibcRealloc

theorem alone_iff_clean_first :
    staticsAfter sampleLibrary 0 .initial [⟨[], some makeFile.bytes⟩] = some .initial ∧
      ((∀ file later,
        (mainLoop sampleLibrary 0 .initial ([⟨[], some makeFile.bytes⟩] ++ file :: later))[1]? =
          (mainLoop sampleLibrary 0 .initial [file])[0]?) <-> Clean .initial) :=
  have reached : staticsAfter sampleLibrary 0 .initial [⟨[], some makeFile.bytes⟩] =
      some .initial := by decide +kernel
  ⟨reached, alone_iff_clean sampleLibrary 0 [⟨[], some makeFile.bytes⟩] .initial reached⟩

/-- The same file twice: the second time its Exif pointer is refused, and its `Make` is
not printed. -/
theorem second_analysis_differs :
    mainLoop sampleLibrary 0 .initial
        [⟨text "a.jpg", some pointerFile.bytes⟩, ⟨text "a.jpg", some pointerFile.bytes⟩] =
      [⟨text "File: a.jpg\nMake: Ab\n", 0⟩, ⟨text "File: a.jpg\n", 0⟩] := by
  decide +kernel

end ImageMetadata
end Codebank
