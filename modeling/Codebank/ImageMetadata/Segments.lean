import Codebank.ImageMetadata.Jpg

namespace Codebank
namespace ImageMetadata

open Foundation Foundation.Routine Scan List

/-!
# Files with an Exif block

A well-formed file is a start marker, any segments, and an APP1 segment that holds
the Exif block.  The scan of such a file is followed segment by segment.
-/

/-- A marker with a length and a payload behind it. -/
def standardMarker (marker : UInt8) : Bool :=
  marker ≠ 0x00 ∧ marker ≠ 0xFF ∧ (marker < 0xD0 ∨ marker > 0xDA) ∧ marker ≠ 0xE1

/-- A marker with plain data behind it: `D0` to `D7`, and `DA`. -/
def dataMarker (marker : UInt8) : Bool :=
  0xD0 <= marker ∧ marker <= 0xD7 ∨ marker = 0xDA

/-- Every `FF` is followed by `00`. -/
def stuffed : Bytes -> Bool
  | [] => true
  | byte :: rest => (byte != 0xFF || rest.head? == some 0x00) && stuffed rest

inductive Segment where
  | standard (marker : UInt8) (payload : Bytes) (isStandard : standardMarker marker = true)
      (short : payload.length + 2 < 65536)
  | data (marker : UInt8) (content : Bytes) (isData : dataMarker marker = true)
      (isStuffed : stuffed content = true)

def Segment.bytes : Segment -> Bytes
  | .standard marker payload _ _ =>
    [0xFF, marker] ++ bigEndianPair (payload.length + 2) ++ payload
  | .data marker content _ _ => [0xFF, marker] ++ content

/-- Not a standard segment of the smallest length. -/
def Segment.full : Segment -> Bool
  | .standard _ payload _ _ => payload != []
  | .data _ _ _ _ => true

/-- A file whose Exif block lies behind any number of segments. -/
structure ExifFile where
  segments : List Segment
  block : Bytes
  short : block.length + 8 < 65536
  trailer : Bytes

namespace ExifFile

/-- The APP1 segment and what follows it. -/
def app1Bytes (image : ExifFile) : Bytes :=
  [0xFF, 0xE1] ++ (bigEndianPair (image.block.length + 8) ++
    (preHeader ++ (image.block ++ image.trailer)))

def bytes (image : ExifFile) : Bytes :=
  [0xFF, 0xD8] ++ (image.segments.flatMap Segment.bytes ++ image.app1Bytes)

/-- The position just behind the six bytes of the Exif header. -/
def blockStart (image : ExifFile) : Nat :=
  2 + (image.segments.flatMap Segment.bytes).length + 10

end ExifFile

/-- The `realloc` of glibc: no buffer for size zero. -/
def glibcRealloc (size : Nat) : Bool :=
  size != 0

/-! ## Reading what stands ahead -/

section

variable {file part rest : Bytes} {position numBytesRead count : Nat} {Value : Type}

theorem fread_ahead (ahead : file.drop position = part ++ rest) (size : part.length = count)
    (next : Bytes -> Routine Scan Ending Value) :
    (fread file count >>= next) ⟨position, numBytesRead⟩ =
      next part ⟨position + count, numBytesRead⟩ := by
  rw [fread_bind, readAt_ahead ahead size, size]

variable {byte : UInt8}

section

variable (ahead : file.drop position = byte :: rest)

include ahead

theorem drop_next : file.drop (position + 1) = rest :=
  drop_ahead (show file.drop position = [byte] ++ rest from ahead) rfl

theorem fread_byte (next : Bytes -> Unit -> Routine Scan Ending Value) :
    (fread file 1 >>= fun read => leaveIf (read.length ≠ 1) (.code (-1)) >>= next read)
      ⟨position, numBytesRead⟩ = next [byte] () ⟨position + 1, numBytesRead⟩ := by
  have ahead : file.drop position = [byte] ++ rest := ahead
  rw [fread_ahead ahead length_singleton, leaveIf_bind]
  exact if_neg (not_not.mpr rfl)

theorem inside_of_ahead : position < file.length := by
  have sizes := congrArg List.length ahead
  rw [length_drop, length_cons] at sizes
  omega

end

end

/-! ## The inner loop -/

section

variable {file rest : Bytes} {byte marker : UInt8} {limit position numBytesRead : Nat}

/-- A byte other than `FF` is passed. -/
theorem passData_plain (ahead : file.drop position = byte :: rest) (plain : byte ≠ 0xFF)
    (inside : numBytesRead < file.length) :
    passData file (limit + 1) ⟨position, numBytesRead⟩ =
      passData file limit ⟨position + 1, numBytesRead + 1⟩ := by
  rw [passData, inspect_bind, branch_apply, id_eq, if_pos inside, fread_byte ahead,
    addBytesRead_bind, branch_apply]
  exact if_neg plain

/-- `FF 00` is passed. -/
theorem passData_zero (ahead : file.drop position = 0xFF :: 0x00 :: rest)
    (inside : numBytesRead < file.length) :
    passData file (limit + 1) ⟨position, numBytesRead⟩ =
      passData file limit ⟨position + 2, numBytesRead + 2⟩ := by
  rw [passData, inspect_bind, branch_apply, id_eq, if_pos inside, fread_byte ahead,
    addBytesRead_bind, branch_apply]
  rw [show byteAt [(0xFF : UInt8)] 0 = 0xFF from rfl, if_pos rfl, fread_byte (drop_next ahead),
    addBytesRead_bind, branch_apply]
  exact if_neg (not_not.mpr rfl)

/-- `FF` and another byte end the loop, at the position before the `FF`. -/
theorem passData_marker (ahead : file.drop position = 0xFF :: marker :: rest)
    (real : marker ≠ 0x00) (inside : numBytesRead < file.length) :
    passData file (limit + 1) ⟨position, numBytesRead⟩ = (.ok (), ⟨position, numBytesRead⟩) := by
  rw [passData, inspect_bind, branch_apply, id_eq, if_pos inside, fread_byte ahead,
    addBytesRead_bind, branch_apply]
  rw [show byteAt [(0xFF : UInt8)] 0 = 0xFF from rfl, if_pos rfl, fread_byte (drop_next ahead),
    addBytesRead_bind, branch_apply]
  exact if_pos real

end

variable {file rest : Bytes} {marker : UInt8} {limit position numBytesRead : Nat}
  {realloc : Nat -> Bool}

/-- The inner loop passes over stuffed data and stops in front of the next marker. -/
theorem passData_stuffed {content : Bytes}
    (ahead : file.drop position = content ++ 0xFF :: marker :: rest) (real : marker ≠ 0x00)
    (isStuffed : stuffed content = true) (enough : content.length < limit) :
    passData file limit ⟨position, position⟩ =
      (.ok (), ⟨position + content.length, position + content.length⟩) := by
  induction limit generalizing content position with
  | zero => exact absurd enough (Nat.not_lt_zero _)
  | succ limit ih =>
    cases content with
    | nil => exact passData_marker ahead real (inside_of_ahead ahead)
    | cons byte content =>
      rw [stuffed, Bool.and_eq_true, Bool.or_eq_true, bne_iff_ne, beq_iff_eq] at isStuffed
      rw [length_cons] at enough ⊢
      rcases isStuffed with ⟨plain | escaped, isStuffed⟩
      · rw [passData_plain ahead plain (inside_of_ahead ahead),
          ih (drop_next ahead) isStuffed (by omega), Nat.add_assoc, Nat.add_comm 1]
      · by_cases plain : byte = 0xFF
        · subst plain
          cases content with
          | nil => cases escaped
          | cons zero content =>
            cases Option.some.inj escaped
            rw [stuffed, Bool.and_eq_true] at isStuffed
            rw [length_cons] at enough ⊢
            rw [passData_zero ahead (inside_of_ahead ahead),
              ih (drop_next (drop_next ahead)) isStuffed.2 (by omega)]
            rw [Nat.add_assoc position 2, Nat.add_comm 2]
        · rw [passData_plain ahead plain (inside_of_ahead ahead),
            ih (drop_next ahead) isStuffed (by omega), Nat.add_assoc, Nat.add_comm 1]

/-! ## One segment -/

section

variable (ahead : file.drop position = [0xFF, marker] ++ rest)

include ahead

theorem chunk_marker (notFill : marker ≠ 0xFF) (notEnd : marker ≠ 0xD9) (notStart : marker ≠ 0xD8)
    (notZero : marker ≠ 0x00) :
    chunk realloc file limit ⟨position, numBytesRead⟩ =
      (if (marker < 0xD0 ∨ marker > 0xDA) ∧ marker ≠ 0xE1 then standardChunk realloc file
        else if marker = 0xE1 then app1Chunk file else passData file limit)
      ⟨position + 2, numBytesRead + 2⟩ := by
  have two : [0xFF, marker].length = 2 := rfl
  rw [chunk, fread_ahead ahead two, two, leaveIf_skip (by decide), leaveIf_skip (by decide),
    addBytesRead_bind]
  have first : byteAt [0xFF, marker] 0 = 0xFF := rfl
  have second : byteAt [0xFF, marker] 1 = marker := rfl
  rw [first, second, leaveIf_skip (not_not.mpr rfl), leaveIf_skip notFill, leaveIf_skip notEnd,
    leaveIf_skip notStart, leaveIf_skip notZero]

theorem chunk_standard (isStandard : standardMarker marker = true) :
    chunk realloc file limit ⟨position, numBytesRead⟩ =
      standardChunk realloc file ⟨position + 2, numBytesRead + 2⟩ := by
  rcases of_decide_eq_true isStandard with ⟨notZero, notFill, outside, notApp1⟩
  have notEnd : marker ≠ 0xD9 := by
    rintro rfl
    exact absurd outside (by decide)
  have notStart : marker ≠ 0xD8 := by
    rintro rfl
    exact absurd outside (by decide)
  rw [chunk_marker ahead notFill notEnd notStart notZero, if_pos ⟨outside, notApp1⟩]

theorem chunk_data (isData : dataMarker marker = true) :
    chunk realloc file limit ⟨position, numBytesRead⟩ =
      passData file limit ⟨position + 2, numBytesRead + 2⟩ := by
  have other : ∀ {byte : UInt8}, dataMarker byte = false -> marker ≠ byte := by
    rintro byte refused rfl
    rw [isData] at refused
    cases refused
  have inside : ¬ ((marker < 0xD0 ∨ marker > 0xDA) ∧ marker ≠ 0xE1) := by
    rintro ⟨below | above, _⟩
    · rcases of_decide_eq_true isData with ⟨low, _⟩ | rfl
      · exact absurd below (UInt8.not_lt.mpr low)
      · exact absurd below (by decide)
    · rcases of_decide_eq_true isData with ⟨_, high⟩ | rfl
      · exact absurd (UInt8.lt_of_lt_of_le above high) (by decide)
      · exact absurd above (by decide)
  rw [chunk_marker ahead (other rfl) (other rfl) (other rfl) (other rfl), if_neg inside,
    if_neg (other rfl)]

end

section

variable {file payload rest : Bytes} {position numBytesRead : Nat}
  (short : payload.length + 2 < 65536)
  (ahead : file.drop position = bigEndianPair (payload.length + 2) ++ (payload ++ rest))

include short ahead

/-- The length field of a standard segment is read, and the buffer is asked for. -/
theorem standardChunk_length (realloc : Nat -> Bool) :
    standardChunk realloc file ⟨position, numBytesRead⟩ =
      (do
        leaveIf (realloc payload.length = false) (.code 1)
        let read <- fread file payload.length
        leaveIf (read.length < payload.length) (.code 0)
        addBytesRead payload.length : Routine Scan Ending Unit)
      ⟨position + 2, numBytesRead + 2⟩ := by
  have two : (bigEndianPair (payload.length + 2)).length = 2 := rfl
  have length : payloadLength (payload.length + 2) = payload.length := by
    rw [payloadLength, if_pos (by omega), Nat.add_sub_cancel]
  have inside : ¬ payload.length > file.length := by
    have sizes := congrArg List.length ahead
    rw [length_drop, length_append, length_append] at sizes
    omega
  rw [standardChunk, fread_ahead ahead two, two, leaveIf_skip (by decide), bigEndian_pair short,
    length, leaveIf_skip inside, addBytesRead_bind]

theorem standardChunk_full (full : payload ≠ []) :
    standardChunk glibcRealloc file ⟨position, numBytesRead⟩ =
      (.ok (), ⟨position + 2 + payload.length, numBytesRead + 2 + payload.length⟩) := by
  have size : payload.length ≠ 0 := fun zero => full (eq_nil_of_length_eq_zero zero)
  have given : glibcRealloc payload.length = true := bne_iff_ne.mpr size
  have two : (bigEndianPair (payload.length + 2)).length = 2 := rfl
  rw [standardChunk_length short ahead, leaveIf_skip (by rw [given]; decide),
    fread_ahead (drop_ahead ahead two) rfl, leaveIf_skip (Nat.lt_irrefl _), addBytesRead_apply]

theorem standardChunk_empty (empty : payload = []) :
    standardChunk glibcRealloc file ⟨position, numBytesRead⟩ =
      (.error (.code 1), ⟨position + 2, numBytesRead + 2⟩) := by
  have refused : glibcRealloc payload.length = false := by rw [empty]; rfl
  rw [standardChunk_length short ahead, leaveIf_bind, if_pos refused]

end

theorem app1Chunk_exif {file block trailer : Bytes} {position numBytesRead : Nat}
    (short : block.length + 8 < 65536) (ahead : file.drop position =
      bigEndianPair (block.length + 8) ++ (preHeader ++ (block ++ trailer))) :
    app1Chunk file ⟨position, numBytesRead⟩ =
      (.error (.tiff block.length), ⟨position + 8, numBytesRead⟩) := by
  have two : (bigEndianPair (block.length + 8)).length = 2 := rfl
  have six : preHeader.length = 6 := rfl
  have inside : ¬ block.length + 8 > file.length := by
    have sizes := congrArg List.length ahead
    rw [length_drop, length_append, length_append, length_append, two, six]
      at sizes
    omega
  rw [app1Chunk, fread_ahead ahead two, two, leaveIf_skip (by decide), bigEndian_pair short,
    leaveIf_skip inside, leaveIf_skip (by omega), fread_ahead (drop_ahead ahead two) six, six,
    leaveIf_skip (by decide), leaveIf_skip (not_not.mpr rfl), leave_apply, Nat.add_sub_cancel]

/-- The next segment begins with a marker. -/
def Marked (rest : Bytes) : Prop :=
  ∃ marker tail, rest = 0xFF :: marker :: tail ∧ marker ≠ 0x00

section

variable {file rest : Bytes} {segment : Segment} {limit position : Nat}
  (ahead : file.drop position = segment.bytes ++ rest)

include ahead

theorem chunk_full (marked : Marked rest) (full : segment.full = true)
    (enough : segment.bytes.length < limit + 2) :
    chunk glibcRealloc file limit ⟨position, position⟩ =
      (.ok (), ⟨position + segment.bytes.length, position + segment.bytes.length⟩) := by
  cases segment with
  | standard marker payload isStandard short =>
    have size : (Segment.standard marker payload isStandard short).bytes.length =
        2 + 2 + payload.length := by
      rw [Segment.bytes, length_append, length_append]
      rfl
    rw [Segment.bytes, append_assoc, append_assoc] at ahead
    rw [chunk_standard ahead isStandard, size, <- Nat.add_assoc, <- Nat.add_assoc]
    exact standardChunk_full short (drop_ahead ahead rfl) (bne_iff_ne.mp full)
  | data marker content isData isStuffed =>
    rcases marked with ⟨next, tail, rfl, real⟩
    rw [Segment.bytes, append_assoc] at ahead
    have size : (Segment.data marker content isData isStuffed).bytes.length =
        2 + content.length := length_append
    rw [chunk_data ahead isData, size, <- Nat.add_assoc]
    exact passData_stuffed (drop_ahead ahead rfl) real isStuffed (by omega)

theorem chunk_empty (empty : segment.full = false) :
    chunk glibcRealloc file limit ⟨position, position⟩ =
      (.error (.code 1), ⟨position + 4, position + 4⟩) := by
  cases segment with
  | standard marker payload isStandard short =>
    rw [Segment.bytes, append_assoc, append_assoc] at ahead
    rw [chunk_standard ahead isStandard]
    exact standardChunk_empty short (drop_ahead ahead rfl) (bne_eq_false_iff_eq.mp empty)
  | data marker content isData isStuffed => cases empty

end

theorem Segment.two_le (segment : Segment) : 2 <= segment.bytes.length := by
  cases segment with
  | standard marker payload isStandard short =>
    rw [Segment.bytes, append_assoc, length_append]
    exact Nat.le_add_right _ _
  | data marker content isData isStuffed =>
    rw [Segment.bytes, length_append]
    exact Nat.le_add_right _ _

theorem Segment.marked (segment : Segment) (rest : Bytes) : Marked (segment.bytes ++ rest) := by
  cases segment with
  | standard marker payload isStandard short =>
    exact ⟨marker, _, rfl, (of_decide_eq_true isStandard).1⟩
  | data marker content isData isStuffed =>
    refine ⟨marker, _, rfl, ?_⟩
    rintro rfl
    cases isData

/-! ## The whole file -/

section

variable {image : ExifFile} {file : Bytes} {segments : List Segment} {limit position : Nat}
  (ahead : file.drop position = segments.flatMap Segment.bytes ++ image.app1Bytes)
  (enough : file.length - position < limit)

theorem marked_ahead (image : ExifFile) (segments : List Segment) :
    Marked (segments.flatMap Segment.bytes ++ image.app1Bytes) := by
  cases segments with
  | nil => exact ⟨0xE1, _, rfl, by decide⟩
  | cons segment rest =>
    rw [flatMap_cons, append_assoc]
    exact segment.marked _

include ahead enough

/-- One turn of the outer loop passes a full segment. -/
theorem scanLoop_segment {segment : Segment} {rest : List Segment}
    (front : segments = segment :: rest) (full : segment.full = true) :
    ∃ fewer, file.length - (position + segment.bytes.length) < fewer ∧
      file.drop (position + segment.bytes.length) =
        rest.flatMap Segment.bytes ++ image.app1Bytes ∧
      (scanLoop glibcRealloc file limit ⟨position, position⟩).2 =
        (scanLoop glibcRealloc file fewer
          ⟨position + segment.bytes.length, position + segment.bytes.length⟩).2 := by
  rw [front, flatMap_cons, append_assoc] at ahead
  rcases segment.marked (rest.flatMap Segment.bytes ++ image.app1Bytes) with
    ⟨marker, tail, start, _⟩
  have inside := inside_of_ahead (ahead.trans start)
  have sizes := congrArg List.length ahead
  rw [length_drop, length_append] at sizes
  have two := segment.two_le
  cases limit with
  | zero => exact absurd enough (Nat.not_lt_zero _)
  | succ limit =>
    have room : segment.bytes.length < limit + 2 := by omega
    have turn := chunk_full ahead (marked_ahead image rest) full room
    refine ⟨limit, by omega, drop_ahead ahead rfl, ?_⟩
    rw [scanLoop_turn inside turn]

theorem scanLoop_reaches (full : segments.all Segment.full = true) :
    (scanLoop glibcRealloc file limit ⟨position, position⟩).2 =
      (.tiff image.block.length,
        ⟨position + (segments.flatMap Segment.bytes).length + 10,
          position + (segments.flatMap Segment.bytes).length + 2⟩) := by
  induction segments generalizing position limit with
  | nil =>
    cases limit with
    | zero => exact absurd enough (Nat.not_lt_zero _)
    | succ limit =>
      rw [flatMap_nil, nil_append, ExifFile.app1Bytes] at ahead
      have turn : chunk glibcRealloc file limit ⟨position, position⟩ =
          (.error (.tiff image.block.length), ⟨position + 2 + 8, position + 2⟩) := by
        rw [chunk_marker ahead (by decide) (by decide) (by decide) (by decide),
          if_neg (by decide), if_pos rfl]
        exact app1Chunk_exif image.short (drop_ahead ahead rfl)
      rw [scanLoop_last (inside_of_ahead ahead) turn]
      rfl
  | cons segment rest ih =>
    rw [all_cons, Bool.and_eq_true] at full
    rcases scanLoop_segment ahead enough rfl full.1 with ⟨fewer, enoughRest, aheadRest, same⟩
    rw [same, ih aheadRest enoughRest full.2, flatMap_cons, length_append,
      Nat.add_assoc position]

theorem scanLoop_stops (lacking : segments.all Segment.full = false) :
    (scanLoop glibcRealloc file limit ⟨position, position⟩).2.1 = .code 1 := by
  induction segments generalizing position limit with
  | nil => cases lacking
  | cons segment rest ih =>
    cases full : segment.full with
    | true =>
      rw [all_cons, full, Bool.true_and] at lacking
      rcases scanLoop_segment ahead enough rfl full with ⟨fewer, enoughRest, aheadRest, same⟩
      rw [same]
      exact ih aheadRest enoughRest lacking
    | false =>
      rw [flatMap_cons, append_assoc] at ahead
      rcases segment.marked (rest.flatMap Segment.bytes ++ image.app1Bytes) with
        ⟨marker, tail, start, _⟩
      cases limit with
      | zero => exact absurd enough (Nat.not_lt_zero _)
      | succ limit =>
        rw [scanLoop_last (inside_of_ahead (ahead.trans start)) (chunk_empty ahead full)]

end

theorem ExifFile.scanJpg_bytes (image : ExifFile) (realloc : Nat -> Bool) (limit : Nat) :
    scanJpg realloc image.bytes limit = scanLoop realloc image.bytes limit ⟨2, 2⟩ := rfl

/-- The scan of a well-formed file calls `analyze_tiff` with the file positioned just
behind the Exif header and with the length of the block, exactly when no standard
segment in front of it has the smallest length. -/
theorem reaches_exif_iff (image : ExifFile) (more : Nat) :
    ((scanJpg glibcRealloc image.bytes (image.bytes.length + more)).2.1 =
        .tiff image.block.length ∧
      (scanJpg glibcRealloc image.bytes (image.bytes.length + more)).2.2.position =
        image.blockStart) <->
      image.segments.all Segment.full = true := by
  have ahead : image.bytes.drop 2 = image.segments.flatMap Segment.bytes ++ image.app1Bytes := rfl
  have enough : image.bytes.length - 2 < image.bytes.length + more := by
    have two : 2 <= image.bytes.length := Nat.le_add_left 2 _
    omega
  rw [image.scanJpg_bytes]
  constructor
  · rintro ⟨called, _⟩
    cases full : image.segments.all Segment.full with
    | true => rfl
    | false =>
      rw [scanLoop_stops ahead enough full] at called
      cases called
  · intro full
    rw [scanLoop_reaches ahead enough full]
    exact ⟨rfl, rfl⟩

/-- One segment of the smallest length, and then an Exif block of eight bytes. -/
def behindEmptySegment : ExifFile where
  segments := [.standard 0xE0 [] rfl (by decide)]
  block := [0x49, 0x49, 0x2A, 0x00, 0x08, 0x00, 0x00, 0x00]
  short := by decide
  trailer := []

/-- The scan returns 1 at the segment of the smallest length. -/
theorem empty_segment_ends_scan :
    behindEmptySegment.bytes =
        [0xFF, 0xD8, 0xFF, 0xE0, 0x00, 0x02, 0xFF, 0xE1, 0x00, 0x10, 0x45, 0x78, 0x69, 0x66,
          0x00, 0x00, 0x49, 0x49, 0x2A, 0x00, 0x08, 0x00, 0x00, 0x00] ∧
      (scanJpg glibcRealloc behindEmptySegment.bytes 24).2.1 = .code 1 := by
  decide

end ImageMetadata
end Codebank
