import GoRetroTv.SnapshotRecords

/-!
# Sequences of typed writes and reads

A snapshot is a sequence of typed writes and a restore a sequence of typed
reads.  The same sequence reads back what was written; a sequence that asks for
more bytes or for fewer is refused, and so is a blob that is cut or extended.
-/

namespace GoRetroTv

namespace Snapcodec

/-- One typed write, with its value. -/
inductive Field where
  | bool (value : Bool)
  | uint8 (value : Byte)
  | uint16 (value : Half)
  | uint32 (value : Word)
  | uint64 (value : DoubleWord)
  | bytes (value : List Byte)
  | words (value : List Word)
  | string (value : List Byte)
  deriving DecidableEq

/-- The type of a write, and of the read that goes with it. -/
inductive Kind where
  | bool
  | uint8
  | uint16
  | uint32
  | uint64
  | bytes
  | words
  | string
  deriving DecidableEq

namespace Field

def kind : Field → Kind
  | bool _ => .bool
  | uint8 _ => .uint8
  | uint16 _ => .uint16
  | uint32 _ => .uint32
  | uint64 _ => .uint64
  | bytes _ => .bytes
  | words _ => .words
  | string _ => .string

def write : Field → Writer → Writer
  | bool value => Writer.bool value
  | uint8 value => Writer.uint8 value
  | uint16 value => Writer.uint16 value
  | uint32 value => Writer.uint32 value
  | uint64 value => Writer.uint64 value
  | bytes value => Writer.bytes value
  | words value => Writer.words value
  | string value => Writer.string value

/-- The payload bytes of a write. -/
def encode : Field → List Byte
  | bool value => encodeBool value
  | uint8 value => bigEndian 1 value.toNat
  | uint16 value => bigEndian 2 value.toNat
  | uint32 value => bigEndian 4 value.toNat
  | uint64 value => bigEndian 8 value.toNat
  | bytes value => encodeBytes value
  | words value => encodeWords value
  | string value => encodeBytes value

end Field

namespace Kind

def read : Kind → Reading Field
  | bool => do return .bool (← Reading.bool)
  | uint8 => do return .uint8 (← Reading.uint8)
  | uint16 => do return .uint16 (← Reading.uint16)
  | uint32 => do return .uint32 (← Reading.uint32)
  | uint64 => do return .uint64 (← Reading.uint64)
  | bytes => do return .bytes (← Reading.bytes)
  | words => do return .words (← Reading.words)
  | string => do return .string (← Reading.string)

/-- What a read returns once an error is set. -/
def zero : Kind → Field
  | bool => .bool false
  | uint8 => .uint8 0
  | uint16 => .uint16 0
  | uint32 => .uint32 0
  | uint64 => .uint64 0
  | bytes => .bytes []
  | words => .words []
  | string => .string []

/-- The bytes a read asks for, the length of a slice being the blob's word. -/
def wants (rest : List Byte) : Kind → Nat
  | bool => 1
  | uint8 => 1
  | uint16 => 2
  | uint32 => 4
  | uint64 => 8
  | bytes => 4 + ofBigEndian (rest.take 4)
  | words => 4 + 4 * ofBigEndian (rest.take 4)
  | string => 4 + ofBigEndian (rest.take 4)

end Kind

def writeAll (fields : List Field) (w : Writer) : Writer :=
  fields.foldl (fun w field => field.write w) w

def encodeAll (fields : List Field) : List Byte :=
  fields.flatMap Field.encode

def readAll : List Kind → Reading (List Field)
  | [] => pure []
  | kind :: kinds => do
      let field ← kind.read
      return field :: (← readAll kinds)

/-- The bytes a sequence of reads asks for. -/
def demand : List Kind → List Byte → Nat
  | [], _ => 0
  | kind :: kinds, rest => kind.wants rest + demand kinds (rest.drop (kind.wants rest))

/-- Open a blob, expect its writer, read the fields and ask `Done`. -/
def restoreFields (blob name : List Byte) (low high : Half) (kinds : List Kind) :
    Except String (List Field) :=
  restoring blob name low high "" do
    let fields ← readAll kinds
    Reading.done
    return fields

theorem Written.field {name : List Byte} {version : Half} {payload : List Byte} {w : Writer}
    (field : Field) (written : Written name version payload w) :
    Written name version (payload ++ field.encode) (field.write w) := by
  cases field with
  | bool value => exact written.bool value
  | uint8 value => exact written.uint8 value
  | uint16 value => exact written.uint16 value
  | uint32 value => exact written.uint32 value
  | uint64 value => exact written.uint64 value
  | bytes value => exact written.bytes value
  | words value => exact written.words value
  | string value => exact written.string value

theorem Written.fields (name : List Byte) (version : Half) (fields : List Field) :
    Written name version (encodeAll fields) (writeAll fields (newWriter name version)) :=
  (Written.start name version).foldl Field.encode Written.field fields

/-- Slices in a payload that fits are short enough. -/
theorem Field.write_eq {field : Field} (name : List Byte) (version : Half) (payload : List Byte)
    (fits : field.encode.length < wordLimit) :
    field.write ⟨name, version, payload, none⟩ = ⟨name, version, payload ++ field.encode, none⟩ := by
  cases field with
  | bool value => exact Writer.bool_mk _ _ _ value
  | uint8 value => rfl
  | uint16 value => rfl
  | uint32 value => rfl
  | uint64 value => rfl
  | bytes value =>
    rw [encode, encodeBytes_length] at fits
    exact Writer.bytes_mk _ _ _ (by omega)
  | words value =>
    rw [encode, encodeWords_length] at fits
    exact Writer.words_mk _ _ _ (by omega)
  | string value =>
    rw [encode, encodeBytes_length] at fits
    exact Writer.string_mk _ _ _ (by omega)

theorem writeAll_eq {fields : List Field} (name : List Byte) (version : Half)
    (payload : List Byte) (fits : (encodeAll fields).length < wordLimit) :
    writeAll fields ⟨name, version, payload, none⟩ =
      ⟨name, version, payload ++ encodeAll fields, none⟩ := by
  induction fields generalizing payload with
  | nil => simp [writeAll, encodeAll]
  | cons field fields ih =>
    simp only [encodeAll, List.flatMap_cons, List.length_append] at fits
    have rest := ih (payload ++ field.encode) (by rw [encodeAll]; omega)
    rw [writeAll, List.foldl_cons, field.write_eq _ _ _ (by omega)]
    rwa [writeAll, List.append_assoc] at rest

/-- Every payload that fits gives a blob. -/
theorem blob_writeAll {name : List Byte} (version : Half) {fields : List Field}
    (nonempty : name ≠ []) (short : name.length ≤ maxNameLen)
    (fits : (encodeAll fields).length < wordLimit) :
    (writeAll fields (newWriter name version)).blob =
      .ok (Writer.frame name version (encodeAll fields)) := by
  rw [newWriter_eq version nonempty short, writeAll_eq name version [] fits, List.nil_append]
  exact Writer.blob_mk _ _ _ short fits

theorem Reads.field {field : Field} (fits : field.encode.length < wordLimit) :
    Reads field.kind.read field.encode field := by
  cases field with
  | bool value => exact .map _ (.bool value)
  | uint8 value => exact .map _ (.uint8 value)
  | uint16 value => exact .map _ (.uint16 value)
  | uint32 value => exact .map _ (.uint32 value)
  | uint64 value => exact .map _ (.uint64 value)
  | bytes value =>
    rw [Field.encode, encodeBytes_length] at fits
    exact .map _ (.bytes (by omega))
  | words value =>
    rw [Field.encode, encodeWords_length] at fits
    exact .map _ (.words (by omega))
  | string value =>
    rw [Field.encode, encodeBytes_length] at fits
    exact .map _ (.string (by omega))

theorem Reads.fields {fields : List Field} (fits : (encodeAll fields).length < wordLimit) :
    Reads (readAll (fields.map Field.kind)) (encodeAll fields) fields := by
  induction fields with
  | nil => exact Reads.pure []
  | cons field fields ih =>
    simp only [encodeAll, List.flatMap_cons, List.length_append] at fits
    exact .bind (.field (by omega)) (.map (field :: ·) (ih (by rw [encodeAll]; omega)))

theorem restoreFields_frame {name : List Byte} {version low high : Half} {fields : List Field}
    (nameFits : name.length ≤ maxNameLen) (fits : (encodeAll fields).length < wordLimit)
    (lowBound : low ≤ version) (highBound : version ≤ high) :
    restoreFields (Writer.frame name version (encodeAll fields)) name low high
      (fields.map Field.kind) = .ok fields :=
  restoring_frame nameFits fits lowBound highBound
    (.bind_last (.fields fits) (.done (.pure [] fields)))

/-- A reading that ends with the reader's error set. -/
def Sticks {α : Type} (reading : Reading α) (r : Reader) : Prop :=
  ∃ value r', reading r = .ok value r' ∧ r'.err.isSome = true

/-- A reading takes what it asks for, if that is there, or an error is set. -/
def Takes {α : Type} (reading : Reading α) (count : Nat) (rest : List Byte) : Prop :=
  ∀ r : Reader, r.At rest →
    (count ≤ rest.length ∧ ∃ value, reading r = .ok value (r.advance count)) ∨ Sticks reading r

theorem Reader.At.advance_drop {r : Reader} {rest : List Byte} {count : Nat} (here : r.At rest)
    (enough : count ≤ rest.length) : (r.advance count).At (rest.drop count) := by
  have split : r.At (rest.take count ++ rest.drop count) := by rwa [List.take_append_drop]
  have there := split.advance
  rwa [List.length_take, Nat.min_eq_left enough] at there

/-- The bytes that are there are taken; otherwise an error is set. -/
theorem take_cases {r : Reader} {rest : List Byte} (here : r.At rest) (count : Nat) :
    (count ≤ rest.length ∧
        Reading.take count r = .ok (some (rest.take count)) (r.advance count)) ∨
      rest.length < count ∧ ∃ r', Reading.take count r = .ok none r' ∧ r'.err.isSome = true := by
  have remaining := here.remaining
  unfold Reading.take
  rw [if_neg (by simp [here.err]), if_neg (by simp [here.expected])]
  by_cases enough : rest.length < count
  · rw [if_pos (by omega)]
    refine .inr ⟨enough, _, rfl, ?_⟩
    simp [Reader.fail, here.err]
  · rw [if_neg (by omega), here.rest]
    exact .inl ⟨by omega, rfl⟩

/-- A bind, once its first reading has run. -/
theorem run_bind {α β : Type} {reading : Reading α} {r r' : Reader} {value : α}
    (read : reading r = .ok value r') (next : α → Reading β) :
    (reading >>= next) r = next value r' := by
  simp only [Bind.bind, EStateM.bind, read]

theorem unsigned_cases {r : Reader} {rest : List Byte} (here : r.At rest) (width : Nat) :
    (width ≤ rest.length ∧
        Reading.unsigned width r = .ok (ofBigEndian (rest.take width)) (r.advance width)) ∨
      rest.length < width ∧ ∃ r', Reading.unsigned width r = .ok 0 r' ∧ r'.err.isSome = true := by
  rcases take_cases here width with ⟨enough, taken⟩ | ⟨short, r', taken, failed⟩
  · exact .inl ⟨enough, run_bind taken _⟩
  · exact .inr ⟨short, r', run_bind taken _, failed⟩

theorem setErr_of_none {r : Reader} (error : Reader → String) (fresh : r.err = none) :
    Reading.setErr error r = .ok () { r with err := some (error r) } := by
  simp [Reading.setErr, fresh]

namespace Takes

variable {α β : Type} {rest : List Byte} {count : Nat}

theorem unsigned (width : Nat) (rest : List Byte) :
    Takes (Reading.unsigned width) width rest := by
  intro r here
  rcases unsigned_cases here width with ⟨enough, read⟩ | ⟨_, r', read, failed⟩
  · exact .inl ⟨enough, _, read⟩
  · exact .inr ⟨0, r', read, failed⟩

theorem map {reading : Reading α} (convert : α → β) (takes : Takes reading count rest) :
    Takes (do return convert (← reading)) count rest := by
  intro r here
  rcases takes r here with ⟨enough, value, read⟩ | ⟨value, r', read, failed⟩
  · exact .inl ⟨enough, convert value, run_bind read _⟩
  · exact .inr ⟨convert value, r', run_bind read _, failed⟩

theorem bool (rest : List Byte) : Takes Reading.bool 1 rest := by
  intro r here
  rcases unsigned_cases here 1 with ⟨enough, read⟩ | ⟨_, r', read, failed⟩
  · have first : Reading.uint8 r = .ok (BitVec.ofNat 8 (ofBigEndian (rest.take 1))) (r.advance 1) :=
      run_bind read _
    obtain ⟨misaligned, second⟩ : ∃ misaligned, Reading.bool r =
        (if BitVec.ofNat 8 (ofBigEndian (rest.take 1)) = 0 then pure false
        else if BitVec.ofNat 8 (ofBigEndian (rest.take 1)) = 1 then pure true
        else do
          Reading.setErr misaligned
          pure false : Reading Bool) (r.advance 1) := ⟨_, run_bind first _⟩
    split at second
    · exact .inl ⟨enough, false, second⟩
    · split at second
      · exact .inl ⟨enough, true, second⟩
      · exact .inr ⟨false, _, second.trans
          (run_bind (setErr_of_none _ (show (r.advance 1).err = none from here.err)) _), rfl⟩
  · have first : Reading.uint8 r = .ok 0 r' := run_bind read _
    exact .inr ⟨false, r', run_bind first _, failed⟩

theorem bytesOf (length : Nat) (rest : List Byte) : Takes (Reading.bytesOf length) length rest := by
  intro r here
  rcases take_cases here length with ⟨enough, taken⟩ | ⟨_, r', taken, failed⟩
  · exact .inl ⟨enough, _, run_bind taken _⟩
  · exact .inr ⟨[], r', run_bind taken _, failed⟩

/-- Words whose bytes are there. -/
theorem wordsOf {length : Nat} {rest : List Byte} (enough : length * 4 ≤ rest.length) {r : Reader}
    (here : r.At rest) :
    ∃ value, Reading.wordsOf length r = .ok value (r.advance (length * 4)) := by
  induction length generalizing r rest with
  | zero => exact ⟨[], rfl⟩
  | succ length ih =>
    have four : 4 ≤ rest.length := by omega
    obtain ⟨later, reads⟩ := ih (by rw [List.length_drop]; omega) (here.advance_drop four)
    rw [Reader.advance_advance, show 4 + length * 4 = (length + 1) * 4 by omega] at reads
    have read := ((unsigned_cases here 4).resolve_right fun short => by omega).2
    have first : Reading.uint32 r =
        .ok (BitVec.ofNat 32 (ofBigEndian (rest.take 4))) (r.advance 4) := run_bind read _
    exact ⟨_, (run_bind first _).trans (run_bind reads _)⟩

theorem checkedWordsOf (length : Nat) (rest : List Byte) :
    Takes (Reading.checkedWordsOf length) (4 * length) rest := by
  intro r here
  have remaining := here.remaining
  by_cases enough : length * 4 ≤ rest.length
  · obtain ⟨value, reads⟩ := wordsOf enough here
    rw [Nat.mul_comm 4 length]
    refine .inl ⟨enough, value, ?_⟩
    rw [Reading.checkedWordsOf, if_neg (by omega)]
    exact reads
  · refine .inr ⟨[], r.fail (length * 4), ?_, ?_⟩
    · rw [Reading.checkedWordsOf, if_pos (by omega)]
    · simp [Reader.fail, here.err]

/-- A slice behind its length. -/
theorem slice {reading : Nat → Reading (List α)} {width : Nat}
    (takes : ∀ length rest, Takes (reading length) (width * length) rest) (rest : List Byte) :
    Takes (do
        let length ← Reading.uint32
        if (← Reading.err).isSome then pure []
        else reading length.toNat)
      (4 + width * ofBigEndian (rest.take 4)) rest := by
  intro r here
  rcases unsigned_cases here 4 with ⟨four, read⟩ | ⟨_, r', read, failed⟩
  · have there := here.advance_drop four
    have length : (BitVec.ofNat 32 (ofBigEndian (rest.take 4))).toNat =
        ofBigEndian (rest.take 4) := by
      have bound := ofBigEndian_lt (rest.take 4)
      rw [List.length_take, Nat.min_eq_left four] at bound
      exact toNat_ofNat_of_lt_wordLimit (bound.trans_eq (by decide))
    have first : Reading.uint32 r =
        .ok (BitVec.ofNat 32 (ofBigEndian (rest.take 4))) (r.advance 4) := run_bind read _
    have opened := (run_bind first fun length => do
      if (← Reading.err).isSome then pure []
      else reading length.toNat).trans
        (run_bind (show Reading.err (r.advance 4) = .ok none (r.advance 4) by
          rw [Reading.err, there.err]) _)
    simp only [Option.isSome_none, Bool.false_eq_true, if_false, length] at opened
    rcases takes (ofBigEndian (rest.take 4)) (rest.drop 4) _ there with
      ⟨enough, value, reads⟩ | ⟨value, r', reads, failed⟩
    · rw [List.length_drop] at enough
      rw [Reader.advance_advance] at reads
      exact .inl ⟨by omega, value, opened.trans reads⟩
    · exact .inr ⟨value, r', opened.trans reads, failed⟩
  · have first : Reading.uint32 r = .ok 0 r' := run_bind read _
    refine .inr ⟨[], r', (run_bind first _).trans ?_, failed⟩
    rw [run_bind (show Reading.err r' = .ok r'.err r' from rfl), if_pos failed]
    rfl

theorem bytes (rest : List Byte) :
    Takes Reading.bytes (4 + ofBigEndian (rest.take 4)) rest := by
  have takes := @slice Byte Reading.bytesOf 1
    (fun length rest => by rw [Nat.one_mul]; exact bytesOf length rest) rest
  rwa [Nat.one_mul] at takes

theorem words (rest : List Byte) :
    Takes Reading.words (4 + 4 * ofBigEndian (rest.take 4)) rest :=
  slice checkedWordsOf rest

/-- A typed read. -/
theorem kind (kind : Kind) (rest : List Byte) : Takes kind.read (kind.wants rest) rest := by
  cases kind with
  | bool => exact (bool rest).map _
  | uint8 => exact ((unsigned 1 rest).map (BitVec.ofNat 8)).map _
  | uint16 => exact ((unsigned 2 rest).map (BitVec.ofNat 16)).map _
  | uint32 => exact ((unsigned 4 rest).map (BitVec.ofNat 32)).map _
  | uint64 => exact ((unsigned 8 rest).map (BitVec.ofNat 64)).map _
  | bytes => exact (bytes rest).map _
  | words => exact (words rest).map _
  | string => exact (bytes rest).map _

end Takes

theorem take_failed {r : Reader} (failed : r.err.isSome = true) (count : Nat) :
    Reading.take count r = .ok none r := by
  rw [Reading.take, if_pos failed]

theorem unsigned_failed {r : Reader} (failed : r.err.isSome = true) (width : Nat) :
    Reading.unsigned width r = .ok 0 r :=
  run_bind (take_failed failed width) _

theorem slice_failed {α : Type} {r : Reader} (failed : r.err.isSome = true)
    (reading : Nat → Reading (List α)) :
    (do
      let length ← Reading.uint32
      if (← Reading.err).isSome then pure []
      else reading length.toNat : Reading (List α)) r = .ok [] r := by
  have first : Reading.uint32 r = .ok 0 r := run_bind (unsigned_failed failed 4) _
  rw [run_bind first, run_bind (show Reading.err r = .ok r.err r from rfl), if_pos failed]
  rfl

/-- Reads behind an error return zero and leave the reader alone. -/
theorem Kind.read_failed {r : Reader} (failed : r.err.isSome = true) (kind : Kind) :
    kind.read r = .ok kind.zero r := by
  cases kind with
  | bool =>
    have first : Reading.uint8 r = .ok 0 r := run_bind (unsigned_failed failed 1) _
    exact run_bind (show Reading.bool r = .ok false r from run_bind first _) _
  | uint8 =>
    have first : Reading.uint8 r = .ok 0 r := run_bind (unsigned_failed failed 1) _
    exact run_bind first _
  | uint16 =>
    have first : Reading.uint16 r = .ok 0 r := run_bind (unsigned_failed failed 2) _
    exact run_bind first _
  | uint32 =>
    have first : Reading.uint32 r = .ok 0 r := run_bind (unsigned_failed failed 4) _
    exact run_bind first _
  | uint64 =>
    have first : Reading.uint64 r = .ok 0 r := run_bind (unsigned_failed failed 8) _
    exact run_bind first _
  | bytes => exact run_bind (slice_failed failed Reading.bytesOf) _
  | words => exact run_bind (slice_failed failed Reading.checkedWordsOf) _
  | string => exact run_bind (slice_failed failed Reading.bytesOf) _

theorem readAll_failed {r : Reader} (failed : r.err.isSome = true) (kinds : List Kind) :
    readAll kinds r = .ok (kinds.map Kind.zero) r := by
  induction kinds with
  | nil => rfl
  | cons kind kinds ih =>
    rw [readAll, run_bind (kind.read_failed failed), run_bind ih]
    rfl

theorem Takes.fields (kinds : List Kind) (rest : List Byte) :
    Takes (readAll kinds) (demand kinds rest) rest := by
  induction kinds generalizing rest with
  | nil =>
    intro r _
    exact .inl ⟨Nat.zero_le _, [], rfl⟩
  | cons kind kinds ih =>
    intro r here
    rcases Takes.kind kind rest r here with ⟨enough, value, read⟩ | ⟨value, r', read, failed⟩
    · rcases ih _ _ (here.advance_drop enough) with
        ⟨enoughLater, later, reads⟩ | ⟨later, r', reads, failed⟩
      · rw [List.length_drop] at enoughLater
        rw [Reader.advance_advance] at reads
        refine .inl ⟨by rw [demand]; omega, value :: later, ?_⟩
        exact (run_bind read _).trans (run_bind reads _)
      · exact .inr ⟨value :: later, r', (run_bind read _).trans (run_bind reads _), failed⟩
    · exact .inr ⟨_, r', (run_bind read _).trans (run_bind (readAll_failed failed kinds) _), failed⟩

/-- `Done` accepts no reader with an error, and none with bytes left. -/
theorem done_refuses {r : Reader} (unfinished : r.err.isSome = true ∨ r.remaining ≠ 0) :
    ∃ error, Reading.done r = .error error r := by
  unfold Reading.done
  cases isError : r.err with
  | some error => exact ⟨error, rfl⟩
  | none =>
    have left : r.remaining ≠ 0 := unfinished.resolve_left (by simp [isError])
    dsimp only
    split
    · exact ⟨_, rfl⟩
    · exact ⟨_, rfl⟩

/-- A sequence that asks for more than the payload, or for less, is refused. -/
theorem readAll_done_refuses {kinds : List Kind} {payload : List Byte} {r : Reader}
    (here : r.At payload) (mismatch : demand kinds payload ≠ payload.length) :
    ∃ error r', (do
      let fields ← readAll kinds
      Reading.done
      return fields) r = .error error r' := by
  have refuses {values : List Field} {r' : Reader} (reads : readAll kinds r = .ok values r')
      (unfinished : r'.err.isSome = true ∨ r'.remaining ≠ 0) :
      ∃ error r', (do
        let fields ← readAll kinds
        Reading.done
        return fields) r = .error error r' := by
    obtain ⟨error, refused⟩ := done_refuses unfinished
    refine ⟨error, r', (run_bind reads _).trans ?_⟩
    simp only [Bind.bind, EStateM.bind, refused]
  rcases Takes.fields kinds payload r here with ⟨enough, values, reads⟩ | ⟨values, r', reads, failed⟩
  · have left := (here.advance_drop enough).remaining
    rw [List.length_drop] at left
    exact refuses reads (.inr (by omega))
  · exact refuses reads (.inl failed)

theorem restoreFields_refuses {name : List Byte} {version low high : Half} {payload : List Byte}
    {kinds : List Kind} (nameFits : name.length ≤ maxNameLen) (fits : payload.length < wordLimit)
    (mismatch : demand kinds payload ≠ payload.length) :
    ∃ error, restoreFields (Writer.frame name version payload) name low high kinds =
      .error error := by
  rcases @restoringVersion_frame_cases _ name version payload low high "" (fun _ => do
      let fields ← readAll kinds
      Reading.done
      return fields) nameFits fits with refused | ⟨r, here, ran⟩
  · exact refused
  · obtain ⟨error, r', refused⟩ := readAll_done_refuses here mismatch
    exact ⟨error, ran.trans (by rw [refused]; rfl)⟩

/-- The length of a name, from its place in the header. -/
def nameLength (blob : List Byte) : Nat :=
  ofBigEndian ((blob.drop 6).take 2)

/-- The length of the payload, behind the name and the version. -/
def payloadLength (blob : List Byte) : Nat :=
  ofBigEndian ((blob.drop (8 + nameLength blob + 2)).take 4)

/-- A blob that opens is as long as its header says. -/
theorem length_of_open {blob : List Byte} {r : Reader} (opened : «open» blob = .ok r) :
    8 + nameLength blob + 2 + 4 ≤ blob.length ∧
      8 + nameLength blob + 2 + 4 + payloadLength blob = blob.length := by
  unfold «open» at opened
  dsimp only at opened
  split at opened
  · cases opened
  · split at opened
    · cases opened
    · split at opened
      · cases opened
      · split at opened
        · cases opened
        next nameFits =>
          split at opened
          · cases opened
          next exact_ =>
            rw [nameLength, payloadLength, nameLength]
            exact ⟨Nat.not_lt.mp nameFits, not_not.mp exact_⟩

theorem take_drop_append {blob tail : List Byte} {start count : Nat}
    (inside : start + count ≤ blob.length) :
    ((blob ++ tail).drop start).take count = (blob.drop start).take count := by
  rw [List.drop_append_of_le_length (by omega),
    List.take_append_of_le_length (by rw [List.length_drop]; omega)]

/-- Two blobs that open are the same if one continues the other. -/
theorem eq_of_open_of_isPrefix {blob other : List Byte} {r r' : Reader}
    (opened : «open» blob = .ok r) (openedOther : «open» other = .ok r')
    (continued : blob <+: other) : blob = other := by
  obtain ⟨tail, rfl⟩ := continued
  obtain ⟨header, length⟩ := length_of_open opened
  obtain ⟨_, lengthOther⟩ := length_of_open openedOther
  have sameName : nameLength (blob ++ tail) = nameLength blob := by
    rw [nameLength, take_drop_append (by omega), nameLength]
  have samePayload : payloadLength (blob ++ tail) = payloadLength blob := by
    rw [payloadLength, sameName, take_drop_append (by omega), payloadLength]
  rw [sameName, samePayload, length, List.length_append] at lengthOther
  rw [List.eq_nil_of_length_eq_zero (by omega : tail.length = 0), List.append_nil]

/-- A blob that opens is refused once it is cut short or extended. -/
theorem open_refuses {blob other : List Byte} {r : Reader} (opened : «open» blob = .ok r)
    (differs : other ≠ blob) (related : other <+: blob ∨ blob <+: other) :
    ∃ error, «open» other = .error error := by
  cases openedOther : «open» other with
  | error error => exact ⟨error, rfl⟩
  | ok r' =>
    rcases related with cut | extended
    · exact absurd (eq_of_open_of_isPrefix openedOther opened cut) differs
    · exact absurd (eq_of_open_of_isPrefix opened openedOther extended).symm differs

/-- Every operation behind an error keeps it, and every read returns zero. -/
def Sticky (r : Reader) (error : String) : Prop :=
  (∀ kind : Kind, kind.read r = .ok kind.zero r) ∧
    (∀ name low high, Reading.expect name low high r = .error error r) ∧
      Reading.done r = .error error r

theorem sticky {r : Reader} {error : String} (failed : r.err = some error) : Sticky r error := by
  refine ⟨Kind.read_failed (by rw [failed]; rfl), fun name low high => ?_, ?_⟩
  · simp only [Reading.expect, failed]
  · simp only [Reading.done, failed]

/-- The position is a place of the payload. -/
def Reader.Inside (r : Reader) : Prop :=
  r.pos ≤ r.payload.length

/-- The payload bytes a read is given lie inside the payload. -/
theorem take_inside {r r' : Reader} {count : Nat} {bytes : List Byte} (inside : r.Inside)
    (taken : Reading.take count r = .ok (some bytes) r') :
    r.pos + count ≤ r.payload.length ∧ bytes.length = count := by
  unfold Reader.Inside at inside
  unfold Reading.take at taken
  split at taken
  · cases taken
  · split at taken
    · cases taken
    · split at taken
      · cases taken
      next enough =>
        simp only [Reader.remaining] at enough
        obtain ⟨isBytes, -⟩ := EStateM.Result.ok.inj taken
        rw [← Option.some.inj isBytes, List.length_take, List.length_drop]
        exact ⟨by omega, by omega⟩

/-- A reading that never gives up, and ends inside the payload if it starts
there. -/
def StaysInside {α : Type} (reading : Reading α) : Prop :=
  ∀ r : Reader, r.Inside → ∃ value r', reading r = .ok value r' ∧ r'.Inside

namespace StaysInside

variable {α β : Type}

theorem pure (value : α) : StaysInside (Pure.pure value) :=
  fun r inside => ⟨value, r, rfl, inside⟩

theorem bind {reading : Reading α} {next : α → Reading β} (head : StaysInside reading)
    (tail : ∀ value, StaysInside (next value)) : StaysInside (reading >>= next) := by
  intro r inside
  obtain ⟨value, r', read, inside'⟩ := head r inside
  obtain ⟨result, last, reads, insideLast⟩ := tail value r' inside'
  exact ⟨result, last, (run_bind read _).trans reads, insideLast⟩

theorem ite {condition : Prop} [Decidable condition] {first second : Reading α}
    (yes : StaysInside first) (no : StaysInside second) :
    StaysInside (if condition then first else second) := by
  split
  · exact yes
  · exact no

theorem take (count : Nat) : StaysInside (Reading.take count) := by
  intro r inside
  unfold Reader.Inside at inside
  unfold Reading.take Reader.Inside
  split
  · exact ⟨none, r, rfl, inside⟩
  · split
    · exact ⟨none, _, rfl, inside⟩
    · split
      · refine ⟨none, _, rfl, ?_⟩
        unfold Reader.fail
        split <;> exact inside
      next enough =>
        simp only [Reader.remaining] at enough
        exact ⟨_, _, rfl, show r.pos + count ≤ r.payload.length by omega⟩

theorem unsigned (width : Nat) : StaysInside (Reading.unsigned width) := by
  refine bind (take width) fun bytes => ?_
  cases bytes with
  | none => exact pure 0
  | some bytes => exact pure _

theorem err : StaysInside Reading.err :=
  fun r inside => ⟨r.err, r, rfl, inside⟩

theorem setErr (error : Reader → String) : StaysInside (Reading.setErr error) := by
  intro r inside
  unfold Reading.setErr
  split
  · exact ⟨(), r, rfl, inside⟩
  · exact ⟨(), _, rfl, inside⟩

theorem bool : StaysInside Reading.bool :=
  bind (bind (unsigned 1) fun _ => pure _) fun _ =>
    ite (pure _) (ite (pure _) (bind (setErr _) fun _ => pure _))

theorem bytesOf (length : Nat) : StaysInside (Reading.bytesOf length) := by
  refine bind (take length) fun bytes => ?_
  cases bytes with
  | none => exact pure []
  | some bytes => exact pure _

theorem wordsOf (length : Nat) : StaysInside (Reading.wordsOf length) := by
  induction length with
  | zero => exact pure []
  | succ length ih => exact bind (bind (unsigned 4) fun _ => pure _) fun _ => bind ih fun _ => pure _

theorem checkedWordsOf (length : Nat) : StaysInside (Reading.checkedWordsOf length) := by
  intro r inside
  by_cases short : r.remaining < length * 4
  · refine ⟨[], r.fail (length * 4), by rw [Reading.checkedWordsOf, if_pos short], ?_⟩
    unfold Reader.fail
    split <;> exact inside
  · obtain ⟨value, r', read, inside'⟩ := wordsOf length r inside
    exact ⟨value, r', by rw [Reading.checkedWordsOf, if_neg short, read], inside'⟩

theorem slice {reading : Nat → Reading (List α)} (stays : ∀ length, StaysInside (reading length)) :
    StaysInside (do
      let length ← Reading.uint32
      if (← Reading.err).isSome then Pure.pure []
      else reading length.toNat) :=
  bind (bind (unsigned 4) fun _ => pure _) fun _ => bind err fun _ => ite (pure []) (stays _)

theorem kind (kind : Kind) : StaysInside kind.read := by
  cases kind with
  | bool => exact bind bool fun _ => pure _
  | uint8 => exact bind (bind (unsigned 1) fun _ => pure _) fun _ => pure _
  | uint16 => exact bind (bind (unsigned 2) fun _ => pure _) fun _ => pure _
  | uint32 => exact bind (bind (unsigned 4) fun _ => pure _) fun _ => pure _
  | uint64 => exact bind (bind (unsigned 8) fun _ => pure _) fun _ => pure _
  | bytes => exact bind (slice bytesOf) fun _ => pure _
  | words => exact bind (slice checkedWordsOf) fun _ => pure _
  | string => exact bind (slice bytesOf) fun _ => pure _

theorem fields (kinds : List Kind) : StaysInside (readAll kinds) := by
  induction kinds with
  | nil => exact pure []
  | cons head kinds ih => exact bind (kind head) fun _ => bind ih fun _ => pure _

end StaysInside

/-- A sequence of writes comes back by the same sequence of reads and by no
sequence that asks for another number of bytes; a blob is refused when it is cut
or extended; an error stays, with nothing read behind it. -/
theorem codec (name : List Byte) (version : Half) (fields : List Field) :
    (name ≠ [] → name.length ≤ maxNameLen → (encodeAll fields).length < wordLimit →
      ∃ blob, (writeAll fields (newWriter name version)).blob = .ok blob) ∧
    (∀ blob, (writeAll fields (newWriter name version)).blob = .ok blob →
      (∀ low high, low ≤ version → version ≤ high →
        restoreFields blob name low high (fields.map Field.kind) = .ok fields) ∧
      (∀ low high kinds, demand kinds (encodeAll fields) ≠ (encodeAll fields).length →
        ∃ error, restoreFields blob name low high kinds = .error error) ∧
      (∀ other, other ≠ blob → other <+: blob ∨ blob <+: other →
        ∃ error, «open» other = .error error)) ∧
    (∀ (r : Reader) (error : String), r.err = some error → Sticky r error) ∧
    (∀ kinds, StaysInside (readAll kinds)) ∧
    (∀ (r r' : Reader) (count : Nat) (bytes : List Byte), r.Inside →
      Reading.take count r = .ok (some bytes) r' →
      r.pos + count ≤ r.payload.length ∧ bytes.length = count) := by
  refine ⟨fun nonempty short fits => ⟨_, blob_writeAll version nonempty short fits⟩, ?_,
    fun _ _ => sticky, StaysInside.fields, fun _ _ _ _ => take_inside⟩
  intro blob taken
  obtain ⟨nameFits, fits, rfl⟩ := (Written.fields name version fields).blob taken
  have opened := open_frame version nameFits fits
  exact ⟨fun _ _ => restoreFields_frame nameFits fits,
    fun _ _ _ => restoreFields_refuses nameFits fits, fun _ => open_refuses opened⟩

/-- The codec on one blob: its fields come back, and a read too few is refused. -/
theorem codec_timer :
    restoreFields (Writer.frame (ascii "timer") 2 (encodeAll [.uint32 7, .bool true])) (ascii "timer")
        1 2 [.uint32, .bool] = .ok [.uint32 7, .bool true] ∧
      ∃ error, restoreFields (Writer.frame (ascii "timer") 2 (encodeAll [.uint32 7, .bool true]))
        (ascii "timer") 1 2 [.uint32] = .error error := by
  have laws := (codec (ascii "timer") 2 [.uint32 7, .bool true]).2.1 _
    (blob_writeAll 2 (by decide) (by decide) (by decide))
  exact ⟨laws.1 1 2 (by decide) (by decide), laws.2.1 1 2 [.uint32] (by decide)⟩

end Snapcodec

end GoRetroTv
