import GoRetroTv.SnapshotCodec

/-!
# Reading back what was written

`Reads` says that a reading consumes exactly one encoding and returns its
value; `Parses` says what a reading makes of a whole remaining payload, success
or failure.  Both compose along the binds of a restore, so a restore over the
payload its snapshot wrote is worked out field by field.
-/

namespace GoRetroTv

namespace Snapcodec

def encodeBytes (value : List Byte) : List Byte :=
  bigEndian 4 value.length ++ value

def encodeWords (value : List Word) : List Byte :=
  bigEndian 4 value.length ++ value.flatMap fun word => bigEndian 4 word.toNat

def encodeBool (value : Bool) : List Byte :=
  bigEndian 1 (if value then 1 else 0)

@[simp]
theorem encodeBytes_length (value : List Byte) :
    (encodeBytes value).length = value.length + 4 := by
  simp [encodeBytes]
  omega

@[simp]
theorem encodeWords_length (value : List Word) :
    (encodeWords value).length = 4 * value.length + 4 := by
  induction value with
  | nil => simp [encodeWords]
  | cons word value ih =>
      simp only [encodeWords, List.length_append, bigEndian_length, List.flatMap_cons,
        List.length_cons] at ih ⊢
      omega

theorem newWriter_eq {name : List Byte} (version : Half) (nonempty : name ≠ [])
    (short : name.length ≤ maxNameLen) :
    newWriter name version = { name, version } := by
  simp [newWriter, nonempty, Nat.not_lt.mpr short]

namespace Writer

variable (name : List Byte) (version : Half) (payload : List Byte)

@[simp]
theorem append_mk (added : List Byte) :
    append added ⟨name, version, payload, none⟩ =
      ⟨name, version, payload ++ added, none⟩ :=
  rfl

@[simp]
theorem uint8_mk (value : Byte) :
    uint8 value ⟨name, version, payload, none⟩ =
      ⟨name, version, payload ++ bigEndian 1 value.toNat, none⟩ :=
  rfl

@[simp]
theorem uint16_mk (value : Half) :
    uint16 value ⟨name, version, payload, none⟩ =
      ⟨name, version, payload ++ bigEndian 2 value.toNat, none⟩ :=
  rfl

@[simp]
theorem uint32_mk (value : Word) :
    uint32 value ⟨name, version, payload, none⟩ =
      ⟨name, version, payload ++ bigEndian 4 value.toNat, none⟩ :=
  rfl

@[simp]
theorem uint64_mk (value : DoubleWord) :
    uint64 value ⟨name, version, payload, none⟩ =
      ⟨name, version, payload ++ bigEndian 8 value.toNat, none⟩ :=
  rfl

@[simp]
theorem count_mk (value : Nat) :
    count value ⟨name, version, payload, none⟩ =
      ⟨name, version, payload ++ bigEndian 8 (BitVec.ofNat 64 value).toNat, none⟩ :=
  rfl

@[simp]
theorem bool_mk (value : Bool) :
    bool value ⟨name, version, payload, none⟩ =
      ⟨name, version, payload ++ encodeBool value, none⟩ := by
  cases value <;> rfl

theorem bytes_mk {value : List Byte} (fits : value.length < wordLimit) :
    bytes value ⟨name, version, payload, none⟩ =
      ⟨name, version, payload ++ encodeBytes value, none⟩ := by
  simp only [bytes, Option.isSome_none, Bool.false_eq_true, if_false, if_pos fits, uint32_mk,
    append_mk, toNat_ofNat_of_lt_wordLimit fits, encodeBytes, List.append_assoc]

theorem string_mk {value : List Byte} (fits : value.length < wordLimit) :
    string value ⟨name, version, payload, none⟩ =
      ⟨name, version, payload ++ encodeBytes value, none⟩ :=
  bytes_mk name version payload fits

theorem foldl_uint32_mk (value : List Word) :
    value.foldl (fun w word => uint32 word w) (Writer.mk name version payload none) =
      ⟨name, version, payload ++ value.flatMap fun word => bigEndian 4 word.toNat, none⟩ := by
  induction value generalizing payload with
  | nil => simp
  | cons word value ih => simp [ih]

theorem words_mk {value : List Word} (fits : value.length < wordLimit) :
    words value ⟨name, version, payload, none⟩ =
      ⟨name, version, payload ++ encodeWords value, none⟩ := by
  simp only [words, Option.isSome_none, Bool.false_eq_true, if_false, if_pos fits, uint32_mk,
    foldl_uint32_mk, toNat_ofNat_of_lt_wordLimit fits, encodeWords, List.append_assoc]

theorem blob_mk (nameFits : name.length ≤ maxNameLen) (payloadFits : payload.length < wordLimit) :
    blob ⟨name, version, payload, none⟩ = .ok (frame name version payload) := by
  simp only [blob]
  rw [if_neg (Nat.not_le.mpr payloadFits), if_neg (Nat.not_lt.mpr nameFits)]

end Writer

namespace Writer

variable {w : Writer}

theorem append_failed (failed : w.err.isSome) (added : List Byte) : w.append added = w := by
  simp [append, failed]

theorem count_failed (failed : w.err.isSome) (value : Nat) : w.count value = w :=
  append_failed failed _

theorem string_failed (failed : w.err.isSome) (value : List Byte) : w.string value = w := by
  simp [string, bytes, failed]

theorem string_too_long (name : List Byte) (version : Half) (payload : List Byte) {value : List Byte}
    (tooLong : ¬ value.length < wordLimit) :
    (string value ⟨name, version, payload, none⟩).err.isSome := by
  simp [string, bytes, tooLong]

theorem blob_failed (failed : w.err.isSome) (blob : List Byte) : w.blob ≠ .ok blob := by
  obtain ⟨error, isError⟩ := Option.isSome_iff_exists.mp failed
  simp [Writer.blob, isError]

/-- A blob comes only from a payload and a name that fit their wire fields. -/
theorem eq_frame_of_blob {name : List Byte} {version : Half} {payload blob : List Byte}
    (written : Writer.blob ⟨name, version, payload, none⟩ = .ok blob) :
    name.length ≤ maxNameLen ∧ payload.length < wordLimit ∧
      blob = frame name version payload := by
  simp only [Writer.blob] at written
  split at written
  · cases written
  next payloadFits =>
    split at written
    · cases written
    next nameFits =>
      exact ⟨Nat.not_lt.mp nameFits, Nat.not_le.mp payloadFits, (Except.ok.inj written).symm⟩

end Writer

theorem frame_length (name : List Byte) (version : Half) (payload : List Byte) :
    (Writer.frame name version payload).length =
      headerSize + name.length + payload.length := by
  simp [Writer.frame, magic, ascii, headerSize]
  omega

/-- A field of a byte string, found by the length of what comes before it. -/
theorem take_drop_field {bytes field : List Byte} {offset size : Nat}
    (before after : List Byte) (split : bytes = before ++ (field ++ after)) (offsetEq : before.length = offset)
    (sizeEq : field.length = size) :
    (bytes.drop offset).take size = field := by
  subst offsetEq sizeEq split
  simp

theorem open_frame {name : List Byte} (version : Half) {payload : List Byte}
    (nameFits : name.length ≤ maxNameLen) (payloadFits : payload.length < wordLimit) :
    «open» (Writer.frame name version payload) = .ok { name, version, payload } := by
  have magicField : (Writer.frame name version payload).take 4 = magic := by
    rw [Writer.frame]
    simp only [List.append_assoc]
    exact List.take_left' rfl
  have containerField :
      ((Writer.frame name version payload).drop 4).take 2 = bigEndian 2 containerVersion :=
    take_drop_field magic
      (bigEndian 2 name.length ++ (name ++
        (bigEndian 2 version.toNat ++ (bigEndian 4 payload.length ++ payload))))
      (by simp [Writer.frame]) rfl (by simp)
  have nameLenField :
      ((Writer.frame name version payload).drop 6).take 2 = bigEndian 2 name.length :=
    take_drop_field (magic ++ bigEndian 2 containerVersion)
      (name ++ (bigEndian 2 version.toNat ++ (bigEndian 4 payload.length ++ payload)))
      (by simp [Writer.frame]) rfl (by simp)
  have nameField : ((Writer.frame name version payload).drop 8).take name.length = name :=
    take_drop_field
      (magic ++ bigEndian 2 containerVersion ++ bigEndian 2 name.length)
      (bigEndian 2 version.toNat ++ (bigEndian 4 payload.length ++ payload))
      (by simp [Writer.frame]) (by simp [magic, ascii]) rfl
  have versionField :
      ((Writer.frame name version payload).drop (8 + name.length)).take 2 =
        bigEndian 2 version.toNat :=
    take_drop_field
      (magic ++ bigEndian 2 containerVersion ++ bigEndian 2 name.length ++ name)
      (bigEndian 4 payload.length ++ payload)
      (by simp [Writer.frame]) (by simp [magic, ascii]; omega) (by simp)
  have payloadLenField :
      ((Writer.frame name version payload).drop (8 + name.length + 2)).take 4 =
        bigEndian 4 payload.length :=
    take_drop_field
      (magic ++ bigEndian 2 containerVersion ++ bigEndian 2 name.length ++ name ++
        bigEndian 2 version.toNat)
      payload
      (by simp [Writer.frame]) (by simp [magic, ascii]; omega) (by simp)
  have payloadField :
      ((Writer.frame name version payload).drop (8 + name.length + 2 + 4)).take payload.length =
        payload :=
    take_drop_field
      (magic ++ bigEndian 2 containerVersion ++ bigEndian 2 name.length ++ name ++
        bigEndian 2 version.toNat ++ bigEndian 4 payload.length)
      []
      (by simp [Writer.frame]) (by simp [magic, ascii]; omega) rfl
  have nameLen : ofBigEndian (bigEndian 2 name.length) = name.length :=
    ofBigEndian_bigEndian (by simp only [maxNameLen] at nameFits; omega)
  have payloadLen : ofBigEndian (bigEndian 4 payload.length) = payload.length :=
    ofBigEndian_bigEndian (by simp only [wordLimit] at payloadFits; omega)
  have versionValue : ofBigEndian (bigEndian 2 version.toNat) = version.toNat :=
    ofBigEndian_bigEndian (by have := version.isLt; omega)
  have container : ofBigEndian (bigEndian 2 containerVersion) = containerVersion := by
    decide
  have length := frame_length name version payload
  simp only [headerSize] at length
  simp only [«open», magicField, containerField, nameLenField, nameLen, nameField, versionField,
    payloadLenField, payloadLen, payloadField, versionValue, container, headerSize, length]
  rw [if_neg (by omega), if_neg (by simp), if_neg (by simp), if_neg (by omega),
    if_neg (by omega)]
  simp

namespace Reader

/-- A reader that has been identified, has not failed, and has `rest` left. -/
structure At (r : Reader) (rest : List Byte) : Prop where
  err : r.err = none
  expected : r.expected = true
  inside : r.pos ≤ r.payload.length
  rest : r.payload.drop r.pos = rest

/-- The reader once `count` more bytes have been taken. -/
def advance (count : Nat) (r : Reader) : Reader :=
  { r with pos := r.pos + count }

theorem advance_advance (first second : Nat) (r : Reader) :
    (r.advance first).advance second = r.advance (first + second) := by
  simp [advance, Nat.add_assoc]

theorem At.remaining {r : Reader} {rest : List Byte} (here : r.At rest) :
    r.remaining = rest.length := by
  simp [Reader.remaining, ← here.rest]

theorem At.advance {r : Reader} {taken rest : List Byte} (here : r.At (taken ++ rest)) :
    (r.advance taken.length).At rest where
  err := here.err
  expected := here.expected
  inside := by
    have := here.remaining
    have inside := here.inside
    simp only [Reader.remaining, List.length_append, Reader.advance] at this ⊢
    omega
  rest := by
    simp only [Reader.advance, ← List.drop_drop, here.rest, List.drop_left]

end Reader

/-- The reading consumes exactly `bytes` and returns `value`. -/
def Reads {α : Type} (reading : Reading α) (bytes : List Byte) (value : α) : Prop :=
  ∀ (r : Reader) (rest : List Byte), r.At (bytes ++ rest) →
    reading r = .ok value (r.advance bytes.length)

/-- What a reading returned, without the reader. -/
def outcome {α : Type} : EStateM.Result String Reader α → Except String α
  | .ok value _ => .ok value
  | .error error _ => .error error

/-- With `bytes` left, the reading ends in `result`. -/
def Parses {α : Type} (reading : Reading α) (bytes : List Byte) (result : Except String α) :
    Prop :=
  ∀ r : Reader, r.At bytes → outcome (reading r) = result

namespace Reads

variable {α β : Type}

theorem pure (value : α) : Reads (Pure.pure value) [] value := by
  intro r rest here
  rfl

theorem bind {reading : Reading α} {next : α → Reading β} {first second : List Byte}
    {value : α} {result : β} (head : Reads reading first value)
    (tail : Reads (next value) second result) :
    Reads (reading >>= next) (first ++ second) result := by
  intro r rest here
  rw [List.append_assoc] at here
  have step := head r (second ++ rest) here
  have last := tail _ rest here.advance
  rw [Reader.advance_advance] at last
  simp only [Bind.bind, EStateM.bind, step, last, List.length_append]

theorem take {count : Nat} {bytes : List Byte} (length : bytes.length = count) :
    Reads (Reading.take count) bytes (some bytes) := by
  intro r rest here
  have remaining := here.remaining
  rw [List.length_append] at remaining
  unfold Reading.take
  rw [if_neg (by simp [here.err]), if_neg (by simp [here.expected]), if_neg (by omega), here.rest,
    ← length, List.take_left]
  rfl

theorem unsigned (width : Nat) {number : Nat} (fits : number < 256 ^ width) :
    Reads (Reading.unsigned width) (bigEndian width number) number := by
  have value := ofBigEndian_bigEndian fits
  have read : Reads (Reading.unsigned width) (bigEndian width number ++ [])
      (ofBigEndian (bigEndian width number)) :=
    bind (take (bigEndian_length width number)) (Reads.pure _)
  rwa [List.append_nil, value] at read

theorem map {reading : Reading α} {bytes : List Byte} {value : α} (convert : α → β)
    (head : Reads reading bytes value) :
    Reads (do return convert (← reading)) bytes (convert value) := by
  have read : Reads (do return convert (← reading)) (bytes ++ []) (convert value) :=
    bind head (Reads.pure (convert value))
  rwa [List.append_nil] at read

theorem uint8 (value : Byte) :
    Reads Reading.uint8 (bigEndian 1 value.toNat) value := by
  have read := map (BitVec.ofNat 8) (unsigned 1 value.isLt)
  rwa [BitVec.ofNat_toNat, BitVec.setWidth_eq] at read

theorem uint16 (value : Half) :
    Reads Reading.uint16 (bigEndian 2 value.toNat) value := by
  have read := map (BitVec.ofNat 16) (unsigned 2 value.isLt)
  rwa [BitVec.ofNat_toNat, BitVec.setWidth_eq] at read

theorem uint32 (value : Word) :
    Reads Reading.uint32 (bigEndian 4 value.toNat) value := by
  have read := map (BitVec.ofNat 32) (unsigned 4 value.isLt)
  rwa [BitVec.ofNat_toNat, BitVec.setWidth_eq] at read

theorem uint64 (value : DoubleWord) :
    Reads Reading.uint64 (bigEndian 8 value.toNat) value := by
  have read := map (BitVec.ofNat 64) (unsigned 8 value.isLt)
  rwa [BitVec.ofNat_toNat, BitVec.setWidth_eq] at read

theorem count {value : Nat} (fits : value < countLimit) :
    Reads Reading.count (bigEndian 8 (BitVec.ofNat 64 value).toNat) value := by
  have read := map BitVec.toNat (uint64 (BitVec.ofNat 64 value))
  rwa [toNat_ofNat_of_lt_countLimit fits] at read ⊢

theorem bool (value : Bool) :
    Reads Reading.bool (encodeBool value) value := by
  have read : Reads Reading.bool (encodeBool value ++ []) value := by
    cases value with
    | false => exact bind (uint8 0) (Reads.pure false)
    | true => exact bind (uint8 1) (Reads.pure true)
  rwa [List.append_nil] at read

theorem err : Reads Reading.err [] none := by
  intro r rest here
  simp only [Reading.err, here.err]
  rfl

theorem bytesOf (value : List Byte) :
    Reads (Reading.bytesOf value.length) value value := by
  have read : Reads (Reading.bytesOf value.length) (value ++ []) value :=
    bind (take rfl) (Reads.pure value)
  rwa [List.append_nil] at read

theorem bytes {value : List Byte} (fits : value.length < wordLimit) :
    Reads Reading.bytes (encodeBytes value) value := by
  have length := uint32 (BitVec.ofNat 32 value.length)
  rw [toNat_ofNat_of_lt_wordLimit fits] at length
  refine bind length ?_
  have read := bytesOf value
  rw [← toNat_ofNat_of_lt_wordLimit fits] at read
  exact bind err read

theorem string {value : List Byte} (fits : value.length < wordLimit) :
    Reads Reading.string (encodeBytes value) value :=
  bytes fits

theorem wordsOf (value : List Word) :
    Reads (Reading.wordsOf value.length) (value.flatMap fun word => bigEndian 4 word.toNat)
      value := by
  induction value with
  | nil => exact Reads.pure []
  | cons word value ih =>
      exact bind (uint32 word) (map (word :: ·) ih)

theorem checkedWordsOf (value : List Word) :
    Reads (Reading.checkedWordsOf value.length)
      (value.flatMap fun word => bigEndian 4 word.toNat) value := by
  intro r rest here
  have remaining := here.remaining
  have size := encodeWords_length value
  simp only [encodeWords, List.length_append, bigEndian_length] at size remaining
  rw [Reading.checkedWordsOf, if_neg (by omega)]
  exact wordsOf value r rest here

theorem words {value : List Word} (fits : value.length < wordLimit) :
    Reads Reading.words (encodeWords value) value := by
  have length := uint32 (BitVec.ofNat 32 value.length)
  rw [toNat_ofNat_of_lt_wordLimit fits] at length
  refine bind length ?_
  have read := checkedWordsOf value
  rw [← toNat_ofNat_of_lt_wordLimit fits] at read
  exact bind err read

end Reads

theorem bind_ok {α β : Type} {reading : Reading α} {next : α → Reading β} {r last : Reader}
    {result : β} (succeeded : (reading >>= next) r = .ok result last) :
    ∃ value r', reading r = .ok value r' ∧ next value r' = .ok result last := by
  simp only [Bind.bind, EStateM.bind] at succeeded
  cases first : reading r with
  | ok value r' =>
      rw [first] at succeeded
      exact ⟨value, r', rfl, succeeded⟩
  | error error r' =>
      rw [first] at succeeded
      cases succeeded

theorem require_ok {condition : Bool} {error : String} {r last : Reader}
    (succeeded : Reading.require condition error r = .ok () last) :
    condition = true := by
  cases condition with
  | false => cases succeeded
  | true => rfl

theorem count_lt {value : Nat} {r r' : Reader} (read : Reading.count r = .ok value r') :
    value < countLimit := by
  rw [Reading.count] at read
  obtain ⟨word, _, _, returned⟩ := bind_ok read
  obtain ⟨rfl, -⟩ := EStateM.Result.ok.inj returned
  exact word.isLt

theorem expect_ok {name : List Byte} {low high : Half} {label : String} {r r' : Reader}
    (expected : Reading.wrap label (Reading.expect name low high) r = .ok () r') :
    r' = { r with expected := true } := by
  unfold Reading.wrap at expected
  split at expected
  next value last identified =>
    obtain ⟨-, rfl⟩ := EStateM.Result.ok.inj expected
    unfold Reading.expect at identified
    split at identified
    · cases identified
    · split at identified
      · cases identified
      · split at identified
        · cases identified
        · exact (EStateM.Result.ok.inj identified).2.symm
  next => cases expected

/-- What an accepted restore has opened and read. -/
theorem restoringVersion_ok {α : Type} {blob name : List Byte} {low high : Half} {label : String}
    {body : Half → Reading α} {result : α}
    (accepted : restoringVersion blob name low high label body = .ok result) :
    ∃ opened last, «open» blob = .ok opened ∧
      body opened.version { opened with expected := true } = .ok result last := by
  unfold restoringVersion at accepted
  split at accepted
  · cases accepted
  next opened isOpened =>
    split at accepted
    next value last ran =>
      obtain ⟨_, r₁, expected, read⟩ := bind_ok ran
      rw [Except.ok.injEq] at accepted
      rw [expect_ok expected, accepted] at read
      exact ⟨opened, last, isOpened, read⟩
    · cases accepted

theorem restoring_ok {α : Type} {blob name : List Byte} {low high : Half} {label : String}
    {body : Reading α} {result : α}
    (succeeded : restoring blob name low high label body = .ok result) :
    ∃ r r', body r = .ok result r' := by
  obtain ⟨opened, last, -, ran⟩ := restoringVersion_ok succeeded
  exact ⟨_, last, ran⟩

namespace Parses

variable {α β : Type}

theorem bind {reading : Reading α} {next : α → Reading β} {first second : List Byte}
    {value : α} {result : Except String β} (head : Reads reading first value)
    (tail : Parses (next value) second result) :
    Parses (reading >>= next) (first ++ second) result := by
  intro r here
  have step := head r second here
  have last := tail _ here.advance
  simpa only [Bind.bind, EStateM.bind, step] using last

/-- The last field of a payload. -/
theorem bind_last {reading : Reading α} {next : α → Reading β} {bytes : List Byte}
    {value : α} {result : Except String β} (head : Reads reading bytes value)
    (tail : Parses (next value) [] result) :
    Parses (reading >>= next) bytes result := by
  have parsed := bind head tail
  rwa [List.append_nil] at parsed

theorem pure (bytes : List Byte) (value : α) :
    Parses (Pure.pure value) bytes (.ok value) := by
  intro r here
  rfl

theorem throw (bytes : List Byte) (error : String) :
    Parses (throw error : Reading α) bytes (.error error) := by
  intro r here
  rfl

theorem done {next : Unit → Reading β} {result : Except String β}
    (tail : Parses (next ()) [] result) :
    Parses (Reading.done >>= next) [] result := by
  intro r here
  have remaining := here.remaining
  have finished : Reading.done r = .ok () r := by
    simp only [Reading.done, here.err, here.expected]
    rw [if_neg (by simp), if_neg (by simpa using remaining)]
  simpa only [Bind.bind, EStateM.bind, finished] using tail r here

/-- `Done` behind an error prefix, at the end of a payload. -/
theorem wrapDone {label : String} {next : Unit → Reading β} {result : Except String β}
    (tail : Parses (next ()) [] result) :
    Parses (Reading.wrap label Reading.done >>= next) [] result := by
  intro r here
  have finished : Reading.wrap label Reading.done r = .ok () r := by
    have remaining := here.remaining
    have done : Reading.done r = .ok () r := by
      simp only [Reading.done, here.err, here.expected]
      rw [if_neg (by simp), if_neg (by simpa using remaining)]
    rw [Reading.wrap, done]
  simpa only [Bind.bind, EStateM.bind, finished] using tail r here

theorem require {condition : Bool} {error : String} {next : Unit → Reading β}
    {bytes : List Byte} {result : Except String β} (holds : condition = true)
    (tail : Parses (next ()) bytes result) :
    Parses (Reading.require condition error >>= next) bytes result := by
  intro r here
  rw [holds]
  exact tail r here

theorem wrapCheck {label : String} {next : Unit → Reading β} {bytes : List Byte}
    {result : Except String β} (tail : Parses (next ()) bytes result) :
    Parses (Reading.wrap label Reading.check >>= next) bytes result := by
  intro r here
  have checked : Reading.wrap label Reading.check r = .ok () r := by
    have read : Reads Reading.check [] () := Reads.bind Reads.err (Reads.pure ())
    rw [Reading.wrap, show Reading.check r = .ok () r from read r bytes here]
  simpa only [Bind.bind, EStateM.bind, checked] using tail r here

theorem wrap {label : String} {reading : Reading α} {bytes : List Byte} {value : α}
    (parsed : Reads reading bytes value) :
    Reads (Reading.wrap label reading) bytes value := by
  intro r rest here
  simp only [Reading.wrap, parsed r rest here]

end Parses

/-- A restore checks what it reads.  This says what it has read if those checks let it through,
without saying whether they do. -/
def ReadsIfAccepted {α : Type} (reading : Reading α) (bytes : List Byte) (value : α) : Prop :=
  ∀ (r : Reader) (rest : List Byte), r.At (bytes ++ rest) →
    (∃ error r', reading r = .error error r') ∨ reading r = .ok value (r.advance bytes.length)

namespace ReadsIfAccepted

variable {α β : Type}

theorem of_reads {reading : Reading α} {bytes : List Byte} {value : α}
    (reads : Reads reading bytes value) :
    ReadsIfAccepted reading bytes value :=
  fun r rest here => .inr (reads r rest here)

theorem bind {reading : Reading α} {next : α → Reading β} {first second : List Byte}
    {value : α} {result : β} (head : ReadsIfAccepted reading first value)
    (tail : ReadsIfAccepted (next value) second result) :
    ReadsIfAccepted (reading >>= next) (first ++ second) result := by
  intro r rest here
  rw [List.append_assoc] at here
  rcases head r (second ++ rest) here with ⟨error, r', refused⟩ | step
  · exact .inl ⟨error, r', by simp only [Bind.bind, EStateM.bind, refused]⟩
  · rcases tail _ rest here.advance with ⟨error, r', refused⟩ | last
    · exact .inl ⟨error, r', by simp only [Bind.bind, EStateM.bind, step, refused]⟩
    · rw [Reader.advance_advance] at last
      exact .inr (by simp only [Bind.bind, EStateM.bind, step, last, List.length_append])

/-- A step that reads nothing. -/
theorem bind_check {reading : Reading α} {next : α → Reading β} {bytes : List Byte}
    {value : α} {result : β} (head : ReadsIfAccepted reading [] value)
    (tail : ReadsIfAccepted (next value) bytes result) :
    ReadsIfAccepted (reading >>= next) bytes result :=
  bind head tail

/-- The last field of a payload. -/
theorem bind_last {reading : Reading α} {next : α → Reading β} {bytes : List Byte}
    {value : α} {result : β} (head : ReadsIfAccepted reading bytes value)
    (tail : ReadsIfAccepted (next value) [] result) :
    ReadsIfAccepted (reading >>= next) bytes result := by
  have read := bind head tail
  rwa [List.append_nil] at read

theorem pure (value : α) : ReadsIfAccepted (Pure.pure value) [] value :=
  of_reads (Reads.pure value)

theorem throw {bytes : List Byte} {value : α} (error : String) :
    ReadsIfAccepted (MonadExcept.throw error) bytes value :=
  fun r _ _ => .inl ⟨error, r, rfl⟩

theorem require (condition : Bool) (error : String) :
    ReadsIfAccepted (Reading.require condition error) [] () := by
  cases condition with
  | false => exact throw error
  | true => exact pure ()

theorem check : ReadsIfAccepted Reading.check [] () :=
  of_reads (Reads.bind Reads.err (Reads.pure ()))

theorem done : ReadsIfAccepted Reading.done [] () := by
  intro r rest here
  simp only [Reading.done, here.err]
  split
  · exact .inl ⟨_, r, rfl⟩
  · split
    · exact .inl ⟨_, r, rfl⟩
    · exact .inr rfl

theorem wrap {label : String} {reading : Reading α} {bytes : List Byte} {value : α}
    (reads : ReadsIfAccepted reading bytes value) :
    ReadsIfAccepted (Reading.wrap label reading) bytes value := by
  intro r rest here
  rcases reads r rest here with ⟨error, r', refused⟩ | step
  · exact .inl ⟨label ++ error, r', by simp only [Reading.wrap, refused]⟩
  · exact .inr (by simp only [Reading.wrap, step])

end ReadsIfAccepted

/-- A restore over a writer's own blob refuses its name or version, or runs its
reads over the payload. -/
theorem restoringVersion_frame_cases {α : Type} {name : List Byte} {version : Half}
    {payload : List Byte} (low high : Half) (label : String) (body : Half → Reading α)
    (nameFits : name.length ≤ maxNameLen) (payloadFits : payload.length < wordLimit) :
    (∃ error, restoringVersion (Writer.frame name version payload) name low high label body =
        .error error) ∨
      ∃ r : Reader, r.At payload ∧
        restoringVersion (Writer.frame name version payload) name low high label body =
          outcome (body version r) := by
  have here : Reader.At { name, version, payload, expected := true } payload :=
    ⟨rfl, rfl, Nat.zero_le _, rfl⟩
  simp only [restoringVersion, open_frame version nameFits payloadFits, Bind.bind, EStateM.bind,
    Reading.wrap]
  have expectation : (∃ error r, Reading.expect name low high { name, version, payload } =
        .error error r) ∨
      Reading.expect name low high { name, version, payload } =
        .ok () { name, version, payload, expected := true } := by
    simp only [Reading.expect]
    rw [if_neg (by simp)]
    split
    · exact .inl ⟨_, _, rfl⟩
    · exact .inr rfl
  rcases expectation with ⟨error, r, refused⟩ | expected
  · exact .inl ⟨label ++ error, by simp only [refused]⟩
  · refine .inr ⟨_, here, ?_⟩
    simp only [expected]
    cases body version { name, version, payload, expected := true } with
    | ok value r => rfl
    | error error r => rfl

/-- What an accepted restore over a writer's own blob has read. -/
theorem value_of_restoringVersion_frame {α : Type} {name : List Byte} {version low high : Half}
    {payload : List Byte} {label : String} {body : Half → Reading α} {value result : α}
    (nameFits : name.length ≤ maxNameLen) (payloadFits : payload.length < wordLimit)
    (reads : ReadsIfAccepted (body version) payload value)
    (accepted : restoringVersion (Writer.frame name version payload) name low high label body =
      .ok result) :
    result = value := by
  rcases restoringVersion_frame_cases low high label body nameFits payloadFits with
    ⟨error, refused⟩ | ⟨r, here, ran⟩
  · rw [refused] at accepted
    cases accepted
  · rw [ran] at accepted
    rcases reads r [] (by rwa [List.append_nil]) with ⟨error, r', refused⟩ | read
    · rw [refused] at accepted
      cases accepted
    · rw [read] at accepted
      exact (Except.ok.inj accepted).symm

theorem value_of_restoring_frame {α : Type} {name : List Byte} {version low high : Half}
    {payload : List Byte} {label : String} {body : Reading α} {value result : α}
    (nameFits : name.length ≤ maxNameLen) (payloadFits : payload.length < wordLimit)
    (reads : ReadsIfAccepted body payload value)
    (accepted : restoring (Writer.frame name version payload) name low high label body =
      .ok result) :
    result = value :=
  value_of_restoringVersion_frame nameFits payloadFits reads accepted

/-- A restore over the blob a writer produced. -/
theorem restoringVersion_frame {α : Type} {name : List Byte} {version low high : Half}
    {payload : List Byte} {label : String} {body : Half → Reading α} {result : Except String α}
    (nameFits : name.length ≤ maxNameLen) (payloadFits : payload.length < wordLimit)
    (lowBound : low ≤ version) (highBound : version ≤ high)
    (parsed : Parses (body version) payload result) :
    restoringVersion (Writer.frame name version payload) name low high label body = result := by
  have expectation : Reading.expect name low high { name, version, payload } =
      .ok () { name, version, payload, expected := true } := by
    simp only [Reading.expect]
    rw [if_neg (by simp), if_neg]
    rintro (below | above)
    · exact absurd lowBound (BitVec.not_le.mpr below)
    · exact absurd highBound (BitVec.not_le.mpr above)
  have here : Reader.At { name, version, payload, expected := true } payload :=
    ⟨rfl, rfl, Nat.zero_le _, rfl⟩
  have parsed' := parsed _ here
  simp only [restoringVersion, open_frame version nameFits payloadFits, Bind.bind, EStateM.bind,
    Reading.wrap, expectation]
  cases ending : body version { name, version, payload, expected := true } with
  | ok value r => rw [ending] at parsed'; exact parsed'
  | error error r => rw [ending] at parsed'; exact parsed'

theorem restoring_frame {α : Type} {name : List Byte} {version low high : Half}
    {payload : List Byte} {label : String} {body : Reading α} {result : Except String α}
    (nameFits : name.length ≤ maxNameLen) (payloadFits : payload.length < wordLimit)
    (lowBound : low ≤ version) (highBound : version ≤ high)
    (parsed : Parses body payload result) :
    restoring (Writer.frame name version payload) name low high label body = result :=
  restoringVersion_frame nameFits payloadFits lowBound highBound parsed

end Snapcodec

end GoRetroTv
