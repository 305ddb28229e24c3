import GoRetroTv.BigEndianBytes

/-!
# Snapshot blobs

`internal/platform/snapcodec/snapcodec.go`: the framing every snapshot is
written into.  A `Writer` collects a payload and keeps its first error; a
`Reader` consumes one, and once a read has failed every later read returns
zero.  The reads run in a state monad that keeps the reader when a restore
gives up, as the source's pointer does.
-/

namespace GoRetroTv

namespace Snapcodec

/-- `%q` of a printable name. -/
def quoted (bytes : List Byte) : String :=
  "\"" ++ text bytes ++ "\""

def magic : List Byte :=
  ascii "GRTV"

def containerVersion : Nat :=
  1

def headerSize : Nat :=
  4 + 2 + 2 + 2 + 4

def maxNameLen : Nat :=
  0xFFFF

/-- A sticky error: the first failure, if there was one. -/
abbrev Failure := Option String

structure Writer where
  name : List Byte
  version : Half
  payload : List Byte := []
  err : Failure := none
  deriving DecidableEq

def newWriter (name : List Byte) (version : Half) : Writer :=
  if name = [] then
    { name, version, err := some "snapcodec: writer name is empty" }
  else if maxNameLen < name.length then
    { name, version
      err := some s!"snapcodec: writer name is {name.length} bytes, limit is {maxNameLen}" }
  else
    { name, version }

/-- The refusal of a length that does not fit its wire field. -/
def lengthError (length bits : Nat) : String :=
  s!"length {length} does not fit a {bits}-bit field"

namespace Writer

/-- Append to the payload unless an earlier write failed. -/
def append (bytes : List Byte) (w : Writer) : Writer :=
  if w.err.isSome then w else { w with payload := w.payload ++ bytes }

def uint8 (value : Byte) (w : Writer) : Writer :=
  w.append (bigEndian 1 value.toNat)

def uint16 (value : Half) (w : Writer) : Writer :=
  w.append (bigEndian 2 value.toNat)

def uint32 (value : Word) (w : Writer) : Writer :=
  w.append (bigEndian 4 value.toNat)

def uint64 (value : DoubleWord) (w : Writer) : Writer :=
  w.append (bigEndian 8 value.toNat)

/-- A `uint64` count, carried as a natural number in this development. -/
def count (value : Nat) (w : Writer) : Writer :=
  w.uint64 (BitVec.ofNat 64 value)

def bool (value : Bool) (w : Writer) : Writer :=
  w.uint8 (if value then 1 else 0)

def bytes (value : List Byte) (w : Writer) : Writer :=
  if w.err.isSome then w
  else if value.length < wordLimit then
    (w.uint32 (BitVec.ofNat 32 value.length)).append value
  else
    { w with
      err := some s!"snapcodec: {text w.name}: byte slice: {lengthError value.length 32}" }

def words (value : List Word) (w : Writer) : Writer :=
  if w.err.isSome then w
  else if value.length < wordLimit then
    value.foldl (fun w word => uint32 word w) (w.uint32 (BitVec.ofNat 32 value.length))
  else
    { w with
      err := some s!"snapcodec: {text w.name}: word slice: {lengthError value.length 32}" }

def string (value : List Byte) (w : Writer) : Writer :=
  w.bytes value

/-- The header and the payload behind it. -/
def frame (name : List Byte) (version : Half) (payload : List Byte) : List Byte :=
  magic ++ bigEndian 2 containerVersion ++ bigEndian 2 name.length ++ name ++
    bigEndian 2 version.toNat ++ bigEndian 4 payload.length ++ payload

def blob (w : Writer) : Except String (List Byte) :=
  match w.err with
  | some error => .error error
  | none =>
      if wordLimit ≤ w.payload.length then
        .error s!"snapcodec: {text w.name}: payload: {lengthError w.payload.length 32}"
      else if maxNameLen < w.name.length then
        .error s!"snapcodec: {text w.name}: name: {lengthError w.name.length 16}"
      else
        .ok (frame w.name w.version w.payload)

end Writer

structure Reader where
  name : List Byte
  version : Half
  payload : List Byte
  pos : Nat := 0
  expected : Bool := false
  err : Failure := none
  deriving DecidableEq

/-- Check the framing and say what the blob claims to be. -/
def «open» (blob : List Byte) : Except String Reader :=
  if blob.length < headerSize then
    .error <| "snapcodec: snapshot blob is truncated: " ++
      s!"{blob.length} bytes, header alone needs {headerSize}"
  else if blob.take 4 ≠ magic then
    .error s!"snapcodec: not a snapshot blob: header is {quoted (blob.take 4)}"
  else
    let container := ofBigEndian ((blob.drop 4).take 2)
    if container ≠ containerVersion then
      .error <| "snapcodec: unsupported container version: " ++
        s!"blob is container v{container}, this build reads v{containerVersion}"
    else
      let nameLen := ofBigEndian ((blob.drop 6).take 2)
      if blob.length < 8 + nameLen + 2 + 4 then
        .error <| "snapcodec: snapshot blob is truncated: " ++
          s!"header claims a {nameLen}-byte name, {blob.length - 8} bytes remain"
      else
        let name := (blob.drop 8).take nameLen
        let version := ofBigEndian ((blob.drop (8 + nameLen)).take 2)
        let payloadLen := ofBigEndian ((blob.drop (8 + nameLen + 2)).take 4)
        let pos := 8 + nameLen + 2 + 4
        if pos + payloadLen ≠ blob.length then
          .error <| s!"snapcodec: snapshot blob is truncated: {text name} v{version} " ++
            s!"declares a {payloadLen}-byte payload, {blob.length - pos} bytes present"
        else
          .ok {
            name
            version := BitVec.ofNat 16 version
            payload := (blob.drop pos).take payloadLen }

/-- A computation that reads from a blob and may give up. -/
abbrev Reading := EStateM String Reader

namespace Reader

def remaining (r : Reader) : Nat :=
  r.payload.length - r.pos

/-- Record a short read, keeping an earlier error. -/
def fail (wanted : Nat) (r : Reader) : Reader :=
  if r.err.isSome then r
  else
    { r with
      err := some <| "snapcodec: read past the end of the snapshot payload: " ++
        s!"{text r.name} v{r.version.toNat} wanted {wanted} bytes at offset {r.pos}, " ++
          s!"{r.remaining} remain" }

def notExpected (r : Reader) : String :=
  "snapcodec: snapshot blob was read before Expect identified it: " ++
    s!"{text r.name} v{r.version.toNat}"

end Reader

/-- An error behind a prefix, as Go's `%w` wraps one. -/
def labelled {α : Type} (label : String) (result : Except String α) : Except String α :=
  match result with
  | .ok value => .ok value
  | .error error => .error (label ++ error)

namespace Reading

/-- `Expect`: refuse another writer's blob or a version outside the range. -/
def expect (name : List Byte) (low high : Half) : Reading Unit := fun r =>
  match r.err with
  | some error => .error error r
  | none =>
      if r.name ≠ name then
        let error := "snapcodec: snapshot was written by a different device: " ++
          s!"blob is {quoted r.name}, restoring into {quoted name}"
        .error error { r with err := some error }
      else if r.version < low ∨ high < r.version then
        let error := "snapcodec: unsupported snapshot format version: " ++
          s!"{text r.name} blob is v{r.version.toNat}, " ++
            s!"this build reads v{low.toNat}..v{high.toNat}"
        .error error { r with err := some error }
      else
        .ok () { r with expected := true }

/-- The next `count` bytes, or `none` with the reader's error set. -/
def take (count : Nat) : Reading (Option (List Byte)) := fun r =>
  if r.err.isSome then .ok none r
  else if !r.expected then .ok none { r with err := some r.notExpected }
  else if r.remaining < count then .ok none (r.fail count)
  else .ok (some ((r.payload.drop r.pos).take count)) { r with pos := r.pos + count }

/-- A big-endian number of the given width, zero after an error. -/
def unsigned (width : Nat) : Reading Nat := do
  match ← take width with
  | none => pure 0
  | some bytes => pure (ofBigEndian bytes)

def uint8 : Reading Byte := do
  return BitVec.ofNat 8 (← unsigned 1)

def uint16 : Reading Half := do
  return BitVec.ofNat 16 (← unsigned 2)

def uint32 : Reading Word := do
  return BitVec.ofNat 32 (← unsigned 4)

def uint64 : Reading DoubleWord := do
  return BitVec.ofNat 64 (← unsigned 8)

/-- A `uint64` count. -/
def count : Reading Nat := do
  return (← uint64).toNat

/-- `Err`: the first error the reader hit. -/
def err : Reading Failure := fun r => .ok r.err r

/-- Set the reader's error unless it has one. -/
def setErr (error : Reader → String) : Reading Unit := fun r =>
  if r.err.isSome then .ok () r else .ok () { r with err := some (error r) }

def bool : Reading Bool := do
  let value ← uint8
  if value = 0 then pure false
  else if value = 1 then pure true
  else do
    setErr fun r => s!"snapcodec: {text r.name}: boolean byte is {value.toNat}, " ++
      "want 0 or 1 (the read is misaligned)"
    pure false

/-- The next `length` bytes, empty after an error. -/
def bytesOf (length : Nat) : Reading (List Byte) := do
  match ← take length with
  | none => pure []
  | some bytes => pure bytes

def bytes : Reading (List Byte) := do
  let length ← uint32
  if (← err).isSome then pure []
  else bytesOf length.toNat

def string : Reading (List Byte) :=
  bytes

/-- The words of a slice whose length has been read. -/
def wordsOf : Nat → Reading (List Word)
  | 0 => pure []
  | length + 1 => do
      let word ← uint32
      return word :: (← wordsOf length)

/-- The bytes are checked to be there before a slice is made for them. -/
def checkedWordsOf (length : Nat) : Reading (List Word) := fun r =>
  if r.remaining < length * 4 then .ok [] (r.fail (length * 4))
  else wordsOf length r

def words : Reading (List Word) := do
  let length ← uint32
  if (← err).isSome then pure []
  else checkedWordsOf length.toNat

/-- `Done`: the first read error, or the bytes left unread. -/
def done : Reading Unit := fun r =>
  match r.err with
  | some error => .error error r
  | none =>
      if !r.expected then .error r.notExpected r
      else if r.remaining ≠ 0 then
        .error ("snapcodec: snapshot payload was not fully consumed: " ++
          s!"{text r.name} v{r.version.toNat} left {r.remaining} of " ++
            s!"{r.payload.length} payload bytes unread") r
      else .ok () r

/-- Give up with the reader's error, if it has one. -/
def check : Reading Unit := do
  match ← err with
  | some error => throw error
  | none => pure ()

/-- Give up with an error unless a condition holds. -/
def require (condition : Bool) (error : String) : Reading Unit :=
  if condition then pure () else throw error

/-- Wrap an error as Go's `%w` behind a prefix does. -/
def wrap {α : Type} (label : String) (reading : Reading α) : Reading α := fun r =>
  match reading r with
  | .ok value r => .ok value r
  | .error error r => .error (label ++ error) r

end Reading

/-- Open a blob, establish what it is and run a restore over it, which may
branch on the version the blob was written in. -/
def restoringVersion {α : Type} (blob name : List Byte) (low high : Half) (label : String)
    (body : Half → Reading α) : Except String α :=
  match «open» blob with
  | .error error => .error (label ++ error)
  | .ok r =>
      match (do Reading.wrap label (Reading.expect name low high); body r.version) r with
      | .ok value _ => .ok value
      | .error error _ => .error error

/-- A restore that reads one version only, or every version alike. -/
def restoring {α : Type} (blob name : List Byte) (low high : Half) (label : String)
    (body : Reading α) : Except String α :=
  restoringVersion blob name low high label fun _ => body

end Snapcodec

end GoRetroTv
