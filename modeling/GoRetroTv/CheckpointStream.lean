import GoRetroTv.SectionBuilder
import GoRetroTv.TextFields

/-!
# The checkpoint stream

`internal/platform/statehash/checkpoint.go` and `stream.go`: hashes of the machine's state, one
for each window of instructions, as text with a header and a trailer.  What the hasher answers
is given to the emitter; its writer takes whatever it is given.
-/

namespace GoRetroTv

namespace Statehash

open Snapcodec Strings Strconv

def streamMagic : List Byte :=
  ascii "GRTV-CHECKPOINTS"

def streamVersion : Nat :=
  1

def streamEnd : List Byte :=
  ascii "END"

/-- One sample: the machine's state hash after `icount` instructions. -/
structure Checkpoint where
  icount : Nat
  hash : Word
  deriving DecidableEq

/-- The window that a checkpoint falls in. -/
def Checkpoint.window (interval : Nat) (c : Checkpoint) : Nat :=
  c.icount / interval

structure Emitter where
  written : List Byte
  interval : Nat
  next : Nat := 0
  count : Nat := 0
  last : Nat := 0
  closed : Bool := false
  err : Option String := none

def headerLine (interval : Nat) : List Byte :=
  streamMagic ++ 0x20 :: (decimal streamVersion ++ 0x20 :: (ascii "interval=" ++ decimal interval))

def checkpointLine (c : Checkpoint) : List Byte :=
  decimal c.icount ++ 0x20 :: ascii (Hexfmt.word c.hash)

def endLine (count last : Nat) : List Byte :=
  streamEnd ++ 0x20 :: (decimal count ++ 0x20 :: decimal last)

def newEmitter (interval : Nat) : Except String Emitter :=
  if interval = 0 then
    .error <| "statehash: NewEmitter: interval is zero, which would emit a " ++
      "checkpoint for every instruction - the 1.8-59 GB per run spike 002 measured and " ++
      "rejected"
  else .ok { written := headerLine interval ++ [0x0a], interval }

namespace Emitter

/-- `Observe`, which answers with the error it keeps. -/
def observe (icount : Nat) (hash : Except String Word) (e : Emitter) : Emitter :=
  if e.err.isSome then e
  else if e.closed then
    { e with err := some s!"statehash: checkpoint at {icount} written after the stream was closed" }
  else if icount < e.next then e
  else
    match hash with
    | .error error => { e with err := some error }
    | .ok hash => { e with
        written := e.written ++ (checkpointLine { icount, hash } ++ [0x0a])
        count := wrapAdd e.count 1
        last := icount
        -- From the boundary that was crossed, not from the count observed.
        next := (icount / e.interval + 1) * e.interval % countLimit }

def close (e : Emitter) : Except String Emitter :=
  match e.err with
  | some error => .error error
  | none =>
      if e.closed then .error "statehash: the checkpoint stream is already closed"
      else .ok { e with
        closed := true
        written := e.written ++ (endLine e.count e.last ++ [0x0a]) }

end Emitter

structure Stream where
  name : String
  interval : Nat := 0
  checkpoints : List Checkpoint := []
  complete : Bool := false
  declaredCount : Nat := 0
  declaredLast : Nat := 0

/-- A number of a stream, with what its error says before it. -/
def parseNumber (context : String) (s : List Byte) : Except String Nat :=
  Broadcast.wrap s!"{context} {quoted s} is not a number: " (parseUint s 10 64)

def Stream.parseHeader (text : List Byte) (s : Stream) : Except String Stream :=
  match fields text with
  | [magic, version, field] =>
      if magic ≠ streamMagic then .error (notHeader text s.name)
      else
        match parseUint version 10 16 with
        | .error error =>
            .error s!"{s.name}: header version {quoted version} is not a number: {error}"
        | .ok number =>
            if number ≠ streamVersion then
              .error s!"{s.name}: stream format version {number}, and this build reads version 1"
            else
              match cutPrefix field (ascii "interval=") with
              | none => .error s!"{s.name}: header field {quoted field} is not interval=N"
              | some interval =>
                  match parseUint interval 10 64 with
                  | .ok (n + 1) => .ok { s with interval := n + 1 }
                  | _ => .error <| s!"{s.name}: header interval {quoted interval} is not a " ++
                      "positive number"
  | _ => .error (notHeader text s.name)
where
  notHeader (text : List Byte) (name : String) : String :=
    s!"{name}: the first line is {quoted text}; a checkpoint stream begins " ++
      "\"GRTV-CHECKPOINTS 1 interval=N\""

def Stream.parseEnd (line : Nat) (text : List Byte) (s : Stream) : Except String Stream :=
  match fields text with
  | [_, count, last] => do
      let declaredCount ← parseNumber s!"{s.name} line {line}: END count" count
      let declaredLast ← parseNumber s!"{s.name} line {line}: END instruction count" last
      return { s with declaredCount, declaredLast }
  | _ => .error s!"{s.name} line {line}: {quoted text} is not END <count> <last instruction>"

def parseCheckpoint (name : String) (line : Nat) (text : List Byte) : Except String Checkpoint :=
  match fields text with
  | [count, hash] => do
      let icount ← parseNumber s!"{name} line {line}: instruction count" count
      let hash ← Broadcast.wrap s!"{name} line {line}: hash {quoted hash}: "
        (Hexfmt.parseAddr hash)
      return { icount, hash }
  | _ => .error s!"{name} line {line}: {quoted text} is not <instruction count> <hash>"

/-- A checkpoint that does not advance on the one before. -/
def Stream.advances (c : Checkpoint) (s : Stream) : Bool :=
  match s.checkpoints.getLast? with
  | some previous => previous.icount < c.icount
  | none => true

/-- A line of the stream: what it adds, and whether it is the trailer. -/
def Stream.readLine (line : Nat) (text : List Byte) (s : Stream) (ended : Bool) :
    Except String (Stream × Bool) :=
  if text = [] then .ok (s, ended)
  else if ended then
    .error <| s!"{s.name} line {line}: {quoted text} follows the END line, and a stream has " ++
      "one end"
  else if line = 1 then do
    let s ← s.parseHeader text
    return (s, false)
  else if (streamEnd ++ [0x20]).isPrefixOf text then do
    let s ← s.parseEnd line text
    return (s, true)
  else do
    let c ← parseCheckpoint s.name line text
    if !s.advances c then
      throw <| s!"{s.name} line {line}: instruction count {c.icount} does not advance on the " ++
        s!"previous checkpoint's {(s.checkpoints.getLast?.map Checkpoint.icount).getD 0}, so " ++
        "the stream is not in order"
    return ({ s with checkpoints := s.checkpoints ++ [c] }, false)

/-- The lines after line `line`. -/
def Stream.readLines (line : Nat) (s : Stream) (ended : Bool) :
    List (List Byte) → Except String (Stream × Bool)
  | [] => .ok (s, ended)
  | text :: texts =>
      match s.readLine (line + 1) (trimRight text [0x0d]) ended with
      | .error error => .error error
      | .ok (s, ended) => s.readLines (line + 1) ended texts

/-- What the trailer claims of the body. -/
def Stream.checkTrailer (s : Stream) : Except String Stream := do
  if s.checkpoints.length ≠ s.declaredCount then
    throw <| s!"{s.name}: the END line claims {s.declaredCount} checkpoints and the stream " ++
      s!"carries {s.checkpoints.length}"
  match s.checkpoints.getLast? with
  | some last =>
      if last.icount ≠ s.declaredLast then
        throw <| s!"{s.name}: the END line claims it ended at instruction {s.declaredLast} and " ++
          s!"the last checkpoint is at {last.icount}"
      return { s with complete := true }
  | none => return { s with complete := true }

/-- `ReadStream`. -/
def readStream (name : String) (bytes : List Byte) : Except String Stream :=
  let scanned := Bufio.scanLines bytes
  match ({ name } : Stream).readLines 0 false scanned.1 with
  | .error error => .error error
  | .ok (s, ended) =>
      match scanned.2 with
      | some error => .error s!"{name}: {error}"
      | none =>
          if scanned.1 = [] then
            .error s!"{name}: the file is empty, so it is not a checkpoint stream at all"
          else if s.interval = 0 then .error s!"{name}: no GRTV-CHECKPOINTS header"
          else if ended then s.checkTrailer
          else .ok s

end Statehash

end GoRetroTv
