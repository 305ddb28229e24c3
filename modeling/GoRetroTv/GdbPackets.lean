import GoRetroTv.FallibleActions
import GoRetroTv.MachineWords
import Mathlib.Data.List.Basic

/-!
# The debugger's packets

`internal/gdbstub/server.go`: how a packet of the remote serial protocol is
read off the connection and written to it, and what the session makes of one.
A command's body, a corrupt packet and a bare acknowledgement come back from
`readPacket` through the same slice.
-/

namespace GoRetroTv

namespace Gdbstub

def maxPacket : Nat :=
  4096

/-- A `[]byte`, which may be `nil`. -/
abbrev Slice := Option (List Byte)

/-- `append(body, b)`; a slice with a byte in it is not `nil`. -/
def Slice.append (body : Slice) (b : Byte) : Slice :=
  some (body.getD [] ++ [b])

/-- What `readPacket` returns beside its error. -/
structure Packet where
  body : Slice
  interrupt : Bool
  deriving DecidableEq

/-- The body up to `#`, with its sum. -/
def readBody (body : Slice) (sum : Byte) : List Byte → Except String ((Slice × Byte) × List Byte)
  | [] => .error "EOF"
  | b :: stream =>
      if b = 0x23 then .ok ((body, sum), stream)
      else if maxPacket ≤ (body.getD []).length then
        .error s!"gdbstub: packet exceeds {maxPacket} bytes"
      else readBody (body.append b) (sum + b) stream

/-- `io.ReadFull` of the two checksum digits. -/
def readCheck : List Byte → Except String ((Byte × Byte) × List Byte)
  | [] => .error "EOF"
  | [_] => .error "unexpected EOF"
  | high :: low :: stream => .ok ((high, low), stream)

/-- A hexadecimal digit, of either case. -/
def fromHexChar (c : Byte) : Option Byte :=
  if 0x30 ≤ c ∧ c ≤ 0x39 then some (c - 0x30)
  else if 0x61 ≤ c ∧ c ≤ 0x66 then some (c - 0x61 + 10)
  else if 0x41 ≤ c ∧ c ≤ 0x46 then some (c - 0x41 + 10)
  else none

def decodeChecksum (check : Byte × Byte) : Option Byte :=
  match fromHexChar check.1, fromHexChar check.2 with
  | some high, some low => some (high <<< 4 ||| low)
  | _, _ => none

/-- A packet from behind its `$`. -/
def readFramed (stream : List Byte) : Except String (Packet × List Byte) := do
  let ((body, sum), stream) ← readBody none 0 stream
  let (check, stream) ← readCheck stream
  if decodeChecksum check = some sum then return (⟨body, false⟩, stream)
  else return (⟨none, false⟩, stream)

/-- `readPacket`; a byte that starts nothing is skipped. -/
def readPacket : List Byte → Except String (Packet × List Byte)
  | [] => .error "EOF"
  | b :: stream =>
      if b = 0x2b ∨ b = 0x2d then .ok (⟨some [b], false⟩, stream)
      else if b = 3 then .ok (⟨none, true⟩, stream)
      else if b = 0x24 then readFramed stream
      else readPacket stream

/-- The sum of a body's bytes. -/
def checksum (body : List Byte) : Byte :=
  body.foldl (· + ·) 0

/-- A digit of `%02x`. -/
def hexDigit (d : Byte) : Byte :=
  if d < 10 then d + 0x30 else d - 10 + 0x61

/-- A body between its marks, with two checksum digits. -/
def framed (body : List Byte) (high low : Byte) : List Byte :=
  0x24 :: (body ++ [0x23, high, low])

/-- What `sendPacket` writes. -/
def sendPacket (body : List Byte) : List Byte :=
  let sum := checksum body
  framed body (hexDigit (sum >>> (4 : Nat))) (hexDigit (sum &&& 15))

/-- What a session takes a packet for. -/
inductive Treatment where
  | interrupt
  | corrupt
  | retransmission
  | acknowledgement
  | command (body : List Byte)
  deriving DecidableEq

/-- The branches of `ServeConn`. -/
def treat (packet : Packet) : Treatment :=
  if packet.interrupt then .interrupt
  else
    match packet.body with
    | none => .corrupt
    | some body =>
        if body = [0x2d] then .retransmission
        else if body = [0x2b] then .acknowledgement
        else .command body

/-- A session's own state, beside the debugger's. -/
structure Session (Debugger : Type) where
  debugger : Debugger
  ack : Bool := true
  lastPacket : List Byte := []
  closed : Bool := false

/-- What `dispatch` returns, with the debugger and what it has left to read. -/
structure Dispatched (Debugger : Type) where
  debugger : Debugger
  stream : List Byte
  reply : List Byte
  closeSession : Bool := false
  noAck : Bool := false

variable {Debugger : Type} (dispatch : Debugger → List Byte → List Byte → Dispatched Debugger)

/-- A command is acknowledged, carried out and replied to: the session, what is
left to read and what has been written. -/
def Session.obey (s : Session Debugger) (body stream : List Byte) :
    Session Debugger × List Byte × List Byte :=
  let done := dispatch s.debugger body stream
  let reply := sendPacket done.reply
  ({ debugger := done.debugger
     ack := s.ack && !done.noAck
     lastPacket := reply
     closed := done.closeSession },
    done.stream, (if s.ack then [0x2b] else []) ++ reply)

/-- One turn of `ServeConn`. -/
def Session.turn (s : Session Debugger) (stream : List Byte) :
    Except String (Session Debugger × List Byte × List Byte) := do
  let (packet, stream) ← readPacket stream
  match treat packet with
  | .interrupt =>
      let reply := sendPacket (ascii "S02")
      return ({ s with lastPacket := reply }, stream, reply)
  | .corrupt => return (s, stream, if s.ack then [0x2d] else [])
  | .retransmission => return (s, stream, s.lastPacket)
  | .acknowledgement => return (s, stream, [])
  | .command body => return s.obey dispatch body stream

/-- The marks at which `readPacket` stops looking for a packet. -/
def isMark (b : Byte) : Bool :=
  b == 0x24 || b == 0x2b || b == 0x2d || b == 3

theorem readPacket_noise {noise : List Byte} (quiet : ∀ b ∈ noise, isMark b = false)
    (stream : List Byte) : readPacket (noise ++ stream) = readPacket stream := by
  induction noise with
  | nil => rfl
  | cons b noise ih =>
    have silent := quiet b List.mem_cons_self
    simp only [isMark, Bool.or_eq_false_iff, beq_eq_false_iff_ne] at silent
    obtain ⟨⟨⟨noStart, noPlus⟩, noMinus⟩, noInterrupt⟩ := silent
    rw [List.cons_append, readPacket, if_neg (not_or.mpr ⟨noPlus, noMinus⟩), if_neg noInterrupt,
      if_neg noStart]
    exact ih fun other member => quiet other (List.mem_cons_of_mem b member)

theorem readPacket_framed (body stream : List Byte) (high low : Byte) :
    readPacket (framed body high low ++ stream) =
      readFramed (body ++ 0x23 :: high :: low :: stream) := by
  simp [framed, readPacket]

/-- A body that fits is read to its end. -/
theorem readBody_ok {body : List Byte} (noEnd : (0x23 : Byte) ∉ body) {before : Slice}
    (fits : (before.getD []).length + body.length ≤ maxPacket) (sum : Byte) (stream : List Byte) :
    readBody before sum (body ++ 0x23 :: stream) =
      .ok ((body.foldl Slice.append before, body.foldl (· + ·) sum), stream) := by
  induction body generalizing before sum with
  | nil => simp [readBody]
  | cons b body ih =>
    rw [List.mem_cons, not_or] at noEnd
    rw [List.length_cons] at fits
    rw [List.cons_append, readBody, if_neg (Ne.symm noEnd.1), if_neg (by omega)]
    refine ih noEnd.2 ?_ _
    simp only [Slice.append, Option.getD_some, List.length_append, List.length_singleton]
    omega

/-- A body that does not fit ends the session. -/
theorem readBody_long {body : List Byte} (noEnd : (0x23 : Byte) ∉ body) {before : Slice}
    (held : (before.getD []).length ≤ maxPacket)
    (long : maxPacket < (before.getD []).length + body.length) (sum : Byte) (stream : List Byte) :
    readBody before sum (body ++ 0x23 :: stream) =
      .error s!"gdbstub: packet exceeds {maxPacket} bytes" := by
  induction body generalizing before sum with
  | nil => exact absurd long (by simpa using held)
  | cons b body ih =>
    rw [List.mem_cons, not_or] at noEnd
    rw [List.length_cons] at long
    rw [List.cons_append, readBody, if_neg (Ne.symm noEnd.1)]
    by_cases full : maxPacket ≤ (before.getD []).length
    · rw [if_pos full]
    · rw [if_neg full]
      refine ih noEnd.2 ?_ ?_ _
      · simp only [Slice.append, Option.getD_some, List.length_append, List.length_singleton]
        omega
      · simp only [Slice.append, Option.getD_some, List.length_append, List.length_singleton]
        omega

/-- The slice a body leaves: `nil` if there was no byte. -/
def sliceOf (body : List Byte) : Slice :=
  if body = [] then none else some body

theorem foldl_append (body : List Byte) : body.foldl Slice.append none = sliceOf body := by
  have behind (body held : List Byte) :
      body.foldl Slice.append (some held) = some (held ++ body) := by
    induction body generalizing held with
    | nil => rw [List.append_nil]; rfl
    | cons b body ih =>
      rw [List.foldl_cons, Slice.append, ih, Option.getD_some, List.append_assoc]
      rfl
  cases body with
  | nil => rfl
  | cons b body => exact behind body [b]

/-- What comes of a framed packet: its body, or the mark of a corrupt one. -/
theorem readFramed_ok {body : List Byte} (noEnd : (0x23 : Byte) ∉ body)
    (fits : body.length ≤ maxPacket) (high low : Byte) (stream : List Byte) :
    readFramed (body ++ 0x23 :: high :: low :: stream) =
      .ok (⟨if decodeChecksum (high, low) = some (checksum body) then sliceOf body else none,
        false⟩, stream) := by
  have read := @readBody_ok body noEnd none (by simpa using fits) 0 (high :: low :: stream)
  unfold readFramed
  rw [read, foldl_append]
  change (if decodeChecksum (high, low) = some (checksum body) then
    (pure (⟨sliceOf body, false⟩, stream) : Except String (Packet × List Byte))
    else pure (⟨none, false⟩, stream)) = _
  split <;> rfl

theorem readFramed_long {body : List Byte} (noEnd : (0x23 : Byte) ∉ body)
    (long : maxPacket < body.length) (high low : Byte) (stream : List Byte) :
    ∃ error, readFramed (body ++ 0x23 :: high :: low :: stream) = .error error := by
  have read := @readBody_long body noEnd none (Nat.zero_le _) (by simpa using long) 0
    (high :: low :: stream)
  unfold readFramed
  rw [read]
  exact ⟨_, rfl⟩

/-- The digits `sendPacket` writes are those `decodeChecksum` reads. -/
theorem decodeChecksum_hexDigit (sum : Byte) :
    decodeChecksum (hexDigit (sum >>> (4 : Nat)), hexDigit (sum &&& 15)) = some sum := by
  revert sum
  decide

/-- Behind any noise a body goes through as a command, and one read takes its
packet and no more. -/
def Carried (body : List Byte) : Prop :=
  ∀ noise stream : List Byte, (∀ b ∈ noise, isMark b = false) →
    ∃ packet, readPacket (noise ++ (sendPacket body ++ stream)) = .ok (packet, stream) ∧
      packet.body.getD [] = body ∧ treat packet = .command body

/-- Behind any noise a body whose checksum is wrong is taken for corrupt, and one
read takes its packet and no more. -/
def Refused (body : List Byte) : Prop :=
  ∀ (noise stream : List Byte) (high low : Byte), (∀ b ∈ noise, isMark b = false) →
    decodeChecksum (high, low) ≠ some (checksum body) →
      ∃ packet, readPacket (noise ++ (framed body high low ++ stream)) = .ok (packet, stream) ∧
        treat packet = .corrupt

/-- A session obeys a body that is carried. -/
theorem Session.turn_carried {body : List Byte} (carried : Carried body) (s : Session Debugger)
    {noise : List Byte} (quiet : ∀ b ∈ noise, isMark b = false) (stream : List Byte) :
    s.turn dispatch (noise ++ (sendPacket body ++ stream)) =
      .ok (s.obey dispatch body stream) := by
  obtain ⟨packet, read, -, command⟩ := carried noise stream quiet
  unfold Session.turn
  rw [read]
  change (match treat packet with
    | .interrupt => _
    | .corrupt => _
    | .retransmission => _
    | .acknowledgement => _
    | .command body => _) = _
  rw [command]
  rfl

theorem readPacket_sendPacket {body : List Byte} (noEnd : (0x23 : Byte) ∉ body)
    (fits : body.length ≤ maxPacket) {noise : List Byte} (quiet : ∀ b ∈ noise, isMark b = false)
    (stream : List Byte) :
    readPacket (noise ++ (sendPacket body ++ stream)) = .ok (⟨sliceOf body, false⟩, stream) := by
  rw [readPacket_noise quiet, sendPacket, readPacket_framed, readFramed_ok noEnd fits,
    if_pos (decodeChecksum_hexDigit _)]

theorem treat_sliceOf (body : List Byte) :
    treat ⟨sliceOf body, false⟩ = .command body ↔
      body ≠ [] ∧ body ≠ [0x2b] ∧ body ≠ [0x2d] := by
  unfold treat sliceOf
  by_cases empty : body = []
  · simp [empty]
  by_cases minus : body = [0x2d]
  · simp [minus]
  by_cases plus : body = [0x2b]
  · simp [plus]
  · rw [if_neg empty, if_neg Bool.false_ne_true]
    dsimp only
    rw [if_neg minus, if_neg plus]
    exact iff_of_true rfl ⟨empty, plus, minus⟩

/-- **The framing.**  A body that fits is carried unless it is empty or one of the two
acknowledgements, and a corrupt packet is refused alone when its body fits. -/
theorem framing (body : List Byte) (noEnd : (0x23 : Byte) ∉ body) :
    (body.length ≤ maxPacket →
      (Carried body ↔ body ≠ [] ∧ body ≠ ascii "+" ∧ body ≠ ascii "-")) ∧
    (Refused body ↔ body.length ≤ maxPacket) := by
  constructor
  · intro fits
    change _ ↔ body ≠ [] ∧ body ≠ [0x2b] ∧ body ≠ [0x2d]
    rw [← treat_sliceOf]
    constructor
    · intro carried
      have quiet : ∀ b ∈ ([] : List Byte), isMark b = false := by simp
      obtain ⟨packet, read, -, command⟩ := carried [] [] quiet
      rw [readPacket_sendPacket noEnd fits quiet] at read
      obtain ⟨rfl, -⟩ := Prod.mk.inj (Except.ok.inj read)
      exact command
    · intro command noise stream quiet
      refine ⟨_, readPacket_sendPacket noEnd fits quiet stream, ?_, command⟩
      simp [sliceOf, ((treat_sliceOf body).mp command).1]
  · constructor
    · intro refused
      by_contra long
      have undecoded : decodeChecksum (0, 0) = none := by decide
      have malformed : decodeChecksum (0, 0) ≠ some (checksum body) := by
        rw [undecoded]
        exact (Option.some_ne_none _).symm
      obtain ⟨packet, read, -⟩ := refused [] [] 0 0 (by simp) malformed
      obtain ⟨error, failed⟩ := readFramed_long noEnd (Nat.not_le.mp long) 0 0 []
      rw [List.nil_append, readPacket_framed, failed] at read
      cases read
    · intro fits noise stream high low quiet wrong
      refine ⟨⟨none, false⟩, ?_, rfl⟩
      rw [readPacket_noise quiet, readPacket_framed, readFramed_ok noEnd fits, if_neg wrong]

/-- The register request goes through. -/
theorem framing_registers :
    (0x23 : Byte) ∉ ascii "g" ∧ ((ascii "g").length ≤ maxPacket →
      (Carried (ascii "g") ↔ ascii "g" ≠ [] ∧ ascii "g" ≠ ascii "+" ∧ ascii "g" ≠ ascii "-")) ∧
    (Refused (ascii "g") ↔ (ascii "g").length ≤ maxPacket) :=
  ⟨by decide, framing (ascii "g") (by decide)⟩

/-- The empty body is taken for a corrupt packet. -/
theorem empty_not_carried :
    ¬∀ body : List Byte, (0x23 : Byte) ∉ body → body.length ≤ maxPacket → Carried body := by
  intro always
  obtain ⟨packet, read, -, command⟩ := always [] (by simp) (by decide) [] [] (by simp)
  have corrupt : readPacket ([] ++ (sendPacket [] ++ [])) = .ok (⟨none, false⟩, []) := by decide
  rw [corrupt] at read
  obtain ⟨rfl, -⟩ := Prod.mk.inj (Except.ok.inj read)
  cases command

end Gdbstub

end GoRetroTv
