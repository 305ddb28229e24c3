import GoRetroTv.GuardedRuns
import GoRetroTv.SmartcardPort

/-!
# The card's replies

What the guest transmits to the second card slot is a stream of frames with filler between
them.  A frame that ends is answered once if its reply fits, and the guest receives the
bytes of the replies one by one, each held until it acknowledges the status.
-/

namespace GoRetroTv

namespace Smartcard

open Cpu

/-- A frame the port takes. -/
structure Frame where
  high : Byte
  low : Byte
  command : Byte
  rest : List Byte
  length_rest : rest.length = 256 * high.toNat + low.toNat + 1
  fits : rest.length + 4 ≤ maxFrameBytes

namespace Frame

def bytes (f : Frame) : List Byte :=
  0x60 :: f.high :: f.low :: f.command :: f.rest

/-- The reply to a frame. -/
def answer (f : Frame) : List Byte :=
  [0xe0, 0, 1, f.command, 0xc0, 0x21 ^^^ f.command]

@[simp]
theorem bytes_length (f : Frame) : f.bytes.length = f.rest.length + 4 :=
  rfl

theorem checksum_answer (f : Frame) : Port.checksum f.answer = 0 := by
  obtain ⟨_, _, command, _, _, _⟩ := f
  change (0 ^^^ 0xe0 ^^^ 0 ^^^ 1 ^^^ command ^^^ 0xc0 ^^^ (0x21 ^^^ command) : Byte) = 0
  revert command
  decide

end Frame

/-- A byte between frames, or a frame. -/
inductive Piece where
  | filler (byte : Byte) (plain : byte ≠ 0x60)
  | frame (f : Frame)

namespace Piece

def bytes : Piece → List Byte
  | filler byte _ => [byte]
  | frame f => f.bytes

def frame? : Piece → Option Frame
  | filler _ _ => none
  | frame f => some f

theorem length_pos (piece : Piece) : 0 < piece.bytes.length := by
  cases piece with
  | filler byte plain => exact Nat.one_pos
  | frame f => exact Nat.succ_pos _

end Piece

def stream (pieces : List Piece) : List Byte :=
  pieces.flatMap Piece.bytes

/-- What the first `n` bytes of the stream leave unfinished. -/
def unfinished : List Piece → Nat → List Byte
  | [], _ => []
  | piece :: pieces, n =>
      if n < piece.bytes.length then piece.bytes.take n
      else unfinished pieces (n - piece.bytes.length)

/-- The frame that ends with the byte behind the first `n`. -/
def ended : List Piece → Nat → Option Frame
  | [], _ => none
  | piece :: pieces, n =>
      if n + 1 < piece.bytes.length then none
      else if n + 1 = piece.bytes.length then piece.frame?
      else ended pieces (n - piece.bytes.length)

theorem unfinished_zero (pieces : List Piece) : unfinished pieces 0 = [] := by
  cases pieces with
  | nil => rfl
  | cons piece pieces => rw [unfinished, if_pos piece.length_pos, List.take_zero]

/-- Nothing is unfinished where a frame has ended. -/
theorem unfinished_of_ended {pieces : List Piece} {n : Nat} {f : Frame}
    (ends : ended pieces n = some f) : unfinished pieces (n + 1) = [] := by
  induction pieces generalizing n with
  | nil => exact absurd ends nofun
  | cons piece pieces ih =>
    have pos := piece.length_pos
    rw [ended] at ends
    rw [unfinished]
    by_cases more : n + 1 < piece.bytes.length
    · rw [if_pos more] at ends
      exact absurd ends nofun
    · rw [if_neg more] at ends ⊢
      by_cases last : n + 1 = piece.bytes.length
      · rw [last, Nat.sub_self, unfinished_zero]
      · rw [if_neg last] at ends
        rw [show n + 1 - piece.bytes.length = n - piece.bytes.length + 1 by omega, ih ends]

namespace Port

def hasRoom (p : Port) : Bool :=
  p.reply.length + 6 ≤ maxFrameBytes

/-- The port at the end of a frame. -/
def finish (f : Frame) (p : Port) : Port :=
  if p.hasRoom then
    { p with frame := [], reply := p.reply ++ f.answer, rxDelay := 2 * replyGapInstructions }
  else { p with frame := [] }

variable {p : Port} {b : Byte}

theorem answer_bytes (f : Frame) (p : Port) : p.answer f.bytes = p.finish f := by
  have checksum_ : checksum (replyTo f.command) = 0x21 ^^^ f.command := by
    change (0 ^^^ 0xe0 ^^^ 0 ^^^ 1 ^^^ f.command ^^^ 0xc0 : Byte) = _
    generalize f.command = command
    revert command
    decide
  have room : maxFrameBytes < p.reply.length + (replyTo f.command).length + 1 ↔
      ¬p.hasRoom = true := by
    rw [hasRoom, decide_eq_true_iff, Nat.not_le]
    rfl
  unfold answer finish
  rw [show f.bytes.getD 3 0 = f.command from rfl]
  dsimp only
  rw [checksum_]
  by_cases fits : p.hasRoom = true
  · rw [if_neg fun full => room.mp full fits, if_pos fits, List.append_assoc]
    rfl
  · rw [if_pos (room.mpr fits), if_neg fits]

/-- Three bytes of a frame tell its length. -/
theorem frameLength_take (f : Frame) {n : Nat} (long : 3 ≤ n) :
    frameLength (f.bytes.take n) + 5 = f.bytes.length := by
  have field (i : Nat) (i_lt : i < 3) : (f.bytes.take n).getD i 0 = f.bytes.getD i 0 := by
    rw [List.getD_eq_getElem?_getD, List.getD_eq_getElem?_getD,
      List.getElem?_take_of_lt (by omega)]
  unfold frameLength
  rw [field 1 (by decide), field 2 (by decide),
    ← Nat.shiftLeft_add_eq_or_of_lt (f.bytes.getD 2 0).isLt, Nat.shiftLeft_eq]
  have length := f.length_rest
  change f.high.toNat * 2 ^ 8 + f.low.toNat + 5 = f.rest.length + 4
  omega

/-- The port takes the next byte of a frame. -/
theorem accept_next (f : Frame) {n : Nat} (frame : p.frame = f.bytes.take n)
    (next : f.bytes[n]? = some b) :
    p.accept b =
      if n + 1 < f.bytes.length then { p with frame := f.bytes.take (n + 1) } else p.finish f := by
  have inside : n < f.bytes.length := (List.getElem?_eq_some_iff.mp next).1
  have grown : p.frame ++ [b] = f.bytes.take (n + 1) := by
    rw [frame, List.take_add_one, next]
    rfl
  have length_ : (f.bytes.take (n + 1)).length = n + 1 := by
    rw [List.length_take]
    omega
  have begun : ¬(p.frame = [] ∧ b ≠ 0x60) := by
    rintro ⟨empty, other⟩
    cases n with
    | zero => exact other (Option.some_injective _ next).symm
    | succ n =>
      rw [frame] at empty
      exact List.cons_ne_nil _ _ empty
  have short : ¬maxFrameBytes ≤ p.frame.length := by
    have fits := f.fits
    have total := f.bytes_length
    rw [frame, List.length_take]
    omega
  unfold accept
  rw [if_neg begun, if_neg short, grown]
  dsimp only
  rw [length_]
  by_cases three : n + 1 < 3
  · have more : n + 1 < f.bytes.length := by
      rw [f.bytes_length]
      omega
    rw [if_pos three, if_pos more]
  · have small : ¬maxFrameBytes < f.bytes.length := by
      rw [f.bytes_length]
      exact Nat.not_lt.mpr f.fits
    rw [if_neg three, frameLength_take f (by omega), if_neg small]
    by_cases more : n + 1 < f.bytes.length
    · rw [if_pos more, if_pos (Nat.ne_of_lt more)]
    · have last : n + 1 = f.bytes.length := by omega
      rw [if_neg more, if_neg (not_not.mpr last), last, List.take_length, answer_bytes]
      rfl

/-- The port hears the next byte of a stream. -/
theorem accept_stream {pieces : List Piece} {n : Nat} (frame : p.frame = unfinished pieces n)
    (next : (stream pieces)[n]? = some b) :
    p.accept b =
      match ended pieces n with
      | some f => p.finish f
      | none => { p with frame := unfinished pieces (n + 1) } := by
  induction pieces generalizing n with
  | nil => exact absurd next nofun
  | cons piece pieces ih =>
    rw [unfinished] at frame
    rw [stream, List.flatMap_cons] at next
    rw [ended, unfinished]
    by_cases within : n < piece.bytes.length
    · rw [if_pos within] at frame
      rw [List.getElem?_append_left within] at next
      cases piece with
      | filler byte plain =>
        have first : n = 0 := Nat.lt_one_iff.mp within
        subst first
        have same : byte = b := Option.some_injective _ next
        have idle : p.frame = [] ∧ b ≠ 0x60 := ⟨frame, same ▸ plain⟩
        rw [accept, if_pos idle]
        change p = { p with frame := unfinished pieces 0 }
        rw [unfinished_zero, ← idle.1]
      | frame f =>
        rw [accept_next f frame next]
        by_cases more : n + 1 < f.bytes.length
        · rw [if_pos more]
          change _ = match if n + 1 < f.bytes.length then none else _ with
            | some f => p.finish f
            | none => _
          rw [if_pos more]
          change _ = { p with frame := if n + 1 < f.bytes.length then f.bytes.take (n + 1) else _ }
          rw [if_pos more]
        · have last : n + 1 = f.bytes.length := by
            change n < f.bytes.length at within
            omega
          rw [if_neg more]
          change _ = match if n + 1 < f.bytes.length then none
              else if n + 1 = f.bytes.length then some f else _ with
            | some f => p.finish f
            | none => _
          rw [if_neg more, if_pos last]
    · rw [if_neg within] at frame
      rw [List.getElem?_append_right (by omega)] at next
      rw [ih frame next, if_neg (by omega), if_neg (by omega), if_neg (by omega),
        show n + 1 - piece.bytes.length = n - piece.bytes.length + 1 by omega]

/-- The frame and the replies are within their cap. -/
structure Capped (p : Port) : Prop where
  frame : p.frame.length ≤ maxFrameBytes
  reply : p.reply.length ≤ maxFrameBytes

/-- A frame's end queues its answer if there is room. -/
theorem finish_reply (f : Frame) (p : Port) :
    (p.finish f).reply = p.reply ++ (if p.hasRoom then [f] else []).flatMap Frame.answer := by
  unfold finish
  split
  · rw [List.flatMap_singleton]
  · rw [List.flatMap_nil, List.append_nil]

theorem finish_keeps (f : Frame) (p : Port) :
    (p.finish f).frame = [] ∧ (p.finish f).status = p.status ∧
      (p.finish f).rxByte = p.rxByte := by
  unfold finish
  split <;> exact ⟨rfl, rfl, rfl⟩

theorem Capped.accept (capped : p.Capped) (b : Byte) : (p.accept b).Capped := by
  unfold Port.accept
  split
  · exact capped
  · split
    · exact ⟨Nat.zero_le _, capped.reply⟩
    · next short =>
      have grown : (p.frame ++ [b]).length ≤ maxFrameBytes := by
        rw [List.length_append, List.length_singleton]
        omega
      dsimp only
      split
      · exact ⟨grown, capped.reply⟩
      · split
        · exact ⟨Nat.zero_le _, capped.reply⟩
        · split
          · exact ⟨grown, capped.reply⟩
          · unfold answer
            dsimp only
            split
            · exact ⟨Nat.zero_le _, capped.reply⟩
            · next room =>
              refine ⟨Nat.zero_le _, ?_⟩
              rw [List.length_append, List.length_append, List.length_singleton]
              omega

/-- Two ports that differ in the link's pace only. -/
structure SameLink (p q : Port) : Prop where
  frame : q.frame = p.frame
  reply : q.reply = p.reply
  rxByte : q.rxByte = p.rxByte
  pending : q.status &&& 4 = p.status &&& 4

theorem pumpTransmit_sameLink (batch : DoubleWord) (p : Port) :
    p.SameLink (p.pumpTransmit batch) := by
  have unraised : (p.status ||| 2) &&& 4 = p.status &&& 4 := by
    rw [BitVec.and_comm, BitVec.and_or_distrib_left, BitVec.and_comm 4 p.status]
    exact BitVec.or_zero
  unfold pumpTransmit
  split
  · exact ⟨rfl, rfl, rfl, rfl⟩
  · split
    · exact ⟨rfl, rfl, rfl, rfl⟩
    · exact ⟨rfl, rfl, rfl, unraised⟩

/-- A pump presents the first waiting byte over an acknowledged status, or keeps the link. -/
theorem pumpReceive_cases (batch : DoubleWord) (p : Port) :
    p.SameLink (p.pumpReceive batch) ∨
      p.status &&& 4 = 0 ∧ (p.pumpReceive batch).status &&& 4 ≠ 0 ∧
        (p.pumpReceive batch).frame = p.frame ∧
        p.reply = (p.pumpReceive batch).rxByte :: (p.pumpReceive batch).reply := by
  have raised : (p.status ||| 4) &&& 4 ≠ 0 := by
    rw [BitVec.and_comm, BitVec.and_or_distrib_left]
    intro zero
    exact absurd (BitVec.or_eq_zero_iff.mp zero).2 (by decide)
  unfold pumpReceive
  cases waiting : p.reply with
  | nil => exact .inl ⟨rfl, rfl, rfl, rfl⟩
  | cons byte rest =>
    dsimp only
    split
    · exact .inl ⟨rfl, rfl, rfl, rfl⟩
    · next open_ =>
      split
      · exact .inr ⟨not_not.mp fun pending => open_ (.inl pending), raised, rfl, rfl⟩
      · split
        · exact .inl ⟨rfl, waiting.symm, rfl, rfl⟩
        · exact .inl ⟨rfl, waiting.symm, rfl, rfl⟩

/-- A write that transmits nothing keeps the link, but for an acknowledged status. -/
theorem write_cases {off : Word} {size : Size} (value : Word) (p : Port)
    (silent : ¬(size = .word ∧ off = 0x50)) :
    p.SameLink (p.write off size value) ∨
      (size = .word ∧ off = 0x60) ∧ p.write off size value = { p with status := 0 } := by
  unfold write
  split
  · exact .inl ⟨rfl, rfl, rfl, rfl⟩
  · next word =>
    split
    · exact .inl ⟨rfl, rfl, rfl, rfl⟩
    · exact .inl ⟨rfl, rfl, rfl, rfl⟩
    · exact .inl ⟨rfl, rfl, rfl, rfl⟩
    · next at_ => exact absurd ⟨not_not.mp word, BitVec.eq_of_toNat_eq at_⟩ silent
    · next at_ => exact .inr ⟨⟨not_not.mp word, BitVec.eq_of_toNat_eq at_⟩, rfl⟩
    · exact .inl ⟨rfl, rfl, rfl, rfl⟩
    · exact .inl ⟨rfl, rfl, rfl, rfl⟩

end Port

/-- A guest's access to the window, or a pump of the board's devices. -/
inductive Action where
  | write (off : Word) (size : Size) (value : Word)
  | pump (batch : DoubleWord)

/-- The byte an action transmits. -/
def Action.transmits : Action → List Byte
  | write off size value => if size = .word ∧ off = 0x50 then [value.setWidth 8] else []
  | pump _ => []

/-- The write that acknowledges the status. -/
def Action.acknowledges : Action → Bool
  | write off size _ => size = .word ∧ off = 0x60
  | pump _ => false

def transmitted (actions : List Action) : List Byte :=
  actions.flatMap Action.transmits

def Attached.perform (a : Attached) : Action → Attached
  | .write off size value => (a.1.write off size value, a.2)
  | .pump batch => a.1.pump batch a.2

/-- The byte a step presents in the receive register. -/
def received (before after : Port) : List Byte :=
  if before.status &&& 4 = 0 ∧ after.status &&& 4 ≠ 0 then [after.rxByte] else []

/-- The port, what the guest has transmitted, the frames answered and the bytes presented. -/
structure Session where
  attached : Attached
  sent : List Byte := []
  answered : List Frame := []
  presented : List Byte := []

namespace Session

def port (s : Session) : Port :=
  s.attached.1

/-- The frame of the stream an action ends, if its reply finds room. -/
def answers (pieces : List Piece) (s : Session) (action : Action) : List Frame :=
  match action.transmits with
  | [] => []
  | _ :: _ => if s.port.hasRoom then (ended pieces s.sent.length).toList else []

def step (pieces : List Piece) (s : Session) (action : Action) : Session :=
  let attached := s.attached.perform action
  { attached
    sent := s.sent ++ action.transmits
    answered := s.answered ++ s.answers pieces action
    presented := s.presented ++ received s.port attached.1 }

def started (wire : Irq.Wire) : Session :=
  { attached := ({}, wire) }

/-- What a step does to the replies and to the receive register. -/
structure Delivers (pieces : List Piece) (s : Session) (action : Action) : Prop where
  queued : s.port.reply ++ (s.answers pieces action).flatMap Frame.answer =
    received s.port (s.step pieces action).port ++ (s.step pieces action).port.reply
  shown : received s.port (s.step pieces action).port = [] →
    (s.step pieces action).port.rxByte = s.port.rxByte
  held : s.port.status &&& 4 ≠ 0 → action.acknowledges = false →
    (s.step pieces action).port.status &&& 4 ≠ 0

/-- The port follows the stream, within its caps. -/
structure Follows (pieces : List Piece) (s : Session) : Prop where
  frame : s.port.frame = unfinished pieces s.sent.length
  capped : s.port.Capped

/-- The bytes presented and those waiting are the replies in order. -/
def Accounted (s : Session) : Prop :=
  s.presented ++ s.port.reply = s.answered.flatMap Frame.answer

variable {pieces : List Piece} {s : Session}

theorem Accounted.step {action : Action} (accounted : s.Accounted)
    (delivers : s.Delivers pieces action) : (s.step pieces action).Accounted := by
  unfold Accounted
  change (s.presented ++ received s.port (s.step pieces action).port) ++
      (s.step pieces action).port.reply =
    (s.answered ++ s.answers pieces action).flatMap Frame.answer
  rw [List.append_assoc, ← delivers.queued, ← List.append_assoc, accounted, List.flatMap_append]

theorem answers_silent {action : Action} (silent : action.transmits = []) :
    s.answers pieces action = [] := by
  rw [answers, silent]

/-- A step that keeps the link keeps what the session has shown. -/
theorem sound_of_sameLink {action : Action} (follows : s.Follows pieces)
    (silent : action.transmits = []) (same : s.port.SameLink (s.step pieces action).port) :
    (s.step pieces action).Follows pieces ∧ s.Delivers pieces action := by
  have nothing : received s.port (s.step pieces action).port = [] := by
    rw [received, same.pending]
    exact if_neg fun both => both.2 both.1
  constructor
  · refine ⟨?_, ?_, ?_⟩
    · change (s.step pieces action).port.frame =
        unfinished pieces (s.sent ++ action.transmits).length
      rw [same.frame, silent, List.append_nil, follows.frame]
    · rw [same.frame]
      exact follows.capped.frame
    · rw [same.reply]
      exact follows.capped.reply
  · refine ⟨?_, fun _ => same.rxByte, fun pending _ => ?_⟩
    · rw [answers_silent silent, nothing, same.reply, List.flatMap_nil, List.append_nil,
        List.nil_append]
    · rw [same.pending]
      exact pending

/-- A pump. -/
theorem sound_pump (follows : s.Follows pieces) (batch : DoubleWord) :
    (s.step pieces (.pump batch)).Follows pieces ∧ s.Delivers pieces (.pump batch) := by
  have sent : s.port.SameLink (s.port.pumpTransmit batch) := s.port.pumpTransmit_sameLink batch
  rcases (s.port.pumpTransmit batch).pumpReceive_cases batch with kept | presents
  · refine sound_of_sameLink follows rfl ⟨?_, ?_, ?_, ?_⟩
    · exact kept.frame.trans sent.frame
    · exact kept.reply.trans sent.reply
    · exact kept.rxByte.trans sent.rxByte
    · exact kept.pending.trans sent.pending
  · change _ ∧ (s.step pieces (.pump batch)).port.status &&& 4 ≠ 0 ∧
      (s.step pieces (.pump batch)).port.frame = _ ∧
        _ = (s.step pieces (.pump batch)).port.rxByte :: (s.step pieces (.pump batch)).port.reply
      at presents
    obtain ⟨clear, raised, frame, waiting⟩ := presents
    rw [sent.pending] at clear
    rw [sent.reply] at waiting
    rw [sent.frame] at frame
    have shown : received s.port (s.step pieces (.pump batch)).port =
        [(s.step pieces (.pump batch)).port.rxByte] := if_pos ⟨clear, raised⟩
    constructor
    · refine ⟨?_, ?_, ?_⟩
      · change _ = unfinished pieces (s.sent ++ []).length
        rw [frame, List.append_nil, follows.frame]
      · rw [frame]
        exact follows.capped.frame
      · have capped := follows.capped.reply
        rw [waiting, List.length_cons] at capped
        omega
    · refine ⟨?_, fun nothing => ?_, fun _ _ => raised⟩
      · rw [answers_silent rfl, shown, waiting, List.flatMap_nil, List.append_nil]
        rfl
      · rw [shown] at nothing
        exact absurd nothing (List.cons_ne_nil _ _)

/-- A write that transmits nothing. -/
theorem sound_silent (follows : s.Follows pieces) {off : Word} {size : Size} (value : Word)
    (silent : ¬(size = .word ∧ off = 0x50)) :
    (s.step pieces (.write off size value)).Follows pieces ∧
      s.Delivers pieces (.write off size value) := by
  have nothing : (Action.write off size value).transmits = [] := if_neg silent
  rcases s.port.write_cases value silent with kept | ⟨acknowledge, written⟩
  · exact sound_of_sameLink follows nothing kept
  · have port_ : (s.step pieces (.write off size value)).port = { s.port with status := 0 } :=
      written
    have unread : received s.port (s.step pieces (.write off size value)).port = [] := by
      rw [received, port_]
      exact if_neg fun both => both.2 BitVec.zero_and
    constructor
    · refine ⟨?_, ?_⟩
      · change _ = unfinished pieces (s.sent ++ (Action.write off size value).transmits).length
        rw [port_, nothing, List.append_nil]
        exact follows.frame
      · rw [port_]
        exact ⟨follows.capped.frame, follows.capped.reply⟩
    · refine ⟨?_, fun _ => ?_, fun _ other => ?_⟩
      · rw [answers_silent nothing, unread, port_, List.flatMap_nil, List.append_nil]
        rfl
      · rw [port_]
      · rw [Action.acknowledges, decide_eq_false_iff_not] at other
        exact absurd acknowledge other

/-- A write that transmits the next byte of the stream. -/
theorem sound_transmit (follows : s.Follows pieces) {value : Word}
    (continues : s.sent ++ [value.setWidth 8] <+: stream pieces) :
    (s.step pieces (.write 0x50 .word value)).Follows pieces ∧
      s.Delivers pieces (.write 0x50 .word value) := by
  have next : (stream pieces)[s.sent.length]? = some (value.setWidth 8) := by
    obtain ⟨later, whole⟩ := continues
    rw [← whole, List.append_assoc, List.getElem?_append_right (Nat.le_refl _), Nat.sub_self]
    rfl
  let p : Port := { s.port with txDelay := byteInstructions }
  have heard := Port.accept_stream (p := p) follows.frame next
  have port_ : (s.step pieces (.write 0x50 .word value)).port = p.accept (value.setWidth 8) := rfl
  have sent : (s.step pieces (.write 0x50 .word value)).sent.length = s.sent.length + 1 :=
    List.length_append
  have status : (p.accept (value.setWidth 8)).status = p.status ∧
      (p.accept (value.setWidth 8)).rxByte = p.rxByte := by
    rw [heard]
    split
    · next f _ => exact (p.finish_keeps f).2
    · exact ⟨rfl, rfl⟩
  have nothing : received s.port (s.step pieces (.write 0x50 .word value)).port = [] := by
    rw [received, port_, status.1]
    exact if_neg fun both => both.2 both.1
  have asked : s.answers pieces (.write 0x50 .word value) =
      if p.hasRoom then (ended pieces s.sent.length).toList else [] := rfl
  constructor
  · refine ⟨?_, ?_⟩
    · rw [port_, heard, sent]
      split
      · next f ends => rw [(p.finish_keeps f).1, unfinished_of_ended ends]
      · rfl
    · rw [port_]
      exact Port.Capped.accept (p := p) ⟨follows.capped.frame, follows.capped.reply⟩ _
  · refine ⟨?_, fun _ => ?_, fun pending _ => ?_⟩
    · rw [nothing, port_, asked, heard, List.nil_append]
      cases ends : ended pieces s.sent.length with
      | none =>
        rw [Option.toList_none, ite_self, List.flatMap_nil, List.append_nil]
      | some f => exact (p.finish_reply f).symm
    · rw [port_]
      exact status.2
    · rw [port_, status.1]
      exact pending

/-- What an action transmits goes on with the stream. -/
def Continues (pieces : List Piece) (s : Session) (action : Action) : Prop :=
  s.sent ++ action.transmits <+: stream pieces

/-- One step of a session that transmits the stream. -/
theorem sound_step {action : Action} (follows : s.Follows pieces)
    (continues : s.Continues pieces action) :
    (s.step pieces action).Follows pieces ∧ s.Delivers pieces action := by
  cases action with
  | pump batch => exact sound_pump follows batch
  | write off size value =>
    by_cases transmits : size = .word ∧ off = 0x50
    · have sends : (Action.write off size value).transmits = [value.setWidth 8] :=
        if_pos transmits
      rw [Continues, sends] at continues
      obtain ⟨rfl, rfl⟩ := transmits
      exact sound_transmit follows continues
    · exact sound_silent follows value transmits

theorem started_follows (pieces : List Piece) (wire : Irq.Wire) :
    (started wire).Follows pieces where
  frame := (unfinished_zero pieces).symm
  capped := ⟨Nat.zero_le _, Nat.zero_le _⟩

/-- A run whose bytes begin the stream goes on with it at every step. -/
theorem along_continues {actions : List Action}
    (begins : s.sent ++ transmitted actions <+: stream pieces) :
    Runs.Along (step pieces) (Continues pieces) s actions := by
  induction actions generalizing s with
  | nil => trivial
  | cons action actions ih =>
    rw [transmitted, List.flatMap_cons, ← List.append_assoc] at begins
    exact ⟨(List.prefix_append _ _).trans begins, ih begins⟩

end Session

/-- **The link delivers the replies.**  A run from a new port transmits frames with filler
between them, among accesses and pumps of any kind.  Each step queues the answer of the frame
it ends if there is room and nothing else, and takes from the replies the byte it presents; a
byte stays in the register until the status is acknowledged; the bytes presented and those
waiting are the answers in order; and the buffers are within their cap. -/
theorem replies_delivered (wire : Irq.Wire) (pieces : List Piece) (actions : List Action)
    (begins : transmitted actions <+: stream pieces) :
    Runs.Along (Session.step pieces) (Session.Delivers pieces) (.started wire) actions ∧
      (actions.foldl (Session.step pieces) (.started wire)).Accounted ∧
      (actions.foldl (Session.step pieces) (.started wire)).port.Capped ∧
      ∀ f : Frame, Port.checksum f.answer = 0 := by
  have along : Runs.Along (Session.step pieces) (Session.Continues pieces) (.started wire)
      actions := Session.along_continues begins
  have start := Session.started_follows pieces wire
  have delivers : Runs.Along (Session.step pieces) (Session.Delivers pieces) (.started wire)
      actions := by
    refine along.shows start ?_ ?_
    · intro s action follows continues
      exact (Session.sound_step follows continues).1
    · intro s action follows continues
      exact (Session.sound_step follows continues).2
  have accounted : (actions.foldl (Session.step pieces) (.started wire)).Accounted := by
    refine delivers.invariant rfl ?_
    intro s action accounted delivers
    exact accounted.step delivers
  have follows : (actions.foldl (Session.step pieces) (.started wire)).Follows pieces := by
    refine along.invariant start ?_
    intro s action follows continues
    exact (Session.sound_step follows continues).1
  exact ⟨delivers, accounted, follows.capped, Frame.checksum_answer⟩

/-- A frame behind a filler byte. -/
def exchange : List Piece :=
  [.filler 0 (by decide), .frame ⟨0, 1, 0x12, [0, 0], rfl, by decide⟩]

theorem replies_delivered_exchange :
    let actions : List Action :=
      [0, 0x60, 0, 1, 0x12, 0, 0].map (.write 0x50 .word) ++
        [.pump 40000, .pump 8000, .write 0x60 .word 0, .pump 30000, .pump 8000]
    let s := actions.foldl (Session.step exchange) (.started {})
    s.presented = [0xe0, 0] ∧ s.Accounted := by
  refine ⟨by decide, ?_⟩
  exact (replies_delivered {} exchange _ (by decide)).2.1

end Smartcard

end GoRetroTv
