import GoRetroTv.CappedBuffers
import GoRetroTv.CsiFrames
import GoRetroTv.GuardedRuns

/-!
# Which of the guest's frames the card answers

The card keeps the first 32 bytes of a frame from the guest and drops the rest.
What it then judges is the beginning of the payload, so a longer frame is
answered when its beginning looks whole, and is not when it does not.
-/

namespace GoRetroTv

namespace Csi

open Snapcodec Cpu EscapedFrames

/-- The payload of the frame a byte ends, if it ends one. -/
def ended (sent : List Byte) (b : Byte) : Option (List Byte) :=
  if (receive marks sent).afterEscape = false ∧ b = marks.terminator then
    some (receive marks sent).part
  else none

/-- A payload is as long as its first byte says. -/
def WellFormed (payload : List Byte) : Prop :=
  3 ≤ payload.length ∧ payload.length = (payload.getD 0 0).toNat + 1

instance (payload : List Byte) : Decidable (WellFormed payload) :=
  inferInstanceAs (Decidable (_ ∧ _))

/-- Bytes which a receiver takes for one payload, with a command's sequence and
code. -/
def Echoes (command wire : List Byte) : Prop :=
  ∃ payload, receive marks wire = { frames := [payload] } ∧
    payload[1]? = command[1]? ∧ payload[2]? = command[2]?

namespace Link

/-- The queue takes the whole answer to a command. -/
def hasRoom (command : List Byte) (l : Link) : Bool :=
  decide ((encode (answer (command.getD 1 0) (command.getD 2 0))).length ≤
    maxQueuedBytes - l.reply.length)

/-- The byte a write transmits, if it does. -/
def sends (off : Word) (size : Size) (value : Word) (l : Link) : List Byte :=
  if size = .word ∧ off.toNat = 0x10 ∧ l.enabled then [value.setWidth 8] else []

/-- A command is to be answered. -/
def Asks (command : List Byte) (l : Link) : Prop :=
  WellFormed command ∧ l.ack (command.getD 2 0) = true ∧ l.hasRoom command = true

instance (command : List Byte) (l : Link) : Decidable (l.Asks command) :=
  inferInstanceAs (Decidable (_ ∧ _ ∧ _))

end Link

/-- The link, and the bytes the guest has transmitted to the card. -/
structure Dialogue where
  session : Session
  sent : List Byte := []

namespace Dialogue

def link (d : Dialogue) : Link :=
  d.session.link

def step (d : Dialogue) : Action → Dialogue
  | .write off size value =>
      { session := d.session.step (.write off size value)
        sent := d.sent ++ d.link.sends off size value }
  | action => { d with session := d.session.step action }

/-- A link that has just been reset, with a card of some policy. -/
def started (policy : AckPolicy) (wire : Irq.Wire) : Dialogue where
  session := { Session.started wire with
    attached := ((Session.started wire).link.setAckPolicy policy, (Link.reset wire).2) }

/-- What a step is to queue: the answer to the command it ends, if that asks for
one. -/
def Due (d : Dialogue) (late : List Byte) : List Byte → Prop
  | [] => late = []
  | b :: _ =>
      match ended d.sent b with
      | none => late = []
      | some command => if d.link.Asks command then Echoes command late else late = []

/-- A write queues what it is to queue, and what else befalls the link queues
nothing. -/
def Answers (d : Dialogue) : Action → Prop
  | .write off size value =>
      ∃ late, (d.step (.write off size value)).link.reply = d.link.reply ++ late ∧
        d.Due late (d.link.sends off size value)
  | action => (d.step action).link.reply <:+ d.link.reply

/-- A frame fits the card's buffer, or no answer hangs on what was dropped. -/
def Fits (d : Dialogue) : Action → Prop
  | .write off size value =>
      ∀ b ∈ d.link.sends off size value, ∀ command ∈ ended d.sent b,
        command.length ≤ 32 ∨ d.link.ack (command.getD 2 0) = false ∨
          d.link.hasRoom command = false ∨
            command.getD 0 0 ≠ 31 ∧ command.length ≠ (command.getD 0 0).toNat + 1
  | _ => True

end Dialogue

/-- The rest of a payload goes through the receiver to the end of its frame. -/
theorem foldl_frame (payload : List Byte) (r : Received Byte) (plain : r.afterEscape = false)
    (full : r.part ++ payload ≠ []) :
    (frame marks payload).foldl (Received.take marks) r =
      { frames := r.frames ++ [r.part ++ payload] } := by
  induction payload generalizing r with
  | nil =>
    rw [List.append_nil] at full ⊢
    simp [Received.take, Received.terminate, plain, marks.distinct, full]
  | cons a payload ih =>
    have after : (escaped marks a).foldl (Received.take marks) r =
        { r with part := r.part ++ [a], afterEscape := false } := by
      unfold escaped
      split
      · simp [Received.take, plain]
      · next mark =>
        obtain ⟨noEnd, noEscape⟩ := not_or.mp mark
        simp [Received.take, plain, noEnd, noEscape]
    rw [frame_cons, List.foldl_append, after, ih _ rfl (by simp)]
    simp

theorem receive_encode {payload : List Byte} (full : payload ≠ []) :
    receive marks (encode payload) = { frames := [payload] } := by
  have whole := foldl_frame payload {} rfl (by simpa using full)
  simpa [receive, encode_eq_frame] using whole

theorem answer_echoes {command : List Byte} (long : 3 ≤ command.length) :
    Echoes command (encode (Link.answer (command.getD 1 0) (command.getD 2 0))) := by
  have sequence : command[1]? = some (command.getD 1 0) := by
    rw [List.getD_eq_getElem?_getD, List.getElem?_eq_getElem (by omega)]
    rfl
  have code : command[2]? = some (command.getD 2 0) := by
    rw [List.getD_eq_getElem?_getD, List.getElem?_eq_getElem (by omega)]
    rfl
  refine ⟨_, receive_encode (Link.answer_ne_nil _ _), ?_, ?_⟩
  · rw [sequence]
    unfold Link.answer
    split <;> rfl
  · rw [code]
    unfold Link.answer
    split <;> rfl

theorem not_echoes_nil (command : List Byte) : ¬Echoes command [] := by
  rintro ⟨payload, received, -⟩
  simp [Received.ext_iff] at received

namespace Link

/-- The card has the beginning of what a receiver has. -/
structure Follows (l : Link) (r : Received Byte) : Prop where
  frame : l.frame = r.part.take 32
  escaped : l.escaped = r.afterEscape

variable {l l' : Link} {r : Received Byte}

theorem appendFrame_frame (part : List Byte) (kept : l.frame = part.take 32) (b : Byte) :
    (l.appendFrame b).frame = (part ++ [b]).take 32 := by
  have grown := CappedBuffers.push_take 32 part b
  rw [← kept] at grown
  rw [← grown]
  unfold appendFrame CappedBuffers.push
  split <;> rfl

theorem appendFrame_escaped (l : Link) (b : Byte) : (l.appendFrame b).escaped = l.escaped := by
  unfold appendFrame
  split <;> rfl

theorem acceptFrame_kept (frame : List Byte) (l : Link) :
    (l.acceptFrame frame).frame = l.frame ∧ (l.acceptFrame frame).escaped = l.escaped := by
  unfold acceptFrame
  dsimp only
  split
  · exact ⟨rfl, rfl⟩
  · split <;> exact ⟨rfl, rfl⟩

theorem Follows.accept (follows : Follows l r) (b : Byte) :
    Follows (l.accept b) (r.take marks b) := by
  cases escape : r.afterEscape with
  | true =>
    have accepted : l.accept b = appendFrame b { l with escaped := false } :=
      if_pos (follows.escaped.trans escape)
    have taken : r.take marks b = { r with part := r.part ++ [b], afterEscape := false } :=
      if_pos escape
    rw [accepted, taken]
    exact ⟨@appendFrame_frame { l with escaped := false } r.part follows.frame b,
      appendFrame_escaped _ b⟩
  | false =>
    have plain := follows.escaped.trans escape
    have accepted : l.accept b =
        if b = 0x1b then { l with escaped := true }
        else if b ≠ 0 then l.appendFrame b
        else { l with frame := [] }.acceptFrame l.frame :=
      if_neg (Bool.eq_false_iff.mp plain)
    have taken : r.take marks b =
        if b = 0x1b then { r with afterEscape := true }
        else if b = 0 then r.terminate
        else { r with part := r.part ++ [b] } :=
      if_neg (Bool.eq_false_iff.mp escape)
    rw [accepted, taken]
    by_cases isEscape : b = 0x1b
    · rw [if_pos isEscape, if_pos isEscape]
      exact ⟨follows.frame, rfl⟩
    rw [if_neg isEscape, if_neg isEscape]
    by_cases isEnd : b = 0
    · rw [if_neg (not_not.mpr isEnd), if_pos isEnd]
      obtain ⟨frame, escaped⟩ := acceptFrame_kept l.frame { l with frame := [] }
      exact ⟨frame, escaped.trans follows.escaped⟩
    · rw [if_pos isEnd, if_neg isEnd]
      exact ⟨appendFrame_frame r.part follows.frame b,
        (appendFrame_escaped l b).trans follows.escaped⟩

/-- Two links have the same of the guest's frame, and answer alike. -/
structure SameParsing (l l' : Link) : Prop where
  frame : l'.frame = l.frame
  escaped : l'.escaped = l.escaped
  ack : l'.ack = l.ack

theorem SameParsing.follows (same : SameParsing l l') (follows : Follows l r) : Follows l' r where
  frame := same.frame.trans follows.frame
  escaped := same.escaped.trans follows.escaped

/-- A write that transmits nothing leaves the card alone. -/
theorem write_silent {off : Word} {size : Size} {value : Word}
    (silent : ¬(size = .word ∧ off.toNat = 0x10 ∧ l.enabled)) (wire : Irq.Wire) :
    SameParsing l (l.write off size value wire).1 := by
  unfold write
  split
  · exact ⟨rfl, rfl, rfl⟩
  next isWord =>
  rw [not_not] at isWord
  split
  · exact ⟨rfl, rfl, rfl⟩
  · next transmit =>
    rw [if_neg fun on => silent ⟨isWord, transmit, on⟩]
    exact ⟨rfl, rfl, rfl⟩
  · split <;> exact ⟨rfl, rfl, rfl⟩
  · dsimp only [updateLine]
    split <;> exact ⟨rfl, rfl, rfl⟩
  · exact ⟨rfl, rfl, rfl⟩

/-- A byte on its way to the card. -/
theorem write_transmits {off : Word} {size : Size} {value : Word}
    (sends : size = .word ∧ off.toNat = 0x10 ∧ l.enabled) (wire : Irq.Wire) :
    ∃ sent : Link, SameParsing l sent ∧ sent.reply = l.reply ∧
      (l.write off size value wire).1 = sent.accept (value.setWidth 8) := by
  obtain ⟨isWord, transmit, on⟩ := sends
  refine ⟨{ l with
    transmitted :=
      if l.transmitted.length < maxQueuedBytes then l.transmitted ++ [(value.setWidth 8 : Byte)]
      else l.transmitted
    boxBusy := (value.setWidth 8 : Byte) != 0
    txSeen := true }, ⟨rfl, rfl, rfl⟩, rfl, ?_⟩
  unfold write
  rw [if_neg (not_not.mpr isWord), transmit]
  dsimp only
  rw [if_pos on]
  rfl

theorem advanceFrame_sameParsing (b : Byte) (l : Link) : SameParsing l (l.advanceFrame b) := by
  unfold advanceFrame
  split_ifs <;> exact ⟨rfl, rfl, rfl⟩

/-- A presented byte leaves the card alone, and queues nothing. -/
theorem present_sameParsing {now : DoubleWord} (presents : l.present now = some l') :
    SameParsing l l' ∧ l'.reply <:+ l.reply := by
  unfold present at presents
  split at presents
  · split_ifs at presents
    obtain rfl := Option.some.inj presents
    have same := advanceFrame_sameParsing (l.reply.headD 0) { l with
      data := l.reply.headD 0, reply := l.reply.tail, txSeen := false, sendingReply := true }
    refine ⟨⟨same.frame, same.escaped, same.ack⟩, ?_⟩
    rw [(advanceFrame_kept _ _).reply]
    exact List.tail_suffix _
  · split_ifs at presents
    obtain rfl := Option.some.inj presents
    have same := advanceFrame_sameParsing (l.queue.headD 0) { l with
      data := l.queue.headD 0, queue := l.queue.tail, txSeen := false, sendingReply := false }
    refine ⟨⟨same.frame, same.escaped, same.ack⟩, ?_⟩
    rw [(advanceFrame_kept _ _).reply]
  · dsimp only at presents
    generalize (if l.boxBusy then trafficInstructions else idleInstructions) = period at presents
    split_ifs at presents
    obtain rfl := Option.some.inj presents
    exact ⟨⟨rfl, rfl, rfl⟩, List.suffix_refl _⟩

theorem pump_sameParsing (now boardTicks : DoubleWord) (wire : Irq.Wire) (l : Link) :
    SameParsing l (l.pump now boardTicks wire).1 ∧
      (l.pump now boardTicks wire).1.reply <:+ l.reply := by
  have clocked : SameParsing l (l.clocked now boardTicks) := by
    unfold Link.clocked
    dsimp only
    split <;> exact ⟨rfl, rfl, rfl⟩
  have reply := (clocked_sameFraming now boardTicks l).2.1
  rcases pump_cases now boardTicks wire l with ⟨pumped, -⟩ | ⟨shown, presents, pumped, -⟩
  · rw [pumped, reply]
    exact ⟨clocked, List.suffix_refl _⟩
  · obtain ⟨same, suffix⟩ := present_sameParsing presents
    rw [pumped, ← reply]
    exact ⟨⟨same.frame.trans clocked.frame, same.escaped.trans clocked.escaped,
      same.ack.trans clocked.ack⟩, suffix⟩

/-- What the card answers to the byte that ends a command: it judges the beginning
it has kept. -/
theorem Follows.replied (follows : Follows l r) (plain : r.afterEscape = false) :
    l.replied 0 =
      if WellFormed (r.part.take 32) ∧ l.ack (r.part.getD 2 0) = true ∧ l.hasRoom r.part = true then
        [answer (r.part.getD 1 0) (r.part.getD 2 0)]
      else [] := by
  have field (i : Nat) (small : i < 32) : (r.part.take 32).getD i 0 = r.part.getD i 0 := by
    rw [List.getD_eq_getElem?_getD, List.getD_eq_getElem?_getD, List.getElem?_take_of_lt small]
  have unescaped : ¬(l.escaped = true ∨ (0 : Byte) ≠ 0) := by
    rw [follows.escaped, plain]
    simp
  unfold Link.replied
  rw [if_neg unescaped, follows.frame]
  dsimp only
  rw [field 0 (by decide), field 1 (by decide), field 2 (by decide)]
  have looks : WellFormed (r.part.take 32) ↔ 3 ≤ (r.part.take 32).length ∧
      (r.part.take 32).length = (r.part.getD 0 0).toNat + 1 := by
    rw [WellFormed, field 0 (by decide)]
  by_cases asks : WellFormed (r.part.take 32) ∧ l.ack (r.part.getD 2 0) = true ∧
      l.hasRoom r.part = true
  · obtain ⟨long, exact_⟩ := looks.mp asks.1
    have unrefused : ¬((r.part.take 32).length < 3 ∨
        (r.part.take 32).length ≠ (r.part.getD 0 0).toNat + 1 ∨
          l.ack (r.part.getD 2 0) = false) := by
      rw [not_or, not_or, Bool.not_eq_false]
      exact ⟨Nat.not_lt.mpr long, not_not.mpr exact_, asks.2.1⟩
    rw [if_pos asks, if_neg unrefused, if_pos (of_decide_eq_true asks.2.2)]
  · rw [if_neg asks]
    split
    · rfl
    · next unrefused =>
      obtain ⟨long, exact_, acked⟩ := by
        simpa only [not_or, Nat.not_lt, not_not, Bool.not_eq_false] using unrefused
      refine if_neg fun room => asks ⟨looks.mpr ⟨long, exact_⟩, acked, decide_eq_true room⟩

/-- A command which its buffer does not hold looks whole when its first byte says 31. -/
theorem wellFormed_take (command : List Byte) :
    (WellFormed (command.take 32) ↔ WellFormed command) ↔
      command.length ≤ 32 ∨
        command.getD 0 0 ≠ 31 ∧ command.length ≠ (command.getD 0 0).toNat + 1 := by
  have first : (command.take 32).getD 0 0 = command.getD 0 0 := by
    rw [List.getD_eq_getElem?_getD, List.getD_eq_getElem?_getD,
      List.getElem?_take_of_lt (by decide)]
  by_cases fits : command.length ≤ 32
  · rw [List.take_of_length_le fits]
    exact iff_of_true Iff.rfl (.inl fits)
  · have looks : WellFormed (command.take 32) ↔ command.getD 0 0 = 31 := by
      unfold WellFormed
      rw [first, List.length_take, ← BitVec.toNat_inj]
      change _ ↔ _ = 31
      omega
    have is : WellFormed command ↔ command.length = (command.getD 0 0).toNat + 1 := by
      unfold WellFormed
      exact and_iff_right (by omega)
    have apart : ¬(command.getD 0 0 = 31 ∧ command.length = (command.getD 0 0).toNat + 1) := by
      rintro ⟨named, exact_⟩
      rw [named] at exact_
      change _ = 32 at exact_
      omega
    rw [looks, is, or_iff_right fits]
    tauto

end Link

namespace Dialogue

variable {d : Dialogue}

/-- The card follows what the guest has transmitted. -/
def Heard (d : Dialogue) : Prop :=
  d.link.Follows (receive marks d.sent)

theorem Heard.step (heard : d.Heard) (action : Action) : (d.step action).Heard := by
  cases action with
  | key raw source =>
    unfold Heard Dialogue.step Dialogue.link Session.step
    dsimp only
    split
    · next l queued =>
      obtain rfl := Link.key_ok queued
      exact ⟨heard.frame, heard.escaped⟩
    · exact heard
  | pump now boardTicks => exact (Link.pump_sameParsing now boardTicks _ d.link).1.follows heard
  | write off size value =>
    unfold Heard
    change ((d.link.write off size value d.session.attached.2).1).Follows
      (receive marks (d.sent ++ d.link.sends off size value))
    unfold Link.sends
    split
    · next sends =>
      obtain ⟨sent, same, -, accepted⟩ := Link.write_transmits sends d.session.attached.2
      rw [accepted, receive_snoc]
      exact (same.follows heard).accept _
    · next silent =>
      rw [List.append_nil]
      exact (Link.write_silent silent _).follows heard

theorem due_of_none {late : List Byte} {b : Byte} (unfinished : ended d.sent b = none) :
    d.Due late [b] ↔ late = [] := by
  unfold Due
  dsimp only
  rw [unfinished]

theorem due_of_some {late : List Byte} {b : Byte} {command : List Byte}
    (finished : ended d.sent b = some command) :
    d.Due late [b] ↔ if d.link.Asks command then Echoes command late else late = [] := by
  unfold Due
  dsimp only
  rw [finished]

/-- The byte of a step that transmits one. -/
theorem answers_byte (d : Dialogue) (heard : d.Heard) (b : Byte) :
    d.Due (wires marks (d.link.replied b)) [b] ↔
      ∀ b' ∈ [b], ∀ command ∈ ended d.sent b',
        command.length ≤ 32 ∨ d.link.ack (command.getD 2 0) = false ∨
          d.link.hasRoom command = false ∨
            command.getD 0 0 ≠ 31 ∧ command.length ≠ (command.getD 0 0).toNat + 1 := by
  rw [List.forall_mem_singleton]
  by_cases ends : (receive marks d.sent).afterEscape = false ∧ b = marks.terminator
  · obtain ⟨plain, isEnd⟩ := ends
    have finished : ended d.sent b = some (receive marks d.sent).part := if_pos ⟨plain, isEnd⟩
    rw [due_of_some finished, finished, show b = 0 from isEnd, heard.replied plain]
    simp only [Option.mem_some_iff, forall_eq']
    generalize (receive marks d.sent).part = command
    have judged := Link.wellFormed_take command
    by_cases heeded : d.link.ack (command.getD 2 0) = true ∧ d.link.hasRoom command = true
    · have asks : d.link.Asks command ↔ WellFormed command := and_iff_left heeded
      simp only [asks, heeded.1, heeded.2, and_true, Bool.true_eq_false, false_or]
      rw [← judged]
      by_cases whole : WellFormed command
      · have echoes := answer_echoes whole.1
        by_cases looks : WellFormed (command.take 32)
        · simpa [whole, looks, encode_eq_frame] using echoes
        · simpa [whole, looks] using not_echoes_nil command
      · by_cases looks : WellFormed (command.take 32)
        · simp [whole, looks, frame_ne_nil]
        · simp [whole, looks]
    · rw [if_neg fun asks => heeded asks.2, if_neg fun asks => heeded asks.2]
      refine iff_of_true rfl ?_
      rw [not_and_or, Bool.not_eq_true, Bool.not_eq_true] at heeded
      rcases heeded with unacked | full
      · exact .inr (.inl unacked)
      · exact .inr (.inr (.inl full))
  · have unfinished : ended d.sent b = none := if_neg ends
    have silent : d.link.replied b = [] := by
      refine if_pos ?_
      rw [heard.escaped]
      by_contra both
      rw [not_or, not_not, Bool.not_eq_true] at both
      exact ends both
    rw [due_of_none unfinished, unfinished, silent]
    exact iff_of_true rfl nofun

/-- A step answers the command it ends exactly when the buffer let the card judge
it whole. -/
theorem answers_step (heard : d.Heard) (action : Action) : d.Answers action ↔ d.Fits action := by
  cases action with
  | key raw source =>
    refine iff_of_true ?_ trivial
    unfold Answers Dialogue.step Dialogue.link Session.step
    dsimp only
    split
    · next l queued =>
      obtain rfl := Link.key_ok queued
      exact List.suffix_refl _
    · exact List.suffix_refl _
  | pump now boardTicks =>
    exact iff_of_true (Link.pump_sameParsing now boardTicks _ d.link).2 trivial
  | write off size value =>
    have reply := (d.link.write_sameFraming off size value d.session.attached.2).2
    have only (late : List Byte) :
        (d.step (.write off size value)).link.reply = d.link.reply ++ late ↔
          late = wires marks (d.link.repliedToWrite off size value) := by
      change (d.link.write off size value d.session.attached.2).1.reply = _ ↔ _
      rw [reply, List.append_right_inj, eq_comm]
    unfold Answers Fits
    simp only [only, exists_eq_left]
    unfold Link.sends Link.repliedToWrite
    split
    · next sends => exact d.answers_byte heard (value.setWidth 8)
    · next silent => exact iff_of_true rfl nofun

end Dialogue

/-- **The card's answers.**  Along a run from a reset the card answers the well-formed
commands it acknowledges, each with a frame that echoes it and no other, exactly when no
answer hangs on what its buffer has dropped. -/
theorem replies_iff (policy : AckPolicy) (wire : Irq.Wire) (actions : List Action) :
    Runs.Along Dialogue.step Dialogue.Answers (.started policy wire) actions ↔
      Runs.Along Dialogue.step Dialogue.Fits (.started policy wire) actions := by
  have start : (Dialogue.started policy wire).Heard := ⟨rfl, rfl⟩
  refine Runs.along_congr start ?_ ?_
  · intro d action heard
    exact d.answers_step heard action
  · intro d action heard _
    exact heard.step action

/-- A frame of 33 bytes that says it has 32. -/
def overlong : List Byte :=
  31 :: 7 :: 0x52 :: List.replicate 30 1

/-- The guest enables the link and sends a frame without its end. -/
def sendOpen (payload : List Byte) : List Action :=
  [.write 0x00 .word 0x80, .write 0x30 .word 1] ++
    payload.map fun b => .write 0x10 .word (b.setWidth 32)

/-- The overlong frame is answered. -/
theorem answers_overlong :
    ¬∀ (policy : AckPolicy) (wire : Irq.Wire) (actions : List Action),
      Runs.Along Dialogue.step Dialogue.Answers (.started policy wire) actions := by
  intro always
  let d := (sendOpen overlong).foldl Dialogue.step (.started defaultAckPolicy {})
  have along := always defaultAckPolicy {} (sendOpen overlong ++ [.write 0x10 .word 0])
  have run : Runs.Along Dialogue.step (fun _ _ => True) (.started defaultAckPolicy {})
      (sendOpen overlong) := Runs.along_true _
  have heard : d.Heard := by
    refine run.invariant ⟨rfl, rfl⟩ ?_
    intro d action heard _
    exact heard.step action
  have fits := (d.answers_step heard _).mp along.place 0 (by decide +kernel) overlong
    (by decide)
  revert fits
  decide

end Csi

end GoRetroTv
