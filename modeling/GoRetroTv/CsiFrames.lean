import GoRetroTv.CsiLink
import GoRetroTv.EscapedFrames

/-!
# What the front panel's frames look like to the guest

The handset and the card share one wire.  Along any run of the link the bytes
it presents to the guest, de-framed, are whole frames: those the handset sent
and those the card answered, each once and in the order of its source.
-/

namespace GoRetroTv

namespace Csi

open Snapcodec Cpu EscapedFrames

/-- The wire's terminator and escape. -/
def marks : Marks Byte where
  terminator := 0
  escape := 0x1b
  distinct := by decide

theorem encode_eq_frame (payload : List Byte) : encode payload = frame marks payload := rfl

/-- What befalls the link after a reset. -/
inductive Action where
  | key (raw source : Byte)
  | write (off : Word) (size : Size) (value : Word)
  | pump (now boardTicks : DoubleWord)

/-- The link, the payloads queued on it and the bytes it has presented. -/
structure Session where
  attached : Attached
  keys : List (List Byte) := []
  replies : List (List Byte) := []
  presented : List Byte := []

def keyPayload (raw source : Byte) : List Byte :=
  [5, 0x80, 2, 0, source <<< 4 ||| raw >>> 4, raw <<< 4]

namespace Link

/-- The payload the card queues as it accepts a byte, if it does. -/
def replied (b : Byte) (l : Link) : List (List Byte) :=
  if l.escaped ∨ b ≠ 0 then []
  else
    let code := l.frame.getD 2 0
    let payload := answer (l.frame.getD 1 0) code
    if l.frame.length < 3 ∨ l.frame.length ≠ (l.frame.getD 0 0).toNat + 1 ∨ l.ack code = false then
      []
    else if (encode payload).length ≤ maxQueuedBytes - l.reply.length then [payload]
    else []

/-- The payload the card queues as the guest writes a register. -/
def repliedToWrite (off : Word) (size : Size) (value : Word) (l : Link) : List (List Byte) :=
  if size = .word ∧ off.toNat = 0x10 ∧ l.enabled then l.replied (value.setWidth 8) else []

/-- The byte presented between two states of the link: the receive register has
become ready. -/
def presentedSince (before after : Link) : List Byte :=
  if before.ready = false ∧ after.ready then [after.data] else []

end Link

namespace Session

def link (s : Session) : Link :=
  s.attached.1

def step (s : Session) : Action → Session
  | .key raw source =>
      match s.link.key raw source with
      | .ok l => { s with attached := (l, s.attached.2), keys := s.keys ++ [keyPayload raw source] }
      | .error _ => s
  | .write off size value =>
      { s with
        attached := s.link.write off size value s.attached.2
        replies := s.replies ++ s.link.repliedToWrite off size value }
  | .pump now boardTicks =>
      let after := s.link.pump now boardTicks s.attached.2
      { s with
        attached := after
        presented := s.presented ++ s.link.presentedSince after.1 }

/-- A link that has just been reset. -/
def started (wire : Irq.Wire) : Session where
  attached := Link.reset wire

/-- What the guest has of the stream, by the wire's own rule. -/
def received (s : Session) : Received Byte :=
  receive marks s.presented

end Session

namespace Link

/-- Two links differ in nothing that has to do with their outgoing frames. -/
structure SameFraming (l l' : Link) : Prop where
  queue : l'.queue = l.queue
  inFrame : l'.inFrame = l.inFrame
  sendingReply : l'.sendingReply = l.sendingReply
  outEscaped : l'.outEscaped = l.outEscaped

theorem SameFraming.refl (l : Link) : SameFraming l l :=
  ⟨rfl, rfl, rfl, rfl⟩

theorem appendFrame_sameFraming (b : Byte) (l : Link) :
    SameFraming l (l.appendFrame b) ∧ (l.appendFrame b).reply = l.reply := by
  unfold appendFrame
  split
  · exact ⟨⟨rfl, rfl, rfl, rfl⟩, rfl⟩
  · exact ⟨.refl l, rfl⟩

/-- The card queues a whole frame or nothing. -/
theorem accept_sameFraming (b : Byte) (l : Link) :
    SameFraming l (l.accept b) ∧ (l.accept b).reply = l.reply ++ wires marks (l.replied b) := by
  unfold accept replied
  by_cases escape : l.escaped
  · obtain ⟨same, reply⟩ := appendFrame_sameFraming b { l with escaped := false }
    rw [if_pos escape, if_pos (.inl escape), wires_nil, List.append_nil]
    exact ⟨⟨same.queue, same.inFrame, same.sendingReply, same.outEscaped⟩, reply⟩
  rw [if_neg escape]
  by_cases isEscape : b = 0x1b
  · rw [if_pos isEscape, if_pos (.inr (by rw [isEscape]; decide)), wires_nil, List.append_nil]
    exact ⟨⟨rfl, rfl, rfl, rfl⟩, rfl⟩
  rw [if_neg isEscape]
  by_cases payload : b ≠ 0
  · obtain ⟨same, reply⟩ := appendFrame_sameFraming b l
    rw [if_pos payload, if_pos (.inr payload), wires_nil, List.append_nil]
    exact ⟨same, reply⟩
  -- The guest's frame ends here.
  rw [if_neg payload, if_neg (not_or.mpr ⟨escape, payload⟩)]
  unfold acceptFrame
  dsimp only
  split
  · exact ⟨⟨rfl, rfl, rfl, rfl⟩, by simp⟩
  split
  · exact ⟨⟨rfl, rfl, rfl, rfl⟩, by simp [encode_eq_frame]⟩
  · exact ⟨⟨rfl, rfl, rfl, rfl⟩, by simp⟩

theorem write_sameFraming (off : Word) (size : Size) (value : Word) (wire : Irq.Wire) (l : Link) :
    SameFraming l (l.write off size value wire).1 ∧
      (l.write off size value wire).1.reply =
        l.reply ++ wires marks (l.repliedToWrite off size value) := by
  have unanswered {l' : Link} (same : SameFraming l l') (reply : l'.reply = l.reply)
      (silent : ¬(size = .word ∧ off.toNat = 0x10 ∧ l.enabled)) :
      SameFraming l l' ∧ l'.reply = l.reply ++ wires marks (l.repliedToWrite off size value) := by
    rw [repliedToWrite, if_neg silent, wires_nil, List.append_nil]
    exact ⟨same, reply⟩
  unfold write
  split
  · next notWord => exact unanswered (.refl l) rfl fun h => notWord h.1
  next isWord =>
  rw [not_not] at isWord
  split
  · next control => exact unanswered ⟨rfl, rfl, rfl, rfl⟩ rfl (by simp [control])
  · next transmit =>
    by_cases on : l.enabled
    · have answers : l.repliedToWrite off size value = l.replied (value.setWidth 8) := by
        rw [repliedToWrite, if_pos ⟨isWord, transmit, on⟩]
      rw [if_pos on, answers]
      let sent : Link := { l with
        transmitted :=
          if l.transmitted.length < maxQueuedBytes then
            l.transmitted ++ [(value.setWidth 8 : Byte)]
          else l.transmitted
        boxBusy := (value.setWidth 8 : Byte) != 0
        txSeen := true }
      obtain ⟨same, reply⟩ := accept_sameFraming (value.setWidth 8) sent
      exact ⟨⟨same.queue, same.inFrame, same.sendingReply, same.outEscaped⟩, reply⟩
    · rw [if_neg on]
      exact unanswered (.refl l) rfl fun h => on h.2.2
  · next acknowledge =>
    split
    · exact unanswered ⟨rfl, rfl, rfl, rfl⟩ rfl (by simp [acknowledge])
    · exact unanswered (.refl l) rfl (by simp [acknowledge])
  · next enable =>
    refine unanswered ?_ ?_ (by simp [enable])
    · dsimp only [updateLine]
      split <;> exact ⟨rfl, rfl, rfl, rfl⟩
    · dsimp only [updateLine]
      split <;> rfl
  · next noTransmit _ _ => exact unanswered (.refl l) rfl fun h => noTransmit h.2.1

/-- `advanceFrame` moves nothing but its two marks. -/
structure SameQueues (l l' : Link) : Prop where
  queue : l'.queue = l.queue
  reply : l'.reply = l.reply
  sendingReply : l'.sendingReply = l.sendingReply
  data : l'.data = l.data

theorem advanceFrame_kept (b : Byte) (l : Link) : SameQueues l (l.advanceFrame b) := by
  unfold advanceFrame
  split_ifs <;> exact ⟨rfl, rfl, rfl, rfl⟩

/-- The byte `advanceFrame` is told of keeps its two marks in step with the
guest. -/
theorem advanceFrame_take (b : Byte) (l : Link) (r : Received Byte)
    (inStep : l.outEscaped = r.afterEscape) :
    (l.advanceFrame b).outEscaped = (r.take marks b).afterEscape ∧
      (l.advanceFrame b).inFrame = decide (r.afterEscape ∨ b ≠ marks.terminator) := by
  unfold advanceFrame Received.take Received.terminate
  cases escape : r.afterEscape with
  | true => simp [inStep, escape]
  | false =>
    by_cases isEscape : b = marks.escape
    · subst isEscape
      rw [inStep, escape]
      exact ⟨rfl, by simp [marks]⟩
    · by_cases isEnd : b = marks.terminator
      · subst isEnd
        rw [inStep, escape]
        exact ⟨rfl, by simp [marks]⟩
      · have noEscape : b ≠ 27#8 := isEscape
        have noEnd : b ≠ 0#8 := isEnd
        simp [inStep, escape, isEscape, isEnd, noEscape, noEnd]

end Link

/-- A queue holds frames for the payloads still in it: whole ones, the first
perhaps begun. -/
def Lane (leaving : Bool) (queue : List Byte) (r : Received Byte) (left : List (List Byte)) :
    Prop :=
  (∀ payload ∈ left, payload ≠ []) ∧
    if leaving then Leaving marks queue r left else queue = wires marks left

namespace Lane

variable {leaving : Bool} {queue : List Byte} {r : Received Byte} {left : List (List Byte)}

theorem offer (lane : Lane leaving queue r left) {late : List (List Byte)}
    (full : ∀ payload ∈ late, payload ≠ []) :
    Lane leaving (queue ++ wires marks late) r (left ++ late) := by
  refine ⟨fun payload member => ?_, ?_⟩
  · rcases List.mem_append.mp member with early | added
    · exact lane.1 payload early
    · exact full payload added
  · cases leaving with
    | true => exact lane.2.offer late
    | false => rw [show queue = wires marks left from lane.2, ← wires_append]; rfl

/-- A queue with something in it has its first frame leaving, or about to. -/
theorem leaving_of_ne_nil (lane : Lane leaving queue r left) (some : queue ≠ [])
    (atRest : leaving = false → r.part = [] ∧ r.afterEscape = false) :
    Leaving marks queue r left := by
  cases leaving with
  | true => exact lane.2
  | false =>
    obtain ⟨part, plain⟩ := atRest rfl
    obtain rfl : queue = wires marks left := lane.2
    refine .start (fun none => some ?_) part plain
    rw [none, wires_nil]

/-- An empty queue has nothing left. -/
theorem of_nil (lane : Lane leaving [] r left) : leaving = false ∧ left = [] := by
  cases leaving with
  | true => exact absurd rfl lane.2.queue_ne_nil
  | false => exact ⟨rfl, wires_eq_nil marks lane.2.symm⟩

/-- A byte of the frame that is leaving goes to the guest. -/
theorem next {b : Byte} (leaving : Leaving marks (b :: queue) r left)
    (full : ∀ payload ∈ left, payload ≠ []) :
    ∃ gone left', left = gone ++ left' ∧ (r.take marks b).frames = r.frames ++ gone ∧
      Lane (decide (r.afterEscape ∨ b ≠ marks.terminator)) queue (r.take marks b) left' ∧
      (decide (r.afterEscape ∨ b ≠ marks.terminator) = false →
        (r.take marks b).part = [] ∧ (r.take marks b).afterEscape = false) := by
  rcases leaving.next full with
    ⟨payload, more, rfl, rfl, taken, plain, isEnd⟩ | ⟨leaving, frames, going⟩
  · have ended : decide (r.afterEscape ∨ b ≠ marks.terminator) = false := by simp [plain, isEnd]
    rw [ended, taken]
    exact ⟨[payload], more, rfl, rfl, ⟨fun p member => full p (.tail _ member), rfl⟩,
      fun _ => ⟨rfl, rfl⟩⟩
  · have on : decide (r.afterEscape ∨ b ≠ marks.terminator) = true := decide_eq_true going
    rw [on]
    exact ⟨[], left, rfl, by rw [frames, List.append_nil], ⟨full, leaving⟩, nofun⟩

/-- What waits whole does not depend on what the guest has. -/
theorem waiting (lane : Lane false queue r left) (r' : Received Byte) : Lane false queue r' left :=
  lane

end Lane

/-- The payloads of the two sources which have left, and those which have not,
are the payloads queued, and each queue holds the rest of its own. -/
structure Link.Carries (l : Link) (keys replies : List (List Byte)) (r : Received Byte)
    (keysLeft repliesLeft : List (List Byte)) : Prop where
  gone : ∃ keysGone repliesGone, keys = keysGone ++ keysLeft ∧
    replies = repliesGone ++ repliesLeft ∧ Interleaves keysGone repliesGone r.frames
  keyLane : Lane (l.inFrame && !l.sendingReply) l.queue r keysLeft
  replyLane : Lane (l.inFrame && l.sendingReply) l.reply r repliesLeft
  inStep : l.outEscaped = r.afterEscape
  atRest : l.inFrame = false → r.part = [] ∧ r.afterEscape = false

namespace Link

variable {l l' : Link} {keys replies keysLeft repliesLeft : List (List Byte)} {r : Received Byte}

theorem carries_reset : Carries {} [] [] {} [] [] where
  gone := ⟨[], [], rfl, rfl, .nil⟩
  keyLane := ⟨nofun, rfl⟩
  replyLane := ⟨nofun, rfl⟩
  inStep := rfl
  atRest _ := ⟨rfl, rfl⟩

namespace Carries

/-- Replies are queued. -/
theorem reply (carries : Carries l keys replies r keysLeft repliesLeft) (same : SameFraming l l')
    {late : List (List Byte)} (full : ∀ payload ∈ late, payload ≠ [])
    (queued : l'.reply = l.reply ++ wires marks late) :
    Carries l' keys (replies ++ late) r keysLeft (repliesLeft ++ late) := by
  obtain ⟨keysGone, repliesGone, keysSplit, repliesSplit, interleaves⟩ := carries.gone
  constructor
  case gone =>
    exact ⟨keysGone, repliesGone, keysSplit, by rw [repliesSplit, List.append_assoc], interleaves⟩
  case keyLane =>
    rw [same.inFrame, same.sendingReply, same.queue]
    exact carries.keyLane
  case replyLane =>
    rw [same.inFrame, same.sendingReply, queued]
    exact carries.replyLane.offer full
  case inStep =>
    rw [same.outEscaped]
    exact carries.inStep
  case atRest =>
    rw [same.inFrame]
    exact carries.atRest

/-- Nothing happens to the frames. -/
theorem same (carries : Carries l keys replies r keysLeft repliesLeft) (same : SameFraming l l')
    (reply : l'.reply = l.reply) : Carries l' keys replies r keysLeft repliesLeft := by
  have none : ∀ payload ∈ ([] : List (List Byte)), payload ≠ [] := nofun
  have quiet := carries.reply same none (by rw [reply, wires_nil, List.append_nil])
  rwa [List.append_nil, List.append_nil] at quiet

/-- A handset frame is queued. -/
theorem key (carries : Carries l keys replies r keysLeft repliesLeft) {payload : List Byte}
    (full : payload ≠ []) :
    Carries { l with queue := l.queue ++ encode payload } (keys ++ [payload]) replies r
      (keysLeft ++ [payload]) repliesLeft := by
  obtain ⟨keysGone, repliesGone, keysSplit, repliesSplit, interleaves⟩ := carries.gone
  constructor
  case gone =>
    exact ⟨keysGone, repliesGone, by rw [keysSplit, List.append_assoc], repliesSplit, interleaves⟩
  case keyLane =>
    have whole : encode payload = wires marks [payload] := by
      rw [wires_cons, wires_nil, List.append_nil, encode_eq_frame]
    rw [whole]
    exact carries.keyLane.offer (by simpa using full)
  case replyLane => exact carries.replyLane
  case inStep => exact carries.inStep
  case atRest => exact carries.atRest

/-- A frame that is leaving has its rest in its own queue, so the next byte is
its. -/
theorem source_fromReply (carries : Carries l keys replies r keysLeft repliesLeft)
    (source : l.source = .fromReply) :
    l.reply ≠ [] ∧ (l.inFrame && !l.sendingReply) = false := by
  unfold Link.source at source
  split_ifs at source with sending sendingKey waiting
  · exact ⟨sending.2.2, by simp [sending.2.1]⟩
  · refine ⟨waiting, Bool.eq_false_iff.mpr fun keyLeaving => ?_⟩
    have lane := carries.keyLane.2
    rw [keyLeaving] at lane
    simp only [Bool.and_eq_true, Bool.not_eq_true'] at keyLeaving
    exact sendingKey ⟨keyLeaving.1, keyLeaving.2, Leaving.queue_ne_nil lane⟩

theorem source_fromQueue (carries : Carries l keys replies r keysLeft repliesLeft)
    (source : l.source = .fromQueue) :
    l.queue ≠ [] ∧ (l.inFrame && l.sendingReply) = false := by
  unfold Link.source at source
  split_ifs at source with sending sendingKey waiting queued
  · exact ⟨sendingKey.2.2, by simp [sendingKey.2.1]⟩
  · refine ⟨queued, Bool.eq_false_iff.mpr fun replyLeaving => ?_⟩
    have lane := carries.replyLane.2
    rw [replyLeaving] at lane
    exact Leaving.queue_ne_nil lane (not_not.mp waiting)

theorem source_nothing (source : l.source = .nothing) : l.reply = [] ∧ l.queue = [] := by
  unfold Link.source at source
  split_ifs at source with sending sendingKey waiting queued
  exact ⟨not_not.mp waiting, not_not.mp queued⟩

/-- The wire at rest carries a zero, which to the guest is an empty frame. -/
theorem idle (carries : Carries l keys replies r keysLeft repliesLeft) (reply : l.reply = [])
    (queue : l.queue = []) :
    Carries { l with data := 0, inFrame := false, outEscaped := false } keys replies
      (r.take marks 0) keysLeft repliesLeft := by
  have between : l.inFrame = false := Bool.eq_false_iff.mpr fun inFrame => by
    have keyLane := carries.keyLane.2
    have replyLane := carries.replyLane.2
    rw [inFrame] at keyLane replyLane
    cases sending : l.sendingReply with
    | true =>
      rw [sending] at replyLane
      exact Leaving.queue_ne_nil replyLane reply
    | false =>
      rw [sending] at keyLane
      exact Leaving.queue_ne_nil keyLane queue
  obtain ⟨part, plain⟩ := carries.atRest between
  have ignored : r.take marks 0 = r := by
    unfold Received.take Received.terminate
    rw [plain, part]
    ext1
    · rfl
    · exact part.symm
    · exact plain.symm
  rw [ignored]
  constructor
  case gone => exact carries.gone
  case keyLane =>
    have lane := carries.keyLane
    rwa [between] at lane
  case replyLane =>
    have lane := carries.replyLane
    rwa [between] at lane
  case inStep => exact plain.symm
  case atRest => exact fun _ => ⟨part, plain⟩

/-- A byte of a reply goes to the guest. -/
theorem sendReply (carries : Carries l keys replies r keysLeft repliesLeft)
    (source : l.source = .fromReply) {b : Byte} {rest : List Byte} (queued : l.reply = b :: rest) :
    ∃ repliesLeft', Carries
      ({ l with data := b, reply := rest, txSeen := false, sendingReply := true }.advanceFrame b)
      keys replies (r.take marks b) keysLeft repliesLeft' := by
  obtain ⟨some, keyWaits⟩ := carries.source_fromReply source
  have leaving : Leaving marks (b :: rest) r repliesLeft := by
    rw [← queued]
    refine carries.replyLane.leaving_of_ne_nil some fun replyWaits => carries.atRest ?_
    cases inFrame : l.inFrame <;> cases sending : l.sendingReply <;> simp_all
  obtain ⟨gone, repliesLeft', rfl, frames, lane, atRest⟩ := Lane.next leaving carries.replyLane.1
  have keyLane := carries.keyLane
  rw [keyWaits] at keyLane
  set sent : Link := { l with data := b, reply := rest, txSeen := false, sendingReply := true }
  obtain ⟨inStep, inFrame⟩ := advanceFrame_take b sent r carries.inStep
  obtain ⟨keysGone, repliesGone, keysSplit, repliesSplit, interleaves⟩ := carries.gone
  have kept := advanceFrame_kept b sent
  refine ⟨repliesLeft', ?_⟩
  constructor
  case gone =>
    refine ⟨keysGone, repliesGone ++ gone, keysSplit, by rw [repliesSplit, List.append_assoc], ?_⟩
    rw [frames]
    simpa only [List.append_nil] using interleaves.append (.second_only gone)
  case keyLane =>
    rw [kept.sendingReply, kept.queue, Bool.not_true, Bool.and_false]
    exact keyLane.waiting _
  case replyLane =>
    rw [kept.sendingReply, kept.reply, inFrame, Bool.and_true]
    exact lane
  case inStep => exact inStep
  case atRest =>
    rw [inFrame]
    exact atRest

/-- A byte of a handset frame goes to the guest. -/
theorem sendKey (carries : Carries l keys replies r keysLeft repliesLeft)
    (source : l.source = .fromQueue) {b : Byte} {rest : List Byte} (queued : l.queue = b :: rest) :
    ∃ keysLeft', Carries
      ({ l with data := b, queue := rest, txSeen := false, sendingReply := false }.advanceFrame b)
      keys replies (r.take marks b) keysLeft' repliesLeft := by
  obtain ⟨some, replyWaits⟩ := carries.source_fromQueue source
  have leaving : Leaving marks (b :: rest) r keysLeft := by
    rw [← queued]
    refine carries.keyLane.leaving_of_ne_nil some fun keyWaits => carries.atRest ?_
    cases inFrame : l.inFrame <;> cases sending : l.sendingReply <;> simp_all
  obtain ⟨gone, keysLeft', rfl, frames, lane, atRest⟩ := Lane.next leaving carries.keyLane.1
  have replyLane := carries.replyLane
  rw [replyWaits] at replyLane
  set sent : Link := { l with data := b, queue := rest, txSeen := false, sendingReply := false }
  obtain ⟨inStep, inFrame⟩ := advanceFrame_take b sent r carries.inStep
  obtain ⟨keysGone, repliesGone, keysSplit, repliesSplit, interleaves⟩ := carries.gone
  have kept := advanceFrame_kept b sent
  refine ⟨keysLeft', ?_⟩
  constructor
  case gone =>
    refine ⟨keysGone ++ gone, repliesGone, by rw [keysSplit, List.append_assoc], repliesSplit, ?_⟩
    rw [frames]
    simpa only [List.append_nil] using interleaves.append (.first_only gone)
  case keyLane =>
    rw [kept.sendingReply, kept.queue, inFrame, Bool.not_false, Bool.and_true]
    exact lane
  case replyLane =>
    rw [kept.sendingReply, kept.reply, Bool.and_false]
    exact replyLane.waiting _
  case inStep => exact inStep
  case atRest =>
    rw [inFrame]
    exact atRest

/-- The byte the link presents is the next of what it carries. -/
theorem present (carries : Carries l keys replies r keysLeft repliesLeft) {now : DoubleWord}
    (presents : l.present now = some l') :
    ∃ keysLeft' repliesLeft',
      Carries l' keys replies (r.take marks l'.data) keysLeft' repliesLeft' := by
  unfold Link.present at presents
  split at presents
  · next source =>
    obtain ⟨b, rest, queued⟩ := List.exists_cons_of_ne_nil (carries.source_fromReply source).1
    obtain ⟨repliesLeft', after⟩ := carries.sendReply source queued
    split_ifs at presents
    rw [queued] at presents
    obtain rfl := Option.some.inj presents
    refine ⟨keysLeft, repliesLeft', ?_⟩
    rwa [(advanceFrame_kept _ _).data]
  · next source =>
    obtain ⟨b, rest, queued⟩ := List.exists_cons_of_ne_nil (carries.source_fromQueue source).1
    obtain ⟨keysLeft', after⟩ := carries.sendKey source queued
    split_ifs at presents
    rw [queued] at presents
    obtain rfl := Option.some.inj presents
    refine ⟨keysLeft', repliesLeft, ?_⟩
    rwa [(advanceFrame_kept _ _).data]
  · next source =>
    obtain ⟨reply, queue⟩ := source_nothing source
    dsimp only at presents
    generalize (if l.boxBusy then trafficInstructions else idleInstructions) = period at presents
    split_ifs at presents
    obtain rfl := Option.some.inj presents
    exact ⟨keysLeft, repliesLeft, carries.idle reply queue⟩

end Carries

/-- The link a pump goes on with: it has noted the time, and its card may have
come alive. -/
def clocked (now boardTicks : DoubleWord) (l : Link) : Link :=
  let l := { l with now, timerTicks := boardTicks }
  if l.powerAtTick ≠ 0 ∧ l.cardLive = false ∧ l.powerAtTick ≤ boardTicks then
    { l with cardLive := true }
  else l

theorem clocked_sameFraming (now boardTicks : DoubleWord) (l : Link) :
    SameFraming l (l.clocked now boardTicks) ∧ (l.clocked now boardTicks).reply = l.reply ∧
      (l.clocked now boardTicks).ready = l.ready := by
  unfold clocked
  dsimp only
  split
  · exact ⟨⟨rfl, rfl, rfl, rfl⟩, rfl, rfl⟩
  · exact ⟨⟨rfl, rfl, rfl, rfl⟩, rfl, rfl⟩

/-- A pump presents a byte, or leaves the frames and the receive register's mark
alone. -/
theorem pump_cases (now boardTicks : DoubleWord) (wire : Irq.Wire) (l : Link) :
    ((l.pump now boardTicks wire).1 = l.clocked now boardTicks ∧
      l.presentedSince (l.pump now boardTicks wire).1 = []) ∨
    ∃ shown, (l.clocked now boardTicks).present now = some shown ∧
      (l.pump now boardTicks wire).1 = { shown with ready := true, lastByteAt := now } ∧
      l.presentedSince (l.pump now boardTicks wire).1 = [shown.data] := by
  set clocked := l.clocked now boardTicks with isClocked
  have ready : clocked.ready = l.ready := (clocked_sameFraming now boardTicks l).2.2
  have quiet : l.presentedSince clocked = [] := by
    simp [presentedSince, ready]
  by_cases waits : clocked.enabled = false ∨ clocked.ready ∨ now < clocked.lastByteAt
  · have pumped : l.pump now boardTicks wire = (clocked, wire) := if_pos waits
    rw [pumped]
    exact .inl ⟨rfl, quiet⟩
  have pumped : l.pump now boardTicks wire =
      (clocked.present now).elim (clocked, wire) fun shown =>
        { shown with ready := true, lastByteAt := now }.updateLine wire := by
    refine (if_neg waits).trans ?_
    unfold clocked Link.clocked
    cases Link.present now _ <;> rfl
  cases presents : clocked.present now with
  | none =>
    rw [pumped, presents]
    exact .inl ⟨rfl, quiet⟩
  | some shown =>
    have unready : l.ready = false := by
      rw [← ready]
      exact Bool.eq_false_iff.mpr fun full => waits (.inr (.inl full))
    rw [pumped, presents]
    exact .inr ⟨shown, rfl, rfl, if_pos ⟨unready, rfl⟩⟩

theorem key_ok {raw source : Byte} {l l' : Link} (queued : l.key raw source = .ok l') :
    l' = { l with queue := l.queue ++ encode (keyPayload raw source) } := by
  unfold key enqueue at queued
  split_ifs at queued
  exact (Except.ok.inj queued).symm

theorem answer_ne_nil (seq code : Byte) : answer seq code ≠ [] := by
  unfold answer
  split <;> exact List.cons_ne_nil _ _

theorem repliedToWrite_ne_nil {off : Word} {size : Size} {value : Word} {l : Link}
    {payload : List Byte} (replied : payload ∈ l.repliedToWrite off size value) : payload ≠ [] := by
  unfold repliedToWrite Link.replied at replied
  dsimp only at replied
  split_ifs at replied
  all_goals first
    | exact absurd replied (List.not_mem_nil)
    | exact List.mem_singleton.mp replied ▸ answer_ne_nil _ _

end Link

namespace Session

/-- The link carries what has been queued on it. -/
def Whole (s : Session) : Prop :=
  ∃ keysLeft repliesLeft, s.link.Carries s.keys s.replies s.received keysLeft repliesLeft

theorem whole_started (wire : Irq.Wire) : (started wire).Whole :=
  ⟨[], [], Link.carries_reset⟩

theorem Whole.step {s : Session} (whole : s.Whole) (action : Action) : (s.step action).Whole := by
  obtain ⟨keysLeft, repliesLeft, carries⟩ := whole
  cases action with
  | key raw source =>
    unfold Session.step
    dsimp only
    split
    · next l queued =>
      obtain rfl := Link.key_ok queued
      exact ⟨_, _, carries.key (List.cons_ne_nil _ _)⟩
    · exact ⟨_, _, carries⟩
  | write off size value =>
    obtain ⟨same, reply⟩ := s.link.write_sameFraming off size value s.attached.2
    exact ⟨_, _, carries.reply same (fun _ => Link.repliedToWrite_ne_nil) reply⟩
  | pump now boardTicks =>
    obtain ⟨same, reply, -⟩ := s.link.clocked_sameFraming now boardTicks
    have clocked := carries.same same reply
    have received : (s.step (.pump now boardTicks)).received = receive marks
        (s.presented ++ s.link.presentedSince (s.link.pump now boardTicks s.attached.2).1) := rfl
    rcases s.link.pump_cases now boardTicks s.attached.2 with
      ⟨pumped, quiet⟩ | ⟨shown, presents, pumped, byte⟩
    · refine ⟨keysLeft, repliesLeft, ?_⟩
      rw [received, quiet, List.append_nil,
        show (s.step (.pump now boardTicks)).link = _ from pumped]
      exact clocked
    · obtain ⟨keysLeft', repliesLeft', after⟩ := clocked.present presents
      refine ⟨keysLeft', repliesLeft', ?_⟩
      rw [received, byte, receive_snoc, show (s.step (.pump now boardTicks)).link = _ from pumped]
      exact after.same ⟨rfl, rfl, rfl, rfl⟩ rfl

theorem whole_run {s : Session} (whole : s.Whole) (actions : List Action) :
    (actions.foldl step s).Whole := by
  induction actions generalizing s with
  | nil => exact whole
  | cons action actions ih => exact ih (whole.step action)

end Session

/-- What a receiver has of a stream is a beginning of a list of payloads: whole
frames, and a beginning of the next. -/
def Begins (r : Received Byte) (payloads : List (List Byte)) : Prop :=
  ∃ later, payloads = r.frames ++ later ∧ r.part <+: later.headD []

/-- What the guest has of a link that carries its frames is a beginning of an
interleaving of the payloads queued, and all of it when both queues are empty. -/
theorem Link.Carries.begins {l : Link} {keys replies keysLeft repliesLeft : List (List Byte)}
    {r : Received Byte} (carries : l.Carries keys replies r keysLeft repliesLeft) :
    ∃ merged, Interleaves keys replies merged ∧ Begins r merged ∧
      (l.queue = [] → l.reply = [] → r = { frames := merged }) := by
  obtain ⟨keysGone, repliesGone, rfl, rfl, interleaves⟩ := carries.gone
  have emptied (queue : l.queue = []) (reply : l.reply = []) :
      keysLeft = [] ∧ repliesLeft = [] ∧ r = { frames := r.frames } := by
    have keyLane := carries.keyLane
    have replyLane := carries.replyLane
    rw [queue] at keyLane
    rw [reply] at replyLane
    obtain ⟨keyWaits, noKeys⟩ := keyLane.of_nil
    obtain ⟨replyWaits, noReplies⟩ := replyLane.of_nil
    have between : l.inFrame = false := by
      cases sending : l.sendingReply <;> simp_all
    obtain ⟨part, plain⟩ := carries.atRest between
    refine ⟨noKeys, noReplies, ?_⟩
    ext1
    · rfl
    · exact part
    · exact plain
  -- The source whose frame is leaving comes first.
  cases replyLeaving : l.inFrame && l.sendingReply with
  | true =>
    have lane := carries.replyLane.2
    rw [replyLeaving] at lane
    refine ⟨r.frames ++ (repliesLeft ++ keysLeft), ?_, ⟨_, rfl, lane.part_begins keysLeft⟩, ?_⟩
    · have left := (Interleaves.second_only repliesLeft).append (.first_only keysLeft)
      rw [List.append_nil] at left
      exact interleaves.append left
    · intro queue reply
      obtain ⟨rfl, rfl, whole⟩ := emptied queue reply
      rwa [List.append_nil, List.append_nil]
  | false =>
    refine ⟨r.frames ++ (keysLeft ++ repliesLeft), ?_, ⟨_, rfl, ?_⟩, ?_⟩
    · have left := (Interleaves.first_only keysLeft).append (.second_only repliesLeft)
      rw [List.append_nil] at left
      exact interleaves.append left
    · cases keyLeaving : l.inFrame && !l.sendingReply with
      | true =>
        have lane := carries.keyLane.2
        rw [keyLeaving] at lane
        exact lane.part_begins repliesLeft
      | false =>
        have between : l.inFrame = false := by
          cases sending : l.sendingReply <;> simp_all
        rw [(carries.atRest between).1]
        exact List.nil_prefix
    · intro queue reply
      obtain ⟨rfl, rfl, whole⟩ := emptied queue reply
      rwa [List.append_nil, List.append_nil]

/-- The bytes presented to the guest are a beginning of an interleaving of whole
frames, along any run from a reset. -/
theorem frames_whole (wire : Irq.Wire) (actions : List Action) :
    let s := actions.foldl Session.step (.started wire)
    ∃ merged, Interleaves s.keys s.replies merged ∧ Begins s.received merged ∧
      (s.link.queue = [] → s.link.reply = [] → s.received = { frames := merged }) := by
  obtain ⟨keysLeft, repliesLeft, carries⟩ := Session.whole_run (Session.whole_started wire) actions
  exact carries.begins

end Csi

end GoRetroTv
