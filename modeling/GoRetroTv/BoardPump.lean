import GoRetroTv.HostPolicies
import GoRetroTv.SoleEventClock

/-!
# The board's pump

`internal/board/runtime.go`: one event of the clock keeps the devices going.  It pumps them in a
fixed order, lets the handoff look at the guest and puts itself back on the clock sixteen
instructions later.
-/

namespace GoRetroTv

open Cpu

namespace Demux.Receiver

open Overwrites

variable {s t : Receiver} {data : List Byte} {now : DoubleWord}

/-- A receiver that takes its input is as coherent as it was. -/
theorem forM_pushByte_ok (coherent : s.registers.Coherent)
    (ok : data.forM pushByte s = .ok ⟨⟩ t) : t.registers.Coherent := by
  induction data generalizing s with
  | nil =>
    cases ok
    exact coherent
  | cons b data ih =>
    obtain ⟨_, u, taken, rest⟩ := exists_of_bind_ok ok
    rcases pushByte_cases coherent b with ⟨-, v, ran, after⟩ | ⟨-, -, error, failed⟩ |
      ⟨-, -, error, v, failed, -⟩
    · rw [ran] at taken
      cases taken
      exact ih after rest
    · rw [failed] at taken
      cases taken
    · rw [failed] at taken
      cases taken

theorem pushTransport_ok (coherent : s.registers.Coherent)
    (ok : pushTransport data s = .ok ⟨⟩ t) : t.registers.Coherent := by
  unfold pushTransport at ok
  split at ok
  · cases ok
    exact coherent
  · exact forM_pushByte_ok coherent ok

theorem pumpFrom_ok {packets : Nat} (coherent : s.registers.Coherent)
    (ok : pumpFrom now packets s = .ok ⟨⟩ t) : t.registers.Coherent := by
  induction packets generalizing s with
  | zero =>
    cases ok
    exact coherent
  | succ packets ih =>
    unfold pumpFrom at ok
    dsimp only at ok
    by_cases due : s.registers.programmeScheduled ∧ s.registers.nextProgrammeAt ≤ now
    · rw [if_pos due] at ok
      obtain ⟨_, u, pushed, rest⟩ := exists_of_bind_ok ok
      have burst := @pushTransport_burst (nextPacket s.registers) s.registers s .refl
      rw [pushed] at burst
      exact ih (advanceBurst_coherent (pushTransport_ok coherent pushed) (burst.pending.trans due.1))
        rest
    · rw [if_neg due] at ok
      cases ok
      exact coherent

theorem pump_ok (coherent : s.registers.Coherent) (ok : pump now s = .ok ⟨⟩ t) :
    t.registers.Coherent :=
  pumpFrom_ok coherent ok

end Demux.Receiver

namespace Board

/-- The demultiplexer with what it writes to. -/
def receiver (b : Board) : Demux.Receiver where
  registers := b.demux
  ram := b.ram
  wire := b.wire

def received (b : Board) (s : Demux.Receiver) : Board :=
  { b with demux := s.registers, ram := s.ram, wire := s.wire }

/-- The devices of the pump; a failed demultiplexer stops it. -/
def pump (retired now : DoubleWord) (b : Board) : Except String Unit × Board :=
  let b := b.attach .timer (b.timer.pump (now + 15) b.wire)
  match Demux.Receiver.pump now b.receiver with
  | .error error s => (.error error, b.received s)
  | .ok _ s =>
      let b := b.received s
      let b := b.attach .csi (b.csi.pump retired b.timer.ticks b.wire)
      let b := b.attach .modem (b.modem.pump b.timer.ticks b.wire)
      (.ok (), b.attach .smartcard (b.smartcard.pump 16 b.wire))

theorem Sound.received {b : Board} (sound : b.Sound) {s : Demux.Receiver}
    (coherent : s.registers.Coherent) : (b.received s).Sound :=
  { sound with demux := coherent }

theorem Sound.pump {b : Board} (sound : b.Sound) {retired now : DoubleWord}
    (ok : (b.pump retired now).1 = .ok ()) : (b.pump retired now).2.Sound := by
  have timed : (b.attach .timer (b.timer.pump (now + 15) b.wire)).Sound :=
    sound.attach .timer _ trivial
  unfold Board.pump at ok ⊢
  dsimp only at ok ⊢
  generalize b.attach .timer (b.timer.pump (now + 15) b.wire) = b at timed ok ⊢
  cases admitted : Demux.Receiver.pump now b.receiver with
  | error error s =>
    rw [admitted] at ok
    cases ok
  | ok _ s =>
    have fed := timed.received (Demux.Receiver.pump_ok timed.demux admitted)
    dsimp only
    generalize b.received s = b at fed
    have shown := fed.attach .csi _ (fed.csi.pump retired b.timer.ticks b.wire)
    generalize b.attach .csi (b.csi.pump retired b.timer.ticks b.wire) = b at shown
    have dialled := shown.attach .modem _ (shown.modem.pump b.timer.ticks b.wire)
    generalize b.attach .modem (b.modem.pump b.timer.ticks b.wire) = b at dialled
    exact dialled.attach .smartcard _ (dialled.smartcard.pump 16 b.wire)

end Board

/-- What the pump works on, around a schedule of some kind. -/
structure Rig (C : Type) where
  board : Board
  handoff : Handoff
  clock : C

/-- What is left of a tick: its result and where it moves the core. -/
structure Beat (C : Type) where
  result : Except String Unit
  entry : Option Word := none
  rig : Rig C

def pumpName : List Byte :=
  ascii "board-pump"

namespace Rig

variable {C : Type}

/-- The pump, up to where it puts itself back on the clock. -/
def serve (slot : Bool) (retired now : DoubleWord) (g : Rig C) :
    Except String (Option Word) × Rig C :=
  match g.board.pump retired now with
  | (.error error, board) => (.error error, { g with board })
  | (.ok (), board) =>
      let (result, handoff, board) := g.handoff.tick slot board
      (result, { g with board, handoff })

/-- The handler of the pump's event, given how the clock schedules the next. -/
def handle (at_ : Nat → C → Except String Nat × C) (slot : Bool) (retired : DoubleWord) (now : Nat)
    (g : Rig C) : Beat C :=
  match g.serve slot retired (BitVec.ofNat 64 now) with
  | (.error error, rig) => { result := .error error, rig }
  | (.ok entry, rig) =>
      match at_ (wrapAdd now 16) rig.clock with
      | (.error error, clock) => { result := .error error, entry, rig := { rig with clock } }
      | (.ok _, clock) => { result := .ok (), entry, rig := { rig with clock } }

/-- A handler's failure, under its event's name. -/
def failure (name : List Byte) (now : Nat) (error : String) : String :=
  s!"clock: {text name} at instruction {now}: {error}"

/-- How the pump puts itself on the clock. -/
def again (due : Nat) (clock : Clock Unit) : Except String Nat × Clock Unit :=
  clock.at_ due pumpName (some ())

/-- `fireDue`, for as many turns of its loop as there is fuel. -/
def fireDue (slot : Bool) (retired : DoubleWord) (target : Nat) :
    Nat → Option Word → Rig (Clock Unit) → Option (Beat (Clock Unit))
  | 0, _, _ => none
  | fuel + 1, entry, g =>
      if g.clock.fireReady target then
        match g.clock.fireNext with
        | none => none
        | some (_, .error error, clock) =>
            some { result := .error error, entry, rig := { g with clock } }
        | some (ev, .ok (), clock) =>
            let fired := handle again slot retired clock.icount { g with clock }
            let entry := fired.entry.or entry
            match fired.result with
            | .error error =>
                some { fired with
                  entry
                  result := .error (failure ev.name fired.rig.clock.icount error) }
            | .ok () => fireDue slot retired target fuel entry fired.rig
      else
        some {
          result := .ok ()
          entry
          rig := { g with clock := { g.clock with icount := target } } }

/-- `Tick`. -/
def tick (slot : Bool) (retired : DoubleWord) (g : Rig (Clock Unit)) :
    Option (Beat (Clock Unit)) :=
  match g.clock.countTick with
  | (.error error, clock) => some { result := .error error, rig := { g with clock } }
  | (.ok none, clock) => some { result := .ok (), rig := { g with clock } }
  | (.ok (some target), clock) => fireDue slot retired target (target + 1) none { g with clock }

/-- The same on an agenda: a tick fires its event, if it is due. -/
def beat (slot : Bool) (retired : DoubleWord) (g : Rig (Agenda Unit)) : Beat (Agenda Unit) :=
  match g.clock.countTick with
  | (.error error, clock) => { result := .error error, rig := { g with clock } }
  | (.ok none, clock) => { result := .ok (), rig := { g with clock } }
  | (.ok (some _), clock) =>
      match clock.event with
      | none => { result := .ok (), rig := { g with clock } }
      | some ev =>
          let fired := handle (fun due a => a.at_ due pumpName ()) slot retired ev.due
            { g with clock := clock.fired ev }
          { fired with result := fired.result.mapError (failure ev.name ev.due) }

/-- The rig, with its clock as the agenda it amounts to. -/
structure Shows (g : Rig (Clock Unit)) (h : Rig (Agenda Unit)) : Prop where
  board : g.board = h.board
  handoff : g.handoff = h.handoff
  clock : g.clock.Shows h.clock

end Rig

/-- The same of what a tick leaves. -/
structure Beat.Shows (first : Beat (Clock Unit)) (second : Beat (Agenda Unit)) : Prop where
  result : first.result = second.result
  entry : first.entry = second.entry
  rig : first.rig.Shows second.rig

namespace Rig

variable {C : Type} {slot : Bool} {retired : DoubleWord} {g : Rig (Clock Unit)}
  {h : Rig (Agenda Unit)}

theorem serve_clock (slot : Bool) (retired now : DoubleWord) (g : Rig C) :
    (g.serve slot retired now).2.clock = g.clock := by
  unfold serve
  split <;> rfl

/-- What is pumped does not depend on the clock. -/
theorem serve_withClock {D : Type} (slot : Bool) (retired now : DoubleWord) (g : Rig C)
    (clock : D) :
    Rig.serve slot retired now { board := g.board, handoff := g.handoff, clock } =
      ((g.serve slot retired now).1, {
        board := (g.serve slot retired now).2.board
        handoff := (g.serve slot retired now).2.handoff
        clock }) := by
  unfold serve
  dsimp only
  split <;> rfl

theorem serve_shows (shows_ : g.Shows h) (now : DoubleWord) :
    (g.serve slot retired now).1 = (h.serve slot retired now).1 ∧
      (g.serve slot retired now).2.Shows (h.serve slot retired now).2 := by
  obtain ⟨board, handoff, clock⟩ := g
  obtain ⟨board', handoff', clock'⟩ := h
  obtain ⟨rfl, rfl, shown⟩ := shows_
  unfold serve
  dsimp only
  split
  · exact ⟨rfl, rfl, rfl, shown⟩
  · exact ⟨rfl, rfl, rfl, shown⟩

theorem handle_shows (shows_ : g.Shows h) (idle : h.clock.event = none) (now : Nat) :
    (handle again slot retired now g).Shows
      (handle (fun due a => a.at_ due pumpName ()) slot retired now h) := by
  obtain ⟨same, served⟩ := @serve_shows slot retired g h shows_ (BitVec.ofNat 64 now)
  have unscheduled := serve_clock slot retired (BitVec.ofNat 64 now) h
  unfold handle
  generalize g.serve slot retired (BitVec.ofNat 64 now) = first at same served
  generalize h.serve slot retired (BitVec.ofNat 64 now) = second at same served unscheduled
  obtain ⟨result, rig⟩ := first
  obtain ⟨result', rig'⟩ := second
  obtain rfl : result = result' := same
  cases result with
  | error error => exact ⟨rfl, rfl, served⟩
  | ok entry =>
    have again_ := served.clock.at_ (unscheduled ▸ idle) (wrapAdd now 16) pumpName ()
    dsimp only
    unfold again
    generalize rig.clock.at_ (wrapAdd now 16) pumpName (some ()) = clock at again_
    generalize rig'.clock.at_ (wrapAdd now 16) pumpName () = agenda at again_
    obtain ⟨answer, clock⟩ := clock
    obtain ⟨answer', agenda⟩ := agenda
    obtain ⟨sameAnswer, shown⟩ := again_
    obtain rfl : answer = answer' := sameAnswer
    cases answer with
    | error error => exact ⟨rfl, rfl, served.board, served.handoff, shown⟩
    | ok id => exact ⟨rfl, rfl, served.board, served.handoff, shown⟩

/-- A pump that succeeds is back on the agenda, later. -/
theorem handle_ok {now : Nat}
    (ok : (handle (fun due a => a.at_ due pumpName ()) slot retired now h).result = .ok ()) :
    h.clock.icount < wrapAdd now 16 ∧
      (handle (fun due a => a.at_ due pumpName ()) slot retired now h).rig.clock =
        h.clock.scheduled pumpName (wrapAdd now 16) () := by
  have unscheduled := serve_clock slot retired (BitVec.ofNat 64 now) h
  unfold handle at ok ⊢
  generalize h.serve slot retired (BitVec.ofNat 64 now) = served at ok unscheduled ⊢
  obtain ⟨result, rig⟩ := served
  rw [← show rig.clock = h.clock from unscheduled]
  cases result with
  | error error => cases ok
  | ok entry =>
    dsimp only at ok ⊢
    unfold Agenda.at_ at ok ⊢
    by_cases past : wrapAdd now 16 ≤ rig.clock.icount
    · rw [if_pos past] at ok
      cases ok
    · rw [if_neg past]
      exact ⟨Nat.lt_of_not_le past, rfl⟩

theorem handle_icount (now : Nat) :
    (handle (fun due a => a.at_ due pumpName ()) slot retired now h).rig.clock.icount =
      h.clock.icount := by
  have unscheduled := serve_clock slot retired (BitVec.ofNat 64 now) h
  unfold handle
  generalize h.serve slot retired (BitVec.ofNat 64 now) = served at unscheduled
  obtain ⟨result, rig⟩ := served
  rw [← show rig.clock = h.clock from unscheduled]
  cases result with
  | error error => rfl
  | ok entry =>
    dsimp only
    unfold Agenda.at_
    by_cases past : wrapAdd now 16 ≤ rig.clock.icount
    · rw [if_pos past]
    · rw [if_neg past]
      rfl

/-- The event that is due fires, and the loop over those that are due ends. -/
theorem fireDue_shows {ev : Event Unit} {fuel : Nat} (shows_ : g.Shows h)
    (due : h.clock.event = some ev) (once : ev.period = 0) :
    ∃ left, g.fireDue slot retired ev.due (fuel + 2) none = some left ∧
      left.Shows
        (let fired := handle (fun due a => a.at_ due pumpName ()) slot retired ev.due
          { h with clock := h.clock.fired ev }
        { fired with result := fired.result.mapError (failure ev.name ev.due) }) := by
  obtain ⟨clock, taken, fired⟩ := shows_.clock.fireNext due once
  have ready : g.clock.fireReady ev.due = true := by
    rw [shows_.clock.fireReady]
    unfold Agenda.fireReady
    rw [due, Option.any_some, decide_eq_true_iff]
  have now : clock.icount = ev.due := fired.icount
  have handled := @handle_shows slot retired { g with clock }
    { h with clock := h.clock.fired ev } ⟨shows_.board, shows_.handoff, fired⟩ rfl ev.due
  have later := @handle_ok slot retired { h with clock := h.clock.fired ev } ev.due
  have icount := @handle_icount slot retired { h with clock := h.clock.fired ev } ev.due
  rw [fireDue, if_pos ready, taken]
  dsimp only
  rw [now]
  generalize handle again slot retired ev.due { g with clock } = first at handled ⊢
  generalize handle (fun due a => a.at_ due pumpName ()) slot retired ev.due
    { h with clock := h.clock.fired ev } = second at handled later icount ⊢
  obtain ⟨result, entry, rig⟩ := first
  obtain ⟨result', entry', rig'⟩ := second
  obtain ⟨sameResult, sameEntry, shown⟩ := handled
  obtain rfl : result = result' := sameResult
  obtain rfl : entry = entry' := sameEntry
  rw [Option.or_none]
  cases result with
  | error error =>
    refine ⟨_, rfl, ?_, rfl, shown⟩
    rw [show rig.clock.icount = ev.due from shown.clock.icount.trans icount]
    rfl
  | ok _ =>
    obtain ⟨after, scheduled⟩ := later rfl
    have quiet : rig.clock.fireReady ev.due = false := by
      rw [shown.clock.fireReady, scheduled]
      unfold Agenda.fireReady
      exact decide_eq_false (Nat.not_le.mpr after)
    dsimp only
    rw [fireDue, quiet, if_neg Bool.false_ne_true]
    refine ⟨_, rfl, rfl, rfl, shown.board, shown.handoff, ?_⟩
    have counted := shown.clock.counted ev.due
    rwa [show ({ rig'.clock with icount := ev.due } : Agenda Unit) = rig'.clock by
      rw [← show rig'.clock.icount = ev.due from icount]] at counted

/-- **A tick of the pump's clock.**  The loop over the events that are due ends, after at most
one of them. -/
theorem tick_shows (shows_ : g.Shows h) (timely : h.clock.Timely) :
    ∃ left, g.tick slot retired = some left ∧ left.Shows (h.beat slot retired) := by
  obtain ⟨board, handoff, ⟨now, nextID, nextSeq, next⟩⟩ := h
  obtain ⟨counted, after⟩ := shows_.clock.countTick
  unfold tick beat
  unfold Agenda.countTick at counted after ⊢
  dsimp only at counted after ⊢
  generalize g.clock.countTick = first at counted after ⊢
  obtain ⟨answer, clock⟩ := first
  dsimp only at counted after
  by_cases last : now = noneDue
  · rw [if_pos last] at counted after ⊢
    rw [counted]
    exact ⟨_, rfl, rfl, rfl, shows_.board, shows_.handoff, after⟩
  rw [if_neg last] at counted after ⊢
  by_cases early : now + 1 ≠ Agenda.nextDue ⟨now + 1, nextID, nextSeq, next⟩
  · rw [if_pos early] at counted after ⊢
    rw [counted]
    exact ⟨_, rfl, rfl, rfl, shows_.board, shows_.handoff, after⟩
  rw [if_neg early] at counted after ⊢
  rw [counted]
  dsimp only at after ⊢
  have shown : Rig.Shows { g with clock } ⟨board, handoff, ⟨now + 1, nextID, nextSeq, next⟩⟩ :=
    ⟨shows_.board, shows_.handoff, after⟩
  cases next with
  | none =>
    have quiet : clock.fireReady (now + 1) = false := after.fireReady (now + 1)
    rw [fireDue, quiet, if_neg Bool.false_ne_true]
    exact ⟨_, rfl, rfl, rfl, shown.board, shown.handoff, after.counted (now + 1)⟩
  | some ev =>
    have due : now + 1 = ev.due := not_ne_iff.mp early
    have fires := @fireDue_shows slot retired _ _ ev now shown rfl (timely.event ev rfl).once
    dsimp only
    rw [← due] at fires ⊢
    exact fires

theorem serve_sound {now : DoubleWord} {g : Rig C} (sound : g.board.Sound) {entry : Option Word}
    (ok : (g.serve slot retired now).1 = .ok entry) :
    (g.serve slot retired now).2.board.Sound := by
  have pumped := @Board.Sound.pump g.board sound retired now
  unfold serve at ok ⊢
  generalize g.board.pump retired now = devices at pumped ok ⊢
  obtain ⟨result, board⟩ := devices
  cases result with
  | error error => cases ok
  | ok _ =>
    dsimp only
    rw [(Handoff.tick_ticked slot board g.handoff).1]
    exact pumped rfl

/-- The pump waits on the agenda, at the next count that is one past a multiple of sixteen. -/
structure Paced (a : Agenda Unit) : Prop extends a.Timely where
  next : ∃ ev, a.event = some ev ∧ ev.name = pumpName ∧ ev.due % 16 = 1 ∧ ev.due ≤ a.icount + 16

/-- What a tick that succeeds does: it counts, and where the count is one past a multiple of
sixteen it pumps. -/
structure Kept (slot : Bool) (retired : DoubleWord) (h : Rig (Agenda Unit))
    (left : Beat (Agenda Unit)) : Prop where
  paced : Paced left.rig.clock
  icount : left.rig.clock.icount = h.clock.icount + 1
  pumped : (h.clock.icount + 1) % 16 = 1 →
    let served := h.serve slot retired (BitVec.ofNat 64 (h.clock.icount + 1))
    served.1 = .ok left.entry ∧ left.rig.board = served.2.board ∧
      left.rig.handoff = served.2.handoff
  quiet : (h.clock.icount + 1) % 16 ≠ 1 →
    left.entry = none ∧ left.rig.board = h.board ∧ left.rig.handoff = h.handoff

theorem handle_entry {now : Nat}
    (ok : (handle (fun due a => a.at_ due pumpName ()) slot retired now h).result = .ok ()) :
    let served := h.serve slot retired (BitVec.ofNat 64 now)
    let left := handle (fun due a => a.at_ due pumpName ()) slot retired now h
    served.1 = .ok left.entry ∧ left.rig.board = served.2.board ∧
      left.rig.handoff = served.2.handoff := by
  dsimp only
  unfold handle at ok ⊢
  generalize h.serve slot retired (BitVec.ofNat 64 now) = served at ok ⊢
  obtain ⟨result, rig⟩ := served
  cases result with
  | error error => cases ok
  | ok entry =>
    dsimp only at ok ⊢
    generalize rig.clock.at_ (wrapAdd now 16) pumpName () = answer at ok ⊢
    obtain ⟨answer, clock⟩ := answer
    cases answer with
    | error error => cases ok
    | ok id => exact ⟨rfl, rfl, rfl⟩

theorem mapError_ok {α : Type} {f : String → String} {result : Except String α} {value : α} :
    result.mapError f = .ok value ↔ result = .ok value := by
  cases result with
  | error error => exact ⟨fun same => (by cases same), fun same => (by cases same)⟩
  | ok other => exact Iff.rfl

/-- The pump puts itself on the clock sixteen instructions on, unless the count would wrap. -/
theorem wrapAdd_later {now : Nat} (fits : now < countLimit) (later : now < wrapAdd now 16) :
    wrapAdd now 16 = now + 16 ∧ now + 16 < countLimit := by
  unfold wrapAdd at later ⊢
  by_cases room : now + 16 < countLimit
  · exact ⟨Nat.mod_eq_of_lt room, room⟩
  · have limit : countLimit = 2 ^ 64 := rfl
    rw [Nat.mod_eq_sub_mod (Nat.le_of_not_lt room), Nat.mod_eq_of_lt (by omega)] at later
    omega

/-- **The pace of the pump.** -/
theorem Paced.beat (paced : Paced h.clock) (ok : (h.beat slot retired).result = .ok ()) :
    Kept slot retired h (h.beat slot retired) := by
  obtain ⟨board, handoff, ⟨now, nextID, nextSeq, next⟩⟩ := h
  obtain ⟨timely, ev, pending, named, phase, near⟩ := paced
  obtain rfl : next = some ev := pending
  have awaits := timely.event ev rfl
  have later : now < ev.due := awaits.later
  have fits : ev.due < countLimit := awaits.due
  change ev.due ≤ now + 16 at near
  have unbounded : now ≠ noneDue := by
    unfold noneDue
    omega
  unfold Rig.beat at ok ⊢
  unfold Agenda.countTick at ok ⊢
  dsimp only at ok ⊢
  rw [if_neg unbounded] at ok ⊢
  by_cases early : now + 1 ≠ Agenda.nextDue ⟨now + 1, nextID, nextSeq, some ev⟩
  · have waits : now + 1 < ev.due := by
      change now + 1 ≠ ev.due at early
      omega
    rw [if_pos early]
    refine ⟨⟨timely.counted (by omega) (Nat.le_succ now) ?_, ev, rfl, named, phase, ?_⟩, rfl,
      fun due => ?_, fun _ => ⟨rfl, rfl, rfl⟩⟩
    · rintro other same
      cases same
      exact waits
    · change ev.due ≤ now + 1 + 16
      omega
    · change (now + 1) % 16 = 1 at due
      omega
  · have due : now + 1 = ev.due := not_ne_iff.mp early
    rw [if_neg early] at ok ⊢
    dsimp only at ok ⊢
    rw [mapError_ok] at ok
    have free : (Agenda.fired ev ⟨now + 1, nextID, nextSeq, some ev⟩).Timely :=
      timely.fired rfl
    obtain ⟨after, scheduled⟩ := handle_ok ok
    have served := handle_entry ok
    obtain ⟨advanced, room⟩ := wrapAdd_later fits after
    dsimp only at scheduled
    rw [advanced] at scheduled
    have again : (Agenda.scheduled pumpName (ev.due + 16) ()
        (Agenda.fired ev ⟨now + 1, nextID, nextSeq, some ev⟩)).Timely :=
      free.scheduled rfl (show ev.due < ev.due + 16 by omega) room pumpName ()
    refine ⟨?_, ?_, fun _ => ?_, fun other => ?_⟩
    · dsimp only
      rw [scheduled]
      refine ⟨again, _, rfl, rfl, ?_, ?_⟩
      · change (ev.due + 16) % 16 = 1
        omega
      · exact Nat.le_refl (ev.due + 16)
    · dsimp only
      rw [scheduled, due]
      rfl
    · have same := serve_withClock slot retired (BitVec.ofNat 64 ev.due)
        (Rig.mk board handoff (Agenda.mk now nextID nextSeq (some ev)))
        (Agenda.fired ev ⟨now + 1, nextID, nextSeq, some ev⟩)
      dsimp only at served same ⊢
      rw [same] at served
      rw [due] at served ⊢
      exact served
    · change (now + 1) % 16 ≠ 1 at other
      omega

end Rig

end GoRetroTv
