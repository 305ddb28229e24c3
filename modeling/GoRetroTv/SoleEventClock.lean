import GoRetroTv.InstructionClockQueue
import GoRetroTv.InstructionClockSnapshot

/-!
# A clock with one event

The board puts a single event on its clock, and puts it there anew each time it has fired.  A
clock of at most one event is a counter with a deadline: what its operations do, and what a
restore brings back, does not depend on how the queue holds the event.
-/

namespace GoRetroTv

/-- A counter with at most one deadline. -/
structure Agenda (H : Type) where
  icount : Nat
  nextID : Nat
  nextSeq : Nat
  event : Option (Event H)

namespace Agenda

variable {H : Type}

/-- A clock that has scheduled nothing yet. -/
def new : Agenda H where
  icount := 0
  nextID := 0
  nextSeq := 0
  event := none

def nextDue (a : Agenda H) : Nat :=
  (a.event.map Event.due).getD noneDue

/-- The counting half of `Tick`. -/
def countTick (a : Agenda H) : Except String (Option Nat) × Agenda H :=
  if a.icount = noneDue then (.error "instruction counter would overflow", a)
  else
    let a := { a with icount := a.icount + 1 }
    if a.icount ≠ a.nextDue then (.ok none, a) else (.ok (some a.icount), a)

def fireReady (target : Nat) (a : Agenda H) : Bool :=
  a.event.any fun ev => decide (ev.due ≤ target)

/-- The agenda behind its event. -/
def fired (ev : Event H) (a : Agenda H) : Agenda H :=
  { a with icount := ev.due, event := none }

/-- The event of an agenda that has none. -/
def scheduled (name : List Byte) (due : Nat) (fn : H) (a : Agenda H) : Agenda H :=
  { a with
    nextID := wrapAdd a.nextID 1
    nextSeq := wrapAdd a.nextSeq 1
    event := some {
      id := wrapAdd a.nextID 1, name, due, period := 0, seq := a.nextSeq, fn, index := some 0 } }

/-- `At`. -/
def at_ (due : Nat) (name : List Byte) (fn : H) (a : Agenda H) :
    Except String Nat × Agenda H :=
  if due ≤ a.icount then
    (.error s!"clock: {text name}: {Clock.pastDue}: due {due}, now {a.icount}", a)
  else (.ok (wrapAdd a.nextID 1), a.scheduled name due fn)

/-- The event is the last one that was scheduled, and is due later. -/
structure Awaits (a : Agenda H) (ev : Event H) : Prop where
  id : ev.id = a.nextID
  seq : ev.seq + 1 = a.nextSeq
  later : a.icount < ev.due
  due : ev.due < countLimit
  once : ev.period = 0
  index : ev.index = some 0

/-- An agenda whose events have fired one by one, at increasing counts. -/
structure Timely (a : Agenda H) : Prop where
  icount : a.icount < countLimit
  nextID : a.nextID ≤ a.icount + a.event.toList.length
  nextSeq : a.nextSeq = a.nextID
  event : ∀ ev, a.event = some ev → a.Awaits ev

namespace Timely

variable {a : Agenda H} {ev : Event H}

theorem new : (Agenda.new : Agenda H).Timely where
  icount := Nat.two_pow_pos 64
  nextID := Nat.zero_le _
  nextSeq := rfl
  event ev pending := by cases pending

theorem nextID_lt (timely : a.Timely) : a.nextID < countLimit := by
  obtain ⟨icount, nextID, -, event⟩ := timely
  cases pending : a.event with
  | none =>
    rw [pending] at nextID
    exact nextID.trans_lt icount
  | some ev =>
    have awaits := event ev pending
    have later := awaits.later
    have due := awaits.due
    rw [pending] at nextID
    change a.nextID ≤ a.icount + 1 at nextID
    omega

theorem fired (timely : a.Timely) (pending : a.event = some ev) : (a.fired ev).Timely where
  icount := (timely.event ev pending).due
  nextID := by
    have before := timely.nextID
    have later := (timely.event ev pending).later
    rw [pending] at before
    change a.nextID ≤ a.icount + 1 at before
    change a.nextID ≤ ev.due + 0
    omega
  nextSeq := timely.nextSeq
  event ev pending := by cases pending

theorem scheduled (timely : a.Timely) (idle : a.event = none) {due : Nat}
    (later : a.icount < due) (fits : due < countLimit) (name : List Byte) (fn : H) :
    (a.scheduled name due fn).Timely := by
  have nextID := timely.nextID
  rw [idle] at nextID
  change a.nextID ≤ a.icount + 0 at nextID
  have advanced : wrapAdd a.nextID 1 = a.nextID + 1 :=
    Nat.mod_eq_of_lt (by omega)
  have seqAdvanced : wrapAdd a.nextSeq 1 = a.nextSeq + 1 := by
    rw [timely.nextSeq]
    exact advanced
  refine ⟨timely.icount, ?_, ?_, fun ev pending => ?_⟩
  · change wrapAdd a.nextID 1 ≤ a.icount + 1
    omega
  · change wrapAdd a.nextSeq 1 = wrapAdd a.nextID 1
    rw [timely.nextSeq]
  · cases pending
    exact ⟨rfl, seqAdvanced.symm, later, fits, rfl, rfl⟩

/-- Counting passes no deadline. -/
theorem counted (timely : a.Timely) {icount : Nat} (fits : icount < countLimit)
    (onward : a.icount ≤ icount) (early : ∀ ev, a.event = some ev → icount < ev.due) :
    Timely { a with icount } where
  icount := fits
  nextID := timely.nextID.trans (Nat.add_le_add_right onward _)
  nextSeq := timely.nextSeq
  event ev pending := { timely.event ev pending with later := early ev pending }

end Timely

end Agenda

namespace Clock

open Snapcodec

variable {H : Type} {c d : Clock H} {a : Agenda H} {ev : Event H}

/-- The queue and the map of live events hold this event and no other. -/
inductive Holds (c : Clock H) : Option (Event H) → Prop
  | idle (queue : c.queue = []) (live : c.live = []) (nextDue : c.nextDue = noneDue) :
      Holds c none
  | sole (ref : EventRef) (ev : Event H) (queue : c.queue = [ref])
      (live : c.live = [(ev.id, ref)]) (event : c.event? ref = some ev)
      (index : ev.index = some 0) (nextDue : c.nextDue = ev.due) : Holds c (some ev)

/-- A clock of at most one event, as the agenda it amounts to. -/
structure Shows (c : Clock H) (a : Agenda H) : Prop where
  icount : c.icount = a.icount
  nextID : c.nextID = a.nextID
  nextSeq : c.nextSeq = a.nextSeq
  holds : c.Holds a.event

namespace Shows

theorem new : (Clock.new : Clock H).Shows .new where
  icount := rfl
  nextID := rfl
  nextSeq := rfl
  holds := .idle rfl rfl rfl

theorem nextDue (shows_ : c.Shows a) : c.nextDue = a.nextDue := by
  obtain ⟨now, nextID, nextSeq, next⟩ := a
  obtain ⟨-, -, -, holds⟩ := shows_
  unfold Agenda.nextDue
  cases holds with
  | idle queue live nextDue => exact nextDue
  | sole ref ev queue live event index nextDue => exact nextDue

/-- The counter moves and the event stays. -/
theorem counted (shows_ : c.Shows a) (icount : Nat) :
    Shows { c with icount } { a with icount } where
  icount := rfl
  nextID := shows_.nextID
  nextSeq := shows_.nextSeq
  holds := by
    obtain ⟨now, nextID, nextSeq, next⟩ := a
    obtain ⟨-, -, -, holds⟩ := shows_
    cases holds with
    | idle queue live nextDue => exact .idle queue live nextDue
    | sole ref ev queue live event index nextDue =>
      exact .sole ref ev queue live event index nextDue

theorem countTick (shows_ : c.Shows a) :
    c.countTick.1 = a.countTick.1 ∧ c.countTick.2.Shows a.countTick.2 := by
  have later := shows_.counted (a.icount + 1)
  have due : c.nextDue = Agenda.nextDue { a with icount := a.icount + 1 } := later.nextDue
  unfold Clock.countTick Agenda.countTick
  dsimp only
  rw [shows_.icount]
  by_cases last : a.icount = noneDue
  · rw [if_pos last, if_pos last]
    exact ⟨rfl, shows_⟩
  rw [if_neg last, if_neg last]
  by_cases early : a.icount + 1 ≠ c.nextDue
  · rw [if_pos early, if_pos (due ▸ early)]
    exact ⟨rfl, later⟩
  · rw [if_neg early, if_neg (due ▸ early)]
    exact ⟨rfl, later⟩

theorem fireReady (shows_ : c.Shows a) (target : Nat) :
    c.fireReady target = a.fireReady target := by
  obtain ⟨now, nextID, nextSeq, next⟩ := a
  obtain ⟨-, -, -, holds⟩ := shows_
  unfold Clock.fireReady Agenda.fireReady
  cases holds with
  | idle queue live nextDue =>
    rw [queue]
    rfl
  | sole ref ev queue live event index nextDue =>
    rw [queue, nextDue]
    rfl

/-- The clock whose only event has been taken off. -/
def emptied (ref : EventRef) (c : Clock H) : Clock H :=
  { (c.setIndex ref (some 0)).setIndex ref (some 0) with queue := [] }

theorem popQueue_sole {ref : EventRef} (queue : c.queue = [ref]) :
    c.popQueue = some (ref, emptied ref c) := by
  have swapped : c.swap 0 0 = (c.setIndex ref (some 0)).setIndex ref (some 0) := by
    unfold swap
    rw [queue]
    simp only [List.getElem?_cons_zero, List.set_cons_zero]
    rw [← queue]
  have sifted : heap.popSift c = (c.setIndex ref (some 0)).setIndex ref (some 0) := by
    have last : heap.len c - 1 = 0 := by
      change c.queue.length - 1 = 0
      rw [queue]
      rfl
    unfold HeapInterface.popSift
    dsimp only
    rw [last, HeapInterface.down, if_neg (by omega)]
    exact swapped
  have held : ((c.setIndex ref (some 0)).setIndex ref (some 0)).queue = [ref] := queue
  unfold popQueue dropLast
  simp only [sifted, held, queue]
  rfl

theorem emptied_event {ref : EventRef} (event : c.event? ref = some ev)
    (index : ev.index = some 0) : (emptied ref c).event? ref = some ev := by
  change ((c.setIndex ref (some 0)).setIndex ref (some 0)).event? ref = some ev
  rw [event?_setIndex_self, event?_setIndex_self, event, Option.map_some, Option.map_some, ← index]

/-- The only event fires, and none is left. -/
theorem fireNext (shows_ : c.Shows a) (due : a.event = some ev) (once : ev.period = 0) :
    ∃ fired, c.fireNext = some (ev, .ok (), fired) ∧ fired.Shows (a.fired ev) := by
  obtain ⟨now, nextID, nextSeq, next⟩ := a
  obtain ⟨isNow, isNextID, isNextSeq, holds⟩ := shows_
  cases due
  cases holds with
  | sole ref _ queue live event index nextDue =>
    let taken : Clock H := { (emptied ref c).setIndex ref none with icount := ev.due }
    refine ⟨(taken.deleteLive ev.id).refreshNextDue, ?_, rfl, isNextID, isNextSeq,
      .idle rfl ?_ rfl⟩
    · unfold Clock.fireNext
      rw [popQueue_sole queue]
      simp only [Option.bind_eq_bind, Option.bind_some, emptied_event event index, once,
        Nat.lt_irrefl, if_false]
      rfl
    · change c.live.filter _ = []
      rw [live]
      simp

/-- An event on an empty queue. -/
theorem schedule (shows_ : c.Shows a) (idle : a.event = none) (name : List Byte) (due : Nat)
    (fn : H) :
    (c.schedule name due 0 fn).1 = wrapAdd a.nextID 1 ∧
      (c.schedule name due 0 fn).2.Shows (a.scheduled name due fn) := by
  obtain ⟨now, nextID, nextSeq, next⟩ := a
  obtain ⟨isNow, isNextID, isNextSeq, holds⟩ := shows_
  cases idle
  cases holds with
  | idle queue live nextDue =>
    dsimp only at isNow isNextID isNextSeq
    let ev : Event H := {
      id := wrapAdd nextID 1, name, due, period := 0, seq := nextSeq, fn, index := some 0 }
    let before : Clock H := { c with
      nextID := wrapAdd nextID 1
      nextSeq := wrapAdd nextSeq 1
      events := c.events ++ [ev]
      live := [(ev.id, c.events.length)] }
    have started : c.schedule name due 0 fn =
        (ev.id, (before.pushQueue c.events.length).refreshNextDue) := by
      unfold Clock.schedule Clock.setLive
      rw [isNextID, isNextSeq, live]
      rfl
    have found : before.event? c.events.length = some ev := List.getElem?_concat_length
    have pushed : before.pushQueue c.events.length =
        { before.setIndex c.events.length (some 0) with queue := [c.events.length] } := by
      have empty : before.queue = [] := queue
      rw [pushQueue_eq, empty]
      unfold appended
      rw [empty, HeapInterface.up, if_pos (.inl rfl)]
      rfl
    have held : Clock.event?
        { before.setIndex c.events.length (some 0) with queue := [c.events.length] }
        c.events.length = some ev := by
      change (before.setIndex c.events.length (some 0)).event? c.events.length = some ev
      rw [event?_setIndex_self, found, Option.map_some]
    rw [started, pushed]
    refine ⟨rfl, ?_⟩
    unfold refreshNextDue
    simp only [List.head?_cons, Option.bind_some, held]
    exact ⟨isNow, rfl, rfl, .sole c.events.length ev rfl rfl held rfl rfl⟩

theorem at_ (shows_ : c.Shows a) (idle : a.event = none) (due : Nat) (name : List Byte) (fn : H) :
    (c.at_ due name (some fn)).1 = (a.at_ due name fn).1 ∧
      (c.at_ due name (some fn)).2.Shows (a.at_ due name fn).2 := by
  obtain ⟨id, scheduled⟩ := shows_.schedule idle name due fn
  unfold Clock.at_ Agenda.at_
  dsimp only
  rw [shows_.icount]
  by_cases past : due ≤ a.icount
  · rw [if_pos past, if_pos past]
    exact ⟨rfl, shows_⟩
  · rw [if_neg past, if_neg past]
    exact ⟨congrArg Except.ok id, scheduled⟩

theorem liveEvents (shows_ : c.Shows a) : c.liveEvents = a.event.toList := by
  obtain ⟨now, nextID, nextSeq, next⟩ := a
  obtain ⟨-, -, -, holds⟩ := shows_
  unfold Clock.liveEvents
  cases holds with
  | idle queue live nextDue =>
    rw [live]
    rfl
  | sole ref ev queue live event index nextDue =>
    rw [live]
    simp only [List.filterMap_cons, event, List.filterMap_nil]
    rfl

/-- A snapshot tells no more than the agenda. -/
theorem snapshot_eq (shows_ : c.Shows a) (other : d.Shows a) : c.snapshot = d.snapshot := by
  unfold Clock.snapshot
  rw [shows_.liveEvents, other.liveEvents, shows_.icount, other.icount, shows_.nextID,
    other.nextID, shows_.nextSeq, other.nextSeq]

/-- The event's name is a short one that the handlers know. -/
def Known (handlers : List Byte → Option H) (a : Agenda H) : Prop :=
  ∀ ev, a.event = some ev →
    handlers ev.name = some ev.fn ∧ ev.name ≠ [] ∧ ev.name.length ≤ maxNameLen

variable {handlers : List Byte → Option H}

/-- A check that reads nothing. -/
theorem reads_check {α : Type} {checked : Reading Unit} {next : Unit → Reading α}
    {bytes : List Byte} {value : α} (passed : Reads checked [] ())
    (rest : Reads (next ()) bytes value) : Reads (checked >>= next) bytes value :=
  Reads.bind passed rest

theorem reads_require {condition : Bool} {error : String} (holds : condition = true) :
    Reads (Reading.require condition error) [] () := by
  intro r rest here
  rw [holds]
  rfl

theorem readEvents_reads (timely : a.Timely) (known : Known handlers a) :
    Reads (readEvents a.icount a.nextID a.nextSeq handlers a.event.toList.length [])
      (a.event.toList.flatMap encodeEvent) a.event.toList := by
  cases pending : a.event with
  | none => exact Reads.pure []
  | some ev =>
    obtain ⟨handler, named, nameFits⟩ := known ev pending
    obtain ⟨id, seq, later, due, once, index⟩ := timely.event ev pending
    have idFits := timely.nextID_lt
    have seqs := timely.nextSeq
    change Reads (readEvents a.icount a.nextID a.nextSeq handlers 1 []) (encodeEvent ev ++ []) _
    rw [readEvents, encodeEvent]
    simp only [List.append_assoc]
    apply Reads.bind (.count (by omega))
    apply Reads.bind (.string (nameFits.trans_lt (by decide)))
    apply Reads.bind (.count due)
    apply Reads.bind (.count (by rw [once]; exact Nat.two_pow_pos 64))
    apply Reads.bind (.count (by omega))
    apply reads_check (Parses.wrap (Reads.bind Reads.err (Reads.pure ())))
    apply reads_check (reads_require (decide_eq_true (by omega)))
    apply reads_check (reads_require rfl)
    apply reads_check
    · apply reads_require
      rw [Bool.and_eq_true, decide_eq_true_iff]
      exact ⟨by omega, rfl⟩
    apply reads_check (reads_require (decide_eq_true later))
    apply reads_check
    · apply reads_require
      rw [List.isEmpty_eq_false_iff.mpr named]
      rfl
    rw [handler]
    have rebuilt : { ev with index := some 0 } = ev := by
      rw [← index]
    change Reads (Pure.pure [{ ev with index := some 0 }]) [] [ev]
    rw [rebuilt]
    exact Reads.pure [ev]

/-- What a restore reads of a clock's own snapshot. -/
theorem readSnapshot_parses (shows_ : c.Shows a) (timely : a.Timely)
    (known : Known handlers a) {length : Nat}
    (room : snapshotBaseBytes + (a.event.toList.flatMap encodeEvent).length ≤ length) :
    Parses (readSnapshot length handlers) c.encodeClock (.ok {
      icount := a.icount
      nextID := a.nextID
      nextSeq := a.nextSeq
      events := a.event.toList }) := by
  have few : a.event.toList.length ≤ 1 := by
    cases a.event <;> simp
  have countEq : (BitVec.ofNat 32 a.event.toList.length : Word).toNat = a.event.toList.length :=
    Nat.mod_eq_of_lt (by omega)
  have sized : a.event.toList.length * minSnapshotEventBytes ≤
      (a.event.toList.flatMap encodeEvent).length := by
    cases a.event with
    | none => exact Nat.le_refl 0
    | some ev =>
      simp only [Option.toList_some, List.length_cons, List.length_nil, List.flatMap_cons,
        List.flatMap_nil, List.append_nil, encodeEvent, List.length_append, bigEndian_length,
        encodeBytes_length, minSnapshotEventBytes]
      omega
  have nextSeqFits : a.nextSeq < countLimit := by
    rw [timely.nextSeq]
    exact timely.nextID_lt
  rw [readSnapshot, encodeClock, shows_.liveEvents, shows_.icount, shows_.nextID, shows_.nextSeq]
  apply Parses.bind (.count timely.icount)
  apply Parses.bind (.count timely.nextID_lt)
  apply Parses.bind (.count nextSeqFits)
  apply Parses.bind (.uint32 _)
  apply Parses.wrapCheck
  rw [countEq]
  apply Parses.require
  · rw [decide_eq_true_iff, Nat.le_div_iff_mul_le (by decide)]
    omega
  apply Parses.bind_last (readEvents_reads timely known)
  apply Parses.wrapDone
  exact Parses.pure [] _

/-- A queue of one event is in order. -/
theorem init_few (few : c.queue.length ≤ 1) : heap.init c = c := by
  have none_above : heap.len c / 2 = 0 := Nat.div_eq_of_lt (Nat.lt_succ_of_le few)
  unfold HeapInterface.init
  rw [none_above]
  rfl

/-- A new event in place of the clock's own. -/
theorem installed (a : Agenda H) (index : ∀ ev, a.event = some ev → ev.index = some 0)
    (d : Clock H) :
    ((d.install {
      icount := a.icount
      nextID := a.nextID
      nextSeq := a.nextSeq
      events := a.event.toList }).refreshNextDue).Shows a := by
  obtain ⟨now, nextID, nextSeq, next⟩ := a
  unfold install
  cases next with
  | none =>
    dsimp only
    rw [init_few (show List.length [] ≤ 1 from Nat.zero_le 1)]
    exact ⟨rfl, rfl, rfl, .idle rfl rfl rfl⟩
  | some ev =>
    have found : (d.events ++ [ev])[d.events.length]? = some ev := List.getElem?_concat_length
    dsimp only
    rw [init_few (show List.length [_] ≤ 1 from Nat.le_refl 1)]
    unfold refreshNextDue event?
    simp only [Option.toList_some, List.length_cons, List.length_nil, List.range_succ_eq_map,
      List.range_zero, List.map_nil, List.map_cons, Nat.add_zero, List.head?_cons,
      Option.bind_some, found]
    exact ⟨rfl, rfl, rfl, .sole d.events.length ev rfl rfl found (index ev rfl) rfl⟩

theorem encodeEvents_length (known : Known handlers a) :
    (a.event.toList.flatMap encodeEvent).length ≤ 36 + maxNameLen := by
  cases pending : a.event with
  | none => exact Nat.zero_le _
  | some ev =>
    have nameFits := (known ev pending).2.2
    simp only [Option.toList_some, List.flatMap_cons, List.flatMap_nil, List.append_nil,
      encodeEvent, List.length_append, bigEndian_length, encodeBytes_length]
    omega

theorem encodeClock_length (shows_ : c.Shows a) :
    c.encodeClock.length = 28 + (a.event.toList.flatMap encodeEvent).length := by
  rw [encodeClock, shows_.liveEvents]
  simp only [List.length_append, bigEndian_length]
  omega

theorem snapshot_frame (shows_ : c.Shows a) (known : Known handlers a) :
    c.snapshot = .ok (Writer.frame snapshotName snapshotVersion c.encodeClock) := by
  have size := shows_.encodeClock_length
  have events := encodeEvents_length known
  have bounds : 64 + maxNameLen < wordLimit := by decide
  have fresh : newWriter snapshotName snapshotVersion =
      ⟨snapshotName, snapshotVersion, [], none⟩ := by decide
  have few : ¬ wordLimit - 1 < a.event.toList.length := by
    cases a.event with
    | none => exact (show ¬ wordLimit - 1 < 0 by decide)
    | some ev => exact (show ¬ wordLimit - 1 < 1 by decide)
  have named : (a.event.toList.find? fun ev => ev.name.isEmpty) = none := by
    rw [List.find?_eq_none]
    intro ev member
    have named := (known ev (Option.mem_toList.mp member)).2.1
    rw [List.isEmpty_eq_false_iff.mpr named]
    exact Bool.false_ne_true
  have written : a.event.toList.foldl (fun w ev => writeEvent ev w)
      ⟨snapshotName, snapshotVersion, [] ++ bigEndian 8 (BitVec.ofNat 64 c.icount).toNat ++
        bigEndian 8 (BitVec.ofNat 64 c.nextID).toNat ++
        bigEndian 8 (BitVec.ofNat 64 c.nextSeq).toNat ++
        bigEndian 4 (BitVec.ofNat 32 a.event.toList.length).toNat, none⟩ =
      ⟨snapshotName, snapshotVersion, c.encodeClock, none⟩ := by
    rw [encodeClock, shows_.liveEvents]
    cases pending : a.event with
    | none =>
      simp only [Option.toList_none, List.foldl_nil, List.flatMap_nil, List.nil_append,
        List.append_assoc, List.append_nil]
    | some ev =>
      have nameFits := (known ev pending).2.2.trans_lt (show maxNameLen < wordLimit by decide)
      simp only [Option.toList_some, List.foldl_cons, List.foldl_nil, writeEvent_mk nameFits,
        List.flatMap_cons, List.flatMap_nil, List.nil_append, List.append_assoc, List.append_nil]
  unfold Clock.snapshot
  dsimp only
  rw [shows_.liveEvents, if_neg few, named]
  dsimp only
  rw [fresh, Writer.count_mk, Writer.count_mk, Writer.count_mk, Writer.uint32_mk, written]
  exact Writer.blob_mk _ _ _ (show snapshotName.length ≤ maxNameLen by decide) (by omega)

/-- The snapshot of a clock of at most one event is accepted by every clock, which then holds
that event. -/
theorem restore_own (shows_ : c.Shows a) (timely : a.Timely) (known : Known handlers a) :
    ∃ blob, c.snapshot = .ok blob ∧ blob.length ≤ 83 + maxNameLen ∧
      ∀ d : Clock H, ∃ d', d.restore blob handlers = .ok d' ∧ d'.Shows a := by
  have size := shows_.encodeClock_length
  have events := encodeEvents_length known
  have bounds : 64 + maxNameLen < wordLimit := by decide
  have whole : (Writer.frame snapshotName snapshotVersion c.encodeClock).length =
      19 + c.encodeClock.length := frame_length _ _ _
  have base : snapshotBaseBytes = 47 := rfl
  refine ⟨_, shows_.snapshot_frame known, by omega, fun d => ?_⟩
  have parsed := shows_.readSnapshot_parses timely known
    (show snapshotBaseBytes + (a.event.toList.flatMap encodeEvent).length ≤
      (Writer.frame snapshotName snapshotVersion c.encodeClock).length by omega)
  refine ⟨_, ?_, installed a (fun ev pending => (timely.event ev pending).index) d⟩
  unfold Clock.restore
  rw [restoring_frame (show snapshotName.length ≤ maxNameLen by decide) (by omega)
    (show snapshotVersion ≤ snapshotVersion by decide)
    (show snapshotVersion ≤ snapshotVersion by decide) parsed]
  rfl

end Shows

end Clock

end GoRetroTv
