import GoRetroTv.InstructionClockRuns

/-!
# The schedule as a list of keys

Which events fire next depends on the due instructions and registration numbers
in the queue, and not on the recorded positions, which a restore leaves wrong.
`Sound` is what every clock keeps whatever positions are recorded, and for each
operation one lemma says what it does to the keys.
-/

namespace GoRetroTv

namespace Clock

variable {H : Type}

/-- The due instruction and registration number behind a pointer. -/
def keyOf (c : Clock H) (ref : EventRef) : Nat × Nat :=
  match c.event? ref with
  | some ev => (ev.due, ev.seq)
  | none => (0, 0)

/-- The keys of the queue, in the heap's order. -/
def keys (c : Clock H) : List (Nat × Nat) :=
  c.queue.map c.keyOf

/-- What holds of a clock at any moment: the queue is a heap of distinct
pointers to events, the cached next due instruction is the head's, and nothing
queued is overdue. -/
structure Sound (c : Clock H) : Prop where
  ordered : c.QueueOrdered
  distinct : c.queue.Nodup
  events : ∀ ref ∈ c.queue, (c.event? ref).isSome
  nextDue : c.nextDue = c.headDue
  fits : ∀ key ∈ c.keys, key.1 < countLimit
  waits : ∀ key ∈ c.keys, c.icount ≤ key.1

/-- What holds of a clock when no `fireDue` is in progress: everything queued is
due later. -/
structure Steady (c : Clock H) : Prop extends Sound c where
  later : ∀ key ∈ c.keys, c.icount < key.1

theorem keyOf_of_event {c : Clock H} {ref : EventRef} {ev : Event H}
    (found : c.event? ref = some ev) : c.keyOf ref = (ev.due, ev.seq) := by
  simp [keyOf, found]

theorem keyOf_eq_core (c : Clock H) (ref : EventRef) :
    c.keyOf ref = (((c.event? ref).map Event.core).map fun ev => (ev.due, ev.seq)).getD (0, 0) := by
  unfold keyOf
  cases c.event? ref <;> rfl

theorem keyOf_congr {c c' : Clock H}
    (events : c'.events.map Event.core = c.events.map Event.core) (ref : EventRef) :
    c'.keyOf ref = c.keyOf ref := by
  rw [keyOf_eq_core, keyOf_eq_core, event?_core_of_events events]

theorem isSome_congr {c c' : Clock H}
    (events : c'.events.map Event.core = c.events.map Event.core) (ref : EventRef) :
    (c'.event? ref).isSome = (c.event? ref).isSome := by
  have same := congrArg Option.isSome (event?_core_of_events events ref)
  simpa using same

theorem dueSeq_eq_keyOf {c : Clock H} {i : Nat} {ref : EventRef} (atI : c.queue[i]? = some ref) :
    c.dueSeq i = c.keyOf ref := by
  have found : (c.queue[i]?).bind c.event? = c.event? ref := by rw [atI, Option.bind_some]
  exact congrArg (fun ev : Option (Event H) =>
    match ev with
    | some ev => (ev.due, ev.seq)
    | none => (0, 0)) found

/-- The keys of clocks whose queues hold the same events. -/
theorem keys_perm {c c' : Clock H} (queue : c'.queue.Perm c.queue)
    (events : c'.events.map Event.core = c.events.map Event.core) :
    c'.keys.Perm c.keys := by
  have sameKeys : c'.keys = c'.queue.map c.keyOf :=
    List.map_congr_left fun ref _ => keyOf_congr events ref
  rw [sameKeys]
  exact queue.map _

theorem TakenOut.keys {c c' : Clock H} {ref : EventRef} (taken : TakenOut c c' ref) :
    (c.keyOf ref :: c'.keys).Perm c.keys := by
  have sameKeys : c'.keys = c'.queue.map c.keyOf :=
    List.map_congr_left fun other _ => keyOf_congr taken.events other
  rw [sameKeys, ← List.map_cons]
  exact taken.queue.map _

/-- The head of a sound clock is its least key. -/
theorem Sound.head_le {c : Clock H} (sound : c.Sound) {ref : EventRef}
    (head : c.queue[0]? = some ref) {key : Nat × Nat} (member : key ∈ c.keys) :
    toLex (c.keyOf ref) ≤ toLex key := by
  obtain ⟨other, queued, rfl⟩ := List.mem_map.mp member
  obtain ⟨i, atI⟩ := List.mem_iff_getElem?.mp queued
  have bound := (List.getElem?_eq_some_iff.mp atI).1
  have least := sound.ordered.root_le bound
  change toLex (c.dueSeq 0) ≤ toLex (c.dueSeq i) at least
  rwa [dueSeq_eq_keyOf head, dueSeq_eq_keyOf atI] at least

theorem Sound.nextDue_eq {c : Clock H} (sound : c.Sound) {ref : EventRef}
    (head : c.queue[0]? = some ref) : c.nextDue = (c.keyOf ref).1 := by
  obtain ⟨ev, found⟩ := Option.isSome_iff_exists.mp
    (sound.events ref (List.mem_of_getElem? head))
  rw [sound.nextDue, headDue, List.head?_eq_getElem?, head, keyOf_of_event found]
  simp [found]

theorem Sound.nextDue_le {c : Clock H} (sound : c.Sound) {key : Nat × Nat}
    (member : key ∈ c.keys) : c.nextDue ≤ key.1 := by
  have nonempty : 0 < c.queue.length := by
    obtain ⟨other, queued, _⟩ := List.mem_map.mp member
    exact List.length_pos_of_mem queued
  have head : c.queue[0]? = some c.queue[0] := List.getElem?_eq_getElem nonempty
  rw [sound.nextDue_eq head]
  exact (Prod.Lex.toLex_le_toLex'.mp (sound.head_le head member)).1

/-- The cached next due instruction is that of something queued. -/
theorem Sound.nextDue_mem {c : Clock H} (sound : c.Sound) (nonempty : 0 < c.queue.length) :
    ∃ key ∈ c.keys, c.nextDue = key.1 := by
  have head : c.queue[0]? = some c.queue[0] := List.getElem?_eq_getElem nonempty
  exact ⟨c.keyOf c.queue[0], List.mem_map_of_mem (List.getElem_mem nonempty),
    sound.nextDue_eq head⟩

theorem Steady.lt_nextDue {c : Clock H} (steady : c.Steady) (nonempty : 0 < c.queue.length) :
    c.icount < c.nextDue := by
  obtain ⟨key, member, isDue⟩ := steady.nextDue_mem nonempty
  rw [isDue]
  exact steady.later key member

theorem Sound.nextDue_lt {c : Clock H} (sound : c.Sound) (nonempty : 0 < c.queue.length) :
    c.nextDue < countLimit := by
  obtain ⟨key, member, isDue⟩ := sound.nextDue_mem nonempty
  rw [isDue]
  exact sound.fits key member

/-- Nothing fires before the next due instruction. -/
theorem not_ready {c : Clock H} {target : Nat}
    (early : 0 < c.queue.length → target < c.nextDue) : c.fireReady target = false := by
  simp only [fireReady, Bool.and_eq_false_iff, decide_eq_false_iff_not, not_lt, not_le]
  rcases Nat.eq_zero_or_pos c.queue.length with empty | nonempty
  · exact .inl empty.le
  · exact .inr (early nonempty)

/-- The part of `Sound` that is about the queue. -/
structure Queued (c : Clock H) : Prop where
  ordered : c.QueueOrdered
  distinct : c.queue.Nodup
  events : ∀ ref ∈ c.queue, (c.event? ref).isSome

theorem Sound.queued {c : Clock H} (sound : c.Sound) : c.Queued :=
  ⟨sound.ordered, sound.distinct, sound.events⟩

theorem Queued.offQueue {c c' : Clock H} (queued : c.Queued) (off : OffQueue c c') :
    c'.Queued where
  ordered := queued.ordered.offQueue off
  distinct := off.queue ▸ queued.distinct
  events ref member := by
    have before : ref ∈ c.queue := off.queue ▸ member
    rw [off.events ref before]
    exact queued.events ref before

theorem OffQueue.keys {c c' : Clock H} (off : OffQueue c c') : c'.keys = c.keys := by
  unfold Clock.keys
  rw [off.queue]
  exact List.map_congr_left fun ref member => by simp only [keyOf, off.events ref member]

theorem Queued.push {c : Clock H} (queued : c.Queued) {ref : EventRef} (fresh : ref ∉ c.queue)
    (isEvent : (c.event? ref).isSome) :
    (c.pushQueue ref).Queued ∧ (c.pushQueue ref).keys.Perm (c.keyOf ref :: c.keys) := by
  have shuffled := pushQueue_shuffled c ref
  constructor
  · exact {
      ordered := pushQueue_ordered queued.ordered ref
      distinct := by
        rw [shuffled.queue.nodup_iff, List.nodup_append]
        simpa using ⟨queued.distinct, fun other member same => fresh (same ▸ member)⟩
      events := by
        intro other member
        rw [isSome_congr shuffled.events]
        rcases List.mem_append.mp (shuffled.queue.mem_iff.mp member) with before | new
        · exact queued.events other before
        · rw [List.mem_singleton.mp new]
          exact isEvent }
  · refine (keys_perm shuffled.queue shuffled.events).trans ?_
    have appended : ({ c with queue := c.queue ++ [ref] } : Clock H).keys =
        c.keys ++ [c.keyOf ref] := by
      simp only [Clock.keys, List.map_append]
      rfl
    rw [appended]
    exact List.perm_append_singleton _ _

theorem Queued.takenOut {c c' : Clock H} {ref : EventRef} (queued : c.Queued)
    (taken : TakenOut c c' ref) : c'.Queued ∧ ref ∉ c'.queue := by
  have distinct := taken.queue.nodup_iff.mpr queued.distinct
  rw [List.nodup_cons] at distinct
  refine ⟨⟨taken.ordered, distinct.2, ?_⟩, distinct.1⟩
  intro other member
  rw [isSome_congr taken.events]
  exact queued.events other (taken.queue.mem_iff.mp (List.mem_cons_of_mem _ member))

theorem Queued.refreshed {c : Clock H} (queued : c.Queued)
    (fits : ∀ key ∈ c.keys, key.1 < countLimit)
    (waits : ∀ key ∈ c.keys, c.icount ≤ key.1) : c.refreshNextDue.Sound := by
  rw [refreshNextDue_eq]
  exact {
    ordered := queued.ordered.offQueue ⟨rfl, fun _ _ => rfl⟩
    distinct := queued.distinct
    events := queued.events
    nextDue := rfl
    fits := fits
    waits := waits }

@[simp]
theorem refreshNextDue_keys (c : Clock H) : c.refreshNextDue.keys = c.keys := by
  rw [refreshNextDue_eq]
  rfl

@[simp]
theorem refreshNextDue_icount (c : Clock H) : c.refreshNextDue.icount = c.icount := by
  rw [refreshNextDue_eq]

/-- What a caller's operations do to the schedule: the count stands still,
events go, and those that come are due later. -/
structure Rescheduled (c c' : Clock H) : Prop where
  icount : c'.icount = c.icount
  keys : ∃ added : List (Nat × Nat),
    (∀ key ∈ added, c.icount < key.1 ∧ key.1 < countLimit) ∧
      c'.keys.Subperm (added ++ c.keys)

theorem Rescheduled.refl (c : Clock H) : Rescheduled c c :=
  ⟨rfl, [], by simp, .refl _⟩

theorem Rescheduled.trans {first second third : Clock H} (before : Rescheduled first second)
    (after : Rescheduled second third) : Rescheduled first third := by
  obtain ⟨old, oldLater, oldKeys⟩ := before.keys
  obtain ⟨new, newLater, newKeys⟩ := after.keys
  refine ⟨after.icount.trans before.icount, new ++ old, ?_, ?_⟩
  · intro key member
    rcases List.mem_append.mp member with isNew | isOld
    · exact before.icount ▸ newLater key isNew
    · exact oldLater key isOld
  · rw [List.append_assoc]
    exact newKeys.trans ((List.subperm_append_left new).mpr oldKeys)

theorem Rescheduled.mem {c c' : Clock H} (rescheduled : Rescheduled c c') {key : Nat × Nat}
    (member : key ∈ c'.keys) : c.icount < key.1 ∨ key ∈ c.keys := by
  obtain ⟨added, later, keys⟩ := rescheduled.keys
  rcases List.mem_append.mp (keys.subset member) with isNew | isOld
  · exact .inl (later key isNew).1
  · exact .inr isOld

theorem Rescheduled.fits {c c' : Clock H} (rescheduled : Rescheduled c c')
    (fits : ∀ key ∈ c.keys, key.1 < countLimit) : ∀ key ∈ c'.keys, key.1 < countLimit := by
  obtain ⟨added, later, keys⟩ := rescheduled.keys
  intro key member
  rcases List.mem_append.mp (keys.subset member) with isNew | isOld
  · exact (later key isNew).2
  · exact fits key isOld

theorem Rescheduled.waits {c c' : Clock H} (rescheduled : Rescheduled c c')
    (waits : ∀ key ∈ c.keys, c.icount ≤ key.1) : ∀ key ∈ c'.keys, c'.icount ≤ key.1 := by
  intro key member
  rw [rescheduled.icount]
  rcases rescheduled.mem member with later | before
  · exact later.le
  · exact waits key before

theorem Rescheduled.later {c c' : Clock H} (rescheduled : Rescheduled c c')
    (later : ∀ key ∈ c.keys, c.icount < key.1) : ∀ key ∈ c'.keys, c'.icount < key.1 := by
  intro key member
  rw [rescheduled.icount]
  rcases rescheduled.mem member with isLater | before
  · exact isLater
  · exact later key before

theorem event?_lt {c : Clock H} {ref : EventRef} (isEvent : (c.event? ref).isSome) :
    ref < c.events.length := by
  obtain ⟨ev, found⟩ := Option.isSome_iff_exists.mp isEvent
  exact (List.getElem?_eq_some_iff.mp found).1

/-- `schedule` adds one key. -/
theorem Sound.schedule {c : Clock H} (sound : c.Sound) (name : List Byte) {due : Nat}
    (later : c.icount < due) (fits : due < countLimit) (period : Nat) (fn : H) :
    (c.schedule name due period fn).2.Sound ∧
      Rescheduled c (c.schedule name due period fn).2 := by
  set ev : Event H :=
    { id := wrapAdd c.nextID 1, name, due, period, seq := c.nextSeq, fn, index := some 0 }
    with isEv
  set ref := c.events.length with isRef
  set added : Clock H :=
    (({ c with
      nextID := wrapAdd c.nextID 1
      nextSeq := wrapAdd c.nextSeq 1
      events := c.events ++ [ev] } : Clock H).setLive ev.id ref) with isAdded
  have result : (c.schedule name due period fn).2 = (added.pushQueue ref).refreshNextDue := rfl
  have old : OffQueue c added := by
    refine ⟨rfl, fun other member => ?_⟩
    exact List.getElem?_append_left (event?_lt (sound.events other member))
  have isNew : added.event? ref = some ev := List.getElem?_concat_length
  have fresh : ref ∉ added.queue := fun member =>
    Nat.lt_irrefl _ (event?_lt (sound.events ref member))
  obtain ⟨queued, keys⟩ := (sound.queued.offQueue old).push fresh (by rw [isNew]; rfl)
  rw [keyOf_of_event isNew, old.keys] at keys
  have icount : (added.pushQueue ref).icount = c.icount := (pushQueue_shuffled added ref).icount
  have rescheduled : Rescheduled c (added.pushQueue ref) :=
    ⟨icount, [(due, c.nextSeq)], by simpa using ⟨later, fits⟩, keys.subperm⟩
  rw [result]
  refine ⟨queued.refreshed (rescheduled.fits sound.fits) (rescheduled.waits sound.waits), ?_⟩
  exact ⟨by simpa using icount, by simpa using rescheduled.keys⟩

theorem Sound.at_ {c : Clock H} (sound : c.Sound) {due : Nat} (fits : due < countLimit)
    (name : List Byte) (fn : Option H) :
    (c.at_ due name fn).2.Sound ∧ Rescheduled c (c.at_ due name fn).2 := by
  unfold Clock.at_
  cases fn with
  | none => exact ⟨sound, .refl c⟩
  | some fn =>
      dsimp only
      split
      next => exact ⟨sound, .refl c⟩
      next later => exact sound.schedule name (by omega) fits 0 fn

theorem Sound.after {c : Clock H} (sound : c.Sound) (delta : Nat) (name : List Byte)
    (fn : Option H) : (c.after delta name fn).2.Sound ∧ Rescheduled c (c.after delta name fn).2 := by
  unfold Clock.after
  split
  · exact ⟨sound, .refl c⟩
  · split
    · exact ⟨sound, .refl c⟩
    next due added =>
      obtain ⟨isDue, fits⟩ := add_ok added
      exact sound.at_ (isDue ▸ fits) name fn

theorem Sound.every {c : Clock H} (sound : c.Sound) (period : Nat) (name : List Byte)
    (fn : Option H) :
    (c.every period name fn).2.Sound ∧ Rescheduled c (c.every period name fn).2 := by
  unfold Clock.every
  split
  · exact ⟨sound, .refl c⟩
  next positive =>
    cases fn with
    | none => exact ⟨sound, .refl c⟩
    | some fn =>
        dsimp only
        split
        · exact ⟨sound, .refl c⟩
        next due added =>
          obtain ⟨isDue, fits⟩ := add_ok added
          exact sound.schedule name (by omega) (isDue ▸ fits) period fn

theorem Queued.of_takenOut {c c' : Clock H} {ref : EventRef} (queued : c.Queued)
    (taken : TakenOut c c' ref) :
    c'.Queued ∧ c'.icount = c.icount ∧ c'.keys.Subperm c.keys :=
  ⟨(queued.takenOut taken).1, taken.icount,
    (List.sublist_cons_self _ _).subperm.trans taken.keys.subperm⟩

/-- `heap.Remove` takes out at most one event. -/
theorem Queued.removeQueue {c c' : Clock H} (queued : c.Queued) {i : Nat}
    (removed : c.removeQueue i = some c') :
    c'.Queued ∧ c'.icount = c.icount ∧ c'.keys.Subperm c.keys := by
  have inside : i < c.queue.length := by
    by_contra outside
    rw [Clock.removeQueue, if_neg outside] at removed
    cases removed
  obtain ⟨result, taken⟩ :=
    removeQueue_takenOut queued.ordered (List.getElem?_eq_getElem inside)
  rw [result] at removed
  cases removed
  exact queued.of_takenOut taken

theorem Sound.cancel {c c' : Clock H} (sound : c.Sound) {id : Nat} {found : Bool}
    (cancelled : c.cancel id = .ok (found, c')) : c'.Sound ∧ Rescheduled c c' := by
  unfold Clock.cancel at cancelled
  split at cancelled
  · cases cancelled
    exact ⟨sound, .refl c⟩
  next ref isLive =>
    have off : OffQueue c (c.deleteLive id) := ⟨rfl, fun _ _ => rfl⟩
    dsimp only at cancelled
    split at cancelled
    · cases cancelled
      exact ⟨⟨sound.ordered.offQueue off, sound.distinct, sound.events, sound.nextDue,
        sound.fits, sound.waits⟩,
        ⟨rfl, [], by simp, .refl _⟩⟩
    next position _ =>
      split at cancelled
      · cases cancelled
      next removed isRemoved =>
        cases cancelled
        obtain ⟨queued, icount, keys⟩ := (sound.queued.offQueue off).removeQueue isRemoved
        have same := setIndex_core ref none removed
        have queued' : (removed.setIndex ref none).Queued :=
          ⟨queued.ordered.congr rfl same, queued.distinct, fun other member => by
            rw [isSome_congr same]
            exact queued.events other member⟩
        have moved : (removed.setIndex ref none).keys.Perm removed.keys :=
          keys_perm (List.Perm.refl removed.queue) same
        have keys' : (removed.setIndex ref none).keys.Subperm c.keys := moved.subperm.trans keys
        have rescheduled : Rescheduled c (removed.setIndex ref none) :=
          ⟨icount, [], by simp, keys'⟩
        refine ⟨queued'.refreshed (rescheduled.fits sound.fits) (rescheduled.waits sound.waits), ?_⟩
        exact ⟨by simpa using rescheduled.icount, by simpa using rescheduled.keys⟩

/-- A periodic event at the head has a next due instruction. -/
def NextFits (c : Clock H) : Prop :=
  ∀ ev, c.head? = some ev → 0 < ev.period → ev.due + ev.period < countLimit

/-- One turn of the loop in `fireDue`: the event with the least key fires at its
due instruction; a one-shot is gone, and a periodic event is due one period
later. -/
theorem Sound.fireNext {c : Clock H} (sound : c.Sound) (nonempty : 0 < c.queue.length)
    (fits : c.NextFits) :
    ∃ ev c' rest added, c.fireNext = some (ev, .ok (), c') ∧ c'.Sound ∧ c'.icount = c.nextDue ∧
      ev.due = c.nextDue ∧ ((ev.due, ev.seq) :: rest).Perm c.keys ∧ c'.keys.Perm (added ++ rest) ∧
      (∀ key ∈ added, c'.icount < key.1) ∧
      ∀ key ∈ c.keys, toLex (ev.due, ev.seq) ≤ toLex key := by
  have head : c.queue[0]? = some c.queue[0] := List.getElem?_eq_getElem nonempty
  set ref := c.queue[0] with isRef
  obtain ⟨popped, taken⟩ := popQueue_takenOut sound.ordered head
  set c₁ := (heap.popSift c).dropLast with isC₁
  obtain ⟨queued₁, notQueued⟩ := sound.queued.takenOut taken
  obtain ⟨ev, isEv⟩ : ∃ ev, c₁.event? ref = some ev := by
    rw [← Option.isSome_iff_exists, isSome_congr taken.events]
    exact sound.events ref (List.mem_of_getElem? head)
  have key : c.keyOf ref = (ev.due, ev.seq) := by
    rw [← keyOf_congr taken.events, keyOf_of_event isEv]
  have isDue : ev.due = c.nextDue := by
    rw [sound.nextDue_eq head, key]
  have least : ∀ key ∈ c.keys, toLex (ev.due, ev.seq) ≤ toLex key := by
    intro other member
    rw [← key]
    exact sound.head_le head member
  have rest : ((ev.due, ev.seq) :: c₁.keys).Perm c.keys := key ▸ taken.keys
  -- Whatever is left is due no earlier than the event that fires.
  have waits : ∀ key ∈ c₁.keys, ev.due ≤ key.1 := by
    intro other member
    have queuedBefore := rest.subset (List.mem_cons_of_mem _ member)
    exact (Prod.Lex.toLex_le_toLex'.mp (least other queuedBefore)).1
  have restFits : ∀ key ∈ c₁.keys, key.1 < countLimit := fun key member =>
    sound.fits key (rest.subset (List.mem_cons_of_mem _ member))
  have offFired : OffQueue c₁ ({ c₁.setIndex ref none with icount := ev.due } : Clock H) := by
    have off := offQueue_modifyEvent notQueued fun ev => { ev with index := none }
    exact ⟨off.queue, off.events⟩
  rcases Nat.eq_zero_or_pos ev.period with oneShot | periodic
  · have result : c.fireNext = some (ev, .ok (),
        (({ c₁.setIndex ref none with icount := ev.due } : Clock H).deleteLive
          ev.id).refreshNextDue) := by
      simp [Clock.fireNext, popped, isEv, oneShot]
    set fired : Clock H :=
      ({ c₁.setIndex ref none with icount := ev.due } : Clock H).deleteLive ev.id with isFired
    have off : OffQueue c₁ fired := ⟨rfl, offFired.events⟩
    have sound' : fired.refreshNextDue.Sound := by
      apply (queued₁.offQueue off).refreshed
      · rw [off.keys]
        exact restFits
      · rw [off.keys]
        exact waits
    refine ⟨ev, _, c₁.keys, [], result, sound', ?_, isDue, rest, ?_, by simp, least⟩
    · rw [refreshNextDue_icount, ← isDue]
      rfl
    · rw [refreshNextDue_keys, off.keys]
      exact .refl _
  · have evFits : ev.due + ev.period < countLimit := by
      obtain ⟨headEvent, isHead⟩ := Option.isSome_iff_exists.mp
        (sound.events ref (List.mem_of_getElem? head))
      have cores := event?_core_of_events taken.events ref
      rw [isEv, isHead, Option.map_some, Option.map_some, Option.some.injEq] at cores
      have sameDue := congrArg Event.due cores
      have samePeriod := congrArg Event.period cores
      simp only [Event.core] at sameDue samePeriod
      rw [sameDue, samePeriod]
      refine fits headEvent (by simp [head?, List.head?_eq_getElem?, head, isHead]) ?_
      rwa [← samePeriod]
    set next := ev.due + ev.period with isNext
    set moved : Clock H := ({ c₁.setIndex ref none with icount := ev.due } : Clock H).modifyEvent
      ref (fun ev => { ev with due := next }) with isMoved
    have result : c.fireNext = some (ev, .ok (), (moved.pushQueue ref).refreshNextDue) := by
      have added : Clock.add ev.due ev.period = .ok next := if_pos evFits
      simp [Clock.fireNext, popped, isEv, periodic, added, isMoved]
    have off : OffQueue c₁ moved :=
      ⟨rfl, fun other member => ((offQueue_modifyEvent (c := c₁.setIndex ref none) notQueued
        fun ev => { ev with due := next }).events other member).trans
          (offFired.events other member)⟩
    have isEvent : moved.event? ref = some { ev with index := none, due := next } := by
      have first := event?_setIndex_self ref none c₁
      rw [isEv] at first
      rw [isMoved, event?_modifyEvent, if_pos rfl]
      change ((c₁.setIndex ref none).event? ref).map _ = _
      rw [first]
      rfl
    obtain ⟨queued, keys⟩ := (queued₁.offQueue off).push notQueued
      (by rw [isEvent]; rfl)
    rw [keyOf_of_event isEvent, off.keys] at keys
    have icount : (moved.pushQueue ref).icount = ev.due :=
      (pushQueue_shuffled moved ref).icount
    have sound' : (moved.pushQueue ref).refreshNextDue.Sound := by
      apply queued.refreshed
      · intro key member
        rcases List.mem_cons.mp (keys.subset member) with rfl | before
        · exact evFits
        · exact restFits key before
      · intro key member
        rw [icount]
        rcases List.mem_cons.mp (keys.subset member) with rfl | before
        · exact Nat.le_add_right _ _
        · exact waits key before
    refine ⟨ev, _, c₁.keys, [(next, ev.seq)], result, sound', ?_, isDue, rest, ?_, ?_, least⟩
    · rw [refreshNextDue_icount, icount, isDue]
    · rw [refreshNextDue_keys]
      exact keys
    · intro key member
      rw [List.mem_singleton.mp member, refreshNextDue_icount, icount]
      omega

theorem Sound.withIcount {c : Clock H} (sound : c.Sound) {icount : Nat}
    (waits : ∀ key ∈ c.keys, icount ≤ key.1) : Sound { c with icount } :=
  ⟨sound.ordered.offQueue ⟨rfl, fun _ _ => rfl⟩, sound.distinct, sound.events, sound.nextDue,
    sound.fits, waits⟩

/-- The count `fireDue` ends with. -/
theorem Sound.finish {c : Clock H} (sound : c.Sound) {target : Nat}
    (done : c.fireReady target = false) : Steady { c with icount := target } := by
  have later : ∀ key ∈ c.keys, target < key.1 := by
    intro key member
    have nonempty : 0 < c.queue.length := by
      obtain ⟨ref, queued, _⟩ := List.mem_map.mp member
      exact List.length_pos_of_mem queued
    have notReady : ¬ c.nextDue ≤ target := by
      simpa [fireReady, nonempty] using done
    exact lt_of_lt_of_le (not_le.mp notReady) (sound.nextDue_le member)
  exact { sound.withIcount fun key member => (later key member).le with later }

/-- A schedule that is restored is due later. -/
theorem install_steady (c : Clock H) {decoded : Restored H}
    (later : ∀ ev ∈ decoded.events, decoded.icount < ev.due)
    (fits : ∀ ev ∈ decoded.events, ev.due < countLimit) :
    ((c.install decoded).refreshNextDue).Steady ∧
      ((c.install decoded).refreshNextDue).icount = decoded.icount := by
  set base := c.uninitialised decoded with isBase
  have shuffled : Shuffled base (heap.init base) :=
    (shuffled_closed (c := base) le_rfl).initFrom _ (.refl base)
  have decodedEvent : ∀ ref ∈ base.queue, ∃ ev ∈ decoded.events, base.event? ref = some ev := by
    intro ref member
    obtain ⟨k, inside, rfl⟩ := List.mem_map.mp member
    rw [List.mem_range] at inside
    exact ⟨decoded.events[k], List.getElem_mem inside, by
      rw [isBase, uninitialised_event?, List.getElem?_eq_getElem inside]⟩
  have queued : (heap.init base).Queued := by
    refine ⟨?_, ?_, ?_⟩
    · have ordered := KeyedHeap.init_ordered (h := keyedHeap) base
      rw [QueueOrdered, shuffled.queue.length_eq]
      exact ordered
    · exact shuffled.queue.nodup_iff.mpr (c.newRefs_nodup decoded.events.length)
    · intro ref member
      obtain ⟨ev, _, found⟩ := decodedEvent ref (shuffled.queue.mem_iff.mp member)
      rw [isSome_congr shuffled.events, found]
      rfl
  have icount : (heap.init base).icount = decoded.icount := shuffled.icount
  have isDecoded : ∀ key ∈ (heap.init base).keys, ∃ ev ∈ decoded.events, key = (ev.due, ev.seq) := by
    intro key member
    obtain ⟨ref, isRef, rfl⟩ :=
      List.mem_map.mp ((keys_perm shuffled.queue shuffled.events).mem_iff.mp member)
    obtain ⟨ev, isDecoded, found⟩ := decodedEvent ref isRef
    exact ⟨ev, isDecoded, keyOf_of_event found⟩
  have keysFit : ∀ key ∈ (heap.init base).keys, key.1 < countLimit := by
    intro key member
    obtain ⟨ev, isEvent, rfl⟩ := isDecoded key member
    exact fits ev isEvent
  have keysLater : ∀ key ∈ (heap.init base).keys, (heap.init base).icount < key.1 := by
    intro key member
    obtain ⟨ev, isEvent, rfl⟩ := isDecoded key member
    rw [icount]
    exact later ev isEvent
  rw [install_eq]
  refine ⟨?_, (refreshNextDue_icount _).trans icount⟩
  refine { queued.refreshed keysFit fun key member => (keysLater key member).le with later := ?_ }
  intro key member
  rw [refreshNextDue_keys] at member
  rw [refreshNextDue_icount]
  exact keysLater key member

theorem Steady.of_restore {c c' : Clock H} {blob : List Byte} {handlers : List Byte → Option H}
    (restored : c.restore blob handlers = .ok c') : c'.Steady ∧ c'.icount < countLimit := by
  obtain ⟨decoded, _, rfl, icountFits, due⟩ := restore_installed restored
  obtain ⟨steady, icount⟩ := c.install_steady (fun ev member => (due ev member).1)
    fun ev member => (due ev member).2
  exact ⟨steady, icount ▸ icountFits⟩

theorem Steady.of_empty {c : Clock H} (empty : c.queue = []) (nextDue : c.nextDue = noneDue) :
    c.Steady := by
  have noKeys : c.keys = [] := by simp [keys, empty]
  exact {
    ordered := fun k _ bound => by simp [empty] at bound
    distinct := by simp [empty]
    events := by simp [empty]
    nextDue := by simp [nextDue, headDue, empty]
    fits := by simp [noKeys]
    waits := by simp [noKeys]
    later := by simp [noKeys] }

end Clock

end GoRetroTv
