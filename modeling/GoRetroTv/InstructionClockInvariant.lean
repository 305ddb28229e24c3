import GoRetroTv.InstructionClockQueue

/-!
# What each clock operation does to the schedule

`Consistent` is the agreement of the clock's four views of its schedule: the
heap, the positions stored in the events, the map of live events and the cached
next due instruction.  `Numbered` bounds the counts.  For each operation one
lemma says that it keeps both and what it does to the pending events.
-/

namespace GoRetroTv

/-- One event's numbers, against the clock's counters. -/
structure Event.Numbered {H : Type} (ev : Event H) (nextID : Nat) : Prop where
  id_eq : ev.id = ev.seq + 1
  seq_lt : ev.seq < nextID
  due_lt : ev.due < countLimit
  period_lt : ev.period < countLimit

namespace Clock

variable {H : Type}

/-- The event behind a pointer, up to its recorded position. -/
def coreAt (c : Clock H) (ref : EventRef) : Option (Event H) :=
  (c.event? ref).map Event.core

/-- The event is in the queue. -/
def Pending (c : Clock H) (ev : Event H) : Prop :=
  ∃ ref ∈ c.queue, c.coreAt ref = some ev

/-- What `refreshNextDue` computes. -/
def headDue (c : Clock H) : Nat :=
  match (c.queue.head?).bind c.event? with
  | some ev => ev.due
  | none => noneDue

/-- The agreement of the queue, the stored positions, the live map and the
cached next due instruction. -/
structure Consistent (c : Clock H) : Prop where
  indexed : c.Indexed
  ordered : c.QueueOrdered
  live : ∀ id ref, (id, ref) ∈ c.live ↔ ref ∈ c.queue ∧ (c.coreAt ref).map (·.id) = some id
  liveIds : (c.live.map Prod.fst).Nodup
  nextDue : c.nextDue = c.headDue

structure Numbered (c : Clock H) : Prop where
  icount_lt : c.icount < countLimit
  nextSeq_eq : c.nextSeq = c.nextID
  nextID_lt : c.nextID < countLimit
  events : ∀ ev, c.Pending ev → ev.Numbered c.nextID

structure Valid (c : Clock H) : Prop where
  consistent : c.Consistent
  numbered : c.Numbered

theorem Indexed.isEvent {c : Clock H} (indexed : c.Indexed) {ref : EventRef}
    (member : ref ∈ c.queue) :
    ∃ ev, c.event? ref = some ev := by
  obtain ⟨i, atI⟩ := List.mem_iff_getElem?.mp member
  have recorded := indexed i ref atI
  cases found : c.event? ref with
  | none => simp [found] at recorded
  | some ev => exact ⟨ev, rfl⟩

theorem coreAt_eq_some {c : Clock H} {ref : EventRef} {ev : Event H}
    (found : c.event? ref = some ev) :
    c.coreAt ref = some ev.core := by
  simp [coreAt, found]

theorem Consistent.ref_unique {c : Clock H} (consistent : c.Consistent) {first second : EventRef}
    {id : Nat} (firstMember : first ∈ c.queue) (secondMember : second ∈ c.queue)
    (firstId : (c.coreAt first).map (·.id) = some id)
    (secondId : (c.coreAt second).map (·.id) = some id) :
    first = second := by
  have firstLive := (consistent.live id first).mpr ⟨firstMember, firstId⟩
  have secondLive := (consistent.live id second).mpr ⟨secondMember, secondId⟩
  have same := List.inj_on_of_nodup_map consistent.liveIds firstLive secondLive rfl
  exact congrArg Prod.snd same

theorem Consistent.pending_unique {c : Clock H} (consistent : c.Consistent)
    {first second : Event H} (firstPending : c.Pending first) (secondPending : c.Pending second)
    (sameId : first.id = second.id) :
    first = second := by
  obtain ⟨firstRef, firstMember, isFirst⟩ := firstPending
  obtain ⟨secondRef, secondMember, isSecond⟩ := secondPending
  have same := consistent.ref_unique firstMember secondMember
    (show (c.coreAt firstRef).map (·.id) = some first.id by simp [isFirst])
    (by simp [isSecond, sameId])
  subst same
  rw [isFirst] at isSecond
  exact Option.some.inj isSecond

theorem lookup_eq_some_iff_mem {live : List (Nat × EventRef)}
    (nodup : (live.map Prod.fst).Nodup) (id : Nat) (ref : EventRef) :
    live.lookup id = some ref ↔ (id, ref) ∈ live := by
  induction live with
  | nil => simp
  | cons entry live ih =>
      obtain ⟨other, otherRef⟩ := entry
      simp only [List.map_cons, List.nodup_cons] at nodup
      rw [List.lookup_cons]
      by_cases same : id = other
      · subst same
        have notLater : (id, ref) ∉ live := fun later =>
          nodup.1 (List.mem_map_of_mem later)
        simp [notLater, eq_comm]
      · have notEqual : (id == other) = false := by simpa using same
        simp [notEqual, same, ih nodup.2]

theorem Consistent.lookup_eq_some {c : Clock H} (consistent : c.Consistent) {id : Nat}
    {ref : EventRef} :
    c.live.lookup id = some ref ↔ ref ∈ c.queue ∧ (c.coreAt ref).map (·.id) = some id :=
  (lookup_eq_some_iff_mem consistent.liveIds id ref).trans (consistent.live id ref)

/-- The queue and the events in it are the same. -/
structure OffQueue (c c' : Clock H) : Prop where
  queue : c'.queue = c.queue
  events : ∀ ref ∈ c.queue, c'.event? ref = c.event? ref

theorem Indexed.offQueue {c c' : Clock H} (indexed : c.Indexed) (off : OffQueue c c') :
    c'.Indexed := by
  intro i ref atI
  rw [off.queue] at atI
  rw [off.events ref (List.mem_of_getElem? atI)]
  exact indexed i ref atI

theorem OffQueue.dueSeq {c c' : Clock H} (off : OffQueue c c') (position : Nat) :
    c'.dueSeq position = c.dueSeq position := by
  rw [Clock.dueSeq, Clock.dueSeq, off.queue]
  cases at_ : c.queue[position]? with
  | none => rfl
  | some ref => simp [off.events ref (List.mem_of_getElem? at_)]

theorem QueueOrdered.offQueue {c c' : Clock H} (ordered : c.QueueOrdered)
    (off : OffQueue c c') :
    c'.QueueOrdered := by
  intro k positive bound
  change toLex (c'.dueSeq _) ≤ toLex (c'.dueSeq k)
  rw [off.dueSeq, off.dueSeq]
  exact ordered k positive (off.queue ▸ bound)

theorem OffQueue.pending {c c' : Clock H} (off : OffQueue c c') (ev : Event H) :
    c'.Pending ev ↔ c.Pending ev := by
  simp only [Pending, off.queue, coreAt]
  constructor
  · rintro ⟨ref, member, found⟩
    exact ⟨ref, member, by rwa [← off.events ref member]⟩
  · rintro ⟨ref, member, found⟩
    exact ⟨ref, member, by rwa [off.events ref member]⟩

theorem offQueue_modifyEvent {c : Clock H} {ref : EventRef} (notQueued : ref ∉ c.queue)
    (change : Event H → Event H) :
    OffQueue c (c.modifyEvent ref change) where
  queue := rfl
  events := by
    intro other member
    have ne : ref ≠ other := by
      rintro rfl
      exact notQueued member
    simp [event?_modifyEvent, ne]

theorem refreshNextDue_eq (c : Clock H) :
    c.refreshNextDue = { c with nextDue := c.headDue } := by
  unfold refreshNextDue headDue
  cases (c.queue.head?).bind c.event? <;> rfl

/-- The head of the queue is due no later than any pending event. -/
theorem Consistent.headDue_le {c : Clock H} (consistent : c.Consistent) {ev : Event H}
    (pending : c.Pending ev) :
    c.nextDue ≤ ev.due := by
  obtain ⟨ref, member, found⟩ := pending
  obtain ⟨i, atI⟩ := List.mem_iff_getElem?.mp member
  have bound := (List.getElem?_eq_some_iff.mp atI).1
  have least := consistent.ordered.root_le bound
  change toLex (c.dueSeq 0) ≤ toLex (c.dueSeq i) at least
  have headFirst : (c.dueSeq 0).1 = c.nextDue := by
    rw [consistent.nextDue, headDue, dueSeq, List.head?_eq_getElem?]
    obtain ⟨headRef, isHead⟩ : ∃ headRef, c.queue[0]? = some headRef :=
      ⟨_, List.getElem?_eq_getElem (by omega)⟩
    obtain ⟨head, isEvent⟩ := consistent.indexed.isEvent (List.mem_of_getElem? isHead)
    simp [isHead, isEvent]
  have itsDue : (c.dueSeq i).1 = ev.due := by
    obtain ⟨event, isEvent⟩ := consistent.indexed.isEvent member
    rw [coreAt_eq_some isEvent, Option.some.injEq] at found
    simp [dueSeq, atI, isEvent, ← found, Event.core]
  rw [← headFirst, ← itsDue]
  exact (Prod.Lex.toLex_le_toLex'.mp least).1

theorem Removed.coreAt {c c' : Clock H} {ref : EventRef} (removed : Removed c c' ref)
    (other : EventRef) :
    c'.coreAt other = c.coreAt other :=
  event?_core_of_events removed.events other

theorem Removed.not_mem {c c' : Clock H} {ref : EventRef} (removed : Removed c c' ref)
    (nodup : c.queue.Nodup) :
    ref ∉ c'.queue :=
  (List.nodup_cons.mp (removed.queue.nodup_iff.mpr nodup)).1

theorem Removed.mem_iff {c c' : Clock H} {ref : EventRef} (removed : Removed c c' ref)
    (nodup : c.queue.Nodup) (other : EventRef) :
    other ∈ c'.queue ↔ other ∈ c.queue ∧ other ≠ ref := by
  have notMem := removed.not_mem nodup
  rw [← removed.queue.mem_iff, List.mem_cons]
  constructor
  · intro member
    exact ⟨.inr member, fun same => notMem (same ▸ member)⟩
  · rintro ⟨same | member, ne⟩
    · exact absurd same ne
    · exact member

/-- Out of the queue and out of the live map. -/
theorem Consistent.of_removed {c c₁ : Clock H} {ref : EventRef} {ev : Event H}
    (consistent : c.Consistent) (c' : Clock H) (found : c.coreAt ref = some ev) (member : ref ∈ c.queue)
    (removed : Removed c c₁ ref) (off : OffQueue c₁ c')
    (live : c'.live = c.live.filter fun entry => entry.1 ≠ ev.id)
    (nextDue : c'.nextDue = c'.headDue) :
    c'.Consistent ∧ ∀ other, c'.Pending other ↔ c.Pending other ∧ other.id ≠ ev.id := by
  have nodup := consistent.indexed.nodup
  have coreEq : ∀ other ∈ c'.queue, c'.coreAt other = c.coreAt other := by
    intro other otherMember
    rw [off.queue] at otherMember
    rw [← removed.coreAt, Clock.coreAt, off.events other otherMember, Clock.coreAt]
  have idNe : ∀ other ∈ c.queue, ∀ id, (c.coreAt other).map (·.id) = some id →
      (other ≠ ref ↔ id ≠ ev.id) := by
    intro other otherMember id hasId
    constructor
    · rintro ne rfl
      exact ne (consistent.ref_unique otherMember member hasId (by simp [found]))
    · rintro idNe rfl
      simp only [found, Option.map_some, Option.some.injEq] at hasId
      exact idNe hasId.symm
  constructor
  · exact {
      indexed := removed.indexed.offQueue off
      ordered := removed.ordered.offQueue off
      live := by
        intro id other
        rw [live, List.mem_filter, consistent.live, off.queue, removed.mem_iff nodup]
        constructor
        · rintro ⟨⟨otherMember, hasId⟩, ne⟩
          have other_ne := (idNe other otherMember id hasId).mpr (by simpa using ne)
          refine ⟨⟨otherMember, other_ne⟩, ?_⟩
          rwa [coreEq other (by
            rw [off.queue]
            exact (removed.mem_iff nodup other).mpr ⟨otherMember, other_ne⟩)]
        · rintro ⟨⟨otherMember, other_ne⟩, hasId⟩
          rw [coreEq other (by
            rw [off.queue]
            exact (removed.mem_iff nodup other).mpr ⟨otherMember, other_ne⟩)] at hasId
          exact ⟨⟨otherMember, hasId⟩, by simpa using (idNe other otherMember id hasId).mp other_ne⟩
      liveIds := by
        rw [live]
        exact (List.filter_sublist.map Prod.fst).nodup consistent.liveIds
      nextDue }
  · intro other
    constructor
    · rintro ⟨otherRef, otherMember, isOther⟩
      rw [coreEq otherRef otherMember] at isOther
      rw [off.queue, removed.mem_iff nodup] at otherMember
      exact ⟨⟨otherRef, otherMember.1, isOther⟩,
        (idNe otherRef otherMember.1 other.id (by simp [isOther])).mp otherMember.2⟩
    · rintro ⟨⟨otherRef, otherMember, isOther⟩, ne⟩
      have other_ne := (idNe otherRef otherMember other.id (by simp [isOther])).mpr ne
      have member' : otherRef ∈ c'.queue := by
        rw [off.queue]
        exact (removed.mem_iff nodup otherRef).mpr ⟨otherMember, other_ne⟩
      exact ⟨otherRef, member', by rw [coreEq otherRef member', isOther]⟩

theorem Numbered.of_pending {c c' : Clock H} (numbered : c.Numbered)
    (icount : c'.icount < countLimit) (nextID : c'.nextID = c.nextID)
    (nextSeq : c'.nextSeq = c.nextSeq) (pending : ∀ ev, c'.Pending ev → c.Pending ev) :
    c'.Numbered where
  icount_lt := icount
  nextSeq_eq := by rw [nextSeq, nextID, numbered.nextSeq_eq]
  nextID_lt := nextID ▸ numbered.nextID_lt
  events := by
    intro ev isPending
    rw [nextID]
    exact numbered.events ev (pending ev isPending)

/-- An id that no live entry has is no pending event's. -/
theorem Consistent.unscheduled {c : Clock H} (consistent : c.Consistent) {id : Nat}
    (absent : c.live.lookup id = none) : ∀ ev, c.Pending ev → ev.id ≠ id := by
  rintro ev ⟨ref, member, isEv⟩ rfl
  have live := consistent.lookup_eq_some.mpr ⟨member, by rw [isEv]; rfl⟩
  rw [absent] at live
  cases live

/-- `Cancel` takes out the event with the given id and no other. -/
theorem Valid.cancel {c : Clock H} (valid : c.Valid) (id : Nat) :
    ∃ found c', c.cancel id = .ok (found, c') ∧ c'.Valid ∧
      (found = true ↔ ∃ ev, c.Pending ev ∧ ev.id = id) ∧
      (∀ ev, c'.Pending ev ↔ c.Pending ev ∧ ev.id ≠ id) ∧
      c'.icount = c.icount ∧ c'.nextID = c.nextID := by
  obtain ⟨consistent, numbered⟩ := valid
  cases found : c.live.lookup id with
  | none =>
      have unscheduled := consistent.unscheduled found
      refine ⟨false, c, by simp only [Clock.cancel, found], ⟨consistent, numbered⟩, ?_,
        fun ev => ?_, rfl, rfl⟩
      · constructor
        · intro impossible
          cases impossible
        · rintro ⟨ev, pending, same⟩
          exact absurd same (unscheduled ev pending)
      · exact ⟨fun pending => ⟨pending, unscheduled ev pending⟩, fun both => both.1⟩
  | some ref =>
      obtain ⟨member, hasId⟩ := consistent.lookup_eq_some.mp found
      obtain ⟨ev, isEv⟩ : ∃ ev, c.coreAt ref = some ev := by
        cases core : c.coreAt ref with
        | none => simp [core] at hasId
        | some ev => exact ⟨ev, rfl⟩
      have sameId : ev.id = id := by simpa [isEv] using hasId
      obtain ⟨i, atI⟩ := List.mem_iff_getElem?.mp member
      have position := consistent.indexed i ref atI
      have offDelete : OffQueue c (c.deleteLive id) := ⟨rfl, fun _ _ => rfl⟩
      obtain ⟨c₁, isC₁, removed⟩ := removeQueue_removed (consistent.indexed.offQueue offDelete)
        (consistent.ordered.offQueue offDelete) atI
      have removed' : Removed c { c₁ with live := c.live } ref :=
        { icount := removed.icount, nextDue := removed.nextDue, live := rfl
          nextID := removed.nextID, nextSeq := removed.nextSeq, queue := removed.queue
          events := removed.events
          indexed := removed.indexed.offQueue ⟨rfl, fun _ _ => rfl⟩
          ordered := removed.ordered.offQueue ⟨rfl, fun _ _ => rfl⟩ }
      have result : c.cancel id = .ok (true, (c₁.setIndex ref none).refreshNextDue) := by
        have position' : ((c.deleteLive id).event? ref).bind (·.index) = some i := position
        simp only [Clock.cancel, found, position', isC₁]
      have offQueue : OffQueue { c₁ with live := c.live } (c₁.setIndex ref none).refreshNextDue := by
        rw [refreshNextDue_eq]
        have off := offQueue_modifyEvent (c := c₁)
          (removed'.not_mem consistent.indexed.nodup) fun ev => { ev with index := none }
        exact ⟨off.queue, off.events⟩
      obtain ⟨consistent', pending⟩ := consistent.of_removed _ isEv member removed' offQueue
        (by rw [refreshNextDue_eq, sameId]; exact removed.live)
        (by rw [refreshNextDue_eq]; rfl)
      refine ⟨_, _, result, ⟨consistent', ?_⟩, ?_, ?_, ?_, ?_⟩
      · refine numbered.of_pending ?_ ?_ ?_ fun ev isPending => ((pending ev).mp isPending).1
        · rw [refreshNextDue_eq]
          exact removed.icount ▸ numbered.icount_lt
        · rw [refreshNextDue_eq]
          exact removed.nextID
        · rw [refreshNextDue_eq]
          exact removed.nextSeq
      · exact ⟨fun _ => ⟨ev, ⟨ref, member, isEv⟩, sameId⟩, fun _ => rfl⟩
      · rwa [sameId] at pending
      · rw [refreshNextDue_eq]
        exact removed.icount
      · rw [refreshNextDue_eq]
        exact removed.nextID

/-- A new event in the queue and in the live map. -/
theorem Consistent.of_pushed {c : Clock H} (consistent : c.Consistent) (c' : Clock H)
    (ref : EventRef) (ev : Event H)
    (unusedId : ∀ other, c.Pending other → other.id ≠ ev.id)
    (found : c'.coreAt ref = some ev) (kept : ∀ other ∈ c.queue, c'.coreAt other = c.coreAt other)
    (queue : c'.queue.Perm (c.queue ++ [ref])) (indexed : c'.Indexed) (ordered : c'.QueueOrdered)
    (live : ∀ entry, entry ∈ c'.live ↔
      entry = (ev.id, ref) ∨ entry ∈ c.live ∧ entry.1 ≠ ev.id)
    (liveIds : (c'.live.map Prod.fst).Nodup) (nextDue : c'.nextDue = c'.headDue) :
    c'.Consistent ∧ ∀ other, c'.Pending other ↔ c.Pending other ∨ other = ev := by
  have idNe : ∀ other ∈ c.queue, ∀ id, (c.coreAt other).map (·.id) = some id → id ≠ ev.id := by
    rintro other otherMember id hasId rfl
    cases core : c.coreAt other with
    | none => simp [core] at hasId
    | some event =>
        refine unusedId event ⟨other, otherMember, core⟩ ?_
        simpa [core] using hasId
  have mem : ∀ other, other ∈ c'.queue ↔ other ∈ c.queue ∨ other = ref := by
    intro other
    rw [queue.mem_iff, List.mem_append, List.mem_singleton]
  constructor
  · refine { indexed, ordered, liveIds, nextDue, live := ?_ }
    intro id other
    rw [live, consistent.live, mem, Prod.mk.injEq]
    constructor
    · rintro (⟨rfl, rfl⟩ | ⟨⟨otherMember, hasId⟩, _⟩)
      · exact ⟨.inr rfl, by simp [found]⟩
      · exact ⟨.inl otherMember, by rwa [kept other otherMember]⟩
    · rintro ⟨otherMember | rfl, hasId⟩
      · rw [kept other otherMember] at hasId
        exact .inr ⟨⟨otherMember, hasId⟩, idNe other otherMember id hasId⟩
      · simp only [found, Option.map_some, Option.some.injEq] at hasId
        exact .inl ⟨hasId.symm, rfl⟩
  · intro other
    constructor
    · rintro ⟨otherRef, otherMember, isOther⟩
      rcases (mem otherRef).mp otherMember with old | rfl
      · exact .inl ⟨otherRef, old, by rwa [← kept otherRef old]⟩
      · rw [found, Option.some.injEq] at isOther
        exact .inr isOther.symm
    · rintro (⟨otherRef, otherMember, isOther⟩ | rfl)
      · exact ⟨otherRef, (mem otherRef).mpr (.inl otherMember), by rwa [kept otherRef otherMember]⟩
      · exact ⟨ref, (mem ref).mpr (.inr rfl), found⟩

/-- The event `schedule` makes, up to its position. -/
def scheduled (c : Clock H) (name : List Byte) (due period : Nat) (fn : H) : Event H :=
  { id := c.nextID + 1, name, due, period, seq := c.nextID, fn, index := none }

/-- `schedule` adds one event under the next id. -/
theorem Valid.schedule {c : Clock H} (valid : c.Valid) (fits : c.nextID + 1 < countLimit)
    (name : List Byte) {due period : Nat} (dueFits : due < countLimit)
    (periodFits : period < countLimit) (fn : H) :
    (c.schedule name due period fn).2.Valid ∧
      (c.schedule name due period fn).1 = c.nextID + 1 ∧
      (∀ ev, (c.schedule name due period fn).2.Pending ev ↔
        c.Pending ev ∨ ev = c.scheduled name due period fn) ∧
      (c.schedule name due period fn).2.icount = c.icount ∧
      (c.schedule name due period fn).2.nextID = c.nextID + 1 := by
  obtain ⟨consistent, numbered⟩ := valid
  have nextID : wrapAdd c.nextID 1 = c.nextID + 1 := wrapAdd_of_lt fits
  set ev : Event H :=
    { id := c.nextID + 1, name, due, period, seq := c.nextID, fn, index := some 0 } with isEv
  set ref := c.events.length with isRef
  set added : Clock H :=
    { c with
      nextID := c.nextID + 1
      nextSeq := c.nextID + 1
      events := c.events ++ [ev]
      live := (ev.id, ref) :: c.live.filter fun entry => entry.1 ≠ ev.id } with isAdded
  have result : c.schedule name due period fn =
      (c.nextID + 1, (added.pushQueue ref).refreshNextDue) := by
    simp only [Clock.schedule, setLive, nextID, isAdded, isEv, isRef, numbered.nextSeq_eq]
  have old : ∀ other ∈ c.queue, added.event? other = c.event? other := by
    intro other member
    obtain ⟨event, isEvent⟩ := consistent.indexed.isEvent member
    have bound := (List.getElem?_eq_some_iff.mp isEvent).1
    simp [isAdded, event?, List.getElem?_append_left bound]
  have offAdded : OffQueue c added := ⟨rfl, old⟩
  have isNew : added.event? ref = some ev := by
    simp [isAdded, event?, isRef]
  have fresh : ref ∉ c.queue := by
    intro member
    obtain ⟨event, isEvent⟩ := consistent.indexed.isEvent member
    have bound := (List.getElem?_eq_some_iff.mp isEvent).1
    omega
  obtain ⟨shuffled, indexed, ordered⟩ := pushQueue_spec (consistent.indexed.offQueue offAdded)
    (consistent.ordered.offQueue offAdded) fresh (by rw [isNew]; rfl)
  have coreEq : ∀ other, (added.pushQueue ref).coreAt other = added.coreAt other :=
    event?_core_of_events shuffled.events
  have unusedId : ∀ other, c.Pending other → other.id ≠ ev.core.id := by
    intro other pending same
    have numbers := numbered.events other pending
    have := numbers.id_eq
    have := numbers.seq_lt
    change other.id = c.nextID + 1 at same
    omega
  have live : (added.pushQueue ref).live =
      (ev.id, ref) :: c.live.filter fun entry => entry.1 ≠ ev.id :=
    shuffled.live
  obtain ⟨consistent', pending⟩ := consistent.of_pushed
    ((added.pushQueue ref).refreshNextDue) ref ev.core unusedId
    (by rw [refreshNextDue_eq]; exact (coreEq ref).trans (coreAt_eq_some isNew))
    (by
      intro other member
      rw [refreshNextDue_eq]
      refine (coreEq other).trans ?_
      rw [coreAt, old other member, coreAt])
    (by rw [refreshNextDue_eq]; exact shuffled.queue)
    (by rw [refreshNextDue_eq]; exact indexed.offQueue ⟨rfl, fun _ _ => rfl⟩)
    (by rw [refreshNextDue_eq]; exact ordered.offQueue ⟨rfl, fun _ _ => rfl⟩)
    (by
      intro entry
      rw [refreshNextDue_eq]
      change entry ∈ (added.pushQueue ref).live ↔ _
      simp [live, Event.core])
    (by
      rw [refreshNextDue_eq]
      change ((added.pushQueue ref).live.map Prod.fst).Nodup
      rw [live, List.map_cons, List.nodup_cons]
      refine ⟨by simp, (List.filter_sublist.map Prod.fst).nodup consistent.liveIds⟩)
    (by rw [refreshNextDue_eq]; rfl)
  have icount' : (added.pushQueue ref).refreshNextDue.icount = c.icount := by
    rw [refreshNextDue_eq]
    exact shuffled.icount
  have nextID' : (added.pushQueue ref).refreshNextDue.nextID = c.nextID + 1 := by
    rw [refreshNextDue_eq]
    exact shuffled.nextID
  rw [result]
  refine ⟨⟨consistent', ?_⟩, rfl, pending, icount', nextID'⟩
  exact {
    icount_lt := icount' ▸ numbered.icount_lt
    nextSeq_eq := by
      rw [nextID', refreshNextDue_eq]
      exact shuffled.nextSeq
    nextID_lt := nextID' ▸ fits
    events := by
      intro other isPending
      rw [nextID']
      rcases (pending other).mp isPending with before | rfl
      · have numbers := numbered.events other before
        exact ⟨numbers.id_eq, Nat.lt_succ_of_lt numbers.seq_lt, numbers.due_lt, numbers.period_lt⟩
      · exact ⟨rfl, Nat.lt_succ_self _, dueFits, periodFits⟩ }

/-- The event at the head of the queue. -/
def head? (c : Clock H) : Option (Event H) :=
  (c.queue.head?).bind c.event?

/-- The next due instruction of the event at the head does not wrap. -/
def HeadFits (c : Clock H) : Prop :=
  ∀ ev, c.head? = some ev → ev.due + ev.period < countLimit

/-- The event taken off the head fires at its own due instruction, the earliest
of all.  A one-shot is gone; a periodic event is due one period later. -/
theorem Valid.fireNext {c : Clock H} (valid : c.Valid) (nonempty : 0 < c.queue.length)
    (fits : c.HeadFits) :
    ∃ ev c', c.fireNext = some (ev, .ok (), c') ∧ c'.Valid ∧ c.Pending ev.core ∧
      ev.due = c.nextDue ∧ c'.icount = ev.due ∧ c'.nextID = c.nextID ∧
      ∀ other, c'.Pending other ↔ (c.Pending other ∧ other.id ≠ ev.id) ∨
        (0 < ev.period ∧ other = { ev.core with due := ev.due + ev.period }) := by
  obtain ⟨consistent, numbered⟩ := valid
  have nodup := consistent.indexed.nodup
  obtain ⟨ref, atHead⟩ : ∃ ref, c.queue[0]? = some ref := ⟨_, List.getElem?_eq_getElem nonempty⟩
  have member := List.mem_of_getElem? atHead
  obtain ⟨headEvent, isHead⟩ := consistent.indexed.isEvent member
  have isHead? : c.head? = some headEvent := by
    simp [head?, List.head?_eq_getElem?, atHead, isHead]
  obtain ⟨c₁, popped, removed⟩ := popQueue_spec consistent.indexed consistent.ordered atHead
  obtain ⟨ev, isEv, sameCore⟩ : ∃ ev, c₁.event? ref = some ev ∧ ev.core = headEvent.core := by
    have core := removed.coreAt ref
    rw [coreAt, coreAt_eq_some isHead] at core
    cases found : c₁.event? ref with
    | none => simp [found] at core
    | some ev => exact ⟨ev, rfl, by simpa [found] using core⟩
  have found : c.coreAt ref = some ev.core := by rw [coreAt_eq_some isHead, sameCore]
  have pending : c.Pending ev.core := ⟨ref, member, found⟩
  have dueEq : ev.due = headEvent.due := by
    simpa only [Event.core] using congrArg Event.due sameCore
  have periodEq : ev.period = headEvent.period := by
    simpa only [Event.core] using congrArg Event.period sameCore
  have evFits : ev.due + ev.period < countLimit := by
    rw [dueEq, periodEq]
    exact fits headEvent isHead?
  have isDue : ev.due = c.nextDue := by
    rw [consistent.nextDue, headDue, List.head?_eq_getElem?, atHead]
    simp [isHead, dueEq]
  have notQueued := removed.not_mem nodup
  rcases Nat.eq_zero_or_pos ev.period with oneShot | periodic
  · -- A one-shot leaves the queue and the live map.
    set c' := (({ c₁.setIndex ref none with icount := ev.due } : Clock H).deleteLive
      ev.id).refreshNextDue with isC'
    have result : c.fireNext = some (ev, .ok (), c') := by
      simp [Clock.fireNext, popped, isEv, oneShot, isC']
    have offQueue : OffQueue c₁ c' := by
      rw [isC', refreshNextDue_eq]
      have off := offQueue_modifyEvent notQueued fun ev => { ev with index := none }
      exact ⟨off.queue, off.events⟩
    obtain ⟨consistent', pending'⟩ := consistent.of_removed _ found member removed offQueue
      (by rw [isC', refreshNextDue_eq]; exact congrArg _ removed.live)
      (by rw [isC', refreshNextDue_eq]; rfl)
    have icount' : c'.icount = ev.due := by rw [isC', refreshNextDue_eq]; rfl
    have nextID' : c'.nextID = c.nextID := by
      rw [isC', refreshNextDue_eq]
      exact removed.nextID
    refine ⟨ev, c', result, ⟨consistent', ?_⟩, pending, isDue, icount', nextID', ?_⟩
    · refine numbered.of_pending ?_ nextID' ?_ fun other isPending =>
        ((pending' other).mp isPending).1
      · omega
      · rw [isC', refreshNextDue_eq]
        exact removed.nextSeq
    · intro other
      rw [pending']
      simp [oneShot, Event.core]
  · -- A periodic event is pushed back one period later, still live.
    set next := ev.due + ev.period with isNext
    set base : Clock H :=
      { c₁ with
        live := c.live.filter fun entry => entry.1 ≠ ev.core.id
        nextDue := c₁.headDue } with isBase
    obtain ⟨baseConsistent, basePending⟩ := consistent.of_removed base found member removed
      ⟨rfl, fun _ _ => rfl⟩ rfl rfl
    set moved : Clock H :=
      ({ c₁.setIndex ref none with icount := ev.due } : Clock H).modifyEvent ref
        (fun ev => { ev with due := next }) with isMoved
    have offMoved : OffQueue c₁ moved := by
      have first := offQueue_modifyEvent notQueued fun ev => { ev with index := none }
      have second := offQueue_modifyEvent (c := c₁.setIndex ref none) notQueued
        fun ev => { ev with due := next }
      exact ⟨rfl, fun other otherMember =>
        (second.events other otherMember).trans (first.events other otherMember)⟩
    have isEvent : moved.event? ref = some { ev with index := none, due := next } := by
      have first := event?_setIndex_self ref none c₁
      rw [isEv] at first
      rw [isMoved, event?_modifyEvent, if_pos rfl]
      change ((c₁.setIndex ref none).event? ref).map _ = _
      rw [first]
      rfl
    obtain ⟨shuffled, indexed, ordered⟩ := pushQueue_spec (removed.indexed.offQueue offMoved)
      (removed.ordered.offQueue offMoved) notQueued (by rw [isEvent]; rfl)
    have coreEq : ∀ other, (moved.pushQueue ref).coreAt other = moved.coreAt other :=
      event?_core_of_events shuffled.events
    set c' := (moved.pushQueue ref).refreshNextDue with isC'
    have result : c.fireNext = some (ev, .ok (), c') := by
      have sum : add ev.due ev.period = .ok next := if_pos evFits
      simp only [Clock.fireNext, popped, Option.bind_eq_bind, Option.bind_some, isEv, if_pos periodic,
        sum]
      rfl
    have liveEq : c'.live = c.live := by
      rw [isC', refreshNextDue_eq]
      exact shuffled.live.trans removed.live
    obtain ⟨consistent', pending'⟩ := baseConsistent.of_pushed c' ref
      { ev.core with due := next }
      (fun other otherPending => ((basePending other).mp otherPending).2)
      (by rw [isC', refreshNextDue_eq]; exact (coreEq ref).trans (coreAt_eq_some isEvent))
      (by
        intro other otherMember
        rw [isC', refreshNextDue_eq]
        refine (coreEq other).trans ?_
        rw [coreAt, offMoved.events other otherMember]
        rfl)
      (by rw [isC', refreshNextDue_eq]; exact shuffled.queue)
      (by rw [isC', refreshNextDue_eq]; exact indexed.offQueue ⟨rfl, fun _ _ => rfl⟩)
      (by rw [isC', refreshNextDue_eq]; exact ordered.offQueue ⟨rfl, fun _ _ => rfl⟩)
      (by
        rintro ⟨id, other⟩
        rw [liveEq]
        simp only [isBase, List.mem_filter, decide_eq_true_eq]
        have refLive : (ev.id, ref) ∈ c.live :=
          (consistent.live _ _).mpr ⟨member, by simp [found, Event.core]⟩
        constructor
        · intro live
          by_cases same : id = ev.id
          · exact .inl (List.inj_on_of_nodup_map consistent.liveIds live refLive same)
          · exact .inr ⟨⟨live, same⟩, same⟩
        · rintro (same | ⟨⟨live, _⟩, _⟩)
          · rw [same]
            exact refLive
          · exact live)
      (by rw [liveEq]; exact consistent.liveIds)
      (by rw [isC', refreshNextDue_eq]; rfl)
    have icount' : c'.icount = ev.due := by
      rw [isC', refreshNextDue_eq]
      exact shuffled.icount
    have nextID' : c'.nextID = c.nextID := by
      rw [isC', refreshNextDue_eq]
      exact shuffled.nextID.trans removed.nextID
    have nextSeq' : c'.nextSeq = c.nextSeq := by
      rw [isC', refreshNextDue_eq]
      exact shuffled.nextSeq.trans removed.nextSeq
    have numbers := numbered.events ev.core pending
    refine ⟨ev, c', result, ⟨consistent', ?_⟩, pending, isDue, icount', nextID', ?_⟩
    · exact {
        icount_lt := by rw [icount']; exact numbers.due_lt
        nextSeq_eq := by rw [nextSeq', nextID', numbered.nextSeq_eq]
        nextID_lt := nextID' ▸ numbered.nextID_lt
        events := by
          intro other otherPending
          rw [nextID']
          rcases (pending' other).mp otherPending with before | rfl
          · exact numbered.events other ((basePending other).mp before).1
          · exact ⟨numbers.id_eq, numbers.seq_lt, evFits, numbers.period_lt⟩ }
    · intro other
      rw [pending', basePending]
      exact or_congr Iff.rfl ⟨fun same => ⟨periodic, same⟩, fun both => both.2⟩

end Clock

end GoRetroTv
