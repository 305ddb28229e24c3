import GoRetroTv.InstructionClock
import Mathlib.Data.List.Perm.Basic
import Mathlib.Data.List.Nodup

/-!
# The clock's queue

What the heap operations do to the queue, the positions stored in its events
and everything else in the clock.  An exchange keeps every event at the position
it records, so each sift does; the order is `ContainerHeap`'s.
-/

namespace GoRetroTv

/-- An event without its recorded position. -/
def Event.core {H : Type} (ev : Event H) : Event H :=
  { ev with index := none }

namespace Clock

variable {H : Type}

@[simp]
theorem setIndex_queue (ref : EventRef) (index : Option Nat) (c : Clock H) :
    (c.setIndex ref index).queue = c.queue :=
  rfl

@[simp]
theorem setIndex_live (ref : EventRef) (index : Option Nat) (c : Clock H) :
    (c.setIndex ref index).live = c.live :=
  rfl

theorem event?_modifyEvent (ref other : EventRef) (change : Event H → Event H) (c : Clock H) :
    (c.modifyEvent ref change).event? other =
      if ref = other then (c.event? other).map change else c.event? other := by
  simp only [modifyEvent, event?, List.getElem?_modify]
  split <;> simp_all

theorem event?_setIndex_self (ref : EventRef) (index : Option Nat) (c : Clock H) :
    (c.setIndex ref index).event? ref = (c.event? ref).map fun ev => { ev with index } := by
  simp [setIndex, event?_modifyEvent]

theorem event?_setIndex_of_ne {ref other : EventRef} (ne : ref ≠ other) (index : Option Nat)
    (c : Clock H) :
    (c.setIndex ref index).event? other = c.event? other := by
  simp [setIndex, event?_modifyEvent, ne]

/-- A recorded position changes nothing else about the events. -/
theorem setIndex_core (ref : EventRef) (index : Option Nat) (c : Clock H) :
    (c.setIndex ref index).events.map Event.core = c.events.map Event.core := by
  apply List.ext_getElem?
  intro i
  simp only [setIndex, modifyEvent, List.getElem?_map, List.getElem?_modify]
  split
  · cases c.events[i]? <;> rfl
  · simp

/-- Two clocks whose queues hold the same events, with everything but the
recorded positions alike. -/
structure Shuffled (c c' : Clock H) : Prop where
  icount : c'.icount = c.icount
  nextDue : c'.nextDue = c.nextDue
  live : c'.live = c.live
  nextID : c'.nextID = c.nextID
  nextSeq : c'.nextSeq = c.nextSeq
  queue : c'.queue.Perm c.queue
  events : c'.events.map Event.core = c.events.map Event.core

theorem Shuffled.refl (c : Clock H) : Shuffled c c :=
  ⟨rfl, rfl, rfl, rfl, rfl, .refl _, rfl⟩

theorem Shuffled.trans {first second third : Clock H} (before : Shuffled first second)
    (after : Shuffled second third) :
    Shuffled first third where
  icount := after.icount.trans before.icount
  nextDue := after.nextDue.trans before.nextDue
  live := after.live.trans before.live
  nextID := after.nextID.trans before.nextID
  nextSeq := after.nextSeq.trans before.nextSeq
  queue := after.queue.trans before.queue
  events := after.events.trans before.events

/-- Events whose memories agree up to positions. -/
theorem event?_core_of_events {c c' : Clock H}
    (events : c'.events.map Event.core = c.events.map Event.core) (ref : EventRef) :
    (c'.event? ref).map Event.core = (c.event? ref).map Event.core := by
  have at_ref := congrArg (fun events => events[ref]?) events
  simpa only [event?, List.getElem?_map] using at_ref

/-- Every queued event records the position it is at. -/
def Indexed (c : Clock H) : Prop :=
  ∀ (i : Nat) (ref : EventRef), c.queue[i]? = some ref →
    (c.event? ref).bind (·.index) = some i

theorem Indexed.injective {c : Clock H} (indexed : c.Indexed) {i j : Nat} {ref : EventRef}
    (first : c.queue[i]? = some ref) (second : c.queue[j]? = some ref) :
    i = j := by
  have := indexed i ref first
  rw [indexed j ref second] at this
  exact (Option.some.inj this).symm

theorem Indexed.nodup {c : Clock H} (indexed : c.Indexed) : c.queue.Nodup := by
  rw [List.nodup_iff_injective_getElem]
  intro i j same
  have first : c.queue[i.val]? = some c.queue[i.val] := List.getElem?_eq_getElem i.isLt
  have second : c.queue[j.val]? = some c.queue[i.val] := by
    rw [List.getElem?_eq_getElem j.isLt]
    exact congrArg some same.symm
  exact Fin.ext (indexed.injective first second)

theorem swap_eq {c : Clock H} {i j : Nat} (iBound : i < c.queue.length)
    (jBound : j < c.queue.length) :
    c.swap i j =
      (({ c with queue := (c.queue.set i c.queue[j]).set j c.queue[i] } : Clock H).setIndex
        c.queue[j] (some i)).setIndex c.queue[i] (some j) := by
  simp only [swap, List.getElem?_eq_getElem iBound, List.getElem?_eq_getElem jBound]

theorem swap_queue {c : Clock H} {i j : Nat} (iBound : i < c.queue.length)
    (jBound : j < c.queue.length) :
    (c.swap i j).queue = (c.queue.set i c.queue[j]).set j c.queue[i] := by
  rw [swap_eq iBound jBound]
  rfl

theorem swap_shuffled {c : Clock H} {i j : Nat} (iBound : i < c.queue.length)
    (jBound : j < c.queue.length) :
    Shuffled c (c.swap i j) := by
  rw [swap_eq iBound jBound]
  refine ⟨rfl, rfl, rfl, rfl, rfl, List.set_set_perm iBound jBound, ?_⟩
  rw [setIndex_core, setIndex_core]

theorem swap_queue_getElem? {c : Clock H} {i j : Nat} (iBound : i < c.queue.length)
    (jBound : j < c.queue.length) (k : Nat) :
    (c.swap i j).queue[k]? = c.queue[Equiv.swap i j k]? := by
  rw [swap_queue iBound jBound, Equiv.swap_apply_def, List.getElem?_set, List.getElem?_set,
    List.length_set]
  grind

/-- The position an event records after `setIndex`. -/
theorem setIndex_index_self {c : Clock H} {ref : EventRef} {old : Nat}
    (recorded : (c.event? ref).bind (·.index) = some old) (index : Option Nat) :
    ((c.setIndex ref index).event? ref).bind (·.index) = index := by
  rw [event?_setIndex_self]
  cases found : c.event? ref with
  | none => simp [found] at recorded
  | some ev => rfl

theorem setIndex_index_of_ne {c : Clock H} {ref other : EventRef} (ne : ref ≠ other)
    (index : Option Nat) :
    ((c.setIndex ref index).event? other).bind (·.index) = (c.event? other).bind (·.index) := by
  rw [event?_setIndex_of_ne ne]

theorem swap_indexed {c : Clock H} {i j : Nat} (iBound : i < c.queue.length)
    (jBound : j < c.queue.length) (indexed : c.Indexed) :
    (c.swap i j).Indexed := by
  have first := List.getElem?_eq_getElem iBound
  have second := List.getElem?_eq_getElem jBound
  intro k ref atK
  rw [swap_queue_getElem? iBound jBound] at atK
  have recorded := indexed _ ref atK
  rw [swap_eq iBound jBound]
  by_cases kIsJ : k = j
  · subst kIsJ
    rw [Equiv.swap_apply_right, first, Option.some.injEq] at atK
    subst atK
    by_cases same : c.queue[k] = c.queue[i]
    · rw [same]
      exact setIndex_index_self (setIndex_index_self recorded (some i)) (some k)
    · have unmoved : ((c.setIndex c.queue[k] (some i)).event? c.queue[i]).bind (·.index) =
          some i := by
        rw [setIndex_index_of_ne same]
        exact indexed i _ first
      exact setIndex_index_self unmoved (some k)
  · by_cases kIsI : k = i
    · subst kIsI
      rw [Equiv.swap_apply_left, second, Option.some.injEq] at atK
      subst atK
      have ne : c.queue[k] ≠ c.queue[j] := by
        intro same
        rw [same] at first
        exact kIsJ (indexed.injective first second)
      rw [setIndex_index_of_ne ne]
      exact setIndex_index_self recorded (some k)
    · rw [Equiv.swap_apply_of_ne_of_ne kIsI kIsJ] at atK recorded
      have notFirst : c.queue[i] ≠ ref := by
        intro same
        rw [same] at first
        exact kIsI (indexed.injective atK first)
      have notSecond : c.queue[j] ≠ ref := by
        intro same
        rw [same] at second
        exact kIsJ (indexed.injective atK second)
      rw [setIndex_index_of_ne notFirst, setIndex_index_of_ne notSecond]
      exact recorded

theorem dueSeq_eq (c : Clock H) (position : Nat) :
    c.dueSeq position =
      (((c.queue[position]?).bind fun ref => (c.event? ref).map Event.core).map
        fun ev => (ev.due, ev.seq)).getD (0, 0) := by
  unfold dueSeq
  cases c.queue[position]? with
  | none => rfl
  | some ref =>
      cases found : c.event? ref with
      | none => simp [found]
      | some ev => simp [found, Event.core]

/-- The keys depend on the events only up to recorded positions. -/
theorem dueSeq_congr {c c' : Clock H} {i j : Nat} (queue : c'.queue[i]? = c.queue[j]?)
    (events : c'.events.map Event.core = c.events.map Event.core) :
    c'.dueSeq i = c.dueSeq j := by
  rw [dueSeq_eq, dueSeq_eq, queue]
  simp only [event?_core_of_events events]

/-- The queue ordered by due instruction, then by registration. -/
def keyedHeap : KeyedHeap (Clock H) (Nat ×ₗ Nat) where
  toHeapInterface := heap
  key c position := toLex (c.dueSeq position)
  less_iff c i j _ _ := by
    change c.less i j = true ↔ _
    rw [Prod.Lex.toLex_lt_toLex, less]
    split
    next distinct => simp [distinct]
    next same =>
      rw [not_not] at same
      simp [same]
  len_swap c i j iBound jBound := by
    change (c.swap i j).queue.length = c.queue.length
    exact (swap_shuffled iBound jBound).queue.length_eq
  key_swap c i j k iBound jBound :=
    congrArg toLex (dueSeq_congr (swap_queue_getElem? iBound jBound k)
      (swap_shuffled iBound jBound).events)

/-- The queue is a heap ordered by `(due, seq)`. -/
def QueueOrdered (c : Clock H) : Prop :=
  keyedHeap.Ordered c c.queue.length

theorem QueueOrdered.congr {c c' : Clock H} (ordered : c.QueueOrdered)
    (queue : c'.queue = c.queue) (events : c'.events.map Event.core = c.events.map Event.core) :
    c'.QueueOrdered := by
  intro k positive bound
  have keys := fun k => dueSeq_congr (i := k) (j := k) (by rw [queue]) events
  change toLex (c'.dueSeq _) ≤ toLex (c'.dueSeq k)
  rw [keys, keys]
  exact ordered k positive (queue ▸ bound)

theorem shuffled_closed {c : Clock H} {n : Nat} (bound : n ≤ c.queue.length) :
    heap.SwapClosed n (Shuffled c) := by
  intro c' i j iBound jBound shuffled
  have length := shuffled.queue.length_eq
  exact shuffled.trans (swap_shuffled (by omega) (by omega))

theorem sifted_closed {c : Clock H} {n : Nat} (bound : n ≤ c.queue.length) :
    heap.SwapClosed n (fun c' => Shuffled c c' ∧ c'.Indexed) := by
  rintro c' i j iBound jBound ⟨shuffled, indexed⟩
  have length := shuffled.queue.length_eq
  exact ⟨shuffled_closed bound c' i j iBound jBound shuffled,
    swap_indexed (by omega) (by omega) indexed⟩

theorem indexed_append {c : Clock H} {ref : EventRef} (indexed : c.Indexed)
    (fresh : ref ∉ c.queue) (isEvent : (c.event? ref).isSome) :
    Indexed { c.setIndex ref (some c.queue.length) with queue := c.queue ++ [ref] } := by
  intro k other atK
  change ((c.setIndex ref _).event? other).bind (·.index) = some k
  rcases Nat.lt_trichotomy k c.queue.length with inside | atEnd | outside
  · rw [List.getElem?_append_left inside] at atK
    have ne : ref ≠ other := by
      rintro rfl
      exact fresh (List.mem_of_getElem? atK)
    rw [setIndex_index_of_ne ne]
    exact indexed k other atK
  · subst atEnd
    rw [List.getElem?_concat_length, Option.some.injEq] at atK
    subst atK
    obtain ⟨ev, found⟩ := Option.isSome_iff_exists.mp isEvent
    rw [event?_setIndex_self, found]
    rfl
  · rw [List.getElem?_eq_none (by simp; omega)] at atK
    cases atK

/-- The clock of `pushQueue` before its sift. -/
def appended (ref : EventRef) (c : Clock H) : Clock H :=
  { c.setIndex ref (some c.queue.length) with queue := c.queue ++ [ref] }

theorem pushQueue_eq (c : Clock H) (ref : EventRef) :
    c.pushQueue ref = heap.up (c.appended ref) c.queue.length := by
  simp [pushQueue, appended]

theorem appended_length (c : Clock H) (ref : EventRef) :
    c.queue.length < (c.appended ref).queue.length := by
  simp [appended]

theorem pushQueue_shuffled (c : Clock H) (ref : EventRef) :
    Shuffled { c with queue := c.queue ++ [ref] } (c.pushQueue ref) := by
  have before : Shuffled { c with queue := c.queue ++ [ref] } (c.appended ref) :=
    ⟨rfl, rfl, rfl, rfl, rfl, .refl _, setIndex_core ref _ c⟩
  rw [pushQueue_eq]
  exact before.trans ((shuffled_closed le_rfl).up (c.appended_length ref) (.refl _))

theorem pushQueue_ordered {c : Clock H} (ordered : c.QueueOrdered) (ref : EventRef) :
    (c.pushQueue ref).QueueOrdered := by
  have before : keyedHeap.Ordered (c.appended ref) c.queue.length := by
    intro k positive bound
    have above := HeapInterface.parent_lt positive
    have keys : ∀ k, k < c.queue.length → (c.appended ref).dueSeq k = c.dueSeq k := fun k inside =>
      dueSeq_congr (by simp [appended, List.getElem?_append_left inside]) (setIndex_core ref _ c)
    change toLex ((c.appended ref).dueSeq _) ≤ toLex ((c.appended ref).dueSeq k)
    rw [keys k bound, keys _ (by omega)]
    exact ordered k positive bound
  have length : (c.pushQueue ref).queue.length = c.queue.length + 1 := by
    rw [(pushQueue_shuffled c ref).queue.length_eq]
    simp
  rw [QueueOrdered, length, pushQueue_eq]
  exact KeyedHeap.up_last_ordered before (c.appended_length ref)

theorem pushQueue_spec {c : Clock H} {ref : EventRef} (indexed : c.Indexed)
    (ordered : c.QueueOrdered) (fresh : ref ∉ c.queue) (isEvent : (c.event? ref).isSome) :
    Shuffled { c with queue := c.queue ++ [ref] } (c.pushQueue ref) ∧
      (c.pushQueue ref).Indexed ∧ (c.pushQueue ref).QueueOrdered := by
  have sifted := (sifted_closed le_rfl).up (c.appended_length ref)
    ⟨.refl _, indexed_append indexed fresh isEvent⟩
  rw [← pushQueue_eq] at sifted
  exact ⟨pushQueue_shuffled c ref, sifted.2, pushQueue_ordered ordered ref⟩

/-- The clock `c'` is `c` with one event taken out of its queue. -/
structure Removed (c c' : Clock H) (ref : EventRef) : Prop where
  icount : c'.icount = c.icount
  nextDue : c'.nextDue = c.nextDue
  live : c'.live = c.live
  nextID : c'.nextID = c.nextID
  nextSeq : c'.nextSeq = c.nextSeq
  queue : (ref :: c'.queue).Perm c.queue
  events : c'.events.map Event.core = c.events.map Event.core
  indexed : c'.Indexed
  ordered : c'.QueueOrdered

/-- The same, with nothing said about recorded positions. -/
structure TakenOut (c c' : Clock H) (ref : EventRef) : Prop where
  icount : c'.icount = c.icount
  nextDue : c'.nextDue = c.nextDue
  live : c'.live = c.live
  nextID : c'.nextID = c.nextID
  nextSeq : c'.nextSeq = c.nextSeq
  queue : (ref :: c'.queue).Perm c.queue
  events : c'.events.map Event.core = c.events.map Event.core
  ordered : c'.QueueOrdered

theorem TakenOut.removed {c c' : Clock H} {ref : EventRef} (taken : TakenOut c c' ref)
    (indexed : c'.Indexed) : Removed c c' ref :=
  ⟨taken.icount, taken.nextDue, taken.live, taken.nextID, taken.nextSeq, taken.queue,
    taken.events, indexed, taken.ordered⟩

theorem dropLast_queue_getElem? {c : Clock H} {n k : Nat} (length : c.queue.length = n + 1)
    (bound : k < n) : c.dropLast.queue[k]? = c.queue[k]? := by
  change c.queue.dropLast[k]? = _
  rw [List.getElem?_dropLast, if_pos (by omega)]

theorem dropLast_indexed {c : Clock H} {n : Nat} (indexed : c.Indexed)
    (length : c.queue.length = n + 1) : c.dropLast.Indexed := by
  intro k ref atK
  have dropLength : c.dropLast.queue.length = n := by
    simp [dropLast, length]
  have bound : k < n := by
    have := (List.getElem?_eq_some_iff.mp atK).1
    omega
  rw [dropLast_queue_getElem? length bound] at atK
  exact indexed k ref atK

theorem dropLast_takenOut {c sifted : Clock H} {n : Nat} {ref : EventRef}
    (shuffled : Shuffled c sifted) (ordered : keyedHeap.Ordered sifted n)
    (length : sifted.queue.length = n + 1) (last : sifted.queue[n]? = some ref) :
    TakenOut c sifted.dropLast ref := by
  have split : sifted.queue = sifted.queue.dropLast ++ [ref] := by
    have nonempty : sifted.queue ≠ [] := by
      rintro empty
      simp [empty] at length
    have isLast : sifted.queue.getLast nonempty = ref := by
      rw [List.getLast_eq_getElem]
      have := last
      rw [List.getElem?_eq_getElem (by omega), Option.some.injEq] at this
      simpa [length] using this
    rw [← isLast, List.dropLast_append_getLast nonempty]
  have dropLength : sifted.dropLast.queue.length = n := by
    simp [dropLast, length]
  exact {
    icount := shuffled.icount
    nextDue := shuffled.nextDue
    live := shuffled.live
    nextID := shuffled.nextID
    nextSeq := shuffled.nextSeq
    events := shuffled.events
    queue := by
      have moved : (ref :: sifted.queue.dropLast).Perm (sifted.queue.dropLast ++ [ref]) :=
        (List.perm_append_singleton ref _).symm
      rw [← split] at moved
      exact moved.trans shuffled.queue
    ordered := by
      intro k positive bound
      rw [dropLength] at bound
      have above := HeapInterface.parent_lt positive
      have keys : ∀ k, k < n → sifted.dropLast.dueSeq k = sifted.dueSeq k := fun k inside =>
        dueSeq_congr (dropLast_queue_getElem? length inside) rfl
      change toLex (sifted.dropLast.dueSeq _) ≤ toLex (sifted.dropLast.dueSeq k)
      rw [keys k bound, keys _ (by omega)]
      exact ordered k positive bound }

/-- Exchanges below the last position leave what stands there. -/
theorem last_closed {c : Clock H} {n : Nat} (ref : EventRef) (length : c.queue.length = n + 1) :
    heap.SwapClosed n (fun c' => Shuffled c c' ∧ c'.queue[n]? = some ref) := by
  rintro c' i j iBound jBound ⟨shuffled, last⟩
  have lengthEq := shuffled.queue.length_eq
  refine ⟨shuffled.trans (swap_shuffled (by omega) (by omega)), ?_⟩
  change (c'.swap i j).queue[n]? = some ref
  rw [swap_queue_getElem? (by omega) (by omega), Equiv.swap_apply_of_ne_of_ne (by omega) (by omega)]
  exact last

/-- The position to be emptied, exchanged with the last. -/
theorem swap_with_last {c : Clock H} {n i : Nat} {ref : EventRef}
    (length : c.queue.length = n + 1) (atI : c.queue[i]? = some ref) :
    Shuffled c (c.swap i n) ∧ (c.swap i n).queue[n]? = some ref := by
  have bound := (List.getElem?_eq_some_iff.mp atI).1
  refine ⟨swap_shuffled bound (by omega), ?_⟩
  rw [swap_queue_getElem? bound (by omega), Equiv.swap_apply_right]
  exact atI

theorem heap_last {c : Clock H} {n : Nat} (length : c.queue.length = n + 1) :
    heap.len c - 1 = n := by
  change c.queue.length - 1 = n
  omega

/-- A property that exchanges keep, over the exchanges of `Remove`. -/
theorem removeSift_closed {c : Clock H} {n i : Nat} {property : Clock H → Prop}
    (length : c.queue.length = n + 1) (inside : i ≤ n) (closed : heap.SwapClosed n property)
    (holds : i = n → property c) (swapped : property (c.swap i n)) :
    property (heap.removeSift c i) := by
  rw [HeapInterface.removeSift]
  simp only [heap_last length]
  split
  next notLast =>
    have down := closed.down (i := i) swapped
    split
    next => exact down
    next => exact closed.up (by omega) down
  next isLast =>
    rw [not_not] at isLast
    exact holds isLast.symm

theorem removeSift_last {c : Clock H} {n i : Nat} {ref : EventRef}
    (length : c.queue.length = n + 1) (atI : c.queue[i]? = some ref) :
    Shuffled c (heap.removeSift c i) ∧ (heap.removeSift c i).queue[n]? = some ref := by
  have bound := (List.getElem?_eq_some_iff.mp atI).1
  exact removeSift_closed length (by omega) (last_closed ref length)
    (fun isLast => ⟨.refl c, isLast ▸ atI⟩) (swap_with_last length atI)

theorem removeSift_indexed {c : Clock H} {n i : Nat} (indexed : c.Indexed)
    (length : c.queue.length = n + 1) (inside : i ≤ n) :
    (heap.removeSift c i).Indexed :=
  (removeSift_closed length inside (sifted_closed (c := c) (by omega)) (fun _ => ⟨.refl c, indexed⟩)
    ⟨swap_shuffled (by omega) (by omega), swap_indexed (by omega) (by omega) indexed⟩).2

theorem removeQueue_takenOut {c : Clock H} {i : Nat} {ref : EventRef} (ordered : c.QueueOrdered)
    (atI : c.queue[i]? = some ref) :
    c.removeQueue i = some (heap.removeSift c i).dropLast ∧
      TakenOut c (heap.removeSift c i).dropLast ref := by
  have bound := (List.getElem?_eq_some_iff.mp atI).1
  obtain ⟨n, length⟩ : ∃ n, c.queue.length = n + 1 := ⟨c.queue.length - 1, by omega⟩
  obtain ⟨shuffled, last⟩ := removeSift_last length atI
  rw [QueueOrdered, length] at ordered
  have siftedOrdered := KeyedHeap.removeSift_ordered ordered length.symm (i := i) (by omega)
  exact ⟨if_pos bound,
    dropLast_takenOut shuffled siftedOrdered (by rw [shuffled.queue.length_eq, length]) last⟩

theorem removeQueue_removed {c : Clock H} {i : Nat} {ref : EventRef} (indexed : c.Indexed)
    (ordered : c.QueueOrdered) (atI : c.queue[i]? = some ref) :
    ∃ c', c.removeQueue i = some c' ∧ Removed c c' ref := by
  have bound := (List.getElem?_eq_some_iff.mp atI).1
  obtain ⟨n, length⟩ : ∃ n, c.queue.length = n + 1 := ⟨c.queue.length - 1, by omega⟩
  have siftedLength : (heap.removeSift c i).queue.length = n + 1 := by
    rw [(removeSift_last length atI).1.queue.length_eq, length]
  obtain ⟨removed, taken⟩ := removeQueue_takenOut ordered atI
  exact ⟨_, removed, taken.removed
    (dropLast_indexed (removeSift_indexed indexed length (by omega)) siftedLength)⟩

theorem popSift_last {c : Clock H} {n : Nat} {ref : EventRef}
    (length : c.queue.length = n + 1) (head : c.queue[0]? = some ref) :
    Shuffled c (heap.popSift c) ∧ (heap.popSift c).queue[n]? = some ref := by
  rw [HeapInterface.popSift]
  simp only [heap_last length]
  exact (last_closed _ length).down (swap_with_last length head)

theorem popSift_indexed {c : Clock H} {n : Nat} (indexed : c.Indexed)
    (length : c.queue.length = n + 1) : (heap.popSift c).Indexed := by
  rw [HeapInterface.popSift]
  simp only [heap_last length]
  exact ((sifted_closed (c := c) (by omega)).down ⟨swap_shuffled (by omega) (by omega),
    swap_indexed (by omega) (by omega) indexed⟩).2

/-- `heap.Pop` takes out the head. -/
theorem popQueue_takenOut {c : Clock H} {ref : EventRef} (ordered : c.QueueOrdered)
    (head : c.queue[0]? = some ref) :
    c.popQueue = some (ref, (heap.popSift c).dropLast) ∧
      TakenOut c (heap.popSift c).dropLast ref := by
  have bound := (List.getElem?_eq_some_iff.mp head).1
  obtain ⟨n, length⟩ : ∃ n, c.queue.length = n + 1 := ⟨c.queue.length - 1, by omega⟩
  obtain ⟨shuffled, last⟩ := popSift_last length head
  rw [QueueOrdered, length] at ordered
  have siftedOrdered := KeyedHeap.popSift_ordered ordered length.symm
  have siftedLength : (heap.popSift c).queue.length = n + 1 := by
    rw [shuffled.queue.length_eq, length]
  refine ⟨?_, dropLast_takenOut shuffled siftedOrdered siftedLength last⟩
  have notEmpty : c.queue.isEmpty = false := by
    simp [← List.length_eq_zero_iff, length]
  have isLast : (heap.popSift c).queue.getLast? = some ref := by
    rw [List.getLast?_eq_getElem?, siftedLength]
    exact last
  simp [popQueue, notEmpty, isLast]

theorem popQueue_spec {c : Clock H} {ref : EventRef} (indexed : c.Indexed)
    (ordered : c.QueueOrdered) (head : c.queue[0]? = some ref) :
    ∃ c', c.popQueue = some (ref, c') ∧ Removed c c' ref := by
  have bound := (List.getElem?_eq_some_iff.mp head).1
  obtain ⟨n, length⟩ : ∃ n, c.queue.length = n + 1 := ⟨c.queue.length - 1, by omega⟩
  obtain ⟨popped, taken⟩ := popQueue_takenOut ordered head
  have siftedLength : (heap.popSift c).queue.length = n + 1 := by
    rw [(popSift_last length head).1.queue.length_eq, length]
  exact ⟨_, popped, taken.removed
    (dropLast_indexed (popSift_indexed indexed length) siftedLength)⟩

end Clock

end GoRetroTv
