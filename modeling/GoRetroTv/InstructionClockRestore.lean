import GoRetroTv.InstructionClockInvariant
import GoRetroTv.SnapshotCodecLaws

/-!
# Restoring the clock

`Restore` builds its events with the zero value of `index` and leaves it to
`heap.Init` to correct.  `Init` writes a position only when it exchanges it, so
the positions are right exactly when it exchanges every position but the root.
Which ones it exchanges depends only on the due instructions in registration
order, and is worked out here by running the same `Init` over marked keys.
-/

namespace GoRetroTv

/-- Keys in heap positions, with a mark on every position that was exchanged. -/
structure MarkedKeys where
  keys : List (Nat × Nat)
  marks : List Bool
  deriving DecidableEq

namespace MarkedKeys

def keyAt (m : MarkedKeys) (position : Nat) : Nat × Nat :=
  m.keys[position]?.getD (0, 0)

def less (m : MarkedKeys) (i j : Nat) : Bool :=
  if (m.keyAt i).1 ≠ (m.keyAt j).1 then decide ((m.keyAt i).1 < (m.keyAt j).1)
  else decide ((m.keyAt i).2 < (m.keyAt j).2)

def swap (m : MarkedKeys) (i j : Nat) : MarkedKeys where
  keys := (m.keys.set i (m.keyAt j)).set j (m.keyAt i)
  marks := (m.marks.set i true).set j true

theorem keyAt_swap {m : MarkedKeys} {i j : Nat} (iBound : i < m.keys.length)
    (jBound : j < m.keys.length) (k : Nat) :
    (m.swap i j).keyAt k = m.keyAt (Equiv.swap i j k) := by
  simp only [keyAt, swap, List.getElem?_set, List.length_set, Equiv.swap_apply_def]
  by_cases atJ : j = k
  · subst atJ
    by_cases same : j = i
    · simp [same, iBound]
    · simp [same, jBound]
  · by_cases atI : i = k
    · subst atI
      simp [atJ, iBound]
    · simp [atJ, atI, Ne.symm atJ, Ne.symm atI]

def heap : HeapInterface MarkedKeys where
  len m := m.keys.length
  less := less
  swap := swap

/-- Which positions `heap.Init` exchanges, for the given keys. -/
def exchangedByInit (keys : List (Nat × Nat)) : List Bool :=
  (heap.init { keys, marks := keys.map fun _ => false }).marks

/-- `heap.Init` exchanges every position but the root. -/
def AllExchanged (keys : List (Nat × Nat)) : Prop :=
  ∀ k, 0 < k → k < keys.length → (exchangedByInit keys)[k]? = some true

instance (keys : List (Nat × Nat)) : Decidable (AllExchanged keys) :=
  decidable_of_iff
    (∀ k, k < keys.length → 0 < k → (exchangedByInit keys)[k]? = some true)
    ⟨fun holds k positive bound => holds k bound positive,
      fun holds k bound positive => holds k positive bound⟩

end MarkedKeys

namespace Clock

variable {H : Type}

/-- The queue's keys, and a mark on exactly the positions whose event has
recorded them; the other events record the zero they were built with. -/
structure MarkedBy (n : Nat) (c : Clock H) (m : MarkedKeys) : Prop where
  queueLength : c.queue.length = n
  keysLength : m.keys.length = n
  marksLength : m.marks.length = n
  nodup : c.queue.Nodup
  isEvent : ∀ ref ∈ c.queue, (c.event? ref).isSome
  keys : ∀ k, k < n → c.dueSeq k = m.keyAt k
  marks : ∀ k ref, c.queue[k]? = some ref →
    (c.event? ref).bind (·.index) = some (if m.marks[k]? = some true then k else 0)

theorem markedBy_simulates (n : Nat) :
    HeapInterface.Simulates (heap : HeapInterface (Clock H)) MarkedKeys.heap n (MarkedBy n) where
  less c m i j marked iBound jBound := by
    change c.less i j = m.less i j
    rw [Clock.less, MarkedKeys.less, marked.keys i iBound, marked.keys j jBound]
  swap c m i j marked iBound jBound := by
    change MarkedBy n (c.swap i j) (m.swap i j)
    have iQueue : i < c.queue.length := by rw [marked.queueLength]; exact iBound
    have jQueue : j < c.queue.length := by rw [marked.queueLength]; exact jBound
    have shuffled := swap_shuffled iQueue jQueue
    have first := List.getElem?_eq_getElem iQueue
    have second := List.getElem?_eq_getElem jQueue
    have injective : ∀ {a b : Nat} {ref}, c.queue[a]? = some ref → c.queue[b]? = some ref →
        a = b := by
      intro a b ref atA atB
      obtain ⟨aBound, atA⟩ := List.getElem?_eq_some_iff.mp atA
      obtain ⟨bBound, atB⟩ := List.getElem?_eq_some_iff.mp atB
      exact (List.Nodup.getElem_inj_iff marked.nodup).mp (atA.trans atB.symm)
    exact {
      queueLength := by rw [shuffled.queue.length_eq, marked.queueLength]
      keysLength := by simp [MarkedKeys.swap, marked.keysLength]
      marksLength := by simp [MarkedKeys.swap, marked.marksLength]
      nodup := shuffled.queue.nodup_iff.mpr marked.nodup
      isEvent := by
        intro ref member
        have old := marked.isEvent ref (shuffled.queue.mem_iff.mp member)
        have same := event?_core_of_events shuffled.events ref
        rw [← Option.isSome_map (f := Event.core), same, Option.isSome_map]
        exact old
      keys := by
        intro k bound
        have swapped := keyedHeap.key_swap c i j k iQueue jQueue
        have unwrapped : (c.swap i j).dueSeq k = c.dueSeq (Equiv.swap i j k) := swapped
        have target : Equiv.swap i j k < n := by
          rw [Equiv.swap_apply_def]
          split
          · exact jBound
          · split
            · exact iBound
            · exact bound
        rw [unwrapped, marked.keys _ target]
        exact (MarkedKeys.keyAt_swap (by rwa [marked.keysLength]) (by rwa [marked.keysLength])
          k).symm
      marks := by
        intro k ref atK
        rw [swap_queue_getElem? iQueue jQueue] at atK
        have kBound : k < n := by
          have := (List.getElem?_eq_some_iff.mp atK).1
          by_contra outside
          rw [Equiv.swap_apply_of_ne_of_ne (by omega) (by omega), marked.queueLength] at this
          omega
        have recorded := marked.marks _ ref atK
        rw [swap_eq iQueue jQueue]
        simp only [MarkedKeys.swap, List.getElem?_set, List.length_set, marked.marksLength]
        by_cases kIsJ : j = k
        · subst kIsJ
          rw [Equiv.swap_apply_right, first, Option.some.injEq] at atK
          subst atK
          rw [if_pos rfl, if_pos jBound, if_pos rfl]
          by_cases same : c.queue[j] = c.queue[i]
          · rw [same]
            exact setIndex_index_self (setIndex_index_self recorded (some i)) (some j)
          · exact setIndex_index_self
              ((setIndex_index_of_ne same _).trans (marked.marks i _ first)) (some j)
        · by_cases kIsI : i = k
          · subst kIsI
            rw [Equiv.swap_apply_left, second, Option.some.injEq] at atK
            subst atK
            have ne : c.queue[i] ≠ c.queue[j] := by
              intro same
              rw [same] at first
              exact kIsJ (injective second first)
            rw [if_neg kIsJ, if_pos rfl, if_pos iBound, if_pos rfl, setIndex_index_of_ne ne]
            exact setIndex_index_self recorded (some i)
          · rw [Equiv.swap_apply_of_ne_of_ne (Ne.symm kIsI) (Ne.symm kIsJ)] at atK recorded
            have notFirst : c.queue[i] ≠ ref := by
              intro same
              rw [same] at first
              exact kIsI (injective first atK)
            have notSecond : c.queue[j] ≠ ref := by
              intro same
              rw [same] at second
              exact kIsJ (injective second atK)
            rw [if_neg kIsJ, if_neg kIsI, setIndex_index_of_ne notFirst,
              setIndex_index_of_ne notSecond]
            exact recorded }

/-- After `heap.Init` over freshly built events, every position is recorded
exactly when `Init` exchanged all but the root. -/
theorem init_indexed_iff {c : Clock H} (nodup : c.queue.Nodup)
    (built : ∀ ref ∈ c.queue, (c.event? ref).bind (·.index) = some 0) :
    (Clock.heap.init c).Indexed ↔
      MarkedKeys.AllExchanged ((List.range c.queue.length).map c.dueSeq) := by
  set keys := (List.range c.queue.length).map c.dueSeq with isKeys
  have keysLength : keys.length = c.queue.length := by simp [isKeys]
  have start : MarkedBy c.queue.length c { keys, marks := keys.map fun _ => false } := {
    queueLength := rfl
    keysLength
    marksLength := by simp [keysLength]
    nodup
    isEvent := by
      intro ref member
      have := built ref member
      cases found : c.event? ref with
      | none => simp [found] at this
      | some ev => rfl
    keys := by
      intro k bound
      simp [MarkedKeys.keyAt, isKeys, bound]
    marks := by
      intro k ref atK
      rw [built ref (List.mem_of_getElem? atK), if_neg]
      simp [List.getElem?_replicate] }
  have final : MarkedBy c.queue.length (Clock.heap.init c)
      (MarkedKeys.heap.init { keys, marks := keys.map fun _ => false }) :=
    (markedBy_simulates c.queue.length).init keysLength start
  constructor
  · intro indexed k positive bound
    rw [keysLength] at bound
    obtain ⟨ref, atK⟩ : ∃ ref, (Clock.heap.init c).queue[k]? = some ref :=
      ⟨_, List.getElem?_eq_getElem (by rw [final.queueLength]; exact bound)⟩
    have recorded := final.marks k _ atK
    rw [indexed k _ atK] at recorded
    by_contra notMarked
    rw [MarkedKeys.exchangedByInit] at notMarked
    rw [if_neg notMarked, Option.some.injEq] at recorded
    omega
  · intro exchanged k ref atK
    rw [final.marks k ref atK]
    rcases Nat.eq_zero_or_pos k with zero | positive
    · simp [zero]
    · have bound := (List.getElem?_eq_some_iff.mp atK).1
      rw [final.queueLength] at bound
      have marked := exchanged k positive (by rw [keysLength]; exact bound)
      rw [MarkedKeys.exchangedByInit] at marked
      rw [if_pos marked]

/-- The pointers of a decoded schedule. -/
def newRefs (c : Clock H) (count : Nat) : List EventRef :=
  (List.range count).map fun i => c.events.length + i

/-- The clock of `install` before `heap.Init`. -/
def uninitialised (c : Clock H) (decoded : Restored H) : Clock H where
  icount := decoded.icount
  nextDue := c.nextDue
  queue := c.newRefs decoded.events.length
  live := (decoded.events.map (·.id)).zip (c.newRefs decoded.events.length)
  nextID := decoded.nextID
  nextSeq := decoded.nextSeq
  events := c.events ++ decoded.events

theorem newRefs_getElem? (c : Clock H) (count k : Nat) :
    (c.newRefs count)[k]? = if k < count then some (c.events.length + k) else none := by
  by_cases inside : k < count <;> simp [newRefs, inside]

theorem uninitialised_event? (c : Clock H) (decoded : Restored H) (k : Nat) :
    (c.uninitialised decoded).event? (c.events.length + k) = decoded.events[k]? := by
  simp [uninitialised, event?, List.getElem?_append_right]

theorem newRefs_nodup (c : Clock H) (count : Nat) : (c.newRefs count).Nodup := by
  refine List.Nodup.map ?_ List.nodup_range
  exact fun first second same => Nat.add_left_cancel same

theorem mem_uninitialised_live (c : Clock H) (decoded : Restored H) (id : Nat)
    (ref : EventRef) :
    (id, ref) ∈ (c.uninitialised decoded).live ↔
      ref ∈ (c.uninitialised decoded).queue ∧
        ((c.uninitialised decoded).coreAt ref).map (·.id) = some id := by
  have entries : ∀ k, (c.uninitialised decoded).live[k]? =
      (decoded.events[k]?).map fun ev => (ev.id, c.events.length + k) := by
    intro k
    rw [uninitialised]
    simp only [List.zip, List.getElem?_zipWith, List.getElem?_map,
      newRefs_getElem?]
    by_cases inside : k < decoded.events.length
    · simp [inside]
    · simp [inside]
  constructor
  · intro member
    obtain ⟨k, atK⟩ := List.mem_iff_getElem?.mp member
    rw [entries] at atK
    obtain ⟨ev, isEv, same⟩ := Option.map_eq_some_iff.mp atK
    obtain ⟨rfl, rfl⟩ := Prod.mk.inj same
    have inside := (List.getElem?_eq_some_iff.mp isEv).1
    refine ⟨List.mem_of_getElem? (i := k) ?_, ?_⟩
    · exact (newRefs_getElem? c _ k).trans (if_pos inside)
    · rw [coreAt, uninitialised_event?, isEv]
      rfl
  · rintro ⟨member, hasId⟩
    obtain ⟨k, atK⟩ := List.mem_iff_getElem?.mp member
    change (c.newRefs decoded.events.length)[k]? = some ref at atK
    rw [newRefs_getElem?] at atK
    split at atK
    next inside =>
      obtain rfl := Option.some.inj atK
      rw [coreAt, uninitialised_event?, List.getElem?_eq_getElem inside] at hasId
      refine List.mem_of_getElem? (i := k) ?_
      rw [entries, List.getElem?_eq_getElem inside]
      simpa [Event.core] using hasId
    next => cases atK

theorem install_eq (c : Clock H) (decoded : Restored H) :
    c.install decoded = Clock.heap.init (c.uninitialised decoded) :=
  rfl

/-- A freshly built schedule is consistent after `Init` exactly when `Init`
exchanged every position but the root, and holds the decoded events. -/
theorem install_spec (c : Clock H) (decoded : Restored H)
    (ids : (decoded.events.map (·.id)).Nodup)
    (built : ∀ ev ∈ decoded.events, ev.index = some 0) :
    (((c.install decoded).refreshNextDue).Consistent ↔
        MarkedKeys.AllExchanged (decoded.events.map fun ev => (ev.due, ev.seq))) ∧
      (∀ ev, ((c.install decoded).refreshNextDue).Pending ev ↔
        ∃ source ∈ decoded.events, ev = source.core) ∧
      ((c.install decoded).refreshNextDue).icount = decoded.icount ∧
      ((c.install decoded).refreshNextDue).nextID = decoded.nextID ∧
      ((c.install decoded).refreshNextDue).nextSeq = decoded.nextSeq := by
  set base := c.uninitialised decoded with isBase
  have queueLength : base.queue.length = decoded.events.length := by
    simp [isBase, uninitialised, newRefs]
  have atK : ∀ k ref, base.queue[k]? = some ref →
      k < decoded.events.length ∧ ref = c.events.length + k := by
    intro k ref found
    change (c.newRefs decoded.events.length)[k]? = some ref at found
    rw [newRefs_getElem?] at found
    split at found
    next inside => exact ⟨inside, (Option.some.inj found).symm⟩
    next => cases found
  have isBuilt : ∀ ref ∈ base.queue, (base.event? ref).bind (·.index) = some 0 := by
    intro ref member
    obtain ⟨k, found⟩ := List.mem_iff_getElem?.mp member
    obtain ⟨inside, rfl⟩ := atK k ref found
    rw [uninitialised_event?, List.getElem?_eq_getElem inside]
    exact built _ (List.getElem_mem inside)
  have shuffled : Shuffled base (Clock.heap.init base) := by
    have closed : Clock.heap.SwapClosed base.queue.length (Shuffled base) := by
      intro c' i j iBound jBound shuffled
      have length := shuffled.queue.length_eq
      exact shuffled.trans (swap_shuffled (by omega) (by omega))
    exact closed.initFrom _ (.refl base)
  have keys : (List.range base.queue.length).map base.dueSeq =
      decoded.events.map fun ev => (ev.due, ev.seq) := by
    apply List.ext_getElem?
    intro k
    simp only [List.getElem?_map, queueLength]
    by_cases inside : k < decoded.events.length
    · have found : base.queue[k]? = some (c.events.length + k) :=
        (newRefs_getElem? c _ k).trans (if_pos inside)
      have event : base.event? (c.events.length + k) = some decoded.events[k] := by
        rw [isBase, uninitialised_event?, List.getElem?_eq_getElem inside]
      simp [inside, dueSeq, found, event]
    · simp [inside]
  have indexedIff := init_indexed_iff (newRefs_nodup c _) isBuilt
  rw [keys] at indexedIff
  have ordered : (Clock.heap.init base).QueueOrdered := by
    rw [QueueOrdered, shuffled.queue.length_eq]
    exact KeyedHeap.init_ordered base
  have coreEq : ∀ ref, (Clock.heap.init base).coreAt ref = base.coreAt ref :=
    event?_core_of_events shuffled.events
  have off : OffQueue (Clock.heap.init base) (Clock.heap.init base).refreshNextDue := by
    rw [refreshNextDue_eq]
    exact ⟨rfl, fun _ _ => rfl⟩
  rw [install_eq, ← isBase]
  refine ⟨?_, ?_, ?_, ?_, ?_⟩
  · rw [← indexedIff]
    constructor
    · intro consistent
      exact consistent.indexed.offQueue ⟨off.queue.symm, fun ref member =>
        (off.events ref (off.queue ▸ member)).symm⟩
    · intro indexed
      exact {
        indexed := indexed.offQueue off
        ordered := ordered.offQueue off
        live := by
          intro id ref
          rw [refreshNextDue_eq]
          change (id, ref) ∈ (Clock.heap.init base).live ↔
            ref ∈ (Clock.heap.init base).queue ∧
              ((Clock.heap.init base).coreAt ref).map (·.id) = some id
          rw [shuffled.live, shuffled.queue.mem_iff, coreEq]
          exact mem_uninitialised_live c decoded id ref
        liveIds := by
          rw [refreshNextDue_eq]
          change ((Clock.heap.init base).live.map Prod.fst).Nodup
          rw [shuffled.live]
          change (((decoded.events.map (·.id)).zip (c.newRefs decoded.events.length)).map
            Prod.fst).Nodup
          rwa [List.map_fst_zip (by simp [newRefs])]
        nextDue := by
          rw [refreshNextDue_eq]
          rfl }
  · intro ev
    rw [off.pending]
    simp only [Pending, shuffled.queue.mem_iff, coreEq]
    constructor
    · rintro ⟨ref, member, found⟩
      obtain ⟨k, isAt⟩ := List.mem_iff_getElem?.mp member
      obtain ⟨inside, rfl⟩ := atK k ref isAt
      rw [coreAt, uninitialised_event?, List.getElem?_eq_getElem inside] at found
      exact ⟨_, List.getElem_mem inside, (Option.some.inj found).symm⟩
    · rintro ⟨source, member, rfl⟩
      obtain ⟨k, inside, rfl⟩ := List.mem_iff_getElem.mp member
      refine ⟨c.events.length + k, List.mem_of_getElem? (i := k) ?_, ?_⟩
      · exact (newRefs_getElem? c _ k).trans (if_pos inside)
      · rw [coreAt, uninitialised_event?, List.getElem?_eq_getElem inside]
        rfl
  · rw [refreshNextDue_eq]
    exact shuffled.icount
  · rw [refreshNextDue_eq]
    exact shuffled.nextID
  · rw [refreshNextDue_eq]
    exact shuffled.nextSeq

end Clock

end GoRetroTv
