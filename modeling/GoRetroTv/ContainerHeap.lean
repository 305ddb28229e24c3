import Mathlib.Tactic.Common
import Mathlib.Logic.Equiv.Basic
import Mathlib.Data.Nat.Basic
import Mathlib.Data.Prod.Lex

/-!
# Heaps behind a compare and a swap

Go's `container/heap` sees a heap only through its length, a comparison of two
positions and an exchange of two positions.  The sifts are defined over that
interface, so the same code runs on a queue that records positions in its
elements and on one that records which positions were exchanged.

`KeyedHeap` supplies the keys the comparison orders by.  The sifts then restore
the heap order, and whatever every exchange preserves, they preserve.
-/

namespace GoRetroTv

/-- The part of Go's `heap.Interface` that the sifts use. -/
structure HeapInterface (S : Type) where
  len : S → Nat
  less : S → Nat → Nat → Bool
  swap : S → Nat → Nat → S

namespace HeapInterface

variable {S : Type} (h : HeapInterface S)

/-- The position above another; zero is its own. -/
def parent (position : Nat) : Nat :=
  (position - 1) / 2

/-- The child that `down` compares with: the right one when it is smaller. -/
def smallerChild (s : S) (i n : Nat) : Nat :=
  if 2 * i + 2 < n ∧ h.less s (2 * i + 2) (2 * i + 1) = true then 2 * i + 2 else 2 * i + 1

theorem lt_smallerChild (s : S) (i n : Nat) : i < h.smallerChild s i n := by
  unfold smallerChild
  split <;> omega

/-- Move the element at `j` towards the root. -/
def up (s : S) (j : Nat) : S :=
  if parent j = j ∨ h.less s j (parent j) = false then s
  else up (h.swap s (parent j) j) (parent j)
termination_by j
decreasing_by
  rename_i continues
  simp only [parent, not_or] at continues ⊢
  omega

/-- Move the element at `i` away from the root, within the first `n`
positions.  The second result is where it came to rest; Go reports whether
that is beyond `i`. -/
def down (s : S) (i n : Nat) : S × Nat :=
  if 2 * i + 1 < n then
    if h.less s (h.smallerChild s i n) i then
      down (h.swap s i (h.smallerChild s i n)) (h.smallerChild s i n) n
    else (s, i)
  else (s, i)
termination_by n - i
decreasing_by
  have := h.lt_smallerChild s i n
  omega

/-- `Init` from the last inner position down to the root. -/
def initFrom (n : Nat) : Nat → S → S
  | 0, s => s
  | i + 1, s => initFrom n i (h.down s i n).1

def init (s : S) : S :=
  h.initFrom (h.len s) (h.len s / 2) s

/-- `Pop` up to the point where the last element is taken off. -/
def popSift (s : S) : S :=
  let n := h.len s - 1
  (h.down (h.swap s 0 n) 0 n).1

/-- `Remove` up to the point where the last element is taken off. -/
def removeSift (s : S) (i : Nat) : S :=
  let n := h.len s - 1
  if n ≠ i then
    let moved := h.down (h.swap s i n) i n
    if i < moved.2 then moved.1 else h.up moved.1 i
  else s

/-- Every exchange among the first `n` positions preserves the property. -/
def SwapClosed (n : Nat) (property : S → Prop) : Prop :=
  ∀ s i j, i < n → j < n → property s → property (h.swap s i j)

variable {h} {n : Nat} {property : S → Prop}

theorem smallerChild_lt {s : S} {i : Nat} (inner : 2 * i + 1 < n) :
    h.smallerChild s i n < n := by
  unfold smallerChild
  split
  next right => exact right.1
  next => exact inner

theorem SwapClosed.up (closed : h.SwapClosed n property) {s : S} {j : Nat} (jBound : j < n)
    (holds : property s) :
    property (h.up s j) := by
  fun_induction HeapInterface.up h s j with
  | case1 s j stop => exact holds
  | case2 s j continues ih =>
      have parentBound : parent j < n := by
        simp only [parent]
        omega
      exact ih parentBound (closed s _ _ parentBound jBound holds)

theorem SwapClosed.down (closed : h.SwapClosed n property) {s : S} {i : Nat}
    (holds : property s) :
    property (h.down s i n).1 := by
  fun_induction HeapInterface.down h s i n with
  | case1 s i inner smaller ih =>
      have childBound := smallerChild_lt (h := h) (s := s) inner
      have above := h.lt_smallerChild s i n
      exact ih (closed s _ _ (above.trans childBound) childBound holds)
  | case2 s i inner larger => exact holds
  | case3 s i leaf => exact holds

theorem SwapClosed.initFrom (closed : h.SwapClosed n property) {s : S} (count : Nat)
    (holds : property s) :
    property (h.initFrom n count s) := by
  induction count generalizing s with
  | zero => exact holds
  | succ count ih => exact ih (closed.down holds)

theorem le_down (s : S) (i n : Nat) : i ≤ (h.down s i n).2 := by
  fun_induction HeapInterface.down h s i n with
  | case1 s i inner smaller ih => exact (h.lt_smallerChild s i n).le.trans ih
  | case2 s i inner larger => exact le_rfl
  | case3 s i leaf => exact le_rfl

/-- An element that does not move leaves the heap as it was. -/
theorem down_of_rest {s : S} {i : Nat} (rest : (h.down s i n).2 = i) :
    (h.down s i n).1 = s := by
  rw [HeapInterface.down] at rest ⊢
  split at rest
  next inner =>
    split at rest
    next smaller =>
      have moved := le_down (h := h) (h.swap s i (h.smallerChild s i n)) (h.smallerChild s i n) n
      have := h.lt_smallerChild s i n
      omega
    next larger => simp [inner, larger]
  next leaf => simp [leaf]

theorem parent_lt {position : Nat} (positive : 0 < position) : parent position < position := by
  simp only [parent]
  omega

theorem child_of_parent {position i : Nat} (positive : 0 < position)
    (above : parent position = i) :
    position = 2 * i + 1 ∨ position = 2 * i + 2 := by
  simp only [parent] at above
  omega

theorem parent_smallerChild (s : S) (i n : Nat) : parent (h.smallerChild s i n) = i := by
  unfold smallerChild
  split <;> simp only [parent] <;> omega

/-- Heaps over two representations that compare alike and stay related under
the same exchanges, among the first `n` positions. -/
structure Simulates {T : Type} (h : HeapInterface S) (g : HeapInterface T) (n : Nat)
    (related : S → T → Prop) : Prop where
  less : ∀ s t i j, related s t → i < n → j < n → h.less s i j = g.less t i j
  swap : ∀ s t i j, related s t → i < n → j < n → related (h.swap s i j) (g.swap t i j)

section Simulation

variable {T : Type} {g : HeapInterface T} {related : S → T → Prop}

theorem Simulates.smallerChild (simulates : Simulates h g n related) {s : S} {t : T} {i : Nat}
    (relation : related s t) (inner : 2 * i + 1 < n) :
    g.smallerChild t i n = h.smallerChild s i n := by
  unfold HeapInterface.smallerChild
  by_cases right : 2 * i + 2 < n
  · rw [simulates.less s t _ _ relation right inner]
  · simp [right]

theorem Simulates.down (simulates : Simulates h g n related) {s : S} {t : T} {i : Nat}
    (relation : related s t) :
    related (h.down s i n).1 (g.down t i n).1 := by
  fun_induction HeapInterface.down h s i n generalizing t with
  | case1 s i inner smaller ih =>
      have childBound := smallerChild_lt (h := h) (s := s) inner
      have above := h.lt_smallerChild s i n
      have sameChild := simulates.smallerChild relation inner
      rw [simulates.less s t _ _ relation childBound (by omega)] at smaller
      rw [HeapInterface.down.eq_def g t i n, if_pos inner, sameChild, if_pos smaller]
      exact ih (simulates.swap s t _ _ relation (by omega) childBound)
  | case2 s i inner larger =>
      have childBound := smallerChild_lt (h := h) (s := s) inner
      have above := h.lt_smallerChild s i n
      have sameChild := simulates.smallerChild relation inner
      rw [simulates.less s t _ _ relation childBound (by omega)] at larger
      rw [HeapInterface.down.eq_def g t i n, if_pos inner, sameChild, if_neg larger]
      exact relation
  | case3 s i leaf =>
      rw [HeapInterface.down.eq_def g t i n, if_neg leaf]
      exact relation

theorem Simulates.initFrom (simulates : Simulates h g n related) {s : S} {t : T} (count : Nat)
    (relation : related s t) :
    related (h.initFrom n count s) (g.initFrom n count t) := by
  induction count generalizing s t with
  | zero => exact relation
  | succ count ih => exact ih (simulates.down relation)

theorem Simulates.init {s : S} {t : T} (simulates : Simulates h g (h.len s) related)
    (length : g.len t = h.len s) (relation : related s t) :
    related (h.init s) (g.init t) := by
  rw [HeapInterface.init, HeapInterface.init, length]
  exact simulates.initFrom _ relation

end Simulation

end HeapInterface

/-- A heap interface together with the key each position is ordered by. -/
structure KeyedHeap (S κ : Type) [LinearOrder κ] extends HeapInterface S where
  key : S → Nat → κ
  less_iff : ∀ s i j, i < len s → j < len s → (less s i j = true ↔ key s i < key s j)
  len_swap : ∀ s i j, i < len s → j < len s → len (swap s i j) = len s
  key_swap : ∀ s i j k, i < len s → j < len s →
    key (swap s i j) k = key s (Equiv.swap i j k)

namespace KeyedHeap

open HeapInterface

variable {S κ : Type} [LinearOrder κ] (h : KeyedHeap S κ)

/-- The element at `k` is no smaller than the one above it. -/
def Edge (s : S) (k : Nat) : Prop :=
  h.key s (parent k) ≤ h.key s k

/-- The heap order on the first `n` positions. -/
def Ordered (s : S) (n : Nat) : Prop :=
  ∀ k, 0 < k → k < n → h.Edge s k

/-- The heap order below position `low`, except on the edges that meet `i`; the
element above `i` still bounds those below it. -/
structure OrderedAround (s : S) (n low i : Nat) : Prop where
  edges : ∀ k, 0 < k → k < n → low ≤ parent k → k ≠ i → parent k ≠ i → h.Edge s k
  across : ∀ k, 0 < k → k < n → parent k = i → 0 < i → low ≤ parent i →
    h.key s (parent i) ≤ h.key s k

variable {h}

theorem len_down {s : S} {i n : Nat} (bound : n ≤ h.len s) :
    h.len (h.down s i n).1 = h.len s := by
  have closed : h.SwapClosed n (fun s' => h.len s' = h.len s) := by
    intro s' i j iBound jBound same
    rw [h.len_swap s' i j (by omega) (by omega), same]
  exact closed.down rfl

/-- The smaller child bounds its sibling. -/
theorem smallerChild_le {s : S} {i n k : Nat} (bound : n ≤ h.len s) (_inner : 2 * i + 1 < n)
    (positive : 0 < k) (kBound : k < n) (above : parent k = i) :
    h.key s (h.smallerChild s i n) ≤ h.key s k := by
  unfold smallerChild
  rcases child_of_parent positive above with left | right
  · split
    next smaller =>
      rw [left]
      exact ((h.less_iff s _ _ (by omega) (by omega)).mp smaller.2).le
    next => rw [left]
  · split
    next => rw [right]
    next notSmaller =>
      rw [right]
      have notLess : ¬ h.less s (2 * i + 2) (2 * i + 1) = true :=
        fun less => notSmaller ⟨by omega, less⟩
      rw [h.less_iff s _ _ (by omega) (by omega)] at notLess
      exact not_lt.mp notLess

/-- One exchange of `down`. -/
theorem OrderedAround.swap_child {s : S} {n low i : Nat} (around : h.OrderedAround s n low i)
    (bound : n ≤ h.len s) (lowBound : low ≤ i) (inner : 2 * i + 1 < n) :
    h.OrderedAround (h.swap s i (h.smallerChild s i n)) n low (h.smallerChild s i n) := by
  have childBound := smallerChild_lt (h := h.toHeapInterface) (s := s) inner
  have above := h.lt_smallerChild s i n
  have parentChild := parent_smallerChild (h := h.toHeapInterface) s i n
  set j := h.smallerChild s i n
  have keySwap := fun k => h.key_swap s i j k (by omega) (by omega)
  constructor
  · intro k positive kBound kLow notChild parentNotChild
    rw [Edge, keySwap, keySwap]
    by_cases atI : k = i
    · subst atI
      have parentAbove := parent_lt positive
      rw [Equiv.swap_apply_left, Equiv.swap_apply_of_ne_of_ne (by omega) parentNotChild]
      exact around.across j (by omega) childBound parentChild positive kLow
    · rw [Equiv.swap_apply_of_ne_of_ne atI notChild]
      by_cases parentAtI : parent k = i
      · rw [parentAtI, Equiv.swap_apply_left]
        exact smallerChild_le bound inner positive kBound parentAtI
      · rw [Equiv.swap_apply_of_ne_of_ne parentAtI parentNotChild]
        exact around.edges k positive kBound kLow atI parentAtI
  · intro k positive kBound parentIsChild _ _
    have kAbove := parent_lt positive
    rw [parentChild, keySwap, keySwap, Equiv.swap_apply_left,
      Equiv.swap_apply_of_ne_of_ne (by omega) (by omega), ← parentIsChild]
    exact around.edges k positive kBound (by omega) (by omega) (by omega)

/-- `down` puts the element at `i` in order with everything below it.  The edge
above `i` is in order afterwards if it was before, or if the element moved. -/
theorem down_ordered {s : S} {n low i : Nat} (around : h.OrderedAround s n low i)
    (bound : n ≤ h.len s) (lowBound : low ≤ i) :
    (∀ k, 0 < k → k < n → low ≤ parent k → k ≠ i → h.Edge (h.down s i n).1 k) ∧
      (h.Edge s i ∨ i < (h.down s i n).2 → 0 < i → low ≤ parent i →
        h.Edge (h.down s i n).1 i) := by
  fun_induction HeapInterface.down h.toHeapInterface s i n with
  | case1 s i inner smaller ih =>
      have childBound := smallerChild_lt (h := h.toHeapInterface) (s := s) inner
      have above := h.lt_smallerChild s i n
      have parentChild := parent_smallerChild (h := h.toHeapInterface) s i n
      have next := around.swap_child bound lowBound inner
      have childEdge : h.Edge (h.swap s i (h.smallerChild s i n)) (h.smallerChild s i n) := by
        rw [h.less_iff s _ _ (by omega) (by omega)] at smaller
        rw [Edge, parentChild, h.key_swap s _ _ _ (by omega) (by omega),
          h.key_swap s _ _ _ (by omega) (by omega), Equiv.swap_apply_left,
          Equiv.swap_apply_right]
        exact smaller.le
      obtain ⟨others, child⟩ := ih next
        (by rwa [h.len_swap s _ _ (by omega) (by omega)]) (by omega)
      constructor
      · intro k positive kBound kLow _
        by_cases atChild : k = h.smallerChild s i n
        · subst atChild
          exact child (.inl childEdge) positive kLow
        · exact others k positive kBound kLow atChild
      · intro _ positive kLow
        exact others i positive (by omega) kLow (by omega)
  | case2 s i inner larger =>
      have childBound := smallerChild_lt (h := h.toHeapInterface) (s := s) inner
      rw [h.less_iff s _ _ (by omega) (by omega), not_lt] at larger
      constructor
      · intro k positive kBound kLow notI
        by_cases parentAtI : parent k = i
        · rw [Edge, parentAtI]
          exact larger.trans (smallerChild_le bound inner positive kBound parentAtI)
        · exact around.edges k positive kBound kLow notI parentAtI
      · rintro (edge | moved) _ _
        · exact edge
        · exact absurd moved (lt_irrefl i)
  | case3 s i leaf =>
      constructor
      · intro k positive kBound kLow notI
        refine around.edges k positive kBound kLow notI fun parentAtI => ?_
        rcases child_of_parent positive parentAtI with left | right <;> omega
      · rintro (edge | moved) _ _
        · exact edge
        · exact absurd moved (lt_irrefl i)

/-- The heap order except on the edge above `j`. -/
structure OrderedBelow (h : KeyedHeap S κ) (s : S) (n j : Nat) : Prop where
  edges : ∀ k, 0 < k → k < n → k ≠ j → h.Edge s k
  across : ∀ k, 0 < k → k < n → parent k = j → 0 < j → h.key s (parent j) ≤ h.key s k

/-- One exchange of `up`. -/
theorem OrderedBelow.swap_parent {s : S} {n j : Nat} (below : h.OrderedBelow s n j)
    (bound : n ≤ h.len s) (jBound : j < n) (positive : 0 < j)
    (smaller : h.key s j < h.key s (parent j)) :
    h.OrderedBelow (h.swap s (parent j) j) n (parent j) := by
  have above := parent_lt positive
  have keySwap := fun k => h.key_swap s (parent j) j k (by omega) (by omega)
  constructor
  · intro k kPositive kBound notParent
    rw [Edge, keySwap, keySwap]
    by_cases atJ : k = j
    · subst atJ
      rw [Equiv.swap_apply_left, Equiv.swap_apply_right]
      exact smaller.le
    · have edge := below.edges k kPositive kBound atJ
      rw [Equiv.swap_apply_of_ne_of_ne notParent atJ]
      by_cases underParent : parent k = parent j
      · rw [underParent, Equiv.swap_apply_left]
        rw [Edge, underParent] at edge
        exact smaller.le.trans edge
      · by_cases underJ : parent k = j
        · rw [underJ, Equiv.swap_apply_right]
          exact below.across k kPositive kBound underJ positive
        · rw [Equiv.swap_apply_of_ne_of_ne underParent underJ]
          exact edge
  · intro k kPositive kBound underParent parentPositive
    have grandparent := parent_lt parentPositive
    have parentEdge := below.edges (parent j) parentPositive (by omega) (by omega)
    rw [keySwap, keySwap, Equiv.swap_apply_of_ne_of_ne (by omega) (by omega)]
    by_cases atJ : k = j
    · rw [atJ, Equiv.swap_apply_right]
      exact parentEdge
    · have kAbove := parent_lt kPositive
      rw [Equiv.swap_apply_of_ne_of_ne (by omega) atJ]
      have edge := below.edges k kPositive kBound atJ
      rw [Edge, underParent] at edge
      exact parentEdge.trans edge

theorem up_ordered {s : S} {n j : Nat} (below : h.OrderedBelow s n j)
    (bound : n ≤ h.len s) (jBound : j < n) :
    h.Ordered (h.up s j) n := by
  fun_induction HeapInterface.up h.toHeapInterface s j with
  | case1 s j stop =>
      intro k positive kBound
      by_cases atJ : k = j
      · subst atJ
        have above := parent_lt positive
        rcases stop with root | inOrder
        · omega
        · have notLess : ¬ h.less s k (parent k) = true := by simp [inOrder]
          rw [h.less_iff s _ _ (by omega) (by omega)] at notLess
          exact not_lt.mp notLess
      · exact below.edges k positive kBound atJ
  | case2 s j continues ih =>
      simp only [not_or, Bool.not_eq_false] at continues
      obtain ⟨notRoot, smaller⟩ := continues
      have positive : 0 < j := by
        by_contra zero
        have : j = 0 := by omega
        exact notRoot (by simp [this, parent])
      have above := parent_lt positive
      rw [h.less_iff s _ _ (by omega) (by omega)] at smaller
      exact ih (below.swap_parent bound jBound positive smaller)
        (by rwa [h.len_swap s _ _ (by omega) (by omega)]) (by omega)

/-- `Push` after the element has been appended at position `n`. -/
theorem up_last_ordered {s : S} {n : Nat} (ordered : h.Ordered s n) (bound : n < h.len s) :
    h.Ordered (h.up s n) (n + 1) := by
  refine up_ordered ⟨fun k positive kBound notLast => ordered k positive (by omega), ?_⟩
    bound (Nat.lt_succ_self n)
  intro k positive kBound under _
  have := parent_lt positive
  omega

theorem initFrom_ordered {s : S} {n : Nat} (bound : n ≤ h.len s) (count : Nat)
    (below : ∀ k, 0 < k → k < n → count ≤ parent k → h.Edge s k) :
    h.Ordered (h.initFrom n count s) n := by
  induction count generalizing s with
  | zero => exact fun k positive kBound => below k positive kBound (Nat.zero_le _)
  | succ i ih =>
      have around : h.OrderedAround s n i i := by
        constructor
        · intro k positive kBound kLow _ notUnder
          exact below k positive kBound (by omega)
        · intro k _ _ _ positive kLow
          have := parent_lt positive
          omega
      refine ih (by rwa [len_down bound]) fun k positive kBound kLow => ?_
      have above := parent_lt positive
      exact (down_ordered around bound le_rfl).1 k positive kBound kLow (by omega)

theorem init_ordered (s : S) : h.Ordered (h.init s) (h.len s) := by
  refine initFrom_ordered le_rfl _ fun k positive kBound kLow => ?_
  simp only [parent] at kLow
  omega

/-- Filling position `i` with the last element leaves the order only around
`i` to be restored. -/
theorem Ordered.swap_last {s : S} {n i : Nat} (ordered : h.Ordered s (n + 1))
    (bound : n + 1 = h.len s) (iBound : i < n) :
    h.OrderedAround (h.swap s i n) n 0 i := by
  have keySwap := fun k => h.key_swap s i n k (by omega) (by omega)
  constructor
  · intro k positive kBound _ notI notUnder
    have above := parent_lt positive
    rw [Edge, keySwap, keySwap, Equiv.swap_apply_of_ne_of_ne notI (by omega),
      Equiv.swap_apply_of_ne_of_ne notUnder (by omega)]
    exact ordered k positive (by omega)
  · intro k positive kBound under iPositive _
    have above := parent_lt positive
    have iAbove := parent_lt iPositive
    rw [keySwap, keySwap, Equiv.swap_apply_of_ne_of_ne (by omega) (by omega),
      Equiv.swap_apply_of_ne_of_ne (by omega) (by omega)]
    have edge := ordered k positive (by omega)
    rw [Edge, under] at edge
    exact (ordered i iPositive (by omega)).trans edge

/-- `Remove` restores the order on what is left. -/
theorem removeSift_ordered {s : S} {n i : Nat} (ordered : h.Ordered s (n + 1))
    (bound : n + 1 = h.len s) (iBound : i ≤ n) :
    h.Ordered (h.removeSift s i) n := by
  have last : h.len s - 1 = n := by omega
  rw [removeSift]
  simp only [last]
  split
  next notLast =>
    have inner : i < n := by omega
    have around := ordered.swap_last bound inner
    have swapLen : h.len (h.swap s i n) = h.len s := h.len_swap s i n (by omega) (by omega)
    obtain ⟨others, atI⟩ := down_ordered around (by omega) (Nat.zero_le i)
    split
    next moved =>
      intro k positive kBound
      by_cases isI : k = i
      · subst isI
        exact atI (.inr moved) positive (Nat.zero_le _)
      · exact others k positive kBound (Nat.zero_le _) isI
    next rested =>
      have reached := le_down (h := h.toHeapInterface) (h.swap s i n) i n
      have unmoved := down_of_rest (h := h.toHeapInterface) (s := h.swap s i n) (n := n) (i := i)
        (by omega)
      rw [unmoved] at others ⊢
      exact up_ordered
        ⟨fun k positive kBound notI => others k positive kBound (Nat.zero_le _) notI,
          fun k positive kBound under iPositive =>
            around.across k positive kBound under iPositive (Nat.zero_le _)⟩
        (by omega) inner
  next =>
    exact fun k positive kBound => ordered k positive (by omega)

/-- `Pop` restores the order on what is left. -/
theorem popSift_ordered {s : S} {n : Nat} (ordered : h.Ordered s (n + 1))
    (bound : n + 1 = h.len s) :
    h.Ordered (h.popSift s) n := by
  have last : h.len s - 1 = n := by omega
  rw [popSift]
  simp only [last]
  rcases Nat.eq_zero_or_pos n with empty | inner
  · intro k positive kBound
    omega
  · have around := ordered.swap_last bound inner
    have swapLen : h.len (h.swap s 0 n) = h.len s := h.len_swap s 0 n (by omega) (by omega)
    intro k positive kBound
    exact (down_ordered around (by omega) (Nat.zero_le 0)).1 k positive kBound (Nat.zero_le _)
      (by omega)

/-- The root of an ordered heap is least. -/
theorem Ordered.root_le {s : S} {n : Nat} (ordered : h.Ordered s n) {k : Nat} (bound : k < n) :
    h.key s 0 ≤ h.key s k := by
  induction k using Nat.strongRecOn with
  | ind k ih =>
      rcases Nat.eq_zero_or_pos k with zero | positive
      · rw [zero]
      · have above := parent_lt positive
        exact (ih (parent k) above (by omega)).trans (ordered k positive bound)

end KeyedHeap

end GoRetroTv
