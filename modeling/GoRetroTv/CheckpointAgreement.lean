import GoRetroTv.CheckpointComparison
import GoRetroTv.CheckpointRoundTrip

/-!
# What a comparison of checkpoint streams answers

The walk sees one checkpoint of each window, the last.  What it answers is right where the
checkpoints that a later one of their window takes the place of agree with it, and where the
windows end before the counter does.
-/

namespace GoRetroTv

namespace Statehash

/-- The checkpoints of a stream advance, and their counts fit. -/
structure Stream.Ordered (s : Stream) : Prop where
  ordered : s.checkpoints.Pairwise fun c c' => c.icount < c'.icount
  below : ∀ c ∈ s.checkpoints, c.icount < countLimit

/-- A list that increases is nowhere above its last value. -/
theorem le_last {α : Type} {value : α → Nat} {items : List α} {last : α}
    (ordered : items.Pairwise fun x y => value x < value y) (isLast : items.getLast? = some last) :
    ∀ x ∈ items, x = last ∨ value x < value last := by
  obtain ⟨front, rfl⟩ := List.getLast?_eq_some_iff.mp isLast
  intro x member
  rcases List.mem_append.mp member with before | here
  · exact .inr ((List.pairwise_append.mp ordered).2.2 x before last (List.mem_singleton_self last))
  · exact .inl (List.mem_singleton.mp here)

section Accepted

variable {s next : Stream} {line : Nat} {ended ended' : Bool} {text : List Byte}

theorem parseCheckpoint_below {name : String} {c : Checkpoint}
    (parsed : parseCheckpoint name line text = .ok c) : c.icount < countLimit := by
  unfold parseCheckpoint at parsed
  split at parsed
  · obtain ⟨icount, number, parsed⟩ := bind_eq_ok.mp parsed
    obtain ⟨_, _, parsed⟩ := bind_eq_ok.mp parsed
    cases parsed
    exact Strconv.parseUint_lt (Broadcast.wrap_ok number)
  · cases parsed

theorem readLine_ordered (ordered : s.Ordered)
    (read : s.readLine line text ended = .ok (next, ended')) : next.Ordered := by
  unfold Stream.readLine at read
  split at read
  · cases read
    exact ordered
  split at read
  · cases read
  split at read
  · obtain ⟨_, header, read⟩ := bind_eq_ok.mp read
    obtain ⟨_, rfl⟩ := parseHeader_ok header
    cases read
    exact ⟨ordered.ordered, ordered.below⟩
  split at read
  · obtain ⟨_, trailer, read⟩ := bind_eq_ok.mp read
    obtain ⟨_, _, rfl⟩ := parseEnd_ok trailer
    cases read
    exact ⟨ordered.ordered, ordered.below⟩
  · obtain ⟨c, parsed, read⟩ := bind_eq_ok.mp read
    obtain ⟨advances, read⟩ := check_ok read
    cases read
    have after : ∀ c' ∈ s.checkpoints, c'.icount < c.icount := by
      intro c' member
      unfold Stream.advances at advances
      split at advances
      next last isLast =>
        have later : last.icount < c.icount := by simpa using advances
        rcases le_last ordered.ordered isLast c' member with rfl | before
        · exact later
        · exact Nat.lt_trans before later
      next empty =>
        rw [List.getLast?_eq_none_iff.mp empty] at member
        cases member
    constructor
    · refine List.pairwise_append.mpr ⟨ordered.ordered, List.pairwise_singleton _ _, ?_⟩
      intro c' member c'' here
      rw [List.mem_singleton.mp here]
      exact after c' member
    · exact List.forall_mem_append.mpr
        ⟨ordered.below, List.forall_mem_singleton.mpr (parseCheckpoint_below parsed)⟩

theorem readLines_ordered {texts : List (List Byte)} (ordered : s.Ordered)
    (read : s.readLines line ended texts = .ok (next, ended')) : next.Ordered := by
  induction texts generalizing line s ended with
  | nil =>
    cases read
    exact ordered
  | cons text texts ih =>
    unfold Stream.readLines at read
    split at read
    · cases read
    next s' ended'' first => exact ih (readLine_ordered ordered first) read

/-- A stream that is read is in order. -/
theorem readStream_ordered {name : String} {bytes : List Byte}
    (read : readStream name bytes = .ok s) : s.Ordered ∧ 0 < s.interval := by
  have none_ : ({ name } : Stream).Ordered :=
    ⟨List.Pairwise.nil, fun c member => absurd member List.not_mem_nil⟩
  unfold readStream at read
  dsimp only at read
  split at read
  · cases read
  next body ended lines =>
    have ordered := readLines_ordered none_ lines
    split at read
    · cases read
    split at read
    · cases read
    split at read
    · cases read
    next interval =>
      have positive := Nat.pos_iff_ne_zero.mpr interval
      cases ended with
      | true =>
        obtain ⟨-, -, rfl⟩ := checkTrailer_ok read
        exact ⟨⟨ordered.ordered, ordered.below⟩, positive⟩
      | false =>
        cases read
        exact ⟨ordered, positive⟩

end Accepted

/-- What the walk notes of a window. -/
def findingAt (interval : Nat) (wa wb : Nat → Option Checkpoint) (w : Nat) : Option Finding :=
  match wa w, wb w with
  | none, none => none
  | some ca, none =>
      some { Walk.finding interval w .windowMissing with atA := ca, hasA := true }
  | none, some cb =>
      some { Walk.finding interval w .windowMissing with atB := cb, hasB := true }
  | some ca, some cb =>
      if ca.icount ≠ cb.icount then
        some { Walk.finding interval w .cadenceDiverged with
          atA := ca, atB := cb, hasA := true, hasB := true }
      else if ca.hash ≠ cb.hash then
        some { Walk.finding interval w .stateDiverged with
          atA := ca, atB := cb, hasA := true, hasB := true }
      else none

/-- The difference of states that it notes. -/
def stateAt (interval : Nat) (wa wb : Nat → Option Checkpoint) (w : Nat) : Option Finding :=
  (findingAt interval wa wb w).filter fun f => f.kind = .stateDiverged

/-- The checkpoint on which both agree at a window. -/
def equalAt (wa wb : Nat → Option Checkpoint) (w : Nat) : Option Checkpoint :=
  if wa w = wb w then wa w else none

section Windows

variable {interval w : Nat} {wa wb : Nat → Option Checkpoint} {f : Finding} {c : Checkpoint}

theorem findingAt_none : findingAt interval wa wb w = none ↔ wa w = wb w := by
  unfold findingAt
  rcases wa w with _ | ca <;> rcases wb w with _ | cb
  · simp
  · simp
  · simp
  · by_cases counts : ca.icount = cb.icount
    · by_cases hashes : ca.hash = cb.hash
      · have same : ca = cb := by
          cases ca
          cases cb
          congr
        simp [same]
      · have differ : ca ≠ cb := fun same => hashes (by rw [same])
        simp [counts, hashes, differ]
    · have differ : ca ≠ cb := fun same => counts (by rw [same])
      simp [counts, differ]

theorem equalAt_some : equalAt wa wb w = some c ↔ wa w = some c ∧ wb w = some c := by
  unfold equalAt
  by_cases same : wa w = wb w
  · rw [if_pos same, ← same, and_self]
  · rw [if_neg same]
    constructor
    · intro impossible
      cases impossible
    · rintro ⟨first, second⟩
      exact absurd (first.trans second.symm) same

/-- A difference of states is of one count and two hashes. -/
theorem stateAt_some : stateAt interval wa wb w = some f ↔ ∃ ca cb, wa w = some ca ∧
    wb w = some cb ∧ ca.icount = cb.icount ∧ ca.hash ≠ cb.hash ∧
    f = { Walk.finding interval w .stateDiverged with
      atA := ca, atB := cb, hasA := true, hasB := true } := by
  unfold stateAt findingAt
  rcases wa w with _ | ca <;> rcases wb w with _ | cb
  · simp
  · simp [Option.filter_some, Walk.finding]
  · simp [Option.filter_some, Walk.finding]
  · by_cases counts : ca.icount = cb.icount
    · by_cases hashes : ca.hash = cb.hash
      · simp [counts, hashes]
      · simp only [counts, ne_eq, not_true_eq_false, if_false, hashes, not_false_eq_true, if_true,
          Option.filter_some, Walk.finding, decide_true, Option.some.injEq]
        constructor
        · rintro rfl
          exact ⟨ca, cb, rfl, rfl, counts, hashes, rfl⟩
        · rintro ⟨_, _, rfl, rfl, -, -, rfl⟩
          rfl
    · simp [Option.filter_some, counts, Walk.finding]

/-- A window is passed over, agreed on, or noted. -/
theorem step_eq (k : Walk) : Walk.step interval wa wb w k =
    match findingAt interval wa wb w with
    | some f => { k with
        cadence := if f.kind = Kind.cadenceDiverged then k.cadence + 1 else k.cadence }.note f
    | none =>
        match equalAt wa wb w with
        | some c => { k with compared := k.compared + 1, lastEqual := some c }
        | none => k := by
  unfold Walk.step findingAt equalAt
  rcases wa w with _ | ca <;> rcases wb w with _ | cb
  · rfl
  · rfl
  · rfl
  · by_cases counts : ca.icount = cb.icount
    · by_cases hashes : ca.hash = cb.hash
      · have same : ca = cb := by
          cases ca
          cases cb
          congr
        simp [same]
      · simp [counts, hashes, Walk.finding]
    · simp [counts, Walk.finding]

end Windows

/-- What a walk over these windows has found. -/
structure Walked (interval : Nat) (wa wb : Nat → Option Checkpoint) (windows : List Nat)
    (k : Walk) : Prop where
  first : k.first = windows.findSome? (findingAt interval wa wb)
  firstState : k.firstState = windows.findSome? (stateAt interval wa wb)
  lastEqual : k.lastEqual = (windows.filterMap (equalAt wa wb)).getLast?
  before : ∀ front w rest f, windows = front ++ w :: rest →
    (∀ v ∈ front, stateAt interval wa wb v = none) → stateAt interval wa wb w = some f →
    k.lastEqualBeforeFirstState = (front.filterMap (equalAt wa wb)).getLast?
  compared : k.compared = 0 ↔ ∀ w ∈ windows, equalAt wa wb w = none

section Walks

variable {interval w lo hi : Nat} {wa wb : Nat → Option Checkpoint} {windows : List Nat}
  {k : Walk} {f : Finding}

theorem note_first : (k.note f).first = k.first.or (some f) := by
  unfold Walk.note
  cases first : k.first with
  | none =>
    simp only [Option.isNone_none, if_true, Option.none_or]
    split <;> rfl
  | some g =>
    simp only [Option.isNone_some, Bool.false_eq_true, if_false, Option.some_or]
    split <;> exact first

theorem note_firstState : (k.note f).firstState =
    k.firstState.or ((some f).filter fun f => f.kind = .stateDiverged) := by
  unfold Walk.note
  by_cases kind : f.kind = .stateDiverged <;> cases state : k.firstState <;>
    cases first : k.first <;> simp [kind, state, Option.filter_some]

theorem note_before : (k.note f).lastEqualBeforeFirstState =
    if f.kind = .stateDiverged ∧ k.firstState = none then k.lastEqual
    else k.lastEqualBeforeFirstState := by
  unfold Walk.note
  by_cases kind : f.kind = .stateDiverged <;> cases state : k.firstState <;>
    cases first : k.first <;> simp [kind, state]

theorem note_kept : (k.note f).lastEqual = k.lastEqual ∧ (k.note f).compared = k.compared := by
  unfold Walk.note
  dsimp only
  split <;> split <;> exact ⟨rfl, rfl⟩

theorem findSome?_snoc {β : Type} (found : Nat → Option β) :
    (windows ++ [w]).findSome? found = (windows.findSome? found).or (found w) := by
  rw [List.findSome?_append]
  cases here : found w <;> simp [here]

/-- One more window. -/
theorem Walked.step (walked : Walked interval wa wb windows k) :
    Walked interval wa wb (windows ++ [w]) (Walk.step interval wa wb w k) := by
  have lastEqual : ((windows ++ [w]).filterMap (equalAt wa wb)).getLast? =
      (equalAt wa wb w).or k.lastEqual := by
    rw [List.filterMap_append, List.getLast?_append, walked.lastEqual]
    cases equal : equalAt wa wb w <;> simp [equal]
  have compared : (∀ v ∈ windows ++ [w], equalAt wa wb v = none) ↔
      k.compared = 0 ∧ equalAt wa wb w = none := by
    rw [List.forall_mem_append, List.forall_mem_singleton, walked.compared]
  -- The first difference of states is at this window or at one before.
  have places : ∀ front v rest, windows ++ [w] = front ++ v :: rest →
      (front = windows ∧ v = w) ∨ ∃ others, windows = front ++ v :: others := by
    intro front v rest split
    rcases List.eq_nil_or_concat rest with rfl | ⟨others, last, rfl⟩
    · obtain ⟨rfl, same⟩ := List.append_inj' split rfl
      exact .inl ⟨rfl, (List.singleton_inj.mp same).symm⟩
    · rw [List.concat_eq_append, ← List.cons_append, ← List.append_assoc] at split
      exact .inr ⟨others, (List.append_inj' split rfl).1⟩
  have found : ∀ front v others f, windows = front ++ v :: others →
      (∀ u ∈ front, stateAt interval wa wb u = none) → stateAt interval wa wb v = some f →
      k.firstState ≠ none := by
    rintro front v others f rfl - differs none_
    rw [walked.firstState, List.findSome?_eq_none_iff] at none_
    rw [none_ v (List.mem_append_right front List.mem_cons_self)] at differs
    cases differs
  rw [step_eq]
  cases noted : findingAt interval wa wb w with
  | some f =>
    have unequal : equalAt wa wb w = none := by
      unfold equalAt
      rw [if_neg]
      intro same
      rw [findingAt_none.mpr same] at noted
      cases noted
    have state : stateAt interval wa wb w = (some f).filter fun f => f.kind = .stateDiverged := by
      unfold stateAt
      rw [noted]
    dsimp only
    constructor
    · rw [note_first, findSome?_snoc, walked.first, noted]
    · rw [note_firstState, findSome?_snoc, walked.firstState, state]
    · rw [note_kept.1, lastEqual, unequal, Option.none_or]
    · intro front v rest g split none_ differs
      rw [note_before]
      dsimp only
      rcases places front v rest split with ⟨rfl, rfl⟩ | ⟨others, isSplit⟩
      · rw [state, Option.filter_eq_some_iff] at differs
        have kind : f.kind = .stateDiverged := by
          obtain ⟨isIt, kind⟩ := differs
          cases isIt
          exact of_decide_eq_true kind
        have absent : k.firstState = none := by
          rw [walked.firstState, List.findSome?_eq_none_iff]
          exact none_
        rw [if_pos ⟨kind, absent⟩, walked.lastEqual]
      · rw [if_neg fun both => found front v others g isSplit none_ differs both.2]
        exact walked.before front v others g isSplit none_ differs
    · rw [note_kept.2, compared]
      exact (and_iff_left unequal).symm
  | none =>
    have noState : stateAt interval wa wb w = none := by
      unfold stateAt
      rw [noted]
      rfl
    have first : (windows ++ [w]).findSome? (findingAt interval wa wb) = k.first := by
      rw [findSome?_snoc, noted, Option.or_none, walked.first]
    have firstState : (windows ++ [w]).findSome? (stateAt interval wa wb) = k.firstState := by
      rw [findSome?_snoc, noState, Option.or_none, walked.firstState]
    have before : ∀ front v rest f, windows ++ [w] = front ++ v :: rest →
        (∀ u ∈ front, stateAt interval wa wb u = none) → stateAt interval wa wb v = some f →
        k.lastEqualBeforeFirstState = (front.filterMap (equalAt wa wb)).getLast? := by
      intro front v rest g split none_ differs
      rcases places front v rest split with ⟨rfl, rfl⟩ | ⟨others, isSplit⟩
      · rw [noState] at differs
        cases differs
      · exact walked.before front v others g isSplit none_ differs
    cases equal : equalAt wa wb w with
    | some c =>
      constructor
      · exact first.symm
      · exact firstState.symm
      · rw [lastEqual, equal, Option.some_or]
      · exact before
      · rw [compared, equal]
        simp
    | none =>
      constructor
      · exact first.symm
      · exact firstState.symm
      · rw [lastEqual, equal, Option.none_or]
      · exact before
      · rw [compared, equal]
        simp

/-- The walk over some windows. -/
theorem walked_foldl (windows : List Nat) : Walked interval wa wb windows
    (windows.foldl (fun k w => Walk.step interval wa wb w k) {}) := by
  induction windows using List.reverseRecOn with
  | nil =>
    constructor
    · rfl
    · rfl
    · rfl
    · intro front w rest f split
      cases front <;> cases split
    · exact iff_of_true rfl fun w member => absurd member List.not_mem_nil
  | append_singleton windows w ih =>
    rw [List.foldl_append]
    exact ih.step

theorem run_stop {fuel : Nat} (past : hi < w) :
    Walk.run interval wa wb hi (fuel + 1) w k = some k := by
  unfold Walk.run
  rw [if_neg (by omega)]

/-- A loop that ends below the top of the counter visits its windows. -/
theorem run_windows (n : Nat) (windowsLeft : w + n = hi + 1) (below : hi + 1 < countLimit)
    {fuel : Nat} (enough : n < fuel) : Walk.run interval wa wb hi fuel w k =
      some ((List.range' w n).foldl (fun k w => Walk.step interval wa wb w k) k) := by
  induction n generalizing w k fuel with
  | zero =>
    obtain ⟨rest, rfl⟩ := Nat.exists_eq_succ_of_ne_zero (Nat.ne_of_gt enough)
    exact run_stop (by omega)
  | succ n ih =>
    obtain ⟨rest, rfl⟩ := Nat.exists_eq_succ_of_ne_zero (Nat.ne_of_gt (Nat.zero_lt_of_lt enough))
    unfold Walk.run
    rw [if_pos (by omega), wrapAdd_of_lt (by omega), ih (by omega) (by omega)]
    rfl

/-- Only so many windows are left to a loop that ends. -/
theorem run_some {fuel : Nat} {k' : Walk} (n : Nat) (windowsLeft : w + n = hi + 1)
    (below : hi + 1 < countLimit) (ended : Walk.run interval wa wb hi fuel w k = some k') :
    k' = (List.range' w n).foldl (fun k w => Walk.step interval wa wb w k) k := by
  induction n generalizing w k fuel with
  | zero =>
    cases fuel with
    | zero => cases ended
    | succ fuel =>
      rw [run_stop (by omega)] at ended
      exact (Option.some.inj ended).symm
  | succ n ih =>
    cases fuel with
    | zero => cases ended
    | succ fuel =>
      unfold Walk.run at ended
      rw [if_pos (by omega), wrapAdd_of_lt (by omega)] at ended
      exact ih (by omega) ended

/-- A loop to the top of the counter does not end. -/
theorem run_forever (top : hi + 1 = countLimit) (small : w < countLimit) (fuel : Nat) :
    Walk.run interval wa wb hi fuel w k = none := by
  induction fuel generalizing w k with
  | zero => rfl
  | succ fuel ih =>
    unfold Walk.run
    rw [if_pos (by omega)]
    exact ih (Nat.mod_lt _ (by decide))

end Walks

/-- The last checkpoint of a window. -/
def Stream.lastIn (interval : Nat) (s : Stream) (w : Nat) : Option Checkpoint :=
  (s.checkpoints.filter fun c => c.window interval = w).getLast?

section LastIn

variable {s : Stream} {interval w : Nat} {c c' : Checkpoint}

theorem byWindow_eq : s.byWindow interval = s.lastIn interval := by
  funext w
  unfold Stream.byWindow Stream.lastIn
  induction s.checkpoints using List.reverseRecOn with
  | nil => rfl
  | append_singleton cs c ih =>
    rw [List.foldl_append, List.foldl_cons, List.foldl_nil, List.filter_append, List.getLast?_append]
    by_cases here : w = c.window interval
    · rw [here, Function.update_self, List.filter_cons_of_pos (by simp)]
      rfl
    · rw [Function.update_of_ne here, ih, List.filter_cons_of_neg (by simp [Ne.symm here])]
      rfl

theorem lastIn_mem (last : s.lastIn interval w = some c) :
    c ∈ s.checkpoints ∧ c.window interval = w := by
  have member := List.mem_filter.mp (List.mem_of_getLast? last)
  exact ⟨member.1, of_decide_eq_true member.2⟩

theorem lastIn_isSome (member : c ∈ s.checkpoints) (here : c.window interval = w) :
    ∃ last, s.lastIn interval w = some last := by
  have inWindow : c ∈ s.checkpoints.filter fun c => c.window interval = w :=
    List.mem_filter.mpr ⟨member, decide_eq_true here⟩
  exact ⟨_, List.getLast?_eq_some_getLast (List.ne_nil_of_mem inWindow)⟩

/-- No checkpoint of the window comes after it. -/
theorem Stream.Ordered.le_lastIn (ordered : s.Ordered) (last : s.lastIn interval w = some c)
    (member : c' ∈ s.checkpoints) (here : c'.window interval = w) : c'.icount ≤ c.icount := by
  have inWindow : c' ∈ s.checkpoints.filter fun c => c.window interval = w :=
    List.mem_filter.mpr ⟨member, decide_eq_true here⟩
  rcases le_last (ordered.ordered.filter _) last c' inWindow with rfl | before
  · exact Nat.le_refl _
  · exact Nat.le_of_lt before

theorem window_mono (le : c.icount ≤ c'.icount) : c.window interval ≤ c'.window interval :=
  Nat.div_le_div_right le

/-- The windows of a stream lie between its first and its last. -/
theorem Stream.Ordered.within (ordered : s.Ordered) (member : c ∈ s.checkpoints) :
    s.firstWindow interval ≤ c.window interval ∧ c.window interval ≤ s.lastWindow interval := by
  constructor
  · unfold Stream.firstWindow
    cases whole : s.checkpoints with
    | nil => exact Nat.zero_le _
    | cons first rest =>
      change first.window interval ≤ _
      have sorted := ordered.ordered
      rw [whole] at member sorted
      rcases List.mem_cons.mp member with rfl | later
      · exact Nat.le_refl _
      · exact window_mono (Nat.le_of_lt ((List.pairwise_cons.mp sorted).1 c later))
  · unfold Stream.lastWindow
    obtain ⟨last, isLast⟩ : ∃ last, s.checkpoints.getLast? = some last :=
      ⟨_, List.getLast?_eq_some_getLast (List.ne_nil_of_mem member)⟩
    rw [isLast]
    change _ ≤ last.window interval
    rcases le_last ordered.ordered isLast c member with rfl | before
    · exact Nat.le_refl _
    · exact window_mono (Nat.le_of_lt before)

theorem Stream.Ordered.lastWindow_lt (ordered : s.Ordered) :
    s.lastWindow interval < countLimit := by
  unfold Stream.lastWindow
  cases isLast : s.checkpoints.getLast? with
  | none => exact Nat.two_pow_pos 64
  | some last =>
    exact Nat.lt_of_le_of_lt (Nat.div_le_self _ _)
      (ordered.below last (List.mem_of_getLast? isLast))

/-- The first window of a stream has a checkpoint. -/
theorem lastIn_firstWindow (some_ : s.checkpoints ≠ []) :
    ∃ last, s.lastIn interval (s.firstWindow interval) = some last := by
  obtain ⟨first, rest, whole⟩ := List.exists_cons_of_ne_nil some_
  apply @lastIn_isSome s interval _ first
  · rw [whole]
    exact List.mem_cons_self
  · unfold Stream.firstWindow
    rw [whole]
    rfl

theorem firstWindow_le_lastWindow (ordered : s.Ordered) (some_ : s.checkpoints ≠ []) :
    s.firstWindow interval ≤ s.lastWindow interval := by
  obtain ⟨first, rest, whole⟩ := List.exists_cons_of_ne_nil some_
  have inside := @Stream.Ordered.within s interval first ordered (by
    rw [whole]
    exact List.mem_cons_self)
  exact Nat.le_trans inside.1 inside.2

end LastIn

/-- A finding with its sides exchanged. -/
def Finding.swap (f : Finding) : Finding :=
  { f with atA := f.atB, atB := f.atA, hasA := f.hasB, hasB := f.hasA }

section Swapped

variable {interval w : Nat} {wa wb : Nat → Option Checkpoint} {windows : List Nat}

theorem findingAt_swap :
    findingAt interval wb wa w = (findingAt interval wa wb w).map Finding.swap := by
  unfold findingAt
  rcases wa w with _ | ca <;> rcases wb w with _ | cb
  · rfl
  · rfl
  · rfl
  · by_cases counts : ca.icount = cb.icount
    · by_cases hashes : ca.hash = cb.hash
      · simp [counts, hashes]
      · simp [counts, hashes, Ne.symm hashes, Finding.swap]
    · simp [counts, Ne.symm counts, Finding.swap]

theorem stateAt_swap : stateAt interval wb wa w = (stateAt interval wa wb w).map Finding.swap := by
  unfold stateAt
  rw [findingAt_swap]
  cases findingAt interval wa wb w with
  | none => rfl
  | some f =>
    rw [Option.map_some, Option.filter_some, Option.filter_some]
    by_cases kind : f.kind = .stateDiverged <;> simp [kind, Finding.swap]

theorem findSome?_swap {found found' : Nat → Option Finding}
    (swapped : ∀ w, found' w = (found w).map Finding.swap) :
    windows.findSome? found' = (windows.findSome? found).map Finding.swap := by
  rw [List.map_findSome?]
  congr 1
  exact funext swapped

end Swapped

/-- The windows that both streams cover. -/
def Shared (a b : Stream) (w : Nat) : Prop :=
  max (a.firstWindow a.interval) (b.firstWindow a.interval) ≤ w ∧
    w ≤ min (a.lastWindow a.interval) (b.lastWindow a.interval)

/-- A checkpoint of both streams. -/
def Common (a b : Stream) (c : Checkpoint) : Prop :=
  c ∈ a.checkpoints ∧ c ∈ b.checkpoints

/-- A window with equal counts and different hashes. -/
def Differ (a b : Stream) (w : Nat) : Prop :=
  ∃ ca ∈ a.checkpoints, ∃ cb ∈ b.checkpoints, ca.window a.interval = w ∧ ca.icount = cb.icount ∧
    ca.hash ≠ cb.hash

/-- A finding is of the earliest difference of states, and a count lies just after the last
checkpoint before it on which the streams agree. -/
structure FirstDifference (a b : Stream) (f : Finding) (start : Nat) : Prop where
  differ : Differ a b f.window
  earliest : ∀ w < f.window, ¬Differ a b w
  start : (start = 0 ∧ ∀ c, Common a b c → ¬c.window a.interval < f.window) ∨
    ∃ c, Common a b c ∧ c.window a.interval < f.window ∧ start = c.icount + 1 ∧
      ∀ c', Common a b c' → c'.window a.interval < f.window → c'.icount ≤ c.icount

/-- Answers of the same kind, window and finding of states, one with the sides exchanged. -/
def SameAnswer : Except HarnessError Comparison → Except HarnessError Comparison → Prop
  | .ok c, .ok c' => c'.kind = c.kind ∧ c'.window = c.window ∧
      c'.firstState = c.firstState.map Finding.swap
  | .error _, .error _ => True
  | _, _ => False

/-- A comparison ends; agreement means that the streams have the same checkpoints in the
windows they share; the other way round it answers the same; and its finding of states is
the first, and bounds the search behind the last agreement before it. -/
def Answered (a b : Stream) : Prop :=
  ∃ fuel out, compare fuel a b = some out ∧
    (∀ c, out = .ok c → c.kind = .agree → ∀ cp, Shared a b (cp.window a.interval) →
      (cp ∈ a.checkpoints ↔ cp ∈ b.checkpoints)) ∧
    (∃ fuel' out', compare fuel' b a = some out' ∧ SameAnswer out out') ∧
    ∀ c f, out = .ok c → c.firstState = some f → ∃ start stop,
      c.tier2Range = some (start, stop) ∧ FirstDifference a b f start

/-- A checkpoint that a later one of its window takes the place of. -/
def Superseded (interval : Nat) (s : Stream) (c : Checkpoint) : Prop :=
  c ∈ s.checkpoints ∧ s.lastIn interval (c.window interval) ≠ some c

/-- A window whose last checkpoints have equal counts and different hashes. -/
def LastDiffer (a b : Stream) (w : Nat) : Prop :=
  ∃ ca cb, a.lastIn a.interval w = some ca ∧ b.lastIn a.interval w = some cb ∧
    ca.icount = cb.icount ∧ ca.hash ≠ cb.hash

/-- A window whose last checkpoints are equal. -/
def LastEqual (a b : Stream) (w : Nat) : Prop :=
  ∃ c, a.lastIn a.interval w = some c ∧ b.lastIn a.interval w = some c

/-- The shared windows end before the counter does, and the superseded checkpoints do not
speak against the last ones. -/
structure Decided (a b : Stream) : Prop where
  ends : min (a.lastWindow a.interval) (b.lastWindow a.interval) + 1 < countLimit
  agreed : (∀ w, Shared a b w → a.lastIn a.interval w = b.lastIn a.interval w) →
    ∀ c, Shared a b (c.window a.interval) → (Superseded a.interval a c → c ∈ b.checkpoints) ∧
      (Superseded a.interval b c → c ∈ a.checkpoints)
  differed : ∀ w, LastDiffer a b w → (∀ v < w, ¬LastDiffer a b v) →
    (∀ v < w, ¬Differ a b v) ∧
      ∀ c, Common a b c → c.window a.interval < w →
        ∃ v < w, c.window a.interval ≤ v ∧ LastEqual a b v

/-- A stream that `ReadStream` accepts, complete and not empty. -/
structure Accepted (s : Stream) : Prop where
  read : ∃ name bytes, readStream name bytes = .ok s
  complete : s.complete = true
  some_ : s.checkpoints ≠ []

section Compared

variable {a b : Stream} {w : Nat} {c : Checkpoint} {f : Finding}

theorem Accepted.ordered {s : Stream} (accepted : Accepted s) : s.Ordered := by
  obtain ⟨_, _, read⟩ := accepted.read
  exact (readStream_ordered read).1

theorem Accepted.usable {s : Stream} (accepted : Accepted s) : s.usable = .ok () := by
  unfold Stream.usable
  rw [List.getLast?_eq_some_getLast accepted.some_]
  exact if_pos accepted.complete

/-- The windows that both streams cover, in order. -/
def sharedWindows (a b : Stream) : List Nat :=
  let lo := max (a.firstWindow a.interval) (b.firstWindow a.interval)
  List.range' lo (min (a.lastWindow a.interval) (b.lastWindow a.interval) + 1 - lo)

theorem mem_sharedWindows : w ∈ sharedWindows a b ↔ Shared a b w := by
  unfold sharedWindows Shared
  rw [List.mem_range'_1]
  omega

/-- The walk over the windows that both streams cover. -/
def walkOf (a b : Stream) : Walk :=
  (sharedWindows a b).foldl (fun k w =>
    Walk.step a.interval (a.lastIn a.interval) (b.lastIn a.interval) w k) {}

theorem walked_walkOf (a b : Stream) : Walked a.interval (a.lastIn a.interval)
    (b.lastIn a.interval) (sharedWindows a b) (walkOf a b) :=
  walked_foldl _

/-- Streams that cover a window in common. -/
structure Overlapping (a b : Stream) : Prop where
  acceptedA : Accepted a
  acceptedB : Accepted b
  interval : a.interval = b.interval
  first : a.firstWindow a.interval ≤ b.lastWindow a.interval
  second : b.firstWindow a.interval ≤ a.lastWindow a.interval

namespace Overlapping

theorem swap (both : Overlapping a b) : Overlapping b a := by
  obtain ⟨acceptedA, acceptedB, interval, first, second⟩ := both
  rw [interval] at first second
  exact ⟨acceptedB, acceptedA, interval.symm, second, first⟩

theorem compare_eq (both : Overlapping a b) (fuel : Nat) : compare fuel a b =
    (Walk.run a.interval (a.lastIn a.interval) (b.lastIn a.interval)
      (min (a.lastWindow a.interval) (b.lastWindow a.interval)) fuel
      (max (a.firstWindow a.interval) (b.firstWindow a.interval)) {}).map (conclude a b) := by
  have first := both.first
  have second := both.second
  unfold compare
  rw [both.acceptedA.usable, both.acceptedB.usable]
  dsimp only
  rw [if_neg (not_not.mpr both.interval), if_neg (by omega), byWindow_eq, byWindow_eq]

/-- The lowest shared window is one of both, or below the counter's top. -/
theorem lowest (both : Overlapping a b) :
    max (a.firstWindow a.interval) (b.firstWindow a.interval) ≤
      min (a.lastWindow a.interval) (b.lastWindow a.interval) := by
  have firstA := @firstWindow_le_lastWindow _ a.interval both.acceptedA.ordered both.acceptedA.some_
  have firstB := @firstWindow_le_lastWindow _ a.interval both.acceptedB.ordered both.acceptedB.some_
  have first := both.first
  have second := both.second
  omega

theorem returns (both : Overlapping a b)
    (ends : min (a.lastWindow a.interval) (b.lastWindow a.interval) + 1 < countLimit) :
    ∃ fuel, compare fuel a b = some (conclude a b (walkOf a b)) := by
  have lowest := both.lowest
  refine ⟨min (a.lastWindow a.interval) (b.lastWindow a.interval) + 2, ?_⟩
  rw [both.compare_eq, run_windows (min (a.lastWindow a.interval) (b.lastWindow a.interval) + 1 -
    max (a.firstWindow a.interval) (b.firstWindow a.interval)) (by omega) ends (by omega)]
  rfl

/-- A comparison that ends ends below the top of the counter, with the walk's answer. -/
theorem returned (both : Overlapping a b) {fuel : Nat} {out : Except HarnessError Comparison}
    (result : compare fuel a b = some out) :
    min (a.lastWindow a.interval) (b.lastWindow a.interval) + 1 < countLimit ∧
      out = conclude a b (walkOf a b) := by
  have lowest := both.lowest
  have small := @Stream.Ordered.lastWindow_lt _ a.interval both.acceptedA.ordered
  rw [both.compare_eq, Option.map_eq_some_iff] at result
  obtain ⟨k, ran, rfl⟩ := result
  by_cases top : min (a.lastWindow a.interval) (b.lastWindow a.interval) + 1 = countLimit
  · rw [run_forever top (by omega)] at ran
    cases ran
  · have ends : min (a.lastWindow a.interval) (b.lastWindow a.interval) + 1 < countLimit := by omega
    have walked := run_some (min (a.lastWindow a.interval) (b.lastWindow a.interval) + 1 -
      max (a.firstWindow a.interval) (b.firstWindow a.interval)) (by omega) ends ran
    exact ⟨ends, by rw [walked]; rfl⟩

end Overlapping

end Compared

theorem kind_findingAt {interval w : Nat} {wa wb : Nat → Option Checkpoint} {f : Finding}
    (noted : findingAt interval wa wb w = some f) : f.kind ≠ .agree := by
  unfold findingAt at noted
  split at noted
  · cases noted
  · cases noted
    exact Kind.noConfusion
  · cases noted
    exact Kind.noConfusion
  · split at noted
    · cases noted
      exact Kind.noConfusion
    · split at noted
      · cases noted
        exact Kind.noConfusion
      · cases noted

section Answers

variable {a b : Stream} {w : Nat} {f : Finding}

theorem first_none : (walkOf a b).first = none ↔
    ∀ w, Shared a b w → a.lastIn a.interval w = b.lastIn a.interval w := by
  rw [(walked_walkOf a b).first, List.findSome?_eq_none_iff]
  constructor
  · intro none_ w shared
    exact findingAt_none.mp (none_ w (mem_sharedWindows.mpr shared))
  · intro same w member
    exact findingAt_none.mpr (same w (mem_sharedWindows.mp member))

theorem stateAt_lastDiffer :
    (∃ f, stateAt a.interval (a.lastIn a.interval) (b.lastIn a.interval) w = some f) ↔
      LastDiffer a b w := by
  constructor
  · rintro ⟨f, differs⟩
    obtain ⟨ca, cb, first, second, counts, hashes, -⟩ := stateAt_some.mp differs
    exact ⟨ca, cb, first, second, counts, hashes⟩
  · rintro ⟨ca, cb, first, second, counts, hashes⟩
    exact ⟨_, stateAt_some.mpr ⟨ca, cb, first, second, counts, hashes, rfl⟩⟩

/-- A walk over windows that two streams share is an answer. -/
theorem Overlapping.conclude (both : Overlapping a b) :
    ∃ c, conclude a b (walkOf a b) = .ok c ∧
      c.kind = ((walkOf a b).first.map Finding.kind).getD .agree ∧
      c.window = ((walkOf a b).first.map Finding.window).getD 0 ∧
      c.firstState = (walkOf a b).firstState ∧
      ∀ f, c.firstState = some f →
        c.lastEqualBeforeFirstState = (walkOf a b).lastEqualBeforeFirstState := by
  have walked := walked_walkOf a b
  unfold Statehash.conclude
  cases first : (walkOf a b).first with
  | some f => exact ⟨_, rfl, rfl, rfl, rfl, fun _ _ => rfl⟩
  | none =>
    have same := first_none.mp first
    have noState : (walkOf a b).firstState = none := by
      rw [walked.firstState, List.findSome?_eq_none_iff]
      intro w member
      unfold stateAt
      rw [findingAt_none.mpr (same w (mem_sharedWindows.mp member))]
      rfl
    have compared : (walkOf a b).compared ≠ 0 := by
      rw [ne_eq, walked.compared]
      intro never
      -- The lowest shared window is the first of one of the streams.
      have lowest : Shared a b (max (a.firstWindow a.interval) (b.firstWindow a.interval)) :=
        ⟨Nat.le_refl _, both.lowest⟩
      have equal := never _ (mem_sharedWindows.mpr lowest)
      unfold equalAt at equal
      rw [if_pos (same _ lowest)] at equal
      rcases Nat.le_total (a.firstWindow a.interval) (b.firstWindow a.interval) with less | less
      · obtain ⟨last, isLast⟩ := @lastIn_firstWindow _ a.interval both.acceptedB.some_
        rw [same _ lowest, max_eq_right less, isLast] at equal
        cases equal
      · obtain ⟨last, isLast⟩ := @lastIn_firstWindow _ a.interval both.acceptedA.some_
        rw [max_eq_left less, isLast] at equal
        cases equal
    dsimp only
    rw [if_neg compared]
    exact ⟨_, rfl, rfl, rfl, noState.symm, fun f isState => by cases isState⟩

/-- Exchanging the streams exchanges the sides of the answer. -/
theorem Overlapping.same (both : Overlapping a b) :
    SameAnswer (Statehash.conclude a b (walkOf a b)) (Statehash.conclude b a (walkOf b a)) := by
  obtain ⟨c, concluded, kind, window, state, -⟩ := both.conclude
  obtain ⟨c', concluded', kind', window', state', -⟩ := both.swap.conclude
  have windows : sharedWindows b a = sharedWindows a b := by
    unfold sharedWindows
    rw [both.interval, max_comm, min_comm]
  have first : (walkOf b a).first = (walkOf a b).first.map Finding.swap := by
    rw [(walked_walkOf b a).first, (walked_walkOf a b).first, windows, ← both.interval]
    exact findSome?_swap fun w => findingAt_swap
  have firstState : (walkOf b a).firstState = (walkOf a b).firstState.map Finding.swap := by
    rw [(walked_walkOf b a).firstState, (walked_walkOf a b).firstState, windows, ← both.interval]
    exact findSome?_swap fun w => stateAt_swap
  rw [concluded, concluded']
  refine ⟨?_, ?_, ?_⟩
  · rw [kind, kind', first]
    cases (walkOf a b).first <;> rfl
  · rw [window, window', first]
    cases (walkOf a b).first <;> rfl
  · rw [state, state', firstState]

/-- The last value that is found along a list. -/
theorem getLast?_filterMap_some {β : Type} {found : Nat → Option β} {windows : List Nat} {y : β}
    (sorted : windows.Pairwise (· < ·)) (last : (windows.filterMap found).getLast? = some y) :
    ∃ w ∈ windows, found w = some y ∧ ∀ v ∈ windows, (found v).isSome → v ≤ w := by
  induction windows using List.reverseRecOn with
  | nil => cases last
  | append_singleton windows w ih =>
    obtain ⟨front, -, before⟩ := List.pairwise_append.mp sorted
    rw [List.filterMap_append, List.getLast?_append] at last
    cases here : found w with
    | some z =>
      simp only [here, List.filterMap_cons, List.filterMap_nil, List.getLast?_singleton,
        Option.some_or, Option.some.injEq] at last
      subst last
      refine ⟨w, by simp, here, fun v member _ => ?_⟩
      rcases List.mem_append.mp member with inFront | isLast
      · exact Nat.le_of_lt (before v inFront w (List.mem_singleton_self w))
      · exact Nat.le_of_eq (List.mem_singleton.mp isLast)
    | none =>
      simp only [here, List.filterMap_cons, List.filterMap_nil, List.getLast?_nil,
        Option.none_or] at last
      obtain ⟨v, member, isIt, most⟩ := ih front last
      refine ⟨v, List.mem_append_left _ member, isIt, fun u inside found_ => ?_⟩
      rcases List.mem_append.mp inside with inFront | isLast
      · exact most u inFront found_
      · rw [List.mem_singleton.mp isLast, here] at found_
        cases found_

end Answers

section FirstStates

variable {a b : Stream} {w : Nat} {f : Finding} {c : Checkpoint}

/-- A window with a checkpoint in both streams is one that both cover. -/
theorem shared_of_last {ca cb : Checkpoint} (orderedA : a.Ordered) (orderedB : b.Ordered)
    (first : a.lastIn a.interval w = some ca) (second : b.lastIn a.interval w = some cb) :
    Shared a b w := by
  obtain ⟨inA, windowA⟩ := lastIn_mem first
  obtain ⟨inB, windowB⟩ := lastIn_mem second
  have withinA := @Stream.Ordered.within _ a.interval _ orderedA inA
  have withinB := @Stream.Ordered.within _ a.interval _ orderedB inB
  unfold Shared
  omega

/-- What the walk knows of the windows before its difference of states. -/
theorem firstState_eq (orderedA : a.Ordered) (orderedB : b.Ordered)
    (state : (walkOf a b).firstState = some f) :
    LastDiffer a b f.window ∧ (∀ v < f.window, ¬LastDiffer a b v) ∧
      ((walkOf a b).lastEqualBeforeFirstState = none → ∀ v < f.window, ¬LastEqual a b v) ∧
      ∀ c, (walkOf a b).lastEqualBeforeFirstState = some c →
        ∃ v < f.window, a.lastIn a.interval v = some c ∧ b.lastIn a.interval v = some c ∧
          ∀ u < f.window, LastEqual a b u → u ≤ v := by
  have walked := walked_walkOf a b
  have sorted : (sharedWindows a b).Pairwise (· < ·) := List.pairwise_lt_range'
  obtain ⟨front, w, rest, split, differs, none_⟩ :=
    List.findSome?_eq_some_iff.mp (walked.firstState.symm.trans state)
  have isWindow : f.window = w := by
    obtain ⟨_, _, _, _, _, _, rfl⟩ := stateAt_some.mp differs
    rfl
  have before := walked.before front w rest f split none_ differs
  rw [split] at sorted
  obtain ⟨sortedFront, sortedRest, between⟩ := List.pairwise_append.mp sorted
  -- The windows before it are those in front of it that both streams cover.
  have inFront : ∀ v, Shared a b v → v < w → v ∈ front := by
    intro v shared less
    have member := mem_sharedWindows.mpr shared
    rw [split] at member
    rcases List.mem_append.mp member with front_ | later
    · exact front_
    · rcases List.mem_cons.mp later with rfl | behind
      · exact absurd less (Nat.lt_irrefl _)
      · have := (List.pairwise_cons.mp sortedRest).1 v behind
        omega
  have inFrontLess : ∀ v ∈ front, v < w := fun v member => between v member w List.mem_cons_self
  have equal : ∀ v < w, LastEqual a b v → v ∈ front ∧
      (equalAt (a.lastIn a.interval) (b.lastIn a.interval) v).isSome := by
    rintro v less ⟨c, first, second⟩
    refine ⟨inFront v (shared_of_last orderedA orderedB first second) less, ?_⟩
    rw [equalAt_some.mpr ⟨first, second⟩]
    rfl
  rw [isWindow]
  refine ⟨stateAt_lastDiffer.mp ⟨f, differs⟩, ?_, ?_, ?_⟩
  · intro v less differ
    obtain ⟨g, found⟩ := stateAt_lastDiffer.mpr differ
    obtain ⟨ca, cb, first, second, -⟩ := differ
    rw [none_ v (inFront v (shared_of_last orderedA orderedB first second) less)] at found
    cases found
  · intro absent v less isEqual
    rw [before, List.getLast?_eq_none_iff, List.filterMap_eq_nil_iff] at absent
    obtain ⟨member, some_⟩ := equal v less isEqual
    rw [absent v member] at some_
    cases some_
  · intro c last
    rw [before] at last
    obtain ⟨v, member, isIt, most⟩ := getLast?_filterMap_some sortedFront last
    obtain ⟨first, second⟩ := equalAt_some.mp isIt
    refine ⟨v, inFrontLess v member, first, second, fun u less isEqual => ?_⟩
    obtain ⟨inside, some_⟩ := equal u less isEqual
    exact most u inside some_

theorem firstState_of_lastDiffer (orderedA : a.Ordered) (orderedB : b.Ordered)
    (differ : LastDiffer a b w) (first : ∀ v < w, ¬LastDiffer a b v) :
    ∃ f, (walkOf a b).firstState = some f ∧ f.window = w := by
  obtain ⟨g, found⟩ := stateAt_lastDiffer.mpr differ
  obtain ⟨ca, cb, firstLast, secondLast, -⟩ := differ
  have member := mem_sharedWindows.mpr (shared_of_last orderedA orderedB firstLast secondLast)
  cases state : (walkOf a b).firstState with
  | none =>
    rw [(walked_walkOf a b).firstState, List.findSome?_eq_none_iff] at state
    rw [state w member] at found
    cases found
  | some f =>
    obtain ⟨differs, earliest, -⟩ := firstState_eq orderedA orderedB state
    refine ⟨f, rfl, ?_⟩
    rcases Nat.lt_trichotomy f.window w with less | same | more
    · exact absurd differs (first f.window less)
    · exact same
    · exact absurd (stateAt_lastDiffer.mp ⟨g, found⟩) (earliest w more)

/-- The walk's difference is the first, and its bound right, where the superseded checkpoints
before it do not say otherwise. -/
theorem firstDifference_iff {start : Nat} (orderedA : a.Ordered) (orderedB : b.Ordered)
    (state : (walkOf a b).firstState = some f)
    (isStart : start = match (walkOf a b).lastEqualBeforeFirstState with
      | some last => wrapAdd last.icount 1
      | none => 0) :
    FirstDifference a b f start ↔ (∀ v < f.window, ¬Differ a b v) ∧
      ∀ c, Common a b c → c.window a.interval < f.window →
        ∃ v < f.window, c.window a.interval ≤ v ∧ LastEqual a b v := by
  obtain ⟨differ, -, noEqual, lastEqual⟩ := firstState_eq orderedA orderedB state
  have differs : Differ a b f.window := by
    obtain ⟨ca, cb, first, second, counts, hashes⟩ := differ
    obtain ⟨inA, window⟩ := lastIn_mem first
    exact ⟨ca, inA, cb, (lastIn_mem second).1, window, counts, hashes⟩
  cases last : (walkOf a b).lastEqualBeforeFirstState with
  | none =>
    rw [last] at isStart
    have noEqual := noEqual last
    constructor
    · intro right
      refine ⟨right.earliest, fun c common less => ?_⟩
      rcases right.start with ⟨-, none_⟩ | ⟨c', -, -, isNext, -⟩
      · exact absurd less (none_ c common)
      · dsimp only at isStart
        omega
    · rintro ⟨earliest, agreed⟩
      refine ⟨differs, earliest, .inl ⟨isStart, fun c common less => ?_⟩⟩
      obtain ⟨v, before, -, equal⟩ := agreed c common less
      exact noEqual v before equal
  | some l =>
    obtain ⟨v, less, first, second, most⟩ := lastEqual l last
    obtain ⟨inA, window⟩ := lastIn_mem first
    obtain ⟨inB, -⟩ := lastIn_mem second
    -- There is a later checkpoint, so that the count has room for one more.
    have room : l.icount + 1 < countLimit := by
      obtain ⟨ca, cb, firstLast, -⟩ := differ
      obtain ⟨inA', window'⟩ := lastIn_mem firstLast
      have below := orderedA.below ca inA'
      have : l.icount < ca.icount := by
        by_contra later
        have := @window_mono a.interval ca l (Nat.not_lt.mp later)
        omega
      omega
    rw [last] at isStart
    dsimp only at isStart
    rw [wrapAdd_of_lt room] at isStart
    constructor
    · intro right
      refine ⟨right.earliest, fun c common before => ⟨v, less, ?_, l, first, second⟩⟩
      rcases right.start with ⟨zero, -⟩ | ⟨c', -, -, isNext, greatest⟩
      · omega
      · have := greatest c common before
        rw [← window]
        exact window_mono (by omega)
    · rintro ⟨earliest, agreed⟩
      refine ⟨differs, earliest, .inr ⟨l, ⟨inA, inB⟩, by omega, isStart, ?_⟩⟩
      intro c common before
      obtain ⟨u, lessU, within, equal⟩ := agreed c common before
      have atMost := most u lessU equal
      by_cases same : c.window a.interval = v
      · exact orderedA.le_lastIn first common.1 same
      · by_contra later
        have := @window_mono a.interval l c (by omega)
        omega

end FirstStates

section Every

variable {a b : Stream}

/-- The superseded checkpoints decide whether agreement is of all. -/
theorem agreement_iff (same : ∀ w, Shared a b w → a.lastIn a.interval w = b.lastIn a.interval w) :
    (∀ c, Shared a b (c.window a.interval) → (c ∈ a.checkpoints ↔ c ∈ b.checkpoints)) ↔
      ∀ c, Shared a b (c.window a.interval) → (Superseded a.interval a c → c ∈ b.checkpoints) ∧
        (Superseded a.interval b c → c ∈ a.checkpoints) := by
  constructor
  · intro all c shared
    exact ⟨fun old => (all c shared).mp old.1, fun old => (all c shared).mpr old.1⟩
  · intro agreed c shared
    obtain ⟨first, second⟩ := agreed c shared
    constructor
    · intro member
      by_cases last : a.lastIn a.interval (c.window a.interval) = some c
      · rw [same _ shared] at last
        exact (lastIn_mem last).1
      · exact first ⟨member, last⟩
    · intro member
      by_cases last : b.lastIn a.interval (c.window a.interval) = some c
      · rw [← same _ shared] at last
        exact (lastIn_mem last).1
      · exact second ⟨member, last⟩

/-- A comparison of overlapping streams answers right where they are decided. -/
theorem Overlapping.answered_iff (both : Overlapping a b) : Answered a b ↔ Decided a b := by
  have orderedA := both.acceptedA.ordered
  have orderedB := both.acceptedB.ordered
  obtain ⟨c, concluded, kind, -, state, last⟩ := both.conclude
  have agree : c.kind = .agree ↔
      ∀ w, Shared a b w → a.lastIn a.interval w = b.lastIn a.interval w := by
    rw [kind, ← first_none]
    cases first : (walkOf a b).first with
    | none => exact iff_of_true rfl rfl
    | some f =>
      have noted := first
      rw [(walked_walkOf a b).first] at noted
      obtain ⟨_, _, _, _, isIt, -⟩ := List.findSome?_eq_some_iff.mp noted
      refine iff_of_false (kind_findingAt isIt) ?_
      intro none_
      cases none_
  have range : ∀ f, c.firstState = some f → ∃ start stop,
      c.tier2Range = some (start, stop) ∧
        start = match (walkOf a b).lastEqualBeforeFirstState with
          | some last => wrapAdd last.icount 1
          | none => 0 := by
    intro f isState
    unfold Comparison.tier2Range
    rw [isState, last f isState]
    exact ⟨_, _, rfl, rfl⟩
  constructor
  · rintro ⟨fuel, out, result, agreed, -, differed⟩
    obtain ⟨ends, rfl⟩ := both.returned result
    refine ⟨ends, fun same => ?_, fun w differ earliest => ?_⟩
    · exact (agreement_iff same).mp (agreed c concluded (agree.mpr same))
    · obtain ⟨f, isState, rfl⟩ := firstState_of_lastDiffer orderedA orderedB differ earliest
      obtain ⟨start, stop, isRange, right⟩ := differed c f concluded (state.trans isState)
      obtain ⟨start', stop', isRange', isStart⟩ := range f (state.trans isState)
      rw [isRange] at isRange'
      cases isRange'
      exact (firstDifference_iff orderedA orderedB isState isStart).mp right
  · intro decided
    obtain ⟨fuel, result⟩ := both.returns decided.ends
    have endsBack : min (b.lastWindow b.interval) (a.lastWindow b.interval) + 1 < countLimit := by
      rw [← both.interval, min_comm]
      exact decided.ends
    obtain ⟨fuel', result'⟩ := both.swap.returns endsBack
    refine ⟨fuel, _, result, ?_, ⟨fuel', _, result', both.same⟩, ?_⟩
    · intro c' isIt isAgree
      cases concluded.symm.trans isIt
      have same := agree.mp isAgree
      exact (agreement_iff same).mpr (decided.agreed same)
    · intro c' f isIt isState
      cases concluded.symm.trans isIt
      obtain ⟨start, stop, isRange, isStart⟩ := range f isState
      have isState := state.symm.trans isState
      obtain ⟨differ, earliest, -⟩ := firstState_eq orderedA orderedB isState
      refine ⟨start, stop, isRange, ?_⟩
      exact (firstDifference_iff orderedA orderedB isState isStart).mpr
        (decided.differed f.window differ earliest)

/-- Streams that no comparison can look at are refused, either way round. -/
theorem refused {error : HarnessError} {fuel : Nat} (first : compare fuel a b = some (.error error))
    {error' : HarnessError} (second : compare fuel b a = some (.error error')) : Answered a b := by
  refine ⟨fuel, _, first, fun c isIt => ?_, ⟨fuel, _, second, trivial⟩, fun c f isIt => ?_⟩
  · cases isIt
  · cases isIt

theorem usable_compare (acceptedA : Accepted a) (acceptedB : Accepted b) (fuel : Nat)
    (apart : a.interval ≠ b.interval ∨ b.lastWindow a.interval < a.firstWindow a.interval ∨
      a.lastWindow a.interval < b.firstWindow a.interval) :
    ∃ error, compare fuel a b = some (.error error) := by
  unfold compare
  rw [acceptedA.usable, acceptedB.usable]
  dsimp only
  by_cases interval : a.interval ≠ b.interval
  · rw [if_pos interval]
    exact ⟨_, rfl⟩
  · rw [if_neg interval, if_pos (apart.resolve_left interval)]
    exact ⟨_, rfl⟩

/-- Every comparison of accepted streams answers right if and only if they are decided, or
sampled at different intervals. -/
theorem compare_answered_iff (acceptedA : Accepted a) (acceptedB : Accepted b) :
    Answered a b ↔ (a.interval = b.interval → Decided a b) := by
  by_cases interval : a.interval = b.interval
  · by_cases apart : b.lastWindow a.interval < a.firstWindow a.interval ∨
        a.lastWindow a.interval < b.firstWindow a.interval
    · have noShared : ∀ w, ¬Shared a b w := by
        unfold Shared
        omega
      have smallA := @Stream.Ordered.lastWindow_lt _ a.interval acceptedA.ordered
      have smallB := @Stream.Ordered.lastWindow_lt _ a.interval acceptedB.ordered
      have firstA := @firstWindow_le_lastWindow _ a.interval acceptedA.ordered acceptedA.some_
      have firstB := @firstWindow_le_lastWindow _ a.interval acceptedB.ordered acceptedB.some_
      obtain ⟨_, first⟩ := usable_compare acceptedA acceptedB 0 (.inr apart)
      obtain ⟨_, second⟩ := usable_compare acceptedB acceptedA 0 (.inr (by
        rw [← interval]
        exact apart.symm))
      refine iff_of_true (refused first second) fun _ => ⟨by omega, ?_, ?_⟩
      · exact fun _ c shared => absurd shared (noShared _)
      · rintro w ⟨ca, cb, first, second, -⟩
        exact absurd (shared_of_last acceptedA.ordered acceptedB.ordered first second) (noShared w)
    · have both : Overlapping a b :=
        ⟨acceptedA, acceptedB, interval, by omega, by omega⟩
      rw [both.answered_iff]
      exact ⟨fun decided _ => decided, fun decided => decided interval⟩
  · obtain ⟨_, first⟩ := usable_compare acceptedA acceptedB 0 (.inl interval)
    obtain ⟨_, second⟩ := usable_compare acceptedB acceptedA 0 (.inl (Ne.symm interval))
    exact iff_of_true (refused first second) fun same => absurd same interval

end Every

/-- A stream as it is read back. -/
def streamOf (name : String) (interval : Nat) (cs : List Checkpoint) : Stream where
  name := name
  interval := interval
  checkpoints := cs
  complete := true
  declaredCount := cs.length
  declaredLast := (cs.getLast?.map Checkpoint.icount).getD 0

theorem accepted_streamOf {interval : Nat} {cs : List Checkpoint} (name : String)
    (emitted : Emitted interval cs) (some_ : cs ≠ []) : Accepted (streamOf name interval cs) where
  read := ⟨name, _, emitted.readStream⟩
  complete := rfl
  some_ := some_

/-- The oracle steps over a boundary at which the port samples. -/
theorem compare_answered_iff_branch :
    Answered (streamOf "oracle" 1000 [⟨0, 1⟩, ⟨1001, 2⟩]) (streamOf "go" 1000 [⟨0, 1⟩, ⟨1000, 2⟩]) ↔
      (1000 = 1000 → Decided (streamOf "oracle" 1000 [⟨0, 1⟩, ⟨1001, 2⟩])
        (streamOf "go" 1000 [⟨0, 1⟩, ⟨1000, 2⟩])) :=
  compare_answered_iff
    (accepted_streamOf "oracle" ⟨by decide, by decide, by decide, by decide, by decide⟩
      (List.cons_ne_nil _ _))
    (accepted_streamOf "go" ⟨by decide, by decide, by decide, by decide, by decide⟩
      (List.cons_ne_nil _ _))

/-- Streams that both end at the largest count are compared for ever. -/
theorem largest_count_unanswered :
    ¬∀ a b : Stream, Accepted a → Accepted b → Answered a b := by
  intro always
  have accepted : Accepted (streamOf "go" 1 [⟨2 ^ 64 - 1, 0⟩]) :=
    accepted_streamOf "go" ⟨by decide, by decide, by decide, by decide, by decide⟩
      (List.cons_ne_nil _ _)
  have both : Overlapping (streamOf "go" 1 [⟨2 ^ 64 - 1, 0⟩]) (streamOf "go" 1 [⟨2 ^ 64 - 1, 0⟩]) :=
    ⟨accepted, accepted, rfl, Nat.le_refl _, Nat.le_refl _⟩
  obtain ⟨fuel, out, result, -⟩ := always _ _ accepted accepted
  have ends := (both.returned result).1
  revert ends
  decide

end Statehash

end GoRetroTv
