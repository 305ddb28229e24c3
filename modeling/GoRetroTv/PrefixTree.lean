import Mathlib.Data.List.Infix
import Mathlib.Data.List.Pairwise
import Mathlib.Logic.Function.Basic

/-!
# Prefix trees

Trees whose edges carry characters and some of whose nodes carry values.  A
prefix code put into such a tree is read back one code word at a time, and what
is left of a word that breaks off reads as nothing.
-/

/-- A node: its value, if a word ends here, and its children. -/
inductive PrefixTree (α β : Type) where
  | node (value : Option β) (children : α → Option (PrefixTree α β))

namespace PrefixTree

variable {α β : Type}

def empty : PrefixTree α β :=
  node none fun _ => none

def value : PrefixTree α β → Option β
  | node value _ => value

def child : PrefixTree α β → α → Option (PrefixTree α β)
  | node _ children => children

/-- The node a word leads to. -/
def find : List α → PrefixTree α β → Option (PrefixTree α β)
  | [], tree => some tree
  | a :: word, tree => (tree.child a).bind (find word)

/-- The value of a word. -/
def valueAt (word : List α) (tree : PrefixTree α β) : Option β :=
  (tree.find word).bind value

/-- Read down to the first value: the value and what is left to read. -/
def next : PrefixTree α β → List α → Option (β × List α)
  | _, [] => none
  | tree, a :: word =>
      match tree.child a with
      | none => none
      | some below =>
          match below.value with
          | some found => some (found, word)
          | none => next below word

section Insert

variable [DecidableEq α]

/-- Give a word a value, with the nodes it needs. -/
def insert : List α → β → PrefixTree α β → PrefixTree α β
  | [], inserted, node _ children => node (some inserted) children
  | a :: word, inserted, node value children =>
      let below := insert word inserted ((children a).getD empty)
      node value (Function.update children a (some below))

def ofList (entries : List (List α × β)) : PrefixTree α β :=
  entries.foldl (fun tree entry => tree.insert entry.1 entry.2) empty

end Insert

@[simp]
theorem find_nil (tree : PrefixTree α β) : tree.find [] = some tree :=
  rfl

theorem find_append (first second : List α) (tree : PrefixTree α β) :
    tree.find (first ++ second) = (tree.find first).bind (find second) := by
  induction first generalizing tree with
  | nil => rfl
  | cons a first ih =>
      rw [List.cons_append, find, find]
      cases tree.child a with
      | none => rfl
      | some below => exact ih below

theorem find_empty_cons (a : α) (word : List α) :
    (empty : PrefixTree α β).find (a :: word) = none :=
  rfl

theorem valueAt_empty (word : List α) : (empty : PrefixTree α β).valueAt word = none := by
  cases word <;> rfl

/-- No word is the beginning of another. -/
def PrefixFree (entries : List (List α × β)) : Prop :=
  entries.Pairwise fun first second => ¬ first.1 <+: second.1 ∧ ¬ second.1 <+: first.1

instance [DecidableEq α] (entries : List (List α × β)) : Decidable (PrefixFree entries) :=
  inferInstanceAs (Decidable (entries.Pairwise _))

theorem PrefixFree.eq_of_isPrefix {entries : List (List α × β)} (free : PrefixFree entries)
    {first second : List α × β} (isFirst : first ∈ entries) (isSecond : second ∈ entries)
    (isPrefix : first.1 <+: second.1) : first = second := by
  by_contra different
  have symmetric : Std.Symm fun first second : List α × β =>
      ¬ first.1 <+: second.1 ∧ ¬ second.1 <+: first.1 := ⟨fun _ _ both => both.symm⟩
  exact (List.Pairwise.forall free isFirst isSecond different).1 isPrefix

section Insert

variable [DecidableEq α]

theorem valueAt_insert (word code : List α) (inserted : β) (tree : PrefixTree α β) :
    (tree.insert code inserted).valueAt word =
      if word = code then some inserted else tree.valueAt word := by
  induction code generalizing word tree with
  | nil =>
      cases tree
      cases word <;> rfl
  | cons a code ih =>
      obtain ⟨value, children⟩ := tree
      cases word with
      | nil => rfl
      | cons b word =>
          by_cases same : b = a
          · subst same
            have below := ih word ((children b).getD empty)
            simp only [valueAt, insert, find, child, Function.update_self, Option.bind_some,
              List.cons.injEq, true_and] at below ⊢
            rw [below]
            cases children b with
            | some _ => rfl
            | none =>
                congr 1
                exact valueAt_empty word
          · simp [valueAt, insert, find, child, same]

theorem isSome_find_insert (word code : List α) (inserted : β) (tree : PrefixTree α β) :
    ((tree.insert code inserted).find word).isSome ↔
      word <+: code ∨ (tree.find word).isSome := by
  induction code generalizing word tree with
  | nil =>
      cases tree
      cases word with
      | nil => simp
      | cons b word => simp [insert, find, child]
  | cons a code ih =>
      obtain ⟨value, children⟩ := tree
      cases word with
      | nil => simp
      | cons b word =>
          by_cases same : b = a
          · subst same
            have below := ih word ((children b).getD empty)
            simp only [insert, find, child, Function.update_self, Option.bind_some,
              List.cons_prefix_cons, true_and] at below ⊢
            rw [below]
            cases children b with
            | some _ => rfl
            | none =>
                cases word with
                | nil => simp
                | cons c word => simp [find_empty_cons]
          · simp [insert, find, child, same, List.cons_prefix_cons]

theorem valueAt_foldl_insert (entries : List (List α × β)) (tree : PrefixTree α β)
    {word : List α} {found : β}
    (isValue : (entries.foldl (fun tree entry => tree.insert entry.1 entry.2) tree).valueAt word =
      some found) : (word, found) ∈ entries ∨ tree.valueAt word = some found := by
  induction entries generalizing tree with
  | nil => exact .inr isValue
  | cons entry entries ih =>
      rcases ih (tree.insert entry.1 entry.2) isValue with later | before
      · exact .inl (List.mem_cons_of_mem _ later)
      · rw [valueAt_insert] at before
        split at before
        next same =>
          cases before
          exact .inl (same ▸ List.mem_cons_self ..)
        next => exact .inr before

/-- Every value in the tree comes from the list. -/
theorem mem_of_valueAt_ofList {entries : List (List α × β)} {word : List α} {found : β}
    (isValue : (ofList entries).valueAt word = some found) : (word, found) ∈ entries := by
  rcases valueAt_foldl_insert entries empty isValue with listed | nothing
  · exact listed
  · rw [valueAt_empty] at nothing
    cases nothing

theorem valueAt_foldl_insert_of_notMem (entries : List (List α × β)) (tree : PrefixTree α β)
    {word : List α} (notListed : ∀ entry ∈ entries, word ≠ entry.1) :
    (entries.foldl (fun tree entry => tree.insert entry.1 entry.2) tree).valueAt word =
      tree.valueAt word := by
  induction entries generalizing tree with
  | nil => rfl
  | cons entry entries ih =>
      rw [List.foldl_cons, ih _ fun other member => notListed other (List.mem_cons_of_mem _ member),
        valueAt_insert, if_neg (notListed entry (List.mem_cons_self ..))]

theorem isSome_find_foldl_insert (entries : List (List α × β)) (tree : PrefixTree α β)
    (word : List α) :
    ((entries.foldl (fun tree entry => tree.insert entry.1 entry.2) tree).find word).isSome ↔
      (∃ entry ∈ entries, word <+: entry.1) ∨ (tree.find word).isSome := by
  induction entries generalizing tree with
  | nil => simp
  | cons entry entries ih =>
      rw [List.foldl_cons, ih, isSome_find_insert]
      simp [or_assoc, or_left_comm]

theorem isSome_find_ofList {entries : List (List α × β)} {entry : List α × β}
    (member : entry ∈ entries) {word : List α} (isPrefix : word <+: entry.1) :
    ((ofList entries).find word).isSome :=
  (isSome_find_foldl_insert entries empty word).mpr (.inl ⟨entry, member, isPrefix⟩)

/-- The values of a prefix code are all in its tree. -/
theorem valueAt_ofList {entries : List (List α × β)} (free : PrefixFree entries)
    {entry : List α × β} (member : entry ∈ entries) :
    (ofList entries).valueAt entry.1 = some entry.2 := by
  obtain ⟨before, after, rfl⟩ := List.append_of_mem member
  have apart : ∀ other ∈ after, entry.1 ≠ other.1 := by
    intro other later same
    have pairs := (List.pairwise_append.mp free).2.1
    exact (List.rel_of_pairwise_cons pairs later).1 (same ▸ List.prefix_refl _)
  rw [ofList, List.foldl_append, List.foldl_cons, valueAt_foldl_insert_of_notMem _ _ apart,
    valueAt_insert, if_pos rfl]

/-- No value lies on the way to a word of a prefix code. -/
theorem valueAt_of_isPrefix {entries : List (List α × β)} (free : PrefixFree entries)
    {entry : List α × β} (member : entry ∈ entries) {word : List α} (isPrefix : word <+: entry.1)
    (proper : word ≠ entry.1) : (ofList entries).valueAt word = none := by
  cases found : (ofList entries).valueAt word with
  | none => rfl
  | some _ =>
      have same := free.eq_of_isPrefix (mem_of_valueAt_ofList found) member isPrefix
      exact absurd (congrArg Prod.fst same) proper

/-- One step down the tree of a prefix code. -/
theorem child_ofList {entries : List (List α × β)} {entry : List α × β} (member : entry ∈ entries)
    {word : List α} {a : α} {tree : PrefixTree α β} (reached : (ofList entries).find word = some tree)
    (isPrefix : word ++ [a] <+: entry.1) :
    ∃ below, tree.child a = some below ∧ (ofList entries).find (word ++ [a]) = some below ∧
      below.value = (ofList entries).valueAt (word ++ [a]) := by
  obtain ⟨below, found⟩ := Option.isSome_iff_exists.mp (isSome_find_ofList member isPrefix)
  have step := found
  rw [find_append, reached, Option.bind_some, find] at step
  cases isChild : tree.child a with
  | none => rw [isChild] at step; cases step
  | some other =>
      rw [isChild] at step
      cases step
      exact ⟨below, rfl, found, by rw [valueAt, found]; rfl⟩

/-- A word of a prefix code reads as its value, from wherever on the way. -/
theorem next_ofList {entries : List (List α × β)} (free : PrefixFree entries)
    {entry : List α × β} (member : entry ∈ entries) {read rest : List α} (unread : rest ≠ [])
    (word : read ++ rest = entry.1) {tree : PrefixTree α β}
    (reached : (ofList entries).find read = some tree) (more : List α) :
    tree.next (rest ++ more) = some (entry.2, more) := by
  induction rest generalizing read tree with
  | nil => exact absurd rfl unread
  | cons a rest ih =>
      have isPrefix : read ++ [a] <+: entry.1 := ⟨rest, by rw [← word, List.append_assoc]; rfl⟩
      obtain ⟨below, isChild, found, isValue⟩ := child_ofList member reached isPrefix
      rw [List.cons_append, next, isChild]
      dsimp only
      rw [isValue]
      cases rest with
      | nil =>
          rw [word, valueAt_ofList free member]
          rfl
      | cons b rest =>
          have proper : read ++ [a] ≠ entry.1 := by
            intro same
            have lengths := congrArg List.length (same.trans word.symm)
            simp at lengths
          rw [valueAt_of_isPrefix free member isPrefix proper]
          exact ih (by simp) (by rw [← word, List.append_assoc]; rfl) found

/-- A word that breaks off reads as nothing, and stays on the tree. -/
theorem next_ofList_of_isPrefix {entries : List (List α × β)} (free : PrefixFree entries)
    {entry : List α × β} (member : entry ∈ entries) {read rest : List α}
    (isPrefix : read ++ rest <+: entry.1) (proper : read ++ rest ≠ entry.1)
    {tree : PrefixTree α β} (reached : (ofList entries).find read = some tree) :
    tree.next rest = none ∧ (tree.find rest).isSome := by
  constructor
  · induction rest generalizing read tree with
    | nil => rfl
    | cons a rest ih =>
        have whole : read ++ a :: rest = read ++ [a] ++ rest := by simp
        rw [whole] at isPrefix proper
        have step : read ++ [a] <+: entry.1 := (List.prefix_append _ _).trans isPrefix
        obtain ⟨below, isChild, found, isValue⟩ := child_ofList member reached step
        have notWord : read ++ [a] ≠ entry.1 := by
          intro same
          rw [same] at isPrefix proper
          exact proper (isPrefix.eq_of_length_le (by simp))
        rw [next, isChild]
        dsimp only
        rw [isValue, valueAt_of_isPrefix free member step notWord]
        exact ih isPrefix proper found
  · have found := isSome_find_ofList member isPrefix
    rwa [find_append, reached, Option.bind_some] at found

end Insert

end PrefixTree
