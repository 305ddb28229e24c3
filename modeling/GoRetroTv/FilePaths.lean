import Mathlib.Data.List.Basic
import GoRetroTv.MachineWords

/-!
# File paths

`path/filepath`: cleaning a path element by element, joining a name to a directory, and
the name that a path ends in.
-/

namespace GoRetroTv

namespace Filepath

def slash : Byte := 0x2f

/-- `..` -/
def parent : List Byte := ascii ".."

/-- One element of a path, onto those it has so far, the last of them first. -/
def cleanElement (rooted : Bool) (out : List (List Byte)) (element : List Byte) :
    List (List Byte) :=
  if element = [] ∨ element = ascii "." then out
  else if element = parent then
    match out with
    | [] => if rooted then [] else [parent]
    | top :: below => if top = parent then parent :: top :: below else below
  else element :: out

/-- `filepath.Clean`. -/
def clean (path : List Byte) : List Byte :=
  let rooted := path.head? == some slash
  let elements := ((path.splitOn slash).foldl (cleanElement rooted) []).reverse
  let cleaned := (if rooted then [slash] else []) ++ [slash].intercalate elements
  if cleaned = [] then ascii "." else cleaned

/-- `filepath.Join`, of two elements. -/
def join (dir name : List Byte) : List Byte :=
  if dir = [] then if name = [] then [] else clean name
  else clean (if name = [] then dir else dir ++ slash :: name)

/-- `filepath.Base`. -/
def base (path : List Byte) : List Byte :=
  if path = [] then ascii "."
  else
    let last := ((path.reverse.dropWhile (· = slash)).takeWhile (· ≠ slash)).reverse
    if last = [] then [slash] else last

/-- A path that a name may follow. -/
def Leads (path : List Byte) : Prop :=
  path = [] ∨ ∃ front, path = front ++ [slash]

theorem Leads.cons {path : List Byte} (leads : Leads path) : Leads (slash :: path) := by
  rcases leads with rfl | ⟨front, rfl⟩
  · exact .inr ⟨[], rfl⟩
  · exact .inr ⟨slash :: front, rfl⟩

/-- A name that stands for a file of a directory. -/
structure Plain (name : List Byte) : Prop where
  noSlash : slash ∉ name
  notEmpty : name ≠ []
  notHere : name ≠ ascii "."
  notParent : name ≠ parent

theorem base_append {front name : List Byte} (leads : Leads front) (plain : Plain name) :
    base (front ++ name) = name := by
  have last : ((front ++ name).reverse.dropWhile (· = slash)).takeWhile (· ≠ slash) =
      name.reverse := by
    have stays : (name.reverse ++ front.reverse).dropWhile (· = slash) =
        name.reverse ++ front.reverse := by
      cases reversed : name.reverse with
      | nil => exact absurd (List.reverse_eq_nil_iff.mp reversed) plain.notEmpty
      | cons byte bytes =>
        have member : byte ∈ name := by
          rw [← List.mem_reverse, reversed]
          exact List.mem_cons_self
        have other : byte ≠ slash := fun same => plain.noSlash (same ▸ member)
        rw [List.cons_append, List.dropWhile_cons_of_neg (by simpa using other)]
    rw [List.reverse_append, stays, List.takeWhile_append_of_pos (fun byte member => ?_)]
    · rcases leads with rfl | ⟨front, rfl⟩
      · simp
      · rw [List.reverse_append]
        simp
    · have other : byte ≠ slash := fun same => plain.noSlash (same ▸ List.mem_reverse.mp member)
      simpa using other
  unfold base
  rw [if_neg (by simp [plain.notEmpty]), last, List.reverse_reverse]
  exact if_neg plain.notEmpty

theorem intercalate_snoc (elements : List (List Byte)) (name : List Byte) :
    ∃ front, Leads front ∧ [slash].intercalate (elements ++ [name]) = front ++ name := by
  induction elements with
  | nil => exact ⟨[], .inl rfl, by simp⟩
  | cons element elements ih =>
    obtain ⟨front, leads, joined⟩ := ih
    refine ⟨element ++ slash :: front, ?_, ?_⟩
    · rcases leads.cons with empty | ⟨start, eq⟩
      · nomatch empty
      · exact .inr ⟨element ++ start, by rw [eq, List.append_assoc]⟩
    · rw [List.cons_append, List.intercalate_cons_of_ne_nil (by simp), joined]
      simp

theorem cleanElement_plain {name : List Byte} (plain : Plain name) (rooted : Bool)
    (out : List (List Byte)) : cleanElement rooted out name = name :: out := by
  unfold cleanElement
  rw [if_neg (by simp [plain.notEmpty, plain.notHere]), if_neg plain.notParent]

/-- A name is the last element of the path it makes. -/
theorem base_join {dir name : List Byte} (plain : Plain name) : base (join dir name) = name := by
  have cleaned : ∀ path elements, path.splitOn slash = elements ++ [name] →
      base (clean path) = name := by
    intro path elements split
    unfold clean
    dsimp only
    rw [split, List.foldl_append, List.foldl_cons, List.foldl_nil, cleanElement_plain plain,
      List.reverse_cons]
    obtain ⟨front, leads, joined⟩ := intercalate_snoc
      (elements.foldl (cleanElement (path.head? == some slash)) []).reverse name
    rw [joined, if_neg (by simp [plain.notEmpty]), ← List.append_assoc]
    refine base_append ?_ plain
    split
    · exact leads.cons
    · exact leads
  unfold join
  have single : name.splitOn slash = [name] := List.splitOn_eq_singleton plain.noSlash
  by_cases empty : dir = []
  · rw [if_pos empty, if_neg plain.notEmpty]
    exact cleaned name [] single
  · rw [if_neg empty, if_neg plain.notEmpty]
    refine cleaned _ (dir.splitOn slash) ?_
    rw [List.splitOn_append_cons_self, single]

end Filepath

end GoRetroTv
