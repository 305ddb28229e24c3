import GoRetroTv.FallibleActions
import GoRetroTv.SnapshotSetLaws
import Mathlib.Logic.Function.Basic

/-!
# Snapshots of several owners

A bus and a machine each keep one set: a member for every part that owns some state.  The parts
are named, so what is gathered under the names reads back owner by owner.
-/

namespace GoRetroTv

namespace Snapcodec

variable {κ : Type}

/-- Blobs by owner, until one fails. -/
def gather [DecidableEq κ] (f : κ → Except String (List Byte)) :
    List κ → Except String (κ → List Byte)
  | [] => .ok fun _ => []
  | k :: ks => do
      let blob ← f k
      let blobs ← gather f ks
      return Function.update blobs k blob

/-- The saved owners, added one by one; `saving` and `adding` are what the errors begin with. -/
def addOwners (name : κ → List Byte) (save : κ → Except String (List Byte))
    (saving adding : κ → String) : List κ → SetWriter → Except String SetWriter
  | [], w => .ok w
  | k :: ks, w =>
      match save k with
      | .error error => .error (saving k ++ error)
      | .ok blob =>
          let w := w.add (name k) blob
          match w.err with
          | some error => .error (adding k ++ error)
          | none => addOwners name save saving adding ks w

/-- The members of some owners. -/
def ownerEntries (name : κ → List Byte) (ks : List κ) (blobs : κ → List Byte) :
    List (List Byte × List Byte) :=
  ks.map fun k => (name k, blobs k)

theorem labelled_ok {α : Type} {label : String} {result : Except String α} {value : α} :
    labelled label result = .ok value ↔ result = .ok value := by
  cases result <;> simp [labelled]

section Gather

variable [DecidableEq κ] {f : κ → Except String (List Byte)} {ks : List κ} {blobs : κ → List Byte}

theorem gather_ok (gathered : gather f ks = .ok blobs) : ∀ k ∈ ks, f k = .ok (blobs k) := by
  induction ks generalizing blobs with
  | nil => exact fun k member => (by cases member)
  | cons first ks ih =>
    obtain ⟨blob, here, gathered⟩ := bind_eq_ok.mp gathered
    obtain ⟨rest, later, returned⟩ := bind_eq_ok.mp gathered
    cases returned
    intro k member
    by_cases same : k = first
    · rw [same, Function.update_self, here]
    · rw [Function.update_of_ne same]
      exact ih later k ((List.mem_cons.mp member).resolve_left same)

theorem gather_of_ok (here : ∀ k ∈ ks, f k = .ok (blobs k)) :
    ∃ gathered, gather f ks = .ok gathered ∧ ∀ k ∈ ks, gathered k = blobs k := by
  suffices some_ : ∃ gathered, gather f ks = .ok gathered by
    obtain ⟨gathered, isGathered⟩ := some_
    exact ⟨gathered, isGathered, fun k member =>
      Except.ok.inj ((gather_ok isGathered k member).symm.trans (here k member))⟩
  induction ks with
  | nil => exact ⟨_, rfl⟩
  | cons first ks ih =>
    obtain ⟨rest, later⟩ := ih fun k member => here k (List.mem_cons_of_mem first member)
    exact ⟨_, bind_eq_ok.mpr ⟨_, here first List.mem_cons_self, bind_eq_ok.mpr ⟨rest, later, rfl⟩⟩⟩

end Gather

section Owners

variable {name : κ → List Byte} {save : κ → Except String (List Byte)}
  {saving adding : κ → String} {ks : List κ} {w w' : SetWriter} {blobs : κ → List Byte}

theorem add_free {member blob : List Byte} (fresh : w.err = none) (named : member ≠ [])
    (free : member ∉ w.members.names) :
    (w.add member blob).err = none ∧
      (w.add member blob).members.names = w.members.names ++ [member] := by
  unfold SetWriter.add
  rw [fresh, if_neg (by simp), if_neg named, dif_pos free]
  exact ⟨rfl, List.map_append⟩

/-- Owners under distinct names are saved and added. -/
theorem addOwners_ok [DecidableEq κ] (fresh : w.err = none) (distinct : ks.Nodup)
    (added : addOwners name save saving adding ks w = .ok w') :
    ∃ blobs : κ → List Byte, (∀ k ∈ ks, save k = .ok (blobs k)) ∧
      w' = addAll (ownerEntries name ks blobs) w ∧ w'.err = none := by
  induction ks generalizing w with
  | nil =>
    cases added
    exact ⟨fun _ => [], fun k member => (by cases member), rfl, fresh⟩
  | cons k ks ih =>
    have ⟨new, distinct⟩ := List.nodup_cons.mp distinct
    unfold addOwners at added
    split at added
    · cases added
    next blob saved =>
      dsimp only at added
      split at added
      · cases added
      next kept =>
        obtain ⟨blobs, later, isAdded, fine⟩ := ih kept distinct added
        have rest (other : κ) (member : other ∈ ks) :
            Function.update blobs k blob other = blobs other :=
          Function.update_of_ne (fun same : other = k => new (same ▸ member)) _ _
        refine ⟨Function.update blobs k blob, fun other member => ?_, ?_, fine⟩
        · rcases List.mem_cons.mp member with rfl | member
          · rw [Function.update_self, saved]
          · rw [rest other member]
            exact later other member
        · have entries : ownerEntries name ks (Function.update blobs k blob) =
              ownerEntries name ks blobs :=
            List.map_congr_left fun other member => congrArg (Prod.mk _) (rest other member)
          rw [isAdded, ← entries]
          unfold ownerEntries
          rw [List.map_cons, Function.update_self]
          rfl

/-- Owners that are all saved, under distinct names, are all added. -/
theorem addOwners_of_ok (fresh : w.err = none) (named : ∀ k ∈ ks, name k ≠ [])
    (distinct : (w.members.names ++ ks.map name).Nodup) (saved : ∀ k ∈ ks, save k = .ok (blobs k)) :
    addOwners name save saving adding ks w = .ok (addAll (ownerEntries name ks blobs) w) := by
  induction ks generalizing w with
  | nil => rfl
  | cons k ks ih =>
    have free : name k ∉ w.members.names := fun taken =>
      (List.nodup_append.mp distinct).2.2 _ taken _ List.mem_cons_self rfl
    obtain ⟨kept, names⟩ := @add_free _ _ (blobs k) fresh (named k List.mem_cons_self) free
    unfold addOwners
    rw [saved k List.mem_cons_self]
    dsimp only
    rw [kept]
    refine (ih kept (fun other member => named other (List.mem_cons_of_mem k member)) ?_
      fun other member => saved other (List.mem_cons_of_mem k member)).trans rfl
    rwa [names, List.append_assoc]

/-- Distinct owners have distinct members. -/
theorem ownerEntries_collection (named : ∀ k ∈ ks, name k ≠ []) (distinct : (ks.map name).Nodup) :
    Collection (ownerEntries name ks blobs) where
  distinct := by
    unfold ownerEntries
    rwa [List.map_map]
  named entry member := by
    obtain ⟨k, owner, rfl⟩ := List.mem_map.mp member
    exact named k owner

end Owners

/-- What a set takes besides its members is its container. -/
theorem blob_addAll_length {entries : List (List Byte × List Byte)} {label blob : List Byte}
    {version : Half} (collection : Collection entries)
    (taken : (addAll entries (newSetWriter label version)).blob = .ok blob) :
    blob.length = headerSize + label.length + (encodeMembers entries).length := by
  obtain ⟨-, -, rfl⟩ := blob_addAll collection taken
  have sorted : collection.members.sorted.entries.Perm entries :=
    List.perm_insertionSort Members.nameOrder _
  rw [frame_length, encodeMembers_length_of_perm sorted]

/-- Under a name is its only entry. -/
theorem Members.find?_eq_some {members : Members} {name blob : List Byte} :
    members.find? name = some blob ↔ (name, blob) ∈ members.entries := by
  unfold find?
  have distinct := members.distinct
  revert distinct
  generalize members.entries = entries
  intro distinct
  induction entries with
  | nil => simp
  | cons entry entries ih =>
    obtain ⟨first, value⟩ := entry
    rw [List.map_cons, List.nodup_cons] at distinct
    by_cases same : name = first
    · subst same
      rw [List.lookup_cons_self, List.mem_cons]
      constructor
      · intro here
        cases here
        exact .inl rfl
      · rintro (here | later)
        · cases here
          rfl
        · exact absurd (List.mem_map_of_mem later) distinct.1
    · rw [List.lookup_cons, beq_false_of_ne same]
      simp [ih distinct.2, same]

/-- A set opens as its owners' blobs. -/
theorem openSet_owners {κ : Type} {name : κ → List Byte} {ks : List κ} {blobs : κ → List Byte}
    {label blob : List Byte} {version low high : Half}
    (collection : Collection (ownerEntries name ks blobs))
    (taken : (addAll (ownerEntries name ks blobs) (newSetWriter label version)).blob = .ok blob)
    (lowBound : low ≤ version) (highBound : version ≤ high) :
    ∃ set, openSet blob label low high = .ok set ∧ set.version = version ∧
      (∀ member, member ∈ set.members.names ↔ member ∈ ks.map name) ∧
      ∀ k ∈ ks, set.members.find? (name k) = some (blobs k) := by
  obtain ⟨nameFits, fits, rfl⟩ := blob_addAll collection taken
  have sorted : collection.members.sorted.entries.Perm (ownerEntries name ks blobs) :=
    List.perm_insertionSort Members.nameOrder _
  refine ⟨_, openSet_frame nameFits fits lowBound highBound, rfl, fun member => ?_,
    fun k owner => ?_⟩
  · have same := (sorted.map Prod.fst).mem_iff (a := member)
    unfold ownerEntries at same
    rwa [List.map_map] at same
  · exact Members.find?_eq_some.mpr (sorted.mem_iff.mpr (List.mem_map_of_mem owner))

end Snapcodec

end GoRetroTv
