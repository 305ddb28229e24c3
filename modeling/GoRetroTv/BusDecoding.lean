import GoRetroTv.BinarySearch
import GoRetroTv.DramAccess
import GoRetroTv.SnapshotCodec
import Mathlib.Data.List.Sort

/-!
# The bus's address decoder

`internal/bus/bus.go`: the regions attached to the bus and the search for the one that
holds a physical address.  The search tries the region of the last hit and then searches
the sorted regions by halves; a scan of all of them is what it stands for.
-/

namespace GoRetroTv

namespace Hexfmt

def range (lo hi : Word) : String :=
  addr lo ++ ".." ++ addr hi

end Hexfmt

namespace MemoryMap

open Cpu (physical)
open Snapcodec (quoted)

def physSize : Nat :=
  0x20000000

structure Region (Device : Type) where
  base : Word
  size : Word
  dev : Device

/-- The decoder.  `last` is the index of the last region hit, if it is known. -/
structure Bus (Device : Type) where
  regions : List (Region Device) := []
  names : List (List Byte) := []
  last : Option Nat := none

/-- The outcome of an operation and the bus it leaves. -/
abbrev Outcome (Device : Type) :=
  Bus Device × Except String Unit

variable {Device : Type}

namespace Region

/-- A physical address is one of the region's. -/
def contains (phys : Word) (r : Region Device) : Bool :=
  decide (r.base.toNat ≤ phys.toNat ∧ phys.toNat < r.base.toNat + r.size.toNat)

/-- The test of `find`, on unsigned differences. -/
def within (phys : Word) (r : Region Device) : Bool :=
  decide (phys - r.base < r.size)

/-- The test of `Attach`. -/
def meets (phys size : Word) (r : Region Device) : Bool :=
  decide (phys < r.base + r.size ∧ r.base < phys + size)

end Region

namespace Bus

/-- One more region, in the order of the bases. -/
def insert (name : List Byte) (r : Region Device) (b : Bus Device) : Bus Device where
  regions := (b.regions ++ [r]).mergeSort fun r s => decide (r.base ≤ s.base)
  names := name :: b.names
  last := none

variable (name : Device → List Byte)

/-- `Attach`. -/
def attach (base size : Word) (d : Option Device) (b : Bus Device) : Outcome Device :=
  match d with
  | none => (b, .error s!"bus: attach at {Hexfmt.addr base}: device is nil")
  | some d =>
      if name d = [] then
        (b, .error <| s!"bus: attach at {Hexfmt.addr base}: device has no name, and the name " ++
          "is its key in a machine snapshot")
      else if b.names.contains (name d) then
        (b, .error <| s!"bus: attach {quoted (name d)} at {Hexfmt.addr base}: a device is " ++
          s!"already called {quoted (name d)}, and a snapshot keyed by name could not tell them " ++
          "apart")
      else if size = 0 then
        (b, .error s!"bus: attach {quoted (name d)} at {Hexfmt.addr base}: size is zero")
      else
        match physical base with
        | none =>
            (b, .error <| s!"bus: attach {quoted (name d)} at {Hexfmt.addr base}: not in KSEG0 " ++
              "or KSEG1, the only segments this machine addresses without a TLB")
        | some phys =>
            if physSize < phys.toNat + size.toNat then
              (b, .error <| s!"bus: attach {quoted (name d)} at {Hexfmt.addr base}: " ++
                s!"{size.toNat} bytes runs past the end of physical space at " ++
                Hexfmt.addr (BitVec.ofNat 32 (physSize - 1)))
            else
              match b.regions.find? (Region.meets phys size) with
              | some r =>
                  (b, .error <| s!"bus: attach {quoted (name d)} at {Hexfmt.addr base} " ++
                    s!"(physical {Hexfmt.range phys (phys + size - 1)}): already mapped by " ++
                    s!"{quoted (name r.dev)} at physical " ++
                    Hexfmt.range r.base (r.base + r.size - 1))
              | none =>
                  (b.insert (name d) { base := phys, size, dev := d }, .ok ())

/-- The region of the last hit, if the address is one of its. -/
def cached (phys : Word) (b : Bus Device) : Option (Region Device) :=
  (b.last.bind (b.regions[·]?)).filter (Region.within phys)

/-- The region at an index starts after the address. -/
def startsAfter (phys : Word) (b : Bus Device) (i : Nat) : Bool :=
  (b.regions[i]?).any fun r => decide (phys < r.base)

/-- `find`: the region of a physical address. -/
def find (phys : Word) (b : Bus Device) : Option (Region Device) × Bus Device :=
  match b.cached phys with
  | some r => (some r, b)
  | none =>
      -- The first region starting after the address; the one before it may hold it.
      let i := BinarySearch.search (b.startsAfter phys) 0 b.regions.length
      if i = 0 then (none, b)
      else
        match b.regions[i - 1]? with
        | none => (none, b)
        | some r =>
            if r.within phys then (some r, { b with last := some (i - 1) }) else (none, b)

/-- The device and the offset in it that `Read` and `Write` reach. -/
def access (virt : Word) (b : Bus Device) : Option (Device × Word) × Bus Device :=
  match physical virt with
  | none => (none, b)
  | some phys =>
      match b.find phys with
      | (none, b) => (none, b)
      | (some r, b) => (some (r.dev, phys - r.base), b)

end Bus

/-- What is done to a bus. -/
inductive Action (Device : Type) where
  | attach (base size : Word) (d : Option Device)
  | access (virt : Word)

namespace Bus

variable (name : Device → List Byte)

def perform (b : Bus Device) : Action Device → Bus Device
  | .attach base size d => (b.attach name base size d).1
  | .access virt => (b.access virt).2

def run (actions : List (Action Device)) : Bus Device :=
  actions.foldl (perform name) {}

end Bus

/-- The plain meaning of the decoder: the first region that holds the address. -/
def scan (phys : Word) (regions : List (Region Device)) : Option (Region Device) :=
  regions.find? (Region.contains phys)

/-- A region with something in it, inside the physical space. -/
structure Region.Placed (r : Region Device) : Prop where
  sized : 0 < r.size.toNat
  inside : r.base.toNat + r.size.toNat ≤ physSize

/-- One region ends before the other begins. -/
def Region.Apart (r s : Region Device) : Prop :=
  r.base.toNat + r.size.toNat ≤ s.base.toNat ∨ s.base.toNat + s.size.toNat ≤ r.base.toNat

/-- One region ends before the next begins. -/
def Region.Before (r s : Region Device) : Prop :=
  r.base.toNat + r.size.toNat ≤ s.base.toNat

section Regions

variable {r s : Region Device} {phys size : Word}

theorem Region.Apart.symm (apart : r.Apart s) : s.Apart r :=
  Or.symm apart

theorem Region.Placed.within_eq (placed : r.Placed) : r.within phys = r.contains phys := by
  have := placed.inside
  have := phys.isLt
  have := r.base.isLt
  have limit : physSize = 2 ^ 29 := rfl
  unfold Region.within Region.contains
  rw [decide_eq_decide, BitVec.lt_def, BitVec.toNat_sub]
  omega

/-- A region that does not meet the new one is apart from it. -/
theorem Region.Placed.apart (placed : r.Placed) (inside : phys.toNat + size.toNat ≤ physSize)
    (free : r.meets phys size = false) {dev : Device} :
    r.Apart { base := phys, size, dev } := by
  have := placed.inside
  have limit : physSize = 2 ^ 29 := rfl
  unfold Region.meets at free
  rw [decide_eq_false_iff_not, BitVec.lt_def, BitVec.lt_def, BitVec.toNat_add, BitVec.toNat_add,
    Nat.mod_eq_of_lt (by omega), Nat.mod_eq_of_lt (by omega)] at free
  unfold Region.Apart
  dsimp only
  omega

theorem Region.Before.apart (before : r.Before s) (held : r.contains phys = true) :
    s.contains phys = false := by
  unfold Region.Before at before
  unfold Region.contains at held ⊢
  rw [decide_eq_true_eq] at held
  rw [decide_eq_false_iff_not]
  omega

end Regions

/-- In regions that follow each other the scan finds any that holds the address. -/
theorem scan_eq_some {regions : List (Region Device)} (ordered : regions.Pairwise Region.Before)
    {r : Region Device} {phys : Word} (member : r ∈ regions) (held : r.contains phys = true) :
    scan phys regions = some r := by
  unfold scan
  induction ordered with
  | nil => cases member
  | @cons first regions before later ih =>
    rcases List.mem_cons.mp member with rfl | rest
    · exact List.find?_cons_of_pos held
    · rw [List.find?_cons_of_neg]
      · exact ih rest
      · intro first_holds
        have apart := (before r rest).apart first_holds
        rw [held] at apart
        cases apart

/-- The invariant of a bus. -/
structure Bus.Sound (name : Device → List Byte) (b : Bus Device) : Prop where
  placed : ∀ r ∈ b.regions, r.Placed
  ordered : b.regions.Pairwise Region.Before
  names : ∀ r ∈ b.regions, name r.dev ∈ b.names
  distinct : b.regions.Pairwise fun r s => name r.dev ≠ name s.dev
  last : ∀ i, b.last = some i → i < b.regions.length

namespace Bus.Sound

variable {name : Device → List Byte} {b : Bus Device}

theorem new : Sound name ({} : Bus Device) where
  placed _ member := by cases member
  ordered := .nil
  names _ member := by cases member
  distinct := .nil
  last _ isLast := by cases isLast

/-- A region that is apart from those attached goes where it belongs. -/
theorem insert (sound : b.Sound name) {r : Region Device} (placed : r.Placed)
    (apart : ∀ s ∈ b.regions, s.Apart r) (fresh : name r.dev ∉ b.names) :
    (b.insert (name r.dev) r).Sound name := by
  have permuted := List.mergeSort_perm (b.regions ++ [r]) fun r s => decide (r.base ≤ s.base)
  let le (r s : Region Device) : Bool := decide (r.base ≤ s.base)
  have transitive (first second third : Region Device) (before : le first second = true)
      (after : le second third = true) : le first third = true := by
    simp only [le, decide_eq_true_eq, BitVec.le_def] at *
    omega
  have total (first second : Region Device) :
      (le first second || le second first) = true := by
    simp only [le, Bool.or_eq_true, decide_eq_true_eq, BitVec.le_def]
    omega
  have sorted := List.pairwise_mergeSort transitive total (b.regions ++ [r])
  have allApart : (b.regions ++ [r]).Pairwise Region.Apart := by
    rw [List.pairwise_append]
    refine ⟨sound.ordered.imp fun before => .inl before, List.pairwise_singleton _ _, ?_⟩
    intro s member new isNew
    rw [List.mem_singleton.mp isNew]
    exact apart s member
  have allPlaced : ∀ s ∈ b.regions ++ [r], s.Placed := by
    intro s member
    rcases List.mem_append.mp member with old | isNew
    · exact sound.placed s old
    · rw [List.mem_singleton.mp isNew]
      exact placed
  have allNamed : (b.regions ++ [r]).Pairwise fun r s => name r.dev ≠ name s.dev := by
    rw [List.pairwise_append]
    refine ⟨sound.distinct, List.pairwise_singleton _ _, ?_⟩
    intro s member new isNew same
    rw [List.mem_singleton.mp isNew] at same
    exact fresh (same ▸ sound.names s member)
  constructor
  · intro s member
    exact allPlaced s (permuted.mem_iff.mp member)
  · have apart_ := (permuted.pairwise_iff fun first => first.symm).mpr allApart
    refine (sorted.and apart_).imp_of_mem fun {s t} first second both => ?_
    have := (allPlaced t (permuted.mem_iff.mp second)).sized
    obtain ⟨order, early | late⟩ := both
    · exact early
    · rw [decide_eq_true_eq, BitVec.le_def] at order
      omega
  · intro s member
    rcases List.mem_append.mp (permuted.mem_iff.mp member) with old | isNew
    · exact List.mem_cons_of_mem _ (sound.names s old)
    · rw [List.mem_singleton.mp isNew]
      exact List.mem_cons_self
  · exact (permuted.pairwise_iff fun apart => apart.symm).mpr allNamed
  · intro i isLast
    cases isLast

/-- A bus is left as it was, or takes one region more. -/
theorem attach (sound : b.Sound name) (base size : Word) (d : Option Device) :
    ((b.attach name base size d).1 = b ∨ (b.attach name base size d).2 = .ok ()) ∧
      (b.attach name base size d).1.Sound name := by
  unfold Bus.attach
  split
  · exact ⟨.inl rfl, sound⟩
  next d =>
    split_ifs with unnamed taken unsized
    · exact ⟨.inl rfl, sound⟩
    · exact ⟨.inl rfl, sound⟩
    · exact ⟨.inl rfl, sound⟩
    · split
      · exact ⟨.inl rfl, sound⟩
      next phys _ =>
        split_ifs with outside
        · exact ⟨.inl rfl, sound⟩
        · split
          · exact ⟨.inl rfl, sound⟩
          next free =>
            have inside : phys.toNat + size.toNat ≤ physSize := by omega
            have sized : 0 < size.toNat :=
              Nat.pos_of_ne_zero fun zero => unsized (BitVec.eq_of_toNat_eq zero)
            refine ⟨.inr rfl, sound.insert ⟨sized, inside⟩ (fun s member => ?_)
              fun member => taken (List.contains_iff_mem.mpr member)⟩
            exact (sound.placed s member).apart inside
              (Bool.not_eq_true _ ▸ List.find?_eq_none.mp free s member)

theorem getElem_before (sound : b.Sound name) {k l : Nat} {r s : Region Device} (before : k < l)
    (first : b.regions[k]? = some r) (second : b.regions[l]? = some s) : r.Before s := by
  obtain ⟨inside, rfl⟩ := List.getElem?_eq_some_iff.mp second
  obtain ⟨earlier, rfl⟩ := List.getElem?_eq_some_iff.mp first
  exact List.pairwise_iff_getElem.mp sound.ordered k l earlier inside before

theorem startsAfter_iff {phys : Word} {i : Nat} {r : Region Device}
    (here : b.regions[i]? = some r) :
    b.startsAfter phys i = true ↔ phys.toNat < r.base.toNat := by
  unfold Bus.startsAfter
  rw [here, Option.any_some, decide_eq_true_eq, BitVec.lt_def]

theorem startsAfter_rises (sound : b.Sound name) (phys : Word) :
    BinarySearch.Rises (b.startsAfter phys) b.regions.length := by
  intro k l le inside holds
  have second := List.getElem?_eq_getElem inside
  rcases Nat.lt_or_eq_of_le le with before | rfl
  · have first := List.getElem?_eq_getElem (Nat.lt_trans before inside)
    have ordered := sound.getElem_before before first second
    unfold Region.Before at ordered
    rw [startsAfter_iff first] at holds
    rw [startsAfter_iff second]
    omega
  · exact holds

/-- Behind a warm cache is the region the scan finds. -/
theorem cached_scan (sound : b.Sound name) {phys : Word} {r : Region Device}
    (cached : b.cached phys = some r) : scan phys b.regions = some r := by
  unfold Bus.cached at cached
  obtain ⟨recalled, within⟩ := Option.filter_eq_some_iff.mp cached
  obtain ⟨i, -, here⟩ := Option.bind_eq_some_iff.mp recalled
  have member := List.mem_of_getElem? here
  rw [(sound.placed r member).within_eq] at within
  exact scan_eq_some sound.ordered member within

/-- Only the region before the first that starts after the address may hold it. -/
theorem scan_search (sound : b.Sound name) (phys : Word) {i : Nat}
    (found : BinarySearch.search (b.startsAfter phys) 0 b.regions.length = i) :
    scan phys b.regions =
      if i = 0 then none else (b.regions[i - 1]?).filter (Region.within phys) := by
  have rises := sound.startsAfter_rises phys
  have bounds := BinarySearch.search_bounds (f := b.startsAfter phys) (Nat.zero_le b.regions.length)
  rw [found] at bounds
  have later {k : Nat} {r : Region Device} (here : b.regions[k]? = some r) (after : i ≤ k) :
      r.contains phys = false := by
    obtain ⟨inside, -⟩ := List.getElem?_eq_some_iff.mp here
    have starts := BinarySearch.of_search_le rises (Nat.le_refl _) (found ▸ after) inside
    rw [startsAfter_iff here] at starts
    unfold Region.contains
    rw [decide_eq_false_iff_not]
    omega
  have nowhere (other : ∀ k r, b.regions[k]? = some r → k < i → r.contains phys = false) :
      scan phys b.regions = none := by
    refine List.find?_eq_none.mpr fun r member => ?_
    obtain ⟨k, here⟩ := List.mem_iff_getElem?.mp member
    rw [Bool.not_eq_true]
    rcases Nat.lt_or_ge k i with before | after
    · exact other k r here before
    · exact later here after
  by_cases zero : i = 0
  · rw [if_pos zero]
    exact nowhere fun k r _ before => absurd before (by omega)
  · rw [if_neg zero]
    have inside : i - 1 < b.regions.length := by omega
    have here := List.getElem?_eq_getElem inside
    generalize b.regions[i - 1] = r at here
    have member := List.mem_of_getElem? here
    have starts := BinarySearch.not_of_lt_search rises (Nat.le_refl _) (Nat.zero_le (i - 1))
      (show i - 1 < _ by rw [found]; omega)
    rw [← Bool.not_eq_true, startsAfter_iff here] at starts
    rw [here, Option.filter_some, (sound.placed r member).within_eq]
    split
    next held => exact scan_eq_some sound.ordered member held
    next free =>
      refine nowhere fun k s there before => ?_
      rcases Nat.lt_or_eq_of_le (show k ≤ i - 1 by omega) with earlier | rfl
      · have ordered := sound.getElem_before earlier there here
        unfold Region.Before at ordered
        unfold Region.contains
        rw [decide_eq_false_iff_not]
        omega
      · rw [here] at there
        cases there
        exact Bool.not_eq_true _ ▸ free

theorem remember (sound : b.Sound name) {i : Nat} (inside : i < b.regions.length) :
    Sound name { b with last := some i } where
  placed := sound.placed
  ordered := sound.ordered
  names := sound.names
  distinct := sound.distinct
  last _ isLast := by
    cases isLast
    exact inside

/-- `find` is the scan, and leaves the regions alone. -/
theorem find (sound : b.Sound name) (phys : Word) :
    (b.find phys).1 = scan phys b.regions ∧ (b.find phys).2.regions = b.regions ∧
      (b.find phys).2.Sound name := by
  unfold Bus.find
  split
  next r cached => exact ⟨(sound.cached_scan cached).symm, rfl, sound⟩
  next missed =>
    generalize found : BinarySearch.search (b.startsAfter phys) 0 b.regions.length = i
    rw [sound.scan_search phys found]
    dsimp only
    by_cases zero : i = 0
    · rw [if_pos zero, if_pos zero]
      exact ⟨rfl, rfl, sound⟩
    · rw [if_neg zero, if_neg zero]
      split
      next absent =>
        rw [absent]
        exact ⟨rfl, rfl, sound⟩
      next r here =>
        obtain ⟨inside, -⟩ := List.getElem?_eq_some_iff.mp here
        rw [here, Option.filter_some]
        split
        · exact ⟨rfl, rfl, sound.remember inside⟩
        · exact ⟨rfl, rfl, sound⟩

/-- The device and the offset that an access reaches are the scan's. -/
theorem access (sound : b.Sound name) (virt : Word) :
    (b.access virt).1 = ((physical virt).bind fun phys =>
      (scan phys b.regions).map fun r => (r.dev, phys - r.base)) ∧
      (b.access virt).2.regions = b.regions ∧ (b.access virt).2.Sound name := by
  unfold Bus.access
  cases physical virt with
  | none => exact ⟨rfl, rfl, sound⟩
  | some phys =>
    obtain ⟨found, same, kept⟩ := sound.find phys
    dsimp only [Option.bind_some]
    rw [← found]
    generalize b.find phys = answer at *
    obtain ⟨region, after⟩ := answer
    cases region with
    | none => exact ⟨rfl, same, kept⟩
    | some r => exact ⟨rfl, same, kept⟩

theorem run (actions : List (Action Device)) : (Bus.run name actions).Sound name := by
  induction actions using List.reverseRecOn with
  | nil => exact .new
  | append_singleton actions action ih =>
    unfold Bus.run at ih ⊢
    rw [List.foldl_append, List.foldl_cons, List.foldl_nil]
    cases action with
    | attach base size d => exact (ih.attach base size d).2
    | access virt => exact (ih.access virt).2.2

end Bus.Sound

/-- The two windows onto one physical address. -/
theorem physical_alias {virt : Word} (cached : 0x80000000 ≤ virt.toNat)
    (below : virt.toNat < 0xa0000000) :
    physical (virt + 0x20000000) = physical virt := by
  have shifted : (virt + 0x20000000).toNat = virt.toNat + 0x20000000 := by
    rw [BitVec.toNat_add]
    exact Nat.mod_eq_of_lt (show virt.toNat + 0x20000000 < 2 ^ 32 by omega)
  have segment : (0x80000000 ≤ virt.toNat ∧ virt.toNat < 0xc0000000) := by omega
  have masked : (virt &&& 0x1fffffff).toNat = virt.toNat % 0x20000000 := by
    rw [BitVec.toNat_and]
    exact Nat.and_two_pow_sub_one_eq_mod virt.toNat 29
  have reached : physical virt = some (virt &&& 0x1fffffff) := if_pos segment
  rw [reached, Cpu.physical_eq_some, shifted, masked]
  omega

/-- The region that an action asks for. -/
def Action.asks : Action Device → Option (Region Device)
  | .attach base size (some dev) => (physical base).map fun base => { base, size, dev }
  | .attach _ _ none => none
  | .access _ => none

/-- An attachment that is accepted adds the region it asks for. -/
theorem Bus.attach_ok {name : Device → List Byte} {b : Bus Device} {base size : Word}
    {d : Option Device} (ok : (b.attach name base size d).2 = .ok ()) :
    ∃ r, Action.asks (.attach base size d) = some r ∧
      (b.attach name base size d).1.regions.Perm (b.regions ++ [r]) := by
  unfold Bus.attach at ok ⊢
  cases d with
  | none => cases ok
  | some dev =>
    dsimp only at ok ⊢
    split_ifs at ok ⊢
    cases reached : physical base with
    | none =>
      rw [reached] at ok
      cases ok
    | some phys =>
      rw [reached] at ok
      dsimp only at ok ⊢
      split_ifs at ok ⊢
      cases met : b.regions.find? (Region.meets phys size) with
      | some r =>
        rw [met] at ok
        cases ok
      | none =>
        refine ⟨{ base := phys, size, dev }, ?_, List.mergeSort_perm _ _⟩
        change (physical base).map _ = _
        rw [reached]
        rfl

/-- What an action adds to the regions. -/
def Bus.added (name : Device → List Byte) (b : Bus Device) (action : Action Device) :
    List (Region Device) :=
  match action with
  | .attach base size d =>
      match (b.attach name base size d).2 with
      | .ok _ => action.asks.toList
      | .error _ => []
  | .access _ => []

/-- The regions of the attachments that are accepted, in their order. -/
def Bus.accepted (name : Device → List Byte) (b : Bus Device) :
    List (Action Device) → List (Region Device)
  | [] => []
  | action :: actions => b.added name action ++ (b.perform name action).accepted name actions

theorem Bus.Sound.perform_regions {name : Device → List Byte} {b : Bus Device}
    (sound : b.Sound name) (action : Action Device) :
    (b.perform name action).regions.Perm (b.regions ++ b.added name action) := by
  cases action with
  | access virt =>
    change (b.access virt).2.regions.Perm (b.regions ++ [])
    rw [(sound.access virt).2.1, List.append_nil]
  | attach base size d =>
    change (b.attach name base size d).1.regions.Perm _
    unfold Bus.added
    dsimp only
    cases result : (b.attach name base size d).2 with
    | ok _ =>
      obtain ⟨r, asks, permuted⟩ := Bus.attach_ok result
      rw [asks]
      exact permuted
    | error error =>
      rcases (sound.attach base size d).1 with same | accepted
      · rw [same, List.append_nil]
      · cases result.symm.trans accepted

/-- The regions of a run are those of the attachments it accepts. -/
theorem Bus.Sound.run_regions {name : Device → List Byte} {b : Bus Device} (sound : b.Sound name)
    (actions : List (Action Device)) :
    (actions.foldl (Bus.perform name) b).regions.Perm (b.regions ++ b.accepted name actions) := by
  induction actions generalizing b with
  | nil =>
    rw [Bus.accepted, List.append_nil]
    exact .refl _
  | cons action actions ih =>
    have step := sound.perform_regions action
    have kept : (b.perform name action).Sound name := by
      cases action with
      | attach base size d => exact (sound.attach base size d).2
      | access virt => exact (sound.access virt).2.2
    rw [List.foldl_cons, Bus.accepted, ← List.append_assoc]
    exact (ih kept).trans (step.append_right _)

/-- What a bus's users rely on. -/
structure Decodes (name : Device → List Byte) (b : Bus Device) : Prop where
  sorted : b.regions.Pairwise fun r s => r.base.toNat < s.base.toNat
  disjoint : b.regions.Pairwise fun r s =>
    ∀ phys, ¬(r.contains phys = true ∧ s.contains phys = true)
  distinct : (b.regions.map fun r => name r.dev).Nodup
  refused : ∀ base size d error,
    (b.attach name base size d).2 = .error error → (b.attach name base size d).1 = b
  attached : ∀ base size d, (b.attach name base size d).2 = .ok () →
    ∃ r, Action.asks (.attach base size d) = some r ∧
      (b.attach name base size d).1.regions.Perm (b.regions ++ [r])
  untouched : ∀ virt, (b.access virt).2.regions = b.regions
  found : ∀ phys, (b.find phys).1 = scan phys b.regions
  missed : ∀ phys, (b.find phys).1 = none ↔ ∀ r ∈ b.regions, r.contains phys = false
  aliases : ∀ virt : Word, 0x80000000 ≤ virt.toNat → virt.toNat < 0xa0000000 →
    (b.access (virt + 0x20000000)).1 = (b.access virt).1 ∧
      ((b.access virt).2.access (virt + 0x20000000)).1 = (b.access virt).1

/-- **The address decoder.**  After any attachments and accesses the regions of the bus are those
of the attachments that were accepted, and its search is the scan of them. -/
theorem decodes (name : Device → List Byte) (actions : List (Action Device)) :
    Decodes name (Bus.run name actions) ∧
      (Bus.run name actions).regions.Perm (Bus.accepted name {} actions) := by
  refine ⟨?_, Bus.Sound.new.run_regions actions⟩
  have sound : (Bus.run name actions).Sound name := Bus.Sound.run actions
  generalize Bus.run name actions = b at sound
  constructor
  · refine sound.ordered.imp_of_mem fun {r s} member _ before => ?_
    have := (sound.placed r member).sized
    unfold Region.Before at before
    omega
  · refine sound.ordered.imp fun {r s} before phys both => ?_
    have apart := before.apart both.1
    rw [both.2] at apart
    cases apart
  · exact List.pairwise_map.mpr sound.distinct
  · intro base size d error refused
    refine (sound.attach base size d).1.resolve_right fun accepted => ?_
    rw [accepted] at refused
    cases refused
  · exact fun _ _ _ ok => Bus.attach_ok ok
  · exact fun virt => (sound.access virt).2.1
  · exact fun phys => (sound.find phys).1
  · intro phys
    rw [(sound.find phys).1]
    unfold scan
    simp only [List.find?_eq_none, Bool.not_eq_true]
  · intro virt cached below
    obtain ⟨reached, same, after⟩ := sound.access virt
    have other := (sound.access (virt + 0x20000000)).1
    have again := (after.access (virt + 0x20000000)).1
    rw [physical_alias cached below] at other again
    rw [same] at again
    exact ⟨other.trans reached.symm, again.trans reached.symm⟩

/-- One device on a bus, and one that would lie over its end. -/
theorem decodes_one :
    let name (n : Nat) : List Byte := [BitVec.ofNat 8 (48 + n)]
    let actions : List (Action Nat) :=
      [.attach 0x90000000 0x100 (some 1), .attach 0x90000080 0x100 (some 2), .access 0xb0000010]
    (Bus.run name actions).regions.Perm [{ base := 0x10000000, size := 0x100, dev := 1 }] ∧
      ((Bus.run name actions).find 0x10000010).1 =
        some { base := 0x10000000, size := 0x100, dev := 1 } := by
  intro name actions
  let only : Region Nat := { base := 0x10000000, size := 0x100, dev := 1 }
  have first : (({} : Bus Nat).perform name (.attach 0x90000000 0x100 (some 1))) =
      { regions := [only], names := [name 1] } := by
    change ({} : Bus Nat).insert (name 1) only = _
    unfold Bus.insert
    rw [List.nil_append, List.mergeSort_singleton]
  have accepted : Bus.accepted name {} actions = [only] := by
    unfold actions
    rw [Bus.accepted, first]
    rfl
  obtain ⟨decoded, regions⟩ := decodes name actions
  rw [accepted] at regions
  refine ⟨regions, ?_⟩
  rw [decoded.found, List.perm_singleton.mp regions]
  rfl

end MemoryMap

end GoRetroTv
