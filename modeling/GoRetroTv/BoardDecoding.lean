import GoRetroTv.BoardAccess

/-!
# The board's address decoder

`New` of `internal/board/runtime.go` attaches the devices to the bus one after another, each at
an address of its segment.  The bus keeps its regions sorted, refuses what overlaps, and recalls
its last hit.  None of this shows: in whatever order the devices are attached, and whatever is
accessed meanwhile, the decoder comes out the same, and an access reaches the device whose
window holds the address.
-/

namespace GoRetroTv

namespace MemoryMap

open Cpu (physical)

variable {Device : Type}

theorem Region.Apart.free {r s : Region Device} (apart : r.Apart s) (first : r.Placed)
    (second : s.Placed) : r.meets s.base s.size = false := by
  have inside := first.inside
  have other := second.inside
  have limit : physSize = 2 ^ 29 := rfl
  simp only [Region.meets, decide_eq_false_iff_not, BitVec.lt_def, BitVec.toNat_add]
  rw [Nat.mod_eq_of_lt (by omega), Nat.mod_eq_of_lt (by omega)]
  rcases apart with before | after
  · omega
  · omega

/-- A segment's address for a region, or an access. -/
def Action.Proper : Action Device → Prop
  | .attach base size d => ∃ r, Action.asks (.attach base size d) = some r
  | .access _ => True

/-- Regions that can share a bus: each is inside the physical space and named, and no two
overlap or have one name. -/
structure Layout (name : Device → List Byte) (wanted : List (Region Device)) : Prop where
  placed : ∀ r ∈ wanted, r.Placed
  named : ∀ r ∈ wanted, name r.dev ≠ []
  apart : wanted.Pairwise Region.Apart
  distinct : wanted.Pairwise fun r s => name r.dev ≠ name s.dev

namespace Layout

variable {name : Device → List Byte} {wanted rest : List (Region Device)} {r : Region Device}

theorem perm (layout : Layout name wanted) (same : wanted.Perm rest) : Layout name rest where
  placed r member := layout.placed r (same.mem_iff.mpr member)
  named r member := layout.named r (same.mem_iff.mpr member)
  apart := (same.pairwise_iff fun apart => apart.symm).mp layout.apart
  distinct := (same.pairwise_iff fun apart => apart.symm).mp layout.distinct

theorem left (layout : Layout name (wanted ++ rest)) : Layout name wanted where
  placed r member := layout.placed r (List.mem_append_left rest member)
  named r member := layout.named r (List.mem_append_left rest member)
  apart := (List.pairwise_append.mp layout.apart).1
  distinct := (List.pairwise_append.mp layout.distinct).1

theorem apart_last (layout : Layout name (wanted ++ [r])) (s : Region Device)
    (member : s ∈ wanted) : s.Apart r :=
  (List.pairwise_append.mp layout.apart).2.2 s member r (List.mem_singleton_self r)

theorem distinct_last (layout : Layout name (wanted ++ [r])) (s : Region Device)
    (member : s ∈ wanted) : name s.dev ≠ name r.dev :=
  (List.pairwise_append.mp layout.distinct).2.2 s member r (List.mem_singleton_self r)

end Layout

namespace Bus

variable {name : Device → List Byte} {b : Bus Device} {wanted : List (Region Device)}

/-- A bus that holds the regions asked for, and no others. -/
structure Holds (name : Device → List Byte) (b : Bus Device) (wanted : List (Region Device)) :
    Prop where
  sound : b.Sound name
  regions : b.regions.Perm wanted
  names : ∀ taken ∈ b.names, ∃ r ∈ wanted, name r.dev = taken

theorem Holds.new : Holds name ({} : Bus Device) [] where
  sound := .new
  regions := .refl []
  names _ member := by cases member

/-- A region that the layout leaves room for is attached. -/
theorem Holds.attach {r : Region Device} (holds : Holds name b wanted)
    (layout : Layout name (wanted ++ [r])) {base size : Word} {d : Option Device}
    (asked : Action.asks (.attach base size d) = some r) :
    (b.attach name base size d).2 = .ok () ∧
      Holds name (b.attach name base size d).1 (wanted ++ [r]) := by
  have last : r ∈ wanted ++ [r] := by simp
  have placed := layout.placed r last
  have named := layout.named r last
  cases d with
  | none => cases asked
  | some dev =>
    obtain ⟨phys, reached, rfl⟩ := Option.map_eq_some_iff.mp asked
    have fresh : name dev ∉ b.names := by
      intro taken
      obtain ⟨s, member, same⟩ := holds.names _ taken
      exact layout.distinct_last s member same
    have sized : size ≠ 0 := by
      rintro rfl
      exact absurd placed.sized (by simp)
    have apart (s : Region Device) (member : s ∈ b.regions) :
        s.Apart { base := phys, size, dev } :=
      layout.apart_last s (holds.regions.mem_iff.mp member)
    have free : b.regions.find? (Region.meets phys size) = none := by
      apply List.find?_eq_none.mpr
      intro s member
      simpa using (apart s member).free (holds.sound.placed s member) placed
    have attached : b.attach name base size (some dev) =
        (b.insert (name dev) { base := phys, size, dev }, .ok ()) := by
      have inside : ¬physSize < phys.toNat + size.toNat := Nat.not_lt.mpr placed.inside
      simp [Bus.attach, named, fresh, reached, inside, free]
      simpa using sized
    rw [attached]
    refine ⟨rfl, holds.sound.insert placed apart fresh, ?_, ?_⟩
    · exact (List.mergeSort_perm _ _).trans (holds.regions.append_right _)
    · intro taken member
      rcases List.mem_cons.mp member with rfl | old
      · exact ⟨_, last, rfl⟩
      · obtain ⟨s, among, same⟩ := holds.names taken old
        exact ⟨s, List.mem_append_left _ among, same⟩

theorem find_names (phys : Word) : (b.find phys).2.names = b.names := by
  unfold Bus.find
  dsimp only
  split
  · rfl
  · split_ifs
    · rfl
    · split
      · rfl
      · split <;> rfl

theorem access_names (virt : Word) : (b.access virt).2.names = b.names := by
  unfold Bus.access
  cases physical virt with
  | none => rfl
  | some phys =>
    have same := find_names (b := b) phys
    dsimp only
    generalize b.find phys = answer at same ⊢
    obtain ⟨_ | r, after⟩ := answer <;> exact same

theorem Holds.access (holds : Holds name b wanted) (virt : Word) :
    Holds name (b.access virt).2 wanted := by
  obtain ⟨-, same, sound⟩ := holds.sound.access virt
  refine ⟨sound, same ▸ holds.regions, ?_⟩
  rw [access_names]
  exact holds.names

/-- After any actions whose regions fit together, no attachment was refused and the bus holds
what they asked for. -/
theorem run_holds (actions : List (Action Device)) (proper : ∀ a ∈ actions, a.Proper)
    (layout : Layout name (actions.filterMap Action.asks)) :
    Holds name (Bus.run name actions) (actions.filterMap Action.asks) := by
  induction actions using List.reverseRecOn with
  | nil => exact .new
  | append_singleton actions action ih =>
    have earlier (a : Action Device) (member : a ∈ actions) : a.Proper :=
      proper a (List.mem_append_left _ member)
    have last := proper action (by simp)
    have step : Bus.run name (actions ++ [action]) = (Bus.run name actions).perform name action :=
      List.foldl_concat ..
    rw [List.filterMap_append] at layout ⊢
    have holds := ih earlier layout.left
    rw [step]
    cases action with
    | access virt =>
      have nothing : [Action.access virt].filterMap (@Action.asks Device) = [] := rfl
      rw [nothing, List.append_nil]
      exact holds.access virt
    | attach base size d =>
      obtain ⟨r, asked⟩ := last
      rw [List.filterMap_cons_some asked, List.filterMap_nil] at layout ⊢
      exact (holds.attach layout asked).2

theorem run_attached (before after : List (Action Device)) {base size : Word} {d : Option Device}
    (proper : ∀ a ∈ before ++ .attach base size d :: after, a.Proper)
    (layout : Layout name ((before ++ .attach base size d :: after).filterMap Action.asks)) :
    ((Bus.run name before).attach name base size d).2 = .ok () := by
  obtain ⟨r, asked⟩ := proper (.attach base size d) (by simp)
  rw [List.filterMap_append, List.filterMap_cons_some asked, List.append_cons] at layout
  have earlier (a : Action Device) (member : a ∈ before) : a.Proper :=
    proper a (List.mem_append_left _ member)
  exact ((run_holds before earlier layout.left.left).attach layout.left asked).1

/-- The order of the attachments does not show in the regions. -/
theorem Holds.regions_eq (holds : Holds name b wanted) {sorted : List (Region Device)}
    (same : wanted.Perm sorted) (ordered : sorted.Pairwise Region.Before) :
    b.regions = sorted := by
  refine (holds.regions.trans same).eq_of_pairwise ?_ holds.sound.ordered ordered
  intro r s member _ before after
  have sized := (holds.sound.placed r member).sized
  unfold Region.Before at before after
  omega

end Bus

end MemoryMap

namespace Region

open Cpu (physical)
open MemoryMap (Action)

theorem windows_placed : ∀ w ∈ regions.map window, w.Placed := by
  intro w member
  obtain ⟨r, -, rfl⟩ := List.mem_map.mp member
  constructor
  · cases r <;> decide
  · cases r <;> decide

theorem windows_ordered : (regions.map window).Pairwise MemoryMap.Region.Before :=
  regions_disjoint.map window fun _ _ before => before

/-- The windows of the board can share a bus. -/
theorem windows_layout : MemoryMap.Layout name (regions.map window) where
  placed := windows_placed
  named w member := by
    obtain ⟨r, -, rfl⟩ := List.mem_map.mp member
    cases r <;> decide
  apart := windows_ordered.imp .inl
  distinct := by
    rw [List.pairwise_map]
    exact regions_nodup.imp fun different same => different (name_injective same)

/-- An address reaches a device exactly when it is that far into the device's window. -/
theorem reach_eq_some {virt : Word} {r : Region} {off : Word} :
    reach virt = some (r, off) ↔ off < r.size ∧ physical virt = some (r.base + off) := by
  have placed := windows_placed r.window (List.mem_map_of_mem (mem_regions r))
  have inside : r.base.toNat + r.size.toNat ≤ MemoryMap.physSize := placed.inside
  have limit : MemoryMap.physSize = 2 ^ 29 := rfl
  unfold reach
  constructor
  · intro reached
    obtain ⟨phys, segment, found⟩ := Option.bind_eq_some_iff.mp reached
    obtain ⟨w, first, same⟩ := Option.map_eq_some_iff.mp found
    have member := List.mem_of_find?_eq_some first
    have held := List.find?_some first
    rw [← (windows_placed w member).within_eq] at held
    obtain ⟨s, -, rfl⟩ := List.mem_map.mp member
    obtain ⟨rfl, rfl⟩ := Prod.mk.inj same
    refine ⟨of_decide_eq_true held, ?_⟩
    rw [segment]
    simp [window]
  · rintro ⟨within, segment⟩
    have start : r.base + off - r.base = off := by
      rw [BitVec.add_comm, BitVec.add_sub_cancel]
    have held : r.window.contains (r.base + off) = true := by
      rw [← placed.within_eq]
      exact decide_eq_true (start.symm ▸ within)
    have first := MemoryMap.scan_eq_some windows_ordered (List.mem_map_of_mem (mem_regions r)) held
    rw [segment, Option.bind_some, first]
    simp only [Option.map_some, window, start]

end Region

namespace Board

open Cpu (physical)
open MemoryMap (Action)

/-- The devices in the order in which `New` attaches them, and the addresses it gives. -/
def attachments : List (Word × Region) :=
  [(0x80000000, .dram), (0xbfc00000, .flashU202), (0xbf800000, .flashU203), (0xb200a000, .latch),
    (0xb0000000, .irq), (0xb000d000, .timer), (0xb2009000, .csi), (0xb2001000, .modem),
    (0xb2002000, .smartcard), (0xb4180000, .mux), (0xb2006000, .i2c), (0xb000a000, .demux),
    (0xb0002000, .video), (0xb0004000, .display), (0xb0006000, .blitter), (0xb0009000, .dma),
    (0xb4080100, .audio)]

def attachment (placed : Word × Region) : Action Region :=
  .attach placed.1 placed.2.size (some placed.2)

/-- The bus of a new board. -/
def decoder : MemoryMap.Bus Region :=
  MemoryMap.Bus.run Region.name (attachments.map attachment)

theorem attachment_asks :
    ∀ placed ∈ attachments, (attachment placed).asks = some placed.2.window := by
  intro placed member
  simp only [attachments, List.mem_cons, List.not_mem_nil, or_false] at member
  rcases member with rfl | rfl | rfl | rfl | rfl | rfl | rfl | rfl | rfl | rfl | rfl | rfl | rfl |
    rfl | rfl | rfl | rfl <;> rfl

/-- **The address decoder of the board.**  In whatever order the devices are attached, at either
segment's address of their windows and with any accesses in between, no attachment is refused,
the regions are the board's, and an access reaches a device exactly when its address is that far
into the device's window. -/
theorem decodes_windows (actions : List (Action Region)) (proper : ∀ a ∈ actions, a.Proper)
    (asked : (actions.filterMap Action.asks).Perm (regions.map Region.window)) :
    (∀ before base size d after, actions = before ++ .attach base size d :: after →
      ((MemoryMap.Bus.run Region.name before).attach Region.name base size d).2 = .ok ()) ∧
    (MemoryMap.Bus.run Region.name actions).regions = regions.map Region.window ∧
    ∀ virt, ((MemoryMap.Bus.run Region.name actions).access virt).1 = Region.reach virt ∧
      ∀ r off, ((MemoryMap.Bus.run Region.name actions).access virt).1 = some (r, off) ↔
        off < r.size ∧ physical virt = some (r.base + off) := by
  have layout := Region.windows_layout.perm asked.symm
  have holds := MemoryMap.Bus.run_holds actions proper layout
  have finished : (MemoryMap.Bus.run Region.name actions).regions = regions.map Region.window :=
    holds.regions_eq asked Region.windows_ordered
  have reached (virt : Word) :
      ((MemoryMap.Bus.run Region.name actions).access virt).1 = Region.reach virt := by
    rw [(holds.sound.access virt).1, finished]
    rfl
  refine ⟨?_, finished, fun virt => ⟨reached virt, fun r off => ?_⟩⟩
  · rintro before base size d after rfl
    exact MemoryMap.Bus.run_attached before after proper layout
  · rw [reached]
    exact Region.reach_eq_some

theorem decoder_regions : decoder.regions = regions.map Region.window := by
  have proper : ∀ a ∈ attachments.map attachment, a.Proper := by
    intro a member
    obtain ⟨placed, among, rfl⟩ := List.mem_map.mp member
    exact ⟨_, attachment_asks placed among⟩
  have asked : (attachments.map attachment).filterMap Action.asks =
      (attachments.map Prod.snd).map Region.window := by
    rw [List.filterMap_map, List.map_map, ← List.filterMap_eq_map]
    exact List.filterMap_congr attachment_asks
  have permuted : (attachments.map Prod.snd).Perm regions := by
    decide
  exact (decodes_windows _ proper (asked ▸ permuted.map Region.window)).2.1

end Board

end GoRetroTv
