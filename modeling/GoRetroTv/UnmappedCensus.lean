import GoRetroTv.BusDecoding
import GoRetroTv.FirstSeen

/-!
# The census of unmapped accesses

`internal/bus/bus.go`: an access with no device behind it is noted under its virtual address,
for the first 4096 addresses, and counted in totals that have no such limit.
-/

namespace GoRetroTv

namespace MemoryMap

open Cpu (physical)

def maxUnmappedSites : Nat :=
  4096

inductive UnmappedKind where
  | noDevice
  | noSegment
  deriving DecidableEq

abbrev Counter :=
  BitVec 64

structure Access where
  virtual : Word
  physical : Word
  kind : UnmappedKind
  reads : Counter := 0
  writes : Counter := 0

structure Totals where
  reads : Counter := 0
  writes : Counter := 0
  sites : Counter := 0
  dropped : Counter := 0

structure Census where
  sites : List Access := []
  totals : Totals := {}

namespace Access

def count (read : Bool) (s : Access) : Access :=
  if read then { s with reads := s.reads + 1 } else { s with writes := s.writes + 1 }

end Access

namespace Totals

def count (read : Bool) (t : Totals) : Totals :=
  if read then { t with reads := t.reads + 1 } else { t with writes := t.writes + 1 }

end Totals

/-- An access that reached no device. -/
structure Miss where
  virtual : Word
  physical : Word
  kind : UnmappedKind
  read : Bool

/-- The site of an address that is new. -/
def Miss.site (m : Miss) : Access where
  virtual := m.virtual
  physical := m.physical
  kind := m.kind

/-- The site of a miss counts it; another does not. -/
def Access.noted (m : Miss) (s : Access) : Access :=
  if s.virtual = m.virtual then s.count m.read else s

namespace Census

/-- Whether an address has a site. -/
def seen (c : Census) (virt : Word) : Bool :=
  c.sites.any fun s => decide (s.virtual = virt)

/-- `note`. -/
def note (m : Miss) (c : Census) : Census :=
  let totals := c.totals.count m.read
  if c.seen m.virtual then
    { sites := c.sites.map (Access.noted m), totals }
  else if maxUnmappedSites ≤ c.sites.length then
    { c with totals := { totals with dropped := totals.dropped + 1 } }
  else
    { sites := c.sites ++ [m.site.noted m], totals := { totals with sites := totals.sites + 1 } }

/-- `Unmapped`: the sites in the order of their addresses. -/
def unmapped (c : Census) : List Access :=
  c.sites.mergeSort fun s t => decide (s.virtual ≤ t.virtual)

end Census

variable {Device : Type}

/-- The decoder and its census. -/
structure Watched (Device : Type) extends Bus Device where
  census : Census := {}

namespace Watched

/-- The device and the offset that `Read` or `Write` reaches. -/
def reach (read : Bool) (virt : Word) (b : Watched Device) :
    Option (Device × Word) × Watched Device :=
  match physical virt with
  | none =>
      (none, { b with
        census := b.census.note { virtual := virt, physical := 0, kind := .noSegment, read } })
  | some phys =>
      match b.toBus.find phys with
      | (some r, bus) => (some (r.dev, phys - r.base), { b with toBus := bus })
      | (none, bus) =>
          (none, { b with
            toBus := bus
            census := b.census.note { virtual := virt, physical := phys, kind := .noDevice, read } })

end Watched

/-- What is done to a bus between two of its reports. -/
inductive Operation (Device : Type) where
  | attach (base size : Word) (d : Option Device)
  | read (virt : Word)
  | write (virt : Word)
  | reset

namespace Watched

variable (name : Device → List Byte)

def perform (b : Watched Device) : Operation Device → Watched Device
  | .attach base size d => { b with toBus := (b.toBus.attach name base size d).1 }
  | .read virt => (b.reach true virt).2
  | .write virt => (b.reach false virt).2
  | .reset => { b with census := {} }

def run (operations : List (Operation Device)) : Watched Device :=
  operations.foldl (perform name) {}

end Watched

/-- An access that no region holds. -/
def missed (regions : List (Region Device)) (read : Bool) (virt : Word) : List Miss :=
  match physical virt with
  | none => [{ virtual := virt, physical := 0, kind := .noSegment, read }]
  | some phys =>
      match scan phys regions with
      | some _ => []
      | none => [{ virtual := virt, physical := phys, kind := .noDevice, read }]

/-- The misses since the last reset, with an operation more on a bus that has some regions. -/
def recorded (regions : List (Region Device)) (history : List Miss) :
    Operation Device → List Miss
  | .attach _ _ _ => history
  | .read virt => history ++ missed regions true virt
  | .write virt => history ++ missed regions false virt
  | .reset => []

variable (name : Device → List Byte)

/-- The misses since the last reset, with the bus they leave. -/
def historyFrom (b : Watched Device) (history : List Miss) :
    List (Operation Device) → List Miss
  | [] => history
  | operation :: operations =>
      historyFrom (b.perform name operation) (recorded b.regions history operation) operations

def history (operations : List (Operation Device)) : List Miss :=
  historyFrom name {} [] operations

/-- The accesses of one direction at one address. -/
def occurrences (read : Bool) (virt : Word) (history : List Miss) : Nat :=
  history.countP fun m => m.virtual = virt ∧ m.read = read

/-- The addresses that the census keeps: the first it was given. -/
def kept (history : List Miss) : List Word :=
  (FirstSeen.order (history.map Miss.virtual)).take maxUnmappedSites

/-- The census of a history. -/
structure Census.Counts (history : List Miss) (c : Census) : Prop where
  sites : c.sites.map Access.virtual = kept history
  reads : ∀ s ∈ c.sites, s.reads = BitVec.ofNat 64 (occurrences true s.virtual history)
  writes : ∀ s ∈ c.sites, s.writes = BitVec.ofNat 64 (occurrences false s.virtual history)
  first : ∀ s ∈ c.sites, ∃ m, history.find? (fun m => m.virtual = s.virtual) = some m ∧
    s.physical = m.physical ∧ s.kind = m.kind
  totalReads : c.totals.reads = BitVec.ofNat 64 (history.countP fun m => m.read)
  totalWrites : c.totals.writes = BitVec.ofNat 64 (history.countP fun m => !m.read)
  totalSites : c.totals.sites = BitVec.ofNat 64 (kept history).length
  dropped : c.totals.dropped = BitVec.ofNat 64 (history.countP fun m => m.virtual ∉ kept history)

section Note

variable {history : List Miss} {m : Miss} {s : Access} {c : Census} {read : Bool} {virt : Word}

/-- A count with one access more, or none. -/
theorem ofNat_tally (n : Nat) (more : Prop) [Decidable more] :
    BitVec.ofNat 64 (n + if more then 1 else 0) = BitVec.ofNat 64 n + if more then 1 else 0 := by
  rw [BitVec.ofNat_add]
  split <;> rfl

theorem occurrences_append :
    occurrences read virt (history ++ [m]) =
      occurrences read virt history + if m.virtual = virt ∧ m.read = read then 1 else 0 := by
  unfold occurrences
  rw [List.countP_append, List.countP_singleton]
  simp only [decide_eq_true_eq]

theorem countP_append_singleton (p : Miss → Bool) :
    (history ++ [m]).countP p = history.countP p + if p m = true then 1 else 0 := by
  rw [List.countP_append, List.countP_singleton]

theorem Access.noted_virtual : (s.noted m).virtual = s.virtual := by
  unfold noted count
  split_ifs <;> rfl

theorem Access.noted_physical : (s.noted m).physical = s.physical := by
  unfold noted count
  split_ifs <;> rfl

theorem Access.noted_kind : (s.noted m).kind = s.kind := by
  unfold noted count
  split_ifs <;> rfl

theorem Access.noted_reads :
    (s.noted m).reads = s.reads + if m.virtual = s.virtual ∧ m.read = true then 1 else 0 := by
  unfold noted count
  by_cases same : s.virtual = m.virtual
  · cases m.read <;> simp [same]
  · simp [same, Ne.symm same]

theorem Access.noted_writes :
    (s.noted m).writes = s.writes + if m.virtual = s.virtual ∧ m.read = false then 1 else 0 := by
  unfold noted count
  by_cases same : s.virtual = m.virtual
  · cases m.read <;> simp [same]
  · simp [same, Ne.symm same]

theorem Access.noted_of_ne (other : s.virtual ≠ m.virtual) : s.noted m = s :=
  if_neg other

theorem map_noted_virtual (sites : List Access) :
    (sites.map (Access.noted m)).map Access.virtual = sites.map Access.virtual := by
  rw [List.map_map]
  exact List.map_congr_left fun s _ => Access.noted_virtual

theorem Totals.count_reads (t : Totals) :
    (t.count read).reads = t.reads + if read = true then 1 else 0 := by
  cases read <;> simp [count]

theorem Totals.count_writes (t : Totals) :
    (t.count read).writes = t.writes + if (!read) = true then 1 else 0 := by
  cases read <;> simp [count]

theorem Totals.count_sites (t : Totals) : (t.count read).sites = t.sites := by
  cases read <;> rfl

theorem Totals.count_dropped (t : Totals) : (t.count read).dropped = t.dropped := by
  cases read <;> rfl

theorem Census.seen_iff : c.seen virt = true ↔ virt ∈ c.sites.map Access.virtual := by
  simp [seen]

/-- The sites that a note is counted on. -/
def Census.opened (m : Miss) (c : Census) : List Access :=
  if c.seen m.virtual ∨ maxUnmappedSites ≤ c.sites.length then c.sites
  else c.sites ++ [m.site]

theorem Census.note_sites : (c.note m).sites = (c.opened m).map (Access.noted m) := by
  unfold note opened
  simp only [seen_iff]
  by_cases old : m.virtual ∈ c.sites.map Access.virtual
  · rw [if_pos old, if_pos (Or.inl old)]
  · have others : c.sites.map (Access.noted m) = c.sites := by
      refine (List.map_congr_left fun s member => Access.noted_of_ne fun same => ?_).trans
        (List.map_id c.sites)
      exact old (same ▸ List.mem_map_of_mem member)
    rw [if_neg old]
    by_cases full : maxUnmappedSites ≤ c.sites.length
    · rw [if_pos full, if_pos (Or.inr full), others]
    · rw [if_neg full, if_neg (not_or.mpr ⟨old, full⟩), List.map_append, others]
      rfl

theorem Census.note_reads : (c.note m).totals.reads = (c.totals.count m.read).reads := by
  unfold note
  split_ifs <;> rfl

theorem Census.note_writes : (c.note m).totals.writes = (c.totals.count m.read).writes := by
  unfold note
  split_ifs <;> rfl

theorem Census.note_totalSites : (c.note m).totals.sites = (c.totals.count m.read).sites +
    if m.virtual ∈ c.sites.map Access.virtual ∨ maxUnmappedSites ≤ c.sites.length then 0
    else 1 := by
  unfold note
  simp only [seen_iff]
  by_cases old : m.virtual ∈ c.sites.map Access.virtual
  · simp [old]
  · by_cases full : maxUnmappedSites ≤ c.sites.length <;> simp [old, full]

theorem Census.note_dropped : (c.note m).totals.dropped = (c.totals.count m.read).dropped +
    if m.virtual ∉ c.sites.map Access.virtual ∧ maxUnmappedSites ≤ c.sites.length then 1
    else 0 := by
  unfold note
  simp only [seen_iff]
  by_cases old : m.virtual ∈ c.sites.map Access.virtual
  · simp [old]
  · by_cases full : maxUnmappedSites ≤ c.sites.length <;> simp [old, full]

theorem kept_append :
    kept (history ++ [m]) = FirstSeen.keep maxUnmappedSites (kept history) m.virtual := by
  unfold kept
  rw [List.map_append]
  exact FirstSeen.order_take_append_singleton

/-- What a full record leaves out was never seen. -/
theorem not_mem_of_room (new : virt ∉ kept history)
    (room : (kept history).length < maxUnmappedSites) : virt ∉ history.map Miss.virtual := by
  unfold kept at new room
  rw [List.length_take] at room
  rw [List.take_of_length_le (by omega)] at new
  exact fun member => new (FirstSeen.mem_order.mpr member)

/-- An address that was left out is left out for good. -/
theorem stays_dropped : (history.countP fun other => other.virtual ∉ kept (history ++ [m])) =
    history.countP fun other => other.virtual ∉ kept history := by
  refine List.countP_congr fun other member => ?_
  rw [decide_eq_true_eq, decide_eq_true_eq, kept_append, FirstSeen.keep]
  split
  · rfl
  next fresh =>
    rw [not_or, Nat.not_le] at fresh
    have unseen := not_mem_of_room fresh.1 fresh.2
    have different : other.virtual ≠ m.virtual :=
      fun same => unseen (same ▸ List.mem_map_of_mem member)
    simp [different]

theorem not_mem_kept_append : m.virtual ∉ kept (history ++ [m]) ↔
    m.virtual ∉ kept history ∧ maxUnmappedSites ≤ (kept history).length := by
  rw [kept_append, FirstSeen.keep]
  split
  next room =>
    constructor
    · exact fun out => ⟨out, room.resolve_left out⟩
    · exact And.left
  next room =>
    simp only [List.mem_append, List.mem_singleton, or_true, not_true_eq_false, false_iff]
    exact fun out => room (.inr out.2)

namespace Census.Counts

theorem new : Counts [] {} where
  sites := rfl
  reads _ member := by cases member
  writes _ member := by cases member
  first _ member := by cases member
  totalReads := rfl
  totalWrites := rfl
  totalSites := rfl
  dropped := rfl

/-- The sites opened for a miss are right about the history before it. -/
theorem opened (counts : c.Counts history) :
    (c.opened m).map Access.virtual = kept (history ++ [m]) ∧
      ∀ s ∈ c.opened m, s.reads = BitVec.ofNat 64 (occurrences true s.virtual history) ∧
        s.writes = BitVec.ofNat 64 (occurrences false s.virtual history) ∧
        ∃ first, (history ++ [m]).find? (fun m => m.virtual = s.virtual) = some first ∧
          s.physical = first.physical ∧ s.kind = first.kind := by
  have old (s : Access) (member : s ∈ c.sites) :
      s.reads = BitVec.ofNat 64 (occurrences true s.virtual history) ∧
        s.writes = BitVec.ofNat 64 (occurrences false s.virtual history) ∧
        ∃ first, (history ++ [m]).find? (fun m => m.virtual = s.virtual) = some first ∧
          s.physical = first.physical ∧ s.kind = first.kind := by
    obtain ⟨first, found, same⟩ := counts.first s member
    refine ⟨counts.reads s member, counts.writes s member, first, ?_, same⟩
    rw [List.find?_append, found, Option.some_or]
  have length : c.sites.length = (kept history).length := by
    rw [← counts.sites, List.length_map]
  unfold Census.opened
  simp only [Census.seen_iff]
  rw [kept_append, FirstSeen.keep, ← counts.sites, List.length_map]
  split
  · exact ⟨rfl, old⟩
  next fresh =>
    rw [not_or, Nat.not_le, counts.sites, length] at fresh
    have unseen := not_mem_of_room fresh.1 fresh.2
    have never (other : Miss) (member : other ∈ history) : other.virtual ≠ m.virtual :=
      fun same => unseen (same ▸ List.mem_map_of_mem member)
    have none_before (read : Bool) : occurrences read m.virtual history = 0 :=
      List.countP_eq_zero.mpr fun other member => by simp [never other member]
    refine ⟨List.map_append, fun s member => ?_⟩
    rcases List.mem_append.mp member with before | isNew
    · exact old s before
    · rw [List.mem_singleton.mp isNew]
      refine ⟨congrArg (BitVec.ofNat 64) (none_before true).symm,
        congrArg (BitVec.ofNat 64) (none_before false).symm, m, ?_, rfl, rfl⟩
      have absent : history.find? (fun other => other.virtual = m.virtual) = none :=
        List.find?_eq_none.mpr fun other member => by simpa using never other member
      rw [show m.site.virtual = m.virtual from rfl, List.find?_append, absent]
      simp

/-- A miss more. -/
theorem note (counts : c.Counts history) : (c.note m).Counts (history ++ [m]) := by
  obtain ⟨addresses, right⟩ := counts.opened (m := m)
  have length : c.sites.length = (kept history).length := by
    rw [← counts.sites, List.length_map]
  constructor
  · rw [note_sites, map_noted_virtual, addresses]
  · intro s member
    rw [note_sites] at member
    obtain ⟨before, opened, rfl⟩ := List.mem_map.mp member
    rw [Access.noted_reads, Access.noted_virtual, occurrences_append, ofNat_tally,
      (right before opened).1]
  · intro s member
    rw [note_sites] at member
    obtain ⟨before, opened, rfl⟩ := List.mem_map.mp member
    rw [Access.noted_writes, Access.noted_virtual, occurrences_append, ofNat_tally,
      (right before opened).2.1]
  · intro s member
    rw [note_sites] at member
    obtain ⟨before, opened, rfl⟩ := List.mem_map.mp member
    rw [Access.noted_virtual, Access.noted_physical, Access.noted_kind]
    exact (right before opened).2.2
  · rw [note_reads, Totals.count_reads, countP_append_singleton, ofNat_tally, counts.totalReads]
  · rw [note_writes, Totals.count_writes, countP_append_singleton, ofNat_tally,
      counts.totalWrites]
  · rw [note_totalSites, Totals.count_sites, kept_append, FirstSeen.keep, counts.sites, length]
    by_cases room : m.virtual ∈ kept history ∨ maxUnmappedSites ≤ (kept history).length
    · rw [if_pos room, if_pos room, counts.totalSites]
      exact BitVec.add_zero _
    · rw [if_neg room, if_neg room, List.length_append, List.length_singleton,
        BitVec.ofNat_add, ← counts.totalSites]
      rfl
  · rw [note_dropped, Totals.count_dropped, countP_append_singleton, ofNat_tally, counts.dropped,
      counts.sites, length, stays_dropped]
    simp only [decide_eq_true_eq, not_mem_kept_append]

theorem distinct (counts : c.Counts history) : (c.sites.map Access.virtual).Nodup := by
  rw [counts.sites]
  exact (FirstSeen.order_nodup _).sublist (List.take_sublist _ _)

end Census.Counts

/-- What a site has counted. -/
def Access.total (s : Access) : Counter :=
  s.reads + s.writes

/-- Every miss is at a site or was dropped. -/
def Census.Balanced (c : Census) : Prop :=
  c.totals.reads + c.totals.writes = (c.sites.map Access.total).sum + c.totals.dropped

theorem Census.Balanced.new : Balanced {} :=
  rfl

theorem Access.noted_total :
    (s.noted m).total = s.total + if m.virtual = s.virtual then 1 else 0 := by
  unfold total
  rw [noted_reads, noted_writes]
  by_cases same : m.virtual = s.virtual
  · cases m.read <;> simp [same] <;> ac_rfl
  · simp [same]

theorem sum_noted {sites : List Access} (distinct : (sites.map Access.virtual).Nodup) :
    ((sites.map (Access.noted m)).map Access.total).sum =
      (sites.map Access.total).sum +
        if m.virtual ∈ sites.map Access.virtual then 1 else 0 := by
  induction sites with
  | nil => rfl
  | cons s sites ih =>
    rw [List.map_cons, List.nodup_cons] at distinct
    simp only [List.map_cons, List.sum_cons, Access.noted_total, ih distinct.2, List.mem_cons]
    by_cases same : m.virtual = s.virtual
    · simp only [same, distinct.1, or_false, if_true, if_false]
      ac_rfl
    · simp only [same, false_or, if_false]
      ac_rfl

theorem Totals.count_total (t : Totals) :
    (t.count read).reads + (t.count read).writes = t.reads + t.writes + 1 := by
  cases read
  · exact (add_assoc _ _ _).symm
  · exact add_right_comm _ _ _

theorem Census.Balanced.note (balanced : c.Balanced)
    (distinct : ((c.opened m).map Access.virtual).Nodup) : (c.note m).Balanced := by
  unfold Census.Balanced at *
  rw [note_reads, note_writes, Totals.count_total, note_dropped, Totals.count_dropped, note_sites,
    sum_noted distinct, balanced]
  unfold opened
  simp only [seen_iff]
  by_cases old : m.virtual ∈ c.sites.map Access.virtual
  · simp only [old, true_or, if_true, not_true_eq_false, false_and, if_false]
    ac_rfl
  · by_cases full : maxUnmappedSites ≤ c.sites.length
    · simp only [old, full, or_true, if_true, if_false, not_false_eq_true, and_self]
      ac_rfl
    · simp only [old, full, or_self, if_false, and_false, List.map_append, List.map_cons,
        List.map_nil, List.sum_append, List.sum_cons, List.sum_nil, List.mem_append,
        List.mem_singleton, Miss.site, false_or, if_true, Access.total, add_zero]
      ac_rfl

/-- The report lists the sites, each address once and in order. -/
theorem Census.unmapped_sorted (distinct : (c.sites.map Access.virtual).Nodup) :
    c.unmapped.Perm c.sites ∧ c.unmapped.Pairwise fun s t => s.virtual < t.virtual := by
  have permuted := List.mergeSort_perm c.sites fun s t => decide (s.virtual ≤ t.virtual)
  let le (s t : Access) : Bool := decide (s.virtual ≤ t.virtual)
  have transitive (first second third : Access) (before : le first second = true)
      (after : le second third = true) : le first third = true := by
    simp only [le, decide_eq_true_eq, BitVec.le_def] at *
    omega
  have total (first second : Access) : (le first second || le second first) = true := by
    simp only [le, Bool.or_eq_true, decide_eq_true_eq, BitVec.le_def]
    omega
  have sorted := List.pairwise_mergeSort transitive total c.sites
  have apart : c.unmapped.Pairwise fun s t => s.virtual ≠ t.virtual :=
    (permuted.pairwise_iff fun different => Ne.symm different).mpr (List.pairwise_map.mp distinct)
  refine ⟨permuted, (sorted.and apart).imp fun {s t} both => ?_⟩
  obtain ⟨order, different⟩ := both
  rw [decide_eq_true_eq, BitVec.le_def] at order
  rw [BitVec.lt_def]
  exact Nat.lt_of_le_of_ne order fun same => different (BitVec.eq_of_toNat_eq same)

end Note

/-- What a run keeps. -/
structure Watched.Sound (history : List Miss) (b : Watched Device) : Prop where
  bus : b.toBus.Sound name
  counts : b.census.Counts history
  balanced : b.census.Balanced

namespace Watched.Sound

variable {name} {b : Watched Device} {history : List Miss} {m : Miss}

theorem note (sound : b.Sound name history) {bus : Bus Device} (kept : bus.Sound name) :
    Sound name (history ++ [m]) { b with toBus := bus, census := b.census.note m } where
  bus := kept
  counts := sound.counts.note
  balanced := by
    refine sound.balanced.note ?_
    rw [← map_noted_virtual (m := m), ← Census.note_sites]
    exact sound.counts.note.distinct

theorem reach (sound : b.Sound name history) (read : Bool) (virt : Word) :
    (b.reach read virt).2.Sound name (history ++ missed b.regions read virt) := by
  unfold Watched.reach missed
  cases physical virt with
  | none => exact sound.note sound.bus
  | some phys =>
    obtain ⟨found, -, kept⟩ := sound.bus.find phys
    dsimp only
    rw [← found]
    generalize b.toBus.find phys = answer at kept
    obtain ⟨region, bus⟩ := answer
    cases region with
    | none => exact sound.note kept
    | some r =>
      rw [List.append_nil]
      exact ⟨kept, sound.counts, sound.balanced⟩

theorem perform (sound : b.Sound name history) (operation : Operation Device) :
    (b.perform name operation).Sound name (recorded b.regions history operation) := by
  cases operation with
  | attach base size d =>
    exact ⟨(sound.bus.attach base size d).2, sound.counts, sound.balanced⟩
  | read virt => exact sound.reach true virt
  | write virt => exact sound.reach false virt
  | reset => exact ⟨sound.bus, .new, .new⟩

theorem runFrom (sound : b.Sound name history) (operations : List (Operation Device)) :
    (operations.foldl (Watched.perform name) b).Sound name
      (historyFrom name b history operations) := by
  induction operations generalizing b history with
  | nil => exact sound
  | cons operation operations ih => exact ih (sound.perform operation)

theorem run (operations : List (Operation Device)) :
    (Watched.run name operations).Sound name (MemoryMap.history name operations) :=
  runFrom ⟨.new, .new, Census.Balanced.new⟩ operations

end Watched.Sound

/-- **The census.**  After any attachments, reads, writes and resets the census is that of the
misses since the last reset: their first 4096 addresses, each with exactly its own accesses. -/
theorem census_of_run (operations : List (Operation Device)) :
    let c := (Watched.run name operations).census
    c.Counts (history name operations) ∧ c.Balanced ∧ c.sites.length ≤ maxUnmappedSites ∧
      c.unmapped.Perm c.sites ∧ c.unmapped.Pairwise fun s t => s.virtual < t.virtual := by
  have sound : (Watched.run name operations).Sound name (history name operations) :=
    Watched.Sound.run operations
  refine ⟨sound.counts, sound.balanced, ?_, Census.unmapped_sorted sound.counts.distinct⟩
  rw [← List.length_map Access.virtual, sound.counts.sites]
  exact List.length_take_le _ _

end MemoryMap

end GoRetroTv
