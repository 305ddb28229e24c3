import GoRetroTv.DramMemory
import Mathlib.Dynamics.PeriodicPts.Defs
import Mathlib.Order.Lattice.Nat

/-!
# The guest's list of tasks

`internal/board/nucleus.go`: `walkTasks` looks for the task `SMTTask` in DRAM and follows
the created list from it.  The list is guest memory: it may leave DRAM, reach something
that is no task, or close anywhere.
-/

namespace GoRetroTv

namespace Nucleus

open Cpu Memory

/-- The created list's forward link. -/
def cbNext : Word :=
  0x04

def cbID : Word :=
  0x0c

def cbName : Word :=
  0x10

def cbStatus : Word :=
  0x18

def cbRuns : Word :=
  0x1c

def cbLen : Word :=
  0x70

/-- "TASK". -/
def taskMagic : Word :=
  0x5441534b

/-- The most tasks a list is followed for. -/
def taskBound : Nat :=
  200

structure Task where
  tcb : Word
  name : List Byte
  status : Byte
  runs : Word
  deriving DecidableEq

/-- `RAM.Read`, which has no answer here outside DRAM. -/
def look (off : Word) (size : Size) (r : Ram) : Option Word :=
  if off.toNat + size.bytes ≤ dramSize then some (r.peek off size) else none

/-- The rest of a name, of so many bytes at most. -/
def nameFrom (r : Ram) (off : Word) : Nat → List Byte → Option (List Byte × Bool)
  | 0, name => some (name, true)
  | rest + 1, name => do
      let c ← look off .byte r
      if c = 0 then return (name, true)
      else if c < 0x20 ∨ 0x7e < c then return ([], false)
      else nameFrom r (off + 1) rest (name ++ [c.setWidth 8])

/-- `controlBlockName`. -/
def controlBlockName (r : Ram) (off : Word) : Option (List Byte × Bool) :=
  nameFrom r (off + cbName) 8 []

/-- What `walkTasks` hands to its visitor. -/
def taskAt (r : Ram) (tcb : Word) : Option Task := do
  let off := tcb - dramBase
  let (name, _) ← controlBlockName r off
  let status ← look (off + cbStatus) .byte r
  let runs ← look (off + cbRuns) .word r
  return { tcb, name, status := status.setWidth 8, runs }

/-- The scan for the seed from an offset on. -/
def findSeed (r : Ram) (off : Nat) : Option (Option Word) :=
  if off + 0x38 ≤ dramSize then do
    let here := BitVec.ofNat 32 off
    let id ← look (here + cbID) .word r
    if id ≠ taskMagic then findSeed r (off + 4)
    else
      let (who, ok) ← controlBlockName r here
      if ok ∧ who = ascii "SMTTask" then return some (dramBase + here)
      else findSeed r (off + 4)
  else some none
termination_by dramSize - off

/-- The tasks visited, and how the walk ended. -/
abbrev Walked :=
  List Task × Except String Unit

/-- A control block at the address lies in DRAM. -/
def inDRAM (tcb : Word) : Bool :=
  !(tcb < dramBase || BitVec.ofNat 32 dramSize < tcb - dramBase + cbLen || tcb &&& 3 != 0)

/-- The loop of `walkTasks`. -/
def walkFrom (r : Ram) (seed tcb : Word) (seen : List Word) (visited : List Task) :
    Option Walked :=
  if inDRAM tcb = false then
    some (visited, .error s!"task census: created list left DRAM at {upperHexText 8 tcb.toNat}")
  else if tcb ∈ seen then
    some (visited, .error s!"task census: created list repeated {upperHexText 8 tcb.toNat}")
  else if taskBound ≤ seen.length then
    some (visited, .error s!"task census: created list exceeds {taskBound} tasks")
  else do
    let off := tcb - dramBase
    let id ← look (off + cbID) .word r
    if id ≠ taskMagic then
      return (visited, .error ("task census: created list points to non-task at " ++
        upperHexText 8 tcb.toNat))
    else
      let task ← taskAt r tcb
      let next ← look (off + cbNext) .word r
      if next = seed then return (visited ++ [task], .ok ())
      else walkFrom r seed next (seen ++ [tcb]) (visited ++ [task])
termination_by taskBound - seen.length

/-- `walkTasks`. -/
def walkTasks (r : Ram) : Option Walked := do
  match ← findSeed r 0 with
  | none => return ([], .ok ())
  | some seed => walkFrom r seed seed [] []

section Inside

variable {r : Ram} {off : Word} {size : Size}

theorem look_inside (inside : off.toNat + size.bytes ≤ dramSize) :
    look off size r = some (r.peek off size) :=
  if_pos inside

theorem nameFrom_inside {count : Nat} {name : List Byte} (inside : off.toNat + count ≤ dramSize) :
    ∃ named, nameFrom r off count name = some named := by
  induction count generalizing off name with
  | zero => exact ⟨_, rfl⟩
  | succ count ih =>
    have limit : dramSize = 2 ^ 25 := dramSize_eq
    have next : (off + 1).toNat = off.toNat + 1 := by
      rw [BitVec.toNat_add]
      exact Nat.mod_eq_of_lt (show off.toNat + 1 < 2 ^ 32 by omega)
    obtain ⟨named, rest⟩ := @ih (off + 1) (name ++ [(r.peek off .byte).setWidth 8])
      (by rw [next]; omega)
    have here : look off .byte r = some (r.peek off .byte) :=
      look_inside (show off.toNat + 1 ≤ dramSize by omega)
    unfold nameFrom
    rw [here]
    dsimp only [Option.bind_eq_bind, Option.bind_some]
    split_ifs
    · exact ⟨_, rfl⟩
    · exact ⟨_, rfl⟩
    · exact ⟨named, rest⟩

/-- A field of something inside DRAM. -/
theorem toNat_field {field : Word} (inside : off.toNat + field.toNat ≤ dramSize) :
    (off + field).toNat = off.toNat + field.toNat := by
  have limit : dramSize = 2 ^ 25 := dramSize_eq
  rw [BitVec.toNat_add]
  exact Nat.mod_eq_of_lt (by omega)

theorem look_field {field : Word} (inside : off.toNat + (field.toNat + size.bytes) ≤ dramSize) :
    look (off + field) size r = some (r.peek (off + field) size) := by
  apply look_inside
  rw [toNat_field (by omega)]
  omega

theorem controlBlockName_inside (inside : off.toNat + 0x18 ≤ dramSize) :
    ∃ named, controlBlockName r off = some named := by
  apply nameFrom_inside
  rw [toNat_field (show off.toNat + 0x10 ≤ dramSize by omega)]
  exact inside

theorem block_inside {tcb : Word} (block : inDRAM tcb = true) :
    (tcb - dramBase).toNat + 0x70 ≤ dramSize := by
  unfold inDRAM at block
  simp only [Bool.not_eq_true', Bool.or_eq_false_iff, decide_eq_false_iff_not] at block
  obtain ⟨⟨low, high⟩, -⟩ := block
  have base : dramBase.toNat = 2 ^ 31 := rfl
  have limit : dramSize = 2 ^ 25 := dramSize_eq
  have length : cbLen.toNat = 0x70 := rfl
  have top : (BitVec.ofNat 32 dramSize).toNat = dramSize := rfl
  have := tcb.isLt
  rw [BitVec.lt_def] at low high
  rw [top, BitVec.toNat_add, BitVec.toNat_sub] at high
  rw [BitVec.toNat_sub]
  omega

theorem taskAt_inside {tcb : Word} (block : inDRAM tcb = true) :
    ∃ task, taskAt r tcb = some task ∧ task.tcb = tcb := by
  have inside := block_inside block
  obtain ⟨named, read⟩ := @controlBlockName_inside r (tcb - dramBase) (by omega)
  have status : look (tcb - dramBase + cbStatus) .byte r = _ :=
    look_field (show _ + (0x18 + 1) ≤ dramSize by omega)
  have runs : look (tcb - dramBase + cbRuns) .word r = _ :=
    look_field (show _ + (0x1c + 4) ≤ dramSize by omega)
  unfold taskAt
  simp only [read, status, runs, Option.bind_eq_bind, Option.bind_some]
  exact ⟨_, rfl, rfl⟩

end Inside

/-- The block is a task's. -/
def isTask (r : Ram) (tcb : Word) : Prop :=
  r.peek (tcb - dramBase + cbID) .word = taskMagic

instance (r : Ram) (tcb : Word) : Decidable (isTask r tcb) :=
  inferInstanceAs (Decidable (_ = _))

/-- A task's block at a word of DRAM, whose name field reads `SMTTask` up to its
terminator. -/
structure IsSeed (r : Ram) (off : Nat) : Prop where
  aligned : 4 ∣ off
  inside : off + 0x38 ≤ dramSize
  task : isTask r (dramBase + BitVec.ofNat 32 off)
  name : ∀ i < 8, r.byteAt (BitVec.ofNat 32 off + cbName + BitVec.ofNat 32 i) =
    (ascii "SMTTask" ++ [0]).getD i 0

section Seed

variable {r : Ram} {off : Word}

theorem nameFrom_succ {count : Nat} {name : List Byte}
    (inside : off.toNat + (count + 1) ≤ dramSize) :
    nameFrom r off (count + 1) name =
      if r.byteAt off = 0 then some (name, true)
      else if r.byteAt off < 0x20 ∨ 0x7e < r.byteAt off then some ([], false)
      else nameFrom r (off + 1) count (name ++ [r.byteAt off]) := by
  have read : look off .byte r = some ((r.byteAt off).setWidth 32) := by
    rw [look_inside (show off.toNat + 1 ≤ dramSize by omega), Ram.peek_byte]
  have same : ((r.byteAt off).setWidth 32).setWidth 8 = r.byteAt off :=
    BitVec.setWidth_setWidth_of_le _ (by decide)
  have small := (r.byteAt off).isLt
  have zero : (r.byteAt off).setWidth 32 = 0 ↔ r.byteAt off = 0 := by
    rw [← BitVec.toNat_inj, ← BitVec.toNat_inj, BitVec.toNat_setWidth]
    exact Eq.congr (Nat.mod_eq_of_lt (by omega)) rfl
  have low : (r.byteAt off).setWidth 32 < 0x20 ↔ r.byteAt off < 0x20 := by
    rw [BitVec.lt_def, BitVec.lt_def, BitVec.toNat_setWidth, Nat.mod_eq_of_lt (by omega)]
    rfl
  have high : 0x7e < (r.byteAt off).setWidth 32 ↔ 0x7e < r.byteAt off := by
    rw [BitVec.lt_def, BitVec.lt_def, BitVec.toNat_setWidth, Nat.mod_eq_of_lt (by omega)]
    rfl
  rw [nameFrom, read]
  simp only [Option.bind_eq_bind, Option.bind_some, zero, low, high, same]
  rfl

theorem toNat_succ_inside (inside : off.toNat + 1 ≤ dramSize) : (off + 1).toNat = off.toNat + 1 :=
  toNat_field (show off.toNat + (1 : Word).toNat ≤ dramSize from inside)

/-- A name that is read starts with what was read before. -/
theorem nameFrom_start {count : Nat} {name who : List Byte}
    (inside : off.toNat + count ≤ dramSize) (read : nameFrom r off count name = some (who, true)) :
    name <+: who := by
  induction count generalizing off name with
  | zero =>
    cases read
    exact List.prefix_rfl
  | succ count ih =>
    have next := @toNat_succ_inside off (by omega)
    rw [nameFrom_succ inside] at read
    split_ifs at read
    · cases read
      exact List.prefix_rfl
    · cases read
    · exact (List.prefix_append _ _).trans (ih (by omega) read)

/-- A name ends at its terminator. -/
theorem nameFrom_ended {count : Nat} {name : List Byte}
    (inside : off.toNat + (count + 1) ≤ dramSize)
    (read : nameFrom r off (count + 1) name = some (name, true)) : r.byteAt off = 0 := by
  have next := @toNat_succ_inside off (by omega)
  rw [nameFrom_succ inside] at read
  split_ifs at read with ended bad
  · exact ended
  · exact Bool.noConfusion (Prod.mk.inj (Option.some.inj read)).2
  · have longer := (nameFrom_start (by omega) read).length_le
    rw [List.length_append, List.length_singleton] at longer
    omega

/-- A name that goes on has its next byte there. -/
theorem nameFrom_head {count : Nat} {name text : List Byte} {c : Byte}
    (inside : off.toNat + (count + 1) ≤ dramSize)
    (read : nameFrom r off (count + 1) name = some (name ++ c :: text, true)) :
    r.byteAt off = c := by
  have next := @toNat_succ_inside off (by omega)
  rw [nameFrom_succ inside] at read
  split_ifs at read with ended bad
  · have lengths := congrArg List.length (Prod.mk.inj (Option.some.inj read)).1
    rw [List.length_append, List.length_cons] at lengths
    omega
  · exact Bool.noConfusion (Prod.mk.inj (Option.some.inj read)).2
  · have starts := nameFrom_start (by omega) read
    rw [List.prefix_append_right_inj, List.cons_prefix_cons] at starts
    exact starts.1

/-- A printable name is read exactly where its bytes and a terminator are.  By induction on the
name. -/
theorem nameFrom_eq_iff {count : Nat} {name text : List Byte}
    (inside : off.toNat + count ≤ dramSize) (short : text.length < count)
    (printable : ∀ c ∈ text, ¬(c = 0 ∨ c < 0x20 ∨ 0x7e < c)) :
    nameFrom r off count name = some (name ++ text, true) ↔
      ∀ i ≤ text.length, r.byteAt (off + BitVec.ofNat 32 i) = (text ++ [0]).getD i 0 := by
  have here (off : Word) : off + BitVec.ofNat 32 0 = off := BitVec.add_zero off
  induction text generalizing off count name with
  | nil =>
    obtain ⟨rest, rfl⟩ : ∃ rest, count = rest + 1 := ⟨count - 1, by omega⟩
    rw [List.append_nil]
    constructor
    · intro read i le
      obtain rfl : i = 0 := Nat.le_zero.mp le
      rw [here]
      exact nameFrom_ended inside read
    · intro bytes
      rw [nameFrom_succ inside, if_pos (here off ▸ bytes 0 le_rfl)]
  | cons c text ih =>
    obtain ⟨rest, rfl⟩ : ∃ rest, count = rest + 1 := ⟨count - 1, by omega⟩
    have next := @toNat_succ_inside off (by omega)
    rw [List.length_cons] at short
    by_cases same : r.byteAt off = c
    case neg =>
      exact iff_of_false (fun read => same (nameFrom_head inside read)) fun bytes =>
        same (here off ▸ bytes 0 (Nat.zero_le _))
    obtain ⟨nonzero, shown⟩ := not_or.mp (printable c List.mem_cons_self)
    have rest_ : nameFrom r (off + 1) rest (name ++ [c]) = some (name ++ [c] ++ text, true) ↔ _ :=
      ih (by omega) (by omega) fun other member => printable other (List.mem_cons_of_mem _ member)
    have grown : name ++ c :: text = name ++ [c] ++ text := List.append_cons name c text
    rw [nameFrom_succ inside, same, if_neg nonzero, if_neg shown, grown, rest_]
    have shift (i : Nat) : off + 1 + BitVec.ofNat 32 i = off + BitVec.ofNat 32 (i + 1) := by
      rw [BitVec.add_assoc, BitVec.ofNat_add, BitVec.add_comm 1]
      rfl
    constructor
    · intro bytes i le
      cases i with
      | zero => rw [here, same, List.cons_append, List.getD_cons_zero]
      | succ i =>
        rw [← shift, bytes i (by simpa using le), List.cons_append, List.getD_cons_succ]
    · intro bytes i le
      rw [shift, bytes (i + 1) (by simpa using le), List.cons_append, List.getD_cons_succ]

theorem controlBlockName_iff (inside : off.toNat + 0x18 ≤ dramSize) :
    controlBlockName r off = some (ascii "SMTTask", true) ↔
      ∀ i < 8, r.byteAt (off + cbName + BitVec.ofNat 32 i) = (ascii "SMTTask" ++ [0]).getD i 0 := by
  have field := toNat_field (show off.toNat + cbName.toNat ≤ dramSize from by
    change off.toNat + 0x10 ≤ dramSize
    omega)
  have offset : cbName.toNat = 0x10 := rfl
  have printable : ∀ c ∈ ascii "SMTTask", ¬(c = 0 ∨ c < 0x20 ∨ 0x7e < c) := by decide
  have read := @nameFrom_eq_iff r (off + cbName) 8 [] (ascii "SMTTask") (by omega) (by decide)
    printable
  rw [List.nil_append] at read
  rw [controlBlockName, read]
  exact forall_congr' fun i => imp_congr_left Nat.lt_succ_iff.symm

/-- The offset of a word of DRAM, as the walk's address and back. -/
theorem isTask_iff {start : Nat} : isTask r (dramBase + BitVec.ofNat 32 start) ↔
    r.peek (BitVec.ofNat 32 start + cbID) .word = taskMagic := by
  unfold isTask
  rw [BitVec.add_comm dramBase, BitVec.add_sub_cancel]

theorem findSeed_eq {start : Nat} (aligned : 4 ∣ start) (inside : start + 0x38 ≤ dramSize) :
    (IsSeed r start → findSeed r start = some (some (dramBase + BitVec.ofNat 32 start))) ∧
      (¬IsSeed r start → findSeed r start = findSeed r (start + 4)) := by
  have limit : dramSize = 2 ^ 25 := dramSize_eq
  have place : (BitVec.ofNat 32 start).toNat = start := Nat.mod_eq_of_lt (by omega)
  have id : look (BitVec.ofNat 32 start + cbID) .word r = _ :=
    look_field (show (BitVec.ofNat 32 start).toNat + (0x0c + 4) ≤ dramSize by omega)
  obtain ⟨⟨who, ok⟩, named⟩ := @controlBlockName_inside r (BitVec.ofNat 32 start) (by omega)
  have isName := @controlBlockName_iff r (BitVec.ofNat 32 start) (by omega)
  rw [named] at isName
  have seed_iff : IsSeed r start ↔ r.peek (BitVec.ofNat 32 start + cbID) .word = taskMagic ∧
      who = ascii "SMTTask" ∧ ok = true := by
    rw [← isTask_iff]
    constructor
    · intro seed
      exact ⟨seed.task, Prod.mk.inj (Option.some.inj (isName.mpr seed.name))⟩
    · rintro ⟨task, rfl, rfl⟩
      exact ⟨aligned, inside, task, isName.mp rfl⟩
  rw [findSeed, if_pos inside]
  simp only [id, named, Option.bind_eq_bind, Option.bind_some]
  constructor
  · intro seed
    obtain ⟨task, isWho, isOk⟩ := seed_iff.mp seed
    rw [if_neg (not_not.mpr task), if_pos ⟨isOk, isWho⟩]
    rfl
  · intro other
    split_ifs with notTask both
    · rfl
    · exact absurd (seed_iff.mpr ⟨not_not.mp notTask, both.2, both.1⟩) other
    · rfl

/-- The scan passes over whatever is no seed. -/
theorem findSeed_skip {n : Nat} (inside : 4 * n + 0x34 ≤ dramSize)
    (absent : ∀ off < 4 * n, ¬IsSeed r off) : findSeed r 0 = findSeed r (4 * n) := by
  induction n with
  | zero => rfl
  | succ n ih =>
    rw [ih (by omega) fun off lt => absent off (by omega)]
    exact (findSeed_eq (Nat.dvd_mul_right 4 n) (by omega)).2 (absent _ (by omega))

/-- The scan finds the first seed. -/
theorem findSeed_first {first : Nat} (seed : IsLeast {off | IsSeed r off} first) :
    findSeed r 0 = some (some (dramBase + BitVec.ofNat 32 first)) := by
  have isSeed : IsSeed r first := seed.1
  obtain ⟨n, rfl⟩ := isSeed.aligned
  have inside := isSeed.inside
  rw [findSeed_skip (by omega) fun off lt other => absurd (seed.2 other) (Nat.not_le.mpr lt)]
  exact (findSeed_eq isSeed.aligned inside).1 isSeed

/-- Without a seed the scan comes to the end of DRAM. -/
theorem findSeed_absent (absent : ∀ off, ¬IsSeed r off) : findSeed r 0 = some none := by
  have limit : dramSize = 2 ^ 25 := dramSize_eq
  rw [@findSeed_skip r (2 ^ 23 - 13) (by omega) fun off _ => absent off, findSeed,
    if_neg (by omega)]

end Seed

/-- The next block on the created list. -/
def next (r : Ram) (tcb : Word) : Word :=
  r.peek (tcb - dramBase + cbNext) .word

/-- The list closes at the seed, behind tasks in DRAM, no more of them than the bound. -/
structure Closes (r : Ram) (seed : Word) : Prop where
  closed : 0 < Function.minimalPeriod (next r) seed
  bounded : Function.minimalPeriod (next r) seed ≤ taskBound
  blocks : ∀ k, inDRAM ((next r)^[k] seed) = true
  tasks : ∀ k, isTask r ((next r)^[k] seed)

/-- The tasks of the list, once each and in its order. -/
noncomputable def tasksOf (r : Ram) (seed : Word) : List (Option Task) :=
  (List.range (Function.minimalPeriod (next r) seed)).map fun k => taskAt r ((next r)^[k] seed)

/-- The blocks before a place of the list. -/
def before (r : Ram) (seed : Word) (k : Nat) : List Word :=
  (List.range k).map fun j => (next r)^[j] seed

variable {r : Ram} {seed : Word} {k : Nat}

theorem before_succ : before r seed k ++ [(next r)^[k] seed] = before r seed (k + 1) := by
  unfold before
  rw [List.range_succ, List.map_append, List.map_singleton]

/-- A list all of whose places up to the first return are good is good everywhere. -/
theorem everywhere {good : Word → Prop} (closed : 0 < Function.minimalPeriod (next r) seed)
    (once : ∀ k < Function.minimalPeriod (next r) seed, good ((next r)^[k] seed)) (k : Nat) :
    good ((next r)^[k] seed) := by
  rw [← Function.iterate_mod_minimalPeriod_eq]
  exact once _ (Nat.mod_lt k closed)

/-- The first return is the period. -/
theorem minimalPeriod_eq (returns : (next r)^[k + 1] seed = seed)
    (first : ∀ j, 0 < j → j ≤ k → (next r)^[j] seed ≠ seed) :
    Function.minimalPeriod (next r) seed = k + 1 := by
  have periodic : Function.IsPeriodicPt (next r) (k + 1) seed := returns
  have positive := periodic.minimalPeriod_pos (Nat.succ_pos k)
  have le := periodic.minimalPeriod_le (Nat.succ_pos k)
  rcases Nat.lt_or_eq_of_le le with earlier | same
  · exact absurd Function.iterate_minimalPeriod (first _ positive (Nat.le_of_lt_succ earlier))
  · exact same

/-- A list of tasks that returns to its seed in time closes. -/
theorem closes_of (returns : (next r)^[k + 1] seed = seed)
    (first : ∀ j, 0 < j → j ≤ k → (next r)^[j] seed ≠ seed) (bounded : k + 1 ≤ taskBound)
    (places : ∀ j < k + 1, inDRAM ((next r)^[j] seed) = true ∧ isTask r ((next r)^[j] seed)) :
    Closes r seed := by
  have period := minimalPeriod_eq returns first
  have closed : 0 < Function.minimalPeriod (next r) seed := period ▸ Nat.succ_pos k
  refine ⟨closed, period ▸ bounded, ?_, ?_⟩
  · refine @everywhere r seed (inDRAM · = true) closed fun j earlier => ?_
    exact (places j (period ▸ earlier)).1
  · refine @everywhere r seed (isTask r) closed fun j earlier => ?_
    exact (places j (period ▸ earlier)).2

/-- One block of the walk: it ends there, or goes on to the next. -/
theorem walkFrom_step {tcb : Word} {seen : List Word} {visited : List Task}
    (block : inDRAM tcb = true) (new : tcb ∉ seen) (bounded : ¬taskBound ≤ seen.length)
    (task : isTask r tcb) :
    ∃ visit, taskAt r tcb = some visit ∧ walkFrom r seed tcb seen visited =
      if next r tcb = seed then some (visited ++ [visit], .ok ())
      else walkFrom r seed (next r tcb) (seen ++ [tcb]) (visited ++ [visit]) := by
  have inside := block_inside block
  obtain ⟨visit, read, -⟩ := @taskAt_inside r tcb block
  have id : look (tcb - dramBase + cbID) .word r = some taskMagic :=
    task ▸ look_field (show _ + (0x0c + 4) ≤ dramSize by omega)
  have link : look (tcb - dramBase + cbNext) .word r = some (next r tcb) :=
    look_field (show _ + (0x04 + 4) ≤ dramSize by omega)
  refine ⟨visit, read, ?_⟩
  rw [walkFrom, if_neg (by rw [block]; exact Bool.noConfusion), if_neg new, if_neg bounded]
  simp only [id, link, read, Option.bind_eq_bind, Option.bind_some, ne_eq, not_true, if_false]
  rfl

theorem not_ended {visited : List Task} {error : String} {claimed : Prop}
    (ended : ((visited, .error error) : Walked).2 = .ok ()) : claimed := by
  cases ended

/-- A walk ends inside DRAM, and without an error only where the list closes. -/
theorem walkFrom_ends (first : ∀ j, 0 < j → j ≤ k → (next r)^[j] seed ≠ seed)
    (blocks : ∀ j < k, inDRAM ((next r)^[j] seed) = true ∧ isTask r ((next r)^[j] seed))
    {visited : List Task}
    (isVisited : visited.map some = (List.range k).map fun j => taskAt r ((next r)^[j] seed)) :
    ∃ walked, walkFrom r seed ((next r)^[k] seed) (before r seed k) visited = some walked ∧
      (walked.2 = .ok () → Closes r seed ∧ walked.1.map some = tasksOf r seed) := by
  induction left : taskBound - k generalizing k visited with
  | zero =>
    have full : taskBound ≤ (before r seed k).length := by
      rw [before, List.length_map, List.length_range]
      omega
    rw [walkFrom]
    split_ifs
    · exact ⟨_, rfl, not_ended⟩
    · exact ⟨_, rfl, not_ended⟩
    · exact ⟨_, rfl, not_ended⟩
  | succ left ih =>
    by_cases block : inDRAM ((next r)^[k] seed) = true
    case neg =>
      rw [walkFrom, if_pos (Bool.not_eq_true _ ▸ block)]
      exact ⟨_, rfl, not_ended⟩
    by_cases new : (next r)^[k] seed ∈ before r seed k
    · rw [walkFrom, if_neg (by rw [block]; exact Bool.noConfusion), if_pos new]
      exact ⟨_, rfl, not_ended⟩
    have bounded : ¬taskBound ≤ (before r seed k).length := by
      rw [before, List.length_map, List.length_range]
      omega
    by_cases task : isTask r ((next r)^[k] seed)
    case neg =>
      have inside := block_inside block
      have id : look ((next r)^[k] seed - dramBase + cbID) .word r = _ :=
        look_field (show _ + (0x0c + 4) ≤ dramSize by omega)
      rw [walkFrom, if_neg (by rw [block]; exact Bool.noConfusion), if_neg new, if_neg bounded]
      unfold isTask at task
      simp only [id, Option.bind_eq_bind, Option.bind_some]
      rw [if_pos task]
      exact ⟨_, rfl, not_ended⟩
    obtain ⟨visit, read, step⟩ :=
      @walkFrom_step r seed ((next r)^[k] seed) (before r seed k) visited block new bounded task
    have visits : (visited ++ [visit]).map some =
        (List.range (k + 1)).map fun j => taskAt r ((next r)^[j] seed) := by
      rw [List.map_append, isVisited, List.range_succ, List.map_append, List.map_singleton,
        List.map_singleton, read]
    have places : ∀ j < k + 1,
        inDRAM ((next r)^[j] seed) = true ∧ isTask r ((next r)^[j] seed) := by
      intro j le
      rcases Nat.lt_succ_iff_lt_or_eq.mp le with earlier | rfl
      · exact blocks j earlier
      · exact ⟨block, task⟩
    rw [step, before_succ, ← Function.iterate_succ_apply' (next r) k seed]
    by_cases returns : (next r)^[k + 1] seed = seed
    · rw [if_pos returns]
      refine ⟨_, rfl, fun _ => ⟨closes_of returns first (by omega) places, ?_⟩⟩
      rw [tasksOf, minimalPeriod_eq returns first]
      exact visits
    · rw [if_neg returns]
      refine ih (fun j positive le => ?_) places visits (by omega)
      rcases Nat.lt_or_eq_of_le le with earlier | rfl
      · exact first j positive (Nat.le_of_lt_succ earlier)
      · exact returns

/-- Where the list closes the walk ends without an error. -/
theorem walkFrom_closes (closes : Closes r seed)
    (before_ : k < Function.minimalPeriod (next r) seed) (visited : List Task) :
    ∃ tasks, walkFrom r seed ((next r)^[k] seed) (before r seed k) visited =
      some (tasks, .ok ()) := by
  induction left : Function.minimalPeriod (next r) seed - k generalizing k visited with
  | zero => omega
  | succ left ih =>
    have new : (next r)^[k] seed ∉ before r seed k := by
      unfold before
      rw [List.mem_map]
      rintro ⟨j, earlier, same⟩
      have earlier := List.mem_range.mp earlier
      have := (Function.iterate_eq_iterate_iff_of_lt_minimalPeriod
        (Nat.lt_trans earlier before_) before_).mp same
      omega
    have bounded : ¬taskBound ≤ (before r seed k).length := by
      have := closes.bounded
      rw [before, List.length_map, List.length_range]
      omega
    obtain ⟨visit, read, step⟩ := @walkFrom_step r seed ((next r)^[k] seed) (before r seed k)
      visited (closes.blocks k) new bounded (closes.tasks k)
    rw [step, before_succ, ← Function.iterate_succ_apply' (next r) k seed]
    split_ifs with returns
    · exact ⟨_, rfl⟩
    · refine ih ?_ _ (by omega)
      rcases Nat.lt_or_eq_of_le (Nat.succ_le_of_lt before_) with earlier | last
      · exact earlier
      · rw [last] at returns
        exact absurd Function.iterate_minimalPeriod returns

/-- What a walk from a seed says of the list through it. -/
structure Census (r : Ram) (seed : Word) (walked : Walked) : Prop where
  tasks : walked.2 = .ok () → walked.1.map some = tasksOf r seed
  order : walked.2 = .ok () → walked.1.map Task.tcb =
    (List.range (Function.minimalPeriod (next r) seed)).map fun k => (next r)^[k] seed
  once : walked.2 = .ok () → (walked.1.map Task.tcb).Nodup
  exact_ : walked.2 = .ok () →
    ∀ tcb, tcb ∈ walked.1.map Task.tcb ↔ ∃ k, (next r)^[k] seed = tcb
  leaves : (∃ k, inDRAM ((next r)^[k] seed) = false) → ∃ error, walked.2 = .error error
  strays : (∃ k, ¬isTask r ((next r)^[k] seed)) → ∃ error, walked.2 = .error error
  reenters : (∃ i j, 0 < i ∧ i < j ∧ (next r)^[i] seed = (next r)^[j] seed ∧
    ∀ k, 0 < k → k ≤ j → (next r)^[k] seed ≠ seed) → ∃ error, walked.2 = .error error
  exceeds : (∀ k, 0 < k → k ≤ taskBound → (next r)^[k] seed ≠ seed) →
    ∃ error, walked.2 = .error error
  complete : Closes r seed → walked.2 = .ok ()

theorem tcb_of_tasksOf (closes : Closes r seed) {tasks : List Task}
    (same : tasks.map some = tasksOf r seed) :
    tasks.map Task.tcb =
      (List.range (Function.minimalPeriod (next r) seed)).map fun k => (next r)^[k] seed := by
  have read : (tasks.map some).map (Option.map Task.tcb) =
      ((List.range (Function.minimalPeriod (next r) seed)).map fun k =>
        (next r)^[k] seed).map some := by
    rw [same, tasksOf, List.map_map, List.map_map]
    refine List.map_congr_left fun k _ => ?_
    obtain ⟨task, read, tcb⟩ := @taskAt_inside r _ (closes.blocks k)
    rw [Function.comp_apply, Function.comp_apply, read, Option.map_some, tcb]
  refine List.map_injective_iff.mpr (Option.some_injective Word) ?_
  rw [← read, List.map_map, List.map_map]
  rfl

/-- The walk from a seed is a census of its list. -/
theorem walkFrom_census (r : Ram) (seed : Word) :
    ∃ walked, walkFrom r seed seed [] [] = some walked ∧ Census r seed walked := by
  obtain ⟨walked, ran, ended⟩ := @walkFrom_ends r seed 0 (by omega) (by omega) [] rfl
  have fails (open_ : ¬Closes r seed) : ∃ error, walked.2 = .error error := by
    cases outcome : walked.2 with
    | error error => exact ⟨error, rfl⟩
    | ok done => exact absurd (ended outcome).1 open_
  have order (ok : walked.2 = .ok ()) := tcb_of_tasksOf (ended ok).1 (ended ok).2
  refine ⟨walked, ran, ⟨fun ok => (ended ok).2, order, ?_, ?_, ?_, ?_, ?_, ?_, ?_⟩⟩
  · intro ok
    rw [order ok]
    refine List.Nodup.map_on (fun i first j second same => ?_) List.nodup_range
    exact (Function.iterate_eq_iterate_iff_of_lt_minimalPeriod (List.mem_range.mp first)
      (List.mem_range.mp second)).mp same
  · intro ok tcb
    rw [order ok, List.mem_map]
    constructor
    · rintro ⟨k, -, here⟩
      exact ⟨k, here⟩
    · rintro ⟨k, here⟩
      refine ⟨k % Function.minimalPeriod (next r) seed, ?_, ?_⟩
      · exact List.mem_range.mpr (Nat.mod_lt k (ended ok).1.closed)
      · rw [Function.iterate_mod_minimalPeriod_eq]
        exact here
  · rintro ⟨k, outside⟩
    refine fails fun closes => ?_
    rw [closes.blocks k] at outside
    cases outside
  · rintro ⟨k, stray⟩
    exact fails fun closes => stray (closes.tasks k)
  · rintro ⟨i, j, positive, before, same, open_⟩
    refine fails fun closes => ?_
    have within : j < Function.minimalPeriod (next r) seed := by
      by_contra past
      exact open_ _ closes.closed (Nat.not_lt.mp past) Function.iterate_minimalPeriod
    have := (Function.iterate_eq_iterate_iff_of_lt_minimalPeriod
      (Nat.lt_trans before within) within).mp same
    omega
  · intro open_
    refine fails fun closes => ?_
    exact open_ _ closes.closed closes.bounded Function.iterate_minimalPeriod
  · intro closes
    obtain ⟨tasks, closed⟩ := @walkFrom_closes r seed 0 closes closes.closed []
    rw [closed] at ran
    cases ran
    rfl

theorem walkTasks_seeded {r : Ram} {first : Nat} (seed : IsLeast {off | IsSeed r off} first) :
    ∃ walked, walkTasks r = some walked ∧
      Census r (dramBase + BitVec.ofNat 32 first) walked := by
  rw [walkTasks, findSeed_first seed]
  exact walkFrom_census r (dramBase + BitVec.ofNat 32 first)

/-- **The walk of the tasks.**  For any contents of DRAM it ends without a look outside.  Where
no task's block is named `SMTTask` it visits nothing, and otherwise it is a census of the list
through the first block that is. -/
theorem walkTasks_census (r : Ram) :
    ∃ walked, walkTasks r = some walked ∧
      ((∀ off, ¬IsSeed r off) → walked = ([], .ok ())) ∧
      ∀ first, IsLeast {off | IsSeed r off} first →
        Census r (dramBase + BitVec.ofNat 32 first) walked := by
  by_cases present : ∃ off, IsSeed r off
  · obtain ⟨first, seed⟩ : ∃ first, IsLeast {off | IsSeed r off} first :=
      ⟨_, Nat.sInf_mem present, fun _ seed => Nat.sInf_le seed⟩
    obtain ⟨walked, ran, census⟩ := walkTasks_seeded seed
    refine ⟨walked, ran, fun absent => ?_, fun other isFirst => ?_⟩
    · exact absurd seed.1 (absent first)
    · rw [isFirst.unique seed]
      exact census
  · have absent := not_exists.mp present
    refine ⟨([], .ok ()), ?_, fun _ => rfl, fun first seed => absurd seed.1 (absent first)⟩
    rw [walkTasks, findSeed_absent absent]
    rfl

/-- A task's block at the start of DRAM or behind it, with the low byte of its link and its
name. -/
def blockBytes (link : Byte) (name : List Byte) : List Byte :=
  [0, 0, 0, 0, 0x80, 0, 0, link, 0, 0, 0, 0] ++ ascii "TASK" ++ name ++
    List.replicate (0x70 - 0x10 - name.length) 0

/-- The seed and one more task, on a list that closes. -/
def twoTasks : Ram where
  bytes i := (blockBytes 0x70 (ascii "SMTTask") ++ blockBytes 0 (ascii "TASK0")).getD i.toNat 0

theorem twoTasks_seed : IsLeast {off | IsSeed twoTasks off} 0 :=
  ⟨⟨by decide, by decide, by decide, by decide⟩, fun _ _ => Nat.zero_le _⟩

theorem twoTasks_closes : Closes twoTasks dramBase ∧
    Function.minimalPeriod (next twoTasks) dramBase = 2 := by
  have returns : (next twoTasks)^[1 + 1] dramBase = dramBase := by decide
  have first : ∀ j, 0 < j → j ≤ 1 → (next twoTasks)^[j] dramBase ≠ dramBase := fun j positive le => by
    obtain rfl : j = 1 := by omega
    decide
  have places : ∀ j < 1 + 1, inDRAM ((next twoTasks)^[j] dramBase) = true ∧
      isTask twoTasks ((next twoTasks)^[j] dramBase) := by
    decide
  exact ⟨closes_of returns first (by decide) places, minimalPeriod_eq returns first⟩

/-- The walk visits both. -/
theorem twoTasks_walked : ∃ walked, walkTasks twoTasks = some walked ∧ walked.2 = .ok () ∧
    walked.1.map Task.tcb = [0x80000000, 0x80000070] := by
  obtain ⟨walked, ran, -, seeded⟩ := walkTasks_census twoTasks
  obtain ⟨closes, period⟩ := twoTasks_closes
  have census := seeded 0 twoTasks_seed
  have ended := census.complete closes
  refine ⟨walked, ran, ended, ?_⟩
  have order := census.order ended
  have base : dramBase + BitVec.ofNat 32 0 = dramBase := by decide
  rw [base, period] at order
  rw [order]
  decide

/-- Forty-two tasks in a ring, and a word of ones where the application keeps a gate. -/
def ring : Memory.Ram where
  bytes i :=
    let link := (i.toNat / 0x70 + 1) % 42 * 0x70
    if 0x54f84 ≤ i.toNat ∧ i.toNat < 0x54f88 then 0xff
    else if i.toNat < 42 * 0x70 then
      ([0, 0, 0, 0, 0x80, 0, BitVec.ofNat 8 (link / 256), BitVec.ofNat 8 link, 0, 0, 0, 0] ++
        ascii "TASKSMTTask").getD (i.toNat % 0x70) 0
    else 0

theorem ring_tasks : ∃ tasks, walkTasks ring = some (tasks, .ok ()) ∧ 42 ≤ tasks.length := by
  have seed : IsLeast {off | IsSeed ring off} 0 :=
    ⟨⟨by decide, by decide, by decide, by decide⟩, fun _ _ => Nat.zero_le _⟩
  have base : dramBase + BitVec.ofNat 32 0 = dramBase := by decide
  have returns : (next ring)^[41 + 1] dramBase = dramBase := by decide +kernel
  have first : ∀ j < 42, 0 < j → (next ring)^[j] dramBase ≠ dramBase := by decide +kernel
  have places : ∀ j < 41 + 1, inDRAM ((next ring)^[j] dramBase) = true ∧
      isTask ring ((next ring)^[j] dramBase) := by
    decide +kernel
  have once (j : Nat) (positive : 0 < j) (le : j ≤ 41) : (next ring)^[j] dramBase ≠ dramBase :=
    first j (Nat.lt_succ_of_le le) positive
  obtain ⟨⟨tasks, result⟩, ran, census⟩ := walkTasks_seeded seed
  rw [base] at census
  obtain rfl : result = .ok () := census.complete (closes_of returns once (by decide) places)
  have order := congrArg List.length (census.order rfl)
  rw [List.length_map, List.length_map, List.length_range, minimalPeriod_eq returns once] at order
  exact ⟨tasks, ran, order.ge⟩

end Nucleus

end GoRetroTv
