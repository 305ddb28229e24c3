import GoRetroTv.CpuFlow
import GoRetroTv.CpuUnaligned

/-!
# What a failing step leaves

An encoding is refused before anything is written.  A transfer of control in a delay slot
is refused after it has been executed: a linking branch has written its return address
by then, and ERET has left its exception level.
-/

namespace GoRetroTv

namespace Cpu

namespace Core

variable {β μ : Type}

/-- Everything a step that fails may not change: Count apart, the registers, the flow of
control, the reservation and what the bus holds as memory. -/
structure Kept (memory : β → μ) (c c' : Core β) : Prop where
  pc : c'.pc = c.pc
  isa : c'.isa = c.isa
  gpr : c'.gpr = c.gpr
  hi : c'.hi = c.hi
  lo : c'.lo = c.lo
  cop0 : ∀ n ≠ 9, c'.cop0 n = c.cop0 n
  delayed : c'.delayed = c.delayed
  reserved : c'.reserved = c.reserved
  hasReservation : c'.hasReservation = c.hasReservation
  memory : memory c'.bus = memory c.bus

/-- Reads leave the memory as it is. -/
def ReadsKeep (memory : β → μ) (ops : BusOps β) : Prop :=
  ∀ address size bus, memory (ops.read address size bus).bus = memory bus

namespace Kept

variable {memory : β → μ} {c c' c'' : Core β}

theorem refl (c : Core β) : Kept memory c c :=
  ⟨rfl, rfl, rfl, rfl, rfl, fun _ _ => rfl, rfl, rfl, rfl, rfl⟩

theorem trans (first : Kept memory c c') (second : Kept memory c' c'') : Kept memory c c'' where
  pc := second.pc.trans first.pc
  isa := second.isa.trans first.isa
  gpr := second.gpr.trans first.gpr
  hi := second.hi.trans first.hi
  lo := second.lo.trans first.lo
  cop0 n other := (second.cop0 n other).trans (first.cop0 n other)
  delayed := second.delayed.trans first.delayed
  reserved := second.reserved.trans first.reserved
  hasReservation := second.hasReservation.trans first.hasReservation
  memory := second.memory.trans first.memory

theorem symm (kept : Kept memory c c') : Kept memory c' c where
  pc := kept.pc.symm
  isa := kept.isa.symm
  gpr := kept.gpr.symm
  hi := kept.hi.symm
  lo := kept.lo.symm
  cop0 n other := (kept.cop0 n other).symm
  delayed := kept.delayed.symm
  reserved := kept.reserved.symm
  hasReservation := kept.hasReservation.symm
  memory := kept.memory.symm

theorem load {ops : BusOps β} (keep : ReadsKeep memory ops) (address : Word) (size : Size) :
    Kept memory c (c.load ops address size).2 :=
  ⟨rfl, rfl, rfl, rfl, rfl, fun _ _ => rfl, rfl, rfl, rfl, keep address size c.bus⟩

theorem tickCount : Kept memory c c.tickCount := by
  have ticked : ∀ n ≠ (9 : Register), Function.update c.cop0 9 (c.cop0 9 + 1) n = c.cop0 n :=
    fun n other => Function.update_of_ne other _ _
  unfold Core.tickCount
  dsimp only
  split <;> exact ⟨rfl, rfl, rfl, rfl, rfl, ticked, rfl, rfl, rfl, rfl⟩

theorem beginStep : Kept memory c c.beginStep := by
  unfold Core.beginStep
  split
  · exact tickCount
  · exact refl c

/-- A register written is kept when it held the value already. -/
theorem set_iff {register : Register} {value : Word} :
    Kept memory c (c.set register value) ↔ register = 0 ∨ c.gpr register = value := by
  constructor
  · intro kept
    by_cases zero : register = 0
    · exact .inl zero
    · exact .inr ((congrFun kept.gpr register).symm.trans (set_gpr_self zero value c))
  · rintro (rfl | held)
    · exact refl c
    · have same : c.set register value = c := by
        rw [← held]
        unfold Core.set
        rw [Function.update_eq_self, ite_self]
      rw [same]
      exact refl c

theorem setCop0_iff {register : Register} {value : Word} (other : register ≠ 9) :
    Kept memory c (c.setCop0 register value) ↔ c.cop0 register = value := by
  constructor
  · intro kept
    exact (kept.cop0 register other).symm.trans (Function.update_self _ _ _)
  · intro held
    have same : c.setCop0 register value = c := by
      rw [← held]
      unfold Core.setCop0
      rw [Function.update_eq_self]
    rw [same]
    exact refl c

theorem congr_set (kept : Kept memory c c') (register : Register) (value : Word) :
    Kept memory (c.set register value) (c'.set register value) := by
  unfold Core.set
  split
  · exact kept
  · exact ⟨kept.pc, kept.isa, congrArg (Function.update · register value) kept.gpr, kept.hi,
      kept.lo, kept.cop0, kept.delayed, kept.reserved, kept.hasReservation, kept.memory⟩

end Kept

open Mips32

/-- The core once a 32-bit transfer of control has written what it writes. -/
def written32 (w : Word) (c : Core β) : Core β :=
  if op w = 3 ∨ op w = 29 ∨ op w = 1 ∧ 16 ≤ (rt w).toNat ∧ (rt w).toNat ≤ 19 then
    c.set 31 (c.pc + 4 + 4)
  else if op w = 0 ∧ fn w = 9 then c.set (rd w) (c.pc + 4 + 4)
  else if w = 0x42000018 then
    c.setCop0 12 (c.cop0 12 &&& ~~~(if c.cop0 12 &&& 4 != 0 then 4 else 2))
  else c

/-- The 16-bit instructions that link. -/
def written16 (f : Fetched16) (c : Core β) : Core β :=
  if f.op = 3 ∧ f.extended = false then c.set 31 (f.pc + 6 ||| 1)
  else if f.op = 0x1d ∧ f.extended = false ∧ (f.h &&& 31).toNat = 0 then
    if f.ry = 2 then c.set 31 (f.pc + 4 ||| 1)
    else if f.ry = 6 then c.set 31 (f.pc + 2 ||| 1)
    else c
  else c

/-- An instruction run on `c`: an error has written nothing, and a transfer of control only
what `written` has. -/
structure Writes {α : Type} (memory : β → μ) (moves : α → Prop) (c written : Core β)
    (result : Core β × Except String α) : Prop where
  failed : ∀ error, result.2 = .error error → Kept memory c result.1 ∧ Kept memory written result.1
  moved : ∀ effect, result.2 = .ok effect → moves effect → Kept memory written result.1

def Moves (effect : Branch) : Prop :=
  effect.armed = true ∨ effect.immediate = true

abbrev Writes32 (memory : β → μ) (c written : Core β) (result : Executed β) : Prop :=
  Writes memory Moves c written result

abbrev Writes16 (memory : β → μ) (c written : Core β) (result : Executed16 β) : Prop :=
  Writes memory (fun effect => Moves effect.1) c written result

namespace Writes32

variable {memory : β → μ} {c c' written : Core β}

theorem stays {effect : Branch} (armed : effect.armed = false)
    (immediate : effect.immediate = false) : Writes32 memory c written (c'.transfer effect) where
  failed error isError := by cases isError
  moved ended isEffect moves := by
    rw [Core.transfer, Except.ok.injEq] at isEffect
    subst isEffect
    rcases moves with isArmed | isImmediate
    · rw [armed] at isArmed
      cases isArmed
    · rw [immediate] at isImmediate
      cases isImmediate

theorem retire : Writes32 memory c written c'.retire :=
  stays rfl rfl

theorem transfer (kept : Kept memory written c') (effect : Branch) :
    Writes32 memory c written (c'.transfer effect) where
  failed error isError := by cases isError
  moved _ _ _ := kept

theorem refuse (same : written = c) (error : String) :
    Writes32 memory c written (c.refuse error) where
  failed _ _ := by
    subst same
    exact ⟨.refl _, .refl _⟩
  moved effect isEffect := by cases isEffect

theorem branchTo (kept : Kept memory written c') (w : Word) (ok : Bool) :
    Writes32 memory c written (c'.branchTo w ok) := by
  unfold Core.branchTo
  split
  · exact transfer kept _
  · exact retire

theorem branchLikelyTo (kept : Kept memory written c') (w : Word) (ok : Bool) :
    Writes32 memory c written (c'.branchLikelyTo w ok) := by
  unfold Core.branchLikelyTo
  split
  · exact branchTo kept w true
  · exact stays rfl rfl

end Writes32

namespace Writes16

variable {memory : β → μ} {c c' written : Core β} {f : Fetched16}

theorem retire : Writes16 memory c written (c'.retire16 f) where
  failed error isError := by cases isError
  moved ended isEffect moves := by
    rw [Core.retire16, Except.ok.injEq] at isEffect
    subst isEffect
    rcases moves with isArmed | isImmediate
    · cases isArmed
    · cases isImmediate

theorem transfer (kept : Kept memory written c') (effect : Branch) :
    Writes16 memory c written (c'.transfer16 f effect) where
  failed error isError := by cases isError
  moved _ _ _ := kept

theorem refuse (same : written = c) (reason : String) :
    Writes16 memory c written (c.refuse16 f reason) where
  failed _ _ := by
    subst same
    exact ⟨.refl _, .refl _⟩
  moved effect isEffect := by cases isEffect

theorem instantIf (kept : Kept memory written c') (ok : Bool) (offset : Word) :
    Writes16 memory c written (c'.instantIf f ok offset) := by
  unfold Core.instantIf
  split
  · exact transfer kept _
  · exact retire

end Writes16

section Sets

variable {memory : β → μ} {ops : BusOps β} {c : Core β} {w : Word}

theorem written32_plain
    (noLink : ¬(op w = 3 ∨ op w = 29 ∨ op w = 1 ∧ 16 ≤ (rt w).toNat ∧ (rt w).toNat ≤ 19))
    (noJalr : ¬(op w = 0 ∧ fn w = 9)) (noEret : w ≠ 0x42000018) : c.written32 w = c := by
  unfold written32
  rw [if_neg noLink, if_neg noJalr, if_neg noEret]

theorem not_eret {w : Word} (other : op w ≠ 16) : w ≠ 0x42000018 := by
  rintro rfl
  exact other (by decide)

theorem special_writes (isSpecial : op w = 0) :
    Writes32 memory c (c.written32 w) (c.special w) := by
  have noEret : w ≠ 0x42000018 := not_eret (by omega)
  have plain (noJalr : fn w ≠ 9) : c.written32 w = c :=
    written32_plain (by omega) (by omega) noEret
  unfold special
  dsimp only
  split
  case h_7 isJr => exact .transfer (by rw [plain (by omega)]; exact .refl c) _
  case h_8 isJalr =>
    have linked : c.written32 w = c.set (rd w) (c.pc + 4 + 4) := by
      unfold written32
      rw [if_neg (by omega), if_pos ⟨isSpecial, isJalr⟩]
    exact .transfer (by rw [linked]; exact .refl _) _
  case h_16 | h_17 => split <;> exact .retire
  case h_28 => exact .refuse (plain (by assumption)) _
  all_goals exact .retire

theorem regimm_writes (isRegimm : op w = 1) :
    Writes32 memory c (c.written32 w) (c.regimm w) := by
  have noEret : w ≠ 0x42000018 := not_eret (by omega)
  have plain (noLink : ¬(16 ≤ (rt w).toNat ∧ (rt w).toNat ≤ 19)) : c.written32 w = c :=
    written32_plain (by omega) (by omega) noEret
  have linked (links : 16 ≤ (rt w).toNat ∧ (rt w).toNat ≤ 19) :
      Kept memory (c.written32 w) (c.set 31 (c.pc + 4 + 4)) := by
    unfold written32
    rw [if_pos (by omega)]
    exact .refl _
  have still (noLink : ¬(16 ≤ (rt w).toNat ∧ (rt w).toNat ≤ 19)) :
      Kept memory (c.written32 w) c := by
    rw [plain noLink]
    exact .refl c
  unfold regimm
  dsimp only
  split
  case h_1 | h_2 => exact .branchTo (still (by omega)) w _
  case h_3 | h_4 => exact .branchLikelyTo (still (by omega)) w _
  case h_5 | h_6 => exact .branchTo (linked (by omega)) w _
  case h_7 | h_8 => exact .branchLikelyTo (linked (by omega)) w _
  case h_9 => exact .refuse (plain (by grind)) _

theorem coprocessor0_writes (isCop0 : op w = 16) :
    Writes32 memory c (c.written32 w) (c.coprocessor0 w) := by
  have plain (noEret : w ≠ 0x42000018) : c.written32 w = c :=
    written32_plain (by omega) (by omega) noEret
  unfold coprocessor0
  dsimp only
  split
  · exact .retire
  · split <;> exact .retire
  · split
    next noEret => exact .refuse (plain (by simpa using noEret)) _
    next isEret =>
      have isEret : w = 0x42000018 := by simpa using isEret
      have left : c.written32 w =
          c.setCop0 12 (c.cop0 12 &&& ~~~(if c.cop0 12 &&& 4 != 0 then 4 else 2)) := by
        unfold written32
        rw [if_neg (by omega), if_neg (by omega), if_pos isEret]
      rw [left]
      split
      · exact .transfer (.refl _) _
      · exact .transfer (.refl _) _
  next noEret => exact .refuse (plain (by rintro rfl; exact noEret (by decide))) _

theorem memory_writes : Writes32 memory c (c.written32 w) (c.memory ops w) := by
  unfold Core.memory
  dsimp only
  split
  case h_10 => split <;> exact .retire
  all_goals exact .retire

/-- A 32-bit instruction that is refused has written nothing. -/
theorem execute32_writes : Writes32 memory c (c.written32 w) (c.execute32 ops w) := by
  have linked (links : op w = 3 ∨ op w = 29) :
      Kept memory (c.written32 w) (c.set 31 (c.pc + 4 + 4)) := by
    unfold written32
    rw [if_pos (by omega)]
    exact .refl _
  have plain (other : op w ≠ 0 ∧ op w ≠ 1 ∧ op w ≠ 3 ∧ op w ≠ 16 ∧ op w ≠ 29) :
      c.written32 w = c :=
    written32_plain (by omega) (by omega) (not_eret (by omega))
  have still (other : op w ≠ 0 ∧ op w ≠ 1 ∧ op w ≠ 3 ∧ op w ≠ 16 ∧ op w ≠ 29) :
      Kept memory (c.written32 w) c := by
    rw [plain other]
    exact .refl c
  unfold execute32
  dsimp only
  split
  case h_1 isSpecial => exact special_writes isSpecial
  case h_2 isRegimm => exact regimm_writes isRegimm
  case h_3 => exact .transfer (still (by omega)) _
  case h_4 | h_5 => exact .transfer (linked (by omega)) _
  all_goals first
    | exact .retire
    | exact .branchTo (still (by omega)) w _
    | exact .branchLikelyTo (still (by omega)) w _
    | exact coprocessor0_writes (by assumption)
    | exact memory_writes
    | exact .refuse (plain (by grind)) _

variable {f : Fetched16}

theorem written16_plain (noJal : ¬(f.op = 3 ∧ f.extended = false))
    (noJalr : ¬(f.op = 0x1d ∧ f.extended = false ∧ (f.h &&& 31).toNat = 0)) :
    c.written16 f = c := by
  unfold written16
  rw [if_neg noJal, if_neg noJalr]

theorem jal16_writes (keep : ReadsKeep memory ops) (isJal : f.op = 3) :
    Writes16 memory c (c.written16 f) (c.jal16 ops f) := by
  unfold jal16
  dsimp only
  split
  next isExtended =>
    refine .refuse (written16_plain (fun jal => ?_) (by omega)) _
    rw [isExtended] at jal
    exact absurd jal.2 (by decide)
  next notExtended =>
    have linked : c.written16 f = c.set 31 (f.pc + 6 ||| 1) := by
      unfold written16
      rw [if_pos ⟨isJal, by simpa using notExtended⟩]
    refine ⟨fun error isError => absurd isError (fun eq => by cases eq), fun _ _ _ => ?_⟩
    rw [linked]
    exact (Kept.load keep _ _).congr_set _ _

theorem shift16_writes (isShift : f.op = 6) :
    Writes16 memory c (c.written16 f) (c.shift16 f) := by
  have plain : c.written16 f = c := written16_plain (by omega) (by omega)
  unfold shift16
  dsimp only
  split
  · exact .refuse plain _
  · split
    · exact .refuse plain _
    · split <;> exact .retire

theorem i8_writes (isI8 : f.op = 12) : Writes16 memory c (c.written16 f) (c.i8 ops f) := by
  have plain : c.written16 f = c := written16_plain (by omega) (by omega)
  have still : Kept memory (c.written16 f) c := by
    rw [plain]
    exact .refl c
  unfold i8
  dsimp only
  split
  case h_5 | h_8 => exact .refuse plain _
  all_goals
    split
    all_goals first
      | exact .instantIf still _ _
      | exact .refuse plain _
      | exact .retire

theorem memory16_writes : Writes16 memory c (c.written16 f) (c.memory16 ops f) := by
  unfold memory16
  dsimp only
  split <;> exact .retire

theorem wordAccess16_writes (isAccess : f.op = 0x12 ∨ f.op = 0x1a ∨ f.op = 0x16) :
    Writes16 memory c (c.written16 f) (c.wordAccess16 ops f) := by
  unfold wordAccess16
  dsimp only
  split
  · split <;> exact .retire
  · exact .refuse (written16_plain (by omega) (by omega)) _

theorem jr16_writes (isRr : f.op = 0x1d) (short : f.extended = false)
    (isJr : (f.h &&& 31).toNat = 0) : Writes16 memory c (c.written16 f) (c.jr16 f) := by
  have linked : c.written16 f =
      if f.ry = 2 then c.set 31 (f.pc + 4 ||| 1)
      else if f.ry = 6 then c.set 31 (f.pc + 2 ||| 1)
      else c := by
    unfold written16
    rw [if_neg (by omega), if_pos ⟨isRr, short, isJr⟩]
  unfold jr16
  dsimp only
  rw [← linked]
  split
  next invalid => exact .refuse (by rw [linked, if_neg (by omega), if_neg (by omega)]) _
  · split
    · exact .transfer (.refl _) _
    · split
      · exact .transfer (.refl _) _
      next noSelector =>
        have plain : c.written16 f = c := by
          rw [linked, if_neg (by omega), if_neg (by omega)]
        rw [plain]
        exact .refuse rfl _

theorem rr_writes (isRr : f.op = 0x1d) : Writes16 memory c (c.written16 f) (c.rr f) := by
  have plain (other : ¬(f.extended = false ∧ (f.h &&& 31).toNat = 0)) : c.written16 f = c :=
    written16_plain (by omega) (by tauto)
  unfold rr
  dsimp only
  split
  next isExtended => exact .refuse (plain (by simp [isExtended])) _
  next notExtended =>
    have short : f.extended = false := by simpa using notExtended
    split
    case h_1 isJr => exact jr16_writes isRr short isJr
    case h_15 =>
      unfold convert16
      dsimp only
      split
      case h_5 => exact .refuse (plain (by omega)) _
      all_goals exact .retire
    case h_20 => exact .refuse (plain (by grind)) _
    all_goals first
      | exact .retire
      | split
        all_goals first
          | exact .retire
          | exact .refuse (plain (by omega)) _

theorem dispatch16_writes (keep : ReadsKeep memory ops) :
    Writes16 memory c (c.written16 f) (c.dispatch16 ops f) := by
  have plain (other : f.op ≠ 3 ∧ f.op ≠ 0x1d) : c.written16 f = c :=
    written16_plain (by omega) (by omega)
  have still (other : f.op ≠ 3 ∧ f.op ≠ 0x1d) : Kept memory (c.written16 f) c := by
    rw [plain other]
    exact .refl c
  unfold dispatch16
  dsimp only
  split
  case h_4 isJal => exact jal16_writes keep isJal
  case h_7 isShift => exact shift16_writes isShift
  case h_12 isI8 => exact i8_writes isI8
  case h_27 isRr => exact rr_writes isRr
  case h_28 => exact .refuse (plain (by grind)) _
  all_goals first
    | exact memory16_writes
    | exact wordAccess16_writes (by omega)
    | split
      all_goals first
        | exact .retire
        | exact .instantIf (still (by omega)) _ _
        | exact .refuse (plain (by omega)) _
        | split <;> first | exact .retire | exact .refuse (plain (by omega)) _

end Sets

/-- What a 32-bit transfer of control would write is there already. -/
def Held32 (w : Word) (c : Core β) : Prop :=
  (op w = 3 ∨ op w = 29 ∨ op w = 1 ∧ 16 ≤ (rt w).toNat ∧ (rt w).toNat ≤ 19 →
    c.gpr 31 = c.pc + 4 + 4) ∧
  (op w = 0 ∧ fn w = 9 → rd w = 0 ∨ c.gpr (rd w) = c.pc + 4 + 4) ∧
  (w = 0x42000018 → c.cop0 12 &&& 6 = 0)

def Held16 (f : Fetched16) (c : Core β) : Prop :=
  (f.op = 3 ∧ f.extended = false → c.gpr 31 = f.pc + 6 ||| 1) ∧
  (f.op = 0x1d ∧ f.extended = false ∧ (f.h &&& 31).toNat = 0 →
    (f.ry = 2 → c.gpr 31 = f.pc + 4 ||| 1) ∧ (f.ry = 6 → c.gpr 31 = f.pc + 2 ||| 1))

/-- The instruction in a delay slot has nothing to write if it is a transfer of control. -/
def SlotHeld (ops : BusOps β) (c : Core β) : Prop :=
  c.delayed.armed = true →
    (c.isa = true → c.pc &&& 1 = 0 → c.Held16 (c.fetch16 ops).1) ∧
    (c.isa = false → c.pc &&& 3 = 0 → c.Held32 (c.load ops c.pc .word).1)

section Held

variable {memory : β → μ} {ops : BusOps β} {c : Core β} {w : Word}

theorem and_not_eq_self (s m : Word) : s = s &&& ~~~m ↔ s &&& m = 0 := by
  constructor
  · intro cleared
    rw [cleared, BitVec.and_assoc, BitVec.and_comm (~~~m), BitVec.and_not_self]
    exact BitVec.and_zero
  · intro clear
    refine BitVec.eq_of_getLsbD_eq fun i inWord => ?_
    have bit := congrArg (BitVec.getLsbD · i) clear
    change (s &&& m).getLsbD i = (0 : Word).getLsbD i at bit
    rw [BitVec.getLsbD_and, show (0 : Word).getLsbD i = false from BitVec.getLsbD_zero] at bit
    rw [BitVec.getLsbD_and, BitVec.getLsbD_not, decide_eq_true inWord, Bool.true_and]
    revert bit
    cases s.getLsbD i <;> cases m.getLsbD i <;> decide

/-- ERET changes the status only where an exception level is set. -/
theorem eret_held (s : Word) :
    s = s &&& ~~~(if s &&& 4 != 0 then 4 else 2) ↔ s &&& 6 = 0 := by
  have levels : s &&& 6 = s &&& 4 ||| s &&& 2 := by
    rw [← BitVec.and_or_distrib_left]
    rfl
  rw [and_not_eq_self, levels]
  by_cases error : s &&& 4 = 0
  · rw [if_neg (by simpa using error), error]
    exact Eq.congr_left BitVec.zero_or.symm
  · rw [if_pos (by simpa using error)]
    exact iff_of_false error fun both => error (BitVec.or_eq_zero_iff.mp both).1

theorem kept_written32 : Kept memory c (c.written32 w) ↔ c.Held32 w := by
  unfold written32 Held32
  by_cases links : op w = 3 ∨ op w = 29 ∨ op w = 1 ∧ 16 ≤ (rt w).toNat ∧ (rt w).toNat ≤ 19
  · have noEret : w ≠ 0x42000018 := not_eret (by omega)
    have noJalr : ¬(op w = 0 ∧ fn w = 9) := by omega
    rw [if_pos links, Kept.set_iff]
    exact ⟨fun held => ⟨fun _ => held.resolve_left (by decide), fun is => absurd is noJalr,
      fun is => absurd is noEret⟩, fun held => .inr (held.1 links)⟩
  · rw [if_neg links]
    by_cases jalr : op w = 0 ∧ fn w = 9
    · have noEret : w ≠ 0x42000018 := not_eret (by omega)
      rw [if_pos jalr, Kept.set_iff]
      exact ⟨fun held => ⟨fun is => absurd is links, fun _ => held, fun is => absurd is noEret⟩,
        fun held => held.2.1 jalr⟩
    · rw [if_neg jalr]
      by_cases eret : w = 0x42000018
      · rw [if_pos eret, Kept.setCop0_iff (by decide), eret_held]
        exact ⟨fun held => ⟨fun is => absurd is links, fun is => absurd is jalr, fun _ => held⟩,
          fun held => held.2.2 eret⟩
      · rw [if_neg eret]
        exact iff_of_true (.refl c) ⟨fun is => absurd is links, fun is => absurd is jalr,
          fun is => absurd is eret⟩

theorem kept_written16 {f : Fetched16} : Kept memory c (c.written16 f) ↔ c.Held16 f := by
  unfold written16 Held16
  by_cases jal : f.op = 3 ∧ f.extended = false
  · have noRr : f.op ≠ 0x1d := by omega
    rw [if_pos jal, Kept.set_iff]
    exact ⟨fun held => ⟨fun _ => held.resolve_left (by decide), fun is => absurd is.1 noRr⟩,
      fun held => .inr (held.1 jal)⟩
  · rw [if_neg jal]
    by_cases rr : f.op = 0x1d ∧ f.extended = false ∧ (f.h &&& 31).toNat = 0
    · rw [if_pos rr]
      by_cases slot : f.ry = 2
      · rw [if_pos slot, Kept.set_iff]
        exact ⟨fun held => ⟨fun is => absurd is jal, fun _ =>
          ⟨fun _ => held.resolve_left (by decide), fun is => by omega⟩⟩,
          fun held => .inr ((held.2 rr).1 slot)⟩
      · rw [if_neg slot]
        by_cases compact : f.ry = 6
        · rw [if_pos compact, Kept.set_iff]
          exact ⟨fun held => ⟨fun is => absurd is jal, fun _ =>
            ⟨fun is => absurd is slot, fun _ => held.resolve_left (by decide)⟩⟩,
            fun held => .inr ((held.2 rr).2 compact)⟩
        · rw [if_neg compact]
          exact iff_of_true (.refl c) ⟨fun is => absurd is jal, fun _ =>
            ⟨fun is => absurd is slot, fun is => absurd is compact⟩⟩
    · rw [if_neg rr]
      exact iff_of_true (.refl c) ⟨fun is => absurd is jal, fun is => absurd is rr⟩

/-- What the instruction at the current address has written when it turns out to be a
transfer of control. -/
def written (ops : BusOps β) (c : Core β) : Core β :=
  if c.isa then
    if c.pc &&& 1 = 0 then c.written16 (c.fetch16 ops).1 else c
  else
    if c.pc &&& 3 = 0 then c.written32 (c.load ops c.pc .word).1 else c

theorem kept_written : Kept memory c (c.written ops) ↔
    (c.isa = true → c.pc &&& 1 = 0 → c.Held16 (c.fetch16 ops).1) ∧
      (c.isa = false → c.pc &&& 3 = 0 → c.Held32 (c.load ops c.pc .word).1) := by
  unfold written
  cases isa : c.isa
  · rw [if_neg (by decide)]
    by_cases aligned : c.pc &&& 3 = 0
    · rw [if_pos aligned, kept_written32]
      exact ⟨fun held => ⟨(absurd · (by decide)), fun _ _ => held⟩, fun held => held.2 rfl aligned⟩
    · rw [if_neg aligned]
      exact iff_of_true (.refl c) ⟨(absurd · (by decide)), fun _ is => absurd is aligned⟩
  · rw [if_pos rfl]
    by_cases aligned : c.pc &&& 1 = 0
    · rw [if_pos aligned, kept_written16]
      exact ⟨fun held => ⟨fun _ _ => held, (absurd · (by decide))⟩, fun held => held.1 rfl aligned⟩
    · rw [if_neg aligned]
      exact iff_of_true (.refl c) ⟨fun _ is => absurd is aligned, (absurd · (by decide))⟩

theorem Kept.congr_written32 {c' : Core β} (kept : Kept memory c c') :
    Kept memory (c.written32 w) (c'.written32 w) := by
  have status : c'.cop0 12 = c.cop0 12 := kept.cop0 12 (by decide)
  unfold written32
  rw [kept.pc, status]
  split
  · exact kept.congr_set _ _
  · split
    · exact kept.congr_set _ _
    · split
      · refine ⟨kept.pc, kept.isa, kept.gpr, kept.hi, kept.lo, fun n other => ?_, kept.delayed,
          kept.reserved, kept.hasReservation, kept.memory⟩
        change Function.update c'.cop0 12 _ n = Function.update c.cop0 12 _ n
        by_cases same : n = 12
        · rw [same, Function.update_self, Function.update_self]
        · rw [Function.update_of_ne same, Function.update_of_ne same, kept.cop0 n other]
      · exact kept

theorem Kept.congr_written16 {c' : Core β} (kept : Kept memory c c') (f : Fetched16) :
    Kept memory (c.written16 f) (c'.written16 f) := by
  unfold written16
  split
  · exact kept.congr_set _ _
  · split
    · split
      · exact kept.congr_set _ _
      · split
        · exact kept.congr_set _ _
        · exact kept
    · exact kept

theorem fetch16_kept (keep : ReadsKeep memory ops) : Kept memory c (c.fetch16 ops).2 := by
  unfold fetch16
  dsimp only
  split
  · exact (Kept.load keep _ _).trans (Kept.load keep _ _)
  · exact Kept.load keep _ _

theorem execute_writes (keep : ReadsKeep memory ops) :
    Writes16 memory c (c.written ops) (c.execute ops) := by
  unfold execute written
  split
  · by_cases aligned : c.pc &&& 1 = 0
    · rw [if_pos aligned, if_neg (by simpa using aligned)]
      have fetched := @fetch16_kept _ _ _ _ c keep
      have writes := @dispatch16_writes _ _ _ _ (c.fetch16 ops).2 (c.fetch16 ops).1 keep
      have start := fetched.congr_written16 (c.fetch16 ops).1
      rw [show c.execute16 ops = (c.fetch16 ops).2.dispatch16 ops (c.fetch16 ops).1 from rfl]
      split
      next executed error result =>
        rw [result] at writes
        have failed := writes.failed error rfl
        exact ⟨fun _ _ => ⟨fetched.trans failed.1, start.trans failed.2⟩,
          fun effect isEffect => by cases isEffect⟩
      next executed effect result =>
        rw [result] at writes
        exact ⟨fun error isError => absurd isError (fun eq => by cases eq),
          fun ended isEffect moves => start.trans (writes.moved ended isEffect moves)⟩
    · rw [if_neg aligned, if_pos (by simpa using aligned)]
      exact ⟨fun _ _ => ⟨.refl c, .refl c⟩, fun effect isEffect => by cases isEffect⟩
  · by_cases aligned : c.pc &&& 3 = 0
    · rw [if_pos aligned, if_neg (by simpa using aligned)]
      have fetched := @Kept.load _ _ _ c ops keep c.pc .word
      have writes := @execute32_writes _ _ memory ops (c.load ops c.pc .word).2
        (c.load ops c.pc .word).1
      have start := @Kept.congr_written32 _ _ _ _ (c.load ops c.pc .word).1 _ fetched
      dsimp only
      split
      next executed error result =>
        rw [result] at writes
        have failed := writes.failed error rfl
        exact ⟨fun _ _ => ⟨fetched.trans failed.1, start.trans failed.2⟩,
          fun effect isEffect => by cases isEffect⟩
      next executed effect result =>
        rw [result] at writes
        refine ⟨fun error isError => absurd isError (fun eq => by cases eq),
          fun ended isEffect moves => ?_⟩
        rw [Except.ok.injEq] at isEffect
        subst isEffect
        exact start.trans (writes.moved effect rfl moves)
    · rw [if_neg aligned, if_pos (by simpa using aligned)]
      exact ⟨fun _ _ => ⟨.refl c, .refl c⟩, fun effect isEffect => by cases isEffect⟩

/-- The flow of control fails only on a transfer in a delay slot. -/
theorem follow_error {effect : Branch} {length : Word} {c' : Core β} {error : String}
    (failed : c.follow effect length = (c', .error error)) :
    c' = c ∧ c.delayed.armed = true ∧ Moves effect := by
  unfold follow at failed
  split at failed
  next armed =>
    split at failed
    next moves =>
      cases failed
      exact ⟨rfl, armed, by simpa [Moves] using moves⟩
    · cases failed
  · split at failed
    · cases failed
    · split at failed <;> cases failed

theorem beginStep_bus : c.beginStep.bus = c.bus := by
  unfold beginStep tickCount
  dsimp only
  split
  · split <;> rfl
  · rfl

theorem fetch16_congr {c' : Core β} (pc : c'.pc = c.pc) (delayed : c'.delayed = c.delayed)
    (bus : c'.bus = c.bus) : (c'.fetch16 ops).1 = (c.fetch16 ops).1 := by
  unfold fetch16 load raise
  dsimp only
  rw [pc, delayed, bus]
  split <;> rfl

/-- The tick before a 16-bit delay slot has no part in what the slot finds. -/
theorem slotHeld_beginStep (armed : c.delayed.armed = true) :
    Kept memory c.beginStep (c.beginStep.written ops) ↔ c.SlotHeld ops := by
  have begun := @Kept.beginStep _ _ memory c
  have fetched : (c.beginStep.fetch16 ops).1 = (c.fetch16 ops).1 :=
    fetch16_congr begun.pc begun.delayed beginStep_bus
  have held16 (f : Fetched16) : c.beginStep.Held16 f ↔ c.Held16 f := by
    unfold Held16
    rw [begun.gpr]
  have held32 (isa : c.isa = false) : c.beginStep = c := by
    unfold beginStep
    rw [armed, isa]
    rfl
  rw [kept_written, begun.isa, begun.pc, fetched, held16]
  constructor
  · rintro ⟨mips16, mips32⟩ _
    refine ⟨mips16, fun isa aligned => ?_⟩
    have held := mips32 isa aligned
    rw [held32 isa] at held
    exact held
  · intro held
    refine ⟨(held armed).1, fun isa aligned => ?_⟩
    rw [held32 isa]
    exact (held armed).2 isa aligned

theorem written_delayed : (c.written ops).delayed = c.delayed := by
  unfold written written16 written32 Core.set setCop0
  split_ifs <;> rfl

theorem acceptInterrupt_quiet (beforeVector : Option (Pump β))
    (uninterrupted : c.delayed.armed = true ∨ c.serviceInterrupt.1 = false) :
    c.acceptInterrupt beforeVector = (c, .ok ()) := by
  unfold acceptInterrupt
  split
  · rfl
  next notArmed =>
    have quiet := uninterrupted.resolve_left notArmed
    unfold serviceInterrupt at quiet ⊢
    split at quiet
    · cases quiet
    next notReady => rw [if_neg notReady]

/-- **Failing steps.**  A step that takes no interrupt and fails leaves everything but Count
as it was, exactly when the instruction is no transfer of control in a delay slot or has
nothing left to write there. -/
theorem failed_step_kept {c' : Core β} {error : String} (keep : ReadsKeep memory ops)
    (uninterrupted : c.delayed.armed = true ∨ c.beginStep.serviceInterrupt.1 = false)
    (failed : c.step ops = (c', .error error)) :
    Kept memory c c' ↔ c.SlotHeld ops := by
  have begun := @Kept.beginStep _ _ memory c
  have quiet : c.beginStep.acceptInterrupt none = (c.beginStep, .ok ()) := by
    apply acceptInterrupt_quiet
    rwa [begun.delayed]
  have writes := @execute_writes _ _ memory ops c.beginStep keep
  unfold step stepWithInterruptBoundary at failed
  rw [quiet] at failed
  dsimp only at failed
  -- What the failed step leaves is what the instruction had written.
  have left : Kept memory (c.beginStep.written ops) c' ∧
      (c.delayed.armed = false → Kept memory c.beginStep c') := by
    split at failed
    next executed message result =>
      cases failed
      rw [result] at writes
      have refused := writes.failed error rfl
      exact ⟨refused.2, fun _ => refused.1⟩
    next executed effect length result =>
      obtain ⟨rfl, armed, moves⟩ := follow_error failed
      rw [result] at writes
      have moved := writes.moved (effect, length) rfl moves
      refine ⟨moved, fun notArmed => ?_⟩
      rw [moved.delayed, written_delayed, begun.delayed, notArmed] at armed
      cases armed
  cases armed : c.delayed.armed
  · exact iff_of_true (begun.trans (left.2 armed)) fun isArmed => by
      rw [armed] at isArmed
      cases isArmed
  · rw [← @slotHeld_beginStep _ _ memory ops c armed]
    exact ⟨fun kept => (begun.symm.trans kept).trans left.1.symm,
      fun kept => (begun.trans kept).trans left.1⟩

end Held

open Memory

/-- The bytes of DRAM are memory to the core: no read of DRAM changes them. -/
theorem readsKeep_dramBus {δ : Type} {other : BusOps (Ram × δ)}
    (keep : ReadsKeep (fun board => board.1.bytes) other) :
    ReadsKeep (fun board => board.1.bytes) (dramBus other) := by
  intro address size board
  unfold dramBus
  dsimp only
  split
  next off _ =>
    split
    · change (board.1.read off size).2.bytes = board.1.bytes
      unfold Ram.read
      split <;> rfl
    · exact keep address size board
  · exact keep address size board

/-- A branch's delay slot holds JAL. -/
def slotted : Core (Ram × Unit) :=
  { new ({ bytes := Function.update (fun _ => 0) 0 0x0c }, ()) dramBase with
    delayed := taken dramBase false }

/-- The branch in the slot is refused with its return address already written. -/
theorem failed_step_links :
    ∃ error, (slotted.step dramOnly).2 = .error error ∧ slotted.gpr 31 = 0 ∧
      (slotted.step dramOnly).1.gpr 31 = 0x80000008 :=
  ⟨_, rfl, rfl, rfl⟩

theorem failed_step_kept_unaligned :
    Kept (fun board => board.1.bytes) (new (({} : Ram), ()) 0x80000002)
      ((new (({} : Ram), ()) 0x80000002).step dramOnly).1 := by
  have keep : ReadsKeep (fun board => board.1.bytes) dramOnly :=
    readsKeep_dramBus fun _ _ _ => rfl
  rw [failed_step_kept keep (.inr rfl) rfl]
  exact fun armed => absurd armed (by decide)

end Core

end Cpu

end GoRetroTv
