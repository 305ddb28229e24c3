import GoRetroTv.DemuxRegisters
import GoRetroTv.DramAccess
import GoRetroTv.GuardedRuns
import GoRetroTv.SectionBuilder

/-!
# The section rings

`internal/device/demux/push.go`: a section goes into the ring of its filter, at the write
pointer if it fits there and else at the start.  The guest may have written anything into
the pointer.
-/

namespace GoRetroTv

namespace Demux

open Cpu Memory

/-- The demultiplexer with its interrupt line and the DRAM that holds its rings. -/
structure Receiver where
  registers : Registers := {}
  ram : Ram := {}
  wire : Irq.Wire := {}

/-- `ringOffset`: where a filter's ring starts in DRAM. -/
def ringOffset (filter : Filter) : Word :=
  0x7a0000 + BitVec.ofNat 32 (filter.toNat * ringSize)

/-- The base of a filter's ring, as its write pointer counts. -/
def ringBase (filter : Filter) : Word :=
  BitVec.ofNat 32 (filter.toNat * ringSize)

/-- Where `pushFilter` puts a section of `n` bytes: zero is the pointer of a ring that has not
been used. -/
def place (filter : Filter) (pointer : Word) (n : Nat) : Word :=
  let base := ringBase filter
  let pointer := if pointer = 0 then base else pointer
  let within := pointer - base
  if ringSize ≤ within.toNat ∨ ringSize < (within + BitVec.ofNat 32 n + 1).toNat then base
  else pointer

namespace Receiver

/-- `complete`: the filter's completion bit. -/
def complete (filter : Filter) (s : Receiver) : Receiver :=
  let (registers, wire) := Registers.updateLine s.wire { s.registers with
    status := Function.update s.registers.status 2
      (s.registers.status 2 ||| 1 <<< filter.toNat) }
  { s with registers, wire }

def pushFilter (filter : Filter) (section_ : List Byte) (s : Receiver) : Receiver :=
  let n := BitVec.ofNat 32 section_.length
  let pointer := place filter (s.registers.writePointer filter) section_.length
  let start := ringOffset filter + (pointer - ringBase filter)
  let ram := (s.ram.writeBytes section_ start).write (start + n) .byte 0
  complete filter { s with
    ram
    registers := { s.registers with
      writePointer := Function.update s.registers.writePointer filter (pointer + n + 1) } }

end Receiver

variable {filter : Filter} {pointer : Word} {section_ : List Byte} {s : Receiver}

/-- The address of a place in a filter's ring. -/
def ringAddress (filter : Filter) (start : Nat) : Word :=
  BitVec.ofNat 32 (0x7a0000 + filter.toNat * ringSize + start)

theorem ringAddress_toNat {start : Nat} (inRing : start ≤ ringSize) :
    (ringAddress filter start).toNat = 0x7a0000 + filter.toNat * ringSize + start := by
  unfold ringAddress ringSize at *
  have := filter.isLt
  rw [BitVec.toNat_ofNat, Nat.mod_eq_of_lt (by omega)]

/-- The section and its zero byte fit the ring from the place on. -/
theorem place_fits {n : Nat} (fits : n + 1 ≤ ringSize) :
    ∃ start, start + n + 1 ≤ ringSize ∧
      place filter pointer n = ringBase filter + BitVec.ofNat 32 start := by
  unfold place
  dsimp only
  generalize (if pointer = 0 then ringBase filter else pointer) = current
  split
  · exact ⟨0, by omega, (BitVec.add_zero _).symm⟩
  next outside =>
    refine ⟨(current - ringBase filter).toNat, ?_, ?_⟩
    · rw [BitVec.toNat_add, BitVec.toNat_add, BitVec.toNat_ofNat] at outside
      unfold ringSize at *
      change ¬(_ ∨ _ < (_ + 1) % _) at outside
      omega
    · rw [BitVec.ofNat_toNat, BitVec.setWidth_eq, BitVec.add_comm, BitVec.sub_add_cancel]

/-- A section delivered to a filter: it stands inside the filter's ring with a zero byte
behind it, the write pointer is behind that, and nothing else has changed. -/
structure Delivered (filter : Filter) (section_ : List Byte) (s t : Receiver) : Prop where
  span : ∃ start, start + section_.length + 1 ≤ ringSize ∧
    (∀ a, t.ram.byteAt a =
      if (a - ringAddress filter start).toNat < section_.length then
        section_.getD (a - ringAddress filter start).toNat 0
      else if (a - ringAddress filter start).toNat = section_.length then 0
      else s.ram.byteAt a) ∧
    t.registers.writePointer filter =
      ringBase filter + BitVec.ofNat 32 (start + section_.length + 1)
  rings : ∀ other ≠ filter, ∀ i < ringSize,
    t.ram.byteAt (ringAddress other i) = s.ram.byteAt (ringAddress other i)
  pointers : ∀ other ≠ filter, t.registers.writePointer other = s.registers.writePointer other

namespace Receiver

theorem complete_ram : (s.complete filter).ram = s.ram :=
  rfl

theorem complete_writePointer :
    (s.complete filter).registers.writePointer = s.registers.writePointer :=
  rfl

/-- The bytes a section changes, wherever it is put in the ring. -/
theorem byteAt_section {ram : Ram} {start : Nat} (inRing : start + section_.length + 1 ≤ ringSize)
    (a : Word) :
    ((ram.writeBytes section_ (ringAddress filter start)).write
        (ringAddress filter start + BitVec.ofNat 32 section_.length) .byte 0).byteAt a =
      if (a - ringAddress filter start).toNat < section_.length then
        section_.getD (a - ringAddress filter start).toNat 0
      else if (a - ringAddress filter start).toNat = section_.length then 0
      else ram.byteAt a := by
  have start_ := @ringAddress_toNat filter start (by omega)
  have inDram : 0x7a0000 + filter.toNat * ringSize + ringSize ≤ dramSize := by
    have := filter.isLt
    rw [dramSize_eq]
    unfold ringSize
    omega
  have end_ : (ringAddress filter start + BitVec.ofNat 32 section_.length).toNat =
      (ringAddress filter start).toNat + section_.length := by
    rw [dramSize_eq] at inDram
    rw [BitVec.toNat_add, BitVec.toNat_ofNat, start_]
    omega
  have zero := @Ram.byteAt_writeByte (ram.writeBytes section_ (ringAddress filter start))
    (ringAddress filter start + BitVec.ofNat 32 section_.length) a 0 (by change _ + 1 ≤ _; omega)
  rw [zero, Ram.byteAt_writeBytes (by omega)]
  have small : section_.length < 2 ^ 32 := by
    unfold ringSize at inRing
    omega
  by_cases last : a = ringAddress filter start + BitVec.ofNat 32 section_.length
  · rw [if_pos last, if_neg, if_pos]
    · rfl
    · exact (Ram.eq_add_iff small).mp last
    · have := (Ram.eq_add_iff small).mp last
      omega
  · rw [if_neg last]
    have other : (a - ringAddress filter start).toNat ≠ section_.length :=
      fun distance => last ((Ram.eq_add_iff small).mpr distance)
    rw [if_neg other]

theorem pushFilter_delivered (fits : section_.length + 1 ≤ ringSize) :
    Delivered filter section_ s (s.pushFilter filter section_) := by
  obtain ⟨start, inRing, placed⟩ :=
    @place_fits filter (s.registers.writePointer filter) section_.length fits
  have address : ringOffset filter + (ringBase filter + BitVec.ofNat 32 start - ringBase filter) =
      ringAddress filter start := by
    rw [BitVec.add_comm (ringBase filter), BitVec.add_sub_cancel]
    unfold ringOffset ringAddress
    rw [BitVec.ofNat_add, BitVec.ofNat_add]
    rfl
  have bytes (a : Word) := @byteAt_section filter section_ s.ram start inRing a
  constructor
  · refine ⟨start, inRing, fun a => ?_, ?_⟩
    · unfold pushFilter
      dsimp only
      rw [complete_ram, placed, address]
      exact bytes a
    · unfold pushFilter
      dsimp only
      rw [complete_writePointer, placed]
      change Function.update _ filter _ filter = _
      rw [Function.update_self, BitVec.ofNat_add, BitVec.ofNat_add, BitVec.add_assoc,
        BitVec.add_assoc, BitVec.add_assoc]
      rfl
  · intro other apart i inside
    have here := @ringAddress_toNat filter start (by omega)
    have there := @ringAddress_toNat other i (by omega)
    have rings : other.toNat ≠ filter.toNat := fun same => apart (BitVec.eq_of_toNat_eq same)
    have far : section_.length < (ringAddress other i - ringAddress filter start).toNat := by
      rw [BitVec.toNat_sub, here, there]
      have := other.isLt
      have := filter.isLt
      unfold ringSize at *
      omega
    unfold pushFilter
    dsimp only
    rw [complete_ram, placed, address, bytes, if_neg (by omega), if_neg (by omega)]
  · intro other apart
    unfold pushFilter
    dsimp only
    rw [complete_writePointer]
    exact Function.update_of_ne apart _ _

/-- What happens to the receiver: a section is delivered to a filter, or the guest writes a
register. -/
inductive RingAction where
  | deliver (filter : Filter) (section_ : List Byte)
  | guest (off : Word) (size : Size) (value : Word)

/-- The sections delivered have passed `validateSection`. -/
def RingAction.Valid : RingAction → Prop
  | .deliver _ section_ => validateSection section_ = .ok ()
  | .guest _ _ _ => True

def perform (s : Receiver) : RingAction → Receiver
  | .deliver filter section_ => s.pushFilter filter section_
  | .guest off size value =>
      let (registers, wire) := s.registers.write off size value s.wire
      { s with registers, wire }

/-- A delivery is contained in its ring, and a register write does not touch DRAM. -/
def Contained (s : Receiver) : RingAction → Prop
  | .deliver filter section_ => Delivered filter section_ s (s.pushFilter filter section_)
  | .guest off size value => (s.perform (.guest off size value)).ram = s.ram

theorem fits_of_valid (valid : validateSection section_ = .ok ()) :
    section_.length + 1 ≤ ringSize := by
  unfold validateSection at valid
  split at valid
  · cases valid
  next sized => omega

theorem contained {action : RingAction} (valid : action.Valid) : s.Contained action := by
  cases action with
  | deliver filter section_ => exact pushFilter_delivered (fits_of_valid valid)
  | guest off size value => rfl

/-- **Section delivery.**  In every run of deliveries and register writes, each delivery is
contained in its own ring. -/
theorem ring_run {actions : List RingAction} (valid : ∀ action ∈ actions, action.Valid) :
    Runs.Along perform Contained s actions := by
  induction actions generalizing s with
  | nil => trivial
  | cons action actions ih =>
    have first := valid action List.mem_cons_self
    exact ⟨contained first, ih fun later member => valid later (List.mem_cons_of_mem _ member)⟩

/-- No run writes DRAM outside the thirty-two rings. -/
theorem ring_run_outside {actions : List RingAction} (valid : ∀ action ∈ actions, action.Valid)
    {a : Word} (outside : ∀ filter, ∀ i < ringSize, a ≠ ringAddress filter i) :
    (actions.foldl perform s).ram.byteAt a = s.ram.byteAt a := by
  induction actions generalizing s with
  | nil => rfl
  | cons action actions ih =>
    rw [List.foldl_cons, ih fun later member => valid later (List.mem_cons_of_mem _ member)]
    cases action with
    | guest off size value => rfl
    | deliver filter section_ =>
      have delivered : Delivered filter section_ s (s.pushFilter filter section_) :=
        contained (valid _ List.mem_cons_self)
      obtain ⟨start, inRing, bytes, _⟩ := delivered.span
      have far : section_.length < (a - ringAddress filter start).toNat := by
        by_contra near
        refine outside filter (start + (a - ringAddress filter start).toNat) (by omega) ?_
        unfold ringAddress
        rw [← Nat.add_assoc, BitVec.ofNat_add, BitVec.ofNat_toNat, BitVec.setWidth_eq,
          BitVec.add_comm]
        exact (BitVec.sub_add_cancel _ _).symm
      change (s.pushFilter filter section_).ram.byteAt a = _
      rw [bytes a, if_neg (by omega), if_neg (by omega)]

/-- A pointer the guest has set past its ring, and the smallest section. -/
theorem ring_run_wild :
    Runs.Along perform Contained {} [
      .guest 0x128 .word 0x12345,
      .guest 0x124 .word 0xc004,
      .deliver 1 [0x70, 0x00, 0x00]] :=
  ring_run fun action member => by
    simp only [List.mem_cons, List.not_mem_nil, or_false] at member
    rcases member with rfl | rfl | rfl
    · trivial
    · trivial
    · rfl

end Receiver

end Demux

end GoRetroTv
