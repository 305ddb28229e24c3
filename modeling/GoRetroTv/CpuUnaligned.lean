import GoRetroTv.CpuMips32
import GoRetroTv.DramAccess

/-!
# Unaligned words in DRAM

LWL with LWR, and SWL with SWR, at the two ends of a word in DRAM.  Each half is an
access to the aligned word its end lies in, merged under a mask of whole bytes; the two
together move the four bytes from the one address, in either order.
-/

namespace GoRetroTv

namespace Cpu

open Memory

/-- The board's bus: DRAM answers at the bottom of the physical addresses, and `other` is
everything else that is mapped. -/
def dramBus {δ : Type} (other : BusOps (Ram × δ)) : BusOps (Ram × δ) where
  read address size board :=
    match physical address with
    | some off =>
        if off.toNat < dramSize then
          let (value, ram) := board.1.read off size
          { value, bus := (ram, board.2) }
        else other.read address size board
    | none => other.read address size board
  write address size value board :=
    match physical address with
    | some off =>
        if off.toNat < dramSize then ((board.1.write off size value, board.2), 0)
        else other.write address size value board
    | none => other.write address size value board

/-- DRAM alone on its bus: everything else reads as zero. -/
def dramOnly : BusOps (Ram × Unit) :=
  dramBus ⟨fun _ _ board => ⟨0, board, 0⟩, fun _ _ _ board => (board, 0)⟩

/-- A word at an address in DRAM, of any alignment. -/
structure InDram (ea off : Word) : Prop where
  phys : physical ea = some off
  inside : Ram.Inside off .word

theorem and_three (v : Word) : (v &&& 3).toNat = v.toNat % 4 := by
  rw [BitVec.toNat_and]
  exact Nat.and_two_pow_sub_one_eq_mod v.toNat 2

theorem and_not_three (v : Word) : (v &&& ~~~(3 : Word)).toNat = v.toNat / 4 * 4 := by
  have bits : ∀ i < 32, (~~~(3 : Word)).getLsbD i = decide (2 ≤ i) := by decide
  have shifted : v &&& ~~~(3 : Word) = v >>> 2 <<< 2 := by
    refine BitVec.eq_of_getLsbD_eq fun i inWord => ?_
    rw [BitVec.getLsbD_and, bits i inWord, BitVec.getLsbD_shiftLeft, BitVec.getLsbD_ushiftRight]
    by_cases low : i < 2
    · simp [low, show ¬2 ≤ i by omega]
    · simp [low, inWord, show 2 ≤ i by omega, show 2 + (i - 2) = i by omega]
  rw [shifted, BitVec.toNat_shiftLeft, BitVec.toNat_ushiftRight, Nat.shiftLeft_eq,
    Nat.shiftRight_eq_div_pow]
  have := v.isLt
  omega

namespace InDram

variable {ea off : Word} {i : Nat}

theorem bounds (inDram : InDram ea off) :
    0x80000000 ≤ ea.toNat ∧ ea.toNat < 0xC0000000 ∧ off.toNat = ea.toNat % 0x20000000 ∧
      off.toNat + 4 ≤ 33554432 := by
  obtain ⟨⟨low, high⟩, offset⟩ := physical_eq_some.mp inDram.phys
  have inside := inDram.inside
  rw [Ram.Inside, dramSize_eq] at inside
  exact ⟨low, high, offset, inside⟩

theorem toNat_end (inDram : InDram ea off) (inWord : i < 4) :
    (ea + BitVec.ofNat 32 i).toNat = ea.toNat + i := by
  obtain ⟨_, high, _, _⟩ := inDram.bounds
  rw [BitVec.toNat_add, BitVec.toNat_ofNat]
  omega

theorem offset_end (inDram : InDram ea off) (inWord : i < 4) :
    (off + BitVec.ofNat 32 i).toNat = off.toNat + i := by
  obtain ⟨_, _, _, inside⟩ := inDram.bounds
  rw [BitVec.toNat_add, BitVec.toNat_ofNat]
  omega

/-- The aligned word that holds a byte of it lies in DRAM. -/
theorem aligned (inDram : InDram ea off) (inWord : i < 4) :
    InDram ((ea + BitVec.ofNat 32 i) &&& ~~~(3 : Word))
      ((off + BitVec.ofNat 32 i) &&& ~~~(3 : Word)) := by
  obtain ⟨low, high, offset, inside⟩ := inDram.bounds
  have address := and_not_three (ea + BitVec.ofNat 32 i)
  have place := and_not_three (off + BitVec.ofNat 32 i)
  rw [inDram.toNat_end inWord] at address
  rw [inDram.offset_end inWord] at place
  constructor
  · rw [physical_eq_some, address, place]
    omega
  · rw [Ram.Inside, dramSize_eq, place]
    change _ + 4 ≤ 33554432
    omega

theorem lane (inDram : InDram ea off) (inWord : i < 4) :
    ((ea + BitVec.ofNat 32 i) &&& 3).toNat = (off.toNat + i) % 4 := by
  obtain ⟨_, _, offset, _⟩ := inDram.bounds
  rw [and_three, inDram.toNat_end inWord]
  omega

end InDram

namespace Core

variable {δ : Type} {other : BusOps (Ram × δ)} {c : Core (Ram × δ)} {ea off : Word}

theorem load_dram (inDram : InDram ea off) :
    c.load (dramBus other) ea .word = (c.bus.1.peek off .word, c) := by
  have below : off.toNat < dramSize := by
    have := inDram.inside
    rw [Ram.Inside] at this
    have := Ram.size_pos .word
    omega
  unfold load dramBus
  dsimp only
  rw [inDram.phys]
  dsimp only
  rw [if_pos below, Ram.read_inside inDram.inside]
  exact congrArg (Prod.mk _) (raise_zero c)

theorem store_dram (inDram : InDram ea off) (value : Word) :
    c.store (dramBus other) ea .word value =
      { c with bus := (c.bus.1.write off .word value, c.bus.2) } := by
  have below : off.toNat < dramSize := by
    have := inDram.inside
    rw [Ram.Inside] at this
    have := Ram.size_pos .word
    omega
  unfold store dramBus
  dsimp only
  rw [inDram.phys]
  dsimp only
  rw [if_pos below]
  exact raise_zero _

end Core

/-- The lowest `n` bytes. -/
theorem getLsbD_lowBytes : ∀ n < 4, ∀ i < 32,
    (if n ≠ 0 then (1 : Word) <<< (8 * n) - 1 else 0).getLsbD i = decide (i < 8 * n) := by
  decide

/-- The lowest `n + 1` bytes. -/
theorem getLsbD_throughByte : ∀ n < 4, ∀ i < 32,
    (if n ≠ 3 then (1 : Word) <<< (8 * (n + 1)) - 1 else 0xffffffff).getLsbD i =
      decide (i < 8 * (n + 1)) := by
  decide

/-- The highest `n` bytes. -/
theorem getLsbD_highBytes : ∀ n < 4, ∀ i < 32,
    (if n ≠ 0 then (0xffffffff : Word) <<< (8 * (4 - n)) else 0).getLsbD i =
      decide (8 * (4 - n) ≤ i) := by
  decide

/-- The bytes below byte `n`. -/
theorem getLsbD_afterByte : ∀ n < 4, ∀ i < 32,
    (if n ≠ 3 then (1 : Word) <<< (8 * (3 - n)) - 1 else 0).getLsbD i =
      decide (i < 8 * (3 - n)) := by
  decide

section Halves

variable {δ : Type} {other : BusOps (Ram × δ)} {c : Core (Ram × δ)} {ea off : Word}
  {rt : Register} {r : Ram} {i : Nat}

theorem add_byteZero (v : Word) : v + BitVec.ofNat 32 0 = v :=
  BitVec.add_zero v

/-- Byte `j` of the aligned word under byte `i`. -/
theorem InDram.byte_place (inDram : InDram ea off) (inWord : i < 4) {j k : Nat} (_ : j < 4)
    (same : (off.toNat + i) / 4 * 4 + j = off.toNat + k) :
    ((off + BitVec.ofNat 32 i) &&& ~~~(3 : Word)) + BitVec.ofNat 32 j =
      off + BitVec.ofNat 32 k := by
  obtain ⟨_, _, _, inside⟩ := inDram.bounds
  have place := and_not_three (off + BitVec.ofNat 32 i)
  rw [inDram.offset_end inWord] at place
  apply BitVec.eq_of_toNat_eq
  rw [BitVec.toNat_add, BitVec.toNat_add, place, BitVec.toNat_ofNat, BitVec.toNat_ofNat]
  omega

/-- Bit `b` of the unaligned word is bit `s` of the aligned word under byte `i`. -/
theorem InDram.bit_place (inDram : InDram ea off) (inWord : i < 4) {b s : Nat} (bit : b < 32)
    (shifted : s < 32) (same : s % 8 = b % 8)
    (place : (off.toNat + i) / 4 * 4 + (3 - s / 8) = off.toNat + (3 - b / 8)) :
    (r.peek ((off + BitVec.ofNat 32 i) &&& ~~~(3 : Word)) .word).getLsbD s =
      (r.peek off .word).getLsbD b := by
  rw [Ram.getLsbD_peek (show s < 8 * Size.word.bytes from shifted),
    Ram.getLsbD_peek (show b < 8 * Size.word.bytes from bit), same]
  exact congrArg (fun a => (r.byteAt a).getLsbD (b % 8))
    (inDram.byte_place inWord (show 3 - s / 8 < 4 by omega) place)

/-- LWL at the word's first byte loads the bytes up to the end of the aligned word, and keeps
the rest of the register. -/
theorem Core.loadLeft (inDram : InDram ea off) :
    ∃ value, c.unaligned (dramBus other) 34 rt ea = c.set rt value ∧
      ∀ b < 32, value.getLsbD b =
        if b < 8 * (off.toNat % 4) then (c.gpr rt).getLsbD b
        else (c.bus.1.peek off .word).getLsbD b := by
  have lane := inDram.lane (show 0 < 4 by decide)
  have aligned := inDram.aligned (show 0 < 4 by decide)
  have place := @InDram.bit_place ea off c.bus.1 0 inDram (by decide)
  rw [add_byteZero] at lane place
  rw [add_byteZero, add_byteZero] at aligned
  unfold unaligned
  simp only []
  rw [load_dram aligned, lane]
  refine ⟨_, rfl, fun b bit => ?_⟩
  have keep := getLsbD_lowBytes (off.toNat % 4) (by omega) b bit
  rw [BitVec.getLsbD_or, BitVec.getLsbD_and, BitVec.getLsbD_shiftLeft, Nat.add_zero, keep]
  by_cases kept : b < 8 * (off.toNat % 4)
  · simp [kept]
  · rw [← @place b (b - 8 * (off.toNat % 4)) bit (by omega) (by omega) (by omega)]
    simp [kept, bit]

/-- LWR at the word's last byte loads the bytes from the start of the aligned word, and keeps
the rest of the register. -/
theorem Core.loadRight (inDram : InDram ea off) :
    ∃ value, c.unaligned (dramBus other) 38 rt (ea + 3) = c.set rt value ∧
      ∀ b < 32, value.getLsbD b =
        if b < 8 * ((off.toNat + 3) % 4 + 1) then (c.bus.1.peek off .word).getLsbD b
        else (c.gpr rt).getLsbD b := by
  have lane : ((ea + 3) &&& 3).toNat = (off.toNat + 3) % 4 := inDram.lane (by decide)
  have aligned : InDram ((ea + 3) &&& ~~~(3 : Word)) _ := inDram.aligned (show 3 < 4 by decide)
  have place := @InDram.bit_place ea off c.bus.1 3 inDram (by decide)
  unfold unaligned
  simp only []
  rw [load_dram aligned, lane]
  refine ⟨_, rfl, fun b bit => ?_⟩
  have mask := getLsbD_throughByte ((off.toNat + 3) % 4) (by omega) b bit
  rw [BitVec.getLsbD_or, BitVec.getLsbD_and, BitVec.getLsbD_and, BitVec.getLsbD_not,
    BitVec.getLsbD_ushiftRight, mask]
  by_cases loaded : b < 8 * ((off.toNat + 3) % 4 + 1)
  · rw [← @place b (8 * (3 - (off.toNat + 3) % 4) + b) bit (by omega) (by omega) (by omega)]
    simp [loaded]
  · simp [loaded, bit]

theorem byteOf_mergeLeft (word old : Word) {n j : Nat} (lane : n < 4) (inWord : j < 4) :
    Ram.byteOf .word ((word &&& if n ≠ 0 then (0xffffffff : Word) <<< (8 * (4 - n)) else 0) |||
        old >>> (8 * n)) j =
      if j < n then Ram.byteOf .word word j else Ram.byteOf .word old (j - n) := by
  refine BitVec.eq_of_getLsbD_eq fun k inByte => ?_
  have keep := getLsbD_highBytes n lane ((4 - 1 - j) * 8 + k) (by omega)
  rw [Ram.getLsbD_byteOf inByte, BitVec.getLsbD_or, BitVec.getLsbD_and,
    BitVec.getLsbD_ushiftRight, show Size.word.bytes = 4 from rfl, keep]
  by_cases kept : j < n
  · have above : old.getLsbD (8 * n + ((4 - 1 - j) * 8 + k)) = false :=
      BitVec.getLsbD_of_ge _ _ (by omega)
    rw [if_pos kept, Ram.getLsbD_byteOf inByte, above]
    simp [show Size.word.bytes = 4 from rfl, show 8 * (4 - n) ≤ (3 - j) * 8 + k by omega]
  · rw [if_neg kept, Ram.getLsbD_byteOf inByte,
      show (Size.word.bytes - 1 - (j - n)) * 8 + k = 8 * n + ((4 - 1 - j) * 8 + k) by
        change (4 - 1 - (j - n)) * 8 + k = _
        omega]
    simp [show ¬8 * (4 - n) ≤ (3 - j) * 8 + k by omega]

theorem byteOf_mergeRight (word old : Word) {n j : Nat} (lane : n < 4) (inWord : j < 4) :
    Ram.byteOf .word ((word &&& if n ≠ 3 then (1 : Word) <<< (8 * (3 - n)) - 1 else 0) |||
        old <<< (8 * (3 - n))) j =
      if j ≤ n then Ram.byteOf .word old (3 - n + j) else Ram.byteOf .word word j := by
  refine BitVec.eq_of_getLsbD_eq fun k inByte => ?_
  have keep := getLsbD_afterByte n lane ((4 - 1 - j) * 8 + k) (by omega)
  rw [Ram.getLsbD_byteOf inByte, BitVec.getLsbD_or, BitVec.getLsbD_and,
    BitVec.getLsbD_shiftLeft, show Size.word.bytes = 4 from rfl, keep]
  by_cases stored : j ≤ n
  · rw [if_pos stored, Ram.getLsbD_byteOf inByte,
      show (Size.word.bytes - 1 - (3 - n + j)) * 8 + k =
        (4 - 1 - j) * 8 + k - 8 * (3 - n) by
        change (4 - 1 - (3 - n + j)) * 8 + k = _
        omega]
    simp [show ¬(3 - j) * 8 + k < 8 * (3 - n) by omega, show (3 - j) * 8 + k < 32 by omega]
  · rw [if_neg stored, Ram.getLsbD_byteOf inByte]
    simp [show Size.word.bytes = 4 from rfl, show (3 - j) * 8 + k < 8 * (3 - n) by omega]

theorem byteOf_peek {j : Nat} (inWord : j < 4) :
    Ram.byteOf .word (r.peek off .word) j = r.byteAt (off + BitVec.ofNat 32 j) := by
  refine BitVec.eq_of_getLsbD_eq fun k inByte => ?_
  rw [Ram.getLsbD_byteOf inByte, Ram.getLsbD_peek (by change (4 - 1 - j) * 8 + k < 32; omega),
    show Size.word.bytes = 4 from rfl, show 4 - 1 - ((4 - 1 - j) * 8 + k) / 8 = j by omega,
    show ((4 - 1 - j) * 8 + k) % 8 = k by omega]

/-- A word stored in an aligned word changes the bytes that are not its own there. -/
theorem byteAt_merged {base a value : Word} (inside : Ram.Inside base .word)
    (stored : Nat → Prop) [DecidablePred stored] (byte : Nat → Byte)
    (merged : ∀ j < 4, Ram.byteOf .word value j =
      if stored j then byte j else Ram.byteOf .word (r.peek base .word) j) :
    (r.write base .word value).byteAt a =
      if (a - base).toNat < 4 ∧ stored (a - base).toNat then byte (a - base).toNat
      else r.byteAt a := by
  rw [Ram.byteAt_write inside]
  change (if (a - base).toNat < 4 then _ else _) = _
  by_cases within : (a - base).toNat < 4
  · rw [if_pos within, merged _ within, byteOf_peek within, BitVec.ofNat_toNat,
      BitVec.setWidth_eq, BitVec.add_comm, BitVec.sub_add_cancel]
    simp only [within, true_and]
  · rw [if_neg within, if_neg fun both => within both.1]

/-- SWL at the word's first byte stores the register's bytes up to the end of the aligned
word, and changes no other. -/
theorem Core.storeLeft (inDram : InDram ea off) :
    ∃ ram : Ram, c.unaligned (dramBus other) 42 rt ea =
        { c with bus := (ram, c.bus.2), hasReservation := false } ∧
      ∀ a, ram.byteAt a =
        if (a - off).toNat < 4 - off.toNat % 4 then Ram.byteOf .word (c.gpr rt) (a - off).toNat
        else c.bus.1.byteAt a := by
  have lane := inDram.lane (show 0 < 4 by decide)
  have aligned := inDram.aligned (show 0 < 4 by decide)
  rw [add_byteZero] at lane
  rw [add_byteZero, add_byteZero] at aligned
  unfold unaligned
  simp only []
  rw [load_dram aligned, store_dram aligned, lane]
  refine ⟨_, rfl, fun a => ?_⟩
  have place : (a - (off &&& ~~~(3 : Word))).toNat =
      ((a - off).toNat + off.toNat % 4) % 2 ^ 32 := by
    rw [BitVec.toNat_sub, BitVec.toNat_sub, and_not_three]
    have := a.isLt
    have := off.isLt
    omega
  have distance := (a - off).isLt
  rw [byteAt_merged aligned.inside (fun j => ¬j < (off.toNat + 0) % 4)
    (fun j => Ram.byteOf .word (c.gpr rt) (j - (off.toNat + 0) % 4))]
  · by_cases stored : (a - off).toNat < 4 - off.toNat % 4
    · rw [if_pos stored, if_pos ⟨by omega, by omega⟩]
      congr 1
      omega
    · rw [if_neg stored, if_neg (by omega)]
  · intro j inWord
    rw [byteOf_mergeLeft _ _ (Nat.mod_lt _ (by decide)) inWord, ite_not]

/-- SWR at the word's last byte stores the register's bytes from the start of the aligned
word, and changes no other. -/
theorem Core.storeRight (inDram : InDram ea off) :
    ∃ ram : Ram, c.unaligned (dramBus other) 46 rt (ea + 3) =
        { c with bus := (ram, c.bus.2), hasReservation := false } ∧
      ∀ a, ram.byteAt a =
        if 3 - (off.toNat + 3) % 4 ≤ (a - off).toNat ∧ (a - off).toNat < 4 then
          Ram.byteOf .word (c.gpr rt) (a - off).toNat
        else c.bus.1.byteAt a := by
  have lane : ((ea + 3) &&& 3).toNat = (off.toNat + 3) % 4 := inDram.lane (by decide)
  have aligned : InDram ((ea + 3) &&& ~~~(3 : Word)) _ := inDram.aligned (show 3 < 4 by decide)
  have last := inDram.offset_end (show 3 < 4 by decide)
  unfold unaligned
  simp only []
  rw [load_dram aligned, store_dram aligned, lane]
  refine ⟨_, rfl, fun a => ?_⟩
  have place : (a - ((off + BitVec.ofNat 32 3) &&& ~~~(3 : Word))).toNat =
      ((a - off).toNat + 2 ^ 32 - (3 - (off.toNat + 3) % 4)) % 2 ^ 32 := by
    rw [BitVec.toNat_sub, BitVec.toNat_sub, and_not_three, last]
    have := a.isLt
    have := off.isLt
    omega
  have distance := (a - off).isLt
  rw [byteAt_merged aligned.inside (fun j => j ≤ (off.toNat + 3) % 4)
    (fun j => Ram.byteOf .word (c.gpr rt) (3 - (off.toNat + 3) % 4 + j))]
  · rw [place]
    by_cases stored : 3 - (off.toNat + 3) % 4 ≤ (a - off).toNat ∧ (a - off).toNat < 4
    · rw [if_pos stored, if_pos ⟨by omega, by omega⟩]
      congr 1
      omega
    · rw [if_neg stored, if_neg (by omega)]
  · intro j inWord
    exact byteOf_mergeRight _ _ (Nat.mod_lt _ (by decide)) inWord

namespace Core

/-- Two halves that load the bytes of a word, each keeping what the other has loaded, load
the word. -/
theorem set_halves {v first second : Word}
    (halves : rt ≠ 0 → ∀ b < 32, second.getLsbD b = v.getLsbD b) :
    (c.set rt first).set rt second = c.set rt v := by
  by_cases named : rt = 0
  · rw [named, set_zero, set_zero, set_zero]
  · rw [set_set, BitVec.eq_of_getLsbD_eq (halves named)]

theorem load_left_right (inDram : InDram ea off) :
    (c.unaligned (dramBus other) 34 rt ea).unaligned (dramBus other) 38 rt (ea + 3) =
      c.set rt (c.bus.1.peek off .word) := by
  obtain ⟨left, loaded, leftBits⟩ := @loadLeft δ other c ea off rt inDram
  obtain ⟨right, last, rightBits⟩ :=
    @loadRight δ other (c.set rt left) ea off rt inDram
  rw [loaded, last]
  refine set_halves fun named b bit => ?_
  rw [rightBits b bit, set_bus, set_gpr_self named, leftBits b bit]
  split
  · rfl
  · rw [if_neg (by omega)]

theorem load_right_left (inDram : InDram ea off) :
    (c.unaligned (dramBus other) 38 rt (ea + 3)).unaligned (dramBus other) 34 rt ea =
      c.set rt (c.bus.1.peek off .word) := by
  obtain ⟨right, loaded, rightBits⟩ := @loadRight δ other c ea off rt inDram
  obtain ⟨left, last, leftBits⟩ :=
    @loadLeft δ other (c.set rt right) ea off rt inDram
  rw [loaded, last]
  refine set_halves fun named b bit => ?_
  rw [leftBits b bit, set_bus, set_gpr_self named, rightBits b bit]
  split
  · rw [if_pos (by omega)]
  · rfl

/-- What a store of the register's four bytes leaves: they are in DRAM, nothing else there has
changed, and the reservation is lost. -/
def Stored (c stored : Core (Ram × δ)) (rt : Register) (off : Word) : Prop :=
  ∃ ram : Ram, stored = { c with bus := (ram, c.bus.2), hasReservation := false } ∧
    ∀ a, ram.byteAt a =
      if (a - off).toNat < 4 then Ram.byteOf .word (c.gpr rt) (a - off).toNat
      else c.bus.1.byteAt a

theorem store_left_right (inDram : InDram ea off) :
    Stored c ((c.unaligned (dramBus other) 42 rt ea).unaligned (dramBus other) 46 rt (ea + 3))
      rt off := by
  obtain ⟨left, stored, leftBytes⟩ := @storeLeft δ other c ea off rt inDram
  rw [stored]
  obtain ⟨right, last, rightBytes⟩ := @storeRight δ other
    { c with bus := (left, c.bus.2), hasReservation := false } ea off rt inDram
  refine ⟨right, last, fun a => ?_⟩
  rw [rightBytes a]
  dsimp only
  rw [leftBytes a]
  split
  · rw [if_pos (by omega)]
  · split
    · rw [if_pos (by omega)]
    · rw [if_neg (by omega)]

theorem store_right_left (inDram : InDram ea off) :
    Stored c ((c.unaligned (dramBus other) 46 rt (ea + 3)).unaligned (dramBus other) 42 rt ea)
      rt off := by
  obtain ⟨right, stored, rightBytes⟩ := @storeRight δ other c ea off rt inDram
  rw [stored]
  obtain ⟨left, last, leftBytes⟩ := @storeLeft δ other
    { c with bus := (right, c.bus.2), hasReservation := false } ea off rt inDram
  refine ⟨left, last, fun a => ?_⟩
  rw [leftBytes a]
  dsimp only
  rw [rightBytes a]
  split
  · rw [if_pos (by omega)]
  · split
    · rw [if_pos (by omega)]
    · rw [if_neg (by omega)]

/-- **Unaligned accesses.**  LWL at an address and LWR at its third successor, in either order,
load the word there; SWL and SWR store the register's bytes there, and change no other. -/
theorem unaligned_pairs (inDram : InDram ea off) :
    (c.unaligned (dramBus other) 34 rt ea).unaligned (dramBus other) 38 rt (ea + 3) =
        c.set rt (c.bus.1.peek off .word) ∧
      (c.unaligned (dramBus other) 38 rt (ea + 3)).unaligned (dramBus other) 34 rt ea =
        c.set rt (c.bus.1.peek off .word) ∧
      Stored c ((c.unaligned (dramBus other) 42 rt ea).unaligned (dramBus other) 46 rt (ea + 3))
        rt off ∧
      Stored c ((c.unaligned (dramBus other) 46 rt (ea + 3)).unaligned (dramBus other) 42 rt ea)
        rt off :=
  ⟨load_left_right inDram, load_right_left inDram, store_left_right inDram,
    store_right_left inDram⟩

/-- A core whose DRAM holds the bytes zero, one, two and so on. -/
def counting : Core (Ram × Unit) :=
  new ({ bytes := fun a => a.setWidth 8 }, ()) dramBase

theorem unaligned_pairs_odd :
    ((counting.unaligned dramOnly 34 9 0x80000001).unaligned dramOnly 38 9 (0x80000001 + 3)).gpr 9 =
      0x01020304 := by
  have inDram : InDram 0x80000001 1 := ⟨by decide, by decide⟩
  unfold dramOnly
  rw [(unaligned_pairs inDram).1, set_gpr_self (by decide)]
  decide

end Core

end Halves

end Cpu

end GoRetroTv
