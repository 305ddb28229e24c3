import GoRetroTv.DramMemory

/-!
# What an access to DRAM reads and writes

An access inside DRAM is the bytes of its span, most significant first: a read is
their value, and a write changes them and no other byte.
-/

namespace GoRetroTv

namespace Cpu

/-- `bus.Physical`: the unmapped segments reach the same physical addresses. -/
def physical (virt : Word) : Option Word :=
  if 0x80000000 ≤ virt.toNat ∧ virt.toNat < 0xC0000000 then some (virt &&& 0x1fffffff) else none

theorem physical_eq_some {ea off : Word} :
    physical ea = some off ↔
      (0x80000000 ≤ ea.toNat ∧ ea.toNat < 0xC0000000) ∧ off.toNat = ea.toNat % 0x20000000 := by
  have masked : (ea &&& 0x1fffffff).toNat = ea.toNat % 0x20000000 := by
    rw [BitVec.toNat_and]
    exact Nat.and_two_pow_sub_one_eq_mod ea.toNat 29
  unfold physical
  constructor
  · intro reached
    split at reached
    next segment =>
      cases reached
      exact ⟨segment, masked⟩
    · cases reached
  · rintro ⟨segment, offset⟩
    rw [if_pos segment]
    exact congrArg some (BitVec.eq_of_toNat_eq (masked.trans offset.symm))

end Cpu

namespace Memory

open Cpu

namespace Ram

variable {r : Ram} {off a : Word} {size : Size} {value : Word}

/-- The span of an access lies inside DRAM. -/
abbrev Inside (off : Word) (size : Size) : Prop :=
  off.toNat + size.bytes ≤ dramSize

theorem size_pos (size : Size) : 0 < size.bytes ∧ size.bytes ≤ 4 := by
  cases size <;> decide

theorem byteAt_of_lt (inside : a.toNat < dramSize) : r.byteAt a = r.bytes (a.setWidth 25) :=
  if_pos inside

theorem setWidth_inj {a b : Word} (first : a.toNat < dramSize) (second : b.toNat < dramSize)
    (same : a.setWidth 25 = b.setWidth 25) : a = b := by
  rw [dramSize_eq] at first second
  have values := congrArg BitVec.toNat same
  rw [BitVec.toNat_setWidth, BitVec.toNat_setWidth, Nat.mod_eq_of_lt first,
    Nat.mod_eq_of_lt second] at values
  exact BitVec.eq_of_toNat_eq values

theorem byteAt_poke {byte : Byte} (inside : off.toNat < dramSize) :
    (r.poke off byte).byteAt a = if a = off then byte else r.byteAt a := by
  by_cases within : a.toNat < dramSize
  · rw [byteAt_of_lt within, byteAt_of_lt within, poke]
    dsimp only
    by_cases same : a = off
    · rw [if_pos same, same, Function.update_self]
    · rw [if_neg same, Function.update_of_ne fun eq => same (setWidth_inj within inside eq)]
  · have other : a ≠ off := fun same => within (same ▸ inside)
    rw [if_neg other]
    unfold byteAt
    rw [if_neg within, if_neg within]

theorem bytes_markDirty (n : Nat) : (r.markDirty off n).bytes = r.bytes := by
  unfold markDirty
  dsimp only
  generalize List.range' _ _ = pages
  induction pages generalizing r with
  | nil => rfl
  | cons page pages ih => rw [List.foldl_cons, ih]

theorem byteAt_markDirty (n : Nat) : (r.markDirty off n).byteAt a = r.byteAt a := by
  unfold byteAt
  rw [bytes_markDirty]

theorem eq_add_iff {n : Nat} (small : n < 2 ^ 32) :
    a = off + BitVec.ofNat 32 n ↔ (a - off).toNat = n := by
  constructor
  · rintro rfl
    rw [BitVec.add_comm, BitVec.add_sub_cancel, BitVec.toNat_ofNat, Nat.mod_eq_of_lt small]
  · intro distance
    rw [← distance, BitVec.ofNat_toNat, BitVec.setWidth_eq, BitVec.add_comm,
      BitVec.sub_add_cancel]

/-- A write changes the bytes of its span. -/
theorem byteAt_write (inside : Inside off size) :
    (r.write off size value).byteAt a =
      if (a - off).toNat < size.bytes then byteOf size value (a - off).toNat else r.byteAt a := by
  have poked : ∀ n ≤ size.bytes, ((List.range n).foldl
      (fun r i => r.poke (off + BitVec.ofNat 32 i) (byteOf size value i)) r).byteAt a =
        if (a - off).toNat < n then byteOf size value (a - off).toNat else r.byteAt a := by
    intro n fits
    induction n with
    | zero => simp
    | succ n ih =>
      have small : (BitVec.ofNat 32 n).toNat = n :=
        toNat_ofNat_of_lt_wordLimit (by unfold wordLimit; have := size_pos size; omega)
      have place : (off + BitVec.ofNat 32 n).toNat < dramSize := by
        unfold Inside at inside
        rw [BitVec.toNat_add, small, Nat.mod_eq_of_lt]
        · omega
        · rw [dramSize_eq] at inside
          omega
      rw [List.range_succ, List.foldl_append, List.foldl_cons, List.foldl_nil,
        byteAt_poke place, ih (by omega)]
      have here : a = off + BitVec.ofNat 32 n ↔ (a - off).toNat = n :=
        eq_add_iff (by have := size_pos size; omega)
      by_cases same : (a - off).toNat = n
      · rw [if_pos (here.mpr same), if_pos (by omega), same]
      · rw [if_neg fun eq => same (here.mp eq)]
        by_cases before : (a - off).toNat < n
        · rw [if_pos before, if_pos (by omega)]
        · rw [if_neg before, if_neg (by omega)]
  unfold write
  rw [if_pos inside, byteAt_markDirty, poked _ le_rfl]

theorem toNat_sub_ne_zero {a off : Word} (apart : a ≠ off) : (a - off).toNat ≠ 0 := by
  intro zero
  have equal : a - off = 0 := BitVec.eq_of_toNat_eq zero
  rw [BitVec.sub_eq_iff_eq_add] at equal
  exact apart (equal.trans (BitVec.zero_add off))

/-- Bytes written one after another. -/
def writeBytes : List Byte → Word → Ram → Ram
  | [], _, r => r
  | byte :: bytes, off, r => writeBytes bytes (off + 1) (r.write off .byte (byte.setWidth 32))

theorem byteAt_writeByte (inside : Inside off .byte) :
    (r.write off .byte value).byteAt a = if a = off then value.setWidth 8 else r.byteAt a := by
  rw [byteAt_write inside]
  by_cases here : a = off
  · rw [if_pos here, here, BitVec.sub_self, if_pos (by decide)]
    exact congrArg (BitVec.setWidth 8) (BitVec.ushiftRight_zero value)
  · have apart := toNat_sub_ne_zero here
    rw [if_neg here, if_neg (by change ¬(a - off).toNat < 1; omega)]

/-- Bytes written inside DRAM are there afterwards, and no other byte changes. -/
theorem byteAt_writeBytes {bytes : List Byte} (inside : off.toNat + bytes.length ≤ dramSize) :
    (writeBytes bytes off r).byteAt a =
      if (a - off).toNat < bytes.length then bytes.getD (a - off).toNat 0 else r.byteAt a := by
  induction bytes generalizing off r with
  | nil => rfl
  | cons byte bytes ih =>
    rw [List.length_cons] at inside
    have below : off.toNat + 1 + bytes.length ≤ 2 ^ 25 := by
      rw [dramSize_eq] at inside
      omega
    have next : (off + 1).toNat = off.toNat + 1 := by
      rw [BitVec.toNat_add]
      exact Nat.mod_eq_of_lt (by change off.toNat + 1 < _; omega)
    have distance : (a - (off + 1)).toNat = ((a - off).toNat + (2 ^ 32 - 1)) % 2 ^ 32 := by
      rw [BitVec.toNat_sub, BitVec.toNat_sub, next]
      have := a.isLt
      omega
    have far := (a - off).isLt
    have first : Inside off .byte := by
      change off.toNat + 1 ≤ dramSize
      omega
    rw [writeBytes, ih (by omega), byteAt_writeByte first, List.length_cons,
      BitVec.setWidth_setWidth_of_le byte (by decide), BitVec.setWidth_eq]
    by_cases here : a = off
    · have zero : (a - off).toNat = 0 := by rw [here, BitVec.sub_self]; rfl
      rw [if_pos here, if_neg (by omega), if_pos (by omega), zero, List.getD_cons_zero]
    · have apart := toNat_sub_ne_zero here
      rw [if_neg here]
      by_cases within : (a - off).toNat < bytes.length + 1
      · obtain ⟨d, eq⟩ := Nat.exists_eq_succ_of_ne_zero apart
        have rest : (a - (off + 1)).toNat = d := by omega
        rw [if_pos within, if_pos (by omega), eq, rest, List.getD_cons_succ]
      · rw [if_neg within, if_neg (by omega)]

/-- A read inside DRAM leaves it alone. -/
theorem read_inside (inside : Inside off size) : r.read off size = (r.peek off size, r) :=
  if_pos inside

theorem getLsbD_byteOf {i k : Nat} (inByte : k < 8) :
    (byteOf size value i).getLsbD k = value.getLsbD ((size.bytes - 1 - i) * 8 + k) := by
  unfold byteOf
  rw [BitVec.getLsbD_setWidth, BitVec.getLsbD_ushiftRight, decide_eq_true inByte, Bool.true_and]

/-- The bits of a value read are those of its bytes, the last of them lowest. -/
theorem getLsbD_peek {i : Nat} (inValue : i < 8 * size.bytes) :
    (r.peek off size).getLsbD i =
      (r.byteAt (off + BitVec.ofNat 32 (size.bytes - 1 - i / 8))).getLsbD (i % 8) := by
  have folded : ∀ n ≤ 4, ∀ i < 8 * n, ((List.range n).foldl
      (fun (v : Word) i => v <<< 8 ||| (r.byteAt (off + BitVec.ofNat 32 i)).setWidth 32) 0).getLsbD i =
        (r.byteAt (off + BitVec.ofNat 32 (n - 1 - i / 8))).getLsbD (i % 8) := by
    intro n fits
    induction n with
    | zero => intro i inRange; omega
    | succ n ih =>
      intro i inRange
      rw [List.range_succ, List.foldl_append, List.foldl_cons, List.foldl_nil,
        BitVec.getLsbD_or, BitVec.getLsbD_shiftLeft, BitVec.getLsbD_setWidth]
      by_cases low : i < 8
      · have zero : i / 8 = 0 := Nat.div_eq_of_lt low
        have same : i % 8 = i := Nat.mod_eq_of_lt low
        simp [low, zero, same, show i < 32 by omega]
      · have above : (r.byteAt (off + BitVec.ofNat 32 n)).getLsbD i = false :=
          BitVec.getLsbD_of_ge _ _ (by omega)
        rw [ih (by omega) (i - 8) (by omega), above,
          show n - 1 - (i - 8) / 8 = n + 1 - 1 - i / 8 by omega,
          show (i - 8) % 8 = i % 8 by omega]
        simp [low, show i < 32 by omega]
  exact folded _ (size_pos size).2 i inValue

end Ram

end Memory

end GoRetroTv
