import GoRetroTv.BlitterPixels
import GoRetroTv.Overwrites

/-!
# Copies of the blitter

What a copy command reads and writes, bit by bit.  The luma of the rectangle is read before
any of it is written; the chroma of a planar copy is read when the luma has been written,
for the columns and the lines that the command goes through.
-/

namespace GoRetroTv

namespace Graphics

open Cpu Memory Overwrites

/-- A bit of DRAM: the address of its byte and its place there. -/
abbrev Spot := Word × Nat

def bitAt (ram : Ram) (spot : Spot) : Bool :=
  (ram.byteAt (spot.1 - dramBase)).getLsbD spot.2

/-- The place of a bit of a pixel. -/
def pixelSpot (row col bpp : Word) (k : Nat) : Spot :=
  if bpp = 16 then (row + col * 2 + BitVec.ofNat 32 (1 - k / 8), k % 8)
  else if bpp = 8 then (row + col, k)
  else (row + col * bpp / 8, pixelShift col bpp + k)

section Access

variable {addr : Word} {size : Size} {value : Word} {ram ram' : Ram}

theorem inside_of_insideDram (inside : insideDram addr size.bytes = true) :
    Ram.Inside (addr - dramBase) size :=
  of_decide_eq_true (Bool.and_eq_true _ _ ▸ inside).2

theorem readDram_ok (reads : readDram addr size ram = .ok value ram') :
    ram' = ram ∧ value = ram.peek (addr - dramBase) size := by
  unfold readDram at reads
  split at reads
  · next inside =>
    rw [Ram.read_inside (inside_of_insideDram inside)] at reads
    cases reads
    exact ⟨rfl, rfl⟩
  · cases reads

theorem writeDram_ok (writes : writeDram addr size value ram = .ok ⟨⟩ ram') :
    Ram.Inside (addr - dramBase) size ∧ ram' = ram.write (addr - dramBase) size value := by
  unfold writeDram at writes
  split at writes
  · next inside =>
    cases writes
    exact ⟨inside_of_insideDram inside, rfl⟩
  · cases writes

theorem readByte_bits (reads : readDram addr .byte ram = .ok value ram') :
    ram' = ram ∧ ∀ k < 8, value.getLsbD k = bitAt ram (addr, k) := by
  obtain ⟨same, peeked⟩ := readDram_ok reads
  refine ⟨same, fun k inByte => ?_⟩
  rw [peeked, Ram.peek_byte, BitVec.getLsbD_setWidth, decide_eq_true (by omega), Bool.true_and]
  rfl

/-- A byte written is the low byte of its value. -/
theorem writeByte_wrote (writes : writeDram addr .byte value ram = .ok ⟨⟩ ram') :
    Wrote (fun spot b => ∃ k < 8, spot = (addr, k) ∧ b = value.getLsbD k) (bitAt ram)
      (bitAt ram') := by
  obtain ⟨inside, rfl⟩ := writeDram_ok writes
  have bytes (a : Word) : (ram.write (addr - dramBase) .byte value).byteAt (a - dramBase) =
      if a = addr then value.setWidth 8 else ram.byteAt (a - dramBase) := by
    rw [Ram.byteAt_writeByte inside]
    simp only [BitVec.sub_left_inj]
  constructor
  · intro ⟨a, i⟩ unwritten
    unfold bitAt
    rw [bytes a]
    by_cases here : a = addr
    · have outside : 8 ≤ i := by
        by_contra inByte
        exact unwritten _ ⟨i, by omega, by rw [here], rfl⟩
      rw [BitVec.getLsbD_of_ge _ _ outside, BitVec.getLsbD_of_ge _ _ outside]
    · rw [if_neg here]
  · rintro _ _ ⟨k, inByte, rfl, rfl⟩
    refine ⟨k, inByte, rfl, ?_⟩
    unfold bitAt
    rw [bytes addr, if_pos rfl, BitVec.getLsbD_setWidth, decide_eq_true inByte, Bool.true_and]

theorem sub_sub_base (a b : Word) : a - dramBase - (b - dramBase) = a - b := by
  apply BitVec.eq_of_toNat_eq
  rw [BitVec.toNat_sub, BitVec.toNat_sub, BitVec.toNat_sub, BitVec.toNat_sub]
  have first := a.isLt
  have second := b.isLt
  have base := dramBase.isLt
  omega

theorem readHalf_bits (reads : readDram addr .half ram = .ok value ram') :
    ram' = ram ∧
      ∀ k < 16, value.getLsbD k = bitAt ram (addr + BitVec.ofNat 32 (1 - k / 8), k % 8) := by
  obtain ⟨same, peeked⟩ := readDram_ok reads
  refine ⟨same, fun k inHalf => ?_⟩
  have place : addr - dramBase + BitVec.ofNat 32 (1 - k / 8) =
      addr + BitVec.ofNat 32 (1 - k / 8) - dramBase := by
    rw [BitVec.sub_eq_add_neg, BitVec.sub_eq_add_neg, BitVec.add_assoc, BitVec.add_assoc,
      BitVec.add_comm (-dramBase)]
  rw [peeked, Ram.getLsbD_peek (by change k < 8 * 2; omega)]
  unfold bitAt
  rw [← place]
  rfl

/-- A halfword written is the low half of its value, the high byte first. -/
theorem writeHalf_wrote (writes : writeDram addr .half value ram = .ok ⟨⟩ ram') :
    Wrote (fun spot b => ∃ k < 16, spot = (addr + BitVec.ofNat 32 (1 - k / 8), k % 8) ∧
      b = value.getLsbD k) (bitAt ram) (bitAt ram') := by
  obtain ⟨inside, rfl⟩ := writeDram_ok writes
  have bytes (a : Word) : (ram.write (addr - dramBase) .half value).byteAt (a - dramBase) =
      if (a - addr).toNat < 2 then Ram.byteOf .half value (a - addr).toNat
      else ram.byteAt (a - dramBase) := by
    rw [Ram.byteAt_write inside, sub_sub_base]
    rfl
  have half (i : Nat) (i_lt : i < 2) : (addr + BitVec.ofNat 32 i - addr).toNat = i :=
    (Ram.eq_add_iff (by omega)).mp rfl
  constructor
  · intro ⟨a, i⟩ unwritten
    unfold bitAt
    rw [bytes a]
    by_cases here : (a - addr).toNat < 2
    · have outside : 8 ≤ i := by
        by_contra inByte
        refine unwritten _ ⟨8 * (1 - (a - addr).toNat) + i, by omega, ?_, rfl⟩
        have byte : 1 - (8 * (1 - (a - addr).toNat) + i) / 8 = (a - addr).toNat := by omega
        have bit : (8 * (1 - (a - addr).toNat) + i) % 8 = i := by omega
        rw [byte, bit, (Ram.eq_add_iff (a - addr).isLt).mpr rfl]
        simp
      rw [BitVec.getLsbD_of_ge _ _ outside, BitVec.getLsbD_of_ge _ _ outside]
    · rw [if_neg here]
  · rintro _ _ ⟨k, inHalf, rfl, rfl⟩
    refine ⟨k, inHalf, rfl, ?_⟩
    unfold bitAt
    rw [bytes, half _ (by omega), if_pos (by omega), Ram.getLsbD_byteOf (show k % 8 < 8 by omega)]
    congr 1
    change (2 - 1 - (1 - k / 8)) * 8 + k % 8 = k
    omega

end Access

/-- The depths of the formats. -/
def Depth (bpp : Word) : Prop :=
  bpp = 1 ∨ bpp = 2 ∨ bpp = 4 ∨ bpp = 8 ∨ bpp = 16

/-- A pixel of a few bits lies within its byte. -/
theorem pixelShift_fits {col bpp : Word} (small : bpp = 1 ∨ bpp = 2 ∨ bpp = 4) :
    pixelShift col bpp + bpp.toNat ≤ 8 := by
  have low : (col * bpp &&& 7).toNat = col.toNat * bpp.toNat % 8 := by
    have mask := Nat.and_two_pow_sub_one_eq_mod (col * bpp).toNat 3
    rw [BitVec.toNat_and]
    change (col * bpp).toNat &&& 7 = _
    rw [BitVec.toNat_mul] at mask ⊢
    change _ &&& 7 = _ at mask
    omega
  unfold pixelShift
  rw [BitVec.toNat_sub, BitVec.toNat_sub, low]
  rcases small with rfl | rfl | rfl
  · change (2 ^ 32 - col.toNat * 1 % 8 + (2 ^ 32 - 1 + 8) % 2 ^ 32) % 2 ^ 32 + 1 ≤ 8
    omega
  · change (2 ^ 32 - col.toNat * 2 % 8 + (2 ^ 32 - 2 + 8) % 2 ^ 32) % 2 ^ 32 + 2 ≤ 8
    omega
  · change (2 ^ 32 - col.toNat * 4 % 8 + (2 ^ 32 - 4 + 8) % 2 ^ 32) % 2 ^ 32 + 4 ≤ 8
    omega

theorem Depth.cases {bpp : Word} (depth : Depth bpp) :
    bpp = 16 ∨ bpp = 8 ∨ (bpp ≠ 16 ∧ bpp ≠ 8 ∧ (bpp = 1 ∨ bpp = 2 ∨ bpp = 4)) := by
  rcases depth with rfl | rfl | rfl | rfl | rfl
  · exact .inr (.inr (by decide))
  · exact .inr (.inr (by decide))
  · exact .inr (.inr (by decide))
  · exact .inr (.inl rfl)
  · exact .inl rfl

section Pixel

variable {row col bpp value : Word} {ram ram' : Ram}

/-- A pixel read has the bits of its place. -/
theorem get_bits (depth : Depth bpp) (reads : get row col bpp ram = .ok value ram') :
    ram' = ram ∧ ∀ k < bpp.toNat, value.getLsbD k = bitAt ram (pixelSpot row col bpp k) := by
  unfold get at reads
  unfold pixelSpot
  rcases depth.cases with rfl | rfl | ⟨notHalf, notByte, small⟩
  · rw [if_pos rfl] at reads
    exact readHalf_bits reads
  · rw [if_neg (by decide), if_pos rfl] at reads
    exact readByte_bits reads
  · rw [if_neg notHalf, if_neg notByte] at reads
    simp only [bind, EStateM.bind] at reads
    cases ran : readDram (row + col * bpp / 8) .byte ram with
    | error error middle =>
      rw [ran] at reads
      cases reads
    | ok word middle =>
      obtain ⟨same, peeked⟩ := readDram_ok ran
      rw [ran] at reads
      cases reads
      refine ⟨same, fun k inPixel => ?_⟩
      have fits := @pixelShift_fits col bpp small
      rw [if_neg notHalf, if_neg notByte, peeked, Ram.peek_byte]
      have bits := @getLsbD_pixelOf bpp.toNat (pixelShift col bpp) k
        (ram.byteAt (row + col * bpp / 8 - dramBase)) (by omega) (by omega)
      rw [decide_eq_true inPixel, Bool.true_and] at bits
      exact bits

theorem getLsbD_low {mask : Word} {bits : Nat}
    (low : ∀ k < bits, mask.getLsbD k = true) {k : Nat} (inLow : k < bits) :
    (value &&& mask).getLsbD k = value.getLsbD k := by
  rw [BitVec.getLsbD_and, low k inLow, Bool.and_true]

/-- A pixel drawn writes the bits of its place. -/
theorem put_wrote (depth : Depth bpp) (writes : put row col bpp value ram = .ok ⟨⟩ ram') :
    Wrote (fun spot b => ∃ k < bpp.toNat, spot = pixelSpot row col bpp k ∧ b = value.getLsbD k)
      (bitAt ram) (bitAt ram') := by
  unfold put at writes
  unfold pixelSpot
  rcases depth.cases with rfl | rfl | ⟨notHalf, notByte, small⟩
  · rw [if_pos rfl] at writes
    refine (writeHalf_wrote writes).congr fun spot b => ?_
    refine exists_congr fun k => and_congr_right fun inPixel => ?_
    rw [getLsbD_low (by decide) inPixel, if_pos rfl]
  · rw [if_neg (by decide), if_pos rfl] at writes
    refine (writeByte_wrote writes).congr fun spot b => ?_
    refine exists_congr fun k => and_congr_right fun inPixel => ?_
    rw [getLsbD_low (by decide) inPixel, if_neg (by decide), if_pos rfl]
  · rw [if_neg notHalf, if_neg notByte] at writes
    dsimp only at writes
    simp only [bind, EStateM.bind] at writes
    cases ran : readDram (row + col * bpp / 8) .byte ram with
    | error error middle =>
      rw [ran] at writes
      cases writes
    | ok old middle =>
      obtain ⟨rfl, peeked⟩ := readDram_ok ran
      rw [ran] at writes
      dsimp only at writes
      rw [peeked, Ram.peek_byte] at writes
      have fits := @pixelShift_fits col bpp small
      have wrote := writeByte_wrote writes
      have byte (i : Nat) (inByte : i < 8) : bitAt ram' (row + col * bpp / 8, i) =
          if pixelShift col bpp ≤ i ∧ i < pixelShift col bpp + bpp.toNat then
            value.getLsbD (i - pixelShift col bpp)
          else bitAt middle (row + col * bpp / 8, i) := by
        have drew := @getLsbD_drawn bpp.toNat (pixelShift col bpp) i value
          (middle.byteAt (row + col * bpp / 8 - dramBase)) (by omega) inByte
        unfold drawn at drew
        rw [BitVec.getLsbD_setWidth, decide_eq_true inByte, Bool.true_and] at drew
        refine (wrote.eq_of_agree ⟨i, inByte, rfl, rfl⟩ ?_).trans drew
        rintro _ ⟨j, _, same, rfl⟩
        rw [(Prod.mk.inj same).2]
      constructor
      · rintro ⟨a, i⟩ unwritten
        by_cases here : a = row + col * bpp / 8 ∧ i < 8
        · obtain ⟨rfl, inByte⟩ := here
          rw [byte i inByte, if_neg]
          rintro ⟨above, below⟩
          refine unwritten _ ⟨i - pixelShift col bpp, by omega, ?_, rfl⟩
          rw [if_neg notHalf, if_neg notByte, Nat.add_sub_cancel' above]
        · refine wrote.kept _ ?_
          rintro _ ⟨j, inByte, same, -⟩
          obtain ⟨sameByte, sameBit⟩ := Prod.mk.inj same
          exact here ⟨sameByte, sameBit ▸ inByte⟩
      · rintro spot _ ⟨k, inPixel, rfl, rfl⟩
        refine ⟨k, inPixel, rfl, ?_⟩
        rw [if_neg notHalf, if_neg notByte, byte _ (by omega), if_pos ⟨by omega, by omega⟩,
          Nat.add_sub_cancel_left]

end Pixel

namespace Copying

variable (c : Copying)

/-- A bit of the luma of a surface's pixel. -/
def lumaSpot (s : Surface) (fields : Bool) (x y k : Nat) : Spot :=
  pixelSpot (rowAddress s (s.y + BitVec.ofNat 32 y) fields false c.f) (s.x + BitVec.ofNat 32 x)
    c.f.bpp k

/-- The address of the chroma line of a surface's line. -/
def chromaRow (s : Surface) (y : Nat) : Word :=
  rowAddress s (s.y + BitVec.ofNat 32 y) c.fields true c.f

/-- A bit of the two chroma bytes of a surface's pixel. -/
def chromaSpot (s : Surface) (x y j k : Nat) : Spot :=
  (c.chromaRow s y + ((s.x + BitVec.ofNat 32 x) &&& ~~~1) + BitVec.ofNat 32 j, k)

/-- The bits of the luma of corresponding pixels. -/
def Luma (d s : Spot) : Prop :=
  ∃ x < c.width, ∃ y < c.height, ∃ k < c.f.bpp.toNat,
    d = c.lumaSpot c.dst c.fields x y k ∧ s = c.lumaSpot c.src c.srcFields x y k

/-- The bits of the chroma of corresponding pixels. -/
def Chroma (d s : Spot) : Prop :=
  c.f.planar ≠ 0 ∧ ∃ x < c.width, ∃ y < c.height, ∃ j < 2, ∃ k < 8,
    d = c.chromaSpot c.dst x y j k ∧ s = c.chromaSpot c.src x y j k

def Corresponds (d s : Spot) : Prop :=
  c.Luma d s ∨ c.Chroma d s

/-- The rectangle is copied: each of its bits is what the source's was, and no other bit of
DRAM changes. -/
structure Right (ram ram' : Ram) : Prop where
  copied : ∀ d s, c.Corresponds d s → bitAt ram' d = bitAt ram s
  kept : ∀ d, (∀ s, ¬c.Corresponds d s) → bitAt ram' d = bitAt ram d

/-- The columns of chroma the command goes through. -/
def columns : Nat :=
  (((c.src.x + BitVec.ofNat 32 c.width + 1) &&& ~~~1) - (c.src.x &&& ~~~1)).toNat

/-- The bits of the chroma the command copies. -/
def Made (d s : Spot) : Prop :=
  c.f.planar ≠ 0 ∧ ∃ y ∈ chromaLines c.f c.height, ∃ i < c.columns, ∃ k < 8,
    d = (c.chromaRow c.dst y + (c.dst.x &&& ~~~1) + BitVec.ofNat 32 i, k) ∧
      s = (c.chromaRow c.src y + ((c.src.x &&& ~~~1) + BitVec.ofNat 32 i), k)

/-- The command once its surfaces are known. -/
def draw : Drawing Unit := do
  let pixels ← readPixels c.src c.srcFields c.f c.width c.height
  writePixels c.dst c.fields c.f pixels
  if c.f.planar != 0 then copyChroma c.src c.dst c.fields c.f c.width c.height

variable {c} {ram ram' : Ram}

/-- The pixels read are the source's. -/
theorem readPixels_bits (depth : Depth c.f.bpp) {pixels : List (List Word)}
    (reads : readPixels c.src c.srcFields c.f c.width c.height ram = .ok pixels ram') :
    ram' = ram ∧ List.Forall₂
      (fun y line => List.Forall₂
        (fun x (pixel : Word) => ∀ k < c.f.bpp.toNat,
          pixel.getLsbD k = bitAt ram (c.lumaSpot c.src c.srcFields x y k))
        (List.range c.width) line)
      (List.range c.height) pixels := by
  refine read_mapM' (fun y _ line s' lineRead => ?_) reads
  refine read_mapM' (fun x _ pixel s' pixelRead => ?_) lineRead
  exact get_bits depth pixelRead

/-- The pixels written are the destination's. -/
theorem writePixels_wrote (depth : Depth c.f.bpp) {pixels : List (List Word)}
    (writes : writePixels c.dst c.fields c.f pixels ram = .ok ⟨⟩ ram') :
    Wrote
      (fun spot b => ∃ line ∈ pixels.zipIdx, ∃ pixel ∈ line.1.zipIdx, ∃ k < c.f.bpp.toNat,
        spot = c.lumaSpot c.dst c.fields pixel.2 line.2 k ∧
          b = (pixel.1 &&& 0xffff).getLsbD k)
      (bitAt ram) (bitAt ram') := by
  refine wrote_forM (fun line _ s s' lineDrawn => ?_) writes
  refine wrote_forM (fun pixel _ s s' pixelDrawn => ?_) lineDrawn
  exact put_wrote depth pixelDrawn

/-- The first half of a copy writes what the luma of the source was. -/
theorem luma_wrote (depth : Depth c.f.bpp) {pixels : List (List Word)} {middle : Ram}
    (reads : readPixels c.src c.srcFields c.f c.width c.height ram = .ok pixels middle)
    (writes : writePixels c.dst c.fields c.f pixels middle = .ok ⟨⟩ ram') :
    Wrote (fun d b => ∃ s, c.Luma d s ∧ b = bitAt ram s) (bitAt ram) (bitAt ram') := by
  obtain ⟨rfl, lines⟩ := readPixels_bits depth reads
  have low (pixel : Word) {k : Nat} (inPixel : k < c.f.bpp.toNat) :
      (pixel &&& 0xffff).getLsbD k = pixel.getLsbD k := by
    have shallow : c.f.bpp.toNat ≤ 16 := by
      rcases depth with is | is | is | is | is <;> rw [is] <;> decide
    exact getLsbD_low (show ∀ k < 16, (0xffff : Word).getLsbD k = true by decide) (by omega)
  obtain ⟨lineAt, lineOf⟩ := zipIdx_of_range lines
  refine (writePixels_wrote depth writes).congr fun d b => ?_
  constructor
  · rintro ⟨line, isLine, pixel, isPixel, k, inPixel, rfl, rfl⟩
    obtain ⟨y_lt, lineRead⟩ := lineAt line isLine
    obtain ⟨x_lt, pixelRead⟩ := (zipIdx_of_range lineRead).1 pixel isPixel
    refine ⟨_, ⟨pixel.2, x_lt, line.2, y_lt, k, inPixel, rfl, rfl⟩, ?_⟩
    rw [low pixel.1 inPixel, pixelRead k inPixel]
  · rintro ⟨_, ⟨x, x_lt, y, y_lt, k, inPixel, rfl, rfl⟩, rfl⟩
    obtain ⟨line, isLine⟩ := lineOf y y_lt
    obtain ⟨pixelAt, pixelOf_⟩ := zipIdx_of_range (lineAt _ isLine).2
    obtain ⟨pixel, isPixel⟩ := pixelOf_ x x_lt
    refine ⟨_, isLine, _, isPixel, k, inPixel, rfl, ?_⟩
    rw [low pixel inPixel, (pixelAt _ isPixel).2 k inPixel]

/-- The second half of a planar copy writes what the chroma it goes through is by then. -/
theorem chroma_wrote (planar : c.f.planar ≠ 0)
    (copies : copyChroma c.src c.dst c.fields c.f c.width c.height ram = .ok ⟨⟩ ram') :
    Wrote (fun d b => ∃ s, c.Made d s ∧ b = bitAt ram s) (bitAt ram) (bitAt ram') := by
  unfold copyChroma at copies
  obtain ⟨chroma, middle, reads, writes⟩ := exists_of_bind_ok copies
  have lines : middle = ram ∧ List.Forall₂
      (fun y line => List.Forall₂
        (fun i (byte : Word) => ∀ k < 8, byte.getLsbD k =
          bitAt ram (c.chromaRow c.src y + ((c.src.x &&& ~~~1) + BitVec.ofNat 32 i), k))
        (List.range c.columns) line)
      (chromaLines c.f c.height) chroma := by
    refine read_mapM' (fun y _ line s' lineRead => ?_) reads
    refine read_mapM' (fun i _ byte s' byteRead => ?_) lineRead
    exact readByte_bits byteRead
  obtain ⟨rfl, lines⟩ := lines
  have wrote : Wrote
      (fun spot b => ∃ line ∈ (chromaLines c.f c.height).zip chroma, ∃ byte ∈ line.2.zipIdx,
        ∃ k < 8, spot = (c.chromaRow c.dst line.1 + (c.dst.x &&& ~~~1) + BitVec.ofNat 32 byte.2, k) ∧
          b = (byte.1 &&& 0xff).getLsbD k)
      (bitAt middle) (bitAt ram') := by
    refine wrote_forM (fun line _ s s' lineDrawn => ?_) writes
    refine wrote_forM (fun byte _ s s' byteDrawn => ?_) lineDrawn
    exact writeByte_wrote byteDrawn
  have low (byte : Word) {k : Nat} (inByte : k < 8) :
      (byte &&& 0xff).getLsbD k = byte.getLsbD k :=
    getLsbD_low (show ∀ k < 8, (0xff : Word).getLsbD k = true by decide) inByte
  obtain ⟨lineAt, lineOf⟩ := zip_of_forall₂ lines
  refine wrote.congr fun d b => ?_
  constructor
  · rintro ⟨line, isLine, byte, isByte, k, inByte, rfl, rfl⟩
    obtain ⟨listed, lineRead⟩ := lineAt line isLine
    obtain ⟨i_lt, byteRead⟩ := (zipIdx_of_range lineRead).1 byte isByte
    refine ⟨_, ⟨planar, line.1, listed, byte.2, i_lt, k, inByte, rfl, rfl⟩, ?_⟩
    rw [low byte.1 inByte, byteRead k inByte]
  · rintro ⟨_, ⟨_, y, listed, i, i_lt, k, inByte, rfl, rfl⟩, rfl⟩
    obtain ⟨line, isLine⟩ := lineOf y listed
    obtain ⟨byteAt_, byteOf_⟩ := zipIdx_of_range (lineAt _ isLine).2
    obtain ⟨byte, isByte⟩ := byteOf_ i i_lt
    refine ⟨_, isLine, _, isByte, k, inByte, rfl, ?_⟩
    rw [low byte inByte, (byteAt_ _ isByte).2 k inByte]

/-- The columns stay within the registers' width. -/
structure Narrow (c : Copying) : Prop where
  width_pos : 0 < c.width
  width : c.width ≤ 2 ^ 11
  src : c.src.x.toNat < 2 ^ 11
  dst : c.dst.x.toNat < 2 ^ 11

theorem and_not_one (v : Word) : (v &&& ~~~(1 : Word)).toNat = v.toNat / 2 * 2 := by
  have split_ : v &&& ~~~(1 : Word) = v - (v &&& 1) := by
    have recombine : (v &&& ~~~(1 : Word)) + (v &&& 1) = v := by
      rw [BitVec.add_eq_or_of_and_eq_zero]
      · rw [← BitVec.and_or_distrib_left, BitVec.not_or_self]
        exact BitVec.and_allOnes
      · rw [BitVec.and_comm v 1, ← BitVec.and_assoc, BitVec.and_assoc v, BitVec.not_and_self]
        simp
    rw [BitVec.eq_sub_iff_add_eq, recombine]
  have low : (v &&& 1).toNat = v.toNat % 2 := by
    rw [BitVec.toNat_and]
    exact Nat.and_two_pow_sub_one_eq_mod _ 1
  rw [split_, BitVec.toNat_sub, low]
  have := v.isLt
  omega

/-- The column of a pixel's chroma, counted in numbers. -/
theorem toNat_pair {column : Word} (inRow : column.toNat < 2 ^ 11) {x : Nat} (x_lt : x ≤ 2 ^ 11) :
    ((column + BitVec.ofNat 32 x) &&& ~~~(1 : Word)).toNat = (column.toNat + x) / 2 * 2 := by
  rw [and_not_one, BitVec.toNat_add, BitVec.toNat_ofNat]
  omega

theorem Narrow.columns (narrow : c.Narrow) :
    c.columns = (c.src.x.toNat + c.width + 1) / 2 * 2 - c.src.x.toNat / 2 * 2 := by
  have width := narrow.width
  have inRow := narrow.src
  have last : (c.src.x + BitVec.ofNat 32 c.width + 1 &&& ~~~(1 : Word)).toNat =
      (c.src.x.toNat + c.width + 1) / 2 * 2 := by
    rw [and_not_one, BitVec.toNat_add, BitVec.toNat_add, BitVec.toNat_ofNat]
    change (_ + 1) % 2 ^ 32 / 2 * 2 = _
    omega
  unfold Copying.columns
  rw [BitVec.toNat_sub, last, and_not_one]
  omega

/-- The chroma of a pixel lies as far into the row as the place it is copied by. -/
theorem pair_eq {column : Word} (inRow : column.toNat < 2 ^ 11) {x j i : Nat} (x_lt : x ≤ 2 ^ 11)
    (same : (column.toNat + x) / 2 * 2 + j = column.toNat / 2 * 2 + i) :
    ((column + BitVec.ofNat 32 x) &&& ~~~(1 : Word)) + BitVec.ofNat 32 j =
      (column &&& ~~~(1 : Word)) + BitVec.ofNat 32 i := by
  apply BitVec.eq_of_toNat_eq
  rw [BitVec.toNat_add, BitVec.toNat_add, toNat_pair inRow x_lt, and_not_one, BitVec.toNat_ofNat,
    BitVec.toNat_ofNat]
  omega

variable (c)

/-- The pairs of columns of the two surfaces fall on each other. -/
def Aligned : Prop :=
  c.width = 1 ∨ c.src.x.toNat % 2 = c.dst.x.toNat % 2

/-- Each line's chroma is copied with one of the lines the command goes through. -/
def Covered : Prop :=
  ∀ y < c.height, ∃ y' ∈ chromaLines c.f c.height,
    c.chromaRow c.dst y' = c.chromaRow c.dst y ∧ c.chromaRow c.src y' = c.chromaRow c.src y

variable {c}

/-- On aligned and covered surfaces the command goes through the rectangle's chroma. -/
theorem made_iff (narrow : c.Narrow) (aligned : c.Aligned) (covered : c.Covered) (d s : Spot) :
    c.Made d s ↔ c.Chroma d s := by
  have width_pos := narrow.width_pos
  have width := narrow.width
  have columns := narrow.columns
  refine and_congr_right fun planar => ?_
  constructor
  · rintro ⟨y, listed, i, i_lt, k, inByte, rfl, rfl⟩
    have inside : y < c.height := List.mem_range.mp (List.mem_filter.mp listed).1
    rw [columns] at i_lt
    -- The pixel whose pair the column belongs to.
    have x_lt : i / 2 * 2 - c.src.x.toNat % 2 < c.width := by omega
    refine ⟨i / 2 * 2 - c.src.x.toNat % 2, x_lt, y, inside, i % 2, Nat.mod_lt _ (by decide), k,
      inByte, ?_, ?_⟩
    · have same := pair_eq narrow.dst (x := i / 2 * 2 - c.src.x.toNat % 2) (j := i % 2) (i := i)
        (by omega) (by rcases aligned with one | even <;> omega)
      unfold chromaSpot
      rw [BitVec.add_assoc, BitVec.add_assoc, same]
    · have same := pair_eq narrow.src (x := i / 2 * 2 - c.src.x.toNat % 2) (j := i % 2) (i := i)
        (by omega) (by omega)
      unfold chromaSpot
      rw [BitVec.add_assoc, same]
  · rintro ⟨x, x_lt, y, y_lt, j, small, k, inByte, rfl, rfl⟩
    obtain ⟨y', listed, dstRow, srcRow⟩ := covered y y_lt
    have i_lt : (c.src.x.toNat + x) / 2 * 2 - c.src.x.toNat / 2 * 2 + j < c.columns := by
      rw [columns]
      omega
    refine ⟨y', listed, _, i_lt, k, inByte, ?_, ?_⟩
    · have same := pair_eq narrow.dst (x := x) (j := j)
        (i := (c.src.x.toNat + x) / 2 * 2 - c.src.x.toNat / 2 * 2 + j)
        (by omega) (by rcases aligned with one | even <;> omega)
      unfold chromaSpot
      rw [dstRow, BitVec.add_assoc, BitVec.add_assoc, same]
    · have same := pair_eq narrow.src (x := x) (j := j)
        (i := (c.src.x.toNat + x) / 2 * 2 - c.src.x.toNat / 2 * 2 + j)
        (by omega) (by omega)
      unfold chromaSpot
      rw [srcRow, BitVec.add_assoc, same]

/-- Where bits of the rectangle fall on one another they are to be the same; the chroma is
aligned and covered; and the luma drawn over a chroma bit of the source is that bit's. -/
structure Clean (c : Copying) (ram : Ram) : Prop where
  agree : ∀ d s s', c.Corresponds d s → c.Corresponds d s' → bitAt ram s = bitAt ram s'
  aligned : c.f.planar ≠ 0 → c.Aligned
  covered : c.f.planar ≠ 0 → c.Covered
  undisturbed : ∀ d s t, c.Chroma d s → c.Luma s t → bitAt ram t = bitAt ram s

theorem right_of_wrote {writes : Spot → Bool → Prop} (wrote : Wrote writes (bitAt ram) (bitAt ram'))
    (due : ∀ d b, writes d b ↔ ∃ s, c.Corresponds d s ∧ b = bitAt ram s)
    (clean : c.Clean ram) : c.Right ram ram' := by
  constructor
  · intro d s corresponds
    refine wrote.eq_of_agree ((due d _).mpr ⟨s, corresponds, rfl⟩) ?_
    intro b written
    obtain ⟨s', other, rfl⟩ := (due d b).mp written
    exact clean.agree d s' s other corresponds
  · intro d apart
    refine wrote.kept d fun b written => ?_
    obtain ⟨s, corresponds, -⟩ := (due d b).mp written
    exact apart s corresponds

/-- A clean copy is right. -/
theorem draw_right (depth : Depth c.f.bpp) (narrow : c.Narrow)
    (draws : c.draw ram = .ok ⟨⟩ ram') (clean : c.Clean ram) : c.Right ram ram' := by
  unfold draw at draws
  obtain ⟨pixels, middle, reads, later⟩ := exists_of_bind_ok draws
  obtain ⟨_, drawn, writes, rest⟩ := exists_of_bind_ok later
  have luma := luma_wrote depth reads writes
  by_cases planar : c.f.planar = 0
  · rw [planar, if_neg (by decide)] at rest
    cases rest
    refine right_of_wrote luma (fun d b => exists_congr fun s => and_congr_left fun _ => ?_) clean
    exact ⟨.inl, fun either => either.elim id fun chroma => absurd planar chroma.1⟩
  · rw [if_pos (bne_iff_ne.mpr planar)] at rest
    have chroma := chroma_wrote planar rest
    have intact (d s : Spot) (isChroma : c.Chroma d s) : bitAt drawn s = bitAt ram s := by
      by_cases lit : ∃ t, c.Luma s t
      · obtain ⟨t, isLuma⟩ := lit
        obtain ⟨t', other, ends⟩ := luma.ended s _ ⟨t, isLuma, rfl⟩
        exact ends.trans (clean.undisturbed d s t' isChroma other)
      · exact luma.kept s fun b written => lit ⟨written.choose, written.choose_spec.1⟩
    refine right_of_wrote (luma.trans chroma) (fun d b => ?_) clean
    constructor
    · rintro (⟨s, isLuma, rfl⟩ | ⟨s, isMade, rfl⟩)
      · exact ⟨s, .inl isLuma, rfl⟩
      · have isChroma := (made_iff narrow (clean.aligned planar) (clean.covered planar) d s).mp isMade
        exact ⟨s, .inr isChroma, intact d s isChroma⟩
    · rintro ⟨s, isLuma | isChroma, rfl⟩
      · exact .inl ⟨s, isLuma, rfl⟩
      · exact .inr ⟨s, (made_iff narrow (clean.aligned planar) (clean.covered planar) d s).mpr
          isChroma, (intact d s isChroma).symm⟩

/-- What a right copy shows of the contents: the bits that fall on one another were the same,
a chroma bit that the command leaves out already held its value, and so did the luma drawn
over a chroma bit that is copied from one place only. -/
structure Coincides (c : Copying) (ram : Ram) : Prop where
  agree : ∀ d s s', c.Corresponds d s → c.Corresponds d s' → bitAt ram s = bitAt ram s'
  missed : ∀ d s, c.Chroma d s → (∀ s', ¬c.Made d s') → (∀ t, ¬c.Luma d t) →
    bitAt ram d = bitAt ram s
  disturbed : ∀ d s t, c.Chroma d s → c.Made d s → (∀ s', c.Made d s' → s' = s) → c.Luma s t →
    bitAt ram t = bitAt ram s

theorem coincides_of_right (depth : Depth c.f.bpp) (draws : c.draw ram = .ok ⟨⟩ ram')
    (right : c.Right ram ram') : c.Coincides ram := by
  have agree (d s s' : Spot) (first : c.Corresponds d s) (second : c.Corresponds d s') :
      bitAt ram s = bitAt ram s' :=
    (right.copied d s first).symm.trans (right.copied d s' second)
  unfold draw at draws
  obtain ⟨pixels, middle, reads, later⟩ := exists_of_bind_ok draws
  obtain ⟨_, drawn, writes, rest⟩ := exists_of_bind_ok later
  have luma := luma_wrote depth reads writes
  refine ⟨agree, ?_, ?_⟩
  · intro d s isChroma unmade unlit
    rw [if_pos (bne_iff_ne.mpr isChroma.1)] at rest
    have chroma := chroma_wrote isChroma.1 rest
    have left : bitAt ram' d = bitAt drawn d :=
      chroma.kept d fun b written => unmade written.choose written.choose_spec.1
    have dark : bitAt drawn d = bitAt ram d :=
      luma.kept d fun b written => unlit written.choose written.choose_spec.1
    exact (left.trans dark).symm.trans (right.copied d s (.inr isChroma))
  · intro d s t isChroma isMade only isLuma
    rw [if_pos (bne_iff_ne.mpr isChroma.1)] at rest
    have chroma := chroma_wrote isChroma.1 rest
    have carried : bitAt ram' d = bitAt drawn s := by
      refine chroma.eq_of_agree ⟨s, isMade, rfl⟩ ?_
      rintro _ ⟨s', other, rfl⟩
      rw [only s' other]
    have lit : bitAt drawn s = bitAt ram t := by
      refine luma.eq_of_agree ⟨t, isLuma, rfl⟩ ?_
      rintro _ ⟨t', other, rfl⟩
      exact agree s t' t (.inl other) (.inl isLuma)
    exact (carried.trans lit).symm.trans (right.copied d s (.inr isChroma))

/-- Without chroma the contents are all there is to it. -/
theorem clean_of_coincides (indexed : c.f.planar = 0) (coincides : c.Coincides ram) :
    c.Clean ram where
  agree := coincides.agree
  aligned planar := absurd indexed planar
  covered planar := absurd indexed planar
  undisturbed _ _ _ isChroma _ := absurd indexed isChroma.1

end Copying

theorem format_depth {op : Word} {f : PixelFormat} (isFormat : format op = .ok f) : Depth f.bpp := by
  unfold format at isFormat
  split at isFormat
  · cases isFormat
    exact .inr (.inr (.inr (.inr rfl)))
  · split at isFormat
    all_goals cases isFormat
    · exact .inl rfl
    · exact .inr (.inl rfl)
    · exact .inr (.inr (.inl rfl))
    · exact .inr (.inr (.inr (.inl rfl)))
    · exact .inr (.inr (.inr (.inl rfl)))
    · exact .inr (.inr (.inr (.inl rfl)))

theorem side_x (words : Fin 15 → Word) (at' : Fin 10) : (side words at').x.toNat < 2 ^ 11 := by
  unfold side
  dsimp only
  rw [BitVec.toNat_and]
  exact Nat.lt_of_le_of_lt Nat.and_le_right (by decide)

theorem copying_narrow (words : Fin 15 → Word) (f : PixelFormat) : (copying words f).Narrow := by
  have width : (words 13 &&& 0x7ff).toNat ≤ 0x7ff := by
    rw [BitVec.toNat_and]
    exact Nat.and_le_right
  refine ⟨Nat.succ_pos _, Nat.succ_le_succ width, ?_, side_x words 7⟩
  unfold copying
  dsimp only
  split
  · exact show (0 : Word).toNat < 2 ^ 11 by decide
  · exact side_x words 1

/-- A copy command that succeeds draws its copy. -/
theorem executeRegisters_copy {words : Fin 15 → Word} {f : PixelFormat} {ram ram' : Ram}
    (isFormat : format (words 0) = .ok f) (isCopy : words 0 &&& 0x1000000 = 0)
    (executes : executeRegisters words ram = .ok ⟨⟩ ram') :
    (copying words f).draw ram = .ok ⟨⟩ ram' := by
  unfold executeRegisters at executes
  rw [isFormat] at executes
  dsimp only at executes
  rw [isCopy, if_neg (by decide)] at executes
  unfold copy at executes
  dsimp only at executes
  split at executes
  · cases executes
  · exact executes

/-- **Copies are simultaneous.**  A copy command that succeeds leaves its rectangle as the
source's was, and the rest of DRAM alone, when it is clean; and one that does shows that
what is not clean about it held the same bits by coincidence. -/
theorem copy_simultaneous (words : Fin 15 → Word) (f : PixelFormat) (ram ram' : Ram)
    (isFormat : format (words 0) = .ok f) (isCopy : words 0 &&& 0x1000000 = 0)
    (executes : executeRegisters words ram = .ok ⟨⟩ ram') :
    ((copying words f).Clean ram → (copying words f).Right ram ram') ∧
      ((copying words f).Right ram ram' → (copying words f).Coincides ram) ∧
      (f.planar = 0 → (copying words f).Coincides ram → (copying words f).Clean ram) := by
  have depth := format_depth isFormat
  have draws := executeRegisters_copy isFormat isCopy executes
  refine ⟨?_, ?_, ?_⟩
  · exact Copying.draw_right depth (copying_narrow words f) draws
  · exact Copying.coincides_of_right depth draws
  · exact fun indexed => Copying.clean_of_coincides (c := copying words f) indexed

def twoBytes : Ram :=
  { bytes := fun off => if off = 0 then 1 else if off = 1 then 2 else 0 }

/-- Two pixels with their chroma, the luma shifted by a byte onto its own end. -/
def shiftedPair : Fin 15 → Word := fun i =>
  [0x180000, 0, 0, 4, 0, 0, 0, 1, 0, 8, 0, 0, 0, 1, 0].getD i 0

def pairCopying : Copying :=
  copying shiftedPair { bpp := 8, planar := 1 }

theorem pairCopying_luma {d s : Spot} (isLuma : pairCopying.Luma d s) :
    s = (d.1 - 1, d.2) ∧ (d.1 = dramBase + 1 ∨ d.1 = dramBase + 2) := by
  have each : ∀ x < 2, ∀ k < 8,
      let d := pairCopying.lumaSpot pairCopying.dst pairCopying.fields x 0 k
      pairCopying.lumaSpot pairCopying.src pairCopying.srcFields x 0 k = (d.1 - 1, d.2) ∧
        (d.1 = dramBase + 1 ∨ d.1 = dramBase + 2) := by
    decide
  obtain ⟨x, inRow, y, inColumn, k, inByte, rfl, rfl⟩ := isLuma
  obtain rfl : y = 0 := Nat.lt_one_iff.mp inColumn
  exact each x inRow k inByte

theorem pairCopying_chroma {d s : Spot} (isChroma : pairCopying.Chroma d s) :
    s = (d.1 - 4, d.2) ∧ (d.1 = dramBase + 8 ∨ d.1 = dramBase + 9) := by
  have each : ∀ x < 2, ∀ j < 2, ∀ k < 8,
      let d := pairCopying.chromaSpot pairCopying.dst x 0 j k
      pairCopying.chromaSpot pairCopying.src x 0 j k = (d.1 - 4, d.2) ∧
        (d.1 = dramBase + 8 ∨ d.1 = dramBase + 9) := by
    decide
  obtain ⟨-, x, inRow, y, inColumn, j, inPair, k, inByte, rfl, rfl⟩ := isChroma
  obtain rfl : y = 0 := Nat.lt_one_iff.mp inColumn
  exact each x inRow j inPair k inByte

theorem pairCopying_clean (ram : Ram) : pairCopying.Clean ram where
  agree d s s' first second := by
    have apart (low : d.1 = dramBase + 1 ∨ d.1 = dramBase + 2)
        (high : d.1 = dramBase + 8 ∨ d.1 = dramBase + 9) : False := by
      rcases low with low | low <;> rw [low] at high <;> exact absurd high (by decide)
    rcases first with isLuma | isChroma <;> rcases second with isLuma' | isChroma'
    · rw [(pairCopying_luma isLuma).1, (pairCopying_luma isLuma').1]
    · exact (apart (pairCopying_luma isLuma).2 (pairCopying_chroma isChroma').2).elim
    · exact (apart (pairCopying_luma isLuma').2 (pairCopying_chroma isChroma).2).elim
    · rw [(pairCopying_chroma isChroma).1, (pairCopying_chroma isChroma').1]
  aligned _ := .inr rfl
  covered _ y y_lt := by
    change y < 1 at y_lt
    obtain rfl : y = 0 := by omega
    exact ⟨0, by decide, rfl, rfl⟩
  undisturbed d s t isChroma isLuma := by
    obtain ⟨rfl, high⟩ := pairCopying_chroma isChroma
    have low := (pairCopying_luma isLuma).2
    dsimp only at low
    rcases high with high | high <;> rw [high] at low <;> exact absurd low (by decide)

theorem copy_simultaneous_shifted : ∃ ram',
    executeRegisters shiftedPair twoBytes = .ok ⟨⟩ ram' ∧ pairCopying.Clean twoBytes ∧
      pairCopying.Right twoBytes ram' :=
  ⟨_, rfl, pairCopying_clean twoBytes,
    (copy_simultaneous shiftedPair { bpp := 8, planar := 1 } twoBytes _ rfl rfl rfl).1
      (pairCopying_clean twoBytes)⟩

/-- A pixel of planar luma drawn where its chroma is still to be read. -/
def lumaOverChroma : Fin 15 → Word := fun i =>
  [0x180000, 0, 0, 1, 0, 0, 0, 1, 0, 8, 0, 0, 0, 0, 0].getD i 0

theorem not_simultaneous :
    ¬∀ (words : Fin 15 → Word) (f : PixelFormat) (ram ram' : Ram),
      format (words 0) = .ok f → words 0 &&& 0x1000000 = 0 →
      executeRegisters words ram = .ok ⟨⟩ ram' → (copying words f).Right ram ram' := by
  intro right
  have drawn (ram' : Ram) (executes : executeRegisters lumaOverChroma twoBytes = .ok ⟨⟩ ram') :
      bitAt ram' (dramBase + 8, 0) = true := by
    cases executes
    rfl
  have ended := right lumaOverChroma { bpp := 8, planar := 1 } twoBytes _ rfl rfl rfl
  -- The chroma was 2, and the luma that has just been drawn over it is 1.
  have copied := ended.copied (dramBase + 8, 0) (dramBase + 1, 0)
    (.inr ⟨by decide, 0, by decide, 0, by decide, 0, by decide, 0, by decide, rfl, rfl⟩)
  rw [drawn _ rfl] at copied
  exact absurd copied (by decide)

end Graphics

end GoRetroTv
