import GoRetroTv.BlitterPixels
import GoRetroTv.OsdCompose

/-!
# One layout of pixels

The blitter and the on-screen display compute the byte and the bits of a pixel apart from
each other: the one from a surface in DRAM's cached addresses with its pitch in pixels, the
other from a descriptor in the uncached ones with its stride in bytes.
-/

namespace GoRetroTv

namespace Osd

open Cpu Memory Graphics

/-- The offset in DRAM that a field's address reaches. -/
def fieldOffset (field : Word) : Nat :=
  field.toNat % 2 ^ 29

/-- A field of the display: an uncached address within sixteen megabytes. -/
structure Field (field : Word) : Prop where
  below : fieldOffset field < 2 ^ 24
  uncached : field.toNat = 0xa0000000 + fieldOffset field

/-- What `Descriptor` lets through. -/
structure Descriptor.Valid (desc : Descriptor) : Prop where
  depth : Indexed desc.depth
  width : 2 ≤ desc.width.toNat ∧ desc.width.toNat ≤ 2048
  height : 2 ≤ desc.height.toNat ∧ desc.height.toNat ≤ 1152
  field0 : Field desc.field0
  field1 : desc.field1 = 0 ∨ Field desc.field1
  clut : desc.clut = 0 ∨ Field desc.clut

theorem displayPointer_field {word : Word} (some_ : displayPointer word ≠ 0) :
    Field (displayPointer word) := by
  have address : (displayPointer word).toNat = 0xa0000000 + word.toNat % 2 ^ 24 := by
    unfold displayPointer at some_ ⊢
    split at some_
    · exact absurd rfl some_
    next present =>
      rw [if_neg present, BitVec.toNat_or, BitVec.toNat_and]
      change 0xa0000000 ||| word.toNat &&& (2 ^ 24 - 1) = _
      rw [Nat.and_two_pow_sub_one_eq_mod]
      have low : word.toNat % 2 ^ 24 < 2 ^ 24 := Nat.mod_lt _ (by decide)
      exact (Nat.two_pow_add_eq_or_of_lt low 0xa0).symm
  have offset : fieldOffset (displayPointer word) = word.toNat % 2 ^ 24 := by
    unfold fieldOffset
    omega
  exact ⟨by omega, by omega⟩

theorem displayPointer_cases (word : Word) :
    displayPointer word = 0 ∨ Field (displayPointer word) := by
  by_cases absent : displayPointer word = 0
  · exact .inl absent
  · exact .inr (displayPointer_field absent)

theorem depth_indexed (word : Word) : Indexed ((1 : Word) <<< (word >>> 25 &&& 3).toNat) := by
  have low : (word >>> 25 &&& 3).toNat < 4 := by
    rw [BitVec.toNat_and]
    exact Nat.lt_of_le_of_lt Nat.and_le_right (by decide)
  generalize (word >>> 25 &&& 3).toNat = n at low
  unfold Indexed
  revert n
  decide

theorem descriptor_valid {d : Display} {ram : Ram} {desc : Descriptor}
    (programmed : d.descriptor ram = .ok (some desc)) : desc.Valid := by
  unfold Display.descriptor at programmed
  dsimp only at programmed
  split at programmed
  · cases programmed
  obtain ⟨_, programmed⟩ := check_ok programmed
  obtain ⟨_, _, programmed⟩ := bind_eq_ok.mp programmed
  obtain ⟨_, _, programmed⟩ := bind_eq_ok.mp programmed
  obtain ⟨clutWord, _, programmed⟩ := bind_eq_ok.mp programmed
  obtain ⟨f0Word, _, programmed⟩ := bind_eq_ok.mp programmed
  obtain ⟨f1Word, _, programmed⟩ := bind_eq_ok.mp programmed
  obtain ⟨geometry, programmed⟩ := check_ok programmed
  cases programmed
  simp only [not_or, BitVec.not_lt] at geometry
  obtain ⟨width, widthMost, height, heightMost, field0⟩ := geometry
  constructor
  · exact depth_indexed f0Word
  · exact ⟨width, widthMost⟩
  · exact ⟨height, heightMost⟩
  · exact displayPointer_field field0
  · exact displayPointer_cases f1Word
  · exact displayPointer_cases clutWord

/-- The bytes of a line, of a width that fills them. -/
def lineBytes (desc : Descriptor) : Nat :=
  desc.width.toNat * desc.depth.toNat / 8

/-- The offset in DRAM at which a line starts. -/
def linePlace (desc : Descriptor) (y : Nat) : Nat :=
  if desc.field1 = 0 then fieldOffset desc.field0 + y * lineBytes desc
  else (if y % 2 = 1 then fieldOffset desc.field1 else fieldOffset desc.field0) +
    y / 2 * lineBytes desc

/-- The offset in DRAM of a pixel's byte. -/
def place (desc : Descriptor) (x y : Nat) : Nat :=
  linePlace desc y + x * desc.depth.toNat / 8

/-- The shift of a pixel within its byte. -/
def shiftAt (desc : Descriptor) (x : Nat) : Nat :=
  8 - desc.depth.toNat - x * desc.depth.toNat % 8

/-- The pixel a picture shows. -/
def pixelAt (desc : Descriptor) (ram : Ram) (x y : Nat) : Byte :=
  (pixelOf desc.depth.toNat (shiftAt desc x)
    (ram.byteAt (BitVec.ofNat 32 (place desc x y)))).setWidth 8

section Places

variable {desc : Descriptor} {ram : Ram} {x y : Nat}

theorem lineBytes_le (valid : desc.Valid) : lineBytes desc ≤ 2048 := by
  obtain ⟨_, most⟩ := valid.width
  unfold lineBytes
  rcases valid.depth.cases with is | is | is | is <;> rw [is] <;> omega

theorem stride_toNat (valid : desc.Valid)
    (whole : desc.width.toNat * desc.depth.toNat % 8 = 0) :
    (stride desc).toNat = lineBytes desc := by
  obtain ⟨_, most⟩ := valid.width
  unfold stride lineBytes
  rw [BitVec.toNat_udiv, BitVec.toNat_add, BitVec.toNat_mul]
  change ((_ % 2 ^ 32 + 7) % 2 ^ 32) / 8 = _
  rcases valid.depth.cases with is | is | is | is <;> rw [is] at whole ⊢ <;> omega

theorem linePlace_lt (valid : desc.Valid) (inside : y < desc.height.toNat) :
    linePlace desc y + 2048 ≤ 2 ^ 24 + 1152 * 2048 := by
  obtain ⟨_, most⟩ := valid.height
  have bytes := lineBytes_le valid
  have lines : y * lineBytes desc ≤ 1151 * 2048 := Nat.mul_le_mul (by omega) bytes
  have half : y / 2 * lineBytes desc ≤ 1151 * 2048 := Nat.mul_le_mul (by omega) bytes
  have first := valid.field0.below
  unfold linePlace
  split
  · omega
  next interlaced =>
    have second := (valid.field1.resolve_left interlaced).below
    split <;> omega

theorem column_lt (valid : desc.Valid) (inside : x < desc.width.toNat) :
    x * desc.depth.toNat / 8 < 2048 := by
  obtain ⟨_, most⟩ := valid.width
  rcases valid.depth.cases with is | is | is | is <;> rw [is] <;> omega

theorem lineAddress_toNat (valid : desc.Valid)
    (whole : desc.width.toNat * desc.depth.toNat % 8 = 0) (inside : y < desc.height.toNat) :
    (lineAddress desc (BitVec.ofNat 32 y)).toNat = 0xa0000000 + linePlace desc y := by
  have bound := linePlace_lt valid inside
  have bytes := stride_toNat valid whole
  obtain ⟨_, most⟩ := valid.height
  have small : (BitVec.ofNat 32 y).toNat = y := by
    rw [BitVec.toNat_ofNat]
    omega
  unfold lineAddress linePlace at *
  split
  next single =>
    rw [if_pos single] at bound
    rw [BitVec.toNat_add, BitVec.toNat_mul, bytes, small, valid.field0.uncached]
    omega
  next interlaced =>
    rw [if_neg interlaced] at bound
    have low : (BitVec.ofNat 32 y &&& 1).toNat = y % 2 := by
      rw [BitVec.toNat_and, small]
      exact Nat.and_two_pow_sub_one_eq_mod y 1
    have odd : BitVec.ofNat 32 y &&& 1 ≠ 0 ↔ y % 2 = 1 := by
      rw [← low, ne_eq, ← BitVec.toNat_inj]
      change ¬_ = 0 ↔ _
      omega
    have row : (BitVec.ofNat 32 y / 2).toNat = y / 2 := by
      rw [BitVec.toNat_udiv, small]
      rfl
    have second := (valid.field1.resolve_left interlaced).uncached
    rw [BitVec.toNat_add, BitVec.toNat_mul, bytes, row]
    by_cases isOdd : y % 2 = 1
    · rw [if_pos isOdd] at bound ⊢
      rw [if_pos (odd.mpr isOdd), second]
      omega
    · rw [if_neg isOdd] at bound ⊢
      rw [if_neg (odd.not.mpr isOdd), valid.field0.uncached]
      omega

/-- What a read sees is the bytes of its span. -/
theorem readRAM_eq {address : Word} {size : Size} {off : Nat}
    (uncached : address.toNat = 0xa0000000 + off) (inside : off + size.bytes ≤ dramSize) :
    readRAM address size ram = .ok (ram.peek (BitVec.ofNat 32 off) size) := by
  have small : (BitVec.ofNat 32 off).toNat = off := by
    rw [dramSize_eq] at inside
    rw [BitVec.toNat_ofNat]
    omega
  have reached : Cpu.physical address = some (BitVec.ofNat 32 off) := by
    rw [dramSize_eq] at inside
    have := (Ram.size_pos size).1
    rw [physical_eq_some, small]
    omega
  have within : Ram.Inside (BitVec.ofNat 32 off) size := by
    rw [Ram.Inside, small]
    exact inside
  unfold readRAM
  rw [reached]
  dsimp only
  rw [if_pos within, Ram.read_inside within]

theorem readRAM_byte {address : Word} {off : Nat} (uncached : address.toNat = 0xa0000000 + off)
    (inside : off < dramSize) :
    readRAM address .byte ram = .ok ((ram.byteAt (BitVec.ofNat 32 off)).setWidth 32) := by
  have spanned : off + Size.byte.bytes ≤ dramSize := inside
  rw [readRAM_eq uncached spanned, Ram.peek_byte]

theorem readPixel_eq (valid : desc.Valid)
    (whole : desc.width.toNat * desc.depth.toNat % 8 = 0)
    (inWidth : x < desc.width.toNat) (inHeight : y < desc.height.toNat) :
    readPixel desc ram (lineAddress desc (BitVec.ofNat 32 y)) (BitVec.ofNat 32 x) =
      .ok (pixelAt desc ram x y) := by
  have line := lineAddress_toNat valid whole inHeight
  have bound := linePlace_lt valid inHeight
  have column := column_lt valid inWidth
  obtain ⟨_, most⟩ := valid.width
  have small : (BitVec.ofNat 32 x).toNat = x := by
    rw [BitVec.toNat_ofNat]
    omega
  have bit : (BitVec.ofNat 32 x * desc.depth / 8).toNat = x * desc.depth.toNat / 8 := by
    rw [BitVec.toNat_udiv, BitVec.toNat_mul, small]
    change _ % 2 ^ 32 / 8 = _
    rcases valid.depth.cases with is | is | is | is <;> rw [is] <;> omega
  have address : (lineAddress desc (BitVec.ofNat 32 y) + BitVec.ofNat 32 x * desc.depth / 8).toNat =
      0xa0000000 + place desc x y := by
    unfold place
    rw [BitVec.toNat_add, line, bit]
    omega
  have inside : place desc x y < dramSize := by
    unfold place
    rw [dramSize_eq]
    omega
  have shift : (8 - desc.depth - (BitVec.ofNat 32 x * desc.depth &&& 7)).toNat =
      shiftAt desc x := by
    have shifted := @pixelShift_eq (BitVec.ofNat 32 x) desc.depth valid.depth (by omega)
    rw [small] at shifted
    exact shifted
  unfold readPixel
  dsimp only
  rw [readRAM_byte address inside, shift]
  rfl

end Places

/-- The pixel of a picture, inside it. -/
def Frame.pixel (frame : Frame) (x y : Nat) : Option Byte :=
  frame.lines[y]?.bind fun row => row[x]?

theorem mapM_eq_map {α β : Type} {item : α → Except String β} {value : α → β} {items : List α}
    (each : ∀ x ∈ items, item x = .ok (value x)) : items.mapM item = .ok (items.map value) := by
  induction items with
  | nil => rfl
  | cons first items ih =>
    rw [List.mapM_cons, each first List.mem_cons_self,
      ih fun x member => each x (List.mem_cons_of_mem first member)]
    rfl

section Composing

variable {d : Display} {desc : Descriptor} {ram ram' : Ram}

theorem palette_ok (valid : desc.Valid) : ∃ entries, palette desc ram = .ok entries := by
  unfold palette
  dsimp only
  by_cases grey : desc.clut = 0
  · exact ⟨_, mapM_eq_map fun i _ => if_pos grey⟩
  · have table := valid.clut.resolve_left grey
    have below := table.below
    have most : 2 ^ desc.depth.toNat ≤ 256 := by
      rcases valid.depth.cases with is | is | is | is <;> rw [is] <;> decide
    refine ⟨_, @mapM_eq_map _ _ _ (fun i =>
      let word := ram.peek (BitVec.ofNat 32 (fieldOffset desc.clut + i / 2 * 4)) .word
      let entry := if i % 2 = 1 then word &&& 0xffff else word >>> 16
      { y := (entry >>> 8 &&& 0x3f) <<< 2
        cb := (entry >>> 4 &&& 0xf) <<< 4
        cr := (entry &&& 0xf) <<< 4 }) _ fun i member => ?_⟩
    have small := List.mem_range.mp member
    have address : (desc.clut + BitVec.ofNat 32 (i / 2) * 4).toNat =
        0xa0000000 + (fieldOffset desc.clut + i / 2 * 4) := by
      rw [BitVec.toNat_add, BitVec.toNat_mul, BitVec.toNat_ofNat, table.uncached]
      change (_ + _ % 2 ^ 32 * 4 % 2 ^ 32) % 2 ^ 32 = _
      omega
    rw [if_neg grey, readRAM_eq address (by rw [dramSize_eq]; change _ + 4 ≤ _; omega)]
    rfl

/-- The picture of a programmed plane is its pixels. -/
theorem compose_pixel (programmed : d.descriptor ram = .ok (some desc))
    (whole : desc.width.toNat * desc.depth.toNat % 8 = 0) :
    ∃ frame, d.compose ram = .ok frame ∧ ∀ x y, frame.pixel x y =
      if x < desc.width.toNat ∧ y < desc.height.toNat then some (pixelAt desc ram x y)
      else none := by
  have valid := descriptor_valid programmed
  obtain ⟨entries, coloured⟩ := @palette_ok desc ram valid
  have lines : ((List.range desc.height.toNat).mapM fun y =>
      (List.range desc.width.toNat).mapM fun x =>
        readPixel desc ram (lineAddress desc (BitVec.ofNat 32 y)) (BitVec.ofNat 32 x)) =
      .ok ((List.range desc.height.toNat).map fun y =>
        (List.range desc.width.toNat).map fun x => pixelAt desc ram x y) := by
    refine mapM_eq_map fun y inHeight => mapM_eq_map fun x inWidth => ?_
    exact readPixel_eq valid whole (List.mem_range.mp inWidth) (List.mem_range.mp inHeight)
  refine ⟨{
    palette := entries
    lines := (List.range desc.height.toNat).map fun y =>
      (List.range desc.width.toNat).map fun x => pixelAt desc ram x y }, ?_, fun x y => ?_⟩
  · unfold Display.compose
    rw [programmed]
    change (palette desc ram >>= _) = _
    rw [coloured]
    simp only [bind, Except.bind]
    rw [lines]
    rfl
  · unfold Frame.pixel
    dsimp only
    by_cases inHeight : y < desc.height.toNat
    · rw [List.getElem?_map, List.getElem?_range inHeight, Option.map_some, Option.bind_some]
      by_cases inWidth : x < desc.width.toNat
      · rw [List.getElem?_map, List.getElem?_range inWidth, Option.map_some,
          if_pos ⟨inWidth, inHeight⟩]
      · rw [List.getElem?_eq_none (by rw [List.length_map, List.length_range]; omega),
          if_neg fun inside => inWidth inside.1]
    · rw [List.getElem?_eq_none (by rw [List.length_map, List.length_range]; omega),
        if_neg fun inside => inHeight inside.2]
      rfl

end Composing

/-- The bytes of the display list's entry that `Descriptor` reads. -/
def InEntry (d : Display) (off : Nat) : Prop :=
  let entry := fieldOffset (displayPointer (d.roots ⟨0, Nat.zero_lt_two⟩))
  entry + 8 ≤ off ∧ off < entry + 24

theorem peek_congr {ram ram' : Ram} {off : Word} {size : Size}
    (same : ∀ i < size.bytes,
      ram'.byteAt (off + BitVec.ofNat 32 i) = ram.byteAt (off + BitVec.ofNat 32 i)) :
    ram'.peek off size = ram.peek off size := by
  unfold Ram.peek
  apply List.foldl_ext
  intro value i member
  rw [same i (List.mem_range.mp member)]

/-- A plane stays what it was while its entry's bytes do. -/
theorem descriptor_kept {d : Display} {ram ram' : Ram}
    (kept : ∀ off, InEntry d off →
      ram'.byteAt (BitVec.ofNat 32 off) = ram.byteAt (BitVec.ofNat 32 off)) :
    d.descriptor ram' = d.descriptor ram := by
  unfold Display.descriptor
  dsimp only
  by_cases absent : displayPointer (d.roots ⟨0, Nat.zero_lt_two⟩) = 0
  · rw [absent]
    rfl
  have entry := displayPointer_field absent
  have reads : ∀ (n : Nat) (size : Size), 8 ≤ n → n + size.bytes ≤ 24 →
      readRAM (displayPointer (d.roots ⟨0, Nat.zero_lt_two⟩) + BitVec.ofNat 32 n) size ram' =
        readRAM (displayPointer (d.roots ⟨0, Nat.zero_lt_two⟩) + BitVec.ofNat 32 n) size ram := by
    intro n size first last
    have below := entry.below
    have address : (displayPointer (d.roots ⟨0, Nat.zero_lt_two⟩) + BitVec.ofNat 32 n).toNat =
        0xa0000000 + (fieldOffset (displayPointer (d.roots ⟨0, Nat.zero_lt_two⟩)) + n) := by
      rw [BitVec.toNat_add, BitVec.toNat_ofNat, entry.uncached]
      omega
    have inside : fieldOffset (displayPointer (d.roots ⟨0, Nat.zero_lt_two⟩)) + n + size.bytes ≤ dramSize := by
      rw [dramSize_eq]
      omega
    rw [readRAM_eq address inside, readRAM_eq address inside]
    refine congrArg Except.ok (peek_congr fun i within => ?_)
    rw [← BitVec.ofNat_add]
    exact kept _ ⟨by omega, by omega⟩
  have height : readRAM (displayPointer (d.roots ⟨0, Nat.zero_lt_two⟩) + 0x08) .half ram' =
      readRAM (displayPointer (d.roots ⟨0, Nat.zero_lt_two⟩) + 0x08) .half ram :=
    reads 0x08 .half (by decide) (by decide)
  have width : readRAM (displayPointer (d.roots ⟨0, Nat.zero_lt_two⟩) + 0x0a) .half ram' =
      readRAM (displayPointer (d.roots ⟨0, Nat.zero_lt_two⟩) + 0x0a) .half ram :=
    reads 0x0a .half (by decide) (by decide)
  have clut : readRAM (displayPointer (d.roots ⟨0, Nat.zero_lt_two⟩) + 0x0c) .word ram' =
      readRAM (displayPointer (d.roots ⟨0, Nat.zero_lt_two⟩) + 0x0c) .word ram :=
    reads 0x0c .word (by decide) (by decide)
  have field0 : readRAM (displayPointer (d.roots ⟨0, Nat.zero_lt_two⟩) + 0x10) .word ram' =
      readRAM (displayPointer (d.roots ⟨0, Nat.zero_lt_two⟩) + 0x10) .word ram :=
    reads 0x10 .word (by decide) (by decide)
  have field1 : readRAM (displayPointer (d.roots ⟨0, Nat.zero_lt_two⟩) + 0x14) .word ram' =
      readRAM (displayPointer (d.roots ⟨0, Nat.zero_lt_two⟩) + 0x14) .word ram :=
    reads 0x14 .word (by decide) (by decide)
  rw [height, width, clut, field0, field1]

/-- The memory of the two fields does not overlap. -/
def FieldsApart (desc : Descriptor) : Prop :=
  let first := fieldOffset desc.field0
  let second := fieldOffset desc.field1
  desc.field1 = 0 ∨
    first + (desc.height.toNat + 1) / 2 * lineBytes desc ≤ second ∨
    second + desc.height.toNat / 2 * lineBytes desc ≤ first

section Apart

variable {desc : Descriptor} {x x' y y' : Nat}

theorem column_within (valid : desc.Valid)
    (whole : desc.width.toNat * desc.depth.toNat % 8 = 0) (inWidth : x < desc.width.toNat) :
    x * desc.depth.toNat / 8 < lineBytes desc := by
  unfold lineBytes
  rcases valid.depth.cases with is | is | is | is <;> rw [is] at whole ⊢ <;> omega

theorem line_unique {length row row' column column' : Nat} (inside : column < length)
    (inside' : column' < length) (same : row * length + column = row' * length + column') :
    row = row' ∧ column = column' := by
  have rows : row = row' := by
    have quotients := congrArg (· / length) same
    rw [Nat.add_comm, Nat.add_mul_div_right _ _ (by omega), Nat.div_eq_of_lt inside,
      Nat.add_comm (row' * length), Nat.add_mul_div_right _ _ (by omega),
      Nat.div_eq_of_lt inside'] at quotients
    omega
  subst rows
  exact ⟨rfl, by omega⟩

/-- A byte belongs to one line, and to one place in it. -/
theorem place_inj (valid : desc.Valid) (whole : desc.width.toNat * desc.depth.toNat % 8 = 0)
    (apart : FieldsApart desc) (inWidth : x < desc.width.toNat) (inHeight : y < desc.height.toNat)
    (inWidth' : x' < desc.width.toNat) (inHeight' : y' < desc.height.toNat)
    (same : place desc x y = place desc x' y') :
    y = y' ∧ x * desc.depth.toNat / 8 = x' * desc.depth.toNat / 8 := by
  have column := column_within valid whole inWidth
  have column' := column_within valid whole inWidth'
  unfold place linePlace at same
  by_cases single : desc.field1 = 0
  · rw [if_pos single, if_pos single] at same
    exact line_unique column column' (by omega)
  · rw [if_neg single, if_neg single] at same
    have disjoint := apart.resolve_left single
    -- A field's line ends inside the field.
    have ends : ∀ row rows c, row < rows → c < lineBytes desc →
        row * lineBytes desc + c < rows * lineBytes desc := by
      intro row rows c before inside
      have := Nat.mul_le_mul_right (lineBytes desc) before
      rw [Nat.succ_mul] at this
      omega
    by_cases odd : y % 2 = 1 <;> by_cases odd' : y' % 2 = 1
    · rw [if_pos odd, if_pos odd'] at same
      obtain ⟨rows, columns⟩ := @line_unique _ (y / 2) (y' / 2) _ _ column column' (by omega)
      exact ⟨by omega, columns⟩
    · rw [if_pos odd, if_neg odd'] at same
      have first := ends (y' / 2) ((desc.height.toNat + 1) / 2) _ (by omega) column'
      have second := ends (y / 2) (desc.height.toNat / 2) _ (by omega) column
      omega
    · rw [if_neg odd, if_pos odd'] at same
      have first := ends (y / 2) ((desc.height.toNat + 1) / 2) _ (by omega) column
      have second := ends (y' / 2) (desc.height.toNat / 2) _ (by omega) column'
      omega
    · rw [if_neg odd, if_neg odd'] at same
      obtain ⟨rows, columns⟩ := @line_unique _ (y / 2) (y' / 2) _ _ column column' (by omega)
      exact ⟨by omega, columns⟩

theorem shiftAt_fits (valid : desc.Valid) : shiftAt desc x + desc.depth.toNat ≤ 8 := by
  unfold shiftAt
  rcases valid.depth.cases with is | is | is | is <;> rw [is] <;> omega

/-- Two pixels of one byte have different bits of it. -/
theorem shiftAt_apart (valid : desc.Valid) (different : x ≠ x')
    (same : x * desc.depth.toNat / 8 = x' * desc.depth.toNat / 8) :
    shiftAt desc x' + desc.depth.toNat ≤ shiftAt desc x ∨
      shiftAt desc x + desc.depth.toNat ≤ shiftAt desc x' := by
  unfold shiftAt
  rcases valid.depth.cases with is | is | is | is <;> rw [is] at same ⊢ <;> omega

end Apart

/-- The surface a command draws on has the display's fields, depth and pitch. -/
structure SameSurface (words : Fin 15 → Word) (desc : Descriptor) : Prop where
  depth : ∃ f, format (words 0) = .ok f ∧ f.bpp = desc.depth
  interlaced : words 0 &&& 0x600000 ≠ 0 ↔ desc.field1 ≠ 0
  field0 : (words 7).toNat % 2 ^ 29 = fieldOffset desc.field0
  field1 : desc.field1 ≠ 0 → (words 8).toNat % 2 ^ 29 = fieldOffset desc.field1
  pitch : (words 11 &&& 0xffff).toNat + 1 = desc.width.toNat

/-- A fill of one pixel. -/
structure OnePixelFill (words : Fin 15 → Word) (x y : Nat) (value : Word) : Prop where
  fill : words 0 &&& 0x1000000 ≠ 0
  width : words 13 &&& 0x7ff = 0
  height : words 13 >>> 16 &&& 0x3ff = 0
  column : (words 12 &&& 0x7ff).toNat = x
  line : (words 12 >>> 16 &&& 0x3ff).toNat = y
  value : words 14 &&& 0xff = value

theorem physical_toNat (v : Word) : (Graphics.physical v).toNat = 2 ^ 31 + v.toNat % 2 ^ 29 := by
  unfold Graphics.physical
  rw [BitVec.toNat_or, BitVec.toNat_and]
  change v.toNat &&& (2 ^ 29 - 1) ||| 2 ^ 31 = _
  have low : v.toNat % 2 ^ 29 < 2 ^ 31 := Nat.lt_trans (Nat.mod_lt _ (by decide)) (by decide)
  rw [Nat.and_two_pow_sub_one_eq_mod, Nat.or_comm]
  exact (Nat.two_pow_add_eq_or_of_lt low 1).symm

section Filled

variable {desc : Descriptor} {words : Fin 15 → Word} {f : PixelFormat} {x y : Nat}

/-- The blitter's row is the display's line. -/
theorem rowAddress_toNat (valid : desc.Valid) (surface : SameSurface words desc)
    (deep : f.bpp = desc.depth) (inHeight : y < desc.height.toNat) :
    (rowAddress (side words 7) (BitVec.ofNat 32 y) (words 0 &&& 0x600000 != 0) false f).toNat =
      2 ^ 31 + linePlace desc y := by
  have bound := linePlace_lt valid inHeight
  obtain ⟨_, mostLines⟩ := valid.height
  obtain ⟨_, most⟩ := valid.width
  have small : (BitVec.ofNat 32 y).toNat = y := by
    rw [BitVec.toNat_ofNat]
    omega
  have pitch : (side words 7).pitchPx.toNat = desc.width.toNat := by
    rw [← surface.pitch] at most ⊢
    change ((words 11 &&& 0xffff) + 1).toNat = _
    rw [BitVec.toNat_add]
    change (_ + 1) % 2 ^ 32 = _
    omega
  have bytes : (((side words 7).pitchPx * f.bpp) >>> 3).toNat = lineBytes desc := by
    rw [BitVec.toNat_ushiftRight, BitVec.toNat_mul, pitch, deep, Nat.shiftRight_eq_div_pow]
    change _ % 2 ^ 32 / 8 = _
    unfold lineBytes
    rcases valid.depth.cases with is | is | is | is <;> rw [is] <;> omega
  have first : (side words 7).f0.toNat = 2 ^ 31 + fieldOffset desc.field0 := by
    rw [← surface.field0]
    exact physical_toNat (words 7)
  have low : (BitVec.ofNat 32 y &&& 1).toNat = y % 2 := by
    rw [BitVec.toNat_and, small]
    exact Nat.and_two_pow_sub_one_eq_mod y 1
  have half : (BitVec.ofNat 32 y >>> 1).toNat = y / 2 := by
    rw [BitVec.toNat_ushiftRight, small]
    rfl
  unfold rowAddress
  dsimp only
  unfold linePlace at bound ⊢
  by_cases single : desc.field1 = 0
  · have plain : words 0 &&& 0x600000 = 0 := by
      by_contra interlaced
      exact surface.interlaced.mp interlaced single
    rw [if_pos single] at bound ⊢
    simp only [plain, bne_self_eq_false, Bool.false_and, Bool.false_eq_true, if_false]
    rw [BitVec.toNat_add, BitVec.toNat_mul, bytes, small, first]
    omega
  · have interlaced : (words 0 &&& 0x600000 != 0) = true :=
      bne_iff_ne.mpr (surface.interlaced.mpr single)
    have second : (side words 7).f1.toNat = 2 ^ 31 + fieldOffset desc.field1 := by
      rw [← surface.field1 single]
      exact physical_toNat (words 8)
    rw [if_neg single] at bound ⊢
    simp only [interlaced, Bool.true_and, Bool.false_and, Bool.false_eq_true, if_false, if_true]
    rw [BitVec.toNat_add, BitVec.toNat_mul, bytes, half]
    by_cases odd : y % 2 = 1
    · have isOdd : (BitVec.ofNat 32 y &&& 1 != 0) = true := by
        rw [bne_iff_ne, ne_eq, ← BitVec.toNat_inj, low, odd]
        decide
      rw [if_pos odd] at bound ⊢
      rw [if_pos isOdd, second]
      omega
    · have isEven : ¬(BitVec.ofNat 32 y &&& 1 != 0) = true := by
        rw [bne_iff_ne, not_not, ← BitVec.toNat_inj, low]
        change y % 2 = 0
        omega
      rw [if_neg odd] at bound ⊢
      rw [if_neg isEven, first]
      omega

/-- A fill of one pixel changes its bits in the byte where the display reads it. -/
theorem fill_pixel {ram : Ram} {value : Word} (valid : desc.Valid)
    (surface : SameSurface words desc) (one : OnePixelFill words x y value)
    (inWidth : x < desc.width.toNat) (inHeight : y < desc.height.toNat) :
    ∃ ram', executeRegisters words ram = .ok () ram' ∧ ∀ a, ram'.byteAt a =
      if a = BitVec.ofNat 32 (place desc x y) then
        drawn desc.depth.toNat (shiftAt desc x) value (ram.byteAt a)
      else ram.byteAt a := by
  obtain ⟨f, formatted, deep⟩ := surface.depth
  have bound := linePlace_lt valid inHeight
  have column := column_lt valid inWidth
  obtain ⟨_, most⟩ := valid.width
  obtain ⟨_, mostLines⟩ := valid.height
  have here : (side words 7).x = BitVec.ofNat 32 x := by
    apply BitVec.eq_of_toNat_eq
    rw [BitVec.toNat_ofNat, ← one.column, Nat.mod_eq_of_lt (BitVec.isLt _)]
    rfl
  have there : (side words 7).y = BitVec.ofNat 32 y := by
    apply BitVec.eq_of_toNat_eq
    rw [BitVec.toNat_ofNat, ← one.line, Nat.mod_eq_of_lt (BitVec.isLt _)]
    rfl
  have small : (BitVec.ofNat 32 x).toNat = x := by
    rw [BitVec.toNat_ofNat]
    omega
  have within : (BitVec.ofNat 32 (place desc x y)).toNat = place desc x y := by
    unfold place
    rw [BitVec.toNat_ofNat]
    omega
  have reached : rowAddress (side words 7) (BitVec.ofNat 32 y) (words 0 &&& 0x600000 != 0) false f +
      BitVec.ofNat 32 x * f.bpp / 8 = dramBase + BitVec.ofNat 32 (place desc x y) := by
    apply BitVec.eq_of_toNat_eq
    have bytes : (BitVec.ofNat 32 x * f.bpp / 8).toNat = x * desc.depth.toNat / 8 := by
      rw [BitVec.toNat_udiv, BitVec.toNat_mul, small, deep]
      change _ % 2 ^ 32 / 8 = _
      rcases valid.depth.cases with is | is | is | is <;> rw [is] <;> omega
    rw [BitVec.toNat_add, BitVec.toNat_add, rowAddress_toNat valid surface deep inHeight,
      bytes, within]
    change _ = (2 ^ 31 + _) % 2 ^ 32
    unfold place
    omega
  have inside : (BitVec.ofNat 32 (place desc x y)).toNat < dramSize := by
    rw [within, dramSize_eq]
    unfold place
    omega
  have indexed : Indexed f.bpp := deep ▸ valid.depth
  obtain ⟨ram', put_, bytes⟩ := @put_indexed ram _ _ _ _ indexed (by omega) reached inside value
  refine ⟨ram', ?_, fun a => ?_⟩
  · have notHalf : f.bpp ≠ 16 := by
      intro half
      rw [half] at indexed
      exact absurd indexed (by unfold Indexed; decide)
    unfold executeRegisters
    rw [formatted]
    dsimp only
    rw [if_pos (bne_iff_ne.mpr one.fill), if_neg notHalf, one.value, one.width, one.height]
    unfold fill
    have single : List.range ((0 : Word).toNat + 1) = [0] := rfl
    have origin : ∀ w : Word, w + BitVec.ofNat 32 0 = w := BitVec.add_zero
    simp only [single, List.forM, origin, here, there, bind, EStateM.bind, put_]
    rfl
  · have shift : pixelShift (BitVec.ofNat 32 x) f.bpp = shiftAt desc x := by
      rw [pixelShift_eq indexed (by omega), small, deep]
      rfl
    rw [bytes a, shift, deep]
    by_cases same : a = BitVec.ofNat 32 (place desc x y)
    · rw [if_pos same, if_pos same, same]
    · rw [if_neg same, if_neg same]

end Filled

/-- A fill of one pixel of the display shows there and nowhere else, unless the pixel lies in
the display list's own entry. -/
theorem pixel_filled {d : Display} {desc : Descriptor} {ram : Ram} {words : Fin 15 → Word}
    {x y : Nat} {value : Word} (programmed : d.descriptor ram = .ok (some desc))
    (whole : desc.width.toNat * desc.depth.toNat % 8 = 0) (apart : FieldsApart desc)
    (surface : SameSurface words desc) (one : OnePixelFill words x y value)
    (inWidth : x < desc.width.toNat) (inHeight : y < desc.height.toNat)
    (below : value.toNat < 2 ^ desc.depth.toNat) (outside : ¬InEntry d (place desc x y)) :
    ∃ before ram' after, d.compose ram = .ok before ∧ executeRegisters words ram = .ok () ram' ∧
      d.compose ram' = .ok after ∧ after.pixel x y = some (value.setWidth 8) ∧
      ∀ x' y', (x', y') ≠ (x, y) → after.pixel x' y' = before.pixel x' y' := by
  have valid := descriptor_valid programmed
  have offset : ∀ {x y off}, x < desc.width.toNat → y < desc.height.toNat → off < 2 ^ 32 →
      BitVec.ofNat 32 off = BitVec.ofNat 32 (place desc x y) → off = place desc x y := by
    intro x y off inWidth inHeight small same
    have bound := linePlace_lt valid inHeight
    have column := column_lt valid inWidth
    have values := congrArg BitVec.toNat same
    unfold place at values ⊢
    rw [BitVec.toNat_ofNat, BitVec.toNat_ofNat] at values
    omega
  obtain ⟨before, composed, pixels⟩ := compose_pixel programmed whole
  obtain ⟨ram', filled, bytes⟩ :=
    @fill_pixel desc words x y ram value valid surface one inWidth inHeight
  have kept : d.descriptor ram' = .ok (some desc) := by
    rw [descriptor_kept, programmed]
    intro off inEntry
    have entry := (displayPointer_cases (d.roots ⟨0, Nat.zero_lt_two⟩))
    have small : off < 2 ^ 32 := by
      have bound : fieldOffset (displayPointer (d.roots ⟨0, Nat.zero_lt_two⟩)) < 2 ^ 29 := Nat.mod_lt _ (by decide)
      unfold InEntry at inEntry
      omega
    rw [bytes, if_neg]
    intro same
    exact outside (offset inWidth inHeight small same ▸ inEntry)
  obtain ⟨after, composed', pixels'⟩ := compose_pixel kept whole
  refine ⟨before, ram', after, composed, filled, composed', ?_, fun x' y' other => ?_⟩
  · rw [pixels', if_pos ⟨inWidth, inHeight⟩]
    unfold pixelAt
    rw [bytes, if_pos rfl, pixelOf_drawn (shiftAt_fits valid) below]
  · rw [pixels', pixels]
    by_cases inside : x' < desc.width.toNat ∧ y' < desc.height.toNat
    · obtain ⟨inWidth', inHeight'⟩ := inside
      rw [if_pos ⟨inWidth', inHeight'⟩, if_pos ⟨inWidth', inHeight'⟩]
      refine congrArg some ?_
      unfold pixelAt
      rw [bytes]
      have small : place desc x' y' < 2 ^ 32 := by
        have bound := linePlace_lt valid inHeight'
        have column := column_lt valid inWidth'
        unfold place
        omega
      by_cases same : BitVec.ofNat 32 (place desc x' y') = BitVec.ofNat 32 (place desc x y)
      · -- A pixel of the same byte is of the same line, and its bits are others.
        rw [if_pos same]
        obtain ⟨lines, columns⟩ := place_inj valid whole apart inWidth' inHeight' inWidth inHeight
          (offset inWidth inHeight small same)
        have different : x ≠ x' := fun eq => other (by rw [eq, lines])
        rw [pixelOf_drawn_apart (shiftAt_fits valid) (shiftAt_apart valid different columns.symm)]
      · rw [if_neg same]
    · rw [if_neg inside, if_neg inside]

/-- A picture of eight by two pixels of one bit, with its entry at 0x100 and its lines behind
it. -/
def smallPicture (line : Byte) : Ram where
  bytes a := [0, 1, 0, 7, 0, 0, 0, 0, 0, 0, 1, line, 0, 0, 0, 0].getD (a.toNat - 0x108) 0

def smallDisplay : Display :=
  { roots := fun _ => 0x01000100 }

def smallDescriptor (line : Byte) : Descriptor where
  width := 8
  height := 2
  depth := 1
  field0 := 0xa0000100 ||| line.setWidth 32
  field1 := 0
  clut := 0

/-- A fill of one pixel of that picture. -/
def smallFill (line : Byte) (x y : Word) (i : Fin 15) : Word :=
  [0x01000000, 0, 0, 0, 0, 0, 0, 0x00000100 ||| line.setWidth 32, 0, 0, 0, 7, y <<< 16 ||| x, 0,
    1].getD i 0

theorem smallFill_surface (line : Byte) (x y : Word) :
    SameSurface (smallFill line x y) (smallDescriptor line) where
  depth := ⟨{ bpp := 1 }, by change format 0x01000000 = _; rfl, rfl⟩
  interlaced := by
    change (0x01000000 : Word) &&& 0x600000 ≠ 0 ↔ (0 : Word) ≠ 0
    decide
  field0 := by
    change (0x100 ||| line.setWidth 32 : Word).toNat % 2 ^ 29 =
      (0xa0000100 ||| line.setWidth 32 : Word).toNat % 2 ^ 29
    revert line
    decide
  field1 interlaced := absurd rfl interlaced
  pitch := by
    change ((7 : Word) &&& 0xffff).toNat + 1 = (8 : Word).toNat
    decide

theorem pixel_filled_small :
    ∃ before ram' after, smallDisplay.compose (smallPicture 0x80) = .ok before ∧
      executeRegisters (smallFill 0x80 3 1) (smallPicture 0x80) = .ok () ram' ∧
      smallDisplay.compose ram' = .ok after ∧ after.pixel 3 1 = some 1 ∧
      ∀ x' y', (x', y') ≠ (3, 1) → after.pixel x' y' = before.pixel x' y' := by
  apply @pixel_filled smallDisplay (smallDescriptor 0x80) (smallPicture 0x80) (smallFill 0x80 3 1)
    3 1 1
  · rfl
  · decide
  · exact .inl rfl
  · exact smallFill_surface 0x80 3 1
  · exact {
      fill := by decide
      width := by decide
      height := by decide
      column := by decide
      line := by decide
      value := by decide }
  · decide
  · decide
  · decide
  · unfold InEntry
    decide

/-- Lines that start at the entry's own height: a pixel drawn there changes the height. -/
theorem entry_overdrawn :
    ¬∀ (d : Display) (desc : Descriptor) (ram : Ram) (words : Fin 15 → Word) (x y : Nat)
      (value : Word), d.descriptor ram = .ok (some desc) →
      desc.width.toNat * desc.depth.toNat % 8 = 0 → FieldsApart desc → SameSurface words desc →
      OnePixelFill words x y value → x < desc.width.toNat → y < desc.height.toNat →
      value.toNat < 2 ^ desc.depth.toNat →
      ∃ before ram' after, d.compose ram = .ok before ∧ executeRegisters words ram = .ok () ram' ∧
        d.compose ram' = .ok after ∧ after.pixel x y = some (value.setWidth 8) ∧
        ∀ x' y', (x', y') ≠ (x, y) → after.pixel x' y' = before.pixel x' y' := by
  intro always
  obtain ⟨_, ram', after, _, filled, composed, _⟩ := always smallDisplay (smallDescriptor 0x08)
    (smallPicture 0x08) (smallFill 0x08 0 0) 0 0 1 rfl (by decide) (.inl rfl)
    (smallFill_surface 0x08 0 0)
    { fill := by decide
      width := by decide
      height := by decide
      column := by decide
      line := by decide
      value := by decide } (by decide) (by decide) (by decide)
  have refused : (match executeRegisters (smallFill 0x08 0 0) (smallPicture 0x08) with
      | .ok _ ram' => (smallDisplay.compose ram').toOption.isNone
      | .error _ _ => false) = true := rfl
  rw [filled] at refused
  dsimp only at refused
  rw [composed] at refused
  cases refused

end Osd

end GoRetroTv
