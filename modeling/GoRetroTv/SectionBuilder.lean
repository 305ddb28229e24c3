import GoRetroTv.FallibleActions
import GoRetroTv.MpegCrc

/-!
# Sections

`internal/broadcast/sections.go` builds sections and the demux's
`validateSection` checks them.  What every builder shares is here: the header
with its twelve-bit length, the CRC behind it, and the packing of a table into
numbered sections.
-/

namespace GoRetroTv

open Dvb (mpegCRC32)

namespace Demux

def ringSize : Nat :=
  0x3000

/-- A byte of a section.  The source reads only inside it. -/
def byteAt (section_ : List Byte) (i : Nat) : Byte :=
  section_[i]?.getD 0

/-- The declared length, as `validateSection` reads it. -/
def declaredLength (section_ : List Byte) : Nat :=
  (byteAt section_ 1 &&& 0x0f#8).toNat <<< 8 ||| (byteAt section_ 2).toNat

def validateSection (section_ : List Byte) : Except String Unit :=
  if section_.length < 3 ∨ ringSize < section_.length + 1 then
    .error s!"demux: invalid section size {section_.length}"
  else if declaredLength section_ + 3 ≠ section_.length then
    .error s!"demux: section length {declaredLength section_} differs from {section_.length} bytes"
  else if (byteAt section_ 1 &&& 0x80#8 ≠ 0 ∨ byteAt section_ 0 = 0x73) ∧
      (section_.length < 7 ∨ mpegCRC32 section_ ≠ 0) then
    .error "demux: invalid MPEG section CRC"
  else .ok ()

end Demux

namespace Broadcast

def maxSectionLength : Nat :=
  1021

/-- `byte(n)`. -/
def low (n : Nat) : Byte :=
  BitVec.ofNat 8 n

/-- A twelve-bit length below its flags: `flags|byte(n>>8), byte(n)`. -/
def lengthBytes (flags : Byte) (n : Nat) : List Byte :=
  [flags ||| low (n >>> 8), low n]

def appendU16 (dst : List Byte) (value : Half) : List Byte :=
  dst ++ bigEndian 2 value.toNat

def withCRC (section_ : List Byte) : List Byte :=
  section_ ++ bigEndian 4 (mpegCRC32 section_).toNat

/-- `ascii`: the bytes of a string, all of them printable. -/
def asciiText (s : List Byte) : Except String (List Byte) :=
  match s.findIdx? fun c => decide (c < 0x20 ∨ 0x7e < c) with
  | some i => .error s!"non-ASCII printable byte at {i}"
  | none => .ok s

/-- An error with its context in front, as `fmt.Errorf` wraps it. -/
def wrap {α : Type} (context : String) (result : Except String α) : Except String α :=
  result.mapError fun error => context ++ error

def numberedSection (table : Byte) (extension : Half) (version sectionNumber lastSectionNumber : Byte)
    (payload : List Byte) : Except String (List Byte) :=
  if 31 < version then .error "broadcast: version exceeds five bits"
  else if lastSectionNumber < sectionNumber then
    .error s!"broadcast: section {sectionNumber.toNat} of a table whose last is {lastSectionNumber.toNat}"
  else
    let length := 5 + payload.length + 4
    if maxSectionLength < length then
      .error s!"broadcast: section length {length} exceeds {maxSectionLength}"
    else
      let section_ := table :: lengthBytes 0xb0 length
      let section_ := appendU16 section_ extension
      let section_ := section_ ++ [0xc1 ||| version <<< 1, sectionNumber, lastSectionNumber]
      .ok (withCRC (section_ ++ payload))

def longSection (table : Byte) (extension : Half) (version : Byte) (payload : List Byte) :
    Except String (List Byte) :=
  numberedSection table extension version 0 0 payload

/-- `section[6], section[7] = ...` and a new CRC, as the index and the
present/following builders number their sections. -/
def renumber (sectionNumber lastSectionNumber : Byte) (section_ : List Byte) : List Byte :=
  let section_ := (section_.set 6 sectionNumber).set 7 lastSectionNumber
  withCRC (section_.take (section_.length - 4))

/-- How many payload bytes one section has room for. -/
def sectionPayloadBudget : Nat :=
  maxSectionLength - 5 - 4

/-- The groups of `packSections` so far, with the one that is being filled. -/
structure Packing where
  groups : List (List (List Byte)) := []
  current : List (List Byte) := []
  size : Nat

/-- The loop of `packSections`, from item `i`. -/
def packItems (head : Nat) :
    Nat → List (Except String (List Byte)) → Packing → Except String Packing
  | _, [], packing => .ok packing
  | i, item :: items, packing => do
      let body ← item
      if sectionPayloadBudget < head + body.length then
        throw (s!"broadcast: item {i} needs {head + body.length} payload bytes and a section holds " ++
          s!"{sectionPayloadBudget}, so it cannot be carried at all")
      let packing :=
        if 0 < packing.current.length ∧ sectionPayloadBudget < packing.size + body.length then
          { groups := packing.groups ++ [packing.current], current := [], size := head }
        else packing
      packItems head (i + 1) items
        { packing with current := packing.current ++ [body], size := packing.size + body.length }

def packSections (head : Nat) (items : List (Except String (List Byte))) :
    Except String (List (List (List Byte))) := do
  let packing ← packItems head 0 items { size := head }
  let groups := packing.groups ++ [packing.current]
  if 256 < groups.length then
    throw s!"broadcast: {groups.length} sections exceeds the 256 a table can number"
  return groups

section

variable {α β : Type}

theorem wrap_ok {context : String} {result : Except String α} {value : α}
    (succeeded : wrap context result = .ok value) : result = .ok value := by
  cases result with
  | error error => cases succeeded
  | ok _ => exact succeeded

/-- A loop over items that all succeed. -/
theorem mapM_ok {item : α → Except String β} {items : List α} {results : List β}
    (succeeded : items.mapM item = .ok results) :
    List.Forall₂ (fun first second => item first = .ok second) items results := by
  induction items generalizing results with
  | nil =>
      cases succeeded
      exact .nil
  | cons first items ih =>
      rw [List.mapM_cons] at succeeded
      obtain ⟨second, isSecond, succeeded⟩ := bind_eq_ok.mp succeeded
      obtain ⟨rest, isRest, succeeded⟩ := bind_eq_ok.mp succeeded
      cases succeeded
      exact .cons isSecond (ih isRest)

end

/-- A section whose length field is right and which the demux takes. -/
structure Accepted (section_ : List Byte) : Prop where
  length : Demux.declaredLength section_ + 3 = section_.length
  short : section_.length ≤ 1024
  valid : Demux.validateSection section_ = .ok ()

/-- An accepted section with a CRC behind it. -/
structure Checked (section_ : List Byte) : Prop extends Accepted section_ where
  trailer : ∃ body, section_ = withCRC body
  crc : mpegCRC32 section_ = 0

theorem halfword {n : Nat} (fits : n < 65536) :
    (BitVec.ofNat 8 (n / 256)).toNat * 256 + (BitVec.ofNat 8 n).toNat = n := by
  rw [BitVec.toNat_ofNat, BitVec.toNat_ofNat]
  omega

theorem lengthBytes_declared {flags : Byte} (flagged : flags &&& 0x0f#8 = 0#8) {n : Nat}
    (fits : n < 4096) :
    ((flags ||| low (n >>> 8)) &&& 0x0f#8).toNat <<< 8 ||| (low n).toNat = n := by
  have high : ((flags ||| low (n >>> 8)) &&& 0x0f#8).toNat = n >>> 8 := by
    have small : n >>> 8 < 16 := by
      rw [Nat.shiftRight_eq_div_pow]
      omega
    rw [BitVec.and_or_distrib_right, flagged, BitVec.zero_or, BitVec.toNat_and, low,
      BitVec.toNat_ofNat, Nat.mod_eq_of_lt (by omega)]
    exact (Nat.and_two_pow_sub_one_eq_mod _ 4).trans (Nat.mod_eq_of_lt small)
  have lowByte : (low n).toNat = n % 2 ^ 8 := BitVec.toNat_ofNat n 8
  rw [high, lowByte, ← Nat.shiftLeft_add_eq_or_of_lt (Nat.mod_lt _ (by decide)),
    Nat.shiftLeft_eq, Nat.shiftRight_eq_div_pow]
  omega

/-- A header with the right length, and a CRC. -/
theorem checked_withCRC (table : Byte) {flags : Byte} (flagged : flags &&& 0x0f#8 = 0#8)
    (body : List Byte) {n : Nat} (isLength : n = body.length + 4) (fits : n ≤ maxSectionLength) :
    Checked (withCRC (table :: lengthBytes flags n ++ body)) := by
  unfold maxSectionLength at fits
  have size : (withCRC (table :: lengthBytes flags n ++ body)).length = n + 3 := by
    simp only [withCRC, lengthBytes, List.length_append, List.length_cons, List.length_nil,
      bigEndian_length]
    omega
  have declared : Demux.declaredLength (withCRC (table :: lengthBytes flags n ++ body)) = n :=
    lengthBytes_declared flagged (by omega)
  have crc : mpegCRC32 (withCRC (table :: lengthBytes flags n ++ body)) = 0 :=
    Dvb.mpegCRC32_append _
  refine { length := ?_, short := ?_, valid := ?_, trailer := ⟨_, rfl⟩, crc }
  · rw [declared, size]
  · omega
  · unfold Demux.validateSection
    rw [if_neg (by rw [size]; unfold Demux.ringSize; omega), if_neg (by rw [declared, size]; omega),
      if_neg (by rw [size, crc]; simp; omega)]

/-- What a long section holds. -/
theorem numberedSection_ok {table : Byte} {extension : Half}
    {version sectionNumber lastSectionNumber : Byte} {payload section_ : List Byte}
    (built : numberedSection table extension version sectionNumber lastSectionNumber payload =
      .ok section_) :
    payload.length + 9 ≤ maxSectionLength ∧
      section_ = withCRC (table :: lengthBytes 0xb0 (payload.length + 9) ++
        (bigEndian 2 extension.toNat ++
          ([0xc1 ||| version <<< 1, sectionNumber, lastSectionNumber] ++ payload))) := by
  have length : 5 + payload.length + 4 = payload.length + 9 := by omega
  unfold numberedSection at built
  split at built
  · cases built
  · split at built
    · cases built
    · dsimp only at built
      split at built
      · cases built
      next fits =>
        cases built
        rw [length] at fits ⊢
        rw [appendU16, List.append_assoc, List.append_assoc]
        exact ⟨not_lt.mp fits, rfl⟩

/-- Long sections are accepted. -/
theorem numberedSection_checked {table : Byte} {extension : Half}
    {version sectionNumber lastSectionNumber : Byte} {payload section_ : List Byte}
    (built : numberedSection table extension version sectionNumber lastSectionNumber payload =
      .ok section_) : Checked section_ := by
  obtain ⟨fits, rfl⟩ := numberedSection_ok built
  exact checked_withCRC table (by decide) _ (by simp; omega) fits

theorem renumber_withCRC (sectionNumber lastSectionNumber : Byte) {body : List Byte}
    (long : 8 ≤ body.length) :
    renumber sectionNumber lastSectionNumber (withCRC body) =
      withCRC ((body.set 6 sectionNumber).set 7 lastSectionNumber) := by
  have moved : ((withCRC body).set 6 sectionNumber).set 7 lastSectionNumber =
      (body.set 6 sectionNumber).set 7 lastSectionNumber ++
        bigEndian 4 (mpegCRC32 body).toNat := by
    rw [withCRC, List.set_append_left _ _ (by omega),
      List.set_append_left _ _ (by rw [List.length_set]; omega)]
  unfold renumber
  dsimp only
  rw [moved, List.length_append, bigEndian_length, Nat.add_sub_cancel, List.take_left]

/-- Long sections are accepted under whatever numbers they are given. -/
theorem renumber_checked {table : Byte} {extension : Half}
    {version sectionNumber lastSectionNumber : Byte} {payload section_ : List Byte}
    (built : longSection table extension version payload = .ok section_) :
    Checked (renumber sectionNumber lastSectionNumber section_) := by
  obtain ⟨fits, rfl⟩ := numberedSection_ok built
  rw [renumber_withCRC _ _ (by simp [lengthBytes]; omega)]
  have moved (rest : List Byte) :
      ((table :: lengthBytes 0xb0 (payload.length + 9) ++ rest).set 6 sectionNumber).set 7
          lastSectionNumber =
        table :: lengthBytes 0xb0 (payload.length + 9) ++
          (rest.set 3 sectionNumber).set 4 lastSectionNumber := rfl
  rw [moved]
  exact checked_withCRC table (by decide) _ (by simp; omega) fits

end Broadcast

end GoRetroTv
