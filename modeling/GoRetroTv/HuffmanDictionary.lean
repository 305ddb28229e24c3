import GoRetroTv.PrefixTree
import GoRetroTv.TextFields
import Mathlib.Data.List.Sort

/-!
# The Huffman dictionary

`internal/broadcast/huffman.go`: the code table of the programme guide, an
encoder for it, and the decoder the encoder is checked against.  Codes are
strings of the characters 0 and 1, as the table spells them.
-/

namespace GoRetroTv

open Snapcodec (quoted)

namespace Huffman

/-- The characters `'0'` and `'1'`. -/
def zero : Byte := 0x30

def one : Byte := 0x31

def IsDigit (c : Byte) : Prop :=
  c = zero ∨ c = one

instance (c : Byte) : Decidable (IsDigit c) :=
  inferInstanceAs (Decidable (_ ∨ _))

end Huffman

open Huffman

/-- One loaded code table.  The map of codes is listed in the order a loop over
it happens to take. -/
structure HuffmanDictionary where
  codes : List (List Byte × List Byte)
  terminator : List Byte
  lengths : List Nat
  positive : ∀ n ∈ lengths, 0 < n
  valued : ∀ entry ∈ codes, entry.1 ≠ []
  coded : ∀ entry ∈ codes, entry.2 ≠ [] ∧ ∀ c ∈ entry.2, IsDigit c
  terminated : terminator ≠ [] ∧ ∀ c ∈ terminator, IsDigit c

namespace Huffman

def splitDictionaryLine (text : List Byte) : List Byte × List Byte × Bool :=
  if 2 ≤ text.length ∧ text[1]? = some 0x3d then (text.take 1, text.drop 2, true)
  else Strings.cut text 0x3d

/-- A table while it is read. -/
structure Table where
  codes : List (List Byte × List Byte) := []
  terminator : List Byte := []
  lengths : List Nat := []

/-- One line of the file. -/
def readLine (dict : Table) (line : List Byte) : Table :=
  let line := Strings.trimRight line [0x0d]
  let (value, bits, found) := splitDictionaryLine line
  if found = false ∨ bits = [] ∨ Strings.trim bits [zero, one] ≠ [] then dict
  else if value = [] then
    if dict.terminator = [] ∨ bits.length < dict.terminator.length then
      { dict with terminator := bits }
    else dict
  else if (dict.codes.lookup value).any fun existing => existing.length ≤ bits.length then dict
  else
    { dict with
      codes := (value, bits) :: dict.codes.filter fun entry => entry.1 ≠ value
      lengths := if value.length ∈ dict.lengths then dict.lengths
        else dict.lengths ++ [value.length] }

/-- What a table holds whatever lines it has read. -/
structure Table.Valid (dict : Table) : Prop where
  positive : ∀ n ∈ dict.lengths, 0 < n
  valued : ∀ entry ∈ dict.codes, entry.1 ≠ []
  coded : ∀ entry ∈ dict.codes, entry.2 ≠ [] ∧ ∀ c ∈ entry.2, IsDigit c
  digits : ∀ c ∈ dict.terminator, IsDigit c

theorem digits_of_trim {bits : List Byte} (trimmed : Strings.trim bits [zero, one] = []) :
    ∀ c ∈ bits, IsDigit c := by
  unfold Strings.trim Strings.trimRight at trimmed
  rw [List.rdropWhile_eq_nil_iff] at trimmed
  have allDropped : bits.dropWhile (fun c => decide (c ∈ [zero, one])) = [] := by
    by_contra left
    have head := List.dropWhile_get_zero_not (fun c => decide (c ∈ [zero, one])) bits
      (List.length_pos_iff.mpr left)
    exact head (trimmed _ (List.get_mem _ _))
  rw [List.dropWhile_eq_nil_iff] at allDropped
  intro c member
  simpa [IsDigit] using allDropped c member

theorem readLine_valid {dict : Table} (valid : dict.Valid) (line : List Byte) :
    (readLine dict line).Valid := by
  unfold readLine
  generalize splitDictionaryLine (Strings.trimRight line [0x0d]) = split
  obtain ⟨value, bits, found⟩ := split
  dsimp only
  split
  · exact valid
  next usable =>
    simp only [not_or, not_not] at usable
    obtain ⟨_, nonempty, trimmed⟩ := usable
    have digits := digits_of_trim trimmed
    split
    · split
      · exact { valid with digits }
      · exact valid
    next hasValue =>
      split
      · exact valid
      · refine { valid with positive := ?_, valued := ?_, coded := ?_ }
        · intro n member
          dsimp only at member
          split at member
          · exact valid.positive n member
          · rcases List.mem_append.mp member with before | new
            · exact valid.positive n before
            · rw [List.mem_singleton.mp new]
              exact List.length_pos_iff.mpr hasValue
        · intro entry member
          rcases List.mem_cons.mp member with rfl | before
          · exact hasValue
          · exact valid.valued entry (List.mem_of_mem_filter before)
        · intro entry member
          rcases List.mem_cons.mp member with rfl | before
          · exact ⟨nonempty, digits⟩
          · exact valid.coded entry (List.mem_of_mem_filter before)

theorem foldl_readLine_valid {dict : Table} (valid : dict.Valid) (lines : List (List Byte)) :
    (lines.foldl readLine dict).Valid := by
  induction lines generalizing dict with
  | nil => exact valid
  | cons line lines ih => exact ih (readLine_valid valid line)

theorem empty_valid : ({} : Table).Valid where
  positive := by simp
  valued := by simp
  coded := by simp
  digits := by simp

end Huffman

/-- `LoadHuffmanDictionary`, from the lines of the file. -/
def loadHuffmanDictionary (path : String) (lines : List (List Byte)) :
    Except String HuffmanDictionary :=
  let dict := lines.foldl readLine {}
  have valid : dict.Valid := foldl_readLine_valid empty_valid lines
  if isTerminated : dict.terminator = [] then
    .error s!"broadcast: huffman dictionary {path} has no terminator entry; refusing to guess one"
  else if dict.codes = [] then
    .error s!"broadcast: huffman dictionary {path} is empty"
  else
    .ok {
      codes := dict.codes
      terminator := dict.terminator
      lengths := dict.lengths.insertionSort (· ≥ ·)
      positive := fun n member => valid.positive n ((List.mem_insertionSort _).mp member)
      valued := valid.valued
      coded := valid.coded
      terminated := ⟨isTerminated, valid.digits⟩ }

end GoRetroTv
