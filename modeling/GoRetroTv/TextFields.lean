import GoRetroTv.NumberText
import Mathlib.Data.List.DropRight

/-!
# Fields and lines of text

What Go's `strings` and `bufio` do to the bytes of a text: the white space of Unicode
separates fields, and line feeds end lines.
-/

namespace GoRetroTv

namespace Strings

/-- The bytes of the white space that a text begins with: none where it begins otherwise. -/
def spaceLength : List Byte → Nat
  | 0x09 :: _ | 0x0a :: _ | 0x0b :: _ | 0x0c :: _ | 0x0d :: _ | 0x20 :: _ => 1
  | 0xc2 :: 0x85 :: _ | 0xc2 :: 0xa0 :: _ => 2
  | 0xe1 :: 0x9a :: 0x80 :: _ | 0xe2 :: 0x81 :: 0x9f :: _ | 0xe3 :: 0x80 :: 0x80 :: _ => 3
  | 0xe2 :: 0x80 :: last :: _ =>
      if (0x80 ≤ last ∧ last ≤ 0x8a) ∨ last = 0xa8 ∨ last = 0xa9 ∨ last = 0xaf then 3 else 0
  | _ => 0

/-- The bytes of the white space that a text ends with, the text given backwards. -/
def spaceLengthBack : List Byte → Nat
  | 0x09 :: _ | 0x0a :: _ | 0x0b :: _ | 0x0c :: _ | 0x0d :: _ | 0x20 :: _ => 1
  | 0x85 :: 0xc2 :: _ | 0xa0 :: 0xc2 :: _ => 2
  | 0x80 :: 0x9a :: 0xe1 :: _ | 0x9f :: 0x81 :: 0xe2 :: _ | 0x80 :: 0x80 :: 0xe3 :: _ => 3
  | last :: 0x80 :: 0xe2 :: _ =>
      if (0x80 ≤ last ∧ last ≤ 0x8a) ∨ last = 0xa8 ∨ last = 0xa9 ∨ last = 0xaf then 3 else 0
  | _ => 0

/-- The fields of a text behind the first bytes of one; `skip` bytes belong to the white
space before. -/
def fieldsFrom : Nat → List Byte → List Byte → List (List Byte)
  | _, field, [] => if field = [] then [] else [field]
  | skip + 1, field, _ :: bytes => fieldsFrom skip field bytes
  | 0, field, byte :: bytes =>
      match spaceLength (byte :: bytes) with
      | 0 => fieldsFrom 0 (field ++ [byte]) bytes
      | rest + 1 => (if field = [] then [] else [field]) ++ fieldsFrom rest [] bytes

/-- `Fields`. -/
def fields (s : List Byte) : List (List Byte) :=
  fieldsFrom 0 [] s

/-- A text without the white space at its start, as `spaceLength` finds it. -/
def trimWith (spaceLength : List Byte → Nat) : Nat → List Byte → List Byte
  | _, [] => []
  | skip + 1, _ :: bytes => trimWith spaceLength skip bytes
  | 0, byte :: bytes =>
      match spaceLength (byte :: bytes) with
      | 0 => byte :: bytes
      | rest + 1 => trimWith spaceLength rest bytes

/-- `TrimSpace`. -/
def trimSpace (s : List Byte) : List Byte :=
  (trimWith spaceLengthBack 0 (trimWith spaceLength 0 s).reverse).reverse

/-- `TrimPrefix`. -/
def trimPrefix (s start : List Byte) : List Byte :=
  if start.isPrefixOf s then s.drop start.length else s

/-- `CutPrefix`. -/
def cutPrefix (s start : List Byte) : Option (List Byte) :=
  if start.isPrefixOf s then some (s.drop start.length) else none

/-- `TrimRight`. -/
def trimRight (s cutset : List Byte) : List Byte :=
  s.rdropWhile fun byte => byte ∈ cutset

/-- `Trim`. -/
def trim (s cutset : List Byte) : List Byte :=
  trimRight (s.dropWhile fun byte => byte ∈ cutset) cutset

/-- `Cut`, at a single byte. -/
def cut (s : List Byte) (separator : Byte) : List Byte × List Byte × Bool :=
  if separator ∈ s then
    (s.takeWhile fun byte => byte ≠ separator,
      (s.dropWhile fun byte => byte ≠ separator).tail, true)
  else (s, [], false)

/-- A printable byte that is no white space. -/
def Plain (byte : Byte) : Prop :=
  0x20 < byte.toNat ∧ byte.toNat < 0x7f

variable {byte : Byte} {bytes field rest word : List Byte}

theorem spaceLength_plain (plain : Plain byte) : spaceLength (byte :: bytes) = 0 := by
  unfold Plain at plain
  unfold spaceLength
  split
  all_goals first | rfl | skip
  all_goals
    next eq =>
      obtain ⟨rfl, -⟩ := List.cons.inj eq
      exact absurd plain (by decide)

theorem spaceLengthBack_plain (plain : Plain byte) : spaceLengthBack (byte :: bytes) = 0 := by
  unfold Plain at plain
  unfold spaceLengthBack
  split
  all_goals first | rfl | skip
  all_goals
    next eq =>
      obtain ⟨rfl, -⟩ := List.cons.inj eq
      first
      | exact absurd plain (by decide)
      | (rw [if_neg]; intro space; revert plain; bv_omega)

theorem fieldsFrom_word (plain : ∀ byte ∈ word, Plain byte) :
    fieldsFrom 0 field (word ++ rest) = fieldsFrom 0 (field ++ word) rest := by
  induction word generalizing field with
  | nil => rw [List.append_nil, List.nil_append]
  | cons byte word ih =>
    obtain ⟨first, others⟩ := List.forall_mem_cons.mp plain
    rw [List.cons_append]
    conv => lhs; unfold fieldsFrom
    rw [spaceLength_plain first]
    dsimp only
    rw [ih others, List.append_assoc, List.singleton_append]

theorem fields_word (plain : ∀ byte ∈ word, Plain byte) (some_ : word ≠ []) :
    fields word = [word] := by
  have words := @fieldsFrom_word [] [] word plain
  rw [List.append_nil] at words
  rw [fields, words]
  exact if_neg some_

theorem fields_space (plain : ∀ byte ∈ word, Plain byte) (some_ : word ≠ []) :
    fields (word ++ 0x20 :: rest) = word :: fields rest := by
  rw [fields, fieldsFrom_word plain]
  change (if word = [] then [] else [word]) ++ _ = _
  rw [if_neg some_]
  rfl

theorem trimSpace_plain (first : ∃ byte bytes, word = byte :: bytes ∧ Plain byte)
    (last : ∃ byte bytes, word = bytes ++ [byte] ∧ Plain byte) : trimSpace word = word := by
  obtain ⟨byte, bytes, starts, plain⟩ := first
  obtain ⟨lastByte, front, ends, plainLast⟩ := last
  have kept : trimWith spaceLength 0 word = word := by
    rw [starts]
    unfold trimWith
    rw [spaceLength_plain plain]
  unfold trimSpace
  rw [kept, ends, List.reverse_append, List.reverse_singleton, List.singleton_append]
  unfold trimWith
  rw [spaceLengthBack_plain plainLast]
  dsimp only
  rw [List.reverse_cons, List.reverse_reverse]

theorem trimRight_of_not_mem {s : List Byte} {cut : Byte} (absent : cut ∉ s) :
    trimRight s [cut] = s := by
  apply List.rdropWhile_eq_self_iff.mpr
  intro some_ isCut
  have member := List.getLast_mem some_
  rw [List.mem_singleton.mp (of_decide_eq_true isCut)] at member
  exact absent member

end Strings

/-- `ParseAddr`: in either case, with or without a prefix. -/
def Hexfmt.parseAddr (s : List Byte) : Except String Word := do
  let t := Strings.trimPrefix (Strings.trimPrefix (Strings.trimSpace s) (ascii "0x")) (ascii "0X")
  if t = [] then
    throw s!"hexfmt: {Snapcodec.quoted s} is not an address: no digits"
  match Strconv.parseUint t 16 32 with
  | .ok v => return BitVec.ofNat 32 v
  | .error error => throw s!"hexfmt: {Snapcodec.quoted s} is not a 32-bit address: {error}"

namespace Bufio

/-- The longest line the buffer takes. -/
def maxLine : Nat :=
  2 ^ 20

/-- `dropCR`. -/
def dropCR (line : List Byte) : List Byte :=
  if line.getLast? = some 0x0d then line.dropLast else line

/-- The lines that a `Scanner` hands out behind the first bytes of one, and the error it stops
with. -/
def scanFrom (line : List Byte) : List Byte → List (List Byte) × Option String
  | [] =>
      if maxLine ≤ line.length then ([], some "bufio.Scanner: token too long")
      else (if line = [] then [] else [dropCR line], none)
  | byte :: bytes =>
      if maxLine ≤ line.length then ([], some "bufio.Scanner: token too long")
      else if byte = 0x0a then
        let rest := scanFrom [] bytes
        (dropCR line :: rest.1, rest.2)
      else scanFrom (line ++ [byte]) bytes

/-- `ScanLines`, to the end of the text. -/
def scanLines (bytes : List Byte) : List (List Byte) × Option String :=
  scanFrom [] bytes

/-- A line that comes back as it was written. -/
structure Whole (line : List Byte) : Prop where
  oneLine : 0x0a ∉ line
  noReturn : 0x0d ∉ line
  short : line.length < maxLine

variable {line rest : List Byte}

theorem Whole.part {part : List Byte} (whole : Whole line) (starts : part <+: line) :
    Whole part where
  oneLine member := whole.oneLine (starts.subset member)
  noReturn member := whole.noReturn (starts.subset member)
  short := Nat.lt_of_le_of_lt starts.length_le whole.short

theorem dropCR_of_not_mem (absent : 0x0d ∉ line) : dropCR line = line := by
  unfold dropCR
  rw [if_neg]
  intro last
  exact absent (List.mem_of_getLast? last)

theorem scanFrom_append (noFeed : 0x0a ∉ rest) (short : (line ++ rest).length < maxLine)
    {after : List Byte} : scanFrom line (rest ++ after) = scanFrom (line ++ rest) after := by
  induction rest generalizing line with
  | nil => rw [List.append_nil, List.nil_append]
  | cons byte rest ih =>
    have first := List.ne_of_not_mem_cons noFeed
    have others := List.not_mem_of_not_mem_cons noFeed
    rw [List.length_append, List.length_cons] at short
    rw [List.cons_append]
    conv => lhs; unfold scanFrom
    rw [if_neg (by omega), if_neg fun same => first same.symm, ih others (by simp; omega),
      List.append_assoc, List.singleton_append]

/-- A line and what follows its line feed. -/
theorem scanLines_line (whole : Whole line) {after : List Byte} :
    scanLines (line ++ 0x0a :: after) = (line :: (scanLines after).1, (scanLines after).2) := by
  have short := whole.short
  unfold scanLines
  rw [scanFrom_append whole.oneLine (by rwa [List.nil_append]), List.nil_append]
  conv => lhs; unfold scanFrom
  rw [if_neg (by omega), if_pos rfl, dropCR_of_not_mem whole.noReturn]

/-- A last line without its line feed. -/
theorem scanLines_last (whole : Whole line) :
    scanLines line = (if line = [] then [] else [line], none) := by
  have short := whole.short
  have scanned := @scanFrom_append [] line whole.oneLine (by rwa [List.nil_append]) []
  rw [List.append_nil, List.nil_append] at scanned
  unfold scanLines
  rw [scanned]
  unfold scanFrom
  rw [if_neg (by omega), dropCR_of_not_mem whole.noReturn]

end Bufio

end GoRetroTv
