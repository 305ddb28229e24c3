import GoRetroTv.HuffmanDictionary

/-!
# Huffman coding of programme text

Encoding packs six bits into the first byte and eight into every later one, and
fills the last byte with the beginning of the terminator's code.  Whatever a
decoder does with the filling, it emits nothing.
-/

namespace GoRetroTv

open Snapcodec (quoted)

namespace Huffman

/-- `%q` of a printable character. -/
def quotedByte (c : Byte) : String :=
  "'" ++ text [c] ++ "'"

/-- How much of the first byte carries code. -/
def firstByteBits : Nat := 6

def bitsToByte (bits : List Byte) (at_ width : Nat) : Byte :=
  (List.range width).foldl (fun value i =>
    let value := value <<< 1
    if bits[at_ + i]? = some one then value ||| 1 else value) 0

/-- The loop of `packHuffman`. -/
def packFrom (bits : List Byte) (i : Nat) : List Byte :=
  if i < bits.length then bitsToByte bits i 8 :: packFrom bits (i + 8) else []
termination_by bits.length - i

def packHuffman (bits : List Byte) : List Byte :=
  bitsToByte bits 0 firstByteBits :: packFrom bits firstByteBits

/-- The characters of a byte's bits under each of its masks, from the highest. -/
def maskedBits (b : Byte) : Nat → List Byte
  | 0 => []
  | k + 1 => (if b &&& ((1 : Byte) <<< k) ≠ 0 then one else zero) :: maskedBits b k

/-- The bits `Decode` reads: its mask starts at 0x20 in the first byte and at
0x80 in the others. -/
def readBits : List Byte → List Byte
  | [] => []
  | b :: data => maskedBits b firstByteBits ++ data.flatMap fun b => maskedBits b 8

/-- The first byte boundary at or after a number of bits. -/
def byteBoundary (total length : Nat) : Nat :=
  if total < length then byteBoundary (total + 8) length else total
termination_by length - total

end Huffman

open Huffman

namespace HuffmanDictionary

/-- The second loop of `padToByteBoundary`. -/
def fill (d : HuffmanDictionary) (total : Nat) (bits : List Byte) : List Byte :=
  if bits.length < total then
    let need := total - bits.length
    if need < d.terminator.length then bits ++ d.terminator.take need
    else d.fill total (bits ++ d.terminator)
  else bits
termination_by total - bits.length
decreasing_by
  have := List.length_pos_iff.mpr d.terminated.1
  simp only [List.length_append]
  omega

def padToByteBoundary (d : HuffmanDictionary) (bits : List Byte) : List Byte :=
  d.fill (byteBoundary firstByteBits bits.length) bits

/-- The loop over the value lengths: how far the first match reaches, and its
code. -/
def longestMatch (d : HuffmanDictionary) (text : List Byte) : Option (Nat × List Byte) :=
  d.lengths.findSome? fun n =>
    if text.length < n then none
    else (d.codes.lookup (text.take n)).map fun code => (n, code)

theorem longestMatch_some {d : HuffmanDictionary} {text code : List Byte} {n : Nat}
    (matched : d.longestMatch text = some (n, code)) :
    0 < n ∧ n ≤ text.length ∧ d.codes.lookup (text.take n) = some code := by
  obtain ⟨length, member, found⟩ := List.exists_of_findSome?_eq_some matched
  split at found
  · cases found
  next fits =>
    rw [Option.map_eq_some_iff] at found
    obtain ⟨_, listed, same⟩ := found
    cases same
    exact ⟨d.positive n member, not_lt.mp fits, listed⟩

/-- The bits of what is left of a text after its first `i` characters. -/
def encodeFrom (d : HuffmanDictionary) (whole : List Byte) (i : Nat) (bits : List Byte) :
    Except String (List Byte) :=
  if inside : i < whole.length then
    match matched : d.longestMatch (whole.drop i) with
    | some (n, code) => d.encodeFrom whole (i + n) (bits ++ code)
    | none =>
        .error s!"broadcast: no huffman code for {quotedByte whole[i]} at {i} in {quoted whole}"
  else .ok bits
termination_by whole.length - i
decreasing_by
  have := (longestMatch_some matched).1
  omega

/-- `Encode`. -/
def encode (d : HuffmanDictionary) (text : List Byte) : Except String (List Byte) := do
  let bits ← d.encodeFrom text 0 []
  return packHuffman (d.padToByteBoundary (bits ++ d.terminator))

/-- The words `Decode` puts into its tree.  The terminator's value is empty. -/
def words (d : HuffmanDictionary) : List (List Byte × List Byte) :=
  d.codes.map Prod.swap ++ [(d.terminator, [])]

/-- The code tree. -/
def tree (d : HuffmanDictionary) : PrefixTree Byte (List Byte) :=
  PrefixTree.ofList d.words

/-- No code, the terminator's included, is the beginning of another. -/
def PrefixFree (d : HuffmanDictionary) : Prop :=
  PrefixTree.PrefixFree d.words

instance (d : HuffmanDictionary) : Decidable d.PrefixFree :=
  inferInstanceAs (Decidable (PrefixTree.PrefixFree _))

/-- The walk of `Decode` from a node of the tree. -/
def decodeFrom (root : PrefixTree Byte (List Byte)) :
    PrefixTree Byte (List Byte) → List Byte → List Byte → List Byte × Bool
  | _, out, [] => (out, false)
  | cur, out, bit :: bits =>
      match cur.child bit with
      | none => (out, false)
      | some next =>
          match next.value with
          | none => decodeFrom root next out bits
          | some value =>
              if value = [] then (out, true) else decodeFrom root root (out ++ value) bits

/-- `Decode`. -/
def decode (d : HuffmanDictionary) (data : List Byte) : List Byte × Bool :=
  decodeFrom d.tree d.tree [] (readBits data)

/-- The same walk without the stop at the terminator, and whether it stays on
the tree. -/
def walkFrom (root : PrefixTree Byte (List Byte)) :
    PrefixTree Byte (List Byte) → List Byte → List Byte → List Byte × Bool
  | _, out, [] => (out, true)
  | cur, out, bit :: bits =>
      match cur.child bit with
      | none => (out, false)
      | some next =>
          match next.value with
          | none => walkFrom root next out bits
          | some value => walkFrom root root (out ++ value) bits

/-- What the firmware's decoder draws, which reads all of a record's bytes. -/
def drawn (d : HuffmanDictionary) (data : List Byte) : List Byte × Bool :=
  walkFrom d.tree d.tree [] (readBits data)

end HuffmanDictionary

namespace Huffman

theorem bitsToByte_succ (bits : List Byte) (at_ width : Nat) :
    bitsToByte bits at_ (width + 1) =
      if bits[at_ + width]? = some one then bitsToByte bits at_ width <<< 1 ||| 1
      else bitsToByte bits at_ width <<< 1 := by
  rw [bitsToByte, List.range_succ, List.foldl_append]
  rfl

/-- The bits of a packed byte, from the lowest. -/
theorem getLsbD_bitsToByte (bits : List Byte) (at_ : Nat) {width k : Nat} (inside : k < width)
    (fits : width ≤ 8) :
    (bitsToByte bits at_ width).getLsbD k = decide (bits[at_ + (width - 1 - k)]? = some one) := by
  induction width generalizing k with
  | zero => omega
  | succ width ih =>
      rw [bitsToByte_succ]
      rcases k with _ | k
      · split
        next isOne => simp [isOne]
        next notOne => simp [notOne]
      · have before := ih (k := k) (by omega) (by omega)
        have place : width + 1 - 1 - (k + 1) = width - 1 - k := by omega
        have shifted : (bitsToByte bits at_ width <<< 1).getLsbD (k + 1) =
            (bitsToByte bits at_ width).getLsbD k := by
          rw [BitVec.getLsbD_shiftLeft]
          simp [show k + 1 < 8 by omega, show k < 8 by omega, BitVec.getLsbD_eq_getElem]
        rw [place, ← before, ← shifted]
        split <;> simp

theorem length_maskedBits (b : Byte) (width : Nat) : (maskedBits b width).length = width := by
  induction width with
  | zero => rfl
  | succ width ih => rw [maskedBits, List.length_cons, ih]

theorem masked_ne_zero_iff (b : Byte) {k : Nat} (fits : k < 8) :
    b &&& ((1 : Byte) <<< k) ≠ 0 ↔ b.getLsbD k = true := by
  have isPower : (1 : Byte) <<< k = BitVec.twoPow 8 k := (BitVec.twoPow_eq 8 k).symm
  have nonzero : BitVec.twoPow 8 k ≠ 0 := by
    intro isZero
    have bit := BitVec.getLsbD_twoPow (w := 8) k k
    rw [isZero] at bit
    simp [fits] at bit
  rw [isPower, BitVec.and_twoPow]
  cases b.getLsbD k with
  | false => simp
  | true => simpa using nonzero

theorem getElem?_maskedBits (b : Byte) {width i : Nat} (inside : i < width) (fits : width ≤ 8) :
    (maskedBits b width)[i]? = some (if b.getLsbD (width - 1 - i) then one else zero) := by
  induction width generalizing i with
  | zero => omega
  | succ width ih =>
      rw [maskedBits]
      rcases i with _ | i
      · simp only [List.getElem?_cons_zero, masked_ne_zero_iff b (k := width) (by omega)]
        rfl
      · rw [List.getElem?_cons_succ, ih (by omega) (by omega)]
        congr 4
        omega

/-- Reading a packed byte. -/
theorem maskedBits_bitsToByte {bits : List Byte} (digits : ∀ c ∈ bits, IsDigit c)
    {at_ width : Nat} (inside : at_ + width ≤ bits.length) (fits : width ≤ 8) :
    maskedBits (bitsToByte bits at_ width) width = (bits.drop at_).take width := by
  apply List.ext_getElem?
  intro i
  rcases Nat.lt_or_ge i width with within | outside
  · rw [getElem?_maskedBits _ within fits, getLsbD_bitsToByte _ _ (by omega) fits,
      List.getElem?_take_of_lt within, List.getElem?_drop]
    have place : width - 1 - (width - 1 - i) = i := by omega
    have bound : at_ + i < bits.length := by omega
    rw [place, List.getElem?_eq_getElem bound]
    rcases digits _ (List.getElem_mem bound) with isZero | isOne
    · rw [isZero]
      rfl
    · rw [isOne]
      rfl
  · rw [List.getElem?_eq_none (by rwa [length_maskedBits]),
      List.getElem?_eq_none (by rw [List.length_take]; omega)]

theorem flatMap_packFrom {bits : List Byte} (digits : ∀ c ∈ bits, IsDigit c) (n : Nat) {i : Nat}
    (length : bits.length = i + 8 * n) :
    (packFrom bits i).flatMap (fun b => maskedBits b 8) = bits.drop i := by
  induction n generalizing i with
  | zero =>
      rw [packFrom, if_neg (by omega), List.flatMap_nil, List.drop_eq_nil_of_le (by omega)]
  | succ n ih =>
      rw [packFrom, if_pos (by omega), List.flatMap_cons, ih (by omega),
        maskedBits_bitsToByte digits (by omega) le_rfl, ← List.drop_drop]
      exact List.take_append_drop _ _

/-- What is packed is read back. -/
theorem readBits_packHuffman {bits : List Byte} (digits : ∀ c ∈ bits, IsDigit c) {n : Nat}
    (length : bits.length = firstByteBits + 8 * n) : readBits (packHuffman bits) = bits := by
  have short : firstByteBits ≤ 8 := by decide
  rw [packHuffman, readBits, maskedBits_bitsToByte digits (by omega) short,
    flatMap_packFrom digits n length]
  exact List.take_append_drop _ _

theorem byteBoundary_spec (total length : Nat) :
    length ≤ byteBoundary total length ∧ ∃ n, byteBoundary total length = total + 8 * n := by
  fun_induction byteBoundary total length with
  | case1 total more ih =>
      obtain ⟨reaches, n, isBoundary⟩ := ih
      exact ⟨reaches, n + 1, by omega⟩
  | case2 total done => exact ⟨not_lt.mp done, 0, rfl⟩

end Huffman

namespace HuffmanDictionary

/-- The filling: the terminator over and over, and the beginning of one more. -/
theorem fill_spec (d : HuffmanDictionary) (total : Nat) (bits : List Byte)
    (inside : bits.length ≤ total) :
    ∃ whole m, d.fill total bits =
        bits ++ ((List.replicate whole d.terminator).flatten ++ d.terminator.take m) ∧
      m < d.terminator.length ∧ (d.fill total bits).length = total := by
  have terminated := List.length_pos_iff.mpr d.terminated.1
  fun_induction d.fill total bits with
  | case1 bits short need partly =>
      refine ⟨0, need, rfl, partly, ?_⟩
      rw [List.length_append, List.length_take]
      omega
  | case2 bits short need whole ih =>
      obtain ⟨more, m, isFilled, partly, length⟩ := ih (by
        rw [List.length_append]
        omega)
      refine ⟨more + 1, m, ?_, partly, length⟩
      rw [isFilled, List.replicate_succ, List.flatten_cons, List.append_assoc, List.append_assoc]
  | case3 bits full => exact ⟨0, 0, by simp, terminated, by omega⟩

theorem mem_words {d : HuffmanDictionary} {phrase : List Byte × List Byte}
    (member : phrase ∈ d.codes) : (phrase.2, phrase.1) ∈ d.words :=
  List.mem_append_left _ (List.mem_map_of_mem member)

theorem terminator_mem_words (d : HuffmanDictionary) : (d.terminator, []) ∈ d.words := by
  simp [words]

/-- A text is cut into phrases of the dictionary, and each is coded. -/
theorem encodeFrom_ok {d : HuffmanDictionary} {whole : List Byte} {i : Nat}
    {bits encoded : List Byte} (succeeded : d.encodeFrom whole i bits = .ok encoded) :
    ∃ phrases : List (List Byte × List Byte), (∀ phrase ∈ phrases, phrase ∈ d.codes) ∧
      whole.drop i = phrases.flatMap Prod.fst ∧ encoded = bits ++ phrases.flatMap Prod.snd := by
  fun_induction d.encodeFrom whole i bits with
  | case1 i bits inside n code matched ih =>
      obtain ⟨phrases, listed, isText, isEncoded⟩ := ih succeeded
      obtain ⟨_, fits, found⟩ := longestMatch_some matched
      refine ⟨((whole.drop i).take n, code) :: phrases, ?_, ?_, ?_⟩
      · intro phrase member
        rcases List.mem_cons.mp member with rfl | later
        · obtain ⟨before, after, isSplit, -⟩ := List.lookup_eq_some_iff.mp found
          simp [isSplit]
        · exact listed phrase later
      · rw [List.flatMap_cons, ← isText, ← List.drop_drop, List.take_append_drop]
      · rw [isEncoded, List.flatMap_cons, List.append_assoc]
  | case2 i bits inside unmatched => cases succeeded
  | case3 i bits outside =>
      cases succeeded
      exact ⟨[], by simp, by simp [List.drop_eq_nil_of_le (not_lt.mp outside)], by simp⟩

theorem decodeFrom_eq (root cur : PrefixTree Byte (List Byte)) (out bits : List Byte) :
    decodeFrom root cur out bits =
      match cur.next bits with
      | none => (out, false)
      | some (value, rest) =>
          if value = [] then (out, true) else decodeFrom root root (out ++ value) rest := by
  induction bits generalizing cur with
  | nil => rfl
  | cons bit bits ih =>
      rw [decodeFrom, PrefixTree.next]
      cases cur.child bit with
      | none => rfl
      | some below =>
          dsimp only
          cases below.value with
          | none => exact ih below
          | some value => rfl

theorem walkFrom_eq (root cur : PrefixTree Byte (List Byte)) (out bits : List Byte) :
    walkFrom root cur out bits =
      match cur.next bits with
      | none => (out, (cur.find bits).isSome)
      | some (value, rest) => walkFrom root root (out ++ value) rest := by
  induction bits generalizing cur with
  | nil => rfl
  | cons bit bits ih =>
      rw [walkFrom, PrefixTree.next, PrefixTree.find]
      cases cur.child bit with
      | none => rfl
      | some below =>
          dsimp only
          cases below.value with
          | none => exact ih below
          | some value => rfl

section

variable {d : HuffmanDictionary}

theorem next_word (free : d.PrefixFree) {code value : List Byte} (member : (code, value) ∈ d.words)
    (more : List Byte) : d.tree.next (code ++ more) = some (value, more) := by
  have nonempty : code ≠ [] := by
    rcases List.mem_append.mp member with isCode | isTerminator
    · obtain ⟨phrase, listed, same⟩ := List.mem_map.mp isCode
      cases same
      exact (d.coded phrase listed).1
    · cases List.mem_singleton.mp isTerminator
      exact d.terminated.1
  exact PrefixTree.next_ofList free member nonempty (List.nil_append code)
    (PrefixTree.find_nil _) more

/-- The phrases of a text come out one by one. -/
theorem decodeFrom_phrases (free : d.PrefixFree) {phrases : List (List Byte × List Byte)}
    (listed : ∀ phrase ∈ phrases, phrase ∈ d.codes) (out more : List Byte) :
    decodeFrom d.tree d.tree out (phrases.flatMap Prod.snd ++ more) =
      decodeFrom d.tree d.tree (out ++ phrases.flatMap Prod.fst) more := by
  induction phrases generalizing out with
  | nil => simp
  | cons phrase phrases ih =>
      have isPhrase := listed phrase (List.mem_cons_self ..)
      rw [List.flatMap_cons, List.append_assoc, decodeFrom_eq, next_word free (mem_words isPhrase)]
      dsimp only
      rw [if_neg (d.valued phrase isPhrase),
        ih fun other member => listed other (List.mem_cons_of_mem _ member),
        List.flatMap_cons, List.append_assoc]

theorem walkFrom_phrases (free : d.PrefixFree) {phrases : List (List Byte × List Byte)}
    (listed : ∀ phrase ∈ phrases, phrase ∈ d.codes) (out more : List Byte) :
    walkFrom d.tree d.tree out (phrases.flatMap Prod.snd ++ more) =
      walkFrom d.tree d.tree (out ++ phrases.flatMap Prod.fst) more := by
  induction phrases generalizing out with
  | nil => simp
  | cons phrase phrases ih =>
      have isPhrase := listed phrase (List.mem_cons_self ..)
      rw [List.flatMap_cons, List.append_assoc, walkFrom_eq, next_word free (mem_words isPhrase)]
      dsimp only
      rw [ih fun other member => listed other (List.mem_cons_of_mem _ member),
        List.flatMap_cons, List.append_assoc]

/-- The filling draws nothing: a whole terminator is empty, and the beginning of
one is no word. -/
theorem walkFrom_filling (free : d.PrefixFree) (whole : Nat) {m : Nat}
    (partly : m < d.terminator.length) (out : List Byte) :
    walkFrom d.tree d.tree out
        ((List.replicate whole d.terminator).flatten ++ d.terminator.take m) = (out, true) := by
  induction whole with
  | zero =>
      have isPrefix : [] ++ d.terminator.take m <+: d.terminator := List.take_prefix _ _
      have proper : [] ++ d.terminator.take m ≠ d.terminator := by
        intro same
        have length := congrArg List.length same
        simp at length
        omega
      obtain ⟨unread, onTree⟩ := PrefixTree.next_ofList_of_isPrefix free d.terminator_mem_words
        isPrefix proper (PrefixTree.find_nil _)
      change walkFrom d.tree d.tree out (d.terminator.take m) = _
      have unread' : d.tree.next (d.terminator.take m) = none := unread
      rw [walkFrom_eq, unread']
      exact congrArg (Prod.mk out) onTree
  | succ whole ih =>
      rw [List.replicate_succ, List.flatten_cons, List.append_assoc, walkFrom_eq,
        next_word free d.terminator_mem_words]
      dsimp only
      rw [List.append_nil, ih]

/-- What `Encode` produces: the phrases, the terminator and the filling. -/
theorem encode_ok {text encoded : List Byte} (succeeded : d.encode text = .ok encoded) :
    ∃ (phrases : List (List Byte × List Byte)) (whole m : Nat),
      (∀ phrase ∈ phrases, phrase ∈ d.codes) ∧ text = phrases.flatMap Prod.fst ∧ m < d.terminator.length ∧
      readBits encoded = phrases.flatMap Prod.snd ++
        (d.terminator ++ ((List.replicate whole d.terminator).flatten ++ d.terminator.take m)) := by
  unfold encode at succeeded
  cases coded : d.encodeFrom text 0 [] with
  | error error => rw [coded] at succeeded; cases succeeded
  | ok bits =>
      rw [coded] at succeeded
      obtain rfl := Except.ok.inj succeeded
      obtain ⟨phrases, listed, isText, rfl⟩ := encodeFrom_ok coded
      obtain ⟨reaches, n, isBoundary⟩ := byteBoundary_spec firstByteBits
        (phrases.flatMap Prod.snd ++ d.terminator).length
      obtain ⟨whole, m, isFilled, partly, length⟩ := d.fill_spec _ _ reaches
      refine ⟨phrases, whole, m, listed, isText, partly, ?_⟩
      have digits : ∀ c ∈ d.padToByteBoundary (phrases.flatMap Prod.snd ++ d.terminator),
          IsDigit c := by
        intro c member
        rw [padToByteBoundary, isFilled] at member
        simp only [List.mem_append, List.mem_flatMap, List.mem_flatten, List.mem_replicate]
          at member
        rcases member with (⟨phrase, isPhrase, inCode⟩ | inTerminator) |
          ⟨_, ⟨_, rfl⟩, inTerminator⟩ | taken
        · exact (d.coded phrase (listed phrase isPhrase)).2 c inCode
        · exact d.terminated.2 c inTerminator
        · exact d.terminated.2 c inTerminator
        · exact d.terminated.2 c (List.mem_of_mem_take taken)
      rw [List.nil_append, readBits_packHuffman digits (length.trans isBoundary)]
      unfold padToByteBoundary
      rw [isFilled, List.append_assoc]

end

/-- An encoded text decodes to itself, and a decoder that reads the whole of the
last byte draws nothing more. -/
theorem decode_encode {d : HuffmanDictionary} (free : d.PrefixFree) {text encoded : List Byte}
    (succeeded : d.encode text = .ok encoded) :
    d.decode encoded = (text, true) ∧ d.drawn encoded = (text, true) := by
  obtain ⟨phrases, whole, m, listed, rfl, partly, bits⟩ := encode_ok succeeded
  constructor
  · rw [decode, bits, decodeFrom_phrases free listed, decodeFrom_eq,
      next_word free d.terminator_mem_words]
    rfl
  · rw [drawn, bits, walkFrom_phrases free listed, walkFrom_eq,
      next_word free d.terminator_mem_words]
    dsimp only
    rw [walkFrom_filling free whole partly, List.append_nil]
    rfl

/-- The table of the three lines `a=0`, `ab=10` and `=11`. -/
def threeWords : HuffmanDictionary where
  codes := [(ascii "ab", ascii "10"), (ascii "a", ascii "0")]
  terminator := ascii "11"
  lengths := [2, 1]
  positive := by decide
  valued := by decide
  coded := by decide
  terminated := by decide

/-- Five bits, and one of filling. -/
theorem decode_encode_threeWords :
    threeWords.decode [0x17] = (ascii "aab", true) ∧
      threeWords.drawn [0x17] = (ascii "aab", true) := by
  have succeeded : threeWords.encode (ascii "aab") = .ok [0x17] := by decide +kernel
  exact decode_encode (by decide) succeeded

end HuffmanDictionary

end GoRetroTv
