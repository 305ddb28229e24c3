import GoRetroTv.CheckpointStream

/-!
# The round trip of a checkpoint stream

A stream that was emitted and closed is read back with the checkpoints that were recorded, one
for each window of the observations, and no part of it passes for the whole.
-/

namespace GoRetroTv

namespace Statehash

open Strings Strconv Bufio

theorem plain_digits {n : Nat} : ∀ byte ∈ decimal n, Plain byte := by
  intro byte member
  have bounds := decimal_bytes member
  exact ⟨by omega, by omega⟩

/-- The digits of a hash. -/
def hashDigits (hash : Word) : List Byte :=
  (List.range 8).reverse.map fun place =>
    BitVec.ofNat 8 (Hexfmt.digits.getD (hash.toNat / 16 ^ place % 16) '0').toNat

theorem word_bytes (hash : Word) : ascii (Hexfmt.word hash) = 0x30 :: 0x78 :: hashDigits hash := by
  unfold Hexfmt.word Hexfmt.encode ascii hashDigits
  rw [String.toList_append, String.toList_ofList, String.toList_ofList, List.map_append,
    List.map_map]
  rfl

theorem hashDigit_byte : ∀ d < 16, Plain (BitVec.ofNat 8 (Hexfmt.digits.getD d '0').toNat) ∧
    BitVec.ofNat 8 (Hexfmt.digits.getD d '0').toNat ≠ 0x58 := by
  unfold Plain
  decide

theorem hashDigits_bytes {hash : Word} {byte : Byte} (member : byte ∈ hashDigits hash) :
    Plain byte ∧ byte ≠ 0x58 := by
  obtain ⟨place, -, rfl⟩ := List.mem_map.mp member
  exact hashDigit_byte _ (Nat.mod_lt _ (by decide))

theorem plain_word {hash : Word} : ∀ byte ∈ ascii (Hexfmt.word hash), Plain byte := by
  rw [word_bytes, List.forall_mem_cons, List.forall_mem_cons]
  unfold Plain
  exact ⟨by decide, by decide, fun byte member => (hashDigits_bytes member).1⟩

/-- A hash is read as it was written. -/
theorem parseAddr_word (hash : Word) : Hexfmt.parseAddr (ascii (Hexfmt.word hash)) = .ok hash := by
  have trimmed : trimSpace (ascii (Hexfmt.word hash)) = ascii (Hexfmt.word hash) := by
    refine trimSpace_plain ⟨0x30, 0x78 :: hashDigits hash, word_bytes hash, ?_⟩ ⟨_,
      0x30 :: 0x78 :: (hashDigits hash).dropLast, word_bytes hash, ?_⟩
    · unfold Plain
      decide
    · exact (hashDigit_byte (hash.toNat / 16 ^ 0 % 16) (Nat.mod_lt _ (by decide))).1
  have noPrefix : trimPrefix (hashDigits hash) (ascii "0X") = hashDigits hash := by
    have notX : ∀ byte ∈ hashDigits hash, byte ≠ 0x58 := fun byte member =>
      (hashDigits_bytes member).2
    unfold trimPrefix
    rw [if_neg]
    intro starts
    obtain ⟨rest, eq⟩ := List.isPrefixOf_iff_prefix.mp starts
    rw [← eq] at notX
    exact notX 0x58 (by simp [ascii]) rfl
  have digits := @digits_places 16 (2 ^ 32 - 1) hash.toNat 0 _ (by decide) digitValue_hex 8
    (by have := hash.isLt; omega)
  have value : 0 * 16 ^ 8 + hash.toNat % 16 ^ 8 = hash.toNat := by
    have := hash.isLt
    omega
  have parsed : parseUint (hashDigits hash) 16 32 = .ok hash.toNat := by
    unfold parseUint
    rw [if_neg (show hashDigits hash ≠ [] from List.cons_ne_nil _ _)]
    unfold hashDigits
    rw [digits, value]
  have some_ : hashDigits hash ≠ [] := List.cons_ne_nil _ _
  have unprefixed : trimPrefix (ascii (Hexfmt.word hash)) (ascii "0x") = hashDigits hash := by
    rw [word_bytes]
    rfl
  unfold Hexfmt.parseAddr
  rw [trimmed, unprefixed]
  dsimp only
  rw [noPrefix, if_neg some_, parsed]
  dsimp only
  rw [BitVec.ofNat_toNat, BitVec.setWidth_eq]
  rfl

/-- A line that begins as the trailer does. -/
def Ends (text : List Byte) : Prop :=
  streamEnd ++ [0x20] <+: text

theorem ends_digit {text : List Byte} (ends : Ends text) : text.head? = some 0x45 := by
  obtain ⟨rest, rfl⟩ := ends
  rfl

theorem not_ends_checkpoint (c : Checkpoint) : ¬Ends (checkpointLine c) := by
  intro ends
  have head := ends_digit ends
  unfold checkpointLine at head
  rw [List.head?_append_of_ne_nil _ (decimal_ne_nil _)] at head
  have bounds := decimal_bytes (List.mem_of_head? head)
  revert bounds
  decide

theorem not_ends_header (interval : Nat) : ¬Ends (headerLine interval) := by
  intro ends
  have head := ends_digit ends
  unfold headerLine at head
  rw [List.head?_append_of_ne_nil _ (by decide)] at head
  revert head
  decide

theorem fields_header (interval : Nat) : fields (headerLine interval) =
    [streamMagic, decimal streamVersion, ascii "interval=" ++ decimal interval] := by
  have label : ∀ byte ∈ ascii "interval=", Plain byte := by
    unfold Plain
    decide
  have last : ∀ byte ∈ ascii "interval=" ++ decimal interval, Plain byte :=
    List.forall_mem_append.mpr ⟨label, plain_digits⟩
  unfold headerLine
  rw [fields_space (by unfold Plain; decide) (by decide),
    fields_space plain_digits (decimal_ne_nil _), fields_word last (by simp [decimal_ne_nil])]

theorem readLine_header {name : String} {interval : Nat} (positive : 0 < interval)
    (fits : interval < 2 ^ 64) :
    ({ name } : Stream).readLine 1 (headerLine interval) false =
      .ok ({ name, interval }, false) := by
  have some_ : headerLine interval ≠ [] := by
    unfold headerLine
    simp
  have parsed : ({ name } : Stream).parseHeader (headerLine interval) =
      .ok { name, interval } := by
    have cut : cutPrefix (ascii "interval=" ++ decimal interval) (ascii "interval=") =
        some (decimal interval) := by
      unfold cutPrefix
      rw [if_pos (by simp), List.drop_left]
    have version : parseUint (decimal streamVersion) 10 16 = .ok streamVersion :=
      parseUint_decimal (by decide)
    obtain ⟨n, rfl⟩ := Nat.exists_eq_succ_of_ne_zero (Nat.pos_iff_ne_zero.mp positive)
    unfold Stream.parseHeader
    rw [fields_header]
    dsimp only
    rw [if_neg (by simp), version]
    dsimp only
    rw [if_neg (by simp), cut]
    dsimp only
    rw [parseUint_decimal fits]
  unfold Stream.readLine
  rw [if_neg some_, if_neg (by simp), if_pos rfl, parsed]
  rfl

theorem parseNumber_decimal {context : String} {n : Nat} (fits : n < 2 ^ 64) :
    parseNumber context (decimal n) = .ok n := by
  unfold parseNumber
  rw [parseUint_decimal fits]
  rfl

theorem readLine_checkpoint {line : Nat} {s : Stream} {c : Checkpoint} (fits : c.icount < 2 ^ 64)
    (advances : s.advances c = true) :
    s.readLine (line + 2) (checkpointLine c) false =
      .ok ({ s with checkpoints := s.checkpoints ++ [c] }, false) := by
  have parsed : ∀ line, parseCheckpoint s.name line (checkpointLine c) = .ok c := by
    intro line
    have split : fields (checkpointLine c) = [decimal c.icount, ascii (Hexfmt.word c.hash)] := by
      unfold checkpointLine
      rw [fields_space plain_digits (decimal_ne_nil _),
        fields_word plain_word (by rw [word_bytes]; exact List.cons_ne_nil _ _)]
    unfold parseCheckpoint
    rw [split]
    dsimp only
    rw [parseNumber_decimal fits, parseAddr_word]
    rfl
  have some_ : checkpointLine c ≠ [] := by
    unfold checkpointLine
    simp
  have noEnd : ¬(streamEnd ++ [0x20]).isPrefixOf (checkpointLine c) = true := fun ends =>
    not_ends_checkpoint c (List.isPrefixOf_iff_prefix.mp ends)
  unfold Stream.readLine
  rw [if_neg some_, if_neg (by simp), if_neg (by omega), if_neg noEnd, parsed]
  simp only [bind, Except.bind, advances]
  rfl

theorem fields_end {last : List Byte} (count : Nat) :
    fields (streamEnd ++ 0x20 :: (decimal count ++ 0x20 :: last)) =
      streamEnd :: decimal count :: fields last := by
  rw [fields_space (by unfold Plain; decide) (by decide),
    fields_space plain_digits (decimal_ne_nil _)]

theorem readLine_end {line : Nat} {s : Stream} {count last : Nat} (countFits : count < 2 ^ 64)
    (lastFits : last < 2 ^ 64) :
    s.readLine (line + 2) (endLine count last) false =
      .ok ({ s with declaredCount := count, declaredLast := last }, true) := by
  have parsed : ∀ line, s.parseEnd line (endLine count last) =
      .ok { s with declaredCount := count, declaredLast := last } := by
    intro line
    unfold Stream.parseEnd endLine
    rw [fields_end, fields_word plain_digits (decimal_ne_nil _)]
    dsimp only
    rw [parseNumber_decimal countFits, parseNumber_decimal lastFits]
    rfl
  have ends : (streamEnd ++ [0x20]).isPrefixOf (endLine count last) = true := by
    rw [List.isPrefixOf_iff_prefix]
    exact ⟨decimal count ++ 0x20 :: decimal last, by simp [endLine]⟩
  unfold Stream.readLine
  rw [if_neg (by unfold endLine; simp), if_neg (by simp), if_neg (by omega), if_pos ends, parsed]
  rfl

namespace Emitter

/-- Observations, one after another. -/
def observeAll (observations : List Checkpoint) (e : Emitter) : Emitter :=
  observations.foldl (fun e o => e.observe o.icount (.ok o.hash)) e

/-- The observations that an emitter writes. -/
def recorded : List Checkpoint → Emitter → List Checkpoint
  | [], _ => []
  | o :: observations, e =>
      let e' := e.observe o.icount (.ok o.hash)
      if e'.written = e.written then recorded observations e' else o :: recorded observations e'

/-- An emitter that has recorded these checkpoints, and none in a window from `boundary` on. -/
structure Recorded (interval : Nat) (cs : List Checkpoint) (boundary : Nat) (e : Emitter) :
    Prop where
  every : e.interval = interval
  written : e.written = headerLine interval ++ [0x0a] ++
    cs.flatMap fun c => checkpointLine c ++ [0x0a]
  count : e.count = cs.length
  last : e.last = (cs.getLast?.map Checkpoint.icount).getD 0
  open_ : e.closed = false
  sound : e.err = none
  next : e.next = boundary * interval
  fits : boundary * interval < 2 ^ 64
  windows : cs.Pairwise fun c c' => c.window interval < c'.window interval
  before : ∀ c ∈ cs, c.window interval < boundary
  below : ∀ c ∈ cs, c.icount < 2 ^ 64

variable {interval boundary : Nat} {cs observations : List Checkpoint} {e : Emitter}
  {o : Checkpoint}

theorem recorded_new {started : Emitter} (opened : newEmitter interval = .ok started) :
    0 < interval ∧ Recorded interval [] 0 started := by
  unfold newEmitter at opened
  split at opened
  · cases opened
  next positive =>
    cases opened
    refine ⟨Nat.pos_iff_ne_zero.mpr positive, ?_⟩
    constructor
    case written => exact (List.append_nil _).symm
    case next => exact (Nat.zero_mul interval).symm
    case fits =>
      rw [Nat.zero_mul]
      decide
    case windows => exact List.Pairwise.nil
    case before => exact fun c member => absurd member List.not_mem_nil
    case below => exact fun c member => absurd member List.not_mem_nil
    all_goals rfl

namespace Recorded

/-- No window has two checkpoints. -/
theorem length_le (state : Recorded interval cs boundary e) : cs.length ≤ boundary := by
  have nodup : (cs.map (Checkpoint.window interval)).Nodup :=
    (List.pairwise_map.mpr state.windows).imp fun less => Nat.ne_of_lt less
  have inside : cs.map (Checkpoint.window interval) ⊆ List.range boundary := by
    intro w member
    obtain ⟨c, inCs, rfl⟩ := List.mem_map.mp member
    exact List.mem_range.mpr (state.before c inCs)
  have := (List.subperm_of_subset nodup inside).length_le
  rwa [List.length_map, List.length_range] at this

theorem observe_early (state : Recorded interval cs boundary e)
    (early : o.window interval < boundary) (positive : 0 < interval) (hash : Except String Word) :
    e.observe o.icount hash = e := by
  have before : o.icount < e.next := by
    rw [state.next]
    exact (Nat.div_lt_iff_lt_mul positive).mp early
  unfold observe
  rw [if_neg (by simp [state.sound]), if_neg (by simp [state.open_]), if_pos before]

/-- An observation from the boundary on is recorded, and its window is closed. -/
theorem observe_due (state : Recorded interval cs boundary e)
    (due : boundary ≤ o.window interval) (positive : 0 < interval)
    (below : o.icount < 2 ^ 64 - interval) :
    Recorded interval (cs ++ [o]) (o.window interval + 1) (e.observe o.icount (.ok o.hash)) := by
  have after : ¬o.icount < e.next := by
    rw [state.next, Nat.not_lt]
    exact (Nat.le_div_iff_mul_le positive).mp due
  have most : o.window interval * interval ≤ o.icount := Nat.div_mul_le_self _ _
  have least : o.window interval ≤ o.icount := Nat.div_le_self _ _
  have length := state.length_le
  have fits : (o.window interval + 1) * interval < 2 ^ 64 := by
    rw [Nat.succ_mul]
    omega
  unfold observe
  rw [if_neg (by simp [state.sound]), if_neg (by simp [state.open_]), if_neg after]
  constructor
  case every => exact state.every
  case written => simp [state.written]
  case count =>
    change wrapAdd e.count 1 = _
    rw [state.count, wrapAdd_of_lt (by unfold countLimit; omega), List.length_append]
    rfl
  case last => simp
  case open_ => exact state.open_
  case sound => exact state.sound
  case next =>
    change (o.icount / e.interval + 1) * e.interval % countLimit = _
    rw [state.every]
    exact Nat.mod_eq_of_lt fits
  case fits => exact fits
  case windows =>
    refine List.pairwise_append.mpr ⟨state.windows, List.pairwise_singleton _ _, ?_⟩
    intro c inCs c' here
    rw [List.mem_singleton.mp here]
    exact Nat.lt_of_lt_of_le (state.before c inCs) due
  case before =>
    refine List.forall_mem_append.mpr ⟨fun c inCs => ?_, List.forall_mem_singleton.mpr ?_⟩
    · have := state.before c inCs
      omega
    · omega
  case below =>
    exact List.forall_mem_append.mpr ⟨state.below, List.forall_mem_singleton.mpr (by omega)⟩

theorem writes (state : Recorded interval cs boundary e)
    (due : boundary ≤ o.window interval) (positive : 0 < interval)
    (below : o.icount < 2 ^ 64 - interval) :
    (e.observe o.icount (.ok o.hash)).written ≠ e.written := by
  intro same
  have lengths := congrArg List.length same
  rw [(state.observe_due due positive below).written, state.written] at lengths
  simp at lengths

end Recorded

/-- A run of observations records what it records, after what was recorded before. -/
theorem recorded_run (state : Recorded interval cs boundary e) (positive : 0 < interval)
    (below : ∀ o ∈ observations, o.icount < 2 ^ 64 - interval) :
    ∃ boundary, Recorded interval (cs ++ recorded observations e) boundary
      (e.observeAll observations) := by
  induction observations generalizing e cs boundary with
  | nil =>
    rw [recorded, List.append_nil]
    exact ⟨boundary, state⟩
  | cons o observations ih =>
    obtain ⟨first, others⟩ := List.forall_mem_cons.mp below
    rw [recorded, observeAll, List.foldl_cons]
    by_cases early : o.window interval < boundary
    · rw [state.observe_early early positive, if_pos rfl]
      exact ih state others
    · have due : boundary ≤ o.window interval := Nat.not_lt.mp early
      rw [if_neg (state.writes due positive first), List.append_cons]
      exact ih (state.observe_due due positive first) others

/-- A window's checkpoint is its first observation. -/
theorem filter_recorded (state : Recorded interval cs boundary e) (positive : 0 < interval)
    (ordered : observations.Pairwise fun o o' => o.icount ≤ o'.icount)
    (below : ∀ o ∈ observations, o.icount < 2 ^ 64 - interval) (w : Nat) :
    (recorded observations e).filter (fun c => c.window interval = w) =
      if w < boundary then []
      else (observations.find? fun o => o.window interval = w).toList := by
  induction observations generalizing e cs boundary with
  | nil =>
    rw [recorded]
    split <;> rfl
  | cons o observations ih =>
    obtain ⟨first, others⟩ := List.forall_mem_cons.mp below
    obtain ⟨later, rest⟩ := List.pairwise_cons.mp ordered
    rw [recorded]
    by_cases early : o.window interval < boundary
    · rw [state.observe_early early positive, if_pos rfl, ih state rest others]
      split
      · rfl
      next closed => rw [List.find?_cons_of_neg (by simp; omega)]
    · have due : boundary ≤ o.window interval := Nat.not_lt.mp early
      have rest := ih (state.observe_due due positive first) rest others
      rw [if_neg (state.writes due positive first)]
      by_cases here : o.window interval = w
      · rw [List.filter_cons_of_pos (by simp [here]), rest, if_pos (by omega), if_neg (by omega),
          List.find?_cons_of_pos (by simp [here])]
        rfl
      · rw [List.filter_cons_of_neg (by simp [here]), rest]
        by_cases past : w < o.window interval
        · -- The observations that follow are no earlier.
          have none_ : observations.find? (fun o => o.window interval = w) = none := by
            refine List.find?_eq_none.mpr fun o' member => ?_
            have := Nat.div_le_div_right (c := interval) (later o' member)
            change o.window interval ≤ o'.window interval at this
            simp
            omega
          rw [if_pos (by omega), List.find?_cons_of_neg (by simp [here]), none_]
          split <;> rfl
        · rw [if_neg (by omega), if_neg (by omega), List.find?_cons_of_neg (by simp [here])]

end Emitter

/-- Lines as they are written, a line feed behind each. -/
def textOf (lines : List (List Byte)) : List Byte :=
  lines.flatMap fun line => line ++ [0x0a]

theorem scanLines_textOf {lines : List (List Byte)} (whole : ∀ line ∈ lines, Whole line) :
    scanLines (textOf lines) = (lines, none) := by
  induction lines with
  | nil => rfl
  | cons line lines ih =>
    obtain ⟨first, others⟩ := List.forall_mem_cons.mp whole
    have text : textOf (line :: lines) = line ++ 0x0a :: textOf lines := by simp [textOf]
    rw [text, scanLines_line first, ih others]

/-- The beginning of a text is whole lines and the beginning of another. -/
theorem scanLines_take {lines : List (List Byte)} (whole : ∀ line ∈ lines, Whole line) (k : Nat)
    (less : k < (textOf lines).length) :
    ∃ front line rest part, lines = front ++ line :: rest ∧ part <+: line ∧
      (textOf front).length + part.length = k ∧
      scanLines ((textOf lines).take k) = (front ++ if part = [] then [] else [part], none) := by
  induction lines generalizing k with
  | nil => cases less
  | cons line lines ih =>
    obtain ⟨first, others⟩ := List.forall_mem_cons.mp whole
    have text : textOf (line :: lines) = line ++ 0x0a :: textOf lines := by simp [textOf]
    rw [text, List.length_append, List.length_cons] at less
    rw [text]
    by_cases inside : k ≤ line.length
    · refine ⟨[], line, lines, line.take k, rfl, List.take_prefix k line, ?_, ?_⟩
      · rw [List.length_take]
        change 0 + _ = _
        omega
      · rw [List.take_append_of_le_length inside,
          scanLines_last (first.part (List.take_prefix k line))]
        rfl
    · obtain ⟨front, last, rest, part, split, starts, length, scanned⟩ :=
        ih others (k - line.length - 1) (by omega)
      refine ⟨line :: front, last, rest, part, by rw [split]; rfl, starts, ?_, ?_⟩
      · have frontText : textOf (line :: front) = line ++ 0x0a :: textOf front := by simp [textOf]
        rw [frontText, List.length_append, List.length_cons]
        omega
      · have behind : (line ++ 0x0a :: textOf lines).take k =
            line ++ 0x0a :: (textOf lines).take (k - line.length - 1) := by
          rw [List.take_append, List.take_of_length_le (by omega),
            show k - line.length = k - line.length - 1 + 1 by omega, List.take_succ_cons,
            Nat.add_sub_cancel]
        rw [behind, scanLines_line first, scanned]
        rfl

theorem decimal_length_le {n width : Nat} (positive : 0 < width) (fits : n < 10 ^ width) :
    (decimal n).length ≤ width := by
  rw [decimal_digits, List.length_map]
  exact (Nat.length_toDigits_le_iff (by decide) positive).mpr fits

/-- A line of printable text. -/
theorem whole_line {line : List Byte} (printable : ∀ byte ∈ line, Plain byte ∨ byte = 0x20)
    (short : line.length < maxLine) : Whole line := by
  have absent : ∀ byte : Byte, ¬(Plain byte ∨ byte = 0x20) → byte ∉ line := by
    intro byte odd member
    exact odd (printable byte member)
  constructor
  · exact absent 0x0a (by unfold Plain; decide)
  · exact absent 0x0d (by unfold Plain; decide)
  · exact short

theorem printable_decimal {n : Nat} : ∀ byte ∈ decimal n, Plain byte ∨ byte = 0x20 :=
  fun byte member => .inl (plain_digits byte member)

theorem whole_header {interval : Nat} (fits : interval < 2 ^ 64) :
    Whole (headerLine interval) := by
  have label : ∀ byte ∈ ascii "interval=", Plain byte ∨ byte = 0x20 := by
    unfold Plain
    decide
  have magic : ∀ byte ∈ streamMagic, Plain byte ∨ byte = 0x20 := by
    unfold Plain
    decide
  have digits := @decimal_length_le interval 20 (by decide) (by omega)
  have version := @decimal_length_le streamVersion 20 (by decide) (by decide)
  refine whole_line ?_ ?_
  · simp only [headerLine, List.forall_mem_append, List.forall_mem_cons]
    exact ⟨magic, .inr trivial, printable_decimal, .inr trivial, label, printable_decimal⟩
  · have lengths : streamMagic.length = 16 ∧ (ascii "interval=").length = 9 := by decide
    unfold maxLine headerLine
    simp only [List.length_append, List.length_cons]
    omega

theorem whole_checkpoint {c : Checkpoint} (fits : c.icount < 2 ^ 64) :
    Whole (checkpointLine c) := by
  have digits := @decimal_length_le c.icount 20 (by decide) (by omega)
  refine whole_line ?_ ?_
  · simp only [checkpointLine, List.forall_mem_append, List.forall_mem_cons]
    exact ⟨printable_decimal, .inr trivial, fun byte member => .inl (plain_word byte member)⟩
  · have hex : (hashDigits c.hash).length = 8 := rfl
    unfold maxLine checkpointLine
    simp only [List.length_append, List.length_cons, word_bytes]
    omega

theorem whole_end {count last : Nat} (countFits : count < 2 ^ 64) (lastFits : last < 2 ^ 64) :
    Whole (endLine count last) := by
  have marks : ∀ byte ∈ streamEnd, Plain byte ∨ byte = 0x20 := by
    unfold Plain
    decide
  have countDigits := @decimal_length_le count 20 (by decide) (by omega)
  have lastDigits := @decimal_length_le last 20 (by decide) (by omega)
  refine whole_line ?_ ?_
  · simp only [endLine, List.forall_mem_append, List.forall_mem_cons]
    exact ⟨marks, .inr trivial, printable_decimal, .inr trivial, printable_decimal⟩
  · have mark : streamEnd.length = 3 := by decide
    unfold maxLine endLine
    simp only [List.length_append, List.length_cons]
    omega

section Reading

variable {line : Nat} {s : Stream} {ended : Bool} {front back : List (List Byte)}

theorem readLines_append : s.readLines line ended (front ++ back) =
    (s.readLines line ended front).bind fun next =>
      next.1.readLines (line + front.length) next.2 back := by
  induction front generalizing line s ended with
  | nil => rfl
  | cons text front ih =>
    rw [List.cons_append, Stream.readLines, Stream.readLines]
    cases s.readLine (line + 1) (trimRight text [0x0d]) ended with
    | error error => rfl
    | ok next =>
      dsimp only
      rw [ih, List.length_cons, show line + 1 + front.length = line + (front.length + 1) by omega]

theorem readLines_one {text : List Byte} (whole : Whole text) :
    s.readLines line ended [text] = s.readLine (line + 1) text ended := by
  unfold Stream.readLines
  rw [trimRight_of_not_mem whole.noReturn]
  cases s.readLine (line + 1) text ended <;> rfl

/-- The checkpoints of a stream in order are read one after another. -/
theorem readLines_checkpoints {cs : List Checkpoint}
    (ordered : (s.checkpoints ++ cs).Pairwise fun c c' => c.icount < c'.icount)
    (below : ∀ c ∈ cs, c.icount < 2 ^ 64) :
    s.readLines (line + 1) false (cs.map checkpointLine) =
      .ok ({ s with checkpoints := s.checkpoints ++ cs }, false) := by
  induction cs generalizing line s with
  | nil =>
    rw [List.append_nil]
    rfl
  | cons c cs ih =>
    obtain ⟨first, others⟩ := List.forall_mem_cons.mp below
    have advances : s.advances c = true := by
      unfold Stream.advances
      split
      next previous last =>
        have inOrder := (List.pairwise_append.mp ordered).2.2 previous
          (List.mem_of_getLast? last) c List.mem_cons_self
        exact decide_eq_true inOrder
      · rfl
    rw [List.map_cons, Stream.readLines,
      trimRight_of_not_mem (whole_checkpoint first).noReturn, readLine_checkpoint first advances]
    dsimp only
    rw [List.append_cons] at ordered
    rw [ih ordered others]
    simp

/-- Only the trailer ends a stream. -/
theorem readLine_ended {text : List Byte} {next : Stream}
    (read : s.readLine line text false = .ok (next, true)) : Ends text := by
  unfold Stream.readLine at read
  split at read
  · cases read
  · rw [if_neg (by simp)] at read
    split at read
    · obtain ⟨_, _, read⟩ := bind_eq_ok.mp read
      cases read
    · split at read
      next ends => exact List.isPrefixOf_iff_prefix.mp ends
      · obtain ⟨_, _, read⟩ := bind_eq_ok.mp read
        obtain ⟨_, read⟩ := check_ok read
        cases read

theorem readLines_ended {texts : List (List Byte)} {next : Stream}
    (read : s.readLines line false texts = .ok (next, true)) :
    ∃ text ∈ texts, Ends (trimRight text [0x0d]) := by
  induction texts generalizing line s with
  | nil => cases read
  | cons text texts ih =>
    unfold Stream.readLines at read
    split at read
    · cases read
    next s' ended first =>
      cases ended with
      | true => exact ⟨text, List.mem_cons_self, readLine_ended first⟩
      | false =>
        obtain ⟨later, member, ends⟩ := ih read
        exact ⟨later, List.mem_cons_of_mem text member, ends⟩

end Reading

section Incomplete

variable {line : Nat} {s next : Stream} {ended ended' : Bool}

/-- The header gives the interval. -/
theorem parseHeader_ok {text : List Byte} (parsed : s.parseHeader text = .ok next) :
    ∃ interval, next = { s with interval } := by
  unfold Stream.parseHeader at parsed
  split at parsed
  · split at parsed
    · cases parsed
    split at parsed
    · cases parsed
    split at parsed
    · cases parsed
    split at parsed
    · cases parsed
    split at parsed
    · cases parsed
      exact ⟨_, rfl⟩
    · cases parsed
  · cases parsed

/-- The trailer gives what it declares. -/
theorem parseEnd_ok {text : List Byte} (parsed : s.parseEnd line text = .ok next) :
    ∃ declaredCount declaredLast, next = { s with declaredCount, declaredLast } := by
  unfold Stream.parseEnd at parsed
  split at parsed
  · obtain ⟨_, _, parsed⟩ := bind_eq_ok.mp parsed
    obtain ⟨_, _, parsed⟩ := bind_eq_ok.mp parsed
    cases parsed
    exact ⟨_, _, rfl⟩
  · cases parsed

theorem readLine_complete {text : List Byte}
    (read : s.readLine line text ended = .ok (next, ended')) : next.complete = s.complete := by
  unfold Stream.readLine at read
  split at read
  · cases read
    rfl
  split at read
  · cases read
  split at read
  · obtain ⟨_, header, read⟩ := bind_eq_ok.mp read
    obtain ⟨_, rfl⟩ := parseHeader_ok header
    cases read
    rfl
  split at read
  · obtain ⟨_, trailer, read⟩ := bind_eq_ok.mp read
    obtain ⟨_, _, rfl⟩ := parseEnd_ok trailer
    cases read
    rfl
  · obtain ⟨c, _, read⟩ := bind_eq_ok.mp read
    obtain ⟨_, read⟩ := check_ok read
    cases read
    rfl

theorem readLines_complete {texts : List (List Byte)}
    (read : s.readLines line ended texts = .ok (next, ended')) : next.complete = s.complete := by
  induction texts generalizing line s ended with
  | nil =>
    cases read
    rfl
  | cons text texts ih =>
    unfold Stream.readLines at read
    split at read
    · cases read
    next s' ended'' first => rw [ih read, readLine_complete first]

theorem checkTrailer_ok {s' : Stream} (checked : s.checkTrailer = .ok s') :
    s.checkpoints.length = s.declaredCount ∧
      (∀ c, s.checkpoints.getLast? = some c → c.icount = s.declaredLast) ∧
      s' = { s with complete := true } := by
  unfold Stream.checkTrailer at checked
  obtain ⟨counts, checked⟩ := check_ok checked
  refine ⟨not_not.mp counts, ?_⟩
  split at checked
  next last isLast =>
    obtain ⟨lasts, checked⟩ := check_ok checked
    cases checked
    refine ⟨fun c isIt => ?_, rfl⟩
    rw [isLast] at isIt
    cases isIt
    exact not_not.mp lasts
  next empty =>
    cases checked
    refine ⟨fun c isIt => ?_, rfl⟩
    rw [empty] at isIt
    cases isIt

/-- A stream that was read to its end has a trailer which agrees with its body. -/
theorem complete_of_readStream {name : String} {bytes : List Byte}
    (read : readStream name bytes = .ok s) (complete : s.complete = true) :
    ∃ body, ({ name } : Stream).readLines 0 false (scanLines bytes).1 = .ok (body, true) ∧
      body.checkTrailer = .ok s := by
  unfold readStream at read
  dsimp only at read
  split at read
  · cases read
  next body ended lines =>
    split at read
    · cases read
    split at read
    · cases read
    split at read
    · cases read
    cases ended with
    | true => exact ⟨body, lines, read⟩
    | false =>
      cases read
      rw [readLines_complete lines] at complete
      cases complete

theorem readLine_trailer {text : List Byte} (ends : Ends text)
    (read : s.readLine (line + 2) text false = .ok (next, ended)) :
    s.parseEnd (line + 2) text = .ok next := by
  have some_ : text ≠ [] := by
    rintro rfl
    cases ends_digit ends
  unfold Stream.readLine at read
  rw [if_neg some_, if_neg (by simp), if_neg (by omega),
    if_pos (List.isPrefixOf_iff_prefix.mpr ends)] at read
  obtain ⟨parsed, trailer, read⟩ := bind_eq_ok.mp read
  cases read
  exact trailer

/-- A part of the trailer claims an earlier end. -/
theorem parseEnd_part {text : List Byte} {count last : Nat} (lastFits : last < 2 ^ 64)
    (part : text <+: endLine count last) (proper : text ≠ endLine count last) (ends : Ends text)
    (parsed : s.parseEnd line text = .ok next) :
    next.checkpoints = s.checkpoints ∧ next.declaredLast < last := by
  obtain ⟨q, rfl⟩ := ends
  have start : streamEnd ++ [0x20] ++ q = streamEnd ++ 0x20 :: q := by simp
  rw [start] at part proper parsed
  have behind : q <+: decimal count ++ 0x20 :: decimal last := by
    unfold endLine at part
    exact (List.cons_prefix_cons.mp ((List.prefix_append_right_inj _).mp part)).2
  have marks : fields (streamEnd ++ 0x20 :: q) = streamEnd :: fields q :=
    fields_space (by unfold Plain; decide) (by decide)
  -- The trailer has three fields.
  have three : ∃ first second, fields q = [first, second] := by
    unfold Stream.parseEnd at parsed
    rw [marks] at parsed
    split at parsed
    next same => exact ⟨_, _, List.tail_eq_of_cons_eq same⟩
    · cases parsed
  obtain ⟨first, second, two⟩ := three
  have longer : ∃ l, q = decimal count ++ 0x20 :: l ∧ l <+: decimal last := by
    have oneField : ¬q <+: decimal count := by
      intro within
      have plain : ∀ byte ∈ q, Plain byte := fun byte member =>
        plain_digits byte (within.subset member)
      by_cases none_ : q = []
      · rw [none_] at two
        cases two
      · rw [fields_word plain none_] at two
        cases two
    obtain ⟨rest, whole⟩ := behind
    rcases List.append_eq_append_iff.mp whole with ⟨missing, longer, -⟩ | ⟨more, longer, tail⟩
    · exact absurd ⟨missing, longer.symm⟩ oneField
    · cases more with
      | nil => exact absurd ⟨[], by rw [longer, List.append_nil, List.append_nil]⟩ oneField
      | cons space l =>
        obtain ⟨rfl, after⟩ := List.cons.inj tail
        exact ⟨l, longer, rest, after.symm⟩
  obtain ⟨l, rfl, shorter⟩ := longer
  have some_ : l ≠ [] := by
    rintro rfl
    rw [fields_space plain_digits (decimal_ne_nil _)] at two
    cases two
  rcases prefix_decimal shorter some_ with whole | ⟨m, less, rfl⟩
  · rw [whole] at proper
    exact absurd rfl proper
  · unfold Stream.parseEnd at parsed
    rw [fields_end, fields_word plain_digits (decimal_ne_nil _)] at parsed
    obtain ⟨_, _, parsed⟩ := bind_eq_ok.mp parsed
    rw [parseNumber_decimal (by omega)] at parsed
    cases parsed
    exact ⟨rfl, less⟩

end Incomplete

/-- The lines of a stream that was closed. -/
def closedLines (interval : Nat) (cs : List Checkpoint) : List (List Byte) :=
  headerLine interval :: cs.map checkpointLine ++
    [endLine cs.length ((cs.getLast?.map Checkpoint.icount).getD 0)]

section RoundTrip

variable {interval : Nat} {cs : List Checkpoint} {name : String}

/-- The sequences that an emitter records. -/
structure Emitted (interval : Nat) (cs : List Checkpoint) : Prop where
  positive : 0 < interval
  fits : interval < 2 ^ 64
  ordered : cs.Pairwise fun c c' => c.icount < c'.icount
  below : ∀ c ∈ cs, c.icount < 2 ^ 64
  count : cs.length < 2 ^ 64

theorem Emitted.last (emitted : Emitted interval cs) :
    (cs.getLast?.map Checkpoint.icount).getD 0 < 2 ^ 64 := by
  cases isLast : cs.getLast? with
  | none => decide
  | some c => exact emitted.below c (List.mem_of_getLast? isLast)

theorem Emitted.whole (emitted : Emitted interval cs) :
    ∀ line ∈ closedLines interval cs, Whole line := by
  unfold closedLines
  rw [List.cons_append, List.forall_mem_cons, List.forall_mem_append, List.forall_mem_singleton,
    List.forall_mem_map]
  exact ⟨whole_header emitted.fits, fun c member => whole_checkpoint (emitted.below c member),
    whole_end emitted.count emitted.last⟩

/-- The stream is read as far as its trailer. -/
theorem Emitted.body (emitted : Emitted interval cs) :
    ({ name } : Stream).readLines 0 false (headerLine interval :: cs.map checkpointLine) =
      .ok ({ name, interval, checkpoints := cs }, false) := by
  rw [Stream.readLines, trimRight_of_not_mem (whole_header emitted.fits).noReturn,
    readLine_header emitted.positive emitted.fits]
  exact readLines_checkpoints emitted.ordered emitted.below

/-- A stream is read back whole. -/
theorem Emitted.readStream (emitted : Emitted interval cs) :
    readStream name (textOf (closedLines interval cs)) = .ok {
      name, interval
      checkpoints := cs
      complete := true
      declaredCount := cs.length
      declaredLast := (cs.getLast?.map Checkpoint.icount).getD 0 } := by
  have lines : ({ name } : Stream).readLines 0 false (closedLines interval cs) = .ok ({
      name, interval
      checkpoints := cs
      declaredCount := cs.length
      declaredLast := (cs.getLast?.map Checkpoint.icount).getD 0 }, true) := by
    unfold closedLines
    rw [readLines_append, emitted.body]
    change Stream.readLines _ _ _ [_] = _
    rw [readLines_one (whole_end emitted.count emitted.last), List.length_cons, Nat.zero_add]
    exact readLine_end emitted.count emitted.last
  have trailer : ({
      name, interval
      checkpoints := cs
      declaredCount := cs.length
      declaredLast := (cs.getLast?.map Checkpoint.icount).getD 0 } : Stream).checkTrailer = .ok {
      name, interval
      checkpoints := cs
      complete := true
      declaredCount := cs.length
      declaredLast := (cs.getLast?.map Checkpoint.icount).getD 0 } := by
    unfold Stream.checkTrailer
    cases isLast : cs.getLast? <;> simp <;> rfl
  have positive := emitted.positive
  unfold Statehash.readStream
  rw [scanLines_textOf emitted.whole]
  dsimp only
  rw [lines]
  dsimp only
  rw [if_neg (by simp [closedLines]), if_neg (by omega), if_pos rfl, trailer]

/-- No part of a stream that lacks more than the last line feed is complete. -/
theorem Emitted.truncated (emitted : Emitted interval cs) {k : Nat} {s : Stream}
    (less : k + 1 < (textOf (closedLines interval cs)).length)
    (read : Statehash.readStream name ((textOf (closedLines interval cs)).take k) = .ok s) :
    s.complete = false := by
  by_contra complete
  obtain ⟨body, lines, checked⟩ :=
    complete_of_readStream read (Bool.not_eq_false _ ▸ complete)
  obtain ⟨front, line, rest, part, split, starts, length, scanned⟩ :=
    scanLines_take emitted.whole k (by omega)
  rw [scanned] at lines
  dsimp only at lines
  have whole := emitted.whole
  rw [split, List.forall_mem_append, List.forall_mem_cons] at whole
  obtain ⟨wholeFront, wholeLine, -⟩ := whole
  have wholePart := wholeLine.part starts
  -- Some line of the part begins as a trailer: a line that was written, or its beginning.
  have ends : (∃ text ∈ front, Ends text) ∨ (part ≠ [] ∧ Ends part) := by
    obtain ⟨text, member, ends⟩ := readLines_ended lines
    rcases List.mem_append.mp member with inFront | isPart
    · rw [trimRight_of_not_mem (wholeFront text inFront).noReturn] at ends
      exact .inl ⟨text, inFront, ends⟩
    · split at isPart
      · cases isPart
      next some_ =>
        rw [List.mem_singleton.mp isPart, trimRight_of_not_mem wholePart.noReturn] at ends
        exact .inr ⟨some_, ends⟩
  have noTrailer : ∀ text ∈ headerLine interval :: cs.map checkpointLine, ¬Ends text := by
    rw [List.forall_mem_cons, List.forall_mem_map]
    exact ⟨not_ends_header interval, fun c _ => not_ends_checkpoint c⟩
  unfold closedLines at split
  rcases List.eq_nil_or_concat rest with rfl | ⟨others, last, rfl⟩
  · obtain ⟨rfl, isEnd⟩ := List.append_inj' split rfl
    obtain rfl := List.singleton_inj.mp isEnd
    rcases ends with ⟨text, inFront, ends⟩ | ⟨some_, ends⟩
    · exact noTrailer text inFront ends
    · rw [if_neg some_, readLines_append, emitted.body] at lines
      change Stream.readLines _ _ _ [_] = _ at lines
      rw [readLines_one wholePart, List.length_cons, Nat.zero_add] at lines
      have proper : part ≠ endLine cs.length ((cs.getLast?.map Checkpoint.icount).getD 0) := by
        rintro rfl
        have total : (textOf (closedLines interval cs)).length =
            (textOf (headerLine interval :: cs.map checkpointLine)).length +
              (endLine cs.length ((cs.getLast?.map Checkpoint.icount).getD 0)).length + 1 := by
          unfold textOf closedLines
          rw [List.flatMap_append, List.length_append]
          simp
          omega
        omega
      obtain ⟨same, earlier⟩ :=
        parseEnd_part emitted.last starts proper ends (readLine_trailer ends lines)
      obtain ⟨-, lasts, -⟩ := checkTrailer_ok checked
      rw [same] at lasts
      cases isLast : cs.getLast? with
      | none =>
        rw [isLast] at earlier
        exact Nat.not_lt_zero _ earlier
      | some c =>
        have at_ := lasts c isLast
        rw [isLast, ← at_] at earlier
        exact Nat.lt_irrefl _ earlier
  · have within : headerLine interval :: cs.map checkpointLine = front ++ line :: others := by
      rw [List.concat_eq_append, ← List.cons_append, ← List.append_assoc] at split
      exact (List.append_inj' split rfl).1
    rw [within, List.forall_mem_append, List.forall_mem_cons] at noTrailer
    rcases ends with ⟨text, inFront, ends⟩ | ⟨-, ends⟩
    · exact noTrailer.1 text inFront ends
    · exact noTrailer.2.1 (ends.trans starts)

theorem Emitter.Recorded.emitted {boundary : Nat} {e : Emitter}
    (state : e.Recorded interval cs boundary) (positive : 0 < interval) (fits : interval < 2 ^ 64) :
    Emitted interval cs where
  positive := positive
  fits := fits
  ordered := state.windows.imp fun {c c'} less => by
    by_contra later
    have := Nat.div_le_div_right (c := interval) (Nat.not_lt.mp later)
    change c'.icount / interval ≤ c.icount / interval at this
    exact Nat.not_lt.mpr this less
  below := state.below
  count := by
    have length := state.length_le
    have scaled := Nat.le_mul_of_pos_right boundary positive
    have := state.fits
    omega

/-- What was emitted and closed is read back: a checkpoint for each window that was observed,
its first.  No part of it that lacks more than the last line feed is complete. -/
theorem stream_round_trip {started : Emitter} {observations : List Checkpoint}
    (opened : newEmitter interval = .ok started) (fits : interval < 2 ^ 64)
    (ordered : observations.Pairwise fun o o' => o.icount ≤ o'.icount)
    (below : ∀ o ∈ observations, o.icount < 2 ^ 64 - interval) :
    ∃ closed, (started.observeAll observations).close = .ok closed ∧
      (∃ s, readStream name closed.written = .ok s ∧ s.interval = interval ∧
        s.checkpoints = started.recorded observations ∧ s.complete = true) ∧
      (∀ w, (started.recorded observations).filter (fun c => c.window interval = w) =
        (observations.find? fun o => o.window interval = w).toList) ∧
      ∀ k s, k + 1 < closed.written.length →
        readStream name (closed.written.take k) = .ok s → s.complete = false := by
  obtain ⟨positive, state⟩ := Emitter.recorded_new opened
  obtain ⟨boundary, final⟩ := Emitter.recorded_run state positive below
  rw [List.nil_append] at final
  have emitted := final.emitted positive fits
  have closed : (started.observeAll observations).close = .ok {
      started.observeAll observations with
      closed := true
      written := textOf (closedLines interval (started.recorded observations)) } := by
    unfold Emitter.close
    rw [final.sound]
    dsimp only
    rw [if_neg (by simp [final.open_]), final.written, final.count, final.last]
    simp [textOf, closedLines, List.flatMap_map, final.sound]
  refine ⟨_, closed, ⟨_, emitted.readStream, rfl, rfl, rfl⟩, fun w => ?_, fun k s less read => ?_⟩
  · exact Emitter.filter_recorded state positive ordered below w
  · exact emitted.truncated less read

/-- A branch steps over a boundary between these observations. -/
def branchObservations : List Checkpoint :=
  [⟨0, 0x1A2B3C4D⟩, ⟨999, 7⟩, ⟨1001, 0x5E6F7081⟩]

theorem stream_round_trip_branch :
    ∃ started closed, newEmitter 1000 = .ok started ∧
      (started.observeAll branchObservations).close = .ok closed ∧
      (∃ s, readStream "go" closed.written = .ok s ∧ s.interval = 1000 ∧
        s.checkpoints = started.recorded branchObservations ∧ s.complete = true) ∧
      (∀ w, (started.recorded branchObservations).filter (fun c => c.window 1000 = w) =
        (branchObservations.find? fun o => o.window 1000 = w).toList) ∧
      ∀ k s, k + 1 < closed.written.length →
        readStream "go" (closed.written.take k) = .ok s → s.complete = false := by
  obtain ⟨closed, rest⟩ :=
    @stream_round_trip 1000 "go" _ branchObservations rfl (by decide) (by decide) (by decide)
  exact ⟨_, closed, rfl, rest⟩

end RoundTrip

end Statehash

end GoRetroTv
