import GoRetroTv.NearestEven
import GoRetroTv.NumberText
import GoRetroTv.PlaylistTimeline

/-!
# The playlist's script

`concatScript` of `internal/media/encoder.go` writes the list that is played from a position as
the text of an `ffconcat` file: a path between quotes, and its duration in seconds with six
decimals.  Read back, the text is that list, as far as six decimals can tell.
-/

namespace GoRetroTv

namespace Media

/-- A path between single quotes. -/
def quotedPath (path : List Byte) : List Byte :=
  path.flatMap fun c => if c = 0x27 then ascii "'\\''" else [c]

/-- `Duration.Seconds`.  Either of its steps rounds to a double; both whole numbers fit one. -/
def seconds (d : Int) : ℚ :=
  nearestBinary 53 ((d.tdiv (10 ^ 9) : Int) + nearestBinary 53 ((d.tmod (10 ^ 9) : Int) / 10 ^ 9))

/-- The microseconds that are printed. -/
def micros (d : Int) : Int :=
  roundEven (seconds d * 10 ^ 6)

def sixDigits (n : Nat) : List Byte :=
  (List.range 6).reverse.map fun place => BitVec.ofNat 8 (48 + n / 10 ^ place % 10)

/-- `durationArgument`: seconds with six decimals. -/
def durationArgument (d : Int) : List Byte :=
  (if d < 0 then [0x2d] else []) ++ decimal ((micros d).natAbs / 10 ^ 6) ++
    0x2e :: sixDigits ((micros d).natAbs % 10 ^ 6)

/-- The two lines of an item. -/
def fileLine (item : Item) : List Byte :=
  ascii "file '" ++ quotedPath item.path ++ ascii "'"

def durationLine (item : Item) : List Byte :=
  ascii "duration " ++ durationArgument item.duration

def itemLines (item : Item) : List Byte :=
  fileLine item ++ 0x0a :: (durationLine item ++ [0x0a])

def Item.broken (item : Item) : Bool :=
  item.path.contains 0x0d || item.path.contains 0x0a

/-- A round of the loop of `concatScript`. -/
def writeItem (body : List Byte) (item : Item) : Except String (List Byte) :=
  if item.broken then .error "media: filename contains a newline"
  else .ok (body ++ itemLines item)

def concatBody (items : List Item) : Except String (List Byte) :=
  items.foldlM writeItem (ascii "ffconcat version 1.0\n")

/-- What `concatScript` puts in its file. -/
def concatScript (p : Playlist) (position : Position) : Except String (List Byte) := do
  concatBody (← concatItems p position)

/-- What a quoted token stands for: single quotes keep what is between them, and outside them a
backslash keeps the next byte and a blank ends the token. -/
def unquote : Bool → List Byte → List Byte
  | _, [] => []
  | true, c :: rest => if c = 0x27 then unquote false rest else c :: unquote true rest
  | false, c :: rest =>
      if c = 0x27 then unquote true rest
      else if c = 0x5c then
        match rest with
        | [] => [c]
        | kept :: rest => kept :: unquote false rest
      else if c = 0x20 ∨ c = 0x09 ∨ c = 0x0d then []
      else c :: unquote false rest

/-- The rest of a line that starts with a keyword. -/
def keyword (word line : List Byte) : Option (List Byte) :=
  if word.isPrefixOf line then some (line.drop word.length) else none

/-- Seconds with six decimals. -/
def readSeconds (text : List Byte) : Option Int :=
  match text.splitOn 0x2e with
  | [whole, decimals] =>
      match Strconv.digits 10 (2 ^ 63) 0 whole, Strconv.digits 10 (10 ^ 6) 0 decimals with
      | .ok whole, .ok micros =>
          if decimals.length = 6 then some ((whole * 10 ^ 6 + micros) * 1000) else none
      | _, _ => none
  | _ => none

def readItems : List (List Byte) → Option (List Item)
  | file :: duration :: rest => do
      let path ← keyword (ascii "file ") file
      let duration ← (keyword (ascii "duration ") duration).bind readSeconds
      return { path := unquote false path, duration } :: (← readItems rest)
  | [line] => if line = [] then some [] else none
  | [] => some []

/-- The items of a script, as `ffconcat` defines it. -/
def readScript (text : List Byte) : Option (List Item) :=
  match text.splitOn 0x0a with
  | header :: lines => if header = ascii "ffconcat version 1.0" then readItems lines else none
  | [] => none

section Durations

theorem sixDigits_bytes {n : Nat} {byte : Byte} (member : byte ∈ sixDigits n) :
    48 ≤ byte.toNat ∧ byte.toNat ≤ 57 := by
  obtain ⟨place, -, rfl⟩ := List.mem_map.mp member
  have digit := Nat.mod_lt (n / 10 ^ place) (show 10 > 0 by decide)
  rw [BitVec.toNat_ofNat, Nat.mod_eq_of_lt (by omega)]
  omega

theorem durationArgument_line {d : Int} : (0x0a : Byte) ∉ durationArgument d := by
  unfold durationArgument
  rw [List.append_assoc, List.mem_append, List.mem_append, List.mem_cons]
  rintro (sign | whole | point | decimals)
  · split at sign
    · exact absurd sign (by decide)
    · exact absurd sign List.not_mem_nil
  · exact absurd (decimal_bytes whole) (by decide)
  · exact absurd point (by decide)
  · exact absurd (sixDigits_bytes decimals) (by decide)

variable {d : Int}

/-- The double is within half a microsecond. -/
theorem seconds_error (positive : 0 ≤ d) (short : d < 2 ^ 33 * 10 ^ 9) :
    |seconds d - d / 10 ^ 9| ≤ 1 / 2 ^ 21 + 1 / 2 ^ 54 := by
  have whole : d.tdiv (10 ^ 9) = d / 10 ^ 9 := Int.tdiv_eq_ediv_of_nonneg positive
  have part : d.tmod (10 ^ 9) = d % 10 ^ 9 := Int.tmod_eq_emod_of_nonneg positive
  have sum : (d : ℚ) = ((d / 10 ^ 9 : Int) : ℚ) * 10 ^ 9 + ((d % 10 ^ 9 : Int) : ℚ) := by
    have := Int.ediv_mul_add_emod d (10 ^ 9)
    exact_mod_cast this.symm
  unfold seconds
  rw [whole, part]
  generalize isQuotient : d / 10 ^ 9 = q at *
  generalize isRest : d % 10 ^ 9 = r at *
  have low : (0 : ℚ) ≤ q := by
    have : 0 ≤ q := by omega
    exact_mod_cast this
  have high : (q : ℚ) ≤ 2 ^ 33 - 1 := by
    have : q ≤ 2 ^ 33 - 1 := by omega
    exact_mod_cast this
  have restLow : (0 : ℚ) ≤ r := by
    have : 0 ≤ r := by omega
    exact_mod_cast this
  have restHigh : (r : ℚ) ≤ 10 ^ 9 - 1 := by
    have : r ≤ 10 ^ 9 - 1 := by omega
    exact_mod_cast this
  have fraction : |(r : ℚ) / 10 ^ 9| < 2 ^ (0 : ℤ) := by
    rw [abs_lt]
    constructor
    · linarith
    · linarith
  have first := @nearestBinary_error 53 _ _ fraction
  generalize nearestBinary 53 ((r : ℚ) / 10 ^ 9) = near at *
  have small : (2 : ℚ) ^ ((0 : ℤ) - (53 : ℕ) - 1) = 1 / 2 ^ 54 := by norm_num
  rw [small, abs_le] at first
  have bound : |(q : ℚ) + near| < 2 ^ (33 : ℤ) := by
    rw [abs_lt]
    constructor
    · linarith
    · linarith
  have second := @nearestBinary_error 53 _ _ bound
  have half : (2 : ℚ) ^ ((33 : ℤ) - (53 : ℕ) - 1) = 1 / 2 ^ 21 := by norm_num
  rw [half, abs_le] at second
  have split_ : ((q : ℚ) * 10 ^ 9 + r) / 10 ^ 9 = q + r / 10 ^ 9 := by
    rw [add_div, mul_div_cancel_right₀ _ (by norm_num)]
  rw [abs_le, sum, split_]
  constructor
  · linarith
  · linarith

/-- The microseconds that are printed are less than one away. -/
theorem micros_error (positive : 0 ≤ d) (short : d < 2 ^ 33 * 10 ^ 9) :
    |micros d * 1000 - d| < 1000 := by
  have near := seconds_error positive short
  have rounds : |(micros d : ℚ) - seconds d * 10 ^ 6| ≤ 1 / 2 := roundEven_error _
  rw [abs_le] at near
  rw [abs_le] at rounds
  have close : |(micros d : ℚ) * 1000 - d| < 1000 := by
    rw [abs_lt]
    constructor
    · linarith
    · linarith
  exact_mod_cast close

/-- Whole microseconds are printed as they are. -/
theorem micros_whole (positive : 0 ≤ d) (short : d < 2 ^ 33 * 10 ^ 9) (whole : 1000 ∣ d) :
    micros d * 1000 = d := by
  obtain ⟨n, rfl⟩ := whole
  have near := seconds_error positive short
  rw [abs_le, Int.cast_mul, Int.cast_ofNat] at near
  have same : micros (1000 * n) = n := by
    refine roundEven_eq (abs_lt.mpr ?_)
    constructor
    · linarith
    · linarith
  rw [same, Int.mul_comm]

theorem micros_nonneg (positive : 0 ≤ d) (short : d < 2 ^ 33 * 10 ^ 9) : 0 ≤ micros d := by
  have close := abs_lt.mp (micros_error positive short)
  omega

theorem readSeconds_durationArgument (positive : 0 ≤ d) (short : d < 2 ^ 33 * 10 ^ 9) :
    readSeconds (durationArgument d) = some (micros d * 1000) := by
  have close := abs_lt.mp (micros_error positive short)
  obtain ⟨n, isMicros⟩ := Int.eq_ofNat_of_zero_le (micros_nonneg positive short)
  have whole : Strconv.digits 10 (2 ^ 63) 0 (decimal (n / 10 ^ 6)) = .ok (n / 10 ^ 6) :=
    Strconv.digits_decimal (by omega)
  have decimals : Strconv.digits 10 (10 ^ 6) 0 (sixDigits (n % 10 ^ 6)) =
      .ok (0 * 10 ^ 6 + n % 10 ^ 6 % 10 ^ 6) :=
    Strconv.digits_places (by decide) Strconv.digitValue_decimal 6 (by omega)
  have noPoint : (0x2e : Byte) ∉ decimal (n / 10 ^ 6) := fun member =>
    absurd (decimal_bytes member) (by decide)
  have noPoint' : (0x2e : Byte) ∉ sixDigits (n % 10 ^ 6) := fun member =>
    absurd (sixDigits_bytes member) (by decide)
  unfold durationArgument readSeconds
  rw [if_neg (Int.not_lt.mpr positive), isMicros, Int.natAbs_natCast, List.nil_append,
    List.splitOn_append_cons_self_of_not_mem noPoint, List.splitOn_eq_singleton noPoint']
  dsimp only
  rw [whole, decimals]
  dsimp only
  rw [if_pos (show (sixDigits _).length = 6 from rfl)]
  refine congrArg some ?_
  omega

end Durations

section Lines

variable {items : List Item} {item : Item} {path rest : List Byte}

theorem unquote_open : unquote false (0x27 :: rest) = unquote true rest := by
  cases rest <;> rfl

theorem unquote_quote : unquote true (ascii "'\\''" ++ rest) = 0x27 :: unquote true rest := by
  have bytes : ascii "'\\''" = [0x27, 0x5c, 0x27, 0x27] := by decide
  rw [bytes]
  change unquote false (0x5c :: 0x27 :: 0x27 :: rest) = _
  change 0x27 :: unquote false (0x27 :: rest) = _
  rw [unquote_open]

/-- Between its quotes a path stands for itself. -/
theorem unquote_quotedPath :
    unquote true (quotedPath path ++ 0x27 :: rest) = path ++ unquote false rest := by
  induction path with
  | nil => rfl
  | cons c path ih =>
    unfold quotedPath at ih ⊢
    rw [List.flatMap_cons]
    by_cases quote : c = 0x27
    · rw [if_pos quote, quote, List.append_assoc, unquote_quote, ih]
      rfl
    · rw [if_neg quote, List.singleton_append, List.cons_append, unquote, if_neg quote, ih]
      rfl

theorem quotedPath_line (unbroken : (0x0a : Byte) ∉ path) : (0x0a : Byte) ∉ quotedPath path := by
  unfold quotedPath
  rw [List.mem_flatMap]
  rintro ⟨c, member, inside⟩
  split at inside
  · exact absurd inside (by decide)
  · exact unbroken (List.mem_singleton.mp inside ▸ member)

theorem keyword_append {word : List Byte} : keyword word (word ++ rest) = some rest := by
  unfold keyword
  rw [if_pos (List.isPrefixOf_iff_prefix.mpr (List.prefix_append word rest)), List.drop_left]

/-- An item as it is read. -/
def Item.written (item : Item) : Item :=
  { item with duration := micros item.duration * 1000 }

theorem item_lines (unbroken : item.broken = false) :
    (itemLines item ++ rest).splitOn 0x0a =
      fileLine item :: durationLine item :: rest.splitOn 0x0a := by
  unfold Item.broken at unbroken
  rw [Bool.or_eq_false_iff, List.contains_eq_mem, List.contains_eq_mem,
    decide_eq_false_iff_not, decide_eq_false_iff_not] at unbroken
  have noBreak : (0x0a : Byte) ∉ fileLine item := by
    unfold fileLine
    rw [List.mem_append, List.mem_append]
    rintro ((head | path) | tail)
    · exact absurd head (by decide)
    · exact quotedPath_line unbroken.2 path
    · exact absurd tail (by decide)
  have noBreak' : (0x0a : Byte) ∉ durationLine item := by
    unfold durationLine
    rw [List.mem_append]
    rintro (head | duration)
    · exact absurd head (by decide)
    · exact durationArgument_line duration
  unfold itemLines
  rw [List.append_assoc, List.cons_append, List.append_assoc, List.singleton_append,
    List.splitOn_append_cons_self_of_not_mem noBreak,
    List.splitOn_append_cons_self_of_not_mem noBreak']

theorem readItems_cons {lines : List (List Byte)} (positive : 0 ≤ item.duration)
    (short : item.duration < 2 ^ 33 * 10 ^ 9) :
    readItems (fileLine item :: durationLine item :: lines) =
      (readItems lines).map (item.written :: ·) := by
  have file : keyword (ascii "file ") (fileLine item) =
      some (0x27 :: (quotedPath item.path ++ 0x27 :: [])) := by
    exact keyword_append
  have path : unquote false (0x27 :: (quotedPath item.path ++ 0x27 :: [])) = item.path := by
    rw [unquote_open, unquote_quotedPath, unquote, List.append_nil]
  unfold durationLine
  rw [readItems, file, keyword_append, Option.bind_some,
    readSeconds_durationArgument positive short]
  cases readItems lines
  · rfl
  · change some (Item.mk _ _ :: _) = _
    rw [path]
    rfl

theorem readItems_written (positive : ∀ item ∈ items, 0 ≤ item.duration)
    (short : ∀ item ∈ items, item.duration < 2 ^ 33 * 10 ^ 9)
    (unbroken : ∀ item ∈ items, item.broken = false) :
    readItems ((items.flatMap itemLines).splitOn 0x0a) = some (items.map Item.written) := by
  induction items with
  | nil => rfl
  | cons item items ih =>
    have first := List.mem_cons_self (a := item) (l := items)
    rw [List.flatMap_cons, item_lines (unbroken item first),
      readItems_cons (positive item first) (short item first),
      ih (fun other member => positive other (List.mem_cons_of_mem _ member))
        (fun other member => short other (List.mem_cons_of_mem _ member))
        (fun other member => unbroken other (List.mem_cons_of_mem _ member))]
    rfl

theorem writeItems (unbroken : ∀ item ∈ items, item.broken = false) (body : List Byte) :
    items.foldlM writeItem body = .ok (body ++ items.flatMap itemLines) := by
  induction items generalizing body with
  | nil =>
    rw [List.flatMap_nil, List.append_nil]
    rfl
  | cons item items ih =>
    have written : writeItem body item = .ok (body ++ itemLines item) := by
      rw [writeItem, unbroken item List.mem_cons_self, if_neg Bool.false_ne_true]
    rw [List.foldlM_cons, written, List.flatMap_cons, ← List.append_assoc]
    exact ih (fun other member => unbroken other (List.mem_cons_of_mem _ member)) _

theorem writeItems_refused (broken : ∃ item ∈ items, item.broken = true) (body : List Byte) :
    items.foldlM writeItem body = .error "media: filename contains a newline" := by
  induction items generalizing body with
  | nil =>
    obtain ⟨item, member, -⟩ := broken
    exact absurd member List.not_mem_nil
  | cons item items ih =>
    rw [List.foldlM_cons, writeItem]
    cases here : item.broken with
    | true => rfl
    | false =>
      rw [if_neg Bool.false_ne_true]
      refine ih ?_ _
      obtain ⟨other, member, also⟩ := broken
      rcases List.mem_cons.mp member with rfl | later
      · rw [here] at also
        exact Bool.noConfusion also
      · exact ⟨other, later, also⟩

/-- What is written of a list without line breaks reads back to it. -/
theorem readScript_written (positive : ∀ item ∈ items, 0 ≤ item.duration)
    (short : ∀ item ∈ items, item.duration < 2 ^ 33 * 10 ^ 9)
    (unbroken : ∀ item ∈ items, item.broken = false) :
    ∃ text, concatBody items = .ok text ∧ readScript text = some (items.map Item.written) := by
  refine ⟨_, writeItems unbroken _, ?_⟩
  have header : ascii "ffconcat version 1.0\n" ++ items.flatMap itemLines =
      ascii "ffconcat version 1.0" ++ 0x0a :: items.flatMap itemLines := rfl
  unfold readScript
  rw [header, List.splitOn_append_cons_self_of_not_mem (by decide)]
  dsimp only
  rw [if_pos rfl, readItems_written positive short unbroken]

end Lines

namespace Playlist

variable {p : Playlist} {elapsed : Int} {position : Position} {i : Nat}

/-- The list that is played from an item. -/
def turned (p : Playlist) (i : Nat) : List Item :=
  p.items.drop i ++ if p.loop then p.items.take i else []

/-- The script that is written at a time, played from the offset, is at what `At` answers
later. -/
def Follows (p : Playlist) (elapsed : Int) (position : Position) : Prop :=
  ∃ text items, concatScript p position = .ok text ∧ readScript text = some items ∧
    ∀ t later, 0 ≤ t → p.at_ (elapsed + t) = .ok later →
      played p.loop items position.offset t = some later

/-- The items that stand in a text as they are. -/
structure Plain (item : Item) : Prop where
  unbroken : item.broken = false
  short : item.duration < 2 ^ 33 * 10 ^ 9
  whole : 1000 ∣ item.duration

theorem turned_items {item : Item} (member : item ∈ p.turned i) : item ∈ p.items := by
  unfold turned at member
  rcases List.mem_append.mp member with later | earlier
  · exact List.mem_of_mem_drop later
  · split at earlier
    · exact List.mem_of_mem_take earlier
    · exact absurd earlier List.not_mem_nil

theorem concatItems_live (probed : p.Probed) (live : p.Live elapsed i position) :
    concatItems p position = .ok (p.turned i) := by
  have here := live.item
  obtain ⟨inside, isItem⟩ := List.getElem?_eq_some_iff.mp here
  have split_ : p.items = p.items.take i ++ position.item :: p.items.drop (i + 1) := by
    rw [← isItem, List.getElem_cons_drop, List.take_append_drop]
  rw [concatItems_split probed split_, turned, ← isItem, List.getElem_cons_drop]

theorem concatScript_live (probed : p.Probed) (live : p.Live elapsed i position) :
    concatScript p position = concatBody (p.turned i) := by
  unfold concatScript
  rw [concatItems_live probed live]
  rfl

/-- `concatScript` refuses the lists with a line break in a path. -/
theorem concatScript_refuses (probed : p.Probed) (live : p.Live elapsed i position) :
    concatScript p position = .error "media: filename contains a newline" ↔
      ∃ item ∈ p.turned i, item.broken = true := by
  rw [concatScript_live probed live]
  constructor
  · intro refused
    by_contra unbroken
    have written := @writeItems (p.turned i) (fun item member =>
      Bool.eq_false_iff.mpr fun broken => unbroken ⟨item, member, broken⟩)
      (ascii "ffconcat version 1.0\n")
    unfold concatBody at refused
    rw [refused] at written
    cases written
  · intro broken
    exact writeItems_refused broken _

theorem concatScript_reads (probed : p.Probed) (live : p.Live elapsed i position)
    (unbroken : ∀ item ∈ p.turned i, item.broken = false)
    (short : ∀ item ∈ p.turned i, item.duration < 2 ^ 33 * 10 ^ 9) :
    ∃ text, concatScript p position = .ok text ∧
      readScript text = some ((p.turned i).map Item.written) := by
  rw [concatScript_live probed live]
  exact readScript_written
    (fun item member => (probed.positive item (turned_items member)).le) short unbroken

/-- Plain items are read as they were. -/
theorem follows (probed : p.Probed) (accepted : p.at_ elapsed = .ok position)
    (live : p.Live elapsed i position) (plain : ∀ item ∈ p.turned i, Plain item) :
    p.Follows elapsed position := by
  obtain ⟨items, listed, follows⟩ := played_at probed accepted
  rw [concatItems_live probed live] at listed
  cases listed
  obtain ⟨text, written, read⟩ := concatScript_reads probed live
    (fun item member => (plain item member).unbroken) fun item member => (plain item member).short
  have same : (p.turned i).map Item.written = p.turned i := by
    conv => rhs; rw [← List.map_id (p.turned i)]
    refine List.map_congr_left fun item member => ?_
    have positive := probed.positive item (turned_items member)
    have kept := micros_whole positive.le (plain item member).short (plain item member).whole
    unfold Item.written
    rw [kept]
    rfl
  rw [same] at read
  exact ⟨text, p.turned i, written, read, follows⟩

end Playlist

/-- `At` answers the one place that is live.  The script of that place is refused for a line
break; without one it has the same files, each as long as six decimals tell; and where they tell
all, it is played along with `At`. -/
theorem playlist_timeline (p : Playlist) (probed : p.Probed) :
    (∀ elapsed position, p.at_ elapsed = .ok position →
      ∃ i, p.Live elapsed i position ∧
        ∀ j other, p.Live elapsed j other → j = i ∧ other = position) ∧
    ∀ elapsed position i, p.at_ elapsed = .ok position → p.Live elapsed i position →
      (concatScript p position = .error "media: filename contains a newline" ↔
        ∃ item ∈ p.turned i, item.broken = true) ∧
      ((∀ item ∈ p.turned i, item.broken = false ∧ item.duration < 2 ^ 33 * 10 ^ 9) →
        ∃ text items, concatScript p position = .ok text ∧ readScript text = some items ∧
          List.Forall₂ (fun item back =>
            back.path = item.path ∧ |back.duration - item.duration| < 1000) (p.turned i) items) ∧
      ((∀ item ∈ p.turned i, Playlist.Plain item) → p.Follows elapsed position) := by
  refine ⟨fun _ _ accepted => Playlist.at_live probed accepted,
    fun elapsed position i accepted live => ⟨Playlist.concatScript_refuses probed live, ?_,
      Playlist.follows probed accepted live⟩⟩
  intro fits
  obtain ⟨text, written, read⟩ := Playlist.concatScript_reads probed live
    (fun item member => (fits item member).1) fun item member => (fits item member).2
  refine ⟨text, _, written, read, List.forall₂_map_right_iff.mpr (List.forall₂_same.mpr ?_)⟩
  intro item member
  have positive := probed.positive item (Playlist.turned_items member)
  exact ⟨rfl, micros_error positive.le (fits item member).2⟩

/-- Two files of two and three seconds, in a loop. -/
def twoFiles : Playlist where
  items := [⟨ascii "a.ts", 2000000000⟩, ⟨ascii "b.ts", 3000000000⟩]
  total := 5000000000
  loop := true

theorem playlist_timeline_twoFiles :
    twoFiles.Probed ∧ ∃ text items,
      concatScript twoFiles ⟨⟨ascii "b.ts", 3000000000⟩, 1000000000⟩ = .ok text ∧
        readScript text = some items ∧
        played true items 1000000000 3000000000 =
          some ⟨⟨ascii "a.ts", 2000000000⟩, 1000000000⟩ := by
  have probed : twoFiles.Probed :=
    ⟨by decide, by decide, by decide, by decide⟩
  have accepted : twoFiles.at_ 8000000000 =
      .ok ⟨⟨ascii "b.ts", 3000000000⟩, 1000000000⟩ := by rfl
  have live : twoFiles.Live 8000000000 1 ⟨⟨ascii "b.ts", 3000000000⟩, 1000000000⟩ :=
    ⟨by decide, by decide, by decide, by decide⟩
  have plain : ∀ item ∈ twoFiles.turned 1, Playlist.Plain item := by
    intro item member
    have either : item = ⟨ascii "b.ts", 3000000000⟩ ∨ item = ⟨ascii "a.ts", 2000000000⟩ := by
      simpa [Playlist.turned, twoFiles] using member
    rcases either with rfl | rfl
    · exact ⟨by decide, by decide, by decide⟩
    · exact ⟨by decide, by decide, by decide⟩
  obtain ⟨text, items, written, read, follows⟩ :=
    ((playlist_timeline twoFiles probed).2 _ _ 1 accepted live).2.2 plain
  exact ⟨probed, text, items, written, read, follows 3000000000 _ (by decide) (by rfl)⟩

/-- A file whose name goes on in a second line. -/
def twoLines : Playlist where
  items := [⟨ascii "a\nb.ts", 2000000000⟩]
  total := 2000000000
  loop := false

/-- Two files, each ten nanoseconds longer than a microsecond. -/
def shortFiles : Playlist where
  items := [⟨ascii "a.ts", 1010⟩, ⟨ascii "b.ts", 1010⟩]
  total := 2020
  loop := true

/-- A file that is a microsecond longer than the seconds of a double keep apart. -/
def longFile : Playlist where
  items := [⟨ascii "a.ts", 8589934592000001000⟩]
  total := 8589934592000001000
  loop := true

theorem script_parts :
    (twoLines.Probed ∧ twoLines.at_ 0 = .ok ⟨⟨ascii "a\nb.ts", 2000000000⟩, 0⟩ ∧
      ¬ twoLines.Follows 0 ⟨⟨ascii "a\nb.ts", 2000000000⟩, 0⟩) ∧
    (shortFiles.Probed ∧ shortFiles.at_ 0 = .ok ⟨⟨ascii "a.ts", 1010⟩, 0⟩ ∧
      ¬ shortFiles.Follows 0 ⟨⟨ascii "a.ts", 1010⟩, 0⟩) ∧
    (longFile.Probed ∧ longFile.at_ 0 = .ok ⟨⟨ascii "a.ts", 8589934592000001000⟩, 0⟩ ∧
      ¬ longFile.Follows 0 ⟨⟨ascii "a.ts", 8589934592000001000⟩, 0⟩) := by
  refine ⟨⟨⟨by decide, by decide, by decide, by decide⟩, by rfl, ?_⟩,
    ⟨⟨by decide, by decide, by decide, by decide⟩, by rfl, ?_⟩,
    ⟨⟨by decide, by decide, by decide, by decide⟩, by rfl, ?_⟩⟩
  · rintro ⟨text, items, written, -, -⟩
    have refused : concatScript twoLines ⟨⟨ascii "a\nb.ts", 2000000000⟩, 0⟩ =
        .error "media: filename contains a newline" := by rfl
    rw [refused] at written
    cases written
  · rintro ⟨text, items, written, read, follows⟩
    -- Either file is a microsecond in the text: after 1005 ns it has gone on to the second.
    have rounded : (concatScript shortFiles ⟨⟨ascii "a.ts", 1010⟩, 0⟩).toOption.bind readScript =
        some [⟨ascii "a.ts", 1000⟩, ⟨ascii "b.ts", 1000⟩] := by
      decide +kernel
    rw [written] at rounded
    cases read.symm.trans rounded
    exact absurd (follows 1005 ⟨⟨ascii "a.ts", 1010⟩, 1005⟩ (by decide) (by rfl)) (by decide)
  · rintro ⟨text, items, written, read, follows⟩
    -- The file is a microsecond longer in the text, so it starts again too late.
    have rounded : (concatScript longFile ⟨⟨ascii "a.ts", 8589934592000001000⟩, 0⟩).toOption.bind
        readScript = some [⟨ascii "a.ts", 8589934592000002000⟩] := by
      decide +kernel
    rw [written] at rounded
    cases read.symm.trans rounded
    exact absurd (follows 8589934592000001000 ⟨⟨ascii "a.ts", 8589934592000001000⟩, 0⟩
      (by decide) (by rfl)) (by decide)

end Media

end GoRetroTv
