import GoRetroTv.MachineWords
import Mathlib.Algebra.BigOperators.Group.List.Basic
import Mathlib.Algebra.Order.BigOperators.Group.List

/-!
# The playlist's timeline

`internal/media`: `Playlist.At` finds the file that is live at an elapsed time, and
`concatScript` takes the list that is played from there, turned round when the playlist
loops.  A time is a whole number of nanoseconds.
-/

namespace GoRetroTv

namespace Media

/-- `fmtFrac`: the places of a fraction, without its trailing zeros. -/
def fraction (value : Nat) : Nat → String
  | 0 => ""
  | places + 1 =>
      if value % 10 ^ (places + 1) = 0 then ""
      else
        let rest := fraction (value % 10 ^ places) places
        toString (value / 10 ^ places % 10) ++ rest

/-- A number of units with so many decimal places. -/
def fixed (value places : Nat) : String :=
  let fraction := fraction value places
  toString (value / 10 ^ places) ++ (if fraction = "" then "" else "." ++ fraction)

/-- `Duration.String`. -/
def durationText (d : Int) : String :=
  let u := d.natAbs
  let second := 10 ^ 9
  let unsigned :=
    if u = 0 then "0s"
    else if u < 10 ^ 3 then fixed u 0 ++ "ns"
    else if u < 10 ^ 6 then fixed u 3 ++ "µs"
    else if u < second then fixed u 6 ++ "ms"
    else
      let minutes := u / (60 * second)
      let hours := minutes / 60
      (if hours = 0 then "" else s!"{hours}h") ++
        (if minutes = 0 then "" else s!"{minutes % 60}m") ++
        fixed (u % (60 * second)) 9 ++ "s"
  if d < 0 then "-" ++ unsigned else unsigned

/-- One file of the timeline. -/
structure Item where
  path : List Byte
  duration : Int
  deriving DecidableEq

structure Playlist where
  items : List Item
  total : Int
  loop : Bool

/-- The file and the offset that are live. -/
structure Position where
  item : Item
  offset : Int
  deriving DecidableEq

/-- The loop of `At`. -/
def locate : List Item → Int → Option Position
  | [], _ => none
  | item :: items, elapsed =>
      if elapsed < item.duration then some { item, offset := elapsed }
      else locate items (elapsed - item.duration)

/-- `At`. -/
def Playlist.at_ (elapsed : Int) (p : Playlist) : Except String Position :=
  if elapsed < 0 ∨ p.total ≤ 0 ∨ p.items = [] then
    .error s!"media: invalid playlist position {durationText elapsed}"
  else if p.loop = false ∧ p.total ≤ elapsed then
    .error <| s!"media: programme offset {durationText elapsed} is beyond playlist duration " ++
      durationText p.total
  else
    match locate p.items (if p.loop then elapsed.tmod p.total else elapsed) with
    | some position => .ok position
    | none => .error "media: playlist position fell outside its probed duration"

/-- The items that `concatScript` writes for a position. -/
def concatItems (p : Playlist) (position : Position) : Except String (List Item) :=
  match p.items.findIdx? fun item => item.path == position.item.path with
  | none => .error "media: live item is absent from playlist"
  | some start => .ok (p.items.drop start ++ if p.loop then p.items.take start else [])

/-- The sum of the durations. -/
def length (items : List Item) : Int :=
  (items.map Item.duration).sum

/-- A list that is played from an offset, again and again when it loops, after a time. -/
def played (loop : Bool) (items : List Item) (offset t : Int) : Option Position :=
  locate items (if loop then (offset + t) % length items else offset + t)

/-- A playlist as it is probed. -/
structure Playlist.Probed (p : Playlist) : Prop where
  nonempty : p.items ≠ []
  distinct : (p.items.map Item.path).Nodup
  positive : ∀ item ∈ p.items, 0 < item.duration
  total : p.total = length p.items

/-- The item at an index is live at an offset inside it, and the time agrees, up to whole
rounds of a loop. -/
structure Playlist.Live (p : Playlist) (elapsed : Int) (i : Nat) (position : Position) :
    Prop where
  item : p.items[i]? = some position.item
  start : 0 ≤ position.offset
  inside : position.offset < position.item.duration
  time : if p.loop then
      (length (p.items.take i) + position.offset) % p.total = elapsed % p.total
    else length (p.items.take i) + position.offset = elapsed

section Lists

variable {items before after : List Item} {item : Item} {elapsed : Int}

theorem length_append : length (before ++ after) = length before + length after := by
  unfold length
  rw [List.map_append, List.sum_append]

theorem length_cons : length (item :: items) = item.duration + length items := by
  unfold length
  rw [List.map_cons, List.sum_cons]

theorem length_nonneg (positive : ∀ item ∈ items, 0 < item.duration) : 0 ≤ length items := by
  induction items with
  | nil => exact Int.le_refl 0
  | cons item items ih =>
    have first := positive item List.mem_cons_self
    have rest := ih fun other member => positive other (List.mem_cons_of_mem _ member)
    rw [length_cons]
    omega

/-- Past the first items the search goes on in the others. -/
theorem locate_past (positive : ∀ item ∈ before, 0 < item.duration)
    (past : length before ≤ elapsed) :
    locate (before ++ after) elapsed = locate after (elapsed - length before) := by
  induction before generalizing elapsed with
  | nil =>
    change locate after elapsed = locate after (elapsed - 0)
    rw [Int.sub_zero]
  | cons item before ih =>
    have later : ∀ other ∈ before, 0 < other.duration := fun other member =>
      positive other (List.mem_cons_of_mem _ member)
    have rest := length_nonneg later
    rw [length_cons] at past
    rw [List.cons_append, locate, if_neg (by omega), ih later (by omega), length_cons]
    congr 1
    omega

/-- Within the first items the others do not matter. -/
theorem locate_within (start : 0 ≤ elapsed) (within : elapsed < length before) :
    locate (before ++ after) elapsed = locate before elapsed := by
  induction before generalizing elapsed with
  | nil => exact absurd within (Int.not_lt.mpr start)
  | cons item before ih =>
    rw [length_cons] at within
    rw [List.cons_append, locate, locate]
    split_ifs with here
    · rfl
    · exact ih (by omega) (by omega)

/-- A time inside the list is inside one of its items. -/
theorem locate_split (start : 0 ≤ elapsed) (within : elapsed < length items) :
    ∃ before item after, items = before ++ item :: after ∧
      locate items elapsed = some { item, offset := elapsed - length before } ∧
      0 ≤ elapsed - length before ∧ elapsed - length before < item.duration := by
  induction items generalizing elapsed with
  | nil => exact absurd within (Int.not_lt.mpr start)
  | cons first items ih =>
    rw [length_cons] at within
    by_cases here : elapsed < first.duration
    · refine ⟨[], first, items, rfl, ?_, ?_, ?_⟩
      · rw [locate, if_pos here]
        exact congrArg some (congrArg (Position.mk first) (Int.sub_zero elapsed).symm)
      · exact (Int.sub_zero elapsed).symm ▸ start
      · exact (Int.sub_zero elapsed).symm ▸ here
    · obtain ⟨before, item, after, split_, found, low, high⟩ :=
        @ih (elapsed - first.duration) (by omega) (by omega)
      have total : elapsed - length (first :: before) =
          elapsed - first.duration - length before := by
        rw [length_cons]
        omega
      refine ⟨first :: before, item, after, congrArg (first :: ·) split_, ?_, ?_, ?_⟩
      · rw [locate, if_neg here, found, total]
      · rw [total]
        exact low
      · rw [total]
        exact high

theorem length_take_succ {i : Nat} (here : items[i]? = some item) :
    length (items.take (i + 1)) = length (items.take i) + item.duration := by
  rw [List.take_add_one, here, length_append]
  change _ + length [item] = _
  rw [length_cons]
  change _ + (item.duration + 0) = _
  rw [Int.add_zero]

theorem length_take_le (positive : ∀ item ∈ items, 0 < item.duration) {i j : Nat} (le : i ≤ j) :
    length (items.take i) ≤ length (items.take j) := by
  have split_ := List.take_append_drop i (items.take j)
  rw [List.take_take, Nat.min_eq_left le] at split_
  have rest := @length_nonneg ((items.take j).drop i) fun item member =>
    positive item (List.mem_of_mem_take (List.mem_of_mem_drop member))
  rw [← split_, length_append]
  omega

/-- Two places of one list with the same time are one. -/
theorem place_unique (positive : ∀ item ∈ items, 0 < item.duration) {i j : Nat}
    {first second : Position} (here : items[i]? = some first.item)
    (there : items[j]? = some second.item)
    (low : 0 ≤ first.offset ∧ first.offset < first.item.duration)
    (high : 0 ≤ second.offset ∧ second.offset < second.item.duration)
    (same : length (items.take i) + first.offset = length (items.take j) + second.offset) :
    i = j ∧ first = second := by
  have afterFirst := length_take_succ here
  have afterSecond := length_take_succ there
  rcases Nat.lt_trichotomy i j with earlier | rfl | later
  · have := length_take_le positive (show i + 1 ≤ j from earlier)
    omega
  · have item : first.item = second.item := Option.some.inj (here.symm.trans there)
    have offset : first.offset = second.offset := by omega
    cases first
    cases second
    cases item
    cases offset
    exact ⟨rfl, rfl⟩
  · have := length_take_le positive (show j + 1 ≤ i from later)
    omega

/-- A list that is turned round, seen from where it was cut. -/
theorem locate_turned (positive : ∀ item ∈ before ++ after, 0 < item.duration)
    (start : 0 ≤ elapsed) (inside : elapsed < length (before ++ after)) :
    locate (after ++ before) elapsed =
      locate (before ++ after) ((length before + elapsed) % length (before ++ after)) := by
  have positiveBefore : ∀ item ∈ before, 0 < item.duration := fun item member =>
    positive item (List.mem_append_left _ member)
  have positiveAfter : ∀ item ∈ after, 0 < item.duration := fun item member =>
    positive item (List.mem_append_right _ member)
  have first := length_nonneg positiveBefore
  have second := length_nonneg positiveAfter
  rw [length_append] at inside ⊢
  by_cases early : elapsed < length after
  · rw [locate_within start early, Int.emod_eq_of_lt (by omega) (by omega),
      locate_past positiveBefore (by omega)]
    congr 1
    omega
  · have wrapped : (length before + elapsed) % (length before + length after) =
        elapsed - length after := by
      have whole : length before + elapsed =
          elapsed - length after + (length before + length after) := by omega
      rw [whole, Int.add_emod_right, Int.emod_eq_of_lt (by omega) (by omega)]
    have low : 0 ≤ elapsed - length after := by omega
    have high : elapsed - length after < length before := by omega
    rw [locate_past positiveAfter (by omega), wrapped, @locate_within before after _ low high]

end Lists

namespace Playlist

variable {p : Playlist} {elapsed : Int} {position : Position}

/-- The time on the timeline. -/
def time (p : Playlist) (elapsed : Int) : Int :=
  if p.loop then elapsed % p.total else elapsed

theorem Probed.total_pos (probed : p.Probed) : 0 < p.total := by
  rw [probed.total]
  cases isItems : p.items with
  | nil => exact absurd isItems probed.nonempty
  | cons item items =>
    have positive := probed.positive
    rw [isItems] at positive
    have first := positive item List.mem_cons_self
    have rest := @length_nonneg items fun other member =>
      positive other (List.mem_cons_of_mem _ member)
    rw [length_cons]
    omega

theorem time_bounds (probed : p.Probed) (start : 0 ≤ elapsed)
    (before : p.loop = true ∨ elapsed < p.total) :
    0 ≤ p.time elapsed ∧ p.time elapsed < p.total := by
  have total := probed.total_pos
  unfold time
  split
  · exact ⟨Int.emod_nonneg _ (by omega), Int.emod_lt_of_pos _ total⟩
  next plain => exact ⟨start, before.resolve_left plain⟩

/-- What `At` accepts, and what it answers. -/
theorem at_ok_iff (probed : p.Probed) :
    p.at_ elapsed = .ok position ↔
      (0 ≤ elapsed ∧ (p.loop = true ∨ elapsed < p.total)) ∧
        locate p.items (p.time elapsed) = some position := by
  have total := probed.total_pos
  unfold at_
  by_cases invalid : elapsed < 0 ∨ p.total ≤ 0 ∨ p.items = []
  · rw [if_pos invalid]
    constructor
    · intro accepted
      cases accepted
    · rintro ⟨⟨start, -⟩, -⟩
      rcases invalid with negative | short | empty
      · omega
      · omega
      · exact absurd empty probed.nonempty
  rw [if_neg invalid]
  by_cases beyond : p.loop = false ∧ p.total ≤ elapsed
  · rw [if_pos beyond]
    constructor
    · intro accepted
      cases accepted
    · rintro ⟨⟨-, loops | early⟩, -⟩
      · rw [beyond.1] at loops
        exact Bool.noConfusion loops
      · omega
  have start : 0 ≤ elapsed := by omega
  have inside : p.loop = true ∨ elapsed < p.total := by
    cases loops : p.loop with
    | true => exact .inl rfl
    | false => exact .inr (Int.not_le.mp fun late => beyond ⟨loops, late⟩)
  have same : (if p.loop then elapsed.tmod p.total else elapsed) = p.time elapsed := by
    rw [Int.tmod_eq_emod_of_nonneg start]
    rfl
  rw [if_neg beyond, same]
  cases found : locate p.items (p.time elapsed) with
  | none =>
    constructor
    · intro accepted
      cases accepted
    · rintro ⟨-, absent⟩
      cases absent
  | some answer =>
    constructor
    · intro accepted
      cases accepted
      exact ⟨⟨start, inside⟩, rfl⟩
    · rintro ⟨-, same⟩
      cases same
      rfl

/-- The place before which the given items lie is live. -/
theorem live_split {before after : List Item} {item : Item}
    (split_ : p.items = before ++ item :: after)
    (low : 0 ≤ p.time elapsed - length before)
    (high : p.time elapsed - length before < item.duration) :
    p.Live elapsed before.length { item, offset := p.time elapsed - length before } := by
  have taken : p.items.take before.length = before := by
    rw [split_, List.take_left]
  refine ⟨?_, low, high, ?_⟩
  · rw [split_, List.getElem?_append_right (Nat.le_refl _), Nat.sub_self]
    rfl
  · have whole : length before + (p.time elapsed - length before) = p.time elapsed := by omega
    rw [taken]
    dsimp only
    rw [whole]
    unfold time
    split
    · rw [Int.emod_emod_of_dvd _ (Int.dvd_refl _)]
    · rfl

/-- The times of a live place in the range of the timeline are those of the elapsed time. -/
theorem Live.time_eq {i : Nat} (probed : p.Probed) (live : p.Live elapsed i position) :
    length (p.items.take i) + position.offset = p.time elapsed := by
  have time := live.time
  have positive := probed.positive
  have low := live.start
  have high := live.inside
  have step := length_take_succ live.item
  have first := @length_nonneg (p.items.take i) fun item member =>
    positive item (List.mem_of_mem_take member)
  have last := length_take_le positive (Nat.le_max_left (i + 1) p.items.length)
  rw [List.take_of_length_le (Nat.le_max_right (i + 1) p.items.length), ← probed.total] at last
  unfold Playlist.time
  split at time
  next loops =>
    rw [if_pos loops, ← time, Int.emod_eq_of_lt (by omega) (by omega)]
  next plain =>
    rw [if_neg plain]
    exact time

/-- What `At` answers is the one place that is live. -/
theorem at_live (probed : p.Probed) (accepted : p.at_ elapsed = .ok position) :
    ∃ i, p.Live elapsed i position ∧
      ∀ j other, p.Live elapsed j other → j = i ∧ other = position := by
  obtain ⟨⟨start, inside⟩, found⟩ := (at_ok_iff probed).mp accepted
  obtain ⟨low, high⟩ := time_bounds probed start inside
  rw [probed.total] at high
  obtain ⟨before, item, after, split_, located, first, last⟩ := locate_split low high
  rw [located] at found
  cases found
  have live := live_split split_ first last
  refine ⟨before.length, live, fun j other also => ?_⟩
  have same := (also.time_eq probed).trans (live.time_eq probed).symm
  exact place_unique probed.positive also.item live.item ⟨also.start, also.inside⟩
    ⟨live.start, live.inside⟩ same

/-- The item at a place is the first of its path. -/
theorem concatItems_split (probed : p.Probed) {before after : List Item}
    (split_ : p.items = before ++ position.item :: after) :
    concatItems p position =
      .ok (position.item :: after ++ if p.loop then before else []) := by
  have distinct := probed.distinct
  rw [split_, List.map_append, List.map_cons, List.nodup_append] at distinct
  have index : p.items.findIdx? (fun item => item.path == position.item.path) =
      some before.length := by
    rw [split_, List.findIdx?_append]
    have absent : before.findIdx? (fun item => item.path == position.item.path) = none := by
      rw [List.findIdx?_eq_none_iff]
      intro item member
      rw [beq_eq_false_iff_ne]
      exact distinct.2.2 _ (List.mem_map_of_mem member) _ List.mem_cons_self
    rw [absent, List.findIdx?_cons, beq_self_eq_true, if_pos rfl, Option.map_some, Nat.zero_add,
      Option.none_or]
  unfold concatItems
  rw [index]
  dsimp only
  rw [split_, List.drop_left, List.take_left]

/-- The list that is written, played on, is at what `At` answers later. -/
theorem played_at (probed : p.Probed) (accepted : p.at_ elapsed = .ok position) :
    ∃ items, concatItems p position = .ok items ∧
      ∀ t later, 0 ≤ t → p.at_ (elapsed + t) = .ok later →
        played p.loop items position.offset t = some later := by
  obtain ⟨⟨start, inside⟩, found⟩ := (at_ok_iff probed).mp accepted
  obtain ⟨low, high⟩ := time_bounds probed start inside
  have total := probed.total_pos
  have positive := probed.positive
  have whole := probed.total
  rw [whole] at high
  obtain ⟨before, item, after, split_, located, first, last⟩ := locate_split low high
  rw [located] at found
  cases found
  rw [split_] at positive whole
  refine ⟨_, concatItems_split probed split_, fun t later further also => ?_⟩
  obtain ⟨-, found⟩ := (at_ok_iff probed).mp also
  rw [← found, split_]
  unfold played
  dsimp only
  cases loops : p.loop with
  | true =>
    have turned : length (item :: after ++ before) = p.total := by
      rw [whole, length_append, length_append]
      omega
    have same : p.time (elapsed + t) =
        (length before + (p.time elapsed - length before + t) % p.total) % p.total := by
      have back : length before + (p.time elapsed - length before + t) = p.time elapsed + t := by
        omega
      have round (s : Int) : p.time s = s % p.total := if_pos loops
      rw [Int.add_emod_emod, back, round, round, Int.emod_add_emod]
    rw [if_pos rfl, if_pos rfl, turned, same]
    have turn := @locate_turned before (item :: after)
      ((p.time elapsed - length before + t) % p.total) positive
      (Int.emod_nonneg _ (by omega)) (whole ▸ Int.emod_lt_of_pos _ total)
    rw [← whole] at turn
    exact turn
  | false =>
    have plain (s : Int) : p.time s = s := by
      unfold time
      rw [loops, if_neg Bool.false_ne_true]
    rw [if_neg Bool.false_ne_true, if_neg Bool.false_ne_true, List.append_nil, plain, plain]
    rw [plain] at first
    rw [locate_past (fun item member => positive item (List.mem_append_left _ member)) (by omega)]
    congr 1
    omega

end Playlist

end Media

end GoRetroTv
