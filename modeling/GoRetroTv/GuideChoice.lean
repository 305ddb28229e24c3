import GoRetroTv.HuffmanDictionary
import GoRetroTv.ScheduleValidation
import GoRetroTv.ServiceTables

/-!
# The programme on air

`internal/multiplex`: the guide's row and the playout take the first programme that is on
air, and the present event is the last.  A day whose programmes overlap passes validation.
-/

namespace GoRetroTv

namespace Multiplex

open Broadcast

/-- A programme with its place in the day. -/
abbrev Listed := ListedProgramme × Nat

/-- `secondsOfDay`. -/
def secondsOfDay (now : Time) : Int :=
  now.hour * 3600 + now.minute * 60 + now.second

/-- `start + programme.Minutes*60`, of a sixty-four-bit `int`. -/
def ListedProgramme.finish (start : Int) (p : ListedProgramme) : Int :=
  (start + (p.minutes * 60).bmod countLimit).bmod countLimit

/-- The programme `guideRow` stops at. -/
def rowProgramme (now : Int) : List Listed → Except String (Option Listed)
  | [] => return none
  | entry :: entries => do
      let start ← entry.1.startSeconds
      if start ≤ now ∧ now < entry.1.finish start then return some entry
      else rowProgramme now entries

/-- The row of a channel with nothing on air. -/
def ListedService.offAir (service : ListedService) : GuideRow where
  at8 := 0
  at9 := service.genre
  at10 := service.rowAt10
  at11 := service.rowAt11
  prefixBytes := []
  text := []

/-- The row that shows a programme. -/
def ListedService.rowOf (dict : HuffmanDictionary) (service : ListedService) :
    Option Listed → Except String (Option GuideRow)
  | none => return some service.offAir
  | some (on, _) => do
      let encoded ← dict.encode on.title
      return some { service.offAir with
        at8 := if service.rowAt8 = 0 then 1 else service.rowAt8
        text := encoded }

/-- `guideRow`. -/
def ListedService.guideRow (dict : Option HuffmanDictionary) (now : Time)
    (service : ListedService) : Except String (Option GuideRow) :=
  match dict with
  | none => return none
  | some dict =>
      if service.programmes = [] then return some service.offAir
      else do
        let on ← rowProgramme (secondsOfDay now) service.programmes.zipIdx
        service.rowOf dict on

structure ProgrammePlayout where
  service : List Byte
  programme : List Byte
  media : ProgrammeMedia
  /-- A `time.Duration`, in nanoseconds. -/
  elapsed : Int
  duration : Int

/-- The programme `PlayoutFor` stops at. -/
def playoutProgramme (now : Int) : List Listed → Option Listed
  | [] => none
  | entry :: entries =>
      match entry.1.startSeconds with
      | .error _ => playoutProgramme now entries
      | .ok start =>
          if now < start ∨ entry.1.finish start ≤ now then playoutProgramme now entries
          else some entry

/-- `ServiceByID`. -/
def Listings.serviceByID (serviceID : Half) (l : Listings) : Option ListedService :=
  l.services.find? fun service => decide (service.serviceID = serviceID)

/-- What is played of a programme, if there is a source for it. -/
def ListedService.playout (now : Time) (service : ListedService) (entry : Listed) :
    Option ProgrammePlayout :=
  (entry.1.media.or service.media).map fun media => {
    service := service.name
    programme := entry.1.title
    media
    elapsed := (secondsOfDay now - entry.1.startOr) * 10 ^ 9
    duration := (entry.1.minutes * (60 * 10 ^ 9)).bmod countLimit }

/-- `PlayoutFor`. -/
def Listings.playoutFor (serviceID : Half) (now : Time) (l : Listings) :
    Option ProgrammePlayout :=
  (l.serviceByID serviceID).bind fun service =>
    (playoutProgramme (secondsOfDay now) service.programmes.zipIdx).bind (service.playout now)

def runningStartsShortly : Byte :=
  2

/-- What `onAirAndNext` has announced after one more programme. -/
def announceOne (now start : Int) (entry : Listed) :
    Option Listed × Option Listed → Option Listed × Option Listed
  | (present, following) =>
      if start ≤ now ∧ now < entry.1.finish start then (some entry, following)
      else if now < start ∧ following = none then (present, some entry)
      else (present, following)

/-- What it has announced after the rest of the day. -/
def announce (now : Int) (announced : Option Listed × Option Listed) :
    List Listed → Except String (Option Listed × Option Listed)
  | [] => return announced
  | entry :: entries => do
      let start ← entry.1.startSeconds
      let announced := announceOne now start entry announced
      if announced.1.isSome ∧ announced.2.isSome then return announced
      else announce now announced entries

/-- A programme as an event of the day. -/
def eventOf (now : Time) (running : Byte) (entry : Listed) : Broadcast.Event where
  id := BitVec.ofNat 16 (entry.2 + 1)
  start := { unix := now.unix / 86400 * 86400 + entry.1.startOr }
  duration := (entry.1.minutes * (60 * 10 ^ 9)).bmod countLimit
  name := entry.1.title
  text := []
  running

/-- `onAirAndNext`. -/
def ListedService.onAirAndNext (now : Time) (service : ListedService) :
    Except String (Option Broadcast.Event × Option Broadcast.Event) := do
  let (present, following) ← announce (secondsOfDay now) (none, none) service.programmes.zipIdx
  return (present.map (eventOf now runningRunning),
    following.map (eventOf now runningStartsShortly))

/-- On air at an instant, a programme that has been checked. -/
def OnAir (now : Int) (entry : Listed) : Prop :=
  entry.1.startOr ≤ now ∧ now < entry.1.finish entry.1.startOr

instance (now : Int) : DecidablePred (OnAir now) :=
  fun _ => inferInstanceAs (Decidable (_ ∧ _))

/-- The programmes on air, in the order of the day. -/
def onAir (now : Int) (entries : List Listed) : List Listed :=
  entries.filter fun entry => decide (OnAir now entry)

/-- A part of a checked day. -/
structure OrderedEntries (entries : List Listed) : Prop where
  starts : ∀ entry ∈ entries, entry.1.startSeconds = .ok entry.1.startOr
  sorted : entries.Pairwise fun entry other => entry.1.startOr ≤ other.1.startOr

variable {now : Int} {entry : Listed} {entries : List Listed}

theorem Ordered.zipIdx {programmes : List ListedProgramme} (ordered : Ordered programmes) :
    OrderedEntries programmes.zipIdx where
  starts entry member := ordered.starts _ (List.fst_mem_of_mem_zipIdx member)
  sorted := by
    have sorted := ordered.sorted
    rw [← List.zipIdx_map_fst 0 programmes, List.pairwise_map] at sorted
    exact sorted

theorem OrderedEntries.tail (ordered : OrderedEntries (entry :: entries)) :
    OrderedEntries entries where
  starts other member := ordered.starts other (List.mem_cons_of_mem entry member)
  sorted := ordered.sorted.of_cons

theorem onAir_cons : onAir now (entry :: entries) =
    if OnAir now entry then entry :: onAir now entries else onAir now entries := by
  unfold onAir
  rw [List.filter_cons]
  simp only [decide_eq_true_eq]

/-- The guide's row is the first of them. -/
theorem rowProgramme_eq (ordered : OrderedEntries entries) :
    rowProgramme now entries = .ok (onAir now entries).head? := by
  induction entries with
  | nil => rfl
  | cons entry entries ih =>
    rw [rowProgramme, ordered.starts entry List.mem_cons_self, onAir_cons]
    change (if OnAir now entry then _ else _) = _
    split
    · rfl
    · exact ih ordered.tail

/-- So is what is played. -/
theorem playoutProgramme_eq (ordered : OrderedEntries entries) :
    playoutProgramme now entries = (onAir now entries).head? := by
  induction entries with
  | nil => rfl
  | cons entry entries ih =>
    rw [playoutProgramme, ordered.starts entry List.mem_cons_self, onAir_cons]
    dsimp only
    have running : (now < entry.1.startOr ∨ entry.1.finish entry.1.startOr ≤ now) ↔
        ¬OnAir now entry := by
      unfold OnAir
      omega
    by_cases on : OnAir now entry
    · rw [if_neg (by rw [running]; exact not_not_intro on), if_pos on]
      rfl
    · rw [if_pos (running.mpr on), if_neg on]
      exact ih ordered.tail

theorem onAir_eq_nil (later : ∀ entry ∈ entries, now < entry.1.startOr) :
    onAir now entries = [] := by
  unfold onAir
  rw [List.filter_eq_nil_iff]
  intro entry member
  have := later entry member
  rw [decide_eq_true_eq]
  unfold OnAir
  omega

theorem announce_cons {announced : Option Listed × Option Listed}
    (ordered : OrderedEntries (entry :: entries)) :
    announce now announced (entry :: entries) =
      if (announceOne now entry.1.startOr entry announced).1.isSome ∧
          (announceOne now entry.1.startOr entry announced).2.isSome then
        .ok (announceOne now entry.1.startOr entry announced)
      else announce now (announceOne now entry.1.startOr entry announced) entries := by
  rw [announce, ordered.starts entry List.mem_cons_self]
  rfl

theorem announceOne_onAir {present following : Option Listed} (on : OnAir now entry) :
    announceOne now entry.1.startOr entry (present, following) = (some entry, following) :=
  if_pos on

theorem announceOne_ahead {present following : Option Listed} (ahead : now < entry.1.startOr) :
    announceOne now entry.1.startOr entry (present, following) =
      (present, following.or (some entry)) := by
  unfold announceOne
  dsimp only
  rw [if_neg (by omega)]
  cases following with
  | none => exact if_pos ⟨ahead, rfl⟩
  | some found => exact if_neg fun both => by cases both.2

theorem announceOne_over {present following : Option Listed} (off : ¬OnAir now entry)
    (behind : ¬now < entry.1.startOr) :
    announceOne now entry.1.startOr entry (present, following) = (present, following) := by
  refine (if_neg off).trans ?_
  exact if_neg fun both => behind both.1

/-- Once a programme to come has been announced, nothing more is. -/
theorem announce_later {present : Option Listed} {found : Listed}
    (ordered : OrderedEntries entries) (later : ∀ entry ∈ entries, now < entry.1.startOr) :
    announce now (present, some found) entries = .ok (present, some found) := by
  induction entries with
  | nil => rfl
  | cons entry entries ih =>
    rw [announce_cons ordered, announceOne_ahead (later entry List.mem_cons_self)]
    split
    · rfl
    · exact ih ordered.tail fun other member => later other (List.mem_cons_of_mem entry member)

/-- The present event is the last programme on air, and the following one the first to come. -/
theorem announce_eq {present : Option Listed} (ordered : OrderedEntries entries) :
    announce now (present, none) entries =
      .ok ((onAir now entries).getLast?.or present,
        entries.find? fun entry => decide (now < entry.1.startOr)) := by
  induction entries generalizing present with
  | nil => rfl
  | cons entry entries ih =>
    rw [announce_cons ordered, onAir_cons, List.find?_cons]
    by_cases on : OnAir now entry
    · have started : decide (now < entry.1.startOr) = false := by
        rw [decide_eq_false_iff_not]
        exact Int.not_lt.mpr on.1
      rw [announceOne_onAir on, if_pos on, started, if_neg (by simp),
        ih ordered.tail, List.getLast?_cons]
      cases (onAir now entries).getLast? <;> rfl
    · rw [if_neg on]
      by_cases ahead : now < entry.1.startOr
      · have later : ∀ other ∈ entries, now < other.1.startOr := fun other member =>
          Int.lt_of_lt_of_le ahead (List.rel_of_pairwise_cons ordered.sorted member)
        rw [announceOne_ahead ahead, onAir_eq_nil later, decide_eq_true ahead]
        split
        · rfl
        · exact announce_later ordered.tail later
      · rw [announceOne_over on ahead, decide_eq_false ahead, if_neg (by simp)]
        exact ih ordered.tail

theorem head?_eq_getLast? {α : Type} {l : List α} (nodup : l.Nodup) :
    l.head? = l.getLast? ↔ ∀ a ∈ l, ∀ b ∈ l, a = b := by
  cases l with
  | nil => simp
  | cons first rest =>
    rw [List.head?_cons, List.getLast?_eq_some_getLast (List.cons_ne_nil first rest),
      Option.some.injEq]
    cases rest with
    | nil => simp
    | cons second rest =>
      have apart : first ∉ second :: rest := (List.nodup_cons.mp nodup).1
      rw [List.getLast_cons (List.cons_ne_nil second rest)]
      refine iff_of_false (fun same => apart ?_) fun all => apart ?_
      · rw [same]
        exact List.getLast_mem _
      · rw [all first List.mem_cons_self second (List.mem_cons_of_mem first List.mem_cons_self)]
        exact List.mem_cons_self

/-- The following event: the earliest programme to come, and not the present one. -/
structure EarliestAfter (now : Int) (entries : List Listed) (chosen following : Option Listed) :
    Prop where
  found : ∀ entry, following = some entry → entry ∈ entries ∧ now < entry.1.startOr ∧
    chosen ≠ some entry ∧
      ∀ other ∈ entries, now < other.1.startOr → entry.1.startOr ≤ other.1.startOr
  absent : following = none → ∀ entry ∈ entries, entry.1.startOr ≤ now

/-- One choice on every surface: the programme the guide's row stops at and shows, the one the
playout stops at and plays where the service has media, and the present event; and the
following event after it. -/
structure Agree (listings : Listings) (service : ListedService) (now : Time)
    (chosen following : Option Listed) : Prop where
  row : rowProgramme (secondsOfDay now) service.programmes.zipIdx = .ok chosen
  shown : ∀ dict, service.guideRow (some dict) now = service.rowOf dict chosen
  playout : service.media.isSome = true → ∃ tuned,
    listings.serviceByID service.serviceID = some tuned ∧
      playoutProgramme (secondsOfDay now) tuned.programmes.zipIdx = chosen
  played : service.media.isSome = true →
    listings.playoutFor service.serviceID now = chosen.bind (service.playout now)
  events : announce (secondsOfDay now) (none, none) service.programmes.zipIdx =
    .ok (chosen, following)
  announced : service.onAirAndNext now = .ok (chosen.map (eventOf now runningRunning),
    following.map (eventOf now runningStartsShortly))
  next : EarliestAfter (secondsOfDay now) service.programmes.zipIdx chosen following

/-- At most one programme of the day is on air. -/
def OneOnAir (service : ListedService) (now : Time) : Prop :=
  ∀ entry ∈ service.programmes.zipIdx, ∀ other ∈ service.programmes.zipIdx,
    OnAir (secondsOfDay now) entry → OnAir (secondsOfDay now) other → entry = other

theorem serviceByID_eq {listings : Listings} {service : ListedService}
    (distinct : listings.services.Pairwise fun service other =>
      service.serviceID ≠ other.serviceID)
    (member : service ∈ listings.services) :
    listings.serviceByID service.serviceID = some service := by
  unfold Listings.serviceByID
  generalize listings.services = services at distinct member ⊢
  induction services with
  | nil => exact absurd member List.not_mem_nil
  | cons first services ih =>
    rw [List.find?_cons]
    rcases List.mem_cons.mp member with rfl | later
    · rw [decide_eq_true rfl]
    · have apart := List.rel_of_pairwise_cons distinct later
      rw [decide_eq_false apart]
      exact ih distinct.of_cons later

theorem earliestAfter_find (ordered : OrderedEntries entries) {chosen : Option Listed}
    (running : ∀ entry, chosen = some entry → OnAir now entry) :
    EarliestAfter now entries chosen
      (entries.find? fun entry => decide (now < entry.1.startOr)) where
  found entry isFound := by
    obtain ⟨ahead, before, after, split, behind⟩ := List.find?_eq_some_iff_append.mp isFound
    have ahead := of_decide_eq_true ahead
    have sorted := ordered.sorted
    refine ⟨List.mem_of_find?_eq_some isFound, ahead, fun same => ?_, fun other member later => ?_⟩
    · exact absurd (running entry same).1 (Int.not_le.mpr ahead)
    · rw [split] at member sorted
      rcases List.mem_append.mp member with inBefore | inRest
      · have ended := behind other inBefore
        simp [later] at ended
      · rcases List.mem_cons.mp inRest with rfl | inAfter
        · exact Int.le_refl _
        · exact List.rel_of_pairwise_cons (List.pairwise_append.mp sorted).2.1 inAfter
  absent isNone entry member := by
    have ended := List.find?_eq_none.mp isNone entry member
    simpa using ended

theorem guideRow_of_row {service : ListedService} {now : Time} {chosen : Option Listed}
    (row : rowProgramme (secondsOfDay now) service.programmes.zipIdx = .ok chosen)
    (dict : HuffmanDictionary) :
    service.guideRow (some dict) now = service.rowOf dict chosen := by
  unfold ListedService.guideRow
  dsimp only
  split
  next empty =>
    rw [empty] at row
    cases row
    rfl
  · rw [row]
    rfl

theorem playoutFor_of_tuned {listings : Listings} {service : ListedService} {now : Time}
    {chosen : Option Listed} (tuned : listings.serviceByID service.serviceID = some service)
    (playout : playoutProgramme (secondsOfDay now) service.programmes.zipIdx = chosen) :
    listings.playoutFor service.serviceID now = chosen.bind (service.playout now) := by
  unfold Listings.playoutFor
  rw [tuned, Option.bind_some, playout]

theorem onAirAndNext_of_announce {service : ListedService} {now : Time}
    {chosen following : Option Listed}
    (events : announce (secondsOfDay now) (none, none) service.programmes.zipIdx =
      .ok (chosen, following)) :
    service.onAirAndNext now = .ok (chosen.map (eventOf now runningRunning),
      following.map (eventOf now runningStartsShortly)) := by
  unfold ListedService.onAirAndNext
  rw [events]
  rfl

/-- **The guide's choice.**  For a checked schedule, the surfaces agree on the programme on air
exactly when no two of them are. -/
theorem guide_choice {listings checked : Listings} (valid : listings.validate = .ok checked)
    {service : ListedService} (member : service ∈ checked.services) (now : Time) :
    (∃ chosen following, Agree checked service now chosen following) ↔ OneOnAir service now := by
  obtain ⟨each, distinct⟩ := validate_ok valid
  have ordered := (each service member).zipIdx
  have tuned := serviceByID_eq distinct member
  have row := @rowProgramme_eq (secondsOfDay now) _ ordered
  have playout := @playoutProgramme_eq (secondsOfDay now) _ ordered
  have events := @announce_eq (secondsOfDay now) _ none ordered
  rw [Option.or_none] at events
  have nodup : (onAir (secondsOfDay now) service.programmes.zipIdx).Nodup := by
    apply List.Nodup.filter
    apply List.Nodup.of_map Prod.snd
    rw [List.zipIdx_map_snd]
    exact List.nodup_range'
  have one : OneOnAir service now ↔
      (onAir (secondsOfDay now) service.programmes.zipIdx).head? =
        (onAir (secondsOfDay now) service.programmes.zipIdx).getLast? := by
    rw [head?_eq_getLast? nodup]
    unfold OneOnAir onAir
    simp only [List.mem_filter, decide_eq_true_eq]
    exact ⟨fun one a inA b inB => one a inA.1 b inB.1 inA.2 inB.2,
      fun one a inA b inB onA onB => one a ⟨inA, onA⟩ b ⟨inB, onB⟩⟩
  rw [one]
  constructor
  · rintro ⟨chosen, following, agree⟩
    have first := row.symm.trans agree.row
    have last := events.symm.trans agree.events
    cases first
    exact (congrArg Prod.fst (Except.ok.inj last)).symm
  · intro same
    rw [← same] at events
    exact ⟨_, _, {
      row
      shown := guideRow_of_row row
      playout := fun _ => ⟨service, tuned, playout⟩
      played := fun _ => playoutFor_of_tuned tuned playout
      events
      announced := onAirAndNext_of_announce events
      next := earliestAfter_find ordered fun entry isChosen => by
        have inOnAir := List.mem_of_mem_head? (Option.mem_def.mpr isChosen)
        exact of_decide_eq_true (List.mem_filter.mp inOnAir).2 }⟩

/-- A film that the news interrupts. -/
def overlapping : ListedService where
  name := ascii "One"
  serviceID := 1
  listingsID := 1
  programmes := [
    { start := ascii "06:00", minutes := 120, title := ascii "Film" },
    { start := ascii "07:00", minutes := 30, title := ascii "News" }]

def overlappingListings : Listings where
  bouquet := ascii "Sky"
  services := [overlapping]

theorem overlapping_valid : overlappingListings.validate = .ok overlappingListings := by
  have sorted : sortProgrammes overlapping.programmes = overlapping.programmes :=
    List.mergeSort_of_pairwise (by decide)
  have checked : validateService {} overlapping = .ok ({
      services := [(1, ascii "One")]
      listings := [(1, ascii "One")] },
      { overlapping with programmes := sortProgrammes overlapping.programmes }) := by
    rfl
  rw [sorted] at checked
  unfold Listings.validate overlappingListings
  dsimp only
  unfold validateServices
  rw [checked]
  rfl

/-- At a quarter past seven the row shows the film and the present event is the news. -/
theorem overlapping_differs : overlappingListings.validate = .ok overlappingListings ∧
    ¬∃ chosen following,
      Agree overlappingListings overlapping { unix := 7 * 3600 + 900 } chosen following := by
  refine ⟨overlapping_valid, ?_⟩
  rintro ⟨chosen, following, agree⟩
  have ordered := ((validate_ok overlapping_valid).1 overlapping List.mem_cons_self).zipIdx
  have first := (rowProgramme_eq ordered).symm.trans agree.row
  have last := (announce_eq ordered).symm.trans agree.events
  rw [Option.or_none] at last
  have same := (Except.ok.inj first).trans (congrArg Prod.fst (Except.ok.inj last)).symm
  exact absurd same (by decide)

/-- At ten past six only the film is on air. -/
theorem guide_choice_film : ∃ chosen following,
    Agree overlappingListings overlapping { unix := 6 * 3600 + 600 } chosen following := by
  rw [guide_choice overlapping_valid List.mem_cons_self]
  unfold OneOnAir
  decide

end Multiplex

end GoRetroTv
