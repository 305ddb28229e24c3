import GoRetroTv.TitleCarousel
import GoRetroTv.TitleWalk

/-!
# What the title carousel answers

Each section of a title wave answers the box for its day, and the waves of a
run take their turns through all the sections there are.
-/

namespace GoRetroTv

namespace Multiplex

open Broadcast Demux Snapcodec

theorem mem_of_mapM_ok {α β : Type} {item : α → Except String β} {items : List α}
    {results : List β} (succeeded : items.mapM item = .ok results) {result : β}
    (member : result ∈ results) : ∃ first ∈ items, item first = .ok result := by
  induction items generalizing results with
  | nil =>
    cases succeeded
    cases member
  | cons first items ih =>
    rw [List.mapM_cons] at succeeded
    obtain ⟨head, isHead, succeeded⟩ := bind_eq_ok.mp succeeded
    obtain ⟨tail, isTail, succeeded⟩ := bind_eq_ok.mp succeeded
    cases succeeded
    rcases List.mem_cons.mp member with rfl | later
    · exact ⟨first, List.mem_cons_self, isHead⟩
    · obtain ⟨other, isOther, found⟩ := ih isTail later
      exact ⟨other, List.mem_cons_of_mem _ isOther, found⟩

/-- The addressing bytes of a title section. -/
theorem titleSection_header {tableID : Byte} {channelID : Half} {filter : Byte × Byte}
    {version sectionNumber lastSectionNumber : Byte} {dict : Option HuffmanDictionary}
    {records : List TitleRecord} {section_ : List Byte}
    (built : titleSection tableID channelID filter version sectionNumber lastSectionNumber dict
      records = .ok section_) :
    byteAt section_ 0 = tableID ∧ halfAt section_ 3 = channelID.toNat ∧
      byteAt section_ 8 = filter.1 ∧ byteAt section_ 9 = filter.2 := by
  unfold titleSection at built
  cases dict with
  | none => cases built
  | some dict =>
    obtain ⟨_, built⟩ := check_ok built
    obtain ⟨encoded, _, built⟩ := bind_eq_ok.mp built
    obtain ⟨_, built⟩ := check_ok built
    cases built
    refine ⟨rfl, ?_, rfl, rfl⟩
    exact halfword channelID.isLt

theorem TitleRequest.mjd_eq (r : TitleRequest) :
    r.mjd = ((r.filter.1.toNat * 256 + r.filter.2.toNat : Nat) : Int) := by
  have low := r.filter.2.isLt
  unfold TitleRequest.mjd
  rw [← Nat.shiftLeft_add_eq_or_of_lt (show r.filter.2.toNat < 2 ^ 8 from low), Nat.shiftLeft_eq]

/-- The date of a request that is derived for a day. -/
theorem derivedTitleRequest_mjd {mjd : Int} (fits : 0 ≤ mjd ∧ mjd ≤ 65535) (listingsID : Half) :
    (derivedTitleRequest mjd listingsID).mjd = mjd := by
  obtain ⟨n, rfl⟩ := Int.eq_ofNat_of_zero_le fits.1
  have high : (BitVec.ofInt 8 ((n : Int) >>> (8 : Nat))).toNat = n / 256 := by
    rw [show (n : Int) >>> (8 : Nat) = ((n >>> 8 : Nat) : Int) from rfl, BitVec.ofInt_natCast,
      BitVec.toNat_ofNat, Nat.shiftRight_eq_div_pow]
    omega
  have low : (BitVec.ofInt 8 (n : Int)).toNat = n % 256 := by
    rw [BitVec.ofInt_natCast, BitVec.toNat_ofNat]
  have joined : (n / 256) <<< 8 ||| n % 256 = n := by
    rw [← Nat.shiftLeft_add_eq_or_of_lt (show n % 256 < 2 ^ 8 by omega), Nat.shiftLeft_eq]
    omega
  unfold derivedTitleRequest TitleRequest.mjd
  rw [high, low, joined]

/-- A channel's programme that starts in a quarter, and its title. -/
def Scheduled (service : ListedService) (quarter : Fin titleQuarters) (title : List Byte) : Prop :=
  ∃ programme ∈ service.programmes,
    programme.startSeconds.map quarterOf = .ok quarter ∧ programme.title = title

theorem addProgramme_scheduled {dict : Option HuffmanDictionary} {service : ListedService}
    {offset : Int} {day day' : DayRecords} {entry : ListedProgramme × Nat}
    (listed : entry.1 ∈ service.programmes)
    (added : addProgramme dict service offset day entry = .ok day')
    (before : ∀ quarter, ∀ record ∈ day.quarters quarter, Scheduled service quarter record.title) :
    ∀ quarter, ∀ record ∈ day'.quarters quarter, Scheduled service quarter record.title := by
  obtain ⟨programme, i⟩ := entry
  unfold addProgramme at added
  obtain ⟨localStart, isStart, added⟩ := bind_eq_ok.mp added
  dsimp only at added
  split at added
  · cases added
    exact before
  · cases added
    intro quarter record member
    dsimp only at member
    by_cases here : quarter = quarterOf localStart
    · subst here
      rw [Function.update_self] at member
      rcases List.mem_append.mp member with early | last
      · exact before _ record early
      · obtain rfl := List.mem_singleton.mp last
        exact ⟨programme, listed, by rw [isStart]; rfl, rfl⟩
    · rw [Function.update_of_ne here] at member
      exact before quarter record member

theorem foldlM_scheduled {dict : Option HuffmanDictionary} {service : ListedService} {offset : Int}
    {entries : List (ListedProgramme × Nat)} {day day' : DayRecords}
    (listed : ∀ entry ∈ entries, entry.1 ∈ service.programmes)
    (folded : entries.foldlM (addProgramme dict service offset) day = .ok day')
    (before : ∀ quarter, ∀ record ∈ day.quarters quarter, Scheduled service quarter record.title) :
    ∀ quarter, ∀ record ∈ day'.quarters quarter, Scheduled service quarter record.title := by
  induction entries generalizing day with
  | nil =>
    cases folded
    exact before
  | cons entry entries ih =>
    rw [List.foldlM_cons] at folded
    obtain ⟨next, added, folded⟩ := bind_eq_ok.mp folded
    exact ih (fun other member => listed other (List.mem_cons_of_mem _ member)) folded
      (addProgramme_scheduled (listed entry List.mem_cons_self) added before)

theorem records_scheduled {dict : Option HuffmanDictionary} {service : ListedService} {day : Time}
    {quarters : Fin titleQuarters → List TitleRecord}
    (built : records dict service day = .ok quarters) (quarter : Fin titleQuarters) :
    ∀ record ∈ quarters quarter, Scheduled service quarter record.title := by
  unfold records at built
  obtain ⟨day, isDay, built⟩ := bind_eq_ok.mp built
  obtain ⟨_, built⟩ := check_ok built
  cases built
  exact foldlM_scheduled (fun entry => List.fst_mem_of_mem_zipIdx) isDay
    (fun quarter record member => nomatch member) quarter

/-- The records depend on the day by its London offset alone. -/
theorem records_congr {day other : Time}
    (same : (londonOffset day).offsetMinutes = (londonOffset other).offsetMinutes)
    (dict : Option HuffmanDictionary) (service : ListedService) :
    records dict service day = records dict service other := by
  unfold records
  rw [same]

/-- A section was built for a channel that a request wants, and holds what the
channel has on in one quarter. -/
def BuiltFor (dict : Option HuffmanDictionary) (version : Byte) (request : TitleRequest)
    (service : ListedService) (e : Emission) : Prop :=
  e.pid = request.pid ∧ request.wants service.listingsID = true ∧
    ∃ (quarter : Fin titleQuarters) (records : List TitleRecord),
      titleSection (titleTableID quarter) service.listingsID request.filter version 0 0 dict
        records = .ok e.section_ ∧
      ∀ record ∈ records, Scheduled service quarter record.title

theorem builtFor_of_serviceSections {dict : Option HuffmanDictionary} {version : Byte} {day : Time}
    {request : TitleRequest} {service : ListedService} {sections : List Emission}
    (built : serviceSections dict version day request service = .ok sections) {e : Emission}
    (member : e ∈ sections) : BuiltFor dict version request service e := by
  unfold serviceSections at built
  cases wants : request.wants service.listingsID with
  | false =>
    rw [wants] at built
    cases built
    cases member
  | true =>
    rw [wants] at built
    obtain ⟨quarters, isQuarters, built⟩ := bind_eq_ok.mp built
    obtain ⟨pieces, isPieces, built⟩ := bind_eq_ok.mp built
    cases built
    obtain ⟨piece, isPiece, inPiece⟩ := List.mem_flatten.mp member
    obtain ⟨quarter, -, made⟩ := mem_of_mapM_ok isPieces isPiece
    split at made
    · cases made
      cases inPiece
    · obtain ⟨section_, isSection, made⟩ := bind_eq_ok.mp made
      cases made
      obtain rfl := List.mem_singleton.mp inPiece
      exact ⟨rfl, wants, quarter, quarters quarter, isSection,
        records_scheduled isQuarters quarter⟩

theorem builtFor_of_requestSections {dict : Option HuffmanDictionary} {version : Byte} {day : Time}
    {services : List ListedService} {requests : List TitleRequest} {sections : List Emission}
    (built : requestSections dict version day services requests = .ok sections) {e : Emission}
    (member : e ∈ sections) :
    ∃ request ∈ requests, ∃ service ∈ services, BuiltFor dict version request service e := by
  unfold requestSections at built
  obtain ⟨pieces, isPieces, built⟩ := bind_eq_ok.mp built
  cases built
  obtain ⟨piece, isPiece, inPiece⟩ := List.mem_flatten.mp member
  obtain ⟨request, isRequest, made⟩ := mem_of_mapM_ok isPieces isPiece
  obtain ⟨wanted, isWanted, made⟩ := bind_eq_ok.mp made
  cases made
  obtain ⟨sections, isSections, inSections⟩ := List.mem_flatten.mp inPiece
  obtain ⟨service, isService, served⟩ := mem_of_mapM_ok isWanted isSections
  exact ⟨request, isRequest, service, isService, builtFor_of_serviceSections served inSections⟩

/-- The title PIDs of a subscription are armed, and its requests are on the PIDs of
their days. -/
structure Subscription.ReadOff (d : Registers) (sub : Subscription) : Prop where
  armed : ∀ pid ∈ sub.listingsPIDs, pid ∈ d.armedPIDs
  pids : ∀ request ∈ sub.titles, request.pid = titlePID request.mjd

theorem readUnit_readOff {d : Registers} {sub sub' : Subscription} {unit : Nibble}
    (read : readUnit d sub unit = .ok sub') (before : sub.ReadOff d) : sub'.ReadOff d := by
  unfold readUnit at read
  obtain ⟨tuned, isTuned, read⟩ := bind_eq_ok.mp read
  have same : tuned.listingsPIDs = sub.listingsPIDs ∧ tuned.titles = sub.titles := by
    unfold readTuned at isTuned
    dsimp only at isTuned
    split at isTuned
    · cases isTuned
      exact ⟨rfl, rfl⟩
    · obtain ⟨_, isTuned⟩ := check_ok isTuned
      obtain ⟨_, isTuned⟩ := check_ok isTuned
      cases isTuned
      exact ⟨rfl, rfl⟩
  have kept : tuned.ReadOff d := ⟨same.1 ▸ before.armed, same.2 ▸ before.pids⟩
  split at read
  · cases read
    refine ⟨kept.armed, fun request member => ?_⟩
    rcases List.mem_append.mp member with early | last
    · exact kept.pids request early
    · obtain rfl := List.mem_singleton.mp last
      rfl
  · cases read
    exact kept

theorem foldlM_readOff {d : Registers} {sub sub' : Subscription} {units : List Nibble}
    (read : units.foldlM (readUnit d) sub = .ok sub') (before : sub.ReadOff d) :
    sub'.ReadOff d := by
  induction units generalizing sub with
  | nil =>
    cases read
    exact before
  | cons unit units ih =>
    rw [List.foldlM_cons] at read
    obtain ⟨next, isNext, read⟩ := bind_eq_ok.mp read
    exact ih read (readUnit_readOff isNext before)

theorem readSubscription_readOff {d : Registers} {sub : Subscription}
    (read : readSubscription d = .ok sub) : sub.ReadOff d := by
  unfold readSubscription at read
  obtain ⟨_, read⟩ := check_ok read
  obtain ⟨_, read⟩ := check_ok read
  obtain ⟨_, read⟩ := check_ok read
  refine foldlM_readOff read ⟨fun pid member => ?_, nofun⟩
  exact (List.mem_filter.mp (List.mem_mergeSort.mp member)).1

/-- A section answers the box for a day: it is on the day's PID, which the box has
armed, carries the day, a quarter of it and a channel that the box wants that
day, or a listed one when no request names the day, and holds what the channel
has on in that quarter. -/
structure Answers (d : Registers) (sub : Subscription) (listings : Listings) (day : Time)
    (e : Emission) : Prop where
  pid : e.pid = BitVec.ofInt 16 (0x30 + modifiedJulianDate day % 8)
  armed : e.pid ∈ d.armedPIDs
  date : (halfAt e.section_ 8 : Int) = modifiedJulianDate day
  served : ∃ service ∈ listings.services, ∃ (quarter : Fin titleQuarters)
      (records : List TitleRecord),
    (byteAt e.section_ 0).toNat = 0xa0 + quarter ∧
    halfAt e.section_ 3 = service.listingsID.toNat ∧
    (∀ record ∈ records, Scheduled service quarter record.title) ∧
    (∃ filter version dict, titleSection (titleTableID quarter) service.listingsID filter version 0 0
      dict records = .ok e.section_) ∧
    ((∃ request ∈ sub.titles, request.mjd = modifiedJulianDate day ∧
        request.wants service.listingsID = true) ∨
      ∀ request ∈ sub.titles, request.mjd ≠ modifiedJulianDate day)

theorem titlePID_eq (mjd : Int) : titlePID mjd = BitVec.ofInt 16 (0x30 + mjd % 8) := by
  have places : ∀ place : Fin 8,
      BitVec.ofNat 16 (0x30 ||| place.val) = BitVec.ofInt 16 (0x30 + (place.val : Int)) := by
    decide
  have whole := Int.mul_tdiv_add_tmod mjd 8
  have least := Int.lt_tmod_of_pos mjd (show (0 : Int) < 8 by decide)
  have remainder : (mjd.tmod 8 + 8).tmod 8 = mjd % 8 := by
    rw [Int.tmod_eq_emod_of_nonneg (by omega)]
    omega
  have place := places ⟨(mjd % 8).toNat, by omega⟩
  have natural : ((mjd % 8).toNat : Int) = mjd % 8 := by omega
  unfold titlePID
  rw [remainder]
  dsimp only at place
  rw [place, natural]

theorem titleTableID_toNat (quarter : Fin titleQuarters) :
    (titleTableID quarter).toNat = 0xa0 + quarter := by
  revert quarter
  decide

theorem halfAt_lt (section_ : List Byte) (i : Nat) : halfAt section_ i < 65536 := by
  have high := (byteAt section_ i).isLt
  have low := (byteAt section_ (i + 1)).isLt
  unfold halfAt
  omega

/-- The requests for a day: the programmed ones, or one for each channel. -/
def requestsFor (sub : Subscription) (mjd : Int) (services : List ListedService) :
    List TitleRequest :=
  let asked := sub.titles.filter fun request => decide (request.mjd = mjd)
  if asked.length = 0 then
    services.map fun service => derivedTitleRequest mjd service.listingsID
  else asked

/-- A request for a day names it and is on its PID, and was programmed unless no
programmed one names the day. -/
theorem requestsFor_spec {sub : Subscription} {d : Registers} (readOff : sub.ReadOff d) {mjd : Int}
    (fits : 0 ≤ mjd ∧ mjd ≤ 65535) {services : List ListedService} {request : TitleRequest}
    (member : request ∈ requestsFor sub mjd services) :
    request.mjd = mjd ∧ request.pid = titlePID mjd ∧
      (request ∈ sub.titles ∨ ∀ other ∈ sub.titles, other.mjd ≠ mjd) := by
  unfold requestsFor at member
  dsimp only at member
  split_ifs at member with unasked
  · obtain ⟨service, _, rfl⟩ := List.mem_map.mp member
    refine ⟨derivedTitleRequest_mjd fits _, rfl, .inr fun other listed names => ?_⟩
    have kept : other ∈ sub.titles.filter fun request => decide (request.mjd = mjd) :=
      List.mem_filter.mpr ⟨listed, decide_eq_true names⟩
    rw [List.length_eq_zero_iff.mp unasked] at kept
    cases kept
  · obtain ⟨programmed, names⟩ := List.mem_filter.mp member
    have sameDay := of_decide_eq_true names
    exact ⟨sameDay, by rw [readOff.pids request programmed, sameDay], .inl programmed⟩

namespace Transmitter

/-- One day's sections, without what is counted on the way. -/
def daySections (sub : Subscription) (day : Time) (m : Transmitter) :
    Except String (List Emission) :=
  match m.guide.on day with
  | none => .ok []
  | some listings =>
    if listings.services.length = 0 ∨ sub.arms (titlePID (mjdOf day)) = false then .ok []
    else requestSections m.dict m.version day listings.services
      (requestsFor sub (mjdOf day) listings.services)

/-- Two transmitters make the same sections. -/
structure SameContent (m m' : Transmitter) : Prop where
  guide : m'.guide = m.guide
  dict : m'.dict = m.dict
  version : m'.version = m.version

theorem SameContent.trans {first second third : Transmitter} (before : SameContent first second)
    (after : SameContent second third) : SameContent first third :=
  ⟨after.guide.trans before.guide, after.dict.trans before.dict,
    after.version.trans before.version⟩

theorem titlesFor_spec (sub : Subscription) (day : Time) (m : Transmitter) :
    (m.titlesFor sub day).1 = m.daySections sub day ∧ SameContent m (m.titlesFor sub day).2 ∧
      (m.titlesFor sub day).2.titleCursor = m.titleCursor := by
  unfold titlesFor daySections requestsFor
  cases m.guide.on day with
  | none => exact ⟨rfl, ⟨rfl, rfl, rfl⟩, rfl⟩
  | some listings =>
    dsimp only
    by_cases noServices : listings.services.length = 0
    · rw [if_pos noServices, if_pos (.inl noServices)]
      exact ⟨rfl, ⟨rfl, rfl, rfl⟩, rfl⟩
    rw [if_neg noServices]
    cases armed : sub.arms (titlePID (mjdOf day)) with
    | false => exact ⟨by simp, ⟨rfl, rfl, rfl⟩, rfl⟩
    | true =>
      have neither : ¬(listings.services.length = 0 ∨ true = false) := by simpa using noServices
      have notUnarmed : ¬(!true) = true := by simp
      rw [if_neg notUnarmed, if_neg neither]
      unfold reportOnAir
      dsimp only
      split_ifs <;> exact ⟨rfl, ⟨rfl, rfl, rfl⟩, rfl⟩

/-- A day's sections answer the box for it exactly when its date fits the sixteen
bits they carry. -/
theorem daySections_answers {d : Registers} {sub : Subscription}
    (read : readSubscription d = .ok sub) {day : Time} {m : Transmitter}
    {sections : List Emission} (built : m.daySections sub day = .ok sections) {e : Emission}
    (member : e ∈ sections) :
    ∃ listings, m.guide.on day = some listings ∧
      (Answers d sub listings day e ↔
        0 ≤ modifiedJulianDate day ∧ modifiedJulianDate day ≤ 65535) := by
  have readOff := readSubscription_readOff read
  unfold daySections at built
  cases onDay : m.guide.on day with
  | none =>
    rw [onDay] at built
    cases built
    cases member
  | some listings =>
    rw [onDay] at built
    dsimp only at built
    split_ifs at built with nothing
    · cases built
      cases member
    obtain ⟨-, armed⟩ := not_or.mp nothing
    rw [Bool.not_eq_false] at armed
    refine ⟨listings, rfl, fun answers => ?_, fun fits => ?_⟩
    · have small := halfAt_lt e.section_ 8
      have date := answers.date
      omega
    rw [mjdOf_eq fits] at built armed
    obtain ⟨request, isRequest, service, isService, pid, wants, quarter, records, isSection,
      scheduled⟩ := builtFor_of_requestSections built member
    obtain ⟨sameDay, onPID, asked⟩ := requestsFor_spec readOff fits isRequest
    obtain ⟨table, channel, high, low⟩ := titleSection_header isSection
    constructor
    case pid => rw [pid, onPID, titlePID_eq]
    case armed =>
      rw [pid, onPID]
      exact readOff.armed _ (List.contains_iff_mem.mp armed)
    case date => rw [halfAt, high, low, ← sameDay, request.mjd_eq]
    case served =>
      refine ⟨service, isService, quarter, records, ?_, channel, scheduled, ⟨_, _, _, isSection⟩, ?_⟩
      · rw [table, titleTableID_toNat]
      · rcases asked with programmed | unasked
        · exact .inl ⟨request, programmed, sameDay, wants⟩
        · exact .inr unasked

/-- The sections of today and tomorrow, in the order they take their turns. -/
def fullWave (sub : Subscription) (now : Time) (m : Transmitter) :
    Except String (List Emission) := do
  let today ← m.daySections sub now
  let tomorrow ← m.daySections sub (now.addDays 1)
  return today ++ tomorrow

theorem SameContent.daySections {m m' : Transmitter} (same : SameContent m m')
    (sub : Subscription) (day : Time) : m'.daySections sub day = m.daySections sub day := by
  unfold Transmitter.daySections
  rw [same.guide, same.dict, same.version]

theorem SameContent.fullWave {m m' : Transmitter} (same : SameContent m m') (sub : Subscription)
    (now : Time) : m'.fullWave sub now = m.fullWave sub now := by
  unfold Transmitter.fullWave
  rw [same.daySections, same.daySections]

theorem takeTurn_spec (wave : List Emission) (m : Transmitter) :
    (m.takeTurn wave).1 = (wave[m.titleCursor % wave.length]?).toList ∧
      SameContent m (m.takeTurn wave).2 ∧
      (0 < wave.length → (m.takeTurn wave).2.titleCursor = (m.titleCursor + 1) % wave.length) := by
  unfold takeTurn
  by_cases some : 0 < wave.length
  · have turn := Nat.mod_lt m.titleCursor some
    rw [dif_pos some, List.getElem?_eq_getElem turn]
    exact ⟨rfl, ⟨rfl, rfl, rfl⟩, fun _ => rfl⟩
  · rw [dif_neg some]
    refine ⟨?_, ⟨rfl, rfl, rfl⟩, fun positive => absurd positive some⟩
    rw [List.length_eq_zero_iff.mp (Nat.eq_zero_of_not_pos some)]
    rfl

/-- A title wave carries the section of the full wave whose turn it is, and the turn
passes to the next. -/
theorem answer_spec (sub : Subscription) (now : Time) (m : Transmitter) :
    (m.answer sub now).1 = (m.fullWave sub now).map
        (fun full => (full[m.titleCursor % full.length]?).toList) ∧
      SameContent m (m.answer sub now).2 ∧
      ∀ full, m.fullWave sub now = .ok full → 0 < full.length →
        (m.answer sub now).2.titleCursor = (m.titleCursor + 1) % full.length := by
  unfold answer fullWave
  obtain ⟨isToday, same₁, cursor₁⟩ := m.titlesFor_spec sub now
  generalize m.titlesFor sub now = first at isToday same₁ cursor₁ ⊢
  obtain ⟨today, m₁⟩ := first
  obtain rfl : today = m.daySections sub now := isToday
  cases m.daySections sub now with
  | error error => exact ⟨rfl, same₁, nofun⟩
  | ok today =>
    dsimp only
    obtain ⟨isTomorrow, same₂, cursor₂⟩ := m₁.titlesFor_spec sub (now.addDays 1)
    rw [same₁.daySections] at isTomorrow
    generalize m₁.titlesFor sub (now.addDays 1) = second at isTomorrow same₂ cursor₂ ⊢
    obtain ⟨tomorrow, m₂⟩ := second
    obtain rfl : tomorrow = m.daySections sub (now.addDays 1) := isTomorrow
    have same : SameContent m m₂ := same₁.trans same₂
    have cursor : m₂.titleCursor = m.titleCursor := cursor₂.trans cursor₁
    cases m.daySections sub (now.addDays 1) with
    | error error => exact ⟨rfl, same, nofun⟩
    | ok tomorrow =>
      obtain ⟨section_, kept, turn⟩ := m₂.takeTurn_spec (today ++ tomorrow)
      rw [cursor] at section_ turn
      refine ⟨congrArg Except.ok section_, same.trans kept, ?_⟩
      intro full isFull positive
      cases isFull
      exact turn positive

/-- Each section of a wave is one of today's or tomorrow's. -/
theorem titleWave_answers {d : Registers} {now : Time} {m m' : Transmitter} {wave : List Emission}
    (sent : m.titleWave d now = (.ok wave, m')) {e : Emission} (member : e ∈ wave) :
    ∃ sub, readSubscription d = .ok sub ∧ ∃ day ∈ [now, now.addDays 1], ∃ listings,
      m.guide.on day = some listings ∧ (Answers d sub listings day e ↔
        0 ≤ modifiedJulianDate day ∧ modifiedJulianDate day ≤ 65535) := by
  unfold titleWave at sent
  cases read : readSubscription d with
  | error error =>
    rw [read] at sent
    cases sent
    cases member
  | ok sub =>
    rw [read] at sent
    refine ⟨sub, rfl, ?_⟩
    set m₀ : Transmitter := { m with lastSubscriptionErr := "" }
    have isWave : (m₀.answer sub now).1 = .ok wave := congrArg Prod.fst sent
    rw [(m₀.answer_spec sub now).1] at isWave
    cases whole : m₀.fullWave sub now with
    | error error =>
      rw [whole] at isWave
      cases isWave
    | ok full =>
      rw [whole] at isWave
      cases isWave
      have inFull : e ∈ full := List.mem_of_getElem? (Option.mem_toList.mp member)
      unfold fullWave at whole
      obtain ⟨today, isToday, whole⟩ := bind_eq_ok.mp whole
      obtain ⟨tomorrow, isTomorrow, whole⟩ := bind_eq_ok.mp whole
      cases whole
      rcases List.mem_append.mp inFull with inToday | inTomorrow
      · exact ⟨now, by simp, daySections_answers read isToday inToday⟩
      · exact ⟨now.addDays 1, by simp, daySections_answers read isTomorrow inTomorrow⟩

end Transmitter

/-- When a wave goes out, and what the box then asks for. -/
structure Moment where
  demux : Registers
  now : Time

/-- The subscription and the day are those of the beginning of a run, and so are the
London offsets of the day and of the next. -/
structure Moment.Steady (sub : Subscription) (now : Time) (moment : Moment) : Prop where
  read : readSubscription moment.demux = .ok sub
  day : moment.now.unix / 86400 = now.unix / 86400
  offset : (londonOffset moment.now).offsetMinutes = (londonOffset now).offsetMinutes
  offsetTomorrow : (londonOffset (moment.now.addDays 1)).offsetMinutes =
    (londonOffset (now.addDays 1)).offsetMinutes

namespace Transmitter

/-- Consecutive title waves, up to an error. -/
def waves : List Moment → Transmitter → Except String (List Emission) × Transmitter
  | [], m => (.ok [], m)
  | moment :: moments, m =>
    match m.titleWave moment.demux moment.now with
    | (.error error, m) => (.error error, m)
    | (.ok wave, m) =>
      let (rest, m) := waves moments m
      (rest.map (wave ++ ·), m)

theorem daySections_congr {day other : Time} (same : day.unix / 86400 = other.unix / 86400)
    (offset : (londonOffset day).offsetMinutes = (londonOffset other).offsetMinutes)
    (sub : Subscription) (m : Transmitter) : m.daySections sub day = m.daySections sub other := by
  have sections : serviceSections m.dict m.version day = serviceSections m.dict m.version other := by
    funext request service
    unfold serviceSections
    rw [records_congr offset]
  unfold daySections requestSections
  rw [Guide.on_congr same, mjdOf_congr same, sections]

theorem fullWave_steady {sub : Subscription} {now : Time} {moment : Moment}
    (steady : moment.Steady sub now) (m : Transmitter) :
    m.fullWave sub moment.now = m.fullWave sub now := by
  have tomorrow : (moment.now.addDays 1).unix / 86400 = (now.addDays 1).unix / 86400 := by
    have day := steady.day
    change (moment.now.unix + 1 * 86400) / 86400 = (now.unix + 1 * 86400) / 86400
    omega
  unfold fullWave
  rw [daySections_congr steady.day steady.offset, daySections_congr tomorrow steady.offsetTomorrow]

/-- The section of a full wave whose turn comes after some others. -/
def turnAfter (full : List Emission) (some : 0 < full.length) (cursor i : Nat) : Emission :=
  full.get ⟨(cursor + i) % full.length, Nat.mod_lt _ some⟩

/-- Waves at steady moments carry the sections in turn. -/
theorem waves_inTurn {sub : Subscription} {now : Time} {full : List Emission}
    (some : 0 < full.length) {moments : List Moment}
    (steady : ∀ moment ∈ moments, moment.Steady sub now) {m : Transmitter}
    (whole : m.fullWave sub now = .ok full) :
    (m.waves moments).1 =
      .ok ((List.range moments.length).map (turnAfter full some m.titleCursor)) := by
  induction moments generalizing m with
  | nil => rfl
  | cons moment moments ih =>
    have here := steady moment List.mem_cons_self
    set m₀ : Transmitter := { m with lastSubscriptionErr := "" } with isM₀
    have same₀ : SameContent m m₀ := ⟨rfl, rfl, rfl⟩
    have whole₀ : m₀.fullWave sub moment.now = .ok full := by
      rw [fullWave_steady here, same₀.fullWave, whole]
    have sent : m.titleWave moment.demux moment.now = m₀.answer sub moment.now := by
      unfold titleWave
      rw [here.read]
    obtain ⟨section_, same, turn⟩ := m₀.answer_spec sub moment.now
    rw [whole₀] at section_
    have cursor := turn full whole₀ some
    generalize m₀.answer sub moment.now = answered at sent section_ same cursor
    obtain ⟨wave, m'⟩ := answered
    have isWave : wave = .ok [turnAfter full some m.titleCursor 0] := by
      have bound := Nat.mod_lt m₀.titleCursor some
      dsimp only [Except.map] at section_
      rw [List.getElem?_eq_getElem bound] at section_
      rw [section_]
      rfl
    have onwards := ih (fun other member => steady other (List.mem_cons_of_mem _ member))
      (show m'.fullWave sub now = .ok full by rw [(same₀.trans same).fullWave, whole])
    have turns : (turnAfter full some m'.titleCursor) =
        fun i => turnAfter full some m.titleCursor (i + 1) := by
      funext i
      have sameTurn : (m'.titleCursor + i) % full.length =
          (m.titleCursor + (i + 1)) % full.length := by
        have cursor' : m'.titleCursor = (m.titleCursor + 1) % full.length := cursor
        rw [cursor', Nat.mod_add_mod, Nat.add_assoc, Nat.add_comm 1 i]
      unfold turnAfter
      simp only [sameTurn]
    rw [waves, sent, isWave]
    dsimp only
    rw [onwards, List.length_cons, List.range_succ_eq_map, List.map_cons, List.map_map, turns]
    rfl

/-- As many steady waves as there are sections carry each of them once, from the
one whose turn it was. -/
theorem waves_rotate {sub : Subscription} {now : Time} {full : List Emission}
    {moments : List Moment} (steady : ∀ moment ∈ moments, moment.Steady sub now) {m : Transmitter}
    (whole : m.fullWave sub now = .ok full) (count : moments.length = full.length) :
    (m.waves moments).1 = .ok (full.rotate m.titleCursor) := by
  rcases Nat.eq_zero_or_pos full.length with none | some
  · rw [none] at count
    rw [List.length_eq_zero_iff.mp count, List.length_eq_zero_iff.mp none, List.rotate_nil]
    rfl
  · rw [waves_inTurn some steady whole, count]
    refine congrArg Except.ok (List.ext_getElem (by simp) fun i inRange _ => ?_)
    rw [List.getElem_rotate, List.getElem_map, List.getElem_range, turnAfter, List.get_eq_getElem]
    simp only [Nat.add_comm]

end Transmitter

/-- Each section of a title wave answers the box for today or tomorrow, whenever the
day's date fits the sixteen bits it has; and as many waves as the full wave has
sections carry them all, while the schedule, the day, what the box asks for and
the London offsets are those of the first. -/
theorem titles_answer (m : Transmitter) :
    (∀ d now wave m', m.titleWave d now = (.ok wave, m') → ∀ e ∈ wave,
      ∃ sub, readSubscription d = .ok sub ∧ ∃ day ∈ [now, now.addDays 1], ∃ listings,
        m.guide.on day = some listings ∧ (Answers d sub listings day e ↔
          0 ≤ modifiedJulianDate day ∧ modifiedJulianDate day ≤ 65535)) ∧
      ∀ sub now full, m.fullWave sub now = .ok full → ∀ moments,
        moments.length = full.length → (∀ moment ∈ moments, Moment.Steady sub now moment) →
          ∃ emitted, (m.waves moments).1 = .ok emitted ∧ ∀ e ∈ full, e ∈ emitted := by
  constructor
  · intro d now wave m' sent e member
    exact Transmitter.titleWave_answers sent member
  · intro sub now full whole moments count steady
    exact ⟨_, Transmitter.waves_rotate steady whole count, fun e => List.mem_rotate.mpr⟩

/-- A channel with programmes in two quarters. -/
def oneChannel : Transmitter where
  guide := {
    fallback := some { services := [{
      name := ascii "Sky One"
      listingsID := 0x0bb8
      programmes := [{ start := ascii "05:00", minutes := 30, title := ascii "a" },
        { start := ascii "07:00", minutes := 30, title := ascii "aab" }] }] } }
  dict := some HuffmanDictionary.threeWords

/-- A box that asks for the bouquet and the network, and has armed PID `0x30`. -/
def acquired : Registers where
  pidChannels := fun ch => if ch = 19 then 0x14030 else 0
  pidWritten := fun ch => ch = 19
  enable := fun group => if group = 2 then 1 <<< 19 else 0
  matchWords := fun unit index =>
    if unit = 3 then if index = 0 then 0x4aff else 0x10ff
    else if unit = 1 ∧ index = 0 then 0x40ff else 0

def acquiredSubscription : Subscription where
  bouquetID := 0x1010
  listingsPIDs := [0x30]

/-- 2026-03-29 at so many seconds past midnight: the clocks change at 01:00. -/
def changeDay (seconds : Int) : Time where
  unix := 1774742400 + seconds

/-- Two waves about the change carry one section with the old offset and one with the
new, so a section of the full wave is not carried at all.  And 2038-04-23, the
first day that sixteen bits do not hold, goes out as day zero. -/
theorem oneChannel_skips :
    readSubscription acquired = .ok acquiredSubscription ∧
      ((oneChannel.fullWave acquiredSubscription (changeDay 3599)).toOption.bind fun full =>
        (oneChannel.waves [⟨acquired, changeDay 3599⟩, ⟨acquired, changeDay 3600⟩]).1.toOption.map
          fun emitted => (full.length, full.all fun e => emitted.contains e)) = some (2, false) ∧
      (changeDay 3599).unix / 86400 = (changeDay 3600).unix / 86400 ∧
      ((oneChannel.titleWave acquired { unix := 2155593600 }).1.toOption.map fun wave =>
        wave.map fun e => (e.pid, halfAt e.section_ 8)) = some [(0x30, 0)] ∧
      modifiedJulianDate { unix := 2155593600 } = 65536 := by
  refine ⟨?_, ?_, ?_, ?_, ?_⟩ <;> decide +kernel

/-- Two waves before the change carry both sections. -/
theorem oneChannel_answers :
    ∃ full emitted,
      oneChannel.fullWave acquiredSubscription (changeDay 0) = .ok full ∧ full.length = 2 ∧
      (oneChannel.waves [⟨acquired, changeDay 0⟩, ⟨acquired, changeDay 3599⟩]).1 = .ok emitted ∧
      ∀ e ∈ full, e ∈ emitted := by
  have length : (oneChannel.fullWave acquiredSubscription (changeDay 0)).toOption.map
      List.length = some 2 := by
    decide +kernel
  have read : readSubscription acquired = .ok acquiredSubscription := by decide +kernel
  cases whole : oneChannel.fullWave acquiredSubscription (changeDay 0) with
  | error error =>
    rw [whole] at length
    cases length
  | ok full =>
    rw [whole] at length
    have two : full.length = 2 := Option.some.inj length
    obtain ⟨emitted, sent, all⟩ := (titles_answer oneChannel).2 acquiredSubscription (changeDay 0)
      full whole [⟨acquired, changeDay 0⟩, ⟨acquired, changeDay 3599⟩] two.symm (by
        intro moment member
        rcases List.mem_cons.mp member with rfl | later
        · exact ⟨read, rfl, rfl, rfl⟩
        · obtain rfl := List.mem_singleton.mp later
          exact ⟨read, by decide, by decide, by decide⟩)
    exact ⟨full, emitted, rfl, two, sent, all⟩

end Multiplex

end GoRetroTv
