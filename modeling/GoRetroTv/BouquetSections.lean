import GoRetroTv.BouquetPieces
import Mathlib.Data.List.Flatten
import Mathlib.Data.List.Infix

/-!
# A bouquet read back

What a receiver reads in the sections of a BAT: the transports each section
announces, and joined over all sections what the bouquet says about each
transport.
-/

namespace GoRetroTv

namespace Broadcast

open Demux (byteAt declaredLength)

/-- A loop behind its twelve-bit length, and what follows it. -/
def takeLoop : List Byte → Option (List Byte × List Byte)
  | high :: low :: rest =>
      let length := (high &&& 0x0f#8).toNat <<< 8 ||| low.toNat
      if length ≤ rest.length then some (rest.take length, rest.drop length) else none
  | _ => none

theorem takeLoop_shorter {bytes loop rest : List Byte} (taken : takeLoop bytes = some (loop, rest)) :
    rest.length < bytes.length := by
  unfold takeLoop at taken
  split at taken
  next high low more =>
    dsimp only at taken
    split at taken
    · cases taken
      rw [List.length_drop, List.length_cons, List.length_cons]
      omega
    · cases taken
  · cases taken

def parseAnnouncements : List Byte → Option (List Announcement)
  | [] => some []
  | id₀ :: id₁ :: network₀ :: network₁ :: bytes =>
      match _ : takeLoop bytes with
      | none => none
      | some (loop, rest) => do
          let descriptors ← parseDescriptors loop
          let announcements ← parseAnnouncements rest
          return { id := half id₀ id₁, networkID := half network₀ network₁, descriptors } ::
            announcements
  | _ => none
termination_by bytes => bytes.length
decreasing_by
  have := takeLoop_shorter ‹_›
  simp only [List.length_cons]
  omega

/-- One section of a bouquet. -/
structure BouquetSection where
  number : Byte
  last : Byte
  bouquet : List Descriptor
  announcements : List Announcement

/-- The bouquet's own loop and the transports behind it. -/
def parsePayload (payload : List Byte) : Option (List Descriptor × List Announcement) := do
  let (bouquetLoop, rest) ← takeLoop payload
  let bouquet ← parseDescriptors bouquetLoop
  let (tsLoop, rest) ← takeLoop rest
  let announcements ← parseAnnouncements tsLoop
  if rest = [] then some (bouquet, announcements) else none

def parseBat (section_ : List Byte) : Option BouquetSection :=
  (parsePayload ((section_.take (section_.length - 4)).drop 8)).map fun (bouquet, announcements) =>
    { number := byteAt section_ 6, last := byteAt section_ 7, bouquet, announcements }

/-- All a bouquet's loops of one transport. -/
def announced (sections : List BouquetSection) (key : Half × Half) : List (List Descriptor) :=
  ((sections.flatMap BouquetSection.announcements).filter fun a => a.key = key).map
    Announcement.descriptors

/-- What a receiver recovers from the sections of a bouquet, if each transport's
channel list is to be as expected. -/
structure RoundTrips (expected : Transport → List LineupEntry) (transports : List Transport)
    (sections : List (List Byte)) (parsed : List BouquetSection) : Prop where
  parses : sections.map parseBat = parsed.map some
  numbered : ∀ (i : Nat) (section_ : BouquetSection), parsed[i]? = some section_ →
    section_.number.toNat = i ∧ section_.last.toNat + 1 = parsed.length
  short : ∀ section_ ∈ sections, declaredLength section_ ≤ 1021
  once : ∀ section_ ∈ parsed, (section_.announcements.map Announcement.key).Nodup
  known : ∀ section_ ∈ parsed, ∀ a ∈ section_.announcements, ∃ tr ∈ transports, a.key = tr.key
  rejoined : ∀ tr ∈ transports,
    transportDescriptors tr = .ok (encodeLoop (rejoin (announced parsed tr.key)))
  declared : ∀ section_ ∈ parsed, ∀ a ∈ section_.announcements, Declared a.descriptors
  lineup : ∀ tr ∈ transports, lineupOf (rejoin (announced parsed tr.key)) = some (expected tr)

theorem takeLoop_lengthBytes {flags : Byte} (flagged : flags &&& 0x0f#8 = 0#8) {loop : List Byte}
    (fits : loop.length < 4096) (rest : List Byte) :
    takeLoop (lengthBytes flags loop.length ++ loop ++ rest) = some (loop, rest) := by
  have declared := lengthBytes_declared flagged fits
  simp only [lengthBytes, List.cons_append, List.nil_append, takeLoop]
  rw [declared, if_pos (by simp), List.take_left, List.drop_left]

/-- What was written of one announcement is read back. -/
theorem parseAnnouncements_cons {a : Announcement} (fits : a.loop.length < 4096)
    {rest : List Byte} {announcements : List Announcement}
    (parsed : parseAnnouncements rest = some announcements) :
    parseAnnouncements (a.encode ++ rest) = some (a :: announcements) := by
  have bytes : a.encode ++ rest =
      BitVec.ofNat 8 (a.id.toNat / 256) :: BitVec.ofNat 8 a.id.toNat ::
        BitVec.ofNat 8 (a.networkID.toNat / 256) :: BitVec.ofNat 8 a.networkID.toNat ::
          (lengthBytes 0xf0 a.loop.length ++ a.loop ++ rest) := by
    simp only [Announcement.encode, List.append_assoc]
    rfl
  rw [bytes, parseAnnouncements]
  split
  next none =>
    rw [takeLoop_lengthBytes (by decide) fits] at none
    cases none
  next loop more taken =>
    rw [takeLoop_lengthBytes (by decide) fits] at taken
    cases taken
    rw [Announcement.loop, parseDescriptors_encodeLoop, parsed, half_bytes, half_bytes]
    rfl

theorem parseAnnouncements_encode {announcements : List Announcement}
    (fits : ∀ a ∈ announcements, a.loop.length < 4096) :
    parseAnnouncements (announcements.map Announcement.encode).flatten = some announcements := by
  induction announcements with
  | nil => rw [List.map_nil, List.flatten_nil, parseAnnouncements]
  | cons a announcements ih =>
      rw [List.map_cons, List.flatten_cons]
      exact parseAnnouncements_cons (fits a (List.mem_cons_self ..))
        (ih fun other member => fits other (List.mem_cons_of_mem _ member))

theorem parsePayload_ok {bouquet : List Descriptor} {announcements : List Announcement}
    {payload : List Byte} (bouquetFits : (encodeLoop bouquet).length < 4096)
    (built : batPayload (encodeLoop bouquet) (announcements.map Announcement.encode) =
      .ok payload) :
    parsePayload payload = some (bouquet, announcements) := by
  unfold batPayload at built
  dsimp only at built
  split at built
  · cases built
  next tsFits =>
    cases built
    have fits : ∀ a ∈ announcements, a.loop.length < 4096 := by
      intro a member
      have inside : a.encode.length ≤ (announcements.map Announcement.encode).flatten.length :=
        (List.sublist_flatten_of_mem (List.mem_map_of_mem member)).length_le
      rw [Announcement.length_encode] at inside
      omega
    have parsed := parseAnnouncements_encode fits
    generalize (announcements.map Announcement.encode).flatten = tsLoop at tsFits parsed
    have whole :=
      takeLoop_lengthBytes (show (0xf0 : Byte) &&& 0x0f#8 = 0#8 by decide)
        (show tsLoop.length < 4096 by omega) []
    rw [List.append_nil] at whole
    rw [parsePayload, takeLoop_lengthBytes (by decide) bouquetFits]
    simp only [Option.bind_eq_bind, Option.bind_some, parseDescriptors_encodeLoop, whole, parsed,
      if_true]

theorem take_withCRC (body : List Byte) :
    (withCRC body).take ((withCRC body).length - 4) = body := by
  rw [withCRC, List.length_append, bigEndian_length, Nat.add_sub_cancel, List.take_left]

/-- A section is read as what it was built from. -/
theorem parseBat_ok {bouquet : List Descriptor} {announcements : List Announcement}
    {bouquetID : Half} {version number last : Byte} {payload section_ : List Byte}
    (parsed : parsePayload payload = some (bouquet, announcements))
    (built : numberedSection 0x4a bouquetID version number last payload = .ok section_) :
    parseBat section_ = some { number, last, bouquet, announcements } ∧
      declaredLength section_ ≤ maxSectionLength := by
  have length := (numberedSection_checked built).length
  have short := (numberedSection_checked built).short
  obtain ⟨_, rfl⟩ := numberedSection_ok built
  refine ⟨?_, by unfold maxSectionLength; omega⟩
  rw [parseBat, take_withCRC]
  change (parsePayload payload).map (fun (bouquet, announcements) =>
    BouquetSection.mk number last bouquet announcements) = _
  rw [parsed]
  rfl

/-- The sections a receiver finds for groups of announcements, numbered from `i`. -/
def readGroups (bouquet : List Descriptor) (last : Byte) (i : Nat)
    (groups : List (List Announcement)) : List BouquetSection :=
  (groups.zipIdx i).map fun (announcements, number) =>
    { number := low number, last, bouquet, announcements }

theorem parseBat_numberSections {bouquet : List Descriptor} {bouquetID : Half} {version last : Byte}
    (bouquetFits : (encodeLoop bouquet).length < 4096) (i : Nat)
    {groups : List (List Announcement)} {sections : List (List Byte)}
    (built : numberSections 0x4a bouquetID version (batPayload (encodeLoop bouquet)) last i
      (groups.map (List.map Announcement.encode)) = .ok sections) :
    sections.map parseBat = (readGroups bouquet last i groups).map some ∧
      ∀ section_ ∈ sections, declaredLength section_ ≤ maxSectionLength := by
  induction groups generalizing i sections with
  | nil =>
      cases built
      exact ⟨rfl, by simp⟩
  | cons announcements groups ih =>
      rw [List.map_cons, numberSections] at built
      obtain ⟨payload, isPayload, built⟩ := bind_eq_ok.mp built
      obtain ⟨section_, isSection, built⟩ := bind_eq_ok.mp built
      obtain ⟨sections, areSections, built⟩ := bind_eq_ok.mp built
      cases built
      obtain ⟨parsed, short⟩ := parseBat_ok (parsePayload_ok bouquetFits isPayload) isSection
      obtain ⟨rest, restShort⟩ := ih (i + 1) areSections
      refine ⟨?_, List.forall_mem_cons.mpr ⟨short, restShort⟩⟩
      rw [List.map_cons, parsed, rest, readGroups, readGroups, List.zipIdx_cons]
      rfl

theorem flatMap_readGroups (bouquet : List Descriptor) (last : Byte) (i : Nat)
    (groups : List (List Announcement)) :
    (readGroups bouquet last i groups).flatMap BouquetSection.announcements = groups.flatten := by
  induction groups generalizing i with
  | nil => rfl
  | cons announcements groups ih =>
      rw [List.flatten_cons, ← ih (i + 1)]
      rfl

theorem mem_readGroups {bouquet : List Descriptor} {last : Byte} {i : Nat}
    {groups : List (List Announcement)} {section_ : BouquetSection}
    (member : section_ ∈ readGroups bouquet last i groups) : section_.announcements ∈ groups := by
  obtain ⟨⟨announcements, number⟩, inGroups, rfl⟩ := List.mem_map.mp member
  exact List.fst_mem_of_mem_zipIdx inGroups

theorem exists_groups {α β : Type} {encode : α → β} {groups : List (List β)} {items : List α}
    (same : groups.flatten = items.map encode) :
    ∃ itemGroups : List (List α), itemGroups.flatten = items ∧
      groups = itemGroups.map (List.map encode) := by
  induction groups generalizing items with
  | nil =>
      obtain rfl : items = [] := by simpa using same.symm
      exact ⟨[], rfl, rfl⟩
  | cons group groups ih =>
      obtain ⟨first, rest, rfl, rfl, isRest⟩ := List.map_eq_append_iff.mp same.symm
      obtain ⟨itemGroups, rfl, rfl⟩ := ih isRest.symm
      exact ⟨first :: itemGroups, rfl, rfl⟩

/-- What a transport's announcements come from. -/
structure Sent (budget : Nat) (tr : Transport) (run : List Announcement) : Prop where
  transport : transportDescriptors tr =
    .ok (encodeLoop (rejoin (run.map Announcement.descriptors)))
  lineup : lineupOf (rejoin (run.map Announcement.descriptors)) =
    some (tr.lineup.map LineupEntry.carried)
  run : Run budget tr (rejoin (run.map Announcement.descriptors)) run

theorem exists_runs {head : Nat} {transports : List Transport} {pieces : List (List (List Byte))}
    (built : List.Forall₂ (fun tr pieces => batTransport head tr = .ok pieces) transports pieces) :
    ∃ runs, List.Forall₂ (Sent (sectionPayloadBudget - head - 6)) transports runs ∧
      pieces.flatten = runs.flatten.map Announcement.encode := by
  induction built with
  | nil => exact ⟨[], .nil, rfl⟩
  | cons first _ ih =>
      obtain ⟨runs, sent, isRest⟩ := ih
      obtain ⟨descriptors, run, transport, lineup, isRun, rfl⟩ := batTransport_ok first
      obtain rfl := isRun.rejoined
      refine ⟨run :: runs, .cons ⟨transport, lineup, isRun⟩ sent, ?_⟩
      rw [List.flatten_cons, List.flatten_cons, List.map_append, isRest]

/-- A bouquet's announcements, the transports' one behind the other. -/
def Sending (budget : Nat) (transports : List Transport) (announcements : List Announcement) :
    Prop :=
  ∃ runs, List.Forall₂ (Sent budget) transports runs ∧ announcements = runs.flatten

section

variable {budget : Nat} {transports : List Transport} {announcements : List Announcement}

theorem Sending.of_mem (sending : Sending budget transports announcements) {a : Announcement}
    (member : a ∈ announcements) :
    ∃ tr ∈ transports, a.key = tr.key ∧ Declared a.descriptors ∧ a.loop.length ≤ budget := by
  obtain ⟨runs, sent, rfl⟩ := sending
  induction sent with
  | nil => cases member
  | @cons tr run transports runs first _ ih =>
      rcases List.mem_append.mp member with isFirst | later
      · exact ⟨tr, List.mem_cons_self .., first.run.key a isFirst, first.run.declared a isFirst,
          first.run.fits a isFirst⟩
      · obtain ⟨other, isOther, said⟩ := ih later
        exact ⟨other, List.mem_cons_of_mem _ isOther, said⟩

/-- What is said under a transport's key is the transport's. -/
theorem Sending.filter (sending : Sending budget transports announcements)
    (distinct : (transports.map Transport.key).Nodup) {tr : Transport} (member : tr ∈ transports) :
    Sent budget tr (announcements.filter fun a => a.key = tr.key) := by
  obtain ⟨runs, sent, rfl⟩ := sending
  induction sent with
  | nil => cases member
  | @cons other run transports runs first others ih =>
      obtain ⟨isNew, distinct⟩ := List.nodup_cons.mp distinct
      rw [List.flatten_cons, List.filter_append]
      rcases List.mem_cons.mp member with rfl | later
      · have all : (run.filter fun a => a.key = tr.key) = run :=
          List.filter_eq_self.mpr fun a isFirst => by simpa using first.run.key a isFirst
        have none : (runs.flatten.filter fun a => a.key = tr.key) = [] := by
          refine List.filter_eq_nil_iff.mpr fun a inRest same => ?_
          obtain ⟨owner, isOwner, key, _⟩ := Sending.of_mem ⟨runs, others, rfl⟩ inRest
          refine isNew (List.mem_map.mpr ⟨owner, isOwner, ?_⟩)
          rw [← key]
          simpa using same
        rw [all, none, List.append_nil]
        exact first
      · have none : (run.filter fun a => a.key = tr.key) = [] := by
          refine List.filter_eq_nil_iff.mpr fun a isFirst same => ?_
          refine isNew (List.mem_map.mpr ⟨tr, later, ?_⟩)
          rw [← first.run.key a isFirst]
          simpa using Eq.symm (by simpa using same)
        rw [none, List.nil_append]
        exact ih distinct later

/-- Two announcements of one transport do not fit into one section. -/
theorem Sending.once (sending : Sending budget transports announcements)
    (distinct : (transports.map Transport.key).Nodup) {group : List Announcement}
    (inside : group <:+: announcements)
    (fits : (group.map Announcement.encode).flatten.length ≤ budget + 6) :
    (group.map Announcement.key).Nodup := by
  refine List.nodup_iff_count_le_one.mpr fun key => ?_
  have sameKey : ((· == key) ∘ Announcement.key) = fun a => decide (a.key = key) := by
    funext a
    exact beq_eq_decide (a := a.key) (b := key)
  rw [List.count_eq_countP, List.countP_map, List.countP_eq_length_filter, sameKey]
  match isFilter : group.filter fun a => a.key = key with
  | [] => simp [isFilter]
  | [_] => simp [isFilter]
  | first :: second :: rest =>
      exfalso
      have isFirst : first ∈ group ∧ first.key = key := by
        have : first ∈ group.filter fun a => a.key = key := by simp [isFilter]
        simpa using this
      obtain ⟨tr, member, isKey, _⟩ := sending.of_mem (inside.subset isFirst.1)
      obtain rfl : key = tr.key := isFirst.2.symm.trans isKey
      have chained := List.IsChain.infix (sending.filter distinct member).run.full
        (inside.filter fun a => a.key = tr.key)
      rw [isFilter] at chained
      have tooLong := chained.rel
      have within := ((List.filter_sublist (p := fun a : Announcement => a.key = tr.key)
        (l := group)).map Announcement.encode).flatten.length_le
      rw [isFilter] at within
      simp only [List.map_cons, List.flatten_cons, List.length_append,
        Announcement.length_encode] at within
      omega

end

theorem batTransport_room {head : Nat} {tr : Transport} {pieces : List (List Byte)}
    (built : batTransport head tr = .ok pieces) : head + 6 < sectionPayloadBudget := by
  unfold batTransport at built
  obtain ⟨_, _, built⟩ := bind_eq_ok.mp built
  obtain ⟨room, _⟩ := check_ok built
  omega

/-- The bouquet's own loop is a loop, and its transports are sent in groups that
fit. -/
theorem bat_ok {bouquetID : Half} {version : Byte} {name : List Byte} {transports : List Transport}
    {sections : List (List Byte)} (built : bat bouquetID version name transports = .ok sections) :
    ∃ bouquet budget groups, (encodeLoop bouquet).length < 4096 ∧
      Sending budget transports groups.flatten ∧
      (∀ group ∈ groups, (group.map Announcement.encode).flatten.length ≤ budget + 6) ∧
      groups ≠ [] ∧ groups.length ≤ 256 ∧
      numberSections 0x4a bouquetID version (batPayload (encodeLoop bouquet))
        (low (groups.length - 1)) 0 (groups.map (List.map Announcement.encode)) =
        .ok sections := by
  unfold bat at built
  obtain ⟨bouquetName, _, built⟩ := bind_eq_ok.mp built
  obtain ⟨nameFits, built⟩ := check_ok built
  cases transports with
  | nil => cases built
  | cons first transports =>
      obtain ⟨linkage, isLinkage, built⟩ := bind_eq_ok.mp built
      obtain ⟨loopFits, built⟩ := check_ok built
      obtain ⟨pieces, arePieces, built⟩ := bind_eq_ok.mp built
      obtain ⟨groups, areGroups, built⟩ := bind_eq_ok.mp built
      obtain ⟨link, rfl, _⟩ := linkageDescriptor_ok isLinkage
      set bouquet : List Descriptor := [⟨0x47, bouquetName, by omega⟩, link] with isBouquet
      have loop : [0x47, low bouquetName.length] ++ bouquetName ++ link.encode =
          encodeLoop bouquet := by
        rw [isBouquet, encodeLoop_cons, encodeLoop_cons, encodeLoop_nil, List.append_nil]
        rfl
      rw [loop] at loopFits arePieces areGroups built
      have sent := mapM_ok arePieces
      have room : 2 + (encodeLoop bouquet).length + 2 + 6 < sectionPayloadBudget := by
        cases sent with
        | cons first _ => exact batTransport_room first
      obtain ⟨runs, areSent, isFlat⟩ := exists_runs sent
      rw [isFlat] at areGroups
      obtain ⟨whole, few, some, fits⟩ := packSections_ok (by omega) areGroups
      obtain ⟨announcements, isWhole, rfl⟩ := exists_groups whole
      refine ⟨bouquet, _, announcements, by omega, ⟨runs, areSent, isWhole⟩, ?_, ?_, ?_, ?_⟩
      · intro group member
        have := fits _ (List.mem_map_of_mem member)
        omega
      · rintro rfl
        exact some rfl
      · simpa using few
      · rw [List.length_map] at built
        exact built

/-- A bouquet of distinct transports is read back whole. -/
theorem bat_roundTrips (bouquetID : Half) (version : Byte) (name : List Byte)
    {transports : List Transport} {sections : List (List Byte)}
    (distinct : (transports.map Transport.key).Nodup)
    (built : bat bouquetID version name transports = .ok sections) :
    ∃ parsed, RoundTrips (fun tr => tr.lineup.map LineupEntry.carried) transports sections
      parsed := by
  obtain ⟨bouquet, budget, groups, bouquetFits, sending, fits, some, few, built⟩ := bat_ok built
  obtain ⟨parsed, short⟩ := parseBat_numberSections bouquetFits 0 built
  set last := low (groups.length - 1) with isLast
  have said (tr : Transport) (member : tr ∈ transports) := sending.filter distinct member
  have announces (section_ : BouquetSection) (isRead : section_ ∈ readGroups bouquet last 0 groups)
      (a : Announcement) (member : a ∈ section_.announcements) :=
    sending.of_mem (List.mem_flatten_of_mem (mem_readGroups isRead) member)
  refine ⟨readGroups bouquet last 0 groups, {
    parses := parsed
    numbered := ?_
    short := short
    once := ?_
    known := ?_
    rejoined := ?_
    declared := ?_
    lineup := ?_ }⟩
  · intro i section_ isSection
    have positive := List.length_pos_iff.mpr some
    rw [readGroups, List.getElem?_map, List.getElem?_zipIdx] at isSection
    cases isGroup : groups[i]? with
    | none => simp [isGroup] at isSection
    | some group =>
        rw [isGroup] at isSection
        cases isSection
        have inside := (List.getElem?_eq_some_iff.mp isGroup).1
        rw [readGroups, List.length_map, List.length_zipIdx]
        simp only [isLast, low, BitVec.toNat_ofNat]
        omega
  · intro section_ isRead
    have member := mem_readGroups isRead
    exact sending.once distinct (List.infix_of_mem_flatten member) (fits _ member)
  · intro section_ isRead a member
    obtain ⟨tr, isTransport, key, _⟩ := announces section_ isRead a member
    exact ⟨tr, isTransport, key⟩
  · intro tr member
    rw [announced, flatMap_readGroups]
    exact (said tr member).transport
  · intro section_ isRead a member
    obtain ⟨_, _, _, declared, _⟩ := announces section_ isRead a member
    exact declared
  · intro tr member
    rw [announced, flatMap_readGroups]
    exact (said tr member).lineup

/-- A transport of some channels, and one service. -/
def channels (id : Half) (count : Nat) (kind : Byte) : Transport where
  id
  networkID := 2
  frequencyMHz := 11778
  orbitTenths := 282
  west := false
  polarisation := 1
  symbolRate := 27500
  fec := 2
  services := [{
    id := 0x1201, type := 1, provider := [], name := [0x4f, 0x6e, 0x65], eitSchedule := true,
    noEITPresent := false, row := none }]
  lineup := (List.range count).map fun n =>
    { serviceID := BitVec.ofNat 16 n, kind, listings := 0x0bb8, extra := 0
      channel := BitVec.ofNat 16 (100 + n), flags := 3 }

/-- Some channels fill three sections, the second with pieces of two transports. -/
theorem bat_roundTrips_three :
    ∃ sections, bat 0x1000 1 [0x53, 0x6b, 0x79] [channels 1 130 1, channels 2 100 1] = .ok sections ∧
      sections.length = 3 ∧
      ∃ parsed, RoundTrips (fun tr => tr.lineup.map LineupEntry.carried)
        [channels 1 130 1, channels 2 100 1] sections parsed := by
  have size : (bat 0x1000 1 [0x53, 0x6b, 0x79] [channels 1 130 1, channels 2 100 1]).toOption.map
      List.length = some 3 := by decide +kernel
  cases built : bat 0x1000 1 [0x53, 0x6b, 0x79] [channels 1 130 1, channels 2 100 1] with
  | error _ =>
      rw [built] at size
      cases size
  | ok sections =>
      rw [built] at size
      exact ⟨sections, rfl, Option.some.inj size, bat_roundTrips _ _ _ (by decide) built⟩

theorem RoundTrips.read {expected : Transport → List LineupEntry} {transports : List Transport}
    {sections : List (List Byte)} {parsed : List BouquetSection}
    (roundTrips : RoundTrips expected transports sections parsed) :
    parsed = sections.filterMap parseBat := by
  have same := congrArg (List.filterMap id) roundTrips.parses
  rw [List.filterMap_map, List.filterMap_map] at same
  simpa using same.symm

/-- Without a kind, a channel is carried with 1; and a transport that is there
twice is twice in a section. -/
theorem bat_not_whole :
    (∃ sections, bat 0x1000 1 [0x53, 0x6b, 0x79] [channels 1 1 0] = .ok sections ∧
      ∀ parsed, ¬ RoundTrips Transport.lineup [channels 1 1 0] sections parsed) ∧
    ∃ sections, bat 0x1000 1 [0x53, 0x6b, 0x79] [channels 1 1 1, channels 1 1 1] = .ok sections ∧
      ∀ parsed, ¬ RoundTrips Transport.lineup [channels 1 1 1, channels 1 1 1] sections parsed := by
  constructor
  · have differs : (bat 0x1000 1 [0x53, 0x6b, 0x79] [channels 1 1 0]).toOption.any
        (fun sections => decide (lineupOf (rejoin (announced (sections.filterMap parseBat) (1, 2))) ≠
          some (channels 1 1 0).lineup)) = true := by decide +kernel
    cases built : bat 0x1000 1 [0x53, 0x6b, 0x79] [channels 1 1 0] with
    | error _ =>
        rw [built] at differs
        cases differs
    | ok sections =>
        rw [built] at differs
        refine ⟨sections, rfl, fun parsed roundTrips => of_decide_eq_true differs ?_⟩
        rw [← roundTrips.read]
        exact roundTrips.lineup _ (List.mem_singleton_self _)
  · have repeated : (bat 0x1000 1 [0x53, 0x6b, 0x79]
        [channels 1 1 1, channels 1 1 1]).toOption.any (fun sections =>
          decide (∃ section_ ∈ sections.filterMap parseBat,
            ¬ (section_.announcements.map Announcement.key).Nodup)) = true := by decide +kernel
    cases built : bat 0x1000 1 [0x53, 0x6b, 0x79] [channels 1 1 1, channels 1 1 1] with
    | error _ =>
        rw [built] at repeated
        cases repeated
    | ok sections =>
        rw [built] at repeated
        refine ⟨sections, rfl, fun parsed roundTrips => ?_⟩
        obtain ⟨section_, member, twice⟩ := of_decide_eq_true repeated
        rw [← roundTrips.read] at member
        exact twice (roundTrips.once section_ member)

end Broadcast

end GoRetroTv
