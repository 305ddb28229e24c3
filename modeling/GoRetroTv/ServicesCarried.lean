import GoRetroTv.BouquetSections
import Mathlib.Tactic.IntervalCases

/-!
# A service description table read back

What a receiver reads in the sections of an SDT: each service's id, its flags,
the descriptor that names it and its row of the grid.
-/

namespace GoRetroTv

namespace Broadcast

open Demux (byteAt declaredLength)

/-- A service as the table describes it. -/
structure ServiceRecord where
  id : Half
  eitSchedule : Bool
  eitPresent : Bool
  type : Byte
  provider : List Byte
  name : List Byte
  row : Option GuideRow

/-- The fields of a 0x48 descriptor: the type, the provider and the name. -/
def readNames : List Byte → Option (Byte × List Byte × List Byte)
  | type :: providerSize :: rest =>
      if providerSize.toNat ≤ rest.length then
        match rest.drop providerSize.toNat with
        | nameSize :: name =>
            if nameSize.toNat = name.length then some (type, rest.take providerSize.toNat, name)
            else none
        | [] => none
      else none
  | _ => none

/-- The fields of a 0xB2 descriptor, as the guest's parser takes them. -/
def readRow : List Byte → Option GuideRow
  | at8 :: at10 :: packed :: rest =>
      let size := (packed &&& 0x0f#8).toNat
      if size ≤ rest.length then
        some {
          at8, at10
          at9 := (packed &&& 0xe0#8) >>> 5
          at11 := (packed &&& 0x10#8) >>> 4
          prefixBytes := rest.take size
          text := rest.drop size }
      else none
  | _ => none

/-- A service without a 0xB2 descriptor has no row. -/
def readRowIn (descriptors : List Descriptor) : Option (Option GuideRow) :=
  match descriptors.find? fun d => d.tag = 0xb2 with
  | some d => (readRow d.body).map some
  | none => some none

/-- A service from its id, its flags and its descriptors. -/
def readService (id : Half) (flags : Byte) (descriptors : List Descriptor) :
    Option ServiceRecord := do
  let names ← descriptors.find? fun d => d.tag = 0x48
  let (type, provider, name) ← readNames names.body
  let row ← readRowIn descriptors
  return {
    id
    eitSchedule := flags.getLsbD 1
    eitPresent := flags.getLsbD 0
    type, provider, name, row }

def parseServices : List Byte → Option (List ServiceRecord)
  | [] => some []
  | id₀ :: id₁ :: flags :: bytes =>
      match _ : takeLoop bytes with
      | none => none
      | some (loop, rest) => do
          let descriptors ← parseDescriptors loop
          let service ← readService (half id₀ id₁) flags descriptors
          let services ← parseServices rest
          return service :: services
  | _ => none
termination_by bytes => bytes.length
decreasing_by
  have := takeLoop_shorter ‹_›
  simp only [List.length_cons]
  omega

/-- The service loop of a section: what lies between its head and its CRC. -/
def serviceLoop (section_ : List Byte) : List Byte :=
  (section_.take (section_.length - 4)).drop 11

/-- One section of the table. -/
structure ServiceSection where
  number : Byte
  last : Byte
  services : List ServiceRecord

/-- A section that the demux takes, of the actual transport. -/
def parseSdt (section_ : List Byte) : Option ServiceSection :=
  match Demux.validateSection section_ with
  | .error _ => none
  | .ok () =>
      if byteAt section_ 0 = 0x42 then
        (parseServices (serviceLoop section_)).map fun services =>
          { number := byteAt section_ 6, last := byteAt section_ 7, services }
      else none

/-- The section length that one section with the services of both would have. -/
def joinedLength (first second : List Byte) : Nat :=
  5 + (3 + (serviceLoop first ++ serviceLoop second).length) + 4

/-- What a receiver recovers from the sections of a table, if each service is to
be described as expected. -/
structure ServicesCarried (expected : Service → ServiceRecord) (services : List Service)
    (sections : List (List Byte)) (parsed : List ServiceSection) : Prop where
  parses : sections.map parseSdt = parsed.map some
  whole : parsed.flatMap ServiceSection.services = services.map expected
  numbered : ∀ (i : Nat) (section_ : ServiceSection), parsed[i]? = some section_ →
    section_.number.toNat = i ∧ section_.last.toNat + 1 = parsed.length
  few : parsed.length ≤ 256
  short : ∀ section_ ∈ sections, declaredLength section_ ≤ 1021
  full : sections.IsChain fun first second => 1021 < joinedLength first second

/-- A service as its fields say. -/
def Service.given (svc : Service) : ServiceRecord where
  id := svc.id
  eitSchedule := svc.eitSchedule
  eitPresent := !svc.noEITPresent
  type := svc.type
  provider := svc.provider
  name := svc.name
  row := svc.row

/-- A service with the documented defaults: the type of digital television, and
Sky as the provider. -/
def Service.described (svc : Service) : ServiceRecord :=
  { svc.given with
    type := serviceType svc
    provider := if svc.provider = [] then ascii "BSkyB" else svc.provider }

theorem asciiText_ok {s bytes : List Byte} (printable : asciiText s = .ok bytes) : bytes = s := by
  unfold asciiText at printable
  split at printable
  · cases printable
  · cases printable
    rfl

theorem low_toNat_of_lt {n : Nat} (fits : n < 256) : (low n).toNat = n := by
  rw [low, BitVec.toNat_ofNat]
  exact Nat.mod_eq_of_lt fits

theorem readNames_ok {type : Byte} {provider name : List Byte} (providerFits : provider.length < 256)
    (nameFits : name.length < 256) :
    readNames (type :: low provider.length :: (provider ++ low name.length :: name)) =
      some (type, provider, name) := by
  rw [readNames, low_toNat_of_lt providerFits, if_pos (by simp), List.drop_left, List.take_left]
  dsimp only
  rw [low_toNat_of_lt nameFits, if_pos rfl]

/-- A byte of a field of three bits, one of one bit, and one of four. -/
def packedRow (at9 at11 : Byte) (size : Nat) : Byte :=
  at9 <<< 5 ||| at11 <<< 4 ||| low size

theorem packedRow_small :
    ∀ (at9 : Fin 8) (at11 : Fin 2) (size : Fin 16),
      let packed := packedRow (BitVec.ofNat 8 at9.val) (BitVec.ofNat 8 at11.val) size.val
      (packed &&& 0xe0#8) >>> 5 = BitVec.ofNat 8 at9.val ∧
        (packed &&& 0x10#8) >>> 4 = BitVec.ofNat 8 at11.val ∧
        (packed &&& 0x0f#8).toNat = size.val := by
  decide

theorem packedRow_fields {at9 at11 : Byte} {size : Nat} (at9Fits : ¬ 7 < at9)
    (at11Fits : ¬ 1 < at11) (sizeFits : ¬ 0x0f < size) :
    (packedRow at9 at11 size &&& 0xe0#8) >>> 5 = at9 ∧
      (packedRow at9 at11 size &&& 0x10#8) >>> 4 = at11 ∧
      (packedRow at9 at11 size &&& 0x0f#8).toNat = size := by
  have at9Bound : at9.toNat ≤ 7 := by simpa [BitVec.lt_def] using at9Fits
  have at11Bound : at11.toNat ≤ 1 := by simpa [BitVec.lt_def] using at11Fits
  have fields := packedRow_small ⟨at9.toNat, by omega⟩ ⟨at11.toNat, by omega⟩ ⟨size, by omega⟩
  simp only [BitVec.ofNat_toNat, BitVec.setWidth_eq] at fields
  exact fields

theorem guideRowDescriptor_ok {row : Option GuideRow} {bytes : List Byte}
    (built : guideRowDescriptor row = .ok bytes) :
    ∃ descriptors, bytes = encodeLoop descriptors ∧ bytes.length ≤ 257 ∧
      (∀ d ∈ descriptors, d.tag = 0xb2) ∧ readRowIn descriptors = some row := by
  unfold guideRowDescriptor at built
  split at built
  next =>
    cases built
    exact ⟨[], rfl, by simp, by simp, rfl⟩
  next row =>
    split at built
    · cases built
    next sizeFits =>
      split at built
      · cases built
      next at9Fits =>
        split at built
        · cases built
        next at11Fits =>
          dsimp only at built
          split at built
          · cases built
          next bodyFits =>
            cases built
            obtain ⟨at9, at11, size⟩ := packedRow_fields at9Fits at11Fits sizeFits
            refine ⟨[⟨0xb2, _, by omega⟩], (List.append_nil _).symm, ?_, by simp, ?_⟩
            · rw [List.length_append, List.length_cons, List.length_cons, List.length_nil]
              omega
            · have read : readRow (row.at8 :: row.at10 ::
                  packedRow row.at9 row.at11 row.prefixBytes.length ::
                  (row.prefixBytes ++ row.text)) = some row := by
                rw [readRow]
                rw [at9, at11, size, if_pos (by simp), List.take_left, List.drop_left]
              exact congrArg (Option.map some) read

/-- The flags of an entry. -/
def sdtFlags (svc : Service) : Byte :=
  let flags := 0xfc#8
  let flags := if svc.eitSchedule then flags ||| 2 else flags
  if svc.noEITPresent then flags else flags ||| 1

theorem sdtFlags_bits (svc : Service) :
    (sdtFlags svc).getLsbD 1 = svc.eitSchedule ∧ (sdtFlags svc).getLsbD 0 = !svc.noEITPresent := by
  unfold sdtFlags
  cases svc.eitSchedule <;> cases svc.noEITPresent <;> decide

theorem sdtServiceEntry_ok {svc : Service} {bytes : List Byte}
    (built : sdtServiceEntry svc = .ok bytes) :
    ∃ descriptors, bytes = bigEndian 2 svc.id.toNat ++ sdtFlags svc ::
        (lengthBytes 0x80 (encodeLoop descriptors).length ++ encodeLoop descriptors) ∧
      (encodeLoop descriptors).length < 4096 ∧
      readService svc.id (sdtFlags svc) descriptors = some svc.described := by
  unfold sdtServiceEntry at built
  obtain ⟨provider, isProvider, built⟩ := bind_eq_ok.mp built
  obtain ⟨name, isName, built⟩ := bind_eq_ok.mp built
  obtain ⟨namesFit, built⟩ := check_ok built
  obtain ⟨row, isRow, built⟩ := bind_eq_ok.mp built
  have providerIs := asciiText_ok (wrap_ok isProvider)
  obtain rfl := asciiText_ok (wrap_ok isName)
  obtain ⟨rows, rfl, rowFits, rowTags, isRow⟩ := guideRowDescriptor_ok (wrap_ok isRow)
  cases built
  set names : Descriptor := {
    tag := 0x48
    body := serviceType svc :: low provider.length :: (provider ++ low svc.name.length :: svc.name)
    short := by simp; omega } with isNames
  have namesLength : names.body.length = 3 + provider.length + svc.name.length := by
    simp only [isNames, List.length_cons, List.length_append]
    omega
  have loop : specifierDescriptor ++
      [0x48, low (3 + provider.length + svc.name.length), serviceType svc, low provider.length] ++
      provider ++ [low svc.name.length] ++ svc.name ++ encodeLoop rows =
      encodeLoop (specifier :: names :: rows) := by
    rw [encodeLoop_cons, encodeLoop_cons, encode_specifier, Descriptor.encode, namesLength]
    simp [isNames]
  have read : readNames names.body = some (serviceType svc, provider, svc.name) :=
    readNames_ok (by omega) (by omega)
  refine ⟨specifier :: names :: rows, ?_, ?_, ?_⟩
  · rw [loop, appendU16, List.nil_append]
    rfl
  · rw [encodeLoop_cons, encodeLoop_cons, List.length_append, List.length_append,
      names.length_encode, namesLength]
    change 6 + _ < 4096
    omega
  · have found : (specifier :: names :: rows).find? (fun d => d.tag = 0x48) = some names := rfl
    have rowsRead : readRowIn (specifier :: names :: rows) = some svc.row := isRow
    obtain ⟨schedule, present⟩ := sdtFlags_bits svc
    rw [readService, found]
    simp only [Option.bind_eq_bind, Option.bind_some, read, rowsRead, schedule, present]
    rw [providerIs]
    rfl

theorem parseServices_cons {id : Half} {flags : Byte} {descriptors : List Descriptor}
    {service : ServiceRecord} (fits : (encodeLoop descriptors).length < 4096)
    (read : readService id flags descriptors = some service) {rest : List Byte}
    {services : List ServiceRecord} (parsed : parseServices rest = some services) :
    parseServices (bigEndian 2 id.toNat ++ flags ::
      (lengthBytes 0x80 (encodeLoop descriptors).length ++ encodeLoop descriptors) ++ rest) =
      some (service :: services) := by
  have bytes : bigEndian 2 id.toNat ++ flags ::
      (lengthBytes 0x80 (encodeLoop descriptors).length ++ encodeLoop descriptors) ++ rest =
      BitVec.ofNat 8 (id.toNat / 256) :: BitVec.ofNat 8 id.toNat :: flags ::
        (lengthBytes 0x80 (encodeLoop descriptors).length ++ encodeLoop descriptors ++ rest) := by
    rw [List.append_assoc]
    rfl
  rw [bytes, parseServices]
  split
  next none =>
    rw [takeLoop_lengthBytes (by decide) fits] at none
    cases none
  next loop more taken =>
    rw [takeLoop_lengthBytes (by decide) fits] at taken
    cases taken
    rw [parseDescriptors_encodeLoop, parsed, half_bytes]
    simp only [Option.bind_eq_bind, Option.bind_some, read]
    rfl

/-- The entries of some services. -/
def Entries (services : List Service) (bodies : List (List Byte)) : Prop :=
  List.Forall₂ (fun svc body => sdtServiceEntry svc = .ok body) services bodies

theorem parseServices_entries {services : List Service} {bodies : List (List Byte)}
    (entries : Entries services bodies) :
    parseServices bodies.flatten = some (services.map Service.described) := by
  induction entries with
  | nil => rw [List.flatten_nil, parseServices, List.map_nil]
  | cons built _ ih =>
    obtain ⟨descriptors, rfl, fits, read⟩ := sdtServiceEntry_ok built
    rw [List.flatten_cons, List.map_cons]
    exact parseServices_cons fits read ih

/-- A section holds the services it was built from. -/
theorem parseSdt_ok {services : List Service} {bodies : List (List Byte)}
    (entries : Entries services bodies) {transportID networkID : Half}
    {version number last : Byte} {section_ : List Byte}
    (built : numberedSection 0x42 transportID version number last
      (appendU16 [] networkID ++ [0xff] ++ bodies.flatten) = .ok section_) :
    parseSdt section_ = some { number, last, services := services.map Service.described } ∧
      declaredLength section_ ≤ maxSectionLength ∧ serviceLoop section_ = bodies.flatten := by
  have checked := numberedSection_checked built
  have valid := checked.valid
  have length := checked.length
  have short := checked.short
  obtain ⟨_, isSection⟩ := numberedSection_ok built
  have loop : serviceLoop section_ = bodies.flatten := by
    rw [serviceLoop, isSection, take_withCRC]
    rfl
  refine ⟨?_, by unfold maxSectionLength; omega, loop⟩
  have header : byteAt section_ 0 = 0x42 ∧ byteAt section_ 6 = number ∧
      byteAt section_ 7 = last := by
    rw [isSection]
    exact ⟨rfl, rfl, rfl⟩
  rw [parseSdt, valid, loop, parseServices_entries entries, header.1, header.2.1, header.2.2]
  rfl

/-- The sections a receiver finds for groups of services, numbered from `i`. -/
def describedGroups (last : Byte) (i : Nat) (groups : List (List Service)) : List ServiceSection :=
  (groups.zipIdx i).map fun (services, number) =>
    { number := low number, last, services := services.map Service.described }

/-- The payload of one section. -/
def sdtPayload (networkID : Half) (group : List (List Byte)) : Except String (List Byte) :=
  .ok (appendU16 [] networkID ++ [0xff] ++ group.flatten)

theorem parseSdt_numberSections {transportID networkID : Half} {version last : Byte} (i : Nat)
    {groups : List (List Service)} {bodies : List (List (List Byte))}
    (entries : List.Forall₂ Entries groups bodies) {sections : List (List Byte)}
    (built : numberSections 0x42 transportID version (sdtPayload networkID) last i bodies =
      .ok sections) :
    sections.map parseSdt = (describedGroups last i groups).map some ∧
      (∀ section_ ∈ sections, declaredLength section_ ≤ maxSectionLength) ∧
      sections.map serviceLoop = bodies.map List.flatten := by
  induction entries generalizing i sections with
  | nil =>
    cases built
    exact ⟨rfl, by simp, rfl⟩
  | cons first _ ih =>
    rw [numberSections] at built
    obtain ⟨payload, isPayload, built⟩ := bind_eq_ok.mp built
    obtain ⟨section_, isSection, built⟩ := bind_eq_ok.mp built
    obtain ⟨sections, areSections, built⟩ := bind_eq_ok.mp built
    cases built
    cases isPayload
    obtain ⟨parsed, short, loop⟩ := parseSdt_ok first isSection
    obtain ⟨rest, restShort, restLoops⟩ := ih (i + 1) areSections
    refine ⟨?_, List.forall_mem_cons.mpr ⟨short, restShort⟩, ?_⟩
    · rw [List.map_cons, parsed, rest, describedGroups, describedGroups, List.zipIdx_cons]
      rfl
    · rw [List.map_cons, List.map_cons, loop, restLoops]

theorem flatMap_describedGroups (last : Byte) (i : Nat) (groups : List (List Service)) :
    (describedGroups last i groups).flatMap ServiceSection.services =
      groups.flatten.map Service.described := by
  induction groups generalizing i with
  | nil => rfl
  | cons services groups ih =>
    rw [List.flatten_cons, List.map_append, ← ih (i + 1)]
    rfl

/-- The services of each group of entries. -/
theorem exists_serviceGroups {services : List Service} {bodies : List (List (List Byte))}
    (entries : Entries services bodies.flatten) :
    ∃ groups : List (List Service), groups.flatten = services ∧
      List.Forall₂ Entries groups bodies := by
  induction bodies generalizing services with
  | nil =>
    obtain rfl : services = [] := List.forall₂_nil_right_iff.mp entries
    exact ⟨[], rfl, .nil⟩
  | cons first bodies ih =>
    rw [List.flatten_cons] at entries
    obtain ⟨groups, whole, rest⟩ := ih (List.forall₂_drop_append _ _ _ entries)
    refine ⟨services.take first.length :: groups, ?_,
      .cons (List.forall₂_take_append _ _ _ entries) rest⟩
    rw [List.flatten_cons, whole, List.take_append_drop]

theorem describedGroups_numbered {groups : List (List Service)} (few : groups.length ≤ 256)
    {i : Nat} {section_ : ServiceSection}
    (isSection : (describedGroups (low (groups.length - 1)) 0 groups)[i]? = some section_) :
    section_.number.toNat = i ∧ section_.last.toNat + 1 =
      (describedGroups (low (groups.length - 1)) 0 groups).length := by
  rw [describedGroups, List.getElem?_map, List.getElem?_zipIdx] at isSection
  rw [describedGroups, List.length_map, List.length_zipIdx]
  cases isGroup : groups[i]? with
  | none => simp [isGroup] at isSection
  | some group =>
    rw [isGroup] at isSection
    cases isSection
    have inside := (List.getElem?_eq_some_iff.mp isGroup).1
    simp only [Nat.zero_add]
    rw [low_toNat_of_lt (by omega), low_toNat_of_lt (by omega)]
    omega

/-- The services of a table are read back in order from its sections, each with
its defaults. -/
theorem sdt_carries {transportID networkID : Half} {version : Byte} {services : List Service}
    {sections : List (List Byte)}
    (built : sdt transportID networkID version services = .ok sections) :
    ∃ parsed, ServicesCarried Service.described services sections parsed := by
  unfold sdt at built
  obtain ⟨bodies, areBodies, built⟩ := bind_eq_ok.mp built
  obtain ⟨items, isItems⟩ := packSections_bodies areBodies
  rw [isItems] at areBodies
  obtain ⟨whole, few, _, _⟩ := packSections_ok (by decide) areBodies
  have tight := packSections_tight areBodies
  have entries : Entries services bodies.flatten := by
    rw [whole]
    have same : List.Forall₂ (· = ·) (services.map sdtServiceEntry) (items.map .ok) := by
      rw [isItems, List.forall₂_eq_eq_eq]
    exact List.forall₂_map_right_iff.mp (List.forall₂_map_left_iff.mp same)
  obtain ⟨groups, isWhole, grouped⟩ := exists_serviceGroups entries
  have sameLength : bodies.length = groups.length := grouped.length_eq.symm
  rw [sameLength] at built few
  obtain ⟨parses, short, loops⟩ := parseSdt_numberSections 0 grouped built
  exact ⟨describedGroups _ 0 groups, {
    parses
    whole := by rw [flatMap_describedGroups, isWhole]
    numbered := fun _ _ isSection => describedGroups_numbered few isSection
    few := by
      rw [describedGroups, List.length_map, List.length_zipIdx]
      exact few
    short
    full := by
      let exceeds (first second : List Byte) : Prop :=
        sectionPayloadBudget < 3 + first.length + second.length
      have overLoops : (sections.map serviceLoop).IsChain exceeds := by
        rw [loops]
        exact (List.isChain_map _).mpr tight
      refine ((List.isChain_map _).mp overLoops).imp fun first second exceed => ?_
      have budget : 1012 < 3 + (serviceLoop first).length + (serviceLoop second).length := exceed
      rw [joinedLength, List.length_append]
      omega }⟩

/-- A service of digital television with a row of the grid. -/
def listedService (id : Half) (type : Byte) (provider : List Byte) : Service where
  id
  type
  provider
  name := ascii "Sky One"
  eitSchedule := true
  noEITPresent := false
  row := some { at8 := 1, at10 := 2, at9 := 7, at11 := 1, prefixBytes := [0x10], text := [0x4a, 0x5b] }

/-- Forty services fill two sections. -/
theorem sdt_carries_forty :
    ∃ sections, sdt 1 2 3 ((List.range 40).map fun n =>
        listedService (BitVec.ofNat 16 n) 1 (ascii "Sky")) = .ok sections ∧
      sections.length = 2 ∧
      ∃ parsed, ServicesCarried Service.described ((List.range 40).map fun n =>
        listedService (BitVec.ofNat 16 n) 1 (ascii "Sky")) sections parsed := by
  have size : (sdt 1 2 3 ((List.range 40).map fun n =>
      listedService (BitVec.ofNat 16 n) 1 (ascii "Sky"))).toOption.map List.length = some 2 := by
    decide +kernel
  cases built : sdt 1 2 3 ((List.range 40).map fun n =>
      listedService (BitVec.ofNat 16 n) 1 (ascii "Sky")) with
  | error _ =>
    rw [built] at size
    cases size
  | ok sections =>
    rw [built] at size
    exact ⟨sections, rfl, Option.some.inj size, sdt_carries built⟩

theorem ServicesCarried.read {expected : Service → ServiceRecord} {services : List Service}
    {sections : List (List Byte)} {parsed : List ServiceSection}
    (carried : ServicesCarried expected services sections parsed) :
    parsed = sections.filterMap parseSdt := by
  have same := congrArg (List.filterMap id) carried.parses
  rw [List.filterMap_map, List.filterMap_map] at same
  simpa using same.symm

/-- A service without a type and a provider is carried as Sky's television. -/
theorem sdt_not_given :
    ∃ sections, sdt 1 2 3 [listedService 1 0 []] = .ok sections ∧
      ∀ parsed, ¬ ServicesCarried Service.given [listedService 1 0 []] sections parsed := by
  have differs : (sdt 1 2 3 [listedService 1 0 []]).toOption.any (fun sections =>
      decide (((sections.filterMap parseSdt).flatMap ServiceSection.services).map
        ServiceRecord.type ≠ [0])) = true := by decide +kernel
  cases built : sdt 1 2 3 [listedService 1 0 []] with
  | error _ =>
    rw [built] at differs
    cases differs
  | ok sections =>
    rw [built] at differs
    refine ⟨sections, rfl, fun parsed carried => of_decide_eq_true differs ?_⟩
    rw [← carried.read, carried.whole]
    rfl

end Broadcast

end GoRetroTv
