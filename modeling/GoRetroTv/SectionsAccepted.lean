import GoRetroTv.ProgrammeTables
import GoRetroTv.ServiceTables
import GoRetroTv.TimeTables
import GoRetroTv.TitleSections

/-!
# Every section is one the demux accepts

Whatever a builder returns has the length it declares, fits into a section, and
passes the demux's own check, CRC included.
-/

namespace GoRetroTv

namespace Broadcast

theorem nit_checked {networkID : Half} {version : Byte} {networkName section_ : List Byte}
    {transports : List Transport}
    (built : nit networkID version networkName transports = .ok section_) : Checked section_ := by
  unfold nit at built
  obtain ⟨name, _, built⟩ := bind_eq_ok.mp built
  obtain ⟨_, built⟩ := check_ok built
  obtain ⟨entries, _, built⟩ := bind_eq_ok.mp built
  obtain ⟨_, built⟩ := check_ok built
  exact numberedSection_checked built

/-- Every section of a numbered table is accepted. -/
theorem numberSections_checked {table : Byte} {extension : Half} {version last : Byte}
    {payload : List (List Byte) → Except String (List Byte)} {i : Nat}
    {groups : List (List (List Byte))} {sections : List (List Byte)}
    (built : numberSections table extension version payload last i groups = .ok sections) :
    ∀ section_ ∈ sections, Checked section_ := by
  induction groups generalizing i sections with
  | nil =>
      cases built
      simp
  | cons group groups ih =>
      rw [numberSections] at built
      obtain ⟨body, _, built⟩ := bind_eq_ok.mp built
      obtain ⟨first, isFirst, built⟩ := bind_eq_ok.mp built
      obtain ⟨rest, isRest, built⟩ := bind_eq_ok.mp built
      cases built
      intro section_ member
      rcases List.mem_cons.mp member with rfl | later
      · exact numberedSection_checked isFirst
      · exact ih isRest section_ later

theorem sdt_checked {transportID networkID : Half} {version : Byte} {services : List Service}
    {sections : List (List Byte)}
    (built : sdt transportID networkID version services = .ok sections) :
    ∀ section_ ∈ sections, Checked section_ := by
  unfold sdt at built
  obtain ⟨groups, _, built⟩ := bind_eq_ok.mp built
  exact numberSections_checked built

theorem bat_checked {bouquetID : Half} {version : Byte} {name : List Byte}
    {transports : List Transport} {sections : List (List Byte)}
    (built : bat bouquetID version name transports = .ok sections) :
    ∀ section_ ∈ sections, Checked section_ := by
  unfold bat at built
  obtain ⟨bouquetName, _, built⟩ := bind_eq_ok.mp built
  obtain ⟨_, built⟩ := check_ok built
  cases transports with
  | nil => cases built
  | cons first transports =>
      obtain ⟨linkage, _, built⟩ := bind_eq_ok.mp built
      obtain ⟨_, built⟩ := check_ok built
      obtain ⟨pieces, _, built⟩ := bind_eq_ok.mp built
      obtain ⟨groups, _, built⟩ := bind_eq_ok.mp built
      exact numberSections_checked built

theorem length_dvbTime {value : Time} {bytes : List Byte} (encoded : dvbTime value = .ok bytes) :
    bytes.length = 5 := by
  unfold dvbTime at encoded
  split at encoded
  · cases encoded
  · split at encoded
    · cases encoded
    · split at encoded
      · cases encoded
      · cases encoded
        rfl

theorem length_offsetBCD {minutes : Int} {bytes : List Byte}
    (encoded : offsetBCD minutes = .ok bytes) : bytes.length = 2 := by
  unfold offsetBCD at encoded
  split at encoded
  · cases encoded
  · cases encoded
    rfl

/-- The TDT has no CRC, and is not asked for one. -/
theorem tdt_accepted {utc : Time} {section_ : List Byte} (built : tdt utc = .ok section_) :
    Accepted section_ := by
  unfold tdt at built
  obtain ⟨clock, encoded, built⟩ := bind_eq_ok.mp built
  cases built
  have length := length_dvbTime encoded
  match clock, length with
  | [days, day, hour, minute, second], _ =>
      have declared :
          Demux.declaredLength ([0x70, 0x70, 0x05] ++ [days, day, hour, minute, second]) = 5 := by
        simp [Demux.declaredLength, Demux.byteAt]
      refine { length := by rw [declared]; rfl, short := by simp, valid := ?_ }
      unfold Demux.validateSection
      rw [declared]
      simp [Demux.byteAt, Demux.ringSize]

theorem tot_checked {utc : Time} {offset : TimeOffset} {section_ : List Byte}
    (built : tot utc offset = .ok section_) : Checked section_ := by
  unfold tot at built
  obtain ⟨clock, isClock, built⟩ := bind_eq_ok.mp built
  obtain ⟨change, isChange, built⟩ := bind_eq_ok.mp built
  obtain ⟨country, built⟩ := check_ok built
  obtain ⟨_, built⟩ := check_ok built
  obtain ⟨_, built⟩ := check_ok built
  obtain ⟨current, isCurrent, built⟩ := bind_eq_ok.mp built
  obtain ⟨next, isNext, built⟩ := bind_eq_ok.mp built
  cases built
  have clockLength := length_dvbTime isClock
  have changeLength := length_dvbTime (wrap_ok isChange)
  have currentLength := length_offsetBCD isCurrent
  have nextLength := length_offsetBCD isNext
  refine checked_withCRC 0x73 (by decide) _ ?_ ?_
  · simp only [List.length_append, lengthBytes, List.length_cons, List.length_nil]
    omega
  · simp only [List.length_append, List.length_cons, List.length_nil, maxSectionLength]
    omega

theorem pat_checked {transportStreamID : Half} {version : Byte} {programmes : List Programme}
    {section_ : List Byte} (built : pat transportStreamID version programmes = .ok section_) :
    Checked section_ := by
  unfold pat at built
  obtain ⟨_, built⟩ := check_ok built
  obtain ⟨entries, _, built⟩ := bind_eq_ok.mp built
  exact numberedSection_checked built

theorem cat_checked {version : Byte} {descriptors section_ : List Byte}
    (built : cat version descriptors = .ok section_) : Checked section_ := by
  unfold cat at built
  obtain ⟨_, _, built⟩ := bind_eq_ok.mp built
  exact numberedSection_checked built

theorem pmt_checked {programmeNumber pcrPID : Half} {version : Byte}
    {descriptors section_ : List Byte} {streams : List ElementaryStream}
    (built : pmt programmeNumber version pcrPID descriptors streams = .ok section_) :
    Checked section_ := by
  unfold pmt at built
  obtain ⟨_, built⟩ := check_ok built
  obtain ⟨_, built⟩ := check_ok built
  obtain ⟨_, built⟩ := check_ok built
  obtain ⟨_, _, built⟩ := bind_eq_ok.mp built
  obtain ⟨_, built⟩ := check_ok built
  obtain ⟨encoded, _, built⟩ := bind_eq_ok.mp built
  exact numberedSection_checked built

theorem indexSection_checked {extension : Half} {version sectionNumber lastSectionNumber : Byte}
    {records : List IndexRecord} {section_ : List Byte}
    (built : indexSection extension version sectionNumber lastSectionNumber records =
      .ok section_) : Checked section_ := by
  unfold indexSection at built
  obtain ⟨_, built⟩ := check_ok built
  obtain ⟨unnumbered, isLong, built⟩ := bind_eq_ok.mp built
  cases built
  exact renumber_checked isLong

theorem eitPresentFollowingSection_checked {serviceID transportStreamID networkID : Half}
    {version sectionNumber : Byte} {event : Option Event} {section_ : List Byte}
    (built : eitPresentFollowingSection serviceID transportStreamID networkID version sectionNumber
      event = .ok section_) : Checked section_ := by
  unfold eitPresentFollowingSection at built
  obtain ⟨_, built⟩ := check_ok built
  obtain ⟨record, _, built⟩ := bind_eq_ok.mp built
  obtain ⟨unnumbered, isLong, built⟩ := bind_eq_ok.mp built
  cases built
  exact renumber_checked isLong

theorem titleSection_checked {tableID : Byte} {channelID : Half} {filter : Byte × Byte}
    {version sectionNumber lastSectionNumber : Byte} {dict : Option HuffmanDictionary}
    {records : List TitleRecord} {section_ : List Byte}
    (built : titleSection tableID channelID filter version sectionNumber lastSectionNumber dict
      records = .ok section_) : Checked section_ := by
  cases dict with
  | none => cases built
  | some dict =>
      unfold titleSection at built
      obtain ⟨_, built⟩ := check_ok built
      obtain ⟨encoded, _, built⟩ := bind_eq_ok.mp built
      obtain ⟨fits, built⟩ := check_ok built
      cases built
      exact checked_withCRC tableID (by decide) _ rfl (not_lt.mp fits)

/-- A section that a builder has returned, of any table that carries a CRC. -/
inductive Built : List Byte → Prop where
  | nit {networkID : Half} {version : Byte} {networkName section_ : List Byte}
      {transports : List Transport}
      (built : nit networkID version networkName transports = .ok section_) : Built section_
  | sdt {transportID networkID : Half} {version : Byte} {services : List Service}
      {sections : List (List Byte)}
      (built : sdt transportID networkID version services = .ok sections) {section_ : List Byte}
      (member : section_ ∈ sections) : Built section_
  | bat {bouquetID : Half} {version : Byte} {name : List Byte} {transports : List Transport}
      {sections : List (List Byte)} (built : bat bouquetID version name transports = .ok sections)
      {section_ : List Byte} (member : section_ ∈ sections) : Built section_
  | tot {utc : Time} {offset : TimeOffset} {section_ : List Byte}
      (built : tot utc offset = .ok section_) : Built section_
  | pat {transportStreamID : Half} {version : Byte} {programmes : List Programme}
      {section_ : List Byte} (built : pat transportStreamID version programmes = .ok section_) :
      Built section_
  | cat {version : Byte} {descriptors section_ : List Byte}
      (built : cat version descriptors = .ok section_) : Built section_
  | pmt {programmeNumber pcrPID : Half} {version : Byte} {descriptors section_ : List Byte}
      {streams : List ElementaryStream}
      (built : pmt programmeNumber version pcrPID descriptors streams = .ok section_) :
      Built section_
  | index {extension : Half} {version sectionNumber lastSectionNumber : Byte}
      {records : List IndexRecord} {section_ : List Byte}
      (built : indexSection extension version sectionNumber lastSectionNumber records =
        .ok section_) : Built section_
  | eit {serviceID transportStreamID networkID : Half} {version sectionNumber : Byte}
      {event : Option Event} {section_ : List Byte}
      (built : eitPresentFollowingSection serviceID transportStreamID networkID version
        sectionNumber event = .ok section_) : Built section_
  | title {tableID : Byte} {channelID : Half} {filter : Byte × Byte}
      {version sectionNumber lastSectionNumber : Byte} {dict : Option HuffmanDictionary}
      {records : List TitleRecord} {section_ : List Byte}
      (built : titleSection tableID channelID filter version sectionNumber lastSectionNumber dict
        records = .ok section_) : Built section_

/-- Every section the broadcaster builds is one the demux accepts, and all but
the TDT carry a CRC that checks. -/
theorem built_sections_accepted :
    (∀ section_, Built section_ → Checked section_) ∧
      ∀ (utc : Time) (section_ : List Byte), tdt utc = .ok section_ → Accepted section_ := by
  constructor
  · intro section_ isBuilt
    cases isBuilt with
    | nit built => exact nit_checked built
    | sdt built member => exact sdt_checked built section_ member
    | bat built member => exact bat_checked built section_ member
    | tot built => exact tot_checked built
    | pat built => exact pat_checked built
    | cat built => exact cat_checked built
    | pmt built => exact pmt_checked built
    | index built => exact indexSection_checked built
    | eit built => exact eitPresentFollowingSection_checked built
    | title built => exact titleSection_checked built
  · intro utc section_ built
    exact tdt_accepted built

/-- An index section for the letter A, number 1 of 2, and the time at which it is
sent. -/
theorem built_sections_accepted_index :
    Checked [0xc1, 0xb0, 18, 0, 0x41, 199, 1, 2, 0x12, 0x34, 1, 2, 1, 2, 3, 4, 5, 211, 235, 81, 142] ∧
      Accepted [0x70, 0x70, 5, 199, 59, 0x16, 0, 0] := by
  have isIndex : indexSection 0x41 3 1 2 [⟨0x1234, 1, 2, #v[1, 2, 3, 4, 5]⟩] =
      .ok [0xc1, 0xb0, 18, 0, 0x41, 199, 1, 2, 0x12, 0x34, 1, 2, 1, 2, 3, 4, 5, 211, 235, 81, 142] := by
    decide +kernel
  have isTime : tdt { unix := 900000000 } = .ok [0x70, 0x70, 5, 199, 59, 0x16, 0, 0] := by
    decide
  exact ⟨built_sections_accepted.1 _ (.index isIndex), built_sections_accepted.2 _ _ isTime⟩

end Broadcast

end GoRetroTv
