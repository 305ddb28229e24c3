import GoRetroTv.TitleAnswers

/-!
# What a receiver reads off the time tables

The announced clock is a date and six decimal digits; the local time offset is
a descriptor whose two offsets share one bit for their sign.  Here both are
read back by the standard's rule, and compared with what the transmitter was
given.
-/

namespace GoRetroTv

namespace Broadcast

/-- Two decimal digits. -/
def bcdValue (b : Byte) : Nat :=
  (b >>> (4 : Nat)).toNat * 10 + (b &&& 15).toNat

/-- The instant that five bytes name. -/
def readTime : List Byte → Option Time
  | [high, low, hours, minutes, seconds] =>
      some { unix := ((ofBigEndian [high, low] : Nat) - 40587 : Int) * 86400 +
        (bcdValue hours * 3600 + bcdValue minutes * 60 + bcdValue seconds : Nat) }
  | _ => none

/-- An offset in minutes, whose sign is elsewhere. -/
def readOffset (negative : Bool) (hours minutes : Byte) : Int :=
  let offset : Int := (bcdValue hours * 60 + bcdValue minutes : Nat)
  if negative then -offset else offset

/-- The local time offset descriptor: one country. -/
def readOffsetDescriptor : List Byte → Option TimeOffset
  | [tag, size, c₀, c₁, c₂, region, hours, minutes, d₀, d₁, d₂, d₃, d₄,
      nextHours, nextMinutes] => do
      let change ← readTime [d₀, d₁, d₂, d₃, d₄]
      let negative := region &&& 1 != 0
      if tag = 0x58 ∧ size = 13 then
        some {
          country := [c₀, c₁, c₂]
          region := region >>> (2 : Nat)
          offsetMinutes := readOffset negative hours minutes
          changeUTC := change
          nextOffsetMinutes := readOffset negative nextHours nextMinutes }
      else none
  | _ => none

/-- The date a time table announces. -/
def announcedDay (section_ : List Byte) : Nat :=
  ofBigEndian ((section_.drop 3).take 2)

/-- The offsets a TOT announces: its descriptor loop stands behind the clock. -/
def announcedOffset (section_ : List Byte) : Option TimeOffset :=
  let loop := Demux.byteAt section_ 8 &&& 0x0f
  readOffsetDescriptor ((section_.drop 10).take (ofBigEndian [loop, Demux.byteAt section_ 9]))

theorem bcdValue_bcdOrZero : ∀ n < 100, bcdValue (bcdOrZero (n : Nat)) = n := by
  decide

/-- Both ways of counting days agree, before 1970 too. -/
theorem mjd_eq (value : Time) : mjd value = Multiplex.modifiedJulianDate value := by
  unfold mjd Multiplex.modifiedJulianDate
  dsimp only
  have whole := Int.mul_tdiv_add_tmod value.unix 86400
  by_cases early : value.unix < 0
  · have least := Int.lt_tmod_of_pos value.unix (show (0 : Int) < 86400 by decide)
    have most : value.unix.tmod 86400 ≤ 0 := by
      have mirrored := Int.tmod_nonneg 86400 (show 0 ≤ -value.unix by omega)
      rw [Int.neg_tmod] at mirrored
      omega
    by_cases remainder : value.unix.tmod 86400 = 0
    · rw [if_neg (by tauto)]
      omega
    · rw [if_pos ⟨early, remainder⟩]
      omega
  · rw [if_neg (by tauto), Int.tdiv_eq_ediv_of_nonneg (by omega)]

/-- The instants `dvbTime` encodes. -/
def Encodes (value : Time) : Prop :=
  value.isZero = false ∧ (1858 ≤ value.year ∧ value.year ≤ 9999) ∧ 0 ≤ mjd value ∧ mjd value ≤ 65535

instance (value : Time) : Decidable (Encodes value) :=
  inferInstanceAs (Decidable (_ ∧ _ ∧ _))

/-- The five bytes of an instant. -/
def timeBytes (value : Time) : List Byte :=
  bigEndian 2 (mjd value).toNat ++
    [bcdOrZero value.hour, bcdOrZero value.minute, bcdOrZero value.second]

theorem dvbTime_of_encodes {value : Time} (encodes : Encodes value) :
    dvbTime value = .ok (timeBytes value) := by
  obtain ⟨notZero, years, days⟩ := encodes
  unfold dvbTime
  rw [if_neg (Bool.eq_false_iff.mp notZero), if_neg (by omega), if_neg (by omega)]
  rfl

theorem dvbTime_ok {value : Time} {bytes : List Byte} (encoded : dvbTime value = .ok bytes) :
    Encodes value ∧ bytes = timeBytes value := by
  unfold dvbTime at encoded
  split_ifs at encoded with zero years days
  exact ⟨⟨Bool.eq_false_iff.mpr zero, by omega, by omega⟩, (Except.ok.inj encoded).symm⟩

/-- The digits of a time of day add up to its seconds. -/
theorem clock_seconds (value : Time) :
    bcdValue (bcdOrZero value.hour) * 3600 + bcdValue (bcdOrZero value.minute) * 60 +
      bcdValue (bcdOrZero value.second) = value.secondOfDay := by
  have below : value.secondOfDay < 86400 := by
    unfold Time.secondOfDay
    omega
  have hour : value.hour < 100 := by
    unfold Time.hour
    omega
  have minute : value.minute < 100 := by
    unfold Time.minute
    omega
  have second : value.second < 100 := by
    unfold Time.second
    omega
  rw [bcdValue_bcdOrZero _ hour, bcdValue_bcdOrZero _ minute, bcdValue_bcdOrZero _ second]
  unfold Time.hour Time.minute Time.second
  omega

/-- The date is the first two of the five bytes. -/
theorem timeBytes_five (value : Time) :
    ∃ d₀ d₁ d₂ d₃ d₄, timeBytes value = [d₀, d₁, d₂, d₃, d₄] ∧
      bigEndian 2 (mjd value).toNat = [d₀, d₁] := by
  obtain ⟨high, low, date⟩ : ∃ high low, bigEndian 2 (mjd value).toNat = [high, low] :=
    List.length_eq_two.mp (bigEndian_length 2 _)
  unfold timeBytes
  rw [date]
  exact ⟨_, _, _, _, _, rfl, rfl⟩

theorem Encodes.date {value : Time} (encodes : Encodes value) :
    ofBigEndian (bigEndian 2 (mjd value).toNat) = (mjd value).toNat := by
  obtain ⟨-, -, least, most⟩ := encodes
  exact ofBigEndian_bigEndian (show (mjd value).toNat < 65536 by omega)

/-- The clock is read back to the second. -/
theorem readTime_timeBytes {value : Time} (encodes : Encodes value) :
    readTime (timeBytes value) = some { unix := value.unix } := by
  have date := encodes.date
  obtain ⟨-, -, least, most⟩ := encodes
  obtain ⟨high, low, hours, minutes, seconds, bytes, dateBytes⟩ := timeBytes_five value
  have clock := clock_seconds value
  rw [dateBytes] at date
  unfold timeBytes at bytes ⊢
  rw [dateBytes] at bytes ⊢
  change some ({ unix := _ } : Time) = _
  rw [date, clock]
  have days := mjd_eq value
  unfold Multiplex.modifiedJulianDate at days
  unfold Time.secondOfDay
  congr 2
  omega

/-- What `TOT` asks of its arguments. -/
structure Announces (utc : Time) (offset : TimeOffset) : Prop where
  clock : Encodes utc
  change : Encodes offset.changeUTC
  three : offset.country.length = 3
  letters : ∀ c ∈ offset.country, 0x41 ≤ c ∧ c ≤ 0x5a
  region : offset.region ≤ 63
  current : -1439 ≤ offset.offsetMinutes ∧ offset.offsetMinutes ≤ 1439
  next : -1439 ≤ offset.nextOffsetMinutes ∧ offset.nextOffsetMinutes ≤ 1439

/-- The digits of an offset, without its sign. -/
def offsetBytes (minutes : Int) : List Byte :=
  [bcdOrZero (minutes.natAbs / 60 : Nat), bcdOrZero (minutes.natAbs % 60 : Nat)]

theorem offsetBCD_of_fits {minutes : Int} (fits : -1439 ≤ minutes ∧ minutes ≤ 1439) :
    offsetBCD minutes = .ok (offsetBytes minutes) := by
  have magnitude : (if minutes < 0 then -minutes else minutes) = (minutes.natAbs : Int) := by
    omega
  unfold offsetBCD
  dsimp only
  rw [if_neg (by omega), magnitude]
  rfl

theorem offsetBCD_fits {minutes : Int} {bytes : List Byte}
    (encoded : offsetBCD minutes = .ok bytes) : -1439 ≤ minutes ∧ minutes ≤ 1439 := by
  unfold offsetBCD at encoded
  split at encoded
  · cases encoded
  · omega

/-- The descriptor of an offset. -/
def offsetDescriptor (offset : TimeOffset) : List Byte :=
  [0x58, 13] ++ offset.country ++
    [offset.region <<< (2 : Nat) ||| 2 ||| if offset.offsetMinutes < 0 then 1 else 0] ++
    offsetBytes offset.offsetMinutes ++ timeBytes offset.changeUTC ++
    offsetBytes offset.nextOffsetMinutes

/-- A table of time and offset. -/
def offsetTable (utc : Time) (offset : TimeOffset) : List Byte :=
  withCRC (0x73 :: lengthBytes 0x70 26 ++
    (timeBytes utc ++ lengthBytes 0xf0 15 ++ offsetDescriptor offset))

theorem length_timeBytes (value : Time) : (timeBytes value).length = 5 := by
  simp [timeBytes, bigEndian_length]

theorem length_offsetDescriptor {offset : TimeOffset} (three : offset.country.length = 3) :
    (offsetDescriptor offset).length = 15 := by
  simp [offsetDescriptor, three, length_timeBytes, offsetBytes]

/-- The checks of `TOT`, taken in turn. -/
theorem announces_of_tot {utc : Time} {offset : TimeOffset} {section_ : List Byte}
    (built : tot utc offset = .ok section_) : Announces utc offset := by
  unfold tot at built
  obtain ⟨clock, clockEncoded, built⟩ := bind_eq_ok.mp built
  obtain ⟨change, changeEncoded, built⟩ := bind_eq_ok.mp built
  obtain ⟨three, built⟩ := check_ok built
  obtain ⟨letters, built⟩ := check_ok built
  obtain ⟨region, built⟩ := check_ok built
  obtain ⟨current, currentEncoded, built⟩ := bind_eq_ok.mp built
  obtain ⟨next, nextEncoded, -⟩ := bind_eq_ok.mp built
  constructor
  case clock => exact (dvbTime_ok clockEncoded).1
  case change => exact (dvbTime_ok (wrap_ok changeEncoded)).1
  case three => exact not_not.mp three
  case letters =>
    intro c member
    have letter : ¬(c < 0x41 ∨ 0x5a < c) := fun other =>
      letters (List.any_eq_true.mpr ⟨c, member, decide_eq_true other⟩)
    rw [not_or, BitVec.not_lt, BitVec.not_lt] at letter
    exact letter
  case region => exact BitVec.not_lt.mp region
  case current => exact offsetBCD_fits currentEncoded
  case next => exact offsetBCD_fits nextEncoded

/-- What passes them is built. -/
theorem Announces.tot {utc : Time} {offset : TimeOffset} (announces : Announces utc offset) :
    tot utc offset = .ok (offsetTable utc offset) := by
  have letters : ¬(offset.country.any fun c => decide (c < 0x41 ∨ 0x5a < c)) = true := by
    intro other
    obtain ⟨c, member, outside⟩ := List.any_eq_true.mp other
    have letter := announces.letters c member
    rcases of_decide_eq_true outside with below | above
    · exact BitVec.not_le.mpr below letter.1
    · exact BitVec.not_le.mpr above letter.2
  have length := length_offsetDescriptor announces.three
  unfold Broadcast.tot
  rw [dvbTime_of_encodes announces.clock, dvbTime_of_encodes announces.change,
    offsetBCD_of_fits announces.current, offsetBCD_of_fits announces.next]
  dsimp only [wrap, Except.mapError, bind, Except.bind]
  rw [if_neg (not_not.mpr announces.three), if_neg letters,
    if_neg (BitVec.not_lt.mpr announces.region)]
  change Except.ok (withCRC (0x73 ::
    lengthBytes 0x70 (5 + 2 + (offsetDescriptor offset).length + 4) ++
    (timeBytes utc ++ lengthBytes 0xf0 (offsetDescriptor offset).length ++
      offsetDescriptor offset))) = _
  rw [length]
  rfl

/-- The one sign bit says what both offsets are. -/
def SignsAgree (offset : TimeOffset) : Prop :=
  (offset.offsetMinutes < 0 → offset.nextOffsetMinutes ≤ 0) ∧
    (0 ≤ offset.offsetMinutes → 0 ≤ offset.nextOffsetMinutes)

/-- Some sign bit would do. -/
def Representable (offset : TimeOffset) : Prop :=
  (0 ≤ offset.offsetMinutes ∧ 0 ≤ offset.nextOffsetMinutes) ∨
    (offset.offsetMinutes ≤ 0 ∧ offset.nextOffsetMinutes ≤ 0)

theorem readOffset_offsetBytes {minutes : Int} (fits : -1439 ≤ minutes ∧ minutes ≤ 1439)
    (negative : Bool) :
    readOffset negative (bcdOrZero (minutes.natAbs / 60 : Nat))
        (bcdOrZero (minutes.natAbs % 60 : Nat)) =
      if negative then -(minutes.natAbs : Int) else minutes.natAbs := by
  unfold readOffset
  rw [bcdValue_bcdOrZero _ (by omega), bcdValue_bcdOrZero _ (by omega)]
  have whole : minutes.natAbs / 60 * 60 + minutes.natAbs % 60 = minutes.natAbs := by omega
  rw [whole]

/-- Region and sign come out of their byte. -/
theorem region_packed : ∀ region : Byte, region ≤ 63 → ∀ negative : Bool,
    (region <<< (2 : Nat) ||| 2 ||| if negative then 1 else 0) >>> (2 : Nat) = region ∧
      ((region <<< (2 : Nat) ||| 2 ||| if negative then 1 else 0) &&& 1 != 0) = negative := by
  decide

/-- What a receiver makes of the descriptor. -/
theorem readOffsetDescriptor_eq {utc : Time} {offset : TimeOffset}
    (announces : Announces utc offset) :
    readOffsetDescriptor (offsetDescriptor offset) = some {
      country := offset.country
      region := offset.region
      offsetMinutes := offset.offsetMinutes
      changeUTC := { unix := offset.changeUTC.unix }
      nextOffsetMinutes :=
        if offset.offsetMinutes < 0 then -(offset.nextOffsetMinutes.natAbs : Int)
        else offset.nextOffsetMinutes.natAbs } := by
  obtain ⟨c₀, c₁, c₂, country⟩ := List.length_eq_three.mp announces.three
  have change := readTime_timeBytes announces.change
  obtain ⟨d₀, d₁, d₂, d₃, d₄, bytes, -⟩ := timeBytes_five offset.changeUTC
  rw [bytes] at change
  unfold offsetDescriptor
  rw [country, bytes]
  obtain ⟨region, negative⟩ :=
    region_packed offset.region announces.region (decide (offset.offsetMinutes < 0))
  simp only [decide_eq_true_eq] at region negative
  simp only [List.cons_append, List.nil_append, offsetBytes, readOffsetDescriptor, change, region,
    negative, readOffset_offsetBytes announces.current, readOffset_offsetBytes announces.next]
  by_cases below : offset.offsetMinutes < 0
  · have size : -(offset.offsetMinutes.natAbs : Int) = offset.offsetMinutes := by omega
    simp only [below, decide_true, if_true, size, and_self]
    rfl
  · have size : (offset.offsetMinutes.natAbs : Int) = offset.offsetMinutes := by omega
    simp only [below, decide_false, Bool.false_eq_true, if_false, size, if_true, and_self]
    rfl

/-- Where a table keeps its date and its descriptor. -/
theorem offsetTable_parts (utc : Time) {offset : TimeOffset} (three : offset.country.length = 3) :
    announcedDay (offsetTable utc offset) = ofBigEndian (bigEndian 2 (mjd utc).toNat) ∧
      announcedOffset (offsetTable utc offset) =
        readOffsetDescriptor (offsetDescriptor offset) := by
  obtain ⟨d₀, d₁, d₂, d₃, d₄, clock, date⟩ := timeBytes_five utc
  have length := length_offsetDescriptor three
  unfold offsetTable withCRC
  rw [clock, date]
  generalize bigEndian 4 _ = crc
  constructor
  · rfl
  · have loop : ofBigEndian [((0xf0 : Byte) ||| low (15 >>> 8)) &&& 0x0f, low 15] = 15 := by decide
    unfold announcedOffset
    change readOffsetDescriptor ((offsetDescriptor offset ++ crc).take
      (ofBigEndian [((0xf0 : Byte) ||| low (15 >>> 8)) &&& 0x0f, low 15])) = _
    rw [loop, List.take_left' length]

/-- An hour ahead now and an hour behind after the change. -/
def crossing : TimeOffset where
  country := ascii "GBR"
  region := 0
  offsetMinutes := 60
  changeUTC := { unix := 0 }
  nextOffsetMinutes := -60

theorem crossing_announces : Announces { unix := 0 } crossing := by
  constructor <;> decide

end Broadcast

namespace Multiplex

open Broadcast

/-- `DayOfMJD`: the midnight a date names. -/
def dayOfMJD (mjd : Int) : Time :=
  mjdEpoch.addDays mjd

/-- **The calendar.**  The date on the wire is `MJDOf` of its instant, with the clock it
gives back the second, dates survive the way through their midnight, and the day a TOT
announces is the one whose title PID and filter are used. -/
theorem dates_agree :
    (∀ (value : Time) (bytes : List Byte), dvbTime value = .ok bytes →
      (ofBigEndian (bytes.take 2) : Int) = mjdOf value ∧
        readTime bytes = some { unix := value.unix }) ∧
    (∀ n : Nat, n ≤ 65535 → mjdOf (dayOfMJD n) = n) ∧
    ∀ (utc : Time) (offset : TimeOffset) (section_ : List Byte), tot utc offset = .ok section_ →
      ∀ listingsID, (derivedTitleRequest (mjdOf utc) listingsID).mjd = announcedDay section_ ∧
        (derivedTitleRequest (mjdOf utc) listingsID).pid = titlePID (announcedDay section_) := by
  have dated {value : Time} (encodes : Encodes value) :
      (ofBigEndian (bigEndian 2 (mjd value).toNat) : Int) = mjdOf value := by
    have date := encodes.date
    obtain ⟨-, -, least, most⟩ := encodes
    rw [mjd_eq] at date least most ⊢
    rw [date, mjdOf_eq ⟨least, most⟩]
    omega
  refine ⟨fun value bytes encoded => ?_, fun n small => ?_, fun utc offset section_ built id => ?_⟩
  · obtain ⟨encodes, rfl⟩ := dvbTime_ok encoded
    refine ⟨?_, readTime_timeBytes encodes⟩
    rw [timeBytes, List.take_left' (bigEndian_length 2 _)]
    exact dated encodes
  · have day : modifiedJulianDate (dayOfMJD n) = n := by
      unfold modifiedJulianDate dayOfMJD Time.addDays mjdEpoch
      dsimp only
      omega
    rw [mjdOf_eq (by omega), day]
  · have announces := announces_of_tot built
    rw [announces.tot] at built
    obtain rfl := Except.ok.inj built
    rw [(offsetTable_parts utc announces.three).1, dated announces.clock]
    have fits : 0 ≤ mjdOf utc ∧ mjdOf utc ≤ 65535 := by
      rw [← dated announces.clock, announces.clock.date]
      obtain ⟨-, -, least, most⟩ := announces.clock
      omega
    exact ⟨derivedTitleRequest_mjd fits id, rfl⟩

/-- The first second of 1970, and the last day there is. -/
theorem dates_agree_epoch :
    ((ofBigEndian [0x9e, 0x8b] : Nat) : Int) = mjdOf { unix := 0 } ∧
      mjdOf (dayOfMJD 65535) = 65535 ∧
      (derivedTitleRequest (mjdOf { unix := 0 }) 1).mjd =
        announcedDay (offsetTable { unix := 0 } crossing) :=
  ⟨(dates_agree.1 { unix := 0 } [0x9e, 0x8b, 0, 0, 0] (by decide)).1,
    dates_agree.2.1 65535 (by decide),
    (dates_agree.2.2 { unix := 0 } crossing _ crossing_announces.tot 1).1⟩

end Multiplex

namespace Broadcast

/-- **The offsets.**  What a receiver reads is what the transmitter was given, and what one
sign bit cannot say is refused, exactly when both offsets have the current one's sign and
the change falls on a second. -/
theorem offset_round_trip (utc : Time) (offset : TimeOffset) :
    ((∀ section_, tot utc offset = .ok section_ → announcedOffset section_ = some offset) ∧
      (¬Representable offset → ∀ section_, tot utc offset ≠ .ok section_)) ↔
    (Announces utc offset → SignsAgree offset ∧ offset.changeUTC.nanosecond = 0) := by
  by_cases announces : Announces utc offset
  case neg =>
    have refused (section_ : List Byte) : tot utc offset ≠ .ok section_ := fun built =>
      announces (announces_of_tot built)
    refine iff_of_true ⟨fun section_ built => absurd built (refused section_), fun _ => refused⟩ ?_
    exact fun announced => absurd announced announces
  have read : announcedOffset (offsetTable utc offset) = some offset ↔
      SignsAgree offset ∧ offset.changeUTC.nanosecond = 0 := by
    rw [(offsetTable_parts utc announces.three).2, readOffsetDescriptor_eq announces]
    unfold SignsAgree
    obtain ⟨country, region, current, ⟨unix, nanosecond⟩, next⟩ := offset
    simp only [Option.some.injEq, TimeOffset.mk.injEq, Time.mk.injEq, true_and]
    by_cases below : current < 0
    · rw [if_pos below]
      omega
    · rw [if_neg below]
      omega
  rw [forall_prop_of_true announces, announces.tot, ← read]
  constructor
  · intro ⟨recovered, _⟩
    exact recovered _ rfl
  · intro recovered
    refine ⟨fun section_ built => ?_, fun unsayable => ?_⟩
    · rw [← Except.ok.inj built]
      exact recovered
    · have agree := (read.mp recovered).1
      unfold SignsAgree at agree
      unfold Representable at unsayable
      omega

/-- Offsets on both sides of zero are announced. -/
theorem crossing_announced :
    ¬∀ (utc : Time) (offset : TimeOffset),
      (∀ section_, tot utc offset = .ok section_ → announcedOffset section_ = some offset) ∧
        (¬Representable offset → ∀ section_, tot utc offset ≠ .ok section_) := by
  intro always
  have unsayable : ¬Representable crossing := by
    change ¬(((0 : Int) ≤ 60 ∧ (0 : Int) ≤ -60) ∨ ((60 : Int) ≤ 0 ∧ (-60 : Int) ≤ 0))
    omega
  exact (always { unix := 0 } crossing).2 unsayable _ crossing_announces.tot

end Broadcast

end GoRetroTv
