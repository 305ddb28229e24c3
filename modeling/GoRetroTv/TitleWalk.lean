import GoRetroTv.TitleSections

/-!
# Walking a title section

The firmware reads a title section record by record, advancing by a record's
twelve-bit length and the four bytes it does not count.  It visits the records
that were put in, and ends at the CRC.
-/

namespace GoRetroTv

namespace Broadcast

open Demux (byteAt)

/-- A halfword of a record. -/
def halfAt (record : List Byte) (i : Nat) : Nat :=
  (byteAt record i).toNat * 256 + (byteAt record (i + 1)).toNat

/-- What the firmware takes from a record.  Start and duration are halved. -/
structure ReceivedTitle where
  eventID : Nat
  start : Nat
  duration : Nat
  genre : Byte
  rating : Byte
  text : List Byte

/-- The twelve-bit length at +2..3. -/
def packetLength (record : List Byte) : Nat :=
  (byteAt record 2 &&& 0x0f#8).toNat <<< 8 ||| (byteAt record 3).toNat

/-- The fields of a record.  Its text is what the descriptor at +4 has behind
seven bytes. -/
def receivedTitle (record : List Byte) : ReceivedTitle where
  eventID := halfAt record 0
  start := halfAt record 6
  duration := halfAt record 8
  genre := byteAt record 10
  rating := byteAt record 12 &&& 0x0f#8
  text := (record.drop 13).take ((byteAt record 5).toNat - 7)

/-- The walk from an offset: the records, and where it ends.  It breaks off at a
record without the programme tag. -/
def walkTitles (section_ : List Byte) (r : Nat) : List ReceivedTitle × Nat :=
  if r < section_.length - 4 then
    let record := section_.drop r
    if byteAt record 4 = 0xb5 then
      let (titles, last) := walkTitles section_ (r + packetLength record + 4)
      (receivedTitle record :: titles, last)
    else ([], r)
  else ([], r)
termination_by section_.length - r

/-- A received title is that of a record. -/
structure TitleMatches (dict : HuffmanDictionary) (record : TitleRecord) (received : ReceivedTitle) :
    Prop where
  eventID : received.eventID = record.eventID.toNat
  start : (2 * received.start : Int) = record.start
  duration : (2 * received.duration : Int) = record.duration
  genre : received.genre = record.genre
  rating : received.rating = record.rating
  title : dict.decode received.text = (record.title, true)

theorem receivedTitle_cons (id₀ id₁ length₀ length₁ tag size start₀ start₁ duration₀ duration₁
    genre unread rating : Byte) (rest : List Byte) :
    receivedTitle (id₀ :: id₁ :: length₀ :: length₁ :: tag :: size :: start₀ :: start₁ ::
        duration₀ :: duration₁ :: genre :: unread :: rating :: rest) = {
      eventID := id₀.toNat * 256 + id₁.toNat
      start := start₀.toNat * 256 + start₁.toNat
      duration := duration₀.toNat * 256 + duration₁.toNat
      genre := genre
      rating := rating &&& 0x0f#8
      text := rest.take (size.toNat - 7) } :=
  rfl

theorem two_mul_halved {n : Int} (even : ¬ n.tmod 2 ≠ 0) (nonnegative : ¬ n < 0) :
    (2 * (n.tdiv 2).toNat : Int) = n := by
  rw [not_lt] at nonnegative
  rw [Int.tmod_eq_emod_of_nonneg nonnegative] at even
  rw [Int.tdiv_eq_ediv_of_nonneg nonnegative]
  omega

theorem low_nibble : ∀ rating : Byte, ¬ 0x0f < rating → rating &&& 0x0f#8 = rating := by
  decide

/-- A record as it is built. -/
theorem titleRecord_ok {dict : HuffmanDictionary} {record : TitleRecord} {encoded : List Byte}
    (built : titleRecord dict record = .ok encoded) :
    ∃ (start duration : Nat) (text : List Byte), (2 * start : Int) = record.start ∧
      (2 * duration : Int) = record.duration ∧ start < 65536 ∧ duration < 65536 ∧
      record.rating &&& 0x0f#8 = record.rating ∧ dict.encode record.title = .ok text ∧
      text.length ≤ 248 ∧
      encoded = bigEndian 2 record.eventID.toNat ++ (lengthBytes 0xf0 (text.length + 9) ++
        ([0xb5, low (text.length + 7)] ++ (bigEndian 2 start ++ (bigEndian 2 duration ++
          ([record.genre, 0x00, record.rating] ++ text))))) := by
  unfold titleRecord at built
  obtain ⟨even, built⟩ := check_ok built
  obtain ⟨inRange, built⟩ := check_ok built
  obtain ⟨nibble, built⟩ := check_ok built
  obtain ⟨text, isText, built⟩ := bind_eq_ok.mp built
  obtain ⟨short, built⟩ := check_ok built
  obtain ⟨_, built⟩ := check_ok built
  cases built
  rw [not_or] at even
  simp only [not_or] at inRange
  obtain ⟨startPositive, durationPositive, startFits, durationFits⟩ := inRange
  have isNibble := low_nibble record.rating nibble
  rw [isNibble] at short ⊢
  have bodyLength : (bigEndian 2 (record.start.tdiv 2).toNat ++
      bigEndian 2 (record.duration.tdiv 2).toNat ++ [record.genre, 0x00, record.rating] ++
      text).length = text.length + 7 := by
    simp only [List.length_append, bigEndian_length, List.length_cons, List.length_nil]
    omega
  rw [bodyLength] at short
  refine ⟨(record.start.tdiv 2).toNat, (record.duration.tdiv 2).toNat, text,
    two_mul_halved even.1 startPositive, two_mul_halved even.2 durationPositive, by omega, by omega,
    rfl, isText, by omega, ?_⟩
  simp only [List.append_assoc] at bodyLength ⊢
  rw [List.length_append, bodyLength]
  have descriptorLength : [0xb5, low (text.length + 7)].length + (text.length + 7) =
      text.length + 9 := by
    simp only [List.length_cons, List.length_nil]
    omega
  rw [descriptorLength]

/-- A record's bytes, one by one. -/
theorem titleBytes (id start duration : Nat) (genre rating : Byte) (text more : List Byte) :
    bigEndian 2 id ++ (lengthBytes 0xf0 (text.length + 9) ++ ([0xb5, low (text.length + 7)] ++
        (bigEndian 2 start ++ (bigEndian 2 duration ++ ([genre, 0x00, rating] ++ text))))) ++ more =
      BitVec.ofNat 8 (id / 256) :: BitVec.ofNat 8 id ::
        ((0xf0 : Byte) ||| low ((text.length + 9) >>> 8)) :: low (text.length + 9) ::
        0xb5 :: low (text.length + 7) ::
        BitVec.ofNat 8 (start / 256) :: BitVec.ofNat 8 start ::
        BitVec.ofNat 8 (duration / 256) :: BitVec.ofNat 8 duration ::
        genre :: 0x00 :: rating :: (text ++ more) :=
  rfl

/-- What the firmware takes from a record, and how far it goes on. -/
theorem receivedTitle_matches {dict : HuffmanDictionary} (free : dict.PrefixFree)
    {record : TitleRecord} {encoded : List Byte} (built : titleRecord dict record = .ok encoded)
    (more : List Byte) :
    TitleMatches dict record (receivedTitle (encoded ++ more)) ∧
      byteAt (encoded ++ more) 4 = 0xb5 ∧
      packetLength (encoded ++ more) + 4 = encoded.length := by
  obtain ⟨start, duration, text, isStart, isDuration, startFits, durationFits, nibble, isText,
    short, isEncoded⟩ := titleRecord_ok built
  have length : encoded.length = text.length + 13 := by
    rw [isEncoded]
    simp only [lengthBytes, List.length_append, bigEndian_length, List.length_cons,
      List.length_nil]
    omega
  rw [length, isEncoded, titleBytes]
  refine ⟨?_, rfl, ?_⟩
  · rw [receivedTitle_cons, halfword record.eventID.isLt, halfword startFits,
      halfword durationFits]
    have size : (low (text.length + 7)).toNat - 7 = text.length := by
      rw [low, BitVec.toNat_ofNat]
      omega
    rw [size, List.take_left]
    exact {
      eventID := rfl
      start := isStart
      duration := isDuration
      genre := rfl
      rating := nibble
      title := (HuffmanDictionary.decode_encode free isText).1 }
  · have flagged : (0xf0 : Byte) &&& 0x0f#8 = 0#8 := by decide
    rw [packetLength]
    exact congrArg (· + 4) (lengthBytes_declared flagged (show text.length + 9 < 4096 by omega))

/-- The walk over records, between a header and the CRC. -/
theorem walkTitles_records {dict : HuffmanDictionary} (free : dict.PrefixFree)
    {records : List TitleRecord} {encoded : List (List Byte)}
    (built : List.Forall₂ (fun record bytes => titleRecord dict record = .ok bytes) records encoded)
    (header : List Byte) {crc : List Byte} (crcLength : crc.length = 4) :
    ∃ received, walkTitles (header ++ (encoded.flatten ++ crc)) header.length =
        (received, (header ++ encoded.flatten).length) ∧
      List.Forall₂ (TitleMatches dict) records received := by
  induction built generalizing header with
  | nil =>
      refine ⟨[], ?_, .nil⟩
      rw [walkTitles, if_neg (by simp; omega)]
      simp
  | @cons record bytes records encoded isRecord _ ih =>
      obtain ⟨isReceived, tagged, advances⟩ :=
        receivedTitle_matches free isRecord (encoded.flatten ++ crc)
      obtain ⟨received, walked, matched⟩ := ih (header ++ bytes)
      have atRecord : (header ++ ((bytes :: encoded).flatten ++ crc)).drop header.length =
          bytes ++ (encoded.flatten ++ crc) := by
        rw [List.drop_left, List.flatten_cons, List.append_assoc]
      have inside : header.length < (header ++ ((bytes :: encoded).flatten ++ crc)).length - 4 := by
        have positive : 0 < bytes.length := by omega
        simp only [List.flatten_cons, List.length_append]
        omega
      refine ⟨receivedTitle (bytes ++ (encoded.flatten ++ crc)) :: received, ?_,
        .cons isReceived matched⟩
      rw [walkTitles, if_pos inside, atRecord]
      dsimp only
      rw [if_pos tagged, Nat.add_assoc, advances, ← List.length_append]
      have same : header ++ ((bytes :: encoded).flatten ++ crc) =
          header ++ bytes ++ (encoded.flatten ++ crc) := by
        simp only [List.flatten_cons, List.append_assoc]
      rw [same, walked, List.flatten_cons, List.append_assoc]

/-- A title section: ten bytes, the records and the CRC. -/
theorem titleSection_ok {tableID : Byte} {channelID : Half} {filter : Byte × Byte}
    {version sectionNumber lastSectionNumber : Byte} {dict : HuffmanDictionary}
    {records : List TitleRecord} {section_ : List Byte}
    (built : titleSection tableID channelID filter version sectionNumber lastSectionNumber
      (some dict) records = .ok section_) :
    ∃ (header : List Byte) (encoded : List (List Byte)) (crc : List Byte),
      section_ = header ++ (encoded.flatten ++ crc) ∧ header.length = 10 ∧ crc.length = 4 ∧
      List.Forall₂ (fun record bytes => titleRecord dict record = .ok bytes) records encoded := by
  unfold titleSection at built
  obtain ⟨_, built⟩ := check_ok built
  obtain ⟨encoded, isEncoded, built⟩ := bind_eq_ok.mp built
  obtain ⟨_, built⟩ := check_ok built
  cases built
  set fields := titleHeader channelID filter version sectionNumber lastSectionNumber with isFields
  refine ⟨tableID :: lengthBytes 0xb0 ((fields ++ encoded.flatten).length + 4) ++ fields, encoded,
    bigEndian 4 (Dvb.mpegCRC32 (tableID ::
      lengthBytes 0xb0 ((fields ++ encoded.flatten).length + 4) ++
        (fields ++ encoded.flatten))).toNat, ?_, ?_, bigEndian_length 4 _, mapM_ok isEncoded⟩
  · rw [withCRC]
    simp only [List.append_assoc]
  · rw [isFields]
    rfl

/-- Walking a title section visits the records that were given, in order, and ends
at the CRC. -/
theorem titleSection_walk {tableID : Byte} {channelID : Half} {filter : Byte × Byte}
    {version sectionNumber lastSectionNumber : Byte} {dict : HuffmanDictionary}
    (free : dict.PrefixFree) {records : List TitleRecord} {section_ : List Byte}
    (built : titleSection tableID channelID filter version sectionNumber lastSectionNumber
      (some dict) records = .ok section_) :
    ∃ received, walkTitles section_ 10 = (received, section_.length - 4) ∧
      List.Forall₂ (TitleMatches dict) records received := by
  obtain ⟨header, encoded, crc, rfl, headerLength, crcLength, isEncoded⟩ := titleSection_ok built
  obtain ⟨received, walked, matched⟩ := walkTitles_records free isEncoded header crcLength
  rw [headerLength] at walked
  refine ⟨received, ?_, matched⟩
  have lastRecord : (header ++ (encoded.flatten ++ crc)).length - 4 =
      (header ++ encoded.flatten).length := by
    simp only [List.length_append]
    omega
  rw [walked, lastRecord]

/-- Two programmes of half an hour. -/
theorem titleSection_walk_two :
    ∃ received, walkTitles [160, 176, 39, 0, 100, 195, 0, 0, 158, 139, 0, 7, 240, 10, 181, 8, 7, 8,
          3, 132, 3, 0, 2, 23, 0, 8, 240, 10, 181, 8, 10, 140, 3, 132, 4, 0, 0, 31, 58, 239, 127, 95]
        10 = (received, 38) ∧
      List.Forall₂ (TitleMatches HuffmanDictionary.threeWords)
        [⟨7, 3600, 1800, ascii "aab", 3, 2⟩, ⟨8, 5400, 1800, ascii "a", 4, 0⟩] received := by
  have built : titleSection 0xa0 100 (0x9e, 0x8b) 1 0 0 (some HuffmanDictionary.threeWords)
      [⟨7, 3600, 1800, ascii "aab", 3, 2⟩, ⟨8, 5400, 1800, ascii "a", 4, 0⟩] =
      .ok [160, 176, 39, 0, 100, 195, 0, 0, 158, 139, 0, 7, 240, 10, 181, 8, 7, 8, 3, 132, 3, 0, 2,
        23, 0, 8, 240, 10, 181, 8, 10, 140, 3, 132, 4, 0, 0, 31, 58, 239, 127, 95] := by
    decide +kernel
  exact titleSection_walk (by decide) built

end Broadcast

end GoRetroTv
