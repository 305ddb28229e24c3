import GoRetroTv.ServiceTables

/-!
# Descriptor loops

What a receiver finds in a descriptor loop, and what the BAT says about one
transport as such descriptors: its channel list behind the declaration of its
namespace, its services and its linkage.
-/

namespace GoRetroTv

namespace Broadcast

/-- A tag and the bytes behind its length. -/
structure Descriptor where
  tag : Byte
  body : List Byte
  short : body.length < 256
  deriving DecidableEq

def Descriptor.encode (d : Descriptor) : List Byte :=
  d.tag :: low d.body.length :: d.body

def encodeLoop (descriptors : List Descriptor) : List Byte :=
  descriptors.flatMap Descriptor.encode

theorem length_take_size (size : Byte) (rest : List Byte) :
    (rest.take size.toNat).length < 256 := by
  have := size.isLt
  rw [List.length_take]
  omega

theorem length_drop_size (tag size : Byte) (rest : List Byte) :
    (rest.drop size.toNat).length < (tag :: size :: rest).length := by
  rw [List.length_drop, List.length_cons, List.length_cons]
  omega

/-- A receiver's reading of a loop. -/
def parseDescriptors : List Byte → Option (List Descriptor)
  | [] => some []
  | [_] => none
  | tag :: size :: rest =>
      if size.toNat ≤ rest.length then
        (parseDescriptors (rest.drop size.toNat)).map fun descriptors =>
          { tag
            body := rest.take size.toNat
            short := length_take_size size rest } :: descriptors
      else none
termination_by bytes => bytes.length
decreasing_by
  exact length_drop_size tag size rest

@[simp]
theorem encodeLoop_nil : encodeLoop [] = [] :=
  rfl

@[simp]
theorem encodeLoop_cons (d : Descriptor) (descriptors : List Descriptor) :
    encodeLoop (d :: descriptors) = d.encode ++ encodeLoop descriptors :=
  rfl

@[simp]
theorem encodeLoop_append (first second : List Descriptor) :
    encodeLoop (first ++ second) = encodeLoop first ++ encodeLoop second :=
  List.flatMap_append

@[simp]
theorem Descriptor.length_encode (d : Descriptor) : d.encode.length = d.body.length + 2 :=
  rfl

theorem Descriptor.size_eq (d : Descriptor) : (low d.body.length).toNat = d.body.length := by
  rw [low, BitVec.toNat_ofNat]
  exact Nat.mod_eq_of_lt d.short

/-- A loop reads as the descriptors it was built from. -/
theorem parseDescriptors_encodeLoop (descriptors : List Descriptor) :
    parseDescriptors (encodeLoop descriptors) = some descriptors := by
  induction descriptors with
  | nil => rw [encodeLoop_nil, parseDescriptors]
  | cons d descriptors ih =>
      rw [encodeLoop_cons, Descriptor.encode, List.cons_append, List.cons_append, parseDescriptors]
      simp only [d.size_eq]
      rw [if_pos (by simp), List.drop_left, ih]
      simp

theorem byteAt_size (before : List Byte) (d : Descriptor) (after : List Byte) :
    (Demux.byteAt (before ++ (d.encode ++ after)) (before.length + 1)).toNat = d.body.length := by
  have isSize : Demux.byteAt (before ++ (d.encode ++ after)) (before.length + 1) =
      low d.body.length := by
    rw [Demux.byteAt, List.getElem?_append_right (by omega), Nat.add_sub_cancel_left]
    rfl
  rw [isSize, d.size_eq]

/-- The walk stops between two descriptors, and before the first that does not
fit. -/
theorem descriptorBoundary_spec (before after : List Descriptor) {limit : Nat}
    (inside : limit ≤ (encodeLoop (before ++ after)).length)
    (reached : (encodeLoop before).length ≤ limit) :
    ∃ taken left, after = taken ++ left ∧
      descriptorBoundary (encodeLoop (before ++ after)) (encodeLoop before).length limit =
        (encodeLoop (before ++ taken)).length ∧
      (encodeLoop (before ++ taken)).length ≤ limit ∧
      ∀ d ∈ left.head?, limit < (encodeLoop (before ++ taken)).length + d.encode.length := by
  induction after generalizing before with
  | nil =>
      rw [List.append_nil] at inside
      refine ⟨[], [], rfl, ?_, by simpa using reached, by simp⟩
      rw [List.append_nil, descriptorBoundary, if_neg (by omega)]
  | cons d after ih =>
      have bytes : encodeLoop (before ++ d :: after) =
          encodeLoop before ++ (d.encode ++ encodeLoop after) := by simp
      have length := d.length_encode
      by_cases fits : (encodeLoop before).length + d.encode.length ≤ limit
      · have whole : before ++ d :: after = before ++ [d] ++ after := by simp
        have step : (encodeLoop (before ++ [d])).length =
            (encodeLoop before).length + d.encode.length := by simp
        obtain ⟨taken, left, isSplit, boundary, stops, next⟩ :=
          ih (before ++ [d]) (by rwa [← whole]) (by omega)
        have grouped : before ++ [d] ++ taken = before ++ d :: taken := by simp
        rw [grouped] at boundary stops next
        refine ⟨d :: taken, left, by rw [isSplit]; rfl, ?_, stops, next⟩
        rw [descriptorBoundary, if_pos (by omega), if_neg (by rw [bytes]; simp; omega)]
        have size : (Demux.byteAt (encodeLoop (before ++ d :: after))
            ((encodeLoop before).length + 1)).toNat = d.body.length := by
          rw [bytes]
          exact byteAt_size ..
        dsimp only
        rw [size, if_neg (by omega), ← boundary, whole, step]
        congr 1
        omega
      · refine ⟨[], d :: after, rfl, ?_, by simpa using reached, ?_⟩
        · rw [List.append_nil, descriptorBoundary]
          split
          · rw [if_neg (by rw [bytes]; simp; omega)]
            have size : (Demux.byteAt (encodeLoop (before ++ d :: after))
                ((encodeLoop before).length + 1)).toNat = d.body.length := by
              rw [bytes]
              exact byteAt_size ..
            dsimp only
            rw [size, if_pos (by omega)]
          · rfl
        · intro other isHead
          cases isHead
          rw [List.append_nil]
          omega

theorem slices_spec {α : Type} {size : Nat} (positive : 0 < size) (items : List α) :
    (slices size items).flatten = items ∧ ∀ slice ∈ slices size items, slice.length ≤ size := by
  induction h : items.length using Nat.strongRecOn generalizing items with
  | ind length ih =>
      rw [slices]
      by_cases more : 0 < items.length
      · rw [if_pos ⟨positive, more⟩]
        obtain ⟨rest, short⟩ := ih (items.drop size).length (by rw [List.length_drop]; omega)
          (items.drop size) rfl
        refine ⟨by rw [List.flatten_cons, rest, List.take_append_drop], ?_⟩
        intro slice member
        rcases List.mem_cons.mp member with rfl | later
        · rw [List.length_take]
          omega
        · exact short slice later
      · rw [if_neg (by omega)]
        obtain rfl : items = [] := List.length_eq_zero_iff.mp (by omega)
        simp

def half (high low : Byte) : Half :=
  BitVec.ofNat 16 (high.toNat * 256 + low.toNat)

/-- What a receiver reads of one 0xB1 descriptor: nine bytes an entry. -/
def parseEntries : List Byte → Option (List LineupEntry)
  | [] => some []
  | id₀ :: id₁ :: kind :: listings₀ :: listings₁ :: extra₀ :: extra₁ :: channel₀ :: channel₁ ::
      rest =>
      (parseEntries rest).map fun entries =>
        { serviceID := half id₀ id₁
          kind
          listings := half listings₀ listings₁
          extra := half extra₀ extra₁
          channel := half channel₀ channel₁ >>> 4
          flags := (half channel₀ channel₁ &&& 0x0f#16).setWidth 8 } :: entries
  | _ => none

/-- The channel list of a 0xB1 descriptor.  Without the gate nothing is read. -/
def parseLineup : List Byte → Option (List LineupEntry)
  | 0xff#8 :: 0xff#8 :: entries => parseEntries entries
  | _ => some []

def lineupIn (d : Descriptor) : Option (List LineupEntry) :=
  if d.tag = 0xb1 then parseLineup d.body else some []

/-- The channel list of a whole loop. -/
def lineupOf : List Descriptor → Option (List LineupEntry)
  | [] => some []
  | d :: descriptors => do
      let first ← lineupIn d
      let rest ← lineupOf descriptors
      return first ++ rest

/-- An entry as it is carried: a zero kind stands for 1. -/
def LineupEntry.carried (entry : LineupEntry) : LineupEntry :=
  { entry with kind := if entry.kind = 0 then 1 else entry.kind }

theorem half_bytes (value : Half) :
    half (BitVec.ofNat 8 (value.toNat / 256)) (BitVec.ofNat 8 value.toNat) = value := by
  rw [half, halfword value.isLt]
  exact BitVec.ofNat_toNat 16 value

theorem channel_flags {channel : Half} {flags : Byte} (channelFits : ¬ 0x0fff < channel)
    (flagsFit : ¬ 0x0f < flags) :
    (channel <<< 4 ||| flags.setWidth 16) >>> 4 = channel ∧
      ((channel <<< 4 ||| flags.setWidth 16) &&& 0x0f#16).setWidth 8 = flags := by
  have channelBound : channel.toNat ≤ 0x0fff := by simpa [BitVec.lt_def] using channelFits
  have flagsBound : flags.toNat ≤ 0x0f := by simpa [BitVec.lt_def] using flagsFit
  have packed : (channel <<< 4 ||| flags.setWidth 16).toNat = channel.toNat * 16 + flags.toNat := by
    rw [BitVec.toNat_or, BitVec.toNat_shiftLeft, BitVec.toNat_setWidth,
      Nat.mod_eq_of_lt (by rw [Nat.shiftLeft_eq]; omega), Nat.mod_eq_of_lt (by omega),
      ← Nat.shiftLeft_add_eq_or_of_lt (by omega), Nat.shiftLeft_eq]
  constructor
  · apply BitVec.eq_of_toNat_eq
    rw [BitVec.toNat_ushiftRight, packed, Nat.shiftRight_eq_div_pow]
    omega
  · apply BitVec.eq_of_toNat_eq
    have nibble : (channel.toNat * 16 + flags.toNat) &&& 15 = flags.toNat := by
      rw [Nat.and_two_pow_sub_one_eq_mod _ 4]
      omega
    rw [BitVec.toNat_setWidth, BitVec.toNat_and, packed]
    change ((channel.toNat * 16 + flags.toNat) &&& 15) % 256 = flags.toNat
    rw [nibble]
    omega

theorem parseEntries_lineupEntry {entry : LineupEntry} {bytes : List Byte}
    (encoded : lineupEntry entry = .ok bytes) (rest : List Byte) :
    bytes.length = 9 ∧
      parseEntries (bytes ++ rest) = (parseEntries rest).map fun entries =>
        entry.carried :: entries := by
  unfold lineupEntry at encoded
  split at encoded
  · cases encoded
  next channelFits =>
    split at encoded
    · cases encoded
    next flagsFit =>
      cases encoded
      refine ⟨rfl, ?_⟩
      obtain ⟨channel, flags⟩ := channel_flags channelFits flagsFit
      set packed := entry.channel <<< 4 ||| entry.flags.setWidth 16 with isPacked
      have carried : entry.carried = {
          serviceID := half (BitVec.ofNat 8 (entry.serviceID.toNat / 256))
            (BitVec.ofNat 8 entry.serviceID.toNat)
          kind := if entry.kind = 0 then 1 else entry.kind
          listings := half (BitVec.ofNat 8 (entry.listings.toNat / 256))
            (BitVec.ofNat 8 entry.listings.toNat)
          extra := half (BitVec.ofNat 8 (entry.extra.toNat / 256))
            (BitVec.ofNat 8 entry.extra.toNat)
          channel := half (BitVec.ofNat 8 (packed.toNat / 256)) (BitVec.ofNat 8 packed.toNat) >>> 4
          flags := (half (BitVec.ofNat 8 (packed.toNat / 256)) (BitVec.ofNat 8 packed.toNat) &&&
            0x0f#16).setWidth 8 } := by
        simp only [half_bytes, channel, flags]
        rfl
      rw [carried]
      rfl

theorem parseEntries_mapM {entries : List LineupEntry} {encoded : List (List Byte)}
    (built : List.Forall₂ (fun entry bytes => lineupEntry entry = .ok bytes) entries encoded) :
    encoded.flatten.length = 9 * entries.length ∧
      parseEntries encoded.flatten = some (entries.map LineupEntry.carried) := by
  induction built with
  | nil => exact ⟨rfl, rfl⟩
  | @cons entry bytes entries encoded isEntry _ ih =>
      obtain ⟨length, parsed⟩ := parseEntries_lineupEntry isEntry encoded.flatten
      refine ⟨?_, ?_⟩
      · rw [List.flatten_cons, List.length_append, ih.1, length, List.length_cons]
        omega
      · rw [List.flatten_cons, parsed, ih.2]
        rfl

/-- One 0xB1 descriptor. -/
theorem lineupChunk_ok {entries : List LineupEntry} {bytes : List Byte}
    (short : entries.length ≤ maxLineupEntries) (built : lineupChunk entries = .ok bytes) :
    ∃ d : Descriptor, d.encode = bytes ∧ d.tag = 0xb1 ∧
      parseLineup d.body = some (entries.map LineupEntry.carried) := by
  unfold lineupChunk at built
  obtain ⟨encoded, isEncoded, built⟩ := bind_eq_ok.mp built
  cases built
  obtain ⟨length, parsed⟩ := parseEntries_mapM (mapM_ok isEncoded)
  have fits : (bigEndian 2 lineupGate.toNat ++ encoded.flatten).length < 256 := by
    unfold maxLineupEntries at short
    rw [List.length_append, bigEndian_length, length]
    omega
  exact ⟨⟨0xb1, bigEndian 2 lineupGate.toNat ++ encoded.flatten, fits⟩, rfl, rfl, parsed⟩

theorem lineupChunks_ok {chunks : List (List LineupEntry)} {encoded : List (List Byte)}
    (short : ∀ chunk ∈ chunks, chunk.length ≤ maxLineupEntries)
    (built : List.Forall₂ (fun chunk bytes => lineupChunk chunk = .ok bytes) chunks encoded) :
    ∃ descriptors, encodeLoop descriptors = encoded.flatten ∧
      (∀ d ∈ descriptors, d.tag = 0xb1) ∧
      lineupOf descriptors = some (chunks.flatten.map LineupEntry.carried) := by
  induction built with
  | nil => exact ⟨[], rfl, by simp, rfl⟩
  | @cons chunk bytes chunks encoded isChunk _ ih =>
      obtain ⟨d, isEncoded, tag, parsed⟩ := lineupChunk_ok (short chunk (List.mem_cons_self ..)) isChunk
      obtain ⟨descriptors, areEncoded, tags, rest⟩ :=
        ih fun other member => short other (List.mem_cons_of_mem _ member)
      refine ⟨d :: descriptors, ?_, ?_, ?_⟩
      · rw [encodeLoop_cons, isEncoded, areEncoded, List.flatten_cons]
      · intro other member
        rcases List.mem_cons.mp member with rfl | later
        · exact tag
        · exact tags other later
      · rw [lineupOf, lineupIn, if_pos tag, parsed, rest, List.flatten_cons, List.map_append]
        rfl

/-- The declaration of the namespace, as a descriptor. -/
def specifier : Descriptor where
  tag := 0x5f
  body := [0x00, 0x00, 0x00, skyPrivateDataSpecifier]
  short := by decide

theorem encode_specifier : specifier.encode = specifierDescriptor :=
  rfl

/-- In a loop, every 0xB1 comes behind the declaration of its namespace. -/
def Declared (descriptors : List Descriptor) : Prop :=
  ∀ before d after, descriptors = before ++ d :: after → d.tag = 0xb1 → specifier ∈ before

theorem Declared.of_specifier (descriptors : List Descriptor) :
    Declared (specifier :: descriptors) := by
  intro before d after isSplit tag
  cases before with
  | nil =>
      cases isSplit
      cases tag
  | cons first before =>
      cases isSplit
      exact List.mem_cons_self ..

theorem Declared.of_isPrefix {first descriptors : List Descriptor} (declared : Declared descriptors)
    (isPrefix : first <+: descriptors) : Declared first := by
  obtain ⟨rest, rfl⟩ := isPrefix
  intro before d after isSplit tag
  refine declared before d (after ++ rest) ?_ tag
  rw [isSplit, List.append_assoc, List.cons_append]

theorem Declared.of_tags {descriptors : List Descriptor}
    (tags : ∀ d ∈ descriptors, d.tag ≠ 0xb1) : Declared descriptors := by
  intro before d after isSplit tag
  exact absurd tag (tags d (by simp [isSplit]))

theorem lineupOf_append {first second : List Descriptor} {entries : List LineupEntry}
    (parsed : lineupOf first = some entries) (tags : ∀ d ∈ second, d.tag ≠ 0xb1) :
    lineupOf (first ++ second) = some entries := by
  induction first generalizing entries with
  | nil =>
      cases parsed
      induction second with
      | nil => rfl
      | cons d second ih =>
          rw [List.nil_append, lineupOf, lineupIn, if_neg (tags d (List.mem_cons_self ..))]
          have rest := ih fun other member => tags other (List.mem_cons_of_mem _ member)
          rw [List.nil_append] at rest
          rw [rest]
          rfl
  | cons d first ih =>
      rw [lineupOf] at parsed
      rw [List.cons_append, lineupOf]
      cases isFirst : lineupIn d with
      | none => rw [isFirst] at parsed; cases parsed
      | some head =>
          rw [isFirst] at parsed
          cases isRest : lineupOf first with
          | none => rw [isRest] at parsed; cases parsed
          | some rest =>
              rw [isRest] at parsed
              rw [ih isRest]
              exact parsed

theorem serviceListChunk_eq {chunk : List Service} (short : chunk.length ≤ maxServiceListEntries) :
    ∃ d : Descriptor, d.encode = serviceListChunk chunk ∧ d.tag = 0x41 := by
  have length : (chunk.flatMap fun svc => bigEndian 2 svc.id.toNat ++ [serviceType svc]).length =
      chunk.length * 3 := by
    induction chunk with
    | nil => rfl
    | cons svc chunk ih =>
        rw [List.flatMap_cons, List.length_append, ih (by simp at short; omega)]
        simp
        omega
  have fits : chunk.length * 3 < 256 := by
    unfold maxServiceListEntries at short
    omega
  rw [← length] at fits
  exact ⟨⟨0x41, _, fits⟩, congrArg (fun n => 0x41 :: low n :: _) length, rfl⟩

theorem serviceListDescriptor_eq (services : List Service) :
    ∃ descriptors, encodeLoop descriptors = serviceListDescriptor services ∧
      ∀ d ∈ descriptors, d.tag = 0x41 := by
  have short := (slices_spec (show 0 < maxServiceListEntries by decide) services).2
  unfold serviceListDescriptor
  generalize slices maxServiceListEntries services = chunks at short
  induction chunks with
  | nil => exact ⟨[], rfl, by simp⟩
  | cons chunk chunks ih =>
      obtain ⟨d, isEncoded, tag⟩ := serviceListChunk_eq (short chunk (List.mem_cons_self ..))
      obtain ⟨descriptors, areEncoded, tags⟩ :=
        ih fun other member => short other (List.mem_cons_of_mem _ member)
      refine ⟨d :: descriptors, by rw [encodeLoop_cons, isEncoded, areEncoded]; rfl, ?_⟩
      intro other member
      rcases List.mem_cons.mp member with rfl | later
      · exact tag
      · exact tags other later

theorem linkageDescriptor_ok {tr : Transport} {bytes : List Byte}
    (built : linkageDescriptor tr = .ok bytes) :
    ∃ d : Descriptor, d.encode = bytes ∧ d.tag = 0x4a := by
  unfold linkageDescriptor at built
  split at built
  · cases built
  next svc services isServices =>
    cases built
    exact ⟨⟨0x4a, bigEndian 2 tr.id.toNat ++ bigEndian 2 tr.networkID.toNat ++
      bigEndian 2 svc.id.toNat ++ [linkageGuideSchedule], by simp⟩, rfl, rfl⟩

theorem lineupDescriptors_ok {lineup : List LineupEntry} {bytes : List Byte}
    (built : lineupDescriptors lineup = .ok bytes) :
    ∃ descriptors, encodeLoop descriptors = bytes ∧
      lineupOf descriptors = some (lineup.map LineupEntry.carried) ∧
      ∀ others, (∀ d ∈ others, d.tag ≠ 0xb1) → Declared (descriptors ++ others) := by
  unfold lineupDescriptors at built
  by_cases empty : lineup.length = 0
  · rw [if_pos empty] at built
    cases built
    obtain rfl := List.length_eq_zero_iff.mp empty
    exact ⟨[], rfl, rfl, fun others tags => .of_tags tags⟩
  · rw [if_neg empty] at built
    obtain ⟨encoded, isEncoded, built⟩ := bind_eq_ok.mp built
    cases built
    obtain ⟨whole, short⟩ := slices_spec (show 0 < maxLineupEntries by decide) lineup
    obtain ⟨descriptors, areEncoded, _, parsed⟩ := lineupChunks_ok short (mapM_ok isEncoded)
    rw [whole] at parsed
    refine ⟨specifier :: descriptors, ?_, ?_, fun others _ => .of_specifier _⟩
    · rw [encodeLoop_cons, encode_specifier, areEncoded]
    · rw [lineupOf, parsed]
      rfl

/-- What the BAT says about one transport: descriptors whose channel list is the
transport's, in its namespace. -/
theorem transportDescriptors_ok {tr : Transport} {bytes : List Byte}
    (built : transportDescriptors tr = .ok bytes) :
    ∃ descriptors, encodeLoop descriptors = bytes ∧ descriptors ≠ [] ∧
      lineupOf descriptors = some (tr.lineup.map LineupEntry.carried) ∧ Declared descriptors := by
  unfold transportDescriptors at built
  obtain ⟨lineup, isLineup, built⟩ := bind_eq_ok.mp built
  obtain ⟨linkage, isLinkage, built⟩ := bind_eq_ok.mp built
  cases built
  obtain ⟨entries, entriesEncoded, parsed, declared⟩ := lineupDescriptors_ok isLineup
  obtain ⟨services, servicesEncoded, serviceTags⟩ := serviceListDescriptor_eq tr.services
  obtain ⟨link, linkEncoded, linkTag⟩ := linkageDescriptor_ok isLinkage
  have tags : ∀ d ∈ services ++ [link], d.tag ≠ 0xb1 := by
    intro d member
    rcases List.mem_append.mp member with isService | isLink
    · rw [serviceTags d isService]
      decide
    · rw [List.mem_singleton.mp isLink, linkTag]
      decide
  refine ⟨entries ++ (services ++ [link]), ?_, by simp, lineupOf_append parsed tags,
    declared _ tags⟩
  simp only [encodeLoop_append, encodeLoop_cons, encodeLoop_nil, entriesEncoded, servicesEncoded,
    linkEncoded, List.append_nil, List.append_assoc]

end Broadcast

end GoRetroTv
