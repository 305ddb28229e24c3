import GoRetroTv.SectionBuilder

/-!
# The network, service and bouquet tables

`internal/broadcast/sections.go`: the NIT, the SDT and the BAT, with the
descriptors they carry.
-/

namespace GoRetroTv

namespace Broadcast

/-- The private descriptor 0xB2, named for where its fields land. -/
structure GuideRow where
  at8 : Byte
  at10 : Byte
  at9 : Byte
  at11 : Byte
  prefixBytes : List Byte
  text : List Byte

structure Service where
  id : Half
  type : Byte
  provider : List Byte
  name : List Byte
  eitSchedule : Bool
  noEITPresent : Bool
  row : Option GuideRow

/-- One nine-byte entry of the channel list. -/
structure LineupEntry where
  serviceID : Half
  kind : Byte
  listings : Half
  extra : Half
  channel : Half
  flags : Byte
  deriving DecidableEq

structure Transport where
  id : Half
  networkID : Half
  frequencyMHz : Int
  orbitTenths : Int
  west : Bool
  polarisation : Byte
  symbolRate : Int
  fec : Byte
  services : List Service
  lineup : List LineupEntry

/-- The slices a loop takes that advances by `size` and stops at the end. -/
def slices {α : Type} (size : Nat) (items : List α) : List (List α) :=
  if 0 < size ∧ 0 < items.length then items.take size :: slices size (items.drop size) else []
termination_by items.length
decreasing_by
  rw [List.length_drop]
  omega

def skyPrivateDataSpecifier : Byte :=
  2

/-- The private data specifier that opens Sky's namespace. -/
def specifierDescriptor : List Byte :=
  [0x5f, 4, 0x00, 0x00, 0x00, skyPrivateDataSpecifier]

def guideRowDescriptor (row : Option GuideRow) : Except String (List Byte) :=
  match row with
  | none => .ok []
  | some row =>
      if 0x0f < row.prefixBytes.length then
        .error (s!"broadcast: a 0xB2 prefix is {row.prefixBytes.length} bytes and the parser reads its " ++
          "length from a NIBBLE, so it cannot exceed 15")
      else if 7 < row.at9 then
        .error s!"broadcast: 0xB2 field At9 is {row.at9.toNat} and the parser takes three bits"
      else if 1 < row.at11 then
        .error s!"broadcast: 0xB2 field At11 is {row.at11.toNat} and the parser takes one bit"
      else
        let body := [row.at8, row.at10,
          row.at9 <<< 5 ||| row.at11 <<< 4 ||| low row.prefixBytes.length] ++
          row.prefixBytes ++ row.text
        if 0xff < body.length then
          .error s!"broadcast: a 0xB2 descriptor body is {body.length} bytes and the length is one byte"
        else .ok ([0xb2, low body.length] ++ body)

/-- The loop of `bcdDigits`: two digits to a byte. -/
def bcdBytes : Nat → Nat → List Byte
  | 0, _ => []
  | count + 1, value =>
      bcdBytes count (value / 100) ++ [low (value % 10) ||| low (value / 10 % 10) <<< 4]

def bcdDigits (value : Int) (digits : Nat) : Except String (List Byte) :=
  if value < 0 ∨ (10 : Int) ^ digits ≤ value ∨ digits % 2 ≠ 0 then
    .error s!"broadcast: {value} does not fit {digits} BCD digits"
  else .ok (bcdBytes (digits / 2) value.toNat)

def satelliteDescriptor (tr : Transport) : Except String (List Byte) := do
  if tr.frequencyMHz < 0 ∨ 1000000 ≤ tr.frequencyMHz ∨ tr.orbitTenths < 0 ∨
      10000 ≤ tr.orbitTenths ∨ tr.symbolRate < 0 ∨ 10000000 ≤ tr.symbolRate then
    throw "broadcast: satellite BCD field out of range"
  let freq ← wrap "broadcast: satellite frequency: " (bcdDigits (tr.frequencyMHz * 100) 8)
  let orbit ← wrap "broadcast: orbital position: " (bcdDigits tr.orbitTenths 4)
  if 3 < tr.polarisation ∨ 15 < tr.fec then
    throw "broadcast: satellite flags out of range"
  let sym ← wrap "broadcast: symbol rate: " (bcdDigits (tr.symbolRate * 100) 8)
  let sym := sym.set 3 (Demux.byteAt sym 3 &&& 0xf0#8 ||| tr.fec)
  let flags := 0x81#8 ||| tr.polarisation <<< 5
  let flags := if tr.west then flags &&& ~~~ 0x80#8 else flags
  return [0x43, 11] ++ freq ++ orbit ++ [flags] ++ sym

def serviceType (svc : Service) : Byte :=
  if svc.type = 0 then 1 else svc.type

def maxServiceListEntries : Nat :=
  255 / 3

/-- One 0x41 descriptor. -/
def serviceListChunk (chunk : List Service) : List Byte :=
  [0x41, low (chunk.length * 3)] ++
    chunk.flatMap fun svc => bigEndian 2 svc.id.toNat ++ [serviceType svc]

def serviceListDescriptor (services : List Service) : List Byte :=
  (slices maxServiceListEntries services).flatMap serviceListChunk

def linkageGuideSchedule : Byte :=
  0x91

def linkageDescriptor (tr : Transport) : Except String (List Byte) :=
  match tr.services with
  | [] =>
      .error s!"broadcast: transport {hexText 0 tr.id.toNat} declares no service for its linkage to name"
  | svc :: _ =>
      let desc := [0x4a, 7]
      let desc := appendU16 desc tr.id
      let desc := appendU16 desc tr.networkID
      let desc := appendU16 desc svc.id
      .ok (desc ++ [linkageGuideSchedule])

def lineupGate : Half :=
  0xffff

def maxLineupEntries : Nat :=
  (255 - 2) / 9

/-- One entry of a 0xB1 descriptor. -/
def lineupEntry (entry : LineupEntry) : Except String (List Byte) :=
  if 0x0fff < entry.channel then
    .error s!"broadcast: channel {entry.channel.toNat} exceeds twelve bits"
  else if 0x0f < entry.flags then
    .error s!"broadcast: flags {hexText 0 entry.flags.toNat} exceed four bits"
  else
    let kind := if entry.kind = 0 then 1 else entry.kind
    let body := appendU16 [] entry.serviceID
    let body := body ++ [kind]
    let body := appendU16 body entry.listings
    let body := appendU16 body entry.extra
    .ok (appendU16 body (entry.channel <<< 4 ||| entry.flags.setWidth 16))

/-- One 0xB1 descriptor. -/
def lineupChunk (entries : List LineupEntry) : Except String (List Byte) := do
  let encoded ← entries.mapM lineupEntry
  let body := bigEndian 2 lineupGate.toNat ++ encoded.flatten
  return [0xb1, low body.length] ++ body

def lineupDescriptors (lineup : List LineupEntry) : Except String (List Byte) := do
  if lineup.length = 0 then return []
  let chunks ← (slices maxLineupEntries lineup).mapM lineupChunk
  return specifierDescriptor ++ chunks.flatten

/-- One entry of the NIT's transport loop. -/
def nitTransport (tr : Transport) : Except String (List Byte) := do
  let sat ← satelliteDescriptor tr
  let desc := sat ++ serviceListDescriptor tr.services
  if 0x0fff < desc.length then
    throw "broadcast: transport descriptor loop too long"
  return appendU16 (appendU16 [] tr.id) tr.networkID ++ lengthBytes 0xf0 desc.length ++ desc

/-- `NIT`. -/
def nit (networkID : Half) (version : Byte) (networkName : List Byte) (transports : List Transport) :
    Except String (List Byte) := do
  let name ← wrap "broadcast: network name: " (asciiText networkName)
  if 255 < name.length then
    throw "broadcast: network name too long"
  let netDesc := [0x40, low name.length] ++ name
  let entries ← transports.mapM nitTransport
  let loop := entries.flatten
  if 0x0fff < loop.length then
    throw "broadcast: transport loop too long"
  let payload := lengthBytes 0xf0 netDesc.length ++ netDesc ++ lengthBytes 0xf0 loop.length ++ loop
  longSection 0x40 networkID version payload

def sdtServiceEntry (svc : Service) : Except String (List Byte) := do
  let providerName := if svc.provider = [] then ascii "BSkyB" else svc.provider
  let provider ← wrap s!"broadcast: service {svc.id.toNat} provider: " (asciiText providerName)
  let name ← wrap s!"broadcast: service {svc.id.toNat} name: " (asciiText svc.name)
  if 255 < provider.length ∨ 255 < name.length ∨ 255 < provider.length + name.length + 9 then
    throw s!"broadcast: service {svc.id.toNat} descriptor too long"
  let desc := specifierDescriptor ++
    [0x48, low (3 + provider.length + name.length), serviceType svc, low provider.length] ++
    provider ++ [low name.length] ++ name
  let row ← wrap s!"broadcast: service {svc.id.toNat} row descriptor: " (guideRowDescriptor svc.row)
  let desc := desc ++ row
  let flags := 0xfc#8
  let flags := if svc.eitSchedule then flags ||| 2 else flags
  let flags := if svc.noEITPresent then flags else flags ||| 1
  return appendU16 [] svc.id ++ flags :: lengthBytes 0x80 desc.length ++ desc

/-- The sections of a table: each group of entries behind its head, numbered. -/
def numberSections (table : Byte) (extension : Half) (version : Byte)
    (payload : List (List Byte) → Except String (List Byte)) (last : Byte) :
    Nat → List (List (List Byte)) → Except String (List (List Byte))
  | _, [] => .ok []
  | i, group :: groups => do
      let body ← payload group
      let section_ ← numberedSection table extension version (low i) last body
      let sections ← numberSections table extension version payload last (i + 1) groups
      return section_ :: sections

/-- `SDT`. -/
def sdt (transportID networkID : Half) (version : Byte) (services : List Service) :
    Except String (List (List Byte)) := do
  let groups ← packSections 3 (services.map sdtServiceEntry)
  let last := low (groups.length - 1)
  let payload (group : List (List Byte)) : Except String (List Byte) :=
    .ok (appendU16 [] networkID ++ [0xff] ++ group.flatten)
  numberSections 0x42 transportID version payload last 0 groups

def transportDescriptors (tr : Transport) : Except String (List Byte) := do
  let lineup ← lineupDescriptors tr.lineup
  let linkage ← linkageDescriptor tr
  return lineup ++ serviceListDescriptor tr.services ++ linkage

/-- The walk of `descriptorBoundary`. -/
def descriptorBoundary (descriptors : List Byte) (at_ limit : Nat) : Nat :=
  if at_ < limit then
    if descriptors.length < at_ + 2 then at_
    else
      let next := at_ + 2 + (Demux.byteAt descriptors (at_ + 1)).toNat
      if limit < next then at_ else descriptorBoundary descriptors next limit
  else at_
termination_by limit - at_

theorem le_descriptorBoundary (descriptors : List Byte) (at_ limit : Nat) :
    at_ ≤ descriptorBoundary descriptors at_ limit := by
  fun_induction descriptorBoundary descriptors at_ limit with
  | case1 => exact le_rfl
  | case2 => exact le_rfl
  | case3 at_ _ _ next _ ih => omega
  | case4 => exact le_rfl

/-- One transport loop entry of the BAT. -/
def transportPiece (tr : Transport) (chunk : List Byte) : List Byte :=
  appendU16 (appendU16 [] tr.id) tr.networkID ++ lengthBytes 0xf0 chunk.length ++ chunk

/-- The namespace is declared again at the head of each continuation. -/
def continuationPrefix (start : Nat) : List Byte :=
  if 0 < start then specifierDescriptor else []

/-- Where the piece that begins at an offset ends. -/
def pieceEnd (descriptors : List Byte) (budget start : Nat) : Nat :=
  descriptorBoundary descriptors start
    (min (start + budget - (continuationPrefix start).length) descriptors.length)

theorem le_pieceEnd (descriptors : List Byte) (budget start : Nat) :
    start ≤ pieceEnd descriptors budget start :=
  le_descriptorBoundary ..

/-- The pieces one transport's descriptors are cut into, from an offset. -/
def transportPieces (tr : Transport) (descriptors : List Byte) (budget start : Nat) :
    Except String (List (List Byte)) :=
  if pieceEnd descriptors budget start = start ∧ 0 < descriptors.length then
    .error s!"broadcast: transport {tr.id.toNat} has a descriptor too large for a section"
  else
    let chunk := continuationPrefix start ++
      (descriptors.take (pieceEnd descriptors budget start)).drop start
    let piece := transportPiece tr chunk
    if descriptors.length ≤ pieceEnd descriptors budget start then .ok [piece]
    else do
      let pieces ← transportPieces tr descriptors budget (pieceEnd descriptors budget start)
      return piece :: pieces
termination_by descriptors.length - start
decreasing_by
  have := le_pieceEnd descriptors budget start
  omega

/-- One transport of the BAT. -/
def batTransport (head : Nat) (tr : Transport) : Except String (List (List Byte)) := do
  let descriptors ← transportDescriptors tr
  let budget := sectionPayloadBudget - head - 6
  if budget = 0 then
    throw "broadcast: the bouquet loop leaves no room for a transport"
  transportPieces tr descriptors budget 0

/-- The payload of one BAT section. -/
def batPayload (bouquetLoop : List Byte) (group : List (List Byte)) : Except String (List Byte) :=
  let tsLoop := group.flatten
  if 0xfff < tsLoop.length then .error "broadcast: BAT descriptor loop exceeds twelve bits"
  else
    .ok (lengthBytes 0xf0 bouquetLoop.length ++ bouquetLoop ++
      (lengthBytes 0xf0 tsLoop.length ++ tsLoop))

/-- `BAT`. -/
def bat (bouquetID : Half) (version : Byte) (name : List Byte) (transports : List Transport) :
    Except String (List (List Byte)) := do
  let bouquetName ← wrap "broadcast: bouquet name: " (asciiText name)
  if 255 < bouquetName.length then
    throw "broadcast: bouquet name too long"
  match transports with
  | [] => throw "broadcast: a BAT must announce at least one transport"
  | first :: _ =>
      let bouquetLinkage ← linkageDescriptor first
      let bouquetLoop := [0x47, low bouquetName.length] ++ bouquetName ++ bouquetLinkage
      if 0xfff < bouquetLoop.length then
        throw "broadcast: BAT descriptor loop exceeds twelve bits"
      let head := 2 + bouquetLoop.length + 2
      let pieces ← transports.mapM (batTransport head)
      let groups ← packSections head (pieces.flatten.map .ok)
      let last := low (groups.length - 1)
      numberSections 0x4a bouquetID version (batPayload bouquetLoop) last 0 groups

end Broadcast

end GoRetroTv
