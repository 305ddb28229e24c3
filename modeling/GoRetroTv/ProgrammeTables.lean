import GoRetroTv.SectionBuilder

/-!
# The programme tables and the index

`internal/broadcast/sections.go`: the PAT, the CAT and the PMT, and the private
index of table 0xC1.
-/

namespace GoRetroTv

namespace Broadcast

structure Programme where
  number : Half
  mapPID : Half

/-- One entry of the PAT. -/
def patEntry (p : Programme) : Except String (List Byte) :=
  if p.number = 0 then .error "broadcast: programme number 0 is reserved for the network PID"
  else if 0x1fff < p.mapPID then
    .error s!"broadcast: programme map PID {hexText 0 p.mapPID.toNat} exceeds thirteen bits"
  else .ok (appendU16 (appendU16 [] p.number) (0xe000 ||| p.mapPID))

/-- `PAT`. -/
def pat (transportStreamID : Half) (version : Byte) (programmes : List Programme) :
    Except String (List Byte) := do
  if programmes.length = 0 then
    throw "broadcast: a PAT with no programmes announces nothing"
  let entries ← programmes.mapM patEntry
  longSection 0x00 transportStreamID version entries.flatten

/-- The walk of `descriptorLoop`, from an offset. -/
def descriptorLoopFrom (descriptors : List Byte) (at_ : Nat) : Except String Unit :=
  if at_ < descriptors.length then
    if descriptors.length - at_ < 2 then .error "short descriptor header"
    else
      let next := at_ + 2 + (Demux.byteAt descriptors (at_ + 1)).toNat
      if descriptors.length < next then .error "descriptor extends past loop"
      else descriptorLoopFrom descriptors next
  else .ok ()
termination_by descriptors.length - at_

def descriptorLoop (descriptors : List Byte) : Except String Unit :=
  descriptorLoopFrom descriptors 0

/-- `CAT`.  Its own walk of the loop is the same, with one error text. -/
def cat (version : Byte) (descriptors : List Byte) : Except String (List Byte) := do
  (descriptorLoop descriptors).mapError fun _ => "broadcast: malformed CAT descriptor loop"
  longSection 0x01 1 version descriptors

structure ElementaryStream where
  type : Byte
  pid : Half
  descriptors : List Byte

/-- One component of the PMT. -/
def pmtStream (stream : ElementaryStream) : Except String (List Byte) := do
  if 0x1fff < stream.pid then
    throw s!"broadcast: elementary PID {hexText 0 stream.pid.toNat} exceeds thirteen bits"
  if 0x0fff < stream.descriptors.length then
    throw "broadcast: elementary descriptor loop is too long"
  (descriptorLoop stream.descriptors).mapError fun _ =>
    "broadcast: malformed elementary descriptor loop"
  let payload := appendU16 [stream.type] (0xe000 ||| stream.pid)
  let payload := appendU16 payload (0xf000 ||| BitVec.ofNat 16 stream.descriptors.length)
  return payload ++ stream.descriptors

/-- `PMT`. -/
def pmt (programmeNumber : Half) (version : Byte) (pcrPID : Half) (descriptors : List Byte)
    (streams : List ElementaryStream) : Except String (List Byte) := do
  if programmeNumber = 0 then
    throw "broadcast: PMT programme number 0 is reserved"
  if 0x1fff < pcrPID then
    throw s!"broadcast: PCR PID {hexText 0 pcrPID.toNat} exceeds thirteen bits"
  if streams.length = 0 then
    throw "broadcast: a PMT with no elementary streams announces no media"
  (descriptorLoop descriptors).mapError fun _ =>
    "broadcast: malformed PMT programme descriptor loop"
  let payload := appendU16 [] (0xe000 ||| pcrPID)
  if 0x0fff < descriptors.length then
    throw "broadcast: PMT programme descriptor loop is too long"
  let payload := appendU16 payload (0xf000 ||| BitVec.ofNat 16 descriptors.length)
  let encoded ← streams.mapM pmtStream
  longSection 0x02 programmeNumber version (payload ++ descriptors ++ encoded.flatten)

/-- One nine-byte entry of a table 0xC1 section. -/
structure IndexRecord where
  id : Half
  packed : Byte
  selector : Byte
  data : Vector Byte 5

/-- `IndexDispatched`. -/
def indexDispatched (extension : Half) : Bool :=
  extension = 0x0000 || extension = 0x00ff || (0x41 ≤ extension && extension ≤ 0x5a) ||
    (0x0100 ≤ extension && extension ≤ 0x01cf)

def indexRecord (record : IndexRecord) : List Byte :=
  appendU16 [] record.id ++ [record.packed, record.selector] ++ record.data.toList

/-- `IndexSection`. -/
def indexSection (extension : Half) (version sectionNumber lastSectionNumber : Byte)
    (records : List IndexRecord) : Except String (List Byte) := do
  if indexDispatched extension = false then
    throw (s!"broadcast: extension {hexText 4 extension.toNat} is not one the 0xC1 consumer " ++
      "dispatches, so the box would build the record array and free it")
  let section_ ← longSection 0xc1 extension version (records.flatMap indexRecord)
  return renumber sectionNumber lastSectionNumber section_

end Broadcast

end GoRetroTv
