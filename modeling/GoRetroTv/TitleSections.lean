import GoRetroTv.HuffmanCoding
import GoRetroTv.SectionBuilder

/-!
# Title sections

`internal/broadcast/titles.go`: the programmes themselves, one record each,
walked by the firmware from record to record by a twelve-bit length.
-/

namespace GoRetroTv

namespace Broadcast

open Snapcodec (quoted)

/-- One programme.  Times are seconds into the day. -/
structure TitleRecord where
  eventID : Half
  start : Int
  duration : Int
  title : List Byte
  genre : Byte
  rating : Byte

def titleRecord (dict : HuffmanDictionary) (record : TitleRecord) : Except String (List Byte) := do
  if record.start.tmod 2 ≠ 0 ∨ record.duration.tmod 2 ≠ 0 then
    throw "broadcast: start and duration are carried halved, so both must be even seconds"
  if record.start < 0 ∨ record.duration < 0 ∨ 0xffff < record.start.tdiv 2 ∨
      0xffff < record.duration.tdiv 2 then
    throw (s!"broadcast: start {record.start} and duration {record.duration} must halve " ++
      "into sixteen bits")
  if 0x0f < record.rating then
    throw s!"broadcast: rating {hexText 0 record.rating.toNat} exceeds the low nibble"
  let text ← dict.encode record.title
  let start := (record.start.tdiv 2).toNat
  let duration := (record.duration.tdiv 2).toNat
  let body := bigEndian 2 start ++ bigEndian 2 duration ++
    [record.genre, 0x00, record.rating &&& 0x0f#8] ++ text
  if 0xff < body.length then
    throw s!"broadcast: programme {quoted record.title} does not fit one descriptor"
  let descriptor := [0xb5, low body.length] ++ body
  if 0x0fff < descriptor.length then
    throw "broadcast: record too long for a twelve-bit length"
  return bigEndian 2 record.eventID.toNat ++ lengthBytes 0xf0 descriptor.length ++ descriptor

/-- What stands between the length field and the records. -/
def titleHeader (channelID : Half) (filter : Byte × Byte)
    (version sectionNumber lastSectionNumber : Byte) : List Byte :=
  bigEndian 2 channelID.toNat ++
    [0xc1 ||| (version &&& 0x1f#8) <<< 1, sectionNumber, lastSectionNumber, filter.1, filter.2]

/-- `TitleSection`. -/
def titleSection (tableID : Byte) (channelID : Half) (filter : Byte × Byte)
    (version sectionNumber lastSectionNumber : Byte) (dict : Option HuffmanDictionary)
    (records : List TitleRecord) : Except String (List Byte) :=
  match dict with
  | none =>
      .error "broadcast: title sections need a huffman dictionary; see dictionaries/MANIFEST.md"
  | some dict => do
      if records.length = 0 then
        throw "broadcast: a title section with no records announces nothing"
      let encoded ← records.mapM (titleRecord dict)
      let payload :=
        titleHeader channelID filter version sectionNumber lastSectionNumber ++ encoded.flatten
      let length := payload.length + 4
      if maxSectionLength < length then
        throw (s!"broadcast: title section length {length} exceeds {maxSectionLength}; " ++
          "split it across section_number")
      return withCRC (tableID :: lengthBytes 0xb0 length ++ payload)

end Broadcast

end GoRetroTv
