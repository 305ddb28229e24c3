import GoRetroTv.SectionBuilder
import Mathlib.Data.List.DropRight

/-!
# The time tables and the events

`internal/broadcast/sections.go`: the TDT, the TOT and the present/following
EIT, with the times they carry.  A `time.Time` is the second it names, counted
from 1970; the calendar is the proleptic Gregorian one, in UTC.
-/

namespace GoRetroTv

/-- A `time.Time`. -/
structure Time where
  unix : Int
  nanosecond : Nat := 0
  deriving DecidableEq

namespace Time

/-- `IsZero`: the first instant of year 1. -/
def isZero (t : Time) : Bool :=
  decide (t.unix = -62135596800 ∧ t.nanosecond = 0)

/-- Days since 1 March of year 0. -/
def marchDay (t : Time) : Int :=
  t.unix / 86400 + 719468

/-- `Year`, in years that begin in March and cycles of 400 of them. -/
def year (t : Time) : Int :=
  let day := t.marchDay % 146097
  let yearOfCycle := (day - day / 1460 + day / 36524 - day / 146096) / 365
  let dayOfYear := day - (365 * yearOfCycle + yearOfCycle / 4 - yearOfCycle / 100)
  let january := 306 ≤ dayOfYear
  t.marchDay / 146097 * 400 + yearOfCycle + if january then 1 else 0

def secondOfDay (t : Time) : Nat :=
  (t.unix % 86400).toNat

/-- `Hour`. -/
def hour (t : Time) : Nat :=
  t.secondOfDay / 3600

/-- `Minute`. -/
def minute (t : Time) : Nat :=
  t.secondOfDay % 3600 / 60

/-- `Second`. -/
def second (t : Time) : Nat :=
  t.secondOfDay % 60

end Time

namespace Broadcast

def bcd (n : Int) : Except String Byte :=
  if n < 0 ∨ 99 < n then .error s!"broadcast: BCD value {n} out of range"
  else .ok (low ((n.toNat / 10) <<< 4 ||| n.toNat % 10))

/-- `h, _ := bcd(n)`. -/
def bcdOrZero (n : Int) : Byte :=
  (bcd n).toOption.getD 0

/-- The modified Julian date.  1970-01-01 is 40587. -/
def mjd (value : Time) : Int :=
  let seconds := value.unix
  let days := seconds.tdiv 86400
  let days := if seconds < 0 ∧ seconds.tmod 86400 ≠ 0 then days - 1 else days
  days + 40587

def dvbTime (value : Time) : Except String (List Byte) :=
  if value.isZero then .error "broadcast: zero UTC time"
  else if value.year < 1858 ∨ 9999 < value.year then .error "broadcast: time outside MJD range"
  else if mjd value < 0 ∨ 65535 < mjd value then .error "broadcast: time outside MJD range"
  else
    .ok (bigEndian 2 (mjd value).toNat ++
      [bcdOrZero value.hour, bcdOrZero value.minute, bcdOrZero value.second])

def offsetBCD (minutes : Int) : Except String (List Byte) :=
  if minutes < -(23 * 60 + 59) ∨ 23 * 60 + 59 < minutes then
    .error "broadcast: offset outside BCD range"
  else
    let minutes := if minutes < 0 then -minutes else minutes
    .ok [bcdOrZero (minutes / 60), bcdOrZero (minutes % 60)]

/-- The local time offset descriptor's contents. -/
structure TimeOffset where
  country : List Byte
  region : Byte
  offsetMinutes : Int
  changeUTC : Time
  nextOffsetMinutes : Int

/-- `TDT`. -/
def tdt (utc : Time) : Except String (List Byte) := do
  let clock ← dvbTime utc
  return [0x70, 0x70, 0x05] ++ clock

/-- `TOT`. -/
def tot (utc : Time) (offset : TimeOffset) : Except String (List Byte) := do
  let clock ← dvbTime utc
  let change ← wrap "broadcast: offset change: " (dvbTime offset.changeUTC)
  if offset.country.length ≠ 3 then
    throw "broadcast: country must have three ASCII letters"
  if offset.country.any fun c => decide (c < 0x41 ∨ 0x5a < c) then
    throw "broadcast: country must have three ASCII letters"
  if 63 < offset.region then
    throw "broadcast: region exceeds six bits"
  let current ← offsetBCD offset.offsetMinutes
  let next ← offsetBCD offset.nextOffsetMinutes
  let polarity : Byte := if offset.offsetMinutes < 0 then 1 else 0
  let desc := [0x58#8, 13] ++ offset.country ++ [offset.region <<< 2 ||| 2 ||| polarity] ++
    current ++ change ++ next
  let length := 5 + 2 + desc.length + 4
  return withCRC (0x73 :: lengthBytes 0x70 length ++
    (clock ++ lengthBytes 0xf0 desc.length ++ desc))

structure Event where
  id : Half
  start : Time
  /-- A `time.Duration`, in nanoseconds. -/
  duration : Int
  name : List Byte
  text : List Byte
  running : Byte

def runningRunning : Byte :=
  4

def eitPresentFollowing : Byte :=
  0x4e

def eitLastSection : Byte :=
  1

/-- A fraction of a second, without its trailing zeros. -/
def fractionText (nanoseconds : Nat) : String :=
  if nanoseconds = 0 then ""
  else
    let digits := (toString (10 ^ 9 + nanoseconds)).toList.tail
    "." ++ String.ofList (digits.rdropWhile (· = '0'))

/-- `%s` of a duration of at least a second. -/
def durationText (duration : Int) : String :=
  let nanoseconds := duration.natAbs
  let seconds := nanoseconds / 10 ^ 9
  let sign := if duration < 0 then "-" else ""
  let last := s!"{seconds % 60}{fractionText (nanoseconds % 10 ^ 9)}s"
  let minutes := s!"{seconds / 60 % 60}m"
  if 3600 ≤ seconds then sign ++ s!"{seconds / 3600}h" ++ minutes ++ last
  else if 60 ≤ seconds then sign ++ minutes ++ last
  else sign ++ last

def shortEventDescriptor (name text : List Byte) : Except String (List Byte) := do
  let title ← wrap "broadcast: event name: " (asciiText name)
  let body ← wrap "broadcast: event text: " (asciiText text)
  if 255 < title.length ∨ 255 < body.length then
    throw "broadcast: event name and text are single-byte-counted"
  let length := 3 + 1 + title.length + 1 + body.length
  if 255 < length then
    throw s!"broadcast: short event descriptor is {length} bytes, over 255"
  return [0x4d, low length] ++ ascii "eng" ++ [low title.length] ++ title ++ [low body.length] ++ body

def eventRecord (event : Event) : Except String (List Byte) := do
  let start ← dvbTime event.start
  let seconds := event.duration.tdiv (10 ^ 9)
  if seconds < 0 ∨ 100 * 3600 ≤ seconds then
    throw s!"broadcast: event duration {durationText event.duration} does not fit six BCD digits"
  let hours := bcdOrZero (seconds / 3600)
  let minutes := bcdOrZero (seconds % 3600 / 60)
  let remainder := bcdOrZero (seconds % 60)
  if runningRunning < event.running then
    throw s!"broadcast: running status {event.running.toNat} exceeds three bits"
  let descriptors ← shortEventDescriptor event.name event.text
  return appendU16 [] event.id ++ start ++ [hours, minutes, remainder] ++
    lengthBytes (event.running <<< 5) descriptors.length ++ descriptors

/-- The event loop of a present/following section, which may be empty. -/
def eventLoop (event : Option Event) : Except String (List Byte) :=
  match event with
  | none => .ok []
  | some event => eventRecord event

/-- `EITPresentFollowing`. -/
def eitPresentFollowingSection (serviceID transportStreamID networkID : Half)
    (version sectionNumber : Byte) (event : Option Event) : Except String (List Byte) := do
  if eitLastSection < sectionNumber then
    throw s!"broadcast: present/following EIT has sections 0 and 1 only, not {sectionNumber.toNat}"
  let payload := appendU16 (appendU16 [] transportStreamID) networkID ++
    [eitLastSection, eitPresentFollowing]
  let record ← eventLoop event
  let section_ ← longSection eitPresentFollowing serviceID version (payload ++ record)
  return renumber sectionNumber eitLastSection section_

end Broadcast

end GoRetroTv
