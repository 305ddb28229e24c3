import GoRetroTv.BoxSubscription
import GoRetroTv.BroadcastCarousel
import Mathlib.Data.List.Rotate

/-!
# The title carousel

`internal/multiplex/multiplex.go`: the title sections that answer what the box
has programmed, one of them in each wave.  Every section is for today or
tomorrow and carries that day, and as many waves as there are sections carry
them all.
-/

namespace GoRetroTv

namespace Multiplex

open Broadcast Demux Snapcodec

/-- The title records of a channel's day, by quarter, and how many there are. -/
structure DayRecords where
  quarters : Fin titleQuarters → List TitleRecord := fun _ => []
  total : Nat := 0

/-- A programme joins its local quarter, on the wire in UTC, if its section still
fits. -/
def addProgramme (dict : Option HuffmanDictionary) (service : ListedService) (offset : Int)
    (day : DayRecords) (entry : ListedProgramme × Nat) : Except String DayRecords := do
  let (programme, i) := entry
  let localStart ← programme.startSeconds
  let quarter := quarterOf localStart
  let record : TitleRecord := {
    eventID := BitVec.ofNat 16 (i + 1)
    start := ((localStart - offset).tmod 86400 + 86400).tmod 86400
    duration := (programme.minutes * 60).bmod countLimit
    title := programme.title
    genre := programme.genre
    rating := programme.rating }
  let candidate := day.quarters quarter ++ [record]
  match titleSection 0xa0 service.listingsID (0, 0) 0 0 0 dict candidate with
  | .error _ => return day
  | .ok _ => return {
      quarters := Function.update day.quarters quarter candidate
      total := day.total + 1 }

/-- `records`: one channel's day as title records, in quarters. -/
def records (dict : Option HuffmanDictionary) (service : ListedService) (day : Time) :
    Except String (Fin titleQuarters → List TitleRecord) := do
  let offset := (londonOffset day).offsetMinutes * 60
  let built ← service.programmes.zipIdx.foldlM (addProgramme dict service offset) {}
  if built.total = 0 then
    throw s!"multiplex: {quoted service.name}: not even one programme fits in a title section"
  return built.quarters

/-- What has gone on air. -/
structure Counters where
  titles : Nat := 0
  titlesUnaddressed : Nat := 0
  titlesDerived : Nat := 0
  deriving DecidableEq

/-- The part of the transmitter that the titles use. -/
structure Transmitter where
  guide : Guide Listings
  dict : Option HuffmanDictionary
  version : Byte := 1
  titleCursor : Nat := 0
  lastSubscriptionErr : String := ""
  sent : Counters := {}
  onAir : Bool := false
  onAirCalled : Bool := false
  announced : Option (Counters × List TitleRequest) := none

/-- One channel's sections for a request, a quarter at a time. -/
def serviceSections (dict : Option HuffmanDictionary) (version : Byte) (day : Time)
    (request : TitleRequest) (service : ListedService) : Except String (List Emission) := do
  if !request.wants service.listingsID then
    return []
  let quarters ← records dict service day
  let sections ← (List.finRange titleQuarters).mapM fun quarter => do
    if (quarters quarter).length = 0 then
      return []
    let section_ ← titleSection (titleTableID quarter) service.listingsID request.filter version 0 0
      dict (quarters quarter)
    return [{ pid := request.pid, section_ := section_ : Emission }]
  return sections.flatten

/-- The sections of every request, over every channel. -/
def requestSections (dict : Option HuffmanDictionary) (version : Byte) (day : Time)
    (services : List ListedService) (requests : List TitleRequest) :
    Except String (List Emission) := do
  let sections ← requests.mapM fun request => do
    let wanted ← services.mapM (serviceSections dict version day request)
    return wanted.flatten
  return sections.flatten

namespace Transmitter

/-- The milestone of the first titles. -/
def reportOnAir (sub : Subscription) (m : Transmitter) : Transmitter :=
  if !m.onAirCalled && decide (0 < m.sent.titles) && m.onAir then
    { m with onAirCalled := true, announced := some (m.sent, sub.titles) }
  else m

/-- `titlesFor`: one day's title sections, or nothing when the box has not armed
its PID. -/
def titlesFor (sub : Subscription) (day : Time) (m : Transmitter) :
    Except String (List Emission) × Transmitter :=
  match m.guide.on day with
  | none => (.ok [], m)
  | some listings =>
    if listings.services.length = 0 then (.ok [], m)
    else
      let mjd := mjdOf day
      if !sub.arms (titlePID mjd) then
        (.ok [], { m with sent.titlesUnaddressed := m.sent.titlesUnaddressed + 1 })
      else
        let asked := sub.titles.filter fun request => decide (request.mjd = mjd)
        let m :=
          if asked.length = 0 then { m with sent.titlesDerived := m.sent.titlesDerived + 1 } else m
        let requests :=
          if asked.length = 0 then
            listings.services.map fun service => derivedTitleRequest mjd service.listingsID
          else asked
        (requestSections m.dict m.version day listings.services requests, m.reportOnAir sub)

/-- One title section of a wave: the one whose turn it is. -/
def takeTurn (wave : List Emission) (m : Transmitter) : List Emission × Transmitter :=
  if bound : 0 < wave.length then
    let section_ := wave.get ⟨m.titleCursor % wave.length, Nat.mod_lt _ bound⟩
    ([section_], { m with
      titleCursor := (m.titleCursor + 1) % wave.length
      sent.titles := m.sent.titles + 1 })
  else (wave, m)

/-- What a title wave does for a box that is asking: of what today and tomorrow
would take, it carries one section. -/
def answer (sub : Subscription) (now : Time) (m : Transmitter) :
    Except String (List Emission) × Transmitter :=
  match m.titlesFor sub now with
  | (.error error, m) => (.error error, m)
  | (.ok today, m) =>
    match m.titlesFor sub (now.addDays 1) with
    | (.error error, m) => (.error error, m)
    | (.ok tomorrow, m) =>
      let (wave, m) := m.takeTurn (today ++ tomorrow)
      (.ok wave, m)

/-- `titleWave`. -/
def titleWave (d : Registers) (now : Time) (m : Transmitter) :
    Except String (List Emission) × Transmitter :=
  match readSubscription d with
  | .error error => (.ok [], { m with lastSubscriptionErr := error })
  | .ok sub => { m with lastSubscriptionErr := "" }.answer sub now

end Transmitter

end Multiplex

end GoRetroTv
