import GoRetroTv.GreedyChoice
import GoRetroTv.ScheduleValidation
import GoRetroTv.TitleCarousel

/-!
# Where a day's programmes are filed

The records of a channel's day: each quarter holds the programmes that start in
it, in the order of the schedule, and leaves one out only if its section cannot
hold it beside those before it.  The event id of a programme is its position in
the schedule plus one, for as long as the sixteen bits last.
-/

namespace GoRetroTv

namespace Multiplex

open Broadcast

/-- A programme and its position in the schedule. -/
abbrev Entry := ListedProgramme × Nat

/-- The block of the day that a programme starts in. -/
def blockOf (entry : Entry) : Fin titleQuarters :=
  quarterOf entry.1.startOr

/-- A programme as a title record, `offset` seconds ahead of UTC. -/
def titleOf (offset : Int) (entry : Entry) : TitleRecord where
  eventID := BitVec.ofNat 16 (entry.2 + 1)
  start := ((entry.1.startOr - offset).tmod 86400 + 86400).tmod 86400
  duration := (entry.1.minutes * 60).bmod countLimit
  title := entry.1.title
  genre := entry.1.genre
  rating := entry.1.rating

/-- The London offset of a day, in seconds. -/
def dayOffset (day : Time) : Int :=
  (londonOffset day).offsetMinutes * 60

/-- A section of a service can hold these programmes. -/
def fitsSection (dict : Option HuffmanDictionary) (service : ListedService) (day : Time)
    (entries : List Entry) : Bool :=
  (titleSection 0xa0 service.listingsID (0, 0) 0 0 0 dict
    (entries.map (titleOf (dayOffset day)))).isOk

/-- The programmes of a quarter that its section holds, each in its turn if it
fits. -/
def held (dict : Option HuffmanDictionary) (service : ListedService) (day : Time)
    (quarter : Fin titleQuarters) : List Entry :=
  Greedy.choose (fitsSection dict service day) []
    (service.programmes.zipIdx.filter fun entry => decide (blockOf entry = quarter))

/-- Every programme that its quarter's section holds has a position below 65535. -/
def Numbered (dict : Option HuffmanDictionary) (service : ListedService) (day : Time) : Prop :=
  ∀ quarter, ∀ entry ∈ held dict service day quarter, entry.2 < 65535

section

variable {dict : Option HuffmanDictionary} {service : ListedService} {day : Time}

end

end Multiplex

end GoRetroTv
