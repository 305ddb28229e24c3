import GoRetroTv.NumberText
import GoRetroTv.TimeTables
import GoRetroTv.TitleSections

/-!
# The editable schedule

`internal/multiplex/listings.go`: the channels, their programmes and the guide
that holds a day's listings by its date; and from `multiplex.go` the London
offset, by which a programme's local time goes on the wire as UTC.
-/

namespace GoRetroTv

namespace Time

/-- `AddDate(0, 0, n)`, in UTC. -/
def addDays (n : Int) (t : Time) : Time :=
  { t with unix := t.unix + n * 86400 }

/-- `Before`. -/
def before (t other : Time) : Bool :=
  decide (t.unix < other.unix ∨ (t.unix = other.unix ∧ t.nanosecond < other.nanosecond))

/-- The day of a year that begins in March, counted from 1 March of year 0. -/
def marchYearDay (year day : Int) : Int :=
  365 * year + year / 4 - year / 100 + year / 400 + day

/-- The months in which the clocks change, by their last day after 1 March. -/
inductive ChangeMonth where
  | march
  | october

def ChangeMonth.lastDay : ChangeMonth → Int
  | .march => 30
  | .october => 244

/-- `lastSunday`: 01:00 UTC on the last Sunday of a month.  1 March of year 0 was a
Wednesday. -/
def lastSunday (year : Int) (month : ChangeMonth) : Time :=
  let last := marchYearDay year month.lastDay
  let sunday := last - (last + 3) % 7
  { unix := (sunday - 719468) * 86400 + 3600 }

/-- The calendar's year, month and day. -/
def date (t : Time) : Int × Int × Int :=
  let marchYear := if marchYearDay t.year 0 ≤ t.marchDay then t.year else t.year - 1
  let day := t.marchDay - marchYearDay marchYear 0
  let month := (5 * day + 2) / 153
  let dayOfMonth := day - (153 * month + 2) / 5 + 1
  if month < 10 then (marchYear, month + 3, dayOfMonth) else (marchYear + 1, month - 9, dayOfMonth)

/-- A number in at least as many digits. -/
def padded (width : Nat) (n : Int) : List Byte :=
  let digits := decimal n.natAbs
  (if n < 0 then [0x2d] else []) ++ List.replicate (width - digits.length) 0x30 ++ digits

/-- `Format(dateLayout)`, in UTC. -/
def dateText (t : Time) : List Byte :=
  let (year, month, day) := t.date
  padded 4 year ++ [0x2d] ++ padded 2 month ++ [0x2d] ++ padded 2 day

end Time

namespace Multiplex

open Broadcast Snapcodec

/-- `ProgrammeMedia`: a source the media pipeline can play. -/
structure ProgrammeMedia where
  kind : List Byte
  path : List Byte := []
  loop : Bool := false
  deriving DecidableEq

structure ListedProgramme where
  start : List Byte
  minutes : Int
  title : List Byte
  genre : Byte := 0
  rating : Byte := 0
  media : Option ProgrammeMedia := none
  deriving DecidableEq

structure ListedService where
  name : List Byte
  channel : Half := 0
  serviceID : Half := 0
  listingsID : Half
  rowAt8 : Byte := 0
  genre : Byte := 0
  rowAt10 : Byte := 0
  rowAt11 : Byte := 0
  flags : Byte := 0
  media : Option ProgrammeMedia := none
  programmes : List ListedProgramme

structure Listings where
  bouquet : List Byte := []
  services : List ListedService

/-- `StartSeconds`: the programme's start as seconds into the day. -/
def ListedProgramme.startSeconds (p : ListedProgramme) : Except String Int := do
  let start := quoted p.start
  if !p.start.contains 0x3a then
    throw s!"multiplex: start {start} is not HH:MM"
  let hours := p.start.takeWhile (· ≠ 0x3a)
  let minutes := (p.start.dropWhile (· ≠ 0x3a)).tail
  let h ← Broadcast.wrap s!"multiplex: start {start}: " (Strconv.atoi hours)
  let m ← Broadcast.wrap s!"multiplex: start {start}: " (Strconv.atoi minutes)
  if h < 0 ∨ 23 < h ∨ m < 0 ∨ 59 < m then
    throw s!"multiplex: start {start} is not a time of day"
  return h * 3600 + m * 60

/-- The schedules, by date, with one for every other date. -/
structure Guide (Schedule : Type) where
  byDate : List (List Byte × Schedule) := []
  fallback : Option Schedule := none

/-- `On`: the schedule of a day. -/
def Guide.on {Schedule : Type} (day : Time) (g : Guide Schedule) : Option Schedule :=
  (g.byDate.lookup day.dateText).orElse fun _ => g.fallback

/-- `londonOffset`: the UK's local-time rule for the instant given. -/
def londonOffset (at_ : Time) : TimeOffset :=
  let start := Time.lastSunday at_.year .march
  let finish := Time.lastSunday at_.year .october
  let offset : TimeOffset := {
    country := ascii "GBR"
    region := 0
    offsetMinutes := 0
    changeUTC := if at_.before start then start else Time.lastSunday (at_.year + 1) .march
    nextOffsetMinutes := 60 }
  if !at_.before start && at_.before finish then
    { offset with offsetMinutes := 60, changeUTC := finish, nextOffsetMinutes := 0 }
  else offset

/-- The modified Julian date of a day, as it is defined: 1970-01-01 is 40587. -/
def modifiedJulianDate (day : Time) : Int :=
  day.unix / 86400 + 40587

def mjdEpoch : Time where
  unix := -3506716800

/-- `MJDOf`: whole days since the epoch, by a `Duration`, which saturates. -/
def mjdOf (day : Time) : Int :=
  let elapsed := (day.unix / 86400 * 86400 - mjdEpoch.unix) * 1000000000
  let duration := max (-9223372036854775808) (min elapsed 9223372036854775807)
  duration.tdiv 86400000000000

/-- Within the sixteen bits the wire has for it, `MJDOf` is the date. -/
theorem mjdOf_eq {day : Time}
    (fits : 0 ≤ modifiedJulianDate day ∧ modifiedJulianDate day ≤ 65535) :
    mjdOf day = modifiedJulianDate day := by
  unfold modifiedJulianDate at fits
  unfold mjdOf modifiedJulianDate mjdEpoch
  have least : (-9223372036854775808 : Int) ≤
      (day.unix / 86400 * 86400 - -3506716800) * 1000000000 := by
    omega
  have greatest : (day.unix / 86400 * 86400 - -3506716800) * 1000000000 ≤ 9223372036854775807 := by
    omega
  dsimp only
  rw [min_eq_left greatest, max_eq_right least, Int.tdiv_eq_ediv_of_nonneg (by omega)]
  omega

/-- The time of day does not matter to `MJDOf`. -/
theorem mjdOf_congr {day other : Time} (same : day.unix / 86400 = other.unix / 86400) :
    mjdOf day = mjdOf other := by
  unfold mjdOf
  rw [same]

/-- Nor does it to the schedule of the day. -/
theorem Guide.on_congr {Schedule : Type} {day other : Time}
    (same : day.unix / 86400 = other.unix / 86400) (g : Guide Schedule) : g.on day = g.on other := by
  have march : day.marchDay = other.marchDay := by
    unfold Time.marchDay
    rw [same]
  have year : day.year = other.year := by
    unfold Time.year
    rw [march]
  unfold Guide.on Time.dateText Time.date
  rw [march, year]

end Multiplex

end GoRetroTv
