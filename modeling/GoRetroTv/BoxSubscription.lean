import GoRetroTv.DemuxRegisters
import GoRetroTv.ListedSchedule

/-!
# What the box is asking for

`internal/multiplex/request.go`: the ids in a section are what the guest has
programmed into the demultiplexer, so the transmitter reads them back off its
channels and match units.
-/

namespace GoRetroTv

namespace Demux

/-- One byte of a match unit's rule. -/
structure MatchByte where
  value : Byte
  mask : Byte
  deriving DecidableEq

/-- The PID of a channel register, unless the channel is cleared. -/
def channelPID (word : Word) : Option Half :=
  let pid := word &&& 0x1fff
  if pid = 0x1fff ∨ word >>> 13 = 0 then none else some (pid.setWidth 16)

namespace Registers

/-- `ArmedPIDs`: the PIDs of the enabled, programmed channels. -/
def armedPIDs (d : Registers) : List Half :=
  (List.range filterCount).filterMap fun ch =>
    let filter : Filter := BitVec.ofNat 5 ch
    if d.pidWritten filter = false ∨ d.enable 2 &&& 1 <<< ch = 0 then none
    else channelPID (d.pidChannels filter)

/-- `Match`: a unit's rule for one byte.  Units from 8 up keep theirs in the high
halfword. -/
def matchByte (unit byteIndex : Nibble) (d : Registers) : MatchByte :=
  let word := d.matchWords unit byteIndex
  let word := if 8 ≤ unit then word >>> 16 else word
  { value := (word >>> 8).setWidth 8, mask := word.setWidth 8 }

end Registers

end Demux

namespace Multiplex

open Broadcast Demux

/-- One listings filter: which services, which day, and where it arrives. -/
structure TitleRequest where
  tableID : Byte := 0
  tableMask : Byte := 0
  extension : Half
  extensionMask : Half
  filter : Byte × Byte
  pid : Half
  deriving DecidableEq

/-- A day's place in the rotation of eight title PIDs. -/
def titlePID (mjd : Int) : Half :=
  BitVec.ofNat 16 (0x30 ||| ((mjd.tmod 8 + 8).tmod 8).toNat)

/-- `DerivedTitleRequest`: a request for one channel that no match unit has made. -/
def derivedTitleRequest (mjd : Int) (listingsID : Half) : TitleRequest where
  extension := listingsID
  extensionMask := 0xffff
  filter := (BitVec.ofInt 8 (mjd >>> (8 : Nat)), BitVec.ofInt 8 mjd)
  pid := titlePID mjd

/-- `MJD`: the day a request is for. -/
def TitleRequest.mjd (r : TitleRequest) : Int :=
  (r.filter.1.toNat <<< 8 ||| r.filter.2.toNat : Nat)

/-- `Wants`: whether a channel is inside the request.  A zero mask is inside none. -/
def TitleRequest.wants (listingsID : Half) (r : TitleRequest) : Bool :=
  decide (r.extensionMask ≠ 0) &&
    decide (listingsID &&& r.extensionMask = r.extension &&& r.extensionMask)

structure Subscription where
  bouquetID : Half := 0
  networkID : Half := 0
  patArmed : Bool := false
  catArmed : Bool := false
  pmtArmed : Bool := false
  siArmed : Bool := false
  nitArmed : Bool := false
  eitArmed : Bool := false
  tunedServiceID : Half := 0
  indexArmed : Bool := false
  listingsPIDs : List Half := []
  titles : List TitleRequest := []
  deriving DecidableEq

/-- `Arms`. -/
def Subscription.arms (pid : Half) (s : Subscription) : Bool :=
  s.listingsPIDs.contains pid

def programmeMapPID : Half :=
  0x100

def eventPID : Half :=
  0x12

def indexPID : Half :=
  0x52

def standardPIDs : List Half :=
  [0x00, 0x01, 0x10, 0x11, 0x12, 0x14, 0x52]

/-- Whether a unit is a listings filter. -/
def isTitleUnit (m : MatchByte) : Bool :=
  m.mask != 0 && (decide (0xa0 ≤ m.value ∧ m.value ≤ 0xa4) || m.value == 0xb0)

def halfOf (high low : Byte) : Half :=
  high ++ low

/-- A unit's listings filter.  Its PID follows the day it names. -/
def titleRequestOf (d : Registers) (unit : Nibble) : TitleRequest :=
  let table := d.matchByte unit 0
  let extHigh := d.matchByte unit 1
  let extLow := d.matchByte unit 2
  let request : TitleRequest := {
    tableID := table.value
    tableMask := table.mask
    extension := halfOf extHigh.value extLow.value
    extensionMask := halfOf extHigh.mask extLow.mask
    filter := ((d.matchByte unit 6).value, (d.matchByte unit 7).value)
    pid := 0 }
  { request with pid := titlePID request.mjd }

/-- What `Read` takes from a unit that matches the present/following table. -/
def readTuned (d : Registers) (sub : Subscription) (unit : Nibble) :
    Except String Subscription := do
  let table := d.matchByte unit 0
  if ¬(table.value = 0x4e ∧ table.mask = 0xfe) then
    return sub
  let extHigh := d.matchByte unit 1
  let extLow := d.matchByte unit 2
  if extHigh.mask ≠ 0xff ∨ extLow.mask ≠ 0xff then
    throw s!"multiplex: EIT unit {unit.toNat} has no exact service id"
  let serviceID := halfOf extHigh.value extLow.value
  if sub.tunedServiceID ≠ 0 ∧ sub.tunedServiceID ≠ serviceID then
    throw (s!"multiplex: EIT units disagree on tuned service ({sub.tunedServiceID.toNat} and " ++
      s!"{serviceID.toNat})")
  return { sub with tunedServiceID := serviceID }

/-- What `Read` takes from one match unit. -/
def readUnit (d : Registers) (sub : Subscription) (unit : Nibble) : Except String Subscription := do
  let sub ← readTuned d sub unit
  if isTitleUnit (d.matchByte unit 0) then
    return { sub with titles := sub.titles ++ [titleRequestOf d unit] }
  else return sub

/-- The match units, in order. -/
def matchUnits : List Nibble :=
  (List.range 16).map (BitVec.ofNat 4)

/-- `Read`: what the box is asking for. -/
def readSubscription (d : Registers) : Except String Subscription := do
  let bouquet := d.matchByte 3 0
  if bouquet.value ≠ 0x4a ∨ bouquet.mask ≠ 0xff then
    throw ("multiplex: the box is not asking for a BAT (unit 3 is " ++
      s!"{hexText 2 bouquet.value.toNat}/{hexText 2 bouquet.mask.toNat}), " ++
      "so a bouquet id cannot be read off it")
  let high := d.matchByte 3 1
  let low := d.matchByte 3 2
  if high.mask ≠ 0xff ∨ low.mask ≠ 0xff then
    throw "multiplex: the box has no exact bouquet match, so the id cannot be read off it"
  let network := d.matchByte 1 0
  if network.value ≠ 0x40 then
    throw ("multiplex: the box is not asking for a NIT (unit 1 is " ++
      s!"{hexText 2 network.value.toNat}), " ++
      "so a network id cannot be read off it")
  let pids := d.armedPIDs
  let sub : Subscription := {
    bouquetID := halfOf high.value low.value
    networkID := halfOf (d.matchByte 1 1).value (d.matchByte 1 2).value
    patArmed := pids.contains 0x00
    catArmed := pids.contains 0x01
    pmtArmed := pids.contains programmeMapPID
    nitArmed := pids.contains 0x10
    siArmed := pids.contains 0x11
    eitArmed := pids.contains eventPID
    indexArmed := pids.contains indexPID
    listingsPIDs := (pids.filter fun pid => !standardPIDs.contains pid).mergeSort (· ≤ ·) }
  matchUnits.foldlM (readUnit d) sub

def titleQuarters : Nat :=
  4

/-- `QuarterOf`: the block a local time of day falls in. -/
def quarterOf (secondsOfDay : Int) : Fin titleQuarters :=
  ⟨((secondsOfDay.tmod 86400 + 86400).tmod 86400 / 21600).toNat, by
    have least := Int.lt_tmod_of_pos secondsOfDay (show (0 : Int) < 86400 by decide)
    rw [Int.tmod_eq_emod_of_nonneg (by omega)]
    unfold titleQuarters
    omega⟩

/-- `TitleTableID`: the table id a block's listings are carried under. -/
def titleTableID (quarter : Fin titleQuarters) : Byte :=
  0xa0 ||| BitVec.ofNat 8 quarter

end Multiplex

end GoRetroTv
