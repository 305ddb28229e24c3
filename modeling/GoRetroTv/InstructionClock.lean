import GoRetroTv.ContainerHeap
import GoRetroTv.SnapshotCodec
import Mathlib.Data.List.Sort
import Mathlib.Data.Prod.Lex

/-!
# The instruction clock

`internal/platform/clock`: a counter of instructions and a schedule of events.
The queue and the map of live events share their events through pointers, so
the model has pointers too: `events` is the memory, `queue` and `live` hold
references into it, and each event records its own position in the queue.

A handler is opaque here (the type `H`).  What it does to the clock is left to
the runs of `InstructionClockRuns`, where any operation may happen while it
runs.
-/

namespace GoRetroTv

/-- A pointer to an event. -/
abbrev EventRef := Nat

/-- One scheduled event.  `index` is `none` where the source has -1. -/
structure Event (H : Type) where
  id : Nat
  name : List Byte
  due : Nat
  period : Nat
  seq : Nat
  fn : H
  index : Option Nat
  deriving DecidableEq

/-- The largest `uint64`, which stands for "nothing is due". -/
def noneDue : Nat :=
  countLimit - 1

structure Clock (H : Type) where
  icount : Nat := 0
  nextDue : Nat := noneDue
  queue : List EventRef := []
  live : List (Nat × EventRef) := []
  nextID : Nat := 0
  nextSeq : Nat := 0
  events : List (Event H) := []
  deriving DecidableEq

namespace Clock

variable {H : Type}

def new : Clock H :=
  {}

/-- The event behind a pointer. -/
def event? (c : Clock H) (ref : EventRef) : Option (Event H) :=
  c.events[ref]?

def modifyEvent (ref : EventRef) (change : Event H → Event H) (c : Clock H) : Clock H :=
  { c with events := c.events.modify ref change }

def setIndex (ref : EventRef) (index : Option Nat) (c : Clock H) : Clock H :=
  c.modifyEvent ref fun ev => { ev with index }

/-- The due instruction and the registration number at a queue position.  The
queue is never compared outside its length. -/
def dueSeq (c : Clock H) (position : Nat) : Nat × Nat :=
  match (c.queue[position]?).bind c.event? with
  | some ev => (ev.due, ev.seq)
  | none => (0, 0)

def less (c : Clock H) (i j : Nat) : Bool :=
  if (c.dueSeq i).1 ≠ (c.dueSeq j).1 then decide ((c.dueSeq i).1 < (c.dueSeq j).1)
  else decide ((c.dueSeq i).2 < (c.dueSeq j).2)

/-- The heap exchanges positions that the queue has: `removeQueue` refuses any
other, where the source's `Swap` panics. -/
def swap (c : Clock H) (i j : Nat) : Clock H :=
  match c.queue[i]?, c.queue[j]? with
  | some first, some second =>
      let c := { c with queue := (c.queue.set i second).set j first }
      let c := c.setIndex second (some i)
      c.setIndex first (some j)
  | _, _ => c

/-- The queue as `container/heap` sees it. -/
def heap : HeapInterface (Clock H) where
  len c := c.queue.length
  less := less
  swap := swap

/-- `heap.Push`. -/
def pushQueue (ref : EventRef) (c : Clock H) : Clock H :=
  let c := c.setIndex ref (some c.queue.length)
  let c := { c with queue := c.queue ++ [ref] }
  heap.up c (c.queue.length - 1)

/-- The queue's own `Pop`: take the last pointer off. -/
def dropLast (c : Clock H) : Clock H :=
  { c with queue := c.queue.dropLast }

/-- `heap.Pop`: the pointer and the clock without it. -/
def popQueue (c : Clock H) : Option (EventRef × Clock H) :=
  if c.queue.isEmpty then none
  else
    let sifted := heap.popSift c
    match sifted.queue.getLast? with
    | none => none
    | some ref => some (ref, sifted.dropLast)

/-- `heap.Remove`.  It panics at a position that the queue does not have. -/
def removeQueue (position : Nat) (c : Clock H) : Option (Clock H) :=
  if position < c.queue.length then some (heap.removeSift c position).dropLast else none

def refreshNextDue (c : Clock H) : Clock H :=
  match (c.queue.head?).bind c.event? with
  | some ev => { c with nextDue := ev.due }
  | none => { c with nextDue := noneDue }

/-- `add`: a sum that refuses to wrap. -/
def add (first second : Nat) : Except String Nat :=
  if first + second < countLimit then .ok (first + second)
  else .error s!"instruction counter would overflow: {first} + {second}"

/-- Map assignment. -/
def setLive (id : Nat) (ref : EventRef) (c : Clock H) : Clock H :=
  { c with live := (id, ref) :: c.live.filter fun entry => entry.1 ≠ id }

/-- `delete(c.live, id)`. -/
def deleteLive (id : Nat) (c : Clock H) : Clock H :=
  { c with live := c.live.filter fun entry => entry.1 ≠ id }

def schedule (name : List Byte) (due period : Nat) (fn : H) (c : Clock H) : Nat × Clock H :=
  let c := { c with nextID := wrapAdd c.nextID 1 }
  let ev : Event H := { id := c.nextID, name, due, period, seq := c.nextSeq, fn, index := some 0 }
  let ref := c.events.length
  let c := { c with nextSeq := wrapAdd c.nextSeq 1, events := c.events ++ [ev] }
  let c := c.setLive ev.id ref
  let c := c.pushQueue ref
  (ev.id, c.refreshNextDue)

def pastDue : String :=
  "event is due at or before the current instruction"

def zeroPeriod : String :=
  "periodic event needs a period of at least one instruction"

/-- `At`. -/
def at_ (due : Nat) (name : List Byte) (fn : Option H) (c : Clock H) :
    Except String Nat × Clock H :=
  match fn with
  | none => (.error s!"clock: {text name}: handler is nil", c)
  | some fn =>
      if due ≤ c.icount then
        (.error s!"clock: {text name}: {pastDue}: due {due}, now {c.icount}", c)
      else
        let (id, c) := c.schedule name due 0 fn
        (.ok id, c)

/-- `After`. -/
def after (delta : Nat) (name : List Byte) (fn : Option H) (c : Clock H) :
    Except String Nat × Clock H :=
  if delta = 0 then
    (.error s!"clock: {text name}: {pastDue}: delta 0, now {c.icount}", c)
  else
    match add c.icount delta with
    | .error error => (.error s!"clock: {text name}: {error}", c)
    | .ok due => c.at_ due name fn

/-- `Every`. -/
def every (period : Nat) (name : List Byte) (fn : Option H) (c : Clock H) :
    Except String Nat × Clock H :=
  if period = 0 then
    (.error s!"clock: {text name}: {zeroPeriod}", c)
  else
    match fn with
    | none => (.error s!"clock: {text name}: handler is nil", c)
    | some fn =>
        match add c.icount period with
        | .error error => (.error s!"clock: {text name}: {error}", c)
        | .ok due =>
            let (id, c) := c.schedule name due period fn
            (.ok id, c)

/-- `Cancel`: whether the event was still scheduled, and the clock.  An error is
the clock that a panic leaves. -/
def cancel (id : Nat) (c : Clock H) : Except (Clock H) (Bool × Clock H) :=
  match c.live.lookup id with
  | none => .ok (false, c)
  | some ref =>
      let c := c.deleteLive id
      match (c.event? ref).bind (·.index) with
      | none => .ok (true, c)
      | some position =>
          match c.removeQueue position with
          | none => .error c
          | some c =>
              let c := c.setIndex ref none
              .ok (true, c.refreshNextDue)

/-- The counting half of `Tick`: the target of the `fireDue` it goes on to, if
the event at the head is due. -/
def countTick (c : Clock H) : Except String (Option Nat) × Clock H :=
  if c.icount = noneDue then (.error "instruction counter would overflow", c)
  else
    let c := { c with icount := c.icount + 1 }
    if c.icount ≠ c.nextDue then (.ok none, c) else (.ok (some c.icount), c)

/-- The target of the `fireDue` that `Advance` goes on to. -/
def advanceTarget (n : Nat) (c : Clock H) : Except String Nat :=
  match add c.icount n with
  | .error error => .error s!"clock: advance by {n} from {c.icount}: {error}"
  | .ok target => .ok target

/-- The guard of the loop in `fireDue`. -/
def fireReady (target : Nat) (c : Clock H) : Bool :=
  decide (0 < c.queue.length) && decide (c.nextDue ≤ target)

/-- One turn of the loop in `fireDue`, up to the call of the handler: the event
taken off, whether its next due instruction overflowed, and the clock. -/
def fireNext (c : Clock H) : Option (Event H × Except String Unit × Clock H) := do
  let (ref, c) ← c.popQueue
  let ev ← c.event? ref
  let c := c.setIndex ref none
  let c := { c with icount := ev.due }
  if 0 < ev.period then
    match add ev.due ev.period with
    | .error error => return (ev, .error s!"clock: {text ev.name}: {error}", c)
    | .ok next =>
        let c := c.modifyEvent ref fun ev => { ev with due := next }
        let c := c.pushQueue ref
        return (ev, .ok (), c.refreshNextDue)
  else
    let c := c.deleteLive ev.id
    return (ev, .ok (), c.refreshNextDue)

section

open Snapcodec

def snapshotName : List Byte :=
  ascii "clock"

def snapshotVersion : Half :=
  1

def minSnapshotEventBytes : Nat :=
  36

def snapshotBaseBytes : Nat :=
  14 + snapshotName.length + 8 + 8 + 8 + 4

/-- The live events in registration order. -/
def liveEvents (c : Clock H) : List (Event H) :=
  (c.live.filterMap fun entry => c.event? entry.2).insertionSort fun first second =>
    first.seq ≤ second.seq

def writeEvent (ev : Event H) (w : Writer) : Writer :=
  w |>.count ev.id |>.string ev.name |>.count ev.due |>.count ev.period |>.count ev.seq

/-- `Snapshot`. -/
def snapshot (c : Clock H) : Except String (List Byte) :=
  let events := c.liveEvents
  if wordLimit - 1 < events.length then
    .error s!"clock: too many events to snapshot: {events.length}"
  else
    match events.find? fun ev => ev.name.isEmpty with
    | some ev => .error s!"clock: event {ev.id} has an empty handler name"
    | none =>
        let w := newWriter snapshotName snapshotVersion
        let w := w |>.count c.icount |>.count c.nextID |>.count c.nextSeq
          |>.uint32 (BitVec.ofNat 32 events.length)
        (events.foldl (fun w ev => writeEvent ev w) w).blob

/-- The events of a snapshot, checked one by one as they are read. -/
def readEvents (icount nextID nextSeq : Nat) (handlers : List Byte → Option H) :
    Nat → List (Event H) → Reading (List (Event H))
  | 0, read => pure read
  | remaining + 1, read => do
      let i := read.length
      let id ← Reading.count
      let name ← Reading.string
      let due ← Reading.count
      let period ← Reading.count
      let seq ← Reading.count
      Reading.wrap s!"clock: restore event {i}: " Reading.check
      Reading.require (decide (id ≠ 0 ∧ id ≤ nextID))
        s!"clock: restore event {i}: invalid ID {id} (next ID {nextID})"
      Reading.require (read.all fun ev => ev.id ≠ id)
        s!"clock: restore event {i}: duplicate ID {id}"
      Reading.require (decide (seq < nextSeq) && (read.getLast?.all fun ev => ev.seq < seq))
        s!"clock: restore event {i}: invalid registration sequence {seq}"
      Reading.require (decide (icount < due))
        s!"clock: restore event {i} ({text name}): {pastDue}: due {due}, now {icount}"
      Reading.require (!name.isEmpty) s!"clock: restore event {i}: empty handler name"
      match handlers name with
      | none => throw s!"clock: restore event {i}: no handler for {quoted name}"
      | some fn =>
          readEvents icount nextID nextSeq handlers remaining
            (read ++ [{ id, name, due, period, seq, fn, index := some 0 }])

/-- What `Restore` has decoded before it changes the clock. -/
structure Restored (H : Type) where
  icount : Nat
  nextID : Nat
  nextSeq : Nat
  events : List (Event H)

def readSnapshot (blobLength : Nat) (handlers : List Byte → Option H) :
    Reading (Restored H) := do
  let icount ← Reading.count
  let nextID ← Reading.count
  let nextSeq ← Reading.count
  let count ← Reading.uint32
  Reading.wrap "clock: restore: " Reading.check
  Reading.require (decide (count.toNat ≤ (blobLength - snapshotBaseBytes) / minSnapshotEventBytes))
    s!"clock: restore: event count {count.toNat} exceeds blob capacity"
  let events ← readEvents icount nextID nextSeq handlers count.toNat []
  Reading.wrap "clock: restore: " Reading.done
  return { icount, nextID, nextSeq, events }

/-- Install a decoded schedule: new events, their pointers in the order they
were read, and `heap.Init` over them. -/
def install (decoded : Restored H) (c : Clock H) : Clock H :=
  let refs := (List.range decoded.events.length).map fun i => c.events.length + i
  heap.init {
    icount := decoded.icount
    nextDue := c.nextDue
    queue := refs
    live := (decoded.events.map (·.id)).zip refs
    nextID := decoded.nextID
    nextSeq := decoded.nextSeq
    events := c.events ++ decoded.events }

/-- `Restore`. -/
def restore (blob : List Byte) (handlers : List Byte → Option H) (c : Clock H) :
    Except String (Clock H) := do
  let decoded ← restoring blob snapshotName snapshotVersion snapshotVersion "clock: restore: "
    (readSnapshot blob.length handlers)
  return (c.install decoded).refreshNextDue

end

end Clock

end GoRetroTv
