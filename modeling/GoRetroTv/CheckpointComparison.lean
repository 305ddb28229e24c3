import GoRetroTv.CheckpointStream
import Mathlib.Logic.Function.Basic

/-!
# Comparing two checkpoint streams

`internal/platform/statehash/compare.go`: the first window in which two streams disagree, and
the first where their states do.  The walk over the windows both cover goes on for as long as
it has fuel, since its counter wraps.
-/

namespace GoRetroTv

namespace Statehash

open Snapcodec

inductive Kind where
  | agree
  | stateDiverged
  | cadenceDiverged
  | windowMissing
  deriving DecidableEq

/-- One disagreement, at the window it was found in. -/
structure Finding where
  kind : Kind
  window : Nat
  lo : Nat
  hi : Nat
  atA : Checkpoint := ⟨0, 0⟩
  atB : Checkpoint := ⟨0, 0⟩
  hasA : Bool := false
  hasB : Bool := false
  deriving DecidableEq

structure Comparison where
  kind : Kind := .agree
  a : String
  b : String
  interval : Nat
  compared : Nat := 0
  cadence : Nat := 0
  window : Nat := 0
  lo : Nat := 0
  hi : Nat := 0
  atA : Checkpoint := ⟨0, 0⟩
  atB : Checkpoint := ⟨0, 0⟩
  hasA : Bool := false
  hasB : Bool := false
  firstState : Option Finding := none
  lastEqualBeforeFirstState : Option Checkpoint := none
  reachedA : Nat
  reachedB : Nat

/-- `Tier2Range`: the states that can contain the cause of the first difference. -/
def Comparison.tier2Range (c : Comparison) : Option (Nat × Nat) :=
  c.firstState.map fun f =>
    (match c.lastEqualBeforeFirstState with
      | some last => wrapAdd last.icount 1
      | none => 0,
    f.atA.icount)

/-- An instrument that could not look. -/
structure HarnessError where
  instrument : String
  subject : String
  detail : String
  err : String

/-- `Usable`: a stream from which something may be concluded. -/
def Stream.usable (s : Stream) : Except HarnessError Unit :=
  match s.checkpoints.getLast? with
  | none => .error {
      instrument := "checkpoint comparison"
      subject := s.name
      detail := "it carries no checkpoints, so every claim about it is vacuously true - " ++
        "including that it agreed with the other stream"
      err := "checkpoint stream carries no checkpoints" }
  | some last =>
      if s.complete then .ok ()
      else .error {
        instrument := "checkpoint comparison"
        subject := s.name
        detail := "it has no END line, so it stopped rather than finished; it " ++
          s!"reaches instruction {last.icount} and there is no way to tell that from a run " ++
          "that was meant to"
        err := "checkpoint stream is truncated" }

/-- `byWindow`: a later checkpoint of a window takes the place of an earlier one. -/
def Stream.byWindow (interval : Nat) (s : Stream) : Nat → Option Checkpoint :=
  s.checkpoints.foldl (fun m cp => Function.update m (cp.window interval) (some cp)) fun _ => none

def Stream.firstWindow (interval : Nat) (s : Stream) : Nat :=
  (s.checkpoints.head?.map (Checkpoint.window interval)).getD 0

def Stream.lastWindow (interval : Nat) (s : Stream) : Nat :=
  (s.checkpoints.getLast?.map (Checkpoint.window interval)).getD 0

def Stream.reached (s : Stream) : Nat :=
  (s.checkpoints.getLast?.map Checkpoint.icount).getD 0

/-- What the walk has found. -/
structure Walk where
  first : Option Finding := none
  firstState : Option Finding := none
  lastEqual : Option Checkpoint := none
  lastEqualBeforeFirstState : Option Checkpoint := none
  compared : Nat := 0
  cadence : Nat := 0

namespace Walk

def note (f : Finding) (k : Walk) : Walk :=
  let k := if k.first.isNone then { k with first := some f } else k
  if f.kind = .stateDiverged ∧ k.firstState.isNone then
    { k with
      firstState := some f
      lastEqualBeforeFirstState := k.lastEqual }
  else k

/-- A finding of a window, its instructions counted with the carry dropped. -/
def finding (interval w : Nat) (kind : Kind) : Finding where
  kind := kind
  window := w
  lo := w * interval % countLimit
  hi := ((w + 1) * interval + (countLimit - 1)) % countLimit

/-- A window of the walk. -/
def step (interval : Nat) (wa wb : Nat → Option Checkpoint) (w : Nat) (k : Walk) : Walk :=
  match wa w, wb w with
  | none, none => k
  | some ca, none => k.note { finding interval w .windowMissing with atA := ca, hasA := true }
  | none, some cb => k.note { finding interval w .windowMissing with atB := cb, hasB := true }
  | some ca, some cb =>
      if ca.icount ≠ cb.icount then
        { k with cadence := k.cadence + 1 }.note
          { finding interval w .cadenceDiverged with
            atA := ca, atB := cb, hasA := true, hasB := true }
      else if ca.hash ≠ cb.hash then
        k.note { finding interval w .stateDiverged with
          atA := ca, atB := cb, hasA := true, hasB := true }
      else { k with compared := k.compared + 1, lastEqual := some ca }

/-- The loop `for w := lo; w <= hi; w++`. -/
def run (interval : Nat) (wa wb : Nat → Option Checkpoint) (hi : Nat) :
    Nat → Nat → Walk → Option Walk
  | 0, _, _ => none
  | fuel + 1, w, k =>
      if w ≤ hi then run interval wa wb hi fuel (wrapAdd w 1) (step interval wa wb w k)
      else some k

end Walk

/-- What `Compare` makes of a walk. -/
def conclude (a b : Stream) (k : Walk) : Except HarnessError Comparison :=
  let out : Comparison := {
    a := a.name, b := b.name, interval := a.interval
    compared := k.compared, cadence := k.cadence
    reachedA := a.reached, reachedB := b.reached }
  match k.first with
  | some first => .ok { out with
      kind := first.kind
      window := first.window, lo := first.lo, hi := first.hi
      atA := first.atA, atB := first.atB, hasA := first.hasA, hasB := first.hasB
      firstState := k.firstState
      lastEqualBeforeFirstState := k.lastEqualBeforeFirstState }
  | none =>
      if k.compared = 0 then .error {
        instrument := "checkpoint comparison"
        subject := a.name ++ " against " ++ b.name
        detail := "the two streams overlap but no window had a state that could be compared in " ++
          "both, so nothing was actually compared"
        err := "checkpoint streams share no window" }
      else .ok out

/-- `Compare`, where its loop ends within the fuel. -/
def compare (fuel : Nat) (a b : Stream) : Option (Except HarnessError Comparison) :=
  match a.usable, b.usable with
  | .error error, _ => some (.error error)
  | .ok _, .error error => some (.error error)
  | .ok _, .ok _ =>
      if a.interval ≠ b.interval then some <| .error {
        instrument := "checkpoint comparison"
        subject := a.name ++ " against " ++ b.name
        detail := s!"{a.name} was sampled every {a.interval} instructions and {b.name} every " ++
          s!"{b.interval}; they would agree on the checkpoints they happen to share and say " ++
          "nothing at all about the rest"
        err := "checkpoint streams were taken at different intervals" }
      else
        let interval := a.interval
        let firstA := a.firstWindow interval
        let firstB := b.firstWindow interval
        let lastA := a.lastWindow interval
        let lastB := b.lastWindow interval
        if lastB < firstA ∨ lastA < firstB then some <| .error {
          instrument := "checkpoint comparison"
          subject := a.name ++ " against " ++ b.name
          detail := s!"{a.name} covers windows {firstA}..{lastA} and {b.name} covers " ++
            s!"{firstB}..{lastB}; they overlap nowhere, so there is nothing to compare"
          err := "checkpoint streams share no window" }
        else
          (Walk.run interval (a.byWindow interval) (b.byWindow interval) (min lastA lastB) fuel
            (max firstA firstB) {}).map (conclude a b)

end Statehash

end GoRetroTv
