import Mathlib.Data.List.Basic

/-!
# Frames on an escaped wire, and their interleavings

A payload is sent with each of its marks behind an escape, and ends with a
terminator.  The receiver keeps a frame when its terminator comes and ignores
an empty one.  A sender's queue holds the end of a frame that is leaving, and
whole frames after it; taking its bytes one by one hands the receiver exactly
those frames.
-/

namespace GoRetroTv

namespace EscapedFrames

variable {α : Type*}

/-- The two marks of a wire. -/
structure Marks (α : Type*) where
  terminator : α
  escape : α
  distinct : terminator ≠ escape

section Framing

variable [DecidableEq α] (marks : Marks α)

/-- One byte of a payload on the wire. -/
def escaped (a : α) : List α :=
  if a = marks.terminator ∨ a = marks.escape then [marks.escape, a] else [a]

/-- A payload on the wire. -/
def frame (payload : List α) : List α :=
  payload.flatMap (escaped marks) ++ [marks.terminator]

/-- The frames of payloads, one after another. -/
def wires (payloads : List (List α)) : List α :=
  payloads.flatMap (frame marks)

/-- What a receiver has: whole frames, the payload of the next, and whether an
escape has just come. -/
@[ext]
structure Received (α : Type*) where
  frames : List (List α) := []
  part : List α := []
  afterEscape : Bool := false
  deriving DecidableEq

/-- The end of a frame. -/
def Received.terminate (r : Received α) : Received α :=
  { r with frames := if r.part = [] then r.frames else r.frames ++ [r.part], part := [] }

/-- One byte off the wire. -/
def Received.take (r : Received α) (a : α) : Received α :=
  if r.afterEscape then { r with part := r.part ++ [a], afterEscape := false }
  else if a = marks.escape then { r with afterEscape := true }
  else if a = marks.terminator then r.terminate
  else { r with part := r.part ++ [a] }

/-- A stream of bytes off the wire. -/
def receive (bytes : List α) : Received α :=
  bytes.foldl (Received.take marks) {}

@[simp] theorem receive_nil : receive marks [] = {} := rfl

@[simp] theorem receive_snoc (bytes : List α) (a : α) :
    receive marks (bytes ++ [a]) = (receive marks bytes).take marks a := by
  simp [receive]

@[simp] theorem frame_nil : frame marks [] = [marks.terminator] := rfl

@[simp] theorem frame_cons (a : α) (payload : List α) :
    frame marks (a :: payload) = escaped marks a ++ frame marks payload := by
  simp [frame]

theorem frame_ne_nil (payload : List α) : frame marks payload ≠ [] := by
  simp [frame]

@[simp] theorem wires_nil : wires marks [] = [] := rfl

@[simp] theorem wires_cons (payload : List α) (payloads : List (List α)) :
    wires marks (payload :: payloads) = frame marks payload ++ wires marks payloads := by
  simp [wires]

theorem wires_append (some more : List (List α)) :
    wires marks (some ++ more) = wires marks some ++ wires marks more := by
  simp [wires]

theorem wires_eq_nil {payloads : List (List α)} (none : wires marks payloads = []) :
    payloads = [] := by
  cases payloads with
  | nil => rfl
  | cons payload payloads =>
    rw [wires_cons, List.append_eq_nil_iff] at none
    exact absurd none.1 (frame_ne_nil marks payload)

/-- The rest of a frame whose payload has `payload` still to come. -/
def remaining (afterEscape : Bool) (payload : List α) : List α :=
  match afterEscape, payload with
  | true, a :: payload => a :: frame marks payload
  | true, [] => frame marks []
  | false, payload => frame marks payload

/-- A queue holds the rest of the first payload, part of which the receiver has,
and whole frames of the others. -/
def Leaving (queue : List α) (r : Received α) (payloads : List (List α)) : Prop :=
  ∃ rest more, payloads = (r.part ++ rest) :: more ∧
    queue = remaining marks r.afterEscape rest ++ wires marks more ∧
    (r.afterEscape → rest ≠ [])

variable {marks} {queue : List α} {r : Received α} {payloads : List (List α)}

/-- What the receiver has of the frame that is leaving begins its payload. -/
theorem Leaving.part_begins (leaving : Leaving marks queue r payloads) (others : List (List α)) :
    r.part <+: (payloads ++ others).headD [] := by
  obtain ⟨rest, more, rfl, -, -⟩ := leaving
  exact ⟨rest, rfl⟩

theorem Leaving.queue_ne_nil (leaving : Leaving marks queue r payloads) : queue ≠ [] := by
  obtain ⟨rest, more, -, rfl, -⟩ := leaving
  cases r.afterEscape <;> cases rest <;> simp [remaining, frame_ne_nil]

/-- A frame joins the queue behind the one that is leaving. -/
theorem Leaving.offer (leaving : Leaving marks queue r payloads) (late : List (List α)) :
    Leaving marks (queue ++ wires marks late) r (payloads ++ late) := by
  obtain ⟨rest, more, rfl, rfl, escapes⟩ := leaving
  exact ⟨rest, more ++ late, rfl, by rw [wires_append, List.append_assoc], escapes⟩

/-- A queue of whole frames starts its first. -/
theorem Leaving.start (some : payloads ≠ []) (part : r.part = []) (plain : r.afterEscape = false) :
    Leaving marks (wires marks payloads) r payloads := by
  cases payloads with
  | nil => exact absurd rfl some
  | cons payload payloads =>
    refine ⟨payload, payloads, ?_, ?_, ?_⟩
    · rw [part, List.nil_append]
    · rw [plain, wires_cons]
      rfl
    · rw [plain]
      nofun

/-- The next byte of a frame that is leaving ends it, and the receiver has the
first payload whole, or the frame is still leaving and the byte was no end. -/
theorem Leaving.next {a : α} (leaving : Leaving marks (a :: queue) r payloads)
    (full : ∀ payload ∈ payloads, payload ≠ []) :
    (∃ payload more, payloads = payload :: more ∧ queue = wires marks more ∧
      r.take marks a = { frames := r.frames ++ [payload] } ∧
      r.afterEscape = false ∧ a = marks.terminator) ∨
    (Leaving marks queue (r.take marks a) payloads ∧ (r.take marks a).frames = r.frames ∧
      (r.afterEscape ∨ a ≠ marks.terminator)) := by
  obtain ⟨rest, more, rfl, held, escapes⟩ := leaving
  have first := full _ (.head _)
  cases after : r.afterEscape with
  | true =>
    -- The byte behind an escape is payload, whatever it is.
    cases rest with
    | nil => exact absurd rfl (escapes after)
    | cons b rest =>
      rw [after] at held
      obtain ⟨rfl, rfl⟩ : a = b ∧ queue = frame marks rest ++ wires marks more := by
        simpa [remaining] using held
      have taken : r.take marks a = { r with part := r.part ++ [a], afterEscape := false } := by
        simp [Received.take, after]
      rw [taken]
      exact .inr ⟨⟨rest, more, by simp, rfl, nofun⟩, rfl, .inl rfl⟩
  | false =>
    rw [after] at held
    cases rest with
    | nil =>
      rw [List.append_nil] at first ⊢
      obtain ⟨rfl, rfl⟩ : a = marks.terminator ∧ queue = wires marks more := by
        simpa [remaining] using held
      refine .inl ⟨r.part, more, rfl, rfl, ?_, rfl, rfl⟩
      simp [Received.take, Received.terminate, after, marks.distinct, first]
    | cons b rest =>
      by_cases mark : b = marks.terminator ∨ b = marks.escape
      · obtain ⟨rfl, rfl⟩ : a = marks.escape ∧
            queue = b :: (frame marks rest ++ wires marks more) := by
          simpa [remaining, escaped, mark] using held
        have taken : r.take marks marks.escape = { r with afterEscape := true } := by
          simp [Received.take, after]
        rw [taken]
        exact .inr ⟨⟨b :: rest, more, rfl, rfl, by simp⟩, rfl, .inr marks.distinct.symm⟩
      · obtain ⟨rfl, rfl⟩ : a = b ∧ queue = frame marks rest ++ wires marks more := by
          simpa [remaining, escaped, mark] using held
        obtain ⟨noEnd, noEscape⟩ := not_or.mp mark
        have taken : r.take marks a = { r with part := r.part ++ [a] } := by
          simp [Received.take, after, noEnd, noEscape]
        rw [taken]
        refine .inr ⟨⟨rest, more, by simp, ?_, ?_⟩, rfl, .inr noEnd⟩
        · rw [after]
          rfl
        · rw [after]
          nofun

end Framing

/-- A list made of two others, each in its own order. -/
inductive Interleaves : List α → List α → List α → Prop where
  | nil : Interleaves [] [] []
  | left (a : α) {first second merged : List α} :
      Interleaves first second merged → Interleaves (a :: first) second (a :: merged)
  | right (a : α) {first second merged : List α} :
      Interleaves first second merged → Interleaves first (a :: second) (a :: merged)

namespace Interleaves

variable {first second merged : List α}

theorem append {first' second' merged' : List α} (front : Interleaves first second merged)
    (back : Interleaves first' second' merged') :
    Interleaves (first ++ first') (second ++ second') (merged ++ merged') := by
  induction front with
  | nil => exact back
  | left a _ ih => exact ih.left a
  | right a _ ih => exact ih.right a

theorem first_only (first : List α) : Interleaves first [] first := by
  induction first with
  | nil => exact .nil
  | cons a first ih => exact ih.left a

theorem second_only (second : List α) : Interleaves [] second second := by
  induction second with
  | nil => exact .nil
  | cons a second ih => exact ih.right a

end Interleaves

end EscapedFrames

end GoRetroTv
