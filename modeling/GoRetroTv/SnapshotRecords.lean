import GoRetroTv.SnapshotCodecLaws

/-!
# Records that come back as they were or not at all

A writer either fails or has put down the fields it was given.  A restore that
accepts what such a writer wrote has read those fields, so a record restored
from its own snapshot is the same record, unless it is refused.
-/

namespace GoRetroTv

namespace Snapcodec

/-- The writer has put down exactly this payload, unless a write failed. -/
def Written (name : List Byte) (version : Half) (payload : List Byte) (w : Writer) : Prop :=
  w.err.isSome ∨ w = ⟨name, version, payload, none⟩

namespace Written

variable {name : List Byte} {version : Half} {payload : List Byte} {w : Writer}

theorem start (name : List Byte) (version : Half) :
    Written name version [] (newWriter name version) := by
  unfold newWriter
  split
  · exact .inl rfl
  · split
    · exact .inl rfl
    · exact .inr rfl

theorem append (written : Written name version payload w) (added : List Byte) :
    Written name version (payload ++ added) (w.append added) := by
  rcases written with failed | rfl
  · rw [Writer.append_failed failed]
    exact .inl failed
  · exact .inr rfl

theorem uint8 (written : Written name version payload w) (value : Byte) :
    Written name version (payload ++ bigEndian 1 value.toNat) (w.uint8 value) :=
  written.append _

theorem uint16 (written : Written name version payload w) (value : Half) :
    Written name version (payload ++ bigEndian 2 value.toNat) (w.uint16 value) :=
  written.append _

theorem uint32 (written : Written name version payload w) (value : Word) :
    Written name version (payload ++ bigEndian 4 value.toNat) (w.uint32 value) :=
  written.append _

theorem uint64 (written : Written name version payload w) (value : DoubleWord) :
    Written name version (payload ++ bigEndian 8 value.toNat) (w.uint64 value) :=
  written.append _

theorem bool (written : Written name version payload w) (value : Bool) :
    Written name version (payload ++ encodeBool value) (w.bool value) := by
  cases value with
  | false => exact written.append _
  | true => exact written.append _

theorem bytes (written : Written name version payload w) (value : List Byte) :
    Written name version (payload ++ encodeBytes value) (w.bytes value) := by
  rcases written with failed | rfl
  · rw [show w.bytes value = w by simp [Writer.bytes, failed]]
    exact .inl failed
  · by_cases fits : value.length < wordLimit
    · exact .inr (Writer.bytes_mk _ _ _ fits)
    · exact .inl (Writer.string_too_long _ _ _ fits)

theorem string (written : Written name version payload w) (value : List Byte) :
    Written name version (payload ++ encodeBytes value) (w.string value) :=
  written.bytes value

theorem words (written : Written name version payload w) (value : List Word) :
    Written name version (payload ++ encodeWords value) (w.words value) := by
  rcases written with failed | rfl
  · rw [show w.words value = w by simp [Writer.words, failed]]
    exact .inl failed
  · by_cases fits : value.length < wordLimit
    · exact .inr (Writer.words_mk _ _ _ fits)
    · left
      simp [Writer.words, fits]

/-- A field is written for each item of a list. -/
theorem foldl {α : Type} {step : Writer → α → Writer} (encode : α → List Byte)
    (one : ∀ {payload w} (item : α), Written name version payload w →
      Written name version (payload ++ encode item) (step w item))
    (written : Written name version payload w) (items : List α) :
    Written name version (payload ++ items.flatMap encode) (items.foldl step w) := by
  induction items generalizing payload w with
  | nil => simpa using written
  | cons item items ih =>
      have rest := ih (one item written)
      rwa [List.append_assoc, ← List.flatMap_cons] at rest

/-- What a blob that was written holds. -/
theorem blob {blob : List Byte} (written : Written name version payload w)
    (taken : w.blob = .ok blob) :
    name.length ≤ maxNameLen ∧ payload.length < wordLimit ∧
      blob = Writer.frame name version payload := by
  rcases written with failed | rfl
  · exact absurd taken (Writer.blob_failed failed blob)
  · exact Writer.eq_frame_of_blob taken

/-- A restore that accepts what was written has read it. -/
theorem restoredVersion {α : Type} {low high : Half} {label : String} {body : Half → Reading α}
    {blob : List Byte} {value result : α} (written : Written name version payload w)
    (taken : w.blob = .ok blob)
    (reads : payload.length < wordLimit → ReadsIfAccepted (body version) payload value)
    (accepted : restoringVersion blob name low high label body = .ok result) :
    result = value := by
  obtain ⟨nameFits, fits, rfl⟩ := written.blob taken
  exact value_of_restoringVersion_frame nameFits fits (reads fits) accepted

theorem restored {α : Type} {low high : Half} {label : String} {body : Reading α}
    {blob : List Byte} {value result : α} (written : Written name version payload w)
    (taken : w.blob = .ok blob)
    (reads : payload.length < wordLimit → ReadsIfAccepted body payload value)
    (accepted : restoring blob name low high label body = .ok result) :
    result = value :=
  written.restoredVersion taken reads accepted

end Written

/-- The same read a number of times. -/
def Reading.times {α : Type} (reading : Reading α) : Nat → Reading (List α)
  | 0 => pure []
  | count + 1 => do
      let value ← reading
      return value :: (← times reading count)

theorem ReadsIfAccepted.times {α : Type} {reading : Reading α} {encode : α → List Byte}
    (values : List α) (each : ∀ value ∈ values, ReadsIfAccepted reading (encode value) value) :
    ReadsIfAccepted (reading.times values.length) (values.flatMap encode) values := by
  induction values with
  | nil => exact .pure []
  | cons value values ih =>
      rw [List.length_cons, List.flatMap_cons]
      refine .bind (each value List.mem_cons_self) ?_
      refine .bind_last (ih fun later member => each later (List.mem_cons_of_mem _ member)) ?_
      exact .pure _

@[simp]
theorem encodeBool_length (value : Bool) : (encodeBool value).length = 1 := by
  cases value <;> rfl

end Snapcodec

end GoRetroTv
