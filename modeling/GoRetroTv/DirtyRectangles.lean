import GoRetroTv.FrameMessages

/-!
# The dirty rectangle as a bounding box

`dirtyRect` of `internal/web/transport.go` keeps four running bounds from reversed
sentinels.  Where two pictures differ the bounds close around the differences.  Where
they do not, the sentinels reach `image.Rect`, which puts them in order.
-/

namespace GoRetroTv

namespace Web

/-- Two frames differ in a pixel of the screen. -/
def Differs (previous current : FrameData) (x y : Nat) : Prop :=
  x < frameWidth ∧ y < frameHeight ∧
    previous.picture.pixels.getD (y * frameWidth + x) 0 ≠
      current.picture.pixels.getD (y * frameWidth + x) 0

/-- The rectangle is the bounding box of the differences, and an unchanged picture sends
nothing. -/
structure Bounding (previous current : FrameData) (rect : Rectangle) : Prop where
  contains : ∀ x y, Differs previous current x y →
    rect.minX ≤ x ∧ (x : Int) < rect.maxX ∧ rect.minY ≤ y ∧ (y : Int) < rect.maxY
  left : rect.empty = false → ∃ x y, Differs previous current x y ∧ rect.minX = x
  top : rect.empty = false → ∃ x y, Differs previous current x y ∧ rect.minY = y
  right : rect.empty = false → ∃ x y, Differs previous current x y ∧ rect.maxX = x + 1
  bottom : rect.empty = false → ∃ x y, Differs previous current x y ∧ rect.maxY = y + 1
  empty_iff : rect.empty = true ↔ ∀ x y, ¬Differs previous current x y
  silent : (∀ x y, ¬Differs previous current x y) → writeFrame (some previous) current = []

/-- Each bound is its sentinel or next to a difference. -/
structure Bounds.Touches (differs : Nat → Nat → Prop) (b : Bounds) : Prop where
  left : b.left = frameWidth ∨ ∃ x y, differs x y ∧ b.left = x
  top : b.top = frameHeight ∨ ∃ x y, differs x y ∧ b.top = y
  right : b.right = 0 ∨ ∃ x y, differs x y ∧ b.right = x + 1
  bottom : b.bottom = 0 ∨ ∃ x y, differs x y ∧ b.bottom = y + 1

variable {previous current : FrameData}

theorem Bounds.Touches.look {b : Bounds} {x y : Nat}
    (touches : b.Touches (Differs previous current)) (column : x < frameWidth)
    (row : y < frameHeight) :
    (b.look previous.picture.pixels current.picture.pixels y x).Touches
      (Differs previous current) := by
  by_cases clean : previous.picture.pixels.getD (y * frameWidth + x) 0 =
      current.picture.pixels.getD (y * frameWidth + x) 0
  · rw [Bounds.look_clean clean]
    exact touches
  · have here : Differs previous current x y := ⟨column, row, clean⟩
    rw [Bounds.look_dirty clean]
    constructor
    · rcases Nat.le_total x b.left with lower | higher
      · exact .inr ⟨x, y, here, Nat.min_eq_left lower⟩
      · exact (Nat.min_eq_right higher).symm ▸ touches.left
    · rcases Nat.le_total y b.top with lower | higher
      · exact .inr ⟨x, y, here, Nat.min_eq_left lower⟩
      · exact (Nat.min_eq_right higher).symm ▸ touches.top
    · rcases Nat.le_total b.right (x + 1) with lower | higher
      · exact .inr ⟨x, y, here, Nat.max_eq_right lower⟩
      · exact (Nat.max_eq_left higher).symm ▸ touches.right
    · rcases Nat.le_total b.bottom (y + 1) with lower | higher
      · exact .inr ⟨x, y, here, Nat.max_eq_right lower⟩
      · exact (Nat.max_eq_left higher).symm ▸ touches.bottom

theorem scan_touches :
    (Bounds.scan previous.picture.pixels current.picture.pixels).Touches
      (Differs previous current) := by
  unfold Bounds.scan
  refine foldl_keeps (fun y row b touches => ?_) ⟨.inl rfl, .inl rfl, .inl rfl, .inl rfl⟩
  exact foldl_keeps (fun x column b touches =>
    touches.look (List.mem_range.mp column) (List.mem_range.mp row)) touches

theorem dirtyRect_same (same : previous.epoch = current.epoch) :
    dirtyRect (some previous) current =
      imageRect (Bounds.scan previous.picture.pixels current.picture.pixels).left
        (Bounds.scan previous.picture.pixels current.picture.pixels).top
        (Bounds.scan previous.picture.pixels current.picture.pixels).right
        (Bounds.scan previous.picture.pixels current.picture.pixels).bottom := by
  have old : newEpoch (some previous) current = false := by
    unfold newEpoch
    rw [Option.all_some, same, bne_self_eq_false]
  unfold dirtyRect
  dsimp only
  rw [old, if_neg Bool.false_ne_true]

/-- With nothing to send the whole screen is sent. -/
theorem dirtyRect_unchanged (same : previous.epoch = current.epoch)
    (clean : ∀ x y, ¬Differs previous current x y) :
    dirtyRect (some previous) current = fullRect := by
  have touches := @scan_touches previous current
  rw [dirtyRect_same same]
  generalize Bounds.scan previous.picture.pixels current.picture.pixels = b at touches ⊢
  have none_touched {edge sentinel : Nat} {place : Nat → Nat → Nat}
      (touched : edge = sentinel ∨ ∃ x y, Differs previous current x y ∧ edge = place x y) :
      edge = sentinel :=
    touched.resolve_right fun ⟨x, y, differs, _⟩ => clean x y differs
  rw [@none_touched _ _ (fun x _ => x) touches.left, @none_touched _ _ (fun _ y => y) touches.top,
    @none_touched _ _ (fun x _ => x + 1) touches.right,
    @none_touched _ _ (fun _ y => y + 1) touches.bottom]
  decide

/-- Where the frames differ the rectangle closes around the differences. -/
theorem dirtyRect_bounding (same : previous.epoch = current.epoch) {x y : Nat}
    (differs : Differs previous current x y) :
    Bounding previous current (dirtyRect (some previous) current) := by
  have nonempty := (dirtyRect_onScreen (some previous) current).not_empty
  have proper := @scan_proper previous.picture.pixels current.picture.pixels
  have touches := @scan_touches previous current
  have holds {x y : Nat} (differs : Differs previous current x y) :=
    scan_holds differs.2.1 differs.1 differs.2.2
  have first := holds differs
  rw [dirtyRect_same same] at nonempty ⊢
  generalize Bounds.scan previous.picture.pixels current.picture.pixels = b at *
  have width : frameWidth = 720 := rfl
  have height : frameHeight = 576 := rfl
  unfold Bounds.Holds at first holds
  unfold Bounds.Proper at proper
  constructor
  · intro x y differs
    have := holds differs
    unfold imageRect
    dsimp only
    omega
  · intro _
    obtain ⟨x, y, differs, touched⟩ := touches.left.resolve_left (by omega)
    exact ⟨x, y, differs, by unfold imageRect; dsimp only; omega⟩
  · intro _
    obtain ⟨x, y, differs, touched⟩ := touches.top.resolve_left (by omega)
    exact ⟨x, y, differs, by unfold imageRect; dsimp only; omega⟩
  · intro _
    obtain ⟨x, y, differs, touched⟩ := touches.right.resolve_left (by omega)
    exact ⟨x, y, differs, by unfold imageRect; dsimp only; omega⟩
  · intro _
    obtain ⟨x, y, differs, touched⟩ := touches.bottom.resolve_left (by omega)
    exact ⟨x, y, differs, by unfold imageRect; dsimp only; omega⟩
  · rw [nonempty]
    exact ⟨fun empty => Bool.noConfusion empty, fun clean => (clean x y differs).elim⟩
  · exact fun clean => (clean x y differs).elim

/-- **The dirty rectangle.**  It is the bounding box of the differences exactly when there is
one. -/
theorem bounding_iff (previous current : FrameData) (same : previous.epoch = current.epoch) :
    Bounding previous current (dirtyRect (some previous) current) ↔
      ∃ x y, Differs previous current x y := by
  constructor
  · intro bounding
    by_contra clean
    have clean : ∀ x y, ¬Differs previous current x y := fun x y differs => clean ⟨x, y, differs⟩
    have empty := bounding.empty_iff.mpr clean
    rw [(dirtyRect_onScreen (some previous) current).not_empty] at empty
    exact Bool.noConfusion empty
  · intro ⟨x, y, differs⟩
    exact dirtyRect_bounding same differs

/-- A frame with one lit pixel, or none. -/
def spotted (lit : Byte) : FrameData where
  picture := {
    pixels := lit :: List.replicate (frameWidth * frameHeight - 1) 0
    palette := List.replicate (256 * 3) 0
    alpha := List.replicate 256 0 }

theorem bounding_spotted :
    (spotted 0).epoch = (spotted 1).epoch ∧
      Bounding (spotted 0) (spotted 1) (dirtyRect (some (spotted 0)) (spotted 1)) :=
  ⟨rfl, (bounding_iff (spotted 0) (spotted 1) rfl).mpr ⟨0, 0, by decide, by decide, by decide⟩⟩

/-- A client whose picture is unchanged is sent the whole of it. -/
theorem unchanged_sent :
    ¬∀ previous current : FrameData, previous.epoch = current.epoch →
      Bounding previous current (dirtyRect (some previous) current) := by
  intro always
  have clean : ∀ x y, ¬Differs (spotted 0) (spotted 0) x y := fun x y differs => differs.2.2 rfl
  have empty := (always (spotted 0) (spotted 0) rfl).empty_iff.mpr clean
  rw [dirtyRect_unchanged rfl clean] at empty
  exact absurd empty (by decide)

end Web

end GoRetroTv
