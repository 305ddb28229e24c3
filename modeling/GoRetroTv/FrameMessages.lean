import GoRetroTv.FrameTransport

/-!
# What the messages of a frame do

The rectangle of a frame message holds every pixel in which the frame differs from the one
before it.  So the browser, which shows that one, shows the frame after its messages.
-/

namespace GoRetroTv

namespace Web

section Rows

variable {α : Type} {f : Nat → List α} {width : Nat}

theorem flatMap_range_length {n : Nat} (rows : ∀ i < n, (f i).length = width) :
    ((List.range n).flatMap f).length = n * width := by
  induction n with
  | zero => rw [Nat.zero_mul]; rfl
  | succ n ih =>
    rw [List.range_succ, List.flatMap_append, List.length_append, List.flatMap_singleton,
      ih fun i before => rows i (Nat.lt_succ_of_lt before), rows n (Nat.lt_succ_self n),
      Nat.succ_mul]

/-- One row out of rows of one length. -/
theorem flatMap_range_row {n row : Nat} (rows : ∀ i < n, (f i).length = width)
    (inside : row < n) : (((List.range n).flatMap f).drop (row * width)).take width = f row := by
  induction n with
  | zero => cases inside
  | succ n ih =>
    have earlier : ∀ i < n, (f i).length = width := fun i before =>
      rows i (Nat.lt_succ_of_lt before)
    have length := flatMap_range_length earlier
    rw [List.range_succ, List.flatMap_append, List.flatMap_singleton]
    rcases Nat.lt_succ_iff_lt_or_eq.mp inside with before | rfl
    · have whole : row * width + width ≤ n * width := by
        rw [← Nat.succ_mul]
        exact Nat.mul_le_mul_right width before
      rw [List.drop_append_of_le_length (by omega), List.take_append_of_le_length,
        ih earlier before]
      rw [List.length_drop]
      omega
    · rw [← length, List.drop_left, List.take_of_length_le]
      exact Nat.le_of_eq (rows row inside)

/-- Bytes cut into rows, and joined again. -/
theorem rows_join {values : List α} {n : Nat} (whole : values.length = n * width) :
    (List.range n).flatMap (fun row => (values.drop (row * width)).take width) = values := by
  induction n generalizing values with
  | zero =>
    rw [Nat.zero_mul] at whole
    rw [List.length_eq_zero_iff.mp whole]
    rfl
  | succ n ih =>
    rw [Nat.succ_mul] at whole
    have rest : (values.drop width).length = n * width := by
      rw [List.length_drop]
      omega
    rw [List.range_succ_eq_map, List.flatMap_cons, List.flatMap_map, Nat.zero_mul, List.drop_zero]
    have later : (List.range n).flatMap (fun row => (values.drop ((row + 1) * width)).take width) =
        values.drop width := by
      rw [← ih rest]
      refine List.flatMap_congr fun row inside => ?_
      rw [List.drop_drop, Nat.succ_mul, Nat.add_comm]
    rw [later, List.take_append_drop]

end Rows

variable {values list previous current pixels : List Byte} {offset : Nat}

theorem overwrite_length (fits : offset + values.length ≤ list.length) :
    (overwrite offset values list).length = list.length := by
  unfold overwrite
  rw [List.length_append, List.length_append, List.length_take, List.length_drop]
  omega

theorem overwrite_getElem? (fits : offset + values.length ≤ list.length) (i : Nat) :
    (overwrite offset values list)[i]? =
      if offset ≤ i ∧ i < offset + values.length then values[i - offset]? else list[i]? := by
  have start : (list.take offset).length = offset := by
    rw [List.length_take]
    omega
  unfold overwrite
  rw [List.append_assoc]
  by_cases before : i < offset
  · rw [List.getElem?_append_left (by omega), List.getElem?_take_of_lt before, if_neg (by omega)]
  · rw [List.getElem?_append_right (by omega), start]
    by_cases inside : i < offset + values.length
    · rw [List.getElem?_append_left (by omega), if_pos (by omega)]
    · rw [List.getElem?_append_right (by omega), List.getElem?_drop, if_neg (by omega)]
      congr 1
      omega

/-- The point is inside the bounds. -/
def Bounds.Holds (y x : Nat) (b : Bounds) : Prop :=
  b.left ≤ x ∧ x < b.right ∧ b.top ≤ y ∧ y < b.bottom

/-- A dirty point widens the bounds. -/
theorem Bounds.look_dirty {b : Bounds} {y x : Nat}
    (dirty : previous.getD (y * frameWidth + x) 0 ≠ current.getD (y * frameWidth + x) 0) :
    b.look previous current y x = {
      left := min x b.left
      top := min y b.top
      right := max b.right (x + 1)
      bottom := max b.bottom (y + 1) } := by
  unfold Bounds.look
  dsimp only
  rw [if_neg dirty]
  congr 1 <;> split <;> omega

theorem Bounds.look_clean {b : Bounds} {y x : Nat}
    (clean : previous.getD (y * frameWidth + x) 0 = current.getD (y * frameWidth + x) 0) :
    b.look previous current y x = b :=
  if_pos clean

theorem Bounds.Holds.look {b : Bounds} {y x : Nat} (holds : b.Holds y x) (y' x' : Nat) :
    (b.look previous current y' x').Holds y x := by
  by_cases clean :
      previous.getD (y' * frameWidth + x') 0 = current.getD (y' * frameWidth + x') 0
  · rw [Bounds.look_clean clean]
    exact holds
  · obtain ⟨left, right, top, bottom⟩ := holds
    rw [Bounds.look_dirty clean]
    unfold Bounds.Holds
    dsimp only
    omega

theorem Bounds.holds_look {b : Bounds} {y x : Nat}
    (dirty : previous.getD (y * frameWidth + x) 0 ≠ current.getD (y * frameWidth + x) 0) :
    (b.look previous current y x).Holds y x := by
  rw [Bounds.look_dirty dirty]
  unfold Bounds.Holds
  dsimp only
  omega

/-- What a loop keeps. -/
theorem foldl_keeps {α β : Type} {property : β → Prop} {body : β → α → β} {list : List α}
    (keeps : ∀ value ∈ list, ∀ b, property b → property (body b value)) {b : β}
    (holds : property b) : property (list.foldl body b) := by
  induction list generalizing b with
  | nil => exact holds
  | cons value list ih =>
    exact ih (fun later member => keeps later (List.mem_cons_of_mem _ member))
      (keeps value List.mem_cons_self b holds)

/-- What one round of a loop brings about and every round keeps. -/
theorem foldl_brings {α β : Type} {property : β → Prop} {body : β → α → β} {list : List α}
    {value : α} (member : value ∈ list) (brings : ∀ b, property (body b value))
    (keeps : ∀ b, property b → ∀ value, property (body b value)) (b : β) :
    property (list.foldl body b) := by
  induction list generalizing b with
  | nil => cases member
  | cons first list ih =>
    rcases List.mem_cons.mp member with rfl | later
    · rw [List.foldl_cons]
      exact foldl_keeps (fun other _ b holds => keeps b holds other) (brings b)
    · exact ih later (body b first)

/-- Every dirty point is inside the bounds. -/
theorem scan_holds {y x : Nat} (row : y < frameHeight) (column : x < frameWidth)
    (dirty : previous.getD (y * frameWidth + x) 0 ≠ current.getD (y * frameWidth + x) 0) :
    (Bounds.scan previous current).Holds y x := by
  unfold Bounds.scan
  refine foldl_brings (List.mem_range.mpr row) (fun b => ?_) (fun b holds y' => ?_) _
  · exact foldl_brings (List.mem_range.mpr column) (fun b => Bounds.holds_look dirty)
      (fun b holds x' => holds.look y x') b
  · exact foldl_keeps (fun x' _ b holds => holds.look y' x') holds

/-- The bounds of nothing, or of something on the screen. -/
def Bounds.Proper (b : Bounds) : Prop :=
  (b.left = frameWidth ∧ b.top = frameHeight ∧ b.right = 0 ∧ b.bottom = 0) ∨
    (b.left < b.right ∧ b.right ≤ frameWidth ∧ b.top < b.bottom ∧ b.bottom ≤ frameHeight)

theorem Bounds.Proper.look {b : Bounds} {y x : Nat} (proper : b.Proper) (row : y < frameHeight)
    (column : x < frameWidth) : (b.look previous current y x).Proper := by
  by_cases clean : previous.getD (y * frameWidth + x) 0 = current.getD (y * frameWidth + x) 0
  · rw [Bounds.look_clean clean]
    exact proper
  · rw [Bounds.look_dirty clean]
    refine .inr ?_
    unfold Bounds.Proper at proper
    dsimp only
    omega

theorem scan_proper : (Bounds.scan previous current).Proper := by
  unfold Bounds.scan
  refine foldl_keeps (fun y row b proper => ?_) (.inl ⟨rfl, rfl, rfl, rfl⟩)
  exact foldl_keeps (fun x column b proper =>
    proper.look (List.mem_range.mp row) (List.mem_range.mp column)) proper

/-- A rectangle with something in it, inside the screen. -/
structure Rectangle.OnScreen (rect : Rectangle) : Prop where
  left : 0 ≤ rect.minX
  top : 0 ≤ rect.minY
  wide : rect.minX < rect.maxX
  high : rect.minY < rect.maxY
  right : rect.maxX ≤ frameWidth
  bottom : rect.maxY ≤ frameHeight

theorem fullRect_onScreen : fullRect.OnScreen := by
  constructor <;> decide

theorem dirtyRect_onScreen (previous : Option FrameData) (current : FrameData) :
    (dirtyRect previous current).OnScreen := by
  unfold dirtyRect
  split
  · exact fullRect_onScreen
  next last =>
    split
    · exact fullRect_onScreen
    · have proper := @scan_proper last.picture.pixels current.picture.pixels
      generalize Bounds.scan last.picture.pixels current.picture.pixels = b at proper
      have width : frameWidth = 720 := rfl
      have height : frameHeight = 576 := rfl
      unfold Bounds.Proper at proper
      dsimp only
      constructor <;> unfold imageRect <;> dsimp only <;> omega

namespace Rectangle.OnScreen

variable {rect : Rectangle}

theorem dx_le (onScreen : rect.OnScreen) : rect.minX.toNat + rect.dx ≤ frameWidth := by
  have := onScreen.left
  have := onScreen.wide
  have := onScreen.right
  unfold Rectangle.dx
  omega

theorem dy_le (onScreen : rect.OnScreen) : rect.minY.toNat + rect.dy ≤ frameHeight := by
  have := onScreen.top
  have := onScreen.high
  have := onScreen.bottom
  unfold Rectangle.dy
  omega

theorem dx_pos (onScreen : rect.OnScreen) : 0 < rect.dx := by
  have := onScreen.wide
  unfold Rectangle.dx
  omega

theorem dy_pos (onScreen : rect.OnScreen) : 0 < rect.dy := by
  have := onScreen.high
  unfold Rectangle.dy
  omega

theorem not_empty (onScreen : rect.OnScreen) : rect.empty = false := by
  have := onScreen.wide
  have := onScreen.high
  unfold Rectangle.empty
  rw [decide_eq_false_iff_not]
  omega

theorem row_fits (onScreen : rect.OnScreen) {row : Nat} (inside : row < rect.dy) :
    (rect.minY.toNat + row) * frameWidth + rect.minX.toNat + rect.dx ≤
      frameWidth * frameHeight := by
  have wide := onScreen.dx_le
  have high := onScreen.dy_le
  have whole : (rect.minY.toNat + row) * frameWidth + frameWidth ≤ frameHeight * frameWidth := by
    rw [← Nat.succ_mul]
    exact Nat.mul_le_mul_right frameWidth (by omega)
  rw [Nat.mul_comm frameWidth frameHeight]
  omega

end Rectangle.OnScreen

/-- The place is in a row of the rectangle. -/
def Rectangle.CoversTo (rect : Rectangle) (rows i : Nat) : Prop :=
  ∃ row < rows, (rect.minY.toNat + row) * frameWidth + rect.minX.toNat ≤ i ∧
    i < (rect.minY.toNat + row) * frameWidth + rect.minX.toNat + rect.dx

theorem Rectangle.OnScreen.covers {rect : Rectangle} {x y : Nat} (onScreen : rect.OnScreen)
    (column : rect.minX ≤ x ∧ x < rect.maxX) (row : rect.minY ≤ y ∧ y < rect.maxY) :
    rect.CoversTo rect.dy (y * frameWidth + x) := by
  have := onScreen.left
  have := onScreen.top
  refine ⟨y - rect.minY.toNat, ?_, ?_⟩
  · unfold Rectangle.dy
    omega
  · have here : rect.minY.toNat + (y - rect.minY.toNat) = y := by omega
    rw [here]
    unfold Rectangle.dx
    omega

/-- Every place in which the pixels differ is in the dirty rectangle. -/
theorem dirtyRect_covers {last current : FrameData} {i : Nat} (inside : i < frameWidth * frameHeight)
    (dirty : last.picture.pixels.getD i 0 ≠ current.picture.pixels.getD i 0) :
    (dirtyRect (some last) current).CoversTo (dirtyRect (some last) current).dy i := by
  have width : 0 < frameWidth := by decide
  have split_ : i / frameWidth * frameWidth + i % frameWidth = i := by
    rw [Nat.mul_comm]
    exact Nat.div_add_mod i frameWidth
  have column : i % frameWidth < frameWidth := Nat.mod_lt i width
  have row : i / frameWidth < frameHeight := Nat.div_lt_of_lt_mul inside
  have onScreen := dirtyRect_onScreen (some last) current
  rw [← split_] at dirty ⊢
  refine onScreen.covers ?_ ?_
  · unfold dirtyRect
    dsimp only
    split
    · exact ⟨Int.natCast_nonneg _, Int.ofNat_lt.mpr column⟩
    · obtain ⟨left, right, top, bottom⟩ := scan_holds row column dirty
      unfold imageRect
      dsimp only
      omega
  · unfold dirtyRect
    dsimp only
    split
    · exact ⟨Int.natCast_nonneg _, Int.ofNat_lt.mpr row⟩
    · obtain ⟨left, right, top, bottom⟩ := scan_holds row column dirty
      unfold imageRect
      dsimp only
      omega

theorem fullRect_covers {i : Nat} (inside : i < frameWidth * frameHeight) :
    fullRect.CoversTo fullRect.dy i := by
  have width : 0 < frameWidth := by decide
  have split_ : i / frameWidth * frameWidth + i % frameWidth = i := by
    rw [Nat.mul_comm]
    exact Nat.div_add_mod i frameWidth
  rw [← split_]
  exact fullRect_onScreen.covers
    ⟨Int.natCast_nonneg _, Int.ofNat_lt.mpr (Nat.mod_lt i width)⟩
    ⟨Int.natCast_nonneg _, Int.ofNat_lt.mpr (Nat.div_lt_of_lt_mul inside)⟩

/-- A row of the rectangle, cut out of a picture. -/
theorem cut_row {rect : Rectangle} {row : Nat} (onScreen : rect.OnScreen)
    (sized : pixels.length = frameWidth * frameHeight) (inside : row < rect.dy) :
    ((cut rect pixels).drop (row * rect.dx)).take rect.dx =
      (pixels.drop ((rect.minY.toNat + row) * frameWidth + rect.minX.toNat)).take rect.dx := by
  refine flatMap_range_row (fun i before => ?_) inside
  have fits := onScreen.row_fits before
  rw [List.length_take, List.length_drop]
  omega

theorem cut_length {rect : Rectangle} (onScreen : rect.OnScreen)
    (sized : pixels.length = frameWidth * frameHeight) :
    (cut rect pixels).length = rect.dx * rect.dy := by
  rw [Nat.mul_comm]
  refine flatMap_range_length fun i before => ?_
  have fits := onScreen.row_fits before
  rw [List.length_take, List.length_drop]
  omega

/-- The first rows of a rectangle of a picture, put on the screen. -/
def putRect (rect : Rectangle) (pixels : List Byte) (rows : Nat) (framebuffer : List Byte) :
    List Byte :=
  (List.range rows).foldl
    (fun framebuffer row =>
      overwrite ((rect.minY.toNat + row) * frameWidth + rect.minX.toNat)
        (((cut rect pixels).drop (row * rect.dx)).take rect.dx) framebuffer)
    framebuffer

/-- By induction on the rows: the screen shows the picture where they are. -/
theorem putRect_spec {rect : Rectangle} {framebuffer : List Byte} (onScreen : rect.OnScreen)
    (sized : pixels.length = frameWidth * frameHeight)
    (sizedBuffer : framebuffer.length = frameWidth * frameHeight) {rows : Nat}
    (inside : rows ≤ rect.dy) :
    (putRect rect pixels rows framebuffer).length = frameWidth * frameHeight ∧
      ∀ i, (rect.CoversTo rows i → (putRect rect pixels rows framebuffer)[i]? = pixels[i]?) ∧
        (¬ rect.CoversTo rows i →
          (putRect rect pixels rows framebuffer)[i]? = framebuffer[i]?) := by
  induction rows with
  | zero =>
    refine ⟨sizedBuffer, fun i => ⟨fun covered => ?_, fun _ => rfl⟩⟩
    obtain ⟨row, before, _⟩ := covered
    cases before
  | succ rows ih =>
    obtain ⟨length, shown⟩ := ih (by omega)
    have fits := onScreen.row_fits inside
    have next : putRect rect pixels (rows + 1) framebuffer =
        overwrite ((rect.minY.toNat + rows) * frameWidth + rect.minX.toNat)
          ((pixels.drop ((rect.minY.toNat + rows) * frameWidth + rect.minX.toNat)).take rect.dx)
          (putRect rect pixels rows framebuffer) := by
      rw [← cut_row onScreen sized inside]
      unfold putRect
      rw [List.range_succ, List.foldl_append, List.foldl_cons, List.foldl_nil]
    generalize start : (rect.minY.toNat + rows) * frameWidth + rect.minX.toNat = offset at *
    have window : ((pixels.drop offset).take rect.dx).length = rect.dx := by
      rw [List.length_take, List.length_drop]
      omega
    rw [next]
    refine ⟨(overwrite_length (by omega)).trans length, fun i => ?_⟩
    rw [overwrite_getElem? (by omega), window]
    constructor
    · rintro ⟨row, before, here⟩
      by_cases last : offset ≤ i ∧ i < offset + rect.dx
      · rw [if_pos last, List.getElem?_take_of_lt (by omega), List.getElem?_drop]
        congr 1
        omega
      · rw [if_neg last]
        refine (shown i).1 ⟨row, ?_, here⟩
        have apart : row ≠ rows := by
          rintro rfl
          rw [start] at here
          exact last here
        omega
    · intro uncovered
      have last : ¬(offset ≤ i ∧ i < offset + rect.dx) := by
        intro here
        rw [← start] at here
        exact uncovered ⟨rows, Nat.lt_succ_self rows, here⟩
      rw [if_neg last]
      refine (shown i).2 fun ⟨row, before, here⟩ => ?_
      exact uncovered ⟨row, Nat.lt_succ_of_lt before, here⟩

/-- What the wire and the browser ask of a frame. -/
structure FrameData.Sendable (frame : FrameData) : Prop where
  pixels : frame.picture.pixels.length = frameWidth * frameHeight
  palette : frame.picture.palette.length = 256 * 3
  alpha : frame.picture.alpha.length = 256
  seq : frame.seq.toNat ≤ maxSafeInteger
  epoch : frame.epoch.toNat ≤ maxSafeInteger

theorem integer_ok {value : Nat} {name : String} {max : Nat} (safe : value ≤ maxSafeInteger)
    (small : value ≤ max) : integer value name max = .ok () :=
  if_neg (by omega)

theorem bytes_ok {value : List Byte} {name : String} {expected : Nat}
    (length : value.length = expected) : bytes value name expected = .ok () :=
  if_neg (not_not.mpr length)

variable {current : FrameData} {rect : Rectangle} {b : Browser}

theorem handleMessage_palette (sendable : current.Sendable) :
    b.handleMessage (.palette (paletteMessage current)) =
      .ok (b.handlePalette (paletteMessage current)) := by
  unfold Browser.handleMessage decodeServerMessage
  dsimp only [paletteMessage]
  rw [integer_ok sendable.epoch sendable.epoch, bytes_ok sendable.palette, bytes_ok sendable.alpha]
  rfl

section Coordinates

variable (onScreen : rect.OnScreen)

include onScreen

theorem frameMessage_x : (frameMessage rect current).x.toNat = rect.minX.toNat := by
  have := onScreen.left
  have := onScreen.dx_le
  have width : frameWidth = 720 := rfl
  change (BitVec.ofInt 32 rect.minX).toNat = _
  rw [BitVec.toNat_ofInt]
  omega

theorem frameMessage_y : (frameMessage rect current).y.toNat = rect.minY.toNat := by
  have := onScreen.top
  have := onScreen.dy_le
  have height : frameHeight = 576 := rfl
  change (BitVec.ofInt 32 rect.minY).toNat = _
  rw [BitVec.toNat_ofInt]
  omega

theorem frameMessage_w : (frameMessage rect current).w.toNat = rect.dx := by
  have := onScreen.dx_le
  have width : frameWidth = 720 := rfl
  change (BitVec.ofNat 32 rect.dx).toNat = _
  rw [BitVec.toNat_ofNat, Nat.mod_eq_of_lt (by omega)]

theorem frameMessage_h : (frameMessage rect current).h.toNat = rect.dy := by
  have := onScreen.dy_le
  have height : frameHeight = 576 := rfl
  change (BitVec.ofNat 32 rect.dy).toNat = _
  rw [BitVec.toNat_ofNat, Nat.mod_eq_of_lt (by omega)]

end Coordinates

theorem ne_zero_of_toNat {value : Word} (positive : 0 < value.toNat) : value ≠ 0 := by
  rintro rfl
  cases positive

theorem decode_frame (sendable : current.Sendable) (onScreen : rect.OnScreen) :
    decodeServerMessage (.frame (frameMessage rect current)) = .ok () := by
  have wide := onScreen.dx_le
  have high := onScreen.dy_le
  have width : frameWidth = 720 := rfl
  have height : frameHeight = 576 := rfl
  have safe : maxSafeInteger = 9007199254740991 := rfl
  have columns := onScreen.dx_pos
  have rows := onScreen.dy_pos
  have length : (frameMessage rect current).pixels.length = rect.dx * rect.dy :=
    cut_length onScreen sendable.pixels
  have x := @frameMessage_x current rect onScreen
  have y := @frameMessage_y current rect onScreen
  have w := @frameMessage_w current rect onScreen
  have h := @frameMessage_h current rect onScreen
  have seq : (frameMessage rect current).seq.toNat ≤ maxSafeInteger := sendable.seq
  have epoch : (frameMessage rect current).epoch.toNat ≤ maxSafeInteger := sendable.epoch
  have inside : ¬((frameMessage rect current).w = 0 ∨ (frameMessage rect current).h = 0 ∨
      frameWidth < rect.minX.toNat + rect.dx ∨ frameHeight < rect.minY.toNat + rect.dy) := by
    rintro (noWidth | noHeight | outside | outside)
    · exact ne_zero_of_toNat (w ▸ columns) noWidth
    · exact ne_zero_of_toNat (h ▸ rows) noHeight
    · omega
    · omega
  unfold decodeServerMessage
  dsimp only
  rw [integer_ok seq seq, integer_ok epoch epoch, x, y, w, h, if_neg inside,
    integer_ok (by omega) (by omega), integer_ok (by omega) (by omega),
    integer_ok (by omega) (by omega), integer_ok (by omega) (by omega), bytes_ok length]
  rfl

/-- A rectangle of the picture goes where it belongs. -/
theorem handleMessage_frame (sendable : current.Sendable) (onScreen : rect.OnScreen)
    (epoch : b.paletteEpoch = current.epoch.toNat)
    (whole : b.awaitingFullFrame = true → rect = fullRect) :
    b.handleMessage (.frame (frameMessage rect current)) = .ok { b with
      framebuffer := putRect rect current.picture.pixels rect.dy b.framebuffer
      awaitingFullFrame := false } := by
  have length : (frameMessage rect current).pixels.length = rect.dx * rect.dy :=
    cut_length onScreen sendable.pixels
  have wide := onScreen.dx_le
  have high := onScreen.dy_le
  have x := @frameMessage_x current rect onScreen
  have y := @frameMessage_y current rect onScreen
  have w := @frameMessage_w current rect onScreen
  have h := @frameMessage_h current rect onScreen
  have put : Browser.putRows (frameMessage rect current) b.framebuffer =
      putRect rect current.picture.pixels rect.dy b.framebuffer := by
    unfold Browser.putRows putRect
    rw [x, y, w, h]
    rfl
  have matching : ¬(((frameMessage rect current).epoch.toNat : Int) ≠ b.paletteEpoch ∨
      frameWidth < rect.minX.toNat + rect.dx ∨ frameHeight < rect.minY.toNat + rect.dy ∨
      (frameMessage rect current).pixels.length ≠ rect.dx * rect.dy) := by
    rintro (other | outside | outside | short)
    · exact other epoch.symm
    · omega
    · omega
    · exact short length
  have complete : ¬(b.awaitingFullFrame = true ∧ ((frameMessage rect current).x ≠ 0 ∨
      (frameMessage rect current).y ≠ 0 ∨ rect.dx ≠ frameWidth ∨ rect.dy ≠ frameHeight)) := by
    rintro ⟨awaiting, part⟩
    rw [whole awaiting] at part
    rcases part with part | part | part | part
    · exact part rfl
    · exact part rfl
    · exact part rfl
    · exact part rfl
  unfold Browser.handleMessage
  rw [decode_frame sendable onScreen]
  change Browser.handleFrame (frameMessage rect current) b = _
  unfold Browser.handleFrame
  rw [x, y, w, h, if_neg matching, if_neg complete, put]

/-- Frames of one client in the order of their pushes. -/
structure FrameData.Before (earlier later : FrameData) : Prop where
  seq : earlier.seq.toNat ≤ later.seq.toNat
  epoch : earlier.epoch.toNat ≤ later.epoch.toNat
  palette : earlier.epoch = later.epoch → earlier.picture.palette = later.picture.palette
  alpha : earlier.epoch = later.epoch → earlier.picture.alpha = later.picture.alpha

/-- The browser is ready for what follows the frame written last. -/
def Browser.Ready : Option FrameData → Browser → Prop
  | none, b => b.Fresh
  | some last, b => b.Shows last

/-- With a new palette the whole screen is sent. -/
theorem shows_full (sendable : current.Sendable)
    (sized : b.framebuffer.length = frameWidth * frameHeight) :
    ∃ b', [Message.palette (paletteMessage current), .frame (frameMessage fullRect current)].foldlM
        Browser.handleMessage b = .ok b' ∧ b'.Shows current := by
  have epoch : (b.handlePalette (paletteMessage current)).paletteEpoch = current.epoch.toNat := rfl
  have shown := @handleMessage_frame current fullRect (b.handlePalette (paletteMessage current))
    sendable fullRect_onScreen epoch fun _ => rfl
  refine ⟨{ b.handlePalette (paletteMessage current) with
    framebuffer := putRect fullRect current.picture.pixels fullRect.dy b.framebuffer
    awaitingFullFrame := false }, ?_, ?_⟩
  · rw [List.foldlM_cons, handleMessage_palette sendable]
    change ((b.handlePalette _).handleMessage _ >>= fun b => pure b) = _
    rw [shown]
    rfl
  · refine ⟨?_, rfl, rfl, rfl, rfl⟩
    obtain ⟨length, put⟩ := putRect_spec fullRect_onScreen sendable.pixels sized
      (Nat.le_refl fullRect.dy)
    dsimp only
    refine List.ext_getElem? fun i => ?_
    by_cases inside : i < frameWidth * frameHeight
    · exact (put i).1 (fullRect_covers inside)
    · rw [List.getElem?_eq_none (by omega),
        List.getElem?_eq_none (by rw [sendable.pixels]; omega)]

/-- Under the palette of the frame before, the dirty rectangle is enough. -/
theorem shows_dirty {last : FrameData} (sendable : current.Sendable) (shows : b.Shows last)
    (sized : last.picture.pixels.length = frameWidth * frameHeight) (before : last.Before current)
    (same : last.epoch = current.epoch) :
    ∃ b', [Message.frame (frameMessage (dirtyRect (some last) current) current)].foldlM
        Browser.handleMessage b = .ok b' ∧ b'.Shows current := by
  have onScreen := dirtyRect_onScreen (some last) current
  have epoch : b.paletteEpoch = current.epoch.toNat := by rw [shows.paletteEpoch, same]
  have shown := @handleMessage_frame current (dirtyRect (some last) current) b sendable onScreen
    epoch fun awaiting => by
      rw [shows.awaitingFullFrame] at awaiting
      cases awaiting
  refine ⟨{ b with
    framebuffer := putRect (dirtyRect (some last) current) current.picture.pixels
      (dirtyRect (some last) current).dy b.framebuffer
    awaitingFullFrame := false }, ?_, ?_⟩
  · change (b.handleMessage _ >>= fun b => pure b) = _
    rw [shown]
    rfl
  · refine ⟨?_, ?_, ?_, epoch, rfl⟩
    · have sizedBuffer : b.framebuffer.length = frameWidth * frameHeight := by
        rw [shows.framebuffer, sized]
      obtain ⟨length, put⟩ := putRect_spec onScreen sendable.pixels sizedBuffer (Nat.le_refl _)
      refine List.ext_getElem? fun i => ?_
      by_cases covered : (dirtyRect (some last) current).CoversTo
          (dirtyRect (some last) current).dy i
      · exact (put i).1 covered
      · refine ((put i).2 covered).trans ?_
        rw [shows.framebuffer]
        by_cases inside : i < frameWidth * frameHeight
        · have clean : last.picture.pixels.getD i 0 = current.picture.pixels.getD i 0 := by
            by_contra dirty
            exact covered (dirtyRect_covers inside dirty)
          rw [List.getD_eq_getElem?_getD, List.getD_eq_getElem?_getD] at clean
          rw [List.getElem?_eq_getElem (by omega), List.getElem?_eq_getElem
            (by rw [sendable.pixels]; exact inside)] at clean ⊢
          exact congrArg some clean
        · rw [List.getElem?_eq_none (by omega),
            List.getElem?_eq_none (by rw [sendable.pixels]; omega)]
    · exact shows.palette.trans (before.palette same)
    · exact shows.paletteAlpha.trans (before.alpha same)

/-- **What a frame's messages do.**  A browser that is ready for them shows the frame. -/
theorem writeFrame_shows {previous : Option FrameData} (sendable : current.Sendable)
    (ready : b.Ready previous)
    (before : ∀ last, previous = some last → last.Sendable ∧ last.Before current) :
    ∃ b', (writeFrame previous current).foldlM Browser.handleMessage b = .ok b' ∧
      b'.Shows current := by
  have nonempty := (dirtyRect_onScreen previous current).not_empty
  unfold writeFrame
  dsimp only
  rw [nonempty, if_neg Bool.false_ne_true]
  cases previous with
  | none =>
    exact shows_full sendable ready.sized
  | some last =>
    obtain ⟨sent, before⟩ := before last rfl
    by_cases same : last.epoch = current.epoch
    · have old : newEpoch (some last) current = false := by
        unfold newEpoch
        rw [Option.all_some, same, bne_self_eq_false]
      rw [old, if_neg Bool.false_ne_true]
      exact shows_dirty sendable ready sent.pixels before same
    · have new : newEpoch (some last) current = true := by
        unfold newEpoch
        rw [Option.all_some, bne_iff_ne]
        exact same
      have full : dirtyRect (some last) current = fullRect := by
        unfold dirtyRect
        dsimp only
        rw [new, if_pos rfl]
      rw [new, if_pos rfl, full]
      refine shows_full sendable ?_
      rw [ready.framebuffer, sent.pixels]

end Web

end GoRetroTv
