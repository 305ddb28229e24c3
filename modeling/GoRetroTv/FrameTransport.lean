import GoRetroTv.FallibleActions
import GoRetroTv.MachineWords

/-!
# Frames to the browser

`internal/web/transport.go` hands each client the newest frame through a queue of one, and
the client's writer sends what has changed since the frame it wrote last.  `web/app.ts` and
`web/wire.ts` apply the messages.  The messages travel as JSON with their bytes in base64,
which both ends take from their libraries.
-/

namespace GoRetroTv

namespace Web

def frameWidth : Nat :=
  720

def frameHeight : Nat :=
  576

/-- `color.RGBA`. -/
structure Rgba where
  r : Byte := 0
  g : Byte := 0
  b : Byte := 0
  a : Byte := 0

/-- `image.Rectangle`. -/
structure Rectangle where
  minX : Int
  minY : Int
  maxX : Int
  maxY : Int
  deriving DecidableEq

/-- `image.Rect`, which puts the corners in order. -/
def imageRect (x0 y0 x1 y1 : Int) : Rectangle where
  minX := min x0 x1
  minY := min y0 y1
  maxX := max x0 x1
  maxY := max y0 y1

namespace Rectangle

def dx (r : Rectangle) : Nat :=
  (r.maxX - r.minX).toNat

def dy (r : Rectangle) : Nat :=
  (r.maxY - r.minY).toNat

def empty (r : Rectangle) : Bool :=
  decide (r.maxX ≤ r.minX ∨ r.maxY ≤ r.minY)

end Rectangle

def fullRect : Rectangle :=
  imageRect 0 0 frameWidth frameHeight

/-- `image.Paletted`.  A palette entry is what `color.RGBAModel` makes of it, or nil. -/
structure Paletted where
  rect : Rectangle := fullRect
  stride : Int := frameWidth
  pix : List Byte
  palette : List (Option Rgba)

/-- What a frame shows. -/
structure Picture where
  pixels : List Byte
  palette : List Byte
  alpha : List Byte
  deriving DecidableEq

namespace Paletted

def pixels (frame : Paletted) : List Byte :=
  (List.range frameHeight).flatMap fun y =>
    (frame.pix.drop (y * frame.stride.toNat)).take frameWidth

/-- A palette entry.  Those past the frame's own are transparent black. -/
def colour (i : Nat) (frame : Paletted) : Rgba :=
  frame.palette[i]?.join.getD {}

def colours (frame : Paletted) : List Byte :=
  (List.range 256).flatMap fun i => [(frame.colour i).r, (frame.colour i).g, (frame.colour i).b]

def alphas (frame : Paletted) : List Byte :=
  (List.range 256).map fun i => (frame.colour i).a

/-- The picture that `PushFrame` copies out of a frame. -/
def picture (frame : Paletted) : Except String Picture :=
  if frame.rect ≠ fullRect ∨ 256 < frame.palette.length then
    .error "web: expected a 720x576 indexed frame with at most 256 palette entries"
  else if frame.stride < frameWidth ∨
      frame.pix.length < (frameHeight - 1) * frame.stride + frameWidth then
    .error "web: incomplete indexed frame"
  else
    match frame.palette.findIdx? Option.isNone with
    | some i => .error s!"web: palette entry {i} has no colour"
    | none => .ok { pixels := frame.pixels, palette := frame.colours, alpha := frame.alphas }

end Paletted

structure FrameData where
  seq : DoubleWord := 0
  epoch : DoubleWord := 0
  picture : Picture

/-- The frame that `PushFrame` makes the latest, unless it shows what the latest shows.  The
epoch counts the changes of the palette. -/
def nextFrame (picture : Picture) : Option FrameData → Option FrameData
  | none => some { seq := 0, epoch := 0 + 1, picture }
  | some latest =>
      if latest.picture = picture then none
      else some {
        seq := latest.seq + 1
        epoch :=
          if latest.picture.palette ≠ picture.palette ∨ latest.picture.alpha ≠ picture.alpha then
            latest.epoch + 1
          else latest.epoch
        picture }

structure PaletteMessage where
  epoch : DoubleWord
  rgb : List Byte
  alpha : List Byte

structure FrameMessage where
  seq : DoubleWord
  x : Word
  y : Word
  w : Word
  h : Word
  epoch : DoubleWord
  pixels : List Byte

inductive Message where
  | palette (message : PaletteMessage)
  | frame (message : FrameMessage)

/-- The bounds that `dirtyRect` widens. -/
structure Bounds where
  left : Nat := frameWidth
  top : Nat := frameHeight
  right : Nat := 0
  bottom : Nat := 0

/-- The loop body of `dirtyRect`. -/
def Bounds.look (previous current : List Byte) (y x : Nat) (b : Bounds) : Bounds :=
  let i := y * frameWidth + x
  if previous.getD i 0 = current.getD i 0 then b
  else {
    left := if x < b.left then x else b.left
    top := if y < b.top then y else b.top
    right := if b.right < x + 1 then x + 1 else b.right
    bottom := if b.bottom < y + 1 then y + 1 else b.bottom }

def Bounds.scan (previous current : List Byte) : Bounds :=
  (List.range frameHeight).foldl
    (fun b y => (List.range frameWidth).foldl (fun b x => b.look previous current y x) b) {}

/-- The client's palette is not the frame's. -/
def newEpoch (previous : Option FrameData) (current : FrameData) : Bool :=
  previous.all fun previous => previous.epoch != current.epoch

def dirtyRect (previous : Option FrameData) (current : FrameData) : Rectangle :=
  match previous with
  | none => fullRect
  | some last =>
      if newEpoch previous current then fullRect
      else
        let b := Bounds.scan last.picture.pixels current.picture.pixels
        imageRect b.left b.top b.right b.bottom

/-- The rows of a rectangle, one after the other. -/
def cut (rect : Rectangle) (pixels : List Byte) : List Byte :=
  (List.range rect.dy).flatMap fun row =>
    (pixels.drop ((rect.minY.toNat + row) * frameWidth + rect.minX.toNat)).take rect.dx

def paletteMessage (current : FrameData) : PaletteMessage where
  epoch := current.epoch
  rgb := current.picture.palette
  alpha := current.picture.alpha

def frameMessage (rect : Rectangle) (current : FrameData) : FrameMessage where
  seq := current.seq
  x := BitVec.ofInt 32 rect.minX
  y := BitVec.ofInt 32 rect.minY
  w := BitVec.ofNat 32 rect.dx
  h := BitVec.ofNat 32 rect.dy
  epoch := current.epoch
  pixels := cut rect current.picture.pixels

/-- What `writeFrame` writes. -/
def writeFrame (previous : Option FrameData) (current : FrameData) : List Message :=
  let palettes := if newEpoch previous current then [.palette (paletteMessage current)] else []
  let rect := dirtyRect previous current
  if rect.empty then palettes else palettes ++ [.frame (frameMessage rect current)]

/-- `Number.MAX_SAFE_INTEGER`. -/
def maxSafeInteger : Nat :=
  9007199254740991

/-- `integer`.  What JSON carries here is never negative or fractional. -/
def integer (value : Nat) (name : String) (max : Nat) : Except String Unit :=
  if maxSafeInteger < value ∨ max < value then .error s!"invalid {name}" else .ok ()

/-- `bytes`, behind the base64. -/
def bytes (value : List Byte) (name : String) (expected : Nat) : Except String Unit :=
  if value.length ≠ expected then .error s!"invalid {name} length" else .ok ()

/-- `decodeServerMessage`. -/
def decodeServerMessage : Message → Except String Unit
  | .palette m => do
      integer m.epoch.toNat "palette epoch" maxSafeInteger
      bytes m.rgb "palette rgb" (256 * 3)
      bytes m.alpha "palette alpha" 256
  | .frame m => do
      integer m.seq.toNat "frame sequence" maxSafeInteger
      integer m.epoch.toNat "frame epoch" maxSafeInteger
      integer m.x.toNat "frame x" (frameWidth - 1)
      integer m.y.toNat "frame y" (frameHeight - 1)
      integer m.w.toNat "frame width" frameWidth
      integer m.h.toNat "frame height" frameHeight
      if m.w = 0 ∨ m.h = 0 ∨ frameWidth < m.x.toNat + m.w.toNat ∨
          frameHeight < m.y.toNat + m.h.toNat then
        throw "frame rectangle outside raster"
      bytes m.pixels "frame pixels" (m.w.toNat * m.h.toNat)

/-- What `app.ts` keeps of the screen. -/
structure Browser where
  framebuffer : List Byte
  palette : List Byte
  paletteAlpha : List Byte
  paletteEpoch : Int
  awaitingFullFrame : Bool

/-- `framebuffer.set` of bytes that fit. -/
def overwrite (offset : Nat) (values list : List Byte) : List Byte :=
  list.take offset ++ values ++ list.drop (offset + values.length)

namespace Browser

def handlePalette (m : PaletteMessage) (b : Browser) : Browser :=
  { b with
    awaitingFullFrame := b.awaitingFullFrame || decide ((m.epoch.toNat : Int) ≠ b.paletteEpoch)
    palette := m.rgb
    paletteAlpha := m.alpha
    paletteEpoch := m.epoch.toNat }

/-- The rows of a frame message, put where they belong. -/
def putRows (m : FrameMessage) (framebuffer : List Byte) : List Byte :=
  (List.range m.h.toNat).foldl
    (fun framebuffer row =>
      overwrite ((m.y.toNat + row) * frameWidth + m.x.toNat)
        ((m.pixels.drop (row * m.w.toNat)).take m.w.toNat) framebuffer)
    framebuffer

def handleFrame (m : FrameMessage) (b : Browser) : Except String Browser :=
  if (m.epoch.toNat : Int) ≠ b.paletteEpoch ∨ frameWidth < m.x.toNat + m.w.toNat ∨
      frameHeight < m.y.toNat + m.h.toNat ∨ m.pixels.length ≠ m.w.toNat * m.h.toNat then
    .error "The box sent a frame that does not match its screen or palette"
  else if b.awaitingFullFrame ∧ (m.x ≠ 0 ∨ m.y ≠ 0 ∨ m.w.toNat ≠ frameWidth ∨
      m.h.toNat ≠ frameHeight) then
    .error "The box did not send a complete screen after connecting"
  else
    .ok { b with framebuffer := putRows m b.framebuffer, awaitingFullFrame := false }

/-- `handleMessage`, for the messages that carry the screen. -/
def handleMessage (b : Browser) (message : Message) : Except String Browser := do
  decodeServerMessage message
  match message with
  | .palette m => return b.handlePalette m
  | .frame m => b.handleFrame m

/-- What `connect` leaves for a new socket.  The screen keeps what it showed. -/
structure Fresh (b : Browser) : Prop where
  sized : b.framebuffer.length = frameWidth * frameHeight
  paletteEpoch : b.paletteEpoch = -1
  awaitingFullFrame : b.awaitingFullFrame = true

/-- The browser shows the frame. -/
structure Shows (frame : FrameData) (b : Browser) : Prop where
  framebuffer : b.framebuffer = frame.picture.pixels
  palette : b.palette = frame.picture.palette
  paletteAlpha : b.paletteAlpha = frame.picture.alpha
  paletteEpoch : b.paletteEpoch = frame.epoch.toNat
  awaitingFullFrame : b.awaitingFullFrame = false

end Browser

/-- Where `PushFrame` is at a client's queue: it tries to send, takes out what is there, and
tries again. -/
inductive Offer where
  | idle
  | fresh (next : FrameData)
  | full (next : FrameData)
  | drained (next : FrameData)

/-- The broadcaster and one of its clients.  The browser's state is lost when a rule
throws. -/
structure Session where
  latest : Option FrameData := none
  offer : Offer := .idle
  queue : Option FrameData := none
  pending : Option FrameData := none
  last : Option FrameData := none
  browser : Except String Browser

/-- What happens next: a frame is pushed, the push goes on at the client's queue, or the
client's writer takes a frame or comes to a tick of its clock. -/
inductive Action where
  | push (frame : Paletted)
  | offer
  | take
  | tick

namespace Session

/-- `PushFrame` up to the clients' queues. -/
def publish (latest : Option FrameData) (frame : Paletted) : Option FrameData :=
  match frame.picture with
  | .error _ => none
  | .ok picture => nextFrame picture latest

/-- A client joins after some frames have been pushed. -/
def joined (earlier : List Paletted) (browser : Browser) : Session :=
  let latest := earlier.foldl (fun latest frame => (publish latest frame).or latest) none
  { latest, queue := latest, browser := .ok browser }

def write (current : FrameData) (s : Session) : Session :=
  { s with
    browser := s.browser >>= fun b => (writeFrame s.last current).foldlM Browser.handleMessage b
    last := some current
    pending := none }

/-- One step, where it can be taken.  A push waits for the one before it to finish. -/
def step (s : Session) : Action → Option Session
  | .push frame =>
      match s.offer with
      | .idle =>
          match publish s.latest frame with
          | none => some s
          | some next => some { s with latest := some next, offer := .fresh next }
      | _ => none
  | .offer =>
      match s.offer with
      | .idle => none
      | .fresh next =>
          if s.queue.isNone then some { s with queue := some next, offer := .idle }
          else some { s with offer := .full next }
      | .full next => some { s with queue := none, offer := .drained next }
      | .drained next =>
          -- the writer may have emptied the queue, but nobody else fills it
          if s.queue.isNone then some { s with queue := some next, offer := .idle }
          else some { s with offer := .idle }
  | .take =>
      match s.queue with
      | none => none
      | some frame =>
          let s := { s with queue := none, pending := some frame }
          if s.last.isNone then some (s.write frame) else some s
  | .tick =>
      match s.pending with
      | none => some s
      | some frame => some (s.write frame)

def run (s : Session) (actions : List Action) : Option Session :=
  actions.foldlM step s

end Session

end Web

end GoRetroTv
