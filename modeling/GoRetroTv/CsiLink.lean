import GoRetroTv.BoardInterrupts
import GoRetroTv.SnapshotRecords

/-!
# The front panel's serial link

`internal/device/csi/link.go` and `peripheral.go`: a one-byte receive register
with a paced incoming wire, on which the handset's frames and the modelled
card's replies leave for the guest, and the card's own de-framer for the bytes
the guest transmits.  What the card answers is configuration: a snapshot does
not hold it and a restore puts the default back.
-/

namespace GoRetroTv

namespace Csi

open Snapcodec Cpu

def irqMask : Word :=
  0x2000

def trafficInstructions : DoubleWord :=
  2100

def maxQueuedBytes : Nat :=
  4096

def idleInstructions : DoubleWord :=
  320000

def powerupTicks : DoubleWord :=
  120

/-- The codes a micro acknowledges; the source keeps them as bits. -/
abbrev AckPolicy :=
  Byte → Bool

def ackCodes (codes : List Byte) : AckPolicy :=
  fun code => codes.contains code

def defaultAckPolicy : AckPolicy :=
  ackCodes [0x52, 0x18, 0x41, 0x42]

structure Link where
  control : Word := 0
  interruptEnable : Word := 0
  data : Byte := 0
  ready : Bool := false
  queue : List Byte := []
  reply : List Byte := []
  transmitted : List Byte := []
  lastByteAt : DoubleWord := 0
  now : DoubleWord := 0
  powerAtTick : DoubleWord := 0
  timerTicks : DoubleWord := 0
  cardLive : Bool := false
  boxBusy : Bool := false
  txSeen : Bool := false
  frame : List Byte := []
  escaped : Bool := false
  inFrame : Bool := false
  sendingReply : Bool := false
  outEscaped : Bool := false
  ack : AckPolicy := defaultAckPolicy

/-- The link with its line to the board. -/
abbrev Attached := Link × Irq.Wire

/-- `Encode`: escape zeros and escapes, and end with a zero. -/
def encode (payload : List Byte) : List Byte :=
  payload.flatMap (fun b => if b = 0 ∨ b = 0x1b then [0x1b, b] else [b]) ++ [0]

namespace Link

def read (off : Word) (size : Size) (l : Link) : Word :=
  if size ≠ .word then 0
  else
    match off.toNat with
    | 0x00 => l.control
    | 0x10 => l.data.setWidth 32
    | 0x20 => if l.ready then 1 else 0
    | 0x30 => l.interruptEnable
    | _ => 0

def enabled (l : Link) : Bool :=
  l.control &&& 0x80 != 0 && l.interruptEnable &&& 1 != 0

/-- The level `updateLine` drives. -/
def line (l : Link) : Bool :=
  l.ready && l.interruptEnable &&& 1 != 0

def updateLine (wire : Irq.Wire) (l : Link) : Attached :=
  (l, wire.setLine irqMask l.line)

/-- `SetAckPolicy`. -/
def setAckPolicy (policy : AckPolicy) (l : Link) : Link :=
  { l with ack := policy }

/-- A payload byte of the guest's frame; a long frame loses its end. -/
def appendFrame (b : Byte) (l : Link) : Link :=
  if l.frame.length < 32 then { l with frame := l.frame ++ [b] } else l

/-- What the card answers to a command. -/
def answer (seq code : Byte) : List Byte :=
  match code.toNat with
  | 0x52 => [3, seq, code, 2]
  | 0x10 => [8, seq, code, 0, 0, 0, 0, 0, 0]
  | 0x44 => [4, seq, code, 1, 0xff]
  | _ => [2, seq, code]

/-- The end of a frame from the guest. -/
def acceptFrame (frame : List Byte) (l : Link) : Link :=
  let code := frame.getD 2 0
  if frame.length < 3 ∨ frame.length ≠ (frame.getD 0 0).toNat + 1 ∨ l.ack code = false then l
  else
    let wire := encode (answer (frame.getD 1 0) code)
    if wire.length ≤ maxQueuedBytes - l.reply.length then { l with reply := l.reply ++ wire } else l

/-- `accept`: de-frame one byte the guest has transmitted. -/
def accept (b : Byte) (l : Link) : Link :=
  if l.escaped then { l with escaped := false }.appendFrame b
  else if b = 0x1b then { l with escaped := true }
  else if b ≠ 0 then l.appendFrame b
  else { l with frame := [] }.acceptFrame l.frame

def write (off : Word) (size : Size) (value : Word) (wire : Irq.Wire) (l : Link) : Attached :=
  if size ≠ .word then (l, wire)
  else
    match off.toNat with
    | 0x00 => ({ l with control := value }, wire)
    | 0x10 =>
        if l.enabled then
          let b : Byte := value.setWidth 8
          let transmitted :=
            if l.transmitted.length < maxQueuedBytes then l.transmitted ++ [b] else l.transmitted
          ({ l with transmitted, boxBusy := b != 0, txSeen := true }.accept b, wire)
        else (l, wire)
    | 0x20 => if value &&& 1 = 0 then { l with ready := false }.updateLine wire else (l, wire)
    | 0x30 =>
        let l := { l with interruptEnable := value }
        let l :=
          if value &&& 1 ≠ 0 then
            { l with powerAtTick := l.timerTicks + powerupTicks, cardLive := false }
          else l
        l.updateLine wire
    | _ => (l, wire)

/-- `Queue`. -/
def enqueue (bytes : List Byte) (l : Link) : Except String Link :=
  if maxQueuedBytes - l.queue.length < bytes.length then
    .error s!"csi: receive queue exceeds {maxQueuedBytes} bytes"
  else .ok { l with queue := l.queue ++ bytes }

/-- `Key`: a handset frame. -/
def key (raw source : Byte) (l : Link) : Except String Link :=
  if 3 < source then .error s!"csi: key source {source.toNat} out of range"
  else l.enqueue (encode [5, 0x80, 2, 0, source <<< 4 ||| raw >>> 4, raw <<< 4])

/-- `advanceFrame`: the outbound framing after a byte has been presented. -/
def advanceFrame (b : Byte) (l : Link) : Link :=
  if l.outEscaped then { l with outEscaped := false, inFrame := true }
  else if b = 0x1b then { l with outEscaped := true, inFrame := true }
  else { l with inFrame := b != 0 }

/-- Where the next byte comes from. -/
inductive Source where
  | nothing
  | fromReply
  | fromQueue
  deriving DecidableEq

/-- The queue of a frame that has begun, else replies before handset frames. -/
def source (l : Link) : Source :=
  if l.inFrame ∧ l.sendingReply ∧ l.reply ≠ [] then .fromReply
  else if l.inFrame ∧ l.sendingReply = false ∧ l.queue ≠ [] then .fromQueue
  else if l.reply ≠ [] then .fromReply
  else if l.queue ≠ [] then .fromQueue
  else .nothing

/-- A queued byte may leave: the card is live, the guest has transmitted and a
byte's time has passed. -/
def mayPresent (now : DoubleWord) (l : Link) : Bool :=
  l.cardLive && l.txSeen && decide (trafficInstructions ≤ now - l.lastByteAt)

/-- The link with the byte it presents at an instant, if there is one. -/
def present (now : DoubleWord) (l : Link) : Option Link :=
  match l.source with
  | .fromReply =>
      if l.mayPresent now then
        let b := l.reply.headD 0
        some <| { l with
          data := b
          reply := l.reply.tail
          txSeen := false
          sendingReply := true }.advanceFrame b
      else none
  | .fromQueue =>
      if l.mayPresent now then
        let b := l.queue.headD 0
        some <| { l with
          data := b
          queue := l.queue.tail
          txSeen := false
          sendingReply := false }.advanceFrame b
      else none
  | .nothing =>
      let period := if l.boxBusy then trafficInstructions else idleInstructions
      if l.cardLive ∧ period ≤ now - l.lastByteAt then
        some { l with data := 0, inFrame := false, outEscaped := false }
      else none

/-- `Pump`: present at most one byte. -/
def pump (now boardTicks : DoubleWord) (wire : Irq.Wire) (l : Link) : Attached :=
  let l := { l with now, timerTicks := boardTicks }
  let l :=
    if l.powerAtTick ≠ 0 ∧ l.cardLive = false ∧ l.powerAtTick ≤ boardTicks then
      { l with cardLive := true }
    else l
  if l.enabled = false ∨ l.ready ∨ now < l.lastByteAt then (l, wire)
  else
    match l.present now with
    | some l => { l with ready := true, lastByteAt := now }.updateLine wire
    | none => (l, wire)

/-- `Reset`. -/
def reset (wire : Irq.Wire) : Attached :=
  ({} : Link).updateLine wire

def snapshot (l : Link) : Except String (List Byte) :=
  newWriter (ascii "csi-link") 5
    |>.words [l.control, l.interruptEnable]
    |>.uint8 l.data
    |>.bool l.ready
    |>.bytes l.queue
    |>.bytes l.reply
    |>.bytes l.transmitted
    |>.uint64 l.lastByteAt
    |>.uint64 l.now
    |>.uint64 l.powerAtTick
    |>.uint64 l.timerTicks
    |>.bool l.cardLive
    |>.bool l.boxBusy
    |>.bool l.txSeen
    |>.bool l.escaped
    |>.bytes l.frame
    |>.bool l.inFrame
    |>.bool l.sendingReply
    |>.bool l.outEscaped
    |>.blob

/-- The four words of an acknowledge policy, which are dropped. -/
def skipPolicy : Reading Unit := do
  let _ ← Reading.uint64
  let _ ← Reading.uint64
  let _ ← Reading.uint64
  let _ ← Reading.uint64

def readSnapshot (version : Half) : Reading Link := do
  let regs ← Reading.words
  let data ← Reading.uint8
  let ready ← Reading.bool
  let queue ← Reading.bytes
  let reply ← Reading.bytes
  let transmitted ← Reading.bytes
  let lastByteAt ← Reading.uint64
  let now ← Reading.uint64
  let powerAtTick ← Reading.uint64
  let timerTicks ← Reading.uint64
  let cardLive ← Reading.bool
  let boxBusy ← Reading.bool
  let txSeen ← Reading.bool
  let escaped ← Reading.bool
  let frame ← Reading.bytes
  let inFrame ← if 4 ≤ version then Reading.bool else pure false
  let sendingReply ← if 4 ≤ version then Reading.bool else pure false
  let outEscaped ← if 5 ≤ version then Reading.bool else pure false
  if version = 3 then skipPolicy else pure ()
  Reading.wrap "csi: restore: " Reading.done
  Reading.require
    (decide (regs.length = 2 ∧ queue.length ≤ maxQueuedBytes ∧ reply.length ≤ maxQueuedBytes ∧
      transmitted.length ≤ maxQueuedBytes ∧ frame.length ≤ 32))
    "csi: restore: invalid state"
  return {
    control := regs.getD 0 0
    interruptEnable := regs.getD 1 0
    data, ready, queue, reply, transmitted, lastByteAt, now, powerAtTick, timerTicks
    cardLive, boxBusy, txSeen, escaped, frame, inFrame, sendingReply, outEscaped
    ack := defaultAckPolicy }

/-- What `Restore` reads. -/
def decode (blob : List Byte) : Except String Link :=
  restoringVersion blob (ascii "csi-link") 3 5 "csi: restore: " readSnapshot

def restore (blob : List Byte) (wire : Irq.Wire) : Except String Attached := do
  let l ← decode blob
  return l.updateLine wire

def encodeLink (l : Link) : List Byte :=
  encodeWords [l.control, l.interruptEnable] ++
    (bigEndian 1 l.data.toNat ++
      (encodeBool l.ready ++
        (encodeBytes l.queue ++
          (encodeBytes l.reply ++
            (encodeBytes l.transmitted ++
              (bigEndian 8 l.lastByteAt.toNat ++
                (bigEndian 8 l.now.toNat ++
                  (bigEndian 8 l.powerAtTick.toNat ++
                    (bigEndian 8 l.timerTicks.toNat ++
                      (encodeBool l.cardLive ++
                        (encodeBool l.boxBusy ++
                          (encodeBool l.txSeen ++
                            (encodeBool l.escaped ++
                              (encodeBytes l.frame ++
                                (encodeBool l.inFrame ++
                                  (encodeBool l.sendingReply ++
                                    encodeBool l.outEscaped))))))))))))))))

theorem written (l : Link) :
    Written (ascii "csi-link") 5 (encodeLink l)
      (newWriter (ascii "csi-link") 5
        |>.words [l.control, l.interruptEnable]
        |>.uint8 l.data
        |>.bool l.ready
        |>.bytes l.queue
        |>.bytes l.reply
        |>.bytes l.transmitted
        |>.uint64 l.lastByteAt
        |>.uint64 l.now
        |>.uint64 l.powerAtTick
        |>.uint64 l.timerTicks
        |>.bool l.cardLive
        |>.bool l.boxBusy
        |>.bool l.txSeen
        |>.bool l.escaped
        |>.bytes l.frame
        |>.bool l.inFrame
        |>.bool l.sendingReply
        |>.bool l.outEscaped) := by
  have fields := (Written.start (ascii "csi-link") 5).words [l.control, l.interruptEnable]
    |>.uint8 l.data |>.bool l.ready |>.bytes l.queue |>.bytes l.reply |>.bytes l.transmitted
    |>.uint64 l.lastByteAt |>.uint64 l.now |>.uint64 l.powerAtTick |>.uint64 l.timerTicks
    |>.bool l.cardLive |>.bool l.boxBusy |>.bool l.txSeen |>.bool l.escaped |>.bytes l.frame
    |>.bool l.inFrame |>.bool l.sendingReply |>.bool l.outEscaped
  simpa only [encodeLink, List.nil_append, List.append_assoc] using fields

/-- The queues are within what a restore takes. -/
structure Bounded (l : Link) : Prop where
  queue : l.queue.length ≤ maxQueuedBytes
  reply : l.reply.length ≤ maxQueuedBytes
  transmitted : l.transmitted.length ≤ maxQueuedBytes
  frame : l.frame.length ≤ 32

def blobOf (l : Link) : List Byte :=
  Writer.frame (ascii "csi-link") 5 (encodeLink l)

section

variable {l : Link} (bounded : l.Bounded)
include bounded

theorem encodeLink_length_le : (encodeLink l).length ≤ 20000 := by
  have queue := bounded.queue
  have reply := bounded.reply
  have transmitted := bounded.transmitted
  have frame := bounded.frame
  simp only [encodeLink, List.length_append, encodeWords_length, encodeBytes_length,
    encodeBool_length, bigEndian_length, List.length_cons, List.length_nil]
  unfold maxQueuedBytes at queue reply transmitted
  omega

theorem encodeLink_fits : (encodeLink l).length < wordLimit :=
  (encodeLink_length_le bounded).trans_lt (by decide)

theorem snapshot_eq : l.snapshot = .ok (blobOf l) := by
  have queue : l.queue.length < wordLimit := bounded.queue.trans_lt (by decide)
  have reply : l.reply.length < wordLimit := bounded.reply.trans_lt (by decide)
  have transmitted : l.transmitted.length < wordLimit := bounded.transmitted.trans_lt (by decide)
  have frame : l.frame.length < wordLimit := bounded.frame.trans_lt (by decide)
  have registers : [l.control, l.interruptEnable].length < wordLimit := show 2 < wordLimit by decide
  rw [snapshot, newWriter_eq 5 (show ascii "csi-link" ≠ [] by decide) (by decide),
    Writer.words_mk _ _ _ registers, Writer.uint8_mk, Writer.bool_mk,
    Writer.bytes_mk _ _ _ queue, Writer.bytes_mk _ _ _ reply, Writer.bytes_mk _ _ _ transmitted,
    Writer.uint64_mk, Writer.uint64_mk, Writer.uint64_mk, Writer.uint64_mk,
    Writer.bool_mk, Writer.bool_mk, Writer.bool_mk, Writer.bool_mk,
    Writer.bytes_mk _ _ _ frame, Writer.bool_mk, Writer.bool_mk, Writer.bool_mk]
  simp only [List.nil_append, List.append_assoc]
  exact Writer.blob_mk _ _ _ (by decide) (encodeLink_fits bounded)

/-- The link accepts its own snapshot, with the answers its card starts with. -/
theorem decode_blobOf : decode (blobOf l) = .ok (l.setAckPolicy defaultAckPolicy) := by
  refine restoringVersion_frame (by decide) (encodeLink_fits bounded) (by decide) (by decide) ?_
  unfold readSnapshot encodeLink
  apply Parses.bind
    (.words (show [l.control, l.interruptEnable].length < wordLimit from show 2 < wordLimit by decide))
  apply Parses.bind (.uint8 _)
  apply Parses.bind (.bool _)
  apply Parses.bind (.bytes (bounded.queue.trans_lt (by decide)))
  apply Parses.bind (.bytes (bounded.reply.trans_lt (by decide)))
  apply Parses.bind (.bytes (bounded.transmitted.trans_lt (by decide)))
  apply Parses.bind (.uint64 _)
  apply Parses.bind (.uint64 _)
  apply Parses.bind (.uint64 _)
  apply Parses.bind (.uint64 _)
  apply Parses.bind (.bool _)
  apply Parses.bind (.bool _)
  apply Parses.bind (.bool _)
  apply Parses.bind (.bool _)
  apply Parses.bind (.bytes (bounded.frame.trans_lt (by decide)))
  simp only [show (4 : Half) ≤ 5 by decide, show (5 : Half) ≤ 5 by decide,
    show ¬(5 : Half) = 3 by decide, if_true, if_false]
  apply Parses.bind (.bool _)
  apply Parses.bind (.bool _)
  apply Parses.bind_last (.bool _)
  apply Parses.wrapDone
  apply Parses.require
  · rw [decide_eq_true_iff]
    exact ⟨rfl, bounded.queue, bounded.reply, bounded.transmitted, bounded.frame⟩
  exact Parses.pure [] _

end

/-- A link that accepts its own snapshot is the same link, but for what its card
answers. -/
theorem decode_snapshot {l restored : Link} {blob : List Byte} (taken : l.snapshot = .ok blob)
    (accepted : decode blob = .ok restored) : restored = l.setAckPolicy defaultAckPolicy := by
  refine l.written.restoredVersion taken (fun fits => ?_) accepted
  simp only [encodeLink, List.length_append, encodeBytes_length, encodeBool_length,
    bigEndian_length, ← Nat.add_assoc] at fits
  have queueFits : l.queue.length < wordLimit := by omega
  have replyFits : l.reply.length < wordLimit := by omega
  have transmittedFits : l.transmitted.length < wordLimit := by omega
  have frameFits : l.frame.length < wordLimit := by omega
  unfold readSnapshot encodeLink
  refine .bind (.of_reads (.words (show 2 < wordLimit by decide))) ?_
  refine .bind (.of_reads (.uint8 _)) ?_
  refine .bind (.of_reads (.bool _)) ?_
  refine .bind (.of_reads (.bytes queueFits)) ?_
  refine .bind (.of_reads (.bytes replyFits)) ?_
  refine .bind (.of_reads (.bytes transmittedFits)) ?_
  refine .bind (.of_reads (.uint64 _)) ?_
  refine .bind (.of_reads (.uint64 _)) ?_
  refine .bind (.of_reads (.uint64 _)) ?_
  refine .bind (.of_reads (.uint64 _)) ?_
  refine .bind (.of_reads (.bool _)) ?_
  refine .bind (.of_reads (.bool _)) ?_
  refine .bind (.of_reads (.bool _)) ?_
  refine .bind (.of_reads (.bool _)) ?_
  refine .bind (.of_reads (.bytes frameFits)) ?_
  simp only [show (4 : Half) ≤ 5 by decide, show (5 : Half) ≤ 5 by decide,
    show ¬(5 : Half) = 3 by decide, if_true, if_false]
  refine .bind (.of_reads (.bool _)) ?_
  refine .bind (.of_reads (.bool _)) ?_
  refine .bind_last (.of_reads (.bool _)) ?_
  refine .bind_check (.wrap .done) ?_
  exact .bind_check (.require _ _) (.pure _)

end Link

end Csi

end GoRetroTv
