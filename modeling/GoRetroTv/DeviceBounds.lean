import GoRetroTv.CsiLink
import GoRetroTv.DmaSnapshot
import GoRetroTv.FlashCommands
import GoRetroTv.I2cSnapshot
import GoRetroTv.ModemUart
import GoRetroTv.SmartcardPort

/-!
# Bounds that the devices keep

The modem, the smartcard port, the CSI link, the flash parts and the video memory refuse a
snapshot whose queues are too long, whose command state is unknown or whose address is outside.
Whatever the guest and the board do with them, they stay within what they accept.
-/

namespace GoRetroTv

open Cpu

namespace Modem

namespace Uart

variable {u : Uart} {off : Word} {size : Size}

namespace Bounded

theorem read (bounded : u.Bounded) : (u.read off size).2.Bounded := by
  unfold Uart.read
  split
  · exact bounded
  · split
    · split
      · exact bounded
      · split
        · exact bounded
        next byte rest waiting =>
          have before := bounded.rx
          rw [waiting, List.length_cons] at before
          exact { bounded with rx := Nat.le_of_succ_le before }
    · split <;> exact bounded
    · exact bounded
    · exact bounded
    · exact bounded
    · exact bounded
    · exact { bounded with }
    · exact bounded

theorem accept (bounded : u.Bounded) (byte : Byte) : (u.accept byte).Bounded := by
  have tx : (if u.tx.length < maxBytes then u.tx ++ [byte] else u.tx).length ≤ maxBytes := by
    split
    next room =>
      rw [List.length_append, List.length_singleton]
      exact room
    · exact bounded.tx
  unfold Uart.accept
  dsimp only
  generalize (if u.tx.length < maxBytes then u.tx ++ [byte] else u.tx) = transmitted at tx
  split
  next answered =>
    refine { tx, rx := ?_ }
    rw [List.length_append]
    exact answered.2
  · exact { bounded with tx }

theorem write (bounded : u.Bounded) (value : Word) : (u.write off size value).Bounded := by
  unfold Uart.write
  dsimp only
  split
  · exact bounded
  · split
    · split
      · exact { bounded with }
      · exact bounded.accept _
    · split <;> exact { bounded with }
    · exact { bounded with }
    · exact { bounded with }
    · exact bounded

theorem pump (bounded : u.Bounded) (ticks : DoubleWord) (wire : Irq.Wire) :
    (u.pump ticks wire).1.Bounded := by
  unfold Uart.pump
  dsimp only
  split
  · exact { bounded with }
  · exact bounded

end Bounded

end Uart

end Modem

namespace Smartcard

namespace Port

variable {p : Port}

namespace Bounded

theorem answer (bounded : p.Bounded) (frame : List Byte) : (p.answer frame).Bounded := by
  unfold Port.answer
  dsimp only
  split
  · exact { bounded with frame := Nat.zero_le _ }
  next room =>
    refine { frame := Nat.zero_le _, reply := ?_ }
    rw [List.length_append, List.length_append, List.length_singleton]
    exact Nat.not_lt.mp room

theorem accept (bounded : p.Bounded) (byte : Byte) : (p.accept byte).Bounded := by
  unfold Port.accept
  split
  · exact bounded
  split
  · exact { bounded with frame := Nat.zero_le _ }
  next room =>
    have grown : (p.frame ++ [byte]).length ≤ maxFrameBytes := by
      rw [List.length_append, List.length_singleton]
      exact Nat.not_le.mp room
    have kept : Bounded { p with frame := p.frame ++ [byte] } := { bounded with frame := grown }
    dsimp only
    split
    · exact kept
    split
    · exact { bounded with frame := Nat.zero_le _ }
    split
    · exact kept
    · exact kept.answer _

theorem write (bounded : p.Bounded) (off : Word) (size : Size) (value : Word) :
    (p.write off size value).Bounded := by
  unfold Port.write
  split
  · exact bounded
  split
  · exact { bounded with }
  · exact { bounded with }
  · exact { bounded with }
  · have delayed : Bounded { p with txDelay := byteInstructions } := { bounded with }
    exact delayed.accept _
  · exact { bounded with }
  · exact { bounded with }
  · exact bounded

theorem pumpTransmit (bounded : p.Bounded) (batch : DoubleWord) :
    (p.pumpTransmit batch).Bounded := by
  unfold Port.pumpTransmit
  split
  · exact bounded
  split <;> exact { bounded with }

theorem pumpReceive (bounded : p.Bounded) (batch : DoubleWord) :
    (p.pumpReceive batch).Bounded := by
  unfold Port.pumpReceive
  split
  · exact bounded
  next byte rest waiting =>
    have before := bounded.reply
    rw [waiting, List.length_cons] at before
    split
    · exact bounded
    split
    · exact { bounded with reply := Nat.le_of_succ_le before }
    split
    · exact { bounded with }
    · exact { bounded with }

theorem pump (bounded : p.Bounded) (batch : DoubleWord) (wire : Irq.Wire) :
    (p.pump batch wire).1.Bounded :=
  (bounded.pumpTransmit batch).pumpReceive batch

end Bounded

end Port

end Smartcard

namespace Csi

namespace Link

variable {l : Link}

namespace Bounded

theorem appendFrame (bounded : l.Bounded) (b : Byte) : (l.appendFrame b).Bounded := by
  unfold Link.appendFrame
  split
  next room =>
    refine { bounded with frame := ?_ }
    rw [List.length_append, List.length_singleton]
    exact room
  · exact bounded

theorem acceptFrame (bounded : l.Bounded) (frame : List Byte) : (l.acceptFrame frame).Bounded := by
  unfold Link.acceptFrame
  dsimp only
  split
  · exact bounded
  split
  next room =>
    refine { bounded with reply := ?_ }
    have before := bounded.reply
    rw [List.length_append]
    omega
  · exact bounded

theorem accept (bounded : l.Bounded) (b : Byte) : (l.accept b).Bounded := by
  unfold Link.accept
  split
  · have plain : Bounded { l with escaped := false } := { bounded with }
    exact plain.appendFrame b
  split
  · exact { bounded with }
  split
  · exact bounded.appendFrame b
  · have ended : Bounded { l with frame := [] } := { bounded with frame := Nat.zero_le _ }
    exact ended.acceptFrame _

theorem write (bounded : l.Bounded) (off : Word) (size : Size) (value : Word) (wire : Irq.Wire) :
    (l.write off size value wire).1.Bounded := by
  unfold Link.write
  split
  · exact bounded
  split
  · exact { bounded with }
  · split
    · have transmitted (b : Byte) :
          (if l.transmitted.length < maxQueuedBytes then l.transmitted ++ [b]
            else l.transmitted).length ≤ maxQueuedBytes := by
        split
        next room =>
          rw [List.length_append, List.length_singleton]
          exact room
        · exact bounded.transmitted
      have sent (b : Byte) : Bounded { l with
          transmitted :=
            if l.transmitted.length < maxQueuedBytes then l.transmitted ++ [b] else l.transmitted
          boxBusy := b != 0
          txSeen := true } :=
        { bounded with transmitted := transmitted b }
      exact (sent _).accept _
    · exact bounded
  · split
    · exact { bounded with }
    · exact bounded
  · dsimp only [updateLine]
    split <;> exact { bounded with }
  · exact bounded

theorem enqueue (bounded : l.Bounded) {bytes : List Byte} {queued : Link}
    (accepted : l.enqueue bytes = .ok queued) : queued.Bounded := by
  unfold Link.enqueue at accepted
  split_ifs at accepted with room
  cases accepted
  refine { bounded with queue := ?_ }
  have before := bounded.queue
  rw [List.length_append]
  omega

theorem key (bounded : l.Bounded) {raw source : Byte} {queued : Link}
    (accepted : l.key raw source = .ok queued) : queued.Bounded := by
  unfold Link.key at accepted
  split_ifs at accepted with range
  exact bounded.enqueue accepted

theorem advanceFrame (bounded : l.Bounded) (b : Byte) : (l.advanceFrame b).Bounded := by
  unfold Link.advanceFrame
  split
  · exact { bounded with }
  split <;> exact { bounded with }

theorem present (bounded : l.Bounded) {now : DoubleWord} {presented : Link}
    (presents : l.present now = some presented) : presented.Bounded := by
  have shorter {queue : List Byte} (fits : queue.length ≤ maxQueuedBytes) :
      queue.tail.length ≤ maxQueuedBytes := by
    rw [List.length_tail]
    omega
  unfold Link.present at presents
  split at presents
  · split_ifs at presents
    cases presents
    have taken : Bounded { l with
        data := l.reply.headD 0
        reply := l.reply.tail
        txSeen := false
        sendingReply := true } :=
      { bounded with reply := shorter bounded.reply }
    exact taken.advanceFrame _
  · split_ifs at presents
    cases presents
    have taken : Bounded { l with
        data := l.queue.headD 0
        queue := l.queue.tail
        txSeen := false
        sendingReply := false } :=
      { bounded with queue := shorter bounded.queue }
    exact taken.advanceFrame _
  · dsimp only at presents
    split_ifs at presents <;> cases presents <;> exact { bounded with }

theorem pump (bounded : l.Bounded) (now ticks : DoubleWord) (wire : Irq.Wire) :
    (l.pump now ticks wire).1.Bounded := by
  unfold Link.pump
  generalize started : (if l.powerAtTick ≠ 0 ∧ l.cardLive = false ∧ l.powerAtTick ≤ ticks then
    { l with now, timerTicks := ticks, cardLive := true }
    else { l with now, timerTicks := ticks }) = powered
  have held : powered.Bounded := by
    rw [← started]
    split <;> exact { bounded with }
  dsimp only
  rw [started]
  split
  · exact held
  · split
    next presented presents =>
      have after := held.present presents
      exact { after with }
    · exact held

end Bounded

end Link

end Csi

namespace Memory

namespace Flash

variable {f : Flash} {s : Sequencer} {off value : Word} {size : Size}

theorem validCommand_setCommand (encodable : Encodable s) :
    validCommand (f.setCommand s).command = true := by
  obtain ⟨mode, seq, program, erase⟩ := s
  obtain ⟨isMode, isSeq⟩ := encodable
  dsimp only at isMode isSeq
  rcases isMode with rfl | rfl <;> rcases isSeq with rfl | rfl | rfl <;> cases program <;>
    cases erase <;> simp [setCommand, validCommand]

theorem commandState_encodable (valid : validCommand f.command = true) :
    Encodable f.commandState := by
  have known (command : Byte) (valid : validCommand command = true) :
      (command &&& 1 = 0 ∨ command &&& 1 = 1) ∧
        (command >>> 1 &&& 3 = 0 ∨ command >>> 1 &&& 3 = 1 ∨ command >>> 1 &&& 3 = 2) := by
    revert command
    decide
  obtain ⟨mode, seq⟩ := known f.command valid
  exact ⟨mode, seq⟩

theorem foldl_keeps {α : Type} {β : Type} (view : Flash → β) {step : Flash → α → Flash}
    (kept : ∀ f a, view (step f a) = view f) (items : List α) :
    view (items.foldl step f) = view f := by
  induction items generalizing f with
  | nil => rfl
  | cons a items ih => exact ih.trans (kept f a)

theorem programBytes_name : (f.programBytes off size value).name = f.name := by
  unfold programBytes
  apply foldl_keeps Flash.name
  intro f i
  rfl

theorem programBytes_length : (f.programBytes off size value).bytes.length = f.bytes.length := by
  unfold programBytes
  apply foldl_keeps fun f => f.bytes.length
  intro f i
  exact List.length_set

theorem eraseBytes_length {first last : Nat} :
    (f.eraseBytes first last).bytes.length = f.bytes.length :=
  List.length_mapIdx

/-- The part behind a write: its name and size, and a command state that is known. -/
structure Follows (f g : Flash) (s : Sequencer) : Prop where
  name : g.name = f.name
  size : g.bytes.length = f.bytes.length
  encodable : Encodable s

theorem unlockedCommand_follows (mode : s.mode = 0 ∨ s.mode = 1) {command : Word} :
    f.Follows (unlockedCommand command s f).2 (unlockedCommand command s f).1 := by
  unfold unlockedCommand
  dsimp only
  split
  · exact ⟨rfl, rfl, ⟨.inr rfl, .inl rfl⟩⟩
  · exact ⟨rfl, rfl, ⟨mode, .inl rfl⟩⟩
  · exact ⟨rfl, rfl, ⟨mode, .inl rfl⟩⟩
  · split
    · exact ⟨rfl, eraseBytes_length, ⟨mode, .inl rfl⟩⟩
    · exact ⟨rfl, rfl, ⟨mode, .inl rfl⟩⟩
  · exact ⟨rfl, rfl, ⟨mode, .inl rfl⟩⟩

theorem advance_follows (encodable : Encodable s) :
    f.Follows (advance off size value s f).2 (advance off size value s f).1 := by
  have mode := encodable.mode
  unfold advance
  dsimp only
  split
  · exact ⟨programBytes_name, programBytes_length, ⟨mode, .inl rfl⟩⟩
  split
  · exact ⟨rfl, eraseBytes_length, ⟨mode, .inl rfl⟩⟩
  split
  · exact ⟨rfl, rfl, ⟨.inl rfl, .inl rfl⟩⟩
  split
  · exact ⟨rfl, rfl, ⟨mode, .inr (.inl rfl)⟩⟩
  split
  · exact ⟨rfl, rfl, ⟨mode, .inr (.inr rfl)⟩⟩
  split
  · exact unlockedCommand_follows mode
  · exact ⟨rfl, rfl, ⟨mode, .inl rfl⟩⟩

theorem write_name (valid : validCommand f.command = true) :
    (f.write off size value).name = f.name :=
  (advance_follows (commandState_encodable valid)).name

theorem write_length (valid : validCommand f.command = true) :
    (f.write off size value).bytes.length = f.bytes.length :=
  (advance_follows (commandState_encodable valid)).size

theorem write_validCommand (valid : validCommand f.command = true) :
    validCommand (f.write off size value).command = true :=
  validCommand_setCommand (advance_follows (commandState_encodable valid)).encodable

end Flash

end Memory

namespace I2c

namespace Controller

variable {c : Controller}

theorem SameSlaves.trans {d e : Controller} (first : c.SameSlaves d) (second : d.SameSlaves e) :
    c.SameSlaves e :=
  ⟨second.1.trans first.1, second.2.trans first.2⟩

theorem writeStore_slaves (value : Byte) : c.SameSlaves (c.writeStore value) := by
  unfold writeStore
  split
  · exact ⟨rfl, rfl⟩
  · exact ⟨rfl, rfl⟩
  · split
    · exact ⟨rfl, rfl⟩
    next bound => exact ⟨by rw [bound]; rfl, rfl⟩

theorem writeDemod_slaves (value : Byte) : c.SameSlaves (c.writeDemod value) := by
  unfold writeDemod
  split
  · exact ⟨rfl, rfl⟩
  next bound => exact ⟨rfl, by rw [bound]; rfl⟩

theorem startDemod_slaves : c.SameSlaves c.startDemod := by
  unfold startDemod
  split
  next bound =>
    split
    · exact ⟨rfl, by rw [bound]; rfl⟩
    · exact ⟨rfl, rfl⟩
  · exact ⟨rfl, rfl⟩

theorem address_slaves (value : Byte) : c.SameSlaves (c.address value) := by
  unfold address
  dsimp only
  refine .trans ?_ startDemod_slaves
  split <;> exact ⟨rfl, rfl⟩

theorem writeData_slaves (value : Byte) (wire : Irq.Wire) :
    c.SameSlaves (c.writeData value wire).1 := by
  have held : c.SameSlaves { c with data := value.setWidth 32 } := ⟨rfl, rfl⟩
  unfold writeData
  dsimp only
  split
  · exact held.trans (address_slaves value)
  · split
    · exact held.trans (writeStore_slaves value)
    · split
      · exact held.trans (writeDemod_slaves value)
      · exact held

theorem stop_slaves (persist : Persist) : c.SameSlaves (c.stop persist) := by
  unfold stop
  dsimp only
  split
  · split
    · split <;> exact ⟨rfl, rfl⟩
    · exact ⟨rfl, rfl⟩
  · exact ⟨rfl, rfl⟩

theorem receive_slaves : c.SameSlaves c.receive := by
  unfold receive
  split
  · split
    · exact ⟨rfl, rfl⟩
    next bound _ => exact ⟨rfl, by rw [bound]; rfl⟩
    · exact ⟨rfl, rfl⟩
  · exact ⟨rfl, rfl⟩

/-- No write binds or unbinds a slave. -/
theorem write_slaves (persist : Persist) (off : Word) (size : Size) (value : Word)
    (wire : Irq.Wire) : c.SameSlaves (c.write persist off size value wire).1 := by
  unfold write
  split
  · exact ⟨rfl, rfl⟩
  split
  · dsimp only
    split
    · exact stop_slaves persist
    · exact ⟨rfl, rfl⟩
    · exact receive_slaves
    · exact receive_slaves
    · exact ⟨rfl, rfl⟩
  · exact ⟨rfl, rfl⟩
  · exact writeData_slaves _ wire
  · exact ⟨rfl, rfl⟩
  · exact ⟨rfl, rfl⟩
  · exact ⟨rfl, rfl⟩

end Controller

end I2c

namespace Dma

/-- The video port's address is inside its memory. -/
def VideoInside (media : Media) : Prop :=
  media.video.Inside

theorem readDRAM_videoInside (addr : Word) (size : Size) :
    Keeps VideoInside (readDRAM addr size) := by
  apply Keeps.bind (dramRange_keeps addr size.bytes)
  intro off media inside
  exact inside

theorem drawing_videoInside (draw : Graphics.Drawing Unit) :
    Keeps VideoInside (drawing draw) := by
  intro media inside
  unfold drawing
  cases draw media.ram with
  | ok value ram => exact inside
  | error error ram => exact inside

theorem moveData_videoInside (channel : Channel) (src : Word) (length : Nat) :
    Keeps VideoInside (moveData channel src length) := by
  unfold moveData
  split
  · unfold drawCommand
    split
    · exact .throw _
    · apply Keeps.bind
      · apply Keeps.forM
        intro i
        apply Keeps.bind (.prefixing (readDRAM_videoInside _ _))
        intro value
        exact .modify fun media inside => inside
      · intro _
        apply Keeps.bind .get
        intro media
        exact .prefixing (drawing_videoInside _)
  · unfold uploadPlane
    apply Keeps.bind
    · apply Keeps.mapM'
      intro i
      apply Keeps.bind (.prefixing (readDRAM_videoInside _ _))
      exact fun _ => .pure _
    · intro plane
      exact .modify fun media inside => Osd.Video.read_inside inside 0xd0 .word
  · exact .pure _

theorem run_videoInside (channel : Channel) : Keeps VideoInside (run channel) := by
  have read (what : String) (addr : Word) :
      Keeps VideoInside (prefixing (label channel what) (readDRAM addr .word)) :=
    .prefixing (readDRAM_videoInside _ _)
  have range (what : String) (addr : Word) (length : Nat) :
      Keeps VideoInside (discard (prefixing (label channel what) (dramRange addr length))) :=
    .bind (.prefixing (dramRange_keeps _ _)) fun _ => .pure _
  unfold run
  apply Keeps.bind .get
  intro media
  dsimp only
  split
  · exact .throw _
  apply Keeps.bind (range _ _ _)
  intro _
  apply Keeps.bind (read _ _)
  intro src
  apply Keeps.bind (read _ _)
  intro ctl
  apply Keeps.bind (read _ _)
  intro last
  split
  · exact .throw _
  · apply Keeps.bind
    · unfold checkSource
      split
      · exact range _ _ _
      · exact .pure _
    intro _
    apply Keeps.bind (moveData_videoInside _ _ _)
    intro _
    exact .modify fun media inside => inside

theorem write_videoInside {media : Media} (inside : VideoInside media) (off : Word) (size : Size)
    (value : Word) : VideoInside (write off size value media) := by
  have started (mask : Word) : Keeps VideoInside (startChannels mask) := by
    apply Keeps.forM
    intro channel
    split
    · exact .pure _
    · exact run_videoInside channel
  unfold write
  dsimp only
  split
  · split
    · exact inside
    · have kept := started (value &&& ~~~media.dma.enable)
        { media with dma := { media.dma with enable := value } } inside
      split
      next ran =>
        rw [ran] at kept
        exact kept
      next ran =>
        rw [ran] at kept
        exact kept
  · exact inside
  · exact inside
  · split
    · split <;> exact inside
    · exact inside

end Dma

end GoRetroTv
