import GoRetroTv.CappedBuffers
import GoRetroTv.GuardedRuns
import GoRetroTv.ModemUart

/-!
# Which commands the modem answers

The modem looks for `AT` at the end of a history of what the guest has
transmitted, and the history stops growing at 4096 bytes.  From there on every
byte is judged by the last two the history holds.  A run is answered as its
stream asks exactly as long as the two judgements agree.
-/

namespace GoRetroTv

namespace Modem

open Snapcodec Cpu

/-- What befalls the UART after a reset. -/
inductive Action where
  | read (off : Word) (size : Size)
  | write (off : Word) (size : Size) (value : Word)
  | pump (boardTicks : DoubleWord)

/-- `T` behind an `A`. -/
def completesAT (sent : List Byte) (byte : Byte) : Bool :=
  sent.getLast? == some 0x41 && byte == 0x54

namespace Uart

/-- An access reaches the data registers. -/
def isData (off : Word) (size : Size) (u : Uart) : Bool :=
  size != .half && (off &&& ~~~3).toNat == 0 && !u.latched

/-- The byte a write transmits, if it does. -/
def transmitted (off : Word) (size : Size) (value : Word) (u : Uart) : List Byte :=
  if u.isData off size then [value.setWidth 8] else []

/-- The reply byte a read returns, if there is one. -/
def received (off : Word) (size : Size) (u : Uart) : List Byte :=
  if u.isData off size ∧ u.rx ≠ [] then [(u.read off size).1.setWidth 8] else []

/-- The receive queue takes a whole reply. -/
def hasRoom (u : Uart) : Bool :=
  decide (u.rx.length + 6 ≤ maxBytes)

end Uart

/-- The UART, the bytes the guest has transmitted, those it has read of replies,
and those it was to be replied with. -/
structure Session where
  attached : Attached
  sent : List Byte := []
  taken : List Byte := []
  owed : List Byte := []

namespace Session

def uart (s : Session) : Uart :=
  s.attached.1

/-- The reply that a write asks for. -/
def due (off : Word) (size : Size) (value : Word) (s : Session) : List Byte :=
  if s.uart.isData off size ∧ completesAT s.sent (value.setWidth 8) ∧ s.uart.hasRoom then Uart.reply
  else []

def step (s : Session) : Action → Session
  | .read off size =>
      { s with
        attached := ((s.uart.read off size).2, s.attached.2)
        taken := s.taken ++ s.uart.received off size }
  | .write off size value =>
      { s with
        attached := (s.uart.write off size value, s.attached.2)
        sent := s.sent ++ s.uart.transmitted off size value
        owed := s.owed ++ s.due off size value }
  | .pump boardTicks => { s with attached := s.uart.pump boardTicks s.attached.2 }

/-- A UART that has just been reset. -/
def started (wire : Irq.Wire) : Session where
  attached := Uart.reset wire

/-- The replies asked for so far have been read, each byte once and in order, up
to those that wait in the receive queue. -/
def Answered (s : Session) : Prop :=
  s.taken ++ s.uart.rx = s.owed

/-- The history still grows, or no reply fits, or the end of the frozen history
happens to say of the next byte what the stream says. -/
def Recognised (s : Session) : Action → Prop
  | .write off size value =>
      s.uart.isData off size = true →
        s.sent.length < maxBytes ∨ s.uart.hasRoom = false ∨
          Uart.endsInAT (s.sent.take maxBytes) = completesAT s.sent (value.setWidth 8)
  | _ => True

/-- The history is what the first transmitted bytes were. -/
def Recorded (s : Session) : Prop :=
  s.uart.tx = s.sent.take maxBytes

end Session

namespace Uart

variable {off : Word} {size : Size} {u : Uart}

/-- The stream's own rule is the history's, as long as nothing is dropped. -/
theorem endsInAT_snoc (sent : List Byte) (byte : Byte) :
    endsInAT (sent ++ [byte]) = completesAT sent byte := by
  have letters : ascii "AT" = [0x41, 0x54] := by decide
  unfold endsInAT completesAT
  rcases List.eq_nil_or_concat' sent with rfl | ⟨front, last, rfl⟩
  · rw [letters]
    simp
  · have twoLast : (front ++ [last] ++ [byte]).length - 2 = front.length := by simp
    rw [twoLast, List.append_assoc, List.drop_left, letters]
    simp

/-- Two states have the same queue and the same history. -/
structure SameTraffic (u u' : Uart) : Prop where
  rx : u'.rx = u.rx
  tx : u'.tx = u.tx

theorem isData_iff : u.isData off size = true ↔
    size ≠ .half ∧ (off &&& ~~~3).toNat = 0 ∧ u.latched = false := by
  simp [isData, and_assoc]

theorem read_data (data : u.isData off size = true) :
    u.read off size =
      match u.rx with
      | [] => (0, u)
      | byte :: rest => (byte.setWidth 32, { u with rx := rest }) := by
  obtain ⟨whole, register, unlatched⟩ := isData_iff.mp data
  unfold read
  rw [if_neg whole, register, unlatched]
  rfl

theorem read_other (other : u.isData off size = false) : SameTraffic u (u.read off size).2 := by
  have notData := mt isData_iff.mpr (Bool.not_eq_true _ ▸ other)
  unfold read
  split
  · exact ⟨rfl, rfl⟩
  next whole =>
  split
  · next register =>
    have latched : u.latched = true := by
      by_contra unlatched
      exact notData ⟨whole, register, Bool.eq_false_iff.mpr unlatched⟩
    rw [if_pos latched]
    exact ⟨rfl, rfl⟩
  · split <;> exact ⟨rfl, rfl⟩
  all_goals exact ⟨rfl, rfl⟩

theorem write_data (data : u.isData off size = true) (value : Word) :
    u.write off size value = u.accept (value.setWidth 8) := by
  obtain ⟨whole, register, unlatched⟩ := isData_iff.mp data
  unfold write
  rw [if_neg whole, register, unlatched]
  rfl

theorem write_other (other : u.isData off size = false) (value : Word) :
    SameTraffic u (u.write off size value) := by
  have notData := mt isData_iff.mpr (Bool.not_eq_true _ ▸ other)
  unfold write
  split
  · exact ⟨rfl, rfl⟩
  next whole =>
  dsimp only
  split
  · next register =>
    have latched : u.latched = true := by
      by_contra unlatched
      exact notData ⟨whole, register, Bool.eq_false_iff.mpr unlatched⟩
    rw [if_pos latched]
    exact ⟨rfl, rfl⟩
  · split <;> exact ⟨rfl, rfl⟩
  all_goals exact ⟨rfl, rfl⟩

theorem pump_sameTraffic (boardTicks : DoubleWord) (wire : Irq.Wire) (u : Uart) :
    SameTraffic u (u.pump boardTicks wire).1 := by
  unfold pump
  dsimp only
  split <;> exact ⟨rfl, rfl⟩

/-- A read takes the byte it returns off the queue, and no other. -/
theorem received_append (off : Word) (size : Size) (u : Uart) :
    u.received off size ++ (u.read off size).2.rx = u.rx := by
  unfold received
  cases data : u.isData off size with
  | false => simp [(read_other data).rx]
  | true =>
    rw [read_data data]
    cases queued : u.rx with
    | nil => simp [queued]
    | cons byte rest => simp

theorem read_tx (off : Word) (size : Size) (u : Uart) : (u.read off size).2.tx = u.tx := by
  cases data : u.isData off size with
  | false => exact (read_other data).tx
  | true =>
    rw [read_data data]
    split <;> rfl

/-- A byte behind a stream of which the history is the beginning. -/
theorem accept_recorded {sent : List Byte} (recorded : u.tx = sent.take maxBytes) (byte : Byte) :
    (u.accept byte).tx = (sent ++ [byte]).take maxBytes ∧
      (u.accept byte).rx = u.rx ++
        if endsInAT ((sent ++ [byte]).take maxBytes) ∧ u.hasRoom then reply else [] := by
  have grown : (if u.tx.length < maxBytes then u.tx ++ [byte] else u.tx) =
      (sent ++ [byte]).take maxBytes := by
    rw [recorded]
    exact CappedBuffers.push_take maxBytes sent byte
  unfold accept
  dsimp only
  rw [grown]
  by_cases answers : endsInAT ((sent ++ [byte]).take maxBytes) ∧ u.rx.length + 6 ≤ maxBytes
  · have replies : endsInAT ((sent ++ [byte]).take maxBytes) ∧ u.hasRoom :=
      ⟨answers.1, decide_eq_true answers.2⟩
    rw [if_pos answers, if_pos replies]
    exact ⟨rfl, rfl⟩
  · have silent : ¬(endsInAT ((sent ++ [byte]).take maxBytes) ∧ u.hasRoom) :=
      fun replies => answers ⟨replies.1, of_decide_eq_true replies.2⟩
    rw [if_neg answers, if_neg silent]
    exact ⟨rfl, (List.append_nil _).symm⟩

end Uart

namespace Session

variable {s : Session}

theorem Recorded.step (recorded : s.Recorded) (action : Action) : (s.step action).Recorded := by
  cases action with
  | read off size => exact (s.uart.read_tx off size).trans recorded
  | pump boardTicks => exact (s.uart.pump_sameTraffic boardTicks _).tx.trans recorded
  | write off size value =>
    change (s.uart.write off size value).tx =
      (s.sent ++ s.uart.transmitted off size value).take maxBytes
    unfold Uart.transmitted
    cases data : s.uart.isData off size with
    | false =>
      rw [(Uart.write_other data value).tx, if_neg Bool.false_ne_true, List.append_nil]
      exact recorded
    | true =>
      rw [Uart.write_data data, (Uart.accept_recorded recorded _).1]
      rfl

/-- Two judgements queue the same reply when no reply fits, or when they agree. -/
theorem reply_eq_iff (judged asked room : Bool) :
    (if judged ∧ room then Uart.reply else []) = (if asked ∧ room then Uart.reply else []) ↔
      room = false ∨ judged = asked := by
  have some : Uart.reply ≠ [] := by decide
  cases judged <;> cases asked <;> cases room <;> simp [some, some.symm]

/-- What the history says of the next byte: the stream's own answer until it is
full, then the same answer for ever. -/
theorem judged_iff (sent : List Byte) (byte : Byte) :
    Uart.endsInAT ((sent ++ [byte]).take maxBytes) = completesAT sent byte ↔
      sent.length < maxBytes ∨ Uart.endsInAT (sent.take maxBytes) = completesAT sent byte := by
  by_cases short : sent.length < maxBytes
  · have whole : (sent ++ [byte]).take maxBytes = sent ++ [byte] :=
      List.take_of_length_le (by simp; omega)
    rw [whole, Uart.endsInAT_snoc]
    exact iff_of_true rfl (.inl short)
  · rw [CappedBuffers.take_snoc_of_full (Nat.not_lt.mp short)]
    exact (or_iff_right short).symm

/-- Where everything due has been answered, a step leaves it so exactly when the
history judges its byte as the stream does. -/
theorem answered_step (recorded : s.Recorded) (answered : s.Answered) (action : Action) :
    (s.step action).Answered ↔ s.Recognised action := by
  unfold Answered at answered
  cases action with
  | read off size =>
    refine iff_of_true ?_ trivial
    change (s.taken ++ s.uart.received off size) ++ (s.uart.read off size).2.rx = s.owed
    rw [List.append_assoc, Uart.received_append, answered]
  | pump boardTicks =>
    refine iff_of_true ?_ trivial
    change s.taken ++ (s.uart.pump boardTicks s.attached.2).1.rx = s.owed
    rw [(s.uart.pump_sameTraffic boardTicks _).rx, answered]
  | write off size value =>
    change s.taken ++ (s.uart.write off size value).rx = s.owed ++ s.due off size value ↔
      (s.uart.isData off size = true → _)
    unfold due
    cases data : s.uart.isData off size with
    | false =>
      refine iff_of_true ?_ nofun
      rw [(Uart.write_other data value).rx, answered]
      simp
    | true =>
      rw [Uart.write_data data, (Uart.accept_recorded recorded _).2, ← List.append_assoc, answered,
        List.append_right_inj]
      have asked : (if true = true ∧ completesAT s.sent (value.setWidth 8) ∧ s.uart.hasRoom then
          Uart.reply else []) =
          if completesAT s.sent (value.setWidth 8) ∧ s.uart.hasRoom then Uart.reply else [] := by
        simp
      rw [asked, reply_eq_iff, judged_iff, or_left_comm]
      exact ⟨fun recognised _ => recognised, fun recognised => recognised rfl⟩

end Session

/-- **The modem's commands.**  Along a run from a reset every `AT` that finds room is
answered once, nothing else is, and the guest reads the answers byte by byte, exactly when
the history judges each transmitted byte as the stream does. -/
theorem answers_iff (wire : Irq.Wire) (actions : List Action) :
    Runs.Along Session.step (fun s action => (s.step action).Answered) (.started wire) actions ↔
      Runs.Along Session.step Session.Recognised (.started wire) actions := by
  let holds : Session → Prop := fun s => s.Recorded ∧ s.Answered
  have start : holds (.started wire) := ⟨rfl, rfl⟩
  refine Runs.along_congr start ?_ ?_
  · intro s action ⟨recorded, answered⟩
    exact s.answered_step recorded answered action
  · intro s action ⟨recorded, _⟩ answered
    exact ⟨recorded.step action, answered⟩

/-- The guest transmits a byte. -/
def transmit (byte : Byte) : Action :=
  .write 0 .byte (byte.setWidth 32)

/-- Bytes have been transmitted of which none asked for a reply. -/
structure Session.Quiet (s : Session) (sent : List Byte) : Prop where
  divisor : s.uart.lcr = 0
  sent : s.sent = sent
  owed : s.owed = []

namespace Session.Quiet

variable {s : Session} {sent : List Byte}

theorem isData (quiet : s.Quiet sent) : s.uart.isData 0 .byte = true := by
  unfold Uart.isData Uart.latched
  rw [quiet.divisor]
  rfl

theorem transmit (quiet : s.Quiet sent) {byte : Byte} (noT : byte ≠ 0x54) :
    (s.step (transmit byte)).Quiet (sent ++ [byte]) where
  divisor := by
    change (s.uart.write 0 .byte (byte.setWidth 32)).lcr = 0
    rw [Uart.write_data quiet.isData]
    unfold Uart.accept
    dsimp only
    split <;> split <;> exact quiet.divisor
  sent := by
    change s.sent ++ s.uart.transmitted 0 .byte (byte.setWidth 32) = sent ++ [byte]
    rw [Uart.transmitted, if_pos quiet.isData, quiet.sent]
    simp
  owed := by
    change s.owed ++ s.due 0 .byte (byte.setWidth 32) = []
    have back : (byte.setWidth 32).setWidth 8 = byte := by simp
    have unasked : completesAT s.sent ((byte.setWidth 32).setWidth 8) = false := by
      rw [back, completesAT, beq_eq_false_iff_ne.mpr noT, Bool.and_false]
    rw [quiet.owed, due, unasked]
    simp

theorem transmits (quiet : s.Quiet sent) {bytes : List Byte} (noT : ∀ byte ∈ bytes, byte ≠ 0x54) :
    ((bytes.map Modem.transmit).foldl step s).Quiet (sent ++ bytes) := by
  induction bytes generalizing s sent with
  | nil => simpa using quiet
  | cons byte bytes ih =>
    have rest := ih (quiet.transmit (noT byte List.mem_cons_self))
      fun other member => noT other (List.mem_cons_of_mem byte member)
    simpa using rest

end Session.Quiet

/-- Behind 4096 other bytes `AT` is not answered. -/
theorem answers_not_forever :
    ¬∀ (wire : Irq.Wire) (actions : List Action),
      Runs.Along Session.step (fun s action => (s.step action).Answered) (.started wire)
        actions := by
  intro always
  let filler := List.replicate maxBytes (0x78 : Byte)
  let start := Session.started {}
  let s := (((filler ++ [0x41]).map transmit).foldl Session.step start)
  have along := always {} (((filler ++ [0x41]).map transmit) ++ [transmit 0x54])
  have started : start.Quiet [] := ⟨rfl, rfl, rfl⟩
  have noT : ∀ byte ∈ filler ++ [0x41], byte ≠ (0x54 : Byte) := by
    intro byte member
    rcases List.mem_append.mp member with inFiller | last
    · rw [List.eq_of_mem_replicate inFiller]
      decide
    · rw [List.mem_singleton.mp last]
      decide
  have quiet : s.Quiet (filler ++ [0x41]) := started.transmits noT
  have answered : s.Answered := by
    refine Runs.Along.invariant along.upTo rfl ?_
    intro s action _ answered
    exact answered
  have recorded : s.Recorded := by
    have run : Runs.Along Session.step (fun _ _ => True) start ((filler ++ [0x41]).map transmit) :=
      Runs.along_true _
    refine run.invariant rfl ?_
    intro s action recorded _
    exact recorded.step action
  have waiting : s.uart.rx = [] := by
    unfold Session.Answered at answered
    rw [quiet.owed] at answered
    exact (List.append_eq_nil_iff.mp answered).2
  rcases (s.answered_step recorded answered _).mp along.place quiet.isData with
    short | full | agrees
  · rw [quiet.sent] at short
    simp [filler] at short
  · rw [Uart.hasRoom, waiting] at full
    simp [maxBytes] at full
  · have silent : Uart.endsInAT filler = false := by
      simp only [Uart.endsInAT, filler, List.length_replicate, List.drop_replicate]
      decide
    have asked :
        completesAT (filler ++ [0x41]) ((0x54 : Byte).setWidth 32 |>.setWidth 8) = true := by
      simp [completesAT]
    rw [quiet.sent, List.take_left' (by simp [filler]), silent, asked] at agrees
    exact Bool.false_ne_true agrees

end Modem

end GoRetroTv
