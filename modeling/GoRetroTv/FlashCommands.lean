import GoRetroTv.FlashMemory

/-!
# What may change the flash array

Programming and erasing are commands of several bus cycles.  The sequencer
keeps its unlock position and its two command flags apart: a write out of
sequence returns the position to its start and leaves the erase flag.
-/

namespace GoRetroTv

namespace Memory

namespace Flash

open Cpu

/-- One write to the part. -/
structure Cycle where
  off : Word
  size : Size
  value : Word

namespace Cycle

/-- The half-word address, as the command decoder sees it. -/
def place (c : Cycle) : Word :=
  c.off >>> 1 &&& 0xfff

/-- The command byte. -/
def command (c : Cycle) : Word :=
  c.value &&& 0xff

def IsFirstUnlock (c : Cycle) : Prop :=
  c.command = 0xaa ∧ c.place = 0x555

def IsSecondUnlock (c : Cycle) : Prop :=
  c.command = 0x55 ∧ c.place = 0x2aa

/-- A command at the command address. -/
def Commands (command : Word) (c : Cycle) : Prop :=
  c.command = command ∧ c.place = 0x555

/-- The last cycle of an erase, of one sector or of the whole part. -/
def Erases (c : Cycle) : Prop :=
  c.command = 0x30 ∨ c.Commands 0x10

end Cycle

def unlockCycles : List (Cycle → Prop) :=
  [Cycle.IsFirstUnlock, Cycle.IsSecondUnlock]

/-- The cycles before the data of a programmed value. -/
def programCycles : List (Cycle → Prop) :=
  unlockCycles ++ [Cycle.Commands 0xa0]

/-- The first half of an erase. -/
def setupCycles : List (Cycle → Prop) :=
  unlockCycles ++ [Cycle.Commands 0x80]

def eraseCycles : List (Cycle → Prop) :=
  setupCycles ++ unlockCycles ++ [Cycle.Erases]

/-- The last writes of a history are these cycles, one after the other. -/
def EndsIn (cycles : List (Cycle → Prop)) (history : List Cycle) : Prop :=
  ∃ last, last <:+ history ∧ List.Forall₂ (fun cycle write => cycle write) cycles last

/-- Some bit of the array is zero before and one after. -/
def SetsBit (before after : Flash) : Prop :=
  ∃ i bit, (before.bytes.getD i 0).getLsbD bit = false ∧ (after.bytes.getD i 0).getLsbD bit = true

/-- What the guest does to the part. -/
inductive Action where
  | read (off : Word) (size : Size)
  | write (cycle : Cycle)

def perform (f : Flash) : Action → Flash
  | .read _ _ => f
  | .write c => f.write c.off c.size c.value

def run (f : Flash) (actions : List Action) : Flash :=
  actions.foldl perform f

/-- The writes of a run. -/
def history (actions : List Action) : List Cycle :=
  actions.filterMap fun
    | .read _ _ => none
    | .write c => some c

/-- A bit that a write sets was erased by the cycles of an erase, that write
being the last of them. -/
def ErasesOnlyCommanded (f : Flash) (actions : List Action) : Prop :=
  ∀ done c rest, actions = done ++ .write c :: rest →
    SetsBit (f.run done) (f.run (done ++ [.write c])) → EndsIn eraseCycles (history done ++ [c])

/-- A bit that a write clears was programmed by it, as the data right behind the
cycles of a program command. -/
def ProgramsOnlyCommanded (f : Flash) (actions : List Action) : Prop :=
  ∀ done c rest, actions = done ++ .write c :: rest →
    SetsBit (f.run (done ++ [.write c])) (f.run done) → EndsIn programCycles (history done)

/-- The cycles that carry an erase on from an unlock position, setting it up
once more being one of them. -/
def NextEraseCycle (seq : Byte) (c : Cycle) : Prop :=
  seq = 0 ∧ c.IsFirstUnlock ∨ seq = 1 ∧ c.IsSecondUnlock ∨
    seq = 2 ∧ (c.Erases ∨ c.Commands 0x80)

/-- While an erase is set up, only its own next cycle is written. -/
def Undisturbed (f : Flash) : Action → Prop
  | .read _ _ => True
  | .write c => f.commandState.erase = true → NextEraseCycle f.commandState.seq c

/-- Every action of a run leaves an erase that is set up undisturbed. -/
def RunUndisturbed (f : Flash) (actions : List Action) : Prop :=
  ∀ done action rest, actions = done ++ action :: rest → (f.run done).Undisturbed action

theorem EndsIn.nil (history : List Cycle) : EndsIn [] history :=
  ⟨[], List.nil_suffix, .nil⟩

theorem EndsIn.next {cycles : List (Cycle → Prop)} {history : List Cycle} {cycle : Cycle → Prop}
    {write : Cycle} (endsIn : EndsIn cycles history) (isCycle : cycle write) :
    EndsIn (cycles ++ [cycle]) (history ++ [write]) := by
  obtain ⟨last, ⟨earlier, rfl⟩, cyclesOf⟩ := endsIn
  refine ⟨last ++ [write], ⟨earlier, by simp⟩, ?_⟩
  exact List.rel_append cyclesOf (.cons isCycle .nil)

/-- A state the command register holds. -/
structure Encodable (s : Sequencer) : Prop where
  mode : s.mode = 0 ∨ s.mode = 1
  seq : s.seq = 0 ∨ s.seq = 1 ∨ s.seq = 2

theorem commandState_setCommand {s : Sequencer} (encodable : Encodable s) (f : Flash) :
    (f.setCommand s).commandState = s := by
  obtain ⟨mode, seq, program, erase⟩ := s
  obtain ⟨isMode, isSeq⟩ := encodable
  dsimp only at isMode isSeq
  rcases isMode with rfl | rfl <;> rcases isSeq with rfl | rfl | rfl <;> cases program <;>
    cases erase <;> simp [setCommand, commandState]

@[simp]
theorem setCommand_bytes (s : Sequencer) (f : Flash) : (f.setCommand s).bytes = f.bytes :=
  rfl

theorem reset_commandState (f : Flash) :
    f.reset.commandState = { mode := 0, seq := 0, program := false, erase := false } := by
  simp [commandState, reset]

/-- What one write does to the sequencer and the array. -/
inductive Transition (c : Cycle) (s : Sequencer) (f : Flash) : Sequencer → Flash → Prop
  | programmed (program : s.program = true) :
      Transition c s f { s with program := false, seq := 0 } (f.programBytes c.off c.size c.value)
  | erased (first last : Nat) (program : s.program = false) (seq : s.seq = 2)
      (erase : s.erase = true) (erases : c.Erases) :
      Transition c s f { s with erase := false, seq := 0 } (f.eraseBytes first last)
  | firstUnlock (program : s.program = false) (seq : s.seq = 0) (unlock : c.IsFirstUnlock) :
      Transition c s f { s with seq := 1 } f
  | secondUnlock (program : s.program = false) (seq : s.seq = 1) (unlock : c.IsSecondUnlock) :
      Transition c s f { s with seq := 2 } f
  | commandProgram (seq : s.seq = 2) (command : c.Commands 0xa0) :
      Transition c s f { s with program := true, seq := 0 } f
  | setUpErase (program : s.program = false) (seq : s.seq = 2) (command : c.Commands 0x80) :
      Transition c s f { s with erase := true, seq := 0 } f
  | turnedAway (mode : Byte) (turned : Flash) (isMode : mode = 0 ∨ mode = 1 ∨ mode = s.mode)
      (program : s.program = false) (astray : s.erase = true → ¬ NextEraseCycle s.seq c)
      (bytes : turned.bytes = f.bytes) :
      Transition c s f { s with mode, seq := 0 } turned

theorem unlockedCommand_transition {c : Cycle} {s : Sequencer} (f : Flash)
    (program : s.program = false) (seq : s.seq = 2) (notSector : ¬ (s.erase ∧ c.command = 0x30))
    (place : c.place = 0x555) :
    Transition c s f (unlockedCommand c.command s f).1 (unlockedCommand c.command s f).2 := by
  have elsewhere (mode : Byte) (isMode : mode = 0 ∨ mode = 1 ∨ mode = s.mode) (turned : Flash)
      (bytes : turned.bytes = f.bytes) (notErase : s.erase = true → c.command ≠ 0x10)
      (notSetUp : c.command ≠ 0x80) :
      Transition c s f { s with mode, seq := 0 } turned := by
    refine .turnedAway mode turned isMode program (fun erase next => ?_) bytes
    simp only [NextEraseCycle, Cycle.Erases, Cycle.Commands, seq] at next
    rcases next with ⟨impossible, _⟩ | ⟨impossible, _⟩ | ⟨_, (sector | whole) | setUp⟩
    · exact absurd impossible (by decide)
    · exact absurd impossible (by decide)
    · exact notSector ⟨erase, sector⟩
    · exact notErase erase whole.1
    · exact notSetUp setUp.1
  unfold unlockedCommand
  dsimp only
  split
  next named =>
    have isCommand : c.command = 0x90 := BitVec.eq_of_toNat_eq named
    exact elsewhere 1 (.inr (.inl rfl)) f rfl (by simp [isCommand]) (by simp [isCommand])
  next named => exact .commandProgram seq ⟨BitVec.eq_of_toNat_eq named, place⟩
  next named => exact .setUpErase program seq ⟨BitVec.eq_of_toNat_eq named, place⟩
  next named =>
    have isCommand : c.command = 0x10 := BitVec.eq_of_toNat_eq named
    split
    next erase => exact .erased _ _ program seq erase (.inr ⟨isCommand, place⟩)
    next notErase =>
      exact elsewhere s.mode (.inr (.inr rfl)) f rfl (fun erase => absurd erase notErase)
        (by simp [isCommand])
  next _ _ not80 not10 =>
    refine elsewhere s.mode (.inr (.inr rfl)) _ rfl (fun _ isCommand => ?_) (fun isCommand => ?_)
    · exact not10 (by rw [isCommand]; rfl)
    · exact not80 (by rw [isCommand]; rfl)

/-- A write does one of the things a transition says. -/
theorem advance_transition (c : Cycle) (s : Sequencer) (f : Flash) :
    Transition c s f (advance c.off c.size c.value s f).1 (advance c.off c.size c.value s f).2 := by
  unfold advance
  dsimp only
  rw [show c.off >>> 1 &&& 0xfff = c.place from rfl, show c.value &&& 0xff = c.command from rfl]
  split
  next program => exact .programmed program
  next notProgram =>
    have program : s.program = false := by simpa using notProgram
    split
    next sector => exact .erased _ _ program sector.1 sector.2.1 (.inl sector.2.2)
    next notSector =>
      split
      next abandon =>
        exact .turnedAway 0 f (.inl rfl) program (fun erase => by simp [abandon.2] at erase) rfl
      next =>
        split
        next unlock => exact .firstUnlock program unlock.1 unlock.2
        next notFirst =>
          split
          next unlock => exact .secondUnlock program unlock.1 unlock.2
          next notSecond =>
            split
            next unlocked =>
              exact unlockedCommand_transition f program unlocked.1
                (fun sector => notSector ⟨unlocked.1, sector⟩) unlocked.2
            next notUnlocked =>
              refine .turnedAway s.mode _ (.inr (.inr rfl)) program (fun erase next => ?_) rfl
              rcases next with ⟨seq, first⟩ | ⟨seq, second⟩ | ⟨seq, (sector | whole) | setUp⟩
              · exact notFirst ⟨seq, first⟩
              · exact notSecond ⟨seq, second⟩
              · exact notSector ⟨seq, erase, sector⟩
              · exact notUnlocked ⟨seq, whole.2⟩
              · exact notUnlocked ⟨seq, setUp.2⟩

theorem not_setsBit_of_eq {before after : Flash} (bytes : after.bytes = before.bytes) :
    ¬ SetsBit before after := by
  rintro ⟨i, bit, clear, set⟩
  rw [bytes, clear] at set
  cases set

/-- Programming a byte clears bits of it. -/
theorem getLsbD_of_program {bytes : List Byte} {place i bit : Nat} {data : Byte}
    (set : ((bytes.set place (bytes.getD place 0 &&& data)).getD i 0).getLsbD bit = true) :
    (bytes.getD i 0).getLsbD bit = true := by
  rw [List.getD_eq_getElem?_getD, List.getElem?_set] at set
  split at set
  next isPlace =>
    subst isPlace
    split at set
    next inside =>
      rw [Option.getD_some, BitVec.getLsbD_and, Bool.and_eq_true] at set
      exact set.1
    next => simp at set
  next => rwa [← List.getD_eq_getElem?_getD] at set

theorem not_setsBit_programBytes (off : Word) (size : Size) (value : Word) (f : Flash) :
    ¬ SetsBit f (f.programBytes off size value) := by
  rintro ⟨i, bit, clear, set⟩
  have cleared : ((f.programBytes off size value).bytes.getD i 0).getLsbD bit = true →
      (f.bytes.getD i 0).getLsbD bit = true := by
    unfold programBytes
    refine List.foldlRecOn (List.range size.bytes) _
      (motive := fun g : Flash => (g.bytes.getD i 0).getLsbD bit = true →
        (f.bytes.getD i 0).getLsbD bit = true) id ?_
    exact fun g ih place _ set => ih (getLsbD_of_program set)
  rw [cleared set] at clear
  cases clear

/-- An erased byte has every bit set. -/
theorem not_setsBit_eraseBytes (first last : Nat) (f : Flash) :
    ¬ SetsBit (f.eraseBytes first last) f := by
  rintro ⟨i, bit, clear, set⟩
  simp only [eraseBytes, List.getD_eq_getElem?_getD, List.getElem?_mapIdx] at clear
  rw [List.getD_eq_getElem?_getD] at set
  cases isByte : f.bytes[i]? with
  | none => simp [isByte] at set
  | some byte =>
    simp only [isByte, Option.map_some, Option.getD_some] at clear set
    split at clear
    next =>
      have inside : bit < 8 := BitVec.lt_of_getLsbD set
      have ones : ∀ bit < 8, (0xff : Byte).getLsbD bit = true := by decide
      rw [ones bit inside] at clear
      cases clear
    next => rw [set] at clear; cases clear

/-- The unlock cycles taken so far, and those of a program command. -/
structure Remembers (history : List Cycle) (s : Sequencer) : Prop where
  encodable : Encodable s
  unlock : EndsIn (unlockCycles.take s.seq.toNat) history
  program : s.program = true → EndsIn programCycles history

/-- Behind an erase that is set up stand its first half and the unlock cycles
taken since. -/
def RemembersErase (history : List Cycle) (s : Sequencer) : Prop :=
  s.erase = true → s.program = false ∧
    EndsIn (setupCycles ++ unlockCycles.take s.seq.toNat) history

theorem Remembers.transition {history : List Cycle} {c : Cycle} {s after : Sequencer}
    {f array : Flash} (remembers : Remembers history s) (step : Transition c s f after array) :
    Remembers (history ++ [c]) after := by
  obtain ⟨⟨isMode, isSeq⟩, unlock, program⟩ := remembers
  have mode (mode : Byte) (given : mode = 0 ∨ mode = 1 ∨ mode = s.mode) : mode = 0 ∨ mode = 1 := by
    rcases given with zero | one | same
    · exact .inl zero
    · exact .inr one
    · exact same ▸ isMode
  cases step with
  | programmed => exact ⟨⟨isMode, .inl rfl⟩, .nil _, fun set => by cases set⟩
  | erased first last noProgram =>
    exact ⟨⟨isMode, .inl rfl⟩, .nil _, fun set => by simp [noProgram] at set⟩
  | firstUnlock noProgram seq first =>
    exact ⟨⟨isMode, .inr (.inl rfl)⟩, (EndsIn.nil _).next first,
      fun set => by simp [noProgram] at set⟩
  | secondUnlock noProgram seq second =>
    rw [seq] at unlock
    exact ⟨⟨isMode, .inr (.inr rfl)⟩, EndsIn.next unlock second,
      fun set => by simp [noProgram] at set⟩
  | commandProgram seq command =>
    rw [seq] at unlock
    exact ⟨⟨isMode, .inl rfl⟩, .nil _, fun _ => EndsIn.next unlock command⟩
  | setUpErase noProgram =>
    exact ⟨⟨isMode, .inl rfl⟩, .nil _, fun set => by simp [noProgram] at set⟩
  | turnedAway newMode _ given noProgram =>
    exact ⟨⟨mode newMode given, .inl rfl⟩, .nil _, fun set => by simp [noProgram] at set⟩

theorem RemembersErase.transition {history : List Cycle} {c : Cycle} {s after : Sequencer}
    {f array : Flash} (remembers : Remembers history s) (setUp : RemembersErase history s)
    (undisturbed : s.erase = true → NextEraseCycle s.seq c)
    (step : Transition c s f after array) : RemembersErase (history ++ [c]) after := by
  intro erase
  cases step with
  | programmed program =>
    have noProgram := (setUp erase).1
    rw [program] at noProgram
    cases noProgram
  | erased => cases erase
  | firstUnlock noProgram seq first =>
    have before := (setUp erase).2
    rw [seq] at before
    exact ⟨noProgram, EndsIn.next before first⟩
  | secondUnlock noProgram seq second =>
    have before := (setUp erase).2
    rw [seq] at before
    exact ⟨noProgram, EndsIn.next before second⟩
  | commandProgram seq command =>
    have next := undisturbed erase
    simp [NextEraseCycle, Cycle.Erases, Cycle.Commands, seq, command.1] at next
  | setUpErase noProgram seq command =>
    have unlock := remembers.unlock
    rw [seq] at unlock
    exact ⟨noProgram, EndsIn.next unlock command⟩
  | turnedAway newMode _ given noProgram astray => exact absurd (undisturbed erase) (astray erase)

theorem run_snoc (f : Flash) (actions : List Action) (action : Action) :
    f.run (actions ++ [action]) = (f.run actions).perform action := by
  simp [run]

theorem history_read (actions : List Action) (off : Word) (size : Size) :
    history (actions ++ [.read off size]) = history actions := by
  simp [history]

theorem history_write (actions : List Action) (c : Cycle) :
    history (actions ++ [.write c]) = history actions ++ [c] := by
  simp [history]

/-- A write is a transition, and the command register keeps where it leads. -/
theorem write_transition {earlier : List Cycle} {f : Flash}
    (remembers : Remembers earlier f.commandState) (c : Cycle) :
    ∃ after array, Transition c f.commandState f after array ∧
      (f.perform (.write c)).commandState = after ∧ (f.perform (.write c)).bytes = array.bytes := by
  have step := advance_transition c f.commandState f
  exact ⟨_, _, step, commandState_setCommand (remembers.transition step).encodable _, rfl⟩

/-- The sequencer remembers the last writes of every run. -/
theorem remembers_run (f : Flash) (actions : List Action) :
    Remembers (history actions) (f.reset.run actions).commandState := by
  induction actions using List.reverseRecOn with
  | nil =>
    rw [run, List.foldl_nil, reset_commandState]
    exact ⟨⟨.inl rfl, .inl rfl⟩, .nil _, fun set => by cases set⟩
  | append_singleton actions action ih =>
    rw [run_snoc]
    cases action with
    | read off size => rwa [history_read]
    | write c =>
      obtain ⟨after, array, step, reached, _⟩ := write_transition ih c
      rw [history_write, reached]
      exact ih.transition step

theorem RunUndisturbed.init {f : Flash} {actions : List Action} {action : Action}
    (undisturbed : RunUndisturbed f (actions ++ [action])) : RunUndisturbed f actions :=
  fun done next rest split => undisturbed done next (rest ++ [action]) (by simp [split])

/-- In an undisturbed run it remembers the erase that is set up, too. -/
theorem remembersErase_run {f : Flash} {actions : List Action}
    (undisturbed : RunUndisturbed f.reset actions) :
    RemembersErase (history actions) (f.reset.run actions).commandState := by
  induction actions using List.reverseRecOn with
  | nil =>
    rw [run, List.foldl_nil, reset_commandState]
    exact fun set => by cases set
  | append_singleton actions action ih =>
    have setUp := ih undisturbed.init
    rw [run_snoc]
    cases action with
    | read off size => rwa [history_read]
    | write c =>
      have remembers := remembers_run f actions
      obtain ⟨after, array, step, reached, _⟩ := write_transition remembers c
      rw [history_write, reached]
      exact setUp.transition remembers (undisturbed actions (.write c) [] (by simp)) step

/-- Bits are programmed by the data of a program command and by nothing else. -/
theorem programsOnlyCommanded (f : Flash) (actions : List Action) :
    ProgramsOnlyCommanded f.reset actions := by
  intro done c rest _ ⟨i, bit, clear, set⟩
  have remembers := remembers_run f done
  obtain ⟨after, array, step, _, bytes⟩ := write_transition remembers c
  rw [run_snoc, bytes] at clear
  have cleared : SetsBit array (f.reset.run done) := ⟨i, bit, clear, set⟩
  cases step with
  | programmed program => exact remembers.program program
  | erased first last => exact absurd cleared (not_setsBit_eraseBytes first last _)
  | turnedAway _ _ _ _ _ same => exact absurd cleared (not_setsBit_of_eq same.symm)
  | _ => exact absurd cleared (not_setsBit_of_eq rfl)

/-- Where nothing but its own cycles is written while an erase is set up, bits
are erased by the six cycles and by nothing else. -/
theorem erasesOnlyCommanded {f : Flash} {actions : List Action}
    (undisturbed : RunUndisturbed f.reset actions) : ErasesOnlyCommanded f.reset actions := by
  intro done c rest split ⟨i, bit, clear, set⟩
  have before : RunUndisturbed f.reset done :=
    fun earlier action later isSplit =>
      undisturbed earlier action (later ++ .write c :: rest) (by simp [split, isSplit])
  have remembers := remembers_run f done
  obtain ⟨after, array, step, _, bytes⟩ := write_transition remembers c
  rw [run_snoc, bytes] at set
  have raised : SetsBit (f.reset.run done) array := ⟨i, bit, clear, set⟩
  cases step with
  | programmed => exact absurd raised (not_setsBit_programBytes _ _ _ _)
  | erased first last _ seq erase erases =>
    have setUp := (remembersErase_run before erase).2
    rw [seq] at setUp
    exact EndsIn.next setUp erases
  | turnedAway _ _ _ _ _ same => exact absurd raised (not_setsBit_of_eq same)
  | _ => exact absurd raised (not_setsBit_of_eq rfl)

/-- Every bit of the array changes by its own command alone, as long as an erase
that is set up is carried through. -/
theorem commanded_of_undisturbed (f : Flash) (actions : List Action) :
    ProgramsOnlyCommanded f.reset actions ∧
      (RunUndisturbed f.reset actions → ErasesOnlyCommanded f.reset actions) :=
  ⟨programsOnlyCommanded f actions, erasesOnlyCommanded⟩

/-- A part of one byte, and writes at the command addresses. -/
def onePart : Flash where
  name := ascii "flash-u201"
  bytes := [0]

def cycleAt (off value : Word) : Action :=
  .write { off, size := .half, value }

/-- The six cycles of a sector erase. -/
def carriedThrough : List Action :=
  [cycleAt 0xaaa 0xaa, cycleAt 0x554 0x55, cycleAt 0xaaa 0x80,
    cycleAt 0xaaa 0xaa, cycleAt 0x554 0x55, cycleAt 0 0x30]

/-- A reset command in the middle of them. -/
def interrupted : List Action :=
  [cycleAt 0xaaa 0xaa, cycleAt 0x554 0x55, cycleAt 0xaaa 0x80, cycleAt 0xaaa 0xf0,
    cycleAt 0xaaa 0xaa, cycleAt 0x554 0x55, cycleAt 0 0x30]

instance (seq : Byte) (c : Cycle) : Decidable (NextEraseCycle seq c) := by
  unfold NextEraseCycle Cycle.IsFirstUnlock Cycle.IsSecondUnlock Cycle.Erases Cycle.Commands
  infer_instance

instance (f : Flash) : (action : Action) → Decidable (f.Undisturbed action)
  | .read _ _ => inferInstanceAs (Decidable True)
  | .write c => inferInstanceAs
      (Decidable (f.commandState.erase = true → NextEraseCycle f.commandState.seq c))

theorem RunUndisturbed.nil (f : Flash) : RunUndisturbed f [] := by
  intro done action rest split
  simp at split

theorem RunUndisturbed.cons {f : Flash} {action : Action} {actions : List Action}
    (first : f.Undisturbed action) (later : RunUndisturbed (f.perform action) actions) :
    RunUndisturbed f (action :: actions) := by
  intro done next rest split
  cases done with
  | nil =>
    obtain ⟨rfl, _⟩ := List.cons.inj split
    exact first
  | cons head done =>
    obtain ⟨rfl, tail⟩ := List.cons.inj split
    exact later done next rest tail

theorem runUndisturbed_carriedThrough : RunUndisturbed onePart.reset carriedThrough := by
  iterate 6 refine .cons (by decide) ?_
  exact .nil _

theorem carriedThrough_commanded :
    ProgramsOnlyCommanded onePart.reset carriedThrough ∧
      ErasesOnlyCommanded onePart.reset carriedThrough :=
  have commanded := commanded_of_undisturbed onePart carriedThrough
  ⟨commanded.1, commanded.2 runUndisturbed_carriedThrough⟩

/-- The reset command leaves the erase set up: the next unlock completes it. -/
theorem interrupted_erases : ¬ ErasesOnlyCommanded onePart.reset interrupted := by
  intro commanded
  have endsIn := commanded (interrupted.take 6) { off := 0, size := .half, value := 0x30 } [] rfl
    ⟨0, 0, by decide, by decide⟩
  obtain ⟨last, suffix, cycles⟩ := endsIn
  have isLast := List.suffix_iff_eq_drop.mp suffix
  rw [← cycles.length_eq] at isLast
  rw [isLast] at cycles
  rcases cycles with _ | ⟨first, _⟩
  exact absurd first.1 (by decide)

end Flash

end Memory

end GoRetroTv
