import GoRetroTv.DramMemory
import GoRetroTv.SnapshotRecords

/-!
# The board's flash parts

`internal/memory/flash.go`: an array behind the AMD command sequence.  Writes
advance the sequence; programming clears bits and an erase sets them.
-/

namespace GoRetroTv

namespace Memory

open Snapcodec Cpu

/-- Where a command sequence stands. -/
structure Sequencer where
  mode : Byte
  seq : Byte
  program : Bool
  erase : Bool
  deriving DecidableEq

structure Flash where
  name : List Byte
  bytes : List Byte
  refused : DoubleWord := 0
  command : Byte := 0
  deriving DecidableEq

namespace Flash

/-- `NewFlash`. -/
def new (name image : List Byte) : Except String Flash :=
  if name = [] then .error "memory: flash needs a name: it is the key in a machine snapshot"
  else if image = [] then .error s!"memory: flash {text name}: image is empty"
  else .ok { name, bytes := image }

def commandState (f : Flash) : Sequencer where
  mode := f.command &&& 1
  seq := f.command >>> 1 &&& 3
  program := f.command &&& 8 != 0
  erase := f.command &&& 16 != 0

def setCommand (s : Sequencer) (f : Flash) : Flash :=
  let flag (bit : Bool) (mask : Byte) := if bit then mask else 0
  { f with command := s.mode ||| s.seq <<< 1 ||| flag s.program 8 ||| flag s.erase 16 }

/-- What the part answers in its identification mode. -/
def identify (off : Word) (size : Size) : Word :=
  let manufacturer : Word := 0x0004
  let device : Word := 0x2249
  let id := if off >>> 1 &&& 1 ≠ 0 then device else manufacturer
  match size with
  | .word => manufacturer <<< 16 ||| device
  | .half => id
  | .byte => if off &&& 1 ≠ 0 then id &&& 0xff else id >>> 8

/-- The big-endian value of the bytes at an offset, zero past the end. -/
def peek (off : Word) (size : Size) (f : Flash) : Word :=
  (List.range size.bytes).foldl
    (fun v i => v <<< 8 ||| (f.bytes.getD (off + BitVec.ofNat 32 i).toNat 0).setWidth 32) 0

def read (off : Word) (size : Size) (f : Flash) : Word :=
  if f.command &&& 1 ≠ 0 then identify off size else f.peek off size

/-- Program the bytes of a value: bits are only cleared. -/
def programBytes (off : Word) (size : Size) (value : Word) (f : Flash) : Flash :=
  (List.range size.bytes).foldl
    (fun f i =>
      let place := (off + BitVec.ofNat 32 i).toNat
      { f with bytes := f.bytes.set place (f.bytes.getD place 0 &&& Ram.byteOf size value i) })
    f

/-- `flashSector`: where a sector starts and ends. -/
def flashSector (off : Word) : Word × Word :=
  if off < 0x4000 then (0, 0x4000)
  else if off < 0x6000 then (0x4000, 0x6000)
  else if off < 0x8000 then (0x6000, 0x8000)
  else if off < 0x10000 then (0x8000, 0x10000)
  else
    let start := off &&& ~~~0xffff
    (start, start + 0x10000)

/-- Set the bytes from one position up to another. -/
def eraseBytes (first last : Nat) (f : Flash) : Flash :=
  { f with bytes := f.bytes.mapIdx fun i byte => if first ≤ i ∧ i < last then 0xff else byte }

def refuse (f : Flash) : Flash :=
  { f with refused := f.refused + 1 }

/-- The third unlocked cycle names a command. -/
def unlockedCommand (command : Word) (s : Sequencer) (f : Flash) : Sequencer × Flash :=
  let s := { s with seq := 0 }
  match command.toNat with
  | 0x90 => ({ s with mode := 1 }, f)
  | 0xa0 => ({ s with program := true }, f)
  | 0x80 => ({ s with erase := true }, f)
  | 0x10 => if s.erase then ({ s with erase := false }, f.eraseBytes 0 f.bytes.length) else (s, f)
  | _ => (s, f.refuse)

/-- One write, as the sequencer and the array see it. -/
def advance (off : Word) (size : Size) (value : Word) (s : Sequencer) (f : Flash) :
    Sequencer × Flash :=
  let place := off >>> 1 &&& 0xfff
  let command := value &&& 0xff
  if s.program then ({ s with program := false, seq := 0 }, f.programBytes off size value)
  else if s.seq = 2 ∧ s.erase ∧ command = 0x30 then
    let sector := flashSector off
    ({ s with erase := false, seq := 0 }, f.eraseBytes sector.1.toNat sector.2.toNat)
  else if command = 0xf0 ∧ s.erase = false then ({ s with mode := 0, seq := 0 }, f)
  else if s.seq = 0 ∧ command = 0xaa ∧ place = 0x555 then ({ s with seq := 1 }, f)
  else if s.seq = 1 ∧ command = 0x55 ∧ place = 0x2aa then ({ s with seq := 2 }, f)
  else if s.seq = 2 ∧ place = 0x555 then unlockedCommand command s f
  else ({ s with seq := 0 }, f.refuse)

def write (off : Word) (size : Size) (value : Word) (f : Flash) : Flash :=
  let advanced := advance off size value f.commandState f
  advanced.2.setCommand advanced.1

/-- `Reset` leaves the array. -/
def reset (f : Flash) : Flash :=
  { f with refused := 0, command := 0 }

def snapshot (f : Flash) : Except String (List Byte) :=
  labelled s!"memory: snapshot {text f.name}: " <|
    newWriter f.name 2
      |>.bytes f.bytes
      |>.uint64 f.refused
      |>.uint8 f.command
      |>.blob

/-- A command state that `Restore` takes. -/
def validCommand (command : Byte) : Bool :=
  command &&& ~~~0x1f == 0 && decide (command >>> 1 &&& 3 ≤ 2)

def readSnapshot (f : Flash) : Reading Flash := do
  let bytes ← Reading.bytes
  let refused ← Reading.uint64
  let command ← Reading.uint8
  Reading.wrap s!"memory: restore {text f.name}: " Reading.done
  Reading.require (decide (bytes.length = f.bytes.length) && validCommand command)
    s!"memory: restore {text f.name}: incompatible flash state"
  return { f with bytes, refused, command }

/-- `Restore`. -/
def restore (blob : List Byte) (f : Flash) : Except String Flash :=
  restoring blob f.name 2 2 s!"memory: restore {text f.name}: " f.readSnapshot

def encodeFlash (f : Flash) : List Byte :=
  encodeBytes f.bytes ++ (bigEndian 8 f.refused.toNat ++ bigEndian 1 f.command.toNat)

theorem written (f : Flash) :
    Written f.name 2 (encodeFlash f)
      (newWriter f.name 2 |>.bytes f.bytes |>.uint64 f.refused |>.uint8 f.command) := by
  have fields := (Written.start f.name 2).bytes f.bytes |>.uint64 f.refused |>.uint8 f.command
  simpa only [encodeFlash, List.nil_append, List.append_assoc] using fields

def blobOf (f : Flash) : List Byte :=
  Writer.frame f.name 2 (encodeFlash f)

/-- A named part whose snapshot fits and whose command state a restore takes. -/
structure Bounded (f : Flash) : Prop where
  named : f.name ≠ []
  nameFits : f.name.length ≤ maxNameLen
  size : f.bytes.length ≤ 0x200000
  command : validCommand f.command = true

section

variable {f : Flash} (bounded : f.Bounded)
include bounded

theorem encodeFlash_length_le : (encodeFlash f).length ≤ 0x300000 := by
  have size := bounded.size
  simp only [encodeFlash, List.length_append, encodeBytes_length, bigEndian_length]
  omega

theorem encodeFlash_fits : (encodeFlash f).length < wordLimit :=
  (encodeFlash_length_le bounded).trans_lt (by decide)

theorem snapshot_eq : f.snapshot = .ok (blobOf f) := by
  have fits : f.bytes.length < wordLimit := bounded.size.trans_lt (by decide)
  rw [snapshot, newWriter_eq 2 bounded.named bounded.nameFits, Writer.bytes_mk _ _ _ fits,
    Writer.uint64_mk, Writer.uint8_mk]
  simp only [List.nil_append, List.append_assoc]
  exact congrArg (labelled _) (Writer.blob_mk _ _ _ bounded.nameFits (encodeFlash_fits bounded))

/-- The part accepts its own snapshot. -/
theorem restore_blobOf : f.restore (blobOf f) = .ok f := by
  refine restoring_frame bounded.nameFits (encodeFlash_fits bounded) (by decide) (by decide) ?_
  unfold readSnapshot encodeFlash
  apply Parses.bind (.bytes (bounded.size.trans_lt (by decide)))
  apply Parses.bind (.uint64 _)
  apply Parses.bind_last (.uint8 _)
  apply Parses.wrapDone
  apply Parses.require
  · rw [Bool.and_eq_true, decide_eq_true_iff]
    exact ⟨rfl, bounded.command⟩
  exact Parses.pure [] f

end

/-- A part reads a blob by its name and its size. -/
theorem restore_congr {f g : Flash} (name : f.name = g.name)
    (size : f.bytes.length = g.bytes.length) (blob : List Byte) :
    f.restore blob = g.restore blob := by
  obtain ⟨name, bytes, refused, command⟩ := f
  obtain ⟨name', bytes', refused', command'⟩ := g
  cases name
  unfold restore readSnapshot
  dsimp only
  rw [size]

/-- A restore keeps the name and the size. -/
theorem restore_keeps {f restored : Flash} {blob : List Byte}
    (accepted : f.restore blob = .ok restored) :
    restored.name = f.name ∧ restored.bytes.length = f.bytes.length := by
  obtain ⟨r, last, read⟩ := restoring_ok accepted
  obtain ⟨bytes, _, -, read⟩ := bind_ok read
  obtain ⟨refused, _, -, read⟩ := bind_ok read
  obtain ⟨command, _, -, read⟩ := bind_ok read
  obtain ⟨_, _, -, read⟩ := bind_ok read
  obtain ⟨_, _, required, returned⟩ := bind_ok read
  have valid := require_ok required
  rw [Bool.and_eq_true, decide_eq_true_eq] at valid
  obtain ⟨rfl, -⟩ := EStateM.Result.ok.inj returned
  exact ⟨rfl, valid.1⟩

/-- A part that accepts the snapshot of a part with the same name holds what
that part held. -/
theorem restore_snapshot {f g restored : Flash} {blob : List Byte} (sameName : g.name = f.name)
    (taken : f.snapshot = .ok blob) (accepted : g.restore blob = .ok restored) : restored = f := by
  have blobbed : (newWriter f.name 2 |>.bytes f.bytes |>.uint64 f.refused |>.uint8 f.command
      |>.blob) = .ok blob := by
    unfold snapshot labelled at taken
    split at taken
    next value isBlob => rw [isBlob, taken]
    next => cases taken
  unfold restore at accepted
  rw [sameName] at accepted
  refine f.written.restored blobbed (fun fits => ?_) accepted
  simp only [encodeFlash, List.length_append, encodeBytes_length] at fits
  refine .bind (.of_reads (.bytes (by omega))) ?_
  refine .bind (.of_reads (.uint64 _)) ?_
  refine .bind_last (.of_reads (.uint8 _)) ?_
  refine .bind_check (.wrap .done) ?_
  refine .bind_check (.require _ _) ?_
  rw [show f = { g with bytes := f.bytes, refused := f.refused, command := f.command } by
    cases f; cases g; simp_all]
  exact .pure _

end Flash

end Memory

end GoRetroTv
