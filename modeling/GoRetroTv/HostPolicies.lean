import GoRetroTv.BoardAccess
import GoRetroTv.TaskWalk

/-!
# The host's policies

`internal/machine/handoff.go` and `internal/machine/sky_gates.go`: what the host does to the guest
without being asked.  When the boot loader has been idle for long enough the core is moved to the
application, and when the application has its tasks two of its gates are answered.
-/

namespace GoRetroTv

open Cpu Snapcodec

structure Handoff where
  idleSpin : DoubleWord := 0
  done : Bool := false
  deriving DecidableEq

namespace Handoff

def idleThreshold : DoubleWord :=
  200000

def readyAddress : Word :=
  0x800083cc

def currentAddress : Word :=
  0x800083d0

def magicAddress : Word :=
  0xbfc12584

def headerAddress : Word :=
  0xbfc20000

def entryAddress : Word :=
  0xbfc2002c

/-- Where the core starts if the image does not say: the entry stub in flash. -/
def entryStub : Word :=
  0xbfc2048c

/-- The field of the image, if it is an address in the image. -/
def entryOf (field : Word) : Word :=
  if field < 0xbfc20000 ∨ 0xbfe00000 ≤ field then entryStub else field

/-- `Tick`: the entry point that the core is moved to, if it is.  `slot` says whether a delay
slot is pending. -/
def tick (slot : Bool) (b : Board) (h : Handoff) :
    Except String (Option Word) × Handoff × Board :=
  if h.done then (.ok none, h, b)
  else
    let (ready, b) := b.look readyAddress .word
    let (current, b) := b.look currentAddress .word
    if ready < 0x100 ∨ current ≠ 0 then (.ok none, { h with idleSpin := 0 }, b)
    else
      let h := { h with idleSpin := h.idleSpin + 16 }
      if h.idleSpin < idleThreshold ∨ slot then (.ok none, h, b)
      else
        let (magic, b) := b.look magicAddress .word
        let (header, b) := b.look headerAddress .word
        if header ≠ magic then
          (.error ("application handoff: flash header " ++
            s!"{upperHexText 8 header.toNat} differs from ROM magic " ++
            s!"{upperHexText 8 magic.toNat}"), h, b)
        else
          let (field, b) := b.look entryAddress .word
          (.ok (some (entryOf field)), { h with done := true }, b)

def snapshot (h : Handoff) : Except String (List Byte) :=
  newWriter (ascii "application-handoff") 1 |>.uint64 h.idleSpin |>.bool h.done |>.blob

def readSnapshot : Reading Handoff := do
  let idleSpin ← Reading.uint64
  let done ← Reading.bool
  Reading.wrap "application handoff: restore: " Reading.done
  return { idleSpin, done }

def restore (blob : List Byte) : Except String Handoff :=
  restoring blob (ascii "application-handoff") 1 1 "application handoff: restore: " readSnapshot

end Handoff

/-- `ApplyHostPatch`. -/
def Memory.Flash.applyHostPatch (off : Word) (expected replacement : Byte) (f : Flash) :
    Except String Flash :=
  let place := upperHexText 0 off.toNat
  match f.bytes[off.toNat]? with
  | none => .error s!"memory: flash {text f.name}: host patch offset {place} is outside image"
  | some found =>
      if found ≠ expected then
        .error (s!"memory: flash {text f.name}: host patch at {place} found " ++
          s!"{upperHexText 2 found.toNat}, want {upperHexText 2 expected.toNat}")
      else .ok { f with bytes := f.bytes.set off.toNat replacement }

/-- `taskCount`. -/
def Nucleus.taskCount (r : Memory.Ram) : Except String Nat :=
  match walkTasks r with
  | some (tasks, .ok ()) => .ok tasks.length
  | some (_, .error error) => .error error
  | none => .ok 0

structure SkyGates where
  enabled : Bool
  done : Bool := false
  next : DoubleWord := 0
  deriving DecidableEq

namespace SkyGates

def checkInterval : DoubleWord :=
  4000000

def ramAddress : Word :=
  0x80054f84

def flashOffset : Word :=
  0x72fa1

def tasksAwaited : Nat :=
  42

/-- `Tick`: whether the gates were answered. -/
def tick (persist : I2c.Persist) (icount : DoubleWord) (handoffDone : Bool) (b : Board)
    (g : SkyGates) : Except String Bool × SkyGates × Board :=
  if !g.enabled ∨ g.done ∨ !handoffDone ∨ icount < g.next then (.ok false, g, b)
  else
    let g := { g with next := icount + checkInterval }
    match Nucleus.taskCount b.ram with
    | .error error => (.error s!"sky gates: task census: {error}", g, b)
    | .ok count =>
        if count < tasksAwaited then (.ok false, g, b)
        else
          let (gate, b) := b.look ramAddress .word
          if gate ≠ 0xffffffff then (.ok false, g, b)
          else
            match b.flashU202.applyHostPatch flashOffset 0x75 0x76 with
            | .error error => (.error error, g, b)
            | .ok flash =>
                let b := (b.put .flashU202 flash).poke persist ramAddress .word 0
                (.ok true, { g with done := true }, b)

def snapshot (g : SkyGates) : Except String (List Byte) :=
  newWriter (ascii "sky-gates") 1 |>.bool g.enabled |>.bool g.done |>.uint64 g.next |>.blob

def readSnapshot : Reading SkyGates := do
  let enabled ← Reading.bool
  let done ← Reading.bool
  let next ← Reading.uint64
  Reading.wrap "sky gates: restore: " Reading.done
  return { enabled, done, next }

def restore (blob : List Byte) : Except String SkyGates :=
  restoring blob (ascii "sky-gates") 1 1 "sky gates: restore: " readSnapshot

end SkyGates

section Looking

variable {b : Board} {virt off : Word} {size : Size}

/-- A word inside DRAM is read as it stands. -/
theorem Board.look_dram (reached : Region.reach virt = some (.dram, off))
    (inside : off.toNat + size.bytes ≤ Memory.dramSize) :
    b.look virt size = (b.ram.peek off size, b) := by
  unfold Board.look
  rw [reached]
  change (_, b.put .dram (b.ram.read off size).2) = _
  unfold Memory.Ram.read
  rw [if_pos inside]
  rfl

/-- A read of flash leaves the part alone. -/
theorem Board.look_flash (reached : Region.reach virt = some (.flashU202, off)) :
    b.look virt size = (b.flashU202.read off size, b) := by
  unfold Board.look
  rw [reached]
  rfl

end Looking

namespace Handoff

variable {b : Board} {h : Handoff} {slot : Bool}

/-- The boot loader waits, with its scheduler ready. -/
def Idle (b : Board) : Prop :=
  ¬b.ram.peek 0x83cc .word < 0x100 ∧ b.ram.peek 0x83d0 .word = 0

instance : Decidable (Idle b) :=
  inferInstanceAs (Decidable (_ ∧ _))

theorem look_ready : b.look readyAddress .word = (b.ram.peek 0x83cc .word, b) :=
  Board.look_dram (by decide) (by decide)

theorem look_current : b.look currentAddress .word = (b.ram.peek 0x83d0 .word, b) :=
  Board.look_dram (by decide) (by decide)

theorem look_magic : b.look magicAddress .word = (b.flashU202.read 0x12584 .word, b) :=
  Board.look_flash (by decide)

theorem look_header : b.look headerAddress .word = (b.flashU202.read 0x20000 .word, b) :=
  Board.look_flash (by decide)

theorem look_entry : b.look entryAddress .word = (b.flashU202.read 0x2002c .word, b) :=
  Board.look_flash (by decide)

/-- Everything a tick may do: it is done, or it counts, or it refuses an image, or it hands
over. -/
inductive Ticked (slot : Bool) (b : Board) (h : Handoff) :
    Except String (Option Word) → Handoff → Prop
  | finished (done : h.done = true) : Ticked slot b h (.ok none) h
  | busy (undone : h.done = false) (busy : ¬Idle b) :
      Ticked slot b h (.ok none) { h with idleSpin := 0 }
  | waits (undone : h.done = false) (idle : Idle b)
      (early : h.idleSpin + 16 < idleThreshold ∨ slot = true) :
      Ticked slot b h (.ok none) { h with idleSpin := h.idleSpin + 16 }
  | refuses (error : String) (undone : h.done = false) (idle : Idle b)
      (long : ¬h.idleSpin + 16 < idleThreshold) (noSlot : slot = false)
      (differs : b.flashU202.read 0x20000 .word ≠ b.flashU202.read 0x12584 .word) :
      Ticked slot b h (.error error) { h with idleSpin := h.idleSpin + 16 }
  | hands (undone : h.done = false) (idle : Idle b)
      (long : ¬h.idleSpin + 16 < idleThreshold) (noSlot : slot = false)
      (agrees : b.flashU202.read 0x20000 .word = b.flashU202.read 0x12584 .word) :
      Ticked slot b h (.ok (some (entryOf (b.flashU202.read 0x2002c .word))))
        { idleSpin := h.idleSpin + 16, done := true }

theorem tick_ticked (slot : Bool) (b : Board) (h : Handoff) :
    (h.tick slot b).2.2 = b ∧ Ticked slot b h (h.tick slot b).1 (h.tick slot b).2.1 := by
  unfold tick
  rw [look_ready]
  dsimp only
  rw [look_current]
  dsimp only
  rw [look_magic]
  dsimp only
  rw [look_header]
  dsimp only
  rw [look_entry]
  by_cases done : h.done = true
  · rw [if_pos done]
    exact ⟨rfl, .finished done⟩
  rw [if_neg done]
  have undone : h.done = false := Bool.eq_false_iff.mpr done
  by_cases busy : b.ram.peek 0x83cc .word < 0x100 ∨ b.ram.peek 0x83d0 .word ≠ 0
  · rw [if_pos busy]
    refine ⟨rfl, .busy undone fun idle => ?_⟩
    exact busy.elim idle.1 fun some_ => some_ idle.2
  rw [if_neg busy]
  rw [not_or, not_not] at busy
  by_cases early : h.idleSpin + 16 < idleThreshold ∨ slot = true
  · rw [if_pos early]
    exact ⟨rfl, .waits undone busy early⟩
  rw [if_neg early]
  rw [not_or, Bool.not_eq_true] at early
  by_cases differs : b.flashU202.read 0x20000 .word ≠ b.flashU202.read 0x12584 .word
  · rw [if_pos differs]
    exact ⟨rfl, .refuses _ undone busy early.1 early.2 differs⟩
  · rw [if_neg differs]
    exact ⟨rfl, .hands undone busy early.1 early.2 (not_ne_iff.mp differs)⟩

/-- The saved fields. -/
def encodePolicy (h : Handoff) : List Byte :=
  bigEndian 8 h.idleSpin.toNat ++ encodeBool h.done

theorem encodePolicy_length (h : Handoff) : h.encodePolicy.length = 9 := by
  simp [encodePolicy, encodeBool]

theorem snapshot_eq (h : Handoff) :
    h.snapshot = .ok (Writer.frame (ascii "application-handoff") 1 h.encodePolicy) := by
  rw [snapshot, newWriter_eq 1 (show ascii "application-handoff" ≠ [] by decide) (by decide),
    Writer.uint64_mk, Writer.bool_mk, List.nil_append]
  exact Writer.blob_mk _ _ _ (by decide) (by
    change h.encodePolicy.length < _
    rw [encodePolicy_length]
    decide)

theorem restore_frame (h : Handoff) :
    restore (Writer.frame (ascii "application-handoff") 1 h.encodePolicy) = .ok h := by
  refine restoring_frame (by decide) (by rw [encodePolicy_length]; decide) (by decide) (by decide)
    ?_
  apply Parses.bind (.uint64 h.idleSpin)
  apply Parses.bind_last (.bool h.done)
  apply Parses.wrapDone
  exact Parses.pure [] h

end Handoff

namespace SkyGates

variable {b : Board} {g : SkyGates} {icount : DoubleWord} {handoffDone : Bool}
  {persist : I2c.Persist}

/-- A check is due. -/
structure Due (icount : DoubleWord) (handoffDone : Bool) (g : SkyGates) : Prop where
  enabled : g.enabled = true
  undone : g.done = false
  handedOver : handoffDone = true
  late : g.next ≤ icount

/-- The application has its tasks and has closed both gates. -/
structure Closed (b : Board) : Prop where
  tasks : ∃ tasks, Nucleus.walkTasks b.ram = some (tasks, .ok ()) ∧ tasksAwaited ≤ tasks.length
  gate : b.ram.peek 0x54f84 .word = 0xffffffff
  image : b.flashU202.bytes[flashOffset.toNat]? = some 0x75

/-- The board with both gates answered. -/
def answered (b : Board) : Board :=
  { b with
    ram := b.ram.write 0x54f84 .word 0
    flashU202 := { b.flashU202 with bytes := b.flashU202.bytes.set flashOffset.toNat 0x76 } }

theorem look_gate : b.look ramAddress .word = (b.ram.peek 0x54f84 .word, b) :=
  Board.look_dram (by decide) (by decide)

theorem poke_gate (flash : Memory.Flash) :
    (b.put .flashU202 flash).poke persist ramAddress .word 0 =
      { b with ram := b.ram.write 0x54f84 .word 0, flashU202 := flash } := by
  have reached : Region.reach ramAddress = some (.dram, 0x54f84) := by decide
  unfold Board.poke
  rw [reached]
  rfl

/-- Everything a tick may do: nothing is due, or it checks and waits, or it fails, or it answers
both gates. -/
inductive Ticked (icount : DoubleWord) (handoffDone : Bool) (b : Board) (g : SkyGates) :
    Except String Bool → SkyGates → Board → Prop
  | off (early : ¬g.Due icount handoffDone) : Ticked icount handoffDone b g (.ok false) g b
  | fails (due : g.Due icount handoffDone) (error : String) (unanswered : ¬Closed b) :
      Ticked icount handoffDone b g (.error error) { g with next := icount + checkInterval } b
  | waits (due : g.Due icount handoffDone) (unanswered : ¬Closed b) :
      Ticked icount handoffDone b g (.ok false) { g with next := icount + checkInterval } b
  | answers (due : g.Due icount handoffDone) (closed : Closed b) :
      Ticked icount handoffDone b g (.ok true)
        { g with next := icount + checkInterval, done := true } (answered b)

theorem taskCount_ok {r : Memory.Ram} {count : Nat} (counted : Nucleus.taskCount r = .ok count)
    (some_ : 0 < count) :
    ∃ tasks, Nucleus.walkTasks r = some (tasks, .ok ()) ∧ tasks.length = count := by
  unfold Nucleus.taskCount at counted
  split at counted
  next tasks walked =>
    cases counted
    exact ⟨tasks, walked, rfl⟩
  · cases counted
  · cases counted
    exact absurd some_ (Nat.lt_irrefl 0)

theorem tick_ticked (persist : I2c.Persist) (icount : DoubleWord) (handoffDone : Bool) (b : Board)
    (g : SkyGates) :
    Ticked icount handoffDone b g (g.tick persist icount handoffDone b).1
      (g.tick persist icount handoffDone b).2.1 (g.tick persist icount handoffDone b).2.2 := by
  unfold tick
  by_cases early : !g.enabled ∨ g.done ∨ !handoffDone ∨ icount < g.next
  · rw [if_pos early]
    refine .off fun due => ?_
    obtain ⟨enabled, undone, handedOver, late⟩ := due
    rw [enabled, undone, handedOver] at early
    exact absurd late (by simpa using early)
  rw [if_neg early]
  have due : g.Due icount handoffDone := by
    simp only [not_or, Bool.not_eq_true, Bool.not_eq_false', BitVec.not_lt] at early
    exact ⟨early.1, early.2.1, early.2.2.1, early.2.2.2⟩
  dsimp only
  cases counted : Nucleus.taskCount b.ram with
  | error error =>
    refine .fails due _ fun closed => ?_
    obtain ⟨tasks, walked, -⟩ := closed.tasks
    unfold Nucleus.taskCount at counted
    rw [walked] at counted
    cases counted
  | ok count =>
    dsimp only
    by_cases few : count < tasksAwaited
    · rw [if_pos few]
      refine .waits due fun closed => ?_
      obtain ⟨tasks, walked, enough⟩ := closed.tasks
      unfold Nucleus.taskCount at counted
      rw [walked] at counted
      cases counted
      exact absurd few (Nat.not_lt.mpr enough)
    rw [if_neg few, look_gate]
    dsimp only
    by_cases open_ : b.ram.peek 0x54f84 .word ≠ 0xffffffff
    · rw [if_pos open_]
      exact .waits due fun closed => open_ closed.gate
    rw [if_neg open_]
    unfold Memory.Flash.applyHostPatch
    dsimp only
    cases found : b.flashU202.bytes[flashOffset.toNat]? with
    | none =>
      refine .fails due _ fun closed => ?_
      have image := closed.image
      rw [found] at image
      cases image
    | some byte =>
      dsimp only
      by_cases other : byte ≠ 0x75
      · rw [if_pos other]
        refine .fails due _ fun closed => ?_
        have image := closed.image
        rw [found] at image
        exact other (Option.some.inj image)
      · rw [if_neg other]
        dsimp only
        rw [poke_gate]
        have tasks := Nat.not_lt.mp few
        obtain ⟨visited, walked, isCount⟩ := taskCount_ok counted (Nat.lt_of_lt_of_le (by decide) tasks)
        refine .answers due ⟨⟨visited, walked, isCount ▸ tasks⟩, not_ne_iff.mp open_, ?_⟩
        rw [found, not_ne_iff.mp other]

/-- The saved fields. -/
def encodePolicy (g : SkyGates) : List Byte :=
  encodeBool g.enabled ++ (encodeBool g.done ++ bigEndian 8 g.next.toNat)

theorem encodePolicy_length (g : SkyGates) : g.encodePolicy.length = 10 := by
  simp [encodePolicy, encodeBool]

theorem snapshot_eq (g : SkyGates) :
    g.snapshot = .ok (Writer.frame (ascii "sky-gates") 1 g.encodePolicy) := by
  rw [snapshot, newWriter_eq 1 (show ascii "sky-gates" ≠ [] by decide) (by decide),
    Writer.bool_mk, Writer.bool_mk, Writer.uint64_mk, List.nil_append, List.append_assoc]
  exact Writer.blob_mk _ _ _ (by decide) (by
    change g.encodePolicy.length < _
    rw [encodePolicy_length]
    decide)

theorem restore_frame (g : SkyGates) :
    restore (Writer.frame (ascii "sky-gates") 1 g.encodePolicy) = .ok g := by
  refine restoring_frame (by decide) (by rw [encodePolicy_length]; decide) (by decide) (by decide)
    ?_
  apply Parses.bind (.bool g.enabled)
  apply Parses.bind (.bool g.done)
  apply Parses.bind_last (.uint64 g.next)
  apply Parses.wrapDone
  exact Parses.pure [] g

/-- The gates are answered on devices that stay within their bounds. -/
theorem answered_sound (sound : b.Sound) : (answered b).Sound :=
  { sound with
    sizeU202 := by
      change (b.flashU202.bytes.set _ _).length = _
      rw [List.length_set]
      exact sound.sizeU202 }

end SkyGates

end GoRetroTv
