import GoRetroTv.GdbPackets
import GoRetroTv.WatchedAccesses

/-!
# Continuing under the debugger

`resume` and `watchHit` of `internal/gdbstub/server.go` over the backend of
`cmd/firmwaretrace/gdb_backend.go`, whose step is the board's own.  A continue tests the
address it is at before each step; a step may pump the board, take an interrupt and only
then execute an instruction.
-/

namespace GoRetroTv

namespace Gdbstub

open Cpu

/-- The digit after `Z` of a watchpoint. -/
inductive WatchKind where
  | write
  | read
  | access
  deriving DecidableEq

def WatchKind.digit : WatchKind → Nat
  | write => 2
  | read => 3
  | access => 4

structure Watchpoint where
  address : Word
  length : Nat
  kind : WatchKind
  length_pos : 0 < length
  fits : address.toNat + length ≤ 2 ^ 32
  deriving DecidableEq

/-- The replies that end `resume`. -/
inductive Stop where
  | swbreak
  | watch (w : Watchpoint)
  | refused
  | stepped
  | interrupted
  deriving DecidableEq

def Stop.text : Stop → String
  | swbreak => "T05swbreak:;"
  | watch w =>
      let label :=
        match w.kind with
        | .write => "watch"
        | .read => "rwatch"
        | .access => "awatch"
      s!"T05{label}:{String.ofList (hexDigits 0 w.address.toNat)};"
  | refused => "S0b"
  | stepped => "S05"
  | interrupted => "S02"

/-- The server's state between commands. -/
structure Server where
  breaks : List Word := []
  watches : List Watchpoint := []
  last : Stop := .stepped
  lastBreakPC : Word := 0

def overlaps (a : Word) (alen : Nat) (b : Word) (blen : Nat) : Bool :=
  a.toNat < b.toNat + blen && b.toNat < a.toNat + alen

/-- A watchpoint that an access is not skipped for. -/
def Watchpoint.catches (access : MemoryAccess) (w : Watchpoint) : Bool :=
  overlaps access.address access.size w.address w.length &&
    match w.kind with
    | .write => access.write
    | .read => !access.write
    | .access => true

/-- The inner loop of `watchHit`: the lowest address and kind. -/
def select (watches : List Watchpoint) (access : MemoryAccess) : Option Watchpoint :=
  watches.foldl
    (fun selected w =>
      if !w.catches access then selected
      else
        match selected with
        | none => some w
        | some best =>
            if w.address < best.address ∨
                w.address = best.address ∧ w.kind.digit < best.kind.digit then some w
            else some best)
    none

def watchHit (watches : List Watchpoint) (accesses : List MemoryAccess) : Option Watchpoint :=
  accesses.findSome? fun access => if access.size = 0 then none else select watches access

/-- What the gates' tick leaves. -/
structure Gated (β : Type) where
  bus : β
  raised : Byte := 0
  result : Except String Unit := .ok ()

/-- The board around the core: its bus, the clock's tick, the observations behind it, the
gates' tick and the faults of its controllers. -/
structure Board (β : Type) where
  ops : BusOps β
  tick : Pump β
  afterPump : DoubleWord → Core β → Except String Unit := fun _ _ => .ok ()
  gates : DoubleWord → β → Gated β := fun _ bus => { bus }
  fault : β → Except String Unit := fun _ => .ok ()

/-- The machine behind the backend; `retired` is the backend's own count. -/
structure Firmware (β : Type) where
  core : Core β
  machineRetired : DoubleWord := 0
  retired : DoubleWord := 0

/-- The outcome of a step: the machine, the accesses observed and the error. -/
structure Stepped (β : Type) where
  machine : Firmware β
  accesses : List MemoryAccess := []
  result : Except String Unit

namespace Board

variable {β : Type} (board : Board β)

/-- `StepWithHooks` up to the core's step. -/
def settle (i : DoubleWord) (c : Core β) : Core β × Except String Unit :=
  let due (c : Core β) : Bool := !c.hasPendingBranch || c.isa
  let after (error : String) : String := s!"after {i.toNat} instructions: {error}"
  let pumped := if due c then c.afterPump (board.tick c) else c
  match if due c then (board.tick c).result else .ok () with
  | .error error => (pumped, .error (after error))
  | .ok () =>
      match board.afterPump i pumped with
      | .error error => (pumped, .error error)
      | .ok () =>
          if due pumped then
            let gated := board.gates i pumped.bus
            let settled := { pumped with bus := gated.bus }.raise gated.raised
            match gated.result with
            | .error error => (settled, .error (after error))
            | .ok () => (settled, .ok ())
          else (pumped, .ok ())

/-- The core's step under the observer. -/
def observe (c : Core β) : Core (Observed β) × Except String Unit :=
  (c.onBus { bus := c.bus }).stepOn (Observed.fetch board.ops) (Observed.data board.ops)
    (some (Observed.boundary board.tick))

/-- `Step`. -/
def step (m : Firmware β) : Stepped β :=
  let i := m.retired
  let after (error : String) : String := s!"after {i.toNat} instructions: {error}"
  if i ≠ m.machineRetired then
    { machine := m
      result := .error <| s!"firmwaretrace: instruction {i.toNat} differs from machine retired " ++
        s!"{m.machineRetired.toNat}" }
  else
    match board.settle i m.core with
    | (core, .error error) => { machine := { m with core }, result := .error error }
    | (core, .ok ()) =>
        let stepped := board.observe core
        let core := stepped.1.unobserved
        let accesses := stepped.1.accesses
        match stepped.2 with
        | .error error => { machine := { m with core }, accesses, result := .error (after error) }
        | .ok () =>
            let m := { m with core, machineRetired := i + 1 }
            match board.fault core.bus with
            | .error error => { machine := m, accesses, result := .error (after error) }
            | .ok () => { machine := { m with retired := i + 1 }, accesses, result := .ok () }

end Board

/-- `strconv.ParseUint` of hexadecimal digits, for 32 bits. -/
def parseWord (digits : List Byte) : Option Word :=
  if digits = [] then none
  else
    match digits.mapM fromHexChar with
    | none => none
    | some values =>
        let value := values.foldl (fun value digit => 16 * value + digit.toNat) 0
        if value < 2 ^ 32 then some (BitVec.ofNat 32 value) else none

variable {β : Type}

/-- `SetRegisters` with another address: the general registers keep their values. -/
def Firmware.setPC (pc : Word) (isa : Bool) (m : Firmware β) : Except String (Firmware β) := do
  let core ← if pc ≠ m.core.pc ∨ isa ≠ m.core.isa then m.core.setDebugPC pc isa else .ok m.core
  return { m with core := core.clearZero }

/-- The address a command resumes at. -/
def Firmware.resumeAt (cmd : List Byte) (m : Firmware β) : Except String (Firmware β) :=
  if cmd.length ≤ 1 then .ok m
  else
    match parseWord cmd.tail with
    | none => .error "E01"
    | some pc =>
        match m.setPC (pc &&& ~~~1) (pc &&& 1 != 0) with
        | .error _ => .error "E02"
        | .ok m => .ok m

/-- What a turn of the loop leaves: the reply, if it ends the loop. -/
structure Turned (β : Type) where
  server : Server
  machine : Firmware β
  stop : Option Stop := none

namespace Server

variable (board : Board β) (s : Server)

/-- `skipFirst`. -/
def skips (m : Firmware β) : Bool :=
  s.last == .swbreak && m.core.pc == s.lastBreakPC

def stopped (stop : Stop) (m : Firmware β) : Turned β :=
  { server := { s with last := stop }, machine := m, stop := some stop }

/-- The test of a turn of a continue. -/
def breaksAt (skipFirst : Bool) (count : DoubleWord) (m : Firmware β) : Bool :=
  (!skipFirst || count != 0) && s.breaks.contains m.core.pc

/-- A turn of the loop of `resume`. -/
def turn (step : Bool) (interrupted : Bool) (skipFirst : Bool) (count : DoubleWord)
    (m : Firmware β) : Turned β :=
  if !step && s.breaksAt skipFirst count m then
    { s with lastBreakPC := m.core.pc }.stopped .swbreak m
  else
    let stepped := board.step m
    match stepped.result with
    | .error _ => s.stopped .refused stepped.machine
    | .ok () =>
        match watchHit s.watches stepped.accesses with
        | some w => s.stopped (.watch w) stepped.machine
        | none =>
            if step then s.stopped .stepped stepped.machine
            else if count % 1024 = 0 ∧ interrupted = true then
              s.stopped .interrupted stepped.machine
            else { server := s, machine := stepped.machine }

/-- The machine at the start of a turn of a continue, if the loop comes to it. -/
def reached (interrupted : Nat → Bool) (m : Firmware β) : Nat → Option (Firmware β)
  | 0 => some m
  | n + 1 =>
      (reached interrupted m n).bind fun here =>
        let turned := s.turn board false (interrupted n) (s.skips m) (BitVec.ofNat 64 n) here
        if turned.stop.isNone then some turned.machine else none

end Server

/-- An access shares a byte with a watched range and is of its kind. -/
def Watchpoint.Meets (w : Watchpoint) (access : MemoryAccess) : Prop :=
  (∃ byte, access.address.toNat ≤ byte ∧ byte < access.address.toNat + access.size ∧
    w.address.toNat ≤ byte ∧ byte < w.address.toNat + w.length) ∧
  match w.kind with
  | .write => access.write = true
  | .read => access.write = false
  | .access => True

/-- An access of a list meets a watchpoint. -/
def Hits (watches : List Watchpoint) (accesses : List MemoryAccess) : Prop :=
  ∃ access ∈ accesses, ∃ w ∈ watches, w.Meets access

theorem catches_iff (w : Watchpoint) {access : MemoryAccess} (sized : access.size ≠ 0) :
    w.catches access = true ↔ w.Meets access := by
  have kinds : (match w.kind with
      | .write => access.write
      | .read => !access.write
      | .access => true) = true ↔
      match w.kind with
      | .write => access.write = true
      | .read => access.write = false
      | .access => True := by
    cases w.kind <;> simp
  have shared : overlaps access.address access.size w.address w.length = true ↔
      ∃ byte, access.address.toNat ≤ byte ∧ byte < access.address.toNat + access.size ∧
        w.address.toNat ≤ byte ∧ byte < w.address.toNat + w.length := by
    rw [overlaps, Bool.and_eq_true, decide_eq_true_iff, decide_eq_true_iff]
    have positive := w.length_pos
    constructor
    · rintro ⟨first, second⟩
      exact ⟨max access.address.toNat w.address.toNat, by omega, by omega, by omega, by omega⟩
    · rintro ⟨byte, inFirst, beforeFirst, inSecond, beforeSecond⟩
      exact ⟨by omega, by omega⟩
  rw [Watchpoint.catches, Bool.and_eq_true, shared, kinds, Watchpoint.Meets]

/-- The loop over the watchpoints finds one if one catches the access. -/
theorem select_isSome (watches : List Watchpoint) (access : MemoryAccess) :
    (select watches access).isSome = watches.any fun w => w.catches access := by
  have folded (selected : Option Watchpoint) :
      (watches.foldl
        (fun selected w =>
          if !w.catches access then selected
          else
            match selected with
            | none => some w
            | some best =>
                if w.address < best.address ∨
                    w.address = best.address ∧ w.kind.digit < best.kind.digit then some w
                else some best)
        selected).isSome = (selected.isSome || watches.any fun w => w.catches access) := by
    induction watches generalizing selected with
    | nil => simp
    | cons w watches ih =>
      rw [List.foldl_cons, ih, List.any_cons, ← Bool.or_assoc]
      congr 1
      cases catches : w.catches access with
      | false => simp
      | true =>
        cases selected with
        | none => rfl
        | some best =>
          dsimp only [Bool.not_true]
          split
          · next absurd_ => cases absurd_
          · split <;> rfl
  exact (folded none).trans (Bool.false_or _)

/-- The server stops for an access that meets a watchpoint, and for no other list. -/
theorem watchHit_isSome (watches : List Watchpoint) (accesses : List MemoryAccess) :
    (watchHit watches accesses).isSome = true ↔ Hits watches accesses := by
  rw [watchHit, List.findSome?_isSome_iff]
  refine exists_congr fun access => and_congr_right fun _ => ?_
  by_cases empty : access.size = 0
  · rw [if_pos empty]
    refine iff_of_false nofun ?_
    rintro ⟨w, _, ⟨byte, first, last, _⟩, _⟩
    omega
  · rw [if_neg empty, select_isSome, List.any_eq_true]
    exact exists_congr fun w => and_congr_right fun _ => catches_iff w empty

/-- A list that covers another meets the watchpoints it meets. -/
theorem Hits.of_within {watches : List Watchpoint} {made others : List MemoryAccess}
    (hits : Hits watches made) (within : ∀ a ∈ made, ∃ b ∈ others, Core.Within a b) :
    Hits watches others := by
  obtain ⟨a, aMade, w, watched, ⟨byte, first, last, start, stop⟩, kind⟩ := hits
  obtain ⟨b, bOther, covers⟩ := within a aMade
  have begins := covers.start
  have ends := covers.stop
  refine ⟨b, bOther, w, watched, ⟨byte, by omega, by omega, start, stop⟩, ?_⟩
  rw [← covers.write]
  exact kind

namespace Board

variable (board : Board β) (m : Firmware β)

/-- The core in which a step of the machine executes an instruction. -/
def instruction : Option (Core β) :=
  if m.retired ≠ m.machineRetired then none
  else
    match board.settle m.retired m.core with
    | (_, .error _) => none
    | (core, .ok ()) => core.begun board.tick

theorem observe_accesses (c : Core β) :
    (board.observe c).1.accesses =
      match c.begun board.tick with
      | some begun => begun.told board.ops
      | none => [] := by
  unfold observe
  rw [Core.stepOn_accesses]
  rfl

theorem step_of_none (none_ : board.instruction m = none) :
    ∃ error, (board.step m).result = .error error := by
  unfold instruction at none_
  unfold step
  by_cases differs : m.retired ≠ m.machineRetired
  · rw [if_pos differs]
    exact ⟨_, rfl⟩
  · rw [if_neg differs] at none_ ⊢
    cases settled : board.settle m.retired m.core with
    | mk core result =>
      rw [settled] at none_
      cases result with
      | error error => exact ⟨_, rfl⟩
      | ok _ =>
        obtain ⟨error, fails⟩ := Core.stepOn_of_begun_none board.ops board.tick
          (core.onBus { bus := core.bus }) none_
        dsimp only
        rw [show (board.observe core).2 = .error error from fails]
        exact ⟨_, rfl⟩

/-- A step that succeeds has observed what the bus tells of its instruction. -/
theorem step_accesses {c : Core β} (executes : board.instruction m = some c)
    (succeeds : (board.step m).result = .ok ()) :
    (board.step m).accesses = c.told board.ops := by
  unfold instruction at executes
  unfold step at succeeds ⊢
  by_cases differs : m.retired ≠ m.machineRetired
  · rw [if_pos differs] at executes
    cases executes
  · rw [if_neg differs] at executes succeeds ⊢
    cases settled : board.settle m.retired m.core with
    | mk core result =>
      rw [settled] at executes succeeds
      cases result with
      | error error => cases executes
      | ok _ =>
        have observed := board.observe_accesses core
        rw [show core.begun board.tick = some c from executes] at observed
        dsimp only at observed succeeds ⊢
        rw [← observed]
        split
        · rfl
        · split <;> rfl

end Board

namespace Server

variable (board : Board β) (s : Server)

/-- The core in which a turn of a continue executes an instruction. -/
def executes (skipFirst : Bool) (n : Nat) (m : Firmware β) : Option (Core β) :=
  if s.breaksAt skipFirst (BitVec.ofNat 64 n) m then none else board.instruction m

/-- The reply of a turn. -/
def reply (interrupted : Nat → Bool) (skipFirst : Bool) (n : Nat) (m : Firmware β) : Option Stop :=
  (s.turn board false (interrupted n) skipFirst (BitVec.ofNat 64 n) m).stop

/-- A turn misses no stop and invents none. -/
structure Right (interrupted : Nat → Bool) (skipFirst : Bool) (n : Nat) (m : Firmware β) :
    Prop where
  breakpoints : ∀ c ∈ s.executes board skipFirst n m, c.pc ∈ s.breaks →
    n = 0 ∧ skipFirst = true ∧ c.pc = s.lastBreakPC
  stops : s.reply board interrupted skipFirst n m = some .swbreak →
    m.core.pc ∈ s.breaks ∧ s.executes board skipFirst n m = none
  watchpoints : (∃ w, s.reply board interrupted skipFirst n m = some (.watch w)) ↔
    ∃ c ∈ s.executes board skipFirst n m, Hits s.watches (c.made board.ops)

/-- Neither the board nor an interrupt moves the core to a breakpoint within a step, no
failing step makes a watched access, and none is told where the instruction makes no such
access. -/
structure Clean (skipFirst : Bool) (n : Nat) (m : Firmware β) : Prop where
  straight : ∀ c ∈ s.executes board skipFirst n m, c.pc ∈ s.breaks →
    c.pc = m.core.pc ∧ (n % 2 ^ 64 = 0 → n = 0)
  faultless : ∀ error, (board.step m).result = .error error →
    ∀ c ∈ s.executes board skipFirst n m, ¬Hits s.watches (c.made board.ops)
  untold : (board.step m).result = .ok () →
    ∀ c ∈ s.executes board skipFirst n m, ∀ others ∈ c.instead board.ops,
      Hits s.watches others → Hits s.watches (c.made board.ops)

variable {s} {skipFirst : Bool} {n : Nat} {m : Firmware β} (interrupted : Nat → Bool)

theorem breaksAt_mem {count : DoubleWord} (breaks : s.breaksAt skipFirst count m = true) :
    m.core.pc ∈ s.breaks := by
  unfold breaksAt at breaks
  exact List.contains_iff_mem.mp (Bool.and_eq_true _ _ ▸ breaks).2

/-- The stop of a turn that takes a step. -/
theorem reply_of_steps (steps : s.breaksAt skipFirst (BitVec.ofNat 64 n) m = false) (w : Watchpoint) :
    s.reply board interrupted skipFirst n m = some (.watch w) ↔
      (board.step m).result = .ok () ∧ watchHit s.watches (board.step m).accesses = some w := by
  unfold reply turn
  rw [steps, Bool.and_false, if_neg Bool.false_ne_true]
  dsimp only
  cases result : (board.step m).result with
  | error error => exact iff_of_false nofun nofun
  | ok _ =>
    cases hit : watchHit s.watches (board.step m).accesses with
    | none =>
      refine iff_of_false ?_ nofun
      dsimp only
      split
      · next absurd_ => cases absurd_
      · split <;> nofun
    | some found =>
      simp [stopped]

theorem reply_swbreak (steps : s.breaksAt skipFirst (BitVec.ofNat 64 n) m = false) :
    s.reply board interrupted skipFirst n m ≠ some .swbreak := by
  unfold reply turn
  rw [steps, Bool.and_false, if_neg Bool.false_ne_true]
  dsimp only
  split
  · nofun
  · split
    · nofun
    · split
      · nofun
      · split <;> nofun

theorem hits_told (watches : List Watchpoint) (ops : BusOps β) (c : Core β) :
    Hits watches (c.told ops) ↔
      Hits watches (c.made ops) ∨ ∃ others ∈ c.instead ops, Hits watches others := by
  unfold Core.told
  cases told : c.instead ops with
  | none => simp
  | some others =>
    have covered : Hits watches (c.made ops) → Hits watches others := fun hits =>
      hits.of_within (Core.made_within told)
    simpa using covered

/-- The watch half of a turn that takes a step. -/
theorem watchpoints_iff (steps : s.breaksAt skipFirst (BitVec.ofNat 64 n) m = false) :
    ((∃ w, s.reply board interrupted skipFirst n m = some (.watch w)) ↔
        ∃ c ∈ board.instruction m, Hits s.watches (c.made board.ops)) ↔
      (∀ error, (board.step m).result = .error error →
          ∀ c ∈ board.instruction m, ¬Hits s.watches (c.made board.ops)) ∧
        ((board.step m).result = .ok () →
          ∀ c ∈ board.instruction m, ∀ others ∈ c.instead board.ops,
            Hits s.watches others → Hits s.watches (c.made board.ops)) := by
  have replies : (∃ w, s.reply board interrupted skipFirst n m = some (.watch w)) ↔
      (board.step m).result = .ok () ∧ Hits s.watches (board.step m).accesses := by
    rw [← watchHit_isSome, Option.isSome_iff_exists, ← exists_and_left]
    exact exists_congr fun w => reply_of_steps board interrupted steps w
  rw [replies]
  cases result : (board.step m).result with
  | error error =>
    cases executes : board.instruction m with
    | none => simp
    | some c => simp
  | ok _ =>
    cases executes : board.instruction m with
    | none =>
      obtain ⟨error, fails⟩ := board.step_of_none m executes
      rw [result] at fails
      cases fails
    | some c =>
      have told := hits_told s.watches board.ops c
      rw [board.step_accesses m executes result, told]
      simp only [Option.mem_some_iff, exists_eq_left', forall_eq', reduceCtorEq, IsEmpty.forall_iff,
        true_and, forall_const]
      constructor
      · intro same others isOthers hits
        exact same.mp (.inr ⟨others, isOthers, hits⟩)
      · intro untold
        refine ⟨fun either => either.elim id ?_, .inl⟩
        rintro ⟨others, isOthers, hits⟩
        exact untold others isOthers hits

/-- A turn that stops at a breakpoint is right. -/
theorem right_of_breaks (breaks : s.breaksAt skipFirst (BitVec.ofNat 64 n) m = true) :
    s.Right board interrupted skipFirst n m ∧ s.Clean board skipFirst n m := by
  have nothing : s.executes board skipFirst n m = none := if_pos breaks
  have stops : s.reply board interrupted skipFirst n m = some .swbreak := by
    unfold reply turn
    rw [breaks]
    rfl
  constructor
  · refine ⟨?_, fun _ => ⟨breaksAt_mem breaks, nothing⟩, ?_⟩
    · rw [nothing]
      exact nofun
    · rw [stops, nothing]
      exact iff_of_false nofun nofun
  · constructor
    · rw [nothing]
      exact nofun
    · rw [nothing]
      exact nofun
    · rw [nothing]
      exact nofun

/-- The test is left out at the first turn and whenever the count comes round. -/
theorem breaksAt_false {pc : Word} (at_ : m.core.pc = pc) (listed : pc ∈ s.breaks)
    (steps : s.breaksAt skipFirst (BitVec.ofNat 64 n) m = false) :
    skipFirst = true ∧ n % 2 ^ 64 = 0 := by
  have contained : s.breaks.contains m.core.pc = true := List.contains_iff_mem.mpr (at_ ▸ listed)
  rw [breaksAt, contained, Bool.and_true, Bool.or_eq_false_iff, Bool.not_eq_false',
    bne_eq_false_iff_eq] at steps
  refine ⟨steps.1, ?_⟩
  rw [← BitVec.toNat_ofNat, steps.2]
  rfl

/-- The breakpoint half of a turn that takes a step. -/
theorem breakpoints_iff (begins : n = 0 → skipFirst = true → m.core.pc = s.lastBreakPC)
    (steps : s.breaksAt skipFirst (BitVec.ofNat 64 n) m = false) :
    (∀ c ∈ board.instruction m, c.pc ∈ s.breaks →
        n = 0 ∧ skipFirst = true ∧ c.pc = s.lastBreakPC) ↔
      ∀ c ∈ board.instruction m, c.pc ∈ s.breaks →
        c.pc = m.core.pc ∧ (n % 2 ^ 64 = 0 → n = 0) := by
  refine forall_congr' fun c => forall_congr' fun _ => forall_congr' fun listed => ?_
  constructor
  · rintro ⟨first, skips, resumed⟩
    exact ⟨resumed.trans (begins first skips).symm, fun _ => first⟩
  · rintro ⟨straight, once⟩
    obtain ⟨skips, round⟩ := breaksAt_false straight.symm listed steps
    exact ⟨once round, skips, straight.trans (begins (once round) skips)⟩

/-- A turn is right exactly when it is clean. -/
theorem right_iff_clean (begins : n = 0 → skipFirst = true → m.core.pc = s.lastBreakPC) :
    s.Right board interrupted skipFirst n m ↔ s.Clean board skipFirst n m := by
  cases steps : s.breaksAt skipFirst (BitVec.ofNat 64 n) m with
  | true =>
    obtain ⟨right, clean⟩ := right_of_breaks board interrupted steps
    exact iff_of_true right clean
  | false =>
    have something : s.executes board skipFirst n m = board.instruction m := by
      rw [executes, steps, if_neg Bool.false_ne_true]
    have breakpoints := breakpoints_iff board begins steps
    have watchpoints := watchpoints_iff board interrupted steps
    constructor
    · intro right
      have broken := right.breakpoints
      have watched := right.watchpoints
      rw [something] at broken watched
      obtain ⟨faultless, untold⟩ := watchpoints.mp watched
      refine ⟨?_, ?_, ?_⟩
      · rw [something]
        exact breakpoints.mp broken
      · rw [something]
        exact faultless
      · rw [something]
        exact untold
    · intro clean
      have straight := clean.straight
      have faultless := clean.faultless
      have untold := clean.untold
      rw [something] at straight faultless untold
      refine ⟨?_, ?_, ?_⟩
      · rw [something]
        exact breakpoints.mpr straight
      · intro stops
        exact absurd stops (reply_swbreak board interrupted steps)
      · rw [something]
        exact watchpoints.mpr ⟨faultless, untold⟩

/-- A property of every turn of a continue. -/
def Throughout (s : Server) (cmd : List Byte) (m : Firmware β)
    (shown : (skipFirst : Bool) → Nat → Firmware β → Prop) : Prop :=
  ∀ start, m.resumeAt cmd = .ok start →
    ∀ n here, s.reached board interrupted start n = some here → shown (s.skips start) n here

/-- **A continue under the debugger.**  Its turns miss no breakpoint and no watched access
and invent none exactly when none of them is diverted to a breakpoint within its step, fails
after a watched access, or is told of an access its instruction does not make. -/
theorem continue_iff (s : Server) (cmd : List Byte) (m : Firmware β) :
    Throughout board interrupted s cmd m (s.Right board interrupted) ↔
      Throughout board interrupted s cmd m (s.Clean board) := by
  refine forall_congr' fun start => forall_congr' fun _ => forall_congr' fun n =>
    forall_congr' fun here => forall_congr' fun isReached => ?_
  apply right_iff_clean
  intro first skips
  subst first
  obtain rfl := Option.some_injective _ isReached
  unfold Server.skips at skips
  rw [Bool.and_eq_true, beq_iff_eq, beq_iff_eq] at skips
  exact skips.2

end Server

/-- A board whose memory is all zero. -/
def still : Board Unit where
  ops :=
    { read := fun _ _ bus => { value := 0, bus }
      write := fun _ _ _ bus => (bus, 0) }
  tick c := { bus := c.bus }

/-- Count is about to reach Compare, with interrupts enabled. -/
def ripe : Firmware Unit where
  core :=
    { pc := 0x80001000
      cop0 := fun register =>
        if register = 9 then 4 else if register = 11 then 5 else if register = 12 then 0x8001 else 0
      bus := () }

/-- The timer's interrupt runs the instruction at the vector through a breakpoint. -/
theorem right_not_at_vector :
    ¬∀ (interrupted : Nat → Bool) (s : Server) (cmd : List Byte) (m : Firmware Unit),
      Server.Throughout still interrupted s cmd m (s.Right still interrupted) := by
  intro always
  have right := always (fun _ => false) { breaks := [0x80000180] } [0x63] ripe ripe rfl 0 ripe rfl
  have executes : ∃ c, ({ breaks := [0x80000180] } : Server).executes still false 0 ripe = some c ∧
      c.pc = 0x80000180 := ⟨_, rfl, rfl⟩
  obtain ⟨c, isExecuted, vector⟩ := executes
  have skipped := (right.breakpoints c isExecuted (vector ▸ List.mem_singleton_self _)).2.1
  revert skipped
  decide

end Gdbstub

end GoRetroTv
