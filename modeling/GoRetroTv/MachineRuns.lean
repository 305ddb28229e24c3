import GoRetroTv.MachineRestores

/-!
# Every machine that is reached

A machine as it is made, whatever the host does to it, and whatever snapshots it is restored
from.  It can always be saved, another machine can go on from what was saved, and it goes on as
the first would have.
-/

namespace GoRetroTv

open Cpu Snapcodec

namespace Machine

/-- What becomes of a machine while nothing fails but its restores. -/
inductive Reached : Machine (Clock Unit) → Prop
  | new {u202 u203 : List Byte} {skyGates : Bool} {m : Machine (Clock Unit)}
      (made : Machine.new u202 u203 skyGates = .ok m) : Reached m
  | turn {persist : I2c.Persist} {m : Machine (Clock Unit)} {taken : List Byte} (input : Input)
      (reached : Reached m) (short : I2c.Controller.ShortTexts persist)
      (ok : (m.perform tick persist input).1 = .ok taken) :
      Reached (m.perform tick persist input).2
  | ackPolicy {m : Machine (Clock Unit)} (policy : Csi.AckPolicy) (reached : Reached m) :
      Reached (m.withBoard (m.core.bus.put .csi (m.core.bus.csi.setAckPolicy policy)))
  | bindImage {m : Machine (Clock Unit)} (path : List Byte) (loaded : Option Eeprom.Store)
      (reached : Reached m) :
      Reached (m.withBoard (m.core.bus.put .i2c (m.core.bus.i2c.bindImage path loaded)))
  | restored {source target : Machine (Clock Unit)} {blob : List Byte} (saved : Reached source)
      (reached : Reached target) (taken : source.snapshot = .ok blob)
      (ok : (target.restore blob).1 = .ok ()) : Reached (target.restore blob).2
  | refused {m : Machine (Clock Unit)} {state : List Byte} {error : String} (reached : Reached m)
      (refused : (m.restore state).1 = .error error) : Reached (m.restore state).2

/-- A machine at a boundary: between steps, or inside one, where its core takes an interrupt. -/
inductive AtBoundary : Machine (Clock Unit) → Prop
  | between {m : Machine (Clock Unit)} (reached : Reached m) : AtBoundary m
  | within {persist : I2c.Persist} {m n : Machine (Clock Unit)} (reached : Reached m)
      (begun : m.begun tick persist = (.ok (), n)) : AtBoundary n

section Known

variable {C : Type} {tick : Bool → DoubleWord → Rig C → Beat C} {persist : I2c.Persist}
  {m m' : Machine C}

/-- What is known of the state stays what it was. -/
def Known (m m' : Machine C) : Prop :=
  m'.unknownBus = m.unknownBus ∧ m'.unknownState = m.unknownState

theorem andThen_known {stage : Staged C} {next : Machine C → Staged C} (first : Known m stage.2)
    (later : ∀ n, Known n (next n).2) : Known m (andThen stage next).2 := by
  obtain ⟨result, n⟩ := stage
  cases result with
  | error error => exact first
  | ok _ => exact ⟨(later n).1.trans first.1, (later n).2.trans first.2⟩

theorem ite_known {condition : Bool} {stage : Staged C} (known : Known m stage.2) :
    Known m (if condition then stage else (.ok (), m)).2 := by
  cases condition with
  | true => exact known
  | false => exact ⟨rfl, rfl⟩

theorem begun_known : Known m (m.begun tick persist).2 :=
  andThen_known (ite_known ⟨rfl, rfl⟩) fun _ => ite_known ⟨rfl, rfl⟩

theorem step_known : Known m (m.step tick persist).2 := by
  change Known m (m.stages tick persist).2
  rw [stages_begun]
  refine andThen_known begun_known fun n => ?_
  refine andThen_known ?_ fun n => ⟨rfl, rfl⟩
  unfold executed
  dsimp only
  split <;> exact ⟨rfl, rfl⟩

theorem fed_known {action : Demux.Receiver.Action PUnit} : Known m (m.fed action).2 := by
  unfold fed
  split <;> exact ⟨rfl, rfl⟩

theorem perform_known (input : Input) : Known m (m.perform tick persist input).2 := by
  cases input with
  | step => exact step_known
  | key raw source =>
    change Known m (m.keyed raw source).2
    unfold keyed
    split <;> exact ⟨rfl, rfl⟩
  | push pid section_ => exact fed_known
  | transport data => exact fed_known
  | schedule data first period => exact fed_known
  | pump now => exact fed_known
  | take => exact ⟨rfl, rfl⟩

end Known

section Reached

variable {m n source target : Machine (Clock Unit)} {p q : Machine (Agenda Unit)}
  {blob state : List Byte}

/-- A machine as it is made, on an agenda. -/
def assembled (board : Board) (skyGates : Bool) : Machine (Agenda Unit) where
  core := Cpu.new board 0xbfc00000
  clock := (Agenda.new.at_ 1 pumpName ()).2
  skyGates := { enabled := skyGates }

/-- A board is made a machine of. -/
theorem new_shows {u202 u203 : List Byte} {skyGates : Bool} {board : Board}
    (made : Board.new u202 u203 = .ok board) :
    ∃ m, Machine.new u202 u203 skyGates = .ok m ∧ m.Shows (assembled board skyGates) := by
  obtain ⟨same, shown⟩ := @Clock.Shows.at_ Unit Clock.new Agenda.new .new rfl 1 pumpName ()
  unfold Machine.new Rig.again
  rw [made]
  generalize Clock.new.at_ 1 pumpName (some ()) = scheduled at same shown
  obtain ⟨result, clock⟩ := scheduled
  obtain rfl : result = .ok _ := same
  exact ⟨_, rfl, shown, rfl⟩

theorem new_alive {u202 u203 : List Byte} {skyGates : Bool}
    (made : Machine.new u202 u203 skyGates = .ok m) :
    ∃ board, Board.new u202 u203 = .ok board ∧ m.Alive (assembled board skyGates) := by
  obtain ⟨board, isBoard, -⟩ := bind_eq_ok.mp made
  obtain ⟨m', made', shows_⟩ := @new_shows _ _ skyGates _ isBoard
  cases made.symm.trans made'
  have paced : Rig.Paced (Agenda.new.at_ 1 pumpName ()).2 := by
    refine ⟨Agenda.Timely.new.scheduled rfl Nat.one_pos (by decide) pumpName (), _, rfl, rfl, rfl, ?_⟩
    exact Nat.le_add_left 1 15
  obtain ⟨_, _, isNew⟩ := Board.new_eq isBoard
  have quiet : board.wire.raised = 0 := congrArg (fun b : Board => b.wire.raised) isNew
  have unknown : m.unknownBus = none := congrArg Machine.unknownBus shows_.rest
  exact ⟨board, isBoard, shows_, ⟨⟨Board.new_sound isBoard, quiet⟩, paced⟩, unknown⟩

theorem Alive.withBoard (alive : m.Alive p) {b : Board} (sound : b.Sound) :
    (m.withBoard b).Alive (p.withBoard b) := by
  obtain ⟨a, rfl, shown⟩ := alive.shows_.eq
  exact ⟨⟨shown, rfl⟩, alive.running.withBoard sound, alive.bus⟩

theorem Alive.perform {persist : I2c.Persist} (alive : m.Alive p)
    (short : I2c.Controller.ShortTexts persist) (input : Input) {taken : List Byte}
    (ok : (m.perform tick persist input).1 = .ok taken) :
    (m.perform tick persist input).2.Alive (p.perform Rig.beat persist input).2 := by
  obtain ⟨same, shown⟩ := alive.shows_.perform alive.running input
  rw [same] at ok
  exact ⟨shown, alive.running.perform short input ok, (perform_known input).1.trans alive.bus⟩

/-- A loaded image takes the place of the store. -/
theorem bindImage_fits {c : I2c.Controller} (fits : Board.Fits .i2c c) {path : List Byte}
    {loaded : Option Eeprom.Store} : Board.Fits .i2c (c.bindImage path loaded) := by
  obtain ⟨wellFormed, store, demod⟩ := fits
  unfold I2c.Controller.bindImage
  split
  · exact ⟨{ wellFormed with }, rfl, demod⟩
  · exact ⟨wellFormed, store, demod⟩

theorem restore_known (ok : (m.restore state).1 = .ok ()) : m.unknownState = none := by
  rcases restore_cases state m with ⟨error, same⟩ | ⟨known, -⟩
  · rw [same] at ok
    cases ok
  · exact known

theorem Alive.restored (mine : source.Alive p) (alive : target.Alive q)
    (taken : source.snapshot = .ok blob) (ok : (target.restore blob).1 = .ok ()) :
    Restored source target (target.restore blob).2 p.clock := by
  rcases mine.restore_cases alive (restore_known ok) taken with
    ⟨-, -, restored⟩ | ⟨-, error, refused⟩
  · exact restored
  · cases refused.symm.trans ok

/-- **Every machine that is reached** is on the pace of its pump, with devices that accept
themselves. -/
theorem Reached.alive (reached : Reached m) : ∃ p, m.Alive p := by
  induction reached with
  | new made =>
    obtain ⟨_, -, alive⟩ := new_alive made
    exact ⟨_, alive⟩
  | turn input _ short ok ih =>
    obtain ⟨p, alive⟩ := ih
    exact ⟨_, alive.perform short input ok⟩
  | ackPolicy policy _ ih =>
    obtain ⟨p, alive⟩ := ih
    exact ⟨_, alive.withBoard (alive.sound.put .csi _ { alive.sound.csi with })⟩
  | bindImage path loaded _ ih =>
    obtain ⟨p, alive⟩ := ih
    have fits := Board.sound_iff.mp alive.sound .i2c
    exact ⟨_, alive.withBoard (alive.sound.put .i2c _ (bindImage_fits fits))⟩
  | restored _ _ taken ok ihSource ihTarget =>
    obtain ⟨p, mine⟩ := ihSource
    obtain ⟨q, alive⟩ := ihTarget
    exact ⟨_, (mine.restored alive taken ok).alive mine⟩
  | refused _ refused ih =>
    obtain ⟨q, alive⟩ := ih
    rcases alive.refused refused with same | ⟨-, undone, -⟩
    · rw [same]
      exact ⟨q, alive⟩
    · exact ⟨_, undone.alive alive⟩

theorem AtBoundary.alive (at_ : AtBoundary m) : ∃ p, m.Alive p := by
  cases at_ with
  | between reached => exact reached.alive
  | @within persist m n reached begun =>
    obtain ⟨p, alive⟩ := reached.alive
    obtain ⟨same, shown⟩ := @Shows.begun persist m p alive.shows_ alive.running
    have known := @begun_known _ tick persist m
    rw [begun] at same shown known
    exact ⟨_, shown, alive.running.begun same.symm, known.1.trans alive.bus⟩

/-- A run without a failure reaches a machine. -/
theorem Reached.run {turns : List Turn} (reached : Reached m) (short : ShortTurns turns)
    (ok : ∀ result ∈ (m.run tick turns).1, ∃ taken, result = .ok taken) :
    Reached (m.run tick turns).2 :=
  run_keeps (fun turn member _ _ reached ok => reached.turn turn.2 (short turn member) ok) reached ok

theorem Alive.run {turns : List Turn} (alive : m.Alive p) (short : ShortTurns turns)
    (ok : ∀ result ∈ (p.run Rig.beat turns).1, ∃ taken, result = .ok taken) :
    (m.run tick turns).2.Alive (p.run Rig.beat turns).2 := by
  obtain ⟨results, shown⟩ := alive.shows_.run short alive.running
  refine ⟨shown, ?_, ?_⟩
  · exact run_keeps (fun turn member _ _ running ok => running.perform (short turn member) turn.2 ok)
      alive.running ok
  · rw [← results] at ok
    have turn_keeps (turn : Turn) (_ : turn ∈ turns) (n : Machine (Clock Unit)) (taken : List Byte)
        (known : n.unknownBus = none) (_ : (n.perform tick turn.1 turn.2).1 = .ok taken) :
        (n.perform tick turn.1 turn.2).2.unknownBus = none :=
      (perform_known turn.2).1.trans known
    exact run_keeps turn_keeps alive.bus ok

/-- A snapshot shows the machine through its owners' own. -/
theorem snapshot_congr (known : m.unknownState = n.unknownState) (saves : ∀ o, m.save o = n.save o) :
    m.snapshot = n.snapshot := by
  unfold Machine.snapshot
  rw [known, show m.save = n.save from funext saves]

theorem saves_of_snapshot (taken : m.snapshot = .ok blob) (other : n.snapshot = .ok blob)
    (o : Owner) : m.save o = n.save o := by
  obtain ⟨-, -, blobs, saved, written⟩ := snapshot_ok taken
  obtain ⟨-, -, blobs', saved', written'⟩ := snapshot_ok other
  have bounds : snapshotVersion ≤ snapshotVersion := by decide
  obtain ⟨set, opened, -, -, found⟩ := openSet_owners owner_collection written bounds bounds
  obtain ⟨set', opened', -, -, found'⟩ := openSet_owners owner_collection written' bounds bounds
  cases opened.symm.trans opened'
  have same := (found o (mem_owners o)).symm.trans (found' o (mem_owners o))
  rw [saved o, saved' o, Option.some.inj same]

/-- A core's snapshot does not show its bus. -/
theorem core_snapshot_bus {β : Type} (c : Core β) (bus : β) :
    Core.snapshot { c with bus } = c.snapshot := by
  rw [Core.snapshot_eq, Core.snapshot_eq]
  rfl

theorem Restored.saves {r : Machine (Clock Unit)} (restored : Restored source target r p.clock)
    (mine : source.Alive p) (alive : target.Alive q) (settled : source.core.bus.Settled)
    (o : Owner) : r.save o = source.save o := by
  obtain ⟨b, taken, core⟩ := restored.core
  have wire := taken.wire_of_settled settled
  have raised : b.devices.wire.raised = 0 := by
    rw [wire]
    exact alive.quiet
  rw [absorb_quiet raised] at core
  cases o with
  | bus =>
    refine Board.Bus.snapshot_congr (restored.unknownBus.trans mine.bus.symm) ?_
    have board : r.bus.devices = b.devices := congrArg Core.bus core
    rw [board]
    exact taken.saves_iff.mpr settled
  | clock => exact restored.clock.snapshot_eq mine.shows_.clock
  | cpu =>
    change r.core.snapshot = _
    rw [core, show Core.raise 0 { source.core with bus := b.devices } =
      { source.core with bus := b.devices } from
        congrArg (fun lines => { source.core with bus := b.devices, pendingLines := lines })
          BitVec.or_zero]
    exact core_snapshot_bus _ _
  | handoff => exact congrArg Handoff.snapshot restored.handoff
  | retired => exact congrArg snapshotRetired restored.retired
  | skyGates => exact congrArg SkyGates.snapshot restored.skyGates

/-- The same snapshot again, if and only if the lines were at their levels. -/
theorem Restored.snapshot_iff {r : Machine (Clock Unit)}
    (restored : Restored source target r p.clock) (mine : source.Alive p) (alive : target.Alive q)
    (known : target.unknownState = none) (taken : source.snapshot = .ok blob) :
    r.snapshot = .ok blob ↔ source.core.bus.Settled := by
  constructor
  · intro again
    obtain ⟨b, from_, core⟩ := restored.core
    have bus : r.bus.devices = b.devices.absorb.1 := congrArg Core.bus core
    have busSaved := saves_of_snapshot again taken .bus
    obtain ⟨copy, saved, -⟩ := mine.saves .bus
    have shown := (Board.Bus.snapshot_eq_ok saved).mp (busSaved.trans saved)
    refine from_.saves_iff.mp fun d => Eq.trans ?_ (shown.2 d)
    rw [bus]
    cases d <;> rfl
  · intro settled
    rw [← taken]
    refine snapshot_congr ?_ (restored.saves mine alive settled)
    rw [restored.unknownState, known, (snapshot_ok taken).1]

theorem Restored.onClock_eq {r : Machine (Clock Unit)} {a : Agenda Unit}
    (restored : Restored source target r a) (plain : Plain source target) (mine : source.Alive p)
    (alive : target.Alive q) (known : target.unknownState = none)
    (knownSource : source.unknownState = none) (b : Agenda Unit) :
    r.onClock b = source.onClock b := by
  unfold onClock
  rw [restored.core_eq plain mine alive, restored.handoff, restored.skyGates, restored.retired,
    restored.unknownBus, restored.unknownState, known, knownSource, mine.bus]

/-- Machines that differ in what their clocks have thrown away. -/
structure Alike (m n : Machine (Clock Unit)) : Prop where
  core : m.core = n.core
  clock : m.clock.snapshot = n.clock.snapshot
  handoff : m.handoff = n.handoff
  skyGates : m.skyGates = n.skyGates
  retired : m.retired = n.retired
  unknownBus : m.unknownBus = n.unknownBus
  unknownState : m.unknownState = n.unknownState

theorem Shows.alike (first : m.Shows p) (second : n.Shows p) : Alike m n := by
  obtain ⟨a, rfl, shown⟩ := first.eq
  have rest := second.rest
  exact {
    core := (congrArg Machine.core rest).symm
    clock := first.clock.snapshot_eq second.clock
    handoff := (congrArg Machine.handoff rest).symm
    skyGates := (congrArg Machine.skyGates rest).symm
    retired := (congrArg Machine.retired rest).symm
    unknownBus := (congrArg Machine.unknownBus rest).symm
    unknownState := (congrArg Machine.unknownState rest).symm }

theorem Alike.snapshot (alike : Alike m n) : m.snapshot = n.snapshot := by
  refine snapshot_congr alike.unknownState fun o => ?_
  cases o with
  | bus =>
    have bus : m.bus = n.bus := by
      unfold Machine.bus
      rw [alike.core, alike.unknownBus]
    exact congrArg Board.Bus.snapshot bus
  | clock => exact alike.clock
  | cpu => exact congrArg Core.snapshot alike.core
  | handoff => exact congrArg Handoff.snapshot alike.handoff
  | retired => exact congrArg snapshotRetired alike.retired
  | skyGates => exact congrArg SkyGates.snapshot alike.skyGates

/-- Firmware of instructions that do nothing. -/
def nops : List Byte :=
  List.replicate Board.flashSize 0

def nopBoard : Board where
  i2c := { store := some {}, demod := some {} }
  flashU203 := { name := Region.flashU203.name, bytes := nops }
  flashU202 := { name := Region.flashU202.name, bytes := nops }

/-- So many steps, with a disk that does not fail. -/
def steps (n : Nat) : List Turn :=
  List.replicate n (fun _ _ => none, .step)

theorem steps_short (n : Nat) : ShortTurns (steps n) := by
  intro turn member path store error failed
  cases List.eq_of_mem_replicate member
  cases failed

/-- The machine around it, after so many steps. -/
def idled (skyGates : Bool) (n : Nat) : Machine (Agenda Unit) :=
  ((assembled nopBoard skyGates).run Rig.beat (steps n)).2

instance {b : Board} {r : Region} : Decidable (b.Level r) :=
  inferInstanceAs (Decidable (_ = _))

/-- So many steps of the machine, one by one. -/
def Idles (skyGates : Bool) (n : Nat) : Prop :=
  let left := (assembled nopBoard skyGates).run Rig.beat (steps n)
  left.1 = List.replicate n (.ok []) ∧ left.2.retired = BitVec.ofNat 64 n ∧
    left.2.unknownState = none ∧ Compatible left.2.core ∧
    (∀ r ∈ regions, left.2.core.bus.Level r) ∧
    ∀ code : Fin 256, left.2.core.bus.csi.ack (.ofFin code) = Csi.defaultAckPolicy (.ofFin code)

instance {skyGates : Bool} {n : Nat} : Decidable (Idles skyGates n) :=
  inferInstanceAs (Decidable (_ ∧ _))

/-- A machine that has idled. -/
structure Idled (skyGates : Bool) (n : Nat) (m : Machine (Clock Unit)) : Prop where
  reached : Reached m
  alive : m.Alive (idled skyGates n)
  retired : m.retired = BitVec.ofNat 64 n
  known : m.unknownState = none
  compatible : Compatible m.core
  settled : m.core.bus.Settled
  policy : m.core.bus.csi.ack = Csi.defaultAckPolicy

/-- What holds on the agenda holds of the machine. -/
theorem Idles.exists_idled {skyGates : Bool} {n : Nat} (idles : Idles skyGates n) :
    ∃ m, Idled skyGates n m := by
  have size : nops.length = Board.flashSize := List.length_replicate
  have isBoard : Board.new nops nops = .ok nopBoard := Board.new_of_length size size
  obtain ⟨m, made, -⟩ := @new_shows _ _ skyGates _ isBoard
  obtain ⟨board, same, alive⟩ := new_alive made
  cases isBoard.symm.trans same
  obtain ⟨ran, retired, known, compatible, levels, policy⟩ := idles
  have ok : ∀ result ∈ ((assembled nopBoard skyGates).run Rig.beat (steps n)).1,
      ∃ taken, result = .ok taken := by
    rw [ran]
    exact fun result member => ⟨[], List.eq_of_mem_replicate member⟩
  have results := (alive.shows_.run (steps_short n) alive.running).1
  have reached := (Reached.new made).run (steps_short n) (results ▸ ok)
  have left : _ = ((assembled nopBoard skyGates).run Rig.beat (steps n)).2 :=
    (alive.run (steps_short n) ok).shows_.rest
  rw [← left] at retired known compatible levels policy
  exact ⟨_, reached, alive.run (steps_short n) ok, retired, known, compatible,
    fun r => levels r (Region.mem_regions r), funext fun code => policy code.toFin⟩

theorem idled_three : ∃ m, Idled false 3 m :=
  Idles.exists_idled (by decide +kernel)

theorem idled_sixteen : ∃ m, Idled true 16 m :=
  Idles.exists_idled (by decide +kernel)

/-- **Every machine that is reached.**  Its devices are within what their restores take and no
line waits unheard; its clock holds the pump's event and no other, at the next count that is one
past a multiple of sixteen; and it can be saved unless it has recorded that it cannot. -/
theorem reached_keeps_pace (reached : Reached m) :
    m.core.bus.Sound ∧ m.core.bus.wire.raised = 0 ∧
      (∃ ev, m.clock.liveEvents = [ev] ∧ ev.name = pumpName ∧ ev.due % 16 = 1 ∧
        m.clock.icount < ev.due ∧ ev.due ≤ m.clock.icount + 16) ∧
      ((∃ blob, m.snapshot = .ok blob) ↔ m.unknownState = none) := by
  obtain ⟨p, alive⟩ := reached.alive
  obtain ⟨ev, pending, named, phase, near⟩ := alive.running.paced.next
  have later := (alive.running.paced.event ev pending).later
  rw [← alive.shows_.clock.icount] at later near
  refine ⟨alive.sound, alive.quiet, ⟨ev, ?_, named, phase, later, near⟩, ?_, alive.snapshot⟩
  · rw [alive.shows_.clock.liveEvents, pending]
    rfl
  · exact fun ⟨blob, taken⟩ => (snapshot_ok taken).1

theorem idled_keeps_pace : ∃ m : Machine (Clock Unit), m.retired = 16 ∧
    (∃ ev, m.clock.liveEvents = [ev] ∧ ev.due = 17) ∧ ∃ blob, m.snapshot = .ok blob := by
  obtain ⟨m, made⟩ := idled_sixteen
  obtain ⟨-, -, ⟨ev, live, -, phase, later, near⟩, saved⟩ := reached_keeps_pace made.reached
  have counted : m.clock.icount = 16 :=
    made.alive.shows_.clock.icount.trans (by decide +kernel)
  exact ⟨m, made.retired, ⟨ev, live, by omega⟩, saved.mpr made.known⟩

/-- **A boundary of a machine that is reached**, between its steps or inside one.  Its tick ends;
where it succeeds it counts one, and pumps if that count is one past a multiple of sixteen. -/
theorem boundary_pumps (at_ : AtBoundary m) (core : Core Board) :
    let left := m.beatAt tick core
    Rig.tick core.hasPendingBranch m.retired (m.rig core) = some left ∧
      (left.result = .ok () →
        left.rig.clock.icount = m.clock.icount + 1 ∧
        if (m.clock.icount + 1) % 16 = 1 then
          let served := (m.rig core).serve core.hasPendingBranch m.retired
            (BitVec.ofNat 64 (m.clock.icount + 1))
          served.1 = .ok left.entry ∧ left.rig.board = served.2.board ∧
            left.rig.handoff = served.2.handoff
        else left.entry = none ∧ left.rig.board = core.bus ∧ left.rig.handoff = m.handoff) := by
  intro left
  obtain ⟨p, alive⟩ := at_.alive
  obtain ⟨a, rfl, shown⟩ := alive.shows_.eq
  have shows_ : (m.rig core).Shows ((m.onClock a).rig core) := ⟨rfl, rfl, shown⟩
  obtain ⟨ticked, isTicked, ends⟩ :=
    @Rig.tick_shows core.hasPendingBranch m.retired _ _ shows_ alive.running.paced.toTimely
  have isLeft : left = ticked := by
    change tick core.hasPendingBranch m.retired (m.rig core) = ticked
    unfold tick
    rw [isTicked]
    rfl
  refine ⟨isLeft ▸ isTicked, fun ok => ?_⟩
  rw [isLeft] at ok ⊢
  rw [ends.result] at ok
  have kept : Rig.Kept core.hasPendingBranch m.retired ((m.onClock a).rig core) _ :=
    Rig.Paced.beat alive.running.paced ok
  have icount : m.clock.icount = ((m.onClock a).rig core).clock.icount := shown.icount
  rw [ends.rig.clock.icount, ends.rig.board, ends.rig.handoff, ends.entry, kept.icount, icount]
  refine ⟨rfl, ?_⟩
  split
  next due =>
    obtain ⟨same, served⟩ := @Rig.serve_shows core.hasPendingBranch m.retired _ _ shows_
      (BitVec.ofNat 64 (((m.onClock a).rig core).clock.icount + 1))
    dsimp only
    rw [same, served.board, served.handoff]
    exact kept.pumped due
  next early => exact kept.quiet early

/-- The pump goes at the seventeenth boundary, and not at one inside the step behind it. -/
theorem idled_boundary : ∃ m n : Machine (Clock Unit), Reached m ∧
    m.begun tick (fun _ _ => none) = (.ok (), n) ∧
      (m.beatAt tick m.core).rig.clock.icount = 17 ∧
      ((m.rig m.core).serve m.core.hasPendingBranch m.retired 17).1 =
        .ok (m.beatAt tick m.core).entry ∧
      (n.beatAt tick n.core).rig.clock.icount = 18 ∧
      (n.beatAt tick n.core).rig.board = n.core.bus := by
  obtain ⟨m, made⟩ := idled_sixteen
  have alive := made.alive
  obtain ⟨same, shown⟩ := @Shows.begun (fun _ _ => none) _ _ alive.shows_ alive.running
  generalize begun : m.begun tick (fun _ _ => none) = left at same shown
  obtain ⟨result, n⟩ := left
  obtain rfl : result = .ok () := same.trans (by decide +kernel)
  have core : m.core = (idled true 16).core := congrArg Machine.core alive.shows_.rest
  have core' : n.core = ((idled true 16).begun Rig.beat fun _ _ => none).2.core :=
    congrArg Machine.core shown.rest
  have counted : m.clock.icount = 16 := alive.shows_.clock.icount.trans (by decide +kernel)
  have counted' : n.clock.icount = 17 := shown.clock.icount.trans (by decide +kernel)
  have passes : (m.beatAt tick m.core).result = .ok () := by
    rw [(alive.shows_.beatAt alive.running.paced.toTimely m.core).result, core]
    decide +kernel
  have running := alive.running.begun (show ((idled true 16).begun Rig.beat _).1 = _ from same.symm)
  have passes' : (n.beatAt tick n.core).result = .ok () := by
    rw [(shown.beatAt running.paced.toTimely n.core).result, core']
    decide +kernel
  obtain ⟨icount, pumped⟩ := (boundary_pumps (.between made.reached) m.core).2 passes
  obtain ⟨icount', quiet⟩ := (boundary_pumps (.within made.reached begun) n.core).2 passes'
  rw [counted] at icount pumped
  rw [counted'] at icount' quiet
  exact ⟨m, n, made.reached, begun, icount, pumped.1, icount', quiet.2.1⟩

/-- **A snapshot of a machine that is reached**, restored on another.  It is accepted if and only
if its registers are some that a core takes; then every owner is as recorded, with every line
driven to its level, and a snapshot of the restored machine is the same bytes if and only if the
lines were at their levels when it was taken. -/
theorem restores_machine_snapshot (saved : Reached source) (reached : Reached target)
    (known : target.unknownState = none) (taken : source.snapshot = .ok blob) :
    ((target.restore blob).1 = .ok () ↔ Compatible source.core) ∧
    ((target.restore blob).1 = .ok () →
      (∃ a, source.clock.Shows a ∧ Restored source target (target.restore blob).2 a) ∧
        ((target.restore blob).2.snapshot = .ok blob ↔ source.core.bus.Settled)) := by
  obtain ⟨p, mine⟩ := saved.alive
  obtain ⟨q, alive⟩ := reached.alive
  rcases mine.restore_cases alive known taken with
    ⟨compatible, ok, restored⟩ | ⟨incompatible, error, refused⟩
  · refine ⟨iff_of_true ok compatible, fun _ => ⟨⟨p.clock, mine.shows_.clock, restored⟩, ?_⟩⟩
    exact restored.snapshot_iff mine alive known taken
  · refine ⟨iff_of_false (fun ok => ?_) incompatible, fun ok => ?_⟩
    · cases refused.symm.trans ok
    · cases refused.symm.trans ok

/-- A machine that idled for three steps takes the snapshot of one that idled for sixteen. -/
theorem idled_restores : ∃ (source target : Machine (Clock Unit)) (blob : List Byte),
    source.retired = 16 ∧ target.retired = 3 ∧ source.snapshot = .ok blob ∧
      (target.restore blob).1 = .ok () ∧ (target.restore blob).2.retired = 16 ∧
      (target.restore blob).2.snapshot = .ok blob := by
  obtain ⟨source, mine⟩ := idled_sixteen
  obtain ⟨target, other⟩ := idled_three
  obtain ⟨blob, taken⟩ := mine.alive.snapshot mine.known
  obtain ⟨accepted, restored⟩ :=
    restores_machine_snapshot mine.reached other.reached other.known taken
  have ok := accepted.mpr mine.compatible
  obtain ⟨⟨_, _, left⟩, shown⟩ := restored ok
  exact ⟨source, target, blob, mine.retired, other.retired, taken, ok,
    left.retired.trans mine.retired, shown.mpr mine.settled⟩

theorem snapshot_unknown {unknown : String} (lost : m.unknownState = some unknown) :
    m.snapshot = .error s!"machine: snapshot: {unknown}" := by
  unfold Machine.snapshot
  rw [lost]

theorem restore_unknown {unknown : String} (lost : m.unknownState = some unknown) :
    m.restore state = (.error s!"machine: restore: {unknown}", m) := by
  unfold Machine.restore
  rw [lost]

/-- **A restore that is refused**, whatever it was given.  The machine is as it was: its core,
policies and counts, around devices that were put back, and on a settled board down to the bytes
of its snapshot.  Only a core that refuses its own registers is not put back, and then the machine
takes and gives no snapshot again. -/
theorem refused_machine_unchanged (reached : Reached m) {error : String}
    (refused : (m.restore state).1 = .error error) :
    let r := (m.restore state).2
    r = m ∨
    (Compatible m.core ∧ r.core = { m.core with bus := r.core.bus } ∧
      (r.core.bus = m.core.bus ∨
        ∃ reached, reached <+: regions ∧ Board.Bus.PutBack reached m.core.bus r.core.bus) ∧
      r.handoff = m.handoff ∧ r.skyGates = m.skyGates ∧ r.retired = m.retired ∧
      r.clock.snapshot = m.clock.snapshot ∧
      (m.core.bus.Settled → r.snapshot = m.snapshot)) ∨
    (¬ Compatible m.core ∧ (∃ error, r.snapshot = .error error) ∧
      ∀ state, ∃ error, r.restore state = (.error error, r)) := by
  intro r
  obtain ⟨q, alive⟩ := reached.alive
  have clockEq (undone : Undone m r q.clock) : r.clock.snapshot = m.clock.snapshot :=
    undone.clock.snapshot_eq alive.shows_.clock
  rcases alive.refused refused with same | ⟨knownBefore, undone, left⟩
  · exact .inl same
  by_cases compatible : Compatible m.core
  · rw [if_pos compatible] at left
    obtain ⟨core, known⟩ := left
    refine .inr (.inl ⟨compatible, core, undone.board, undone.handoff, undone.skyGates,
      undone.retired, clockEq undone, fun settled => ?_⟩)
    refine snapshot_congr (known.trans knownBefore.symm) fun o => ?_
    cases o with
    | bus =>
      refine Board.Bus.snapshot_congr (undone.unknownBus.trans alive.bus.symm) fun d => ?_
      rcases undone.board with same | ⟨reached, -, back⟩
      · exact congrArg (fun b : Board => b.save d) same
      · exact back.saves (back.controller settled) d
    | clock => exact clockEq undone
    | cpu =>
      change r.core.snapshot = _
      rw [core]
      exact core_snapshot_bus _ _
    | handoff => exact congrArg Handoff.snapshot undone.handoff
    | retired => exact congrArg snapshotRetired undone.retired
    | skyGates => exact congrArg SkyGates.snapshot undone.skyGates
  · rw [if_neg compatible] at left
    obtain ⟨unknown, lost⟩ := Option.isSome_iff_exists.mp left
    exact .inr (.inr ⟨compatible, ⟨_, snapshot_unknown lost⟩, fun _ => ⟨_, restore_unknown lost⟩⟩)

/-- A set of another machine's owners, with no blob for the bus: the others are restored and
put back. -/
theorem idled_refuses : ∃ (m left : Machine (Clock Unit)) (set : MemberSet) (before : NonBusState)
    (blob : List Byte) (error : String), m.prepare blob = .ok (set, before) ∧
      restoreSet set restoreOrder m = (.error error, left) ∧ left.retired = 16 ∧
      (∃ error, (m.restore blob).1 = .error error) ∧ (m.restore blob).2.retired = 3 ∧
      (m.restore blob).2.snapshot = m.snapshot := by
  obtain ⟨source, mine⟩ := idled_sixteen
  obtain ⟨m, made⟩ := idled_three
  choose blobs saved short using mine.alive.saves
  have short' (o : Owner) : (if o = .bus then [] else blobs o).length ≤
      if o = .bus then Board.Bus.room else 0x20000 := by
    have fits := short o
    split_ifs at fits ⊢
    · exact Nat.zero_le _
    · exact fits
  obtain ⟨blob, written, fits⟩ := written_of_short short'
  obtain ⟨set, before, prepared, -, found⟩ := made.alive.prepare_written written
  obtain ⟨clock, -, others⟩ := @restoreSet_others source m _ set mine.alive
    (fun o other => ⟨blobs o, saved o, by rw [found o, if_neg other]⟩) mine.compatible
  obtain ⟨reason, bus⟩ : ∃ reason, (m.bus.restore []).2 = .error reason := by
    unfold Board.Bus.restore
    rw [show m.bus.unknownState = none from made.alive.bus]
    exact ⟨_, rfl⟩
  have noBlob : set.members.find? Owner.bus.name = some [] := found .bus
  have taken := others.trans (restoreSet_error noBlob (congrArg (·, _) bus))
  have undone := restore_undone made.known fits prepared taken
  obtain ⟨error, refused⟩ : ∃ error, (m.restore blob).1 = .error error := by
    rw [undone]
    unfold rollback
    split <;> exact ⟨_, rfl⟩
  refine ⟨m, _, set, before, blob, _, prepared, taken, mine.retired, ⟨error, refused⟩, ?_⟩
  rcases refused_machine_unchanged made.reached refused with
    same | ⟨-, -, -, -, -, retired, -, shown⟩ | ⟨incompatible, -⟩
  · rw [same]
    exact ⟨made.retired, rfl⟩
  · exact ⟨retired.trans made.retired, shown made.settled⟩
  · exact absurd made.compatible incompatible

/-- **Going on from a snapshot.**  Where the lines were at their levels and the host configures
the devices alike, the restored machine does on every further turn what the saved one does: the
results are the same, and so is all that is left but for what the clock has thrown away. -/
theorem restored_goes_on (saved : Reached source) (reached : Reached target)
    (taken : source.snapshot = .ok blob) (ok : (target.restore blob).1 = .ok ())
    (plain : Plain source target) (turns : List Turn) (short : ShortTurns turns) :
    let first := source.run tick turns
    let second := (target.restore blob).2.run tick turns
    second.1 = first.1 ∧ Alike second.2 first.2 ∧ second.2.snapshot = first.2.snapshot := by
  intro first second
  obtain ⟨p, mine⟩ := saved.alive
  obtain ⟨q, alive⟩ := reached.alive
  have restored := mine.restored alive taken ok
  have same := restored.onClock_eq plain mine alive (restore_known ok) (snapshot_ok taken).1 p.clock
  have shows_ : (target.restore blob).2.Shows p :=
    ⟨restored.clock, same.trans mine.shows_.rest⟩
  obtain ⟨results, shown⟩ := mine.shows_.run short mine.running
  obtain ⟨results', shown'⟩ := shows_.run short mine.running
  have alike : Alike second.2 first.2 := shown'.alike shown
  exact ⟨results'.trans results.symm, alike, alike.snapshot⟩

/-- It takes five steps more, as the one that had idled for sixteen. -/
theorem idled_goes_on : ∃ (source target : Machine (Clock Unit)) (blob : List Byte),
    source.retired = 16 ∧ target.retired = 3 ∧ source.snapshot = .ok blob ∧
      ((target.restore blob).2.run tick (steps 5)).1 = List.replicate 5 (.ok []) ∧
      Alike ((target.restore blob).2.run tick (steps 5)).2 (source.run tick (steps 5)).2 := by
  obtain ⟨source, mine⟩ := idled_sixteen
  obtain ⟨target, other⟩ := idled_three
  have core : source.core = (idled true 16).core := congrArg Machine.core mine.alive.shows_.rest
  have core' : target.core = (idled false 3).core := congrArg Machine.core other.alive.shows_.rest
  have path : target.core.bus.i2c.imagePath = source.core.bus.i2c.imagePath := by
    rw [core, core']
    decide +kernel
  obtain ⟨blob, taken⟩ := mine.alive.snapshot mine.known
  have ok : (target.restore blob).1 = .ok () := by
    rcases mine.alive.restore_cases other.alive other.known taken with
      ⟨-, ok, -⟩ | ⟨incompatible, -⟩
    · exact ok
    · exact absurd mine.compatible incompatible
  obtain ⟨results, alike, -⟩ := restored_goes_on mine.reached other.reached taken ok
    ⟨mine.settled, mine.policy, path⟩ (steps 5) (steps_short 5)
  refine ⟨source, target, blob, mine.retired, other.retired, taken, results.trans ?_, alike⟩
  rw [(mine.alive.shows_.run (steps_short 5) mine.alive.running).1]
  decide +kernel

end Reached

end Machine

end GoRetroTv
