import GoRetroTv.MachineSteps

/-!
# What the machine keeps

A machine that has not failed stays on the pace of its pump, with every device within what its
own restore accepts.  And its clock is as good as the agenda it amounts to: two machines that
differ in how the queue holds the pump's event do the same.
-/

namespace GoRetroTv

open Cpu

namespace Machine

variable {C D : Type} {persist : I2c.Persist}

/-- The machine around another schedule. -/
def onClock (clock : D) (m : Machine C) : Machine D where
  core := m.core
  clock := clock
  handoff := m.handoff
  skyGates := m.skyGates
  retired := m.retired
  unknownBus := m.unknownBus
  unknownState := m.unknownState

/-- The machine, with its clock as an agenda. -/
structure Shows (m : Machine (Clock Unit)) (p : Machine (Agenda Unit)) : Prop where
  clock : m.clock.Shows p.clock
  rest : m.onClock p.clock = p

/-- A staged machine likewise. -/
def ShowsStaged (stage : Staged (Clock Unit)) (other : Staged (Agenda Unit)) : Prop :=
  stage.1 = other.1 ∧ stage.2.Shows other.2

section Agenda

variable {m : Machine (Clock Unit)} {p : Machine (Agenda Unit)}

/-- Around a clock there is one agenda that a machine shows. -/
theorem shows_iff {a : Agenda Unit} : m.Shows (m.onClock a) ↔ m.clock.Shows a :=
  ⟨Shows.clock, fun shown => ⟨shown, rfl⟩⟩

theorem Shows.eq (shows_ : m.Shows p) : ∃ a, p = m.onClock a ∧ m.clock.Shows a :=
  ⟨p.clock, shows_.rest.symm, shows_.clock⟩

theorem tick_eq {slot : Bool} {retired : DoubleWord} {g : Rig (Clock Unit)}
    {h : Rig (Agenda Unit)} (shows_ : g.Shows h) (timely : h.clock.Timely) :
    (tick slot retired g).Shows (h.beat slot retired) := by
  obtain ⟨left, ticked, shown⟩ := Rig.tick_shows shows_ timely
  unfold tick
  rw [ticked]
  exact shown

theorem Shows.beatAt (shows_ : m.Shows p) (timely : p.clock.Timely) (core : Core Board) :
    (m.beatAt tick core).Shows (p.beatAt Rig.beat core) := by
  obtain ⟨a, rfl, shown⟩ := shows_.eq
  exact tick_eq ⟨rfl, rfl, shown⟩ timely

/-- The boundaries of both are the same pump of the core. -/
theorem Shows.boundary (shows_ : m.Shows p) (timely : p.clock.Timely) :
    m.boundary tick = p.boundary Rig.beat := by
  funext core
  have beat := shows_.beatAt timely core
  unfold Machine.boundary
  dsimp only
  rw [beat.result, beat.entry, beat.rig.board]

theorem Shows.behind (shows_ : m.Shows p) (timely : p.clock.Timely) (core : Core Board) :
    (m.behind tick core).Shows (p.behind Rig.beat core) := by
  have beat := shows_.beatAt timely core
  refine ⟨beat.rig.clock, ?_⟩
  obtain ⟨a, rfl, -⟩ := shows_.eq
  unfold Machine.behind
  dsimp only
  rw [beat.rig.handoff]
  rfl

/-- Another core for both. -/
theorem Shows.withCore (shows_ : m.Shows p) (core : Core Board) :
    Shows { m with core } { p with core } := by
  obtain ⟨a, rfl, shown⟩ := shows_.eq
  exact ⟨shown, rfl⟩

theorem Shows.pumped (shows_ : m.Shows p) (timely : p.clock.Timely) :
    ShowsStaged (m.pumped tick) (p.pumped Rig.beat) := by
  have core : m.core = p.core := congrArg Machine.core shows_.rest
  unfold Machine.pumped
  rw [shows_.boundary timely, core]
  exact ⟨rfl, (shows_.behind timely p.core).withCore _⟩

theorem Shows.gated (shows_ : m.Shows p) :
    ShowsStaged (m.gated persist) (p.gated persist) := by
  obtain ⟨a, rfl, shown⟩ := shows_.eq
  exact ⟨rfl, shown, rfl⟩

theorem Shows.executed (shows_ : m.Shows p) (timely : p.clock.Timely) :
    ShowsStaged (m.executed tick persist) (p.executed Rig.beat persist) := by
  have core : m.core = p.core := congrArg Machine.core shows_.rest
  unfold Machine.executed
  rw [shows_.boundary timely, core]
  dsimp only
  refine ⟨rfl, Shows.withCore ?_ _⟩
  split
  · exact shows_
  · exact shows_.behind timely _

theorem Shows.free (shows_ : m.Shows p) : m.free = p.free := by
  obtain ⟨a, rfl, -⟩ := shows_.eq
  rfl

theorem ShowsStaged.andThen {first : Staged (Clock Unit)} {second : Staged (Agenda Unit)}
    {next : Machine (Clock Unit) → Staged (Clock Unit)}
    {next' : Machine (Agenda Unit) → Staged (Agenda Unit)} (shown : ShowsStaged first second)
    (later : ∀ m p, second = (.ok (), p) → m.Shows p → ShowsStaged (next m) (next' p)) :
    ShowsStaged (andThen first next) (andThen second next') := by
  obtain ⟨result, m⟩ := first
  obtain ⟨result', p⟩ := second
  obtain ⟨same, shows_⟩ := shown
  obtain rfl : result = result' := same
  cases result with
  | error error => exact ⟨rfl, shows_⟩
  | ok _ => exact later m p rfl shows_

/-- A stage that is left out leaves both as they are. -/
theorem Shows.ite {stage : Staged (Clock Unit)} {other : Staged (Agenda Unit)} (shows_ : m.Shows p)
    (shown : ShowsStaged stage other) :
    ShowsStaged (if m.free then stage else (.ok (), m)) (if p.free then other else (.ok (), p)) := by
  rw [shows_.free]
  cases p.free with
  | true => exact shown
  | false => exact ⟨rfl, shows_⟩

end Agenda

/-- The devices are within their bounds and no line waits to be heard. -/
def Served (b : Board) : Prop :=
  b.Sound ∧ b.wire.raised = 0

/-- A machine that has not failed. -/
structure Running (p : Machine (Agenda Unit)) : Prop where
  served : Served p.core.bus
  paced : Rig.Paced p.clock

section Soundness

variable {p q : Machine (Agenda Unit)}

theorem served_absorb {b : Board} (sound : b.Sound) : Served b.absorb.1 :=
  ⟨sound.absorb, rfl⟩

theorem Running.beat (running : p.Running) (core : Core Board) (served : Served core.bus)
    (ok : (p.beatAt Rig.beat core).result = .ok ()) :
    (p.beatAt Rig.beat core).rig.board.Sound ∧ Rig.Paced (p.beatAt Rig.beat core).rig.clock := by
  have kept : Rig.Kept core.hasPendingBranch p.retired (p.rig core) (p.beatAt Rig.beat core) :=
    Rig.Paced.beat running.paced ok
  refine ⟨?_, kept.paced⟩
  by_cases due : ((p.rig core).clock.icount + 1) % 16 = 1
  · obtain ⟨served_, board, -⟩ := kept.pumped due
    rw [board]
    exact Rig.serve_sound served.1 served_
  · rw [(kept.quiet due).2.1]
    exact served.1

/-- A boundary keeps the machine running, whichever core it is called with. -/
theorem Running.boundary (running : p.Running) (core : Core Board) (served : Served core.bus)
    (ok : (p.boundary Rig.beat core).result = .ok ()) :
    Served (p.boundary Rig.beat core).bus ∧ Rig.Paced (p.behind Rig.beat core).clock := by
  obtain ⟨sound, paced⟩ := running.beat core served ok
  exact ⟨served_absorb sound, paced⟩

theorem Running.pumped (running : p.Running) (ok : (p.pumped Rig.beat).1 = .ok ()) :
    (p.pumped Rig.beat).2.Running := by
  obtain ⟨served, paced⟩ := running.boundary p.core running.served ok
  refine ⟨?_, paced⟩
  unfold Machine.pumped
  dsimp only
  rw [Core.afterPump_bus]
  exact served

theorem Running.withBoard (running : p.Running) {b : Board} (sound : b.Sound) :
    (p.withBoard b).Running where
  served := served_absorb sound
  paced := running.paced

theorem Running.gated (running : p.Running) (ok : (p.gated persist).1 = .ok ()) :
    (p.gated persist).2.Running := by
  have ticked := SkyGates.tick_ticked persist p.retired p.handoff.done p.core.bus p.skyGates
  unfold Machine.gated at ok ⊢
  generalize p.skyGates.tick persist p.retired p.handoff.done p.core.bus = left at ticked ok ⊢
  obtain ⟨result, skyGates, b⟩ := left
  have gates : Running { p with skyGates } := ⟨running.served, running.paced⟩
  refine gates.withBoard ?_
  cases ticked with
  | off early => exact running.served.1
  | fails due error unanswered => exact running.served.1
  | waits due unanswered => exact running.served.1
  | answers due closed => exact SkyGates.answered_sound running.served.1

theorem Running.executed (short : I2c.Controller.ShortTexts persist) (running : p.Running)
    (ok : (p.executed Rig.beat persist).1 = .ok ()) :
    (p.executed Rig.beat persist).2.Running := by
  have pumps (reached : Core Board) (at_ : p.core.beginStep.atBoundary = some reached)
      (ok : (p.boundary Rig.beat reached).result = .ok ()) :
      Served (p.boundary Rig.beat reached).bus ∧ Rig.Paced (p.behind Rig.beat reached).clock := by
    refine running.boundary reached ?_ ok
    rw [Core.atBoundary_bus at_, Core.begun_bus]
    exact running.served
  have core := @Core.step_keeps Board (Board.ops persist) (p.boundary Rig.beat) p.core Served
    (fun b _ _ served => served_absorb served.1.look)
    (fun b _ _ _ served => served_absorb (served.1.poke short))
    running.served (fun reached at_ ok => (pumps reached at_ ok).1)
  have boundary := Core.acceptInterrupt_atBoundary (p.boundary Rig.beat) p.core.beginStep
  unfold Machine.executed at ok ⊢
  dsimp only at ok ⊢
  refine ⟨core ok, ?_⟩
  cases at_ : p.core.beginStep.atBoundary with
  | none => exact running.paced
  | some reached =>
    -- A step that succeeds has passed the boundary.
    have passed : (p.boundary Rig.beat reached).result = .ok () := by
      rcases boundary with ⟨other, same, accepted⟩ | ⟨none_, -⟩
      · cases at_.symm.trans same
        unfold Core.stepWithInterruptBoundary at ok
        rw [accepted] at ok
        cases result : (p.boundary Rig.beat reached).result with
        | ok _ => rfl
        | error error =>
          rw [result] at ok
          cases ok
      · cases at_.symm.trans none_
    exact (pumps reached at_ passed).2

theorem andThen_running {stage : Staged (Agenda Unit)}
    {next : Machine (Agenda Unit) → Staged (Agenda Unit)} (ok : (andThen stage next).1 = .ok ())
    (first : stage.1 = .ok () → stage.2.Running)
    (later : ∀ q, q.Running → (next q).1 = .ok () → (next q).2.Running) :
    (andThen stage next).2.Running := by
  obtain ⟨result, m⟩ := stage
  cases result with
  | error error => cases ok
  | ok _ => exact later m (first rfl) ok

/-- A stage that is left out keeps the machine as it is. -/
theorem Running.ite {condition : Bool} {stage : Staged (Agenda Unit)} (running : p.Running)
    (ok : (if condition then stage else (.ok (), p)).1 = .ok ())
    (kept : stage.1 = .ok () → stage.2.Running) :
    (if condition then stage else (.ok (), p)).2.Running := by
  cases condition with
  | true => exact kept ok
  | false => exact running

theorem Running.begun (running : p.Running) (ok : (p.begun Rig.beat persist).1 = .ok ()) :
    (p.begun Rig.beat persist).2.Running :=
  andThen_running ok (fun ok => running.ite ok running.pumped) fun _ running ok =>
    running.ite ok running.gated

/-- **A step keeps the machine running.** -/
theorem Running.step (short : I2c.Controller.ShortTexts persist) (running : p.Running)
    (ok : (p.step Rig.beat persist).1 = .ok ()) : (p.step Rig.beat persist).2.Running := by
  have staged : (p.stages Rig.beat persist).1 = .ok () := Rig.mapError_ok.mp ok
  change (p.stages Rig.beat persist).2.Running
  rw [stages_begun] at staged ⊢
  refine andThen_running staged running.begun fun q running ok => ?_
  refine andThen_running ok (running.executed short) fun q running ok => ?_
  exact ⟨running.served, running.paced⟩

theorem Running.fed {action : Demux.Receiver.Action PUnit} (running : p.Running)
    (coherent : ∀ s : Demux.Receiver, s.registers.Coherent →
      ∀ t, action s = .ok ⟨⟩ t → t.registers.Coherent)
    (ok : (p.fed action).1 = .ok ()) : (p.fed action).2.Running := by
  unfold Machine.fed at ok ⊢
  cases result : action p.core.bus.receiver with
  | error error t =>
    rw [result] at ok
    cases ok
  | ok _ t =>
    refine running.withBoard (running.served.1.received ?_)
    exact coherent _ running.served.1.demux t result

theorem map_ok {α β : Type} {f : α → β} {result : Except String α} {value : β}
    (ok : result.map f = .ok value) : ∃ before, result = .ok before := by
  cases result with
  | error error => cases ok
  | ok before => exact ⟨before, rfl⟩

theorem Running.keyed {raw source : Byte} (running : p.Running)
    (ok : (p.keyed raw source).1 = .ok ()) : (p.keyed raw source).2.Running := by
  unfold Machine.keyed at ok ⊢
  cases queued : p.core.bus.csi.key raw source with
  | error error =>
    rw [queued] at ok
    cases ok
  | ok csi =>
    exact running.withBoard (running.served.1.put .csi csi (running.served.1.csi.key queued))

/-- **An input keeps the machine running.** -/
theorem Running.perform (short : I2c.Controller.ShortTexts persist) (running : p.Running)
    (input : Input) {taken : List Byte} (ok : (p.perform Rig.beat persist input).1 = .ok taken) :
    (p.perform Rig.beat persist input).2.Running := by
  cases input with
  | step =>
    obtain ⟨_, stepped⟩ := map_ok ok
    exact running.step short stepped
  | key raw source =>
    obtain ⟨_, keyed⟩ := map_ok ok
    exact running.keyed keyed
  | push pid section_ =>
    obtain ⟨_, pushed⟩ := map_ok ok
    refine running.fed (fun s coherent t pushed => ?_) pushed
    have kept := @Demux.Receiver.push_coherent s pid section_ coherent
    rwa [pushed] at kept
  | transport data =>
    obtain ⟨_, pushed⟩ := map_ok ok
    exact running.fed (fun s coherent t pushed => Demux.Receiver.pushTransport_ok coherent pushed)
      pushed
  | schedule data first period =>
    obtain ⟨_, scheduled⟩ := map_ok ok
    refine running.fed (fun s coherent t scheduled => ?_) scheduled
    have kept := @Demux.Receiver.schedule_coherent s data first period coherent
    rwa [scheduled] at kept
  | pump now =>
    obtain ⟨_, pumped⟩ := map_ok ok
    exact running.fed (fun s coherent t pumped => Demux.Receiver.pump_ok coherent pumped) pumped
  | take =>
    refine running.withBoard (running.served.1.received ?_)
    exact { running.served.1.demux with programme := Demux.Registers.new_packets }

end Soundness

section Lockstep

variable {m : Machine (Clock Unit)} {p : Machine (Agenda Unit)}

theorem Shows.begun (shows_ : m.Shows p) (running : p.Running) :
    ShowsStaged (m.begun tick persist) (p.begun Rig.beat persist) :=
  ShowsStaged.andThen (shows_.ite (shows_.pumped running.paced.toTimely))
    fun _ _ _ shows_ => shows_.ite shows_.gated

theorem Shows.step (shows_ : m.Shows p) (running : p.Running) :
    ShowsStaged (m.step tick persist) (p.step Rig.beat persist) := by
  have stages : ShowsStaged (m.stages tick persist) (p.stages Rig.beat persist) := by
    rw [stages_begun, stages_begun]
    refine ShowsStaged.andThen (shows_.begun running) fun m r begun shows_ => ?_
    have running : r.Running := by
      have kept := running.begun (congrArg Prod.fst begun)
      rwa [begun] at kept
    refine ShowsStaged.andThen (shows_.executed running.paced.toTimely) fun m u _ shows_ => ?_
    obtain ⟨a, rfl, shown⟩ := shows_.eq
    exact ⟨rfl, shown, rfl⟩
  obtain ⟨a, rfl, shown⟩ := shows_.eq
  refine ⟨?_, stages.2⟩
  unfold Machine.step
  dsimp only
  rw [stages.1]
  rfl

theorem Shows.fed (shows_ : m.Shows p) (action : Demux.Receiver.Action PUnit) :
    ShowsStaged (m.fed action) (p.fed action) := by
  obtain ⟨a, rfl, shown⟩ := shows_.eq
  have same : (m.onClock a).core.bus.receiver = m.core.bus.receiver := rfl
  unfold Machine.fed
  rw [same]
  cases action m.core.bus.receiver <;> exact ⟨rfl, shown, rfl⟩

theorem Shows.keyed (shows_ : m.Shows p) (raw source : Byte) :
    ShowsStaged (m.keyed raw source) (p.keyed raw source) := by
  obtain ⟨a, rfl, shown⟩ := shows_.eq
  have same : (m.onClock a).core.bus.csi = m.core.bus.csi := rfl
  unfold Machine.keyed
  rw [same]
  cases m.core.bus.csi.key raw source <;> exact ⟨rfl, shown, rfl⟩

theorem Shows.perform (shows_ : m.Shows p) (running : p.Running) (input : Input) :
    (m.perform tick persist input).1 = (p.perform Rig.beat persist input).1 ∧
      (m.perform tick persist input).2.Shows (p.perform Rig.beat persist input).2 := by
  have staged {stage : Staged (Clock Unit)} {other : Staged (Agenda Unit)}
      (shown : ShowsStaged stage other) :
      stage.1.map (fun _ => ([] : List Byte)) = other.1.map (fun _ => []) ∧
        stage.2.Shows other.2 :=
    ⟨by rw [shown.1], shown.2⟩
  cases input with
  | step => exact staged (shows_.step running)
  | key raw source => exact staged (shows_.keyed raw source)
  | push pid section_ => exact staged (shows_.fed _)
  | transport data => exact staged (shows_.fed _)
  | schedule data first period => exact staged (shows_.fed _)
  | pump now => exact staged (shows_.fed _)
  | take =>
    obtain ⟨a, rfl, shown⟩ := shows_.eq
    exact ⟨rfl, shown, rfl⟩

/-- The host's disk tells every failure in short. -/
def ShortTurns (turns : List Turn) : Prop :=
  ∀ turn ∈ turns, I2c.Controller.ShortTexts turn.1

/-- **A run of the machine.**  It tells and leaves what the run on the agenda does. -/
theorem Shows.run {turns : List Turn} (short : ShortTurns turns) (shows_ : m.Shows p)
    (running : p.Running) :
    (m.run tick turns).1 = (p.run Rig.beat turns).1 ∧
      (m.run tick turns).2.Shows (p.run Rig.beat turns).2 := by
  induction turns generalizing m p with
  | nil => exact ⟨rfl, shows_⟩
  | cons turn turns ih =>
    obtain ⟨persist, input⟩ := turn
    obtain ⟨same, shown⟩ := @Shows.perform persist m p shows_ running input
    have kept (taken : List Byte) (ok : (p.perform Rig.beat persist input).1 = .ok taken) :=
      running.perform (short _ List.mem_cons_self) input ok
    unfold Machine.run
    generalize m.perform tick persist input = first at same shown ⊢
    generalize p.perform Rig.beat persist input = second at same shown kept ⊢
    obtain ⟨result, m⟩ := first
    obtain ⟨result', p⟩ := second
    obtain rfl : result = result' := same
    cases result with
    | error error => exact ⟨rfl, shown⟩
    | ok taken =>
      obtain ⟨results, left⟩ :=
        ih (fun turn later => short turn (List.mem_cons_of_mem _ later)) shown (kept taken rfl)
      dsimp only
      exact ⟨congrArg (List.cons (Except.ok taken)) results, left⟩

end Lockstep

end Machine

end GoRetroTv
