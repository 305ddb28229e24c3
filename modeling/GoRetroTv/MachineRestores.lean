import GoRetroTv.MachineSnapshots

/-!
# Restoring the machine

A machine takes the whole of another's snapshot if the core does not refuse the registers in it.
A machine that refuses one is put back, unless its own registers are some that its core refuses.
-/

namespace GoRetroTv

open Cpu Snapcodec

/-- A core is restored around the bus it has. -/
theorem Cpu.Core.restore_bus {β : Type} {c d : Core β} {blob : List Byte}
    (restored : c.restore blob = .ok d) : d.bus = c.bus := by
  obtain ⟨r, last, read⟩ := restoring_ok restored
  unfold readSnapshot at read
  iterate 17 obtain ⟨_, _, -, read⟩ := bind_ok read
  cases read
  rfl

namespace Machine

section Owners

variable {set : MemberSet} {n n' : Machine (Clock Unit)} {o : Owner} {os : List Owner}
  {copy : List Byte} {error : String}

theorem restoreSet_missing (absent : set.members.find? o.name = none) :
    restoreSet set (o :: os) n =
      (.error s!"machine: restore: missing {text o.name} after completeness check", n) := by
  rw [restoreSet, absent]

theorem restoreSet_ok (found : set.members.find? o.name = some copy)
    (taken : n.restoreOwner copy o = (.ok (), n')) :
    restoreSet set (o :: os) n = restoreSet set os n' := by
  rw [restoreSet, found]
  dsimp only
  rw [taken]

theorem restoreSet_error (found : set.members.find? o.name = some copy)
    (refused : n.restoreOwner copy o = (.error error, n')) :
    restoreSet set (o :: os) n =
      (.error s!"machine: restore {text o.name}: {error}", n') := by
  rw [restoreSet, found]
  dsimp only
  rw [refused]

/-- No other owner touches the bus. -/
theorem restoreOwner_bus (other : o ≠ .bus) :
    (n.restoreOwner copy o).2.bus = n.bus ∧
      (n.restoreOwner copy o).2.unknownState = n.unknownState := by
  have given {α : Type} {put : α → Machine (Clock Unit)} {decoded : Except String α}
      (kept : ∀ value, decoded = .ok value →
        (put value).bus = n.bus ∧ (put value).unknownState = n.unknownState) :
      (n.given put decoded).2.bus = n.bus ∧
        (n.given put decoded).2.unknownState = n.unknownState := by
    unfold Machine.given
    cases decoded with
    | error error => exact ⟨rfl, rfl⟩
    | ok value => exact kept value rfl
  cases o with
  | bus => exact absurd rfl other
  | cpu =>
    refine given fun core restored => ⟨?_, rfl⟩
    have same : core.bus = n.core.bus := Core.restore_bus restored
    unfold Machine.bus
    rw [same]
  | clock => exact given fun _ _ => ⟨rfl, rfl⟩
  | handoff => exact given fun _ _ => ⟨rfl, rfl⟩
  | retired => exact given fun _ _ => ⟨rfl, rfl⟩
  | skyGates => exact given fun _ _ => ⟨rfl, rfl⟩

/-- What a refused restore has done to the bus. -/
structure Touched (n n' : Machine (Clock Unit)) : Prop where
  unknownState : n'.unknownState = n.unknownState
  bus : n'.bus = n.bus ∨ ∃ state error, (n.bus.restore state).2 = .error error ∧
    n'.core.bus = (n.bus.restore state).1.devices.absorb.1 ∧
    n'.unknownBus = (n.bus.restore state).1.unknownState

theorem restoreSet_touched (others : .bus ∉ os) {left : Machine (Clock Unit)}
    (refused : restoreSet set (os ++ [.bus]) n = (.error error, left)) : Touched n left := by
  induction os generalizing n with
  | nil =>
    change restoreSet set [.bus] n = _ at refused
    cases found : set.members.find? Owner.bus.name with
    | none =>
      cases (restoreSet_missing found).symm.trans refused
      exact ⟨rfl, .inl rfl⟩
    | some state =>
      cases result : (n.bus.restore state).2 with
      | ok _ =>
        cases (restoreSet_ok found (congrArg (·, _) result)).symm.trans refused
      | error reason =>
        cases (restoreSet_error found (congrArg (·, _) result)).symm.trans refused
        exact ⟨rfl, .inr ⟨state, reason, result, rfl, rfl⟩⟩
  | cons o os ih =>
    have ⟨other, others⟩ := List.ne_and_not_mem_of_not_mem_cons others
    rw [List.cons_append] at refused
    cases found : set.members.find? o.name with
    | none =>
      cases (restoreSet_missing found).symm.trans refused
      exact ⟨rfl, .inl rfl⟩
    | some state =>
      obtain ⟨bus, unknownState⟩ := @restoreOwner_bus n o state (Ne.symm other)
      cases taken : n.restoreOwner state o with
      | mk result n' =>
        rw [taken] at bus unknownState
        cases result with
        | error reason =>
          cases (restoreSet_error found taken).symm.trans refused
          exact ⟨unknownState, .inl bus⟩
        | ok _ =>
          have touched := ih others ((restoreSet_ok found taken).symm.trans refused)
          refine ⟨touched.unknownState.trans unknownState, ?_⟩
          rw [← show n'.bus = n.bus from bus]
          exact touched.bus

end Owners

/-- A machine that has taken the snapshot of another. -/
structure Restored (source target restored : Machine (Clock Unit)) (a : Agenda Unit) : Prop where
  core : ∃ b, Board.Bus.Taken source.core.bus target.core.bus b ∧
    restored.core =
      ({ source.core with bus := b.devices.absorb.1 }).raise b.devices.absorb.2
  clock : restored.clock.Shows a
  handoff : restored.handoff = source.handoff
  skyGates : restored.skyGates = source.skyGates
  retired : restored.retired = source.retired
  unknownBus : restored.unknownBus = none
  unknownState : restored.unknownState = target.unknownState

section Restoring

variable {m n : Machine (Clock Unit)} {p q : Machine (Agenda Unit)} {blob : List Byte}
  {set : MemberSet}

theorem restoreOwner_cpu {copy : List Byte} (saved : m.core.snapshot = .ok copy) :
    n.restoreOwner copy .cpu =
      if Compatible m.core then (.ok (), { n with core := { m.core with bus := n.core.bus } })
      else (.error "cpu: restore: incompatible register state", n) := by
  change n.given (fun core => { n with core }) (n.core.restore copy) = _
  rw [core_restore saved]
  by_cases compatible : Compatible m.core
  · rw [if_pos compatible, if_pos compatible]
    rfl
  · rw [if_neg compatible, if_neg compatible]
    rfl

theorem restoreOwner_handoff {copy : List Byte} (saved : m.handoff.snapshot = .ok copy) :
    n.restoreOwner copy .handoff = (.ok (), { n with handoff := m.handoff }) := by
  cases m.handoff.snapshot_eq.symm.trans saved
  unfold restoreOwner
  rw [Handoff.restore_frame]
  rfl

theorem restoreOwner_retired {copy : List Byte} (saved : snapshotRetired m.retired = .ok copy) :
    n.restoreOwner copy .retired = (.ok (), { n with retired := m.retired }) := by
  cases (snapshotRetired_eq m.retired).symm.trans saved
  unfold restoreOwner
  rw [restoreRetired_frame]
  rfl

theorem restoreOwner_skyGates {copy : List Byte} (saved : m.skyGates.snapshot = .ok copy) :
    n.restoreOwner copy .skyGates = (.ok (), { n with skyGates := m.skyGates }) := by
  cases m.skyGates.snapshot_eq.symm.trans saved
  unfold restoreOwner
  rw [SkyGates.restore_frame]
  rfl

theorem Alive.restoreOwner_clock {copy : List Byte} (mine : m.Alive p)
    (saved : m.clock.snapshot = .ok copy) (n : Machine (Clock Unit)) :
    ∃ clock, n.restoreOwner copy .clock = (.ok (), { n with clock }) ∧ clock.Shows p.clock := by
  obtain ⟨clock, restored, shown⟩ := mine.clock_restore saved n.clock
  refine ⟨clock, ?_, shown⟩
  unfold restoreOwner
  rw [restored]
  rfl

/-- The core is the first to refuse. -/
theorem restoreSet_incompatible
    (found : ∀ o, ∃ copy, m.save o = .ok copy ∧ set.members.find? o.name = some copy)
    (incompatible : ¬ Compatible m.core) :
    ∃ error, restoreSet set restoreOrder n = (.error error, n) := by
  obtain ⟨cpu, saved, here⟩ := found .cpu
  have refused := @restoreOwner_cpu m n cpu saved
  rw [if_neg incompatible] at refused
  exact ⟨_, restoreSet_error here refused⟩

/-- The owners before the bus take what another machine has saved. -/
theorem restoreSet_others (mine : m.Alive p)
    (found : ∀ o, o ≠ .bus → ∃ copy, m.save o = .ok copy ∧ set.members.find? o.name = some copy)
    (compatible : Compatible m.core) :
    ∃ clock, clock.Shows p.clock ∧ restoreSet set restoreOrder n = restoreSet set [.bus] { n with
      core := { m.core with bus := n.core.bus }
      clock
      handoff := m.handoff
      retired := m.retired
      skyGates := m.skyGates } := by
  obtain ⟨cpu, savedCpu, foundCpu⟩ := found .cpu (by decide)
  obtain ⟨handoff, savedHandoff, foundHandoff⟩ := found .handoff (by decide)
  obtain ⟨retired, savedRetired, foundRetired⟩ := found .retired (by decide)
  obtain ⟨sky, savedSky, foundSky⟩ := found .skyGates (by decide)
  obtain ⟨clock, savedClock, foundClock⟩ := found .clock (by decide)
  have cpuTaken := @restoreOwner_cpu m n cpu savedCpu
  rw [if_pos compatible] at cpuTaken
  obtain ⟨clock', clockTaken, shown⟩ := mine.restoreOwner_clock savedClock
    { n with
      core := { m.core with bus := n.core.bus }
      handoff := m.handoff
      retired := m.retired
      skyGates := m.skyGates }
  refine ⟨clock', shown, ?_⟩
  unfold restoreOrder
  rw [restoreSet_ok foundCpu cpuTaken, restoreSet_ok foundHandoff (restoreOwner_handoff savedHandoff),
    restoreSet_ok foundRetired (restoreOwner_retired savedRetired),
    restoreSet_ok foundSky (restoreOwner_skyGates savedSky), restoreSet_ok foundClock clockTaken]

/-- The bus takes it too. -/
theorem restoreSet_compatible (alive : n.Alive q) (mine : m.Alive p)
    (found : ∀ o, ∃ copy, m.save o = .ok copy ∧ set.members.find? o.name = some copy)
    (compatible : Compatible m.core) :
    ∃ restored, restoreSet set restoreOrder n = (.ok (), restored) ∧
      Restored m n restored p.clock := by
  obtain ⟨bus, savedBus, foundBus⟩ := found .bus
  obtain ⟨clock', shown, others⟩ := @restoreSet_others m n p set mine (fun o _ => found o) compatible
  have accepted : (n.bus.restore bus).2 = .ok () :=
    Board.Bus.restore_of_sound mine.sound alive.sound alive.bus savedBus
  have taken : Board.Bus.Taken m.core.bus n.core.bus (n.bus.restore bus).1 :=
    Board.Bus.taken_of_accepted mine.sound.toBuilt alive.sound.toBuilt savedBus accepted
  let left := (n.bus.restore bus).1
  let restored : Machine (Clock Unit) := {
    core := ({ m.core with bus := left.devices.absorb.1 }).raise left.devices.absorb.2
    clock := clock'
    handoff := m.handoff
    skyGates := m.skyGates
    retired := m.retired
    unknownBus := left.unknownState
    unknownState := n.unknownState }
  refine ⟨restored, ?_, ⟨left, taken, rfl⟩, shown, rfl, rfl, rfl, taken.known, rfl⟩
  rw [others]
  have busTaken : restoreOwner bus { restored with
      core := { m.core with bus := n.core.bus }
      unknownBus := n.unknownBus } .bus = (.ok (), restored) :=
    congrArg (fun result => (result, restored)) accepted
  exact (restoreSet_ok foundBus busTaken).trans rfl

theorem Restored.alive {r : Machine (Clock Unit)} (restored : Restored m n r p.clock)
    (mine : m.Alive p) : r.Alive (r.onClock p.clock) := by
  obtain ⟨b, taken, core⟩ := restored.core
  refine ⟨shows_iff.mpr restored.clock, ⟨?_, mine.running.paced⟩, restored.unknownBus⟩
  change Served r.core.bus
  rw [core]
  exact served_absorb (taken.sound mine.sound)

theorem absorb_quiet {b : Board} (quiet : b.wire.raised = 0) : b.absorb = (b, 0) := by
  have same : ({ b.wire with raised := 0 } : Irq.Wire) = b.wire := by
    rw [← quiet]
  unfold Board.absorb
  rw [same, quiet]

attribute [ext] Board

/-- Boards are the same if their devices are, and the lines between them. -/
theorem board_ext {b b' : Board} (devices : ∀ r, r ≠ .irq → b.get r = b'.get r)
    (wire : b.wire = b'.wire) : b = b' := by
  ext1
  case wire => exact wire
  case dma => exact devices .dma (by decide)
  case ram => exact devices .dram (by decide)
  case blitter => exact devices .blitter (by decide)
  case video => exact devices .video (by decide)
  case display => exact devices .display (by decide)
  case demux => exact devices .demux (by decide)
  case timer => exact devices .timer (by decide)
  case modem => exact devices .modem (by decide)
  case smartcard => exact devices .smartcard (by decide)
  case i2c => exact devices .i2c (by decide)
  case csi => exact devices .csi (by decide)
  case latch => exact devices .latch (by decide)
  case audio => exact devices .audio (by decide)
  case mux => exact devices .mux (by decide)
  case flashU203 => exact devices .flashU203 (by decide)
  case flashU202 => exact devices .flashU202 (by decide)

/-- The lines of the board are at their levels, and the host has left the devices as they are
configured when they are made. -/
structure Plain (m n : Machine (Clock Unit)) : Prop where
  settled : m.core.bus.Settled
  policy : m.core.bus.csi.ack = Csi.defaultAckPolicy
  path : n.core.bus.i2c.imagePath = m.core.bus.i2c.imagePath

/-- The core and the board of a restored machine are those that were recorded. -/
theorem Restored.core_eq {r : Machine (Clock Unit)} {a : Agenda Unit} (restored : Restored m n r a)
    (plain : Plain m n) (mine : m.Alive p) (alive : n.Alive q) : r.core = m.core := by
  obtain ⟨b, taken, core⟩ := restored.core
  have wire : b.devices.wire = m.core.bus.wire := by
    rw [taken.wire_of_settled plain.settled]
    have target := alive.quiet
    have source := mine.quiet
    generalize n.core.bus.wire = w at target ⊢
    generalize m.core.bus.wire = w' at source ⊢
    obtain ⟨_, _⟩ := w
    obtain ⟨_, _⟩ := w'
    cases target
    cases source
    rfl
  have board : b.devices = m.core.bus := by
    refine board_ext (fun d device => (taken.devices d device).trans ?_) wire
    cases d with
    | i2c =>
      change { m.core.bus.i2c with imagePath := n.core.bus.i2c.imagePath } = m.core.bus.i2c
      rw [plain.path]
    | csi =>
      change m.core.bus.csi.setAckPolicy Csi.defaultAckPolicy = m.core.bus.csi
      rw [← plain.policy]
      rfl
    | _ => rfl
  rw [core, board, absorb_quiet mine.quiet]
  exact congrArg (fun lines => { m.core with pendingLines := lines }) BitVec.or_zero

/-- A machine whose restore was undone: what it had, around a board with its devices put back. -/
structure Undone (n r : Machine (Clock Unit)) (a : Agenda Unit) : Prop where
  board : r.core.bus = n.core.bus ∨
    ∃ reached, reached <+: regions ∧ Board.Bus.PutBack reached n.core.bus r.core.bus
  sound : Served r.core.bus
  clock : r.clock.Shows a
  handoff : r.handoff = n.handoff
  skyGates : r.skyGates = n.skyGates
  retired : r.retired = n.retired
  unknownBus : r.unknownBus = none

theorem putBack_ok {label : String} {copy : List Byte} {o : Owner} {failures : List String}
    {l l' : Machine (Clock Unit)} (taken : l.restoreOwner copy o = (.ok (), l')) :
    putBack label copy o (failures, l) = (failures, l') := by
  unfold putBack
  rw [taken]

theorem putBack_error {label error : String} {copy : List Byte} {o : Owner}
    {failures : List String} {l l' : Machine (Clock Unit)}
    (refused : l.restoreOwner copy o = (.error error, l')) :
    putBack label copy o (failures, l) = (failures ++ [label ++ error], l') := by
  unfold putBack
  rw [refused]

/-- The owners besides the bus are put back around whatever a restore has left. -/
theorem restoreNonBusState_own (alive : n.Alive q) {before : NonBusState}
    (saved : n.saveNonBusState = .ok before) (left : Machine (Clock Unit)) :
    ∃ failures clock, restoreNonBusState before left =
        (failures, {
          core := if Compatible n.core then { n.core with bus := left.core.bus } else left.core
          clock
          handoff := n.handoff
          skyGates := n.skyGates
          retired := n.retired
          unknownBus := left.unknownBus
          unknownState := left.unknownState }) ∧
      clock.Shows q.clock ∧ (failures = [] ↔ Compatible n.core) := by
  obtain ⟨own, isOwn, savedCpu, savedClock, savedHandoff, savedSky, retired⟩ := alive.saveNonBusState
  cases isOwn.symm.trans saved
  let core := if Compatible n.core then { n.core with bus := left.core.bus } else left.core
  obtain ⟨failures, cpuBack, none_⟩ : ∃ failures,
      putBack "cpu: " before.cpu .cpu ([], left) = (failures, { left with core }) ∧
        (failures = [] ↔ Compatible n.core) := by
    have cpu := @restoreOwner_cpu n left _ savedCpu
    by_cases compatible : Compatible n.core
    · rw [if_pos compatible] at cpu
      refine ⟨[], (putBack_ok cpu).trans ?_, iff_of_true rfl compatible⟩
      simp only [core, if_pos compatible]
    · rw [if_neg compatible] at cpu
      refine ⟨["cpu: " ++ "cpu: restore: incompatible register state"], ?_,
        iff_of_false (List.cons_ne_nil _ []) compatible⟩
      rw [putBack_error cpu]
      simp only [core, if_neg compatible, List.nil_append]
  obtain ⟨clock, taken, shown⟩ := alive.restoreOwner_clock savedClock
    { left with core, handoff := n.handoff, skyGates := n.skyGates }
  refine ⟨failures, clock, ?_, shown, none_⟩
  unfold restoreNonBusState
  rw [cpuBack, putBack_ok (restoreOwner_handoff savedHandoff),
    putBack_ok (restoreOwner_skyGates savedSky), putBack_ok taken, retired]

theorem Touched.board (alive : n.Alive q) {left : Machine (Clock Unit)} (touched : Touched n left) :
    (left.core.bus = n.core.bus ∨
      ∃ reached, reached <+: regions ∧ Board.Bus.PutBack reached n.core.bus left.core.bus) ∧
    Served left.core.bus ∧ left.unknownBus = none := by
  rcases touched.bus with same | ⟨state, error, refused, board, unknownBus⟩
  · have board : left.core.bus = n.core.bus := congrArg Board.Bus.devices same
    have known : left.unknownBus = n.unknownBus := congrArg Board.Bus.unknownState same
    rw [board, known]
    exact ⟨.inl rfl, ⟨alive.sound, alive.quiet⟩, alive.bus⟩
  · obtain ⟨known, back⟩ := @Board.Bus.refused_of_sound n.bus state alive.sound error refused
    rw [unknownBus, known, board]
    rcases back with same | ⟨reached, order, back⟩
    · have board : n.bus.devices = n.core.bus := rfl
      rw [same, board, absorb_quiet alive.quiet]
      exact ⟨.inl rfl, ⟨alive.sound, alive.quiet⟩, alive.bus⟩
    · refine ⟨.inr ⟨reached, order, ?_⟩, served_absorb (alive.sound.of_alike back.alike), alive.bus⟩
      exact { back with
        devices := fun r irq csi => (by cases r <;> exact back.devices _ irq csi) }

section Restore

variable {state : List Byte} {before : NonBusState} {left : Machine (Clock Unit)}
  (known : n.unknownState = none) (fits : ¬ maxSnapshotSize < state.length)
  (prepared : n.prepare state = .ok (set, before))
include known fits prepared

theorem restore_taken (written : restoreSet set restoreOrder n = (.ok (), left)) :
    n.restore state = (.ok (), left) := by
  unfold Machine.restore
  rw [known]
  dsimp only
  rw [if_neg fits, prepared]
  dsimp only
  rw [written]

theorem restore_undone {error : String}
    (written : restoreSet set restoreOrder n = (.error error, left)) :
    n.restore state = left.rollback before error := by
  unfold Machine.restore
  rw [known]
  dsimp only
  rw [if_neg fits, prepared]
  dsimp only
  rw [written]

end Restore

/-- A restore that writes has read and saved what it needs. -/
theorem restore_cases (state : List Byte) (n : Machine (Clock Unit)) :
    (∃ error, n.restore state = (.error error, n)) ∨
      n.unknownState = none ∧ ¬ maxSnapshotSize < state.length ∧
        ∃ set before, n.prepare state = .ok (set, before) := by
  cases known : n.unknownState with
  | some unknown =>
    unfold Machine.restore
    rw [known]
    exact .inl ⟨_, rfl⟩
  | none =>
    by_cases fits : maxSnapshotSize < state.length
    · unfold Machine.restore
      rw [known]
      dsimp only
      rw [if_pos fits]
      exact .inl ⟨_, rfl⟩
    cases prepared : n.prepare state with
    | ok read => exact .inr ⟨rfl, fits, read.1, read.2, rfl⟩
    | error error =>
      unfold Machine.restore
      rw [known]
      dsimp only
      rw [if_neg fits, prepared]
      exact .inl ⟨_, rfl⟩

theorem prepare_saved {state : List Byte} {before : NonBusState}
    (prepared : n.prepare state = .ok (set, before)) : n.saveNonBusState = .ok before := by
  obtain ⟨_, -, prepared⟩ := bind_eq_ok.mp prepared
  obtain ⟨_, -, prepared⟩ := bind_eq_ok.mp prepared
  obtain ⟨_, saved, returned⟩ := bind_eq_ok.mp prepared
  cases returned
  exact labelled_ok.mp saved

/-- A refused restore.  Nothing was written, or all that was written is undone; a core that
refuses its own registers keeps what it was given, and the machine says so. -/
theorem Alive.refused (alive : n.Alive q) {state : List Byte} {error : String}
    (refused : (n.restore state).1 = .error error) :
    (n.restore state).2 = n ∨
      (n.unknownState = none ∧ Undone n (n.restore state).2 q.clock ∧
        if Compatible n.core then
          (n.restore state).2.core = { n.core with bus := (n.restore state).2.core.bus } ∧
            (n.restore state).2.unknownState = none
        else (n.restore state).2.unknownState.isSome) := by
  rcases restore_cases state n with ⟨reason, same⟩ | ⟨known, fits, set, before, prepared⟩
  · exact .inl (congrArg Prod.snd same)
  cases written : restoreSet set restoreOrder n with
  | mk result left =>
    cases result with
    | ok _ =>
      rw [restore_taken known fits prepared written] at refused
      cases refused
    | error reason =>
      have touched : Touched n left :=
        @restoreSet_touched set n [.cpu, .handoff, .retired, .skyGates, .clock] reason
          (by decide) left written
      obtain ⟨board, sound, unknownBus⟩ := touched.board alive
      obtain ⟨failures, clock, undone, shown, none_⟩ :=
        restoreNonBusState_own alive (prepare_saved prepared) left
      rw [restore_undone known fits prepared written]
      unfold rollback
      rw [undone]
      cases failures with
      | nil =>
        have compatible := none_.mp rfl
        dsimp only
        rw [if_pos compatible, if_pos compatible]
        exact .inr ⟨known, ⟨board, sound, shown, rfl, rfl, rfl, unknownBus⟩, rfl,
          touched.unknownState.trans known⟩
      | cons failure failures =>
        have incompatible : ¬ Compatible n.core := fun compatible => by
          cases none_.mpr compatible
        dsimp only
        rw [if_neg incompatible, if_neg incompatible]
        exact .inr ⟨known, ⟨board, sound, shown, rfl, rfl, rfl, unknownBus⟩, rfl⟩

theorem Undone.alive {r : Machine (Clock Unit)} (undone : Undone n r q.clock) (alive : n.Alive q) :
    r.Alive (r.onClock q.clock) :=
  ⟨shows_iff.mpr undone.clock, ⟨undone.sound, alive.running.paced⟩, undone.unknownBus⟩

/-- Another machine's snapshot is refused by the core, or it is taken whole. -/
theorem Alive.restore_cases (mine : m.Alive p) (alive : n.Alive q) (known : n.unknownState = none)
    (taken : m.snapshot = .ok blob) :
    (Compatible m.core ∧ (n.restore blob).1 = .ok () ∧
      Restored m n (n.restore blob).2 p.clock) ∨
    (¬ Compatible m.core ∧ ∃ error, (n.restore blob).1 = .error error) := by
  obtain ⟨set, before, prepared, saved, found⟩ := alive.prepare taken
  obtain ⟨-, fits, -⟩ := snapshot_ok taken
  by_cases compatible : Compatible m.core
  · obtain ⟨restored, written, same⟩ := restoreSet_compatible alive mine found compatible
    rw [restore_taken known (Nat.not_lt.mpr fits) prepared written]
    exact .inl ⟨compatible, rfl, same⟩
  · obtain ⟨error, written⟩ := @restoreSet_incompatible m n set found compatible
    rw [restore_undone known (Nat.not_lt.mpr fits) prepared written]
    unfold rollback
    refine .inr ⟨compatible, ?_⟩
    split <;> exact ⟨_, rfl⟩

end Restoring

end Machine

end GoRetroTv
