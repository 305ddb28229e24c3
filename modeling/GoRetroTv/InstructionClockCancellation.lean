import GoRetroTv.InstructionClockRuns

/-!
# Cancelling an event in any reachable clock

Every clock of every run whose steps meet the condition is valid, snapshots and
restores included.  In such a clock `Cancel` takes out one event: it never fires
afterwards, and what happens to the others is what would have happened to them.
-/

namespace GoRetroTv

namespace Clock

variable {H : Type}

theorem filterMap_ids {c : Clock H} {live : List (Nat × EventRef)}
    (found : ∀ entry ∈ live, ∃ ev, c.event? entry.2 = some ev ∧ ev.id = entry.1) :
    (live.filterMap fun entry => c.event? entry.2).map (·.id) = live.map Prod.fst := by
  induction live with
  | nil => rfl
  | cons entry live ih =>
      obtain ⟨ev, isEv, sameId⟩ := found entry (by simp)
      have rest := ih fun other member => found other (List.mem_cons_of_mem _ member)
      simp [isEv, sameId, rest]

theorem Consistent.live_event {c : Clock H} (consistent : c.Consistent)
    {entry : Nat × EventRef} (member : entry ∈ c.live) :
    ∃ ev, c.event? entry.2 = some ev ∧ ev.id = entry.1 ∧ c.Pending ev.core := by
  obtain ⟨id, ref⟩ := entry
  obtain ⟨queued, hasId⟩ := (consistent.live id ref).mp member
  obtain ⟨ev, isEv⟩ := consistent.indexed.isEvent queued
  rw [coreAt_eq_some isEv] at hasId
  exact ⟨ev, isEv, Option.some.inj hasId, ref, queued, coreAt_eq_some isEv⟩

theorem Consistent.pending_of_liveEvents {c : Clock H} (consistent : c.Consistent) {ev : Event H}
    (member : ev ∈ c.liveEvents) :
    c.Pending ev.core := by
  rw [liveEvents, List.mem_insertionSort, List.mem_filterMap] at member
  obtain ⟨entry, live, isEv⟩ := member
  obtain ⟨found, isFound, _, pending⟩ := consistent.live_event live
  rw [isFound, Option.some.injEq] at isEv
  exact isEv ▸ pending

theorem Consistent.liveEvents_ids {c : Clock H} (consistent : c.Consistent) :
    (c.liveEvents.map (·.id)).Nodup := by
  have sorted : c.liveEvents.Perm (c.live.filterMap fun entry => c.event? entry.2) :=
    List.perm_insertionSort _ _
  rw [(sorted.map _).nodup_iff, filterMap_ids]
  · exact consistent.liveIds
  · intro entry member
    obtain ⟨ev, isEv, sameId, _⟩ := consistent.live_event member
    exact ⟨ev, isEv, sameId⟩

/-- A restore of a valid clock's snapshot is valid when `Init` moves every
position but the root.  It holds the snapshot's events, all due later. -/
theorem Valid.restore {c d d' : Clock H} (valid : c.Valid) {blob : List Byte}
    {handlers : List Byte → Option H} (taken : c.snapshot = .ok blob)
    (exchanged : c.InitExchangesAll) (restored : d.restore blob handlers = .ok d') :
    d'.Valid ∧ d'.nextID = c.nextID ∧
      ∀ ev, d'.Pending ev → d'.icount < ev.due ∧ ∃ source, c.Pending source ∧ ev.id = source.id := by
  obtain ⟨consistent, numbered⟩ := valid
  have numbers : ∀ ev ∈ c.liveEvents, ev.core.Numbered c.nextID := fun ev member =>
    numbered.events ev.core (consistent.pending_of_liveEvents member)
  have idFits := numbered.nextID_lt
  obtain ⟨isInstalled, later⟩ := restore_of_snapshot taken numbered.icount_lt idFits
    (numbered.nextSeq_eq ▸ idFits)
    (by
      intro ev member
      have facts := numbers ev member
      have idEq : ev.id = ev.seq + 1 := facts.id_eq
      have seqLt : ev.seq < c.nextID := facts.seq_lt
      exact ⟨by omega, facts.due_lt, facts.period_lt, by omega⟩)
    restored
  set decoded : Restored H := {
    icount := c.icount
    nextID := c.nextID
    nextSeq := c.nextSeq
    events := c.liveEvents.map (rebuild handlers) } with isDecoded
  have ids : decoded.events.map (·.id) = c.liveEvents.map (·.id) := by
    simp only [isDecoded, List.map_map]
    rfl
  have keys : (decoded.events.map fun ev => (ev.due, ev.seq)) =
      c.liveEvents.map fun ev => (ev.due, ev.seq) := by
    simp only [isDecoded, List.map_map]
    rfl
  obtain ⟨consistentIff, pending, icount, nextID, nextSeq⟩ := d.install_spec decoded
    (by rw [ids]; exact consistent.liveEvents_ids)
    (by
      intro ev member
      obtain ⟨source, _, rfl⟩ := List.mem_map.mp member
      rfl)
  rw [← isInstalled] at consistentIff pending icount nextID nextSeq
  have isSource : ∀ ev, d'.Pending ev → ∃ source ∈ c.liveEvents,
      ev = (rebuild handlers source).core := by
    intro ev isPending
    obtain ⟨built, member, rfl⟩ := (pending ev).mp isPending
    obtain ⟨source, sourceMember, rfl⟩ := List.mem_map.mp member
    exact ⟨source, sourceMember, rfl⟩
  refine ⟨⟨consistentIff.mpr (keys ▸ exchanged), ?_⟩, nextID, ?_⟩
  · exact {
      icount_lt := icount ▸ numbered.icount_lt
      nextSeq_eq := by rw [nextSeq, nextID]; exact numbered.nextSeq_eq
      nextID_lt := nextID ▸ idFits
      events := by
        intro ev isPending
        obtain ⟨source, member, rfl⟩ := isSource ev isPending
        have facts := numbers source member
        rw [nextID]
        exact ⟨facts.id_eq, facts.seq_lt, facts.due_lt, facts.period_lt⟩ }
  · intro ev isPending
    obtain ⟨source, member, rfl⟩ := isSource ev isPending
    refine ⟨?_, source.core, consistent.pending_of_liveEvents member, rfl⟩
    rw [icount]
    exact later source member

theorem Valid.new : Valid (Clock.new : Clock H) where
  consistent := {
    indexed := by
      intro i ref found
      simp [Clock.new] at found
    ordered := by
      intro k _ bound
      simp [Clock.new] at bound
    live := by simp [Clock.new]
    liveIds := by simp [Clock.new]
    nextDue := rfl }
  numbered := {
    icount_lt := Nat.two_pow_pos 64
    nextSeq_eq := rfl
    nextID_lt := Nat.two_pow_pos 64
    events := by
      rintro ev ⟨ref, member, _⟩
      simp [Clock.new] at member }

end Clock

namespace RunningClock

variable {H : Type}

theorem Valid.withClock {r : RunningClock H} (valid : r.Valid) {clock : Clock H}
    (clockValid : clock.Valid) :
    (r.withClock clock).Valid :=
  ⟨clockValid, valid.targets⟩

/-- The representation invariant holds in every reachable clock. -/
theorem Reachable.valid {r : RunningClock H} (reachable : Reachable r) : r.Valid := by
  induction reachable with
  | new => exact ⟨.new, by simp⟩
  | step before action allowed stepped ih => exact (ih.step allowed stepped).valid
  | restore before taken control snapshot exchanged restored ih sourceIh =>
      exact ih.withClock (sourceIh.clock.restore snapshot exchanged restored).1

theorem Execution.valid {r r' : RunningClock H} {trace : List (ClockEntry H)} (valid : r.Valid)
    (run : Execution r trace r') :
    r'.Valid := by
  induction run with
  | start => exact valid
  | step before action allowed stepped ih => exact (ih.step allowed stepped).valid
  | restore before taken control snapshot exchanged restored ih =>
      exact ih.withClock (taken.valid.clock.restore snapshot exchanged restored).1

/-- An event id that has been given out and is no longer pending. -/
structure Gone (c : Clock H) (id : Nat) : Prop where
  notPending : ∀ ev, c.Pending ev → ev.id ≠ id
  used : id ≤ c.nextID

theorem Gone.effect {c c' : Clock H} {id : Nat} {entries : List (ClockEntry H)}
    (gone : Gone c id) (effect : Effect c c' entries) :
    Gone c' id ∧ ∀ now, .fired id now ∉ entries := by
  cases effect with
  | kept pending nextID =>
      exact ⟨⟨fun ev isPending => gone.notPending ev ((pending ev).mp isPending),
        nextID ▸ gone.used⟩, by simp⟩
  | failed pending nextID =>
      exact ⟨⟨fun ev isPending => gone.notPending ev ((pending ev).mp isPending),
        nextID ▸ gone.used⟩, by simp⟩
  | added new newId pending nextID =>
      refine ⟨⟨?_, ?_⟩, by simp⟩
      · intro ev isPending
        rcases (pending ev).mp isPending with before | rfl
        · exact gone.notPending ev before
        · have := gone.used
          omega
      · have := gone.used
        omega
  | cancelled other pending nextID =>
      exact ⟨⟨fun ev isPending => gone.notPending ev ((pending ev).mp isPending).1,
        nextID ▸ gone.used⟩, by simp⟩
  | fired head wasPending pending nextID =>
      have headNe := gone.notPending head wasPending
      refine ⟨⟨?_, nextID ▸ gone.used⟩, ?_⟩
      · intro ev isPending
        rcases (pending ev).mp isPending with ⟨before, _⟩ | ⟨_, rfl⟩
        · exact gone.notPending ev before
        · exact headNe
      · intro now member
        rw [List.mem_singleton, ClockEntry.fired.injEq] at member
        exact headNe member.1.symm

/-- An event that is gone never fires, unless a snapshot is restored in which
it is pending or its id has not been given out yet. -/
theorem Execution.never_fires {r r' : RunningClock H} {trace : List (ClockEntry H)} {id : Nat}
    (run : Execution r trace r') (valid : r.Valid) (gone : Gone r.clock id)
    (notBack : ∀ snapshot, .restored snapshot ∈ trace → Gone snapshot id) :
    Gone r'.clock id ∧ ∀ now, .fired id now ∉ trace := by
  induction run with
  | start => exact ⟨gone, by simp⟩
  | step before action allowed stepped ih =>
      obtain ⟨goneBefore, notFired⟩ := ih fun snapshot member =>
        notBack snapshot (List.mem_append_left _ member)
      obtain ⟨goneAfter, notFiredNow⟩ :=
        goneBefore.effect ((before.valid valid).step allowed stepped).effect
      refine ⟨goneAfter, fun now member => ?_⟩
      rcases List.mem_append.mp member with earlier | last
      · exact notFired now earlier
      · exact notFiredNow now last
  | restore before taken control snapshot exchanged restored ih =>
      obtain ⟨_, notFired⟩ := ih fun snapshot member =>
        notBack snapshot (List.mem_append_left _ member)
      have goneThen := notBack _ (List.mem_append_right _ List.mem_cons_self)
      obtain ⟨_, nextID, pending⟩ := taken.valid.clock.restore snapshot exchanged restored
      refine ⟨⟨?_, ?_⟩, fun now member => ?_⟩
      · intro ev isPending same
        obtain ⟨_, source, sourcePending, sameId⟩ := pending ev isPending
        exact goneThen.notPending source sourcePending (sameId ▸ same)
      · exact nextID ▸ goneThen.used
      · rcases List.mem_append.mp member with earlier | last
        · exact notFired now earlier
        · cases List.mem_singleton.mp last

theorem Effect.pending_or {c c' : Clock H} {entries : List (ClockEntry H)} {ev : Event H}
    (consistent : c.Consistent) (effect : Effect c c' entries) (pending : c.Pending ev) :
    .fired ev.id ev.due ∈ entries ∨ .cancelled ev.id ∈ entries ∨ c'.Pending ev := by
  cases effect with
  | kept same nextID => exact .inr (.inr ((same ev).mpr pending))
  | failed same nextID => exact .inr (.inr ((same ev).mpr pending))
  | added new newId same nextID => exact .inr (.inr ((same ev).mpr (.inl pending)))
  | cancelled id same nextID =>
      by_cases isIt : ev.id = id
      · exact .inr (.inl (by simp [isIt]))
      · exact .inr (.inr ((same ev).mpr ⟨pending, isIt⟩))
  | fired head wasPending same nextID =>
      by_cases isIt : ev.id = head.id
      · obtain rfl := consistent.pending_unique pending wasPending isIt
        exact .inl (by simp)
      · exact .inr (.inr ((same ev).mpr (.inl ⟨pending, isIt⟩)))

/-- A pending event fires at its own due instruction, or is cancelled, or is
still pending with the same due instruction. -/
theorem Execution.fires_or_pending {r r' : RunningClock H} {trace : List (ClockEntry H)}
    {ev : Event H} (run : Execution r trace r') (valid : r.Valid) (pending : r.clock.Pending ev)
    (notRestored : ∀ snapshot, .restored snapshot ∉ trace) :
    .fired ev.id ev.due ∈ trace ∨ .cancelled ev.id ∈ trace ∨ r'.clock.Pending ev := by
  induction run with
  | start => exact .inr (.inr pending)
  | step before action allowed stepped ih =>
      have validBefore := before.valid valid
      rcases ih fun snapshot member => notRestored snapshot (List.mem_append_left _ member) with
        fired | cancelled | still
      · exact .inl (List.mem_append_left _ fired)
      · exact .inr (.inl (List.mem_append_left _ cancelled))
      · rcases (validBefore.step allowed stepped).effect.pending_or validBefore.clock.consistent
          still with fired | cancelled | still
        · exact .inl (List.mem_append_right _ fired)
        · exact .inr (.inl (List.mem_append_right _ cancelled))
        · exact .inr (.inr still)
  | restore before taken control snapshot exchanged restored ih =>
      exact absurd (List.mem_append_right _ List.mem_cons_self) (notRestored _)

/-- While no handler fails, nothing pending is passed over. -/
theorem Execution.onTime {r r' : RunningClock H} {trace : List (ClockEntry H)}
    (run : Execution r trace r') (valid : r.Valid) (onTime : r.OnTime)
    (succeeded : .failed ∉ trace) :
    r'.OnTime := by
  induction run with
  | start => exact onTime
  | step before action allowed stepped ih =>
      have before' := ih fun member => succeeded (List.mem_append_left _ member)
      exact ((before.valid valid).step allowed stepped).onTime
        (fun member => succeeded (List.mem_append_right _ member)) before'
  | restore before taken control snapshot exchanged restored ih =>
      intro _ ev pending
      exact ((taken.valid.clock.restore snapshot exchanged restored).2.2 ev pending).1

/-- In every reachable clock the queue, the stored positions, the live map and
the cached due instruction agree, and cancelling a live event takes out that
event: it does not fire again, and every other pending event fires at its own
due instruction unless it is cancelled itself, nothing being passed over while
no handler fails. -/
theorem reachable_consistent {r : RunningClock H} (reachable : Reachable r) :
    r.clock.Consistent ∧ ∀ id ref, (id, ref) ∈ r.clock.live →
      ∃ clock, r.clock.cancel id = .ok (true, clock) ∧ clock.Consistent ∧
        (∀ ev, clock.Pending ev ↔ r.clock.Pending ev ∧ ev.id ≠ id) ∧
        ∀ trace r', Execution (r.withClock clock) trace r' →
          ((∀ snapshot, .restored snapshot ∈ trace → Gone snapshot id) →
            ∀ now, .fired id now ∉ trace) ∧
          ((∀ snapshot, .restored snapshot ∉ trace) →
            ∀ ev, r.clock.Pending ev → ev.id ≠ id →
              .fired ev.id ev.due ∈ trace ∨ .cancelled ev.id ∈ trace ∨
                (r'.clock.Pending ev ∧ (r.OnTime → .failed ∉ trace →
                  r'.calls = [] → r'.clock.icount < ev.due))) := by
  have valid := reachable.valid
  refine ⟨valid.clock.consistent, fun id ref live => ?_⟩
  obtain ⟨was, clock, cancelled, cancelValid, wasPending, pending, icount, nextID⟩ :=
    valid.clock.cancel id
  obtain ⟨found, isFound, sameId, foundPending⟩ := valid.clock.consistent.live_event live
  have foundId : found.core.id = id := sameId
  obtain rfl : was = true := wasPending.mpr ⟨_, foundPending, foundId⟩
  have runValid := valid.withClock cancelValid
  have used : id ≤ clock.nextID := by
    have numbers := valid.clock.numbered.events found.core foundPending
    have idEq := numbers.id_eq
    have seqLt := numbers.seq_lt
    rw [nextID]
    omega
  refine ⟨clock, cancelled, cancelValid.consistent, pending, ?_⟩
  intro trace r' run
  constructor
  · intro notBack
    exact (run.never_fires runValid ⟨fun ev isPending => ((pending ev).mp isPending).2, used⟩
      notBack).2
  · intro notRestored ev evPending evNe
    have evStill := (pending ev).mpr ⟨evPending, evNe⟩
    rcases run.fires_or_pending runValid evStill notRestored with fired | cancelled | still
    · exact .inl fired
    · exact .inr (.inl cancelled)
    · refine .inr (.inr ⟨still, fun onTime succeeded idle => ?_⟩)
      have onTime' : (r.withClock clock).OnTime := by
        intro isIdle other otherPending
        change clock.icount < other.due
        rw [icount]
        exact onTime isIdle other ((pending other).mp otherPending).1
      exact run.onTime runValid onTime' succeeded idle ev still

end RunningClock

namespace Clock

/-- A clock with one event due at each of two instructions. -/
def twoEvents (first second : DoubleWord) : Clock Unit :=
  ((new.at_ first.toNat (ascii "a") (some ())).2.at_ second.toNat (ascii "b") (some ())).2

/-- Its snapshot, restored into it. -/
def twoEventsRestored (first second : DoubleWord) : Except String (Clock Unit) := do
  let blob ← (twoEvents first second).snapshot
  (twoEvents first second).restore blob fun _ => some ()

/-- The ids of the queued events, and the positions those events record. -/
def queuedIds (c : Clock Unit) : List (Option Nat × Option Nat) :=
  c.queue.map fun ref => ((c.event? ref).map (·.id), (c.event? ref).bind (·.index))

/-- With events at 10 and 20, registered in that order, the restore leaves both
recorded at the root.  Cancelling event 2 takes out event 1 and keeps event 2
queued, though only event 1 is left in the live map. -/
theorem twoEvents_cancel_wrong :
    (twoEventsRestored 10 20).toOption.map queuedIds =
        some [(some 1, some 0), (some 2, some 0)] ∧
      ((twoEventsRestored 10 20).toOption.bind fun c => (c.cancel 2).toOption.map fun answer =>
        (answer.1, queuedIds answer.2, answer.2.live.map Prod.fst)) =
        some (true, [(some 2, none)], [1]) := by
  decide +kernel

end Clock

namespace RunningClock

/-- Registered the other way round, `Init` moves both events: the restored
clock is consistent, and cancelling event 1 leaves event 2 alone. -/
theorem twoEvents_reachable_consistent :
    ∃ clock : Clock Unit, Clock.twoEventsRestored 20 10 = .ok clock ∧ clock.Consistent ∧
      ∃ after, clock.cancel 1 = .ok (true, after) ∧ after.Consistent := by
  have live : (Clock.twoEventsRestored 20 10).toOption.map (·.live) = some [(1, 2), (2, 3)] := by
    decide +kernel
  have exchanged : (Clock.twoEvents 20 10).InitExchangesAll := by
    unfold Clock.InitExchangesAll
    decide +kernel
  have twoReachable : Reachable { clock := Clock.twoEvents 20 10 } :=
    .step (.step .new (.at_ 20 (ascii "a") (some ())) (by unfold Allowed; decide) rfl)
      (.at_ 10 (ascii "b") (some ())) (by unfold Allowed; decide +kernel) rfl
  cases taken : (Clock.twoEvents 20 10).snapshot with
  | error error =>
      rw [Clock.twoEventsRestored, taken] at live
      cases live
  | ok blob =>
      cases restored : (Clock.twoEvents 20 10).restore blob fun _ => some () with
      | error error =>
          rw [Clock.twoEventsRestored, taken] at live
          change ((Clock.twoEvents 20 10).restore blob fun _ => some ()).toOption.map (·.live) =
            _ at live
          rw [restored] at live
          cases live
      | ok clock =>
          have isRestored : Clock.twoEventsRestored 20 10 = .ok clock := by
            simp only [Clock.twoEventsRestored, taken]
            exact restored
          rw [isRestored] at live
          have isLive : clock.live = [(1, 2), (2, 3)] := Option.some.inj live
          obtain ⟨consistent, cancels⟩ :=
            reachable_consistent (.restore twoReachable twoReachable rfl taken exchanged restored)
          obtain ⟨after, cancelled, stays, _⟩ := cancels 1 2 (by
            change (1, 2) ∈ clock.live
            rw [isLive]
            exact List.mem_cons_self)
          exact ⟨clock, isRestored, consistent, after, cancelled, stays⟩

end RunningClock

end GoRetroTv
