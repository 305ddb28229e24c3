import GoRetroTv.DirtyRectangles

/-!
# The browser catches up

A client holds up to four frames: the one its writer wrote last, the one that waits for the
writer's clock, the one in the queue, and the one that a push is putting there.  They are in
the order of their pushes, and the last of them is the newest frame of all.
-/

namespace GoRetroTv

namespace Web

variable {current next : FrameData} {latest : Option FrameData} {frame : Paletted}
  {frames : List Paletted} {b : Browser}

namespace FrameData.Before

variable {first second third : FrameData}

theorem refl (f : FrameData) : f.Before f :=
  ⟨Nat.le_refl _, Nat.le_refl _, fun _ => rfl, fun _ => rfl⟩

theorem trans (early : first.Before second) (late : second.Before third) :
    first.Before third := by
  have between (same : first.epoch = third.epoch) :
      first.epoch = second.epoch ∧ second.epoch = third.epoch := by
    have up := early.epoch
    have down := late.epoch
    rw [← same] at down
    have middle := BitVec.eq_of_toNat_eq (Nat.le_antisymm up down)
    exact ⟨middle, middle ▸ same⟩
  constructor
  · exact Nat.le_trans early.seq late.seq
  · exact Nat.le_trans early.epoch late.epoch
  · intro same
    exact (early.palette (between same).1).trans (late.palette (between same).2)
  · intro same
    exact (early.alpha (between same).1).trans (late.alpha (between same).2)

end FrameData.Before

/-- A frame that came of no more than so many pushes. -/
structure FrameData.Within (pushes : Nat) (frame : FrameData) : Prop where
  pixels : frame.picture.pixels.length = frameWidth * frameHeight
  palette : frame.picture.palette.length = 256 * 3
  alpha : frame.picture.alpha.length = 256
  seq : frame.seq.toNat < pushes
  epoch : frame.epoch.toNat ≤ pushes

theorem FrameData.Within.sendable {pushes : Nat} (within : current.Within pushes)
    (few : pushes ≤ maxSafeInteger) : current.Sendable where
  pixels := within.pixels
  palette := within.palette
  alpha := within.alpha
  seq := Nat.le_of_lt (Nat.lt_of_lt_of_le within.seq few)
  epoch := Nat.le_trans within.epoch few

theorem FrameData.Within.mono {pushes more : Nat} (within : current.Within pushes)
    (le : pushes ≤ more) : current.Within more where
  pixels := within.pixels
  palette := within.palette
  alpha := within.alpha
  seq := Nat.lt_of_lt_of_le within.seq le
  epoch := Nat.le_trans within.epoch le

/-- A picture has all its pixels and colours. -/
theorem picture_sized {picture : Picture} (copied : frame.picture = .ok picture) :
    picture.pixels.length = frameWidth * frameHeight ∧ picture.palette.length = 256 * 3 ∧
      picture.alpha.length = 256 := by
  unfold Paletted.picture at copied
  split at copied
  · cases copied
  · split at copied
    · cases copied
    next complete =>
      split at copied
      · cases copied
      · rw [← Except.ok.inj copied]
        have width : frameWidth = 720 := rfl
        have height : frameHeight = 576 := rfl
        refine ⟨?_, ?_, ?_⟩
        · dsimp only
          unfold Paletted.pixels
          rw [Nat.mul_comm frameWidth]
          refine flatMap_range_length fun y inside => ?_
          have rows : y * frame.stride.toNat ≤ (frameHeight - 1) * frame.stride.toNat :=
            Nat.mul_le_mul_right _ (by omega)
          have stride : ((frame.stride.toNat : Nat) : Int) = frame.stride :=
            Int.toNat_of_nonneg (by omega)
          rw [← stride] at complete
          rw [List.length_take, List.length_drop]
          rw [height] at rows complete
          omega
        · dsimp only
          unfold Paletted.colours
          exact @flatMap_range_length _ _ 3 256 fun i inside => rfl
        · dsimp only
          unfold Paletted.alphas
          rw [List.length_map, List.length_range]

theorem toNat_succ {value : DoubleWord} (small : value.toNat ≤ maxSafeInteger) :
    (value + 1).toNat = value.toNat + 1 := by
  have safe : maxSafeInteger = 9007199254740991 := rfl
  rw [BitVec.toNat_add]
  change (value.toNat + 1) % 2 ^ 64 = _
  omega

/-- What a push makes of the latest frame. -/
theorem publish_within {pushes : Nat} (few : pushes < maxSafeInteger)
    (latest_ : ∀ last, latest = some last → last.Within pushes)
    (published : Session.publish latest frame = some next) :
    next.Within (pushes + 1) ∧ ∀ last, latest = some last → last.Before next := by
  unfold Session.publish at published
  split at published
  · cases published
  next picture copied =>
    obtain ⟨pixels, palette, alpha⟩ := picture_sized copied
    cases latest with
    | none =>
      cases published
      refine ⟨⟨pixels, palette, alpha, Nat.succ_pos _, ?_⟩, fun last none_ => by cases none_⟩
      exact Nat.succ_le_succ (Nat.zero_le _)
    | some last =>
      have within := latest_ last rfl
      have seq := @toNat_succ last.seq (Nat.le_of_lt (Nat.lt_trans within.seq few))
      have epoch := @toNat_succ last.epoch (Nat.le_trans within.epoch (Nat.le_of_lt few))
      have seqs := within.seq
      have epochs := within.epoch
      unfold nextFrame at published
      dsimp only at published
      split at published
      · cases published
      · cases published
        constructor
        · refine ⟨pixels, palette, alpha, ?_, ?_⟩
          · change (last.seq + 1).toNat < _
            omega
          · dsimp only
            split <;> omega
        · rintro _ ⟨⟩
          constructor
          · change _ ≤ (last.seq + 1).toNat
            omega
          · dsimp only
            split <;> omega
          · dsimp only
            split
            · intro same
              have := congrArg BitVec.toNat same
              omega
            next kept =>
              intro _
              by_contra changed
              exact kept (.inl changed)
          · dsimp only
            split
            · intro same
              have := congrArg BitVec.toNat same
              omega
            next kept =>
              intro _
              by_contra changed
              exact kept (.inr changed)

/-- The pictures of the frames that `PushFrame` accepts. -/
def pictures (frames : List Paletted) : List Picture :=
  frames.filterMap fun frame => frame.picture.toOption

theorem publish_picture :
    ((Session.publish latest frame).or latest).map FrameData.picture =
      frame.picture.toOption.or (latest.map FrameData.picture) := by
  unfold Session.publish
  split
  next copied =>
    rw [copied]
    rfl
  next picture copied =>
    rw [copied]
    change _ = some picture
    cases latest with
    | none => rfl
    | some last =>
      unfold nextFrame
      dsimp only
      split
      next same => exact congrArg some same
      · rfl

/-- The frame that a push is putting in the queue. -/
def Offer.carried : Offer → Option FrameData
  | .idle => none
  | .fresh next => some next
  | .full next => some next
  | .drained next => some next

/-- How far a push is from done. -/
def Offer.work : Offer → Nat
  | .idle => 0
  | .fresh _ => 9
  | .full _ => 7
  | .drained _ => 5

namespace Session

variable {s t : Session} {pushes : Nat}

/-- What waits behind the frame written last. -/
def waiting (s : Session) : List FrameData :=
  s.pending.toList ++ s.queue.toList ++ s.offer.carried.toList

/-- The client's frames, in the order of their pushes. -/
def line (s : Session) : List FrameData :=
  s.last.toList ++ s.waiting

/-- What every schedule keeps. -/
structure Holds (pushes : Nat) (s : Session) : Prop where
  ordered : s.line.Pairwise FrameData.Before
  newest : s.line.getLast? = s.latest
  within : ∀ frame ∈ s.line, frame.Within pushes
  drained : ∀ next, s.offer = .drained next → s.queue = none
  shown : ∃ b, s.browser = .ok b ∧ b.Ready s.last

/-- A step that loses frames, but not the newest, and shows what it writes. -/
theorem Holds.lose (holds : s.Holds pushes) (kept : t.line.Sublist s.line)
    (newest : t.line.getLast? = s.line.getLast?) (latest : t.latest = s.latest)
    (drained : ∀ next, t.offer = .drained next → t.queue = none)
    (shown : ∃ b, t.browser = .ok b ∧ b.Ready t.last) : t.Holds pushes where
  ordered := holds.ordered.sublist kept
  newest := by rw [newest, holds.newest, latest]
  within frame member := holds.within frame (kept.subset member)
  drained := drained
  shown := shown

/-- The frame that waits for the clock is written. -/
theorem Holds.write (holds : s.Holds pushes) (few : pushes ≤ maxSafeInteger)
    (pending : s.pending = some current) : (s.write current).Holds pushes := by
  obtain ⟨b, ok, ready⟩ := holds.shown
  have longer : s.line =
      s.last.toList ++ current :: (s.queue.toList ++ s.offer.carried.toList) := by
    unfold line waiting
    rw [pending]
    simp
  have shorter : (s.write current).line =
      current :: (s.queue.toList ++ s.offer.carried.toList) := by
    unfold line waiting Session.write
    simp
  have member : current ∈ s.line := by
    rw [longer]
    exact List.mem_append_right _ List.mem_cons_self
  have sendable := (holds.within current member).sendable few
  obtain ⟨b', written, shows⟩ := @writeFrame_shows current b s.last sendable ready fun last was => by
    have ordered := holds.ordered
    have within := holds.within last
    rw [longer, was] at ordered within
    exact ⟨(within List.mem_cons_self).sendable few,
      List.rel_of_pairwise_cons ordered List.mem_cons_self⟩
  refine holds.lose ?_ ?_ rfl holds.drained ⟨b', ?_, shows⟩
  · rw [shorter, longer]
    exact List.sublist_append_right _ _
  · rw [shorter, longer, List.getLast?_append_cons]
  · unfold Session.write
    dsimp only
    rw [ok]
    exact written

/-- Nothing is newer than the latest. -/
theorem Holds.before_latest {last : FrameData} (holds : s.Holds pushes)
    (latest : s.latest = some last) : ∀ frame ∈ s.line, frame.Before last := by
  intro frame member
  have newest := holds.newest
  rw [latest] at newest
  obtain ⟨earlier, split_⟩ := List.getLast?_eq_some_iff.mp newest
  have ordered := holds.ordered
  rw [split_] at member ordered
  rcases List.mem_append.mp member with before | here
  · exact (List.pairwise_append.mp ordered).2.2 frame before last (List.mem_singleton_self last)
  · rw [List.mem_singleton.mp here]
    exact .refl last

/-- A push puts a frame behind the others. -/
theorem Holds.push (holds : s.Holds pushes) (few : pushes < maxSafeInteger)
    (idle : s.offer = .idle) (published : publish s.latest frame = some next) :
    Holds (pushes + 1) { s with latest := some next, offer := .fresh next } := by
  have latest_ : ∀ last, s.latest = some last → last.Within pushes := by
    intro last latest
    have newest := holds.newest
    rw [latest] at newest
    exact holds.within last (List.mem_of_getLast? newest)
  obtain ⟨within, before⟩ := publish_within few latest_ published
  have behind : Session.line { s with latest := some next, offer := .fresh next } =
      s.line ++ [next] := by
    unfold line waiting
    rw [idle]
    simp [Offer.carried]
  constructor
  · rw [behind, List.pairwise_append]
    refine ⟨holds.ordered, List.pairwise_singleton _ _, fun frame member new isNew => ?_⟩
    rw [List.mem_singleton.mp isNew]
    cases latest : s.latest with
    | none =>
      have newest := holds.newest
      rw [latest, List.getLast?_eq_none_iff] at newest
      rw [newest] at member
      cases member
    | some last => exact (holds.before_latest latest frame member).trans (before last latest)
  · rw [behind, List.getLast?_concat]
  · rw [behind]
    intro frame member
    rcases List.mem_append.mp member with old | new
    · exact (holds.within frame old).mono (Nat.le_succ pushes)
    · rw [List.mem_singleton.mp new]
      exact within
  · rintro other ⟨⟩
  · exact holds.shown

theorem Holds.mono {more : Nat} (holds : s.Holds pushes) (le : pushes ≤ more) : s.Holds more :=
  { holds with within := fun frame member => (holds.within frame member).mono le }

/-- The frames pushed by some actions. -/
def pushed (actions : List Action) : List Paletted :=
  actions.filterMap fun action =>
    match action with
    | .push frame => some frame
    | _ => none

theorem Holds.offered (holds : s.Holds pushes) (stepped : s.step .offer = some t) :
    t.Holds pushes := by
  unfold step at stepped
  dsimp only at stepped
  split at stepped
  · cases stepped
  next next fresh =>
    split at stepped
    next empty =>
      cases stepped
      have same : Session.line { s with queue := some next, offer := .idle } = s.line := by
        unfold line waiting
        rw [fresh, Option.isNone_iff_eq_none.mp empty]
        simp [Offer.carried]
      refine holds.lose ?_ ?_ rfl ?_ holds.shown
      · rw [same]
      · rw [same]
      · rintro other ⟨⟩
    · cases stepped
      have same : Session.line { s with offer := .full next } = s.line := by
        unfold line waiting
        rw [fresh]
        rfl
      refine holds.lose ?_ ?_ rfl ?_ holds.shown
      · rw [same]
      · rw [same]
      · rintro other ⟨⟩
  next next full =>
    cases stepped
    have shorter : Session.line { s with queue := none, offer := .drained next } =
        s.last.toList ++ s.pending.toList ++ [next] := by
      unfold line waiting
      simp [Offer.carried]
    have longer : s.line = s.last.toList ++ s.pending.toList ++ s.queue.toList ++ [next] := by
      unfold line waiting
      rw [full]
      simp [Offer.carried]
    refine holds.lose ?_ ?_ rfl (fun _ _ => rfl) holds.shown
    · rw [shorter, longer]
      exact (List.sublist_append_left _ _).append_right [next]
    · rw [shorter, longer, List.getLast?_concat, List.getLast?_concat]
  next next drained =>
    have empty := holds.drained next drained
    rw [empty] at stepped
    cases stepped
    have same : Session.line { s with queue := some next, offer := .idle } = s.line := by
      unfold line waiting
      rw [drained, empty]
      simp [Offer.carried]
    refine holds.lose ?_ ?_ rfl ?_ holds.shown
    · rw [same]
    · rw [same]
    · rintro other ⟨⟩

theorem Holds.taken (holds : s.Holds pushes) (few : pushes ≤ maxSafeInteger)
    (stepped : s.step .take = some t) : t.Holds pushes := by
  unfold step at stepped
  dsimp only at stepped
  split at stepped
  · cases stepped
  next frame queued =>
    have longer : s.line =
        s.last.toList ++ s.pending.toList ++ frame :: s.offer.carried.toList := by
      unfold line waiting
      rw [queued]
      simp
    have shorter : Session.line { s with queue := none, pending := some frame } =
        s.last.toList ++ frame :: s.offer.carried.toList := by
      unfold line waiting
      simp
    have moved : Holds pushes { s with queue := none, pending := some frame } := by
      refine holds.lose ?_ ?_ rfl (fun _ _ => rfl) holds.shown
      · rw [shorter, longer]
        exact (List.sublist_append_left _ _).append_right _
      · rw [shorter, longer, List.getLast?_append_cons, List.getLast?_append_cons]
    split at stepped
    · cases stepped
      exact moved.write few rfl
    · cases stepped
      exact moved

theorem Holds.ticked (holds : s.Holds pushes) (few : pushes ≤ maxSafeInteger)
    (stepped : s.step .tick = some t) : t.Holds pushes := by
  unfold step at stepped
  dsimp only at stepped
  split at stepped
  · cases stepped
    exact holds
  next frame pending =>
    cases stepped
    exact holds.write few pending

/-- Every step keeps the order, and the newest frame. -/
theorem Holds.step {action : Action} (holds : s.Holds pushes)
    (few : pushes + (pushed [action]).length ≤ maxSafeInteger)
    (stepped : s.step action = some t) : t.Holds (pushes + (pushed [action]).length) := by
  cases action with
  | push frame =>
    change pushes + 1 ≤ maxSafeInteger at few
    change t.Holds (pushes + 1)
    unfold Session.step at stepped
    dsimp only at stepped
    split at stepped
    next idle =>
      split at stepped
      · cases stepped
        exact holds.mono (Nat.le_succ pushes)
      next next published =>
        cases stepped
        exact holds.push (by omega) idle published
    · cases stepped
  | offer => exact holds.offered stepped
  | take => exact holds.taken few stepped
  | tick => exact holds.ticked few stepped

theorem pushed_cons {action : Action} {actions : List Action} :
    pushed (action :: actions) = pushed [action] ++ pushed actions := by
  unfold pushed
  rw [← List.filterMap_append, List.singleton_append]

theorem run_cons {action : Action} {actions : List Action} :
    s.run (action :: actions) = s.step action >>= fun s => s.run actions :=
  List.foldlM_cons

theorem Holds.run {actions : List Action} (holds : s.Holds pushes)
    (few : pushes + (pushed actions).length ≤ maxSafeInteger)
    (ran : s.run actions = some t) : t.Holds (pushes + (pushed actions).length) := by
  induction actions generalizing s pushes with
  | nil =>
    cases ran
    exact holds
  | cons action actions ih =>
    rw [pushed_cons, List.length_append, ← Nat.add_assoc] at few ⊢
    rw [run_cons] at ran
    obtain ⟨middle, stepped, ran⟩ := Option.bind_eq_some_iff.mp ran
    exact ih (holds.step (by omega) stepped) few ran

/-- A client that joins has the newest frame in its queue. -/
theorem joined_holds {earlier : List Paletted} (fresh : b.Fresh)
    (few : earlier.length ≤ maxSafeInteger) : (joined earlier b).Holds earlier.length := by
  have latest : ∀ last,
      earlier.foldl (fun latest frame => (publish latest frame).or latest) none = some last →
        last.Within earlier.length := by
    induction earlier using List.reverseRecOn with
    | nil => intro last none_; cases none_
    | append_singleton earlier frame ih =>
      rw [List.length_append, List.length_singleton] at few ⊢
      have before := ih (by omega)
      rw [List.foldl_append, List.foldl_cons, List.foldl_nil]
      generalize earlier.foldl (fun latest frame => (publish latest frame).or latest) none =
        latest at before ⊢
      intro last newest
      cases published : publish latest frame with
      | none =>
        rw [published, Option.none_or] at newest
        exact (before last newest).mono (Nat.le_succ _)
      | some next =>
        rw [published, Option.some_or] at newest
        cases newest
        exact (publish_within (by omega) before published).1
  have only : (joined earlier b).line = (joined earlier b).latest.toList := by
    unfold line waiting joined
    simp [Offer.carried]
  constructor
  · rw [only]
    cases (joined earlier b).latest with
    | none => exact List.Pairwise.nil
    | some last => exact List.pairwise_singleton _ _
  · rw [only]
    cases (joined earlier b).latest with
    | none => rfl
    | some last => rfl
  · rw [only]
    intro frame member
    exact latest frame (Option.mem_toList.mp member)
  · rintro next ⟨⟩
  · exact ⟨b, rfl, fresh⟩

theorem pictures_append {first second : List Paletted} :
    pictures (first ++ second) = pictures first ++ pictures second :=
  List.filterMap_append

theorem pictures_singleton : (pictures [frame]).getLast? = frame.picture.toOption := by
  unfold pictures
  cases accepted : frame.picture.toOption with
  | none => simp [accepted]
  | some picture => simp [accepted]

/-- The latest frame shows the picture accepted last. -/
theorem joined_picture {earlier : List Paletted} :
    (joined earlier b).latest.map FrameData.picture = (pictures earlier).getLast? := by
  unfold joined
  dsimp only
  induction earlier using List.reverseRecOn with
  | nil => rfl
  | append_singleton earlier frame ih =>
    rw [List.foldl_append, List.foldl_cons, List.foldl_nil, publish_picture, ih, pictures_append,
      List.getLast?_append, pictures_singleton]

theorem step_picture {action : Action} (stepped : s.step action = some t) :
    t.latest.map FrameData.picture =
      (pictures (pushed [action])).getLast?.or (s.latest.map FrameData.picture) := by
  unfold step at stepped
  cases action with
  | push frame =>
    dsimp only at stepped
    split at stepped
    · have published := @publish_picture s.latest frame
      have new : t.latest = (publish s.latest frame).or s.latest := by
        split at stepped
        next same => cases stepped; rw [same]; rfl
        next next new => cases stepped; rw [new]; rfl
      change _ = (pictures [frame]).getLast?.or _
      rw [new, published, pictures_singleton]
    · cases stepped
  | offer =>
    dsimp only at stepped
    split at stepped
    · cases stepped
    · split at stepped <;> cases stepped <;> rfl
    · cases stepped
      rfl
    · split at stepped <;> cases stepped <;> rfl
  | take =>
    dsimp only at stepped
    split at stepped
    · cases stepped
    · split at stepped <;> cases stepped <;> rfl
  | tick =>
    dsimp only at stepped
    split at stepped <;> cases stepped <;> rfl

theorem run_picture {actions : List Action} (ran : s.run actions = some t) :
    t.latest.map FrameData.picture =
      (pictures (pushed actions)).getLast?.or (s.latest.map FrameData.picture) := by
  induction actions generalizing s with
  | nil =>
    cases ran
    rfl
  | cons action actions ih =>
    rw [run_cons] at ran
    obtain ⟨middle, stepped, ran⟩ := Option.bind_eq_some_iff.mp ran
    rw [ih ran, step_picture stepped, @pushed_cons action actions, pictures_append, List.getLast?_append,
      Option.or_assoc]

/-- Nothing is left to put in the queue, to take from it or to write. -/
structure Settled (s : Session) : Prop where
  offer : s.offer = .idle
  queue : s.queue = none
  pending : s.pending = none

/-- The last of the client's frames is all that is left. -/
theorem Holds.settled (holds : s.Holds pushes) (settled : s.Settled) : s.last = s.latest := by
  have newest := holds.newest
  unfold line waiting at newest
  rw [settled.offer, settled.queue, settled.pending] at newest
  rw [← newest]
  cases s.last with
  | none => rfl
  | some last => rfl

/-- What is left to do, which no step but a push adds to. -/
def work (s : Session) : Nat :=
  s.offer.work + 2 * s.queue.toList.length + s.pending.toList.length

theorem write_work (pending : s.pending = some current) : (s.write current).work < s.work := by
  unfold work write
  rw [pending]
  exact Nat.lt_succ_self _

theorem take_work (queued : s.queue = some current) (stepped : s.step .take = some t) :
    t.work < s.work := by
  unfold step at stepped
  dsimp only at stepped
  rw [queued] at stepped
  have moved : work { s with queue := none, pending := some current } < s.work := by
    unfold work
    rw [queued]
    change s.offer.work + 0 + 1 < s.offer.work + 2 + _
    omega
  dsimp only at stepped
  split at stepped
  · cases stepped
    refine Nat.lt_trans (write_work ?_) moved
    rfl
  · cases stepped
    exact moved

theorem offer_work (busy : s.offer ≠ .idle) :
    ∃ t, s.step .offer = some t ∧ t.work < s.work := by
  unfold step work
  dsimp only
  cases offer : s.offer with
  | idle => exact absurd offer busy
  | fresh next =>
    dsimp only
    cases queued : s.queue with
    | none =>
      refine ⟨_, if_pos rfl, ?_⟩
      simp only [Offer.work, Option.toList_some, Option.toList_none, List.length_singleton,
        List.length_nil]
      omega
    | some frame =>
      refine ⟨_, if_neg (by rw [Option.isNone_some]; exact Bool.false_ne_true), ?_⟩
      simp only [Offer.work]
      omega
  | full next =>
    refine ⟨_, rfl, ?_⟩
    simp only [Offer.work, Option.toList_none, List.length_nil]
    omega
  | drained next =>
    dsimp only
    cases queued : s.queue with
    | none =>
      refine ⟨_, if_pos rfl, ?_⟩
      simp only [Offer.work, Option.toList_some, Option.toList_none, List.length_singleton,
        List.length_nil]
      omega
    | some frame =>
      refine ⟨_, if_neg (by rw [Option.isNone_some]; exact Bool.false_ne_true), ?_⟩
      simp only [Offer.work]
      omega

/-- Unless all is done, some step brings it nearer. -/
theorem progress (unsettled : ¬ s.Settled) :
    ∃ action t, pushed [action] = [] ∧ s.step action = some t ∧ t.work < s.work := by
  by_cases idle : s.offer = .idle
  · cases queued : s.queue with
    | none =>
      cases pending : s.pending with
      | none => exact absurd ⟨idle, queued, pending⟩ unsettled
      | some frame =>
        refine ⟨.tick, s.write frame, rfl, ?_, write_work pending⟩
        unfold step
        dsimp only
        rw [pending]
    | some frame =>
      have enabled : ∃ t, s.step .take = some t := by
        unfold step
        dsimp only
        rw [queued]
        dsimp only
        split
        · exact ⟨_, rfl⟩
        · exact ⟨_, rfl⟩
      obtain ⟨t, stepped⟩ := enabled
      exact ⟨.take, t, rfl, stepped, take_work queued stepped⟩
  · obtain ⟨t, stepped, less⟩ := offer_work idle
    exact ⟨.offer, t, rfl, stepped, less⟩

/-- Without pushes, the client gets to the end of its work. -/
theorem settles : ∃ rest t, pushed rest = [] ∧ s.run rest = some t ∧ t.Settled := by
  induction left : s.work using Nat.strong_induction_on generalizing s with
  | _ left_ ih =>
    by_cases settled : s.Settled
    · exact ⟨[], s, rfl, rfl, settled⟩
    · obtain ⟨action, middle, quiet, stepped, less⟩ := progress settled
      obtain ⟨rest, t, quiets, ran, settled⟩ := ih middle.work (left ▸ less) rfl
      refine ⟨action :: rest, t, ?_, ?_, settled⟩
      · rw [pushed_cons, quiet, quiets]
        rfl
      · rw [run_cons, stepped]
        exact ran

/-- **The browser catches up.**  After any schedule of pushes and of the client's writer, the
browser shows the frame written last.  Once the pushes stop, whatever the writer does until
nothing is left to write, that frame is the last that was pushed, and the writer gets there. -/
theorem converges {earlier : List Paletted} {actions : List Action} (fresh : b.Fresh)
    (few : (earlier ++ pushed actions).length ≤ maxSafeInteger)
    (ran : (joined earlier b).run actions = some s) :
    (∃ b', s.browser = .ok b' ∧ ∀ last, s.last = some last → b'.Shows last) ∧
      (∀ rest t, pushed rest = [] → s.run rest = some t → t.Settled →
        t.last.map FrameData.picture = (pictures (earlier ++ pushed actions)).getLast?) ∧
      ∃ rest t, pushed rest = [] ∧ s.run rest = some t ∧ t.Settled := by
  rw [List.length_append] at few
  have joined_ := @joined_holds b earlier fresh (by omega)
  have holds := joined_.run few ran
  refine ⟨?_, fun rest t quiet ran_ settled => ?_, settles⟩
  · obtain ⟨b', ok, ready⟩ := holds.shown
    refine ⟨b', ok, fun last was => ?_⟩
    rw [was] at ready
    exact ready
  · have later := holds.run (by rw [quiet]; exact few) ran_
    rw [later.settled settled, run_picture ran_, run_picture ran, joined_picture, quiet,
      pictures_append, List.getLast?_append]
    rfl

/-- A screen of one colour. -/
def screen (shade : Byte) : Paletted where
  pix := List.replicate (frameWidth * frameHeight) 0
  palette := [some { r := shade, g := shade, b := shade, a := 0xff }]

/-- What a screen of one colour shows. -/
def plain (shade : Byte) : Picture where
  pixels := (screen shade).pixels
  palette := (screen shade).colours
  alpha := (screen shade).alphas

theorem screen_picture (shade : Byte) : (screen shade).picture = .ok (plain shade) := by
  have complete : ¬((screen shade).stride < frameWidth ∨
      (screen shade).pix.length < (frameHeight - 1) * (screen shade).stride + frameWidth) := by
    unfold screen
    rw [List.length_replicate]
    dsimp only
    decide
  have indexed : ¬((screen shade).rect ≠ fullRect ∨ 256 < (screen shade).palette.length) := by
    rintro (other | many)
    · exact other rfl
    · exact absurd many (by change ¬ 256 < 1; decide)
  unfold Paletted.picture
  rw [if_neg indexed, if_neg complete]
  rfl

/-- The page before its first frame. -/
def blank : Browser where
  framebuffer := List.replicate (frameWidth * frameHeight) 0
  palette := List.replicate (256 * 3) 0
  paletteAlpha := List.replicate 256 255
  paletteEpoch := -1
  awaitingFullFrame := true

theorem blank_fresh : blank.Fresh :=
  ⟨List.length_replicate, rfl, rfl⟩

theorem publish_ok {picture : Picture} (copied : frame.picture = .ok picture) :
    publish latest frame = nextFrame picture latest := by
  unfold publish
  rw [copied]

theorem step_push (idle : s.offer = .idle) (published : publish s.latest frame = some next) :
    s.step (.push frame) = some { s with latest := some next, offer := .fresh next } := by
  unfold step
  dsimp only
  rw [idle]
  dsimp only
  rw [published]

theorem step_take (queued : s.queue = some current) (first : s.last = none) :
    s.step .take = some (write current { s with queue := none, pending := some current }) := by
  unfold step
  dsimp only
  rw [queued, first]
  exact if_pos rfl

/-- A dark screen with its first pixel lit, or not. -/
def spot (lit : Byte) : Paletted where
  pix := lit :: List.replicate (frameWidth * frameHeight - 1) 0
  palette := [some { a := 0xff }, some { r := 0xff, a := 0xff }, some { g := 0xff, a := 0xff }]

theorem spot_pixels (lit : Byte) : (spot lit).pixels = (spot lit).pix := by
  have whole : (spot lit).pix.length = frameHeight * frameWidth := by
    unfold spot
    rw [List.length_cons, List.length_replicate]
    rfl
  exact rows_join whole

/-- What such a screen shows, as the given push. -/
def spotFrame (seq : DoubleWord) (lit : Byte) : FrameData where
  seq := seq
  epoch := 1
  picture := {
    pixels := (spot lit).pix
    palette := (spot 0).colours
    alpha := (spot 0).alphas }

theorem spot_picture (lit : Byte) : (spot lit).picture = .ok (spotFrame 0 lit).picture := by
  have complete : ¬((spot lit).stride < frameWidth ∨
      (spot lit).pix.length < (frameHeight - 1) * (spot lit).stride + frameWidth) := by
    unfold spot
    rw [List.length_cons, List.length_replicate]
    dsimp only
    decide
  have indexed : ¬((spot lit).rect ≠ fullRect ∨ 256 < (spot lit).palette.length) := by
    rintro (other | many)
    · exact other rfl
    · exact absurd many (by change ¬ 256 < 3; decide)
  unfold Paletted.picture
  rw [if_neg indexed, if_neg complete, spot_pixels]
  rfl

theorem publish_spot (seq : DoubleWord) {lit other : Byte} (changed : lit ≠ other) :
    publish (some (spotFrame seq lit)) (spot other) = some (spotFrame (seq + 1) other) := by
  have pictures : (spotFrame seq lit).picture ≠ (spotFrame 0 other).picture := fun same =>
    changed (List.cons.inj (congrArg Picture.pixels same)).1
  have kept : ¬((spotFrame seq lit).picture.palette ≠ (spotFrame 0 other).picture.palette ∨
      (spotFrame seq lit).picture.alpha ≠ (spotFrame 0 other).picture.alpha) := by
    rintro (other | other)
    · exact other rfl
    · exact other rfl
  rw [publish_ok (spot_picture other)]
  unfold nextFrame
  dsimp only
  rw [if_neg pictures, if_neg kept]
  rfl

theorem spot_differs {seq later : DoubleWord} {lit other : Byte} {x y : Nat}
    (differs : Differs (spotFrame seq lit) (spotFrame later other) x y) : x = 0 ∧ y = 0 := by
  have first : y * frameWidth + x = 0 := by
    by_contra further
    obtain ⟨i, place⟩ := Nat.exists_eq_succ_of_ne_zero further
    have apart := differs.2.2
    rw [place] at apart
    exact apart rfl
  have row : y * frameWidth = 0 := by omega
  exact ⟨by omega, (Nat.mul_eq_zero.mp row).resolve_right (by decide)⟩

/-- Only the first pixel is sent. -/
theorem spot_dirty (seq later : DoubleWord) {lit other : Byte} (changed : lit ≠ other) :
    dirtyRect (some (spotFrame seq lit)) (spotFrame later other) = imageRect 0 0 1 1 := by
  have here : Differs (spotFrame seq lit) (spotFrame later other) 0 0 :=
    ⟨by decide, by decide, changed⟩
  have same : (spotFrame seq lit).epoch = (spotFrame later other).epoch := rfl
  have bounding := dirtyRect_bounding same here
  have nonempty := (dirtyRect_onScreen (some (spotFrame seq lit)) (spotFrame later other)).not_empty
  generalize dirtyRect (some (spotFrame seq lit)) (spotFrame later other) = rect at *
  obtain ⟨x, y, differs, left⟩ := bounding.left nonempty
  rw [(spot_differs differs).1] at left
  obtain ⟨x, y, differs, top⟩ := bounding.top nonempty
  rw [(spot_differs differs).2] at top
  obtain ⟨x, y, differs, right⟩ := bounding.right nonempty
  rw [(spot_differs differs).1] at right
  obtain ⟨x, y, differs, bottom⟩ := bounding.bottom nonempty
  rw [(spot_differs differs).2] at bottom
  cases rect
  cases left
  cases top
  cases right
  cases bottom
  rfl

/-- The second frame is still in the queue when the third is pushed. -/
def overtaking (first second third : Paletted) : List Action :=
  [.push first, .offer, .take, .push second, .offer, .push third, .offer, .offer, .offer, .take,
    .tick]

/-- The second frame is never written. -/
theorem run_overtaking {first second third : Paletted} {written dropped last : FrameData}
    (firstPush : publish none first = some written)
    (secondPush : publish (some written) second = some dropped)
    (thirdPush : publish (some dropped) third = some last) :
    (joined [] b).run (overtaking first second third) = some {
      latest := some last
      last := some last
      browser := (writeFrame none written).foldlM Browser.handleMessage b >>= fun b =>
        (writeFrame (some written) last).foldlM Browser.handleMessage b } := by
  unfold overtaking
  rw [run_cons, @step_push written first (joined [] b) rfl firstPush]
  change run { latest := some written, last := some written, browser := _ } _ = _
  rw [run_cons, step_push rfl secondPush]
  change run {
    latest := some dropped
    queue := some dropped
    last := some written
    browser := _ } _ = _
  rw [run_cons, step_push rfl thirdPush]
  rfl

/-- The browser has the third frame, of which only the pixel that changed was sent. -/
theorem converges_overtaken :
    dirtyRect (some (spotFrame 0 0)) (spotFrame 2 2) = imageRect 0 0 1 1 ∧
      ∃ s, (joined [] blank).run (overtaking (spot 0) (spot 1) (spot 2)) = some s ∧
        s.last = some (spotFrame 2 2) ∧
          ∃ b', s.browser = .ok b' ∧ ∀ last, s.last = some last → b'.Shows last := by
  have first : publish none (spot 0) = some (spotFrame 0 0) := by
    rw [publish_ok (spot_picture 0)]
    rfl
  have second : publish (some (spotFrame 0 0)) (spot 1) = some (spotFrame 1 1) :=
    publish_spot 0 (by decide)
  have third : publish (some (spotFrame 1 1)) (spot 2) = some (spotFrame 2 2) :=
    publish_spot 1 (by decide)
  have ran := @run_overtaking blank _ _ _ _ _ _ first second third
  exact ⟨spot_dirty 0 2 (by decide), _, ran, rfl, (converges blank_fresh (by decide) ran).1⟩

/-- Two screens in turn. -/
def flicker (n : Nat) : List Paletted :=
  (List.range n).map fun i => screen (BitVec.ofNat 8 (i % 2))

theorem plain_ne {first second : Byte} (other : first ≠ second) :
    (plain first).palette ≠ (plain second).palette := by
  intro same
  exact other (List.cons.inj same).1

/-- Every screen is a new palette. -/
theorem flicker_latest {n : Nat} (few : n ≤ maxSafeInteger) :
    ∃ last, (joined (flicker (n + 1)) blank).latest = some last ∧
      last.epoch.toNat = n + 1 ∧ last.picture = plain (BitVec.ofNat 8 (n % 2)) := by
  induction n with
  | zero =>
    refine ⟨{ seq := 0, epoch := 1, picture := plain 0 }, ?_, rfl, rfl⟩
    have once : flicker 1 = [screen 0] := rfl
    unfold joined
    rw [zero_add, once, List.foldl_cons, List.foldl_nil, publish_ok (screen_picture 0)]
    rfl
  | succ n ih =>
    obtain ⟨last, latest, epoch, shown⟩ := ih (by omega)
    have more : flicker (n + 1 + 1) =
        flicker (n + 1) ++ [screen (BitVec.ofNat 8 ((n + 1) % 2))] := by
      unfold flicker
      rw [List.range_succ, List.map_append, List.map_singleton]
    have other : BitVec.ofNat 8 (n % 2) ≠ BitVec.ofNat 8 ((n + 1) % 2) := by
      rcases Nat.mod_two_eq_zero_or_one n with even | odd
      · rw [even, show (n + 1) % 2 = 1 by omega]
        decide
      · rw [odd, show (n + 1) % 2 = 0 by omega]
        decide
    have palettes := plain_ne other
    rw [← shown] at palettes
    have changed : last.picture ≠ plain (BitVec.ofNat 8 ((n + 1) % 2)) := fun same =>
      palettes (congrArg Picture.palette same)
    refine ⟨{ seq := last.seq + 1, epoch := last.epoch + 1, picture := _ }, ?_, ?_, rfl⟩
    · unfold joined at latest ⊢
      dsimp only at latest ⊢
      rw [more, List.foldl_append, latest, List.foldl_cons, List.foldl_nil,
        publish_ok (screen_picture _)]
      unfold nextFrame
      dsimp only
      rw [if_neg changed, if_pos (.inl palettes)]
      rfl
    · change (last.epoch + 1).toNat = _
      rw [toNat_succ (by omega), epoch]

theorem integer_inexact {value : Nat} {name : String} {max : Nat}
    (large : maxSafeInteger < value) : integer value name max = .error s!"invalid {name}" :=
  if_pos (.inl large)

/-- An epoch that is no integer of the browser's. -/
theorem take_refused {earlier : List Paletted} {last : FrameData}
    (latest : (joined earlier blank).latest = some last)
    (large : maxSafeInteger < last.epoch.toNat) :
    ∃ s, (joined earlier blank).run [.take] = some s ∧
      s.browser = .error "invalid palette epoch" := by
  have queued : (joined earlier blank).queue = some last := latest
  have refused : (writeFrame none last).foldlM Browser.handleMessage blank =
      .error "invalid palette epoch" := by
    have nonempty := (dirtyRect_onScreen none last).not_empty
    unfold writeFrame
    dsimp only
    rw [nonempty, if_neg Bool.false_ne_true]
    change (Browser.handleMessage blank (.palette (paletteMessage last)) >>= _) = _
    unfold Browser.handleMessage decodeServerMessage
    dsimp only [paletteMessage]
    rw [integer_inexact large]
    rfl
  refine ⟨write last { joined earlier blank with queue := none, pending := some last }, ?_, refused⟩
  rw [run_cons, step_take queued rfl]
  rfl

/-- After 9007199254740992 new palettes the browser gives up. -/
theorem converges_not_forever :
    blank.Fresh ∧ ∃ s, (joined (flicker (maxSafeInteger + 1)) blank).run [.take] = some s ∧
      s.browser = .error "invalid palette epoch" := by
  obtain ⟨last, latest, epoch, shown⟩ := flicker_latest (Nat.le_refl maxSafeInteger)
  refine ⟨blank_fresh, take_refused latest ?_⟩
  rw [epoch]
  exact Nat.lt_succ_self _

end Session

end Web

end GoRetroTv
