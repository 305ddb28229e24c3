import GoRetroTv.GuardedRuns
import GoRetroTv.ScheduleContents
import GoRetroTv.ScheduleValidation

/-!
# An edited schedule reaches the air

`LoadGuide` reads the files twice, once for the guide and once for the stamp.  A guide
whose two readings were of the same bytes is reloaded whenever the files come to say
something else; a schedule that is only there for the second is passed over by every
later `Reload`.
-/

namespace GoRetroTv

namespace Multiplex

open Looking

variable {Schedule Stamp : Type} {moments rest : Stream' Files}

namespace Loader

variable {loader : Loader Schedule Stamp} {path : List Byte}
  {files : List (List Byte × List Byte)}

theorem text_directory (valid : loader.Valid (.directory files)) :
    (Content.directory files).text path = stampText files := by
  have named : files.map (fun file => (Filepath.base (Filepath.join path file.1), file.2)) =
      files := by
    conv => rhs; rw [← List.map_id files]
    refine List.map_congr_left fun file member => ?_
    rw [Filepath.base_join (valid.1 file member).1.plain]
    rfl
  exact congrArg stampText named

/-- A directory with the stamp of a file holds that file as its default. -/
theorem files_of_line {blob : List Byte} (unambiguous : Unambiguous path)
    (valid : loader.Valid (.directory files))
    (same : stampLine (Filepath.base path) blob = stampText files) :
    files = [(defaultScheduleName, blob)] := by
  cases files with
  | nil => nomatch valid.2
  | cons file files =>
    have named := (valid.1 file List.mem_cons_self).1
    have noColon : 0x3a ∉ Filepath.base path := by
      intro member
      obtain ⟨before, after, base, fresh⟩ := List.eq_append_cons_of_mem member
      have lines : before ++ 0x3a :: (after ++ 0x3a :: (decimal blob.length ++ 0x3a :: blob)) =
          file.1 ++ 0x3a :: (decimal file.2.length ++ 0x3a :: (file.2 ++ stampText files)) := by
        simpa [stampLine, stampText, base] using same
      obtain ⟨rfl, -⟩ := first_colon fresh named.noColon lines
      exact unambiguous _ _ base named
    obtain ⟨base, rfl, empty⟩ := @stampLine_inj _ _ blob file.2 [] (stampText files) noColon
      named.noColon (by simpa [stampText] using same)
    have single : files = [] := by
      cases files with
      | nil => rfl
      | cons other others => simp [stampText, stampLine] at empty
    subst single
    have isDefault : defaultScheduleName = file.1 := by simpa using valid.2
    rw [isDefault]

/-- Valid contents with one stamp are one schedule. -/
theorem scheduleOn_of_text {first second : Content} (unambiguous : Unambiguous path)
    (validFirst : loader.Valid first) (validSecond : loader.Valid second)
    (same : first.text path = second.text path) (day : Time) :
    loader.scheduleOn day first = loader.scheduleOn day second := by
  have alone : ∀ blob, loader.scheduleOn day (.directory [(defaultScheduleName, blob)]) =
      loader.scheduleOn day (.file blob) := by
    intro blob
    unfold scheduleOn
    dsimp only
    rw [lookup_cons_eq_ite, if_neg (dateText_ne_default day), List.lookup_cons_self]
    rfl
  cases first with
  | file blob =>
    cases second with
    | file other =>
      have tails := List.tail_eq_of_cons_eq (List.append_cancel_left same)
      rw [(first_colon (colon_notMem_decimal _) (colon_notMem_decimal _) tails).2]
    | directory files =>
      rw [text_directory validSecond] at same
      rw [files_of_line unambiguous validSecond same, alone]
  | directory files =>
    cases second with
    | file blob =>
      rw [text_directory validFirst] at same
      rw [files_of_line unambiguous validFirst same.symm, alone]
    | directory others =>
      rw [text_directory validFirst, text_directory validSecond] at same
      rw [stampText_inj (fun file member => (validFirst.1 file member).1.noColon)
        (fun file member => (validSecond.1 file member).1.noColon) same]

/-- What a guide serves has the stamp it keeps. -/
def Faithful (loader : Loader Schedule Stamp) (path : List Byte)
    (g : LoadedGuide Schedule Stamp) : Prop :=
  g.source = path ∧ ∃ content : Content, content.Listed ∧ loader.guideOf content = some g.toGuide ∧
    g.stamp = loader.hash (content.text path)

/-- A `LoadGuide` in these moments finds in the files, when it reads them for the stamp,
what it found in them when it read them for the guide. -/
def ReadsAlike (loader : Loader Schedule Stamp) (path : List Byte) (moments : Stream' Files) :
    Prop :=
  ∀ content later again rest, Yields (contents path) moments content later →
    loader.Valid content → Yields (contents path) later again rest → again = content

/-- So does the `LoadGuide` of a `Reload` that finds another stamp. -/
def ReloadsAlike (loader : Loader Schedule Stamp) (g : LoadedGuide Schedule Stamp)
    (moments : Stream' Files) : Prop :=
  ∀ stamp later, Yields (loader.stampOf g.source) moments stamp later → stamp ≠ g.stamp →
    loader.ReadsAlike g.source later

/-- Files that stay as they are while a `LoadGuide` reads them are read alike. -/
theorem readsAlike_const (files : Files) : loader.ReadsAlike path (Stream'.const files) := by
  intro content later again rest found valid reread
  obtain ⟨-, rfl⟩ := yields_const.mp found
  exact (found.unique reread).1

theorem reloadsAlike_const (g : LoadedGuide Schedule Stamp) (files : Files) :
    loader.ReloadsAlike g (Stream'.const files) := by
  intro stamp later stamped differs
  obtain ⟨-, rfl⟩ := yields_const.mp stamped
  exact readsAlike_const files

theorem loadGuide_faithful {g : LoadedGuide Schedule Stamp}
    (alike : loader.ReadsAlike path moments) (loaded : Yields (loader.loadGuide path) moments g rest) :
    Faithful loader path g := by
  obtain ⟨content, later, again, found, reread, guided, source, stamp⟩ :=
    yields_loadGuide.mp loaded
  have listed := contents_listed found
  have valid := (guideOf_isSome listed).mp (Option.isSome_of_eq_some guided)
  rw [alike content later again rest found valid reread] at stamp
  exact ⟨source, content, listed, guided, stamp⟩

section Reload

variable [DecidableEq Stamp]

/-- The guide as a `Reload` in these moments leaves it. -/
def afterReload (loader : Loader Schedule Stamp) (g : LoadedGuide Schedule Stamp)
    (moments : Stream' Files) : LoadedGuide Schedule Stamp :=
  ((loader.reload g).during moments).1.2

/-- What a `Reload` can do. -/
theorem reload_cases (g : LoadedGuide Schedule Stamp) (moments : Stream' Files) :
    (∃ problem later, (loader.reload g).during moments = ((.error problem, g), later)) ∨
      (∃ later, (loader.reload g).during moments = ((.ok false, g), later) ∧
        Yields (loader.stampOf g.source) moments g.stamp later) ∨
      ∃ stamp later fresh rest, (loader.reload g).during moments =
          ((.ok true, { fresh with source := g.source }), rest) ∧
        Yields (loader.stampOf g.source) moments stamp later ∧ stamp ≠ g.stamp ∧
        Yields (loader.loadGuide g.source) later fresh rest := by
  unfold reload Yields
  rw [during_bind]
  rcases (loader.stampOf g.source).run.during moments with ⟨problem | stamp, later⟩
  · exact .inl ⟨problem, later, rfl⟩
  · dsimp only
    by_cases same : stamp = g.stamp
    · rw [if_pos same]
      exact .inr (.inl ⟨later, rfl, by rw [same]⟩)
    · rw [if_neg same, during_bind]
      rcases loaded : (loader.loadGuide g.source).run.during later with ⟨problem | fresh, rest⟩
      · exact .inl ⟨problem, rest, rfl⟩
      · exact .inr (.inr ⟨stamp, later, fresh, rest, rfl, rfl, same, loaded⟩)

/-- A `Reload` that fails leaves the guide as it was. -/
theorem reload_error {g left : LoadedGuide Schedule Stamp} {problem : String}
    (failed : (loader.reload g).during moments = ((.error problem, left), rest)) :
    left = g := by
  rcases @reload_cases _ _ loader _ g moments with ⟨_, _, run⟩ | ⟨_, run, -⟩ | ⟨_, _, _, _, run, -⟩
  · cases failed.symm.trans run
    rfl
  · nomatch failed.symm.trans run
  · nomatch failed.symm.trans run

/-- A `Reload` whose `LoadGuide` reads alike keeps the guide faithful. -/
theorem afterReload_faithful {g : LoadedGuide Schedule Stamp}
    (faithful : Faithful loader path g) (alike : loader.ReloadsAlike g moments) :
    Faithful loader path (loader.afterReload g moments) := by
  unfold afterReload
  rcases @reload_cases _ _ loader _ g moments with ⟨_, _, run⟩ | ⟨_, run, -⟩ |
    ⟨stamp, later, fresh, rest, run, stamped, differs, loaded⟩
  · rw [run]
    exact faithful
  · rw [run]
    exact faithful
  · rw [run]
    obtain ⟨rfl, -⟩ := faithful
    obtain ⟨-, served⟩ := loadGuide_faithful (alike stamp later stamped differs) loaded
    exact ⟨rfl, served⟩

/-- Files that have stopped changing, and hold a valid schedule, are served by a faithful
guide after its next `Reload`. -/
theorem reload_serves {g : LoadedGuide Schedule Stamp} {files : Files} {content : Content}
    (injective : Function.Injective loader.hash) (unambiguous : Unambiguous path)
    (faithful : Faithful loader path g) (holds : (contents path).run.still files = .ok content)
    (valid : loader.Valid content) :
    ∃ changed left, (loader.reload g).still files = (.ok changed, left) ∧
      ∀ day, left.on day = loader.scheduleOn day content := by
  obtain ⟨rfl, served, listed, guided, stamp⟩ := faithful
  have found : Yields (contents g.source) (Stream'.const files) content (Stream'.const files) :=
    yields_const.mpr ⟨holds, rfl⟩
  have stamped := yields_const.mp (yields_stampOf.mpr ⟨content, found, rfl⟩ :
    Yields (loader.stampOf g.source) (Stream'.const files) _ _)
  have holdsListed := contents_listed found
  obtain ⟨guide, guidedNow⟩ := Option.isSome_iff_exists.mp ((guideOf_isSome holdsListed).mpr valid)
  have loads : Yields (loader.loadGuide g.source) (Stream'.const files)
      ⟨guide, g.source, loader.hash (content.text g.source)⟩ (Stream'.const files) :=
    yields_loadGuide.mpr ⟨content, _, content, found, found, guidedNow, rfl, rfl⟩
  unfold reload
  rw [still_bind, stamped.1]
  dsimp only
  by_cases same : loader.hash (content.text g.source) = g.stamp
  · rw [if_pos same]
    refine ⟨false, g, rfl, fun day => ?_⟩
    have texts : served.text g.source = content.text g.source :=
      injective (stamp.symm.trans same.symm)
    have servedValid := (guideOf_isSome listed).mp (Option.isSome_of_eq_some guided)
    rw [guideOf_on listed guided, scheduleOn_of_text unambiguous servedValid valid texts]
  · rw [if_neg same, still_bind, (yields_const.mp loads).1]
    exact ⟨true, _, rfl, guideOf_on holdsListed guidedNow⟩

/-- A guide that was loaded while the files changed is not reloaded from what its stamp
was taken of. -/
theorem reload_passed_over {g : LoadedGuide Schedule Stamp} {first later : Stream' Files}
    {content again : Content} {files : Files}
    (found : Yields (contents path) first content later)
    (reread : Yields (contents path) later again rest)
    (loaded : Yields (loader.loadGuide path) first g rest)
    (holds : (contents path).run.still files = .ok again) :
    (loader.reload g).still files = (.ok false, g) ∧
      ∀ day, g.on day = loader.scheduleOn day content := by
  obtain ⟨content', later', again', found', reread', guided, rfl, stamp⟩ :=
    yields_loadGuide.mp loaded
  obtain ⟨rfl, rfl⟩ := found.unique found'
  obtain ⟨rfl, -⟩ := reread.unique reread'
  have stamped := yields_const.mp (yields_stampOf.mpr ⟨_, yields_const.mpr ⟨holds, rfl⟩, stamp⟩ :
    Yields (loader.stampOf g.source) (Stream'.const files) g.stamp (Stream'.const files))
  constructor
  · unfold reload
    rw [still_bind, stamped.1]
    dsimp only
    rw [if_pos rfl]
    rfl
  · exact guideOf_on (contents_listed found) guided

/-- The schedule is reloaded: a `Reload` that fails leaves the guide as it was; and when
each `LoadGuide` of a run reads for the stamp what it read for the guide, the next
`Reload` after the files have stopped changing, with a valid schedule in them, leaves the
guide serving that.  Of a `LoadGuide` that read something else for the stamp, what it then
read is passed over. -/
theorem reload_follows (loader : Loader Schedule Stamp) (path : List Byte)
    (injective : Function.Injective loader.hash) (unambiguous : Unambiguous path) :
    (∀ g moments problem left rest,
      (loader.reload g).during moments = ((.error problem, left), rest) → left = g) ∧
    (∀ first g rest, Yields (loader.loadGuide path) first g rest → loader.ReadsAlike path first →
      ∀ calls, Runs.Along loader.afterReload loader.ReloadsAlike g calls →
        ∀ files content, (contents path).run.still files = .ok content → loader.Valid content →
          ∃ changed left,
            (loader.reload (calls.foldl loader.afterReload g)).still files = (.ok changed, left) ∧
              ∀ day, left.on day = loader.scheduleOn day content) ∧
    ∀ first g rest content later again, Yields (loader.loadGuide path) first g rest →
      Yields (contents path) first content later → Yields (contents path) later again rest →
        ∀ files, (contents path).run.still files = .ok again →
          (loader.reload g).still files = (.ok false, g) ∧
            ∀ day, g.on day = loader.scheduleOn day content := by
  refine ⟨?_, ?_, ?_⟩
  · intro g moments problem left rest failed
    exact reload_error failed
  · intro first g rest loaded alike calls along files content holds valid
    have faithful : Faithful loader path (calls.foldl loader.afterReload g) :=
      along.invariant (loadGuide_faithful alike loaded) fun g moments faithful alike =>
        afterReload_faithful faithful alike
    exact reload_serves injective unambiguous faithful holds valid
  · intro first g rest content later again loaded found reread files holds
    exact reload_passed_over found reread loaded holds

end Reload

end Loader

def listingsPath : List Byte := ascii "listings.json"

/-- A schedule of one programme. -/
def oneProgramme (title : String) : List Byte :=
  ascii ("\x7b\"bouquet\":\"Sky\",\"services\":[\x7b\"name\":\"Sky One\",\"channel\":101," ++
    "\"serviceId\":100,\"listingsId\":101,\"programmes\":[\x7b\"start\":\"06:00\"," ++
    "\"minutes\":60,\"title\":\"") ++ (ascii title ++ ascii "\"\x7d]\x7d]\x7d")

def oneService (title : String) : ListedService where
  name := ascii "Sky One"
  channel := 101
  serviceID := 100
  listingsID := 101
  programmes := [{ start := ascii "06:00", minutes := 60, title := ascii title }]

def oneListed (title : String) : Listings where
  bouquet := ascii "Sky"
  services := [oneService title]

/-- One programme is in order. -/
theorem oneListed_valid {title : String}
    (checked : validateService {} (oneService title) = .ok ({
        services := [(100, ascii "Sky One")]
        listings := [(101, ascii "Sky One")] },
      { oneService title with programmes := sortProgrammes (oneService title).programmes })) :
    (oneListed title).validate = .ok (oneListed title) := by
  have sorted : sortProgrammes (oneService title).programmes = (oneService title).programmes :=
    List.mergeSort_singleton _
  rw [sorted] at checked
  unfold Listings.validate oneListed
  dsimp only
  unfold validateServices
  rw [checked]
  rfl

/-- A loader as far as two schedules go. -/
def twoSchedules : Loader Listings (List Byte) where
  decode blob :=
    if blob = oneProgramme "Tea" then .ok (oneListed "Tea")
    else if blob = oneProgramme "Pub" then .ok (oneListed "Pub")
    else .error "unexpected EOF"
  validate := Listings.validate
  hash := id

/-- The schedule file, and nothing else. -/
def oneFile (blob : List Byte) : Files where
  isDir path := if path = listingsPath then .ok false else .error "no such file or directory"
  entries _ := .error "not a directory"
  contents path := if path = listingsPath then .ok blob else .error "no such file or directory"
  distinct := fun listing => nomatch listing

theorem contents_oneFile {blob : List Byte} {moments : Stream' Files}
    (stated : moments.head = oneFile blob) (read : moments.tail.head = oneFile blob) :
    Yields (contents listingsPath) moments (.file blob) moments.tail.tail := by
  refine Loader.yields_contents.mpr (.inl ⟨moments.tail, blob, ?_, ?_, rfl⟩)
  · refine yields_attempt.mpr ⟨?_, rfl⟩
    rw [stated]
    simp [oneFile]
  · refine yields_attempt.mpr ⟨?_, rfl⟩
    rw [read]
    simp [oneFile]

theorem contents_still (blob : List Byte) :
    (contents listingsPath).run.still (oneFile blob) = .ok (.file blob) :=
  (yields_const.mp (contents_oneFile rfl rfl)).1

theorem unambiguous_listingsPath : Unambiguous listingsPath := by
  intro name rest base
  have noColon : 0x3a ∉ Filepath.base listingsPath := by decide
  exact absurd (by rw [base]; simp) noColon

theorem parsed_tea : twoSchedules.parsed (oneProgramme "Tea") = some (oneListed "Tea") := by
  have valid := @oneListed_valid "Tea" rfl
  unfold Loader.parsed twoSchedules
  dsimp only
  rw [if_pos rfl]
  change (oneListed "Tea").validate.toOption = _
  rw [valid]
  rfl

theorem parsed_pub : twoSchedules.parsed (oneProgramme "Pub") = some (oneListed "Pub") := by
  have other : oneProgramme "Pub" ≠ oneProgramme "Tea" := by
    intro same
    have titles := List.append_cancel_right (List.append_cancel_left same)
    revert titles
    decide
  have valid := @oneListed_valid "Pub" rfl
  unfold Loader.parsed twoSchedules
  dsimp only
  rw [if_neg other, if_pos rfl]
  change (oneListed "Pub").validate.toOption = _
  rw [valid]
  rfl

/-- The guide loaded from one schedule, with the stamp of another. -/
def loadedTea (stamped : String) : LoadedGuide Listings (List Byte) where
  fallback := some (oneListed "Tea")
  source := listingsPath
  stamp := (Content.file (oneProgramme stamped)).text listingsPath

theorem loads_tea {first later rest : Stream' Files} {stamped : String}
    (found : Yields (contents listingsPath) first (.file (oneProgramme "Tea")) later)
    (reread : Yields (contents listingsPath) later (.file (oneProgramme stamped)) rest) :
    Yields (twoSchedules.loadGuide listingsPath) first (loadedTea stamped) rest := by
  refine Loader.yields_loadGuide.mpr ⟨_, later, _, found, reread, ?_, rfl, rfl⟩
  rw [Loader.guideOf, parsed_tea]
  rfl

/-- The file is written after it was read for the guide, and before it is for the stamp. -/
def writtenBetween : Stream' Files :=
  Stream'.cons (oneFile (oneProgramme "Tea"))
    (Stream'.cons (oneFile (oneProgramme "Tea")) (Stream'.const (oneFile (oneProgramme "Pub"))))

/-- The valid schedule then in the file is never served. -/
theorem writtenBetween_passed_over :
    Function.Injective twoSchedules.hash ∧ Unambiguous listingsPath ∧
      ∃ g rest, Yields (twoSchedules.loadGuide listingsPath) writtenBetween g rest ∧
        (contents listingsPath).run.still (oneFile (oneProgramme "Pub")) =
          .ok (.file (oneProgramme "Pub")) ∧
        twoSchedules.Valid (.file (oneProgramme "Pub")) ∧
        (twoSchedules.reload g).still (oneFile (oneProgramme "Pub")) = (.ok false, g) ∧
        ∀ day, g.on day ≠ twoSchedules.scheduleOn day (.file (oneProgramme "Pub")) := by
  have found : Yields (contents listingsPath) writtenBetween (.file (oneProgramme "Tea"))
      (Stream'.const (oneFile (oneProgramme "Pub"))) :=
    contents_oneFile rfl rfl
  have reread : Yields (contents listingsPath) (Stream'.const (oneFile (oneProgramme "Pub")))
      (.file (oneProgramme "Pub")) (Stream'.const (oneFile (oneProgramme "Pub"))) :=
    contents_oneFile rfl rfl
  have loaded := loads_tea found reread
  obtain ⟨kept, serves⟩ := Loader.reload_passed_over found reread loaded (contents_still _)
  refine ⟨Function.injective_id, unambiguous_listingsPath, _, _, loaded, contents_still _,
    Option.isSome_of_eq_some parsed_pub, kept, fun day same => ?_⟩
  have listed : some (oneListed "Tea") = some (oneListed "Pub") := by
    rw [← parsed_tea, ← parsed_pub]
    exact (serves day).symm.trans same
  have titles : ascii "Tea" = ascii "Pub" := by
    simpa [oneListed, oneService] using listed
  revert titles
  decide

/-- A file that is rewritten later is served. -/
theorem writtenLater_served :
    ∃ changed left, (twoSchedules.reload (twoSchedules.afterReload (loadedTea "Tea")
        (Stream'.const (oneFile (oneProgramme "Tea"))))).still (oneFile (oneProgramme "Pub")) =
          (.ok changed, left) ∧
      ∀ day, left.on day = twoSchedules.scheduleOn day (.file (oneProgramme "Pub")) := by
  have found : Yields (contents listingsPath) (Stream'.const (oneFile (oneProgramme "Tea")))
      (.file (oneProgramme "Tea")) (Stream'.const (oneFile (oneProgramme "Tea"))) :=
    contents_oneFile rfl rfl
  have alike := @Loader.reloadsAlike_const _ _ twoSchedules (loadedTea "Tea")
    (oneFile (oneProgramme "Tea"))
  have served := (Loader.reload_follows twoSchedules listingsPath Function.injective_id
    unambiguous_listingsPath).2.1 _ _ _ (loads_tea found found) (Loader.readsAlike_const _)
    [_] ⟨alike, trivial⟩ _ _ (contents_still _) (Option.isSome_of_eq_some parsed_pub)
  rw [List.foldl_cons, List.foldl_nil] at served
  exact served

end Multiplex

end GoRetroTv
