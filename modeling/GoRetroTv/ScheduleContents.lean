import GoRetroTv.ScheduleLoading

/-!
# What a schedule path holds

A schedule path holds one file or the schedules of a directory.  It is a valid schedule
when each of its files is one and bears a date's name or the default's; the schedule of a
day is then the file of its date, or the default.  `LoadGuide` makes the guide that serves
what it finds, and stamps it with the hash of what it finds in a second reading.
-/

namespace GoRetroTv

namespace Time

theorem byte_of_parsesAsDate {date : List Byte} (parses : parsesAsDate date = true) :
    ∀ byte ∈ date, isDigit byte = true ∨ byte = 0x2d := by
  unfold parsesAsDate at parses
  split at parses
  · simp only [List.all_cons, List.all_nil, Bool.and_eq_true, beq_iff_eq] at parses
    simp only [List.mem_cons, List.not_mem_nil, or_false]
    rintro byte (rfl | rfl | rfl | rfl | rfl | rfl | rfl | rfl | rfl | rfl) <;> tauto
  · cases parses

theorem length_of_parsesAsDate {date : List Byte} (parses : parsesAsDate date = true) :
    date.length = 10 := by
  unfold parsesAsDate at parses
  split at parses
  · rfl
  · cases parses

end Time

namespace Multiplex

open Looking

/-- The name of a file of a schedule directory: `default.json`, or a date's. -/
def ScheduleName (name : List Byte) : Prop :=
  name = defaultScheduleName ∨ ∃ date, Time.parsesAsDate date = true ∧ name = date ++ jsonSuffix

theorem ScheduleName.plain {name : List Byte} (named : ScheduleName name) :
    Filepath.Plain name := by
  rcases named with rfl | ⟨date, parses, rfl⟩
  · constructor <;> decide
  · have length : (date ++ jsonSuffix).length = 15 := by
      rw [List.length_append, Time.length_of_parsesAsDate parses]
      rfl
    constructor
    · intro member
      rcases List.mem_append.mp member with inDate | inSuffix
      · have := Time.byte_of_parsesAsDate parses _ inDate
        revert this
        decide
      · revert inSuffix
        decide
    · intro empty
      rw [empty] at length
      nomatch length
    · intro here
      rw [here] at length
      nomatch length
    · intro parent
      rw [parent] at length
      nomatch length

theorem ScheduleName.noColon {name : List Byte} (named : ScheduleName name) : 0x3a ∉ name := by
  rcases named with rfl | ⟨date, parses, rfl⟩
  · decide
  · intro member
    rcases List.mem_append.mp member with inDate | inSuffix
    · have := Time.byte_of_parsesAsDate parses _ inDate
      revert this
      decide
    · revert inSuffix
      decide

/-- A path whose own name does not begin as the text of a schedule directory does. -/
def Unambiguous (path : List Byte) : Prop :=
  ∀ name rest, Filepath.base path = name ++ 0x3a :: rest → ¬ScheduleName name

theorem trimJson_append (date : List Byte) : trimJson (date ++ jsonSuffix) = date := by
  unfold trimJson
  rw [if_pos (by simp), List.length_append, Nat.add_sub_cancel, List.take_left]

theorem colon_notMem_decimal (n : Nat) : 0x3a ∉ decimal n := by
  intro member
  have bounds := decimal_bytes member
  revert bounds
  decide

theorem first_colon {before other after otherAfter : List Byte} (noColon : 0x3a ∉ before)
    (otherNoColon : 0x3a ∉ other) (same : before ++ 0x3a :: after = other ++ 0x3a :: otherAfter) :
    before = other ∧ after = otherAfter := by
  have parts := congrArg (List.splitOn 0x3a) same
  rw [List.splitOn_append_cons_self_of_not_mem noColon,
    List.splitOn_append_cons_self_of_not_mem otherNoColon] at parts
  obtain rfl := List.head_eq_of_cons_eq parts
  exact ⟨rfl, List.tail_eq_of_cons_eq (List.append_cancel_left same)⟩

/-- Names without a colon do not run into what follows them. -/
theorem stampLine_inj {name other blob otherBlob rest otherRest : List Byte}
    (noColon : 0x3a ∉ name) (otherNoColon : 0x3a ∉ other)
    (same : stampLine name blob ++ rest = stampLine other otherBlob ++ otherRest) :
    name = other ∧ blob = otherBlob ∧ rest = otherRest := by
  unfold stampLine at same
  simp only [List.append_assoc, List.cons_append] at same
  obtain ⟨names, tails⟩ := first_colon noColon otherNoColon same
  obtain ⟨lengths, blobs⟩ :=
    first_colon (colon_notMem_decimal _) (colon_notMem_decimal _) tails
  obtain ⟨blobs, rests⟩ := List.append_inj blobs (decimal_injective lengths)
  exact ⟨names, blobs, rests⟩

/-- The text that the hash of several files is of. -/
def stampText (files : List (List Byte × List Byte)) : List Byte :=
  files.flatMap fun file => stampLine file.1 file.2

theorem stampText_inj {files others : List (List Byte × List Byte)}
    (noColon : ∀ file ∈ files, 0x3a ∉ file.1) (otherNoColon : ∀ file ∈ others, 0x3a ∉ file.1)
    (same : stampText files = stampText others) :
    files = others := by
  induction files generalizing others with
  | nil =>
    cases others with
    | nil => rfl
    | cons other others => simp [stampText, stampLine] at same
  | cons file files ih =>
    cases others with
    | nil => simp [stampText, stampLine] at same
    | cons other others =>
      obtain ⟨names, blobs, rests⟩ := stampLine_inj (noColon file List.mem_cons_self)
        (otherNoColon other List.mem_cons_self) (by simpa [stampText] using same)
      rw [Prod.ext names blobs, ih (fun file member => noColon file (List.mem_cons_of_mem _ member))
        (fun file member => otherNoColon file (List.mem_cons_of_mem _ member)) rests]

/-- What a schedule path holds: one file, or the schedule files of a directory, by name. -/
inductive Content where
  | file (blob : List Byte)
  | directory (files : List (List Byte × List Byte))

/-- The files of a directory, as they are read one after another. -/
def readFiles (dir : List Byte) : List (List Byte) → Reading (List (List Byte × List Byte))
  | [] => return []
  | name :: names => do
      let blob ← readFile (Filepath.join dir name)
      let files ← readFiles dir names
      return (name, blob) :: files

/-- A reading of what the path holds. -/
def contents (path : List Byte) : Reading Content := do
  let isDir ← within "multiplex: schedule: " (stat path)
  if !isDir then
    let blob ← readFile path
    return .file blob
  let entries ← readDir path
  let files ← readFiles path (scheduleNames entries)
  return .directory files

/-- The text that the hash of a content is of. -/
def Content.text (path : List Byte) : Content → List Byte
  | .file blob => stampLine (Filepath.base path) blob
  | .directory files =>
      stampText (files.map fun file => (Filepath.base (Filepath.join path file.1), file.2))

/-- The files of a directory are its `.json` ones, once each. -/
def Content.Listed : Content → Prop
  | .file _ => True
  | .directory files =>
      (files.map Prod.fst).Nodup ∧ ∀ file ∈ files, ∃ date, file.1 = date ++ jsonSuffix

variable {Schedule Stamp : Type}

namespace Loader

variable (loader : Loader Schedule Stamp)

/-- The schedule that a file is. -/
def parsed (blob : List Byte) : Option Schedule :=
  ((loader.decode blob).bind loader.validate).toOption

/-- A content that is a valid schedule. -/
def Valid : Content → Prop
  | .file blob => (loader.parsed blob).isSome
  | .directory files =>
      (∀ file ∈ files, ScheduleName file.1 ∧ (loader.parsed file.2).isSome) ∧
        defaultScheduleName ∈ files.map Prod.fst

/-- The schedule that a content has for a day: a day with a file of its own has that, and
every other day the default. -/
def scheduleOn (day : Time) : Content → Option Schedule
  | .file blob => loader.parsed blob
  | .directory files =>
      ((files.lookup (day.dateText ++ jsonSuffix)).orElse fun _ =>
        files.lookup defaultScheduleName).bind loader.parsed

/-- The files of a directory, into a guide. -/
def placeFiles : List (List Byte × List Byte) → Guide Schedule → Option (Guide Schedule)
  | [], guide => some guide
  | file :: files, guide => do
      let listings ← loader.parsed file.2
      if file.1 = defaultScheduleName then
        placeFiles files { guide with fallback := some listings }
      else if Time.parsesAsDate (trimJson file.1) then
        placeFiles files { guide with byDate := (trimJson file.1, listings) :: guide.byDate }
      else none

/-- The guide that serves a content. -/
def guideOf : Content → Option (Guide Schedule)
  | .file blob => (loader.parsed blob).map fun listings => { fallback := some listings }
  | .directory files => (loader.placeFiles files {}).filter fun guide => guide.fallback.isSome

end Loader

variable {moments rest : Stream' Files}

@[simp]
theorem yields_within {α : Type} {context : String} {reading : Reading α} {found : α} :
    Yields (within context reading) moments found rest ↔ Yields reading moments found rest :=
  yields_adapt

theorem yields_addFiles {dir : List Byte} {names : List (List Byte)} {sum found : List Byte} :
    Yields (addFiles dir names sum) moments found rest ↔
      ∃ files, Yields (readFiles dir names) moments files rest ∧
        found = sum ++ (Content.directory files).text dir := by
  induction names generalizing sum moments with
  | nil =>
    unfold addFiles readFiles
    constructor
    · intro yields
      obtain ⟨rfl, rfl⟩ := yields_pure.mp yields
      exact ⟨[], yields_pure.mpr ⟨rfl, rfl⟩, (List.append_nil _).symm⟩
    · rintro ⟨files, yields, rfl⟩
      obtain ⟨rfl, rfl⟩ := yields_pure.mp yields
      exact yields_pure.mpr ⟨List.append_nil _, rfl⟩
  | cons name names ih =>
    unfold addFiles addFile readFiles
    simp only [yields_bind, yields_pure, ih]
    constructor
    · rintro ⟨_, later, ⟨blob, _, read, rfl, rfl⟩, files, others, rfl⟩
      refine ⟨(name, blob) :: files, ⟨blob, _, read, files, rest, others, rfl, rfl⟩, ?_⟩
      simp [Content.text, stampText]
    · rintro ⟨_, ⟨blob, later, read, files, _, others, rfl, rfl⟩, rfl⟩
      refine ⟨_, later, ⟨blob, later, read, rfl, rfl⟩, files, others, ?_⟩
      simp [Content.text, stampText]

namespace Loader

variable {loader : Loader Schedule Stamp} {path : List Byte}

/-- A reading of the path is of a file or of a directory, as it is found to be. -/
theorem yields_contents {content : Content} :
    Yields (contents path) moments content rest ↔
      (∃ later blob, Yields (stat path) moments false later ∧
        Yields (readFile path) later blob rest ∧ content = .file blob) ∨
      ∃ later entries listed files, Yields (stat path) moments true later ∧
        Yields (readDir path) later entries listed ∧
        Yields (readFiles path (scheduleNames entries)) listed files rest ∧
        content = .directory files := by
  unfold contents
  simp only [yields_bind, yields_within]
  constructor
  · rintro ⟨isDir, later, stated, yields⟩
    cases isDir with
    | false =>
      obtain ⟨blob, _, read, yields⟩ := yields_bind.mp yields
      obtain ⟨rfl, rfl⟩ := yields_pure.mp yields
      exact .inl ⟨later, blob, stated, read, rfl⟩
    | true =>
      obtain ⟨entries, listed, dir, yields⟩ := yields_bind.mp yields
      obtain ⟨files, _, read, yields⟩ := yields_bind.mp yields
      obtain ⟨rfl, rfl⟩ := yields_pure.mp yields
      exact .inr ⟨later, entries, listed, files, stated, dir, read, rfl⟩
  · rintro (⟨later, blob, stated, read, rfl⟩ |
      ⟨later, entries, listed, files, stated, dir, read, rfl⟩)
    · exact ⟨false, later, stated, yields_bind.mpr ⟨blob, rest, read, yields_pure.mpr ⟨rfl, rfl⟩⟩⟩
    · exact ⟨true, later, stated, yields_bind.mpr ⟨entries, listed, dir,
        yields_bind.mpr ⟨files, rest, read, yields_pure.mpr ⟨rfl, rfl⟩⟩⟩⟩

/-- A stamp is the hash of what the path is found to hold. -/
theorem yields_stampOf {stamp : Stamp} :
    Yields (loader.stampOf path) moments stamp rest ↔
      ∃ content, Yields (contents path) moments content rest ∧
        stamp = loader.hash (content.text path) := by
  unfold stampOf
  simp only [yields_bind, yields_within, yields_contents]
  constructor
  · rintro ⟨isDir, later, stated, yields⟩
    cases isDir with
    | false =>
      obtain ⟨_, _, added, yields⟩ := yields_bind.mp yields
      obtain ⟨blob, _, read, yielded⟩ := yields_bind.mp added
      obtain ⟨rfl, rfl⟩ := yields_pure.mp yielded
      obtain ⟨rfl, rfl⟩ := yields_pure.mp yields
      exact ⟨.file blob, .inl ⟨later, blob, stated, read, rfl⟩, rfl⟩
    | true =>
      obtain ⟨entries, listed, dir, yields⟩ := yields_bind.mp yields
      obtain ⟨_, _, added, yields⟩ := yields_bind.mp yields
      obtain ⟨files, read, rfl⟩ := yields_addFiles.mp added
      obtain ⟨rfl, rfl⟩ := yields_pure.mp yields
      exact ⟨.directory files, .inr ⟨later, entries, listed, files, stated, dir, read, rfl⟩, rfl⟩
  · rintro ⟨_, ⟨later, blob, stated, read, rfl⟩ |
      ⟨later, entries, listed, files, stated, dir, read, rfl⟩, rfl⟩
    · refine ⟨false, later, stated, yields_bind.mpr ⟨_, rest, ?_, yields_pure.mpr ⟨rfl, rfl⟩⟩⟩
      exact yields_bind.mpr ⟨blob, rest, read, yields_pure.mpr ⟨rfl, rfl⟩⟩
    · refine ⟨true, later, stated, yields_bind.mpr ⟨entries, listed, dir, ?_⟩⟩
      exact yields_bind.mpr ⟨_, rest, yields_addFiles.mpr ⟨files, read, rfl⟩,
        yields_pure.mpr ⟨rfl, rfl⟩⟩

theorem yields_loadListings {listings : Schedule} :
    Yields (loader.loadListings path) moments listings rest ↔
      ∃ blob, Yields (readFile path) moments blob rest ∧ loader.parsed blob = some listings := by
  unfold loadListings parsed
  simp only [yields_bind, yields_within, yields_given]
  constructor
  · rintro ⟨blob, later, read, decoded, _, ⟨decodes, rfl⟩, validates, rfl⟩
    refine ⟨blob, read, ?_⟩
    rw [decodes]
    change (loader.validate decoded).toOption = _
    rw [validates]
    rfl
  · rintro ⟨blob, read, parses⟩
    cases decodes : loader.decode blob with
    | error problem =>
      rw [decodes] at parses
      cases parses
    | ok decoded =>
      rw [decodes] at parses
      cases validates : loader.validate decoded with
      | error problem =>
        change (loader.validate decoded).toOption = _ at parses
        rw [validates] at parses
        cases parses
      | ok validated =>
        change (loader.validate decoded).toOption = _ at parses
        rw [validates] at parses
        cases parses
        exact ⟨blob, rest, read, decoded, rest, ⟨decodes, rfl⟩, validates, rfl⟩

theorem yields_loadFiles {names : List (List Byte)} {guide found : Guide Schedule} :
    Yields (loader.loadFiles path names guide) moments found rest ↔
      ∃ files, Yields (readFiles path names) moments files rest ∧
        loader.placeFiles files guide = some found := by
  induction names generalizing guide moments with
  | nil =>
    unfold loadFiles readFiles
    constructor
    · intro yields
      obtain ⟨rfl, rfl⟩ := yields_pure.mp yields
      exact ⟨[], yields_pure.mpr ⟨rfl, rfl⟩, rfl⟩
    · rintro ⟨files, yields, placed⟩
      obtain ⟨rfl, rfl⟩ := yields_pure.mp yields
      cases placed
      exact yields_pure.mpr ⟨rfl, rfl⟩
  | cons name names ih =>
    unfold loadFiles readFiles
    simp only [yields_bind, yields_pure, yields_loadListings]
    constructor
    · rintro ⟨listings, later, ⟨blob, read, parses⟩, yields⟩
      have placed : ∃ files, Yields (readFiles path names) later files rest ∧
          loader.placeFiles ((name, blob) :: files) guide = some found := by
        unfold placeFiles
        simp only [parses, Option.bind_eq_bind, Option.bind_some]
        split at yields
        · simpa only [if_pos ‹name = defaultScheduleName›] using ih.mp yields
        · split at yields
          · simpa [*] using ih.mp yields
          · exact absurd yields yields_throw
      obtain ⟨files, others, placed⟩ := placed
      exact ⟨(name, blob) :: files, ⟨blob, later, read, files, rest, others, rfl, rfl⟩, placed⟩
    · rintro ⟨_, ⟨blob, later, read, files, _, others, rfl, rfl⟩, placed⟩
      unfold placeFiles at placed
      obtain ⟨listings, parses, placed⟩ := Option.bind_eq_some_iff.mp placed
      refine ⟨listings, later, ⟨blob, read, parses⟩, ?_⟩
      split at placed
      · rw [if_pos ‹_›]
        exact ih.mpr ⟨files, others, placed⟩
      · rw [if_neg ‹_›]
        split at placed
        · rw [if_pos ‹_›]
          exact ih.mpr ⟨files, others, placed⟩
        · cases placed

/-- `LoadGuide` reads the path twice: what it finds first it serves, and what it finds
then it stamps. -/
theorem yields_loadGuide {g : LoadedGuide Schedule Stamp} :
    Yields (loader.loadGuide path) moments g rest ↔
      ∃ content later again, Yields (contents path) moments content later ∧
        Yields (contents path) later again rest ∧
        loader.guideOf content = some g.toGuide ∧ g.source = path ∧
        g.stamp = loader.hash (again.text path) := by
  unfold loadGuide
  simp only [yields_bind, yields_within]
  constructor
  · rintro ⟨isDir, stated, isIt, yields⟩
    cases isDir with
    | false =>
      obtain ⟨listings, later, loaded, yields⟩ := yields_bind.mp yields
      obtain ⟨blob, read, parses⟩ := yields_loadListings.mp loaded
      obtain ⟨stamp, _, stamped, yields⟩ := yields_bind.mp yields
      obtain ⟨rfl, rfl⟩ := yields_pure.mp yields
      obtain ⟨again, reread, rfl⟩ := yields_stampOf.mp stamped
      refine ⟨.file blob, later, again, ?_, reread, ?_, rfl, rfl⟩
      · exact yields_contents.mpr (.inl ⟨stated, blob, isIt, read, rfl⟩)
      · simp [guideOf, parses]
    | true =>
      obtain ⟨entries, listed, dir, yields⟩ := yields_bind.mp yields
      obtain ⟨guide, later, loaded, yields⟩ := yields_bind.mp yields
      obtain ⟨files, read, placed⟩ := yields_loadFiles.mp loaded
      by_cases empty : guide.fallback.isNone = true
      · rw [if_pos empty] at yields
        obtain ⟨_, _, thrown, -⟩ := yields_bind.mp yields
        exact absurd thrown yields_throw
      · rw [if_neg empty] at yields
        obtain ⟨stamp, _, stamped, yields⟩ := yields_bind.mp yields
        obtain ⟨rfl, rfl⟩ := yields_pure.mp yields
        obtain ⟨again, reread, rfl⟩ := yields_stampOf.mp stamped
        refine ⟨.directory files, later, again, ?_, reread, ?_, rfl, rfl⟩
        · exact yields_contents.mpr
            (.inr ⟨stated, entries, listed, files, isIt, yields_within.mp dir, read, rfl⟩)
        · exact Option.filter_eq_some_iff.mpr
            ⟨placed, by simpa [Option.isSome_iff_ne_none] using empty⟩
  · rintro ⟨_, later, again, found, reread, guided, rfl, stamped⟩
    obtain ⟨guide, source, stamp⟩ := g
    have stampedOf := yields_stampOf.mpr ⟨again, reread, stamped⟩
    rcases yields_contents.mp found with ⟨stated, blob, isIt, read, rfl⟩ |
      ⟨stated, entries, listed, files, isIt, dir, read, rfl⟩
    · obtain ⟨listings, parses, rfl⟩ := Option.map_eq_some_iff.mp guided
      refine ⟨false, stated, isIt, yields_bind.mpr ⟨listings, later, ?_, ?_⟩⟩
      · exact yields_loadListings.mpr ⟨blob, read, parses⟩
      · exact yields_bind.mpr ⟨stamp, rest, stampedOf, yields_pure.mpr ⟨rfl, rfl⟩⟩
    · obtain ⟨placed, whole⟩ := Option.filter_eq_some_iff.mp guided
      refine ⟨true, stated, isIt, yields_bind.mpr ⟨entries, listed, yields_within.mpr dir,
        yields_bind.mpr ⟨guide, later, yields_loadFiles.mpr ⟨files, read, placed⟩, ?_⟩⟩⟩
      rw [if_neg (by simpa [Option.isSome_iff_ne_none] using whole)]
      exact yields_bind.mpr ⟨stamp, rest, stampedOf, yields_pure.mpr ⟨rfl, rfl⟩⟩

theorem contents_listed {content : Content} (found : Yields (contents path) moments content rest) :
    content.Listed := by
  rcases yields_contents.mp found with ⟨_, blob, _, _, rfl⟩ |
    ⟨_, entries, listed, files, _, dir, read, rfl⟩
  · trivial
  · have names : ∀ {names : List (List Byte)} {moments : Stream' Files}
        {files : List (List Byte × List Byte)}, Yields (readFiles path names) moments files rest →
        files.map Prod.fst = names := by
      intro names
      induction names with
      | nil =>
        intro moments files read
        obtain ⟨rfl, -⟩ := yields_pure.mp read
        rfl
      | cons name names ih =>
        intro moments files read
        unfold readFiles at read
        obtain ⟨blob, later, -, read⟩ := yields_bind.mp read
        obtain ⟨others, last, read, yielded⟩ := yields_bind.mp read
        obtain ⟨rfl, rfl⟩ := yields_pure.mp yielded
        rw [List.map_cons, ih read]
    constructor
    · rw [names read]
      obtain ⟨listing, -⟩ := yields_attempt.mp dir
      exact (Files.distinct _ listing).sublist (List.filter_sublist.map _)
    · intro file member
      have named : file.1 ∈ scheduleNames entries := by
        rw [← names read]
        exact List.mem_map_of_mem member
      obtain ⟨entry, kept, same⟩ := List.mem_map.mp named
      have suffix : jsonSuffix <:+ entry.name := by
        have := (List.mem_filter.mp kept).2
        simp only [Bool.and_eq_true, List.isSuffixOf_iff_suffix] at this
        exact this.2
      obtain ⟨date, eq⟩ := suffix
      exact ⟨date, by rw [← same, eq]⟩

variable {files : List (List Byte × List Byte)} {guide found : Guide Schedule}

theorem lookup_cons_eq_ite {Value : Type} (key : List Byte) (entry : List Byte × Value)
    (entries : List (List Byte × Value)) :
    (entry :: entries).lookup key = if key = entry.1 then some entry.2 else entries.lookup key := by
  obtain ⟨name, value⟩ := entry
  by_cases same : key = name
  · rw [if_pos same, same, List.lookup_cons_self]
  · rw [if_neg same, List.lookup_cons, beq_false_of_ne same]

theorem lookup_eq_none {key : List Byte} (absent : key ∉ files.map Prod.fst) :
    files.lookup key = none := by
  refine List.lookup_eq_none_iff.mpr fun file member => bne_iff_ne.mpr fun same => absent ?_
  rw [same]
  exact List.mem_map_of_mem member

theorem mem_of_lookup {key blob : List Byte} (found : files.lookup key = some blob) :
    (key, blob) ∈ files := by
  obtain ⟨before, after, rfl, -⟩ := List.lookup_eq_some_iff.mp found
  simp

theorem placeFiles_isSome (suffixed : ∀ file ∈ files, ∃ date, file.1 = date ++ jsonSuffix) :
    (loader.placeFiles files guide).isSome ↔
      ∀ file ∈ files, ScheduleName file.1 ∧ (loader.parsed file.2).isSome := by
  induction files generalizing guide with
  | nil => simp [placeFiles]
  | cons file files ih =>
    have ih := fun guide => @ih guide fun file member =>
      suffixed file (List.mem_cons_of_mem _ member)
    obtain ⟨date, named⟩ := suffixed file List.mem_cons_self
    rw [List.forall_mem_cons]
    unfold placeFiles
    cases parses : loader.parsed file.2 with
    | none => simp
    | some listings =>
      simp only [Option.bind_eq_bind, Option.bind_some, Option.isSome_some, and_true]
      by_cases isDefault : file.1 = defaultScheduleName
      · rw [if_pos isDefault, ih]
        exact (and_iff_right (.inl isDefault)).symm
      · rw [if_neg isDefault, named, trimJson_append]
        by_cases parsesDate : Time.parsesAsDate date = true
        · rw [if_pos parsesDate, ih]
          exact (and_iff_right (.inr ⟨date, parsesDate, rfl⟩)).symm
        · rw [if_neg parsesDate]
          have unnamed : ¬ScheduleName (date ++ jsonSuffix) := by
            rintro (same | ⟨other, parsesOther, same⟩)
            · exact isDefault (named.trans same)
            · rw [List.append_cancel_right same] at parsesDate
              exact parsesDate parsesOther
          simp [unnamed]

/-- The default of what is placed is that of the files. -/
theorem placeFiles_fallback (distinct : (files.map Prod.fst).Nodup)
    (placed : loader.placeFiles files guide = some found) :
    found.fallback =
      ((files.lookup defaultScheduleName).bind loader.parsed).or guide.fallback := by
  induction files generalizing guide with
  | nil =>
    cases placed
    rfl
  | cons file files ih =>
    obtain ⟨fresh, distinct⟩ := List.nodup_cons.mp distinct
    obtain ⟨listings, parses, placed⟩ := Option.bind_eq_some_iff.mp placed
    rw [lookup_cons_eq_ite]
    split at placed
    next isDefault =>
      have absent : files.lookup defaultScheduleName = none :=
        lookup_eq_none (isDefault ▸ fresh)
      rw [ih distinct placed, absent, if_pos isDefault.symm, Option.bind_some, parses]
      rfl
    next notDefault =>
      rw [if_neg (Ne.symm notDefault)]
      split at placed
      · rw [ih distinct placed]
      · cases placed

/-- Of a date too, it is the file's that is named for it. -/
theorem placeFiles_lookup {date : List Byte} (distinct : (files.map Prod.fst).Nodup)
    (suffixed : ∀ file ∈ files, ∃ date, file.1 = date ++ jsonSuffix)
    (other : date ++ jsonSuffix ≠ defaultScheduleName)
    (placed : loader.placeFiles files guide = some found) :
    found.byDate.lookup date =
      ((files.lookup (date ++ jsonSuffix)).bind loader.parsed).or (guide.byDate.lookup date) := by
  induction files generalizing guide with
  | nil =>
    cases placed
    rfl
  | cons file files ih =>
    obtain ⟨fresh, distinct⟩ := List.nodup_cons.mp distinct
    obtain ⟨⟨named, hasSuffix⟩, suffixed⟩ := List.forall_mem_cons.mp suffixed
    obtain ⟨listings, parses, placed⟩ := Option.bind_eq_some_iff.mp placed
    rw [lookup_cons_eq_ite]
    split at placed
    next isDefault =>
      rw [if_neg fun same => other (same.trans isDefault)]
      rw [ih distinct suffixed placed]
    next notDefault =>
      split at placed
      · rw [ih distinct suffixed placed, lookup_cons_eq_ite, hasSuffix, trimJson_append]
        by_cases same : date = named
        · have absent : files.lookup (date ++ jsonSuffix) = none := by
            refine lookup_eq_none ?_
            rw [same, ← hasSuffix]
            exact fresh
          rw [absent, if_pos same, if_pos (congrArg (· ++ jsonSuffix) same), Option.bind_some,
            parses]
          rfl
        · rw [if_neg same, if_neg fun eq => same (List.append_cancel_right eq)]
      · cases placed

/-- No day is called `default`. -/
theorem dateText_ne_default (day : Time) : day.dateText ++ jsonSuffix ≠ defaultScheduleName := by
  intro same
  have dash : (0x2d : Byte) ∈ day.dateText ++ jsonSuffix := by
    simp [Time.dateText]
  rw [same] at dash
  revert dash
  decide

/-- The guide of a valid content serves it, on every day. -/
theorem guideOf_on {content : Content} (listed : content.Listed)
    (guided : loader.guideOf content = some guide) (day : Time) :
    guide.on day = loader.scheduleOn day content := by
  cases content with
  | file blob =>
    obtain ⟨listings, parses, rfl⟩ := Option.map_eq_some_iff.mp guided
    exact parses.symm
  | directory files =>
    obtain ⟨distinct, suffixed⟩ := listed
    obtain ⟨placed, -⟩ := Option.filter_eq_some_iff.mp guided
    have valid := (placeFiles_isSome suffixed).mp (Option.isSome_of_eq_some placed)
    unfold Guide.on
    rw [placeFiles_lookup distinct suffixed (dateText_ne_default day) placed,
      placeFiles_fallback distinct placed]
    change _ = ((files.lookup (day.dateText ++ jsonSuffix)).orElse fun _ =>
      files.lookup defaultScheduleName).bind loader.parsed
    cases dated : files.lookup (day.dateText ++ jsonSuffix) with
    | none => simp
    | some blob =>
      have member := mem_of_lookup dated
      obtain ⟨listings, parses⟩ := Option.isSome_iff_exists.mp (valid _ member).2
      dsimp only at parses
      simp [parses]

theorem guideOf_isSome {content : Content} (listed : content.Listed) :
    (loader.guideOf content).isSome ↔ loader.Valid content := by
  cases content with
  | file blob => simp [guideOf, Valid]
  | directory files =>
    obtain ⟨distinct, suffixed⟩ := listed
    change ((loader.placeFiles files {}).filter fun guide => guide.fallback.isSome).isSome ↔
      (∀ file ∈ files, ScheduleName file.1 ∧ (loader.parsed file.2).isSome) ∧
        defaultScheduleName ∈ files.map Prod.fst
    rw [← @placeFiles_isSome _ _ loader files {} suffixed]
    cases placed : loader.placeFiles files {} with
    | none => simp
    | some guide =>
      have valid := (placeFiles_isSome suffixed).mp (Option.isSome_of_eq_some placed)
      rw [Option.isSome_filter, Option.any_some, placeFiles_fallback distinct placed,
        and_iff_right (Option.isSome_some)]
      constructor
      · intro whole
        by_contra absent
        rw [lookup_eq_none absent] at whole
        cases whole
      · intro member
        obtain ⟨file, inFiles, isDefault⟩ := List.mem_map.mp member
        cases listing : files.lookup defaultScheduleName with
        | none =>
          have differs := List.lookup_eq_none_iff.mp listing file inFiles
          exact absurd isDefault.symm (bne_iff_ne.mp differs)
        | some blob =>
          obtain ⟨listings, parses⟩ := Option.isSome_iff_exists.mp
            (valid _ (mem_of_lookup listing)).2
          dsimp only at parses
          rw [Option.bind_some, parses]
          rfl

end Loader

end Multiplex

end GoRetroTv
