import GoRetroTv.FilePaths
import GoRetroTv.ListedSchedule

/-!
# What a schedule is checked for

`validate` of `internal/multiplex/listings.go`: names, ids, genres and media, each
programme's title, length and start, and last the order of a day's programmes.
-/

namespace GoRetroTv

namespace Multiplex

open Broadcast Snapcodec Filepath

/-- The encodings of the characters that are white space. -/
def spaces : List (List Byte) :=
  [[0x09], [0x0a], [0x0b], [0x0c], [0x0d], [0x20], [0xc2, 0x85], [0xc2, 0xa0], [0xe1, 0x9a, 0x80],
    [0xe2, 0x80, 0xa8], [0xe2, 0x80, 0xa9], [0xe2, 0x80, 0xaf], [0xe2, 0x81, 0x9f],
    [0xe3, 0x80, 0x80]] ++
  (List.range 11).map fun i => [0xe2, 0x80, 0x80 + BitVec.ofNat 8 i]

/-- `strings.TrimSpace(name) == ""`, with as many steps as the name has bytes. -/
def blankWithin : Nat → List Byte → Bool
  | _, [] => true
  | 0, _ => false
  | fuel + 1, name => spaces.any fun space =>
      space.isPrefixOf name && blankWithin fuel (name.drop space.length)

def blank (name : List Byte) : Bool :=
  blankWithin name.length name

def mediaKindTestPattern : List Byte := ascii "test-pattern"

def mediaKindFile : List Byte := ascii "file"

def mediaKindFolder : List Byte := ascii "folder"

/-- A path that leaves the media root. -/
def leavesRoot (path : List Byte) : Bool :=
  path.head? == some slash || clean path == ascii "." || clean path == parent ||
    (parent ++ [slash]).isPrefixOf (clean path)

def validateMedia (media : Option ProgrammeMedia) : Except String Unit :=
  match media with
  | none => return
  | some media =>
      if media.kind = mediaKindTestPattern then
        if media.path ≠ [] ∨ media.loop then
          throw "test-pattern media does not accept path or loop"
        else return
      else if media.kind = mediaKindFile ∨ media.kind = mediaKindFolder then
        if media.path = [] then throw s!"{text media.kind} media needs a path"
        else if leavesRoot media.path then
          throw s!"media path {quoted media.path} must stay beneath the media root"
        else return
      else throw s!"unsupported media kind {quoted media.kind}"

/-- The ids seen so far, with the names of their channels. -/
structure Seen where
  services : List (Half × List Byte) := []
  listings : List (Half × List Byte) := []

def validateProgramme (service : ListedService) (p : ListedProgramme) : Except String Unit := do
  if blank p.title then
    throw s!"{quoted service.name} has a programme at {text p.start} with no title"
  if p.minutes ≤ 0 then
    throw s!"{quoted service.name}: {quoted p.title} runs for {p.minutes} minutes"
  let _ ← wrap s!"{quoted service.name}: {quoted p.title}: " p.startSeconds
  wrap s!"{quoted service.name}: {quoted p.title}: " (validateMedia p.media)

/-- A programme's start once it has been checked. -/
def ListedProgramme.startOr (p : ListedProgramme) : Int :=
  match p.startSeconds with
  | .ok start => start
  | .error _ => 0

/-- `sort.SliceStable`, by start. -/
def sortProgrammes (programmes : List ListedProgramme) : List ListedProgramme :=
  programmes.mergeSort fun left right => decide (left.startOr ≤ right.startOr)

def validateService (seen : Seen) (service : ListedService) : Except String (Seen × ListedService) := do
  let name := quoted service.name
  if blank service.name then throw s!"channel {service.channel.toNat} has no name"
  if service.serviceID = 0 then throw s!"{name} has no serviceId"
  if service.listingsID = 0 then
    throw s!"{name} has no listingsId, so its programmes could never be addressed"
  if 0x0f < service.flags then
    throw (s!"{name} has flags {hexText 0 service.flags.toNat}, and the line-up entry " ++
      "carries four bits")
  if 7 < service.genre then
    throw (s!"{name} has genre {service.genre.toNat}, and the 0xB2 descriptor carries three " ++
      "bits: the guide's screens are 1 SPECIALIST, 2 KIDS, 3 ENTERTAINMENT, 4 MUSIC & RADIO, " ++
      "5 NEWS & DOCUMENTARIES, 6 MOVIES, 7 SPORTS, and 0 is no genre")
  wrap s!"{name}: " (validateMedia service.media)
  if let some other := seen.services.lookup service.serviceID then
    throw s!"{quoted other} and {name} share serviceId {service.serviceID.toNat}"
  if let some other := seen.listings.lookup service.listingsID then
    throw s!"{quoted other} and {name} share listingsId {service.listingsID.toNat}"
  if service.programmes = [] then throw s!"{name} lists no programmes"
  service.programmes.forM (validateProgramme service)
  return ({
    services := (service.serviceID, service.name) :: seen.services
    listings := (service.listingsID, service.name) :: seen.listings },
    { service with programmes := sortProgrammes service.programmes })

def validateServices : Seen → List ListedService → Except String (List ListedService)
  | _, [] => return []
  | seen, service :: services => do
      let (seen, checked) ← validateService seen service
      return checked :: (← validateServices seen services)

/-- `validate`: the listings with each day's programmes in order. -/
def Listings.validate (l : Listings) : Except String Listings := do
  if blank l.bouquet then throw "the bouquet has no name"
  if l.services = [] then
    throw "the schedule lists no channels, so there is nothing to broadcast"
  return { l with services := ← validateServices {} l.services }

/-- A day's programmes that have passed: each starts at a time of day, and they stand in the
order of their starts. -/
structure Ordered (programmes : List ListedProgramme) : Prop where
  starts : ∀ p ∈ programmes, p.startSeconds = .ok p.startOr
  sorted : programmes.Pairwise fun p q => p.startOr ≤ q.startOr

theorem startOr_eq {p : ListedProgramme} {start : Int} (read : p.startSeconds = .ok start) :
    p.startOr = start := by
  unfold ListedProgramme.startOr
  rw [read]

theorem sortProgrammes_sorted (programmes : List ListedProgramme) :
    (sortProgrammes programmes).Pairwise fun p q => p.startOr ≤ q.startOr := by
  have sorted := @List.pairwise_mergeSort ListedProgramme
    (fun p q => decide (p.startOr ≤ q.startOr))
    (fun p q r first second => by
      rw [decide_eq_true_eq] at *
      exact Int.le_trans first second)
    (fun p q => by
      rw [Bool.or_eq_true, decide_eq_true_eq, decide_eq_true_eq]
      exact Int.le_total _ _)
    programmes
  exact sorted.imp fun le => of_decide_eq_true le

theorem forM_ok {α : Type} {item : α → Except String Unit} {items : List α}
    (succeeded : items.forM item = .ok ()) : ∀ x ∈ items, item x = .ok () := by
  induction items with
  | nil => exact fun x member => absurd member List.not_mem_nil
  | cons first items ih =>
    change (item first >>= fun _ => items.forM item) = .ok () at succeeded
    obtain ⟨⟨⟩, head, tail⟩ := bind_eq_ok.mp succeeded
    intro x member
    rcases List.mem_cons.mp member with rfl | later
    · exact head
    · exact ih tail x later

theorem validateProgramme_ok {service : ListedService} {p : ListedProgramme}
    (valid : validateProgramme service p = .ok ()) : p.startSeconds = .ok p.startOr := by
  unfold validateProgramme at valid
  obtain ⟨_, valid⟩ := check_ok valid
  obtain ⟨_, valid⟩ := check_ok valid
  obtain ⟨start, read, _⟩ := bind_eq_ok.mp valid
  have read := wrap_ok read
  rw [startOr_eq read]
  exact read

theorem validateService_ok {seen later : Seen} {service checked : ListedService}
    (valid : validateService seen service = .ok (later, checked)) :
    seen.services.lookup service.serviceID = none ∧ checked.serviceID = service.serviceID ∧
      later.services = (service.serviceID, service.name) :: seen.services ∧
      Ordered checked.programmes := by
  unfold validateService at valid
  dsimp only at valid
  obtain ⟨_, valid⟩ := check_ok valid
  obtain ⟨_, valid⟩ := check_ok valid
  obtain ⟨_, valid⟩ := check_ok valid
  obtain ⟨_, valid⟩ := check_ok valid
  obtain ⟨_, valid⟩ := check_ok valid
  obtain ⟨_, _, valid⟩ := bind_eq_ok.mp valid
  cases firstSeen : seen.services.lookup service.serviceID with
  | some other =>
    rw [firstSeen] at valid
    cases valid
  | none =>
    rw [firstSeen] at valid
    cases secondSeen : seen.listings.lookup service.listingsID with
    | some other =>
      rw [secondSeen] at valid
      cases valid
    | none =>
      rw [secondSeen] at valid
      obtain ⟨_, valid⟩ := check_ok valid
      obtain ⟨⟨⟩, programmes, valid⟩ := bind_eq_ok.mp valid
      cases valid
      refine ⟨rfl, rfl, rfl, fun p member => ?_, sortProgrammes_sorted _⟩
      exact validateProgramme_ok (forM_ok programmes p (List.mem_mergeSort.mp member))

theorem validateServices_ok {seen : Seen} {services checked : List ListedService}
    (valid : validateServices seen services = .ok checked) :
    (∀ service ∈ checked, seen.services.lookup service.serviceID = none ∧
      Ordered service.programmes) ∧
      checked.Pairwise fun service other => service.serviceID ≠ other.serviceID := by
  induction services generalizing seen checked with
  | nil =>
    cases valid
    exact ⟨fun service member => absurd member List.not_mem_nil, .nil⟩
  | cons service services ih =>
    unfold validateServices at valid
    obtain ⟨⟨later, first⟩, head, valid⟩ := bind_eq_ok.mp valid
    obtain ⟨rest, tail, valid⟩ := bind_eq_ok.mp valid
    cases valid
    obtain ⟨fresh, sameID, seenNow, ordered⟩ := validateService_ok head
    obtain ⟨each, distinct⟩ := ih tail
    rw [seenNow] at each
    constructor
    · intro other member
      rcases List.mem_cons.mp member with rfl | inRest
      · rw [sameID]
        exact ⟨fresh, ordered⟩
      · have found := (each other inRest).1
        rw [List.lookup_cons] at found
        cases same : other.serviceID == service.serviceID with
        | true =>
          rw [same] at found
          cases found
        | false =>
          rw [same] at found
          exact ⟨found, (each other inRest).2⟩
    · refine List.pairwise_cons.mpr ⟨fun other inRest same => ?_, distinct⟩
      have found := (each other inRest).1
      rw [← same, sameID, List.lookup_cons, beq_self_eq_true] at found
      cases found

/-- Checked listings: the services' ids are distinct, and each has its programmes in order. -/
theorem validate_ok {listings checked : Listings} (valid : listings.validate = .ok checked) :
    (∀ service ∈ checked.services, Ordered service.programmes) ∧
      checked.services.Pairwise fun service other => service.serviceID ≠ other.serviceID := by
  unfold Listings.validate at valid
  obtain ⟨_, valid⟩ := check_ok valid
  obtain ⟨_, valid⟩ := check_ok valid
  obtain ⟨services, validated, valid⟩ := bind_eq_ok.mp valid
  cases valid
  obtain ⟨each, distinct⟩ := validateServices_ok validated
  exact ⟨fun service member => (each service member).2, distinct⟩

end Multiplex

end GoRetroTv
