import GoRetroTv.SnapshotSequences
import GoRetroTv.SnapshotSets

/-!
# Snapshot sets, written and read

A set is written in the order of its names, so the order of the `Add`s leaves no
trace, and it opens as the members it was given.  Whatever bytes are opened,
the members that come out fill the payload behind their count.
-/

namespace GoRetroTv

namespace Snapcodec

/-- A member's bytes in a payload. -/
def encodeMember (entry : List Byte × List Byte) : List Byte :=
  encodeBytes entry.1 ++ encodeBytes entry.2

/-- The payload of a set. -/
def encodeMembers (entries : List (List Byte × List Byte)) : List Byte :=
  bigEndian 4 entries.length ++ entries.flatMap encodeMember

/-- Distinct non-empty names with their blobs. -/
structure Collection (entries : List (List Byte × List Byte)) : Prop where
  distinct : (entries.map Prod.fst).Nodup
  named : ∀ entry ∈ entries, entry.1 ≠ []

def addAll (entries : List (List Byte × List Byte)) (w : SetWriter) : SetWriter :=
  entries.foldl (fun w entry => w.add entry.1 entry.2) w

theorem Members.ext {first second : Members} (same : first.entries = second.entries) :
    first = second := by
  cases first
  cases second
  cases same
  rfl

theorem nameOrder_total (first second : List Byte × List Byte) :
    Members.nameOrder first second ∨ Members.nameOrder second first :=
  le_total _ _

theorem nameOrder_trans {first second third : List Byte × List Byte}
    (left : Members.nameOrder first second) (right : Members.nameOrder second third) :
    Members.nameOrder first third :=
  le_trans left right

instance : Std.Total Members.nameOrder :=
  ⟨nameOrder_total⟩

instance : IsTrans (List Byte × List Byte) Members.nameOrder :=
  ⟨fun _ _ _ => nameOrder_trans⟩

theorem name_eq_of_nameOrder {first second : List Byte × List Byte}
    (left : Members.nameOrder first second) (right : Members.nameOrder second first) :
    first.1 = second.1 :=
  List.map_injective_iff.mpr (fun _ _ => BitVec.eq_of_toNat_eq) (le_antisymm left right)

/-- Under distinct names, a name has one entry. -/
theorem eq_of_mem_of_name {entries : List (List Byte × List Byte)}
    (distinct : (entries.map Prod.fst).Nodup) {first second : List Byte × List Byte}
    (isFirst : first ∈ entries) (isSecond : second ∈ entries) (sameName : first.1 = second.1) :
    first = second :=
  List.inj_on_of_nodup_map distinct isFirst isSecond sameName

/-- The written order depends on the members alone. -/
theorem sorted_eq_of_perm {first second : Members} (same : first.entries.Perm second.entries) :
    first.sorted = second.sorted := by
  apply Members.ext
  have firstSorted := List.perm_insertionSort Members.nameOrder first.entries
  have secondSorted := List.perm_insertionSort Members.nameOrder second.entries
  refine List.Perm.eq_of_pairwise ?_ (List.pairwise_insertionSort _ _)
    (List.pairwise_insertionSort _ _) ((firstSorted.trans same).trans secondSorted.symm)
  intro entry other isEntry isOther left right
  exact eq_of_mem_of_name first.distinct (firstSorted.mem_iff.mp isEntry)
    (same.mem_iff.mpr (secondSorted.mem_iff.mp isOther)) (name_eq_of_nameOrder left right)

/-- The writer after members were added to it. -/
theorem addAll_eq {entries : List (List Byte × List Byte)} {w : SetWriter} (fresh : w.err = none)
    (named : ∀ entry ∈ entries, entry.1 ≠ []) (target : Members)
    (added : target.entries = w.members.entries ++ entries) :
    addAll entries w = { w with members := target } := by
  induction entries generalizing w with
  | nil =>
    rw [show target = w.members from Members.ext (by simpa using added)]
    rfl
  | cons entry entries ih =>
    have distinct := target.distinct
    rw [added, List.map_append, List.map_cons, List.nodup_append] at distinct
    have free : entry.1 ∉ w.members.names := fun taken =>
      distinct.2.2 entry.1 taken entry.1 List.mem_cons_self rfl
    have one : w.add entry.1 entry.2 =
        { w with members := w.members.insert entry.1 entry.2 free } := by
      simp [SetWriter.add, fresh, named entry List.mem_cons_self, free]
    rw [addAll, List.foldl_cons, one]
    exact ih fresh (fun later member => named later (List.mem_cons_of_mem _ member))
      (by simp [Members.insert, added])

/-- The members of a collection. -/
def Collection.members {entries : List (List Byte × List Byte)} (collection : Collection entries) :
    Members where
  entries := entries
  distinct := collection.distinct

theorem addAll_newSetWriter {entries : List (List Byte × List Byte)} {name : List Byte}
    (version : Half) (nonempty : name ≠ []) (collection : Collection entries) :
    addAll entries (newSetWriter name version) =
      { name, version, members := collection.members } := by
  have fresh : newSetWriter name version = { name, version } := by
    simp [newSetWriter, nonempty]
  rw [fresh]
  exact addAll_eq rfl collection.named collection.members rfl

theorem add_failed {w : SetWriter} (failed : w.err.isSome = true) (member blob : List Byte) :
    w.add member blob = w := by
  simp [SetWriter.add, failed]

theorem addAll_failed {w : SetWriter} (failed : w.err.isSome = true)
    (entries : List (List Byte × List Byte)) : addAll entries w = w := by
  induction entries with
  | nil => rfl
  | cons entry entries ih => rwa [addAll, List.foldl_cons, add_failed failed]

/-- A set's bytes do not depend on the order its members were added in. -/
theorem blob_eq_of_perm {entries other : List (List Byte × List Byte)} (name : List Byte)
    (version : Half) (collection : Collection entries) (same : entries.Perm other) :
    (addAll entries (newSetWriter name version)).blob =
      (addAll other (newSetWriter name version)).blob := by
  have otherCollection : Collection other :=
    ⟨((same.map Prod.fst).nodup_iff).mp collection.distinct,
      fun entry member => collection.named entry (same.mem_iff.mpr member)⟩
  by_cases nonempty : name = []
  · have failed : (newSetWriter name version).err.isSome = true := by simp [newSetWriter, nonempty]
    rw [addAll_failed failed, addAll_failed failed]
  · rw [addAll_newSetWriter version nonempty collection,
      addAll_newSetWriter version nonempty otherCollection]
    have sorted : collection.members.sorted = otherCollection.members.sorted :=
      sorted_eq_of_perm same
    simp only [SetWriter.blob, sorted]

theorem Written.member {name : List Byte} {version : Half} {payload : List Byte} {w : Writer}
    (entry : List Byte × List Byte) (written : Written name version payload w) :
    Written name version (payload ++ encodeMember entry) (w |>.string entry.1 |>.bytes entry.2) := by
  have both := (written.string entry.1).bytes entry.2
  rwa [List.append_assoc] at both

/-- A writer without an error gives its blob only if the sorted members fit. -/
theorem SetWriter.blob_ok {name blob : List Byte} {version : Half} {members : Members}
    (taken : SetWriter.blob { name, version, members } = .ok blob) :
    name.length ≤ maxNameLen ∧ (encodeMembers members.sorted.entries).length < wordLimit ∧
      blob = Writer.frame name version (encodeMembers members.sorted.entries) := by
  unfold SetWriter.blob at taken
  dsimp only at taken
  split at taken
  · cases taken
  next few =>
    have written := ((Written.start name version).uint32
      (BitVec.ofNat 32 members.sorted.entries.length)).foldl encodeMember Written.member
      members.sorted.entries
    rw [List.nil_append, toNat_ofNat_of_lt_wordLimit (by omega)] at written
    exact written.blob taken

theorem blob_addAll {entries : List (List Byte × List Byte)} {name blob : List Byte}
    {version : Half} (collection : Collection entries)
    (taken : (addAll entries (newSetWriter name version)).blob = .ok blob) :
    name.length ≤ maxNameLen ∧ (encodeMembers collection.members.sorted.entries).length < wordLimit ∧
      blob = Writer.frame name version (encodeMembers collection.members.sorted.entries) := by
  by_cases nonempty : name = []
  · have failed : (newSetWriter name version).err.isSome = true := by simp [newSetWriter, nonempty]
    rw [addAll_failed failed] at taken
    obtain ⟨error, isError⟩ := Option.isSome_iff_exists.mp failed
    simp [SetWriter.blob, isError] at taken
  · rw [addAll_newSetWriter version nonempty collection] at taken
    exact SetWriter.blob_ok taken

/-- The members are read back behind those that were read before. -/
theorem Reads.members (name : List Byte) {entries : List (List Byte × List Byte)}
    {members target : Members} (added : target.entries = members.entries ++ entries)
    (fits : (entries.flatMap encodeMember).length < wordLimit) :
    Reads (readMembers name entries.length members) (entries.flatMap encodeMember) target := by
  induction entries generalizing members with
  | nil =>
    rw [show target = members from Members.ext (by simpa using added)]
    exact Reads.pure members
  | cons entry entries ih =>
    have distinct := target.distinct
    rw [added, List.map_append, List.map_cons, List.nodup_append] at distinct
    have free : entry.1 ∉ members.names := fun taken =>
      distinct.2.2 entry.1 taken entry.1 List.mem_cons_self rfl
    simp only [List.flatMap_cons, encodeMember, List.length_append, encodeBytes_length] at fits
    rw [List.flatMap_cons, encodeMember, List.append_assoc, List.length_cons]
    refine .bind (.string (by omega)) (.bind (.bytes (by omega)) ?_)
    refine Reads.bind .err ?_
    rw [Option.isSome_none, if_neg (by simp), dif_pos free]
    exact ih (by simp [Members.insert, added]) (by omega)

/-- Every member needs its two lengths. -/
theorem members_need (entries : List (List Byte × List Byte)) :
    entries.length * minMemberBytes ≤ (entries.flatMap encodeMember).length := by
  induction entries with
  | nil => simp
  | cons entry entries ih =>
    simp only [minMemberBytes] at ih ⊢
    simp only [List.flatMap_cons, encodeMember, List.length_append, encodeBytes_length,
      List.length_cons] at ih ⊢
    omega

theorem run_remaining (r : Reader) : Reading.remaining r = .ok r.remaining r :=
  rfl

/-- A set opens as the members it was given, in the order of their names. -/
theorem openSet_frame {name : List Byte} {version low high : Half} {members : Members}
    (nameFits : name.length ≤ maxNameLen)
    (fits : (encodeMembers members.entries).length < wordLimit)
    (lowBound : low ≤ version) (highBound : version ≤ high) :
    openSet (Writer.frame name version (encodeMembers members.entries)) name low high =
      .ok { name, version, members } := by
  refine restoringVersion_frame nameFits fits lowBound highBound ?_
  have need := members_need members.entries
  simp only [encodeMembers, List.length_append, bigEndian_length] at fits
  have few : members.entries.length < wordLimit := by
    simp only [minMemberBytes] at need
    omega
  have count := Reads.uint32 (BitVec.ofNat 32 members.entries.length)
  rw [toNat_ofNat_of_lt_wordLimit few] at count
  refine .bind count fun r here => ?_
  rw [run_bind (run_remaining r), here.remaining, toNat_ofNat_of_lt_wordLimit few]
  refine Parses.require (decide_eq_true need) (.bind_last (.members name rfl (by omega)) ?_) r here
  exact .done (.pure [] _)

/-- The count of members, checked against the bytes that are left, before
anything is made for them. -/
def readCount (name : List Byte) : Reading Nat := do
  let count ← Reading.uint32
  let remain ← Reading.remaining
  Reading.require (decide (count.toNat * minMemberBytes ≤ remain)) <|
    s!"snapcodec: {text name}: snapshot blob is truncated: header claims {count.toNat} members, " ++
      s!"which need at least {count.toNat * minMemberBytes} payload bytes, and {remain} remain"
  return count.toNat

theorem readSet_eq (name : List Byte) (version : Half) :
    readSet name version = do
      let count ← readCount name
      let members ← readMembers name count {}
      Reading.done
      return { name, version, members } := by
  simp only [readSet, readCount, bind_assoc, pure_bind]

theorem readCount_need {name : List Byte} {r r' : Reader} {count : Nat}
    (read : readCount name r = .ok count r') : count * minMemberBytes ≤ r'.remaining := by
  obtain ⟨word, r₁, _, afterWord⟩ := bind_ok read
  rw [run_bind (run_remaining r₁)] at afterWord
  obtain ⟨_, r₂, checked, returned⟩ := bind_ok afterWord
  have need := require_ok checked
  obtain ⟨rfl, rfl⟩ := EStateM.Result.ok.inj returned
  have same : r₂ = r₁ := by
    rw [need] at checked
    exact (EStateM.Result.ok.inj checked).2.symm
  rw [same]
  exact of_decide_eq_true need

/-- Bytes that were read without an error are the next of the payload. -/
theorem bytes_exact {r r' : Reader} {rest value : List Byte} (here : r.At rest)
    (read : Reading.bytes r = .ok value r') (fine : r'.err = none) :
    ∃ later, rest = encodeBytes value ++ later ∧ r'.At later := by
  rcases Takes.bytes rest r here with ⟨enough, _⟩ | ⟨_, last, again, failed⟩
  · have four : (rest.take 4).length = 4 := by rw [List.length_take]; omega
    have split : rest = encodeBytes ((rest.drop 4).take (ofBigEndian (rest.take 4))) ++
        (rest.drop 4).drop (ofBigEndian (rest.take 4)) := by
      have length : ((rest.drop 4).take (ofBigEndian (rest.take 4))).length =
          ofBigEndian (rest.take 4) := by
        rw [List.length_take, List.length_drop]
        omega
      have first := bigEndian_ofBigEndian (rest.take 4)
      rw [four] at first
      rw [encodeBytes, length, first, List.append_assoc, List.take_append_drop,
        List.take_append_drop]
    have fits : ((rest.drop 4).take (ofBigEndian (rest.take 4))).length < wordLimit := by
      have bound := ofBigEndian_lt (rest.take 4)
      rw [four] at bound
      rw [List.length_take]
      exact (Nat.min_le_left _ _).trans_lt (bound.trans_eq (by decide))
    rw [split] at here
    have again := Reads.bytes fits r _ here
    rw [read] at again
    obtain ⟨rfl, rfl⟩ := EStateM.Result.ok.inj again
    exact ⟨_, split, here.advance⟩
  · rw [read] at again
    obtain ⟨-, rfl⟩ := EStateM.Result.ok.inj again
    simp [fine] at failed

theorem readMembers_exact {name rest : List Byte} {count : Nat} {members result : Members}
    {r r' : Reader} (here : r.At rest) (read : readMembers name count members r = .ok result r')
    (fine : r'.err = none) :
    ∃ entries later, result.entries = members.entries ++ entries ∧ entries.length = count ∧
      rest = entries.flatMap encodeMember ++ later ∧ r'.At later := by
  induction count generalizing members r rest with
  | zero =>
    obtain ⟨rfl, rfl⟩ := EStateM.Result.ok.inj read
    exact ⟨[], rest, by simp, rfl, rfl, here⟩
  | succ count ih =>
    obtain ⟨member, r₁, readName, afterName⟩ := bind_ok read
    obtain ⟨body, r₂, readBody, afterBody⟩ := bind_ok afterName
    rw [run_bind (show Reading.err r₂ = .ok r₂.err r₂ from rfl)] at afterBody
    split at afterBody
    next failed =>
      obtain ⟨-, rfl⟩ := EStateM.Result.ok.inj afterBody
      simp [fine] at failed
    next notFailed =>
      have fine₂ : r₂.err = none := by simpa using notFailed
      have fine₁ : r₁.err = none := by
        by_contra failed
        have isSome : r₁.err.isSome = true := Option.isSome_iff_ne_none.mpr failed
        have again : Reading.bytes r₁ = .ok [] r₁ := slice_failed isSome Reading.bytesOf
        rw [readBody] at again
        obtain ⟨-, rfl⟩ := EStateM.Result.ok.inj again
        exact failed fine₂
      obtain ⟨rest₁, rfl, here₁⟩ := bytes_exact here readName fine₁
      obtain ⟨rest₂, rfl, here₂⟩ := bytes_exact here₁ readBody fine₂
      split at afterBody
      next free =>
        obtain ⟨entries, later, added, length, rfl, last⟩ := ih here₂ afterBody
        refine ⟨(member, body) :: entries, later, ?_, by rw [List.length_cons, length], ?_, last⟩
        · rw [added, Members.insert, List.append_assoc]
          rfl
        · rw [List.flatMap_cons, encodeMember, List.append_assoc, List.append_assoc]
      next => cases afterBody

theorem done_ok {r r' : Reader} (finished : Reading.done r = .ok () r') :
    r.err = none ∧ r.remaining = 0 := by
  constructor
  · by_contra failed
    obtain ⟨error, refused⟩ := done_refuses (.inl (Option.isSome_iff_ne_none.mpr failed))
    rw [refused] at finished
    cases finished
  · by_contra left
    obtain ⟨error, refused⟩ := done_refuses (r := r) (.inr left)
    rw [refused] at finished
    cases finished

theorem at_of_open {blob : List Byte} {r : Reader} (opened : «open» blob = .ok r) :
    Reader.At { r with expected := true } r.payload := by
  unfold «open» at opened
  dsimp only at opened
  iterate 5
    split at opened
    · cases opened
  obtain rfl := Except.ok.inj opened
  exact ⟨rfl, rfl, Nat.zero_le _, rfl⟩

/-- A set that opens fills its payload with as many members as it declares. -/
theorem openSet_exact {blob name : List Byte} {low high : Half} {set : MemberSet}
    (accepted : openSet blob name low high = .ok set) :
    ∃ r, «open» blob = .ok r ∧ r.payload = encodeMembers set.members.entries ∧
      set.members.entries.length < wordLimit := by
  obtain ⟨opened, last, isOpened, read⟩ := restoringVersion_ok accepted
  have here := at_of_open isOpened
  obtain ⟨word, r₁, readWord, afterWord⟩ := bind_ok read
  rw [run_bind (run_remaining r₁)] at afterWord
  obtain ⟨_, r₂, checked, afterCheck⟩ := bind_ok afterWord
  obtain ⟨members, r₃, readMembers, afterMembers⟩ := bind_ok afterCheck
  obtain ⟨_, r₄, finished, returned⟩ := bind_ok afterMembers
  obtain ⟨rfl, -⟩ := EStateM.Result.ok.inj returned
  obtain ⟨fine, left⟩ := done_ok finished
  have need := require_ok checked
  rw [need] at checked
  obtain ⟨-, rfl⟩ := EStateM.Result.ok.inj checked
  refine ⟨opened, isOpened, ?_⟩
  rcases unsigned_cases here 4 with ⟨four, first⟩ | ⟨_, r', first, failed⟩
  · have again : Reading.uint32 { opened with expected := true } =
        .ok (BitVec.ofNat 32 (ofBigEndian (opened.payload.take 4)))
          (Reader.advance 4 { opened with expected := true }) := run_bind first _
    rw [readWord] at again
    obtain ⟨rfl, rfl⟩ := EStateM.Result.ok.inj again
    have length : (opened.payload.take 4).length = 4 := by rw [List.length_take]; omega
    have bound := ofBigEndian_lt (opened.payload.take 4)
    rw [length] at bound
    have fits : ofBigEndian (opened.payload.take 4) < wordLimit := bound.trans_eq (by decide)
    obtain ⟨entries, later, added, count, split, there⟩ :=
      readMembers_exact (here.advance_drop four) readMembers fine
    rw [toNat_ofNat_of_lt_wordLimit fits] at count
    have isEntries : members.entries = entries := added
    have none_left : later = [] := by
      have remaining := there.remaining
      rw [left] at remaining
      exact List.eq_nil_of_length_eq_zero remaining.symm
    have header := bigEndian_ofBigEndian (opened.payload.take 4)
    rw [length, ← count] at header
    refine ⟨?_, by rw [isEntries, count]; exact fits⟩
    rw [isEntries, encodeMembers, header]
    rw [none_left, List.append_nil] at split
    rw [← split, List.take_append_drop]
  · have again : Reading.uint32 { opened with expected := true } = .ok 0 r' := run_bind first _
    rw [readWord] at again
    obtain ⟨rfl, rfl⟩ := EStateM.Result.ok.inj again
    obtain ⟨-, rfl⟩ := EStateM.Result.ok.inj readMembers
    simp [fine] at failed

theorem accepted_iff_no_problem {problems : List String} {error : String} :
    (if problems = [] then .ok () else .error error : Except String Unit) = .ok () ↔
      problems = [] := by
  split
  next noProblem => exact ⟨fun _ => noProblem, fun _ => rfl⟩
  next problem => exact ⟨(fun refused => nomatch refused), fun none_ => absurd none_ problem⟩

theorem problems_eq_nil {missing unexpected : List (List Byte)} {first second : String} :
    (if 0 < missing.length then [first] else []) ++
        (if 0 < unexpected.length then [second] else []) = [] ↔
      missing = [] ∧ unexpected = [] := by
  cases missing <;> cases unexpected <;> simp

/-- `Require` accepts the names of the set and no others. -/
theorem require_iff (expected : List (List Byte)) (set : MemberSet) :
    set.require expected = .ok () ↔ ∀ member, member ∈ expected ↔ member ∈ set.members.names := by
  have accepted : set.require expected = .ok () ↔
      (expected.filter fun name => decide (name ∉ set.members.names)) = [] ∧
        (set.members.names.filter fun name => decide (name ∉ expected)) = [] := by
    exact accepted_iff_no_problem.trans problems_eq_nil
  rw [accepted, List.filter_eq_nil_iff, List.filter_eq_nil_iff]
  constructor
  · rintro ⟨missing, unexpected⟩ member
    exact ⟨fun isExpected => by simpa using missing member isExpected,
      fun isMember => by simpa using unexpected member isMember⟩
  · intro same
    exact ⟨fun member isExpected => by simpa using (same member).mp isExpected,
      fun member isMember => by simpa using (same member).mpr isMember⟩

/-- The typed writes of a set. -/
def memberFields (entries : List (List Byte × List Byte)) : List Field :=
  entries.flatMap fun entry => [.string entry.1, .bytes entry.2]

theorem writeMembers_eq (entries : List (List Byte × List Byte)) (w : Writer) :
    SetWriter.writeMembers entries w = writeAll (memberFields entries) w := by
  induction entries generalizing w with
  | nil => rfl
  | cons entry entries ih => exact ih _

theorem encodeAll_memberFields (entries : List (List Byte × List Byte)) :
    encodeAll (memberFields entries) = entries.flatMap encodeMember := by
  induction entries with
  | nil => rfl
  | cons entry entries ih =>
    rw [memberFields, List.flatMap_cons, List.flatMap_cons, ← ih, encodeAll, List.flatMap_append]
    simp [encodeMember, Field.encode, encodeAll, memberFields]

theorem encodeMembers_length_of_perm {entries other : List (List Byte × List Byte)}
    (same : entries.Perm other) : (encodeMembers entries).length = (encodeMembers other).length := by
  simp only [encodeMembers, List.length_append, bigEndian_length,
    (same.flatMap_right encodeMember).length_eq]

/-- Every collection that fits gives a blob. -/
theorem blob_addAll_of_fits {entries : List (List Byte × List Byte)} {name : List Byte}
    (version : Half) (collection : Collection entries) (nonempty : name ≠ [])
    (short : name.length ≤ maxNameLen) (fits : (encodeMembers entries).length < wordLimit) :
    ∃ blob, (addAll entries (newSetWriter name version)).blob = .ok blob := by
  have sorted : collection.members.sorted.entries.Perm entries :=
    List.perm_insertionSort Members.nameOrder entries
  rw [← encodeMembers_length_of_perm sorted] at fits
  have need := members_need collection.members.sorted.entries
  simp only [encodeMembers, List.length_append, bigEndian_length, minMemberBytes] at fits need
  have all := @blob_writeAll name version (.uint32 (BitVec.ofNat 32
    collection.members.sorted.entries.length) :: memberFields collection.members.sorted.entries)
    nonempty short (by
      rw [encodeAll, List.flatMap_cons, ← encodeAll, encodeAll_memberFields]
      simp only [Field.encode, List.length_append, bigEndian_length]
      omega)
  rw [addAll_newSetWriter version nonempty collection]
  refine ⟨_, Eq.trans ?_ all⟩
  simp only [SetWriter.blob, writeMembers_eq]
  rw [if_neg (by omega)]
  rfl

/-- The order of the `Add`s leaves no trace; a set opens as the members it was
given, and `Require` accepts exactly their names; whatever opens holds as many
distinct members as it declares and nothing else, and nothing is made for more
members than the payload could hold. -/
theorem container (name : List Byte) (version : Half) :
    (∀ entries, Collection entries →
      (∀ other, entries.Perm other →
        (addAll entries (newSetWriter name version)).blob =
          (addAll other (newSetWriter name version)).blob) ∧
      (name ≠ [] → name.length ≤ maxNameLen → (encodeMembers entries).length < wordLimit →
        ∃ blob, (addAll entries (newSetWriter name version)).blob = .ok blob) ∧
      (∀ blob, (addAll entries (newSetWriter name version)).blob = .ok blob →
        ∀ low high, low ≤ version → version ≤ high →
          ∃ set, openSet blob name low high = .ok set ∧ set.members.entries.Perm entries ∧
            ∀ expected, set.require expected = .ok () ↔
              ∀ member, member ∈ expected ↔ member ∈ entries.map Prod.fst)) ∧
    (∀ blob low high set, openSet blob name low high = .ok set →
      ∃ r, «open» blob = .ok r ∧ r.payload = encodeMembers set.members.entries ∧
        set.members.entries.length < wordLimit ∧ set.members.names.Nodup) ∧
    (readSet name version = do
      let count ← readCount name
      let members ← readMembers name count {}
      Reading.done
      return { name, version, members }) ∧
    (∀ r r' count, readCount name r = .ok count r' → count * minMemberBytes ≤ r'.remaining) := by
  refine ⟨fun entries collection => ⟨fun other => blob_eq_of_perm name version collection,
    blob_addAll_of_fits version collection, ?_⟩, ?_, readSet_eq name version,
    fun _ _ _ => readCount_need⟩
  · intro blob taken low high lowBound highBound
    obtain ⟨nameFits, fits, rfl⟩ := blob_addAll collection taken
    have sorted : collection.members.sorted.entries.Perm entries :=
      List.perm_insertionSort Members.nameOrder entries
    refine ⟨_, openSet_frame nameFits fits lowBound highBound, sorted, fun expected => ?_⟩
    rw [require_iff]
    exact forall_congr' fun member => iff_congr Iff.rfl (sorted.map Prod.fst).mem_iff
  · intro blob low high set accepted
    obtain ⟨r, opened, payload, count⟩ := openSet_exact accepted
    exact ⟨r, opened, payload, count, set.members.distinct⟩

/-- Two members added the other way round open as the same set. -/
theorem container_pair :
    ∃ blob set, (addAll [(ascii "ram", [1]), (ascii "cpu", [])] (newSetWriter (ascii "machine") 2)).blob =
        .ok blob ∧
      (addAll [(ascii "cpu", []), (ascii "ram", [1])] (newSetWriter (ascii "machine") 2)).blob =
        .ok blob ∧
      openSet blob (ascii "machine") 1 2 = .ok set ∧
      set.require [ascii "cpu", ascii "ram"] = .ok () := by
  have collection : Collection [(ascii "ram", [1]), (ascii "cpu", [])] :=
    ⟨by decide, by decide⟩
  obtain ⟨sameBlob, written, opens⟩ := (container (ascii "machine") 2).1 _ collection
  obtain ⟨blob, taken⟩ := written (by decide) (by decide) (by decide)
  obtain ⟨set, opened, _, required⟩ := opens blob taken 1 2 (by decide) (by decide)
  refine ⟨blob, set, taken, ?_, opened, (required _).mpr ?_⟩
  · rw [← sameBlob [(ascii "cpu", []), (ascii "ram", [1])] (.swap _ _ _), taken]
  · intro member
    simp only [List.mem_cons, List.map_cons, List.map_nil, List.not_mem_nil, or_false]
    exact or_comm

end Snapcodec

end GoRetroTv
