import GoRetroTv.SnapshotCodecLaws
import Mathlib.Data.List.Sort
import Mathlib.Data.List.Lex

/-!
# Snapshot sets

`internal/platform/snapcodec/set.go`: one opaque blob for each named member.
The members are written in the order of their names, and a set is refused
unless it describes exactly the members its reader expects.
-/

namespace GoRetroTv

namespace Snapcodec

def minMemberBytes : Nat :=
  8

/-- Blobs under names, each name once. -/
structure Members where
  entries : List (List Byte × List Byte) := []
  distinct : (entries.map Prod.fst).Nodup := by decide

namespace Members

def names (members : Members) : List (List Byte) :=
  members.entries.map Prod.fst

/-- `Member`. -/
def find? (name : List Byte) (members : Members) : Option (List Byte) :=
  members.entries.lookup name

/-- One more member, under a name that is not taken. -/
def insert (name blob : List Byte) (members : Members) (fresh : name ∉ members.names) :
    Members where
  entries := members.entries ++ [(name, blob)]
  distinct := by
    rw [List.map_append, List.map_singleton, List.nodup_append]
    refine ⟨members.distinct, List.nodup_singleton _, ?_⟩
    intro other isOther same isSame
    rw [List.mem_singleton.mp isSame]
    rintro rfl
    exact fresh isOther

/-- The order the names are written in. -/
def nameOrder (first second : List Byte × List Byte) : Prop :=
  first.1.map BitVec.toNat ≤ second.1.map BitVec.toNat

instance : DecidableRel nameOrder := fun first second =>
  inferInstanceAs (Decidable (first.1.map BitVec.toNat ≤ second.1.map BitVec.toNat))

def sorted (members : Members) : Members where
  entries := members.entries.insertionSort nameOrder
  distinct :=
    (((List.perm_insertionSort nameOrder members.entries).map Prod.fst).nodup_iff).mpr
      members.distinct

end Members

/-- `sort.Strings`. -/
def sortNames (names : List (List Byte)) : List (List Byte) :=
  names.insertionSort fun first second => first.map BitVec.toNat ≤ second.map BitVec.toNat

structure SetWriter where
  name : List Byte
  version : Half
  members : Members := {}
  err : Failure := none

def newSetWriter (name : List Byte) (version : Half) : SetWriter :=
  if name = [] then { name, version, err := some "snapcodec: set writer name is empty" }
  else { name, version }

namespace SetWriter

/-- `Add`; its error is the writer's from then on. -/
def add (member blob : List Byte) (w : SetWriter) : SetWriter :=
  if w.err.isSome then w
  else if member = [] then
    { w with
      err := some s!"snapcodec: {text w.name}: a member with no name cannot be matched on restore" }
  else if fresh : member ∉ w.members.names then
    { w with members := w.members.insert member blob fresh }
  else
    { w with
      err := some <| s!"snapcodec: {text w.name}: snapshot describes a member twice: " ++
        quoted member }

def writeMembers (entries : List (List Byte × List Byte)) (w : Writer) : Writer :=
  entries.foldl (fun w entry => w |>.string entry.1 |>.bytes entry.2) w

/-- `Blob`. -/
def blob (w : SetWriter) : Except String (List Byte) :=
  match w.err with
  | some error => .error error
  | none =>
      let entries := w.members.sorted.entries
      if wordLimit ≤ entries.length then
        .error s!"snapcodec: {text w.name}: {lengthError entries.length 32}"
      else
        (newWriter w.name w.version
          |>.uint32 (BitVec.ofNat 32 entries.length)
          |> writeMembers entries).blob

end SetWriter

structure MemberSet where
  name : List Byte
  version : Half
  members : Members

/-- The members of a set, until a read fails. -/
def readMembers (name : List Byte) : Nat → Members → Reading Members
  | 0, members => pure members
  | count + 1, members => do
      let member ← Reading.string
      let body ← Reading.bytes
      if (← Reading.err).isSome then pure members
      else if fresh : member ∉ members.names then
        readMembers name count (members.insert member body fresh)
      else
        throw <| s!"snapcodec: {text name}: snapshot describes a member twice: " ++ quoted member

def Reading.remaining : Reading Nat := fun r =>
  .ok r.remaining r

def readSet (name : List Byte) (version : Half) : Reading MemberSet := do
  let count ← Reading.uint32
  let remain ← Reading.remaining
  Reading.require (decide (count.toNat * minMemberBytes ≤ remain)) <|
    s!"snapcodec: {text name}: snapshot blob is truncated: header claims {count.toNat} members, " ++
      s!"which need at least {count.toNat * minMemberBytes} payload bytes, and {remain} remain"
  let members ← readMembers name count.toNat {}
  Reading.done
  return { name, version, members }

/-- `OpenSet`. -/
def openSet (blob name : List Byte) (low high : Half) : Except String MemberSet :=
  restoringVersion blob name low high "" (readSet name)

namespace MemberSet

/-- Names in an error, in order and each once. -/
def listed (names : List (List Byte)) : String :=
  ", ".intercalate ((sortNames names.dedup).map text)

/-- `Require`: the set describes exactly the expected members. -/
def require (expected : List (List Byte)) (set : MemberSet) : Except String Unit :=
  let missing := expected.filter fun name => decide (name ∉ set.members.names)
  let unexpected := set.members.names.filter fun name => decide (name ∉ expected)
  let problems :=
    (if 0 < missing.length then
      [s!"snapcodec: {text set.name}: snapshot is missing a member: says nothing about " ++
        listed missing ++ ", and a member left holding whatever it happened to hold is a machine " ++
          "that looks right and is not"]
    else []) ++
    (if 0 < unexpected.length then
      [s!"snapcodec: {text set.name}: snapshot names a member that is not present: " ++
        listed unexpected]
    else [])
  if problems = [] then .ok () else .error ("\n".intercalate problems)

end MemberSet

end Snapcodec

end GoRetroTv
