import GoRetroTv.ChangingWorld
import GoRetroTv.FilePaths
import GoRetroTv.ListedSchedule
import GoRetroTv.NumberText

/-!
# Loading the schedule

`internal/multiplex/listings.go`: `LoadGuide`, `stampOf` and `Reload`, as programs that
look at a file system which others change between the looks.  What a schedule file says,
and the hash of the stamps, belong to a `Loader`.
-/

namespace GoRetroTv

namespace Time

def isDigit (byte : Byte) : Bool :=
  decide (0x30 ≤ byte ∧ byte ≤ 0x39)

/-- `isLeap`. -/
def isLeap (year : Nat) : Bool :=
  year % 4 == 0 && (year % 100 != 0 || year % 400 == 0)

/-- `daysIn`. -/
def daysIn (month year : Nat) : Nat :=
  if month = 2 then if isLeap year then 29 else 28
  else if month = 4 ∨ month = 6 ∨ month = 9 ∨ month = 11 then 30
  else 31

/-- `time.Parse(dateLayout, value)` reads a date. -/
def parsesAsDate : List Byte → Bool
  | [y₁, y₂, y₃, y₄, dash₁, m₁, m₂, dash₂, d₁, d₂] =>
      let number := fun digits : List Byte =>
        digits.foldl (fun value digit => value * 10 + (digit.toNat - 0x30)) 0
      let month := number [m₁, m₂]
      let day := number [d₁, d₂]
      [y₁, y₂, y₃, y₄, m₁, m₂, d₁, d₂].all isDigit && dash₁ == 0x2d && dash₂ == 0x2d &&
        decide (1 ≤ month ∧ month ≤ 12) &&
        decide (1 ≤ day ∧ day ≤ daysIn month (number [y₁, y₂, y₃, y₄]))
  | _ => false

end Time

/-- An entry that `os.ReadDir` lists. -/
structure DirEntry where
  name : List Byte
  isDir : Bool

/-- The file system at one moment, as `os.Stat`, `os.ReadDir` and `os.ReadFile` find a path
in it.  An editor's write, creation, rename or removal leaves another one. -/
structure Files where
  isDir : List Byte → Except String Bool
  entries : List Byte → Except String (List DirEntry)
  contents : List Byte → Except String (List Byte)
  /-- A directory has one entry of a name. -/
  distinct : ∀ {path listed}, entries path = .ok listed → (listed.map (·.name)).Nodup

namespace Multiplex

open Looking

/-- A program that stats and reads, and may fail. -/
abbrev Reading (α : Type) :=
  ExceptT String (Looking Files) α

/-- `os.Stat`, for `IsDir`. -/
def stat (path : List Byte) : Reading Bool :=
  attempt fun files => files.isDir path

/-- `os.ReadDir`. -/
def readDir (path : List Byte) : Reading (List DirEntry) :=
  attempt fun files => files.entries path

/-- `os.ReadFile`. -/
def readFile (path : List Byte) : Reading (List Byte) :=
  attempt fun files => files.contents path

/-- An error with its context in front. -/
def within {α : Type} (context : String) (reading : Reading α) : Reading α :=
  reading.adapt fun error => context ++ error

def defaultScheduleName : List Byte := ascii "default.json"

def jsonSuffix : List Byte := ascii ".json"

/-- What reading a schedule rests on: `json`'s decoder, `validate`, which sorts what it
accepts, and the hash of the stamps. -/
structure Loader (Schedule Stamp : Type) where
  decode : List Byte → Except String Schedule
  validate : Schedule → Except String Schedule
  hash : List Byte → Stamp

/-- The guide with where it came from, and the stamp of that. -/
structure LoadedGuide (Schedule Stamp : Type) extends Guide Schedule where
  source : List Byte
  stamp : Stamp

variable {Schedule Stamp : Type}

namespace Loader

variable (loader : Loader Schedule Stamp)

/-- `LoadListings`. -/
def loadListings (path : List Byte) : Reading Schedule := do
  let blob ← within "multiplex: read schedule: " (readFile path)
  let listings ← within s!"multiplex: parse {text path}: " (given (loader.decode blob))
  within s!"multiplex: {text path}: " (given (loader.validate listings))

end Loader

/-- The entries of a directory that are schedules, by name. -/
def scheduleNames (entries : List DirEntry) : List (List Byte) :=
  (entries.filter fun entry => !entry.isDir && jsonSuffix.isSuffixOf entry.name).map (·.name)

/-- `strings.TrimSuffix(name, ".json")` -/
def trimJson (name : List Byte) : List Byte :=
  if jsonSuffix.isSuffixOf name then name.take (name.length - jsonSuffix.length) else name

/-- What goes into the hash of a file: its name and length as well as its bytes. -/
def stampLine (name blob : List Byte) : List Byte :=
  name ++ 0x3a :: (decimal blob.length ++ 0x3a :: blob)

/-- `add`: a file, after what the hash has so far. -/
def addFile (sum path : List Byte) : Reading (List Byte) := do
  let blob ← readFile path
  return sum ++ stampLine (Filepath.base path) blob

/-- The files of a directory, into the hash. -/
def addFiles (dir : List Byte) : List (List Byte) → List Byte → Reading (List Byte)
  | [], sum => return sum
  | name :: names, sum => do
      let sum ← addFile sum (Filepath.join dir name)
      addFiles dir names sum

namespace Loader

variable (loader : Loader Schedule Stamp)

/-- `stampOf`: the fingerprint of what a schedule path holds. -/
def stampOf (path : List Byte) : Reading Stamp := do
  let isDir ← within "multiplex: schedule: " (stat path)
  if !isDir then
    let sum ← addFile [] path
    return loader.hash sum
  let entries ← readDir path
  let sum ← addFiles path (scheduleNames entries) []
  return loader.hash sum

/-- The schedules of a directory, into a guide. -/
def loadFiles (dir : List Byte) : List (List Byte) → Guide Schedule → Reading (Guide Schedule)
  | [], guide => return guide
  | name :: names, guide => do
      let listings ← loader.loadListings (Filepath.join dir name)
      if name = defaultScheduleName then
        loadFiles dir names { guide with fallback := some listings }
      else if Time.parsesAsDate (trimJson name) then
        loadFiles dir names { guide with byDate := (trimJson name, listings) :: guide.byDate }
      else
        throw (s!"multiplex: {text name} is neither {text defaultScheduleName} nor a " ++
          "YYYY-MM-DD.json date")

/-- `LoadGuide`. -/
def loadGuide (path : List Byte) : Reading (LoadedGuide Schedule Stamp) := do
  let isDir ← within "multiplex: schedule: " (stat path)
  if !isDir then
    let listings ← loader.loadListings path
    let stamp ← loader.stampOf path
    return { fallback := some listings, source := path, stamp := stamp }
  let entries ← within "multiplex: schedule directory: " (readDir path)
  let guide ← loader.loadFiles path (scheduleNames entries) {}
  if guide.fallback.isNone then
    throw (s!"multiplex: {text path} has no {text defaultScheduleName}, so any date without " ++
      "its own file would broadcast nothing")
  let stamp ← loader.stampOf path
  return { guide with source := path, stamp := stamp }

/-- `Reload`: whether the guide changed, or the error, and the guide as it is left. -/
def reload [DecidableEq Stamp] (g : LoadedGuide Schedule Stamp) :
    Looking Files (Except String Bool × LoadedGuide Schedule Stamp) := do
  match ← (loader.stampOf g.source).run with
  | .error error => return (.error error, g)
  | .ok stamp =>
      if stamp = g.stamp then
        return (.ok false, g)
      match ← (loader.loadGuide g.source).run with
      | .error error => return (.error error, g)
      | .ok fresh =>
          return (.ok true,
            { g with byDate := fresh.byDate, fallback := fresh.fallback, stamp := fresh.stamp })

end Loader

end Multiplex

end GoRetroTv
