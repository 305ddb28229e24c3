import GoRetroTv.DramMemory
import GoRetroTv.GuardedRuns

/-!
# The incremental digest of DRAM

`internal/platform/statehash/statehash.go`: a digest for each page, their
exclusive-or, and the dirty pages folded in before it is told.  A page the
memory does not mark keeps the digest it had.
-/

namespace GoRetroTv

namespace Memory

open Snapcodec Cpu

namespace Ram

/-- `Pages`. -/
def pageCount : Nat :=
  dramSize / dirtyPageLen

/-- A page is marked. -/
def isDirty (page : Nat) (r : Ram) : Bool :=
  r.dirty (BitVec.ofNat 7 (page / 64)) &&& (1 : DoubleWord) <<< (page % 64) != 0

/-- The contents of a page. -/
def pageBytes (page : Nat) (r : Ram) : List Byte :=
  (List.range dirtyPageLen).map fun i => r.bytes (BitVec.ofNat 25 (page * dirtyPageLen + i))

def clearDirty (r : Ram) : Ram :=
  { r with dirty := fun _ => 0 }

/-- `MarkAllDirty`. -/
def markAllDirty (r : Ram) : Ram :=
  (List.range pageCount).foldl
    (fun r p =>
      let slot : BitVec 7 := BitVec.ofNat 7 (p / 64)
      { r with dirty := Function.update r.dirty slot (r.dirty slot ||| (1 : DoubleWord) <<< (p % 64)) })
    r

/-- `EachDirtyPage`, folding over the marked pages in address order. -/
def eachDirtyPage {α : Type} (visit : α → Nat → List Byte → α) (start : α) (r : Ram) : α :=
  (List.range pageCount).foldl
    (fun state page => if r.isDirty page then visit state page (r.pageBytes page) else state) start

/-- `Reset` zeroes the memory and forgets its marks. -/
def reset (_ : Ram) : Ram :=
  {}

/-- One page marked. -/
def mark (r : Ram) (page : Nat) : Ram :=
  let slot : BitVec 7 := BitVec.ofNat 7 (page / 64)
  { r with
    dirty := Function.update r.dirty slot (r.dirty slot ||| (1 : DoubleWord) <<< (page % 64)) }

theorem pageCount_eq : pageCount = 8192 := by
  simp only [pageCount, dramSize, dirtyPageLen, Nat.reducePow, Nat.reduceMul, Nat.reduceDiv]

-- A run over the pages is argued about, never computed.
attribute [irreducible] pageCount

theorem markDirty_eq (off : Word) (n : Nat) (r : Ram) :
    r.markDirty off n =
      (List.range' (off.toNat / dirtyPageLen)
        ((off.toNat + n - 1) / dirtyPageLen + 1 - off.toNat / dirtyPageLen)).foldl mark r :=
  rfl

theorem markAllDirty_eq (r : Ram) : r.markAllDirty = (List.range pageCount).foldl mark r :=
  rfl

theorem shiftLeft_one (place : Nat) : (1 : DoubleWord) <<< place = BitVec.twoPow 64 place :=
  (BitVec.twoPow_eq 64 place).symm

theorem isDirty_eq (page : Nat) (r : Ram) :
    r.isDirty page = (r.dirty (BitVec.ofNat 7 (page / 64))).getLsbD (page % 64) := by
  have small : page % 64 < 64 := Nat.mod_lt _ (by decide)
  rw [isDirty, shiftLeft_one, BitVec.and_twoPow]
  cases (r.dirty (BitVec.ofNat 7 (page / 64))).getLsbD (page % 64) with
  | false => simp
  | true =>
    have nonzero : BitVec.twoPow 64 (page % 64) ≠ 0 := by
      intro zero
      have bit := congrArg (fun v => v.getLsbD (page % 64)) zero
      simp [small] at bit
    simpa using nonzero

theorem isDirty_mark {page other : Nat} (pageFits : page < pageCount) (otherFits : other < pageCount)
    (r : Ram) : (r.mark page).isDirty other = (r.isDirty other || page == other) := by
  rw [pageCount_eq] at pageFits otherFits
  rw [isDirty_eq, isDirty_eq]
  dsimp only [mark]
  by_cases sameSlot : page / 64 = other / 64
  · rw [← sameSlot, Function.update_self, BitVec.getLsbD_or, shiftLeft_one, BitVec.getLsbD_twoPow]
    have samePage : (page = other) ↔ page % 64 = other % 64 := by omega
    have small : page % 64 < 64 := Nat.mod_lt _ (by decide)
    by_cases same : page = other
    · simp [same, Nat.mod_lt]
    · have bits : page % 64 ≠ other % 64 := fun equal => same (samePage.mpr equal)
      simp [same, bits]
  · have slots : BitVec.ofNat 7 (other / 64) ≠ BitVec.ofNat 7 (page / 64) := by
      intro equal
      have values := congrArg BitVec.toNat equal
      simp only [BitVec.toNat_ofNat] at values
      omega
    have pages : page ≠ other := fun equal => sameSlot (by rw [equal])
    rw [Function.update_of_ne slots]
    simp [pages]

/-- Marking pages marks them and no others. -/
theorem isDirty_foldl_mark {pages : List Nat} {other : Nat} (fit : ∀ page ∈ pages, page < pageCount)
    (otherFits : other < pageCount) (r : Ram) :
    (pages.foldl mark r).isDirty other = (r.isDirty other || decide (other ∈ pages)) := by
  induction pages generalizing r with
  | nil => simp
  | cons page pages ih =>
    rw [List.foldl_cons, ih (fun later member => fit later (List.mem_cons_of_mem _ member)),
      isDirty_mark (fit page List.mem_cons_self) otherFits, Bool.or_assoc]
    congr 1
    by_cases same : page = other
    · simp [same]
    · simp [same, Ne.symm same]

theorem foldl_mark_bytes (pages : List Nat) (r : Ram) : (pages.foldl mark r).bytes = r.bytes := by
  induction pages generalizing r with
  | nil => rfl
  | cons page pages ih => exact ih _

/-- Bytes change only in pages that are marked, and marks stay. -/
structure Marks (r after : Ram) : Prop where
  keeps : ∀ page < pageCount, r.isDirty page = true → after.isDirty page = true
  changed : ∀ place : BitVec 25, after.bytes place = r.bytes place ∨
    after.isDirty (place.toNat / dirtyPageLen) = true

theorem place_page_lt (place : BitVec 25) : place.toNat / dirtyPageLen < pageCount := by
  rw [pageCount_eq, dirtyPageLen]
  have := place.isLt
  omega

namespace Marks

theorem trans {r middle after : Ram} (first : Marks r middle) (second : Marks middle after) :
    Marks r after where
  keeps page fits dirty := second.keeps page fits (first.keeps page fits dirty)
  changed place := by
    rcases second.changed place with same | dirty
    · rw [same]
      rcases first.changed place with same | dirty
      · exact .inl same
      · exact .inr (second.keeps _ (place_page_lt place) dirty)
    · exact .inr dirty

/-- Bytes are written, and then the pages of a span that covers them marked. -/
theorem of_markDirty {off : Word} {n : Nat} {r written : Ram} (positive : 0 < n)
    (inside : off.toNat + n ≤ dramSize) (sameMarks : written.dirty = r.dirty)
    (changed : ∀ place : BitVec 25, written.bytes place = r.bytes place ∨
      off.toNat ≤ place.toNat ∧ place.toNat < off.toNat + n) :
    Marks r (written.markDirty off n) := by
  have fit : ∀ page ∈ List.range' (off.toNat / dirtyPageLen)
      ((off.toNat + n - 1) / dirtyPageLen + 1 - off.toNat / dirtyPageLen), page < pageCount := by
    intro page member
    rw [List.mem_range'_1] at member
    rw [pageCount_eq]
    simp only [dramSize_eq, dirtyPageLen] at inside member ⊢
    omega
  have same (page : Nat) : written.isDirty page = r.isDirty page := by
    rw [isDirty, isDirty, sameMarks]
  rw [markDirty_eq]
  refine ⟨fun page fits dirty => ?_, fun place => ?_⟩
  · rw [isDirty_foldl_mark fit fits, same, dirty, Bool.true_or]
  · rw [foldl_mark_bytes, isDirty_foldl_mark fit (place_page_lt place)]
    rcases changed place with same | ⟨below, above⟩
    · exact .inl same
    · have member : place.toNat / dirtyPageLen ∈ List.range' (off.toNat / dirtyPageLen)
          ((off.toNat + n - 1) / dirtyPageLen + 1 - off.toNat / dirtyPageLen) := by
        rw [List.mem_range'_1]
        simp only [dirtyPageLen]
        omega
      exact .inr (by simp [member])

/-- A byte that is poked lies at its own place. -/
theorem changed_poke {off : Word} (inside : off.toNat < dramSize) (byte : Byte) (r : Ram)
    (place : BitVec 25) :
    (r.poke off byte).bytes place = r.bytes place ∨ place.toNat = off.toNat := by
  unfold poke
  dsimp only
  by_cases here : place = off.setWidth 25
  · right
    rw [dramSize_eq] at inside
    rw [here, BitVec.toNat_setWidth]
    exact Nat.mod_eq_of_lt inside
  · exact .inl (Function.update_of_ne here _ _)

theorem writeStraddling (off : Word) (size : Size) (value : Word) (r : Ram) :
    Marks r (r.writeStraddling off size value) := by
  unfold Ram.writeStraddling
  refine List.foldlRecOn (List.range size.bytes) _ (motive := fun g : Ram => Marks r g)
    ⟨fun _ _ dirty => dirty, fun _ => .inl rfl⟩ ?_
  intro g marked i _
  dsimp only
  split
  next inside =>
    refine marked.trans (of_markDirty Nat.one_pos (by omega) rfl fun place => ?_)
    rcases changed_poke inside (byteOf size value i) g place with same | here
    · exact .inl same
    · exact .inr (by omega)
  next => exact marked

/-- Every write marks the pages it touches. -/
theorem write (off : Word) (size : Size) (value : Word) (r : Ram) :
    Marks r (r.write off size value) := by
  unfold Ram.write
  split
  next inside =>
    have written := List.foldlRecOn (List.range size.bytes)
      (fun (g : Ram) i => g.poke (off + BitVec.ofNat 32 i) (byteOf size value i))
      (motive := fun g : Ram => g.dirty = r.dirty ∧ ∀ place : BitVec 25,
        g.bytes place = r.bytes place ∨
          off.toNat ≤ place.toNat ∧ place.toNat < off.toNat + size.bytes)
      (b := r) ⟨rfl, fun _ => .inl rfl⟩ (by
        intro g ⟨sameMarks, changed⟩ i member
        have small : i < size.bytes := List.mem_range.mp member
        have address : (off + BitVec.ofNat 32 i).toNat = off.toNat + i := by
          have words := off.isLt
          rw [dramSize_eq] at inside
          rw [BitVec.toNat_add, BitVec.toNat_ofNat]
          omega
        refine ⟨sameMarks, fun place => ?_⟩
        have insidePlace : (off + BitVec.ofNat 32 i).toNat < dramSize := by omega
        rcases changed_poke insidePlace (byteOf size value i) g place with same | here
        · rw [same]
          exact changed place
        · exact .inr (by omega))
    exact of_markDirty (by cases size <;> decide) inside written.1 written.2
  next => exact writeStraddling off size value r

end Marks

theorem pageBytes_eq {page : Nat} {r after : Ram} (fits : page < pageCount) (marked : Marks r after)
    (clean : after.isDirty page = false) : after.pageBytes page = r.pageBytes page := by
  unfold pageBytes
  refine List.map_congr_left fun i member => ?_
  have small := List.mem_range.mp member
  rw [pageCount_eq] at fits
  have isPage : (BitVec.ofNat 25 (page * dirtyPageLen + i)).toNat / dirtyPageLen = page := by
    simp only [dirtyPageLen] at small ⊢
    rw [BitVec.toNat_ofNat, Nat.mod_eq_of_lt (by omega)]
    omega
  refine (marked.changed _).resolve_right ?_
  rw [isPage, clean]
  simp

theorem isDirty_markAllDirty {page : Nat} (fits : page < pageCount) (r : Ram) :
    r.markAllDirty.isDirty page = true := by
  rw [markAllDirty_eq, isDirty_foldl_mark (fun page member => List.mem_range.mp member) fits]
  simp [fits]

theorem clearDirty_bytes (r : Ram) : r.clearDirty.bytes = r.bytes := by
  rw [clearDirty]

theorem markAllDirty_bytes (r : Ram) : r.markAllDirty.bytes = r.bytes := by
  rw [markAllDirty_eq, foldl_mark_bytes]

theorem pageBytes_clearDirty (page : Nat) (r : Ram) :
    r.clearDirty.pageBytes page = r.pageBytes page := by
  rw [pageBytes, pageBytes, clearDirty_bytes]

end Ram

end Memory

namespace Statehash

open Memory Cpu

def fnvOffset : Word :=
  2166136261

def fnvPrime : Word :=
  16777619

def mixOctet (v x : Word) : Word :=
  (v ^^^ (x &&& 0xff)) * fnvPrime

def mixByte (v : Word) (b : Byte) : Word :=
  mixOctet v (b.setWidth 32)

/-- Most significant byte first. -/
def mixWord (v w : Word) : Word :=
  let v := mixOctet v (w >>> 24)
  let v := mixOctet v (w >>> 16)
  let v := mixOctet v (w >>> 8)
  mixOctet v w

def pageDigest (page : Word) (data : List Byte) : Word :=
  data.foldl mixByte (mixWord fnvOffset page)

/-- The digest of a memory, from its contents alone. -/
def digest (r : Ram) : Word :=
  (List.range Ram.pageCount).foldl
    (fun total page => total ^^^ pageDigest (BitVec.ofNat 32 page) (r.pageBytes page)) 0

structure Hasher where
  pages : List Word
  total : Word := 0
  err : Option String := none

namespace Hasher

/-- One dirty page, folded in. -/
def foldPage (h : Hasher) (page : Nat) (data : List Byte) : Hasher :=
  if h.pages.length ≤ page then
    match h.err with
    | some _ => h
    | none => { h with
        err := some <| s!"statehash: DRAM offered page {page} and this hasher was built " ++
          s!"for {h.pages.length}, so the digest no longer covers the whole machine" }
  else
    let d := pageDigest (BitVec.ofNat 32 page) data
    { h with
      pages := h.pages.set page d
      total := h.total ^^^ h.pages.getD page 0 ^^^ d }

/-- `fold`, which clears the memory's marks. -/
def fold (h : Hasher) (r : Ram) : Hasher × Ram :=
  (r.eachDirtyPage foldPage h, r.clearDirty)

/-- `Rebuild`. -/
def rebuild (h : Hasher) (r : Ram) : Hasher × Ram :=
  fold { h with
    pages := h.pages.map fun _ => 0
    total := 0 } r.markAllDirty

/-- `New`. -/
def new (r : Ram) : Hasher × Ram :=
  rebuild { pages := List.replicate Ram.pageCount 0 } r

/-- `RAMDigest`. -/
def ramDigest (h : Hasher) (r : Ram) : Word × Hasher × Ram :=
  let folded := h.fold r
  (folded.1.total, folded)

end Hasher

/-- What is done to the memory and its hasher. -/
inductive Action where
  | read (off : Word) (size : Size)
  | write (off : Word) (size : Size) (value : Word)
  | reset
  | restore (blob : List Byte)
  | rebuild
  | ramDigest

/-- A hasher over its memory. -/
abbrev State := Hasher × Ram

/-- A restore is followed by `Rebuild`; one that is refused changes nothing. -/
def perform (s : State) : Action → State
  | .read off size => (s.1, (s.2.read off size).2)
  | .write off size value => (s.1, s.2.write off size value)
  | .reset => (s.1, s.2.reset)
  | .restore blob =>
      match Ram.restore blob with
      | .ok r => s.1.rebuild r
      | .error _ => s
  | .rebuild => s.1.rebuild s.2
  | .ramDigest => (s.1.ramDigest s.2).2

/-- A digest that is asked for is the digest of the contents. -/
def DigestCorrect (s : State) : Action → Prop
  | .ramDigest => (s.1.ramDigest s.2).1 = digest s.2
  | _ => True

/-- The memory is reset only while every page's digest is that of a blank page. -/
def ResetsBlank (s : State) : Action → Prop
  | .reset => ∀ page < Ram.pageCount,
      s.1.pages.getD page 0 = pageDigest (BitVec.ofNat 32 page) (s.2.reset.pageBytes page)
  | _ => True

/-- The exclusive-or of some digests. -/
def xorAll (digests : List Word) : Word :=
  digests.foldr (· ^^^ ·) 0

theorem xorAll_set {digests : List Word} {page : Nat} (fits : page < digests.length) (d : Word) :
    xorAll (digests.set page d) = xorAll digests ^^^ digests.getD page 0 ^^^ d := by
  induction digests generalizing page with
  | nil => cases fits
  | cons first digests ih =>
    cases page with
    | zero =>
      simp only [List.set_cons_zero, xorAll, List.foldr_cons, List.getD_cons_zero]
      rw [BitVec.xor_comm first, BitVec.xor_assoc _ first first, BitVec.xor_self, BitVec.xor_zero,
        BitVec.xor_comm]
    | succ page =>
      have rest := ih (Nat.lt_of_succ_lt_succ fits)
      simp only [xorAll] at rest
      simp only [List.set_cons_succ, xorAll, List.foldr_cons, List.getD_cons_succ, rest,
        BitVec.xor_assoc]

theorem xorAll_zeros (digests : List Word) : xorAll (digests.map fun _ => 0) = 0 := by
  induction digests with
  | nil => rfl
  | cons first digests ih =>
    rw [List.map_cons, xorAll, List.foldr_cons, ← xorAll, ih]
    rfl

theorem foldl_xor (value : Nat → Word) (pages : List Nat) (start : Word) :
    pages.foldl (fun total page => total ^^^ value page) start =
      start ^^^ xorAll (pages.map value) := by
  induction pages generalizing start with
  | nil => simp [xorAll]
  | cons page pages ih =>
    rw [List.foldl_cons, ih, List.map_cons, xorAll, xorAll, List.foldr_cons, BitVec.xor_assoc]

/-- The digest of a page as the memory holds it. -/
def pageDigestOf (r : Ram) (page : Nat) : Word :=
  pageDigest (BitVec.ofNat 32 page) (r.pageBytes page)

/-- The digests of all pages. -/
def Hasher.Current (h : Hasher) (r : Ram) : Prop :=
  h.pages = (List.range Ram.pageCount).map (pageDigestOf r) ∧ h.total = xorAll h.pages

theorem digest_eq (r : Ram) : digest r = xorAll ((List.range Ram.pageCount).map (pageDigestOf r)) := by
  have folded := foldl_xor (pageDigestOf r) (List.range Ram.pageCount) 0
  exact folded.trans (by simp)

theorem Hasher.Current.total {h : Hasher} {r : Ram} (current : h.Current r) :
    h.total = digest r := by
  rw [digest_eq, ← current.1]
  exact current.2

/-- What stands between two digests: unmarked pages have their own digest. -/
structure Tracked (s : State) : Prop where
  length : s.1.pages.length = Ram.pageCount
  total : s.1.total = xorAll s.1.pages
  page : ∀ page < Ram.pageCount, s.2.isDirty page = true ∨
    s.1.pages.getD page 0 = pageDigestOf s.2 page

/-- The pages below one have been folded in. -/
structure FoldedBelow (r : Ram) (bound : Nat) (h : Hasher) : Prop where
  length : h.pages.length = Ram.pageCount
  total : h.total = xorAll h.pages
  page : ∀ page < Ram.pageCount, page < bound ∨ r.isDirty page = false →
    h.pages.getD page 0 = pageDigestOf r page

theorem FoldedBelow.foldPage {r : Ram} {bound : Nat} {h : Hasher} (folded : FoldedBelow r bound h)
    (inside : bound < Ram.pageCount) :
    FoldedBelow r (bound + 1) (h.foldPage bound (r.pageBytes bound)) := by
  have fits : bound < h.pages.length := by
    rw [folded.length]
    exact inside
  rw [Hasher.foldPage, if_neg (by omega)]
  refine ⟨?_, ?_, fun page pageFits covered => ?_⟩
  · rw [List.length_set, folded.length]
  · rw [xorAll_set fits, folded.total]
  · dsimp only
    rw [List.getD_eq_getElem?_getD, List.getElem?_set]
    split
    next isPage =>
      subst isPage
      rw [Option.getD_some, pageDigestOf]
    next other =>
      rw [← List.getD_eq_getElem?_getD]
      exact folded.page page pageFits (covered.imp_left fun below => by omega)

theorem FoldedBelow.skip {r : Ram} {bound : Nat} {h : Hasher} (folded : FoldedBelow r bound h)
    (clean : r.isDirty bound = false) : FoldedBelow r (bound + 1) h := by
  refine ⟨folded.length, folded.total, fun page pageFits covered => folded.page page pageFits ?_⟩
  rcases covered with below | isClean
  · by_cases same : page = bound
    · exact .inr (same ▸ clean)
    · exact .inl (by omega)
  · exact .inr isClean

theorem foldedBelow_eachDirtyPage {r : Ram} {h : Hasher} (tracked : Tracked (h, r)) {bound : Nat}
    (inside : bound ≤ Ram.pageCount) :
    FoldedBelow r bound ((List.range bound).foldl
      (fun state page =>
        if r.isDirty page then state.foldPage page (r.pageBytes page) else state) h) := by
  induction bound with
  | zero =>
    refine ⟨tracked.length, tracked.total, fun page fits covered => ?_⟩
    have clean : r.isDirty page = false := covered.resolve_left (Nat.not_lt_zero _)
    exact (tracked.page page fits).resolve_left (by simp [clean])
  | succ bound ih =>
    have before := ih (by omega)
    rw [List.range_succ, List.foldl_append, List.foldl_cons, List.foldl_nil]
    split
    next => exact before.foldPage (by omega)
    next clean => exact before.skip (by simpa using clean)

/-- Folding brings every page's digest up to date. -/
theorem Tracked.fold {h : Hasher} {r : Ram} (tracked : Tracked (h, r)) :
    (h.fold r).1.Current r := by
  have folded : FoldedBelow r Ram.pageCount (h.fold r).1 := by
    rw [Hasher.fold, Ram.eachDirtyPage]
    exact foldedBelow_eachDirtyPage tracked (le_refl Ram.pageCount)
  refine ⟨?_, folded.total⟩
  refine List.ext_getElem ?_ fun page fits _ => ?_
  · rw [List.length_map, List.length_range]
    exact folded.length
  · have pageFits : page < Ram.pageCount := by
      rw [← folded.length]
      exact fits
    have value := folded.page page pageFits (.inl pageFits)
    rw [List.getElem_map, List.getElem_range, ← value]
    rw [List.getD_eq_getElem?_getD, List.getElem?_eq_getElem fits, Option.getD_some]

/-- A hasher that is up to date is so for a memory with the same contents. -/
theorem tracked_of_current {h : Hasher} {r : Ram} (current : h.Current r) (after : Ram)
    (same : ∀ page < Ram.pageCount, after.pageBytes page = r.pageBytes page) :
    Tracked (h, after) := by
  refine ⟨?_, current.2, fun page fits => .inr ?_⟩
  · simp only [current.1, List.length_map, List.length_range]
  · simp only [current.1, List.getD_eq_getElem?_getD, List.getElem?_map,
      List.getElem?_range fits, Option.map_some, Option.getD_some, pageDigestOf, same page fits]

/-- What is folded is tracked, with the marks gone. -/
theorem Tracked.fold_clear {h : Hasher} {r : Ram} (tracked : Tracked (h, r)) :
    Tracked (h.fold r) := by
  have after := tracked_of_current tracked.fold r.clearDirty
    fun page _ => Ram.pageBytes_clearDirty page r
  exact after

/-- A rebuild starts with every page marked and no digest. -/
theorem tracked_markAllDirty {h : Hasher} (length : h.pages.length = Ram.pageCount) (r : Ram) :
    Tracked ({ h with
      pages := h.pages.map fun _ => 0
      total := 0 }, r.markAllDirty) := by
  refine ⟨?_, (xorAll_zeros h.pages).symm, fun page fits => .inl ?_⟩
  · rw [List.length_map, length]
  · exact Ram.isDirty_markAllDirty fits r

theorem current_rebuild {h : Hasher} (length : h.pages.length = Ram.pageCount) (r : Ram) :
    (h.rebuild r).1.Current r.markAllDirty :=
  (tracked_markAllDirty length r).fold

theorem Tracked.rebuild {h : Hasher} (length : h.pages.length = Ram.pageCount) (r : Ram) :
    Tracked (h.rebuild r) :=
  (tracked_markAllDirty length r).fold_clear

theorem Tracked.write {h : Hasher} {r after : Ram} (tracked : Tracked (h, r))
    (marks : Ram.Marks r after) : Tracked (h, after) := by
  refine ⟨tracked.length, tracked.total, fun page fits => ?_⟩
  cases isDirty : after.isDirty page with
  | true => exact .inl rfl
  | false =>
    right
    have clean : r.isDirty page = false := by
      by_contra dirty
      have stays := marks.keeps page fits (by simpa using dirty)
      rw [isDirty] at stays
      cases stays
    rw [pageDigestOf, Ram.pageBytes_eq fits marks isDirty]
    exact (tracked.page page fits).resolve_left (by simp [clean])

theorem Tracked.perform {s : State} {action : Action} (tracked : Tracked s)
    (blank : ResetsBlank s action) : Tracked (perform s action) := by
  cases action with
  | read off size =>
    have same : (s.2.read off size).2.bytes = s.2.bytes ∧ (s.2.read off size).2.dirty = s.2.dirty := by
      unfold Ram.read
      split <;> exact ⟨rfl, rfl⟩
    refine Tracked.write tracked ⟨fun page _ dirty => ?_, fun place => .inl (by rw [same.1])⟩
    rwa [Ram.isDirty, same.2, ← Ram.isDirty]
  | write off size value => exact Tracked.write tracked (.write off size value s.2)
  | reset => exact ⟨tracked.length, tracked.total, fun page fits => .inr (blank page fits)⟩
  | restore blob =>
    unfold Statehash.perform
    dsimp only
    split
    next r _ => exact .rebuild tracked.length r
    next => exact tracked
  | rebuild => exact .rebuild tracked.length s.2
  | ramDigest => exact tracked.fold_clear

/-- A digest of a tracked memory is the digest of its contents. -/
theorem Tracked.digestCorrect {s : State} (tracked : Tracked s) (action : Action) :
    DigestCorrect s action := by
  cases action with
  | ramDigest => exact tracked.fold.total
  | _ => trivial

theorem tracked_new (r : Ram) : Tracked (Hasher.new r) :=
  .rebuild (List.length_replicate) r

/-- In every run that resets the memory only while the digests are those of blank
pages, each digest is that of the contents. -/
theorem digests_correct (r : Ram) {actions : List Action}
    (blank : Runs.Along perform ResetsBlank (Hasher.new r) actions) :
    Runs.Along perform DigestCorrect (Hasher.new r) actions :=
  blank.shows (tracked_new r) (fun _ _ => Tracked.perform)
    fun _ action tracked _ => tracked.digestCorrect action

theorem current_new (r : Ram) : (Hasher.new r).1.Current r.markAllDirty :=
  current_rebuild List.length_replicate r

/-- A memory that is reset while it is blank. -/
theorem reset_blank_correct :
    Runs.Along perform DigestCorrect (Hasher.new {})
      [.reset, .write 0xffe .word 1, .ramDigest] := by
  refine digests_correct {} ⟨fun page fits => ?_, trivial, trivial, trivial⟩
  rw [(current_new {}).1, List.getD_eq_getElem?_getD, List.getElem?_map, List.getElem?_range fits,
    Option.map_some, Option.getD_some, pageDigestOf, Ram.pageBytes, Ram.pageBytes,
    Ram.markAllDirty_bytes, Ram.reset]

theorem mixByte_injective (b : Byte) : Function.Injective fun v => mixByte v b := by
  intro first second same
  -- the prime is odd, so multiplying by it can be undone
  have inverse : fnvPrime * 899433627 = 1 := by decide
  have undone := congrArg (· * (899433627 : Word)) same
  simp only [mixByte, mixOctet, BitVec.mul_assoc, inverse] at undone
  have cancelled : first ^^^ (b.setWidth 32 &&& 0xff) = second ^^^ (b.setWidth 32 &&& 0xff) := by
    simpa using undone
  exact (BitVec.xor_left_inj _).mp cancelled

theorem foldl_mixByte_injective (data : List Byte) :
    Function.Injective fun v => data.foldl mixByte v := by
  induction data with
  | nil => exact fun _ _ same => same
  | cons b data ih => exact fun _ _ same => mixByte_injective b (ih same)

theorem isDirty_blank (page : Nat) : Ram.isDirty page {} = false := by
  rw [Ram.isDirty_eq]
  exact BitVec.getLsbD_zero

theorem fold_blank (h : Hasher) : (h.fold {}).1 = h := by
  have clean (pages : List Nat) : pages.foldl (fun state page =>
      if Ram.isDirty page {} then Hasher.foldPage state page (Ram.pageBytes page {}) else state) h =
        h := by
    induction pages with
    | nil => rfl
    | cons page pages ih =>
      rw [List.foldl_cons, isDirty_blank, if_neg (by simp)]
      exact ih
  exact clean _

theorem rebuild_snd (h : Hasher) (r : Ram) : (h.rebuild r).2 = r.markAllDirty.clearDirty := by
  rw [Hasher.rebuild, Hasher.fold]

theorem xorAll_cons (d : Word) (digests : List Word) :
    xorAll (d :: digests) = d ^^^ xorAll digests :=
  rfl

/-- A memory with one byte written at its start. -/
def oneByte : Ram :=
  (Hasher.new {}).2.write 0 .byte 1

theorem new_bytes (r : Ram) : (Hasher.new r).2.bytes = r.bytes := by
  rw [Hasher.new, rebuild_snd, Ram.clearDirty_bytes, Ram.markAllDirty_bytes]

theorem oneByte_bytes (place : BitVec 25) : oneByte.bytes place = if place = 0 then 1 else 0 := by
  have inside : (0 : Word).toNat + Size.byte.bytes ≤ dramSize := by
    rw [dramSize_eq]
    simp [Size.bytes]
  have address : ((0 : Word) + BitVec.ofNat 32 0).setWidth 25 = 0 := by decide
  have byte : Ram.byteOf .byte 1 0 = 1 := by decide
  rw [oneByte, Ram.write, if_pos inside, Ram.markDirty_eq, Ram.foldl_mark_bytes]
  simp only [Size.bytes, List.range_one, List.foldl_cons, List.foldl_nil, Ram.poke, new_bytes,
    Function.update_apply, address, byte]

theorem pageBytes_zero (r : Ram) :
    r.pageBytes 0 =
      r.bytes 0 :: (List.range 4095).map fun i => r.bytes (BitVec.ofNat 25 (i + 1)) := by
  rw [Ram.pageBytes, show dirtyPageLen = 4095 + 1 from rfl, List.range_succ_eq_map, List.map_cons,
    List.map_map]
  simp only [Function.comp_def, Nat.zero_mul, Nat.zero_add, Nat.succ_eq_add_one]
  rw [show BitVec.ofNat 25 0 = 0 from rfl]

theorem digest_split (r : Ram) :
    digest r =
      pageDigestOf r 0 ^^^ xorAll ((List.range 8191).map fun page => pageDigestOf r (page + 1)) := by
  rw [digest_eq, Ram.pageCount_eq, List.range_succ_eq_map, List.map_cons, List.map_map, xorAll_cons]
  simp only [Function.comp_def, Nat.succ_eq_add_one]

/-- The byte shows in the digest. -/
theorem digest_oneByte_ne : digest oneByte ≠ digest {} := by
  intro same
  have later : ((List.range 8191).map fun page => pageDigestOf oneByte (page + 1)) =
      (List.range 8191).map fun page => pageDigestOf {} (page + 1) := by
    refine List.map_congr_left fun page member => ?_
    have small := List.mem_range.mp member
    rw [pageDigestOf, pageDigestOf, Ram.pageBytes, Ram.pageBytes]
    refine congrArg (pageDigest _) (List.map_congr_left fun i isPlace => ?_)
    have inPage := List.mem_range.mp isPlace
    rw [oneByte_bytes, if_neg]
    intro zero
    have value := congrArg BitVec.toNat zero
    simp only [dirtyPageLen] at value inPage
    rw [BitVec.toNat_ofNat, Nat.mod_eq_of_lt (by omega)] at value
    simp at value
  rw [digest_split, digest_split, later, BitVec.xor_left_inj, pageDigestOf, pageDigestOf,
    pageBytes_zero, pageBytes_zero] at same
  have rest : ((List.range 4095).map fun i => oneByte.bytes (BitVec.ofNat 25 (i + 1))) =
      (List.range 4095).map fun i => ({} : Ram).bytes (BitVec.ofNat 25 (i + 1)) := by
    refine List.map_congr_left fun i member => ?_
    have small := List.mem_range.mp member
    rw [oneByte_bytes, if_neg]
    intro zero
    have value := congrArg BitVec.toNat zero
    rw [BitVec.toNat_ofNat, Nat.mod_eq_of_lt (by omega)] at value
    simp at value
  rw [rest, pageDigest, pageDigest, List.foldl_cons, List.foldl_cons] at same
  have first := foldl_mixByte_injective _ same
  rw [oneByte_bytes, if_pos rfl] at first
  exact absurd first (by decide)

theorem perform_write (s : State) (off : Word) (size : Size) (value : Word) :
    perform s (.write off size value) = (s.1, s.2.write off size value) :=
  rfl

theorem perform_ramDigest (s : State) : perform s .ramDigest = s.1.fold s.2 :=
  rfl

theorem perform_reset (s : State) : perform s .reset = (s.1, {}) :=
  rfl

theorem digestCorrect_iff (s : State) :
    DigestCorrect s .ramDigest ↔ (s.1.fold s.2).1.total = digest s.2 :=
  Iff.rfl

/-- After a reset with contents the digest is still that of the contents. -/
theorem reset_written_stale :
    ¬ Runs.Along perform DigestCorrect (Hasher.new {})
      [.write 0 .byte 1, .ramDigest, .reset, .ramDigest] := by
  intro correct
  have tracked : Tracked ((Hasher.new {}).1, oneByte) :=
    Tracked.write (tracked_new {}) (.write 0 .byte 1 _)
  have last := correct.2.2.2.1
  rw [digestCorrect_iff, perform_reset, perform_ramDigest, perform_write, fold_blank] at last
  exact digest_oneByte_ne (tracked.fold.total.symm.trans last)

end Statehash

end GoRetroTv
