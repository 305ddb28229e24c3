import GoRetroTv.TransportDescriptors
import Mathlib.Data.List.Chain

/-!
# Cutting a bouquet into sections

A transport's descriptors are cut between descriptors into pieces, each of
which is a loop of its own with its namespace declared again, and the pieces
are packed in order into sections.  Two pieces of one transport never fit into
one section.
-/

namespace GoRetroTv

namespace Broadcast

/-- One transport in one section. -/
structure Announcement where
  id : Half
  networkID : Half
  descriptors : List Descriptor

namespace Announcement

def key (a : Announcement) : Half × Half :=
  (a.id, a.networkID)

def loop (a : Announcement) : List Byte :=
  encodeLoop a.descriptors

def encode (a : Announcement) : List Byte :=
  bigEndian 2 a.id.toNat ++ bigEndian 2 a.networkID.toNat ++ lengthBytes 0xf0 a.loop.length ++
    a.loop

@[simp]
theorem length_encode (a : Announcement) : a.encode.length = a.loop.length + 6 := by
  simp only [encode, lengthBytes, List.length_append, bigEndian_length, List.length_cons,
    List.length_nil]
  omega

end Announcement

def Transport.key (tr : Transport) : Half × Half :=
  (tr.id, tr.networkID)

/-- The loops of a transport's pieces: every one but the first of all declares the
namespace again. -/
def loops (continued : Bool) : List (List Descriptor) → List (List Descriptor)
  | [] => []
  | chunk :: chunks =>
      (if continued then specifier :: chunk else chunk) :: chunks.map (specifier :: ·)

/-- What a receiver joins together again: a continuation's own declaration is
dropped. -/
def rejoin : List (List Descriptor) → List Descriptor
  | [] => []
  | first :: continuations =>
      first ++ continuations.flatMap fun descriptors =>
        if descriptors.head? = some specifier then descriptors.tail else descriptors

/-- The announcements of one transport. -/
structure Run (budget : Nat) (tr : Transport) (descriptors : List Descriptor)
    (announcements : List Announcement) : Prop where
  key : ∀ a ∈ announcements, a.key = tr.key
  rejoined : rejoin (announcements.map Announcement.descriptors) = descriptors
  declared : ∀ a ∈ announcements, Declared a.descriptors
  fits : ∀ a ∈ announcements, a.loop.length ≤ budget
  full : announcements.IsChain fun first second => budget < first.loop.length + second.loop.length

theorem length_encodeLoop_pos {descriptors : List Descriptor} (nonempty : descriptors ≠ []) :
    0 < (encodeLoop descriptors).length := by
  cases descriptors with
  | nil => exact absurd rfl nonempty
  | cons d descriptors => simp

theorem continuationPrefix_eq (before chunk : List Descriptor) :
    continuationPrefix (encodeLoop before).length ++ encodeLoop chunk =
      encodeLoop (if before = [] then chunk else specifier :: chunk) := by
  unfold continuationPrefix
  by_cases first : before = []
  · rw [if_neg (by simp [first]), if_pos first, List.nil_append]
  · rw [if_pos (length_encodeLoop_pos first), if_neg first, encodeLoop_cons, encode_specifier]

theorem loops_cons (continued : Bool) (chunk : List Descriptor) (chunks : List (List Descriptor)) :
    loops continued (chunk :: chunks) =
      (if continued then specifier :: chunk else chunk) :: loops true chunks := by
  cases chunks <;> rfl

/-- Where the piece that begins behind some descriptors ends, if it holds any. -/
theorem pieceEnd_ok {budget : Nat} (before after : List Descriptor)
    (advances : pieceEnd (encodeLoop (before ++ after)) budget (encodeLoop before).length ≠
      (encodeLoop before).length) :
    ∃ taken left, after = taken ++ left ∧ taken ≠ [] ∧
      pieceEnd (encodeLoop (before ++ after)) budget (encodeLoop before).length =
        (encodeLoop (before ++ taken)).length ∧
      (encodeLoop (if before = [] then taken else specifier :: taken)).length ≤ budget ∧
      ∀ d ∈ left.head?, budget <
        (encodeLoop (if before = [] then taken else specifier :: taken)).length +
          d.encode.length := by
  unfold pieceEnd at advances ⊢
  set limit := min ((encodeLoop before).length + budget -
    (continuationPrefix (encodeLoop before).length).length)
    (encodeLoop (before ++ after)).length with isLimit
  have reached : (encodeLoop before).length < limit := by
    by_contra short
    rw [descriptorBoundary, if_neg short] at advances
    exact advances rfl
  obtain ⟨taken, left, rfl, boundary, stops, next⟩ :=
    descriptorBoundary_spec before after (by omega) reached.le
  rw [boundary] at advances
  have isEnd := boundary
  have joined := congrArg List.length (continuationPrefix_eq before taken)
  simp only [List.length_append, encodeLoop_append] at joined stops advances isLimit next
  refine ⟨taken, left, rfl, ?_, isEnd, by omega, ?_⟩
  · rintro rfl
    exact advances rfl
  · intro d isHead
    have beyond := next d isHead
    have inside : (encodeLoop before).length + (encodeLoop taken).length + d.encode.length ≤
        (encodeLoop before).length + ((encodeLoop taken).length + (encodeLoop left).length) := by
      cases left with
      | nil => cases isHead
      | cons head left =>
          cases isHead
          simp
          omega
    omega

/-- The pieces of a transport, from a descriptor on. -/
theorem transportPieces_ok {tr : Transport} {budget : Nat} (before after : List Descriptor)
    (more : after ≠ []) {pieces : List (List Byte)}
    (built : transportPieces tr (encodeLoop (before ++ after)) budget (encodeLoop before).length =
      .ok pieces) :
    ∃ chunks : List (List Descriptor), chunks.flatten = after ∧ (∀ chunk ∈ chunks, chunk ≠ []) ∧
      pieces = (loops (decide (before ≠ [])) chunks).map (fun descriptors =>
        transportPiece tr (encodeLoop descriptors)) ∧
      (∀ descriptors ∈ loops (decide (before ≠ [])) chunks,
        (encodeLoop descriptors).length ≤ budget) ∧
      (loops (decide (before ≠ [])) chunks).IsChain fun first second =>
        budget < (encodeLoop first).length + (encodeLoop second).length := by
  induction h : after.length using Nat.strongRecOn generalizing before after pieces with
  | ind length ih =>
      have nonempty : 0 < (encodeLoop (before ++ after)).length :=
        length_encodeLoop_pos (by simp [more])
      rw [transportPieces] at built
      split at built
      · cases built
      next advances =>
        obtain ⟨taken, left, rfl, isTaken, boundary, fits, next⟩ :=
          pieceEnd_ok before after fun same => advances ⟨same, nonempty⟩
        have chunk : continuationPrefix (encodeLoop before).length ++
            ((encodeLoop (before ++ (taken ++ left))).take
              (encodeLoop (before ++ taken)).length).drop (encodeLoop before).length =
            encodeLoop (if before = [] then taken else specifier :: taken) := by
          rw [← continuationPrefix_eq, ← List.append_assoc before, encodeLoop_append _ left,
            List.take_left, encodeLoop_append, List.drop_left]
        have first : (if decide (before ≠ []) then specifier :: taken else taken) =
            if before = [] then taken else specifier :: taken := by
          by_cases atStart : before = [] <;> simp [atStart]
        dsimp only at built
        rw [boundary, chunk] at built
        split at built
        next whole =>
          cases built
          have isLast : left = [] := by
            by_contra others
            have := length_encodeLoop_pos others
            rw [← List.append_assoc, encodeLoop_append _ left, List.length_append] at whole
            omega
          subst isLast
          refine ⟨[taken], by simp, by simpa using isTaken, ?_, ?_, ?_⟩
          · rw [loops_cons, first]
            rfl
          · rw [loops_cons, first]
            simpa [loops] using fits
          · rw [loops_cons]
            exact .singleton _
        next partly =>
          obtain ⟨pieces, isRest, built⟩ := bind_eq_ok.mp built
          cases built
          have others : left ≠ [] := by
            rintro rfl
            simp at partly
          have positive := List.length_pos_iff.mpr isTaken
          obtain ⟨chunks, isLeft, areChunks, isPieces, fitting, chained⟩ :=
            ih left.length (by rw [List.length_append] at h; omega) (before ++ taken) left others
              (by rwa [List.append_assoc]) rfl
          have continued : decide (before ++ taken ≠ []) = true := by simp [isTaken]
          rw [continued] at isPieces fitting chained
          refine ⟨taken :: chunks, by rw [List.flatten_cons, isLeft], ?_, ?_, ?_, ?_⟩
          · intro other member
            rcases List.mem_cons.mp member with rfl | later
            · exact isTaken
            · exact areChunks other later
          · rw [loops_cons, first, List.map_cons, isPieces]
          · rw [loops_cons, first]
            intro descriptors member
            rcases List.mem_cons.mp member with rfl | later
            · exact fits
            · exact fitting descriptors later
          · rw [loops_cons, first]
            cases chunks with
            | nil => exact .singleton _
            | cons second chunks =>
                rw [loops_cons, if_pos rfl] at chained ⊢
                refine .cons_cons ?_ chained
                cases second with
                | nil => exact absurd rfl (areChunks [] (List.mem_cons_self ..))
                | cons d second =>
                    have beyond := next d (by rw [← isLeft]; rfl)
                    simp only [encodeLoop_cons, List.length_append] at beyond ⊢
                    omega

theorem loops_true (chunks : List (List Descriptor)) :
    loops true chunks = chunks.map (specifier :: ·) := by
  cases chunks <;> rfl

theorem rejoin_loops (chunks : List (List Descriptor)) :
    rejoin (loops false chunks) = chunks.flatten := by
  cases chunks with
  | nil => rfl
  | cons chunk chunks =>
      rw [loops_cons, loops_true, rejoin, if_neg (by decide), List.flatten_cons]
      congr 1
      induction chunks with
      | nil => rfl
      | cons chunk chunks ih =>
          rw [List.map_cons, List.flatMap_cons, ih, List.flatten_cons]
          rfl

theorem declared_loops {chunks : List (List Descriptor)} (declared : Declared chunks.flatten) :
    ∀ descriptors ∈ loops false chunks, Declared descriptors := by
  cases chunks with
  | nil => simp [loops]
  | cons chunk chunks =>
      rw [loops_cons, loops_true, if_neg (by decide)]
      intro descriptors member
      rcases List.mem_cons.mp member with rfl | later
      · exact declared.of_isPrefix (List.prefix_append _ _)
      · obtain ⟨continuation, _, rfl⟩ := List.mem_map.mp later
        exact .of_specifier continuation

/-- The pieces of a transport are announcements of it, which a receiver joins to
the transport's own descriptors. -/
theorem batTransport_ok {head : Nat} {tr : Transport} {pieces : List (List Byte)}
    (built : batTransport head tr = .ok pieces) :
    ∃ descriptors announcements, transportDescriptors tr = .ok (encodeLoop descriptors) ∧
      lineupOf descriptors = some (tr.lineup.map LineupEntry.carried) ∧
      Run (sectionPayloadBudget - head - 6) tr descriptors announcements ∧
      pieces = announcements.map Announcement.encode := by
  unfold batTransport at built
  obtain ⟨bytes, isTransport, built⟩ := bind_eq_ok.mp built
  obtain ⟨_, built⟩ := check_ok built
  obtain ⟨descriptors, rfl, nonempty, parsed, declared⟩ := transportDescriptors_ok isTransport
  obtain ⟨chunks, rfl, _, isPieces, fits, full⟩ :=
    transportPieces_ok [] descriptors nonempty built
  refine ⟨chunks.flatten, (loops false chunks).map fun descriptors =>
    { id := tr.id, networkID := tr.networkID, descriptors }, isTransport, parsed, ?_, ?_⟩
  · exact {
      key := by
        intro a member
        obtain ⟨_, _, rfl⟩ := List.mem_map.mp member
        rfl
      rejoined := by
        rw [List.map_map]
        exact (congrArg rejoin (List.map_id _)).trans (rejoin_loops chunks)
      declared := by
        intro a member
        obtain ⟨loop, isLoop, rfl⟩ := List.mem_map.mp member
        exact declared_loops declared loop isLoop
      fits := by
        intro a member
        obtain ⟨loop, isLoop, rfl⟩ := List.mem_map.mp member
        exact fits loop isLoop
      full := (List.isChain_map _).mpr full }
  · rw [isPieces, List.map_map]
    rfl

/-- A packing whose sections fit. -/
structure Packing.Fits (head : Nat) (packing : Packing) : Prop where
  size : packing.size = head + packing.current.flatten.length
  current : packing.current = [] ∨ packing.size ≤ sectionPayloadBudget
  groups : ∀ group ∈ packing.groups, head + group.flatten.length ≤ sectionPayloadBudget

theorem packItems_ok {head i : Nat} {items : List (List Byte)} {packing packed : Packing}
    (fits : packing.Fits head) (built : packItems head i (items.map .ok) packing = .ok packed) :
    packed.Fits head ∧
      packed.groups.flatten ++ packed.current = packing.groups.flatten ++ packing.current ++ items := by
  induction items generalizing i packing with
  | nil =>
      cases built
      exact ⟨fits, by simp⟩
  | cons item items ih =>
      rw [List.map_cons, packItems] at built
      obtain ⟨body, isBody, built⟩ := bind_eq_ok.mp built
      cases isBody
      obtain ⟨alone, built⟩ := check_ok built
      dsimp only at built
      split at built
      next full =>
        have nextFits : Packing.Fits head {
            groups := packing.groups ++ [packing.current]
            current := [item]
            size := head + item.length } := {
          size := by simp
          current := .inr (by dsimp only; omega)
          groups := by
            intro group member
            rcases List.mem_append.mp member with before | last
            · exact fits.groups group before
            · rw [List.mem_singleton.mp last]
              have size := fits.size
              rcases fits.current with empty | within
              · rw [empty] at full
                simp at full
              · omega }
        obtain ⟨packedFits, same⟩ := ih nextFits built
        exact ⟨packedFits, by simpa using same⟩
      next room =>
        have nextFits : Packing.Fits head {
            packing with
            current := packing.current ++ [item]
            size := packing.size + item.length } := {
          size := by
            rw [List.flatten_append, List.length_append, ← Nat.add_assoc, ← fits.size]
            simp
          current := .inr (by
            have size := fits.size
            dsimp only
            rcases fits.current with empty | within
            · rw [empty] at size
              simp at size
              omega
            · have : ¬ (0 < packing.current.length) ∨
                  packing.size + item.length ≤ sectionPayloadBudget := by omega
              rcases this with none | within
              · have empty : packing.current = [] := List.length_eq_zero_iff.mp (by omega)
                rw [empty] at size
                simp at size
                omega
              · exact within)
          groups := fits.groups }
        obtain ⟨packedFits, same⟩ := ih nextFits built
        exact ⟨packedFits, by simpa using same⟩

/-- Pieces are packed in order, each group within a section's budget. -/
theorem packSections_ok {head : Nat} {items : List (List Byte)} {groups : List (List (List Byte))}
    (headFits : head ≤ sectionPayloadBudget)
    (built : packSections head (items.map .ok) = .ok groups) :
    groups.flatten = items ∧ groups.length ≤ 256 ∧ groups ≠ [] ∧
      ∀ group ∈ groups, head + group.flatten.length ≤ sectionPayloadBudget := by
  unfold packSections at built
  obtain ⟨packed, isPacked, built⟩ := bind_eq_ok.mp built
  obtain ⟨numbers, built⟩ := check_ok built
  cases built
  have empty : Packing.Fits head { size := head } := {
    size := by simp
    current := .inl rfl
    groups := by simp }
  obtain ⟨fits, same⟩ := packItems_ok empty isPacked
  refine ⟨by simpa using same, not_lt.mp numbers, by simp, ?_⟩
  intro group member
  rcases List.mem_append.mp member with before | last
  · exact fits.groups group before
  · rw [List.mem_singleton.mp last]
    have size := fits.size
    rcases fits.current with empty | within
    · rw [empty]
      simpa using headFits
    · omega

/-- The items of a second group do not fit behind those of the first. -/
def Tight (head : Nat) (first second : List (List Byte)) : Prop :=
  sectionPayloadBudget < head + first.flatten.length + second.flatten.length

theorem Tight.append {head : Nat} {first second : List (List Byte)} (tight : Tight head first second)
    (item : List Byte) : Tight head first (second ++ [item]) := by
  unfold Tight at tight ⊢
  rw [List.flatten_append, List.length_append]
  omega

/-- A new group is begun only for an item that does not fit in the last one. -/
theorem packItems_tight {head i : Nat} {items : List (List Byte)} {packing packed : Packing}
    (size : packing.size = head + packing.current.flatten.length)
    (tight : List.IsChain (Tight head) (packing.groups ++ [packing.current]))
    (built : packItems head i (items.map .ok) packing = .ok packed) :
    List.IsChain (Tight head) (packed.groups ++ [packed.current]) := by
  induction items generalizing i packing with
  | nil =>
      cases built
      exact tight
  | cons item items ih =>
      rw [List.map_cons, packItems] at built
      obtain ⟨body, isBody, built⟩ := bind_eq_ok.mp built
      cases isBody
      obtain ⟨_, built⟩ := check_ok built
      dsimp only at built
      split at built
      next full =>
        refine ih (by simp) ?_ built
        apply List.isChain_append.mpr
        refine ⟨tight, List.isChain_singleton _, ?_⟩
        intro first isFirst second isSecond
        rw [List.getLast?_concat, Option.mem_some_iff] at isFirst
        obtain rfl := isFirst
        obtain rfl : [] ++ [item] = second := Option.some.inj isSecond
        have behind := full.2
        unfold Tight
        simp only [List.nil_append, List.flatten_singleton]
        omega
      next room =>
        refine ih ?_ ?_ built
        · rw [List.flatten_append, List.length_append, ← Nat.add_assoc, ← size]
          simp
        · obtain ⟨before, _, last⟩ := List.isChain_append.mp tight
          apply List.isChain_append.mpr
          refine ⟨before, List.isChain_singleton _, ?_⟩
          intro first isFirst second isSecond
          obtain rfl : packing.current ++ [item] = second := Option.some.inj isSecond
          exact (last first isFirst _ rfl).append item

theorem packSections_tight {head : Nat} {items : List (List Byte)}
    {groups : List (List (List Byte))} (built : packSections head (items.map .ok) = .ok groups) :
    List.IsChain (Tight head) groups := by
  unfold packSections at built
  obtain ⟨packed, isPacked, built⟩ := bind_eq_ok.mp built
  obtain ⟨_, built⟩ := check_ok built
  cases built
  exact packItems_tight (by simp) (List.isChain_singleton _) isPacked

/-- Every item of a packing that succeeds has been built. -/
theorem packItems_bodies {head i : Nat} {items : List (Except String (List Byte))}
    {packing packed : Packing} (built : packItems head i items packing = .ok packed) :
    ∃ bodies : List (List Byte), items = bodies.map .ok := by
  induction items generalizing i packing with
  | nil => exact ⟨[], rfl⟩
  | cons item items ih =>
      rw [packItems] at built
      obtain ⟨body, isBody, built⟩ := bind_eq_ok.mp built
      obtain ⟨_, built⟩ := check_ok built
      obtain ⟨bodies, rfl⟩ := ih built
      exact ⟨body :: bodies, by rw [isBody, List.map_cons]⟩

theorem packSections_bodies {head : Nat} {items : List (Except String (List Byte))}
    {groups : List (List (List Byte))} (built : packSections head items = .ok groups) :
    ∃ bodies : List (List Byte), items = bodies.map .ok := by
  unfold packSections at built
  obtain ⟨packed, isPacked, _⟩ := bind_eq_ok.mp built
  exact packItems_bodies isPacked

end Broadcast

end GoRetroTv
