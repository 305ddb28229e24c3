import GoRetroTv.DmaController

/-!
# The DMA controller's snapshot

No transfer fails with a text too long for the fault field, so the controller
always accepts its own snapshot.
-/

namespace GoRetroTv

namespace Dma

open Snapcodec Cpu Memory

theorem label_length_le (channel : Channel) (what : String) :
    (label channel what).length ≤ 11 + what.length := by
  have digits : (toString channel.val).length ≤ 2 :=
    length_repr_le (by decide) (Nat.lt_trans channel.isLt (by decide))
  have front : "channel ".length = 8 := rfl
  have gap : " ".length = 1 := rfl
  rw [label, String.length_append, String.length_append, String.length_append, front, gap]
  omega

theorem dramRange_fails (addr : Word) (length : Nat) :
    FailsWithin 60 (dramRange addr length) := by
  have unmapped (addr : Word) :
      ("DRAM address " ++ hexText 8 addr.toNat ++ " is not an unmapped alias").length ≤ 60 := by
    rw [String.length_append, String.length_append, hexText_length (by decide) addr.isLt]
    decide
  have outside (addr : Word) :
      ("DRAM address " ++ hexText 8 addr.toNat ++ " outside board memory").length ≤ 60 := by
    rw [String.length_append, String.length_append, hexText_length (by decide) addr.isLt]
    decide
  unfold dramRange
  split
  · exact .throw (unmapped addr)
  · dsimp only
    split
    · exact .throw (outside addr)
    · exact .pure _

theorem readDRAM_fails (addr : Word) (size : Size) : FailsWithin 60 (readDRAM addr size) := by
  apply FailsWithin.bind (dramRange_fails addr size.bytes)
  intro off media error media' failed
  cases failed

theorem drawing_fails {bound : Nat} {draw : Graphics.Drawing Unit} (fails : FailsWithin bound draw) :
    FailsWithin bound (drawing draw) := by
  intro media error media' failed
  unfold drawing at failed
  split at failed
  · cases failed
  next drawn =>
    cases failed
    exact fails _ _ _ drawn

theorem modify_fails (change : Media → Media) : FailsWithin 256 (modify change : Transfer Unit) := by
  intro media error media' failed
  cases failed

theorem drawCommand_fails (src : Word) (length : Nat) (small : length < 10 ^ 10) :
    FailsWithin 256 (drawCommand src length) := by
  unfold drawCommand
  split
  · apply FailsWithin.throw
    have digits := length_repr_le (by decide) small
    have front : "channel 12 command has ".length = 23 := rfl
    have back : " bytes; need 60".length = 15 := rfl
    rw [String.length_append, String.length_append, front, back]
    omega
  · apply FailsWithin.bind
    · apply FailsWithin.forM
      intro i member
      apply FailsWithin.bind
      · apply FailsWithin.prefixing (readDRAM_fails _ _)
        have inside : i < min (length / 4) 15 := List.mem_range.mp member
        have digits : (toString i).length ≤ 2 := length_repr_le (by decide) (by omega)
        have front : "channel 12 command word ".length = 24 := rfl
        have back : ": ".length = 2 := rfl
        rw [String.length_append, String.length_append, front, back]
        omega
      · exact fun _ => modify_fails _
    · intro _
      apply FailsWithin.bind
      · intro media error media' failed
        cases failed
      · intro media
        exact .prefixing (drawing_fails (Graphics.executeRegisters_fails _)) (by decide)

theorem uploadPlane_fails (src : Word) {length : Nat} (inside : length ≤ dramSize) :
    FailsWithin 256 (uploadPlane src length) := by
  unfold uploadPlane
  apply FailsWithin.bind
  · apply FailsWithin.mapM'
    intro i member
    apply FailsWithin.bind
    · apply FailsWithin.prefixing (readDRAM_fails _ _)
      have before : i < length := List.mem_range.mp member
      have digits : (toString i).length ≤ 8 :=
        length_repr_le (by decide) (by rw [dramSize_eq] at inside; omega)
      have front : "channel 8 source byte ".length = 22 := rfl
      have back : ": ".length = 2 := rfl
      rw [String.length_append, String.length_append, front, back]
      omega
    · exact fun _ => .pure _
  · exact fun plane => modify_fails _

theorem transferLength_lt (src ctl last : Word) : transferLength src ctl last < 10 ^ 10 := by
  have lastLt := last.isLt
  have ctlLt : (ctl &&& 0x3fff).toNat < 2 ^ 32 := BitVec.isLt _
  unfold transferLength
  split <;> omega

theorem labelled_fails {bound : Nat} (channel : Channel) (what : String) {α : Type}
    {action : Transfer α} (fails : FailsWithin bound action)
    (fits : what.length + bound ≤ 245) : FailsWithin 256 (prefixing (label channel what) action) := by
  have front := label_length_le channel what
  exact .prefixing fails (by omega)

theorem throw_fails (channel : Channel) {what : String} (short : what.length ≤ 245) {α : Type} :
    FailsWithin 256 (throw (label channel what) : Transfer α) := by
  have front := label_length_le channel what
  exact .throw (by omega)

theorem discard_fails {bound : Nat} {α : Type} {action : Transfer α}
    (fails : FailsWithin bound action) : FailsWithin bound (discard action) :=
  .bind fails fun _ => .pure _

/-- No transfer's fault is longer than `Restore` accepts. -/
theorem run_fails (channel : Channel) : FailsWithin 256 (run channel) := by
  have read (what : String) (short : what.length ≤ 20) (addr : Word) :
      FailsWithin 256 (prefixing (label channel what) (readDRAM addr .word)) :=
    labelled_fails channel what (readDRAM_fails _ _) (by omega)
  have range (what : String) (short : what.length ≤ 20) (addr : Word) (length : Nat) :
      FailsWithin 256 (discard (prefixing (label channel what) (dramRange addr length))) :=
    discard_fails (labelled_fails channel what (dramRange_fails _ _) (by omega))
  unfold run
  apply FailsWithin.bind
  · intro media error media' failed
    cases failed
  intro media
  dsimp only
  split
  · exact throw_fails channel (by decide)
  apply FailsWithin.bind (range _ (by decide) _ _)
  intro _
  apply FailsWithin.bind (read _ (by decide) _)
  intro src
  apply FailsWithin.bind (read _ (by decide) _)
  intro ctl
  apply FailsWithin.bind (read _ (by decide) _)
  intro last
  have small := transferLength_lt src ctl last
  split
  · apply throw_fails
    have digits := length_repr_le (by decide) small
    have front : "length ".length = 7 := rfl
    have back : " exceeds board DRAM".length = 19 := rfl
    rw [String.length_append, String.length_append, front, back]
    omega
  next inside =>
    have inside : transferLength src ctl last ≤ dramSize := by omega
    apply FailsWithin.bind
    · unfold checkSource
      split
      · exact range _ (by decide) _ _
      · exact .pure _
    intro _
    apply FailsWithin.bind
    · unfold moveData
      split
      · exact drawCommand_fails _ _ small
      · exact uploadPlane_fails _ inside
      · exact .pure _
    · exact fun _ => modify_fails _

/-- The fault fits the field `Restore` checks. -/
def ShortFault (media : Media) : Prop :=
  media.dma.fault.length ≤ 256

/-- A property that looks neither at the memories nor at the completion bits,
unless the line follows them. -/
structure Stable (property : Media → Prop) : Prop where
  memories : ∀ media ram blitter video,
    property media → property { media with ram, blitter, video }
  completes : ∀ media statusA, property media →
    property { media with dma := { media.dma with statusA } }.updateLine

theorem shortFault_stable : Stable ShortFault :=
  ⟨fun _ _ _ _ short => short, fun _ _ short => short⟩

section Keeps

variable {property : Media → Prop}

theorem dramRange_keeps (addr : Word) (length : Nat) :
    Keeps property (dramRange addr length) := by
  unfold dramRange
  split
  · exact .throw _
  · dsimp only
    split
    · exact .throw _
    · exact .pure _

variable (stable : Stable property)

include stable

theorem readDRAM_keeps (addr : Word) (size : Size) : Keeps property (readDRAM addr size) := by
  apply Keeps.bind (dramRange_keeps addr size.bytes)
  intro off media holds
  exact stable.memories media _ media.blitter media.video holds

theorem drawing_keeps (draw : Graphics.Drawing Unit) : Keeps property (drawing draw) := by
  intro media holds
  unfold drawing
  cases draw media.ram with
  | ok value ram => exact stable.memories media ram media.blitter media.video holds
  | error error ram => exact stable.memories media ram media.blitter media.video holds

theorem drawCommand_keeps (src : Word) (length : Nat) : Keeps property (drawCommand src length) := by
  unfold drawCommand
  split
  · exact .throw _
  · apply Keeps.bind
    · apply Keeps.forM
      intro i
      apply Keeps.bind (.prefixing (readDRAM_keeps stable _ _))
      intro value
      exact .modify fun media => stable.memories media media.ram _ media.video
    · intro _
      apply Keeps.bind .get
      intro media
      exact .prefixing (drawing_keeps stable _)

theorem uploadPlane_keeps (src : Word) (length : Nat) : Keeps property (uploadPlane src length) := by
  unfold uploadPlane
  apply Keeps.bind
  · apply Keeps.mapM'
    intro i
    apply Keeps.bind (.prefixing (readDRAM_keeps stable _ _))
    exact fun _ => .pure _
  · intro plane
    exact .modify fun media => stable.memories media media.ram media.blitter _

theorem run_keeps (channel : Channel) : Keeps property (run channel) := by
  have read (what : String) (addr : Word) :
      Keeps property (prefixing (label channel what) (readDRAM addr .word)) :=
    .prefixing (readDRAM_keeps stable _ _)
  have range (what : String) (addr : Word) (length : Nat) :
      Keeps property (discard (prefixing (label channel what) (dramRange addr length))) :=
    .bind (.prefixing (dramRange_keeps _ _)) fun _ => .pure _
  unfold run
  apply Keeps.bind .get
  intro media
  dsimp only
  split
  · exact .throw _
  apply Keeps.bind (range _ _ _)
  intro _
  apply Keeps.bind (read _ _)
  intro src
  apply Keeps.bind (read _ _)
  intro ctl
  apply Keeps.bind (read _ _)
  intro last
  split
  · exact .throw _
  · apply Keeps.bind
    · unfold checkSource
      split
      · exact range _ _ _
      · exact .pure _
    intro _
    apply Keeps.bind
    · unfold moveData
      split
      · exact drawCommand_keeps stable _ _
      · exact uploadPlane_keeps stable _ _
      · exact .pure _
    · intro _
      exact .modify fun media => stable.completes media _

theorem startChannels_keeps (started : Word) : Keeps property (startChannels started) := by
  apply Keeps.forM
  intro channel
  split
  · exact .pure _
  · exact run_keeps stable channel

end Keeps

theorem startChannels_fails (started : Word) : FailsWithin 256 (startChannels started) := by
  apply FailsWithin.forM
  intro channel _
  split
  · exact .pure _
  · exact run_fails channel

theorem ascii_length (text : String) : (ascii text).length = text.length := by
  rw [ascii, List.length_map, String.length_toList]

theorem write_shortFault {media : Media} (short : ShortFault media) (off : Word) (size : Size)
    (value : Word) : ShortFault (write off size value media) := by
  unfold write
  dsimp only
  split
  · split
    · exact short
    · have kept := startChannels_keeps shortFault_stable (value &&& ~~~media.dma.enable)
        { media with dma := { media.dma with enable := value } } short
      split
      next ran =>
        rw [ran] at kept
        exact kept
      next error media' ran =>
        show (ascii error).length ≤ 256
        rw [ascii_length]
        exact startChannels_fails _ _ _ _ ran
  · exact short
  · exact short
  · split
    · split <;> exact short
    · exact short

/-- What the guest does to the controller, and what becomes of the devices it
reaches meanwhile. -/
inductive Action where
  | write (off : Word) (size : Size) (value : Word)
  | reset
  | elsewhere (ram : Ram) (blitter : Graphics.Blitter) (video : Osd.Video) (wire : Irq.Wire)

def perform (action : Action) (media : Media) : Media :=
  match action with
  | .write off size value => write off size value media
  | .reset => reset media
  | .elsewhere ram blitter video wire => { dma := media.dma, ram, blitter, video, wire }

def runActions (actions : List Action) (media : Media) : Media :=
  actions.foldl (fun media action => perform action media) media

theorem new_shortFault (media : Media) : ShortFault { media with dma := {} } :=
  Nat.zero_le 256

/-- No run records a fault that a restore would refuse. -/
theorem runActions_shortFault (actions : List Action) {media : Media} (short : ShortFault media) :
    ShortFault (runActions actions media) := by
  induction actions generalizing media with
  | nil => exact short
  | cons action actions ih =>
      apply ih
      cases action with
      | write off size value => exact write_shortFault short off size value
      | reset => exact new_shortFault media
      | elsewhere ram blitter video wire => exact short

namespace Controller

def encodeDma (d : Controller) : List Byte :=
  encodeWords d.pointers ++ (encodeWords [d.enable, d.statusA, d.statusB] ++ encodeBytes d.fault)

def blobOf (d : Controller) : List Byte :=
  Writer.frame (ascii "media-dma") 1 (encodeDma d)

@[simp]
theorem pointers_length (d : Controller) : d.pointers.length = channelCount :=
  List.length_ofFn

theorem pointers_fit (d : Controller) : d.pointers.length < wordLimit := by
  rw [pointers_length]
  decide

theorem registers_fit (d : Controller) : [d.enable, d.statusA, d.statusB].length < wordLimit :=
  show 3 < wordLimit by decide

theorem pointers_getD (d : Controller) :
    (fun channel : Channel => d.pointers.getD channel 0) = d.descriptors := by
  ext1 channel
  rw [List.getD_eq_getElem?_getD, pointers, List.getElem?_ofFn, dif_pos channel.isLt]
  rfl

section

variable {d : Controller} (short : d.fault.length ≤ 256)

include short

theorem fault_fits : d.fault.length < wordLimit :=
  Nat.lt_of_le_of_lt short (by decide)

theorem encodeDma_fits : (encodeDma d).length < wordLimit := by
  simp only [encodeDma, List.length_append, encodeWords_length, pointers_length,
    encodeBytes_length, List.length_cons, List.length_nil, channelCount, wordLimit]
  omega

theorem snapshot_eq : d.snapshot = .ok (blobOf d) := by
  rw [snapshot, newWriter_eq 1 (show ascii "media-dma" ≠ [] by decide) (by decide),
    Writer.words_mk _ _ _ (pointers_fit d), Writer.words_mk _ _ _ (registers_fit d),
    Writer.string_mk _ _ _ (fault_fits short), List.nil_append, List.append_assoc]
  exact Writer.blob_mk _ _ _ (by decide) (encodeDma_fits short)

/-- The controller accepts its own snapshot, every register of it comes back,
and the line follows them. -/
theorem restore_blobOf (media : Media) :
    restore (blobOf d) media = .ok { media with dma := d }.updateLine := by
  have decoded : restoring (blobOf d) (ascii "media-dma") 1 1 "dma: restore: " readSnapshot =
      .ok d := by
    refine restoring_frame (by decide) (encodeDma_fits short) (by decide) (by decide) ?_
    unfold readSnapshot encodeDma
    apply Parses.bind (.words (pointers_fit d))
    apply Parses.bind (.words (registers_fit d))
    apply Parses.bind_last (.string (fault_fits short))
    apply Parses.wrapDone
    apply Parses.require
    · rw [decide_eq_true_iff]
      exact ⟨pointers_length d, rfl, short⟩
    rw [pointers_getD]
    exact Parses.pure [] d
  rw [restore, decoded]
  rfl

end

theorem written (d : Controller) :
    Written (ascii "media-dma") 1 (encodeDma d)
      (newWriter (ascii "media-dma") 1
        |>.words d.pointers
        |>.words [d.enable, d.statusA, d.statusB]
        |>.string d.fault) := by
  have fields := (Written.start (ascii "media-dma") 1).words d.pointers
    |>.words [d.enable, d.statusA, d.statusB] |>.string d.fault
  simpa only [encodeDma, List.nil_append, List.append_assoc] using fields

/-- What `Restore` reads. -/
def decode (blob : List Byte) : Except String Controller :=
  restoring blob (ascii "media-dma") 1 1 "dma: restore: " readSnapshot

/-- A controller that accepts its own snapshot is the same controller. -/
theorem decode_snapshot {d restored : Controller} {blob : List Byte} (taken : d.snapshot = .ok blob)
    (accepted : decode blob = .ok restored) : restored = d := by
  refine d.written.restored taken (fun fits => ?_) accepted
  simp only [encodeDma, List.length_append, encodeBytes_length] at fits
  refine .bind (.of_reads (.words (pointers_fit d))) ?_
  refine .bind (.of_reads (.words (registers_fit d))) ?_
  refine .bind_last (.of_reads (.string (by omega))) ?_
  refine .bind_check (.wrap .done) ?_
  refine .bind_check (.require _ _) ?_
  rw [pointers_getD]
  exact .pure d

/-- The controller accepts its own snapshot. -/
theorem decode_blobOf {d : Controller} (short : d.fault.length ≤ 256) :
    decode (blobOf d) = .ok d := by
  have accepted := restore_blobOf short {}
  cases read : decode (blobOf d) with
  | error error =>
    unfold decode at read
    rw [restore, read] at accepted
    cases accepted
  | ok restored => rw [decode_snapshot (snapshot_eq short) read]

end Controller

end Dma

end GoRetroTv
