import GoRetroTv.ProgrammeTables
import GoRetroTv.SectionRoutes
import Mathlib.Tactic.IntervalCases

/-!
# Elementary streams on the transport

`internal/broadcast/pes.go` puts an encoded payload behind a header with its
timestamp, `internal/dvb/transport.go` cuts the packet up, with an adaptation
field for what the last piece leaves over, and `internal/multiplex/media.go`
hands each packet the counter the last one of its PID stopped at.
-/

namespace GoRetroTv

namespace Broadcast

/-- The timestamp's thirty-three bits, with a mark behind each part. -/
def ptsBytes (pts90k : Nat) : List Byte :=
  [low (0x21 ||| pts90k >>> 29 &&& 0x0e),
    low (pts90k >>> 22 &&& 0xff),
    low (0x01 ||| pts90k >>> 14 &&& 0xfe),
    low (pts90k >>> 7 &&& 0xff),
    low (0x01 ||| pts90k <<< 1 &&& 0xfe)]

/-- `PES`. -/
def pes (streamID : Byte) (pts90k : DoubleWord) (payload : List Byte) :
    Except String (List Byte) := do
  if 2 ^ 33 ≤ pts90k.toNat then
    throw s!"broadcast: PES timestamp {pts90k.toNat} exceeds 33 bits"
  if streamID < 0xc0 ∨ 0xef < streamID then
    throw s!"broadcast: PES stream id {hexText 2 streamID.toNat} is not MPEG audio or video"
  let packetLength := 3 + 5 + payload.length
  if 0xffff < packetLength ∧ streamID < 0xe0 then
    throw s!"broadcast: audio PES payload is too large ({payload.length} bytes)"
  let length := if 0xffff < packetLength then 0 else packetLength
  return [0x00, 0x00, 0x01, streamID, low (length >>> 8), low length, 0x80, 0x80, 0x05] ++
    ptsBytes pts90k.toNat ++ payload

end Broadcast

namespace Dvb

open Broadcast (low)

/-- An adaptation field without flags: its length, and stuffing. -/
def adaptationField (length : Nat) : List Byte :=
  low length :: if 0 < length then 0 :: List.replicate (length - 1) 0xff else []

/-- One packet of `PacketizePES`, with as much of the rest as it has room for. -/
def pesPacket (pid : Half) (first : Bool) (continuity : Byte) (payload : List Byte) : List Byte :=
  let n := payload.length
  let header : List Byte := [
    0x47,
    (pid >>> 8 &&& 0x1f).setWidth 8 ||| if first then 0x40 else 0,
    (pid &&& 0xff).setWidth 8,
    0x10 ||| continuity &&& 0x0f ||| if n < 184 then 0x20 else 0]
  header ++ (if n < 184 then adaptationField (183 - n) else []) ++ payload

/-- The loop of `PacketizePES`. -/
def packetizePESFrom (pid : Half) (first : Bool) (remaining : List Byte) (continuity : Byte) :
    List Byte :=
  if first = false ∧ remaining = [] then []
  else
    pesPacket pid first continuity (remaining.take 184) ++
      packetizePESFrom pid false (remaining.drop 184) (continuity + 1 &&& 0x0f)
termination_by remaining.length + first.toNat
decreasing_by
  next more =>
    rw [List.length_drop, Bool.toNat_false]
    cases first with
    | true =>
      rw [Bool.toNat_true]
      omega
    | false =>
      have unsent : remaining ≠ [] := fun nil => more ⟨rfl, nil⟩
      have := List.length_pos_iff.mpr unsent
      omega

def packetizePES (pid : Half) (pes : List Byte) (continuity : Byte) : List Byte :=
  packetizePESFrom pid true pes continuity

end Dvb

namespace Multiplex

open Broadcast Dvb

def videoPID : Half :=
  0x101

def audioPID : Half :=
  0x102

/-- A piece of an encoded stream. -/
structure EncodedPayload where
  pts90k : DoubleWord
  data : List Byte

structure MediaEmission where
  pid : Half
  streamID : Byte
  payload : EncodedPayload

/-- The pieces in the order of their timestamps; equal ones stay in order. -/
def mediaEmissions (video audio : List EncodedPayload) : List MediaEmission :=
  (video.map (MediaEmission.mk videoPID 0xe0) ++ audio.map (MediaEmission.mk audioPID 0xc0)).mergeSort
    fun emission other => decide (emission.payload.pts90k ≤ other.payload.pts90k)

/-- The stream so far, with the next counter of each PID. -/
structure Carriage where
  out : List Byte
  continuity : Half → Byte := fun _ => 0

/-- One round of `MediaTransport`'s loop. -/
def Carriage.emit (c : Carriage) (emission : MediaEmission) : Except String Carriage := do
  let pes ← pes emission.streamID emission.payload.pts90k emission.payload.data
  let start := c.continuity emission.pid
  let packets := packetizePES emission.pid pes start
  return {
    out := c.out ++ packets
    continuity := Function.update c.continuity emission.pid
      (start + low (packets.length / 188 &&& 0x0f) &&& 0x0f) }

/-- `MediaTransport`. -/
def mediaTransport (transportStreamID serviceID : Half) (version : Byte)
    (video audio : List EncodedPayload) : Except String (List Byte) := do
  if video.length = 0 ∨ audio.length = 0 then
    throw "multiplex: media transport requires video and audio payloads"
  let pat ← pat transportStreamID version [{ number := serviceID, mapPID := programmeMapPID }]
  let pmt ← pmt serviceID version videoPID [] [
    { type := 0x02, pid := videoPID, descriptors := [] },
    { type := 0x03, pid := audioPID, descriptors := [] }]
  let out := packetizeSection 0x00 pat 0 ++ packetizeSection programmeMapPID pmt 0
  let done ← (mediaEmissions video audio).foldlM Carriage.emit { out }
  return done.out

end Multiplex

namespace Dvb

open Broadcast (low)

structure TransportPacket where
  pid : Half
  start : Bool
  continuity : Byte
  payload : List Byte
  deriving DecidableEq

/-- The payload, behind an adaptation field if there is one. -/
def payloadOf (control : Byte) (rest : List Byte) : Option (List Byte) :=
  if control = 0x10 then some rest
  else if control = 0x30 then
    match rest with
    | [] => none
    | length :: field => if length.toNat ≤ 182 then some (field.drop length.toNat) else none
  else none

def readPacket : List Byte → Option TransportPacket
  | sync :: high :: low :: flags :: rest =>
      if sync = 0x47 ∧ rest.length = 184 then
        (payloadOf (flags &&& 0x30) rest).map fun payload => {
          pid := (high &&& 0x1f) ++ low
          start := high &&& 0x40 != 0
          continuity := flags &&& 0x0f
          payload }
      else none
  | _ => none

/-- The units of one PID, the last of which may go on, and the next counter. -/
structure Assembly where
  units : List (List Byte) := []
  counter : Byte
  deriving DecidableEq

/-- A packet of the PID begins a unit, or goes on with the last. -/
def Assembly.add (a : Assembly) (packet : TransportPacket) : Option Assembly :=
  if packet.continuity ≠ a.counter then none
  else if packet.start then
    some { units := a.units ++ [packet.payload], counter := a.counter + 1 &&& 0x0f }
  else
    match a.units.getLast? with
    | none => none
    | some unit => some {
        units := a.units.dropLast ++ [unit ++ packet.payload]
        counter := a.counter + 1 &&& 0x0f }

/-- A packet off the wire. -/
def Assembly.take (pid : Half) (a : Assembly) (bytes : List Byte) : Option Assembly :=
  match readPacket bytes with
  | none => none
  | some packet => if packet.pid = pid then a.add packet else some a

/-- A stream of packets off the wire. -/
def assemble (pid : Half) (stream : List Byte) (a : Assembly) : Option Assembly :=
  if stream = [] then some a
  else (a.take pid (stream.take 188)).bind (assemble pid (stream.drop 188))
termination_by stream.length
decreasing_by
  next some_ =>
    have := List.length_pos_iff.mpr some_
    rw [List.length_drop]
    omega

end Dvb

namespace Broadcast

/-- What a PES header says: no length is a stream without end. -/
structure PesPacket where
  streamID : Byte
  pts90k : Nat
  length : Option Nat
  payload : List Byte
  deriving DecidableEq

/-- The timestamp out of its five bytes. -/
def readPTS (b₀ b₁ b₂ b₃ b₄ : Byte) : Nat :=
  b₀.toNat / 2 % 8 * 2 ^ 30 + b₁.toNat * 2 ^ 22 + b₂.toNat / 2 * 2 ^ 15 + b₃.toNat * 2 ^ 7 +
    b₄.toNat / 2

/-- A PES packet whose header has a timestamp and nothing else. -/
def readPES : List Byte → Option PesPacket
  | p₀ :: p₁ :: p₂ :: streamID :: high :: low :: flags :: parts :: header ::
      b₀ :: b₁ :: b₂ :: b₃ :: b₄ :: payload =>
      if [p₀, p₁, p₂] = [0, 0, 1] ∧ flags &&& 0xc0 = 0x80 ∧ parts = 0x80 ∧ header = 5 ∧
          b₀ &&& 0xf1 = 0x21 ∧ b₂ &&& 1 = 1 ∧ b₄ &&& 1 = 1 then
        let length := ofBigEndian [high, low]
        some {
          streamID
          pts90k := readPTS b₀ b₁ b₂ b₃ b₄
          length := if length = 0 then none else some (length - 8)
          payload }
      else none
  | _ => none

/-- The marked part of a timestamp's byte, whatever else it has. -/
theorem pts_marks : ∀ x < 256,
    (low (0x21 ||| x &&& 0x0e)).toNat / 2 % 8 = x % 16 / 2 ∧
      low (0x21 ||| x &&& 0x0e) &&& 0xf1 = 0x21 ∧
      (low (0x01 ||| x &&& 0xfe)).toNat / 2 = x / 2 ∧
      low (0x01 ||| x &&& 0xfe) &&& 1 = 1 := by
  decide +kernel

/-- Only the lowest byte of a number goes behind a mask of eight bits. -/
theorem and_mod_of_mask (x : Nat) {mask : Nat} (small : mask < 256) :
    x &&& mask = x % 256 &&& mask := by
  have eight := Nat.and_two_pow_sub_one_eq_mod x 8
  have masked := Nat.and_two_pow_sub_one_eq_mod mask 8
  rw [Nat.mod_eq_of_lt small] at masked
  change x &&& 255 = x % 256 at eight
  change mask &&& 255 = mask at masked
  rw [← eight, Nat.and_assoc, Nat.and_comm 255, masked]

theorem readPTS_ptsBytes {pts90k : Nat} (fits : pts90k < 2 ^ 33) :
    ∃ b₀ b₁ b₂ b₃ b₄, ptsBytes pts90k = [b₀, b₁, b₂, b₃, b₄] ∧
      b₀ &&& 0xf1 = 0x21 ∧ b₂ &&& 1 = 1 ∧ b₄ &&& 1 = 1 ∧ readPTS b₀ b₁ b₂ b₃ b₄ = pts90k := by
  have first := pts_marks (pts90k / 2 ^ 29 % 256) (by omega)
  have third := pts_marks (pts90k / 2 ^ 14 % 256) (by omega)
  have fifth := pts_marks (pts90k * 2 % 256) (by omega)
  refine ⟨_, _, _, _, _, rfl, ?_, ?_, ?_, ?_⟩
  · rw [Nat.shiftRight_eq_div_pow, and_mod_of_mask _ (show 0x0e < 256 by decide)]
    exact first.2.1
  · rw [Nat.shiftRight_eq_div_pow, and_mod_of_mask _ (show 0xfe < 256 by decide)]
    exact third.2.2.2
  · rw [Nat.shiftLeft_eq, and_mod_of_mask _ (show 0xfe < 256 by decide)]
    exact fifth.2.2.2
  · have second := Nat.and_two_pow_sub_one_eq_mod (pts90k / 2 ^ 22) 8
    have fourth := Nat.and_two_pow_sub_one_eq_mod (pts90k / 2 ^ 7) 8
    change _ &&& 0xff = _ at second fourth
    unfold readPTS
    rw [Nat.shiftRight_eq_div_pow, Nat.shiftRight_eq_div_pow, Nat.shiftRight_eq_div_pow,
      Nat.shiftRight_eq_div_pow, Nat.shiftLeft_eq, and_mod_of_mask _ (show 0x0e < 256 by decide),
      and_mod_of_mask (pts90k / 2 ^ 14) (show 0xfe < 256 by decide),
      and_mod_of_mask (pts90k * 2 ^ 1) (show 0xfe < 256 by decide), first.1, second, fourth,
      third.2.2.1]
    change _ + (low (0x01 ||| pts90k * 2 % 256 &&& 0xfe)).toNat / 2 = _
    rw [fifth.2.2.1]
    unfold low
    rw [BitVec.toNat_ofNat, BitVec.toNat_ofNat]
    omega

/-- What `PES` builds when it accepts. -/
theorem pes_ok {streamID : Byte} {pts90k : DoubleWord} {payload bytes : List Byte}
    (built : pes streamID pts90k payload = .ok bytes) :
    pts90k.toNat < 2 ^ 33 ∧
      bytes = [0, 0, 1, streamID, low ((if 0xffff < 3 + 5 + payload.length then 0
          else 3 + 5 + payload.length) >>> 8),
        low (if 0xffff < 3 + 5 + payload.length then 0 else 3 + 5 + payload.length),
        0x80, 0x80, 5] ++ ptsBytes pts90k.toNat ++ payload := by
  unfold pes at built
  obtain ⟨fits, built⟩ := check_ok built
  obtain ⟨_, built⟩ := check_ok built
  obtain ⟨_, built⟩ := check_ok built
  exact ⟨Nat.not_le.mp fits, (Except.ok.inj built).symm⟩

theorem pes_ne_nil {streamID : Byte} {pts90k : DoubleWord} {payload bytes : List Byte}
    (built : pes streamID pts90k payload = .ok bytes) : bytes ≠ [] := by
  rw [(pes_ok built).2]
  exact List.cons_ne_nil _ _

/-- Two bytes of a length, read back. -/
theorem length_bytes {length : Nat} (fits : length ≤ 0xffff) :
    ofBigEndian [low (length >>> 8), low length] = length := by
  have pair : [low (length >>> 8), low length] = bigEndian 2 length := by
    simp [bigEndian, low, Nat.shiftRight_eq_div_pow]
  rw [pair]
  exact ofBigEndian_bigEndian (show length < 65536 by omega)

/-- The header gives back the stream, the time, the length and the payload. -/
theorem readPES_pes {streamID : Byte} {pts90k : DoubleWord} {payload bytes : List Byte}
    (built : pes streamID pts90k payload = .ok bytes) :
    readPES bytes = some {
      streamID
      pts90k := pts90k.toNat
      length := if 0xffff < 3 + 5 + payload.length then none else some payload.length
      payload } := by
  obtain ⟨fits, rfl⟩ := pes_ok built
  obtain ⟨b₀, b₁, b₂, b₃, b₄, parts, first, third, fifth, time⟩ := readPTS_ptsBytes fits
  rw [parts]
  have marks : [(0 : Byte), 0, 1] = [0, 0, 1] ∧ (0x80 : Byte) &&& 0xc0 = 0x80 ∧
      (0x80 : Byte) = 0x80 ∧ (5 : Byte) = 5 ∧ b₀ &&& 0xf1 = 0x21 ∧ b₂ &&& 1 = 1 ∧ b₄ &&& 1 = 1 :=
    ⟨rfl, by decide, rfl, rfl, first, third, fifth⟩
  refine (if_pos marks).trans ?_
  rw [time]
  by_cases long : 0xffff < 3 + 5 + payload.length
  · rw [if_pos long, if_pos long, length_bytes (by decide)]
    rfl
  · rw [if_neg long, if_neg long, length_bytes (by omega), if_neg (by omega)]
    have count : 3 + 5 + payload.length - 8 = payload.length := by omega
    rw [count]
    rfl

end Broadcast

namespace Dvb

open Broadcast (low)

theorem pid_halves (pid : Half) (first : Bool) :
    (((pid >>> 8 &&& 0x1f).setWidth 8 ||| if first then 0x40 else 0) &&& 0x1f) ++
        (pid &&& 0xff).setWidth 8 = pid &&& 0x1fff ∧
      (((pid >>> 8 &&& 0x1f).setWidth 8 ||| if first then 0x40 else 0) &&& (0x40 : Byte) != 0) =
        first := by
  have parts : ∀ (b : Byte) (first : Bool),
      (b &&& 0x1f ||| if first then 0x40 else 0) &&& 0x1f = b &&& 0x1f ∧
        (b &&& 0x1f ||| if first then 0x40 else 0) &&& 0x40 = if first then 0x40 else 0 := by
    decide
  obtain ⟨low, high⟩ := parts ((pid >>> 8).setWidth 8) first
  have masked : (pid >>> 8 &&& 0x1f).setWidth 8 = (pid >>> 8).setWidth 8 &&& (0x1f : Byte) := by
    rw [BitVec.setWidth_and]
    rfl
  rw [masked, low, high]
  constructor
  · apply BitVec.eq_of_getLsbD_eq
    intro i inside
    rw [BitVec.getLsbD_append]
    interval_cases i <;> simp
  · cases first <;> rfl

/-- The counter, and whether there is an adaptation field. -/
theorem counter_packed : ∀ b : Byte,
    ((0x10 ||| b &&& 0x0f ||| 0x20) &&& 0x0f = b &&& 0x0f ∧
      (0x10 ||| b &&& 0x0f ||| 0x20) &&& 0x30 = (0x30 : Byte)) ∧
    ((0x10 ||| b &&& 0x0f ||| 0) &&& 0x0f = b &&& 0x0f ∧
      (0x10 ||| b &&& 0x0f ||| 0) &&& 0x30 = (0x10 : Byte)) := by
  decide

theorem adaptationField_length (length : Nat) : (adaptationField length).length = length + 1 := by
  unfold adaptationField
  split
  · rw [List.length_cons, List.length_cons, List.length_replicate]
    omega
  · rw [List.length_singleton]
    omega

/-- Behind an adaptation field, of any length down to none, stands the payload. -/
theorem payloadOf_adaptationField {length : Nat} (fits : length ≤ 182) (payload : List Byte) :
    payloadOf 0x30 (adaptationField length ++ payload) = some payload := by
  have count : (low length).toNat = length := by
    rw [low, BitVec.toNat_ofNat]
    omega
  have behind := adaptationField_length length
  unfold adaptationField at behind ⊢
  rw [List.length_cons, Nat.add_right_cancel_iff] at behind
  generalize (if 0 < length then 0 :: List.replicate (length - 1) 0xff else []) = stuffing
    at behind ⊢
  unfold payloadOf
  rw [if_neg (by decide), if_pos rfl, List.cons_append]
  dsimp only
  rw [count, if_pos fits, List.drop_left' behind]

variable {pid : Half} {first : Bool} {continuity : Byte} {payload : List Byte}

theorem pesPacket_length (fits : payload.length ≤ 184) :
    (pesPacket pid first continuity payload).length = 188 := by
  unfold pesPacket
  dsimp only
  by_cases short : payload.length < 184
  · rw [if_pos short, if_pos short, List.length_append, List.length_append, adaptationField_length]
    change 4 + (183 - payload.length + 1) + payload.length = 188
    omega
  · rw [if_neg short, if_neg short, List.append_nil, List.length_append]
    change 4 + payload.length = 188
    omega

theorem readPacket_header {high low flags : Byte} {rest : List Byte} (length : rest.length = 184)
    (behind : payloadOf (flags &&& 0x30) rest = some payload) :
    readPacket (0x47 :: high :: low :: flags :: rest) = some {
      pid := (high &&& 0x1f) ++ low
      start := high &&& 0x40 != 0
      continuity := flags &&& 0x0f
      payload } := by
  refine (if_pos ⟨rfl, length⟩).trans ?_
  rw [behind]
  rfl

theorem readPacket_pesPacket (some_ : payload ≠ []) (fits : payload.length ≤ 184) :
    readPacket (pesPacket pid first continuity payload) = some {
      pid := pid &&& 0x1fff
      start := first
      continuity := continuity &&& 0x0f
      payload } := by
  have positive := List.length_pos_iff.mpr some_
  obtain ⟨address, start⟩ := pid_halves pid first
  unfold pesPacket
  dsimp only
  by_cases short : payload.length < 184
  · obtain ⟨counter, control⟩ := (counter_packed continuity).1
    have behind := @payloadOf_adaptationField (183 - payload.length) (by omega) payload
    have length : (adaptationField (183 - payload.length) ++ payload).length = 184 := by
      rw [List.length_append, adaptationField_length]
      omega
    rw [if_pos short, if_pos short, List.append_assoc]
    refine (@readPacket_header payload _ _ _ _ length ?_).trans ?_
    · rw [control]
      exact behind
    · rw [address, start, counter]
  · obtain ⟨counter, control⟩ := (counter_packed continuity).2
    rw [if_neg short, if_neg short, List.append_nil]
    have length : payload.length = 184 := by omega
    refine (@readPacket_header payload _ _ _ _ length ?_).trans ?_
    · rw [control]
      rfl
    · rw [address, start, counter]

/-- A packet at the head of a stream. -/
theorem assemble_cons {packet stream : List Byte} (whole : packet.length = 188) (a : Assembly) :
    assemble pid (packet ++ stream) a = (a.take pid packet).bind (assemble pid stream) := by
  have some_ : packet ++ stream ≠ [] := by
    intro spent
    rw [(List.append_eq_nil_iff.mp spent).1] at whole
    cases whole
  conv_lhs => unfold assemble
  rw [if_neg some_, List.take_left' whole, List.drop_left' whole]

theorem assemble_nil (a : Assembly) : assemble pid [] a = some a := by
  unfold assemble
  exact if_pos rfl

theorem packetizePESFrom_nil : packetizePESFrom pid false [] continuity = [] := by
  unfold packetizePESFrom
  exact if_pos ⟨rfl, rfl⟩

theorem packetizePESFrom_cons {remaining : List Byte} (more : first = true ∨ remaining ≠ []) :
    packetizePESFrom pid first remaining continuity =
      pesPacket pid first continuity (remaining.take 184) ++
        packetizePESFrom pid false (remaining.drop 184) (continuity + 1 &&& 0x0f) := by
  conv_lhs => unfold packetizePESFrom
  refine if_neg fun ⟨notFirst, spent⟩ => ?_
  rcases more with isFirst | some_
  · rw [notFirst] at isFirst
    cases isFirst
  · exact some_ spent

/-- Counters are taken modulo 16, before or after they are added. -/
theorem counter_toNat (b : Byte) : (b &&& 0x0f).toNat = b.toNat % 16 := by
  have four := Nat.and_two_pow_sub_one_eq_mod b.toNat 4
  change b.toNat &&& 15 = _ at four
  rw [BitVec.toNat_and, show (0x0f : Byte).toNat = 15 from rfl, four]

theorem counter_add (b : Byte) (n : Nat) :
    ((b + 1 &&& 0x0f) + BitVec.ofNat 8 n) &&& 0x0f = (b + BitVec.ofNat 8 (n + 1)) &&& 0x0f := by
  apply BitVec.eq_of_toNat_eq
  rw [counter_toNat, counter_toNat, BitVec.toNat_add, BitVec.toNat_add, counter_toNat,
    BitVec.toNat_add, BitVec.toNat_ofNat, BitVec.toNat_ofNat]
  change ((b.toNat + 1) % 2 ^ 8 % 16 + _) % 2 ^ 8 % 16 = _
  omega

theorem counter_next : ∀ b : Byte,
    ((b &&& 0x0f) + 1) &&& 0x0f = (b + 1 &&& 0x0f) &&& 0x0f := by
  decide

/-- The packet that goes on with a unit. -/
theorem take_pesPacket_rest (some_ : payload ≠ []) (fits : payload.length ≤ 184)
    (before : List (List Byte)) (unit : List Byte) :
    Assembly.take (pid &&& 0x1fff) { units := before ++ [unit], counter := continuity &&& 0x0f }
        (pesPacket pid false continuity payload) =
      some {
        units := before ++ [unit ++ payload]
        counter := (continuity + 1 &&& 0x0f) &&& 0x0f } := by
  unfold Assembly.take
  rw [readPacket_pesPacket some_ fits]
  dsimp only
  rw [if_pos rfl]
  unfold Assembly.add
  simpa using counter_next continuity

/-- The packet that begins one. -/
theorem take_pesPacket_first (some_ : payload ≠ []) (fits : payload.length ≤ 184)
    (units : List (List Byte)) :
    Assembly.take (pid &&& 0x1fff) { units, counter := continuity &&& 0x0f }
        (pesPacket pid true continuity payload) =
      some { units := units ++ [payload], counter := (continuity + 1 &&& 0x0f) &&& 0x0f } := by
  unfold Assembly.take
  rw [readPacket_pesPacket some_ fits]
  dsimp only
  rw [if_pos rfl]
  unfold Assembly.add
  simpa using counter_next continuity

/-- The packets behind the first go on with its unit. -/
theorem assemble_rest (remaining : List Byte) (continuity : Byte) :
    ∃ n, (packetizePESFrom pid false remaining continuity).length = 188 * n ∧
      ∀ (stream : List Byte) (before : List (List Byte)) (unit : List Byte),
        assemble (pid &&& 0x1fff) (packetizePESFrom pid false remaining continuity ++ stream)
            { units := before ++ [unit], counter := continuity &&& 0x0f } =
          assemble (pid &&& 0x1fff) stream {
            units := before ++ [unit ++ remaining]
            counter := continuity + BitVec.ofNat 8 n &&& 0x0f } := by
  induction count : remaining.length using Nat.strong_induction_on
    generalizing remaining continuity with
  | _ count' ih =>
    by_cases spent : remaining = []
    · refine ⟨0, ?_, fun stream before unit => ?_⟩
      · rw [spent, packetizePESFrom_nil]
        rfl
      · rw [spent, packetizePESFrom_nil, List.nil_append, List.append_nil]
        simp
    · have positive := List.length_pos_iff.mpr spent
      have fits : (remaining.take 184).length ≤ 184 := by
        rw [List.length_take]
        omega
      have some_ : remaining.take 184 ≠ [] := by
        rw [← List.length_pos_iff, List.length_take]
        omega
      obtain ⟨n, length, rest⟩ := ih _ (by rw [List.length_drop]; omega) (remaining.drop 184)
        (continuity + 1 &&& 0x0f) rfl
      have whole := @pesPacket_length pid false continuity _ fits
      rw [packetizePESFrom_cons (.inr spent)]
      refine ⟨n + 1, ?_, fun stream before unit => ?_⟩
      · rw [List.length_append, whole, length]
        omega
      · rw [List.append_assoc, assemble_cons whole, take_pesPacket_rest some_ fits,
          Option.bind_some, rest, List.append_assoc, List.take_append_drop, counter_add]

/-- A unit whole: behind its packets the receiver has it, and waits for the next
counter. -/
theorem assemble_packetizePES {pes : List Byte} (some_ : pes ≠ []) (continuity : Byte) :
    ∃ n, (packetizePES pid pes continuity).length = 188 * n ∧
      ∀ (stream : List Byte) (units : List (List Byte)),
        assemble (pid &&& 0x1fff) (packetizePES pid pes continuity ++ stream)
            { units, counter := continuity &&& 0x0f } =
          assemble (pid &&& 0x1fff) stream {
            units := units ++ [pes]
            counter := continuity + BitVec.ofNat 8 n &&& 0x0f } := by
  have positive := List.length_pos_iff.mpr some_
  have fits : (pes.take 184).length ≤ 184 := by
    rw [List.length_take]
    omega
  have begun : pes.take 184 ≠ [] := by
    rw [← List.length_pos_iff, List.length_take]
    omega
  have whole := @pesPacket_length pid true continuity _ fits
  obtain ⟨n, length, rest⟩ := @assemble_rest pid (pes.drop 184) (continuity + 1 &&& 0x0f)
  unfold packetizePES
  rw [packetizePESFrom_cons (.inl rfl)]
  refine ⟨n + 1, ?_, fun stream units => ?_⟩
  · rw [List.length_append, whole, length]
    omega
  · rw [List.append_assoc, assemble_cons whole, take_pesPacket_first begun fits,
      Option.bind_some, rest, List.take_append_drop, counter_add]

/-- Packets of another PID are passed over. -/
theorem assemble_other {other : Half} (apart : pid &&& 0x1fff ≠ other) (first : Bool)
    (remaining : List Byte) (some_ : first = true → remaining ≠ []) (continuity : Byte)
    (stream : List Byte) (a : Assembly) :
    assemble other (packetizePESFrom pid first remaining continuity ++ stream) a =
      assemble other stream a := by
  induction count : remaining.length using Nat.strong_induction_on
    generalizing first remaining continuity with
  | _ count' ih =>
    by_cases spent : remaining = []
    · cases first with
      | true => exact absurd spent (some_ rfl)
      | false => rw [spent, packetizePESFrom_nil, List.nil_append]
    · have positive := List.length_pos_iff.mpr spent
      have fits : (remaining.take 184).length ≤ 184 := by
        rw [List.length_take]
        omega
      have more : remaining.take 184 ≠ [] := by
        rw [← List.length_pos_iff, List.length_take]
        omega
      have passed :
          a.take other (pesPacket pid first continuity (remaining.take 184)) = some a := by
        unfold Assembly.take
        rw [readPacket_pesPacket more fits]
        exact if_neg apart
      rw [packetizePESFrom_cons (.inr spent), List.append_assoc,
        assemble_cons (pesPacket_length fits), passed, Option.bind_some]
      exact ih _ (by rw [List.length_drop]; omega) false _ nofun _ rfl

/-- The counter `MediaTransport` goes on with. -/
theorem counter_packets (b : Byte) (n : Nat) :
    b + low (188 * n / 188 &&& 0x0f) &&& 0x0f = b + BitVec.ofNat 8 n &&& 0x0f := by
  have four := Nat.and_two_pow_sub_one_eq_mod n 4
  change n &&& 15 = _ at four
  rw [Nat.mul_div_cancel_left n (by decide), four]
  apply BitVec.eq_of_toNat_eq
  rw [counter_toNat, counter_toNat, BitVec.toNat_add, BitVec.toNat_add, low, BitVec.toNat_ofNat,
    BitVec.toNat_ofNat]
  omega

/-- **The PES on its way.**  Whatever `PES` accepts comes back: its packets, from any
counter, are one unit, with the counters in a row and the next as `MediaTransport` has it,
and the header has the stream, the time, the length and the payload. -/
theorem pes_round_trip {streamID : Byte} {pts90k : DoubleWord} {payload bytes : List Byte}
    (built : Broadcast.pes streamID pts90k payload = .ok bytes) (pid : Half) (continuity : Byte) :
    let packets := packetizePES pid bytes continuity
    assemble (pid &&& 0x1fff) packets { counter := continuity &&& 0x0f } = some {
        units := [bytes]
        counter := continuity + low (packets.length / 188 &&& 0x0f) &&& 0x0f } ∧
      Broadcast.readPES bytes = some {
        streamID
        pts90k := pts90k.toNat
        length := if 0xffff < 3 + 5 + payload.length then none else some payload.length
        payload } := by
  refine ⟨?_, Broadcast.readPES_pes built⟩
  obtain ⟨n, length, assembled⟩ :=
    @assemble_packetizePES pid bytes (Broadcast.pes_ne_nil built) continuity
  have whole := assembled [] []
  rw [List.append_nil, assemble_nil] at whole
  rw [whole, length, counter_packets]
  rfl

/-- One byte of video, whose header it comes back from. -/
theorem pes_round_trip_one :
    Broadcast.pes 0xe0 1 [7] = .ok [0, 0, 1, 0xe0, 0, 9, 0x80, 0x80, 5, 0x21, 0, 1, 0, 3, 7] ∧
      Broadcast.readPES [0, 0, 1, 0xe0, 0, 9, 0x80, 0x80, 5, 0x21, 0, 1, 0, 3, 7] =
        some { streamID := 0xe0, pts90k := 1, length := some 1, payload := [7] } :=
  ⟨rfl, (@pes_round_trip 0xe0 1 [7] [0, 0, 1, 0xe0, 0, 9, 0x80, 0x80, 5, 0x21, 0, 1, 0, 3, 7] rfl
    0x101 15).2⟩

end Dvb

namespace Dvb

variable {pid : Half}

theorem readPacket_sectionPacket {first : Bool} {continuity : Byte} {payload : List Byte}
    (fits : payload.length ≤ packetRoom first) :
    ∃ packet, readPacket (sectionPacket pid first continuity payload) = some packet ∧
      packet.pid = pid &&& 0x1fff := by
  have length := packetPayload_length fits
  have control := (counter_packed continuity).2.2
  have plain : (0x10 ||| continuity &&& 0x0f ||| 0 : Byte) = 0x10 ||| continuity &&& 0x0f :=
    BitVec.or_zero
  rw [plain] at control
  rw [sectionPacket_eq]
  refine ⟨_, @readPacket_header (packetPayload first payload) _ _ _ _ length ?_, ?_⟩
  · rw [control]
    rfl
  · exact (pid_halves pid first).1

/-- So are the packets of another PID's section. -/
theorem assemble_otherSection {other : Half} (apart : pid &&& 0x1fff ≠ other) (first : Bool)
    (remaining : List Byte) (continuity : Byte) (stream : List Byte) (a : Assembly) :
    assemble other (packetizeFrom pid first remaining continuity ++ stream) a =
      assemble other stream a := by
  induction count : remaining.length + first.toNat using Nat.strong_induction_on
    generalizing first remaining continuity with
  | _ count' ih =>
    by_cases spent : first = false ∧ remaining = []
    · unfold packetizeFrom
      rw [if_pos spent, List.nil_append]
    · have fits : (remaining.take (packetRoom first)).length ≤ packetRoom first :=
        List.length_take_le _ _
      obtain ⟨packet, read, address⟩ := @readPacket_sectionPacket pid first continuity _ fits
      have passed : a.take other (sectionPacket pid first continuity
          (remaining.take (packetRoom first))) = some a := by
        unfold Assembly.take
        rw [read]
        exact if_neg (address ▸ apart)
      have whole := @sectionPacket_length pid first continuity _ fits
      have less : (remaining.drop (packetRoom first)).length + false.toNat < count' := by
        rw [← count, List.length_drop, Bool.toNat_false]
        cases first with
        | true =>
          rw [Bool.toNat_true]
          omega
        | false =>
          have positive := List.length_pos_iff.mpr fun empty => spent ⟨rfl, empty⟩
          have room : packetRoom false = 184 := rfl
          omega
      conv_lhs => unfold packetizeFrom
      rw [if_neg spent, List.append_assoc, assemble_cons whole, passed, Option.bind_some]
      exact ih _ less false _ _ rfl

end Dvb

namespace Multiplex

open Broadcast Dvb

/-- The units of a PID, in the order they are sent in. -/
def unitsOf (pid : Half) (emissions : List MediaEmission) : List (List Byte) :=
  emissions.flatMap fun emission =>
    if emission.pid = pid then
      (pes emission.streamID emission.payload.pts90k emission.payload.data).toOption.toList
    else []

/-- A receiver of the PID has the units, and waits for the counter the transmitter
goes on with. -/
def Carriage.Holds (c : Carriage) (pid : Half) (units : List (List Byte)) : Prop :=
  ∀ stream, assemble pid (c.out ++ stream) { counter := 0 } =
    assemble pid stream { units, counter := c.continuity pid &&& 0x0f }

theorem Carriage.Holds.emit {c done : Carriage} {pid : Half} {units : List (List Byte)}
    {emission : MediaEmission} (holds : c.Holds pid units)
    (small : emission.pid &&& 0x1fff = emission.pid)
    (emitted : c.emit emission = .ok done) : done.Holds pid (units ++ unitsOf pid [emission]) := by
  unfold Carriage.emit at emitted
  obtain ⟨bytes, built, emitted⟩ := bind_eq_ok.mp emitted
  obtain rfl := Except.ok.inj emitted
  intro stream
  have some_ := pes_ne_nil built
  dsimp only
  rw [List.append_assoc, holds]
  by_cases here : emission.pid = pid
  · subst here
    obtain ⟨n, length, assembled⟩ := @assemble_packetizePES emission.pid bytes some_
      (c.continuity emission.pid)
    rw [small] at assembled
    rw [assembled, Function.update_self, length, counter_packets, BitVec.and_assoc,
      BitVec.and_self]
    simp [unitsOf, built, Except.toOption]
  · have apart : emission.pid &&& 0x1fff ≠ pid := by
      rw [small]
      exact here
    rw [packetizePES, assemble_other apart true bytes (fun _ => some_),
      Function.update_of_ne (Ne.symm here)]
    simp [unitsOf, here]

theorem Carriage.Holds.emitAll {c done : Carriage} {pid : Half} {units : List (List Byte)}
    {emissions : List MediaEmission} (holds : c.Holds pid units)
    (small : ∀ emission ∈ emissions, emission.pid &&& 0x1fff = emission.pid)
    (emitted : emissions.foldlM Carriage.emit c = .ok done) :
    done.Holds pid (units ++ unitsOf pid emissions) := by
  induction emissions generalizing c units with
  | nil =>
    obtain rfl := Except.ok.inj emitted
    rw [unitsOf, List.flatMap_nil, List.append_nil]
    exact holds
  | cons emission emissions ih =>
    rw [List.foldlM_cons] at emitted
    obtain ⟨next, first, emitted⟩ := bind_eq_ok.mp emitted
    have behind := holds.emit (small emission List.mem_cons_self) first
    have rest := ih behind (fun other member => small other (List.mem_cons_of_mem _ member)) emitted
    rw [List.append_assoc] at rest
    have units : unitsOf pid (emission :: emissions) =
        unitsOf pid [emission] ++ unitsOf pid emissions := by
      simp [unitsOf]
    rw [units]
    exact rest

/-- A receiver of either component has exactly its units, each once, in the order of their
times. -/
theorem mediaTransport_units {transportStreamID serviceID : Half} {version : Byte}
    {video audio : List EncodedPayload} {stream : List Byte}
    (built : mediaTransport transportStreamID serviceID version video audio = .ok stream)
    {pid : Half} (component : pid = videoPID ∨ pid = audioPID) :
    ∃ counter, assemble pid stream { counter := 0 } =
      some { units := unitsOf pid (mediaEmissions video audio), counter } := by
  unfold mediaTransport at built
  obtain ⟨_, built⟩ := check_ok built
  obtain ⟨pat, -, built⟩ := bind_eq_ok.mp built
  obtain ⟨pmt, -, built⟩ := bind_eq_ok.mp built
  obtain ⟨done, emitted, built⟩ := bind_eq_ok.mp built
  obtain rfl := Except.ok.inj built
  have tables : Carriage.Holds
      { out := packetizeSection 0x00 pat 0 ++ packetizeSection programmeMapPID pmt 0 } pid [] := by
    intro stream
    have apartPAT : (0x00 : Half) &&& 0x1fff ≠ pid := by
      rcases component with rfl | rfl <;> decide
    have apartPMT : programmeMapPID &&& 0x1fff ≠ pid := by
      rcases component with rfl | rfl <;> decide
    dsimp only
    rw [List.append_assoc, packetizeSection, packetizeSection, assemble_otherSection apartPAT,
      assemble_otherSection apartPMT]
    rfl
  have small : ∀ emission ∈ mediaEmissions video audio,
      emission.pid &&& 0x1fff = emission.pid := by
    intro emission member
    rw [mediaEmissions, List.mem_mergeSort, List.mem_append, List.mem_map, List.mem_map] at member
    rcases member with ⟨payload, -, rfl⟩ | ⟨payload, -, rfl⟩
    · exact (by decide : videoPID &&& 0x1fff = videoPID)
    · exact (by decide : audioPID &&& 0x1fff = audioPID)
  have whole := tables.emitAll small emitted []
  rw [List.append_nil, assemble_nil] at whole
  exact ⟨_, whole⟩

end Multiplex

end GoRetroTv
