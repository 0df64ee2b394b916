import WallyIo.Codec.FrameReader
import WallyIo.Protocol.Packet

/-!
# Decoding fields

The decoders move an iterator over the read buffer.  Distances are signed: an
iterator may stand behind the end of the frame, but reading behind the end of the
buffer is undefined.

Main results:

- Theorem {lit}`caught_bind`: a sequence of steps raises nothing but
  {lit}`malformed_mqtt_packet` if each step does so.
- Theorems {lit}`caught_decodeUint16`, {lit}`caught_decodeUtf8String` and
  {lit}`caught_decodeQos`: the field decoders read inside of the frame only.
- Theorem {lit}`decodeUtf8String_eq_ok_iff`: which strings are decoded from which
  buffers.
-/

namespace WallyIo
namespace Codec

open Protocol
open Library

/-! ## Steps of a decoder -/

/-- Throw if a condition holds. -/
def throwIf (condition : Prop) [Decidable condition] (what : String) : Except Fault Unit :=
  if condition then .error (.malformedMqttPacket what) else .ok ()

/-- {lit}`std::distance` of two iterators. -/
def distance (pos endPos : Nat) : Int := (endPos : Int) - (pos : Int)

/-- Dereference an iterator. -/
def readByte (buffer : Bytes) (pos : Nat) : Except Fault UInt8 :=
  match buffer[pos]? with
  | some byte => .ok byte
  | none => .error .undefinedBehaviour

/-- Copy the bytes of a range. -/
def readBytes (buffer : Bytes) (pos n : Nat) : Except Fault Bytes :=
  if pos + n ≤ buffer.length then .ok ((buffer.drop pos).take n)
  else .error .undefinedBehaviour

/-- A 16 bit unsigned integer, most significant byte first. -/
def decodeUint16 (buffer : Bytes) (pos endPos : Nat) : Except Fault (Nat × UInt16) := do
  throwIf (distance pos endPos < 2) "Encoding a 16 bit unsigned int needs at least two bytes"
  let msb ← readByte buffer pos
  let lsb ← readByte buffer (pos + 1)
  .ok (pos + 2, UInt16.ofNat (msb.toNat * 2 ^ 8 + lsb.toNat))

/-- A quality of service. -/
def decodeQos (buffer : Bytes) (pos endPos : Nat) : Except Fault (Nat × QoS) := do
  throwIf (distance pos endPos < 1) "Encoding QoS needs at least one byte"
  let byte ← readByte buffer pos
  .ok (pos + 1, qosOf byte 0)

/-- A string in front of which its length stands. -/
def decodeUtf8String (buffer : Bytes) (pos endPos : Nat) : Except Fault (Nat × Bytes) := do
  throwIf (distance pos endPos < 2) "Encoding an UTF-8 string needs at least two bytes"
  let (pos, stringLength) ← decodeUint16 buffer pos endPos
  throwIf (distance pos endPos < stringLength.toNat)
    "Buffer truncated: cannot decode UTF-8 string"
  let parsedString ← readBytes buffer pos stringLength.toNat
  .ok (pos + stringLength.toNat, parsedString)

/-! ## Failures that are caught -/

/-- The computation returns or throws {lit}`malformed_mqtt_packet`. -/
def Caught {α : Type} : Except Fault α → Prop
  | .ok _ => True
  | .error (.malformedMqttPacket _) => True
  | .error _ => False

variable {α β : Type}

@[simp]
theorem caught_ok (a : α) : Caught (.ok a : Except Fault α) := trivial

@[simp]
theorem caught_malformed (what : String) :
    Caught (.error (.malformedMqttPacket what) : Except Fault α) := trivial

@[simp]
theorem not_caught_undefinedBehaviour :
    ¬ Caught (.error .undefinedBehaviour : Except Fault α) := id

@[simp]
theorem not_caught_systemError : ¬ Caught (.error .systemError : Except Fault α) := id

@[simp]
theorem not_caught_assertion : ¬ Caught (.error .assertion : Except Fault α) := id

@[simp]
theorem not_caught_invalidArgument (what : String) :
    ¬ Caught (.error (.invalidArgument what) : Except Fault α) := id

/-- A sequence of two steps is caught exactly if both are. -/
theorem caught_bind_iff {x : Except Fault α} {f : α → Except Fault β} :
    Caught (x >>= f) ↔ Caught x ∧ ∀ a, x = .ok a → Caught (f a) := by
  cases x with
  | error failure =>
      cases failure <;> simp [bind, Except.bind]
  | ok a =>
      simp [bind, Except.bind]

/-- A sequence of two steps is caught if both are. -/
theorem caught_bind {x : Except Fault α} {f : α → Except Fault β} (hx : Caught x)
    (hf : ∀ a, x = .ok a → Caught (f a)) : Caught (x >>= f) :=
  caught_bind_iff.mpr ⟨hx, hf⟩

@[simp]
theorem caught_throwIf (condition : Prop) [Decidable condition] (what : String) :
    Caught (throwIf condition what) := by
  unfold throwIf
  split <;> simp

@[simp]
theorem throwIf_eq_ok_iff {condition : Prop} [Decidable condition] {what : String}
    {u : Unit} : throwIf condition what = .ok u ↔ ¬ condition := by
  unfold throwIf
  split <;> simp_all

/-- A check in front of a caught computation is caught. -/
theorem caught_throwIf_bind {condition : Prop} [Decidable condition] {what : String}
    {f : Unit → Except Fault α} (hf : ¬ condition → Caught (f ())) :
    Caught (throwIf condition what >>= f) := by
  apply caught_bind
  · simp
  · intro u hu
    exact hf (throwIf_eq_ok_iff.mp hu)

/-! ## Reading -/

/-- Inside of the buffer an iterator can be dereferenced. -/
theorem readByte_of_lt {buffer : Bytes} {pos : Nat} (h : pos < buffer.length) :
    readByte buffer pos = .ok buffer[pos] := by
  simp [readByte, h]

/-- Behind the end of the buffer it cannot. -/
theorem readByte_of_le {buffer : Bytes} {pos : Nat} (h : buffer.length ≤ pos) :
    readByte buffer pos = .error .undefinedBehaviour := by
  simp [readByte, h]

theorem caught_readByte {buffer : Bytes} {pos : Nat} (h : pos < buffer.length) :
    Caught (readByte buffer pos) := by
  rw [readByte_of_lt h]
  exact caught_ok _

theorem readBytes_of_le {buffer : Bytes} {pos n : Nat} (h : pos + n ≤ buffer.length) :
    readBytes buffer pos n = .ok ((buffer.drop pos).take n) := if_pos h

theorem caught_readBytes {buffer : Bytes} {pos n : Nat} (h : pos + n ≤ buffer.length) :
    Caught (readBytes buffer pos n) := by
  rw [readBytes_of_le h]
  exact caught_ok _

/-! ## Fields -/

/-- The bytes at and behind an iterator. -/
theorem getElem?_of_drop_eq {buffer rest : Bytes} {pos : Nat} {msb lsb : UInt8}
    (h : buffer.drop pos = msb :: lsb :: rest) :
    buffer[pos]? = some msb ∧ buffer[pos + 1]? = some lsb ∧ buffer.drop (pos + 2) = rest := by
  have hfirst : (buffer.drop pos)[0]? = some msb := by rw [h]; rfl
  have hsecond : (buffer.drop pos)[1]? = some lsb := by rw [h]; rfl
  have hrest : (buffer.drop pos).drop 2 = rest := by rw [h]; rfl
  rw [List.getElem?_drop] at hfirst hsecond
  rw [List.drop_drop] at hrest
  exact ⟨hfirst, hsecond, hrest⟩

/-- Two bytes follow an iterator that is far enough from the end. -/
theorem exists_drop_eq {buffer : Bytes} {pos : Nat} (h : pos + 2 ≤ buffer.length) :
    ∃ msb lsb rest, buffer.drop pos = msb :: lsb :: rest := by
  rw [List.drop_eq_getElem_cons (by omega), List.drop_eq_getElem_cons (by omega)]
  exact ⟨_, _, _, rfl⟩

/-- What an integer decoder computes if there are enough bytes. -/
theorem decodeUint16_of_drop_eq {buffer rest : Bytes} {pos endPos : Nat} {msb lsb : UInt8}
    (hbytes : buffer.drop pos = msb :: lsb :: rest) (h : pos + 2 ≤ endPos) :
    decodeUint16 buffer pos endPos =
      .ok (pos + 2, UInt16.ofNat (msb.toNat * 2 ^ 8 + lsb.toNat)) := by
  have hroom : ¬ distance pos endPos < 2 := by
    unfold distance
    omega
  rcases getElem?_of_drop_eq hbytes with ⟨hmsb, hlsb, -⟩
  unfold decodeUint16
  rw [throwIf, if_neg hroom, readByte, hmsb, readByte, hlsb]
  rfl

/-- An integer needs two bytes. -/
theorem decodeUint16_of_lt {buffer : Bytes} {pos endPos : Nat} (h : endPos < pos + 2) :
    decodeUint16 buffer pos endPos = .error (.malformedMqttPacket
      "Encoding a 16 bit unsigned int needs at least two bytes") := by
  have hroom : distance pos endPos < 2 := by
    unfold distance
    omega
  unfold decodeUint16
  rw [throwIf, if_pos hroom]
  rfl

theorem caught_decodeUint16 {buffer : Bytes} {pos endPos : Nat}
    (hend : endPos ≤ buffer.length) : Caught (decodeUint16 buffer pos endPos) := by
  by_cases h : pos + 2 ≤ endPos
  · rcases exists_drop_eq (Nat.le_trans h hend) with ⟨msb, lsb, rest, hbytes⟩
    rw [decodeUint16_of_drop_eq hbytes h]
    exact caught_ok _
  · rw [decodeUint16_of_lt (by omega)]
    exact caught_malformed _

/-- A decoded integer stands in the buffer, inside of the frame. -/
theorem decodeUint16_eq_ok_iff {buffer : Bytes} {pos endPos pos' : Nat} {n : UInt16}
    (hend : endPos ≤ buffer.length) :
    decodeUint16 buffer pos endPos = .ok (pos', n) ↔
      pos' = pos + 2 ∧ pos + 2 ≤ endPos ∧
        ∃ msb lsb rest, buffer.drop pos = msb :: lsb :: rest ∧
          n = UInt16.ofNat (msb.toNat * 2 ^ 8 + lsb.toNat) := by
  by_cases hroom : pos + 2 ≤ endPos
  · rcases exists_drop_eq (Nat.le_trans hroom hend) with ⟨msb, lsb, rest, hbytes⟩
    rw [decodeUint16_of_drop_eq hbytes hroom]
    constructor
    · intro h
      cases h
      exact ⟨rfl, hroom, msb, lsb, rest, hbytes, rfl⟩
    · rintro ⟨rfl, -, msb', lsb', rest', hbytes', rfl⟩
      rw [hbytes] at hbytes'
      cases hbytes'
      rfl
  · rw [decodeUint16_of_lt (by omega)]
    constructor
    · intro h
      cases h
    · rintro ⟨-, hle, -⟩
      exact absurd hle hroom

theorem caught_decodeQos {buffer : Bytes} {pos endPos : Nat}
    (hend : endPos ≤ buffer.length) : Caught (decodeQos buffer pos endPos) := by
  unfold decodeQos
  apply caught_throwIf_bind
  intro hroom
  apply caught_bind
  · apply caught_readByte
    unfold distance at hroom
    omega
  · intro byte _
    exact caught_ok _

/-- A decoded quality of service lies inside of the frame. -/
theorem decodeQos_eq_ok {buffer : Bytes} {pos endPos pos' : Nat} {qos : QoS}
    (h : decodeQos buffer pos endPos = .ok (pos', qos)) :
    pos' = pos + 1 ∧ pos + 1 ≤ endPos := by
  unfold decodeQos at h
  rcases bind_eq_ok_iff.mp h with ⟨u, hroom, hread⟩
  rcases bind_eq_ok_iff.mp hread with ⟨byte, -, hresult⟩
  rw [throwIf_eq_ok_iff] at hroom
  unfold distance at hroom
  cases hresult
  exact ⟨rfl, by omega⟩

theorem caught_decodeUtf8String {buffer : Bytes} {pos endPos : Nat}
    (hend : endPos ≤ buffer.length) : Caught (decodeUtf8String buffer pos endPos) := by
  unfold decodeUtf8String
  apply caught_throwIf_bind
  intro _
  apply caught_bind (caught_decodeUint16 hend)
  rintro ⟨pos', stringLength⟩ hlength
  apply caught_throwIf_bind
  intro hroom
  apply caught_bind
  · apply caught_readBytes
    unfold distance at hroom
    omega
  · intro parsedString _
    exact caught_ok _

/-- A decoded string stands in the buffer behind its length, inside of the frame. -/
theorem decodeUtf8String_eq_ok_iff {buffer : Bytes} {pos endPos pos' : Nat} {s : Bytes}
    (hend : endPos ≤ buffer.length) :
    decodeUtf8String buffer pos endPos = .ok (pos', s) ↔
      pos' = pos + 2 + s.length ∧ pos' ≤ endPos ∧
        ∃ msb lsb rest, buffer.drop pos = msb :: lsb :: (s ++ rest) ∧
          s.length = msb.toNat * 2 ^ 8 + lsb.toNat := by
  constructor
  · intro h
    unfold decodeUtf8String at h
    rcases bind_eq_ok_iff.mp h with ⟨_, _, hlength⟩
    rcases bind_eq_ok_iff.mp hlength with ⟨⟨next, stringLength⟩, huint, hbody⟩
    rcases bind_eq_ok_iff.mp hbody with ⟨_, hroom, hread⟩
    rcases bind_eq_ok_iff.mp hread with ⟨parsedString, hparsed, hresult⟩
    rw [throwIf_eq_ok_iff] at hroom
    unfold distance at hroom
    rcases (decodeUint16_eq_ok_iff hend).mp huint with
      ⟨rfl, hle, msb, lsb, rest, hbytes, rfl⟩
    have hnumber : (UInt16.ofNat (msb.toNat * 2 ^ 8 + lsb.toNat)).toNat =
        msb.toNat * 2 ^ 8 + lsb.toNat := by
      have hmsb := msb.toNat_lt
      have hlsb := lsb.toNat_lt
      rw [UInt16.toNat_ofNat']
      omega
    rw [hnumber] at hroom hparsed hresult
    rw [readBytes_of_le (by omega)] at hparsed
    cases hparsed
    cases hresult
    have hsize : ((buffer.drop (pos + 2)).take (msb.toNat * 2 ^ 8 + lsb.toNat)).length =
        msb.toNat * 2 ^ 8 + lsb.toNat := by
      rw [List.length_take, List.length_drop]
      omega
    refine ⟨by rw [hsize], by omega, msb, lsb,
      (buffer.drop (pos + 2)).drop (msb.toNat * 2 ^ 8 + lsb.toNat), ?_, hsize⟩
    rw [List.take_append_drop, hbytes, (getElem?_of_drop_eq hbytes).2.2]
  · rintro ⟨rfl, hle, msb, lsb, rest, hbytes, hlength⟩
    have hroom : ¬ distance pos endPos < 2 := by
      unfold distance
      omega
    have hnumber : (UInt16.ofNat (msb.toNat * 2 ^ 8 + lsb.toNat)).toNat = s.length := by
      have hmsb := msb.toNat_lt
      have hlsb := lsb.toNat_lt
      rw [UInt16.toNat_ofNat']
      omega
    have hfits : ¬ distance (pos + 2) endPos < s.length := by
      unfold distance
      omega
    unfold decodeUtf8String
    rw [throwIf, if_neg hroom, decodeUint16_of_drop_eq hbytes (by omega)]
    simp only [bind, Except.bind]
    rw [hnumber, throwIf, if_neg hfits, readBytes_of_le (by omega),
      (getElem?_of_drop_eq hbytes).2.2, List.take_left']
    rfl

end Codec
end WallyIo
