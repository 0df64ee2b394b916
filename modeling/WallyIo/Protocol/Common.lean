import Mathlib.Order.Lattice
import Mathlib.Tactic.Common

/-!
# Data types shared by all packets

Quality of service, control packet types, the flag byte that every packet starts
with and the length of a packet on the wire.

Main results:

- Theorem {lit}`qosOf_qosInto`: a quality of service written into a flag byte is
  read back.
- Theorem {lit}`typeOf_typeInto`: so is a packet type.
- Theorem {lit}`totalLength_toNat`: the total length adds the fixed header.
-/

namespace WallyIo
namespace Protocol

/-! ## Failures -/

/-- The ways in which a call does not return. -/
inductive Fault
  /-- An {lit}`assert` does not hold. -/
  | assertion
  /-- {lit}`malformed_mqtt_packet` is thrown. -/
  | malformedMqttPacket (what : String)
  /-- {lit}`std::invalid_argument` is thrown. -/
  | invalidArgument (what : String)
  /-- {lit}`std::system_error` is thrown. -/
  | systemError
  /-- The language gives the operation no meaning. -/
  | undefinedBehaviour
deriving DecidableEq, Repr

/-- {lit}`assert( condition )`, which is compiled into every configuration. -/
def assert (condition : Bool) : Except Fault Unit :=
  if condition then .ok () else .error .assertion

@[simp]
theorem assert_true : assert true = .ok () := rfl

@[simp]
theorem assert_false : assert false = .error .assertion := rfl

/-- An assertion in front of a computation that returns holds. -/
theorem assert_bind_eq_ok_iff {α : Type} {condition : Bool} {k : Unit → Except Fault α}
    {a : α} : (assert condition >>= k) = .ok a ↔ condition = true ∧ k () = .ok a := by
  cases condition with
  | false => simp [assert, bind, Except.bind]
  | true => simp [assert, bind, Except.bind]

/-- A sequence of steps that returns consists of steps that return. -/
theorem bind_eq_ok_iff {α β : Type} {x : Except Fault α} {f : α → Except Fault β} {b : β} :
    (x >>= f) = .ok b ↔ ∃ a, x = .ok a ∧ f a = .ok b := by
  cases x <;> simp [bind, Except.bind]

/-- A step whose result is converted returns if it does without the conversion. -/
theorem map_eq_ok_iff {α β : Type} {x : Except Fault α} {f : α → β} {b : β} :
    x.map f = .ok b ↔ ∃ a, x = .ok a ∧ f a = b := by
  cases x <;> simp [Except.map]

/-- Strings are sequences of bytes. -/
abbrev Bytes := List UInt8

/-- The string that a C string pointer denotes: it ends at the first null byte. -/
def cString (s : Bytes) : Bytes := s.takeWhile (· ≠ 0)

/-- The bytes of a string that stands in a message. -/
def toText (s : Bytes) : String := String.ofList (s.map fun b => Char.ofNat b.toNat)

/-! ## Quality of service -/

/-- Quality of service. -/
inductive QoS
  | atMostOnce
  | atLeastOnce
  | exactlyOnce
  | reserved
deriving DecidableEq, Repr

/-- The value of the enumerator. -/
def QoS.toUInt8 : QoS → UInt8
  | .atMostOnce => 0
  | .atLeastOnce => 1
  | .exactlyOnce => 2
  | .reserved => 3

/-- The order of the enumerators. -/
def QoS.rank (qos : QoS) : Nat := qos.toUInt8.toNat

theorem QoS.rank_injective : Function.Injective QoS.rank := by
  intro a b
  cases a <;> cases b <;> decide

instance : LinearOrder QoS := LinearOrder.lift' QoS.rank QoS.rank_injective

/-- Read a quality of service from two bits of a byte. -/
def qosOf (byte : UInt8) (leftShift : UInt8) : QoS :=
  match (byte >>> leftShift) &&& 0x03 with
  | 0x00 => .atMostOnce
  | 0x01 => .atLeastOnce
  | 0x02 => .exactlyOnce
  | _ => .reserved

/-- Write a quality of service into a byte. -/
def qosInto (qos : QoS) (byte : UInt8) (leftShift : UInt8) : UInt8 :=
  let qosMask : UInt8 :=
    match qos with
    | .atMostOnce => (0x00 : UInt8) <<< leftShift
    | .atLeastOnce => (0x01 : UInt8) <<< leftShift
    | .exactlyOnce => (0x02 : UInt8) <<< leftShift
    | .reserved => (0x0F : UInt8) <<< leftShift
  (byte &&& ((0xFF : UInt8) - ((0x03 : UInt8) <<< leftShift))) ||| qosMask

/-! ## Packet types -/

/-- Type of a control packet. -/
inductive PacketType
  | reserved1
  | connect
  | connack
  | publish
  | puback
  | pubrec
  | pubrel
  | pubcomp
  | subscribe
  | suback
  | unsubscribe
  | unsuback
  | pingreq
  | pingresp
  | disconnect
  | reserved2
deriving DecidableEq, Repr

/-- The type encoded in the upper half of a packet's first byte. -/
def typeOf (typeAndFlags : UInt8) : PacketType :=
  match (typeAndFlags &&& 0xF0) >>> 4 with
  | 0x00 => .reserved1
  | 0x01 => .connect
  | 0x02 => .connack
  | 0x03 => .publish
  | 0x04 => .puback
  | 0x05 => .pubrec
  | 0x06 => .pubrel
  | 0x07 => .pubcomp
  | 0x08 => .subscribe
  | 0x09 => .suback
  | 0x0A => .unsubscribe
  | 0x0B => .unsuback
  | 0x0C => .pingreq
  | 0x0D => .pingresp
  | 0x0E => .disconnect
  | _ => .reserved2

/-- The bits that encode a packet type. -/
def PacketType.mask : PacketType → UInt8
  | .reserved1 => 0x00
  | .connect => 0x10
  | .connack => 0x20
  | .publish => 0x30
  | .puback => 0x40
  | .pubrec => 0x50
  | .pubrel => 0x60
  | .pubcomp => 0x70
  | .subscribe => 0x80
  | .suback => 0x90
  | .unsubscribe => 0xA0
  | .unsuback => 0xB0
  | .pingreq => 0xC0
  | .pingresp => 0xD0
  | .disconnect => 0xE0
  | .reserved2 => 0xF0

/-- Write a packet type into the upper half of a byte. -/
def typeInto (type : PacketType) (typeAndFlags : UInt8) : UInt8 :=
  (typeAndFlags &&& 0x0F) ||| type.mask

/-! ## Flags -/

/-- Whether the DUP flag is set. -/
def dupOf (typeAndFlags : UInt8) : Bool := (typeAndFlags &&& 0x08) == 0x08

/-- Set or clear the DUP flag. -/
def dupInto (dup : Bool) (typeAndFlags : UInt8) : UInt8 :=
  if dup then typeAndFlags ||| 0x08 else typeAndFlags &&& ~~~0x08

/-- Whether the RETAIN flag is set. -/
def retainOf (typeAndFlags : UInt8) : Bool := (typeAndFlags &&& 0x01) == 0x01

/-- Set or clear the RETAIN flag. -/
def retainInto (retain : Bool) (typeAndFlags : UInt8) : UInt8 :=
  if retain then typeAndFlags ||| 0x01 else typeAndFlags &&& ~~~0x01

/-! ## Replacing bits of a byte -/

/-- Bits that are replaced are read back through a selection that lies inside
them. -/
theorem select_replaced {byte keep bits sel : UInt8} (h : keep &&& sel = 0) :
    ((byte &&& keep) ||| bits) &&& sel = bits &&& sel := by
  have hbits : keep.toBitVec &&& sel.toBitVec = 0#8 := congrArg UInt8.toBitVec h
  apply UInt8.toBitVec_inj.mp
  ext i hi
  have hi' := congrArg (fun v : BitVec 8 => v[i]) hbits
  simp only [BitVec.getElem_and, BitVec.getElem_zero] at hi'
  simp only [UInt8.toBitVec_and, UInt8.toBitVec_or, BitVec.getElem_and, BitVec.getElem_or]
  rw [Bool.and_or_distrib_right, Bool.and_assoc, hi', Bool.and_false, Bool.false_or]

/-- Bits that are kept are read back through a selection that avoids the new
bits. -/
theorem select_kept {byte keep bits sel : UInt8} (hkeep : keep &&& sel = sel)
    (hbits : bits &&& sel = 0) : ((byte &&& keep) ||| bits) &&& sel = byte &&& sel := by
  have hkeep' : keep.toBitVec &&& sel.toBitVec = sel.toBitVec :=
    congrArg UInt8.toBitVec hkeep
  have hbits' : bits.toBitVec &&& sel.toBitVec = 0#8 := congrArg UInt8.toBitVec hbits
  apply UInt8.toBitVec_inj.mp
  ext i hi
  have hk := congrArg (fun v : BitVec 8 => v[i]) hkeep'
  have hb := congrArg (fun v : BitVec 8 => v[i]) hbits'
  simp only [BitVec.getElem_and, BitVec.getElem_zero] at hk hb
  simp only [UInt8.toBitVec_and, UInt8.toBitVec_or, BitVec.getElem_and, BitVec.getElem_or]
  rw [Bool.and_or_distrib_right, Bool.and_assoc, hk, hb, Bool.or_false]

/-- Bits that are set are read back. -/
theorem select_set (byte bits : UInt8) : (byte ||| bits) &&& bits = bits := by
  apply UInt8.toBitVec_inj.mp
  ext i hi
  simp only [UInt8.toBitVec_and, UInt8.toBitVec_or, BitVec.getElem_and, BitVec.getElem_or]
  rw [Bool.and_or_distrib_right, Bool.and_self]
  cases bits.toBitVec[i] <;> simp

/-- Setting bits is replacing them, and so is clearing them. -/
theorem or_eq_replace (byte bits : UInt8) : byte ||| bits = (byte &&& 0xFF) ||| bits := by
  have hall : byte &&& 0xFF = byte := UInt8.and_neg_one
  rw [hall]

theorem and_eq_replace (byte keep : UInt8) : byte &&& keep = (byte &&& keep) ||| 0 := by
  simp

/-- The packet type depends on the upper half of a byte only. -/
theorem typeOf_congr {a b : UInt8} (h : a &&& 0xF0 = b &&& 0xF0) : typeOf a = typeOf b := by
  unfold typeOf
  rw [h]

/-- The quality of service of a PUBLISH depends on two bits only. -/
theorem qosOf_congr {a b : UInt8} (h : a &&& 0x06 = b &&& 0x06) :
    qosOf a 1 = qosOf b 1 := by
  have hshift : ∀ c : UInt8,
      (c >>> (1 : UInt8)) &&& (0x03 : UInt8) = (c &&& (0x06 : UInt8)) >>> (1 : UInt8) := by
    intro c
    rw [UInt8.shiftRight_and]
    rfl
  unfold qosOf
  rw [hshift a, hshift b, h]

/-- A quality of service written into the flags of a PUBLISH is read back. -/
theorem qosOf_qosInto (qos : QoS) (byte : UInt8) : qosOf (qosInto qos byte 1) 1 = qos := by
  cases qos <;>
  · unfold qosInto
    rw [qosOf_congr (select_replaced (by decide))]
    rfl

/-- A packet type written into a byte is read back. -/
theorem typeOf_typeInto (type : PacketType) (byte : UInt8) :
    typeOf (typeInto type byte) = type := by
  unfold typeInto
  rw [typeOf_congr (select_replaced (by decide))]
  cases type <;> rfl

/-- Writing the DUP flag changes neither type nor quality of service. -/
theorem dupInto_frame (dup : Bool) (byte : UInt8) :
    typeOf (dupInto dup byte) = typeOf byte ∧ qosOf (dupInto dup byte) 1 = qosOf byte 1 ∧
      dupOf (dupInto dup byte) = dup := by
  cases dup with
  | true =>
      simp only [dupInto, if_true]
      rw [or_eq_replace]
      refine ⟨typeOf_congr (select_kept (by decide) (by decide)),
        qosOf_congr (select_kept (by decide) (by decide)), ?_⟩
      rw [← or_eq_replace, dupOf, select_set]
      rfl
  | false =>
      simp only [dupInto, Bool.false_eq_true, if_false]
      rw [and_eq_replace]
      refine ⟨typeOf_congr (select_kept (by decide) (by decide)),
        qosOf_congr (select_kept (by decide) (by decide)), ?_⟩
      rw [dupOf, select_replaced (by decide)]
      rfl

/-- Writing the DUP flag keeps the RETAIN flag. -/
theorem retainOf_dupInto (dup : Bool) (byte : UInt8) :
    retainOf (dupInto dup byte) = retainOf byte := by
  cases dup with
  | true =>
      rw [dupInto, if_pos rfl, or_eq_replace, retainOf, retainOf,
        select_kept (by decide) (by decide)]
  | false =>
      rw [dupInto, if_neg (by decide), and_eq_replace, retainOf, retainOf,
        select_kept (by decide) (by decide)]

/-- Writing the RETAIN flag changes neither type nor quality of service. -/
theorem retainInto_frame (retain : Bool) (byte : UInt8) :
    typeOf (retainInto retain byte) = typeOf byte ∧
      qosOf (retainInto retain byte) 1 = qosOf byte 1 ∧
        retainOf (retainInto retain byte) = retain := by
  cases retain with
  | true =>
      simp only [retainInto, if_true]
      rw [or_eq_replace]
      refine ⟨typeOf_congr (select_kept (by decide) (by decide)),
        qosOf_congr (select_kept (by decide) (by decide)), ?_⟩
      rw [← or_eq_replace, retainOf, select_set]
      rfl
  | false =>
      simp only [retainInto, Bool.false_eq_true, if_false]
      rw [and_eq_replace]
      refine ⟨typeOf_congr (select_kept (by decide) (by decide)),
        qosOf_congr (select_kept (by decide) (by decide)), ?_⟩
      rw [retainOf, select_replaced (by decide)]
      rfl

/-- A RETAIN flag that is cleared and set again is as it was. -/
theorem retainInto_retainInto {byte : UInt8} (h : retainOf byte = true) :
    retainInto true (retainInto false byte) = byte := by
  have hset : byte &&& 0x01 = 0x01 := eq_of_beq h
  have hsplit : (byte &&& ~~~0x01) ||| (byte &&& 0x01) = byte := by
    apply UInt8.toBitVec_inj.mp
    change (byte.toBitVec &&& ~~~0x01#8) ||| (byte.toBitVec &&& 0x01#8) = byte.toBitVec
    rw [← BitVec.and_or_distrib_left]
    exact BitVec.and_allOnes
  rw [hset] at hsplit
  exact hsplit

/-- Writing the RETAIN flag keeps the DUP flag. -/
theorem dupOf_retainInto (retain : Bool) (byte : UInt8) :
    dupOf (retainInto retain byte) = dupOf byte := by
  cases retain with
  | true =>
      rw [retainInto, if_pos rfl, or_eq_replace, dupOf, dupOf, select_kept (by decide) (by decide)]
  | false =>
      rw [retainInto, if_neg (by decide), and_eq_replace, dupOf, dupOf,
        select_kept (by decide) (by decide)]

/-! ## Lengths -/

/-- The largest remaining length a packet may have. -/
def maxAllowedPacketLength : UInt32 := 268435455

/-- A packet's length on the wire, given its remaining length. -/
def totalLength (remainingLength : UInt32) : UInt32 :=
  let remLengthBytes : UInt32 :=
    if remainingLength ≤ 127 then 1
    else if remainingLength ≤ 16383 then 2
    else if remainingLength ≤ 2097151 then 3
    else 4
  1 + remLengthBytes + remainingLength

/-- The number of bytes that the remaining length occupies in a packet. -/
def remLengthBytes (remainingLength : UInt32) : Nat :=
  if remainingLength ≤ 127 then 1
  else if remainingLength ≤ 16383 then 2
  else if remainingLength ≤ 2097151 then 3
  else 4

theorem le_maxAllowedPacketLength_iff {remainingLength : UInt32} :
    remainingLength ≤ maxAllowedPacketLength ↔ remainingLength.toNat ≤ 268435455 := by
  rw [UInt32.le_iff_toNat_le]
  rfl

/-- There are one to four of them. -/
theorem remLengthBytes_bounds (remainingLength : UInt32) :
    1 ≤ remLengthBytes remainingLength ∧ remLengthBytes remainingLength ≤ 4 := by
  unfold remLengthBytes
  split
  · decide
  · split
    · decide
    · split <;> decide

/-- No overflow occurs in the total length of a packet of legal size. -/
theorem totalLength_toNat {remainingLength : UInt32}
    (h : remainingLength ≤ maxAllowedPacketLength) :
    (totalLength remainingLength).toNat =
      1 + remLengthBytes remainingLength + remainingLength.toNat := by
  have hbound := le_maxAllowedPacketLength_iff.mp h
  unfold totalLength remLengthBytes
  split
  · simp only [UInt32.toNat_add, UInt32.reduceToNat]
    omega
  · split
    · simp only [UInt32.toNat_add, UInt32.reduceToNat]
      omega
    · split <;>
      · simp only [UInt32.toNat_add, UInt32.reduceToNat]
        omega

end Protocol
end WallyIo
