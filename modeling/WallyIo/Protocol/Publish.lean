import WallyIo.Protocol.Common

/-!
# PUBLISH packets

A PUBLISH carries its quality of service, DUP and RETAIN flags in its first byte.
Changing the quality of service keeps the remaining length in step with the
presence of a packet identifier.

Main results:

- Theorem {lit}`setQos_eq_ok`: assigning a quality of service succeeds unless the
  old one is reserved.
- Theorem {lit}`qos_of_setQos`: it is read back afterwards.
- Theorem {lit}`setQos_frame`: nothing but flags and remaining length changes.
-/

namespace WallyIo
namespace Protocol

/-- A PUBLISH control packet.  Its constructor asserts the packet type. -/
structure Publish where
  typeAndFlags : UInt8
  remainingLength : UInt32
  topic : List UInt8
  packetIdentifier : UInt16
  applicationMessage : List UInt8
  isPublish : typeOf typeAndFlags = .publish
deriving DecidableEq, Repr

namespace Publish

/-- The flags that {lit}`create` assembles. -/
def createFlags (dup : Bool) (qos : QoS) (retain : Bool) : UInt8 :=
  retainInto retain (qosInto qos (dupInto dup (typeInto .publish 0x00)) 1)

theorem typeOf_createFlags {dup : Bool} {qos : QoS} {retain : Bool} :
    typeOf (createFlags dup qos retain) = .publish := by
  cases dup <;> cases qos <;> cases retain <;> decide

theorem retainOf_createFlags {dup : Bool} {qos : QoS} {retain : Bool} :
    retainOf (createFlags dup qos retain) = retain := by
  cases dup <;> cases qos <;> cases retain <;> decide

theorem qosOf_createFlags {dup : Bool} {qos : QoS} {retain : Bool} :
    qosOf (createFlags dup qos retain) 1 = qos := by
  cases dup <;> cases qos <;> cases retain <;> decide

/-- Create a packet from its parts. -/
def create (dup : Bool) (qos : QoS) (retain : Bool) (topic : List UInt8)
    (packetIdentifier : UInt16) (applicationMessage : List UInt8) : Publish where
  typeAndFlags := createFlags dup qos retain
  remainingLength :=
    (if qos = .atMostOnce then 0 else 2) + UInt32.ofNat (2 + topic.length) +
      UInt32.ofNat applicationMessage.length
  topic := topic
  packetIdentifier := packetIdentifier
  applicationMessage := applicationMessage
  isPublish := typeOf_createFlags

variable (p : Publish)

/-- Whether the DUP flag is set. -/
def dup : Bool := dupOf p.typeAndFlags

/-- Set or clear the DUP flag. -/
def setDup (dup : Bool) : Publish :=
  { p with
    typeAndFlags := dupInto dup p.typeAndFlags
    isPublish := (dupInto_frame dup p.typeAndFlags).1.trans p.isPublish }

/-- The quality of service. -/
def qos : QoS := qosOf p.typeAndFlags 1

/-- The flags after a quality of service has been assigned. -/
def flagsWithQos (newQos : QoS) : UInt8 :=
  (p.typeAndFlags &&& (0xF9 : UInt8)) ||| (newQos.toUInt8 <<< (1 : UInt8))

theorem typeOf_flagsWithQos (newQos : QoS) :
    typeOf (p.flagsWithQos newQos) = typeOf p.typeAndFlags := by
  unfold flagsWithQos
  apply typeOf_congr
  cases newQos <;> exact select_kept (by decide) (by decide)

theorem isPublish_flagsWithQos (newQos : QoS) : typeOf (p.flagsWithQos newQos) = .publish :=
  (p.typeOf_flagsWithQos newQos).trans p.isPublish

theorem qosOf_flagsWithQos (newQos : QoS) : qosOf (p.flagsWithQos newQos) 1 = newQos := by
  unfold flagsWithQos
  rw [qosOf_congr (select_replaced (by decide))]
  cases newQos <;> rfl

/-- Whether the RETAIN flag is set. -/
def retain : Bool := retainOf p.typeAndFlags

/-- Set or clear the RETAIN flag. -/
def setRetain (retain : Bool) : Publish :=
  { p with
    typeAndFlags := retainInto retain p.typeAndFlags
    isPublish := (retainInto_frame retain p.typeAndFlags).1.trans p.isPublish }

/-- Assign a quality of service.  The remaining length changes with the presence
of a packet identifier. -/
def setQos (newQos : QoS) : Except Fault Publish :=
  let reflagged : Publish :=
    { p with
      typeAndFlags := p.flagsWithQos newQos
      isPublish := (p.typeOf_flagsWithQos newQos).trans p.isPublish }
  match p.qos with
  | .atMostOnce =>
      if newQos = .atLeastOnce ∨ newQos = .exactlyOnce then
        .ok { reflagged with remainingLength := p.remainingLength + 2 }
      else .ok reflagged
  | .atLeastOnce | .exactlyOnce =>
      if newQos = .atMostOnce then
        .ok { reflagged with remainingLength := p.remainingLength - 2 }
      else .ok reflagged
  | .reserved => .error .assertion

/-- A copy under another packet identifier. -/
def withNewPacketIdentifier (newPacketIdentifier : UInt16) : Publish :=
  { p with packetIdentifier := newPacketIdentifier }

@[simp]
theorem packetIdentifier_setDup (dup : Bool) :
    (p.setDup dup).packetIdentifier = p.packetIdentifier := rfl

@[simp]
theorem qos_setDup (dup : Bool) : (p.setDup dup).qos = p.qos :=
  (dupInto_frame dup p.typeAndFlags).2.1

@[simp]
theorem dup_setDup (dup : Bool) : (p.setDup dup).dup = dup :=
  (dupInto_frame dup p.typeAndFlags).2.2

@[simp]
theorem retain_setDup (dup : Bool) : (p.setDup dup).retain = p.retain :=
  retainOf_dupInto dup p.typeAndFlags

@[simp]
theorem topic_setDup (dup : Bool) : (p.setDup dup).topic = p.topic := rfl

@[simp]
theorem applicationMessage_setDup (dup : Bool) :
    (p.setDup dup).applicationMessage = p.applicationMessage := rfl

@[simp]
theorem qos_setRetain (retain : Bool) : (p.setRetain retain).qos = p.qos :=
  (retainInto_frame retain p.typeAndFlags).2.1

@[simp]
theorem retain_setRetain (retain : Bool) : (p.setRetain retain).retain = retain :=
  (retainInto_frame retain p.typeAndFlags).2.2

/-- Clearing the RETAIN flag for a while has no effect on the packet. -/
theorem setRetain_setRetain (h : p.retain = true) :
    (p.setRetain false).setRetain true = p := by
  have hflags : retainInto true (retainInto false p.typeAndFlags) = p.typeAndFlags :=
    retainInto_retainInto h
  cases p
  simp only [setRetain, hflags]

@[simp]
theorem dup_setRetain (retain : Bool) : (p.setRetain retain).dup = p.dup :=
  dupOf_retainInto retain p.typeAndFlags

@[simp]
theorem applicationMessage_setRetain (retain : Bool) :
    (p.setRetain retain).applicationMessage = p.applicationMessage := rfl

@[simp]
theorem topic_setRetain (retain : Bool) : (p.setRetain retain).topic = p.topic := rfl

@[simp]
theorem packetIdentifier_setRetain (retain : Bool) :
    (p.setRetain retain).packetIdentifier = p.packetIdentifier := rfl

@[simp]
theorem packetIdentifier_withNewPacketIdentifier (i : UInt16) :
    (p.withNewPacketIdentifier i).packetIdentifier = i := rfl

@[simp]
theorem qos_withNewPacketIdentifier (i : UInt16) :
    (p.withNewPacketIdentifier i).qos = p.qos := rfl

@[simp]
theorem dup_withNewPacketIdentifier (i : UInt16) :
    (p.withNewPacketIdentifier i).dup = p.dup := rfl

@[simp]
theorem retain_withNewPacketIdentifier (i : UInt16) :
    (p.withNewPacketIdentifier i).retain = p.retain := rfl

@[simp]
theorem applicationMessage_withNewPacketIdentifier (i : UInt16) :
    (p.withNewPacketIdentifier i).applicationMessage = p.applicationMessage := rfl

@[simp]
theorem topic_withNewPacketIdentifier (i : UInt16) :
    (p.withNewPacketIdentifier i).topic = p.topic := rfl

variable {p}

/-- Assigning a quality of service succeeds unless the old one is reserved. -/
theorem setQos_eq_ok (h : p.qos ≠ .reserved) (newQos : QoS) :
    ∃ p', p.setQos newQos = .ok p' := by
  unfold setQos
  cases hqos : p.qos with
  | reserved => exact absurd hqos h
  | atMostOnce =>
      by_cases hnew : newQos = .atLeastOnce ∨ newQos = .exactlyOnce
      · exact ⟨_, if_pos hnew⟩
      · exact ⟨_, if_neg hnew⟩
  | atLeastOnce =>
      by_cases hnew : newQos = .atMostOnce
      · exact ⟨_, if_pos hnew⟩
      · exact ⟨_, if_neg hnew⟩
  | exactlyOnce =>
      by_cases hnew : newQos = .atMostOnce
      · exact ⟨_, if_pos hnew⟩
      · exact ⟨_, if_neg hnew⟩

/-- Every successful assignment produces the new flags. -/
theorem typeAndFlags_of_setQos {p' : Publish} {newQos : QoS}
    (h : p.setQos newQos = .ok p') :
    p'.typeAndFlags = p.flagsWithQos newQos ∧ p'.topic = p.topic ∧
      p'.packetIdentifier = p.packetIdentifier ∧
        p'.applicationMessage = p.applicationMessage := by
  unfold setQos at h
  cases hqos : p.qos <;> simp only [hqos] at h
  case reserved => cases h
  all_goals
    split at h <;>
    · injection h with h
      subst h
      exact ⟨rfl, rfl, rfl, rfl⟩

/-- The quality of service assigned is read back. -/
theorem qos_of_setQos {p' : Publish} {newQos : QoS} (h : p.setQos newQos = .ok p') :
    p'.qos = newQos := by
  rw [qos, (typeAndFlags_of_setQos h).1, qosOf_flagsWithQos]

/-- Assigning a quality of service keeps the other flags. -/
theorem flags_of_setQos {p' : Publish} {newQos : QoS} (h : p.setQos newQos = .ok p') :
    p'.dup = p.dup ∧ p'.retain = p.retain := by
  have hflags := (typeAndFlags_of_setQos h).1
  have hkept : ∀ sel : UInt8, 0xF9 &&& sel = sel → (∀ q : QoS, (q.toUInt8 <<< 1) &&& sel = 0) →
      p'.typeAndFlags &&& sel = p.typeAndFlags &&& sel := by
    intro sel hsel hbits
    rw [hflags]
    exact select_kept hsel (hbits newQos)
  constructor
  · rw [dup, dup, dupOf, dupOf, hkept 0x08 (by decide) (by intro q; cases q <;> decide)]
  · rw [retain, retain, retainOf, retainOf,
      hkept 0x01 (by decide) (by intro q; cases q <;> decide)]

/-- Assigning a quality of service keeps topic, identifier and message. -/
theorem setQos_frame {p' : Publish} {newQos : QoS} (h : p.setQos newQos = .ok p') :
    p'.topic = p.topic ∧ p'.packetIdentifier = p.packetIdentifier ∧
      p'.applicationMessage = p.applicationMessage :=
  (typeAndFlags_of_setQos h).2

/-- On a reserved quality of service the assignment runs into its assertion. -/
theorem setQos_reserved (h : p.qos = .reserved) (newQos : QoS) :
    p.setQos newQos = .error .assertion := by
  unfold setQos
  simp only [h]

/-- A packet created by the server carries the quality of service it was given. -/
@[simp]
theorem qos_create (dup : Bool) (qos : QoS) (retain : Bool) (topic : List UInt8)
    (packetIdentifier : UInt16) (applicationMessage : List UInt8) :
    (create dup qos retain topic packetIdentifier applicationMessage).qos = qos :=
  qosOf_createFlags

/-- A packet created by the server carries the RETAIN flag it was given. -/
@[simp]
theorem retain_create (dup : Bool) (qos : QoS) (retain : Bool) (topic : List UInt8)
    (packetIdentifier : UInt16) (applicationMessage : List UInt8) :
    (create dup qos retain topic packetIdentifier applicationMessage).retain = retain :=
  retainOf_createFlags

end Publish

end Protocol
end WallyIo
