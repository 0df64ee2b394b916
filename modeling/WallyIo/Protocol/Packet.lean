import WallyIo.Protocol.Publish

/-!
# Control packets

All packets besides PUBLISH, and the sum of them that the codec and the
connections exchange.

Main results:

- Theorem {lit}`Subscription.create_eq_ok_iff`: a subscription is built exactly
  from a well-formed topic filter.
- Theorem {lit}`Subscribe.length_succeed`: a SUBACK answers every subscription.
- Theorem {lit}`granted_iff`: a subscription is answered by a success code exactly
  if its quality of service is not reserved.
-/

namespace WallyIo
namespace Protocol

/-! ## CONNECT and CONNACK -/

/-- The last will flag of a CONNECT. -/
def containsLastWillFlag (conFlags : UInt8) : Bool := (conFlags &&& 0x04) == 0x04

/-- A CONNECT packet.  Topic and message of the last will are present if the will
flag is set. -/
structure Connect where
  remainingLength : UInt32
  protName : Bytes
  protLevel : UInt8
  conFlags : UInt8
  keepAliveSecs : UInt16
  clientId : Bytes
  willTopic : Option Bytes
  willMessage : Option Bytes
  username : Option Bytes
  password : Option Bytes
  willPresent : containsLastWillFlag conFlags = true →
    willTopic.isSome = true ∧ willMessage.isSome = true
deriving DecidableEq, Repr

namespace Connect

variable (c : Connect)

def hasUsername : Bool := (c.conFlags &&& 0x80) == 0x80

def hasPassword : Bool := (c.conFlags &&& 0x40) == 0x40

def retainLastWill : Bool := (c.conFlags &&& 0x20) == 0x20

def lastWillQos : QoS := qosOf c.conFlags 3

def containsLastWill : Bool := containsLastWillFlag c.conFlags

def cleanSession : Bool := (c.conFlags &&& 0x02) == 0x02

/-- The constructor call of the decoder.  It passes pointers to its strings, none
of which is null. -/
def create (remainingLength : UInt32) (protName : Bytes) (protLevel conFlags : UInt8)
    (keepAliveSecs : UInt16) (clientId willTopic willMessage username password : Bytes) :
    Connect where
  remainingLength := remainingLength
  protName := cString protName
  protLevel := protLevel
  conFlags := conFlags
  keepAliveSecs := keepAliveSecs
  clientId := cString clientId
  willTopic := some (cString willTopic)
  willMessage := some willMessage
  username := some (cString username)
  password := some (cString password)
  willPresent := fun _ => ⟨rfl, rfl⟩

/-- The topic of a last will. -/
def lastWillTopic (h : c.containsLastWill = true) : Bytes :=
  c.willTopic.get (c.willPresent h).1

/-- The message of a last will. -/
def lastWillMessage (h : c.containsLastWill = true) : Bytes :=
  c.willMessage.get (c.willPresent h).2

end Connect

/-- Return codes of a CONNACK. -/
inductive ConnectReturnCode
  | connectionAccepted
  | unacceptableProtocolVersion
  | identifierRejected
  | serverUnavailable
  | badUsernameOrPassword
  | notAuthorized
  | reserved
deriving DecidableEq, Repr

/-- The value of the enumerator. -/
def ConnectReturnCode.toUInt8 : ConnectReturnCode → UInt8
  | .connectionAccepted => 0
  | .unacceptableProtocolVersion => 1
  | .identifierRejected => 2
  | .serverUnavailable => 3
  | .badUsernameOrPassword => 4
  | .notAuthorized => 5
  | .reserved => 6

/-- A CONNACK packet. -/
structure Connack where
  sessionPresent : Bool
  returnCode : ConnectReturnCode
deriving DecidableEq, Repr

/-! ## Acknowledgements of publications -/

/-- PUBACK, PUBREC, PUBREL and PUBCOMP carry the identifier of their PUBLISH. -/
inductive PublishAck
  | puback (packetIdentifier : UInt16)
  | pubrec (packetIdentifier : UInt16)
  | pubrel (packetIdentifier : UInt16)
  | pubcomp (packetIdentifier : UInt16)
deriving DecidableEq, Repr

namespace PublishAck

/-- The packet type. -/
def type : PublishAck → PacketType
  | .puback _ => .puback
  | .pubrec _ => .pubrec
  | .pubrel _ => .pubrel
  | .pubcomp _ => .pubcomp

/-- The identifier of the PUBLISH that is acknowledged. -/
def packetIdentifier : PublishAck → UInt16
  | .puback i => i
  | .pubrec i => i
  | .pubrel i => i
  | .pubcomp i => i

/-- Packet type and flags; PUBREL has a flag set. -/
def typeAndFlags : PublishAck → UInt8
  | .puback _ => typeInto .puback 0x00
  | .pubrec _ => typeInto .pubrec 0x00
  | .pubrel _ => typeInto .pubrel 0x02
  | .pubcomp _ => typeInto .pubcomp 0x00

/-- The flag byte encodes the packet type. -/
theorem typeOf_typeAndFlags (ack : PublishAck) : typeOf ack.typeAndFlags = ack.type := by
  cases ack <;> exact typeOf_typeInto _ _

end PublishAck

/-! ## Subscriptions -/

/-- The checks on one character of a topic filter after its predecessor.  The
result is the violated requirement, if any. -/
def checkFilterChar (previousChar curChar : UInt8) : Option String :=
  if curChar = 0x00 then some "4.7.3-2"
  else if previousChar = 0x23 then some "4.7.1-2"
  else if curChar = 0x2B ∧ previousChar ≠ 0x00 ∧ previousChar ≠ 0x2F then some "4.7.1-1"
  else if curChar = 0x23 ∧ previousChar ≠ 0x00 ∧ previousChar ≠ 0x2F then some "4.7.1-2"
  else if curChar ≠ 0x2F ∧ curChar ≠ 0x2B ∧ curChar ≠ 0x23 ∧
      (previousChar = 0x2B ∨ previousChar = 0x23) then some "4.7.1-3"
  else none

/-- The loop over the characters of a topic filter. -/
def checkFilterChars (previousChar : UInt8) : Bytes → Option String
  | [] => none
  | curChar :: rest =>
      match checkFilterChar previousChar curChar with
      | some mqttRef => some mqttRef
      | none => checkFilterChars curChar rest

/-- The requirement that a topic filter violates, if any. -/
def topicFilterViolation (topicFilter : Bytes) : Option String :=
  if topicFilter.length < 1 then some "4.7.3-1"
  else if topicFilter.length > 65535 then some "4.7.3-3"
  else checkFilterChars 0x00 topicFilter

/-- A topic filter together with the maximum quality of service asked for.  Only
well-formed topic filters make a subscription. -/
structure Subscription where
  topicFilter : Bytes
  maximumQos : QoS
  wellFormed : topicFilterViolation topicFilter = none
deriving DecidableEq, Repr

/-- The constructor, which throws on a topic filter that is not well formed. -/
def Subscription.create (topicFilter : Bytes) (maximumQos : QoS) :
    Except Fault Subscription :=
  match h : topicFilterViolation topicFilter with
  | none => .ok ⟨topicFilter, maximumQos, h⟩
  | some mqttRef => .error (.malformedMqttPacket
      ("[MQTT-" ++ mqttRef ++ "] Not a well-formed topic filter: " ++ toText topicFilter))

/-- A subscription is built exactly from a well-formed topic filter. -/
theorem Subscription.create_eq_ok_iff {topicFilter : Bytes} {maximumQos : QoS}
    {s : Subscription} : Subscription.create topicFilter maximumQos = .ok s ↔
      s.topicFilter = topicFilter ∧ s.maximumQos = maximumQos := by
  unfold Subscription.create
  split
  · rename_i h
    constructor
    · rintro ⟨rfl⟩
      exact ⟨rfl, rfl⟩
    · rintro ⟨rfl, rfl⟩
      rfl
  · rename_i mqttRef h
    constructor
    · intro hs
      cases hs
    · rintro ⟨rfl, -⟩
      rw [s.wellFormed] at h
      cases h

/-- Return codes of a SUBACK. -/
inductive SubackReturnCode
  | maximumQos0
  | maximumQos1
  | maximumQos2
  | failure
  | reserved
deriving DecidableEq, Repr

namespace SubackReturnCode

/-- The value of the enumerator. -/
def toUInt8 : SubackReturnCode → UInt8
  | .maximumQos0 => 0x00
  | .maximumQos1 => 0x01
  | .maximumQos2 => 0x02
  | .failure => 0x80
  | .reserved => 0x81

/-- The quality of service that a success code grants. -/
def granted : SubackReturnCode → Option QoS
  | .maximumQos0 => some .atMostOnce
  | .maximumQos1 => some .atLeastOnce
  | .maximumQos2 => some .exactlyOnce
  | .failure => none
  | .reserved => none

end SubackReturnCode

/-- The answer to a subscription with the given maximum quality of service. -/
def returnCodeFor : QoS → SubackReturnCode
  | .atMostOnce => .maximumQos0
  | .atLeastOnce => .maximumQos1
  | .exactlyOnce => .maximumQos2
  | .reserved => .failure

/-- A subscription is granted the quality of service it asks for, unless that is
reserved. -/
theorem granted_iff {qos granted : QoS} :
    (returnCodeFor qos).granted = some granted ↔ qos = granted ∧ qos ≠ .reserved := by
  cases qos <;> cases granted <;> simp [returnCodeFor, SubackReturnCode.granted]

/-- A SUBACK packet. -/
structure Suback where
  packetIdentifier : UInt16
  returnCodes : List SubackReturnCode
deriving DecidableEq, Repr

/-- The remaining length of a SUBACK. -/
def Suback.remainingLength (suback : Suback) : UInt32 :=
  2 + UInt32.ofNat suback.returnCodes.length

/-- A SUBSCRIBE packet. -/
structure Subscribe where
  remainingLength : UInt32
  packetIdentifier : UInt16
  subscriptions : List Subscription
deriving DecidableEq, Repr

namespace Subscribe

/-- The SUBACK that grants what is asked for. -/
def succeed (subscribe : Subscribe) : Suback where
  packetIdentifier := subscribe.packetIdentifier
  returnCodes := subscribe.subscriptions.map fun subscr => returnCodeFor subscr.maximumQos

/-- The SUBACK that refuses every subscription. -/
def fail (subscribe : Subscribe) : Suback where
  packetIdentifier := subscribe.packetIdentifier
  returnCodes := List.replicate subscribe.subscriptions.length .failure

/-- A SUBACK answers every subscription. -/
theorem length_succeed (subscribe : Subscribe) :
    subscribe.succeed.returnCodes.length = subscribe.subscriptions.length := by
  simp [succeed]

end Subscribe

/-- An UNSUBACK packet. -/
structure Unsuback where
  packetIdentifier : UInt16
deriving DecidableEq, Repr

/-- An UNSUBSCRIBE packet. -/
structure Unsubscribe where
  remainingLength : UInt32
  packetIdentifier : UInt16
  topicFilters : List Bytes
deriving DecidableEq, Repr

/-- The UNSUBACK that answers an UNSUBSCRIBE. -/
def Unsubscribe.ack (unsubscribe : Unsubscribe) : Unsuback :=
  ⟨unsubscribe.packetIdentifier⟩

/-! ## The sum of all packets -/

/-- A control packet. -/
inductive MqttPacket
  | connect (connect : Connect)
  | connack (connack : Connack)
  | publish (publish : Publish)
  | publishAck (ack : PublishAck)
  | subscribe (subscribe : Subscribe)
  | suback (suback : Suback)
  | unsubscribe (unsubscribe : Unsubscribe)
  | unsuback (unsuback : Unsuback)
  | pingreq
  | pingresp
  | disconnect
deriving DecidableEq, Repr

/-- The packet type. -/
def MqttPacket.type : MqttPacket → PacketType
  | .connect _ => .connect
  | .connack _ => .connack
  | .publish _ => .publish
  | .publishAck ack => ack.type
  | .subscribe _ => .subscribe
  | .suback _ => .suback
  | .unsubscribe _ => .unsubscribe
  | .unsuback _ => .unsuback
  | .pingreq => .pingreq
  | .pingresp => .pingresp
  | .disconnect => .disconnect

end Protocol
end WallyIo
