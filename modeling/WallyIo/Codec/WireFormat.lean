import WallyIo.Codec.AckCodec
import WallyIo.Codec.ConnectCodec
import WallyIo.Codec.PublishCodec
import WallyIo.Codec.SubscribeCodec
import WallyIo.Library.PrefixCode

/-!
# The wire format

The packets that clients send, as a relation between the first byte, the body and the packet
that they stand for.  The decoders of all packet types together accept this format and
nothing else.

Main results:

- Theorem {lit}`decode_eq_ok_iff`: a frame is decoded as the packet that its first byte and
  its body stand for.
- Theorem {lit}`StandsFor.unique`: they stand for one packet at most.
- Theorem {lit}`standsFor_publish`: what the server itself sends as a PUBLISH follows the format.
- Theorem {lit}`output_unambiguous`: a client can tell from the bytes which packets it is sent.
-/

namespace WallyIo
namespace Codec

open Protocol
open Library

/-! ## The format -/

/-- The packet that a first byte and a body stand for.  Behind the identifier of an
acknowledgement anything may follow. -/
inductive WireFormat : UInt8 → Bytes → MqttPacket → Prop
  | connect (fields : ConnectFields) :
      WireFormat 0x10 fields.bytes
        (.connect (fields.decoded (UInt32.ofNat fields.bytes.length)))
  | publish (p : Publish) (hdecodable : Decodable p)
      (hannounced : p.remainingLength = UInt32.ofNat (bodyOf (.publish p)).length) :
      WireFormat p.typeAndFlags (bodyOf (.publish p)) (.publish p)
  | publishAck (ack : PublishAck) (rest : Bytes) :
      WireFormat ack.typeAndFlags (uint16Bytes ack.packetIdentifier ++ rest) (.publishAck ack)
  | subscribe (packetIdentifier : UInt16) (entries : List SubscribeEntry)
      (hnonempty : entries ≠ []) :
      WireFormat 0x82 (subscribeBytes packetIdentifier entries)
        (.subscribe ⟨UInt32.ofNat (subscribeBytes packetIdentifier entries).length,
          packetIdentifier, entries.map (·.subscription)⟩)
  | unsubscribe (packetIdentifier : UInt16) (topicFilters : List Bytes)
      (hnonempty : topicFilters ≠ [])
      (hshort : ∀ topicFilter ∈ topicFilters, topicFilter.length ≤ 65535) :
      WireFormat 0xA2 (unsubscribeBytes packetIdentifier topicFilters)
        (.unsubscribe ⟨UInt32.ofNat (unsubscribeBytes packetIdentifier topicFilters).length,
          packetIdentifier, topicFilters⟩)
  | pingreq : WireFormat 0xC0 [] .pingreq
  | disconnect : WireFormat 0xE0 [] .disconnect

variable {buffer : Bytes} {frame : Frame} {packet packet' : MqttPacket}

/-! ## The decoders accept the format -/

/-- A frame has the length of its body. -/
theorem Frame.length_body (hend : frame.endPos ≤ buffer.length) :
    (frame.body buffer).length = frame.remainingLength := by
  rw [Frame.body_eq, length_bytesBetween hend, Frame.remainingLength]

/-- Type and flags of a frame make up its first byte. -/
theorem typeAndFlags_eq_iff (type : PacketType) (flags : UInt8)
    (hflags : flags &&& 0x0F = flags) :
    frame.typeAndFlags = typeInto type flags ↔
      frame.type = type ∧ frame.typeAndFlags &&& 0x0F = flags :=
  eq_typeInto_iff hflags

/-- A packet without a body is decoded from its first byte. -/
theorem decodeEmpty_eq_ok_iff {type : PacketType} {whatFlags whatLength : String}
    (hend : frame.endPos ≤ buffer.length) :
    decodeEmpty type whatFlags whatLength packet' frame = .ok packet ↔
      frame.typeAndFlags = typeInto type 0x00 ∧ frame.body buffer = [] ∧ packet = packet' := by
  rw [typeAndFlags_eq_iff type 0x00 rfl, and_assoc]
  refine header_bind_eq_ok_iff.trans (and_congr_right' (and_congr_right' ?_))
  rw [throwIf_bind_eq_ok_iff, not_not, ← Frame.length_body hend, List.length_eq_zero_iff,
    Except.ok.injEq, eq_comm (a := packet')]

/-- What is decoded follows the format. -/
theorem wireFormat_of_decode (hend : frame.endPos ≤ buffer.length)
    (h : decode buffer frame = .ok packet) :
    WireFormat frame.typeAndFlags (frame.body buffer) packet := by
  have hlength := Frame.length_body hend
  have hack : frame.type ∈ ackTypes →
      WireFormat frame.typeAndFlags (frame.body buffer) packet := by
    intro htype
    obtain ⟨ack, rest, hbyte, hbody, rfl⟩ := (decode_ack_eq_ok_iff hend htype).mp h
    rw [hbyte, hbody]
    exact .publishAck ack rest
  cases htype : frame.type with
  | connect =>
      rw [decode_eq htype rfl, decodeConnect_eq_ok_iff hend] at h
      obtain ⟨-, hflags, fields, hbody, rfl⟩ := h
      rw [(typeAndFlags_eq_iff .connect 0x00 rfl).mpr ⟨htype, hflags⟩, ← hlength, hbody]
      exact .connect fields
  | publish =>
      rw [decode_eq htype rfl] at h
      obtain ⟨p, rfl⟩ := isPublish_of_decodePublish h
      obtain ⟨hflags, hremaining, hdecodable, hbody⟩ := (decodePublish_eq_ok_iff hend).mp h
      rw [← hflags, hbody]
      refine .publish p hdecodable ?_
      rw [hremaining, ← hlength, hbody]
  | puback | pubrec | pubrel | pubcomp => exact hack (by rw [htype]; decide)
  | subscribe =>
      rw [decode_eq htype rfl, decodeSubscribe_eq_ok_iff hend] at h
      obtain ⟨-, hflags, packetIdentifier, entries, hnonempty, hbody, rfl⟩ := h
      rw [(typeAndFlags_eq_iff .subscribe 0x02 rfl).mpr ⟨htype, hflags⟩, ← hlength, hbody]
      exact .subscribe packetIdentifier entries hnonempty
  | unsubscribe =>
      rw [decode_eq htype rfl, decodeUnsubscribe_eq_ok_iff hend] at h
      obtain ⟨-, hflags, packetIdentifier, topicFilters, hnonempty, hshort, hbody, rfl⟩ := h
      rw [(typeAndFlags_eq_iff .unsubscribe 0x02 rfl).mpr ⟨htype, hflags⟩, ← hlength, hbody]
      exact .unsubscribe packetIdentifier topicFilters hnonempty hshort
  | pingreq =>
      rw [decode_eq htype rfl, decodePingreq, decodeEmpty_eq_ok_iff hend] at h
      obtain ⟨hbyte, hbody, rfl⟩ := h
      rw [hbyte, hbody]
      exact .pingreq
  | disconnect =>
      rw [decode_eq htype rfl, decodeDisconnect, decodeEmpty_eq_ok_iff hend] at h
      obtain ⟨hbyte, hbody, rfl⟩ := h
      rw [hbyte, hbody]
      exact .disconnect
  | connack | suback | unsuback | pingresp | reserved1 | reserved2 =>
      rw [decode_of_not_supported (by rw [htype]; rfl)] at h
      cases h

/-- What follows the format is decoded. -/
theorem decode_of_wireFormat (hend : frame.endPos ≤ buffer.length)
    (h : WireFormat frame.typeAndFlags (frame.body buffer) packet) :
    decode buffer frame = .ok packet := by
  have hlength := Frame.length_body hend
  generalize hbyte : frame.typeAndFlags = byte at h
  generalize hbody : frame.body buffer = body at h
  rw [hbody] at hlength
  cases h with
  | connect fields =>
      obtain ⟨htype, hflags⟩ := (typeAndFlags_eq_iff .connect 0x00 rfl).mp hbyte
      rw [decode_eq htype rfl, decodeConnect_eq_ok_iff hend, ← hlength]
      exact ⟨htype, hflags, fields, hbody, rfl⟩
  | publish p hdecodable hannounced =>
      have htype : frame.type = .publish := by
        rw [Frame.type, hbyte]
        exact p.isPublish
      rw [decode_eq htype rfl, decodePublish_eq_ok_iff hend, ← hlength]
      exact ⟨hbyte.symm, hannounced, hdecodable, hbody⟩
  | publishAck ack rest =>
      have htype : frame.type ∈ ackTypes := by
        rw [Frame.type, hbyte, PublishAck.typeOf_typeAndFlags]
        cases ack <;> simp [PublishAck.type, ackTypes]
      exact (decode_ack_eq_ok_iff hend htype).mpr ⟨ack, rest, hbyte, hbody, rfl⟩
  | subscribe packetIdentifier entries hnonempty =>
      obtain ⟨htype, hflags⟩ := (typeAndFlags_eq_iff .subscribe 0x02 rfl).mp hbyte
      rw [decode_eq htype rfl, decodeSubscribe_eq_ok_iff hend, ← hlength]
      exact ⟨htype, hflags, packetIdentifier, entries, hnonempty, hbody, rfl⟩
  | unsubscribe packetIdentifier topicFilters hnonempty hshort =>
      obtain ⟨htype, hflags⟩ := (typeAndFlags_eq_iff .unsubscribe 0x02 rfl).mp hbyte
      rw [decode_eq htype rfl, decodeUnsubscribe_eq_ok_iff hend, ← hlength]
      exact ⟨htype, hflags, packetIdentifier, topicFilters, hnonempty, hshort, hbody, rfl⟩
  | pingreq =>
      obtain ⟨htype, -⟩ := (typeAndFlags_eq_iff .pingreq 0x00 rfl).mp hbyte
      rw [decode_eq htype rfl, decodePingreq, decodeEmpty_eq_ok_iff hend]
      exact ⟨hbyte, hbody, rfl⟩
  | disconnect =>
      obtain ⟨htype, -⟩ := (typeAndFlags_eq_iff .disconnect 0x00 rfl).mp hbyte
      rw [decode_eq htype rfl, decodeDisconnect, decodeEmpty_eq_ok_iff hend]
      exact ⟨hbyte, hbody, rfl⟩

/-- A frame is decoded as the packet that its first byte and its body stand for. -/
theorem decode_eq_ok_iff (hend : frame.endPos ≤ buffer.length) :
    decode buffer frame = .ok packet ↔
      WireFormat frame.typeAndFlags (frame.body buffer) packet :=
  ⟨wireFormat_of_decode hend, decode_of_wireFormat hend⟩

/-- The body of a SUBSCRIBE for the topic filters {lit}`a` and {lit}`+`. -/
def twoFiltersBody : Bytes :=
  [0x00, 0x07, 0x00, 0x01, 0x61, 0x01, 0x00, 0x01, 0x2B, 0x02]

theorem decode_eq_ok_iff_subscribe :
    WireFormat 0x82 twoFiltersBody (.subscribe ⟨10, 7,
      [⟨[0x61], .atLeastOnce, by decide⟩, ⟨[0x2B], .exactlyOnce, by decide⟩]⟩) := by
  have hend : (⟨0x82, 2, 12, by decide⟩ : Frame).endPos ≤ (0x82 :: 0x0A :: twoFiltersBody).length :=
    Nat.le_refl 12
  exact (decode_eq_ok_iff hend).mp rfl

/-! ## Packets on the wire -/

namespace WirePacket

/-- The packet that a sequence of bytes stands for. -/
def StandsFor (wire : WirePacket) (packet : MqttPacket) : Prop :=
  WireFormat wire.typeAndFlags wire.body packet

/-- The packet that bytes stand for is what they are decoded as. -/
theorem standsFor_iff (wire : WirePacket) :
    wire.StandsFor packet ↔ decode wire.bytes wire.frame = .ok packet := by
  have hbody : wire.StandsFor packet ↔
      WireFormat wire.frame.typeAndFlags (wire.frame.body wire.bytes) packet := by
    rw [wire.body_frame]
    exact Iff.rfl
  rw [hbody]
  exact ⟨decode_of_wireFormat (Nat.le_refl _), wireFormat_of_decode (Nat.le_refl _)⟩

/-- There is one such packet at most. -/
theorem StandsFor.unique {wire : WirePacket} (h : wire.StandsFor packet)
    (h' : wire.StandsFor packet') : packet = packet' := by
  rw [standsFor_iff] at h h'
  exact Except.ok.inj (h.symm.trans h')

/-- The packets on the wire as words. -/
def words : Set Bytes := Set.range bytes

/-- No packet begins another one. -/
theorem prefixCode_words : PrefixCode words where
  nonempty := by
    rintro _ ⟨wire, rfl⟩ hnil
    cases hnil
  begins_eq := by
    rintro _ ⟨wire, rfl⟩ _ ⟨wire', rfl⟩ hbegins
    have hheader := wire.headerOf_bytes []
    rw [List.append_nil] at hheader
    rw [← List.append_nil wire'.bytes] at hbegins
    exact And.left <| eq_of_prefix wire' hheader wire.length_bytes hbegins

end WirePacket

/-! ## What the server sends -/

/-- A PUBLISH that the decoder would accept follows the format, but for an identifier that is
not encoded. -/
theorem standsFor_publish {p : Publish} (hencodable : Encodable (.publish p))
    (hdup : p.dup = true → p.qos ≠ .atMostOnce) (hreserved : p.qos ≠ .reserved)
    (htopic : WellFormedTopicName p.topic) :
    hencodable.wirePacket.StandsFor (.publish (asDecoded p)) := by
  obtain ⟨hflags, hremaining, htopic', -⟩ := asDecoded_frame p
  have hqos : (asDecoded p).qos = p.qos := congrArg (qosOf · 1) hflags
  have hdup' : (asDecoded p).dup = p.dup := congrArg dupOf hflags
  have hannounced := hencodable.announced
  have hformat : WireFormat (asDecoded p).typeAndFlags (bodyOf (.publish (asDecoded p)))
      (.publish (asDecoded p)) := by
    refine .publish _ ⟨?_, ?_, ?_, ?_⟩ ?_
    · rw [hdup', hqos]
      exact hdup
    · rw [hqos]
      exact hreserved
    · rw [htopic']
      exact htopic
    · intro hzero
      rw [hqos] at hzero
      rw [asDecoded, if_pos hzero]
      rfl
    · rw [bodyOf_asDecoded, ← hannounced, UInt32.ofNat_toNat]
      exact hremaining
  rw [hflags, bodyOf_asDecoded] at hformat
  exact hformat

/-- An acknowledgement follows the format. -/
theorem standsFor_ack (ack : PublishAck) :
    (encodable_ack ack).wirePacket.StandsFor (.publishAck ack) := by
  have hformat := WireFormat.publishAck ack []
  rw [List.append_nil] at hformat
  exact hformat

/-! ## The output of the server -/

/-- What a client can know of a packet that it is sent: an identifier that is not encoded is
missing. -/
def visible : MqttPacket → MqttPacket
  | .publish p => .publish (asDecoded p)
  | packet => packet

/-- The type of a packet that the server sends stands in its first byte. -/
theorem typeOf_typeAndFlagsOf (h : BodyEncodable packet) :
    typeOf (typeAndFlagsOf packet) = packet.type := by
  cases packet with
  | publish p => exact p.isPublish
  | publishAck ack => exact ack.typeOf_typeAndFlags
  | connack | suback | unsuback => exact typeOf_typeInto _ _
  | pingresp => rfl
  | connect | subscribe | unsubscribe | pingreq | disconnect => exact h.elim

/-- A CONNACK is known from its body. -/
theorem connack_eq {connack connack' : Connack}
    (hbody : bodyOf (.connack connack) = bodyOf (.connack connack')) : connack = connack' := by
  obtain ⟨sessionPresent, returnCode⟩ := connack
  obtain ⟨sessionPresent', returnCode'⟩ := connack'
  have hinjective : Function.Injective ConnectReturnCode.toUInt8 := by
    intro code code' h
    cases code <;> cases code' <;> first | rfl | exact absurd h (by decide)
  simp only [bodyOf, List.cons.injEq, and_true] at hbody
  obtain ⟨hpresent, hreturn⟩ := hbody
  rw [hinjective hreturn]
  cases sessionPresent <;> cases sessionPresent' <;> simp_all

/-- A SUBACK is known from its body. -/
theorem suback_eq {suback suback' : Suback}
    (hbody : bodyOf (.suback suback) = bodyOf (.suback suback')) : suback = suback' := by
  obtain ⟨packetIdentifier, returnCodes⟩ := suback
  obtain ⟨packetIdentifier', returnCodes'⟩ := suback'
  have hinjective : Function.Injective SubackReturnCode.toUInt8 := by
    intro code code' h
    cases code <;> cases code' <;> first | rfl | exact absurd h (by decide)
  obtain ⟨hidentifier, hcodes⟩ := List.append_inj hbody rfl
  obtain rfl : packetIdentifier = packetIdentifier' := uint16Bytes_injective hidentifier
  obtain rfl : returnCodes = returnCodes' := List.map_injective_iff.mpr hinjective hcodes
  rfl

/-- An acknowledgement is known from its type and its body. -/
theorem publishAck_eq {ack ack' : PublishAck} (htype : ack.type = ack'.type)
    (hbody : bodyOf (.publishAck ack) = bodyOf (.publishAck ack')) : ack = ack' := by
  have hidentifier : ack.packetIdentifier = ack'.packetIdentifier := uint16Bytes_injective hbody
  cases ack <;> cases ack' <;>
    first | exact congrArg _ hidentifier | cases htype

/-- A PUBLISH is known from its flags, its length and its body. -/
theorem asDecoded_eq {p p' : Publish} (hflags : p.typeAndFlags = p'.typeAndFlags)
    (hlength : p.remainingLength = p'.remainingLength) (htopic : p.topic.length ≤ 65535)
    (htopic' : p'.topic.length ≤ 65535)
    (hbody : bodyOf (.publish p) = bodyOf (.publish p')) : asDecoded p = asDecoded p' := by
  have hbodies : stringBytes p.topic ++ (identifierBytes p.qos p.packetIdentifier ++
      p.applicationMessage) = stringBytes p'.topic ++
        (identifierBytes p'.qos p'.packetIdentifier ++ p'.applicationMessage) := by
    simpa [bodyOf, stringBytes, identifierBytes, List.append_assoc] using hbody
  obtain ⟨htopics, hrest⟩ := stringBytes_append_inj htopic htopic' hbodies
  obtain ⟨typeAndFlags, remainingLength, topic, packetIdentifier, applicationMessage, _⟩ := p
  obtain ⟨typeAndFlags', remainingLength', topic', packetIdentifier', applicationMessage', _⟩ :=
    p'
  simp only at hflags hlength htopics hrest
  subst hflags hlength htopics
  by_cases hzero : qosOf typeAndFlags 1 = .atMostOnce
  · simp only [identifierBytes, Publish.qos, hzero, ne_eq, not_true_eq_false, if_false,
      List.nil_append] at hrest
    subst hrest
    simp [asDecoded, Publish.qos, hzero, Publish.withNewPacketIdentifier]
  · simp only [identifierBytes, Publish.qos, hzero, ne_eq, not_false_eq_true, if_true] at hrest
    obtain ⟨hidentifier, rfl⟩ := List.append_inj hrest rfl
    rw [uint16Bytes_injective hidentifier]

/-- Only acknowledgements have the types of acknowledgements. -/
theorem exists_ack_of_type (htype : packet.type ∈ ackTypes) :
    ∃ ack, packet = .publishAck ack := by
  cases packet with
  | publishAck ack => exact ⟨ack, rfl⟩
  | _ => simp [ackTypes, MqttPacket.type] at htype

/-- A client knows a packet from its first byte and its body. -/
theorem visible_eq_of_wirePacket (h : Encodable packet) (h' : Encodable packet')
    (hsame : h.wirePacket = h'.wirePacket) : visible packet = visible packet' := by
  have hflags : typeAndFlagsOf packet = typeAndFlagsOf packet' :=
    congrArg WirePacket.typeAndFlags hsame
  have hbody : bodyOf packet = bodyOf packet' := congrArg WirePacket.body hsame
  have hlength : remainingLengthOf packet = remainingLengthOf packet' := by
    apply UInt32.toNat_inj.mp
    rw [h.announced, h'.announced, hbody]
  have htype : packet.type = packet'.type := by
    rw [← typeOf_typeAndFlagsOf h.body, hflags, typeOf_typeAndFlagsOf h'.body]
  by_cases hack : packet.type ∈ ackTypes
  · obtain ⟨ack, rfl⟩ := exists_ack_of_type hack
    rw [htype] at hack
    obtain ⟨ack', rfl⟩ := exists_ack_of_type hack
    exact congrArg MqttPacket.publishAck (publishAck_eq htype hbody)
  · have hack' : packet'.type ∉ ackTypes := htype ▸ hack
    have hnot : ∀ ack : PublishAck, ack.type ∈ ackTypes := by
      intro ack
      cases ack <;> simp [PublishAck.type, ackTypes]
    cases packet with
    | publishAck ack => exact absurd (hnot ack) hack
    | connect | subscribe | unsubscribe | pingreq | disconnect => exact h.body.elim
    | connack connack =>
        cases packet' with
        | connack connack' => exact congrArg MqttPacket.connack (connack_eq hbody)
        | publishAck ack => exact absurd (hnot ack) hack'
        | _ => cases htype
    | publish p =>
        cases packet' with
        | publish p' =>
            exact congrArg MqttPacket.publish (asDecoded_eq hflags hlength h.body h'.body hbody)
        | publishAck ack => exact absurd (hnot ack) hack'
        | _ => cases htype
    | suback suback =>
        cases packet' with
        | suback suback' => exact congrArg MqttPacket.suback (suback_eq hbody)
        | publishAck ack => exact absurd (hnot ack) hack'
        | _ => cases htype
    | unsuback unsuback =>
        cases packet' with
        | unsuback unsuback' =>
            have hidentifier : unsuback.packetIdentifier = unsuback'.packetIdentifier :=
              uint16Bytes_injective hbody
            exact congrArg (fun i => MqttPacket.unsuback ⟨i⟩) hidentifier
        | publishAck ack => exact absurd (hnot ack) hack'
        | _ => cases htype
    | pingresp =>
        cases packet' with
        | pingresp => rfl
        | publishAck ack => exact absurd (hnot ack) hack'
        | _ => cases htype

/-- What is known of the packets that the server sends, one after the other, depends on the bytes
only. -/
theorem output_unambiguous {sent sent' : List MqttPacket} {encodings encodings' : List Bytes}
    (hsent : ∀ p ∈ sent, Encodable p) (hsent' : ∀ p ∈ sent', Encodable p)
    (hencodings : List.Forall₂ (fun p bytes => encoding p = .ok bytes) sent encodings)
    (hencodings' : List.Forall₂ (fun p bytes => encoding p = .ok bytes) sent' encodings')
    (hbytes : encodings.flatten = encodings'.flatten) :
    sent.map visible = sent'.map visible := by
  have hwords : ∀ {sent : List MqttPacket} {encodings : List Bytes},
      (∀ p ∈ sent, Encodable p) →
        List.Forall₂ (fun p bytes => encoding p = .ok bytes) sent encodings →
          ∀ w ∈ encodings, w ∈ WirePacket.words := by
    intro sent encodings hsent hencodings w hw
    induction hencodings with
    | nil => cases hw
    | @cons p bytes sent encodings hencoding _ ih =>
        rcases List.mem_cons.mp hw with rfl | hw
        · have hp := hsent p List.mem_cons_self
          rw [encoding_eq hp, Except.ok.injEq] at hencoding
          exact ⟨hp.wirePacket, hencoding⟩
        · exact ih (fun p hp => hsent p (List.mem_cons_of_mem _ hp)) hw
  obtain rfl : encodings = encodings' := WirePacket.prefixCode_words.uniquelyDecodable _ _
    (hwords hsent hencodings) (hwords hsent' hencodings') hbytes
  clear hbytes
  induction hencodings generalizing sent' with
  | nil =>
      cases hencodings'
      rfl
  | @cons p bytes sent encodings hencoding _ ih =>
      cases hencodings' with
      | @cons p' _ sent' _ hencoding' hrest' =>
          have hp := hsent p List.mem_cons_self
          have hp' := hsent' p' List.mem_cons_self
          rw [encoding_eq hp] at hencoding
          rw [encoding_eq hp', ← hencoding, Except.ok.injEq] at hencoding'
          rw [List.map_cons, List.map_cons,
            visible_eq_of_wirePacket hp hp' (WirePacket.bytes_injective hencoding'.symm),
            ih (fun p hmem => hsent p (List.mem_cons_of_mem _ hmem))
              (fun p hmem => hsent' p (List.mem_cons_of_mem _ hmem)) hrest']

/-- A PUBLISH with quality of service 0 and some identifier, and two packets that follow it. -/
def sampleOutput (packetIdentifier : UInt16) : List MqttPacket :=
  [.publish (.create false .atMostOnce false [0x61] packetIdentifier []),
    .publishAck (.puback 2), .pingresp]

theorem encodable_sampleOutput {packetIdentifier : UInt16}
    (hshort : Encodable (.publish
      (.create false .atMostOnce false [0x61] packetIdentifier []))) :
    ∀ p ∈ sampleOutput packetIdentifier, Encodable p := by
  intro p hp
  rcases List.mem_cons.mp hp with rfl | hp
  · exact hshort
  · rcases List.mem_cons.mp hp with rfl | hp
    · exact encodable_ack _
    · rw [List.mem_singleton.mp hp]
      exact ⟨trivial, by decide, rfl⟩

/-- The identifier of a PUBLISH with quality of service 0 is not visible. -/
theorem output_unambiguous_sample :
    (sampleOutput 1).map visible = (sampleOutput 2).map visible := by
  have hbytes : List.Forall₂ (fun p bytes => encoding p = .ok bytes) (sampleOutput 1)
      [[0x30, 0x03, 0x00, 0x01, 0x61], [0x40, 0x02, 0x00, 0x02], [0xD0, 0x00]] :=
    .cons rfl (.cons rfl (.cons rfl .nil))
  have hbytes' : List.Forall₂ (fun p bytes => encoding p = .ok bytes) (sampleOutput 2)
      [[0x30, 0x03, 0x00, 0x01, 0x61], [0x40, 0x02, 0x00, 0x02], [0xD0, 0x00]] :=
    .cons rfl (.cons rfl (.cons rfl .nil))
  exact output_unambiguous
    (encodable_sampleOutput ⟨Nat.le_add_left _ _, by decide, rfl⟩)
    (encodable_sampleOutput ⟨Nat.le_add_left _ _, by decide, rfl⟩) hbytes hbytes' rfl

end Codec
end WallyIo
