import WallyIo.Codec.Fields

/-!
# Decoding SUBSCRIBE and UNSUBSCRIBE packets

Bodies are an identifier and a list of items up to the end of the frame.  From the byte of
a quality of service the decoder takes the lower two bits.

Main results:

- Theorem {lit}`decodeUnsubscribe_eq_ok_iff` and {lit}`unsubscribe_inverse`: an UNSUBSCRIBE
  is decoded from exactly its serialisation.
- Theorem {lit}`decodeSubscribe_eq_ok_iff`: which packet is decoded from which frame.
- Theorem {lit}`subscribe_format_iff`: when a SUBSCRIBE is decoded from exactly its format.
-/

namespace WallyIo
namespace Codec

open Protocol
open Library FieldReader

variable {buffer : Bytes} {frame : Frame} {packet : MqttPacket} {pos endPos : Nat}

/-! ## UNSUBSCRIBE -/

/-- The body of an UNSUBSCRIBE. -/
def unsubscribeBytes (packetIdentifier : UInt16) (topicFilters : List Bytes) : Bytes :=
  uint16Bytes packetIdentifier ++ topicFilters.flatMap stringBytes

/-- The packet that is decoded from a frame is the one that is serialised as its body. -/
theorem decodeUnsubscribe_eq_ok_iff (hend : frame.endPos ≤ buffer.length) :
    decodeUnsubscribe buffer frame = .ok packet ↔
      frame.type = .unsubscribe ∧ frame.typeAndFlags &&& 0x0F = 0x02 ∧
        ∃ packetIdentifier topicFilters, topicFilters ≠ [] ∧
          (∀ topicFilter ∈ topicFilters, topicFilter.length ≤ 65535) ∧
          frame.body buffer = unsubscribeBytes packetIdentifier topicFilters ∧
          packet = .unsubscribe
            ⟨UInt32.ofNat frame.remainingLength, packetIdentifier, topicFilters⟩ := by
  refine (identifiedItems_eq_ok_iff (fun packetId topicFilters => .unsubscribe
    ⟨UInt32.ofNat frame.remainingLength, packetId, topicFilters⟩) (reads_utf8String hend) ?_
    hend).trans ?_
  · rintro s front ⟨-, rfl⟩ hempty
    have := congrArg List.length hempty
    simp at this
  · simp only [exists_forall₂_encode_iff]
    constructor
    · rintro ⟨htype, hflags, packetId, topicFilters, _, hnonempty, ⟨hshort, rfl⟩, hbody, rfl⟩
      exact ⟨htype, hflags, packetId, topicFilters, hnonempty, hshort, hbody, rfl⟩
    · rintro ⟨htype, hflags, packetId, topicFilters, hnonempty, hshort, hbody, rfl⟩
      exact ⟨htype, hflags, packetId, topicFilters, _, hnonempty, ⟨hshort, rfl⟩, hbody, rfl⟩

/-- A computation that is caught returns or throws. -/
theorem ok_or_malformed {α : Type} {x : Except Fault α} (h : Caught x) :
    (∃ a, x = .ok a) ∨ ∃ what, x = .error (.malformedMqttPacket what) := by
  cases x with
  | ok a => exact Or.inl ⟨a, rfl⟩
  | error failure =>
      cases failure with
      | malformedMqttPacket what => exact Or.inr ⟨what, rfl⟩
      | _ => exact absurd h id

/-- Decoding an UNSUBSCRIBE is the inverse of its serialisation. -/
theorem unsubscribe_inverse :
    (∀ (buffer : Bytes) (frame : Frame) (packetIdentifier : UInt16) (topicFilters : List Bytes),
      frame.endPos ≤ buffer.length → frame.type = .unsubscribe →
      frame.typeAndFlags &&& 0x0F = 0x02 → topicFilters ≠ [] →
      (∀ topicFilter ∈ topicFilters, topicFilter.length ≤ 65535) →
      frame.body buffer = unsubscribeBytes packetIdentifier topicFilters →
        decodeUnsubscribe buffer frame = .ok (.unsubscribe
          ⟨UInt32.ofNat frame.remainingLength, packetIdentifier, topicFilters⟩)) ∧
    (∀ (buffer : Bytes) (frame : Frame), frame.endPos ≤ buffer.length →
      frame.type = .unsubscribe →
        (∃ unsubscribe, decodeUnsubscribe buffer frame = .ok (.unsubscribe unsubscribe) ∧
          frame.typeAndFlags &&& 0x0F = 0x02 ∧ unsubscribe.topicFilters ≠ [] ∧
          (∀ topicFilter ∈ unsubscribe.topicFilters, topicFilter.length ≤ 65535) ∧
          frame.body buffer =
            unsubscribeBytes unsubscribe.packetIdentifier unsubscribe.topicFilters) ∨
        ∃ what, decodeUnsubscribe buffer frame = .error (.malformedMqttPacket what)) := by
  constructor
  · intro buffer frame packetId topicFilters hend htype hflags hnonempty hshort hbody
    exact (decodeUnsubscribe_eq_ok_iff hend).mpr
      ⟨htype, hflags, packetId, topicFilters, hnonempty, hshort, hbody, rfl⟩
  · intro buffer frame hend htype
    refine (ok_or_malformed (caught_decodeUnsubscribe hend htype)).imp ?_ id
    rintro ⟨packet, hpacket⟩
    rcases (decodeUnsubscribe_eq_ok_iff hend).mp hpacket with
      ⟨-, hflags, packetId, topicFilters, hnonempty, hshort, hbody, rfl⟩
    exact ⟨_, hpacket, hflags, hnonempty, hshort, hbody⟩

/-- An UNSUBSCRIBE with identifier 7 and the topic filters a and the empty one. -/
def sampleUnsubscribe : Bytes := [0x00, 0x07, 0x00, 0x01, 0x61, 0x00, 0x00]

/-- The frame at the beginning of a buffer. -/
def unsubscribeFrame : Frame := ⟨0xA2, 0, 7, Nat.zero_le 7⟩

theorem unsubscribe_inverse_sample :
    decodeUnsubscribe sampleUnsubscribe unsubscribeFrame =
        .ok (.unsubscribe ⟨7, 7, [[0x61], []]⟩) ∧
      ((∃ unsubscribe, decodeUnsubscribe sampleUnsubscribe unsubscribeFrame =
            .ok (.unsubscribe unsubscribe) ∧
          unsubscribeFrame.typeAndFlags &&& 0x0F = 0x02 ∧ unsubscribe.topicFilters ≠ [] ∧
          (∀ topicFilter ∈ unsubscribe.topicFilters, topicFilter.length ≤ 65535) ∧
          unsubscribeFrame.body sampleUnsubscribe =
            unsubscribeBytes unsubscribe.packetIdentifier unsubscribe.topicFilters) ∨
        ∃ what, decodeUnsubscribe sampleUnsubscribe unsubscribeFrame =
          .error (.malformedMqttPacket what)) :=
  ⟨unsubscribe_inverse.1 sampleUnsubscribe unsubscribeFrame 7 [[0x61], []] (Nat.le_refl 7) rfl rfl
      (by decide) (by decide) rfl,
    unsubscribe_inverse.2 sampleUnsubscribe unsubscribeFrame (Nat.le_refl 7) rfl⟩

/-! ## SUBSCRIBE -/

/-- A topic filter and the byte of a quality of service. -/
structure SubscribeEntry where
  topicFilter : Bytes
  qosByte : UInt8
  wellFormed : topicFilterViolation topicFilter = none

namespace SubscribeEntry

variable (entry : SubscribeEntry)

/-- The bytes of the entry. -/
def bytes : Bytes := stringBytes entry.topicFilter ++ [entry.qosByte]

/-- The subscription that the decoder creates from the entry. -/
def subscription : Subscription :=
  ⟨entry.topicFilter, qosOf entry.qosByte 0, entry.wellFormed⟩

end SubscribeEntry

/-- The body of a SUBSCRIBE. -/
def subscribeBytes (packetIdentifier : UInt16) (entries : List SubscribeEntry) : Bytes :=
  uint16Bytes packetIdentifier ++ entries.flatMap (·.bytes)

/-- One byte is read as a quality of service. -/
theorem reads_qos (hend : endPos ≤ buffer.length) :
    Reads buffer endPos (fun pos => decodeQos buffer pos endPos)
      fun qos field => ∃ byte, field = [byte] ∧ qosOf byte 0 = qos := by
  intro pos pos' qos _
  unfold decodeQos
  constructor
  · intro h
    rcases bind_eq_ok_iff.mp h with ⟨_, hroom, h⟩
    rcases bind_eq_ok_iff.mp h with ⟨byte, hbyte, hresult⟩
    cases hresult
    have hroom := throwIf_eq_ok_iff.mp hroom
    unfold distance at hroom
    have hpos : pos < buffer.length := by omega
    rw [readByte_of_lt hpos] at hbyte
    cases hbyte
    refine ⟨by omega, by omega, buffer[pos], ?_, rfl⟩
    rw [slice, List.drop_eq_getElem_cons hpos, Nat.add_sub_cancel_left]
    rfl
  · rintro ⟨hle, hle', byte, hslice, rfl⟩
    have hlength : (slice buffer pos pos').length = pos' - pos :=
      length_slice (Nat.le_trans hle' hend)
    rw [hslice, List.length_singleton] at hlength
    obtain rfl : pos' = pos + 1 := by omega
    have hpos : pos < buffer.length := by omega
    rw [slice, List.drop_eq_getElem_cons hpos, Nat.add_sub_cancel_left] at hslice
    have hbyte : readByte buffer pos = .ok byte := by
      rw [readByte_of_lt hpos]
      exact congrArg _ (List.cons.inj hslice).1
    have hroom : ¬ distance pos endPos < 1 := by
      unfold distance
      omega
    exact bind_eq_ok_iff.mpr ⟨(), throwIf_eq_ok_iff.mpr hroom,
      bind_eq_ok_iff.mpr ⟨byte, hbyte, rfl⟩⟩

/-- An entry is read as a subscription. -/
theorem reads_subscription (hend : endPos ≤ buffer.length) :
    Reads buffer endPos (decodeSubscription buffer endPos)
      fun subscription field =>
        ∃ entry : SubscribeEntry, field = entry.bytes ∧ entry.subscription = subscription := by
  intro pos pos' subscription hpos
  unfold decodeSubscription
  constructor
  · intro h
    rcases bind_eq_ok_iff.mp h with ⟨⟨pos₁, topicFilter⟩, hfilter, h⟩
    rcases bind_eq_ok_iff.mp h with ⟨⟨pos₂, maximumQos⟩, hqos, h⟩
    rcases bind_eq_ok_iff.mp h with ⟨subscription', hcreate, hresult⟩
    cases hresult
    rcases (reads_utf8String hend _ _ _ hpos).mp hfilter with ⟨hle₁, hpos₁, -, hslice₁⟩
    rcases (reads_qos hend _ _ _ hpos₁).mp hqos with ⟨hle₂, hpos₂, byte, hslice₂, rfl⟩
    obtain ⟨rfl, hmaximum⟩ := Subscription.create_eq_ok_iff.mp hcreate
    refine ⟨Nat.le_trans hle₁ hle₂, hpos₂,
      ⟨subscription.topicFilter, byte, subscription.wellFormed⟩, ?_, ?_⟩
    · rw [SubscribeEntry.bytes, ← hslice₁, ← hslice₂, slice_append hle₁ hle₂]
    · cases subscription
      simp only at hmaximum
      subst hmaximum
      rfl
  · rintro ⟨hle, hle', entry, hslice, rfl⟩
    obtain ⟨pos₁, hle₁, hpos₁, hslice₁, hslice₂⟩ :=
      (slice_eq_append_iff hle (Nat.le_trans hle' hend)).mp hslice
    have hshort : entry.topicFilter.length ≤ 65535 := by
      have hwellFormed := entry.wellFormed
      unfold topicFilterViolation at hwellFormed
      by_contra hlong
      rw [if_neg (by omega), if_pos (by omega)] at hwellFormed
      cases hwellFormed
    have hpos₁' := Nat.le_trans hpos₁ hle'
    exact bind_eq_ok_iff.mpr
      ⟨_, (reads_utf8String hend _ _ _ hpos).mpr ⟨hle₁, hpos₁', hshort, hslice₁⟩,
        bind_eq_ok_iff.mpr
          ⟨_, (reads_qos hend _ _ _ hpos₁').mpr ⟨hpos₁, hle', entry.qosByte, hslice₂, rfl⟩,
            bind_eq_ok_iff.mpr ⟨entry.subscription, Subscription.create_eq_ok_iff.mpr ⟨rfl, rfl⟩,
              rfl⟩⟩⟩

/-- The packet that is decoded from a frame comes from the entries of its body. -/
theorem decodeSubscribe_eq_ok_iff (hend : frame.endPos ≤ buffer.length) :
    decodeSubscribe buffer frame = .ok packet ↔
      frame.type = .subscribe ∧ frame.typeAndFlags &&& 0x0F = 0x02 ∧
        ∃ packetIdentifier entries, entries ≠ [] ∧
          frame.body buffer = subscribeBytes packetIdentifier entries ∧
          packet = .subscribe ⟨UInt32.ofNat frame.remainingLength, packetIdentifier,
            entries.map (·.subscription)⟩ := by
  refine (identifiedItems_eq_ok_iff (fun packetId subscriptions => .subscribe
    ⟨UInt32.ofNat frame.remainingLength, packetId, subscriptions⟩) (reads_subscription hend) ?_
    hend).trans ?_
  · rintro s front ⟨entry, rfl, -⟩ hempty
    have := congrArg List.length hempty
    simp [SubscribeEntry.bytes] at this
  · simp only [exists_forall₂_entries_iff]
    constructor
    · rintro ⟨htype, hflags, packetId, _, _, hnonempty, ⟨entries, rfl, rfl⟩, hbody, rfl⟩
      exact ⟨htype, hflags, packetId, entries, fun h => hnonempty (by rw [h]; rfl), hbody, rfl⟩
    · rintro ⟨htype, hflags, packetId, entries, hnonempty, hbody, rfl⟩
      exact ⟨htype, hflags, packetId, _, _, fun h => hnonempty (List.map_eq_nil_iff.mp h),
        ⟨entries, rfl, rfl⟩, hbody, rfl⟩

/-! ## The format of SUBSCRIBE -/

/-- The body that a packet identifier and subscriptions are serialised as. -/
def subscriptionBytes (packetIdentifier : UInt16) (subscriptions : List Subscription) : Bytes :=
  uint16Bytes packetIdentifier ++
    subscriptions.flatMap fun s => stringBytes s.topicFilter ++ [s.maximumQos.toUInt8]

/-- A frame is decoded exactly if its body is the serialisation of subscriptions, each with a
quality of service that is not reserved, and it is decoded as these. -/
def FollowsFormat (buffer : Bytes) (frame : Frame) : Prop :=
  ∀ packet, decodeSubscribe buffer frame = .ok packet ↔
    ∃ packetIdentifier subscriptions, subscriptions ≠ [] ∧
      (∀ s ∈ subscriptions, s.maximumQos ≠ .reserved) ∧
      frame.body buffer = subscriptionBytes packetIdentifier subscriptions ∧
      packet = .subscribe ⟨UInt32.ofNat frame.remainingLength, packetIdentifier, subscriptions⟩

/-- The entry of a subscription. -/
def entryOf (s : Subscription) : SubscribeEntry :=
  ⟨s.topicFilter, s.maximumQos.toUInt8, s.wellFormed⟩

theorem qosOf_toUInt8 (qos : QoS) : qosOf qos.toUInt8 0 = qos := by
  cases qos <;> rfl

theorem subscription_entryOf (s : Subscription) : (entryOf s).subscription = s := by
  rw [entryOf, SubscribeEntry.subscription]
  simp only [qosOf_toUInt8]

theorem subscriptionBytes_eq (packetIdentifier : UInt16) (subscriptions : List Subscription) :
    subscriptionBytes packetIdentifier subscriptions =
      subscribeBytes packetIdentifier (subscriptions.map entryOf) := by
  rw [subscriptionBytes, subscribeBytes, List.flatMap_map]
  rfl

theorem toUInt8_le_two_iff {qos : QoS} : qos.toUInt8 ≤ 2 ↔ qos ≠ .reserved := by
  cases qos <;> decide

/-- Bytes up to 2 are those of a quality of service. -/
theorem toUInt8_qosOf {byte : UInt8} (h : byte ≤ 2) : (qosOf byte 0).toUInt8 = byte := by
  have htwo : byte.toNat ≤ 2 := UInt8.le_iff_toNat_le.mp h
  rcases (by omega : byte.toNat = 0 ∨ byte.toNat = 1 ∨ byte.toNat = 2) with h | h | h
  · obtain rfl : byte = 0 := UInt8.toNat_inj.mp h
    rfl
  · obtain rfl : byte = 1 := UInt8.toNat_inj.mp h
    rfl
  · obtain rfl : byte = 2 := UInt8.toNat_inj.mp h
    rfl

/-- Entries are serialised like their subscriptions if the decoder loses no bits. -/
theorem flatMap_bytes_eq_iff {entries : List SubscribeEntry} :
    entries.flatMap (·.bytes) =
        ((entries.map (·.subscription)).map entryOf).flatMap (·.bytes) ↔
      ∀ entry ∈ entries, (qosOf entry.qosByte 0).toUInt8 = entry.qosByte := by
  induction entries with
  | nil => simp
  | cons entry entries ih =>
      rw [List.map_cons, List.map_cons, List.flatMap_cons, List.flatMap_cons,
        List.forall_mem_cons, ← ih]
      change (stringBytes entry.topicFilter ++ [entry.qosByte]) ++ _ =
        (stringBytes entry.topicFilter ++ [(qosOf entry.qosByte 0).toUInt8]) ++ _ ↔ _
      rw [List.append_assoc, List.append_assoc, List.append_cancel_left_eq,
        List.singleton_append, List.singleton_append, List.cons.injEq, eq_comm]

/-- When a SUBSCRIBE is decoded from exactly its format. -/
theorem subscribe_format_iff (hend : frame.endPos ≤ buffer.length)
    (htype : frame.type = .subscribe) (hflags : frame.typeAndFlags &&& 0x0F = 0x02) :
    FollowsFormat buffer frame ↔
      ∀ packetIdentifier entries, entries ≠ [] →
        frame.body buffer = subscribeBytes packetIdentifier entries →
          ∀ entry ∈ entries, entry.qosByte ≤ 2 := by
  constructor
  · intro hformat packetId entries hnonempty hbody entry hentry
    have hdecode := (decodeSubscribe_eq_ok_iff hend).mpr
      ⟨htype, hflags, packetId, entries, hnonempty, hbody, rfl⟩
    obtain ⟨packetId', subscriptions, -, hreserved, hbody', hpacket⟩ :=
      (hformat _).mp hdecode
    cases hpacket
    rw [hbody, subscriptionBytes_eq] at hbody'
    have hbits := flatMap_bytes_eq_iff.mp (List.append_cancel_left hbody') entry hentry
    rw [← hbits, toUInt8_le_two_iff]
    exact hreserved _ (List.mem_map_of_mem hentry)
  · intro hbytes packet
    rw [decodeSubscribe_eq_ok_iff hend]
    constructor
    · rintro ⟨-, -, packetId, entries, hnonempty, hbody, rfl⟩
      have hsmall := hbytes packetId entries hnonempty hbody
      refine ⟨packetId, entries.map (·.subscription),
        fun h => hnonempty (List.map_eq_nil_iff.mp h), ?_, ?_, rfl⟩
      · rintro s hs
        obtain ⟨entry, hentry, rfl⟩ := List.mem_map.mp hs
        change qosOf entry.qosByte 0 ≠ .reserved
        rw [← toUInt8_le_two_iff, toUInt8_qosOf (hsmall entry hentry)]
        exact hsmall entry hentry
      · rw [hbody, subscriptionBytes_eq, subscribeBytes, subscribeBytes,
          flatMap_bytes_eq_iff.mpr fun entry hentry => toUInt8_qosOf (hsmall entry hentry)]
    · rintro ⟨packetId, subscriptions, hnonempty, -, hbody, rfl⟩
      refine ⟨htype, hflags, packetId, subscriptions.map entryOf,
        fun h => hnonempty (List.map_eq_nil_iff.mp h), ?_, ?_⟩
      · rw [hbody, subscriptionBytes_eq]
      · have hsame : (subscriptions.map entryOf).map (·.subscription) = subscriptions := by
          rw [List.map_map]
          exact List.map_id'' subscription_entryOf subscriptions
        rw [hsame]

/-- A SUBSCRIBE with identifier 7 for the topic filter a. -/
def subscribeWith (qosByte : UInt8) : Bytes := [0x00, 0x07, 0x00, 0x01, 0x61, qosByte]

/-- The frame at the beginning of a buffer. -/
def subscribeFrame : Frame := ⟨0x82, 0, 6, Nat.zero_le 6⟩

theorem subscribe_format_two :
    FollowsFormat (subscribeWith 0x02) subscribeFrame ↔
      ∀ packetIdentifier entries, entries ≠ [] →
        subscribeFrame.body (subscribeWith 0x02) = subscribeBytes packetIdentifier entries →
          ∀ entry ∈ entries, entry.qosByte ≤ 2 :=
  subscribe_format_iff (Nat.le_refl 6) rfl rfl

/-- A byte of which bits are lost is accepted, and so is a reserved quality of service. -/
theorem subscribe_accepts_other_bytes :
    (∃ s : Subscription, s.topicFilter = [0x61] ∧ s.maximumQos = .exactlyOnce ∧
      decodeSubscribe (subscribeWith 0x82) subscribeFrame = .ok (.subscribe ⟨6, 7, [s]⟩)) ∧
    (∃ s : Subscription, s.topicFilter = [0x61] ∧ s.maximumQos = .reserved ∧
      decodeSubscribe (subscribeWith 0x03) subscribeFrame = .ok (.subscribe ⟨6, 7, [s]⟩)) ∧
    ¬ FollowsFormat (subscribeWith 0x82) subscribeFrame := by
  have hwellFormed : topicFilterViolation [0x61] = none := rfl
  refine ⟨⟨⟨[0x61], .exactlyOnce, hwellFormed⟩, rfl, rfl, rfl⟩,
    ⟨⟨[0x61], .reserved, hwellFormed⟩, rfl, rfl, rfl⟩, ?_⟩
  intro hformat
  have hid : uint16Bytes 7 = [0x00, 0x07] := rfl
  have hstring : stringBytes [0x61] = [0x00, 0x01, 0x61] := rfl
  have hbody : subscribeFrame.body (subscribeWith 0x82) =
      subscribeBytes 7 [⟨[0x61], 0x82, hwellFormed⟩] := by
    change _ = uint16Bytes 7 ++ ((stringBytes [0x61] ++ [0x82]) ++ [])
    rw [hid, hstring]
    rfl
  have hdecode := (decodeSubscribe_eq_ok_iff (Nat.le_refl 6)).mpr
    ⟨rfl, rfl, 7, [⟨[0x61], 0x82, hwellFormed⟩], List.cons_ne_nil _ _, hbody, rfl⟩
  obtain ⟨packetId, subscriptions, -, -, hbody', hpacket⟩ := (hformat _).mp hdecode
  cases hpacket
  rw [hbody, subscriptionBytes_eq] at hbody'
  have hbits : (qosOf 0x82 0).toUInt8 = 0x82 :=
    flatMap_bytes_eq_iff.mp (List.append_cancel_left hbody') _ (List.mem_singleton.mpr rfl)
  exact absurd hbits (by decide)

end Codec
end WallyIo
