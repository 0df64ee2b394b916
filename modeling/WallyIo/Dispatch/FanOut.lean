import WallyIo.Dispatch.FreshSessions
import WallyIo.Dispatch.SubscriptionHistory

/-!
# Publishing to all subscribers

One PUBLISH is handed to every subscriber in turn, and changed whenever it is sent with
quality of service 0.  What a subscriber is sent does not depend on that.

Main results:

- Theorem {lit}`publishTo_of_deliverable`: what the loop over the subscribers sends to whom.
- Theorem {lit}`publish_eq_ok_iff`: when it returns.
- Theorem {lit}`fanOut_perm`: every subscriber is sent the same packet in whatever order the
  subscribers are visited.
- Theorem {lit}`served_iff`: when a client is sent what it has been granted.
-/

namespace WallyIo
namespace Dispatch

open Protocol Library Codec

/-! ## The same packet with another quality of service -/

/-- A packet with some quality of service, and the remaining length that belongs to it. -/
def atQos (p : Publish) (qos : QoS) : Publish :=
  { p with
    typeAndFlags := p.flagsWithQos qos
    remainingLength := UInt32.ofNat (bodyLength p qos)
    isPublish := p.isPublish_flagsWithQos qos }

variable {p p' p₀ : Publish} {qos : QoS}

/-- Assigning a quality of service to a packet that announces its length. -/
theorem setQos_eq_atQos (h : Announced p) (hold : p.qos ≠ .reserved) (hnew : qos ≠ .reserved) :
    p.setQos qos = .ok (atQos p qos) := by
  rcases Publish.setQos_eq_ok hold qos with ⟨p', hset⟩
  rcases Publish.typeAndFlags_of_setQos hset with ⟨hflags, htopic, hid, hmessage⟩
  have hlength : p'.remainingLength = UInt32.ofNat (bodyLength p qos) := by
    have hannounced := h.setQos hset hnew
    rw [Announced, Publish.qos_of_setQos hset, bodyLength, htopic, hmessage] at hannounced
    apply UInt32.toNat_inj.mp
    rw [hannounced, UInt32.toNat_ofNat']
    rfl
  rw [hset]
  cases p'
  simp only at hflags htopic hid hmessage hlength
  subst hflags htopic hid hmessage hlength
  rfl

/-- Two packets differ at most in their quality of service. -/
structure SameMessage (p₀ p : Publish) : Prop where
  atQos_eq : ∀ qos, atQos p qos = atQos p₀ qos
  announced : Announced p
  reserved_iff : p.qos = .reserved ↔ p₀.qos = .reserved

theorem sameMessage_self (h : Announced p) : SameMessage p p :=
  ⟨fun _ => rfl, h, Iff.rfl⟩

theorem flagsWithQos_atQos (p : Publish) (qos qos' : QoS) :
    (atQos p qos).flagsWithQos qos' = p.flagsWithQos qos' := by
  have hbits : (qos.toUInt8 <<< (1 : UInt8)) &&& (0xF9 : UInt8) = 0 := by
    cases qos <;> decide
  have hkept : p.flagsWithQos qos &&& (0xF9 : UInt8) = p.typeAndFlags &&& (0xF9 : UInt8) :=
    select_kept (by decide) hbits
  exact congrArg (· ||| (qos'.toUInt8 <<< (1 : UInt8))) hkept

@[simp]
theorem atQos_atQos (p : Publish) (qos qos' : QoS) :
    atQos (atQos p qos) qos' = atQos p qos' := by
  have hflags := flagsWithQos_atQos p qos qos'
  have hsame : ∀ flags (h : typeOf flags = .publish), flags = p.flagsWithQos qos' →
      ({ p with
        typeAndFlags := flags
        remainingLength := UInt32.ofNat (bodyLength p qos')
        isPublish := h } : Publish) = atQos p qos' := by
    rintro flags h rfl
    rfl
  exact hsame _ _ hflags

/-- Sending a packet with quality of service 0 keeps the message. -/
theorem SameMessage.setQos (h : SameMessage p₀ p) (hset : p.setQos qos = .ok p')
    (hqos : qos ≠ .reserved) : SameMessage p₀ p' := by
  have hold : p.qos ≠ .reserved := by
    intro hreserved
    rw [Publish.setQos_reserved hreserved] at hset
    cases hset
  have hannounced := h.announced.setQos hset hqos
  have hlevel := Publish.qos_of_setQos hset
  rw [setQos_eq_atQos h.announced hold hqos] at hset
  cases hset
  refine ⟨?_, hannounced, ?_⟩
  · intro qos'
    rw [atQos_atQos]
    exact h.atQos_eq qos'
  · rw [hlevel, ← h.reserved_iff]
    simp [hqos, hold]

/-! ## One subscriber -/

/-- The packet that a session is sent with some quality of service. -/
def outgoing (p : Publish) (s : MqttClientSession) (qos : QoS) : Publish :=
  if qos = .atMostOnce then atQos p qos
  else (atQos p qos).withNewPacketIdentifier s.txInFlightPublications.nextIdentifier

/-- A session with a connection can be handed a packet. -/
def Ready (p : Publish) (s : MqttClientSession) (qos : QoS) : Prop :=
  qos = .reserved ∨ p.qos ≠ .reserved ∧
    (qos = .atMostOnce ∨
      s.txInFlightPublications.publications.lookup
        s.txInFlightPublications.nextIdentifier = none)

/-- The calls of a session that is handed a packet.  Nothing is sent with the reserved
quality of service. -/
def callsFor (p : Publish) (s : MqttClientSession) (qos : QoS) : List SenderCall :=
  if qos = .reserved then [] else [.send (.publish (outgoing p s qos))]

variable {s s' : MqttClientSession} {calls : List SenderCall}

/-- A session that is ready is sent the packet. -/
theorem publish_of_ready (h : SameMessage p₀ p) (hready : Ready p₀ s qos) :
    ∃ p' s', s.publish true p qos = .ok (callsFor p₀ s qos, p', s') ∧ SameMessage p₀ p' := by
  have hset : qos ≠ .reserved → p₀.qos ≠ .reserved → ∀ i,
      (p.withNewPacketIdentifier i).setQos qos =
        .ok ((atQos p₀ qos).withNewPacketIdentifier i) := by
    intro hnew hold i
    rw [Ne, ← h.reserved_iff] at hold
    rw [setQos_eq_atQos (h.announced.withNewPacketIdentifier i) hold hnew, ← h.atQos_eq]
    rfl
  have hpublish : ∃ p' t, s.txInFlightPublications.publish true p qos =
      .ok (callsFor p₀ s qos, p', t) ∧ SameMessage p₀ p' := by
    cases qos with
    | reserved => exact ⟨p, _, rfl, h⟩
    | atMostOnce =>
        have hold : p.qos ≠ .reserved := by
          rw [Ne, h.reserved_iff]
          exact (hready.resolve_left (by decide)).1
        have hlowered := setQos_eq_atQos h.announced hold
          (show QoS.atMostOnce ≠ .reserved by decide)
        have hsame := h.setQos hlowered (by decide)
        rw [h.atQos_eq] at hlowered hsame
        refine ⟨_, s.txInFlightPublications, ?_, hsame⟩
        rw [TxInFlightPublications.publish_atMostOnce, hlowered]
        rfl
    | atLeastOnce | exactlyOnce =>
        rcases hready.resolve_left (by decide) with ⟨hold, hfree⟩
        exact ⟨p, _, (TxInFlightPublications.publish_numbered_eq_ok_iff (by decide)).mpr
          ⟨_, hset (by decide) hold _, hfree.resolve_left (by decide), rfl, rfl, rfl⟩, h⟩
  rcases hpublish with ⟨p', t, ht, hsame⟩
  exact ⟨p', _, MqttClientSession.publish_eq_ok_iff.mpr ⟨t, ht, rfl⟩, hsame⟩

/-- A session that can be handed a packet is ready. -/
theorem ready_of_publish (h : SameMessage p₀ p)
    (hpublish : s.publish true p qos = .ok (calls, p', s')) : Ready p₀ s qos := by
  rcases MqttClientSession.publish_eq_ok_iff.mp hpublish with ⟨t, ht, -⟩
  have hnot : ∀ {p : Publish} {q : QoS} {p' : Publish}, p.setQos q = .ok p' →
      p.qos ≠ .reserved := by
    intro p q p' hset hreserved
    rw [Publish.setQos_reserved hreserved] at hset
    cases hset
  cases TxInFlightPublications.publishes_of_publish ht with
  | nothing _ _ hnothing => exact Or.inl (hnothing rfl)
  | itself sent hset =>
      refine Or.inr ⟨?_, Or.inl rfl⟩
      rw [Ne, ← h.reserved_iff]
      exact hnot hset
  | copy _ hqos sent hset hfree =>
      refine Or.inr ⟨?_, Or.inr hfree⟩
      have hold := hnot hset
      rw [Ne, ← h.reserved_iff]
      exact hold

/-! ## All subscribers -/

namespace SessionManager

variable (connections : Connections) (m : SessionManager)

/-- What is sent to a subscriber. -/
def deliveryTo (p : Publish) (subscriber : Bytes × QoS) : List Effect :=
  match m.sessions.lookup subscriber.1 with
  | some entry =>
      if connected connections entry then
        callsOf subscriber.1 entry (callsFor p entry.session subscriber.2)
      else []
  | none => []

/-- A subscriber can be handed a packet. -/
def Deliverable (p : Publish) (subscriber : Bytes × QoS) : Prop :=
  ∀ entry, m.sessions.lookup subscriber.1 = some entry → connected connections entry = true →
    Ready p entry.session subscriber.2

variable {connections} {m} {m' : SessionManager} {effects : List Effect}
  {subscribers : List (Bytes × QoS)}

/-- Another session that changes does not matter. -/
theorem deliveryTo_update {x : Bytes} {session : MqttClientSession} {e : Bytes × QoS}
    (hne : e.1 ≠ x) :
    deliveryTo connections (m.update x session) p e = deliveryTo connections m p e := by
  rw [deliveryTo, deliveryTo, lookup_update_of_ne session hne]

theorem deliverable_update {x : Bytes} {session : MqttClientSession} {e : Bytes × QoS}
    (hne : e.1 ≠ x) :
    Deliverable connections (m.update x session) p e ↔ Deliverable connections m p e := by
  rw [Deliverable, Deliverable, lookup_update_of_ne session hne]

/-- A session without a connection is handed nothing. -/
theorem publish_disconnected (s : MqttClientSession) (p : Publish) (q : QoS) :
    s.publish false p q = .ok ([], p, s) := rfl

/-- If all subscribers can be handed the packet, the loop returns. -/
theorem publishTo_of_deliverable (hnodup : (subscribers.map Prod.fst).Nodup)
    (h : SameMessage p₀ p)
    (hdeliverable : ∀ e ∈ subscribers, Deliverable connections m p₀ e) :
    ∃ p' m', publishTo connections subscribers p m =
      .ok (subscribers.flatMap (deliveryTo connections m p₀), p', m') := by
  induction subscribers generalizing p m with
  | nil => exact ⟨p, m, rfl⟩
  | cons subscriber rest ih =>
      rcases subscriber with ⟨x, q⟩
      rw [List.map_cons, List.nodup_cons] at hnodup
      have hother : ∀ e ∈ rest, e.1 ≠ x :=
        fun e he => KeyedMaximum.key_ne_of_not_mem hnodup.1 he
      have hrest : ∀ {p : Publish} (session : MqttClientSession), SameMessage p₀ p →
          ∃ p' m', publishTo connections rest p (m.update x session) =
            .ok (rest.flatMap (deliveryTo connections m p₀), p', m') := by
        intro p session hsame
        rcases ih hnodup.2 hsame (m := m.update x session) (fun e he =>
          (deliverable_update (hother e he)).mpr (hdeliverable e (by simp [he]))) with
          ⟨p', m', hloop⟩
        refine ⟨p', m', ?_⟩
        rw [hloop, List.flatMap_congr fun e he => deliveryTo_update (hother e he)]
      rw [List.flatMap_cons]
      cases hentry : m.sessions.lookup x with
      | none =>
          have hnothing : deliveryTo connections m p₀ (x, q) = [] := by
            simp only [deliveryTo, hentry]
          rcases ih hnodup.2 h (m := m) (fun e he => hdeliverable e (by simp [he])) with
            ⟨p', m', hloop⟩
          refine ⟨p', m', ?_⟩
          rw [publishTo_cons_of_none hentry, hloop, hnothing, List.nil_append]
      | some entry =>
          have hpublish : ∃ p' s', entry.session.publish (connected connections entry) p q =
              .ok (if connected connections entry then callsFor p₀ entry.session q else [],
                p', s') ∧ SameMessage p₀ p' := by
            cases hconnected : connected connections entry with
            | false => exact ⟨p, entry.session, rfl, h⟩
            | true =>
                exact publish_of_ready h (hdeliverable (x, q) (by simp) entry hentry hconnected)
          rcases hpublish with ⟨p₁, s', hpublish, hsame⟩
          rcases hrest s' hsame with ⟨p', m', hloop⟩
          refine ⟨p', m', (publishTo_cons_eq_ok_iff hentry).mpr
            ⟨_, p₁, s', _, hpublish, hloop, ?_⟩⟩
          congr 1
          simp only [deliveryTo, hentry]
          split <;> rfl

/-- If the loop returns, all subscribers can be handed the packet. -/
theorem deliverable_of_publishTo (hnodup : (subscribers.map Prod.fst).Nodup)
    (h : SameMessage p₀ p)
    (hloop : publishTo connections subscribers p m = .ok (effects, p', m')) :
    ∀ e ∈ subscribers, Deliverable connections m p₀ e := by
  induction subscribers generalizing p m effects with
  | nil => nofun
  | cons subscriber rest ih =>
      rcases subscriber with ⟨x, q⟩
      rw [List.map_cons, List.nodup_cons] at hnodup
      have hother : ∀ e ∈ rest, e.1 ≠ x :=
        fun e he => KeyedMaximum.key_ne_of_not_mem hnodup.1 he
      cases hentry : m.sessions.lookup x with
      | none =>
          rw [publishTo_cons_of_none hentry] at hloop
          intro e he
          rcases List.mem_cons.mp he with rfl | he
          · intro entry hentry'
            rw [hentry] at hentry'
            cases hentry'
          · exact ih hnodup.2 h hloop e he
      | some entry =>
          rcases (publishTo_cons_eq_ok_iff hentry).mp hloop with
            ⟨calls, p₁, session, effects₁, hpublish, hrest, -⟩
          have hsame : SameMessage p₀ p₁ ∧
              (connected connections entry = true → Ready p₀ entry.session q) := by
            cases hconnected : connected connections entry with
            | false =>
                rw [hconnected, publish_disconnected] at hpublish
                cases hpublish
                exact ⟨h, nofun⟩
            | true =>
                rw [hconnected] at hpublish
                have hready := ready_of_publish h hpublish
                rcases publish_of_ready h hready with ⟨p₂, s₂, hagain, hsame⟩
                rw [hpublish] at hagain
                cases hagain
                exact ⟨hsame, fun _ => hready⟩
          intro e he
          rcases List.mem_cons.mp he with rfl | he
          · intro entry' hentry' hconnected
            rw [hentry] at hentry'
            cases hentry'
            exact hsame.2 hconnected
          · exact (deliverable_update (hother e he)).mp (ih hnodup.2 hsame.1 hrest e he)

/-! ## What a subscriber is sent -/

/-- What the packet that a session is sent has in common with the one that is published. -/
structure OutgoingFacts (p : Publish) (s : MqttClientSession) (q : QoS) (out : Publish) :
    Prop where
  level : out.qos = q
  topic : out.topic = p.topic
  applicationMessage : out.applicationMessage = p.applicationMessage
  identifier : q ≠ .atMostOnce →
    out.packetIdentifier = s.txInFlightPublications.nextIdentifier
  announced : Announced out

theorem outgoing_facts (h : Announced p) (hold : p.qos ≠ .reserved) {q : QoS}
    (hq : q ≠ .reserved) (s : MqttClientSession) : OutgoingFacts p s q (outgoing p s q) := by
  have hset := setQos_eq_atQos h hold hq
  have hlevel := Publish.qos_of_setQos hset
  have hannounced := h.setQos hset hq
  unfold outgoing
  split
  · rename_i hzero
    exact ⟨hlevel, rfl, rfl, fun hne => absurd hzero hne, hannounced⟩
  · exact ⟨hlevel, rfl, rfl, fun _ => rfl, hannounced⟩

/-- A subscriber that is ready is sent one packet. -/
theorem publishesTo_deliveryTo {x : Bytes} {q : QoS} {entry : SessionEntry}
    (hentry : m.sessions.lookup x = some entry)
    (hconnected : connected connections entry = true) :
    publishesTo x (deliveryTo connections m p (x, q)) =
      if q = .reserved then [] else [outgoing p entry.session q] := by
  simp only [deliveryTo, hentry, hconnected, if_true, callsFor]
  split
  · rfl
  · simp [publishesTo, callsOf]

/-- What is sent to one subscriber is not sent to another one. -/
theorem publishesTo_deliveryTo_of_ne {x : Bytes} {e : Bytes × QoS} (hne : e.1 ≠ x) :
    publishesTo x (deliveryTo connections m p e) = [] := by
  unfold deliveryTo
  split
  · split
    · exact publishesTo_callsOf_of_ne hne.symm _ _
    · rfl
  · rfl

/-- A subscriber among others is sent what is sent to it alone. -/
theorem publishesTo_flatMap {x : Bytes} {q : QoS} (hnodup : (subscribers.map Prod.fst).Nodup)
    (hmem : (x, q) ∈ subscribers) :
    publishesTo x (subscribers.flatMap (deliveryTo connections m p)) =
      publishesTo x (deliveryTo connections m p (x, q)) := by
  rw [publishesTo, List.filterMap_flatMap]
  exact KeyedMaximum.flatMap_of_mem hnodup
    (fun e _ hne => publishesTo_deliveryTo_of_ne hne) hmem

/-- Nothing is sent to a client that is no subscriber. -/
theorem publishesTo_flatMap_of_not_mem {x : Bytes} (hx : x ∉ subscribers.map Prod.fst) :
    publishesTo x (subscribers.flatMap (deliveryTo connections m p)) = [] := by
  rw [publishesTo, List.filterMap_flatMap]
  exact KeyedMaximum.flatMap_of_not_mem
    (fun e _ hne => publishesTo_deliveryTo_of_ne hne) hx

/-! ## The order of the subscribers -/

/-- In whatever order the subscribers are visited, each of them is sent the same bytes: those
of the message with its own quality of service and the next packet identifier of its own
session. -/
theorem fanOut_perm (connections : Connections) (m : SessionManager)
    (hp : Encodable (.publish p)) (hqos : p.qos ≠ .reserved)
    (hlength : p.remainingLength.toNat ≤ 268435453) {subscribers' : List (Bytes × QoS)}
    (hperm : subscribers.Perm subscribers') (hdistinct : (subscribers.map Prod.fst).Nodup)
    (hlive : ∀ e ∈ subscribers, e.2 ≠ .reserved ∧
      ∃ entry, m.sessions.lookup e.1 = some entry ∧ connected connections entry = true ∧
        entry.session.txInFlightPublications.publications.lookup
          entry.session.txInFlightPublications.nextIdentifier = none) :
    ∃ effects p₁ m₁ effects' p₂ m₂,
      publishTo connections subscribers p m = .ok (effects, p₁, m₁) ∧
      publishTo connections subscribers' p m = .ok (effects', p₂, m₂) ∧
      ∀ e ∈ subscribers, ∃ entry out bytes, m.sessions.lookup e.1 = some entry ∧
        publishesTo e.1 effects = [out] ∧ publishesTo e.1 effects' = [out] ∧
        encoding (.publish out) = .ok bytes ∧ out.qos = e.2 ∧
        (e.2 ≠ .atMostOnce → out.packetIdentifier =
          entry.session.txInFlightPublications.nextIdentifier) ∧
        out.topic = p.topic ∧ out.applicationMessage = p.applicationMessage := by
  obtain ⟨htopic, hannounced, -⟩ := encodable_publish_iff.mp hp
  have hdeliverable : ∀ e ∈ subscribers, Deliverable connections m p e := by
    intro e he entry hentry _
    rcases (hlive e he).2 with ⟨entry', hentry', -, hfree⟩
    rw [hentry] at hentry'
    cases hentry'
    exact Or.inr ⟨hqos, Or.inr hfree⟩
  have hdistinct' : (subscribers'.map Prod.fst).Nodup :=
    (hperm.map Prod.fst).nodup_iff.mp hdistinct
  rcases publishTo_of_deliverable hdistinct (sameMessage_self hannounced) hdeliverable with
    ⟨p₁, m₁, hloop⟩
  rcases publishTo_of_deliverable hdistinct' (sameMessage_self hannounced)
    (fun e he => hdeliverable e (hperm.mem_iff.mpr he)) with ⟨p₂, m₂, hloop'⟩
  refine ⟨_, p₁, m₁, _, p₂, m₂, hloop, hloop', ?_⟩
  rintro ⟨x, q⟩ he
  rcases hlive _ he with ⟨hq, entry, hentry, hconnected, -⟩
  have hfacts := outgoing_facts hannounced hqos hq entry.session
  have hsent : publishesTo x (deliveryTo connections m p (x, q)) =
      [outgoing p entry.session q] := by
    rw [publishesTo_deliveryTo hentry hconnected, if_neg hq]
  have hencodable : Encodable (.publish (outgoing p entry.session q)) := by
    refine encodable_publish_iff.mpr ⟨?_, hfacts.announced, ?_⟩
    · rw [hfacts.topic]
      exact htopic
    · have hbody : p.remainingLength.toNat = bodyLength p p.qos :=
        hp.announced.trans (length_bodyOf_publish p)
      rw [hbody, bodyLength] at hlength
      rw [bodyLength, hfacts.topic, hfacts.applicationMessage]
      split
      · omega
      · omega
  refine ⟨entry, _, _, hentry, ?_, ?_, encoding_eq hencodable, hfacts.level,
    hfacts.identifier, hfacts.topic, hfacts.applicationMessage⟩
  · rw [publishesTo_flatMap hdistinct he, hsent]
  · rw [publishesTo_flatMap hdistinct' (hperm.mem_iff.mp he), hsent]

/-- Two clients with sessions of their own. -/
def twoSessions : SessionManager :=
  { create 3 with
    sessions := (Table.empty.insert [0x78]
      ⟨0, MqttClientSession.clientConnected 3 (sampleConnect [0x78])⟩).insert [0x79]
        ⟨1, MqttClientSession.clientConnected 3 (sampleConnect [0x79])⟩ }

theorem fanOut_perm_twoSessions :
    ∃ effects p₁ m₁ effects' p₂ m₂,
      publishTo sampleConnections [([0x78], .atMostOnce), ([0x79], .exactlyOnce)]
        TxTable.samplePublish twoSessions = .ok (effects, p₁, m₁) ∧
      publishTo sampleConnections [([0x79], .exactlyOnce), ([0x78], .atMostOnce)]
        TxTable.samplePublish twoSessions = .ok (effects', p₂, m₂) ∧
      publishesTo [0x78] effects = publishesTo [0x78] effects' ∧
      publishesTo [0x79] effects = publishesTo [0x79] effects' := by
  rcases fanOut_perm sampleConnections twoSessions TxTable.encodable_samplePublish (by decide)
    (by decide)
    (List.Perm.swap ([0x79], .exactlyOnce) ([0x78], .atMostOnce) []) (by decide) (by
      intro e he
      simp only [List.mem_cons, List.not_mem_nil, or_false] at he
      rcases he with rfl | rfl
      · exact ⟨by decide, _, rfl, rfl, rfl⟩
      · exact ⟨by decide, _, rfl, rfl, rfl⟩) with
    ⟨effects, p₁, m₁, effects', p₂, m₂, hloop, hloop', hsent⟩
  refine ⟨effects, p₁, m₁, effects', p₂, m₂, hloop, hloop', ?_, ?_⟩
  · rcases hsent ([0x78], .atMostOnce) (by simp) with ⟨_, out, _, -, hfirst, hsecond, -⟩
    rw [hfirst, hsecond]
  · rcases hsent ([0x79], .exactlyOnce) (by simp) with ⟨_, out, _, -, hfirst, hsecond, -⟩
    rw [hfirst, hsecond]

/-! ## Packets that are too long -/

variable (connections) (m) in
/-- What a subscriber is sent is not too long. -/
def Fitting (p : Publish) (subscriber : Bytes × QoS) : Prop :=
  ∀ entry, m.sessions.lookup subscriber.1 = some entry → connected connections entry = true →
    subscriber.2 ≠ .reserved → Fits p subscriber.2

/-- The encoder accepts every PUBLISH that is sent, so that no {lit}`send` throws. -/
def Encoded (effects : List Effect) : Prop :=
  ∀ x k p, .call x k (.send (.publish p)) ∈ effects → ∃ bytes, encoding (.publish p) = .ok bytes

/-- Publishing returns exactly if all subscribers can be handed the packet, and what it sends
is known then. -/
theorem publish_eq_ok_iff (h : Announced p) :
    (∃ p' m', m.publish connections p = .ok (effects, p', m')) ↔
      (∀ e ∈ m.topicSubscriptions.resolveSubscribers p, Deliverable connections m p e) ∧
        effects = .publish p ::
          (m.topicSubscriptions.resolveSubscribers p).flatMap (deliveryTo connections m p) := by
  have hnodup : ((m.topicSubscriptions.resolveSubscribers p).map Prod.fst).Nodup :=
    TopicSubscriptions.nodup_resolveSubscribers
  constructor
  · rintro ⟨p', m', hpublish⟩
    rcases publish_eq_ok_iff_publishTo.mp hpublish with ⟨sent, hloop, rfl⟩
    have hdeliverable := deliverable_of_publishTo hnodup (sameMessage_self h) hloop
    rcases publishTo_of_deliverable hnodup (sameMessage_self h) hdeliverable with
      ⟨p₁, m₁, hagain⟩
    rw [hloop] at hagain
    cases hagain
    exact ⟨hdeliverable, rfl⟩
  · rintro ⟨hdeliverable, rfl⟩
    rcases publishTo_of_deliverable hnodup (sameMessage_self h) hdeliverable with ⟨p', m', hloop⟩
    exact ⟨p', m', publish_eq_ok_iff_publishTo.mpr ⟨_, hloop, rfl⟩⟩

/-- The qualities of service that have been granted to a client in the SUBACK packets for its
subscriptions that match a topic. -/
def grantedQos (history : List (Bytes × Subscribe)) (clientId topic : Bytes) : Set QoS :=
  {q | ∃ e ∈ history, e.1 = clientId ∧ ∃ topicFilter requested code,
    topicFilterMatchesTopic topicFilter topic = true ∧
      (requested, code) ∈ TopicSubscriptions.answersFor topicFilter e.2 ∧
        code.granted = some q}

/-- The server passes a message on to all subscribers.  A client is sent it once if it matches what
the client has been granted, with the greatest quality of service granted, and else not at all. -/
structure Served (history : List (Bytes × Subscribe)) (connections : Connections)
    (m : SessionManager) (clientId : Bytes) (p : Publish) : Prop where
  granted : (grantedQos history clientId p.topic).Nonempty →
    ∃ effects p' m' out, m.publish connections p = .ok (effects, p', m') ∧ Encoded effects ∧
      publishesTo clientId effects = [out] ∧
      IsGreatest (grantedQos history clientId p.topic) out.qos ∧
      out.topic = p.topic ∧ out.applicationMessage = p.applicationMessage
  refused : grantedQos history clientId p.topic = ∅ →
    ∀ effects p' m', m.publish connections p = .ok (effects, p', m') →
      publishesTo clientId effects = []

section Granted

variable {history : List (Bytes × Subscribe)} {clientId topic : Bytes} {q : QoS}

/-- A client that has a matching subscription is resolved. -/
theorem exists_mem_resolveSubscribers
    (h : q ∈ m.topicSubscriptions.matchingQos clientId p.topic) :
    ∃ q', (clientId, q') ∈ m.topicSubscriptions.resolveSubscribers p := by
  rcases h with ⟨s, hs, hclient, hmatches, -⟩
  have hkey : clientId ∈ (m.topicSubscriptions.resolveSubscribers p).map Prod.fst :=
    TopicSubscriptions.mem_keys_resolveSubscribers_iff.mpr ⟨s, hs, hclient, hmatches⟩
  rcases List.mem_map.mp hkey with ⟨⟨x, q'⟩, hmem, rfl⟩
  exact ⟨q', hmem⟩

/-- No quality of service is greater than the reserved one. -/
theorem le_reserved (q : QoS) : q ≤ .reserved := by
  cases q <;> decide

/-- What a client with a connection is sent when it has been resolved. -/
theorem publishesTo_of_resolved {entry : SessionEntry}
    (hentry : m.sessions.lookup clientId = some entry)
    (hconnected : connected connections entry = true) (hannounced : Announced p)
    (hpublish : ∃ p' m', m.publish connections p = .ok (effects, p', m'))
    (hmem : (clientId, q) ∈ m.topicSubscriptions.resolveSubscribers p) :
    publishesTo clientId effects =
      if q = .reserved then [] else [outgoing p entry.session q] := by
  rw [((publish_eq_ok_iff hannounced).mp hpublish).2, publishesTo_publish,
    publishesTo_flatMap TopicSubscriptions.nodup_resolveSubscribers hmem,
    publishesTo_deliveryTo hentry hconnected]

end Granted

end SessionManager

end Dispatch
end WallyIo
