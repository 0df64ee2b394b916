import WallyIo.Codec.PublishCodec
import WallyIo.Dispatch.ClientSession
import WallyIo.Library.Machine

/-!
# The table of incoming publications over time

Publications with quality of service 2 are stored, repeat their PUBREC and are released, in
any order.  Whether a PUBLISH is ignored is decided by its identifier alone, which the decoder
sets to 0 where a packet has none.

Main results:

- Theorem {lit}`exists_wellFormed_of_run`: no event fails, and every entry waits for a PUBREL
  under its own identifier.
- Theorem {lit}`clientSentPublish_eq_false_iff`: which packets are ignored.
- Theorem {lit}`ignores_copies_iff`: when nothing but copies are ignored.
-/

namespace WallyIo
namespace Dispatch

open Protocol Library

namespace RxInFlightPublications

variable {t : RxInFlightPublications} {p : Publish}

/-- Exactly the packets are ignored under whose identifier a publication is stored. -/
theorem clientSentPublish_eq_false_iff (connected : Bool) :
    (∃ calls t', t.clientSentPublish connected p = .ok (false, calls, t')) ↔
      ∃ stored, t.publications.lookup p.packetIdentifier = some stored := by
  constructor
  · rintro ⟨calls, t', h⟩
    cases hfree : t.publications.lookup p.packetIdentifier with
    | some stored => exact ⟨stored, rfl⟩
    | none =>
        rw [clientSentPublish_of_free connected hfree] at h
        cases h
  · rintro ⟨stored, hstored⟩
    exact ⟨[], t, clientSentPublish_duplicate hstored⟩

/-- A PUBLISH is always answered. -/
theorem exists_clientSentPublish (t : RxInFlightPublications) (connected : Bool) (p : Publish) :
    ∃ b calls t', t.clientSentPublish connected p = .ok (b, calls, t') := by
  cases hp : t.publications.lookup p.packetIdentifier with
  | some stored => exact ⟨false, [], t, clientSentPublish_duplicate hp⟩
  | none => exact ⟨true, _, _, clientSentPublish_of_free connected hp⟩

end RxInFlightPublications

/-! ## The table as a machine -/

namespace RxTable

/-- What happens to the table.  Whether the client is still connected is decided when its
connection is used. -/
inductive Event
  /-- The client sends a PUBLISH. -/
  | publish (connected : Bool) (publish : Publish)
  /-- The client sends a PUBREL. -/
  | pubrel (connected : Bool) (packetIdentifier : UInt16)
  /-- The timer of a publication elapses, which queues its handler. -/
  | timerElapses (packetIdentifier : UInt16)
  /-- A queued handler of the timer of a publication runs. -/
  | timeout (packetIdentifier : UInt16)
deriving DecidableEq, Repr

/-- One event. -/
def step (t : RxInFlightPublications) :
    Event → Option (Except Fault (List SenderCall × RxInFlightPublications))
  | .publish connected p => some ((t.clientSentPublish connected p).map Prod.snd)
  | .pubrel connected i => some (t.clientSentPubrel connected i)
  | .timerElapses i => (t.timerElapses i).map fun t => .ok ([], t)
  | .timeout i => t.timeout i

/-- The machine of one table. -/
def table : Machine (Option RxInFlightPublications) Event (Except Fault (List SenderCall)) :=
  Machine.ofFallible step

/-- Executed steps of the machine. -/
abbrev TableStep := Step (Option RxInFlightPublications) Event (Except Fault (List SenderCall))

/-- Every entry waits for a PUBREL under its own identifier. -/
def WellFormed (t : RxInFlightPublications) : Prop :=
  ∀ i entry, t.publications.lookup i = some entry →
    entry.state = .waitingForRel ∧ entry.publishId = i

/-- The ways in which an event changes the entries of a table. -/
inductive Change (t : RxInFlightPublications) : RxInFlightPublications → Prop
  /-- Nothing changes. -/
  | same : Change t t
  /-- A publication is stored under its identifier. -/
  | stored (p : Publish) : Change t (t.update p.packetIdentifier (t.received p))
  /-- A publication goes on waiting. -/
  | waits (i : UInt16) (entry entry' : RxPublication)
      (hentry : t.publications.lookup i = some entry) (hstate : entry'.state = .waitingForRel)
      (hid : entry'.publishId = entry.publishId) : Change t (t.update i entry')
  /-- A publication is released. -/
  | released (i : UInt16) : Change t (t.remove i)

section Steps

variable {t t' : RxInFlightPublications} {e : Event}

/-- No event fails in a table whose entries wait, and every event changes one entry. -/
theorem step_change (hwell : WellFormed t)
    {result : Except Fault (List SenderCall × RxInFlightPublications)}
    (h : step t e = some result) : ∃ calls t', result = .ok (calls, t') ∧ Change t t' := by
  cases e with
  | publish connected p =>
      cases h
      cases hp : t.publications.lookup p.packetIdentifier with
      | some stored =>
          rw [RxInFlightPublications.clientSentPublish_duplicate hp]
          exact ⟨[], t, rfl, .same⟩
      | none =>
          rw [RxInFlightPublications.clientSentPublish_of_free connected hp]
          refine ⟨_, _, rfl, ?_⟩
          unfold RxInFlightPublications.afterFirst
          split
          · exact .stored p
          · exact .same
  | pubrel connected i =>
      cases h
      cases connected with
      | false => exact ⟨[], t, rfl, .same⟩
      | true =>
          cases hp : t.publications.lookup i with
          | none =>
              rw [RxInFlightPublications.clientSentPubrel_unknown hp]
              exact ⟨_, t, rfl, .same⟩
          | some entry =>
              obtain ⟨hstate, hid⟩ := hwell i entry hp
              rw [RxInFlightPublications.clientSentPubrel_known hp hstate hid]
              exact ⟨_, _, rfl, .released i⟩
  | timerElapses i =>
      obtain ⟨t', ht', rfl⟩ := Option.map_eq_some_iff.mp h
      obtain ⟨entry, timer, hp, rfl⟩ := RxInFlightPublications.timerElapses_cases ht'
      exact ⟨[], _, rfl, .waits i entry _ hp (hwell i entry hp).1 rfl⟩
  | timeout i =>
      cases hp : t.publications.lookup i with
      | none => simp [step, RxInFlightPublications.timeout, hp] at h
      | some entry =>
          rcases RxInFlightPublications.timeout_cases hp (hwell i entry hp).1 h with
            ⟨-, entry', hstate, hid, -, -, rfl⟩ | ⟨-, rfl⟩
          · exact ⟨_, _, rfl, .waits i entry entry' hp hstate hid⟩
          · exact ⟨_, _, rfl, .released i⟩

/-- Every entry goes on waiting under its own identifier. -/
theorem WellFormed.change (hwell : WellFormed t) (h : Change t t') : WellFormed t' := by
  intro i entry hentry
  cases h with
  | same => exact hwell i entry hentry
  | stored p =>
      rw [RxInFlightPublications.publications_update, Table.lookup_insert] at hentry
      split at hentry
      · rename_i hi
        cases hentry
        exact ⟨rfl, hi.symm⟩
      · exact hwell i entry hentry
  | waits j before after hbefore hstate hid =>
      rw [RxInFlightPublications.publications_update, Table.lookup_insert] at hentry
      split at hentry
      · rename_i hi
        subst hi
        cases hentry
        exact ⟨hstate, hid.trans (hwell i before hbefore).2⟩
      · exact hwell i entry hentry
  | released j =>
      rw [RxInFlightPublications.publications_remove, Table.lookup_erase] at hentry
      split at hentry
      · cases hentry
      · exact hwell i entry hentry

variable {maxRetries : Nat} {steps : List TableStep} {s : Option RxInFlightPublications}

/-- In every state that is reached the table exists, and its entries wait. -/
theorem exists_wellFormed_of_run
    (h : table.Run (some (RxInFlightPublications.create maxRetries)) steps s) :
    ∃ t, s = some t ∧ WellFormed t := by
  refine h.invariant (fun _ => True) (fun s => ∃ t, s = some t ∧ WellFormed t) ?_ ?_
    (fun _ _ => trivial)
  · exact ⟨_, rfl, fun i entry hentry => by cases hentry⟩
  · rintro _ e o u ⟨t, rfl, hwell⟩ hstep -
    rcases Machine.ofFallible_step_some hstep with ⟨f, hf, -, -⟩ | ⟨calls, t', hf, -, rfl⟩
    · obtain ⟨calls, t', hresult, -⟩ := step_change hwell hf
      cases hresult
    · obtain ⟨calls', t'', hresult, hchange⟩ := step_change hwell hf
      cases hresult
      exact ⟨t', rfl, hwell.change hchange⟩

end Steps

/-! ## Which packets are ignored -/

section Ignored

variable {s : MqttClientSession} {connected : Bool} {p : Publish}

/-- A session ignores a PUBLISH exactly if it has stored a publication under the identifier. -/
theorem session_ignores_iff :
    (∃ calls s', s.clientSentPublish connected p = .ok (false, calls, s')) ↔
      ∃ entry, s.rxInFlightPublications.publications.lookup p.packetIdentifier = some entry := by
  rw [← RxInFlightPublications.clientSentPublish_eq_false_iff connected]
  constructor
  · rintro ⟨calls, s', h⟩
    obtain ⟨t', ht', -⟩ := MqttClientSession.clientSentPublish_eq_ok_iff.mp h
    exact ⟨calls, t', ht'⟩
  · rintro ⟨calls, t', h⟩
    exact ⟨calls, _, MqttClientSession.clientSentPublish_eq_ok_iff.mpr ⟨t', h, rfl⟩⟩

/-- A session hands a packet on whose identifier is not in use. -/
theorem session_hands_on
    (hfree : s.rxInFlightPublications.publications.lookup p.packetIdentifier = none) :
    ∃ s', s.clientSentPublish connected p =
      .ok (true, RxInFlightPublications.firstAnswer connected p, s') :=
  ⟨_, MqttClientSession.clientSentPublish_eq_ok_iff.mpr
    ⟨_, RxInFlightPublications.clientSentPublish_of_free connected hfree, rfl⟩⟩

/-- Of the packets that a client sends its session ignores none but those with quality of
service 2 that belong to an incomplete publication. -/
structure IgnoresCopies (s : MqttClientSession) (connected : Bool) (p : Publish) : Prop where
  ignored : ∀ calls s', s.clientSentPublish connected p = .ok (false, calls, s') →
    p.qos = .exactlyOnce ∧
      ∃ entry, s.rxInFlightPublications.publications.lookup p.packetIdentifier = some entry ∧
        entry.state = .waitingForRel ∧ entry.publishId = p.packetIdentifier
  atMostOnce : p.qos = .atMostOnce →
    ∃ calls s', s.clientSentPublish connected p = .ok (true, calls, s')
  atLeastOnce : p.qos = .atLeastOnce → connected = true →
    ∃ calls s', s.clientSentPublish connected p = .ok (true, calls, s') ∧
      .send (.publishAck (.puback p.packetIdentifier)) ∈ calls

/-- When nothing but copies are ignored: no publication is stored under the identifier of a
packet with another quality of service, which with quality of service 0 is 0. -/
theorem ignoresCopies_iff (hwell : WellFormed s.rxInFlightPublications)
    (hp : Codec.Decodable p) :
    IgnoresCopies s connected p ↔
      (p.qos = .atMostOnce → s.rxInFlightPublications.publications.lookup 0 = none) ∧
        (p.qos = .atLeastOnce →
          s.rxInFlightPublications.publications.lookup p.packetIdentifier = none) := by
  constructor
  · intro h
    -- a packet that is ignored has quality of service 2
    have hfree (hqos : p.qos ≠ .exactlyOnce) :
        s.rxInFlightPublications.publications.lookup p.packetIdentifier = none := by
      cases hstored : s.rxInFlightPublications.publications.lookup p.packetIdentifier with
      | none => rfl
      | some entry =>
          obtain ⟨calls, s', hsent⟩ := session_ignores_iff.mpr ⟨entry, hstored⟩
          exact absurd (h.ignored calls s' hsent).1 hqos
    constructor
    · intro hqos
      rw [← hp.identifier hqos]
      exact hfree (by rw [hqos]; decide)
    · intro hqos
      exact hfree (by rw [hqos]; decide)
  · rintro ⟨hzero, hother⟩
    refine ⟨?_, ?_, ?_⟩
    · intro calls s' hsent
      obtain ⟨entry, hentry⟩ := session_ignores_iff.mp ⟨calls, s', hsent⟩
      refine ⟨?_, entry, hentry, hwell _ entry hentry⟩
      cases hqos : p.qos with
      | exactlyOnce => rfl
      | reserved => exact absurd hqos hp.notReserved
      | atMostOnce =>
          rw [hp.identifier hqos, hzero hqos] at hentry
          cases hentry
      | atLeastOnce =>
          rw [hother hqos] at hentry
          cases hentry
    · intro hqos
      have hfree : s.rxInFlightPublications.publications.lookup p.packetIdentifier = none := by
        rw [hp.identifier hqos]
        exact hzero hqos
      exact ⟨_, session_hands_on hfree⟩
    · rintro hqos rfl
      obtain ⟨s', hsent⟩ := session_hands_on (hother hqos)
      refine ⟨_, s', hsent, ?_⟩
      simp [RxInFlightPublications.firstAnswer, hqos]

/-- When nothing but copies are ignored in a state that is reached. -/
theorem ignores_copies_iff {maxRetries : Nat} {steps : List TableStep}
    (hrun : table.Run (some (RxInFlightPublications.create maxRetries)) steps
      (some s.rxInFlightPublications)) (hp : Codec.Decodable p) :
    IgnoresCopies s connected p ↔
      (p.qos = .atMostOnce → s.rxInFlightPublications.publications.lookup 0 = none) ∧
        (p.qos = .atLeastOnce →
          s.rxInFlightPublications.publications.lookup p.packetIdentifier = none) := by
  obtain ⟨t, ht, hwell⟩ := exists_wellFormed_of_run hrun
  cases ht
  exact ignoresCopies_iff hwell hp

/-- The frame of a PUBLISH with quality of service 2. -/
def qos2Frame : Codec.Frame := ⟨0x34, 0, 5, Nat.zero_le 5⟩

/-- The frame of a PUBLISH with quality of service 0. -/
def qos0Frame : Codec.Frame := ⟨0x30, 0, 3, Nat.zero_le 3⟩

/-- The frame of a PUBLISH with quality of service 1. -/
def qos1Frame : Codec.Frame := ⟨0x32, 0, 5, Nat.zero_le 5⟩

/-- The body of a PUBLISH to the topic {lit}`a` with identifier 0. -/
def withIdentifierZero : Bytes := [0x00, 0x01, 0x61, 0x00, 0x00]

/-- The body of a PUBLISH to the topic {lit}`a` without an identifier. -/
def withoutIdentifier : Bytes := [0x00, 0x01, 0x61]

/-- The PUBLISH with quality of service 2 and identifier 0. -/
def qos2Packet : Publish := ⟨0x34, 5, [0x61], 0, [], rfl⟩

/-- The PUBLISH with quality of service 0. -/
def qos0Packet : Publish := ⟨0x30, 3, [0x61], 0, [], rfl⟩

/-- The PUBLISH with quality of service 1 and identifier 0. -/
def qos1Packet : Publish := ⟨0x32, 5, [0x61], 0, [], rfl⟩

/-- The three packets are decoded from their frames. -/
theorem decode_packets :
    Codec.decode withIdentifierZero qos2Frame = .ok (.publish qos2Packet) ∧
      Codec.decode withoutIdentifier qos0Frame = .ok (.publish qos0Packet) ∧
        Codec.decode withIdentifierZero qos1Frame = .ok (.publish qos1Packet) :=
  ⟨rfl, rfl, rfl⟩

/-- A session that has received the PUBLISH with quality of service 2. -/
def holdingSession : MqttClientSession where
  clientId := [0x78]
  txInFlightPublications := TxInFlightPublications.create 3
  rxInFlightPublications := (RxInFlightPublications.create 3).afterFirst true qos2Packet
  lwtMessage := none

theorem holdingSession_reached :
    table.Run (some (RxInFlightPublications.create 3))
      [⟨some (RxInFlightPublications.create 3), .publish true qos2Packet,
        .ok (RxInFlightPublications.firstAnswer true qos2Packet),
        some holdingSession.rxInFlightPublications⟩]
      (some holdingSession.rxInFlightPublications) := by
  apply Machine.Run.single
  have hfirst := RxInFlightPublications.clientSentPublish_of_free true
    (rfl : (RxInFlightPublications.create 3).publications.lookup qos2Packet.packetIdentifier = none)
  simp only [table, Machine.ofFallible, step, hfirst, Except.map]
  rfl

theorem decodable_qos0Packet : Codec.Decodable qos0Packet := by
  have hend : qos0Frame.endPos ≤ withoutIdentifier.length := Nat.le_refl 3
  have hdecode : Codec.decodePublish withoutIdentifier qos0Frame = .ok (.publish qos0Packet) := rfl
  exact ((Codec.decodePublish_eq_ok_iff hend).mp hdecode).2.2.1

theorem ignores_copies_holdingSession :
    IgnoresCopies holdingSession true qos0Packet ↔
      (qos0Packet.qos = .atMostOnce →
        holdingSession.rxInFlightPublications.publications.lookup 0 = none) ∧
        (qos0Packet.qos = .atLeastOnce →
          holdingSession.rxInFlightPublications.publications.lookup
            qos0Packet.packetIdentifier = none) :=
  ignores_copies_iff holdingSession_reached decodable_qos0Packet

/-- A session that holds an identifier ignores other packets that are decoded with it, although
their qualities of service are 0 and 1. -/
theorem ignores_other_packets :
    (∃ steps, table.Run (some (RxInFlightPublications.create 3)) steps
      (some holdingSession.rxInFlightPublications)) ∧
    Codec.decode withoutIdentifier qos0Frame = .ok (.publish qos0Packet) ∧
    Codec.decode withIdentifierZero qos1Frame = .ok (.publish qos1Packet) ∧
    qos0Packet.qos = .atMostOnce ∧ qos1Packet.qos = .atLeastOnce ∧
    (∃ s', holdingSession.clientSentPublish true qos0Packet = .ok (false, [], s')) ∧
    (∃ s', holdingSession.clientSentPublish true qos1Packet = .ok (false, [], s')) ∧
    ¬ IgnoresCopies holdingSession true qos0Packet ∧
    ¬ IgnoresCopies holdingSession true qos1Packet := by
  have hqos0 : qos0Packet.qos = .atMostOnce := rfl
  have hqos1 : qos1Packet.qos = .atLeastOnce := rfl
  have hignores0 : ∃ s', holdingSession.clientSentPublish true qos0Packet =
      .ok (false, [], s') := ⟨_, rfl⟩
  have hignores1 : ∃ s', holdingSession.clientSentPublish true qos1Packet =
      .ok (false, [], s') := ⟨_, rfl⟩
  refine ⟨⟨_, holdingSession_reached⟩, decode_packets.2.1, decode_packets.2.2, hqos0, hqos1,
    hignores0, hignores1, ?_, ?_⟩
  · intro h
    obtain ⟨s', hs'⟩ := hignores0
    exact absurd (h.ignored _ _ hs').1 (by decide)
  · intro h
    obtain ⟨s', hs'⟩ := hignores1
    exact absurd (h.ignored _ _ hs').1 (by decide)

end Ignored

end RxTable

end Dispatch
end WallyIo
