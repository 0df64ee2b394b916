import WallyIo.Dispatch.Common
import WallyIo.Library.Table
import WallyIo.Library.Timer

/-!
# The incoming publications of a session

A PUBLISH with quality of service 2 is answered by a PUBREC and stored until the
client releases it by a PUBREL.  While it is stored, packets with its identifier
are taken for copies of it.

Main results:

- Theorem {lit}`clientSentPublish_duplicate`: a copy is ignored.
- Theorem {lit}`clientSentPublish_exactlyOnce`: a first packet is stored, answered and
  handed on.
- Theorem {lit}`clientSentPubrel_known`: a PUBREL completes the publication.
- Theorem {lit}`timeout_cases`: a timer handler repeats the PUBREC or gives up.
-/

namespace WallyIo
namespace Dispatch

open Protocol Library

/-! ## One publication -/

/-- States of an incoming publication. -/
inductive RxState
  | initial
  | waitingForRel
  | completed
  | terminallyFailed
deriving DecidableEq, Repr

/-- An incoming publication with quality of service 2. -/
structure RxPublication where
  state : RxState
  maxRetries : Nat
  retryOnTimeout : Timer
  publishId : UInt16
  retryCount : UInt16
deriving DecidableEq, Repr

namespace RxPublication

/-- The constructor. -/
def create (maxRetries : Nat) (publish : Publish) : RxPublication where
  state := .initial
  maxRetries := maxRetries
  retryOnTimeout := Timer.idle
  publishId := publish.packetIdentifier
  retryCount := 0

variable (p : RxPublication)

/-- Wait for the PUBREL. -/
def startPubrelTimeout : RxPublication :=
  { p with state := .waitingForRel, retryOnTimeout := p.retryOnTimeout.restart }

/-- The PUBREC of this publication. -/
def pubrec : MqttPacket := .publishAck (.pubrec p.publishId)

/-- The PUBCOMP of this publication. -/
def pubcomp : MqttPacket := .publishAck (.pubcomp p.publishId)

/-- Answer the PUBLISH and wait. -/
def start : List SenderCall × RxPublication := ([.send p.pubrec], p.startPubrelTimeout)

/-- The client released the publication. -/
def clientSentPubrel (packetIdentifier : UInt16) : Except Fault (Reaction RxPublication) := do
  assert (p.state == .waitingForRel)
  assert (packetIdentifier == p.publishId)
  return ⟨[.send p.pubcomp], true,
    { p with state := .completed, retryOnTimeout := p.retryOnTimeout.cancel }⟩

/-- The test {lit}`++retry_count_ <= max_retries_`. -/
def mayRetry : Bool := decide ((p.retryCount + 1).toNat ≤ p.maxRetries)

/-- The publication after an expired timer has been counted. -/
def retried : RxPublication := { p with retryCount := p.retryCount + 1 }

/-- The client did not release the publication in time. -/
def pubrelTimeoutExpired : Except Fault (Reaction RxPublication) := do
  assert (p.state == .waitingForRel)
  if p.mayRetry then
    return ⟨[.send p.pubrec], false, p.retried.startPubrelTimeout⟩
  else
    return ⟨[], true, { p.retried with state := .terminallyFailed }⟩

/-- What an expired timer does to a publication that waits for a PUBREL. -/
theorem pubrelTimeoutExpired_of_waitingForRel (h : p.state = .waitingForRel) :
    p.pubrelTimeoutExpired =
      if p.mayRetry then .ok ⟨[.send p.pubrec], false, p.retried.startPubrelTimeout⟩
      else .ok ⟨[], true, { p.retried with state := .terminallyFailed }⟩ := by
  unfold pubrelTimeoutExpired
  by_cases hretry : p.mayRetry = true
  · simp [h, hretry, bind, Except.bind, pure, Except.pure]
  · simp [h, hretry, bind, Except.bind, pure, Except.pure]

end RxPublication

/-! ## The table -/

/-- The incoming publications of a session. -/
structure RxInFlightPublications where
  maxRetries : Nat
  publications : Table UInt16 RxPublication

namespace RxInFlightPublications

/-- The text logged when a client releases nothing. -/
def protocolViolation : String :=
  "[MQTT-4.8.0-1] Protocol violation: client sent PUBREL without first sending PUBLISH"

/-- The constructor. -/
def create (maxRetries : Nat) : RxInFlightPublications where
  maxRetries := maxRetries
  publications := Table.empty

variable (t : RxInFlightPublications)

/-- The table with an entry replaced. -/
def update (packetIdentifier : UInt16) (entry : RxPublication) : RxInFlightPublications :=
  { t with publications := t.publications.insert packetIdentifier entry }

/-- The table without an entry. -/
def remove (packetIdentifier : UInt16) : RxInFlightPublications :=
  { t with publications := t.publications.erase packetIdentifier }

/-- A PUBLISH has been received.  The result tells whether to hand it on. -/
def clientSentPublish (connected : Bool) (incomingPublish : Publish) :
    Except Fault (Bool × List SenderCall × RxInFlightPublications) := do
  let packetIdentifier := incomingPublish.packetIdentifier
  if t.publications.contains packetIdentifier then
    return (false, [], t)
  match incomingPublish.qos with
  | .atLeastOnce =>
      if connected then
        return (true, [.send (.publishAck (.puback packetIdentifier))], t)
      else
        return (true, [], t)
  | .exactlyOnce =>
      if connected then
        let publication := RxPublication.create t.maxRetries incomingPublish
        let (publications, inserted) := t.publications.emplace packetIdentifier publication
        assert inserted
        let (calls, started) := publication.start
        return (true, calls, { t with
          publications := publications.insert packetIdentifier started })
      else
        return (true, [], t)
  | .atMostOnce => return (true, [], t)
  | .reserved => return (true, [], t)

/-- Forget a publication. -/
def release (packetIdentifier : UInt16) : Except Fault RxInFlightPublications := do
  assert (t.publications.contains packetIdentifier)
  return t.remove packetIdentifier

/-- The table after the publication under an identifier has reacted. -/
def settle (packetIdentifier : UInt16) (reaction : Reaction RxPublication) :
    Except Fault (List SenderCall × RxInFlightPublications) := do
  let t := t.update packetIdentifier reaction.after
  if reaction.released then
    let t ← t.release packetIdentifier
    return (reaction.calls, t)
  else
    return (reaction.calls, t)

/-- A PUBREL has been received. -/
def clientSentPubrel (connected : Bool) (packetIdentifier : UInt16) :
    Except Fault (List SenderCall × RxInFlightPublications) := do
  if !connected then
    return ([], t)
  match t.publications.lookup packetIdentifier with
  | some publication =>
      let reaction ← publication.clientSentPubrel packetIdentifier
      t.settle packetIdentifier reaction
  | none => return ([.stop protocolViolation], t)

/-- The retry timer of a publication elapses. -/
def timerElapses (packetIdentifier : UInt16) : Option RxInFlightPublications :=
  match t.publications.lookup packetIdentifier with
  | some publication => publication.retryOnTimeout.expire.map fun timer =>
      t.update packetIdentifier { publication with retryOnTimeout := timer }
  | none => none

/-- A queued handler of the retry timer of a publication runs. -/
def timeout (packetIdentifier : UInt16) :
    Option (Except Fault (List SenderCall × RxInFlightPublications)) :=
  match t.publications.lookup packetIdentifier with
  | some publication => publication.retryOnTimeout.takeExpired.map fun timer =>
      ({ publication with retryOnTimeout := timer } : RxPublication).pubrelTimeoutExpired.bind
        (t.settle packetIdentifier)
  | none => none

/-! ## What the operations do -/

variable {t}

@[simp]
theorem publications_update (i : UInt16) (entry : RxPublication) :
    (t.update i entry).publications = t.publications.insert i entry := rfl

@[simp]
theorem publications_remove (i : UInt16) :
    (t.remove i).publications = t.publications.erase i := rfl

/-- Erasing an entry makes an update of it before irrelevant. -/
theorem remove_update (i : UInt16) (entry : RxPublication) :
    (t.update i entry).remove i = t.remove i := by
  simp only [update, remove]
  congr 1
  funext j
  by_cases hj : j = i <;> simp [Table.insert, Table.erase, hj]

/-- Settling a reaction that keeps the publication replaces its entry. -/
theorem settle_kept (i : UInt16) (calls : List SenderCall) (after : RxPublication) :
    t.settle i ⟨calls, false, after⟩ = .ok (calls, t.update i after) := rfl

/-- Settling a reaction that releases the publication removes its entry. -/
theorem settle_released (i : UInt16) (calls : List SenderCall) (after : RxPublication) :
    t.settle i ⟨calls, true, after⟩ = .ok (calls, t.remove i) := by
  have hin : (t.publications.insert i after).contains i = true := by
    simp [Table.contains]
  simp only [settle, if_true, release, publications_update, hin, assert_true, bind,
    Except.bind, pure, Except.pure, remove_update]

/-- A copy of a stored publication is ignored. -/
theorem clientSentPublish_duplicate {connected : Bool} {incomingPublish : Publish}
    {p : RxPublication}
    (hp : t.publications.lookup incomingPublish.packetIdentifier = some p) :
    t.clientSentPublish connected incomingPublish = .ok (false, [], t) := by
  simp [clientSentPublish, Table.contains, hp, pure, Except.pure]

/-- The entry of a publication that has just been received. -/
def received (t : RxInFlightPublications) (incomingPublish : Publish) : RxPublication :=
  (RxPublication.create t.maxRetries incomingPublish).startPubrelTimeout

@[simp]
theorem received_state (incomingPublish : Publish) :
    (t.received incomingPublish).state = .waitingForRel := rfl

@[simp]
theorem received_publishId (incomingPublish : Publish) :
    (t.received incomingPublish).publishId = incomingPublish.packetIdentifier := rfl

@[simp]
theorem received_retryCount (incomingPublish : Publish) :
    (t.received incomingPublish).retryCount = 0 := rfl

@[simp]
theorem received_maxRetries (incomingPublish : Publish) :
    (t.received incomingPublish).maxRetries = t.maxRetries := rfl

/-- A first packet with quality of service 2 is stored, answered and handed on. -/
theorem clientSentPublish_exactlyOnce {incomingPublish : Publish}
    (hqos : incomingPublish.qos = .exactlyOnce)
    (hfree : t.publications.lookup incomingPublish.packetIdentifier = none) :
    t.clientSentPublish true incomingPublish =
      .ok (true, [.send (.publishAck (.pubrec incomingPublish.packetIdentifier))],
        t.update incomingPublish.packetIdentifier (t.received incomingPublish)) := by
  have hnot : t.publications.contains incomingPublish.packetIdentifier = false :=
    (t.publications.contains_eq_false_iff _).mpr hfree
  have hemplace := Table.emplace_eq_insert hfree
    (RxPublication.create t.maxRetries incomingPublish)
  simp only [clientSentPublish, hnot, Bool.false_eq_true, if_false, hqos, if_true, hemplace,
    assert_true, bind, Except.bind, pure, Except.pure, RxPublication.start]
  congr 3
  simp only [update, received]
  congr 1
  funext i
  by_cases hi : i = incomingPublish.packetIdentifier <;> simp [Table.insert, hi]

/-- How a first packet is answered. -/
def firstAnswer (connected : Bool) (incomingPublish : Publish) : List SenderCall :=
  match connected, incomingPublish.qos with
  | true, .atLeastOnce => [.send (.publishAck (.puback incomingPublish.packetIdentifier))]
  | true, .exactlyOnce => [.send (.publishAck (.pubrec incomingPublish.packetIdentifier))]
  | _, _ => []

/-- The table after a first packet. -/
def afterFirst (t : RxInFlightPublications) (connected : Bool) (incomingPublish : Publish) :
    RxInFlightPublications :=
  if connected = true ∧ incomingPublish.qos = .exactlyOnce then
    t.update incomingPublish.packetIdentifier (t.received incomingPublish)
  else t

/-- A packet whose identifier is free is handed on. -/
theorem clientSentPublish_of_free (connected : Bool) {incomingPublish : Publish}
    (hfree : t.publications.lookup incomingPublish.packetIdentifier = none) :
    t.clientSentPublish connected incomingPublish =
      .ok (true, firstAnswer connected incomingPublish,
        t.afterFirst connected incomingPublish) := by
  have hnot : t.publications.contains incomingPublish.packetIdentifier = false :=
    (t.publications.contains_eq_false_iff _).mpr hfree
  unfold firstAnswer afterFirst
  cases hqos : incomingPublish.qos with
  | exactlyOnce =>
      cases connected with
      | true =>
          rw [clientSentPublish_exactlyOnce hqos hfree, if_pos ⟨rfl, rfl⟩]
      | false => simp [clientSentPublish, hnot, hqos, pure, Except.pure]
  | atLeastOnce =>
      cases connected with
      | true => simp [clientSentPublish, hnot, hqos, pure, Except.pure]
      | false => simp [clientSentPublish, hnot, hqos, pure, Except.pure]
  | atMostOnce | reserved => simp [clientSentPublish, hnot, hqos, pure, Except.pure]

/-- A PUBREL for a stored publication completes it. -/
theorem clientSentPubrel_known {i : UInt16} {p : RxPublication}
    (hp : t.publications.lookup i = some p) (hstate : p.state = .waitingForRel)
    (hid : p.publishId = i) :
    t.clientSentPubrel true i = .ok ([.send (.publishAck (.pubcomp i))], t.remove i) := by
  simp [clientSentPubrel, hp, RxPublication.clientSentPubrel, RxPublication.pubcomp, hstate,
    hid, settle_released, bind, Except.bind, pure, Except.pure]

/-- A PUBREL for a publication that is not stored stops the connection. -/
theorem clientSentPubrel_unknown {i : UInt16} (hfree : t.publications.lookup i = none) :
    t.clientSentPubrel true i = .ok ([.stop protocolViolation], t) := by
  simp [clientSentPubrel, hfree, pure, Except.pure]

/-- A handler of the timer of a waiting publication repeats the PUBREC or gives up. -/
theorem timeout_cases {i : UInt16} {p : RxPublication}
    {answer : Except Fault (List SenderCall × RxInFlightPublications)}
    (hp : t.publications.lookup i = some p) (hstate : p.state = .waitingForRel)
    (h : t.timeout i = some answer) :
    (p.mayRetry = true ∧ ∃ q : RxPublication, q.state = .waitingForRel ∧
      q.publishId = p.publishId ∧ q.retryCount = p.retryCount + 1 ∧
        q.maxRetries = p.maxRetries ∧ answer = .ok ([.send p.pubrec], t.update i q)) ∨
      (p.mayRetry = false ∧ answer = .ok ([], t.remove i)) := by
  simp only [timeout, hp, Option.map_eq_some_iff] at h
  obtain ⟨timer, -, rfl⟩ := h
  let q : RxPublication := { p with retryOnTimeout := timer }
  have hq : q.pubrelTimeoutExpired = _ :=
    RxPublication.pubrelTimeoutExpired_of_waitingForRel q hstate
  have hsame : q.mayRetry = p.mayRetry := rfl
  change _ ∧ _ ∨ _ ∧ q.pubrelTimeoutExpired.bind (t.settle i) = _
  rw [hq, hsame]
  cases hmay : p.mayRetry with
  | true =>
      refine Or.inl ⟨rfl, q.retried.startPubrelTimeout, rfl, rfl, rfl, rfl, ?_⟩
      rw [if_pos rfl]
      exact settle_kept i _ _
  | false =>
      refine Or.inr ⟨rfl, ?_⟩
      rw [if_neg Bool.false_ne_true]
      exact settle_released i _ _

/-! ## Other identifiers -/

/-- Settling changes one entry. -/
theorem settle_frame {i j : UInt16} {reaction : Reaction RxPublication}
    {calls : List SenderCall} {t' : RxInFlightPublications}
    (h : t.settle i reaction = .ok (calls, t')) (hij : j ≠ i) :
    t'.publications.lookup j = t.publications.lookup j := by
  obtain ⟨calls', released, after⟩ := reaction
  cases released with
  | true =>
      rw [settle_released] at h
      cases h
      simp [hij]
  | false =>
      rw [settle_kept] at h
      cases h
      simp [hij]

/-- A PUBLISH concerns its own identifier only. -/
theorem clientSentPublish_frame {connected b : Bool} {incomingPublish : Publish}
    {calls : List SenderCall} {t' : RxInFlightPublications} {j : UInt16}
    (h : t.clientSentPublish connected incomingPublish = .ok (b, calls, t'))
    (hj : j ≠ incomingPublish.packetIdentifier) :
    t'.publications.lookup j = t.publications.lookup j := by
  cases hp : t.publications.lookup incomingPublish.packetIdentifier with
  | some p =>
      rw [clientSentPublish_duplicate hp] at h
      cases h
      rfl
  | none =>
      rw [clientSentPublish_of_free connected hp] at h
      cases h
      unfold afterFirst
      split
      · exact Table.lookup_insert_of_ne _ _ hj
      · rfl

/-- A PUBREL concerns its own identifier only. -/
theorem clientSentPubrel_frame {connected : Bool} {i j : UInt16}
    {calls : List SenderCall} {t' : RxInFlightPublications}
    (h : t.clientSentPubrel connected i = .ok (calls, t')) (hij : j ≠ i) :
    t'.publications.lookup j = t.publications.lookup j := by
  cases connected with
  | false =>
      cases h
      rfl
  | true =>
      cases hp : t.publications.lookup i with
      | none =>
          rw [clientSentPubrel_unknown hp] at h
          cases h
          rfl
      | some p =>
          simp only [clientSentPubrel, Bool.not_true, Bool.false_eq_true, if_false, hp,
            bind, Except.bind] at h
          cases hr : p.clientSentPubrel i with
          | error f => simp [hr] at h
          | ok reaction =>
              simp only [hr] at h
              exact settle_frame h hij

/-- A timer that elapses changes the timer of one publication. -/
theorem timerElapses_cases {i : UInt16} {t' : RxInFlightPublications}
    (h : t.timerElapses i = some t') :
    ∃ p timer, t.publications.lookup i = some p ∧
      t' = t.update i { p with retryOnTimeout := timer } := by
  unfold timerElapses at h
  cases hp : t.publications.lookup i with
  | none => simp [hp] at h
  | some p =>
      simp only [hp, Option.map_eq_some_iff] at h
      obtain ⟨timer, -, rfl⟩ := h
      exact ⟨p, timer, rfl, rfl⟩

/-- A timer handler concerns its own publication only. -/
theorem timeout_frame {i j : UInt16} {calls : List SenderCall} {t' : RxInFlightPublications}
    (h : t.timeout i = some (.ok (calls, t'))) (hij : j ≠ i) :
    t'.publications.lookup j = t.publications.lookup j := by
  unfold timeout at h
  cases hp : t.publications.lookup i with
  | none => simp [hp] at h
  | some p =>
      simp only [hp, Option.map_eq_some_iff] at h
      obtain ⟨timer, -, hr⟩ := h
      cases hreact : ({ p with retryOnTimeout := timer } : RxPublication).pubrelTimeoutExpired with
      | error f => simp [hreact, Except.bind] at hr
      | ok reaction =>
          simp only [hreact, Except.bind] at hr
          exact settle_frame hr hij

/-! ## What is sent -/

/-- Settling a reaction makes its calls. -/
theorem calls_of_settle {i : UInt16} {reaction : Reaction RxPublication}
    {calls : List SenderCall} {t' : RxInFlightPublications}
    (h : t.settle i reaction = .ok (calls, t')) : calls = reaction.calls := by
  rcases reaction with ⟨reactionCalls, released, after⟩
  cases released with
  | false =>
      rw [settle_kept] at h
      cases h
      rfl
  | true =>
      rw [settle_released] at h
      cases h
      rfl

/-- A PUBLISH is answered by PUBACK, PUBREC or not at all. -/
theorem onlyAcks_of_clientSentPublish {connected b : Bool} {incomingPublish : Publish}
    {calls : List SenderCall} {t' : RxInFlightPublications}
    (h : t.clientSentPublish connected incomingPublish = .ok (b, calls, t')) :
    OnlyAcks calls := by
  cases hp : t.publications.lookup incomingPublish.packetIdentifier with
  | some stored =>
      rw [clientSentPublish_duplicate hp] at h
      cases h
      exact nofun
  | none =>
      rw [clientSentPublish_of_free connected hp] at h
      cases h
      intro call hcall
      unfold firstAnswer at hcall
      split at hcall
      · exact ⟨_, List.mem_singleton.mp hcall⟩
      · exact ⟨_, List.mem_singleton.mp hcall⟩
      · exact absurd hcall List.not_mem_nil

/-- A PUBREL is answered by PUBCOMP, or the connection is stopped. -/
theorem not_publish_of_clientSentPubrel {connected : Bool} {i : UInt16} {p : Publish}
    {calls : List SenderCall} {t' : RxInFlightPublications}
    (h : t.clientSentPubrel connected i = .ok (calls, t')) :
    .publish p ∉ sentPackets calls := by
  cases connected with
  | false =>
      cases h
      exact List.not_mem_nil
  | true =>
      cases hp : t.publications.lookup i with
      | none =>
          rw [clientSentPubrel_unknown hp] at h
          cases h
          simp
      | some stored =>
          simp only [clientSentPubrel, Bool.not_true, Bool.false_eq_true, if_false, hp] at h
          rcases bind_eq_ok_iff.mp h with ⟨reaction, hreaction, hsettle⟩
          rw [calls_of_settle hsettle]
          rcases assert_bind_eq_ok_iff.mp hreaction with ⟨-, hrest⟩
          rcases assert_bind_eq_ok_iff.mp hrest with ⟨-, hresult⟩
          cases hresult
          simp [RxPublication.pubcomp]

/-- A timer handler repeats the PUBREC or sends nothing. -/
theorem onlyAcks_of_timeout {i : UInt16} {calls : List SenderCall}
    {t' : RxInFlightPublications} (h : t.timeout i = some (.ok (calls, t'))) :
    OnlyAcks calls := by
  unfold timeout at h
  cases hp : t.publications.lookup i with
  | none => simp [hp] at h
  | some stored =>
      simp only [hp, Option.map_eq_some_iff] at h
      rcases h with ⟨timer, -, hresult⟩
      rcases bind_eq_ok_iff.mp hresult with ⟨reaction, hreaction, hsettle⟩
      rw [calls_of_settle hsettle]
      rcases assert_bind_eq_ok_iff.mp hreaction with ⟨-, hresult⟩
      split at hresult
      · cases hresult
        intro call hcall
        exact ⟨_, List.mem_singleton.mp hcall⟩
      · cases hresult
        exact nofun

end RxInFlightPublications

end Dispatch
end WallyIo
