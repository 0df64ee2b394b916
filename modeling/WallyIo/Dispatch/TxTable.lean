import WallyIo.Dispatch.Delivery
import WallyIo.Library.Machine
import Mathlib.Data.List.Range

/-!
# The table of outgoing publications over time

Publications are started, answered by the client, repeated by their timers and
released, in any order.  Packet identifiers are assigned in turn.

Main results:

- Theorem {lit}`WellFormed.of_run`: every entry waits under its own identifier.
- Theorem {lit}`Reached.encodable`: the encoder accepts what a table sends, as long as no packet
  is too long.
- Theorem {lit}`handlesAck_iff`: which responses of a client the table can handle.
- Theorem {lit}`Numbered.of_run`: the identifiers in use have been assigned.
- Theorem {lit}`validNext_of_run`: the next identifier is valid as long as fewer than
  65535 identifiers have been assigned.
-/

namespace WallyIo
namespace Dispatch

open Protocol Library Codec

/-! ## How an entry reacts -/

namespace TxEntry

/-- The packet that a publication sends. -/
def publish : TxEntry → Publish
  | .qos1 p => p.publish
  | .qos2 p => p.publish

/-- Whether a publication waits for a response. -/
def waiting : TxEntry → Bool
  | .qos1 p => p.state == .waitingForAck
  | .qos2 p => p.state == .waitingForRec || p.state == .waitingForComp

/-- The quality of service of a publication. -/
def level : TxEntry → QoS
  | .qos1 _ => .atLeastOnce
  | .qos2 _ => .exactlyOnce

/-- An entry after some reactions.  Its packet may have been marked as a duplicate, but only
with quality of service 2. -/
structure Keeps (entry after : TxEntry) : Prop where
  level : after.level = entry.level
  publish : after.publish = entry.publish ∨
    entry.level = .exactlyOnce ∧ after.publish = entry.publish.setDup true

/-- What every reaction of an entry has in common. -/
structure Follows (entry : TxEntry) (reaction : Reaction TxEntry) : Prop where
  /-- An entry that is kept waits. -/
  waiting : reaction.released = false → reaction.after.waiting = true
  keeps : entry.Keeps reaction.after
  /-- No other PUBLISH is sent. -/
  sent : ∀ p, .publish p ∈ sentPackets reaction.calls → p = reaction.after.publish

variable {entry : TxEntry} {reaction : Reaction TxEntry}

@[simp]
theorem publish_withTimer (timer : Timer) :
    (entry.withTimer timer).publish = entry.publish := by
  cases entry <;> rfl

@[simp]
theorem waiting_withTimer (timer : Timer) :
    (entry.withTimer timer).waiting = entry.waiting := by
  cases entry <;> rfl

@[simp]
theorem level_withTimer (timer : Timer) : (entry.withTimer timer).level = entry.level := by
  cases entry <;> rfl

theorem Keeps.refl (entry : TxEntry) : entry.Keeps entry := ⟨rfl, Or.inl rfl⟩

theorem keeps_withTimer (timer : Timer) : entry.Keeps (entry.withTimer timer) :=
  ⟨level_withTimer timer, Or.inl (publish_withTimer timer)⟩

/-- An entry keeps the identifier of its packet. -/
theorem Keeps.packetIdentifier {after : TxEntry} (h : entry.Keeps after) :
    after.publish.packetIdentifier = entry.publish.packetIdentifier := by
  rcases h.publish with hsame | ⟨-, hdup⟩
  · rw [hsame]
  · rw [hdup, Publish.packetIdentifier_setDup]

/-- An entry keeps the RETAIN flag of its packet. -/
theorem Keeps.retain {after : TxEntry} (h : entry.Keeps after) :
    after.publish.retain = entry.publish.retain := by
  rcases h.publish with hsame | ⟨-, hdup⟩
  · rw [hsame]
  · rw [hdup, Publish.retain_setDup]

/-- The encoder goes on accepting the packet of an entry. -/
theorem Keeps.encodable {after : TxEntry} (h : entry.Keeps after)
    (hentry : Encodable (.publish entry.publish)) : Encodable (.publish after.publish) := by
  rcases h.publish with hsame | ⟨-, hdup⟩
  · rw [hsame]
    exact hentry
  · rw [hdup]
    exact encodable_setDup hentry true

/-- A publication with quality of service 2 that waits does so for one of two packets. -/
theorem waiting_qos2_iff {p : Qos2TxPublication} :
    (TxEntry.qos2 p).waiting = true ↔ p.state = .waitingForRec ∨ p.state = .waitingForComp := by
  simp [waiting]

/-- What a response does to a publication with quality of service 1. -/
theorem responseReceived_qos1 {p : Qos1TxPublication} {ack : PublishAck}
    (hwaits : (TxEntry.qos1 p).waiting = true)
    (hid : ack.packetIdentifier = p.publish.packetIdentifier) :
    (TxEntry.qos1 p).responseReceived ack =
      if ack.type = .puback then
        .ok ⟨[], true,
          .qos1 { p with state := .completed, retryOnTimeout := p.retryOnTimeout.cancel }⟩
      else .error .assertion := by
  have hstate : p.state = .waitingForAck := by simpa [waiting] using hwaits
  rw [responseReceived, Qos1TxPublication.responseReceived]
  by_cases hack : ack.type = .puback
  · simp [hstate, hack, hid, bind, Except.bind, pure, Except.pure, Except.map, Reaction.map]
  · simp [hstate, hack, assert, bind, Except.bind, Except.map]

/-- A publication that is released without a call follows. -/
theorem follows_of_released (hreleased : reaction.released = true)
    (hlevel : reaction.after.level = entry.level)
    (hpublish : reaction.after.publish = entry.publish) (hcalls : reaction.calls = []) :
    entry.Follows reaction := by
  refine ⟨?_, ⟨hlevel, Or.inl hpublish⟩, ?_⟩
  · intro hkept
    rw [hreleased] at hkept
    cases hkept
  · simp [hcalls]

/-- A waiting publication answers a response as every reaction does. -/
theorem follows_responseReceived {ack : PublishAck} (hwaits : entry.waiting = true)
    (hid : ack.packetIdentifier = entry.publish.packetIdentifier)
    (h : entry.responseReceived ack = .ok reaction) : entry.Follows reaction := by
  cases entry with
  | qos1 p =>
      rw [responseReceived_qos1 hwaits hid] at h
      split at h
      · cases h
        exact follows_of_released rfl rfl rfl rfl
      · cases h
  | qos2 p =>
      have hrestart : p.state ≠ .initial → p.answered.startAckTimeout.state = .waitingForComp :=
        fun hstate => Qos2TxPublication.state_startAckTimeout hstate
      rw [responseReceived] at h
      rcases waiting_qos2_iff.mp hwaits with hrec | hcomp
      · rw [Qos2TxPublication.responseReceived_of_waitingForRec hrec] at h
        split at h
        · cases h
          exact ⟨fun _ => waiting_qos2_iff.mpr (Or.inl hrec), ⟨rfl, Or.inl rfl⟩,
            by simp [Reaction.map]⟩
        · split at h
          · cases h
            refine ⟨fun _ => waiting_qos2_iff.mpr (Or.inr (hrestart ?_)), ⟨rfl, Or.inl rfl⟩, ?_⟩
            · simp [hrec]
            · simp [Reaction.map, Qos2TxPublication.pubrel]
          · cases h
      · rw [Qos2TxPublication.responseReceived_of_waitingForComp hcomp] at h
        split at h
        · cases h
          refine ⟨fun _ => waiting_qos2_iff.mpr (Or.inr (hrestart ?_)), ⟨rfl, Or.inl rfl⟩, ?_⟩
          · simp [hcomp]
          · simp [Reaction.map, Qos2TxPublication.pubrel]
        · split at h
          · cases h
            exact follows_of_released rfl rfl rfl rfl
          · cases h

/-- A waiting publication answers its timer as every reaction does. -/
theorem follows_ackTimeoutExpired (hwaits : entry.waiting = true)
    (h : entry.ackTimeoutExpired = .ok reaction) : entry.Follows reaction := by
  cases entry with
  | qos1 p =>
      have hstate : p.state = .waitingForAck := by simpa [waiting] using hwaits
      rw [ackTimeoutExpired, Qos1TxPublication.ackTimeoutExpired] at h
      by_cases hretry : p.mayRetry = true
      · simp [hstate, hretry, bind, Except.bind, pure, Except.pure, Except.map] at h
        subst h
        exact ⟨fun _ => rfl, ⟨rfl, Or.inl rfl⟩, by simp [Reaction.map, publish,
          Qos1TxPublication.startAckTimeout]⟩
      · simp [hstate, hretry, bind, Except.bind, pure, Except.pure, Except.map] at h
        subst h
        exact follows_of_released rfl rfl rfl rfl
  | qos2 p =>
      rw [ackTimeoutExpired] at h
      rcases waiting_qos2_iff.mp hwaits with hrec | hcomp
      · have hrestart : p.retried.duplicate.startAckTimeout.state = .waitingForComp :=
          Qos2TxPublication.state_startAckTimeout (by simp [Qos2TxPublication.duplicate,
            Qos2TxPublication.retried, hrec])
        rw [Qos2TxPublication.ackTimeoutExpired_of_waitingForRec hrec] at h
        split at h
        · cases h
          refine ⟨fun _ => waiting_qos2_iff.mpr (Or.inr hrestart), ⟨rfl, Or.inr ⟨rfl, rfl⟩⟩, ?_⟩
          simp [Reaction.map, publish, Qos2TxPublication.startAckTimeout,
            Qos2TxPublication.duplicate, Qos2TxPublication.retried]
        · cases h
          exact follows_of_released rfl rfl rfl rfl
      · have hrestart : p.retried.startAckTimeout.state = .waitingForComp :=
          Qos2TxPublication.state_startAckTimeout (by simp [Qos2TxPublication.retried, hcomp])
        rw [Qos2TxPublication.ackTimeoutExpired_of_waitingForComp hcomp] at h
        split at h
        · cases h
          refine ⟨fun _ => waiting_qos2_iff.mpr (Or.inr hrestart), ⟨rfl, Or.inl rfl⟩, ?_⟩
          simp [Reaction.map, Qos2TxPublication.pubrel]
        · cases h
          exact follows_of_released rfl rfl rfl rfl

end TxEntry

/-! ## The table as a machine -/

namespace TxTable

/-- What happens to the table.  Whether the client is still connected is decided when
its connection is used. -/
inductive Event
  /-- A packet is published to the client. -/
  | publish (connected : Bool) (publish : Publish) (maximumQos : QoS)
  /-- The client sends PUBACK, PUBREC or PUBCOMP. -/
  | response (connected : Bool) (ack : PublishAck)
  /-- The timer of a publication elapses, which queues its handler. -/
  | timerElapses (packetIdentifier : UInt16)
  /-- A queued handler of the timer of a publication runs. -/
  | timeout (packetIdentifier : UInt16)
deriving DecidableEq, Repr

/-- Whether an event assigns a packet identifier. -/
def Event.assigns : Event → Bool
  | .publish connected _ qos => connected && (qos == .atLeastOnce || qos == .exactlyOnce)
  | _ => false

/-- An event publishes no packet that becomes too long.  The encoder refuses such a packet: its
publication stays in the table, but it is never started. -/
def Event.Fits : Event → Prop
  | .publish connected p qos => connected = true → qos ≠ .reserved → Dispatch.Fits p qos
  | .response _ _ | .timerElapses _ | .timeout _ => True

/-- One event. -/
def step (t : TxInFlightPublications) :
    Event → Option (Except Fault (List SenderCall × TxInFlightPublications))
  | .publish connected p maximumQos => some <|
      (t.publish connected p maximumQos).map fun (calls, _, t) => (calls, t)
  | .response connected ack =>
      if isResponse ack then some (t.responseReceived connected ack) else none
  | .timerElapses i => (t.timerElapses i).map fun t => .ok ([], t)
  | .timeout i => t.timeout i

/-- The machine of one table. -/
def table : Machine (Option TxInFlightPublications) Event (Except Fault (List SenderCall)) :=
  Machine.ofFallible step

/-- Executed steps of the machine. -/
abbrev TableStep := Step (Option TxInFlightPublications) Event (Except Fault (List SenderCall))

/-- The ways in which an event changes the entries of a table. -/
inductive Change (t : TxInFlightPublications) : Event → TxInFlightPublications → Prop
  /-- Nothing changes. -/
  | same (e : Event) (he : e.assigns = false) : Change t e t
  /-- A publication is started under the next identifier. -/
  | started (p : Publish) (qos : QoS) (hqos : qos = .atLeastOnce ∨ qos = .exactlyOnce)
      (outgoing : Publish)
      (houtgoing : (p.withNewPacketIdentifier t.nextIdentifier).setQos qos = .ok outgoing)
      (hfree : t.publications.lookup t.nextIdentifier = none) :
      Change t (.publish true p qos)
        (t.assign.update t.nextIdentifier
          (TxInFlightPublications.startedEntry t.maxRetries qos outgoing))
  /-- The timer of an entry elapses. -/
  | elapsed (i : UInt16) (entry : TxEntry) (timer : Timer)
      (hentry : t.publications.lookup i = some entry) :
      Change t (.timerElapses i) (t.update i (entry.withTimer timer))
  /-- An entry reacts and is kept. -/
  | kept (e : Event) (i : UInt16) (entry : TxEntry) (reaction : Reaction TxEntry)
      (hentry : t.publications.lookup i = some entry)
      (he : e.assigns = false) (hfollows : entry.Follows reaction)
      (hkept : reaction.released = false) : Change t e (t.update i reaction.after)
  /-- An entry reacts and is released. -/
  | released (e : Event) (i : UInt16) (entry : TxEntry) (reaction : Reaction TxEntry)
      (hentry : t.publications.lookup i = some entry)
      (he : e.assigns = false) (hfollows : entry.Follows reaction)
      (hreleased : reaction.released = true) : Change t e (t.remove i)

/-- Every entry waits under its own identifier. -/
def WellFormed (t : TxInFlightPublications) : Prop :=
  ∀ i entry, t.publications.lookup i = some entry →
    entry.waiting = true ∧ entry.publish.packetIdentifier = i

section Steps

variable {t t' : TxInFlightPublications} {e : Event} {calls : List SenderCall}

/-- The step of a packet that is published. -/
theorem step_publish_eq_some_iff {connected : Bool} {p : Publish} {qos : QoS} :
    step t (.publish connected p qos) = some (.ok (calls, t')) ↔
      ∃ p', t.publish connected p qos = .ok (calls, p', t') := by
  simp only [step, Option.some.injEq, map_eq_ok_iff, Prod.mk.injEq]
  constructor
  · rintro ⟨⟨calls', p', t''⟩, hp, rfl, rfl⟩
    exact ⟨p', hp⟩
  · rintro ⟨p', hp⟩
    exact ⟨_, hp, rfl, rfl⟩

/-- An entry that reacts is kept or released. -/
theorem change_of_settle {i : UInt16} {entry : TxEntry} {reaction : Reaction TxEntry}
    (he : e.assigns = false) (hentry : t.publications.lookup i = some entry)
    (hfollows : entry.Follows reaction)
    (h : t.settle i reaction = .ok (calls, t')) : Change t e t' ∧ calls = reaction.calls := by
  rcases reaction with ⟨reactionCalls, released, after⟩
  cases released with
  | false =>
      rw [TxInFlightPublications.settle_kept] at h
      cases h
      exact ⟨.kept e i entry _ hentry he hfollows rfl, rfl⟩
  | true =>
      rw [TxInFlightPublications.settle_released] at h
      cases h
      exact ⟨.released e i entry _ hentry he hfollows rfl, rfl⟩

/-- Settling a reaction never fails. -/
theorem settle_eq_ok (i : UInt16) (reaction : Reaction TxEntry) :
    ∃ result, t.settle i reaction = .ok result := by
  rcases reaction with ⟨calls, released, after⟩
  cases released with
  | false => exact ⟨_, TxInFlightPublications.settle_kept i calls after⟩
  | true => exact ⟨_, TxInFlightPublications.settle_released i calls after⟩

/-- A response is routed to the entry under its identifier. -/
theorem responseReceived_known {ack : PublishAck} {entry : TxEntry}
    (hack : isResponse ack = true)
    (hentry : t.publications.lookup ack.packetIdentifier = some entry) :
    t.responseReceived true ack =
      (entry.responseReceived ack).bind (t.settle ack.packetIdentifier) := by
  simp only [TxInFlightPublications.responseReceived, hack, assert_true, bind, Except.bind,
    Bool.not_true, Bool.false_eq_true, if_false, hentry]

/-- Without a connection a response is ignored. -/
theorem responseReceived_disconnected {ack : PublishAck} (hack : isResponse ack = true) :
    t.responseReceived false ack = .ok ([], t) := by
  simp [TxInFlightPublications.responseReceived, hack, bind, Except.bind, pure, Except.pure]

/-- What publishing does to the entries of a table. -/
theorem change_of_publish {connected : Bool} {p p' : Publish} {qos : QoS}
    (h : t.publish connected p qos = .ok (calls, p', t')) :
    Change t (.publish connected p qos) t' := by
  cases TxInFlightPublications.publishes_of_publish h with
  | nothing _ _ hnothing =>
      refine .same _ ?_
      cases connected with
      | false => rfl
      | true => rw [hnothing rfl]; rfl
  | itself outgoing hset => exact .same _ rfl
  | copy _ hqos outgoing hset hfree => exact .started p qos hqos outgoing hset hfree

/-- Whether an event publishes a packet. -/
def Event.isPublish : Event → Bool
  | .publish _ _ _ => true
  | _ => false

/-- An event that publishes nothing makes at most one entry react. -/
inductive Reacts (t : TxInFlightPublications) (e : Event) (calls : List SenderCall)
    (t' : TxInFlightPublications) : Prop
  /-- No entry reacts, and no PUBLISH is sent. -/
  | none (hsame : t' = t) (hcalls : ∀ p, .publish p ∉ sentPackets calls)
  /-- The timer of an entry elapses. -/
  | elapsed (i : UInt16) (entry : TxEntry) (timer : Timer) (he : e = .timerElapses i)
      (hentry : t.publications.lookup i = some entry)
      (hafter : t' = t.update i (entry.withTimer timer)) (hcalls : calls = [])
  /-- An entry reacts. -/
  | reacts (i : UInt16) (entry : TxEntry) (reaction : Reaction TxEntry)
      (hentry : t.publications.lookup i = some entry) (hfollows : entry.Follows reaction)
      (hsettle : t.settle i reaction = .ok (calls, t'))

/-- What an event does that publishes nothing. -/
theorem step_reacts (hwell : WellFormed t) (he : e.isPublish = false)
    (h : step t e = some (.ok (calls, t'))) : Reacts t e calls t' := by
  cases e with
  | publish connected p qos => cases he
  | response connected ack =>
      simp only [step] at h
      split at h
      · rename_i hack
        rw [Option.some.injEq] at h
        cases connected with
        | false =>
            rw [responseReceived_disconnected hack] at h
            cases h
            exact .none rfl nofun
        | true =>
            cases hentry : t.publications.lookup ack.packetIdentifier with
            | none =>
                rw [TxInFlightPublications.responseReceived_unknown hack hentry] at h
                cases h
                exact .none rfl (by simp)
            | some entry =>
                rw [responseReceived_known hack hentry] at h
                rcases bind_eq_ok_iff.mp h with ⟨reaction, hreaction, hsettle⟩
                rcases hwell _ _ hentry with ⟨hwaits, hid⟩
                exact .reacts _ entry reaction hentry
                  (TxEntry.follows_responseReceived hwaits hid.symm hreaction) hsettle
      · cases h
  | timerElapses i =>
      simp only [step, Option.map_eq_some_iff] at h
      rcases h with ⟨t'', ht, heq⟩
      cases heq
      rcases TxInFlightPublications.timerElapses_cases ht with ⟨entry, timer, hentry, rfl⟩
      exact .elapsed i entry timer rfl hentry rfl rfl
  | timeout i =>
      simp only [step, TxInFlightPublications.timeout] at h
      cases hentry : t.publications.lookup i with
      | none => simp [hentry] at h
      | some entry =>
          simp only [hentry, Option.map_eq_some_iff] at h
          rcases h with ⟨timer, -, hresult⟩
          rcases bind_eq_ok_iff.mp hresult with ⟨reaction, hreaction, hsettle⟩
          have hwaits := (hwell _ _ hentry).1
          have hfollows := TxEntry.follows_ackTimeoutExpired
            ((TxEntry.waiting_withTimer timer).trans hwaits) hreaction
          have hkeeps : entry.Keeps reaction.after := by
            rcases hfollows.keeps with ⟨hlevel, hpublish⟩
            rw [TxEntry.level_withTimer, TxEntry.publish_withTimer] at *
            exact ⟨hlevel, hpublish⟩
          exact .reacts i entry reaction hentry ⟨hfollows.waiting, hkeeps, hfollows.sent⟩ hsettle

/-- What an event does to the entries of a table. -/
theorem step_change (hwell : WellFormed t) (h : step t e = some (.ok (calls, t'))) :
    Change t e t' := by
  cases hpublish : e.isPublish with
  | true =>
      cases e with
      | publish connected p qos =>
          obtain ⟨p', hp⟩ := step_publish_eq_some_iff.mp h
          exact change_of_publish hp
      | response | timerElapses | timeout => cases hpublish
  | false =>
      have he : e.assigns = false := by
        cases e with
        | publish => cases hpublish
        | response | timerElapses | timeout => rfl
      cases step_reacts hwell hpublish h with
      | none hsame hcalls =>
          rw [hsame]
          exact .same e he
      | elapsed i entry timer he hentry hafter hcalls =>
          rw [he, hafter]
          exact .elapsed i entry timer hentry
      | reacts i entry reaction hentry hfollows hsettle =>
          exact (change_of_settle he hentry hfollows hsettle).1

/-- An event that publishes nothing sends the packets of entries again. -/
theorem resent_of_step (hwell : WellFormed t) (he : e.isPublish = false)
    (h : step t e = some (.ok (calls, t'))) {p : Publish}
    (hp : .publish p ∈ sentPackets calls) :
    ∃ entry after, t.publications.lookup p.packetIdentifier = some entry ∧
      entry.Keeps after ∧ p = after.publish := by
  cases step_reacts hwell he h with
  | none hsame hcalls => exact absurd hp (hcalls p)
  | elapsed i entry timer he hentry hafter hcalls =>
      rw [hcalls] at hp
      cases hp
  | reacts i entry reaction hentry hfollows hsettle =>
      have hassigns : e.assigns = false := by
        cases e with
        | publish => cases he
        | response | timerElapses | timeout => rfl
      rw [(change_of_settle hassigns hentry hfollows hsettle).2] at hp
      have hsent := hfollows.sent p hp
      have hid : p.packetIdentifier = i := by
        rw [hsent, hfollows.keeps.packetIdentifier]
        exact (hwell i entry hentry).2
      rw [hid]
      exact ⟨entry, reaction.after, hentry, hfollows.keeps, hsent⟩

end Steps

/-! ## Every entry waits -/

@[simp]
theorem publish_startedEntry (maxRetries : Nat) (qos : QoS) (p : Publish) :
    (TxInFlightPublications.startedEntry maxRetries qos p).publish = p := by
  unfold TxInFlightPublications.startedEntry
  split <;> rfl

@[simp]
theorem level_startedEntry (maxRetries : Nat) {qos : QoS} (p : Publish)
    (hqos : qos = .atLeastOnce ∨ qos = .exactlyOnce) :
    (TxInFlightPublications.startedEntry maxRetries qos p).level = qos := by
  rcases hqos with rfl | rfl <;> rfl

@[simp]
theorem waiting_startedEntry (maxRetries : Nat) (qos : QoS) (p : Publish) :
    (TxInFlightPublications.startedEntry maxRetries qos p).waiting = true := by
  unfold TxInFlightPublications.startedEntry
  split <;> rfl

section Entries

variable {t t' : TxInFlightPublications} {e : Event} {calls : List SenderCall} {i : UInt16}

/-- After an event that publishes nothing every entry is one that has been there before. -/
theorem entry_of_step (hwell : WellFormed t) (he : e.isPublish = false)
    (h : step t e = some (.ok (calls, t'))) {after : TxEntry}
    (hafter : t'.publications.lookup i = some after) :
    ∃ entry, t.publications.lookup i = some entry ∧ entry.Keeps after := by
  cases step_reacts hwell he h with
  | none hsame hcalls =>
      rw [hsame] at hafter
      exact ⟨after, hafter, TxEntry.Keeps.refl after⟩
  | elapsed j entry timer he hentry hupdated hcalls =>
      rw [hupdated, TxInFlightPublications.publications_update, Table.lookup_insert] at hafter
      split at hafter
      · rename_i hij
        cases hafter
        exact ⟨entry, hij ▸ hentry, TxEntry.keeps_withTimer timer⟩
      · exact ⟨after, hafter, TxEntry.Keeps.refl after⟩
  | reacts j entry reaction hentry hfollows hsettle =>
      rcases reaction with ⟨reactionCalls, released, kept⟩
      cases released with
      | false =>
          rw [TxInFlightPublications.settle_kept] at hsettle
          cases hsettle
          rw [TxInFlightPublications.publications_update, Table.lookup_insert] at hafter
          split at hafter
          · rename_i hij
            cases hafter
            exact ⟨entry, hij ▸ hentry, hfollows.keeps⟩
          · exact ⟨after, hafter, TxEntry.Keeps.refl after⟩
      | true =>
          rw [TxInFlightPublications.settle_released] at hsettle
          cases hsettle
          rw [TxInFlightPublications.publications_remove, Table.lookup_erase] at hafter
          split at hafter
          · cases hafter
          · exact ⟨after, hafter, TxEntry.Keeps.refl after⟩

/-- What is sent when a packet is published to the client has the RETAIN flag of that
packet. -/
theorem retain_of_publish {connected : Bool} {p p' out : Publish} {qos : QoS}
    (h : t.publish connected p qos = .ok (calls, p', t'))
    (hout : .publish out ∈ sentPackets calls) : out.retain = p.retain := by
  cases TxInFlightPublications.publishes_of_publish h with
  | nothing => cases hout
  | itself sent hset =>
      have hsent : out = p' := by simpa using hout
      rw [hsent]
      exact (Publish.flags_of_setQos hset).2
  | copy _ hqos sent hset hfree =>
      have hsent : out = sent := by simpa using hout
      rw [hsent]
      exact (Publish.flags_of_setQos hset).2

/-- After a packet has been published to the client every entry is one that has been there
before, or that of the packet which has been sent. -/
theorem entry_of_publish {connected : Bool} {p p' : Publish} {qos : QoS}
    (h : t.publish connected p qos = .ok (calls, p', t')) {after : TxEntry}
    (hafter : t'.publications.lookup i = some after) :
    (t.publications.lookup i = some after ∧ ∀ out, .publish out ∈ sentPackets calls →
        out.packetIdentifier = i → out.qos = .atMostOnce) ∨
      (.publish after.publish ∈ sentPackets calls ∧ after.publish.packetIdentifier = i ∧
        after.publish.qos ≠ .atMostOnce) := by
  cases TxInFlightPublications.publishes_of_publish h with
  | nothing => exact Or.inl ⟨hafter, fun _ hout => absurd hout List.not_mem_nil⟩
  | itself sent hset =>
      refine Or.inl ⟨hafter, ?_⟩
      intro out hout _
      have hsent : out = p' := by simpa using hout
      rw [hsent]
      exact Publish.qos_of_setQos hset
  | copy _ hqos sent hset hfree =>
      have hid : sent.packetIdentifier = t.nextIdentifier := (Publish.setQos_frame hset).2.1
      rw [TxInFlightPublications.publications_update, Table.lookup_insert] at hafter
      split at hafter
      · rename_i hi
        cases hafter
        right
        rw [publish_startedEntry, Publish.qos_of_setQos hset]
        exact ⟨by simp, hid.trans hi.symm, by rcases hqos with rfl | rfl <;> decide⟩
      · rename_i hi
        refine Or.inl ⟨hafter, ?_⟩
        intro out hout hidentifier
        have hsent : out = sent := by simpa using hout
        rw [hsent, hid] at hidentifier
        exact absurd hidentifier.symm hi

end Entries

section Invariant

variable {t t' : TxInFlightPublications} {e : Event}

/-- A table stays well formed when an entry is stored that waits under its identifier. -/
theorem WellFormed.update {i : UInt16} {entry : TxEntry} (h : WellFormed t)
    (hwaits : entry.waiting = true) (hid : entry.publish.packetIdentifier = i) :
    WellFormed (t.update i entry) := by
  intro j other hother
  rw [TxInFlightPublications.publications_update, Table.lookup_insert] at hother
  split at hother
  · rename_i hj
    cases hother
    exact ⟨hwaits, hid.trans hj.symm⟩
  · exact h j other hother

/-- Every change keeps the table well formed. -/
theorem WellFormed.change (h : WellFormed t) (hchange : Change t e t') : WellFormed t' := by
  cases hchange with
  | same => exact h
  | started p qos hqos outgoing houtgoing hfree =>
      have hassigned : WellFormed t.assign := h
      apply hassigned.update
      · exact waiting_startedEntry _ _ _
      · rw [publish_startedEntry]
        exact (Publish.setQos_frame houtgoing).2.1
  | elapsed i entry timer hentry =>
      rcases h i entry hentry with ⟨hwaits, hid⟩
      apply h.update
      · rw [TxEntry.waiting_withTimer]
        exact hwaits
      · rw [TxEntry.publish_withTimer]
        exact hid
  | kept e i entry reaction hentry he hfollows hkept =>
      apply h.update
      · exact hfollows.waiting hkept
      · rw [hfollows.keeps.packetIdentifier]
        exact (h i entry hentry).2
  | released e i entry reaction hentry he hfollows hreleased =>
      intro j other hother
      rw [TxInFlightPublications.publications_remove, Table.lookup_erase] at hother
      split at hother
      · cases hother
      · exact h j other hother

/-- What the changes of a table preserve, given the history, holds after every run. -/
theorem invariant_of_run {maxRetries : Nat} (inv : List TableStep → TxInFlightPublications → Prop)
    (init : inv [] (TxInFlightPublications.create maxRetries))
    (change : ∀ pre t e o t', WellFormed t → inv pre t → Change t e t' →
      inv (pre ++ [⟨some t, e, o, some t'⟩]) t')
    {steps : List TableStep}
    (h : table.Run (some (TxInFlightPublications.create maxRetries)) steps (some t)) :
    WellFormed t ∧ inv steps t := by
  apply h.alive_invariant (fun _ => rfl) (fun _ => True)
    (fun steps t => WellFormed t ∧ inv steps t)
  · refine ⟨?_, init⟩
    intro i entry hentry
    cases hentry
  · rintro pre t e o t' - ⟨hwell, hbefore⟩ hstep -
    obtain ⟨calls, hok, -⟩ := Machine.ofFallible_step_alive_iff.mp hstep
    have hchange := step_change hwell hok
    exact ⟨hwell.change hchange, change pre t e o t' hwell hbefore hchange⟩
  · exact fun _ _ => trivial

/-- A table that has not failed is well formed after every run. -/
theorem WellFormed.of_run {maxRetries : Nat} {steps : List TableStep}
    (h : table.Run (some (TxInFlightPublications.create maxRetries)) steps (some t)) :
    WellFormed t :=
  (invariant_of_run (fun _ _ => True) trivial (fun _ _ _ _ _ _ _ _ => trivial) h).1

end Invariant

/-! ## What the encoder accepts -/

/-- A table is reached while no packet has become too long. -/
structure Reached (maxRetries : Nat) (steps : List TableStep) (t : TxInFlightPublications) :
    Prop where
  run : table.Run (some (TxInFlightPublications.create maxRetries)) steps (some t)
  fits : ∀ x ∈ steps, x.event.Fits

/-- The encoder accepts the packets of all entries. -/
def AllEncodable (t : TxInFlightPublications) : Prop :=
  ∀ i entry, t.publications.lookup i = some entry → Encodable (.publish entry.publish)

section Encoding

variable {t t' : TxInFlightPublications} {e : Event} {calls : List SenderCall} {maxRetries : Nat}
  {steps : List TableStep}

/-- What is published to the client fits. -/
theorem encodable_of_publish (hall : AllEncodable t) {connected : Bool} {p p' : Publish}
    {qos : QoS} (hfits : (Event.publish connected p qos).Fits)
    (h : t.publish connected p qos = .ok (calls, p', t')) :
    AllEncodable t' ∧ ∀ p, .publish p ∈ sentPackets calls → Encodable (.publish p) := by
  cases TxInFlightPublications.publishes_of_publish h with
  | nothing => exact ⟨hall, fun _ hsent => absurd hsent List.not_mem_nil⟩
  | itself sent hset =>
      refine ⟨hall, fun q hsent => ?_⟩
      have hq : q = p' := by simpa using hsent
      rw [hq]
      exact (hfits rfl (by decide)).encodable_of_setQos hset (by decide)
  | copy _ hqos sent hset hfree =>
      have hreserved : qos ≠ .reserved := by rcases hqos with rfl | rfl <;> decide
      have hencodable : Encodable (.publish sent) :=
        ((hfits rfl hreserved).withNewPacketIdentifier _).encodable_of_setQos hset hreserved
      refine ⟨?_, fun q hsent => ?_⟩
      · intro i entry hentry
        rw [TxInFlightPublications.publications_update, Table.lookup_insert] at hentry
        split at hentry
        · cases hentry
          rw [publish_startedEntry]
          exact hencodable
        · exact hall i entry hentry
      · have hq : q = sent := by simpa using hsent
        rw [hq]
        exact hencodable

/-- What is sent again has been accepted before. -/
theorem encodable_of_step (hwell : WellFormed t) (hall : AllEncodable t) (hfits : e.Fits)
    (h : step t e = some (.ok (calls, t'))) :
    AllEncodable t' ∧ ∀ p, .publish p ∈ sentPackets calls → Encodable (.publish p) := by
  cases hpublish : e.isPublish with
  | true =>
      cases e with
      | publish connected p qos =>
          obtain ⟨p', hp⟩ := step_publish_eq_some_iff.mp h
          exact encodable_of_publish hall hfits hp
      | response | timerElapses | timeout => cases hpublish
  | false =>
      refine ⟨?_, ?_⟩
      · intro i after hafter
        obtain ⟨entry, hentry, hkeeps⟩ := entry_of_step hwell hpublish h hafter
        exact hkeeps.encodable (hall i entry hentry)
      · intro p hp
        obtain ⟨entry, after, hentry, hkeeps, rfl⟩ := resent_of_step hwell hpublish h hp
        exact hkeeps.encodable (hall _ entry hentry)

theorem Reached.allEncodable (h : Reached maxRetries steps t) : AllEncodable t := by
  refine h.run.alive_invariant (fun _ => rfl) (fun x => x.event.Fits)
    (fun _ t => AllEncodable t) ?_ ?_ h.fits
  · intro i entry hentry
    cases hentry
  · intro pre t e o t' hpre hall hstep hfits
    obtain ⟨calls, hok, -⟩ := Machine.ofFallible_step_alive_iff.mp hstep
    exact (encodable_of_step (WellFormed.of_run hpre) hall hfits hok).1

/-- The encoder accepts every PUBLISH that is sent, so that no {lit}`send` throws. -/
theorem Reached.encodable (h : Reached maxRetries steps t) {x : TableStep} (hx : x ∈ steps)
    (houtput : x.output = .ok calls) {p : Publish} (hp : .publish p ∈ sentPackets calls) :
    ∃ bytes, encoding (.publish p) = .ok bytes := by
  obtain ⟨pre, post, hsplit⟩ := List.append_of_mem hx
  obtain ⟨before, after, hxs, hpre, hstep, -⟩ := h.run.alive_split (fun _ => rfl) hsplit
  obtain ⟨calls', hok, ho⟩ := Machine.ofFallible_step_alive_iff.mp hstep
  rw [houtput] at ho
  cases ho
  have hbefore : Reached maxRetries pre before :=
    ⟨hpre, fun y hy => h.fits y (by rw [hsplit]; exact List.mem_append_left _ hy)⟩
  exact ⟨_, encoding_eq ((encodable_of_step (WellFormed.of_run hpre) hbefore.allEncodable
    (h.fits x hx) hok).2 p hp)⟩

end Encoding

/-! ## Responses of a client -/

/-- The response that a waiting publication expects next. -/
def expected : TxEntry → PacketType
  | .qos1 _ => .puback
  | .qos2 p => if p.state = .waitingForRec then .pubrec else .pubcomp

/-- Whether a response repeats the one before the expected one.  The publication answers
it once more, since its own answer may have been lost. -/
def Repeats (entry : TxEntry) (type : PacketType) : Prop :=
  expected entry = .pubcomp ∧ type = .pubrec

/-- A table handles a response, given which responses its entries accept. -/
structure HandlesAck (accepts : TxEntry → PacketType → Prop) (t : TxInFlightPublications)
    (ack : PublishAck) : Prop where
  /-- No assertion fails, whether or not the client is still connected. -/
  safe : ∀ connected, ∃ result, t.responseReceived connected ack = .ok result
  /-- A response that is not accepted stops the connection and leaves every other
  publication unchanged. -/
  refused : (∀ entry, t.publications.lookup ack.packetIdentifier = some entry →
    ¬ accepts entry ack.type) →
      ∀ calls t', t.responseReceived true ack = .ok (calls, t') →
        stops calls = true ∧ ∀ i, i ≠ ack.packetIdentifier →
          t'.publications.lookup i = t.publications.lookup i

/-- The response runs into an assertion of the publication that it names: any other
response than PUBACK with quality of service 1, and a PUBACK instead of a PUBCOMP. -/
def Trips (entry : TxEntry) (type : PacketType) : Prop :=
  (expected entry = .puback ∧ type ≠ .puback) ∨ (expected entry = .pubcomp ∧ type = .puback)

/-- Which of the responses a publication expects, repeats included. -/
def Answers (entry : TxEntry) (type : PacketType) : Prop :=
  expected entry = type ∨ Repeats entry type

section Responses

variable {t t' : TxInFlightPublications} {ack : PublishAck} {entry : TxEntry}

/-- A response changes no other publication. -/
theorem responseReceived_frame {calls : List SenderCall}
    (h : t.responseReceived true ack = .ok (calls, t')) (hack : isResponse ack = true)
    {i : UInt16} (hi : i ≠ ack.packetIdentifier) :
    t'.publications.lookup i = t.publications.lookup i := by
  cases hentry : t.publications.lookup ack.packetIdentifier with
  | none =>
      rw [TxInFlightPublications.responseReceived_unknown hack hentry] at h
      cases h
      rfl
  | some entry =>
      rw [responseReceived_known hack hentry] at h
      cases hreaction : entry.responseReceived ack with
      | error f => simp [hreaction, Except.bind] at h
      | ok reaction =>
          rcases reaction with ⟨reactionCalls, released, after⟩
          simp only [hreaction, Except.bind] at h
          cases released with
          | false =>
              rw [TxInFlightPublications.settle_kept] at h
              cases h
              simp [hi]
          | true =>
              rw [TxInFlightPublications.settle_released] at h
              cases h
              simp [hi]

/-- How a waiting entry answers a response. -/
theorem responseReceived_entry (hwaits : entry.waiting = true)
    (hid : ack.packetIdentifier = entry.publish.packetIdentifier)
    (hack : isResponse ack = true) :
    (Trips entry ack.type ∧ entry.responseReceived ack = .error .assertion) ∨
      (¬ Trips entry ack.type ∧ Answers entry ack.type ∧
        ∃ reaction, entry.responseReceived ack = .ok reaction ∧ stops reaction.calls = false) ∨
      (¬ Trips entry ack.type ∧ ¬ Answers entry ack.type ∧
        ∃ reaction, entry.responseReceived ack = .ok reaction ∧ stops reaction.calls = true) := by
  cases entry with
  | qos1 p =>
      rw [TxEntry.responseReceived_qos1 hwaits hid]
      by_cases htype : ack.type = .puback
      · refine Or.inr (Or.inl ⟨?_, Or.inl htype.symm, ?_⟩)
        · simp [Trips, expected, htype]
        · rw [if_pos htype]
          exact ⟨_, rfl, rfl⟩
      · refine Or.inl ⟨Or.inl ⟨rfl, htype⟩, ?_⟩
        rw [if_neg htype]
  | qos2 p =>
      rw [TxEntry.responseReceived]
      rcases TxEntry.waiting_qos2_iff.mp hwaits with hrec | hcomp
      · rw [Qos2TxPublication.responseReceived_of_waitingForRec hrec]
        have hexpected : expected (.qos2 p) = .pubrec := by simp [expected, hrec]
        by_cases htype : ack.type = .pubrec
        · refine Or.inr (Or.inl ⟨?_, Or.inl (hexpected.trans htype.symm), ?_⟩)
          · simp [Trips, hexpected]
          · have hid' : ack.packetIdentifier = p.packetIdentifier := hid
            rw [if_neg (not_not_intro htype), if_pos hid']
            exact ⟨_, rfl, rfl⟩
        · refine Or.inr (Or.inr ⟨?_, ?_, ?_⟩)
          · simp [Trips, hexpected]
          · simp [Answers, Repeats, hexpected, Ne.symm htype]
          · rw [if_pos htype]
            exact ⟨_, rfl, rfl⟩
      · rw [Qos2TxPublication.responseReceived_of_waitingForComp hcomp]
        have hexpected : expected (.qos2 p) = .pubcomp := by simp [expected, hcomp]
        cases ack with
        | puback i => exact Or.inl ⟨Or.inr ⟨hexpected, rfl⟩, rfl⟩
        | pubrec i =>
            refine Or.inr (Or.inl ⟨?_, Or.inr ⟨hexpected, rfl⟩, _, rfl, rfl⟩)
            simp [Trips, hexpected, PublishAck.type]
        | pubrel i => cases hack
        | pubcomp i =>
            refine Or.inr (Or.inl ⟨?_, Or.inl hexpected, _, rfl, rfl⟩)
            simp [Trips, hexpected, PublishAck.type]

/-- Which responses a table can handle, given which responses its entries accept. -/
theorem handlesAck_iff_of_wellFormed (hwell : WellFormed t) (hack : isResponse ack = true)
    {accepts : TxEntry → PacketType → Prop} :
    HandlesAck accepts t ack ↔
      ∀ entry, t.publications.lookup ack.packetIdentifier = some entry →
        ¬ Trips entry ack.type ∧ (Answers entry ack.type → accepts entry ack.type) := by
  constructor
  · intro h entry hentry
    rcases hwell _ _ hentry with ⟨hwaits, hid⟩
    rcases h.safe true with ⟨⟨calls, t'⟩, hresult⟩
    have hrouted := hresult
    rw [responseReceived_known hack hentry] at hrouted
    rcases responseReceived_entry hwaits hid.symm hack with
      ⟨-, hfail⟩ | ⟨htrips, hanswers, reaction, hreaction, hgoes⟩ | ⟨htrips, hanswers, -⟩
    · rw [hfail] at hrouted
      cases hrouted
    · refine ⟨htrips, fun _ => ?_⟩
      by_contra haccepts
      have hall : ∀ other, t.publications.lookup ack.packetIdentifier = some other →
          ¬ accepts other ack.type := by
        intro other hother
        rw [hentry] at hother
        cases hother
        exact haccepts
      have hstops := (h.refused hall calls t' hresult).1
      rw [hreaction, Except.bind] at hrouted
      have hfollows := TxEntry.follows_responseReceived hwaits hid.symm hreaction
      rw [(change_of_settle (e := .response true ack) rfl hentry hfollows hrouted).2, hgoes]
        at hstops
      cases hstops
    · exact ⟨htrips, fun h => absurd h hanswers⟩
  · intro h
    refine ⟨?_, ?_⟩
    · intro connected
      cases connected with
      | false => exact ⟨_, responseReceived_disconnected hack⟩
      | true =>
          cases hentry : t.publications.lookup ack.packetIdentifier with
          | none => exact ⟨_, TxInFlightPublications.responseReceived_unknown hack hentry⟩
          | some entry =>
              rcases hwell _ _ hentry with ⟨hwaits, hid⟩
              rw [responseReceived_known hack hentry]
              rcases responseReceived_entry hwaits hid.symm hack with
                ⟨htrips, -⟩ | ⟨-, -, reaction, hreaction, -⟩ | ⟨-, -, reaction, hreaction, -⟩
              · exact absurd htrips (h entry hentry).1
              · rw [hreaction, Except.bind]
                exact settle_eq_ok _ reaction
              · rw [hreaction, Except.bind]
                exact settle_eq_ok _ reaction
    · intro hall calls t' hresult
      refine ⟨?_, fun i hi => responseReceived_frame hresult hack hi⟩
      cases hentry : t.publications.lookup ack.packetIdentifier with
      | none =>
          rw [TxInFlightPublications.responseReceived_unknown hack hentry] at hresult
          cases hresult
          rfl
      | some entry =>
          rcases hwell _ _ hentry with ⟨hwaits, hid⟩
          rw [responseReceived_known hack hentry] at hresult
          rcases responseReceived_entry hwaits hid.symm hack with
            ⟨htrips, -⟩ | ⟨-, hanswers, -⟩ | ⟨-, -, reaction, hreaction, hstops⟩
          · exact absurd htrips (h entry hentry).1
          · exact absurd ((h entry hentry).2 hanswers) (hall entry hentry)
          · rw [hreaction, Except.bind] at hresult
            have hfollows := TxEntry.follows_responseReceived hwaits hid.symm hreaction
            rw [(change_of_settle (e := .response true ack) rfl hentry hfollows hresult).2, hstops]

end Responses

/-- A response that repeats is not the expected one. -/
theorem answers_imp_expected_iff {entry : TxEntry} {type : PacketType} :
    (Answers entry type → expected entry = type) ↔ ¬ Repeats entry type := by
  constructor
  · intro h hrepeats
    have hexpected := h (Or.inr hrepeats)
    rw [hrepeats.1, hrepeats.2] at hexpected
    cases hexpected
  · intro h hanswers
    exact hanswers.resolve_right h

/-- Which responses of a client a table can handle: read strictly, so that a repeated
PUBREC is to be refused, and with repeats accepted, as the code intends. -/
theorem handlesAck_iff {maxRetries : Nat} {steps : List TableStep} {t : TxInFlightPublications}
    (h : Reached maxRetries steps t)
    (ack : PublishAck) (hack : isResponse ack = true) :
    (HandlesAck (fun entry type => expected entry = type) t ack ↔
      ∀ entry, t.publications.lookup ack.packetIdentifier = some entry →
        ¬ Trips entry ack.type ∧ ¬ Repeats entry ack.type) ∧
    (HandlesAck Answers t ack ↔
      ∀ entry, t.publications.lookup ack.packetIdentifier = some entry →
        ¬ Trips entry ack.type) := by
  have hwell := WellFormed.of_run h.run
  constructor
  · rw [handlesAck_iff_of_wellFormed hwell hack]
    simp only [answers_imp_expected_iff]
  · rw [handlesAck_iff_of_wellFormed hwell hack]
    simp only [imp_self, and_true]

/-! ### Publications that are answered at once -/

/-- A message with quality of service 1. -/
def samplePublish : Publish := Publish.create false .atLeastOnce false [0x61] 0x0000 [0x62]

theorem encodable_samplePublish : Encodable (.publish samplePublish) :=
  encodable_publish_iff.mpr ⟨by decide, announced_create _ _ _ _ _ _, by decide⟩

/-- The sample is not too long. -/
theorem fits_samplePublish (qos : QoS) : Dispatch.Fits samplePublish qos := by
  refine ⟨encodable_samplePublish, ?_⟩
  cases qos <;> decide

/-- The sample has quality of service 1 already. -/
theorem setQos_samplePublish (i : UInt16) :
    (samplePublish.withNewPacketIdentifier i).setQos .atLeastOnce =
      .ok (samplePublish.withNewPacketIdentifier i) := by
  have hflags : ∀ flags (h : typeOf flags = .publish), flags = samplePublish.typeAndFlags →
      ({ samplePublish.withNewPacketIdentifier i with
        typeAndFlags := flags, isPublish := h } : Publish) =
          samplePublish.withNewPacketIdentifier i := by
    rintro flags h rfl
    rfl
  have hqos : samplePublish.qos = .atLeastOnce := by decide
  have hsame : samplePublish.flagsWithQos .atLeastOnce = samplePublish.typeAndFlags := by decide
  rw [Publish.setQos, Publish.qos_withNewPacketIdentifier, hqos]
  exact congrArg Except.ok (hflags _ _ hsame)

/-- A table that has assigned some identifiers, none of which is in use. -/
def answered (n : Nat) : TxInFlightPublications :=
  { TxInFlightPublications.create 3 with nextPacketIdentifier := UInt16.ofNat n }

/-- The table while the next publication waits for its PUBACK. -/
def awaiting (n : Nat) : TxInFlightPublications :=
  (answered n).assign.update (UInt16.ofNat (n + 1))
    (TxInFlightPublications.startedEntry 3 .atLeastOnce
      (samplePublish.withNewPacketIdentifier (UInt16.ofNat (n + 1))))

theorem nextIdentifier_answered {n : Nat} (h : n < 65535) :
    (answered n).nextIdentifier = UInt16.ofNat (n + 1) := by
  apply UInt16.toNat_inj.mp
  have hcounter : (answered n).nextPacketIdentifier.toNat = n := by
    rw [answered, UInt16.toNat_ofNat']
    omega
  rw [TxInFlightPublications.toNat_nextIdentifier (by omega), hcounter, UInt16.toNat_ofNat']
  omega

/-- The next publication is started. -/
theorem publish_answered {n : Nat} (h : n < 65535) :
    table.step (some (answered n)) (.publish true samplePublish .atLeastOnce) =
      some (.ok [.send (.publish (samplePublish.withNewPacketIdentifier (UInt16.ofNat (n + 1))))],
        some (awaiting n)) := by
  have hpublish : (answered n).publish true samplePublish .atLeastOnce =
      .ok ([.send (.publish (samplePublish.withNewPacketIdentifier (UInt16.ofNat (n + 1))))],
        samplePublish, awaiting n) := by
    rw [TxInFlightPublications.publish_numbered_eq_ok_iff (Or.inl rfl),
      nextIdentifier_answered h]
    exact ⟨_, setQos_samplePublish _, rfl, rfl, rfl, rfl⟩
  exact Machine.ofFallible_step_alive_iff.mpr
    ⟨_, step_publish_eq_some_iff.mpr ⟨samplePublish, hpublish⟩, rfl⟩

/-- A PUBACK releases the publication that is awaiting it. -/
theorem response_awaiting {n : Nat} (h : n < 65535) :
    table.step (some (awaiting n)) (.response true (.puback (UInt16.ofNat (n + 1)))) =
      some (.ok [], some (answered (n + 1))) := by
  have hentry : (awaiting n).publications.lookup (UInt16.ofNat (n + 1)) =
      some (TxInFlightPublications.startedEntry 3 .atLeastOnce
        (samplePublish.withNewPacketIdentifier (UInt16.ofNat (n + 1)))) := by
    simp [awaiting]
  have hremoved : (awaiting n).remove (UInt16.ofNat (n + 1)) = answered (n + 1) := by
    have hempty : ((awaiting n).remove (UInt16.ofNat (n + 1))).publications =
        (answered (n + 1)).publications := by
      funext i
      by_cases hi : i = UInt16.ofNat (n + 1)
      · simp [TxInFlightPublications.remove, Table.erase, hi, answered,
          TxInFlightPublications.create, Table.empty]
      · simp [TxInFlightPublications.remove, Table.erase, awaiting, Table.insert,
          TxInFlightPublications.assign, answered, TxInFlightPublications.create, Table.empty]
    have hcounter : ((awaiting n).remove (UInt16.ofNat (n + 1))).nextPacketIdentifier =
        UInt16.ofNat (n + 1) := nextIdentifier_answered h
    rw [TxInFlightPublications.remove] at hempty hcounter ⊢
    simp only at hempty hcounter
    rw [hempty, hcounter]
    rfl
  have hresponse : (awaiting n).responseReceived true (.puback (UInt16.ofNat (n + 1))) =
      .ok ([], answered (n + 1)) := by
    rw [responseReceived_known rfl hentry, TxInFlightPublications.startedEntry, if_neg (by decide),
      TxEntry.responseReceived_qos1 rfl rfl,
      if_pos (show (PublishAck.puback _).type = .puback from rfl), Except.bind,
      TxInFlightPublications.settle_released]
    exact congrArg (fun t => Except.ok ([], t)) hremoved
  simp only [table, Machine.ofFallible, step, isResponse, PublishAck.type, hresponse]
  rfl

/-- The first publication. -/
def awaitingSteps : List TableStep :=
  [⟨some (answered 0), .publish true samplePublish .atLeastOnce,
    .ok [.send (.publish (samplePublish.withNewPacketIdentifier 1))], some (awaiting 0)⟩]

theorem run_awaiting : table.Run (some (TxInFlightPublications.create 3)) awaitingSteps
    (some (awaiting 0)) :=
  Machine.Run.single (publish_answered (by decide))

theorem reached_awaiting : Reached 3 awaitingSteps (awaiting 0) := by
  refine ⟨run_awaiting, ?_⟩
  intro x hx
  cases List.mem_singleton.mp hx
  exact fun _ _ => fits_samplePublish _

theorem handlesAck_awaiting :
    (HandlesAck (fun entry type => expected entry = type) (awaiting 0) (.puback 1) ↔
      ∀ entry, (awaiting 0).publications.lookup 1 = some entry →
        ¬ Trips entry .puback ∧ ¬ Repeats entry .puback) ∧
    (HandlesAck Answers (awaiting 0) (.puback 1) ↔
      ∀ entry, (awaiting 0).publications.lookup 1 = some entry → ¬ Trips entry .puback) :=
  handlesAck_iff reached_awaiting (.puback 1) rfl

/-- A PUBREC instead of the PUBACK runs into an assertion. -/
theorem not_handlesAck_awaiting :
    (∃ steps, table.Run (some (TxInFlightPublications.create 3)) steps (some (awaiting 0))) ∧
      ¬ HandlesAck Answers (awaiting 0) (.pubrec 1) := by
  refine ⟨⟨_, run_awaiting⟩, fun h => ?_⟩
  rcases h.safe true with ⟨result, hresult⟩
  have hfail : (awaiting 0).responseReceived true (.pubrec 1) = .error .assertion := rfl
  rw [hfail] at hresult
  cases hresult

/-! ## Packet identifiers -/

/-- How many publications are in flight. -/
def inFlight (t : TxInFlightPublications) : Nat :=
  (List.range 65536).countP fun i => t.publications.contains (UInt16.ofNat i)

/-- How many packet identifiers a run assigns. -/
def assigned (steps : List TableStep) : Nat := steps.countP (·.event.assigns)

/-- The next publication gets a valid identifier of its own. -/
structure ValidNext (t : TxInFlightPublications) : Prop where
  range : 1 ≤ t.nextIdentifier.toNat ∧ t.nextIdentifier.toNat ≤ 65535
  unused : t.publications.lookup t.nextIdentifier = none
  /-- It is stored beside the publications that are running, and its message is sent, unless it
  becomes too long. -/
  stored : ∀ (p : Publish) (qos : QoS), p.qos ≠ .reserved →
    qos = .atLeastOnce ∨ qos = .exactlyOnce → Dispatch.Fits p qos →
      ∃ outgoing entry t' bytes,
        t.publish true p qos = .ok ([.send (.publish outgoing)], p, t') ∧
        encoding (.publish outgoing) = .ok bytes ∧
        outgoing.packetIdentifier = t.nextIdentifier ∧ outgoing.qos = qos ∧
        outgoing.topic = p.topic ∧ outgoing.applicationMessage = p.applicationMessage ∧
        entry.publish = outgoing ∧
        t'.publications = t.publications.insert t.nextIdentifier entry

/-- As long as the counter of identifiers has not wrapped around, it tells how many have
been assigned, and the identifiers in use are among them. -/
def Numbered (assignedBefore : Nat) (t : TxInFlightPublications) : Prop :=
  assignedBefore ≤ 65535 → t.nextPacketIdentifier.toNat = assignedBefore ∧
    ∀ i entry, t.publications.lookup i = some entry → i.toNat ≤ assignedBefore

section Identifiers

variable {t t' : TxInFlightPublications} {e : Event} {n : Nat}

/-- The next identifier is valid exactly if the counter does not wrap around, provided that
it is unused. -/
theorem validNext_of_unused (hrange : 1 ≤ t.nextIdentifier.toNat)
    (hunused : t.publications.lookup t.nextIdentifier = none) : ValidNext t := by
  refine ⟨⟨hrange, ?_⟩, hunused, ?_⟩
  · have hlt := t.nextIdentifier.toNat_lt
    omega
  · intro p qos hp hqos hfits
    have hp' : (p.withNewPacketIdentifier t.nextIdentifier).qos ≠ .reserved := hp
    have hreserved : qos ≠ .reserved := by rcases hqos with rfl | rfl <;> decide
    rcases Publish.setQos_eq_ok hp' qos with ⟨outgoing, houtgoing⟩
    rcases Publish.setQos_frame houtgoing with ⟨htopic, hid, hmessage⟩
    have hencodable := (hfits.withNewPacketIdentifier _).encodable_of_setQos houtgoing hreserved
    refine ⟨outgoing, _, _, _, (TxInFlightPublications.publish_numbered_eq_ok_iff hqos).mpr
      ⟨outgoing, houtgoing, hunused, rfl, rfl, rfl⟩, encoding_eq hencodable, hid,
      Publish.qos_of_setQos houtgoing, htopic, hmessage, publish_startedEntry _ _ _, rfl⟩

/-- A change that assigns no identifier keeps the counter, and adds no entry. -/
theorem Numbered.keep (h : Numbered n t)
    (hcounter : t'.nextPacketIdentifier = t.nextPacketIdentifier)
    (hentries : ∀ i entry, t'.publications.lookup i = some entry →
      ∃ entry', t.publications.lookup i = some entry') : Numbered n t' := by
  intro hn
  rcases h hn with ⟨hcount, hkeys⟩
  refine ⟨hcounter ▸ hcount, ?_⟩
  intro i entry hentry
  rcases hentries i entry hentry with ⟨entry', hentry'⟩
  exact hkeys i entry' hentry'

/-- Replacing an entry adds none. -/
theorem entries_update {i : UInt16} {entry after : TxEntry}
    (hentry : t.publications.lookup i = some entry) (j : UInt16) (other : TxEntry)
    (h : (t.update i after).publications.lookup j = some other) :
    ∃ entry', t.publications.lookup j = some entry' := by
  by_cases hj : j = i
  · subst hj
    exact ⟨entry, hentry⟩
  · rw [TxInFlightPublications.publications_update, Table.lookup_insert_of_ne _ _ hj] at h
    exact ⟨other, h⟩

/-- Removing an entry adds none. -/
theorem entries_remove (i j : UInt16) (other : TxEntry)
    (h : (t.remove i).publications.lookup j = some other) :
    ∃ entry', t.publications.lookup j = some entry' := by
  rw [TxInFlightPublications.publications_remove, Table.lookup_erase] at h
  split at h
  · cases h
  · exact ⟨other, h⟩

/-- An identifier is assigned when a publication is started. -/
theorem Numbered.started {entry : TxEntry} (h : Numbered n t) :
    Numbered (n + 1) (t.assign.update t.nextIdentifier entry) := by
  intro hn
  rcases h (by omega) with ⟨hcount, hkeys⟩
  have hnext : t.nextIdentifier.toNat = n + 1 := by
    rw [TxInFlightPublications.toNat_nextIdentifier (by omega), hcount]
  refine ⟨hnext, ?_⟩
  intro i other hother
  rw [TxInFlightPublications.publications_update, Table.lookup_insert] at hother
  split at hother
  · rename_i hi
    rw [hi, hnext]
  · have hle := hkeys i other hother
    omega

/-- The counter follows every change. -/
theorem Numbered.change (h : Numbered n t) (hchange : Change t e t') :
    Numbered (n + if e.assigns then 1 else 0) t' := by
  cases hchange with
  | same e he =>
      rw [he]
      exact h
  | started p qos hqos outgoing houtgoing hfree =>
      have he : (Event.publish true p qos).assigns = true := by
        rcases hqos with rfl | rfl <;> rfl
      rw [he]
      exact h.started
  | elapsed i entry timer hentry =>
      exact h.keep rfl (entries_update hentry)
  | kept e i entry reaction hentry he hfollows hkept =>
      rw [he]
      exact h.keep rfl (entries_update hentry)
  | released e i entry reaction hentry he hfollows hreleased =>
      rw [he]
      exact h.keep rfl (entries_remove i)

/-- After every run the counter tells how many identifiers have been assigned. -/
theorem Numbered.of_run {maxRetries : Nat} {steps : List TableStep}
    (h : table.Run (some (TxInFlightPublications.create maxRetries)) steps (some t)) :
    Numbered (assigned steps) t := by
  refine (invariant_of_run (fun steps t => Numbered (assigned steps) t) ?_ ?_ h).2
  · intro _
    refine ⟨rfl, ?_⟩
    intro i entry hentry
    cases hentry
  · intro pre t e o t' _ hbefore hchange
    rw [assigned, List.countP_append, List.countP_singleton]
    exact hbefore.change hchange

/-- As long as fewer than 65535 identifiers have been assigned the next one is valid.  Once
all of them have been assigned it is not, however few are in use. -/
theorem validNext_of_run {maxRetries : Nat} {steps : List TableStep}
    (h : Reached maxRetries steps t) :
    (assigned steps < 65535 → ValidNext t) ∧
      (assigned steps = 65535 → inFlight t < 65535 → ¬ ValidNext t) := by
  have hnumbered := Numbered.of_run h.run
  constructor
  · intro hfew
    rcases hnumbered (by omega) with ⟨hcount, hkeys⟩
    have hnext := TxInFlightPublications.toNat_nextIdentifier (t := t) (by omega)
    apply validNext_of_unused (by omega)
    cases hentry : t.publications.lookup t.nextIdentifier with
    | none => rfl
    | some entry =>
        have hle := hkeys _ _ hentry
        omega
  · intro hall _ hvalid
    have hcount := (hnumbered (by omega)).1
    have hlast : t.nextPacketIdentifier = 0xFFFF := by
      apply UInt16.toNat_inj.mp
      rw [hcount, hall]
      rfl
    have hpos := hvalid.range.1
    rw [TxInFlightPublications.nextIdentifier, if_pos hlast] at hpos
    simp at hpos

end Identifiers

/-! ### Using up the identifiers -/

/-- One sample publication after the other, each answered before the next one. -/
def answeredEvents (n : Nat) : List Event :=
  (List.range n).flatMap fun i =>
    [.publish true samplePublish .atLeastOnce, .response true (.puback (UInt16.ofNat (i + 1)))]

/-- Publications that are answered one by one can be processed as long as identifiers last. -/
theorem run_answered {n : Nat} (h : n ≤ 65535) : ∃ steps,
    steps.map Step.event = answeredEvents n ∧
      table.Run (some (TxInFlightPublications.create 3)) steps (some (answered n)) := by
  induction n with
  | zero => exact ⟨[], rfl, Machine.Run.nil _⟩
  | succ n ih =>
      rcases ih (by omega) with ⟨steps, hevents, hrun⟩
      have hpublish := Machine.Run.single (publish_answered (n := n) (by omega))
      have hresponse := Machine.Run.single (response_awaiting (n := n) (by omega))
      refine ⟨_, ?_, hrun.append (hpublish.append hresponse)⟩
      rw [List.map_append, hevents, answeredEvents, answeredEvents, List.range_succ,
        List.flatMap_append]
      rfl

theorem validNext_awaiting :
    (assigned awaitingSteps < 65535 → ValidNext (awaiting 0)) ∧
      (assigned awaitingSteps = 65535 → inFlight (awaiting 0) < 65535 →
        ¬ ValidNext (awaiting 0)) :=
  validNext_of_run reached_awaiting

/-- After 65535 publications, all of which have been answered, the next identifier is 0. -/
theorem not_validNext_answered :
    (∃ steps, steps.map Step.event = answeredEvents 65535 ∧
      table.Run (some (TxInFlightPublications.create 3)) steps (some (answered 65535))) ∧
    inFlight (answered 65535) = 0 ∧ (answered 65535).nextIdentifier = 0 ∧
      ¬ ValidNext (answered 65535) := by
  have hnext : (answered 65535).nextIdentifier = 0 := rfl
  refine ⟨run_answered (Nat.le_refl _), ?_, hnext, ?_⟩
  · rw [inFlight, List.countP_eq_zero]
    intro i _
    simp [answered, TxInFlightPublications.create, Table.contains]
  · intro h
    have hpos := h.range.1
    rw [hnext] at hpos
    simp at hpos

end TxTable

end Dispatch
end WallyIo
