import WallyIo.Dispatch.FreshSessions
import WallyIo.Dispatch.RxTable

/-!
# Copies that a session ignores

Whether a PUBLISH has been sent again is decided by the session.  The session manager retains
the packet whatever the session decides.

Main results:

- Theorem {lit}`retain_eq_iff`: which messages are retained already.
- Theorem {lit}`clientPublished_of_copy`: what a copy does to the session manager.
- Theorem {lit}`copy_unchanged_iff`: when a copy changes nothing.
-/

namespace WallyIo
namespace Dispatch

open Protocol Library

/-! ## Retaining a message again -/

namespace RetainedMessages

variable {t t' : RetainedMessages} {p : Publish}

/-- A topic has one message. -/
theorem eq_of_topic_eq {kept : Publish} (hkept : kept ∈ t.messages) (hp : p ∈ t.messages)
    (htopic : kept.topic = p.topic) : kept = p :=
  List.inj_on_of_nodup_map t.nodup hkept hp htopic

/-- Retaining a message has no effect: it is the one that is kept, or it is empty and none is
kept. -/
def Retained (t : RetainedMessages) (p : Publish) : Prop :=
  if p.applicationMessage = [] then ∀ kept ∈ t.messages, kept.topic ≠ p.topic
  else p ∈ t.messages

/-- Which messages are retained already. -/
theorem retain_eq_iff (h : t.retain p = .ok t') :
    (∀ q, q ∈ t'.messages ↔ q ∈ t.messages) ↔ t.Retained p := by
  have hmem (q : Publish) := mem_retain_iff (p := q) h
  unfold Retained
  split
  · rename_i hempty
    simp only [hempty, List.length_nil, Nat.lt_irrefl, and_false, false_or] at hmem
    constructor
    · intro hsame kept hkept
      exact ((hmem kept).mp ((hsame kept).mpr hkept)).2
    · intro hfree q
      rw [hmem]
      exact ⟨fun hq => hq.1, fun hq => ⟨hq, hfree q hq⟩⟩
  · rename_i hmessage
    have hpos := List.length_pos_iff.mpr hmessage
    constructor
    · intro hsame
      exact (hsame p).mp ((hmem p).mpr (Or.inl ⟨rfl, hpos⟩))
    · intro hp q
      rw [hmem]
      constructor
      · rintro (⟨rfl, -⟩ | ⟨hq, -⟩)
        · exact hp
        · exact hq
      · intro hq
        by_cases htopic : q.topic = p.topic
        · exact Or.inl ⟨eq_of_topic_eq hq hp htopic, hpos⟩
        · exact Or.inr ⟨hq, htopic⟩

end RetainedMessages

/-! ## What a copy does -/

namespace SessionManager

variable {m m' : SessionManager} {connections : Connections} {clientId : Bytes} {p : Publish}
  {entry : SessionEntry}

/-- The session of a client decides that a PUBLISH has been sent again. -/
def TakenForCopy (m : SessionManager) (connections : Connections) (clientId : Bytes)
    (p : Publish) : Prop :=
  ∃ entry calls t, m.sessions.lookup clientId = some entry ∧
    entry.session.rxInFlightPublications.clientSentPublish (connected connections entry) p =
      .ok (false, calls, t)

/-- Nothing but the order of the retained messages has changed. -/
structure Unchanged (m m' : SessionManager) : Prop where
  topicSubscriptions : m'.topicSubscriptions = m.topicSubscriptions
  sessions : m'.sessions = m.sessions
  retainedMessages :
    ∀ q, q ∈ m'.retainedMessages.messages ↔ q ∈ m.retainedMessages.messages

/-- The session changes nothing, and nothing is published. -/
theorem clientSentPublish_of_stored {stored : RxPublication}
    (hentry : m.sessions.lookup clientId = some entry)
    (hstored : entry.session.rxInFlightPublications.publications.lookup p.packetIdentifier =
      some stored) :
    m.clientSentPublish connections clientId entry p = .ok ([], p, m) := by
  rw [clientSentPublish, MqttClientSession.clientSentPublish,
    RxInFlightPublications.clientSentPublish_duplicate hstored]
  change Except.ok (callsOf clientId entry [], p, m.update clientId entry.session) = _
  rw [update_of_lookup hentry]
  rfl

/-- What a copy does to the session manager: its message is retained. -/
theorem clientPublished_of_copy (h : TakenForCopy m connections clientId p) :
    ∃ t, m.clientPublished connections clientId p =
        .ok ([], { m with retainedMessages := t }) ∧
      ((∀ q, q ∈ t.messages ↔ q ∈ m.retainedMessages.messages) ↔
        (p.retain = true → m.retainedMessages.Retained p)) := by
  obtain ⟨entry, calls, rx, hentry, hignored⟩ := h
  obtain ⟨stored, hstored⟩ :=
    (RxInFlightPublications.clientSentPublish_eq_false_iff _).mp ⟨calls, rx, hignored⟩
  cases hretain : p.retain with
  | false =>
      refine ⟨m.retainedMessages, ?_, by simp⟩
      simp only [clientPublished, hentry, hretain, Bool.false_eq_true, if_false,
        clientSentPublish_of_stored hentry hstored]
      rfl
  | true =>
      have hsent : m.clientSentPublish connections clientId entry (p.setRetain false) =
          .ok ([], p.setRetain false, m) := clientSentPublish_of_stored hentry hstored
      obtain ⟨t, ht⟩ : ∃ t, m.retainedMessages.retain p = .ok t := by
        rw [RetainedMessages.retain, hretain]
        simp only [assert_true, bind, Except.bind]
        split
        · exact ⟨_, rfl⟩
        · exact ⟨_, rfl⟩
      refine ⟨t, ?_, ?_⟩
      · simp only [clientPublished, hentry, hretain, if_true, hsent, bind, Except.bind,
          p.setRetain_setRetain hretain, ht]
        rfl
      · rw [RetainedMessages.retain_eq_iff ht]
        exact ⟨fun h _ => h, fun h => h rfl⟩

/-- When a copy changes nothing: in every step of every run in which a session decides that a
PUBLISH has been sent again, nothing is sent, and nothing changes exactly if the packet is not
to be retained or is the one that is retained already. -/
theorem copy_unchanged_iff {maxRetries : Nat} {steps : List ManagerStep}
    {t : Option SessionManager} (hrun : machine.Run (some (create maxRetries)) steps t)
    {step : ManagerStep} (hstep : step ∈ steps) (hbefore : step.before = some m)
    (hevent : step.event = (connections, .clientPublished clientId p))
    (hcopy : TakenForCopy m connections clientId p) :
    ∃ m', step.output = .ok [] ∧ step.after = some m' ∧
      (Unchanged m m' ↔ (p.retain = true → m.retainedMessages.Retained p)) := by
  obtain ⟨messages, hpublished, hsame⟩ := clientPublished_of_copy hcopy
  obtain ⟨pre, post, hsplit⟩ := List.append_of_mem hstep
  obtain ⟨-, hmachine, -⟩ := hrun.split hsplit
  rw [hbefore, hevent] at hmachine
  have hperform : m.perform connections (.clientPublished clientId p) =
      some (.ok ([], { m with retainedMessages := messages })) := by
    rw [perform, hpublished]
  simp only [machine, Machine.ofFallible, hperform, Option.some.injEq, Prod.mk.injEq] at hmachine
  obtain ⟨houtput, hafter⟩ := hmachine
  refine ⟨_, houtput.symm, hafter.symm, ?_⟩
  rw [← hsame]
  exact ⟨fun h => h.retainedMessages, fun h => ⟨rfl, rfl, h⟩⟩

/-! ## A late copy -/

/-- A message of the client {lit}`x` with quality of service 2, and its copy. -/
def firstMessage (dup : Bool) : Publish := .create dup .exactlyOnce true [0x61] 7 [0x62]

/-- A message of the client {lit}`y` for the same topic. -/
def newerMessage : Publish := .create false .atMostOnce true [0x61] 0 [0x63]

/-- The copy arrives after the newer message. -/
def lateCopyRun : Option (List ManagerStep × Option SessionManager) :=
  machine.exec (some (create 3)) (List.map (fun event => (sampleConnections, event))
    [.clientConnected (sampleConnect [0x78]) 0, .clientConnected (sampleConnect [0x79]) 1,
      .clientPublished [0x78] (firstMessage false), .clientPublished [0x79] newerMessage,
      .clientPublished [0x78] (firstMessage true)])

theorem lateCopyRun_isSome : lateCopyRun.isSome = true := rfl

theorem copy_unchanged_lateCopyRun : ∃ steps t step m,
    machine.Run (some (create 3)) steps t ∧ step ∈ steps ∧ step.before = some m ∧
      step.event = (sampleConnections, .clientPublished [0x78] (firstMessage true)) ∧
      ∃ m', step.output = .ok [] ∧ step.after = some m' ∧
        (Unchanged m m' ↔ ((firstMessage true).retain = true →
          m.retainedMessages.Retained (firstMessage true))) := by
  have hrun := Machine.run_exec (Option.some_get lateCopyRun_isSome).symm
  have hstep : (lateCopyRun.get lateCopyRun_isSome).1[4]? = some _ := rfl
  exact ⟨_, _, _, _, hrun, List.mem_of_getElem? hstep, rfl, rfl,
    copy_unchanged_iff hrun (List.mem_of_getElem? hstep) rfl rfl ⟨_, _, _, rfl, rfl⟩⟩

/-- The copy replaces the newer message. -/
theorem copy_changes_retained : ∃ steps t m m',
    machine.Run (some (create 3)) steps t ∧
      ⟨some m, (sampleConnections, .clientPublished [0x78] (firstMessage true)), .ok [],
        some m'⟩ ∈ steps ∧
      TakenForCopy m sampleConnections [0x78] (firstMessage true) ∧
      m.retainedMessages.messages = [newerMessage] ∧
      m'.retainedMessages.messages = [firstMessage true] ∧ ¬ Unchanged m m' := by
  have hrun := Machine.run_exec (Option.some_get lateCopyRun_isSome).symm
  refine ⟨_, _, _, _, hrun, List.mem_of_getElem? (i := 4) rfl, ?_, rfl, rfl, ?_⟩
  · exact ⟨_, _, _, rfl, rfl⟩
  · intro h
    have hkept := (h.retainedMessages newerMessage).mpr (List.mem_singleton.mpr rfl)
    exact absurd (List.mem_singleton.mp hkept) (by decide)

end SessionManager

end Dispatch
end WallyIo
