import WallyIo.Dispatch.FreshSessions
import WallyIo.Dispatch.SessionEnds
import WallyIo.Library.Incarnations

/-!
# Last wills

The last will of a session is published when its client has gone without a DISCONNECT, after
the session has been removed.  A connection may report its end several times, and a client may
have several sessions one after the other.

Main results:

- Theorem {lit}`origin_of_invoke`: where a packet that is published comes from.
- Theorem {lit}`lastWills_of_run`: the last will of every session is published at most once, at
  the right time, and not to its own client.
-/

namespace WallyIo
namespace Dispatch

open Protocol Library

namespace SessionManager

/-! ## What is published -/

section Published

variable {connections : Connections} {m m' : SessionManager} {event : Event}
  {effects : List Effect} {x : Bytes}

/-- A client without a session is not called. -/
theorem not_called_of_publish {p p' : Publish} (hfree : m.sessions.lookup x = none)
    (h : m.publish connections p = .ok (effects, p', m')) (k : ConnectionId) (call : SenderCall) :
    .call x k call ∉ effects := by
  obtain ⟨calls, hloop, rfl⟩ := publish_eq_ok_iff_publishTo.mp h
  have hinv := publishTo_invariant
    (fun calls _ t => t.sessions.lookup x = none ∧ .call x k call ∉ calls) [] (by
      rintro pre p t y q entry calls p' session ⟨hx, hpre⟩ hmem hentry hpublish
      have hne : x ≠ y := by
        rintro rfl
        cases hx.symm.trans hentry
      refine ⟨by rw [lookup_update_of_ne _ hne, hx], ?_⟩
      intro hcall
      rcases List.mem_append.mp hcall with hcall | hcall
      · exact hpre hcall
      · exact hne (mem_callsOf_iff.mp hcall).1)
    ⟨hfree, List.not_mem_nil⟩ hloop
  simpa using hinv.2

/-- The packet that is published when a client has published one: its RETAIN flag is cleared. -/
theorem published_of_clientPublished {p : Publish}
    (h : m.clientPublished connections x p = .ok (effects, m')) :
    ∀ q ∈ published effects, q = if p.retain = true then p.setRetain false else p := by
  have hsent {t : SessionManager} {entry : SessionEntry} {p p' : Publish} {effects : List Effect}
      {t' : SessionManager}
      (h : t.clientSentPublish connections x entry p = .ok (effects, p', t')) :
      ∀ q ∈ published effects, q = p := by
    obtain ⟨⟨dispatchPublish, calls, session⟩, -, hrest⟩ := bind_eq_ok_iff.mp h
    cases dispatchPublish with
    | true =>
        obtain ⟨⟨more, p'', t''⟩, hpublish, hresult⟩ := bind_eq_ok_iff.mp hrest
        cases hresult
        rw [published_append, published_callsOf, published_of_publish hpublish]
        simp
    | false =>
        cases hrest
        simp
  simp only [clientPublished] at h
  split at h
  · rename_i entry hentry
    split at h
    · rename_i hretain
      obtain ⟨⟨calls, p', m''⟩, hsession, hrest⟩ := bind_eq_ok_iff.mp h
      obtain ⟨r, -, hresult⟩ := bind_eq_ok_iff.mp hrest
      cases hresult
      rw [if_pos hretain]
      exact hsent hsession
    · rename_i hretain
      obtain ⟨⟨calls, p', m''⟩, hsession, hresult⟩ := bind_eq_ok_iff.mp h
      cases hresult
      rw [if_neg hretain]
      exact hsent hsession
  · cases h
    simp

/-- When a client has gone without a DISCONNECT its last will is published, if it has one, and
the client itself is not called. -/
theorem effects_of_ungraceful {reason : DisconnectReason}
    (h : m.clientDisconnectedUngracefully connections x reason = .ok (effects, m')) :
    published effects = (m.lastWillOf x).toList ∧ ∀ k call, .call x k call ∉ effects := by
  rcases clientDisconnectedUngracefully_eq_ok_iff.mp h with
    ⟨entry, lwt, p, hentry, hwill, hpublish⟩ | ⟨entry, hentry, hwill, rfl, -⟩ | ⟨hnone, rfl, -⟩
  · refine ⟨?_, fun k call => not_called_of_publish (Table.lookup_erase_self _ _) hpublish k call⟩
    rw [lastWillOf, hentry, Option.bind_some, hwill, published_of_publish hpublish]
    rfl
  · refine ⟨?_, fun k call => List.not_mem_nil⟩
    rw [lastWillOf, hentry, Option.bind_some, hwill]
    rfl
  · refine ⟨?_, fun k call => List.not_mem_nil⟩
    rw [lastWillOf, hnone]
    rfl

/-- Whether an event has packets published. -/
def Event.publishes : Event → Bool
  | .clientPublished _ _ => true
  | .clientDisconnectedUngracefully _ _ => true
  | _ => false

/-- Other events publish nothing. -/
theorem published_of_silent (hevent : event.publishes = false)
    (h : m.perform connections event = some (.ok (effects, m'))) : published effects = [] := by
  have hsend (t : SessionManager) (y : Bytes) (entry : SessionEntry) (packet : MqttPacket) :
      published (t.send connections y entry packet).1 = [] := by
    unfold send
    split
    · exact published_callsOf y entry _
    · rfl
  cases event with
  | clientPublished | clientDisconnectedUngracefully => cases hevent
  | clientConnected connect k =>
      obtain ⟨t, -, hresult⟩ := map_eq_ok_iff.mp (Option.some.inj h)
      cases hresult
      rfl
  | clientDisconnected y reason | destroy y =>
      cases h
      rfl
  | clientSubscribed y subscribe =>
      simp only [perform, clientSubscribed, Option.some.injEq] at h
      split at h
      · obtain ⟨⟨calls, r, session⟩, -, hresult⟩ := bind_eq_ok_iff.mp h
        cases hresult
        rw [published_append, hsend, published_callsOf, List.append_nil]
      · cases h
        rfl
  | clientUnsubscribed y unsubscribe =>
      simp only [perform, clientUnsubscribed, Option.some.injEq, Except.ok.injEq] at h
      split at h
      · rename_i entry hentry
        obtain rfl : _ = effects := congrArg Prod.fst h
        exact hsend _ y entry _
      · cases h
        rfl
  | clientAcked y ack =>
      rw [perform, Option.some.injEq] at h
      cases ack with
      | puback i | pubrec i | pubrel i | pubcomp i =>
          simp only [clientAcked, clientAckedPublish, clientReceivedPublish,
            clientReleasedPublish, clientCompletedPublish] at h
          rcases onSession_eq_ok_iff.mp h with
            ⟨entry, calls, session, -, -, rfl, -⟩ | ⟨-, rfl, -⟩
          · exact published_callsOf y entry calls
          · rfl
  | txTimerElapses y i | rxTimerElapses y i =>
      obtain ⟨t, -, hresult⟩ := Option.map_eq_some_iff.mp h
      cases hresult
      rfl
  | txTimeout y i | rxTimeout y i =>
      rw [perform] at h
      obtain ⟨entry, calls, session, -, -, rfl, -⟩ := timeout_eq_ok_iff.mp h
      exact published_callsOf y entry calls
  | subscriptionsReordered order | messagesReordered order =>
      simp only [perform] at h
      split at h
      · cases h
        rfl
      · cases h

end Published

/-! ## Calls of the session manager -/

/-- What the session manager is called for. -/
inductive Call
  | event (connections : Connections) (event : Event)
  | destroyAll

/-- Whether a call ends the session of a client. -/
def Call.ends (x : Bytes) : Call → Bool
  | .event _ (.clientDisconnected y _) => y == x
  | .event _ (.clientDisconnectedUngracefully y _) => y == x
  | .event _ (.destroy y) => y == x
  | .event _ _ => false
  | .destroyAll => true

/-- The answer to one call. -/
def invoke (m : SessionManager) : Call → Option (Except Fault (List Effect × SessionManager))
  | .event connections event => m.perform connections event
  | .destroyAll => some (.ok ([], m.destroyAll))

/-- Whether a client has a session. -/
def inSession (m : SessionManager) (x : Bytes) : Bool := m.sessions.contains x

/-- A session manager with its sessions. -/
abbrev TrackedManager := Tracked Bytes SessionManager

/-- The machine of a session manager that tells the sessions of a client apart. -/
def histories : Machine (Option TrackedManager) Call (Except Fault (List Effect)) :=
  Tracked.machine inSession invoke

/-- Executed steps of the machine. -/
abbrev HistoryStep := Step (Option TrackedManager) Call (Except Fault (List Effect))

/-- The sessions that the machine stores. -/
def sessionObjects : Watch histories inSession := Tracked.objects inSession invoke

/-- Where a packet comes from that is published: a client has published it, or it is the last
will of a session that is stored when its client has gone without a DISCONNECT. -/
inductive Origin (s : TrackedManager) : Call → Publish → Prop
  | client (connections : Connections) (x : Bytes) (source : Publish) :
      Origin s (.event connections (.clientPublished x source))
        (if source.retain = true then source.setRetain false else source)
  | lastWill (connections : Connections) (r : Incarnation Bytes) (reason : DisconnectReason)
      (p : Publish) (hr : s.Stores r) (hwill : s.state.lastWillOf r.key = some p) :
      Origin s (.event connections (.clientDisconnectedUngracefully r.key reason)) p

/-- The packets that a step publishes. -/
def publishedIn (x : HistoryStep) : List Publish :=
  match x.output with
  | .ok effects => published effects
  | .error _ => []

/-- What a step publishes as the last will of a session: all that is published because its client
has gone without a DISCONNECT. -/
def willsOf (r : Incarnation Bytes) (x : HistoryStep) : List Publish :=
  match x.event with
  | .event _ (.clientDisconnectedUngracefully y _) =>
      if y = r.key ∧ sessionObjects.stored x.before r = true then publishedIn x else []
  | _ => []

/-- A step calls nothing for a client. -/
def Silent (y : Bytes) (x : HistoryStep) : Prop :=
  ∀ effects, x.output = .ok effects → ∀ k call, .call y k call ∉ effects

section Calls

variable {s s' : TrackedManager} {u : Option TrackedManager} {call : Call}
  {effects : List Effect} {m m' : SessionManager} {x : Bytes} {r : Incarnation Bytes}
  {output : Except Fault (List Effect)}

theorem inSession_eq_false_iff : m.inSession x = false ↔ m.sessions.lookup x = none :=
  Table.contains_eq_false_iff _ _

/-- Without a session there is no last will. -/
theorem inSession_of_lastWillOf {p : Publish} (h : m.lastWillOf x = some p) :
    m.inSession x = true := by
  obtain ⟨entry, hentry, -⟩ := Option.bind_eq_some_iff.mp h
  exact (Table.contains_eq_true_iff _ _).mpr ⟨entry, hentry⟩

/-- Where a packet that is published comes from. -/
theorem origin_of_invoke (hs : s.Consistent inSession)
    (h : s.state.invoke call = some (.ok (effects, m'))) :
    ∀ p ∈ published effects, Origin s call p := by
  intro p hp
  cases call with
  | destroyAll =>
      cases h
      cases hp
  | event connections event =>
      cases hevent : event.publishes with
      | false =>
          rw [published_of_silent hevent h] at hp
          cases hp
      | true =>
          cases event with
          | clientPublished y source =>
              rw [published_of_clientPublished (Option.some.inj h) p hp]
              exact .client connections y source
          | clientDisconnectedUngracefully y reason =>
              rw [(effects_of_ungraceful (Option.some.inj h)).1, Option.mem_toList] at hp
              obtain ⟨n, hr⟩ := hs.exists_stores (inSession_of_lastWillOf hp)
              exact .lastWill connections ⟨y, n⟩ reason p hr hp
          | _ => cases hevent

/-- A call that ends a session leaves the client without one. -/
theorem inSession_of_ends (hends : call.ends x = true)
    (h : m.invoke call = some (.ok (effects, m'))) : m'.inSession x = false := by
  rw [inSession_eq_false_iff]
  cases call with
  | destroyAll =>
      cases h
      rfl
  | event connections event =>
      have hprofile : m.Ends connections x event → m'.sessions.lookup x = none :=
        fun hevent => Option.map_eq_none_iff.mp (profile_of_ends h hevent)
      cases event with
      | clientDisconnected | clientDisconnectedUngracefully | destroy =>
          exact hprofile (eq_of_beq hends)
      | _ => cases hends

/-- A call that ends a session removes it from the ones that are stored. -/
theorem not_stored_of_ends (hs : s.Consistent inSession) (hends : call.ends r.key = true)
    (h : histories.step (some s) call = some (output, u)) :
    sessionObjects.stored u r = false := by
  rcases Tracked.machine_step_some h with ⟨failure, -, rfl⟩ | ⟨effects, m', hinvoke, -, rfl⟩
  · rfl
  · rw [Watch.stored_some_eq_false]
    intro hr
    have hoccupied : m'.inSession r.key = true := hr.inUse (hs.advance m')
    rw [inSession_of_ends hends hinvoke] at hoccupied
    cases hoccupied

/-- What is published as a last will. -/
theorem mem_willsOf_iff {p : Publish} :
    p ∈ willsOf r ⟨some s, call, output, u⟩ ↔ ∃ connections reason,
      call = .event connections (.clientDisconnectedUngracefully r.key reason) ∧ s.Stores r ∧
        p ∈ publishedIn ⟨some s, call, output, u⟩ := by
  unfold willsOf
  split
  · rename_i connections y reason hcall
    simp only at hcall
    subst hcall
    simp only [Watch.stored_some]
    split
    · rename_i hstored
      obtain ⟨rfl, hr⟩ := hstored
      simp [show s.Stores r from hr]
    · rename_i hnot
      constructor
      · intro hp
        cases hp
      · rintro ⟨connections', reason', hsame, hr, -⟩
        cases hsame
        exact absurd ⟨rfl, hr⟩ hnot
  · rename_i hother
    constructor
    · intro hp
      cases hp
    · rintro ⟨connections, reason, rfl, -⟩
      exact (hother connections r.key reason rfl).elim

/-- What a step publishes as the last will of a session is this last will; its client is not
called, and the session is not stored any longer. -/
theorem willsOf_of_step (hs : s.Consistent inSession)
    (h : histories.step (some s) call = some (output, u)) :
    (willsOf r ⟨some s, call, output, u⟩).length ≤ 1 ∧
      ∀ p ∈ willsOf r ⟨some s, call, output, u⟩, s.Stores r ∧
        s.state.lastWillOf r.key = some p ∧ Silent r.key ⟨some s, call, output, u⟩ ∧
          sessionObjects.stored u r = false := by
  rcases Tracked.machine_step_some h with ⟨failure, rfl, -⟩ | ⟨effects, m', hinvoke, rfl, -⟩
  · have hnone : willsOf r ⟨some s, call, .error failure, u⟩ = [] := by
      rw [List.eq_nil_iff_forall_not_mem]
      intro p hp
      obtain ⟨-, -, -, -, hp⟩ := mem_willsOf_iff.mp hp
      cases hp
    rw [hnone]
    exact ⟨Nat.zero_le 1, fun p hp => absurd hp List.not_mem_nil⟩
  · by_cases hcall : ∃ connections reason,
        call = .event connections (.clientDisconnectedUngracefully r.key reason) ∧ s.Stores r
    · obtain ⟨connections, reason, rfl, hr⟩ := hcall
      obtain ⟨hpublished, hsilent⟩ := effects_of_ungraceful (Option.some.inj hinvoke)
      have hends := not_stored_of_ends hs
        (by simp [Call.ends] : Call.ends r.key (.event connections
          (.clientDisconnectedUngracefully r.key reason)) = true) h
      have hwills : willsOf r ⟨some s, .event connections
          (.clientDisconnectedUngracefully r.key reason), .ok effects, u⟩ =
            (s.state.lastWillOf r.key).toList :=
        (if_pos ⟨rfl, Watch.stored_some.mpr hr⟩).trans hpublished
      rw [hwills]
      refine ⟨Option.length_toList_le, ?_⟩
      intro p hp
      refine ⟨hr, Option.mem_toList.mp hp, ?_, hends⟩
      intro effects' heffects
      cases heffects
      exact hsilent
    · have hnone : willsOf r ⟨some s, call, .ok effects, u⟩ = [] := by
        rw [List.eq_nil_iff_forall_not_mem]
        intro p hp
        obtain ⟨connections, reason, hsame, hr, -⟩ := mem_willsOf_iff.mp hp
        exact hcall ⟨connections, reason, hsame, hr⟩
      rw [hnone]
      exact ⟨Nat.zero_le 1, fun p hp => absurd hp List.not_mem_nil⟩

end Calls

/-! ## Runs -/

/-- What holds of the last wills of all sessions in a history of calls. -/
structure LastWills (steps : List HistoryStep) : Prop where
  /-- A packet that is published has been published by a client, or is the last will of a session
  that was still stored when its client had gone without a DISCONNECT. -/
  origin : ∀ x ∈ steps, ∀ p ∈ publishedIn x, ∃ s, x.before = some s ∧ Origin s x.event p
  /-- No last will is published twice. -/
  once : ∀ r, (steps.flatMap (willsOf r)).length ≤ 1
  /-- The client itself is not called with its last will, and its session is gone. -/
  own : ∀ r, ∀ x ∈ steps, ∀ p ∈ willsOf r x,
    (∃ s, x.before = some s ∧ s.Stores r ∧ s.state.lastWillOf r.key = some p) ∧
      Silent r.key x ∧ sessionObjects.stored x.after r = false
  /-- No last will is published after the session has ended. -/
  never : ∀ r pre x post, steps = pre ++ x :: post → sessionObjects.stored x.before r = true →
    (x.event.ends r.key = true ∨ sessionObjects.stored x.after r = false) →
      ∀ y ∈ post, willsOf r y = []

section Runs

variable {maxRetries : Nat} {steps : List HistoryStep} {u : Option TrackedManager}

/-- Nobody has connected yet. -/
def nobody (maxRetries : Nat) : TrackedManager := Tracked.start (create maxRetries)

theorem consistent_nobody (maxRetries : Nat) :
    (sessionObjects.view (nobody maxRetries)).Consistent inSession :=
  Tracked.consistent_start fun _ => rfl

/-- The steps of a history are made by session managers that have not failed. -/
theorem exists_before_of_run (h : histories.Run (some (nobody maxRetries)) steps u)
    {x : HistoryStep} (hx : x ∈ steps) : ∃ s, x.before = some s ∧ s.Consistent inSession ∧
      histories.step (some s) x.event = some (x.output, x.after) := by
  obtain ⟨pre, post, hsplit⟩ := List.append_of_mem hx
  obtain ⟨hpre, hstep, -⟩ := h.split hsplit
  obtain ⟨before, call, output, after⟩ := x
  cases before with
  | none => cases hstep
  | some s => exact ⟨s, rfl, Watch.consistent_of_run (consistent_nobody maxRetries) hpre, hstep⟩

/-- The last will of every session is published at most once, when the client of a session that
is stored has gone without a DISCONNECT, and not to the client itself. -/
theorem lastWills_of_run (h : histories.Run (some (nobody maxRetries)) steps u) :
    LastWills steps := by
  have hstart := consistent_nobody maxRetries
  have hstep {x : HistoryStep} (hx : x ∈ steps) (r : Incarnation Bytes) :
      (willsOf r x).length ≤ 1 ∧ ∀ p ∈ willsOf r x,
        (∃ s, x.before = some s ∧ s.Stores r ∧ s.state.lastWillOf r.key = some p) ∧
          Silent r.key x ∧ sessionObjects.stored x.after r = false := by
    obtain ⟨s, hbefore, hs, hnext⟩ := exists_before_of_run h hx
    obtain ⟨before, call, output, after⟩ := x
    cases hbefore
    obtain ⟨hone, hwills⟩ := willsOf_of_step (r := r) hs hnext
    refine ⟨hone, fun p hp => ?_⟩
    obtain ⟨hr, hwill, hsilent, hgone⟩ := hwills p hp
    exact ⟨⟨s, rfl, hr, hwill⟩, hsilent, hgone⟩
  -- a last will is published only while its session is stored
  have hempty {r : Incarnation Bytes} {x : HistoryStep} (hx : x ∈ steps)
      (hstored : sessionObjects.stored x.before r = false) : willsOf r x = [] := by
    rw [List.eq_nil_iff_forall_not_mem]
    intro p hp
    obtain ⟨⟨s, hbefore, hr, -⟩, -⟩ := (hstep hx r).2 p hp
    rw [hbefore, Watch.stored_some_eq_false] at hstored
    exact hstored hr
  refine ⟨?_, ?_, fun r x hx p hp => (hstep hx r).2 p hp, ?_⟩
  · intro x hx p hp
    obtain ⟨s, hbefore, hs, hnext⟩ := exists_before_of_run h hx
    refine ⟨s, hbefore, ?_⟩
    rcases Tracked.machine_step_some hnext with
      ⟨failure, houtput, -⟩ | ⟨effects, m', hinvoke, houtput, -⟩
    · rw [publishedIn, houtput] at hp
      cases hp
    · rw [publishedIn, houtput] at hp
      exact origin_of_invoke hs hinvoke p hp
  · intro r
    refine length_flatMap_le_one (fun x hx => (hstep hx r).1) ?_
    intro pre x post hsplit hne y hy
    have hx : x ∈ steps := by simp [hsplit]
    obtain ⟨p, hp⟩ := List.exists_mem_of_ne_nil _ hne
    obtain ⟨⟨s, hbefore, hr, -⟩, -, hgone⟩ := (hstep hx r).2 p hp
    have hstored : sessionObjects.stored x.before r = true := by
      rw [hbefore]
      exact Watch.stored_some.mpr hr
    have hnot := Watch.not_stored_of_ended (W := sessionObjects) hstart h hsplit hstored hgone y hy
    exact hempty (by simp [hsplit, hy]) hnot
  · intro r pre x post hsplit hstored hends y hy
    have hgone : sessionObjects.stored x.after r = false := by
      rcases hends with hends | hgone
      · obtain ⟨s, -, hs, hnext⟩ := exists_before_of_run h (x := x) (by simp [hsplit])
        exact not_stored_of_ends hs hends hnext
      · exact hgone
    have hnot := Watch.not_stored_of_ended (W := sessionObjects) hstart h hsplit hstored hgone y hy
    exact hempty (by simp [hsplit, hy]) hnot

end Runs

/-- A CONNECT of a client with a last will. -/
def willConnect (clientId : Bytes) : Connect :=
  .create 17 [0x4D, 0x51, 0x54, 0x54] 4 0x06 0 clientId [0x61] [0x62] [] []

/-- A client subscribes to the topic of its own last will and is gone, which is reported twice. -/
def reportedTwice : Option (List HistoryStep × Option TrackedManager) :=
  histories.exec (some (nobody 3)) (List.map (Call.event sampleConnections)
    [.clientConnected (willConnect [0x78]) 0,
      .clientSubscribed [0x78] ⟨6, 1, [⟨[0x61], .atMostOnce, wellFormed_letter⟩]⟩,
      .clientDisconnectedUngracefully [0x78] .networkOrServerFailure,
      .clientDisconnectedUngracefully [0x78] .networkOrServerFailure] ++ [.destroyAll])

theorem reportedTwice_isSome : reportedTwice.isSome = true := rfl

theorem lastWills_reportedTwice : ∃ steps u, histories.Run (some (nobody 3)) steps u ∧
    (steps.flatMap (willsOf ⟨[0x78], 0⟩)).length = 1 ∧ LastWills steps := by
  have hrun := Machine.run_exec (Option.some_get reportedTwice_isSome).symm
  exact ⟨_, _, hrun, by decide, lastWills_of_run hrun⟩

end SessionManager

end Dispatch
end WallyIo
