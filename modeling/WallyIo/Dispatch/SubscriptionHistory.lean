import WallyIo.Dispatch.TopicSubscriptions

/-!
# Histories of subscriptions

Clients subscribe and unsubscribe.  The set of subscriptions tells neither which
SUBSCRIBE an element comes from nor which client an UNSUBSCRIBE comes from.

Main results:

- Theorem {lit}`onlyTouches_iff`: an UNSUBSCRIBE touches its sender only, exactly if no
  other client has subscribed to one of its topic filters.
- Theorem {lit}`obeysLastSuback_iff`: a client is served as its last SUBACK says, exactly
  if it never asks for another quality of service of a topic filter that it holds.
-/

namespace WallyIo
namespace Dispatch

open Protocol

namespace TopicSubscriptions

/-! ## Unsubscribing -/

variable {t : TopicSubscriptions} {s : SubscriptionContainer}

/-- An UNSUBSCRIBE removes subscriptions to its topic filters. -/
theorem mem_unsubscribe_iff {clientId : Bytes} {u : Unsubscribe} :
    s ∈ (t.unsubscribe clientId u).2.subscriptions ↔
      s ∈ t.subscriptions ∧ s.topicFilter ∉ u.topicFilters := by
  simp [unsubscribe]

/-- What an UNSUBSCRIBE of a client may change. -/
structure OnlyTouches (clientId : Bytes) (u : Unsubscribe) (before after : TopicSubscriptions) :
    Prop where
  /-- The client holds no subscription to any of the topic filters. -/
  removed : ∀ s ∈ after.subscriptions, s.clientId = clientId →
    s.topicFilter ∉ u.topicFilters
  /-- Its other subscriptions are unchanged. -/
  kept : ∀ s, s.clientId = clientId → s.topicFilter ∉ u.topicFilters →
    (s ∈ after.subscriptions ↔ s ∈ before.subscriptions)
  /-- The subscriptions of every other client are what they were. -/
  others : ∀ s, s.clientId ≠ clientId →
    (s ∈ after.subscriptions ↔ s ∈ before.subscriptions)

/-- An UNSUBSCRIBE touches its sender only, exactly if no other client has subscribed to
one of its topic filters. -/
theorem onlyTouches_iff (t : TopicSubscriptions) (clientId : Bytes) (u : Unsubscribe) :
    OnlyTouches clientId u t (t.unsubscribe clientId u).2 ↔
      ∀ s ∈ t.subscriptions, s.topicFilter ∈ u.topicFilters → s.clientId = clientId := by
  constructor
  · intro h s hs hfilter
    by_contra hclient
    have hkept := (h.others s hclient).mpr hs
    exact (mem_unsubscribe_iff.mp hkept).2 hfilter
  · intro h
    refine ⟨?_, ?_, ?_⟩
    · intro s hs _
      exact (mem_unsubscribe_iff.mp hs).2
    · intro s _ hfilter
      rw [mem_unsubscribe_iff]
      exact and_iff_left hfilter
    · intro s hclient
      rw [mem_unsubscribe_iff]
      constructor
      · exact And.left
      · intro hs
        exact ⟨hs, fun hfilter => hclient (h s hs hfilter)⟩

/-- A SUBSCRIBE for the topic filter {lit}`a` with quality of service 1. -/
def sampleSubscribe : Subscribe := ⟨6, 1, [⟨[0x61], .atLeastOnce, by decide⟩]⟩

/-- Two clients have subscribed to the topic filter {lit}`a`. -/
def sharedFilter : TopicSubscriptions :=
  subscribeAll [([0x78], sampleSubscribe), ([0x79], sampleSubscribe)]

/-- When one of them unsubscribes, the other one loses its subscription. -/
theorem not_onlyTouches_sharedFilter :
    ¬ OnlyTouches [0x78] ⟨5, 2, [[0x61]]⟩ sharedFilter
      (sharedFilter.unsubscribe [0x78] ⟨5, 2, [[0x61]]⟩).2 := by
  intro h
  have hbefore : (⟨[0x61], .atLeastOnce, [0x79]⟩ : SubscriptionContainer) ∈
      sharedFilter.subscriptions := by decide
  have hafter := (h.others _ (by decide)).mpr hbefore
  revert hafter
  decide

/-! ## What a client has been granted -/

/-- A packet of a client that concerns its subscriptions. -/
inductive Request
  | subscribe (packet : Subscribe)
  | unsubscribe (packet : Unsubscribe)
deriving DecidableEq, Repr

/-- Process a packet of a client. -/
def perform (clientId : Bytes) (t : TopicSubscriptions) : Request → TopicSubscriptions
  | .subscribe packet => (t.subscribe clientId packet).2
  | .unsubscribe packet => (t.unsubscribe clientId packet).2

/-- The set after the packets of one client. -/
def performAll (clientId : Bytes) (history : List Request) : TopicSubscriptions :=
  history.foldl (perform clientId) empty

/-- What a SUBSCRIBE asks for a topic filter, each with the return code in its SUBACK. -/
def answersFor (topicFilter : Bytes) (subscribe : Subscribe) :
    List (QoS × SubackReturnCode) :=
  ((subscribe.subscriptions.zip subscribe.succeed.returnCodes).filter
    fun e => e.1.topicFilter = topicFilter).map fun e => (e.1.maximumQos, e.2)

/-- What a packet leaves of the requests for a topic filter. -/
def standingAfter (topicFilter : Bytes) (standing : List (QoS × SubackReturnCode)) :
    Request → List (QoS × SubackReturnCode)
  | .subscribe packet => standing ++ answersFor topicFilter packet
  | .unsubscribe packet => if packet.topicFilters.contains topicFilter then [] else standing

/-- The requests for a topic filter since the client has last unsubscribed from it, each
with the return code that answers it. -/
def standing (topicFilter : Bytes) (history : List Request) :
    List (QoS × SubackReturnCode) :=
  history.foldl (standingAfter topicFilter) []

/-- The quality of service that the most recent SUBACK grants for a topic filter. -/
def lastGranted (topicFilter : Bytes) (history : List Request) : Option QoS :=
  (standing topicFilter history).getLast?.bind fun e => e.2.granted

/-- Whether all requests of a packet have a quality of service of 0, 1 or 2. -/
def Request.Legal : Request → Prop
  | .subscribe packet => ∀ subscr ∈ packet.subscriptions, subscr.maximumQos ≠ .reserved
  | .unsubscribe _ => True

/-- A client is served as its last SUBACK says. -/
structure ObeysLastSuback (clientId : Bytes) (history : List Request) : Prop where
  /-- The search finds the client with the greatest quality of service that was last
  granted for a matching topic filter, whatever the order of the set. -/
  resolved : ∀ (t : TopicSubscriptions) (publish : Publish) (qos : QoS),
    t.subscriptions.Perm (performAll clientId history).subscriptions →
      ((clientId, qos) ∈ t.resolveSubscribers publish ↔
        IsGreatest {q | ∃ topicFilter,
          topicFilterMatchesTopic topicFilter publish.topic = true ∧
            lastGranted topicFilter history = some q} qos)
  /-- The client holds one subscription per topic filter. -/
  unique : ∀ s ∈ (performAll clientId history).subscriptions,
    ∀ s' ∈ (performAll clientId history).subscriptions,
      s.topicFilter = s'.topicFilter → s = s'

/-- All requests for a topic filter since the client has last unsubscribed from it ask for
the same quality of service. -/
def Consistent (history : List Request) : Prop :=
  ∀ topicFilter, ∀ e ∈ standing topicFilter history, ∀ e' ∈ standing topicFilter history,
    e.1 = e'.1

variable {clientId topicFilter : Bytes} {history : List Request}

/-- Every subscription of a SUBSCRIBE is answered according to its quality of service. -/
theorem mem_answersFor_iff {subscribe : Subscribe} {qos : QoS} {code : SubackReturnCode} :
    (qos, code) ∈ answersFor topicFilter subscribe ↔
      code = returnCodeFor qos ∧ ∃ subscr ∈ subscribe.subscriptions,
        subscr.topicFilter = topicFilter ∧ subscr.maximumQos = qos := by
  have hzip : subscribe.subscriptions.zip subscribe.succeed.returnCodes =
      subscribe.subscriptions.map fun subscr => (subscr, returnCodeFor subscr.maximumQos) := by
    rw [Subscribe.succeed]
    induction subscribe.subscriptions with
    | nil => rfl
    | cons subscr rest ih => simp [ih]
  rw [answersFor, hzip]
  simp only [List.mem_map, List.mem_filter, decide_eq_true_eq, Prod.mk.injEq]
  constructor
  · rintro ⟨e, ⟨⟨subscr, hsubscr, rfl⟩, hfilter⟩, rfl, rfl⟩
    exact ⟨rfl, subscr, hsubscr, hfilter, rfl⟩
  · rintro ⟨rfl, subscr, hsubscr, hfilter, rfl⟩
    exact ⟨_, ⟨⟨subscr, hsubscr, rfl⟩, hfilter⟩, rfl, rfl⟩

/-- The set holds the standing requests of the client. -/
theorem mem_performAll_iff :
    s ∈ (performAll clientId history).subscriptions ↔
      s.clientId = clientId ∧
        (s.maximumQos, returnCodeFor s.maximumQos) ∈ standing s.topicFilter history := by
  induction history using List.reverseRecOn with
  | nil => simp [performAll, standing, empty]
  | append_singleton history request ih =>
      rw [performAll, List.foldl_append, List.foldl_cons, List.foldl_nil, ← performAll,
        standing, List.foldl_append, List.foldl_cons, List.foldl_nil, ← standing]
      cases request with
      | subscribe packet =>
          rw [perform, TopicSubscriptions.subscribe, mem_emplaceAll, ih, standingAfter,
            List.mem_append, mem_answersFor_iff]
          constructor
          · rintro (⟨hclient, hstanding⟩ | ⟨subscr, hsubscr, rfl⟩)
            · exact ⟨hclient, Or.inl hstanding⟩
            · exact ⟨rfl, Or.inr ⟨rfl, subscr, hsubscr, rfl, rfl⟩⟩
          · rintro ⟨rfl, hstanding | ⟨-, subscr, hsubscr, hfilter, hqos⟩⟩
            · exact Or.inl ⟨rfl, hstanding⟩
            · refine Or.inr ⟨subscr, hsubscr, ?_⟩
              rw [requested, hfilter, hqos]
      | unsubscribe packet =>
          rw [perform, mem_unsubscribe_iff, ih, standingAfter]
          by_cases hfilter : s.topicFilter ∈ packet.topicFilters
          · simp [hfilter]
          · simp [hfilter]

/-- A standing request has been answered according to its quality of service. -/
theorem code_of_standing {e : QoS × SubackReturnCode}
    (h : e ∈ standing topicFilter history) : e.2 = returnCodeFor e.1 := by
  induction history using List.reverseRecOn with
  | nil => simp [standing] at h
  | append_singleton history request ih =>
      rw [standing, List.foldl_append, List.foldl_cons, List.foldl_nil, ← standing] at h
      cases request with
      | subscribe packet =>
          rcases List.mem_append.mp h with hbefore | hanswer
          · exact ih hbefore
          · exact (mem_answersFor_iff.mp hanswer).1
      | unsubscribe packet =>
          rw [standingAfter] at h
          split at h
          · cases h
          · exact ih h

/-- Standing requests are legal if all requests are. -/
theorem ne_reserved_of_standing (hlegal : ∀ request ∈ history, request.Legal)
    {e : QoS × SubackReturnCode} (h : e ∈ standing topicFilter history) :
    e.1 ≠ .reserved := by
  induction history using List.reverseRecOn with
  | nil => simp [standing] at h
  | append_singleton history request ih =>
      rw [standing, List.foldl_append, List.foldl_cons, List.foldl_nil, ← standing] at h
      have hbefore := ih fun request hrequest => hlegal request (List.mem_append_left _ hrequest)
      have hlast := hlegal request (List.mem_append_right _ (List.mem_singleton.mpr rfl))
      cases request with
      | subscribe packet =>
          rcases List.mem_append.mp h with h | hanswer
          · exact hbefore h
          · rcases (mem_answersFor_iff.mp hanswer).2 with ⟨subscr, hsubscr, -, hqos⟩
            rw [← hqos]
            exact hlast subscr hsubscr
      | unsubscribe packet =>
          rw [standingAfter] at h
          split at h
          · cases h
          · exact hbefore h

/-- If the standing requests for a topic filter ask for the same, the last SUBACK grants
what is asked for. -/
theorem lastGranted_iff (hlegal : ∀ request ∈ history, request.Legal)
    (hconsistent : Consistent history) {qos : QoS} :
    lastGranted topicFilter history = some qos ↔
      (qos, returnCodeFor qos) ∈ standing topicFilter history := by
  rw [lastGranted, Option.bind_eq_some_iff]
  constructor
  · rintro ⟨e, he, hgranted⟩
    have hmem := List.mem_of_getLast? he
    have hcode := code_of_standing hmem
    rw [hcode, granted_iff] at hgranted
    rw [← hgranted.1, ← hcode]
    exact hmem
  · intro hmem
    cases hlast : (standing topicFilter history).getLast? with
    | none =>
        rw [List.getLast?_eq_none_iff.mp hlast] at hmem
        cases hmem
    | some e =>
        have he := List.mem_of_getLast? hlast
        have hsame : e.1 = qos := hconsistent topicFilter e he _ hmem
        refine ⟨e, rfl, ?_⟩
        rw [code_of_standing he, granted_iff]
        exact ⟨hsame, ne_reserved_of_standing hlegal he⟩

/-- A client is served as its last SUBACK says, exactly if it never asks for another
quality of service of a topic filter that it holds. -/
theorem obeysLastSuback_iff (clientId : Bytes)
    (hlegal : ∀ request ∈ history, request.Legal) :
    ObeysLastSuback clientId history ↔ Consistent history := by
  constructor
  · intro h topicFilter e he e' he'
    have hmem : ∀ e ∈ standing topicFilter history,
        (⟨topicFilter, e.1, clientId⟩ : SubscriptionContainer) ∈
          (performAll clientId history).subscriptions := by
      intro e he
      refine mem_performAll_iff.mpr ⟨rfl, ?_⟩
      rw [← code_of_standing he]
      exact he
    have hsame := h.unique _ (hmem e he) _ (hmem e' he') rfl
    exact congrArg SubscriptionContainer.maximumQos hsame
  · intro h
    refine ⟨?_, ?_⟩
    · intro t publish qos hperm
      have hset : t.matchingQos clientId publish.topic =
          {q | ∃ topicFilter, topicFilterMatchesTopic topicFilter publish.topic = true ∧
            lastGranted topicFilter history = some q} := by
        ext q
        simp only [matchingQos, Set.mem_ofPred_eq, hperm.mem_iff, mem_performAll_iff]
        constructor
        · rintro ⟨s, ⟨-, hstanding⟩, -, hmatches, rfl⟩
          exact ⟨s.topicFilter, hmatches, (lastGranted_iff hlegal h).mpr hstanding⟩
        · rintro ⟨topicFilter, hmatches, hgranted⟩
          exact ⟨⟨topicFilter, q, clientId⟩,
            ⟨rfl, (lastGranted_iff hlegal h).mp hgranted⟩, rfl, hmatches, rfl⟩
      rw [mem_resolveSubscribers_iff, hset]
    · intro s hs s' hs' hfilter
      rcases mem_performAll_iff.mp hs with ⟨hclient, hstanding⟩
      rcases mem_performAll_iff.mp hs' with ⟨hclient', hstanding'⟩
      rw [← hfilter] at hstanding'
      have hqos : s.maximumQos = s'.maximumQos := h _ _ hstanding _ hstanding'
      cases s
      cases s'
      simp_all

/-- A client subscribes to two topic filters and asks once more for what it has. -/
def steadyHistory : List Request :=
  [.subscribe ⟨6, 1, [⟨[0x61], .atLeastOnce, by decide⟩]⟩,
    .unsubscribe ⟨5, 2, [[0x61]]⟩,
    .subscribe ⟨10, 3, [⟨[0x61], .exactlyOnce, by decide⟩, ⟨[0x2B], .atMostOnce, by decide⟩]⟩,
    .subscribe ⟨6, 4, [⟨[0x61], .exactlyOnce, by decide⟩]⟩]

theorem obeysLastSuback_steadyHistory :
    ObeysLastSuback [0x78] steadyHistory ↔ Consistent steadyHistory :=
  obeysLastSuback_iff [0x78] (by
    intro request hrequest
    simp only [steadyHistory, List.mem_cons, List.not_mem_nil, or_false] at hrequest
    rcases hrequest with rfl | rfl | rfl | rfl
    · simp [Request.Legal]
    · trivial
    · simp [Request.Legal]
    · simp [Request.Legal])

/-- A client asks for less than before. -/
def downgradeHistory : List Request :=
  [.subscribe ⟨6, 1, [⟨[0x61], .exactlyOnce, by decide⟩]⟩,
    .subscribe ⟨6, 2, [⟨[0x61], .atMostOnce, by decide⟩]⟩]

/-- The client holds both subscriptions, and the greater one counts. -/
theorem not_obeysLastSuback_downgradeHistory :
    lastGranted [0x61] downgradeHistory = some .atMostOnce ∧
      ¬ ObeysLastSuback [0x78] downgradeHistory := by
  refine ⟨by decide, fun h => ?_⟩
  have hsame := h.unique ⟨[0x61], .exactlyOnce, [0x78]⟩ (by decide)
    ⟨[0x61], .atMostOnce, [0x78]⟩ (by decide) rfl
  revert hsame
  decide

end TopicSubscriptions

end Dispatch
end WallyIo
