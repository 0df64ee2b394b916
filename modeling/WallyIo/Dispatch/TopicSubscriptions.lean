import WallyIo.Library.KeyedMaximum
import WallyIo.Protocol.Packet

/-!
# Topic subscriptions

The broker keeps one set with the subscriptions of all clients.  The set is hashed, so
that its elements are visited in an order that nobody controls: a list stands for the
set and that order.  For a PUBLISH the set is searched for subscribers.

Main results:

- Theorem {lit}`mem_resolveSubscribers_iff`: a client is resolved with the greatest
  quality of service of its matching subscriptions.
- Theorem {lit}`resolveSubscribers_perm`: the order of the set changes nothing but the
  order of the subscribers.
- Theorem {lit}`mem_subscribeAll_iff`: what the set holds after a history of SUBSCRIBE
  packets.
- Theorem {lit}`resolveSubscribers_spec`: whom a search finds, and with which quality of
  service, in every order of the set.
-/

namespace WallyIo
namespace Dispatch

open Protocol Library

/-! ## Topic filters -/

/-- The loop over topic filter and topic: the result that is returned from inside of it,
or what is left of both when one is exhausted. -/
def topicFilterLoop : Bytes → Bytes → Bool ⊕ (Bytes × Bytes)
  | [], topic => .inr ([], topic)
  | topicFilter, [] => .inr (topicFilter, [])
  | tfChar :: topicFilter, tChar :: topic =>
      if tfChar = 0x2B then
        -- a single-level wildcard matches an empty level, too
        topicFilterLoop topicFilter
          (if tChar ≠ 0x2F then (tChar :: topic).dropWhile (· ≠ 0x2F) else tChar :: topic)
      else if tfChar = 0x23 then .inl true
      else if tChar ≠ tfChar then .inl false
      else topicFilterLoop topicFilter topic

/-- Whether a topic filter, which is not empty, matches a topic.  A multi-level wildcard
matches the parent level, too. -/
def topicFilterMatchesTopic (topicFilter topic : Bytes) : Bool :=
  match topicFilterLoop topicFilter topic with
  | .inl result => result
  | .inr (filterRest, topicRest) =>
      if topicRest = [] ∧ filterRest = [] then true
      else decide (topicFilter.length - filterRest.length < topicFilter.length - 1) &&
        topicFilter.drop (topicFilter.length - 2) == [0x2F, 0x23]

/-! ## The set of subscriptions -/

/-- A subscription of a client. -/
structure SubscriptionContainer where
  topicFilter : Bytes
  maximumQos : QoS
  clientId : Bytes
deriving DecidableEq, Repr

/-- Whether the subscription is for a topic. -/
def SubscriptionContainer.isFor (subscr : SubscriptionContainer) (topic : Bytes) : Bool :=
  topicFilterMatchesTopic subscr.topicFilter topic

/-- The set of subscriptions in the order of iteration. -/
structure TopicSubscriptions where
  subscriptions : List SubscriptionContainer
  nodup : subscriptions.Nodup

namespace TopicSubscriptions

/-- No subscriptions. -/
def empty : TopicSubscriptions := ⟨[], List.nodup_nil⟩

variable (t : TopicSubscriptions)

/-- Add a subscription, unless the set has it already. -/
def emplace (subscr : SubscriptionContainer) : TopicSubscriptions :=
  ⟨t.subscriptions.insert subscr, t.nodup.insert⟩

/-- The loop over the subscriptions of a SUBSCRIBE. -/
def emplaceAll (clientId : Bytes) : List Subscription → TopicSubscriptions → TopicSubscriptions
  | [], t => t
  | subscr :: rest, t =>
      emplaceAll clientId rest (t.emplace ⟨subscr.topicFilter, subscr.maximumQos, clientId⟩)

/-- A client subscribes. -/
def subscribe (clientId : Bytes) (subscribe : Subscribe) : Suback × TopicSubscriptions :=
  (subscribe.succeed, t.emplaceAll clientId subscribe.subscriptions)

/-- A client unsubscribes.  The subscriptions of all clients are searched. -/
def unsubscribe (_clientId : Bytes) (unsubscribe : Unsubscribe) :
    Unsuback × TopicSubscriptions :=
  (unsubscribe.ack,
    ⟨t.subscriptions.filter fun subscr => subscr.topicFilter ∉ unsubscribe.topicFilters,
      t.nodup.filter _⟩)

/-- The subscribers of a topic, each with the greatest quality of service of its matching
subscriptions. -/
def resolveSubscribers (publish : Publish) : List (Bytes × QoS) :=
  KeyedMaximum.collect
    ((t.subscriptions.filter (·.isFor publish.topic)).map fun subscr =>
      (subscr.clientId, subscr.maximumQos))

/-- The same set in another order. -/
def reorder (order : List SubscriptionContainer) (h : order.Perm t.subscriptions) :
    TopicSubscriptions :=
  ⟨order, h.nodup_iff.mpr t.nodup⟩

/-! ## What the set holds -/

variable {t} {s : SubscriptionContainer}

@[simp]
theorem mem_emplace {subscr : SubscriptionContainer} :
    s ∈ (t.emplace subscr).subscriptions ↔ s = subscr ∨ s ∈ t.subscriptions :=
  List.mem_insert_iff

/-- The subscription of a client that a SUBSCRIBE asks for. -/
def requested (clientId : Bytes) (subscr : Subscription) : SubscriptionContainer :=
  ⟨subscr.topicFilter, subscr.maximumQos, clientId⟩

theorem mem_emplaceAll {clientId : Bytes} {subscriptions : List Subscription} :
    s ∈ (t.emplaceAll clientId subscriptions).subscriptions ↔
      s ∈ t.subscriptions ∨ ∃ subscr ∈ subscriptions, s = requested clientId subscr := by
  induction subscriptions generalizing t with
  | nil => simp [emplaceAll]
  | cons subscr rest ih =>
      rw [emplaceAll, ih, mem_emplace]
      simp only [List.mem_cons, exists_eq_or_imp]
      constructor
      · rintro ((hs | hs) | hs)
        · exact Or.inr (Or.inl hs)
        · exact Or.inl hs
        · exact Or.inr (Or.inr hs)
      · rintro (hs | hs | hs)
        · exact Or.inl (Or.inr hs)
        · exact Or.inl (Or.inl hs)
        · exact Or.inr hs

/-- The set after a history of SUBSCRIBE packets, each with the client that sent it. -/
def subscribeAll (history : List (Bytes × Subscribe)) : TopicSubscriptions :=
  history.foldl (fun t e => (t.subscribe e.1 e.2).2) empty

/-- The qualities of service of a client's subscriptions that match a topic. -/
def matchingQos (t : TopicSubscriptions) (clientId topic : Bytes) : Set QoS :=
  {qos | ∃ s ∈ t.subscriptions, s.clientId = clientId ∧ s.isFor topic = true ∧
    s.maximumQos = qos}

variable {publish : Publish} {clientId : Bytes} {qos : QoS}

/-- A client is resolved with the greatest quality of service of its matching
subscriptions. -/
theorem mem_resolveSubscribers_iff :
    (clientId, qos) ∈ t.resolveSubscribers publish ↔
      IsGreatest (t.matchingQos clientId publish.topic) qos := by
  rw [resolveSubscribers, KeyedMaximum.mem_collect_iff]
  have hset : {w | (clientId, w) ∈ (t.subscriptions.filter (·.isFor publish.topic)).map
      fun subscr => (subscr.clientId, subscr.maximumQos)} =
        t.matchingQos clientId publish.topic := by
    ext w
    simp [matchingQos, and_assoc, and_left_comm]
  rw [hset]

/-- No client is resolved twice. -/
theorem nodup_resolveSubscribers :
    ((t.resolveSubscribers publish).map Prod.fst).Nodup :=
  KeyedMaximum.nodup_keys_collect _

/-- The order of the set changes nothing but the order of the subscribers. -/
theorem resolveSubscribers_perm {t' : TopicSubscriptions}
    (h : t.subscriptions.Perm t'.subscriptions) :
    (t.resolveSubscribers publish).Perm (t'.resolveSubscribers publish) :=
  KeyedMaximum.collect_perm ((h.filter _).map _)

/-- One turn of the loop over the set: the subscriber of a subscription that matches is looked
for among those found so far, and raised or appended. -/
def resolveInto (topic : Bytes) (resolved : List (Bytes × QoS)) (subscr : SubscriptionContainer) :
    List (Bytes × QoS) :=
  if !subscr.isFor topic then resolved
  else KeyedMaximum.raise subscr.clientId subscr.maximumQos resolved

/-- The subscribers are found by this loop. -/
theorem resolveSubscribers_eq_foldl (t : TopicSubscriptions) (publish : Publish) :
    t.resolveSubscribers publish = t.subscriptions.foldl (resolveInto publish.topic) [] := by
  rw [resolveSubscribers, KeyedMaximum.collect, List.foldl_map, List.foldl_filter]
  congr 1
  funext resolved subscr
  cases h : subscr.isFor publish.topic <;> simp [resolveInto, h]

/-- A client is found exactly if one of its subscriptions matches. -/
theorem mem_keys_resolveSubscribers_iff :
    clientId ∈ (t.resolveSubscribers publish).map Prod.fst ↔
      ∃ s ∈ t.subscriptions, s.clientId = clientId ∧ s.isFor publish.topic = true := by
  rw [resolveSubscribers, KeyedMaximum.mem_keys_collect_iff]
  simp only [List.mem_map, List.mem_filter, Prod.mk.injEq]
  constructor
  · rintro ⟨qos, s, ⟨hs, hmatches⟩, hclient, -⟩
    exact ⟨s, hs, hclient, hmatches⟩
  · rintro ⟨s, hs, hclient, hmatches⟩
    exact ⟨s.maximumQos, s, ⟨hs, hmatches⟩, hclient, rfl⟩

/-- A search finds no client twice, finds exactly the clients with a matching subscription, each
with the greatest quality of service of its matching subscriptions, and finds them in every order
of the set. -/
theorem resolveSubscribers_spec (t : TopicSubscriptions) (publish : Publish) :
    ((t.resolveSubscribers publish).map Prod.fst).Nodup ∧
    (∀ clientId, clientId ∈ (t.resolveSubscribers publish).map Prod.fst ↔
      ∃ s ∈ t.subscriptions, s.clientId = clientId ∧ s.isFor publish.topic = true) ∧
    (∀ clientId qos, (clientId, qos) ∈ t.resolveSubscribers publish ↔
      IsGreatest (t.matchingQos clientId publish.topic) qos) ∧
    ∀ order (h : order.Perm t.subscriptions),
      ((t.reorder order h).resolveSubscribers publish).Perm (t.resolveSubscribers publish) :=
  ⟨nodup_resolveSubscribers, fun _ => mem_keys_resolveSubscribers_iff,
    fun _ _ => mem_resolveSubscribers_iff, fun _ h => resolveSubscribers_perm h⟩

end TopicSubscriptions

end Dispatch
end WallyIo
