import WallyIo.Dispatch.TopicSubscriptions
import WallyIo.Protocol.Publish

/-!
# Retained messages

For every topic the broker keeps the last message that was to be retained, unless that
message was empty.  The messages are hashed by their topics: a list stands for them and
for the order in which they are visited.

Main results:

- Theorem {lit}`mem_retain_iff`: what is kept after one more message.
- Theorem {lit}`mem_messagesFor_iff`: a message is found with the greatest quality of
  service of the subscriptions that match its topic.
-/

namespace WallyIo
namespace Dispatch

open Protocol Library

/-- The retained messages in the order of iteration.  No topic has two of them. -/
structure RetainedMessages where
  messages : List Publish
  nodup : (messages.map Publish.topic).Nodup

namespace RetainedMessages

/-- No messages. -/
def empty : RetainedMessages := ⟨[], List.nodup_nil⟩

variable (t : RetainedMessages)

/-- Forget the message of a topic. -/
def erase (topic : Bytes) : RetainedMessages :=
  ⟨t.messages.filter (·.topic ≠ topic), t.nodup.sublist (List.filter_sublist.map _)⟩

/-- Keep a message instead of that of its topic. -/
def assign (publish : Publish) : RetainedMessages :=
  ⟨publish :: (t.erase publish.topic).messages, by
    rw [List.map_cons, List.nodup_cons]
    refine ⟨?_, (t.erase publish.topic).nodup⟩
    simp [erase]⟩

/-- Retain a message.  An empty message removes the one that is kept. -/
def retain (incomingPublish : Publish) : Except Fault RetainedMessages := do
  assert incomingPublish.retain
  if incomingPublish.applicationMessage.length > 0 then .ok (t.assign incomingPublish)
  else .ok (t.erase incomingPublish.topic)

/-- The messages that match a SUBSCRIBE, each with the greatest quality of service of the
subscriptions that match its topic. -/
def messagesFor (subscribe : Subscribe) : List (Publish × QoS) :=
  KeyedMaximum.collect
    (t.messages.flatMap fun publish =>
      (subscribe.subscriptions.filter fun subscr =>
        topicFilterMatchesTopic subscr.topicFilter publish.topic).map fun subscr =>
          (publish, subscr.maximumQos))

/-- The kept message of a topic has been changed by the session that it was published
to. -/
def update (publish : Publish) : RetainedMessages :=
  ⟨t.messages.map fun kept => if kept.topic = publish.topic then publish else kept, by
    have htopics : (t.messages.map fun kept =>
        if kept.topic = publish.topic then publish else kept).map Publish.topic =
          t.messages.map Publish.topic := by
      rw [List.map_map]
      apply List.map_congr_left
      intro kept _
      by_cases h : kept.topic = publish.topic
      · simp [h]
      · simp [h]
    rw [htopics]
    exact t.nodup⟩

/-- The same messages in another order. -/
def reorder (order : List Publish) (h : order.Perm t.messages) : RetainedMessages :=
  ⟨order, (h.map _).nodup_iff.mpr t.nodup⟩

variable {t} {p publish : Publish} {qos : QoS}

/-- What is kept after one more message. -/
theorem mem_retain_iff {t' : RetainedMessages} (h : t.retain publish = .ok t') :
    p ∈ t'.messages ↔
      (p = publish ∧ 0 < publish.applicationMessage.length) ∨
        (p ∈ t.messages ∧ p.topic ≠ publish.topic) := by
  rcases assert_bind_eq_ok_iff.mp h with ⟨-, hresult⟩
  split at hresult
  · rename_i hpos
    cases hresult
    simp [assign, erase, hpos]
  · rename_i hempty
    cases hresult
    simp [erase, hempty]

/-- A message is found with the greatest quality of service of the subscriptions that
match its topic. -/
theorem mem_messagesFor_iff {subscribe : Subscribe} :
    (p, qos) ∈ t.messagesFor subscribe ↔
      p ∈ t.messages ∧
        IsGreatest {q | ∃ subscr ∈ subscribe.subscriptions,
          topicFilterMatchesTopic subscr.topicFilter p.topic = true ∧
            subscr.maximumQos = q} qos := by
  rw [messagesFor, KeyedMaximum.mem_collect_iff]
  by_cases hp : p ∈ t.messages
  · have hset : {w | (p, w) ∈ t.messages.flatMap fun publish =>
        (subscribe.subscriptions.filter fun subscr =>
          topicFilterMatchesTopic subscr.topicFilter publish.topic).map fun subscr =>
            (publish, subscr.maximumQos)} =
        {q | ∃ subscr ∈ subscribe.subscriptions,
          topicFilterMatchesTopic subscr.topicFilter p.topic = true ∧
            subscr.maximumQos = q} := by
      ext w
      simp [hp, and_assoc]
    rw [hset]
    simp [hp]
  · have hset : {w | (p, w) ∈ t.messages.flatMap fun publish =>
        (subscribe.subscriptions.filter fun subscr =>
          topicFilterMatchesTopic subscr.topicFilter publish.topic).map fun subscr =>
            (publish, subscr.maximumQos)} = ∅ := by
      ext w
      simp [hp]
    rw [hset]
    simp [hp, IsGreatest]

end RetainedMessages

end Dispatch
end WallyIo
