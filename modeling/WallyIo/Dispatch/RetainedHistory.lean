import WallyIo.Dispatch.RetainedMessages

/-!
# Retained messages and their history

The store of retained messages holds references to PUBLISH packets, and a search tells
them apart by identity.  Here the references are kept: what a reference points to is a
parameter, and two references may point to equal packets.

Main results:

- Theorem {lit}`holds_retainAll`: the store holds the last packet that was retained for each
  topic, unless its message is empty.
- Theorem {lit}`messagesFor_retainAll`: what a search finds after any history.
- Theorem {lit}`messagesFor_content`: the packets that a search finds are those which the store of
  packets finds.
-/

namespace WallyIo
namespace Dispatch

open Protocol Library

/-- The retained messages, as references under the topics of their packets, in the order of
iteration.  No topic has two of them. -/
structure MessageStore {ρ : Type} (packet : ρ → Publish) where
  messages : List (Bytes × ρ)
  keyed : ∀ e ∈ messages, e.1 = (packet e.2).topic
  nodup : (messages.map Prod.fst).Nodup

namespace MessageStore

variable {ρ : Type} {packet : ρ → Publish}

/-- No messages. -/
def empty : MessageStore packet := ⟨[], nofun, List.nodup_nil⟩

variable (t : MessageStore packet)

/-- Forget the message of a topic. -/
def erase (topic : Bytes) : MessageStore packet where
  messages := t.messages.filter (·.1 ≠ topic)
  keyed e he := t.keyed e (List.mem_filter.mp he).1
  nodup := t.nodup.sublist (List.filter_sublist.map _)

/-- Keep a message instead of that of its topic. -/
def assign (publish : ρ) : MessageStore packet where
  messages := ((packet publish).topic, publish) :: (t.erase (packet publish).topic).messages
  keyed e he := by
    rcases List.mem_cons.mp he with rfl | he
    · rfl
    · exact (t.erase _).keyed e he
  nodup := by
    rw [List.map_cons, List.nodup_cons]
    refine ⟨?_, (t.erase _).nodup⟩
    simp [erase]

/-- Retain a message.  An empty message removes the one that is kept. -/
def retain (incomingPublish : ρ) : Except Fault (MessageStore packet) := do
  assert (packet incomingPublish).retain
  if (packet incomingPublish).applicationMessage.length > 0 then .ok (t.assign incomingPublish)
  else .ok (t.erase (packet incomingPublish).topic)

/-- Retain one message after the other. -/
def retainAll (history : List ρ) : Except Fault (MessageStore packet) :=
  history.foldlM retain empty

/-- The same messages in another order. -/
def reorder (order : List (Bytes × ρ)) (h : order.Perm t.messages) : MessageStore packet where
  messages := order
  keyed e he := t.keyed e (h.mem_iff.mp he)
  nodup := (h.map _).nodup_iff.mpr t.nodup

/-- Whether a reference is kept for a topic. -/
def Holds (topic : Bytes) (publish : ρ) : Prop := (topic, publish) ∈ t.messages

section Search

variable [DecidableEq ρ]

/-- One turn of the loop over the subscriptions of a SUBSCRIBE: a packet whose topic matches is
looked for among those found so far, and raised or appended. -/
def resolveInto (topicPublish : Bytes × ρ) (resolved : List (ρ × QoS)) (subscr : Subscription) :
    List (ρ × QoS) :=
  if !topicFilterMatchesTopic subscr.topicFilter topicPublish.1 then resolved
  else KeyedMaximum.raise topicPublish.2 subscr.maximumQos resolved

/-- The loop over the messages. -/
def messagesFor (subscribe : Subscribe) : List (ρ × QoS) :=
  t.messages.foldl
    (fun resolved topicPublish =>
      subscribe.subscriptions.foldl (resolveInto topicPublish) resolved) []

end Search

/-! ## What the store holds -/

variable {t} {history : List ρ} {topic : Bytes} {p publish : ρ}

/-- The last of the packets for a topic. -/
def lastFor (packet : ρ → Publish) (history : List ρ) (topic : Bytes) : Option ρ :=
  (history.filter fun p => (packet p).topic = topic).getLast?

theorem lastFor_append_singleton :
    lastFor packet (history ++ [publish]) topic =
      if (packet publish).topic = topic then some publish else lastFor packet history topic := by
  by_cases h : (packet publish).topic = topic
  · simp [lastFor, List.filter_append, h]
  · simp [lastFor, List.filter_append, h]

/-- The last packet for a topic is one for this topic. -/
theorem topic_of_lastFor (h : lastFor packet history topic = some p) :
    (packet p).topic = topic := by
  have hmem := (List.mem_filter.mp (List.mem_of_getLast? h)).2
  exact of_decide_eq_true hmem

/-- What is kept after one more message. -/
theorem holds_retain {t' : MessageStore packet} (h : t.retain publish = .ok t') :
    t'.Holds topic p ↔
      if (packet publish).topic = topic then
        p = publish ∧ 0 < (packet publish).applicationMessage.length
      else t.Holds topic p := by
  rcases assert_bind_eq_ok_iff.mp h with ⟨-, hresult⟩
  by_cases htopic : (packet publish).topic = topic
  · subst htopic
    split at hresult
    · rename_i hpos
      cases hresult
      simp [Holds, assign, erase, hpos]
    · rename_i hempty
      cases hresult
      simp [Holds, erase, hempty]
  · have htopic' : topic ≠ (packet publish).topic := fun h => htopic h.symm
    split at hresult
    · cases hresult
      simp [Holds, assign, erase, htopic, htopic']
    · cases hresult
      simp [Holds, erase, htopic, htopic']

/-- Packets that are to be retained are, one after the other. -/
theorem exists_retainAll (h : ∀ p ∈ history, (packet p).retain = true) :
    ∃ t : MessageStore packet, retainAll history = .ok t := by
  induction history using List.reverseRecOn with
  | nil => exact ⟨empty, rfl⟩
  | append_singleton history publish ih =>
      rcases ih fun p hp => h p (List.mem_append_left _ hp) with ⟨t, ht⟩
      have hretain : (packet publish).retain = true := h publish (by simp)
      rw [retainAll] at ht ⊢
      rw [List.foldlM_append, ht]
      by_cases hpos : (packet publish).applicationMessage.length > 0
      · exact ⟨t.assign publish, by simp [retain, hretain, hpos, bind, Except.bind, pure,
          Except.pure]⟩
      · exact ⟨t.erase (packet publish).topic, by simp [retain, hretain, hpos, bind, Except.bind,
          pure, Except.pure]⟩

/-- After any history the store holds the last packet for each topic, unless its message is
empty. -/
theorem holds_retainAll (h : retainAll history = .ok t) :
    t.Holds topic p ↔
      lastFor packet history topic = some p ∧ 0 < (packet p).applicationMessage.length := by
  induction history using List.reverseRecOn generalizing t with
  | nil =>
      cases h
      simp [Holds, empty, lastFor]
  | append_singleton history publish ih =>
      rw [retainAll, List.foldlM_append] at h
      rcases bind_eq_ok_iff.mp h with ⟨before, hbefore, hlast⟩
      rw [List.foldlM_cons] at hlast
      rcases bind_eq_ok_iff.mp hlast with ⟨after, hretain, hnil⟩
      cases hnil
      rw [holds_retain hretain, lastFor_append_singleton]
      split
      · rw [Option.some.injEq]
        constructor
        · rintro ⟨rfl, hpos⟩
          exact ⟨rfl, hpos⟩
        · rintro ⟨rfl, hpos⟩
          exact ⟨rfl, hpos⟩
      · exact ih hbefore

/-! ## What a search finds -/

/-- The qualities of service of the subscriptions that match a topic. -/
def matchingQos (subscribe : Subscribe) (topic : Bytes) : Set QoS :=
  {qos | ∃ subscr ∈ subscribe.subscriptions,
    topicFilterMatchesTopic subscr.topicFilter topic = true ∧ subscr.maximumQos = qos}

section Found

variable [DecidableEq ρ] {subscribe : Subscribe} {qos : QoS}

/-- The matches in the order in which the loops come across them. -/
def matchesOf (t : MessageStore packet) (subscribe : Subscribe) : List (ρ × QoS) :=
  t.messages.flatMap fun topicPublish =>
    (subscribe.subscriptions.filter fun subscr =>
      topicFilterMatchesTopic subscr.topicFilter topicPublish.1).map fun subscr =>
        (topicPublish.2, subscr.maximumQos)

/-- The loops collect the matches. -/
theorem messagesFor_eq_collect :
    t.messagesFor subscribe = KeyedMaximum.collect (t.matchesOf subscribe) := by
  rw [messagesFor, KeyedMaximum.collect, matchesOf, List.foldl_flatMap]
  congr 1
  funext resolved topicPublish
  rw [List.foldl_map, List.foldl_filter]
  congr 1
  funext resolved subscr
  cases h : topicFilterMatchesTopic subscr.topicFilter topicPublish.1 <;> simp [resolveInto, h]

omit [DecidableEq ρ] in
theorem mem_matchesOf_iff :
    (p, qos) ∈ t.matchesOf subscribe ↔
      t.Holds (packet p).topic p ∧ qos ∈ matchingQos subscribe (packet p).topic := by
  simp only [matchesOf, List.mem_flatMap, List.mem_map, List.mem_filter, Prod.mk.injEq]
  constructor
  · rintro ⟨⟨topic, q⟩, he, subscr, ⟨hsubscr, hmatches⟩, rfl, rfl⟩
    have htopic := t.keyed _ he
    simp only at htopic
    subst htopic
    exact ⟨he, subscr, hsubscr, hmatches, rfl⟩
  · rintro ⟨hholds, subscr, hsubscr, hmatches, rfl⟩
    exact ⟨_, hholds, subscr, ⟨hsubscr, hmatches⟩, rfl, rfl⟩

/-- A packet is found with the greatest quality of service of the subscriptions that match its
topic. -/
theorem mem_messagesFor_iff :
    (p, qos) ∈ t.messagesFor subscribe ↔
      t.Holds (packet p).topic p ∧ IsGreatest (matchingQos subscribe (packet p).topic) qos := by
  rw [messagesFor_eq_collect, KeyedMaximum.mem_collect_iff]
  by_cases hholds : t.Holds (packet p).topic p
  · have hset : {w | (p, w) ∈ t.matchesOf subscribe} = matchingQos subscribe (packet p).topic := by
      ext w
      simp [mem_matchesOf_iff, hholds]
    rw [hset]
    simp [hholds]
  · have hset : {w | (p, w) ∈ t.matchesOf subscribe} = ∅ := by
      ext w
      simp [mem_matchesOf_iff, hholds]
    rw [hset]
    simp [hholds, IsGreatest]

/-- A packet of the store is found if a subscription matches its topic. -/
theorem exists_mem_messagesFor (hholds : t.Holds (packet p).topic p)
    (hmatching : (matchingQos subscribe (packet p).topic).Nonempty) :
    ∃ qos, (p, qos) ∈ t.messagesFor subscribe := by
  obtain ⟨w, hw⟩ := hmatching
  have hkey : p ∈ (t.messagesFor subscribe).map Prod.fst := by
    rw [messagesFor_eq_collect, KeyedMaximum.mem_keys_collect_iff]
    exact ⟨w, mem_matchesOf_iff.mpr ⟨hholds, hw⟩⟩
  obtain ⟨⟨p', qos⟩, hmem, rfl⟩ := List.mem_map.mp hkey
  exact ⟨qos, hmem⟩

omit [DecidableEq ρ] in
/-- No topic is kept twice. -/
theorem Holds.unique {publish : ρ} (hp : t.Holds topic p) (hpublish : t.Holds topic publish) :
    p = publish :=
  congrArg Prod.snd (List.inj_on_of_nodup_map t.nodup hp hpublish rfl)

/-- No topic is found twice. -/
theorem nodup_topics_messagesFor :
    ((t.messagesFor subscribe).map fun e => (packet e.1).topic).Nodup := by
  have hnodup : ((t.messagesFor subscribe).map Prod.fst).Nodup := by
    rw [messagesFor_eq_collect]
    exact KeyedMaximum.nodup_keys_collect _
  have hmap : (t.messagesFor subscribe).map (fun e => (packet e.1).topic) =
      ((t.messagesFor subscribe).map Prod.fst).map fun p => (packet p).topic := by
    rw [List.map_map]
    rfl
  rw [hmap]
  refine hnodup.map_on ?_
  -- two references for one topic are the same, since the store has one for each
  intro p hp p' hp' htopic
  rcases List.mem_map.mp hp with ⟨⟨p, qos⟩, he, rfl⟩
  rcases List.mem_map.mp hp' with ⟨⟨p', qos'⟩, he', rfl⟩
  have hholds := (mem_messagesFor_iff.mp he).1
  have hholds' := (mem_messagesFor_iff.mp he').1
  simp only at htopic
  rw [← htopic] at hholds'
  exact hholds.unique hholds'

/-- What a search has to find after a history of packets that were retained. -/
structure Finds (packet : ρ → Publish) (history : List ρ) (subscribe : Subscribe)
    (found : List (ρ × QoS)) : Prop where
  once : (found.map fun e => (packet e.1).topic).Nodup
  complete : ∀ topic p, lastFor packet history topic = some p →
    0 < (packet p).applicationMessage.length → (matchingQos subscribe topic).Nonempty →
      ∃ qos, (p, qos) ∈ found
  sound : ∀ p qos, (p, qos) ∈ found →
    lastFor packet history (packet p).topic = some p ∧
      0 < (packet p).applicationMessage.length ∧
        IsGreatest (matchingQos subscribe (packet p).topic) qos

/-- After any history a search finds, in whatever order the store is visited, the last packet for
every topic that a subscription matches, once and with the greatest quality of service, unless its
message is empty. -/
theorem messagesFor_retainAll (h : ∀ p ∈ history, (packet p).retain = true) :
    ∃ t : MessageStore packet, retainAll history = .ok t ∧
      ∀ order (horder : order.Perm t.messages) subscribe,
        Finds packet history subscribe ((t.reorder order horder).messagesFor subscribe) := by
  rcases exists_retainAll h with ⟨t, ht⟩
  refine ⟨t, ht, ?_⟩
  intro order horder subscribe
  have hholds : ∀ {topic p}, (t.reorder order horder).Holds topic p ↔
      lastFor packet history topic = some p ∧ 0 < (packet p).applicationMessage.length := by
    intro topic p
    rw [← holds_retainAll ht]
    exact horder.mem_iff
  refine ⟨nodup_topics_messagesFor, ?_, ?_⟩
  · intro topic p hlast hpos hmatching
    have htopic := topic_of_lastFor hlast
    subst htopic
    exact exists_mem_messagesFor (hholds.mpr ⟨hlast, hpos⟩) hmatching
  · intro p qos hmem
    obtain ⟨hkept, hgreatest⟩ := mem_messagesFor_iff.mp hmem
    obtain ⟨hlast, hpos⟩ := hholds.mp hkept
    exact ⟨hlast, hpos, hgreatest⟩

/-- Two packets for the topic a, the second one without a message, and one for the topic b. -/
def samplePackets : Fin 3 → Publish
  | 0 => Publish.create false .atLeastOnce true [0x61] 1 [0x01]
  | 1 => Publish.create false .atLeastOnce true [0x61] 2 []
  | 2 => Publish.create false .atMostOnce true [0x62] 0 [0x02]

theorem messagesFor_retainAll_sample :
    ∃ t : MessageStore samplePackets, retainAll [0, 2, 1, 2] = .ok t ∧
      ∀ order (horder : order.Perm t.messages) subscribe,
        Finds samplePackets [0, 2, 1, 2] subscribe
          ((t.reorder order horder).messagesFor subscribe) :=
  messagesFor_retainAll (by decide)

end Found

/-! ## The packets themselves -/

/-- The store of packets that the references point to. -/
def content (t : MessageStore packet) : RetainedMessages where
  messages := t.messages.map fun e => packet e.2
  nodup := by
    have htopics : (t.messages.map fun e => packet e.2).map Publish.topic =
        t.messages.map Prod.fst := by
      rw [List.map_map]
      exact List.map_congr_left fun e he => (t.keyed e he).symm
    rw [htopics]
    exact t.nodup

/-- Retaining a packet by reference retains it. -/
theorem retain_content (t : MessageStore packet) (publish : ρ) :
    t.content.retain (packet publish) = (t.retain publish).map content := by
  have herase : (t.erase (packet publish).topic).content =
      t.content.erase (packet publish).topic := by
    simp only [content, erase, RetainedMessages.erase, List.filter_map]
    congr 2
    exact List.filter_congr fun e he => by simp [t.keyed e he]
  have hassign : (t.assign publish).content = t.content.assign (packet publish) := by
    have hmessages := congrArg RetainedMessages.messages herase
    simp only [content] at hmessages
    simp only [content, assign, RetainedMessages.assign, List.map_cons, hmessages]
  rw [RetainedMessages.retain, retain]
  cases hretain : (packet publish).retain with
  | false => rfl
  | true =>
      by_cases hpos : (packet publish).applicationMessage.length > 0
      · simp [hpos, hassign, bind, Except.bind, Except.map]
      · simp [hpos, herase, bind, Except.bind, Except.map]

/-- The packets that a search finds are those which a search among the packets finds. -/
theorem messagesFor_content [DecidableEq ρ] (t : MessageStore packet) (subscribe : Subscribe) :
    t.content.messagesFor subscribe =
      (t.messagesFor subscribe).map (KeyedMaximum.renamed packet) := by
  rw [messagesFor_eq_collect, KeyedMaximum.map_collect]
  · rw [RetainedMessages.messagesFor, content, matchesOf, List.flatMap_map, List.map_flatMap]
    congr 1
    refine List.flatMap_congr fun e he => ?_
    rw [List.map_map, t.keyed e he]
    rfl
  · -- packets of the store are told apart by their topics
    rintro ⟨p, q⟩ hp ⟨p', q'⟩ hp' hsame
    have hholds := (mem_matchesOf_iff.mp hp).1
    have hholds' := (mem_matchesOf_iff.mp hp').1
    simp only at hsame
    rw [← hsame] at hholds'
    exact hholds.unique hholds'

end MessageStore

end Dispatch
end WallyIo
