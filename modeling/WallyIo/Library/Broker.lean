import WallyIo.Library.Trace
import Mathlib.Data.List.Induction
import Mathlib.Logic.Function.Basic
import Mathlib.Order.Bounds.Basic

/-!
# Publish/subscribe brokers

A broker passes on what is published to those who have subscribed to it.  All that it has to
know is where its clients are served, who has subscribed to what, and what is kept for those
who subscribe later.

Main results:

- Definition {lit}`Broker.Owes`: whom a broker has to deliver a message to.
- Theorem {lit}`broker_of_trace`: a broker knows what the actions so far tell.
- Theorem {lit}`mem_subscriptions_iff` and {lit}`mem_kept_iff`: subscriptions last until somebody
  unsubscribes, and messages are kept until another one is to be kept.
- Theorem {lit}`deliveries_of_trace`: what can be seen last is what is owed.
- Theorem {lit}`trace_seenOn`: a broker that reaches only some endpoints sees what is sent to them.
- Theorem {lit}`owes_publish_iff` and {lit}`owes_subscribe_iff`: what is owed after a history of
  actions.
-/

namespace WallyIo
namespace Library

/-! ## The last thing that matters -/

section LastOf

variable {σ α : Type*} {step : σ → α → σ} {sets clears : α → Prop}

/-- One of some actions does something, and none of the later ones undoes it. -/
def LastOf (sets clears : α → Prop) (actions : List α) : Prop :=
  ∃ pre action post, actions = pre ++ action :: post ∧ sets action ∧
    ∀ later ∈ post, ¬ clears later

theorem lastOf_append_iff {xs ys : List α} : LastOf sets clears (xs ++ ys) ↔
    LastOf sets clears ys ∨ LastOf sets clears xs ∧ ∀ later ∈ ys, ¬ clears later := by
  constructor
  · rintro ⟨pre, action, post, heq, hsets, hlater⟩
    rcases List.append_eq_append_iff.mp heq with ⟨more, rfl, rfl⟩ | ⟨more, rfl, hmore⟩
    · exact Or.inl ⟨more, action, post, rfl, hsets, hlater⟩
    · cases more with
      | nil => exact Or.inl ⟨[], action, post, hmore.symm, hsets, hlater⟩
      | cons first more =>
          rw [List.cons_append, List.cons.injEq] at hmore
          obtain ⟨rfl, rfl⟩ := hmore
          exact Or.inr ⟨⟨pre, action, more, rfl, hsets,
            fun later hmem => hlater later (List.mem_append_left _ hmem)⟩,
            fun later hmem => hlater later (List.mem_append_right _ hmem)⟩
  · rintro (⟨pre, action, post, rfl, hsets, hlater⟩ |
      ⟨⟨pre, action, post, rfl, hsets, hlater⟩, hys⟩)
    · exact ⟨xs ++ pre, action, post, by simp, hsets, hlater⟩
    · refine ⟨pre, action, post ++ ys, by simp, hsets, ?_⟩
      intro later hmem
      rcases List.mem_append.mp hmem with hmem | hmem
      · exact hlater later hmem
      · exact hys later hmem

theorem lastOf_singleton_iff {action : α} : LastOf sets clears [action] ↔ sets action := by
  constructor
  · rintro ⟨pre, first, post, heq, hsets, -⟩
    cases pre with
    | nil =>
        cases heq
        exact hsets
    | cons other pre => simp at heq
  · intro hsets
    exact ⟨[], action, [], rfl, hsets, fun _ hmem => absurd hmem List.not_mem_nil⟩

theorem not_lastOf_nil : ¬ LastOf sets clears ([] : List α) := by
  rintro ⟨pre, action, post, heq, -⟩
  simp at heq

/-- If what is done is done in lists of actions, the last of these lists matters. -/
theorem lastOf_flatMap_iff {β : Type*} {f : β → List α} {xs : List β} :
    LastOf sets clears (xs.flatMap f) ↔
      LastOf (fun x => LastOf sets clears (f x)) (fun x => ∃ action ∈ f x, clears action) xs := by
  induction xs using List.reverseRecOn with
  | nil => exact iff_of_false not_lastOf_nil not_lastOf_nil
  | append_singleton xs x ih =>
      rw [List.flatMap_append, List.flatMap_singleton, lastOf_append_iff, ih, lastOf_append_iff,
        lastOf_singleton_iff]
      simp only [List.mem_singleton, forall_eq, not_exists, not_and]

/-- The last action that matters depends only on how the actions that occur are told apart. -/
theorem lastOf_congr {sets' clears' : α → Prop} {xs : List α}
    (hsets : ∀ x ∈ xs, (sets x ↔ sets' x)) (hclears : ∀ x ∈ xs, (clears x ↔ clears' x)) :
    LastOf sets clears xs ↔ LastOf sets' clears' xs := by
  induction xs using List.reverseRecOn with
  | nil => exact iff_of_false not_lastOf_nil not_lastOf_nil
  | append_singleton xs x ih =>
      have hbefore := ih (fun y hmem => hsets y (List.mem_append_left _ hmem))
        (fun y hmem => hclears y (List.mem_append_left _ hmem))
      have hx : x ∈ xs ++ [x] := List.mem_append_right _ (List.mem_singleton_self x)
      rw [lastOf_append_iff, lastOf_append_iff, hbefore, lastOf_singleton_iff,
        lastOf_singleton_iff, hsets x hx]
      simp only [List.mem_singleton, forall_eq, hclears x hx]

/-- If nothing but the first action undoes anything, an action that does something is enough. -/
theorem lastOf_iff_exists {xs : List α} (h : ∀ later ∈ xs.tail, ¬ clears later) :
    LastOf sets clears xs ↔ ∃ action ∈ xs, sets action := by
  constructor
  · rintro ⟨pre, action, post, rfl, hsets, -⟩
    exact ⟨action, List.mem_append_right _ List.mem_cons_self, hsets⟩
  · rintro ⟨action, hmem, hsets⟩
    obtain ⟨pre, post, rfl⟩ := List.append_of_mem hmem
    refine ⟨pre, action, post, rfl, hsets, fun later hlater => h later ?_⟩
    cases pre with
    | nil => exact hlater
    | cons first pre => exact List.mem_append_right _ (List.mem_cons_of_mem _ hlater)

/-- What holds if an action sets it, and else if it has held before and the action does not clear
it, holds in the end if the last action that matters has set it. -/
theorem holds_foldl_iff (holds : σ → Prop)
    (hstep : ∀ s a, holds (step s a) ↔ sets a ∨ holds s ∧ ¬ clears a) {s : σ}
    (hinit : ¬ holds s) (actions : List α) :
    holds (actions.foldl step s) ↔ LastOf sets clears actions := by
  induction actions using List.reverseRecOn with
  | nil => exact iff_of_false hinit not_lastOf_nil
  | append_singleton actions action ih =>
      rw [List.foldl_append, List.foldl_cons, List.foldl_nil, hstep, ih, lastOf_append_iff,
        lastOf_singleton_iff]
      simp only [List.mem_singleton, forall_eq]

end LastOf

/-! ## Brokers -/

/-- What brokers differ in. -/
structure Conventions (φ τ ν μ : Type*) where
  /-- Which topics a filter covers. -/
  Covers : φ → τ → Prop
  /-- At which levels messages are delivered. -/
  Served : ν → Prop
  /-- Which messages are not kept. -/
  Blank : μ → Prop

/-- A broker, with clients `κ`, endpoints `χ` where they are served, filters `φ`, topics `τ`,
levels `ν` and messages `μ`. -/
structure Broker (κ χ φ τ ν μ : Type*) where
  session : κ → Option χ
  subscriptions : Set (κ × φ × ν)
  kept : Set (τ × μ)

namespace Broker

variable {κ χ φ τ ν μ : Type*}

/-- What happens to a broker. -/
inductive Action (κ χ φ τ ν μ : Type*)
  | arrive (client : κ) (endpoint : χ)
  | leave (client : κ)
  | subscribe (client : κ) (requests : List (φ × ν))
  /-- The filters are forgotten, whoever has subscribed to them. -/
  | unsubscribe (filters : List φ)
  | publish (topic : τ) (message : μ)
  | keep (topic : τ) (message : μ)

/-- What a broker delivers, and where. -/
structure Delivery (κ χ τ ν μ : Type*) where
  client : κ
  endpoint : χ
  topic : τ
  message : μ
  level : ν
  /-- Whether the message has been kept. -/
  wasKept : Bool

/-- What can be seen of a broker: what happens to it, with the endpoints that can be reached then,
and what it delivers. -/
inductive Observation (κ χ φ τ ν μ : Type*)
  | input (reachable : χ → Prop) (action : Action κ χ φ τ ν μ)
  | output (delivery : Delivery κ χ τ ν μ)

/-- A broker that knows nothing. -/
def empty : Broker κ χ φ τ ν μ where
  session _ := none
  subscriptions := ∅
  kept := ∅

variable (conventions : Conventions φ τ ν μ)

/-- The broker after an action.  A client that is served already stays where it is. -/
def next [DecidableEq κ] (b : Broker κ χ φ τ ν μ) : Action κ χ φ τ ν μ → Broker κ χ φ τ ν μ
  | .arrive client endpoint =>
      { b with
        session := Function.update b.session client (some ((b.session client).getD endpoint)) }
  | .leave client => { b with session := Function.update b.session client none }
  | .subscribe client requests =>
      { b with subscriptions := {s | s.1 = client ∧ s.2 ∈ requests ∨ s ∈ b.subscriptions} }
  | .unsubscribe filters => { b with subscriptions := {s ∈ b.subscriptions | s.2.1 ∉ filters} }
  | .publish _ _ => b
  | .keep topic message =>
      { b with kept := {e | e = (topic, message) ∧ ¬ conventions.Blank e.2 ∨
          e ∈ b.kept ∧ e.1 ≠ topic} }

/-- The levels at which some requests ask for a topic. -/
def requested (requests : List (φ × ν)) (topic : τ) : Set ν :=
  {level | ∃ filter, conventions.Covers filter topic ∧ (filter, level) ∈ requests}

/-- The levels at which a client has subscribed to a topic. -/
def granted (b : Broker κ χ φ τ ν μ) (client : κ) (topic : τ) : Set ν :=
  {level | ∃ filter, conventions.Covers filter topic ∧ (client, filter, level) ∈ b.subscriptions}

/-! ## What a broker knows -/

/-- The actions among what can be seen. -/
def inputs (observations : List (Observation κ χ φ τ ν μ)) : List (Action κ χ φ τ ν μ) :=
  observations.filterMap fun
    | .input _ action => some action
    | .output _ => none

@[simp]
theorem inputs_append (xs ys : List (Observation κ χ φ τ ν μ)) :
    inputs (xs ++ ys) = inputs xs ++ inputs ys :=
  List.filterMap_append

@[simp]
theorem inputs_inputs (reachable : χ → Prop) (actions : List (Action κ χ φ τ ν μ)) :
    inputs (actions.map (.input reachable) : List (Observation κ χ φ τ ν μ)) = actions := by
  rw [inputs, List.filterMap_map]
  exact List.filterMap_some

@[simp]
theorem inputs_output (deliveries : List (Delivery κ χ τ ν μ)) :
    inputs (deliveries.map .output : List (Observation κ χ φ τ ν μ)) = [] := by
  rw [inputs, List.filterMap_map, List.filterMap_eq_nil_iff]
  exact fun _ _ => rfl

@[simp]
theorem inputs_input (reachable : χ → Prop) (action : Action κ χ φ τ ν μ)
    (observations : List (Observation κ χ φ τ ν μ)) :
    inputs (.input reachable action :: observations) = action :: inputs observations := rfl

/-- What can be seen on open endpoints only. -/
def seenOn (isOpen : χ → Bool) : Observation κ χ φ τ ν μ → Option (Observation κ χ φ τ ν μ)
  | .input reachable action =>
      some (.input (fun endpoint => reachable endpoint ∧ isOpen endpoint = true) action)
  | .output delivery => if isOpen delivery.endpoint then some (.output delivery) else none

theorem filterMap_seenOn_inputs (isOpen : χ → Bool) (reachable : χ → Prop)
    (actions : List (Action κ χ φ τ ν μ)) :
    (actions.map (.input reachable)).filterMap (seenOn isOpen) = actions.map
      (.input (ν := ν) fun endpoint => reachable endpoint ∧ isOpen endpoint = true) := by
  rw [List.filterMap_map]
  exact congrFun List.filterMap_eq_map actions

theorem filterMap_seenOn_outputs (isOpen : χ → Bool) (deliveries : List (Delivery κ χ τ ν μ)) :
    (deliveries.map .output : List (Observation κ χ φ τ ν μ)).filterMap (seenOn isOpen) =
      (deliveries.filter fun d => isOpen d.endpoint).map .output := by
  induction deliveries with
  | nil => rfl
  | cons d deliveries ih =>
      rw [List.map_cons, List.filter_cons]
      cases hopen : isOpen d.endpoint with
      | true => simp [seenOn, hopen, ih]
      | false => simp [seenOn, hopen, ih]

section Histories

variable [DecidableEq κ] {actions : List (Action κ χ φ τ ν μ)} {conventions}
  {client : κ} {filter : φ} {level : ν} {topic : τ} {message : μ}

/-- A client has subscribed to a filter, which nobody has unsubscribed from since. -/
def Subscribed (actions : List (Action κ χ φ τ ν μ)) (client : κ) (filter : φ) (level : ν) : Prop :=
  LastOf (fun action => ∃ requests, action = .subscribe client requests ∧
      (filter, level) ∈ requests)
    (fun action => ∃ filters, action = .unsubscribe filters ∧ filter ∈ filters) actions

/-- A message was to be kept for a topic, and no other one since. -/
def Kept (conventions : Conventions φ τ ν μ) (actions : List (Action κ χ φ τ ν μ)) (topic : τ)
    (message : μ) : Prop :=
  LastOf (fun action => action = .keep topic message ∧ ¬ conventions.Blank message)
    (fun action => ∃ message, action = .keep topic message) actions

/-- Subscriptions last until somebody unsubscribes. -/
theorem mem_subscriptions_iff : (client, filter, level) ∈
      (actions.foldl (next conventions) (empty : Broker κ χ φ τ ν μ)).subscriptions ↔
    Subscribed actions client filter level := by
  refine holds_foldl_iff
    (fun b : Broker κ χ φ τ ν μ => (client, filter, level) ∈ b.subscriptions) ?_ ?_ actions
  · intro b action
    cases action with
    | subscribe other requests => simp [next, eq_comm]
    | unsubscribe filters => simp [next]
    | arrive | leave | publish | keep => simp [next]
  · exact fun hmem => hmem

/-- Messages are kept until another one is to be kept for their topic. -/
theorem mem_kept_iff : (topic, message) ∈
      (actions.foldl (next conventions) (empty : Broker κ χ φ τ ν μ)).kept ↔
    Kept conventions actions topic message := by
  refine holds_foldl_iff (fun b : Broker κ χ φ τ ν μ => (topic, message) ∈ b.kept) ?_ ?_ actions
  · intro b action
    cases action with
    | keep other message' => simp [next, eq_comm]
    | arrive | leave | subscribe | unsubscribe | publish => simp [next]
  · exact fun hmem => hmem

end Histories

/-! ## What a broker does -/

section Owed

variable [Preorder ν]

/-- What a broker has to deliver in an action: what is published to all that have subscribed to
it, and what has been kept to whoever subscribes to it. -/
inductive Owes (reachable : χ → Prop) (b : Broker κ χ φ τ ν μ) :
    Action κ χ φ τ ν μ → Delivery κ χ τ ν μ → Prop
  | published {topic : τ} {message : μ} {client : κ} {endpoint : χ} {level : ν}
      (hsession : b.session client = some endpoint) (hreachable : reachable endpoint)
      (hlevel : IsGreatest (b.granted conventions client topic) level)
      (hserved : conventions.Served level) :
      Owes reachable b (.publish topic message) ⟨client, endpoint, topic, message, level, false⟩
  | kept {client : κ} {requests : List (φ × ν)} {endpoint : χ} {topic : τ} {message : μ}
      {level : ν} (hsession : b.session client = some endpoint) (hreachable : reachable endpoint)
      (hkept : (topic, message) ∈ b.kept)
      (hlevel : IsGreatest (requested conventions requests topic) level)
      (hserved : conventions.Served level) :
      Owes reachable b (.subscribe client requests)
        ⟨client, endpoint, topic, message, level, true⟩

section Congruence

variable {conventions} {reachable : χ → Prop} {b b' : Broker κ χ φ τ ν μ} {topic : τ} {message : μ}
  {d : Delivery κ χ τ ν μ}

/-- What is kept makes no difference to what is published. -/
theorem owes_publish_congr (hsession : b'.session = b.session)
    (hsubscriptions : b'.subscriptions = b.subscriptions) :
    Owes conventions reachable b' (.publish topic message) d ↔
      Owes conventions reachable b (.publish topic message) d := by
  have hgranted : ∀ client, b'.granted conventions client topic =
      b.granted conventions client topic := by
    intro client
    rw [granted, granted, hsubscriptions]
  constructor
  · intro howes
    cases howes with
    | published hclient hreachable hlevel hserved =>
        exact .published (hsession ▸ hclient) hreachable (hgranted _ ▸ hlevel) hserved
  · intro howes
    cases howes with
    | published hclient hreachable hlevel hserved =>
        exact .published (hsession ▸ hclient) hreachable (hgranted _ ▸ hlevel) hserved

/-- Nothing that is published is owed to a client that has left. -/
theorem owes_publish_leave_iff [DecidableEq κ] {client : κ} :
    Owes conventions reachable (b.next conventions (.leave client)) (.publish topic message) d ↔
      d.client ≠ client ∧ Owes conventions reachable b (.publish topic message) d := by
  have hleft : ∀ other, (b.next conventions (.leave client)).session other =
      if other = client then none else b.session other :=
    fun other => Function.update_apply _ _ _ _
  constructor
  · intro howes
    cases howes with
    | published hsession hreachable hlevel hserved =>
        rw [hleft, Option.ite_none_left_eq_some] at hsession
        exact ⟨hsession.1, .published hsession.2 hreachable hlevel hserved⟩
  · rintro ⟨hne, howes⟩
    cases howes with
    | published hsession hreachable hlevel hserved =>
        refine .published ?_ hreachable hlevel hserved
        rw [hleft, if_neg hne]
        exact hsession

/-- Whatever is owed is owed on open endpoints if no other ones can be reached. -/
theorem owes_open_iff {isOpen : χ → Bool} {action : Action κ χ φ τ ν μ} :
    Owes conventions (fun endpoint => reachable endpoint ∧ isOpen endpoint = true) b action d ↔
      Owes conventions reachable b action d ∧ isOpen d.endpoint = true := by
  constructor
  · intro howes
    cases howes with
    | published hsession hreachable hlevel hserved =>
        exact ⟨.published hsession hreachable.1 hlevel hserved, hreachable.2⟩
    | kept hsession hreachable hkept hlevel hserved =>
        exact ⟨.kept hsession hreachable.1 hkept hlevel hserved, hreachable.2⟩
  · rintro ⟨howes, hopen⟩
    cases howes with
    | published hsession hreachable hlevel hserved =>
        exact .published hsession ⟨hreachable, hopen⟩ hlevel hserved
    | kept hsession hreachable hkept hlevel hserved =>
        exact .kept hsession ⟨hreachable, hopen⟩ hkept hlevel hserved

end Congruence

/-- An action, together with all that is owed in it, each once. -/
inductive Acts [DecidableEq κ] (b : Broker κ χ φ τ ν μ) :
    List (Observation κ χ φ τ ν μ) → Broker κ χ φ τ ν μ → Prop
  | act (reachable : χ → Prop) (action : Action κ χ φ τ ν μ)
      (deliveries : List (Delivery κ χ τ ν μ)) (hnodup : deliveries.Nodup)
      (howes : ∀ d, d ∈ deliveries ↔ Owes conventions reachable b action d) :
      Acts b (.input reachable action :: deliveries.map .output) (b.next conventions action)

variable {conventions} [DecidableEq κ] {b b' : Broker κ χ φ τ ν μ}
  {observations : List (Observation κ χ φ τ ν μ)} {reachable : χ → Prop}
  {d : Delivery κ χ τ ν μ} {client : κ} {topic : τ} {message : μ} {requests : List (φ × ν)}

/-- A broker knows what the actions so far tell. -/
theorem broker_of_trace (h : Trace (Acts conventions) b observations b') :
    b' = (inputs observations).foldl (next conventions) b := by
  refine h.invariant (fun pre t => t = (inputs pre).foldl (next conventions) b) [] ?_ rfl
  rintro pre s xs t hs hact
  cases hact with
  | act reachable action deliveries hnodup howes =>
      rw [inputs_append, inputs_input, inputs_output, List.foldl_append, ← hs]
      rfl

/-- What can be seen first is an action, and what is delivered in it comes next. -/
theorem head_of_trace {o : Observation κ χ φ τ ν μ}
    (h : Trace (Acts conventions) b (o :: observations) b') :
    ∃ (reachable : χ → Prop) (action : Action κ χ φ τ ν μ)
      (deliveries : List (Delivery κ χ τ ν μ)) (rest : List (Observation κ χ φ τ ν μ)),
      o = .input reachable action ∧ observations = deliveries.map .output ++ rest ∧
        deliveries.Nodup ∧ (∀ d, d ∈ deliveries ↔ Owes conventions reachable b action d) ∧
          Trace (Acts conventions) (b.next conventions action) rest b' := by
  generalize hall : o :: observations = all at h
  cases h with
  | nil => cases hall
  | cons hact hrest =>
      cases hact with
      | act reachable action deliveries hnodup howes =>
          cases hall
          exact ⟨reachable, action, deliveries, _, rfl, rfl, hnodup, howes, hrest⟩

/-- What is delivered after some actions is owed in the last one of them. -/
theorem deliveries_of_trace {actions : List (Action κ χ φ τ ν μ)} {last : Action κ χ φ τ ν μ}
    {deliveries : List (Delivery κ χ τ ν μ)}
    (h : Trace (Acts conventions) b (actions.map (.input reachable) ++
      .input reachable last :: deliveries.map .output) b') :
    deliveries.Nodup ∧ ∀ d, d ∈ deliveries ↔
      Owes conventions reachable (actions.foldl (next conventions) b) last d := by
  induction actions generalizing b with
  | nil =>
      obtain ⟨_, _, deliveries', rest, heq, hobservations, hnodup, howes, hrest⟩ := head_of_trace h
      cases heq
      cases rest with
      | nil =>
          rw [List.append_nil] at hobservations
          have hsame : deliveries = deliveries' :=
            List.map_injective_iff.mpr (fun _ _ heq => by cases heq; rfl) hobservations
          rw [hsame]
          exact ⟨hnodup, howes⟩
      | cons o rest =>
          obtain ⟨reachable', action, _, _, rfl, -⟩ := head_of_trace hrest
          have hmem : .input reachable' action ∈ deliveries.map Observation.output := by
            rw [hobservations]
            exact List.mem_append_right _ List.mem_cons_self
          obtain ⟨_, -, heq⟩ := List.mem_map.mp hmem
          cases heq
  | cons action actions ih =>
      obtain ⟨_, _, deliveries', rest, heq, hobservations, -, -, hrest⟩ := head_of_trace h
      cases heq
      cases deliveries' with
      | nil =>
          rw [List.map_nil, List.nil_append] at hobservations
          rw [← hobservations] at hrest
          exact ih hrest
      | cons d deliveries' =>
          cases actions <;> cases hobservations

/-- If nothing is owed in some actions, nothing is delivered after them. -/
theorem deliveries_of_quiet {actions : List (Action κ χ φ τ ν μ)}
    {deliveries : List (Delivery κ χ τ ν μ)}
    (hquiet : ∀ action ∈ actions, ∀ b d, ¬ Owes conventions reachable b action d)
    (h : Trace (Acts conventions) b (actions.map (.input reachable) ++ deliveries.map .output) b') :
    deliveries = [] := by
  induction actions using List.reverseRecOn with
  | nil =>
      cases deliveries with
      | nil => rfl
      | cons d deliveries =>
          obtain ⟨_, _, _, _, heq, -⟩ := head_of_trace h
          cases heq
  | append_singleton actions last ih =>
      rw [List.map_append, List.map_singleton, List.append_assoc, List.singleton_append] at h
      rw [List.eq_nil_iff_forall_not_mem]
      intro d hmem
      exact hquiet last (List.mem_append_right _ (List.mem_singleton_self _)) _ d
        (((deliveries_of_trace h).2 d).mp hmem)

/-- After a history of actions, what is published is owed to those who have subscribed to it and
are still subscribed. -/
theorem owes_publish_iff (h : Trace (Acts conventions) empty observations b) :
    Owes conventions reachable b (.publish topic message) d ↔
      d.topic = topic ∧ d.message = message ∧ d.wasKept = false ∧
        b.session d.client = some d.endpoint ∧ reachable d.endpoint ∧
          IsGreatest {level | ∃ filter, conventions.Covers filter topic ∧
            Subscribed (inputs observations) d.client filter level} d.level ∧
          conventions.Served d.level := by
  have hgranted : b.granted conventions d.client topic =
      {level | ∃ filter, conventions.Covers filter topic ∧
        Subscribed (inputs observations) d.client filter level} := by
    rw [broker_of_trace h]
    simp only [granted, mem_subscriptions_iff]
  rw [← hgranted]
  constructor
  · intro howes
    cases howes with
    | published hsession hreachable hlevel hserved =>
        exact ⟨rfl, rfl, rfl, hsession, hreachable, hlevel, hserved⟩
  · obtain ⟨client, endpoint, topic', message', level, wasKept⟩ := d
    rintro ⟨rfl, rfl, rfl, hsession, hreachable, hlevel, hserved⟩
    exact .published hsession hreachable hlevel hserved

/-- After a history of actions, what is kept is owed to whoever subscribes to it. -/
theorem owes_subscribe_iff (h : Trace (Acts conventions) empty observations b) :
    Owes conventions reachable b (.subscribe client requests) d ↔
      d.client = client ∧ d.wasKept = true ∧ b.session client = some d.endpoint ∧
        reachable d.endpoint ∧ Kept conventions (inputs observations) d.topic d.message ∧
          IsGreatest (requested conventions requests d.topic) d.level ∧
          conventions.Served d.level := by
  have hkept : ∀ topic message, (topic, message) ∈ b.kept ↔
      Kept conventions (inputs observations) topic message := by
    intro topic message
    rw [broker_of_trace h, mem_kept_iff]
  rw [← hkept]
  constructor
  · intro howes
    cases howes with
    | kept hsession hreachable hkept hlevel hserved =>
        exact ⟨rfl, rfl, hsession, hreachable, hkept, hlevel, hserved⟩
  · obtain ⟨client', endpoint, topic, message, level, wasKept⟩ := d
    rintro ⟨rfl, rfl, hsession, hreachable, hkept, hlevel, hserved⟩
    exact .kept hsession hreachable hkept hlevel hserved

/-- A broker that can reach open endpoints only delivers what it delivers there anyway. -/
theorem trace_seenOn (isOpen : χ → Bool) (h : Trace (Acts conventions) b observations b') :
    Trace (Acts conventions) b (observations.filterMap (seenOn isOpen)) b' := by
  induction h with
  | nil b => exact Trace.nil b
  | cons hact _ ih =>
      rw [List.filterMap_append]
      refine Trace.cons ?_ ih
      cases hact with
      | act reachable action deliveries hnodup howes =>
          have hseen : (.input reachable action :: deliveries.map .output :
                List (Observation κ χ φ τ ν μ)).filterMap (seenOn isOpen) =
              .input (fun endpoint => reachable endpoint ∧ isOpen endpoint = true) action ::
                (deliveries.filter fun d => isOpen d.endpoint).map .output := by
            rw [List.filterMap_cons, filterMap_seenOn_outputs]
            rfl
          rw [hseen]
          refine .act _ action _ (hnodup.filter _) fun d => ?_
          rw [List.mem_filter, howes, owes_open_iff]

end Owed

end Broker

end Library
end WallyIo
