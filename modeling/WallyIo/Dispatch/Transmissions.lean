import WallyIo.Dispatch.TxLifetimes

/-!
# Transmissions of outgoing publications

A publication sends its PUBLISH when it is started, and again whenever its timer has expired.
With quality of service 1 it does so until the client acknowledges the packet, or until the
retries are used up.

Main results:

- Theorem {lit}`qos1_cases`: what a step does to a publication with quality of service 1.
- Theorem {lit}`silent_of_run`: nothing is sent under an identifier that is not in use.
- Theorem {lit}`atLeastOnce_of_run`: how often a publication with quality of service 1 sends
  its packet, and how it ends.
-/

namespace WallyIo
namespace Dispatch

open Protocol Library Codec

namespace TxTable

/-! ## What is sent under an identifier -/

/-- A PUBLISH under an identifier.  With quality of service 0 it has none. -/
def publishUnder (i : UInt16) : MqttPacket → Option Publish
  | .publish p => if p.packetIdentifier = i ∧ p.qos ≠ .atMostOnce then some p else none
  | _ => none

/-- The PUBLISH packets that a step sends under an identifier. -/
def sentUnder (i : UInt16) : Except Fault (List SenderCall) → List Publish
  | .ok calls => (sentPackets calls).filterMap (publishUnder i)
  | .error _ => []

/-- The PUBLISH packets that are sent under an identifier. -/
def transmissions (i : UInt16) (steps : List LifetimeStep) : List Publish :=
  steps.flatMap fun x => sentUnder i x.output

section Sent

variable {i : UInt16} {calls : List SenderCall} {p : Publish}

theorem publishUnder_eq_some_iff {packet : MqttPacket} : publishUnder i packet = some p ↔
    packet = .publish p ∧ p.packetIdentifier = i ∧ p.qos ≠ .atMostOnce := by
  cases packet with
  | publish q =>
      simp only [publishUnder, MqttPacket.publish.injEq]
      constructor
      · intro h
        split at h
        · rename_i hq
          cases h
          exact ⟨rfl, hq⟩
        · cases h
      · rintro ⟨rfl, hq⟩
        exact if_pos hq
  | _ => simp [publishUnder]

/-- Nothing is sent under an identifier. -/
theorem sentUnder_eq_nil
    (h : ∀ p, .publish p ∈ sentPackets calls → p.packetIdentifier = i → p.qos = .atMostOnce) :
    sentUnder i (.ok calls) = [] := by
  rw [sentUnder, List.filterMap_eq_nil_iff]
  intro packet hmem
  cases hunder : publishUnder i packet with
  | none => rfl
  | some p =>
      obtain ⟨rfl, hid, hqos⟩ := publishUnder_eq_some_iff.mp hunder
      exact absurd (h p hmem hid) hqos

/-- A single packet is sent under an identifier. -/
theorem sentUnder_publish (hid : p.packetIdentifier = i) (hqos : p.qos ≠ .atMostOnce) :
    sentUnder i (.ok [.send (.publish p)]) = [p] := by
  rw [sentUnder, sentPackets_send, List.filterMap_cons_some
    (publishUnder_eq_some_iff.mpr ⟨rfl, hid, hqos⟩)]
  rfl

theorem transmissions_append (i : UInt16) (xs ys : List LifetimeStep) :
    transmissions i (xs ++ ys) = transmissions i xs ++ transmissions i ys :=
  List.flatMap_append

theorem transmissions_singleton (i : UInt16) (x : LifetimeStep) :
    transmissions i [x] = sentUnder i x.output := by
  simp [transmissions]

end Sent

/-- A step assigns an identifier to a publication. -/
def Assigns (i : UInt16) (x : LifetimeStep) : Prop :=
  ∃ s e, x.before = some s ∧ x.event = .event e ∧ e.assigns = true ∧ s.state.nextIdentifier = i

section Silence

variable {maxRetries : Nat} {steps rest : List LifetimeStep} {s s' : WatchedTable} {i : UInt16}

/-- Nothing is sent under an identifier that is not in use, until it is assigned again. -/
theorem silent_of_run (hs : Accounted maxRetries steps s)
    (h : lifetimes.Run (some s) rest (some s')) (hfree : s.state.publications.lookup i = none)
    (hids : ∀ x ∈ rest, ¬ Assigns i x) :
    s'.state.publications.lookup i = none ∧ transmissions i rest = [] := by
  refine h.alive_invariant (fun _ => rfl) (fun x => ¬ Assigns i x)
    (fun pre t => t.state.publications.lookup i = none ∧ transmissions i pre = [])
    ⟨hfree, rfl⟩ ?_ hids
  rintro pre t o output u hpre ⟨hfree', hnothing⟩ hstep hid
  have hacc := hs.append (timers_lawful maxRetries) hpre
  rcases begins_of_step hacc hstep hfree' with
    ⟨hnone, calls, rfl, hsent⟩ | ⟨p, qos, outgoing, hqos, rfl, hnext, -⟩
  · refine ⟨hnone, ?_⟩
    rw [transmissions_append, hnothing, transmissions_singleton, sentUnder_eq_nil hsent]
    rfl
  · refine absurd ⟨t, _, rfl, rfl, ?_, hnext.symm⟩ hid
    rcases hqos with rfl | rfl <;> rfl

end Silence

/-! ## Quality of service 1 -/

/-- A publication with quality of service 1 that sends a packet. -/
def Carries (r : Incarnation UInt16) (outgoing : Publish) (s : WatchedTable) : Prop :=
  ∃ q : Qos1TxPublication, s.state.publications.lookup r.key = some (.qos1 q) ∧
    q.publish = outgoing

/-- The PUBACK of a publication is processed. -/
def Acknowledges (r : Incarnation UInt16) (x : LifetimeStep) : Prop :=
  objects.stored x.before r = true ∧ x.event = .event (.response true (.puback r.key))

section Qos1

variable {maxRetries : Nat} {steps : List LifetimeStep} {s s' : WatchedTable} {o : Incident}
  {output : Except Fault (List SenderCall)} {r : Incarnation UInt16} {outgoing : Publish}

/-- What a step does to a publication with quality of service 1. -/
theorem qos1_cases (hs : Accounted maxRetries steps s)
    (h : lifetimes.step (some s) o = some (output, some s')) (hr : s.Stores r)
    (hcarries : Carries r outgoing s) (hqos : outgoing.qos ≠ .atMostOnce) :
    (s'.Stores r ∧ Carries r outgoing s' ∧ sentUnder r.key output = [] ∧ o.handles r = false ∧
        o ≠ .event (.response true (.puback r.key))) ∨
      (¬ s'.Stores r ∧ sentUnder r.key output = [] ∧
        o = .event (.response true (.puback r.key))) ∨
      (s'.Stores r ∧ Carries r outgoing s' ∧ sentUnder r.key output = [outgoing] ∧
        o = .handler r) ∨
      (¬ s'.Stores r ∧ sentUnder r.key output = [] ∧ o = .handler r) := by
  obtain ⟨q, hentry, rfl⟩ := hcarries
  obtain ⟨calls, rfl, hlives⟩ := lives_of_step hs h hr hentry
  obtain ⟨hwaits, hid⟩ := hs.1.wellFormed _ _ hentry
  have hstores := stores_iff_of_step hs h hr
  generalize hresult : s'.state.publications.lookup r.key = result at hlives hstores
  have hnone : sentUnder r.key (.ok []) = [] := rfl
  cases hlives with
  | untouched _ _ hhandler hack hsent =>
      refine Or.inl ⟨hstores.mpr ⟨_, rfl⟩, ⟨q, hresult, rfl⟩, sentUnder_eq_nil hsent, hhandler, ?_⟩
      rintro rfl
      exact hack _ rfl rfl
  | elapsed timer htimer =>
      exact Or.inl ⟨hstores.mpr ⟨_, rfl⟩, ⟨_, hresult, rfl⟩, hnone, rfl, nofun⟩
  | answered ack reaction hack hackid hreaction =>
      rw [TxEntry.responseReceived_qos1 hwaits (hackid.trans hid.symm)] at hreaction
      split at hreaction
      · rename_i htype
        cases hreaction
        have hpuback : ack = .puback r.key := by
          cases ack with
          | puback i => exact congrArg PublishAck.puback hackid
          | pubrec | pubrel | pubcomp => cases htype
        refine Or.inr (Or.inl ⟨?_, hnone, by rw [hpuback]⟩)
        rw [hstores]
        rintro ⟨after, hafter⟩
        cases hafter
      · cases hreaction
  | resent timer htimer hretry =>
      exact Or.inr (Or.inr (Or.inl ⟨hstores.mpr ⟨_, rfl⟩, ⟨_, hresult, rfl⟩,
        sentUnder_publish hid hqos, rfl⟩))
  | failed timer htimer hretry =>
      refine Or.inr (Or.inr (Or.inr ⟨?_, hnone, rfl⟩))
      rw [hstores]
      rintro ⟨after, hafter⟩
      cases hafter

/-- What is known of a publication with quality of service 1 some steps after its start. -/
structure Sent (maxRetries : Nat) (r : Incarnation UInt16) (outgoing : Publish)
    (steps : List LifetimeStep) (s : WatchedTable) : Prop where
  stored : s.Stores r → Carries r outgoing s ∧ (∀ x ∈ steps, ¬ Acknowledges r x) ∧
    transmissions r.key steps = List.replicate (Watched.handled r steps) outgoing
  removed : ¬ s.Stores r → s.state.publications.lookup r.key = none ∧
    ((∀ x ∈ steps, ¬ Acknowledges r x) → maxRetries < Watched.handled r steps ∧
      transmissions r.key steps = List.replicate maxRetries outgoing)

variable {base : List LifetimeStep}

/-- A handler gives up its publication exactly if the retries are used up. -/
theorem stores_of_handler (hmax : maxRetries < 65535) (hs : Accounted maxRetries steps s)
    (h : lifetimes.step (some s) (.handler r) = some (output, some s')) (hr : s.Stores r) :
    s'.Stores r ↔ Watched.handled r steps < maxRetries := by
  have hle := hs.2.bounded (by omega) hr
  rw [Watched.handler_keeps_iff (timers_lawful maxRetries) hs h hr, Nat.mod_eq_of_lt (by omega)]
  omega

/-- A publication is given up with the expiration that follows the last retry. -/
theorem handled_of_given_up (hmax : maxRetries < 65535) (hs : Accounted maxRetries steps s)
    (h : lifetimes.step (some s) (.handler r) = some (output, some s')) (hr : s.Stores r)
    (hnot : ¬ s'.Stores r) : Watched.handled r steps = maxRetries := by
  have hle := hs.2.bounded (by omega) hr
  have hlast := mt (stores_of_handler hmax hs h hr).mpr hnot
  omega

/-- A handler that has not run before a publication is stored counts from then on. -/
theorem handled_base (hzero : Watched.handled r base = 0) (steps : List LifetimeStep) :
    Watched.handled r (base ++ steps) = Watched.handled r steps := by
  rw [Watched.handled_append, hzero, Nat.zero_add]

/-- One step of a publication. -/
theorem Sent.step (hmax : maxRetries < 65535) (hqos : outgoing.qos ≠ .atMostOnce)
    (hzero : Watched.handled r base = 0) (hs : Accounted maxRetries (base ++ steps) s)
    (hsent : Sent maxRetries r outgoing steps s)
    (h : lifetimes.step (some s) o = some (output, some s'))
    (hids : ¬ Assigns r.key ⟨some s, o, output, some s'⟩) :
    Sent maxRetries r outgoing (steps ++ [⟨some s, o, output, some s'⟩]) s' := by
  have hs' := hs.step (timers_lawful maxRetries) h
  by_cases hr : s.Stores r
  · obtain ⟨hcarries, hacks, htrans⟩ := hsent.stored hr
    rcases qos1_cases hs h hr hcarries hqos with
      ⟨hr', hcarries', hnothing, hhandler, hack⟩ | ⟨hnot, hnothing, rfl⟩ |
        ⟨hr', hcarries', hagain, rfl⟩ | ⟨hnot, hnothing, rfl⟩
    · -- nothing happens to the publication
      refine ⟨fun _ => ⟨hcarries', ?_, ?_⟩, fun hnot => absurd hr' hnot⟩
      · intro x hx
        rcases List.mem_append.mp hx with hx | hx
        · exact hacks x hx
        · rw [List.mem_singleton.mp hx]
          exact fun hlast => hack hlast.2
      · rw [transmissions_append, transmissions_singleton, hnothing, htrans, List.append_nil,
          Watched.handled_append, Watched.handled_singleton]
        simp [hhandler]
    · -- it is acknowledged
      refine ⟨fun hr' => absurd hr' hnot, fun _ => ⟨lookup_eq_none_of_step hs h hr hnot, ?_⟩⟩
      intro hall
      have hlast : Acknowledges r
          ⟨some s, .event (.response true (.puback r.key)), output, some s'⟩ :=
        ⟨Watch.stored_some.mpr hr, rfl⟩
      exact absurd hlast (hall _ (List.mem_append_right _ (List.mem_singleton_self _)))
    · -- it is sent again
      refine ⟨fun _ => ⟨hcarries', ?_, ?_⟩, fun hnot => absurd hr' hnot⟩
      · intro x hx
        rcases List.mem_append.mp hx with hx | hx
        · exact hacks x hx
        · rw [List.mem_singleton.mp hx]
          exact fun hlast => by cases hlast.2
      · rw [transmissions_append, transmissions_singleton, hagain, htrans,
          Watched.handled_append, Watched.handled_singleton]
        simp [Occasion.handles, List.replicate_succ']
    · -- it is given up
      refine ⟨fun hr' => absurd hr' hnot,
        fun _ => ⟨lookup_eq_none_of_step hs h hr hnot, fun _ => ?_⟩⟩
      have hall : Watched.handled r steps = maxRetries := by
        rw [← handled_base hzero, handled_of_given_up hmax hs h hr hnot]
      rw [transmissions_append, transmissions_singleton, hnothing, htrans, List.append_nil,
        Watched.handled_append, Watched.handled_singleton, hall]
      simp [Occasion.handles]
  · -- it has been removed before
    obtain ⟨hnone, hdone⟩ := hsent.removed hr
    have hsilent := silent_of_run hs (Machine.Run.single h) hnone
      (fun x hx => by rw [List.mem_singleton.mp hx]; exact hids)
    have hnot : ¬ s'.Stores r := by
      intro hr'
      obtain ⟨entry, hentry⟩ := exists_entry hs' hr'
      rw [hsilent.1] at hentry
      cases hentry
    refine ⟨fun hr' => absurd hr' hnot, fun _ => ⟨hsilent.1, fun hall => ?_⟩⟩
    obtain ⟨hlt, htrans⟩ := hdone fun x hx => hall x (List.mem_append_left _ hx)
    rw [transmissions_append, hsilent.2, htrans, List.append_nil, Watched.handled_append]
    exact ⟨by omega, rfl⟩

theorem Sent.of_run (hmax : maxRetries < 65535) (hqos : outgoing.qos ≠ .atMostOnce)
    (hzero : Watched.handled r base = 0) (hs : Accounted maxRetries base s)
    (hr : s.Stores r) (hcarries : Carries r outgoing s)
    (h : lifetimes.Run (some s) steps (some s')) (hids : ∀ x ∈ steps, ¬ Assigns r.key x) :
    Sent maxRetries r outgoing steps s' := by
  refine h.alive_invariant (fun _ => rfl) (fun x => ¬ Assigns r.key x)
    (fun pre t => Sent maxRetries r outgoing pre t) ?_ ?_ hids
  · exact ⟨fun _ => ⟨hcarries, fun _ hx => absurd hx List.not_mem_nil, rfl⟩,
      fun hnot => absurd hr hnot⟩
  · intro pre t o output u hpre ht hstep hid
    exact ht.step hmax hqos hzero (hs.append (timers_lawful maxRetries) hpre) hstep hid

/-- What becomes of a publication with quality of service 1, which has sent its packet once. -/
structure AtLeastOnce (maxRetries : Nat) (r : Incarnation UInt16) (outgoing : Publish)
    (steps : List LifetimeStep) (s : WatchedTable) : Prop where
  /-- Until its PUBACK it stays in the table as long as the retries last. -/
  stays : (∀ x ∈ steps, ¬ Acknowledges r x) →
    (s.Stores r ↔ Watched.handled r steps ≤ maxRetries)
  /-- Until then it has sent its packet once more for each expiration, up to the number of
  retries, and no other packet has been sent under its identifier. -/
  sends : (∀ x ∈ steps, ¬ Acknowledges r x) → outgoing :: transmissions r.key steps =
    List.replicate (1 + min (Watched.handled r steps) maxRetries) outgoing
  /-- It is removed once. -/
  removed : steps.countP (objects.removes r) = if s.Stores r then 0 else 1
  /-- Its PUBACK removes it. -/
  acknowledged : ∀ x ∈ steps, Acknowledges r x → objects.removes r x = true
  /-- Nothing else does but the expiration that follows the last retry, and nothing is sent from
  then on. -/
  ends : ∀ pre x post, steps = pre ++ x :: post → objects.removes r x = true →
    (Acknowledges r x ∨ x.event = .handler r ∧ Watched.handled r pre = maxRetries) ∧
      transmissions r.key (x :: post) = []

/-- What is known of the states around a step at which the publication is stored. -/
theorem exists_states_of_stored (hmax : maxRetries < 65535) (hqos : outgoing.qos ≠ .atMostOnce)
    (hzero : Watched.handled r base = 0) (hs : Accounted maxRetries base s)
    (hr : s.Stores r) (hcarries : Carries r outgoing s)
    (h : lifetimes.Run (some s) steps (some s')) (hids : ∀ x ∈ steps, ¬ Assigns r.key x)
    {pre post : List LifetimeStep} {x : LifetimeStep} (hsplit : steps = pre ++ x :: post)
    (hbefore : objects.stored x.before r = true) :
    ∃ t u, x = ⟨some t, x.event, x.output, some u⟩ ∧ t.Stores r ∧ Carries r outgoing t ∧
      Accounted maxRetries (base ++ pre) t ∧
      lifetimes.step (some t) x.event = some (x.output, some u) ∧
      lifetimes.Run (some u) post (some s') := by
  obtain ⟨t, u, hx, hpre, hstep, hpost⟩ := h.alive_split (fun _ => rfl) hsplit
  have ht : t.Stores r := by
    rw [hx] at hbefore
    exact Watch.stored_some.mp hbefore
  have hpreids : ∀ y ∈ pre, ¬ Assigns r.key y := fun y hy =>
    hids y (by rw [hsplit]; exact List.mem_append_left _ hy)
  have hsent := Sent.of_run hmax hqos hzero hs hr hcarries hpre hpreids
  exact ⟨t, u, hx, ht, (hsent.stored ht).1, hs.append (timers_lawful maxRetries) hpre, hstep,
    hpost⟩

/-- The PUBACK of a publication removes it. -/
theorem not_stores_of_puback (hs : Accounted maxRetries steps s)
    (h : lifetimes.step (some s) (.event (.response true (.puback r.key))) =
      some (output, some s')) (hr : s.Stores r) (hcarries : Carries r outgoing s)
    (hqos : outgoing.qos ≠ .atMostOnce) : ¬ s'.Stores r := by
  rcases qos1_cases hs h hr hcarries hqos with
    ⟨-, -, -, -, hother⟩ | ⟨hnot, -⟩ | ⟨-, -, -, hevent⟩ | ⟨hnot, -⟩
  · exact absurd rfl hother
  · exact hnot
  · cases hevent
  · exact hnot

/-- A publication is removed by its PUBACK or by its handler, which send nothing. -/
theorem event_of_removed (hs : Accounted maxRetries steps s)
    (h : lifetimes.step (some s) o = some (output, some s')) (hr : s.Stores r)
    (hcarries : Carries r outgoing s) (hqos : outgoing.qos ≠ .atMostOnce)
    (hnot : ¬ s'.Stores r) : sentUnder r.key output = [] ∧
      (o = .event (.response true (.puback r.key)) ∨ o = .handler r) := by
  rcases qos1_cases hs h hr hcarries hqos with
    ⟨hr', -⟩ | ⟨-, hnothing, hevent⟩ | ⟨hr', -⟩ | ⟨-, hnothing, hevent⟩
  · exact absurd hr' hnot
  · exact ⟨hnothing, Or.inl hevent⟩
  · exact absurd hr' hnot
  · exact ⟨hnothing, Or.inr hevent⟩

theorem AtLeastOnce.of_run (hmax : maxRetries < 65535) (hqos : outgoing.qos ≠ .atMostOnce)
    (hzero : Watched.handled r base = 0) (hs : Accounted maxRetries base s)
    (hr : s.Stores r) (hcarries : Carries r outgoing s)
    (h : lifetimes.Run (some s) steps (some s')) (hids : ∀ x ∈ steps, ¬ Assigns r.key x) :
    AtLeastOnce maxRetries r outgoing steps s' := by
  have hsent := Sent.of_run hmax hqos hzero hs hr hcarries h hids
  have hbounded (hr' : s'.Stores r) : Watched.handled r steps ≤ maxRetries := by
    rw [← handled_base hzero]
    exact (hs.append (timers_lawful maxRetries) h).2.bounded (by omega) hr'
  refine ⟨?_, ?_, ?_, ?_, ?_⟩
  · intro hacks
    refine ⟨hbounded, fun hle => ?_⟩
    by_contra hnot
    have hlt := ((hsent.removed hnot).2 hacks).1
    omega
  · intro hacks
    by_cases hr' : s'.Stores r
    · rw [(hsent.stored hr').2.2, Nat.min_eq_left (hbounded hr'), Nat.add_comm,
        List.replicate_succ]
    · obtain ⟨hlt, htrans⟩ := (hsent.removed hr').2 hacks
      rw [htrans, Nat.min_eq_right (by omega), Nat.add_comm, List.replicate_succ]
  · exact Watch.countP_removes (W := objects) hs.2.consistent h hr
  · intro x hx hack
    obtain ⟨pre, post, hsplit⟩ := List.append_of_mem hx
    obtain ⟨t, u, hx', ht, hcarries', hacc, hstep, -⟩ :=
      exists_states_of_stored hmax hqos hzero hs hr hcarries h hids hsplit hack.1
    rw [hack.2] at hstep
    rw [hx']
    exact Watch.removes_some.mpr ⟨ht, not_stores_of_puback hacc hstep ht hcarries' hqos⟩
  · intro pre x post hsplit hremoves
    have hbefore : objects.stored x.before r = true := by
      simp only [Watch.removes, Bool.and_eq_true] at hremoves
      exact hremoves.1.1
    obtain ⟨t, u, hx, ht, hcarries', hacc, hstep, hpost⟩ :=
      exists_states_of_stored hmax hqos hzero hs hr hcarries h hids hsplit hbefore
    have hnot : ¬ u.Stores r := by
      rw [hx] at hremoves
      exact (Watch.removes_some.mp hremoves).2
    have hacc' := hacc.step (timers_lawful maxRetries) hstep
    have hfree := lookup_eq_none_of_step hacc hstep ht hnot
    have hsilent := silent_of_run hacc' hpost hfree fun y hy => hids y (by
      rw [hsplit]
      exact List.mem_append_right _ (List.mem_cons_of_mem _ hy))
    have htail : transmissions r.key (x :: post) = sentUnder r.key x.output := by
      rw [← List.singleton_append, transmissions_append, transmissions_singleton, hsilent.2,
        List.append_nil]
    rw [htail]
    obtain ⟨hnothing, hevent | hevent⟩ := event_of_removed hacc hstep ht hcarries' hqos hnot
    · exact ⟨Or.inl ⟨hbefore, hevent⟩, hnothing⟩
    · rw [hevent] at hstep
      have hall := handled_of_given_up hmax hacc hstep ht hnot
      rw [handled_base hzero] at hall
      exact ⟨Or.inr ⟨hevent, hall⟩, hnothing⟩

/-- The start of a publication with quality of service 1. -/
def startStep (s : WatchedTable) (p : Publish) (output : Except Fault (List SenderCall))
    (started : WatchedTable) : LifetimeStep :=
  ⟨some s, .event (.publish true p .atLeastOnce), output, some started⟩

/-- How a publication goes on after its start, and how it ends.  What it sends is encoded each
time. -/
structure SentAtLeastOnce (maxRetries : Nat) (r : Incarnation UInt16) (outgoing : Publish)
    (start : LifetimeStep) (steps : List LifetimeStep) (s : WatchedTable) : Prop where
  lives : AtLeastOnce maxRetries r outgoing steps s
  encoded : Encoded (start :: steps)

/-- A publication with quality of service 1 is sent at least once, as long as no packet becomes too
long. -/
theorem atLeastOnce_of_run (hmax : maxRetries < 65535) {pre : List LifetimeStep}
    {started : WatchedTable} {p : Publish}
    (hpre : lifetimes.Run (some (initially maxRetries)) pre (some s))
    (hstart : lifetimes.step (some s) (.event (.publish true p .atLeastOnce)) =
      some (output, some started))
    (hrun : lifetimes.Run (some started) steps (some s'))
    (hids : ∀ x ∈ steps, ¬ Assigns s.state.nextIdentifier x)
    (hfits : ∀ x ∈ pre ++ startStep s p output started :: steps, Fitting x) :
    ∃ outgoing,
      (p.withNewPacketIdentifier s.state.nextIdentifier).setQos .atLeastOnce = .ok outgoing ∧
      output = .ok [.send (.publish outgoing)] ∧
      started.Stores ⟨s.state.nextIdentifier, s.next⟩ ∧
      SentAtLeastOnce maxRetries ⟨s.state.nextIdentifier, s.next⟩ outgoing
        (startStep s p output started) steps s' := by
  have hs := accounted_of_run hpre
  obtain ⟨outgoing, hset, houtput, hstores, hentry⟩ := publish_of_step hs (by decide) hstart
  refine ⟨outgoing, hset, houtput, hstores, ?_, ?_⟩
  · have hqos : outgoing.qos ≠ .atMostOnce := by
      rw [Publish.qos_of_setQos hset]
      decide
    exact AtLeastOnce.of_run hmax hqos (hs.handled_new _ _ _ _)
      (hs.step (timers_lawful maxRetries) hstart) hstores ⟨_, hentry, rfl⟩ hrun hids
  · have hall := hpre.append ((Machine.Run.single hstart).append hrun)
    have hencoded := encoded_of_run hall hfits
    exact fun x hx => hencoded x (List.mem_append_right _ hx)

end Qos1

/-- A publication whose timer expires once has sent its packet twice. -/
theorem atLeastOnce_sample : ∃ started outgoing steps s,
    lifetimes.Run (some (initially 3)) [⟨some (initially 3),
      .event (.publish true samplePublish .atLeastOnce), .ok [.send (.publish outgoing)],
      some started⟩] (some started) ∧
    lifetimes.Run (some started) steps (some s) ∧ Watched.handled ⟨1, 0⟩ steps = 1 ∧
    SentAtLeastOnce 3 ⟨1, 0⟩ outgoing (startStep (initially 3) samplePublish
      (.ok [.send (.publish outgoing)]) started) steps s := by
  obtain ⟨outgoing, started, hset, hrun, hstores, hentry, -⟩ :=
    exists_run_started 3 samplePublish .atLeastOnce (by decide) (by decide)
  have hview : timers.view started.state 1 = some ⟨true, 0, 0⟩ :=
    view_eq_some_iff.mpr ⟨_, hentry, view_startedEntry _ _ _⟩
  obtain ⟨steps, s, hround, hevents, hone, -, -⟩ := Watched.exists_round (timers_lawful 3)
    (accounted_of_run hrun) hstores hview rfl
  have hids : ∀ x ∈ steps, ¬ Assigns (initially 3).state.nextIdentifier x := by
    rintro x hx ⟨t, e, -, hevent, -⟩
    rcases hevents x hx with h | h
    · rw [hevent] at h
      cases h
    · rw [hevent] at h
      cases h
  have hfits : ∀ x ∈ [] ++ startStep (initially 3) samplePublish
      (.ok [.send (.publish outgoing)]) started :: steps, Fitting x := by
    intro x hx e hevent
    rcases List.mem_cons.mp hx with rfl | hx
    · cases hevent
      exact fun _ _ => fits_samplePublish _
    · rcases hevents x hx with h | h <;> cases hevent.symm.trans h
  obtain ⟨outgoing', hset', -, -, hresult⟩ :=
    atLeastOnce_of_run (by decide) (Machine.Run.nil _) hrun.step_of_singleton hround hids hfits
  cases hset.symm.trans hset'
  exact ⟨started, outgoing, steps, s, hrun, hround, hone, hresult⟩

/-- A message that is almost as long as a packet can be. -/
def longPublish : Publish :=
  Publish.create false .atMostOnce false [0x61] 0x0000 (List.replicate 268435451 0x00)

theorem bodyLength_longPublish (qos : QoS) :
    bodyLength longPublish qos = 268435454 + if qos = .atMostOnce then 0 else 2 := by
  have htopic : longPublish.topic.length = 1 := rfl
  have hmessage : longPublish.applicationMessage.length = 268435451 := List.length_replicate
  rw [bodyLength, htopic, hmessage]
  omega

theorem qos_longPublish : longPublish.qos = .atMostOnce := Publish.qos_create _ _ _ _ _ _

theorem encodable_longPublish : Encodable (.publish longPublish) := by
  have htopic : longPublish.topic.length ≤ 65535 := by decide
  refine encodable_publish_iff.mpr ⟨htopic, announced_create _ _ _ _ _ _, ?_⟩
  rw [qos_longPublish, bodyLength_longPublish, if_pos rfl]
  decide

/-- A client may send such a message, which has no packet identifier.  With one it becomes too long,
so that it is stored in the table but never sent. -/
theorem not_sentAtLeastOnce_longPublish : ∃ bytes outgoing started,
    encoding (.publish longPublish) = .ok bytes ∧
      AcceptedAs longPublish.topic longPublish.applicationMessage bytes ∧
    lifetimes.step (some (initially 3)) (.event (.publish true longPublish .atLeastOnce)) =
      some (.ok [.send (.publish outgoing)], some started) ∧
    ¬ SentAtLeastOnce 3 ⟨1, 0⟩ outgoing (startStep (initially 3) longPublish
      (.ok [.send (.publish outgoing)]) started) [] started := by
  have hreserved : longPublish.qos ≠ .reserved := by
    rw [qos_longPublish]
    decide
  have hdup : longPublish.dup = true → longPublish.qos ≠ .atMostOnce := by
    intro hdup
    cases hdup
  obtain ⟨outgoing, started, hset, hrun, -⟩ :=
    exists_run_started 3 longPublish .atLeastOnce hreserved (by decide)
  refine ⟨_, outgoing, started, encoding_eq encodable_longPublish,
    (acceptedAs_iff encodable_longPublish).mpr ⟨hdup, hreserved, ?_⟩, hrun.step_of_singleton, ?_⟩
  · have hletter : WellFormedTopicName [0x61] := by decide
    exact hletter
  · intro h
    have hencoded := h.encoded _ List.mem_cons_self _ rfl outgoing (by simp)
    have hfits := (encoded_iff_fits (encodable_withNewPacketIdentifier encodable_longPublish 1)
      hset (by decide)).mp hencoded
    have hlength := hfits.length
    rw [bodyLength_withNewPacketIdentifier, bodyLength_longPublish, if_neg (by decide)] at hlength
    exact absurd hlength (by decide)

end TxTable

end Dispatch
end WallyIo
