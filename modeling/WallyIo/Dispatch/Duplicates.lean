import WallyIo.Dispatch.Delivery
import WallyIo.Dispatch.Transmissions

/-!
# The DUP flag of retransmissions

The flag of an outgoing packet is that of the packet which the server has received, since the
copy under a new packet identifier keeps all flags.  When it is sent again the flag is set with
quality of service 2 only.

Main results:

- Theorem {lit}`Course.of_run`: what a publication sends after its start.
- Theorem {lit}`marksDuplicates_iff`: when DUP marks exactly the retransmissions.
-/

namespace WallyIo
namespace Dispatch

open Protocol Library

namespace TxTable

/-- What a publication sends while it is stored. -/
def resends (r : Incarnation UInt16) (steps : List LifetimeStep) : List Publish :=
  transmissions r.key (steps.filter fun x => objects.stored x.before r)

/-- The timer of a publication has expired, and its handler runs. -/
def Expires (r : Incarnation UInt16) (x : LifetimeStep) : Prop :=
  objects.stored x.before r = true ∧ x.event = .handler r

/-- Two packets that differ in their flags at most. -/
structure SameContent (p p' : Publish) : Prop where
  packetIdentifier : p'.packetIdentifier = p.packetIdentifier
  topic : p'.topic = p.topic
  qos : p'.qos = p.qos
  applicationMessage : p'.applicationMessage = p.applicationMessage

/-- DUP marks exactly the retransmissions of a packet, whose contents do not change. -/
structure MarksDuplicates (source : Publish) (i : UInt16) (qos : QoS) (first : Publish)
    (later : List Publish) : Prop where
  unmarked : first.dup = false
  marked : ∀ p ∈ later, p.dup = true
  identifier : ∀ p ∈ first :: later, p.packetIdentifier = i
  content : ∀ p ∈ first :: later, p.topic = source.topic ∧ p.qos = qos ∧
    p.applicationMessage = source.applicationMessage

theorem SameContent.refl (p : Publish) : SameContent p p := ⟨rfl, rfl, rfl, rfl⟩

theorem SameContent.trans {p p' p'' : Publish} (h : SameContent p p') (h' : SameContent p' p'') :
    SameContent p p'' :=
  ⟨h'.packetIdentifier.trans h.packetIdentifier, h'.topic.trans h.topic, h'.qos.trans h.qos,
    h'.applicationMessage.trans h.applicationMessage⟩

theorem sameContent_setDup (p : Publish) (dup : Bool) : SameContent p (p.setDup dup) :=
  ⟨rfl, rfl, p.qos_setDup dup, rfl⟩

section Retransmissions

variable {r : Incarnation UInt16} {x : LifetimeStep} {steps xs ys : List LifetimeStep}

theorem resends_append (r : Incarnation UInt16) (xs ys : List LifetimeStep) :
    resends r (xs ++ ys) = resends r xs ++ resends r ys := by
  rw [resends, List.filter_append, transmissions_append]
  rfl

theorem resends_singleton_of_stored (h : objects.stored x.before r = true) :
    resends r [x] = sentUnder r.key x.output := by
  have hfilter : [x].filter (fun x => objects.stored x.before r) = [x] := by simp [h]
  rw [resends, hfilter, transmissions_singleton]

theorem resends_singleton_of_not_stored (h : objects.stored x.before r = false) :
    resends r [x] = [] := by
  have hfilter : [x].filter (fun x => objects.stored x.before r) = [] := by simp [h]
  rw [resends, hfilter]
  rfl

variable {maxRetries : Nat} {s s' : WatchedTable} {o : Incident}
  {output : Except Fault (List SenderCall)} {outgoing : Publish} {qos : QoS} {entry : TxEntry}

/-- What the packet of an entry has in common with the one that has been sent first. -/
structure Carried (qos : QoS) (outgoing : Publish) (entry : TxEntry) : Prop where
  level : entry.level = qos
  content : SameContent outgoing entry.publish
  /-- With quality of service 1 it is the same packet. -/
  itself : qos = .atLeastOnce → entry.publish = outgoing

/-- What a publication sends again. -/
structure Resent (qos : QoS) (outgoing p : Publish) : Prop where
  content : SameContent outgoing p
  itself : qos = .atLeastOnce → p = outgoing
  duplicate : qos = .exactlyOnce → p.dup = true

theorem Carried.withTimer (h : Carried qos outgoing entry) (timer : Timer) :
    Carried qos outgoing (entry.withTimer timer) := by
  obtain ⟨hlevel, hcontent, hitself⟩ := h
  constructor
  · rw [TxEntry.level_withTimer, hlevel]
  · rw [TxEntry.publish_withTimer]
    exact hcontent
  · rw [TxEntry.publish_withTimer]
    exact hitself

theorem Carried.repeated (h : Carried qos outgoing entry) (timer : Timer) :
    Carried qos outgoing (entry.repeated timer) := by
  obtain ⟨rfl, hcontent, hitself⟩ := h
  cases entry with
  | qos1 p => exact ⟨rfl, hcontent, hitself⟩
  | qos2 p =>
      refine ⟨rfl, ?_, nofun⟩
      by_cases hrec : p.state = .waitingForRec
      · simp only [TxEntry.repeated, hrec, if_true]
        exact hcontent.trans (sameContent_setDup _ _)
      · simp only [TxEntry.repeated, hrec, if_false]
        exact hcontent

/-- Whatever PUBLISH an entry sends again. -/
theorem Carried.resent (h : Carried qos outgoing entry) {p : Publish}
    (hp : p ∈ sentUnder r.key (.ok [.send entry.resent])) : Resent qos outgoing p := by
  obtain ⟨rfl, hcontent, hitself⟩ := h
  obtain ⟨packet, hpacket, hunder⟩ := List.mem_filterMap.mp hp
  have hsent : packet = entry.resent := by simpa using hpacket
  obtain ⟨hpublish, -, -⟩ := publishUnder_eq_some_iff.mp hunder
  rw [hpublish] at hsent
  cases entry with
  | qos1 q =>
      cases hsent
      refine ⟨hcontent, hitself, ?_⟩
      intro hqos
      cases hqos
  | qos2 q =>
      rw [TxEntry.resent] at hsent
      split at hsent
      · cases hsent
        refine ⟨hcontent.trans (sameContent_setDup _ _), ?_, fun _ => Publish.dup_setDup _ _⟩
        intro hqos
        cases hqos
      · cases hsent

/-! ## What is sent after the start -/

/-- The course of a publication since it has been started. -/
structure Course (maxRetries : Nat) (qos : QoS) (outgoing : Publish) (r : Incarnation UInt16)
    (steps : List LifetimeStep) (s : WatchedTable) : Prop where
  numbered : r.serial < s.next
  carried : s.Stores r → ∀ entry, s.state.publications.lookup r.key = some entry →
    Carried qos outgoing entry
  resent : ∀ p ∈ resends r steps, Resent qos outgoing p
  /-- With quality of service 1 the first expiration sends the packet again, if there are
  retries. -/
  quiet : s.Stores r → resends r steps = [] → qos = .atLeastOnce → Watched.handled r steps = 0
  again : qos = .atLeastOnce →
    (resends r steps = [] ↔ maxRetries = 0 ∨ ∀ x ∈ steps, ¬ Expires r x)

variable {base : List LifetimeStep}

/-- A step at which nothing expires does not matter. -/
theorem forall_append_singleton (hx : ¬ Expires r x) :
    (∀ y ∈ steps ++ [x], ¬ Expires r y) ↔ ∀ y ∈ steps, ¬ Expires r y := by
  simp only [List.mem_append, List.mem_singleton]
  constructor
  · exact fun h y hy => h y (Or.inl hy)
  · rintro h y (hy | rfl)
    · exact h y hy
    · exact hx

/-- A step at which the publication is not stored any longer. -/
theorem Course.step_removed (hs : Accounted maxRetries (base ++ steps) s)
    (hcourse : Course maxRetries qos outgoing r steps s) (hr : ¬ s.Stores r)
    (h : lifetimes.step (some s) o = some (output, some s')) :
    Course maxRetries qos outgoing r (steps ++ [⟨some s, o, output, some s'⟩]) s' := by
  have hgone : s'.toTracked.Gone r :=
    Watch.gone_step (W := objects) hs.2.consistent ⟨hcourse.numbered, hr⟩ h
  have hnot : objects.stored (some s) r = false := Watch.stored_some_eq_false.mpr hr
  have hsame : resends r (steps ++ [⟨some s, o, output, some s'⟩]) = resends r steps := by
    rw [resends_append, resends_singleton_of_not_stored hnot, List.append_nil]
  have hlast : ¬ Expires r ⟨some s, o, output, some s'⟩ := by
    rw [Expires, hnot]
    exact nofun
  refine ⟨hgone.numbered, fun hr' => absurd hr' hgone.removed, ?_,
    fun hr' => absurd hr' hgone.removed, ?_⟩
  · rw [hsame]
    exact hcourse.resent
  · rw [hsame, forall_append_singleton hlast]
    exact hcourse.again

/-- A step at which it is stored, and which does not run a handler of its timer. -/
theorem Course.step_quiet (hcourse : Course maxRetries qos outgoing r steps s) (hr : s.Stores r)
    (hnext : r.serial < s'.next) (hhandler : o.handles r = false)
    (hnothing : sentUnder r.key output = [])
    (hcarried : s'.Stores r → ∀ entry, s'.state.publications.lookup r.key = some entry →
      Carried qos outgoing entry) :
    Course maxRetries qos outgoing r (steps ++ [⟨some s, o, output, some s'⟩]) s' := by
  have hstored : objects.stored (some s) r = true := Watch.stored_some.mpr hr
  have hsame : resends r (steps ++ [⟨some s, o, output, some s'⟩]) = resends r steps := by
    rw [resends_append, resends_singleton_of_stored hstored, hnothing, List.append_nil]
  have hlast : ¬ Expires r ⟨some s, o, output, some s'⟩ := by
    rintro ⟨-, hevent⟩
    rw [show o = .handler r from hevent] at hhandler
    simp [Occasion.handles] at hhandler
  refine ⟨hnext, hcarried, ?_, ?_, ?_⟩
  · rw [hsame]
    exact hcourse.resent
  · rw [hsame, Watched.handled_append, Watched.handled_singleton, hhandler]
    exact fun _ hnone hqos => hcourse.quiet hr hnone hqos
  · rw [hsame, forall_append_singleton hlast]
    exact hcourse.again

/-- A step that runs a handler of its timer. -/
theorem Course.step_handler (hzero : Watched.handled r base = 0)
    (hs : Accounted maxRetries (base ++ steps) s)
    (hcourse : Course maxRetries qos outgoing r steps s) (hr : s.Stores r)
    (h : lifetimes.step (some s) (.handler r) = some (output, some s'))
    (hentry : s.state.publications.lookup r.key = some entry) (hnext : r.serial < s'.next)
    (hsent : ∀ p ∈ sentUnder r.key output, Resent qos outgoing p)
    (hagain : entry.mayRetry = true → qos = .atLeastOnce →
      sentUnder r.key output = [entry.publish])
    (hfailed : entry.mayRetry = false → sentUnder r.key output = [])
    (hcarried : s'.Stores r → ∀ entry, s'.state.publications.lookup r.key = some entry →
      Carried qos outgoing entry) :
    Course maxRetries qos outgoing r (steps ++ [⟨some s, .handler r, output, some s'⟩]) s' := by
  have hstored : objects.stored (some s) r = true := Watch.stored_some.mpr hr
  have hall : resends r (steps ++ [⟨some s, .handler r, output, some s'⟩]) =
      resends r steps ++ sentUnder r.key output := by
    rw [resends_append, resends_singleton_of_stored hstored]
  have hview : timers.view s.state r.key = some entry.view :=
    view_eq_some_iff.mpr ⟨entry, hentry, rfl⟩
  have hmay := mayRetry_eq_view (hs.1.entries _ _ hentry)
  -- the first expiration is a retry, if there are any
  have hempty (hqos : qos = .atLeastOnce) :
      resends r steps ++ sentUnder r.key output = [] ↔ maxRetries = 0 := by
    constructor
    · intro hnone
      by_contra hmax
      obtain ⟨hbefore, hlast⟩ := List.append_eq_nil_iff.mp hnone
      have hcount := hs.2.counted hr hview
      rw [Watched.handled_append, hzero, hcourse.quiet hr hbefore hqos] at hcount
      have htrue : entry.mayRetry = true := by
        rw [hmay, hcount, decide_eq_true_eq]
        omega
      rw [hagain htrue hqos] at hlast
      cases hlast
    · intro hmax
      have hbounded := hs.2.bounded (by omega) hr
      have hcount := hs.2.counted hr hview
      rw [show Watched.handled r (base ++ steps) = 0 by omega] at hcount
      have hfalse : entry.mayRetry = false := by
        rw [hmay, hcount, decide_eq_false_iff_not]
        omega
      rw [(hcourse.again hqos).mpr (Or.inl hmax), hfailed hfalse]
      rfl
  have hexpires : Expires r ⟨some s, .handler r, output, some s'⟩ := ⟨hstored, rfl⟩
  have hmem : (⟨some s, .handler r, output, some s'⟩ : LifetimeStep) ∈
      steps ++ [⟨some s, .handler r, output, some s'⟩] :=
    List.mem_append_right _ (List.mem_singleton_self _)
  refine ⟨hnext, hcarried, ?_, ?_, ?_⟩
  · rw [hall]
    intro p hp
    rcases List.mem_append.mp hp with hp | hp
    · exact hcourse.resent p hp
    · exact hsent p hp
  · rw [hall]
    intro hr' hnone hqos
    -- without retries the publication does not survive
    have hs' := hs.step (timers_lawful maxRetries) h
    have hbounded := hs'.2.bounded (by rw [(hempty hqos).mp hnone]; decide) hr'
    rw [(hempty hqos).mp hnone, List.append_assoc, Watched.handled_append] at hbounded
    omega
  · rw [hall]
    intro hqos
    rw [hempty hqos]
    constructor
    · exact Or.inl
    · rintro (hmax | hall)
      · exact hmax
      · exact absurd hexpires (hall _ hmem)

/-- One step. -/
theorem Course.step (hlevel : outgoing.qos = qos) (hzero : Watched.handled r base = 0)
    (hs : Accounted maxRetries (base ++ steps) s)
    (hcourse : Course maxRetries qos outgoing r steps s)
    (h : lifetimes.step (some s) o = some (output, some s')) :
    Course maxRetries qos outgoing r (steps ++ [⟨some s, o, output, some s'⟩]) s' := by
  by_cases hr : s.Stores r
  · obtain ⟨entry, hentry⟩ := exists_entry hs hr
    obtain ⟨calls, rfl, hlives⟩ := lives_of_step hs h hr hentry
    have hbefore := hcourse.carried hr entry hentry
    obtain ⟨hwaits, hid⟩ := hs.1.wellFormed _ _ hentry
    have hnext : r.serial < s'.next :=
      Nat.lt_of_lt_of_le hcourse.numbered (Watch.next_le (W := objects) h)
    generalize hresult : s'.state.publications.lookup r.key = result at hlives
    cases hlives with
    | untouched _ _ hhandler hack hsent =>
        refine hcourse.step_quiet hr hnext hhandler (sentUnder_eq_nil hsent) ?_
        intro _ after hafter
        cases hresult.symm.trans hafter
        exact hbefore
    | elapsed timer htimer =>
        refine hcourse.step_quiet hr hnext rfl rfl ?_
        intro _ after hafter
        cases hresult.symm.trans hafter
        exact hbefore.withTimer timer
    | answered ack reaction hack hackid hreaction =>
        have hresponds := TxEntry.responds_responseReceived hwaits (hackid.trans hid.symm) hreaction
        refine hcourse.step_quiet hr hnext rfl
          (sentUnder_eq_nil fun p hp => absurd hp (hresponds.sent p)) ?_
        intro _ after hafter
        have hkept := hresult.symm.trans hafter
        split at hkept
        · cases hkept
        · cases hkept
          exact ⟨hresponds.level.trans hbefore.level, hresponds.publish ▸ hbefore.content,
            fun hqos => hresponds.publish.trans (hbefore.itself hqos)⟩
    | resent timer htimer hretry =>
        refine hcourse.step_handler hzero hs hr h hentry hnext (fun p hp => hbefore.resent hp)
          (fun _ hqos => ?_) (fun hmay => ?_) ?_
        · cases entry with
          | qos1 q =>
              have hqos' : q.publish.qos = qos := hbefore.content.qos.trans hlevel
              exact sentUnder_publish hid (by rw [hqos', hqos]; decide)
          | qos2 q => cases hbefore.level.trans hqos
        · rw [hretry] at hmay
          cases hmay
        · intro _ after hafter
          cases hresult.symm.trans hafter
          exact hbefore.repeated timer
    | failed timer htimer hretry =>
        refine hcourse.step_handler hzero hs hr h hentry hnext (fun p hp => by cases hp)
          (fun hmay => ?_) (fun _ => rfl) ?_
        · rw [hretry] at hmay
          cases hmay
        · intro _ after hafter
          cases hresult.symm.trans hafter
  · exact hcourse.step_removed hs hr h

theorem Course.of_run (hlevel : outgoing.qos = qos) (hzero : Watched.handled r base = 0)
    (hs : Accounted maxRetries base s) (hr : s.Stores r)
    (hcarried : ∀ entry, s.state.publications.lookup r.key = some entry →
      Carried qos outgoing entry)
    (h : lifetimes.Run (some s) steps (some s')) :
    Course maxRetries qos outgoing r steps s' := by
  refine h.alive_invariant (fun _ => rfl) (fun _ => True)
    (fun pre t => Course maxRetries qos outgoing r pre t) ?_ ?_ (fun _ _ => trivial)
  · refine ⟨hs.2.consistent.numbered r hr, fun _ => hcarried, ?_, fun _ _ _ => rfl, ?_⟩
    · exact fun p hp => absurd hp List.not_mem_nil
    · intro hqos
      exact iff_of_true rfl (Or.inr fun x hx => absurd hx List.not_mem_nil)
  · intro pre t o output u hpre ht hstep _
    exact ht.step hlevel hzero (hs.append (timers_lawful maxRetries) hpre) hstep

/-- DUP marks exactly the retransmissions if it has not been set before, and if the packet is
sent with quality of service 2 or not sent again. -/
theorem Course.marks_iff (hqos : qos = .atLeastOnce ∨ qos = .exactlyOnce)
    (hlevel : outgoing.qos = qos) (hid : outgoing.packetIdentifier = r.key) {source : Publish}
    (htopic : outgoing.topic = source.topic)
    (hmessage : outgoing.applicationMessage = source.applicationMessage)
    (hdup : outgoing.dup = source.dup) (hcourse : Course maxRetries qos outgoing r steps s) :
    MarksDuplicates source r.key qos outgoing (resends r steps) ↔
      source.dup = false ∧
        (qos = .exactlyOnce ∨ maxRetries = 0 ∨ ∀ x ∈ steps, ¬ Expires r x) := by
  have hcontent : ∀ p ∈ outgoing :: resends r steps, SameContent outgoing p := by
    intro p hp
    rcases List.mem_cons.mp hp with rfl | hp
    · exact SameContent.refl p
    · exact (hcourse.resent p hp).content
  constructor
  · intro h
    have hsource : source.dup = false := hdup.symm.trans h.unmarked
    refine ⟨hsource, ?_⟩
    rcases hqos with hone | htwo
    · -- a packet that is sent again is the same, so that none is
      right
      rw [← hcourse.again hone]
      apply List.eq_nil_iff_forall_not_mem.mpr
      intro p hp
      have hmarked := h.marked p hp
      rw [(hcourse.resent p hp).itself hone, h.unmarked] at hmarked
      cases hmarked
    · exact Or.inl htwo
  · rintro ⟨hsource, hcases⟩
    refine ⟨hdup.trans hsource, ?_, ?_, ?_⟩
    · intro p hp
      rcases hqos with hone | htwo
      · rcases hcases with htwo | hnone
        · rw [hone] at htwo
          cases htwo
        · rw [(hcourse.again hone).mpr hnone] at hp
          cases hp
      · exact (hcourse.resent p hp).duplicate htwo
    · intro p hp
      exact (hcontent p hp).packetIdentifier.trans hid
    · intro p hp
      obtain ⟨-, ht, hq, hm⟩ := hcontent p hp
      exact ⟨ht.trans htopic, hq.trans hlevel, hm.trans hmessage⟩

/-- The course of a publication from its start on. -/
theorem Course.of_start {pre : List LifetimeStep} {started : WatchedTable} {p : Publish}
    (hqos : qos = .atLeastOnce ∨ qos = .exactlyOnce)
    (hpre : lifetimes.Run (some (initially maxRetries)) pre (some s))
    (hstart : lifetimes.step (some s) (.event (.publish true p qos)) =
      some (output, some started))
    (hrun : lifetimes.Run (some started) steps (some s')) :
    ∃ outgoing, (p.withNewPacketIdentifier s.state.nextIdentifier).setQos qos = .ok outgoing ∧
      output = .ok [.send (.publish outgoing)] ∧
      Course maxRetries qos outgoing ⟨s.state.nextIdentifier, s.next⟩ steps s' := by
  have hs := accounted_of_run hpre
  obtain ⟨outgoing, hset, houtput, hstores, hentry⟩ := publish_of_step hs hqos hstart
  have hcarried : Carried qos outgoing
      (TxInFlightPublications.startedEntry maxRetries qos outgoing) := by
    refine ⟨level_startedEntry _ _ hqos, ?_, fun _ => publish_startedEntry _ _ _⟩
    rw [publish_startedEntry]
    exact SameContent.refl outgoing
  exact ⟨outgoing, hset, houtput, Course.of_run (Publish.qos_of_setQos hset)
    (hs.handled_new _ _ _ _) (hs.step (timers_lawful maxRetries) hstart) hstores
    (fun entry h => by cases hentry.symm.trans h; exact hcarried) hrun⟩

/-- When DUP marks exactly the retransmissions of a publication. -/
theorem marksDuplicates_iff {pre : List LifetimeStep} {started : WatchedTable}
    {source p : Publish} (hqos : qos = .atLeastOnce ∨ qos = .exactlyOnce)
    (hshared : Shared source p)
    (hpre : lifetimes.Run (some (initially maxRetries)) pre (some s))
    (hstart : lifetimes.step (some s) (.event (.publish true p qos)) =
      some (output, some started))
    (hrun : lifetimes.Run (some started) steps (some s')) :
    ∃ outgoing, output = .ok [.send (.publish outgoing)] ∧
      (MarksDuplicates source s.state.nextIdentifier qos outgoing
          (resends ⟨s.state.nextIdentifier, s.next⟩ steps) ↔
        source.dup = false ∧ (qos = .exactlyOnce ∨ maxRetries = 0 ∨
          ∀ x ∈ steps, ¬ Expires ⟨s.state.nextIdentifier, s.next⟩ x)) := by
  obtain ⟨outgoing, hset, houtput, hcourse⟩ := Course.of_start hqos hpre hstart hrun
  have hfacts := hshared.facts
  obtain ⟨htopic, hid, hmessage⟩ := Publish.setQos_frame hset
  exact ⟨outgoing, houtput, hcourse.marks_iff hqos (Publish.qos_of_setQos hset) hid
    (htopic.trans hfacts.topic) (hmessage.trans hfacts.applicationMessage)
    ((Publish.flags_of_setQos hset).1.trans hfacts.dup)⟩

end Retransmissions

/-! ### Packets that are not marked, and packets that are marked too early -/

/-- A PUBLISH to the topic {lit}`a`, and its frame behind the fixed header. -/
def messageBytes (flags : UInt8) : Bytes := [flags, 0x06, 0x00, 0x01, 0x61, 0x00, 0x07, 0x62]

def messageFrame (flags : UInt8) : Codec.Frame := ⟨flags, 2, 8, by decide⟩

/-- A first transmission with quality of service 1, and a retransmission with quality of
service 2. -/
def plainPacket : Publish := .create false .atLeastOnce false [0x61] 7 [0x62]

def markedPacket : Publish := .create true .exactlyOnce false [0x61] 7 [0x62]

/-- A publication with quality of service 1 whose timer expires once. -/
theorem exists_run_expired : ∃ outgoing started steps s,
    (plainPacket.withNewPacketIdentifier 1).setQos .atLeastOnce = .ok outgoing ∧
    lifetimes.Run (some (initially 3)) [⟨some (initially 3),
      .event (.publish true plainPacket .atLeastOnce), .ok [.send (.publish outgoing)],
      some started⟩] (some started) ∧
    lifetimes.Run (some started) steps (some s) ∧
    steps.map Step.event = [.elapses 1, .handler ⟨1, 0⟩] ∧
    ∃ x ∈ steps, Expires ⟨1, 0⟩ x := by
  obtain ⟨outgoing, started, hset, hrun, hr, hentry, -⟩ :=
    exists_run_started 3 plainPacket .atLeastOnce (by decide) (by decide)
  have hview : timers.view started.state 1 = some ⟨true, 0, 0⟩ :=
    view_eq_some_iff.mpr ⟨_, hentry, view_startedEntry _ _ _⟩
  have hs := accounted_of_run hrun
  obtain ⟨output, s₁, hfirst, hr₁, hv₁⟩ :=
    Watched.exists_step_elapses (timers_lawful 3) hs hr hview rfl
  obtain ⟨output', s₂, hsecond, -⟩ := Watched.exists_step_handler (timers_lawful 3)
    (hs.step (timers_lawful 3) hfirst) hr₁ hv₁ (Nat.succ_pos _)
  exact ⟨outgoing, started, _, s₂, hset, hrun,
    (Machine.Run.single hfirst).append (Machine.Run.single hsecond), rfl, _,
    List.mem_append_right _ (List.mem_singleton_self _), Watch.stored_some.mpr hr₁, rfl⟩

theorem marksDuplicates_plainPacket : ∃ outgoing started steps s,
    lifetimes.Run (some started) steps (some s) ∧
    steps.map Step.event = [.elapses 1, .handler ⟨1, 0⟩] ∧
    (MarksDuplicates plainPacket 1 .atLeastOnce outgoing (resends ⟨1, 0⟩ steps) ↔
      plainPacket.dup = false ∧ (QoS.atLeastOnce = .exactlyOnce ∨ 3 = 0 ∨
        ∀ x ∈ steps, ¬ Expires ⟨1, 0⟩ x)) := by
  obtain ⟨outgoing, started, steps, s, -, hstart, hrun, hevents, -⟩ := exists_run_expired
  obtain ⟨outgoing', houtput, hiff⟩ := marksDuplicates_iff (by decide) Shared.source
    (Machine.Run.nil _) hstart.step_of_singleton hrun
  cases houtput
  exact ⟨outgoing, started, steps, s, hrun, hevents, hiff⟩

/-- The packet is sent a second time without DUP.  A packet that has been received with DUP is sent
with DUP at once. -/
theorem not_marksDuplicates :
    (Codec.decode (messageBytes 0x32) (messageFrame 0x32) = .ok (.publish plainPacket) ∧
      plainPacket.dup = false ∧ ∃ outgoing started steps s,
        lifetimes.Run (some (initially 3)) [⟨some (initially 3),
          .event (.publish true plainPacket .atLeastOnce), .ok [.send (.publish outgoing)],
          some started⟩] (some started) ∧
        lifetimes.Run (some started) steps (some s) ∧
        steps.map Step.event = [.elapses 1, .handler ⟨1, 0⟩] ∧
        ¬ MarksDuplicates plainPacket 1 .atLeastOnce outgoing (resends ⟨1, 0⟩ steps)) ∧
    (Codec.decode (messageBytes 0x3C) (messageFrame 0x3C) = .ok (.publish markedPacket) ∧
      ∃ outgoing started, lifetimes.Run (some (initially 3)) [⟨some (initially 3),
          .event (.publish true markedPacket .exactlyOnce), .ok [.send (.publish outgoing)],
          some started⟩] (some started) ∧
        ¬ MarksDuplicates markedPacket 1 .exactlyOnce outgoing []) := by
  refine ⟨⟨rfl, by decide, ?_⟩, rfl, ?_⟩
  · obtain ⟨outgoing, started, steps, s, hset, hstart, hrun, hevents, hexpires⟩ :=
      exists_run_expired
    refine ⟨outgoing, started, steps, s, hstart, hrun, hevents, fun h => ?_⟩
    obtain ⟨outgoing', -, houtput, hcourse⟩ :=
      Course.of_start (by decide) (Machine.Run.nil _) hstart.step_of_singleton hrun
    cases houtput
    obtain ⟨x, hx, hexpired⟩ := hexpires
    -- the packet has been sent again, but it is the same one
    have hagain := mt (hcourse.again rfl).mp (by
      rintro (hmax | hnone)
      · cases hmax
      · exact hnone x hx hexpired)
    obtain ⟨p, hp⟩ := List.exists_mem_of_ne_nil _ hagain
    have hmarked := h.marked p hp
    rw [(hcourse.resent p hp).itself rfl, h.unmarked] at hmarked
    cases hmarked
  · obtain ⟨outgoing, started, hset, hrun, -⟩ :=
      exists_run_started 3 markedPacket .exactlyOnce (by decide) (by decide)
    refine ⟨outgoing, started, hrun, fun h => ?_⟩
    have hdup := h.unmarked
    rw [(Publish.flags_of_setQos hset).1] at hdup
    exact absurd hdup (by decide)

end TxTable

end Dispatch
end WallyIo
