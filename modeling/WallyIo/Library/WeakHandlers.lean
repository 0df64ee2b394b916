import WallyIo.Library.Incarnations

/-!
# Handlers that refer weakly to stored objects

Every object of a component owns a timer.  When the wait of a timer elapses its handler is
queued, and runs later: it refers weakly to the object, and does nothing if the component has
removed the object in the meantime.  The component itself is given by its steps.  Two kinds of
them are those of timers: the wait of an object's timer elapses, and the handler of an object
that is still stored runs.

Main results:

- Theorem {lit}`moves_of_watch`: what a step does, the run of a late handler included.
- Theorem {lit}`exists_run_state`: the component runs as it does alone.
- Theorem {lit}`Balanced.of_run`: the queued handlers of a stored object are those that its
  timer has queued, and its counter tells how many have run.
- Theorems {lit}`exists_run_handled` and {lit}`exists_run_released`: an object that is left to its
  timer is given up, unless its counter wraps around too early.
-/

namespace WallyIo
namespace Library

/-- What is seen of an object and its timer. -/
structure TimerView where
  /-- A wait is pending. -/
  armed : Bool
  /-- The handlers that the timer has queued. -/
  queued : Nat
  /-- The expirations that the object has counted. -/
  count : Nat
deriving DecidableEq, Repr

namespace TimerView

/-- A timer that has never been started. -/
def idle : TimerView := ⟨false, 0, 0⟩

/-- The wait has elapsed. -/
def elapsed (v : TimerView) : TimerView := { v with armed := false, queued := v.queued + 1 }

/-- A handler has run: the expiration has been counted, and the next wait started. -/
def restarted (v : TimerView) (count : Nat) : TimerView := ⟨true, v.queued - 1, count⟩

end TimerView

/-- How a component shows the timers of its objects. -/
structure Timers (κ σ ε : Type*) where
  /-- The object that is stored under a key. -/
  view : σ → κ → Option TimerView
  /-- The wait of an object's timer elapses. -/
  elapses : κ → ε
  /-- The handler of an object's timer runs. -/
  timeout : κ → ε
  /-- Whether an event is one of these. -/
  isTimer : ε → Bool

namespace Timers

variable {κ σ ε α φ : Type*}

/-- Whether an object is stored under a key. -/
def occupied (T : Timers κ σ ε) (s : σ) (k : κ) : Bool := (T.view s k).isSome

theorem occupied_eq_true_iff {T : Timers κ σ ε} {s : σ} {k : κ} :
    T.occupied s k = true ↔ ∃ v, T.view s k = some v :=
  Option.isSome_iff_exists

/-- No key is used that was free before if only an object that was there is changed. -/
theorem occupied_of_others {T : Timers κ σ ε} {s t : σ} {i : κ} {v : TimerView}
    (hothers : ∀ k, k ≠ i → T.view t k = T.view s k) (hv : T.view s i = some v) (k : κ)
    (hk : T.occupied t k = true) : T.occupied s k = true := by
  by_cases hkey : k = i
  · rw [hkey, occupied_eq_true_iff]
    exact ⟨v, hv⟩
  · rwa [occupied, hothers k hkey] at hk

/-- What the steps of a component do to its timers.  An object counts the expirations of its
timer with a counter that wraps around, and is given up when it exceeds a limit. -/
structure Lawful (T : Timers κ σ ε) (f : σ → ε → Option (Except φ (List α × σ)))
    (inv : σ → Prop) (limit wrap : Nat) : Prop where
  preserved : ∀ {s e calls t}, inv s → f s e = some (.ok (calls, t)) → inv t
  /-- Other events leave queued handlers and counters alone. -/
  event : ∀ {s e calls t}, inv s → T.isTimer e = false → f s e = some (.ok (calls, t)) →
    ∀ {k v}, T.view t k = some v →
      v.queued = ((T.view s k).getD .idle).queued ∧ v.count = ((T.view s k).getD .idle).count
  elapses : ∀ {s i calls t}, inv s → f s (T.elapses i) = some (.ok (calls, t)) →
    (∀ k, k ≠ i → T.view t k = T.view s k) ∧
      ∃ v, T.view s i = some v ∧ v.armed = true ∧ T.view t i = some v.elapsed
  timeout : ∀ {s i calls t}, inv s → f s (T.timeout i) = some (.ok (calls, t)) →
    (∀ k, k ≠ i → T.view t k = T.view s k) ∧
      ∃ v, T.view s i = some v ∧ 0 < v.queued ∧ T.view t i =
        if (v.count + 1) % wrap ≤ limit then some (v.restarted ((v.count + 1) % wrap)) else none
  canElapse : ∀ {s i v}, inv s → T.view s i = some v → v.armed = true →
    ∃ calls t, f s (T.elapses i) = some (.ok (calls, t))
  canRun : ∀ {s i v}, inv s → T.view s i = some v → 0 < v.queued →
    ∃ calls t, f s (T.timeout i) = some (.ok (calls, t))

end Timers

/-- A component with the handlers that are queued. -/
structure Watched (κ σ : Type*) extends Tracked κ σ where
  queue : List (Incarnation κ)

/-- What happens to a component with timers. -/
inductive Occasion (κ ε : Type*)
  /-- An event that is none of a timer. -/
  | event (e : ε)
  /-- The wait of the timer of the object under a key elapses, which queues its handler. -/
  | elapses (k : κ)
  /-- A queued handler runs. -/
  | handler (r : Incarnation κ)
deriving DecidableEq, Repr

/-- Whether a handler of an object's timer runs. -/
def Occasion.handles {κ ε : Type*} [DecidableEq κ] (o : Occasion κ ε) (r : Incarnation κ) : Bool :=
  match o with
  | .handler r' => decide (r' = r)
  | _ => false

namespace Watched

variable {κ σ ε α φ : Type*} [DecidableEq κ]

/-- No handler is queued yet. -/
def start (s : σ) : Watched κ σ := ⟨Tracked.start s, []⟩

variable (T : Timers κ σ ε) (f : σ → ε → Option (Except φ (List α × σ)))

/-- The component has answered. -/
def follow (s : Watched κ σ) (queue : List (Incarnation κ)) (answer : Except φ (List α × σ)) :
    Except φ (List α × Watched κ σ) :=
  answer.map fun (calls, t) => (calls, ⟨s.toTracked.advance T.occupied t, queue⟩)

/-- One step.  A handler first looks whether its object still exists. -/
def watch (s : Watched κ σ) : Occasion κ ε → Option (Except φ (List α × Watched κ σ))
  | .event e => if T.isTimer e = true then none else (f s.state e).map (s.follow T s.queue)
  | .elapses k =>
      match s.serials.lookup k with
      | some n => (f s.state (T.elapses k)).map (s.follow T (s.queue ++ [⟨k, n⟩]))
      | none => none
  | .handler r =>
      if r ∈ s.queue then
        if s.Stores r then (f s.state (T.timeout r.key)).map (s.follow T (s.queue.erase r))
        else some (.ok ([], { s with queue := s.queue.erase r }))
      else none

/-- The machine of a component with timers. -/
def machine : Machine (Option (Watched κ σ)) (Occasion κ ε) (Except φ (List α)) :=
  Machine.ofFallible (watch T f)

/-! ## What a step does -/

/-- What a step does that does not fail. -/
inductive Moves (s : Watched κ σ) : Occasion κ ε → List α → Watched κ σ → Prop
  | event (e : ε) (calls : List α) (t : σ) (hkind : T.isTimer e = false)
      (h : f s.state e = some (.ok (calls, t))) :
      Moves s (.event e) calls ⟨s.toTracked.advance T.occupied t, s.queue⟩
  | elapses (r : Incarnation κ) (calls : List α) (t : σ) (hr : s.Stores r)
      (h : f s.state (T.elapses r.key) = some (.ok (calls, t))) :
      Moves s (.elapses r.key) calls ⟨s.toTracked.advance T.occupied t, s.queue ++ [r]⟩
  | handler (r : Incarnation κ) (calls : List α) (t : σ) (hqueued : r ∈ s.queue)
      (hr : s.Stores r) (h : f s.state (T.timeout r.key) = some (.ok (calls, t))) :
      Moves s (.handler r) calls ⟨s.toTracked.advance T.occupied t, s.queue.erase r⟩
  /-- The object of a handler does not exist any longer. -/
  | late (r : Incarnation κ) (hqueued : r ∈ s.queue) (hr : ¬ s.Stores r) :
      Moves s (.handler r) [] ⟨s.toTracked, s.queue.erase r⟩

variable {T f} {s s' : Watched κ σ} {o : Occasion κ ε} {calls : List α} {r : Incarnation κ}

omit [DecidableEq κ] in
theorem follow_eq_ok_iff {queue : List (Incarnation κ)} {answer : Except φ (List α × σ)} :
    s.follow T queue answer = .ok (calls, s') ↔
      ∃ t, answer = .ok (calls, t) ∧ s' = ⟨s.toTracked.advance T.occupied t, queue⟩ := by
  cases answer with
  | error failure => simp [follow, Except.map]
  | ok result =>
      obtain ⟨calls', t⟩ := result
      simp only [follow, Except.map, Except.ok.injEq, Prod.mk.injEq]
      constructor
      · rintro ⟨rfl, rfl⟩
        exact ⟨t, ⟨rfl, rfl⟩, rfl⟩
      · rintro ⟨t', ⟨rfl, rfl⟩, rfl⟩
        exact ⟨rfl, rfl⟩

omit [DecidableEq κ] in
theorem follow_eq_error_iff {queue : List (Incarnation κ)} {answer : Except φ (List α × σ)}
    {failure : φ} : s.follow T queue answer = .error failure ↔ answer = .error failure := by
  cases answer <;> simp [follow, Except.map]

/-- What a step does. -/
theorem moves_of_watch (h : watch T f s o = some (.ok (calls, s'))) : Moves T f s o calls s' := by
  cases o with
  | event e =>
      simp only [watch] at h
      split at h
      · cases h
      · rename_i hkind
        obtain ⟨answer, hanswer, hfollow⟩ := Option.map_eq_some_iff.mp h
        obtain ⟨t, rfl, rfl⟩ := follow_eq_ok_iff.mp hfollow
        exact .event e calls t (Bool.eq_false_iff.mpr hkind) hanswer
  | elapses k =>
      simp only [watch] at h
      split at h
      · rename_i n hn
        obtain ⟨answer, hanswer, hfollow⟩ := Option.map_eq_some_iff.mp h
        obtain ⟨t, rfl, rfl⟩ := follow_eq_ok_iff.mp hfollow
        exact .elapses ⟨k, n⟩ calls t hn hanswer
      · cases h
  | handler r =>
      simp only [watch] at h
      split at h
      · rename_i hqueued
        split at h
        · rename_i hr
          obtain ⟨answer, hanswer, hfollow⟩ := Option.map_eq_some_iff.mp h
          obtain ⟨t, rfl, rfl⟩ := follow_eq_ok_iff.mp hfollow
          exact .handler r calls t hqueued hr hanswer
        · rename_i hr
          cases h
          exact .late r hqueued hr
      · cases h

/-- A step fails only if the component does. -/
theorem exists_error_of_watch {failure : φ} (h : watch T f s o = some (.error failure)) :
    ∃ e, f s.state e = some (.error failure) := by
  cases o with
  | event e =>
      simp only [watch] at h
      split at h
      · cases h
      · obtain ⟨answer, hanswer, hfollow⟩ := Option.map_eq_some_iff.mp h
        rw [follow_eq_error_iff] at hfollow
        exact ⟨e, hfollow ▸ hanswer⟩
  | elapses k =>
      simp only [watch] at h
      split at h
      · obtain ⟨answer, hanswer, hfollow⟩ := Option.map_eq_some_iff.mp h
        rw [follow_eq_error_iff] at hfollow
        exact ⟨T.elapses k, hfollow ▸ hanswer⟩
      · cases h
  | handler r =>
      simp only [watch] at h
      split at h
      · split at h
        · obtain ⟨answer, hanswer, hfollow⟩ := Option.map_eq_some_iff.mp h
          rw [follow_eq_error_iff] at hfollow
          exact ⟨T.timeout r.key, hfollow ▸ hanswer⟩
        · cases h
      · cases h

/-- The component makes a step, or nothing happens to it. -/
theorem Moves.state (h : Moves T f s o calls s') :
    (∃ e, f s.state e = some (.ok (calls, s'.state)) ∧
      s'.toTracked = s.toTracked.advance T.occupied s'.state) ∨
        s'.toTracked = s.toTracked ∧ calls = [] := by
  cases h with
  | event e calls t hkind h => exact Or.inl ⟨e, h, rfl⟩
  | elapses r calls t hr h => exact Or.inl ⟨_, h, rfl⟩
  | handler r calls t hqueued hr h => exact Or.inl ⟨_, h, rfl⟩
  | late r hqueued hr => exact Or.inr ⟨rfl, rfl⟩

/-- A step of the machine that does not fail. -/
theorem moves_of_step {output : Except φ (List α)}
    (h : (machine T f).step (some s) o = some (output, some s')) :
    ∃ calls, output = .ok calls ∧ Moves T f s o calls s' := by
  obtain ⟨calls, hwatch, houtput⟩ := Machine.ofFallible_step_alive_iff.mp h
  exact ⟨calls, houtput, moves_of_watch hwatch⟩

variable (T f) in
/-- The machine shows the objects of the component. -/
def objects : Watch (machine T f) T.occupied where
  view := Watched.toTracked
  step_view h := by
    obtain ⟨calls, -, hmoves⟩ := moves_of_step h
    rcases hmoves.state with ⟨e, -, hnext⟩ | ⟨hsame, -⟩
    · exact Or.inr ⟨_, hnext⟩
    · exact Or.inl hsame
  step_none _ := rfl

/-- The component runs as it does alone. -/
theorem exists_run_state {steps : List (Step (Option (Watched κ σ)) (Occasion κ ε)
    (Except φ (List α)))} (h : (machine T f).Run (some s) steps (some s')) :
    ∃ steps', (Machine.ofFallible f).Run (some s.state) steps' (some s'.state) := by
  refine h.alive_invariant (fun _ => rfl) (fun _ => True)
    (fun _ t => ∃ steps', (Machine.ofFallible f).Run (some s.state) steps' (some t.state))
    ⟨[], Machine.Run.nil _⟩ ?_ (fun _ _ => trivial)
  rintro pre t o output u - ⟨steps', hrun⟩ hstep -
  obtain ⟨calls, -, hmoves⟩ := moves_of_step hstep
  rcases hmoves.state with ⟨e, he, -⟩ | ⟨hsame, -⟩
  · have hnext : (Machine.ofFallible f).step (some t.state) e = some (.ok calls, some u.state) :=
      Machine.ofFallible_step_alive_iff.mpr ⟨calls, he, rfl⟩
    exact ⟨_, hrun.append (Machine.Run.single hnext)⟩
  · have hstate : u.state = t.state := congrArg Tracked.state hsame
    rw [hstate]
    exact ⟨steps', hrun⟩

/-! ## Queued handlers and counters -/

omit [DecidableEq κ] in
theorem exists_view (hs : s.Consistent T.occupied) (hr : s.Stores r) :
    ∃ v, T.view s.state r.key = some v :=
  Timers.occupied_eq_true_iff.mp (hr.inUse hs)

/-- The queued handlers of a stored object are those that its timer has queued, and its counter
tells how many of them have run. -/
structure Balanced (T : Timers κ σ ε) (limit wrap : Nat) (runs : Incarnation κ → Nat)
    (s : Watched κ σ) : Prop where
  consistent : s.Consistent T.occupied
  queued : ∀ {r v}, s.Stores r → T.view s.state r.key = some v → s.queue.count r = v.queued
  counted : ∀ {r v}, s.Stores r → T.view s.state r.key = some v → v.count = runs r % wrap
  /-- An object is given up in time, unless its counter wraps around before. -/
  bounded : limit + 1 < wrap → ∀ {r}, s.Stores r → runs r ≤ limit
  numbered : ∀ {r}, r ∈ s.queue → r.serial < s.next
  unhandled : ∀ {r}, s.next ≤ r.serial → runs r = 0

section Balance

variable {limit wrap : Nat} {inv : σ → Prop} {runs : Incarnation κ → Nat}

theorem balanced_start {t : σ} (h : ∀ k, T.view t k = none) :
    Balanced T limit wrap (fun _ => 0) (start t) where
  consistent := Tracked.consistent_start fun k => by simp [Timers.occupied, h k]
  queued {r} v _ hv := by
    have hnone := h r.key
    rw [show (start t).state = t from rfl, hnone] at hv
    cases hv
  counted {r} v _ hv := by
    have hnone := h r.key
    rw [show (start t).state = t from rfl, hnone] at hv
    cases hv
  bounded _ _ _ := Nat.zero_le limit
  numbered h := by cases h
  unhandled _ := rfl

/-- Another event leaves the handlers of every object alone, and a new object has none. -/
theorem Balanced.event (hT : T.Lawful f inv limit wrap) (hinv : inv s.state)
    (hs : Balanced T limit wrap runs s) {e : ε} {t : σ} (hkind : T.isTimer e = false)
    (h : f s.state e = some (.ok (calls, t))) :
    Balanced T limit wrap runs ⟨s.toTracked.advance T.occupied t, s.queue⟩ := by
  have hnew {r : Incarnation κ} (hfree : T.occupied s.state r.key = false) :
      T.view s.state r.key = none := by
    simpa [Timers.occupied] using hfree
  have hunqueued {r : Incarnation κ} (hserial : r.serial = s.next) : r ∉ s.queue := by
    intro hmem
    have hlt := hs.numbered hmem
    omega
  refine ⟨hs.consistent.advance t, ?_, ?_, ?_, ?_, ?_⟩
  · intro r v hr hv
    have hlaw := (hT.event hinv hkind h hv).1
    obtain ⟨-, hr | ⟨hfree, hserial⟩⟩ := (Tracked.stores_advance_iff hs.consistent).mp hr
    · obtain ⟨w, hw⟩ := exists_view hs.consistent hr
      rw [hw] at hlaw
      exact (hs.queued hr hw).trans hlaw.symm
    · rw [hnew hfree] at hlaw
      exact (List.count_eq_zero_of_not_mem (hunqueued hserial)).trans hlaw.symm
  · intro r v hr hv
    have hlaw := (hT.event hinv hkind h hv).2
    obtain ⟨-, hr | ⟨hfree, hserial⟩⟩ := (Tracked.stores_advance_iff hs.consistent).mp hr
    · obtain ⟨w, hw⟩ := exists_view hs.consistent hr
      rw [hw] at hlaw
      exact hlaw.trans (hs.counted hr hw)
    · rw [hnew hfree] at hlaw
      rw [hs.unhandled (Nat.le_of_eq hserial.symm), Nat.zero_mod]
      exact hlaw
  · intro hwrap r hr
    obtain ⟨-, hr | ⟨-, hserial⟩⟩ := (Tracked.stores_advance_iff hs.consistent).mp hr
    · exact hs.bounded hwrap hr
    · rw [hs.unhandled (Nat.le_of_eq hserial.symm)]
      exact Nat.zero_le limit
  · intro r hr
    exact Nat.lt_succ_of_lt (hs.numbered hr)
  · intro r hr
    exact hs.unhandled (Nat.le_of_succ_le hr)

/-- A wait that elapses queues a handler. -/
theorem Balanced.elapses (hT : T.Lawful f inv limit wrap) (hinv : inv s.state)
    (hs : Balanced T limit wrap runs s) {t : σ} (hr : s.Stores r)
    (h : f s.state (T.elapses r.key) = some (.ok (calls, t))) :
    Balanced T limit wrap runs ⟨s.toTracked.advance T.occupied t, s.queue ++ [r]⟩ := by
  obtain ⟨hothers, v, hv, -, hv'⟩ := hT.elapses hinv h
  have hstores {r' : Incarnation κ} (hr' : (s.toTracked.advance T.occupied t).Stores r') :
      s.Stores r' :=
    Tracked.stores_of_advance hs.consistent (Timers.occupied_of_others hothers hv) hr'
  -- what is seen of an object that is stored
  have hview {r' : Incarnation κ} {w : TimerView} (hr' : s.Stores r')
      (hw : T.view t r'.key = some w) :
      r' = r ∧ w = v.elapsed ∨ r' ≠ r ∧ T.view s.state r'.key = some w := by
    by_cases hkey : r'.key = r.key
    · rw [hkey, hv', Option.some.injEq] at hw
      exact Or.inl ⟨hr'.unique hr hkey, hw.symm⟩
    · exact Or.inr ⟨fun heq => hkey (heq ▸ rfl), hothers _ hkey ▸ hw⟩
  refine ⟨hs.consistent.advance t, ?_, ?_, fun hwrap _ hr' => hs.bounded hwrap (hstores hr'),
    ?_, fun hr' => hs.unhandled (Nat.le_of_succ_le hr')⟩
  · intro r' w hr' hw
    rw [List.count_append, List.count_singleton]
    rcases hview (hstores hr') hw with ⟨rfl, rfl⟩ | ⟨hne, hw⟩
    · rw [hs.queued hr hv]
      simp [TimerView.elapsed]
    · rw [hs.queued (hstores hr') hw]
      simp [Ne.symm hne]
  · intro r' w hr' hw
    rcases hview (hstores hr') hw with ⟨rfl, rfl⟩ | ⟨-, hw⟩
    · have hcounted : v.count = runs r' % wrap := hs.counted hr hv
      exact hcounted
    · exact hs.counted (hstores hr') hw
  · intro r' hr'
    rcases List.mem_append.mp hr' with hr' | hr'
    · exact Nat.lt_succ_of_lt (hs.numbered hr')
    · rw [List.mem_singleton.mp hr']
      exact Nat.lt_succ_of_lt (hs.consistent.numbered r hr)

/-- A handler that runs is taken off the queue and counted. -/
theorem Balanced.handler (hT : T.Lawful f inv limit wrap) (hinv : inv s.state)
    (hs : Balanced T limit wrap runs s) {t : σ} (hr : s.Stores r)
    (h : f s.state (T.timeout r.key) = some (.ok (calls, t))) :
    Balanced T limit wrap (fun r' => runs r' + if r = r' then 1 else 0)
      ⟨s.toTracked.advance T.occupied t, s.queue.erase r⟩ := by
  obtain ⟨hothers, v, hv, -, hv'⟩ := hT.timeout hinv h
  have hstores {r' : Incarnation κ} (hr' : (s.toTracked.advance T.occupied t).Stores r') :
      s.Stores r' :=
    Tracked.stores_of_advance hs.consistent (Timers.occupied_of_others hothers hv) hr'
  -- what is seen of an object that stays stored
  have hview {r' : Incarnation κ} {w : TimerView} (hr' : s.Stores r')
      (hw : T.view t r'.key = some w) :
      (r' = r ∧ (v.count + 1) % wrap ≤ limit ∧ w = v.restarted ((v.count + 1) % wrap)) ∨
        r' ≠ r ∧ T.view s.state r'.key = some w := by
    by_cases hkey : r'.key = r.key
    · rw [hkey, hv'] at hw
      split at hw
      · rename_i hle
        exact Or.inl ⟨hr'.unique hr hkey, hle, (Option.some.inj hw).symm⟩
      · cases hw
    · exact Or.inr ⟨fun heq => hkey (heq ▸ rfl), hothers _ hkey ▸ hw⟩
  have hcount : (v.count + 1) % wrap = (runs r + 1) % wrap := by
    rw [hs.counted hr hv, Nat.mod_add_mod]
  refine ⟨hs.consistent.advance t, ?_, ?_, ?_, ?_, ?_⟩
  · intro r' w hr' hw
    rcases hview (hstores hr') hw with ⟨rfl, -, rfl⟩ | ⟨hne, hw⟩
    · rw [List.count_erase_self, hs.queued hr hv]
      rfl
    · rw [List.count_erase_of_ne hne, hs.queued (hstores hr') hw]
  · intro r' w hr' hw
    rcases hview (hstores hr') hw with ⟨rfl, -, rfl⟩ | ⟨hne, hw⟩
    · rw [if_pos rfl]
      exact hcount
    · rw [if_neg (Ne.symm hne)]
      exact hs.counted (hstores hr') hw
  · intro hwrap r' hr'
    have hle := hs.bounded hwrap (hstores hr')
    obtain ⟨w, hw⟩ := exists_view (hs.consistent.advance t) hr'
    rcases hview (hstores hr') hw with ⟨rfl, hkept, -⟩ | ⟨hne, -⟩
    · rw [hcount, Nat.mod_eq_of_lt (by omega)] at hkept
      rw [if_pos rfl]
      exact hkept
    · rw [if_neg (Ne.symm hne)]
      exact hle
  · intro r' hr'
    exact Nat.lt_succ_of_lt (hs.numbered (List.mem_of_mem_erase hr'))
  · intro r' hr'
    have hne : r ≠ r' := by
      rintro rfl
      have hlt := hs.consistent.numbered r hr
      exact absurd hr' (by simp; omega)
    rw [if_neg hne]
    exact hs.unhandled (Nat.le_of_succ_le hr')

/-- A late handler is taken off the queue. -/
theorem Balanced.late (hs : Balanced T limit wrap runs s) (hqueued : r ∈ s.queue)
    (hr : ¬ s.Stores r) :
    Balanced T limit wrap (fun r' => runs r' + if r = r' then 1 else 0)
      ⟨s.toTracked, s.queue.erase r⟩ := by
  have hne {r' : Incarnation κ} (hr' : s.Stores r') : r ≠ r' := fun heq => hr (heq ▸ hr')
  refine ⟨hs.consistent, ?_, ?_, ?_, fun hr' => hs.numbered (List.mem_of_mem_erase hr'), ?_⟩
  · intro r' v hr' hv
    rw [List.count_erase_of_ne (Ne.symm (hne hr'))]
    exact hs.queued hr' hv
  · intro r' v hr' hv
    rw [if_neg (hne hr')]
    exact hs.counted hr' hv
  · intro hwrap r' hr'
    rw [if_neg (hne hr')]
    exact hs.bounded hwrap hr'
  · intro r' hr'
    have hother : r ≠ r' := by
      rintro rfl
      have hlt := hs.numbered hqueued
      exact absurd hr' (by simp; omega)
    rw [if_neg hother]
    exact hs.unhandled hr'

/-- Every step keeps the account. -/
theorem Balanced.moves (hT : T.Lawful f inv limit wrap) (hinv : inv s.state)
    (hs : Balanced T limit wrap runs s) (h : Moves T f s o calls s') :
    Balanced T limit wrap (fun r => runs r + if o.handles r = true then 1 else 0) s' := by
  cases h with
  | event e calls t hkind h => exact hs.event hT hinv hkind h
  | elapses r calls t hr h => exact hs.elapses hT hinv hr h
  | handler r calls t hqueued hr h =>
      simpa only [Occasion.handles, decide_eq_true_eq] using hs.handler hT hinv hr h
  | late r hqueued hr =>
      simpa only [Occasion.handles, decide_eq_true_eq] using hs.late hqueued hr

end Balance

/-! ## Runs -/

/-- Executed steps of a component with timers. -/
abbrev WatchedStep (κ σ ε α φ : Type*) :=
  Step (Option (Watched κ σ)) (Occasion κ ε) (Except φ (List α))

/-- How many handlers of an object's timer have run. -/
def handled (r : Incarnation κ) (steps : List (WatchedStep κ σ ε α φ)) : Nat :=
  steps.countP fun x => x.event.handles r

section Runs

variable {limit wrap : Nat} {inv : σ → Prop} {steps rest : List (WatchedStep κ σ ε α φ)}

theorem handled_append (r : Incarnation κ) (xs ys : List (WatchedStep κ σ ε α φ)) :
    handled r (xs ++ ys) = handled r xs + handled r ys :=
  List.countP_append

theorem handled_singleton (r : Incarnation κ) (x : WatchedStep κ σ ε α φ) :
    handled r [x] = if x.event.handles r = true then 1 else 0 :=
  List.countP_singleton

/-- The state of the component with the handlers that have run. -/
def Accounted (T : Timers κ σ ε) (limit wrap : Nat) (inv : σ → Prop)
    (steps : List (WatchedStep κ σ ε α φ)) (s : Watched κ σ) : Prop :=
  inv s.state ∧ Balanced T limit wrap (fun r => handled r steps) s

/-- One step keeps the account. -/
theorem Accounted.step (hT : T.Lawful f inv limit wrap) (hs : Accounted T limit wrap inv steps s)
    {output : Except φ (List α)}
    (h : (machine T f).step (some s) o = some (output, some s')) :
    Accounted T limit wrap inv (steps ++ [⟨some s, o, output, some s'⟩]) s' := by
  obtain ⟨calls, -, hmoves⟩ := moves_of_step h
  refine ⟨?_, ?_⟩
  · rcases hmoves.state with ⟨e, he, -⟩ | ⟨hsame, -⟩
    · exact hT.preserved hs.1 he
    · rw [hsame]
      exact hs.1
  · simp only [handled_append, handled_singleton]
    exact hs.2.moves hT hs.1 hmoves

/-- A run keeps the account. -/
theorem Accounted.append (hT : T.Lawful f inv limit wrap)
    (hs : Accounted T limit wrap inv steps s) (h : (machine T f).Run (some s) rest (some s')) :
    Accounted T limit wrap inv (steps ++ rest) s' := by
  refine h.alive_invariant (fun _ => rfl) (fun _ => True)
    (fun pre t => Accounted T limit wrap inv (steps ++ pre) t) ?_ ?_ (fun _ _ => trivial)
  · rw [List.append_nil]
    exact hs
  · intro pre t o output u _ ht hstep _
    rw [← List.append_assoc]
    exact ht.step hT hstep

/-- No handler of an object that the last step has stored has run. -/
theorem Accounted.handled_new (hs : Accounted T limit wrap inv steps s) (k : κ) (e : ε)
    (output : Except φ (List α)) (u : Option (Watched κ σ)) :
    handled ⟨k, s.next⟩ (steps ++ [⟨some s, .event e, output, u⟩]) = 0 := by
  have hnone : handled ⟨k, s.next⟩ steps = 0 := hs.2.unhandled (Nat.le_refl _)
  rw [handled_append, hnone, handled_singleton]
  rfl

/-- The account of a run. -/
theorem Balanced.of_run (hT : T.Lawful f inv limit wrap) {t : σ} (hinv : inv t)
    (hempty : ∀ k, T.view t k = none)
    (h : (machine T f).Run (some (start t)) steps (some s)) :
    Accounted T limit wrap inv steps s := by
  have hstart : Accounted T limit wrap inv ([] : List (WatchedStep κ σ ε α φ)) (start t) :=
    ⟨hinv, balanced_start hempty⟩
  exact hstart.append hT h

/-- An object is removed by its own handler, or by an event that is none of a timer. -/
theorem event_of_removes (hT : T.Lawful f inv limit wrap)
    (hs : Accounted T limit wrap inv steps s) {output : Except φ (List α)}
    (hstep : (machine T f).step (some s) o = some (output, some s')) (hr : s.Stores r)
    (hnot : ¬ s'.Stores r) : (∃ e, o = .event e) ∨ o = .handler r := by
  obtain ⟨calls, -, hmoves⟩ := moves_of_step hstep
  obtain ⟨v, hv⟩ := exists_view hs.2.consistent hr
  -- an object is kept by the timer of another one
  have hkept {i : κ} {t : σ} (hothers : ∀ k, k ≠ i → T.view t k = T.view s.state k)
      (hi : r.key ≠ i) : (s.toTracked.advance T.occupied t).Stores r := by
    rw [Tracked.stores_advance_of_stores hs.2.consistent hr, Timers.occupied, hothers _ hi, hv]
    rfl
  cases hmoves with
  | event e calls t hkind h => exact Or.inl ⟨e, rfl⟩
  | elapses r' calls t hr' h =>
      obtain ⟨hothers, w, hw, -, hw'⟩ := hT.elapses hs.1 h
      refine absurd ?_ hnot
      by_cases hkey : r.key = r'.key
      · rw [Tracked.stores_advance_of_stores hs.2.consistent hr, Timers.occupied, hkey, hw']
        rfl
      · exact hkept hothers hkey
  | handler r' calls t hqueued hr' h =>
      obtain ⟨hothers, -⟩ := hT.timeout hs.1 h
      by_cases hkey : r.key = r'.key
      · rw [hr.unique hr' hkey]
        exact Or.inr rfl
      · exact absurd (hkept hothers hkey) hnot
  | late r' hqueued hr' => exact absurd hr hnot

/-- A handler gives up the object of its timer exactly if the limit is exceeded. -/
theorem handler_keeps_iff (hT : T.Lawful f inv limit wrap)
    (hs : Accounted T limit wrap inv steps s) {output : Except φ (List α)}
    (hstep : (machine T f).step (some s) (.handler r) = some (output, some s'))
    (hr : s.Stores r) : s'.Stores r ↔ (handled r steps + 1) % wrap ≤ limit := by
  obtain ⟨calls, -, hmoves⟩ := moves_of_step hstep
  cases hmoves with
  | late r hqueued hnot => exact absurd hr hnot
  | handler r calls t hqueued hr h =>
      obtain ⟨-, v, hv, -, hv'⟩ := hT.timeout hs.1 h
      have hstores : (s.toTracked.advance T.occupied t).Stores r ↔ _ :=
        Tracked.stores_advance_of_stores hs.2.consistent hr
      rw [hstores, Timers.occupied, hv', hs.2.counted hr hv, Nat.mod_add_mod]
      split
      · rename_i hle
        simp [hle]
      · rename_i hlt
        simp [hlt]

/-- An object whose timer has expired too often has been given up by its handler, unless an event
that is none of a timer has removed it before. -/
theorem exists_given_up (hT : T.Lawful f inv limit wrap) (hwrap : limit + 1 < wrap)
    (hs : Accounted T limit wrap inv steps s) (hr : s.Stores r)
    (h : (machine T f).Run (some s) rest (some s'))
    (hevents : ∀ pre t e output t', ⟨some t, .event e, output, some t'⟩ ∈ rest →
      Accounted T limit wrap inv (steps ++ pre) t →
      (machine T f).step (some t) (.event e) = some (output, some t') → t.Stores r → t'.Stores r)
    (hmany : limit < handled r (steps ++ rest)) :
    ¬ s'.Stores r ∧ ∃ pre t output t', ⟨some t, .handler r, output, some t'⟩ ∈ rest ∧
      Accounted T limit wrap inv (steps ++ pre) t ∧ t.Stores r ∧ ¬ t'.Stores r ∧
      (machine T f).step (some t) (.handler r) = some (output, some t') := by
  have hnot : ¬ s'.Stores r := by
    intro hr'
    have hle := (hs.append hT h).2.bounded hwrap hr'
    omega
  refine ⟨hnot, ?_⟩
  obtain ⟨x, hx, hremoves⟩ := Watch.exists_removes (W := objects T f) h hr hnot
  obtain ⟨pre, post, hsplit⟩ := List.append_of_mem hx
  obtain ⟨t, t', hstates, hpre, hstep, -⟩ := h.alive_split (fun _ => rfl) hsplit
  rw [hstates] at hx hremoves
  obtain ⟨hstored, hgone⟩ := Watch.removes_some.mp hremoves
  have hacc := hs.append hT hpre
  rcases event_of_removes hT hacc hstep hstored hgone with ⟨e, hevent⟩ | hevent
  · rw [hevent] at hx hstep
    exact absurd (hevents pre t e x.output t' hx hacc hstep hstored) hgone
  · rw [hevent] at hx hstep
    exact ⟨pre, t, x.output, t', hx, hacc, hstored, hgone, hstep⟩

/-! ### An object left to its timer -/

/-- A component can make a step. -/
theorem step_of_watch (h : watch T f s o = some (.ok (calls, s'))) :
    (machine T f).step (some s) o = some (.ok calls, some s') :=
  Machine.ofFallible_step_alive_iff.mpr ⟨calls, h, rfl⟩

/-- An event that is none of a timer. -/
theorem step_event {e : ε} {t : σ} (hkind : T.isTimer e = false)
    (h : f s.state e = some (.ok (calls, t))) :
    (machine T f).step (some s) (.event e) =
      some (.ok calls, some ⟨s.toTracked.advance T.occupied t, s.queue⟩) := by
  apply step_of_watch
  rw [watch, if_neg (by simp [hkind]), h]
  rfl

/-- A wait that is pending can elapse. -/
theorem exists_step_elapses (hT : T.Lawful f inv limit wrap)
    (hs : Accounted T limit wrap inv steps s) (hr : s.Stores r) {v : TimerView}
    (hv : T.view s.state r.key = some v) (harmed : v.armed = true) :
    ∃ output s', (machine T f).step (some s) (.elapses r.key) = some (output, some s') ∧
      s'.Stores r ∧ T.view s'.state r.key = some v.elapsed := by
  obtain ⟨calls, t, ht⟩ := hT.canElapse hs.1 hv harmed
  obtain ⟨-, w, hw, -, hw'⟩ := hT.elapses hs.1 ht
  cases hv.symm.trans hw
  refine ⟨.ok calls, ⟨s.toTracked.advance T.occupied t, s.queue ++ [r]⟩, ?_, ?_, hw'⟩
  · have hserial : s.serials.lookup r.key = some r.serial := hr
    apply step_of_watch
    rw [watch, hserial]
    simp only [ht, Option.map_some]
    rfl
  · refine (Tracked.stores_advance_of_stores hs.2.consistent hr).mpr ?_
    rw [Timers.occupied, hw']
    rfl

/-- A handler that is queued can run. -/
theorem exists_step_handler (hT : T.Lawful f inv limit wrap)
    (hs : Accounted T limit wrap inv steps s) (hr : s.Stores r) {v : TimerView}
    (hv : T.view s.state r.key = some v) (hqueued : 0 < v.queued) :
    ∃ output s', (machine T f).step (some s) (.handler r) = some (output, some s') ∧
      (s'.Stores r → ∃ w, T.view s'.state r.key = some w ∧ w.armed = true) := by
  obtain ⟨calls, t, ht⟩ := hT.canRun hs.1 hv hqueued
  obtain ⟨-, w, -, -, hw'⟩ := hT.timeout hs.1 ht
  have hmem : r ∈ s.queue := by
    rw [← hs.2.queued hr hv] at hqueued
    exact List.count_pos_iff.mp hqueued
  refine ⟨.ok calls, ⟨s.toTracked.advance T.occupied t, s.queue.erase r⟩, ?_, ?_⟩
  · apply step_of_watch
    rw [watch, if_pos hmem, if_pos hr]
    simp only [ht, Option.map_some]
    rfl
  · intro hr'
    obtain ⟨u, hu⟩ := exists_view (hs.2.consistent.advance t) hr'
    have hsame : T.view t r.key = some u := hu
    rw [hw'] at hsame
    split at hsame
    · cases hsame
      exact ⟨_, hu, rfl⟩
    · cases hsame

/-- The wait of an object's timer elapses and its handler runs. -/
theorem exists_round (hT : T.Lawful f inv limit wrap)
    (hs : Accounted T limit wrap inv steps s) (hr : s.Stores r) {v : TimerView}
    (hv : T.view s.state r.key = some v) (harmed : v.armed = true) :
    ∃ round s', (machine T f).Run (some s) round (some s') ∧
      (∀ x ∈ round, x.event = .elapses r.key ∨ x.event = .handler r) ∧ handled r round = 1 ∧
      (s'.Stores r ↔ (handled r steps + 1) % wrap ≤ limit) ∧
      (s'.Stores r → ∃ w, T.view s'.state r.key = some w ∧ w.armed = true) := by
  obtain ⟨output, s₁, hfirst, hr₁, hv₁⟩ := exists_step_elapses hT hs hr hv harmed
  have hs₁ := hs.step hT hfirst
  obtain ⟨output', s₂, hsecond, harmed₂⟩ := exists_step_handler hT hs₁ hr₁ hv₁ (Nat.succ_pos _)
  have hkeeps := handler_keeps_iff hT hs₁ hsecond hr₁
  rw [handled_append, handled_singleton] at hkeeps
  refine ⟨_, s₂, (Machine.Run.single hfirst).append (Machine.Run.single hsecond), ?_, ?_,
    hkeeps, harmed₂⟩
  · intro x hx
    simp only [List.singleton_append, List.mem_cons, List.not_mem_nil, or_false] at hx
    rcases hx with rfl | rfl
    · exact Or.inl rfl
    · exact Or.inr rfl
  · rw [handled_append, handled_singleton, handled_singleton]
    simp [Occasion.handles]

/-- If the counter of an object wraps around without ever exceeding the limit, the object stays,
whatever number of handlers run. -/
theorem exists_run_handled (hT : T.Lawful f inv limit wrap) (hwrap : 0 < wrap)
    (hlimit : wrap ≤ limit + 1) (hs : Accounted T limit wrap inv steps s) (hr : s.Stores r)
    {v : TimerView} (hv : T.view s.state r.key = some v) (harmed : v.armed = true) (n : Nat) :
    ∃ rest s', (machine T f).Run (some s) rest (some s') ∧
      (∀ x ∈ rest, x.event = .elapses r.key ∨ x.event = .handler r) ∧ handled r rest = n ∧
      s'.Stores r := by
  induction n generalizing s steps v with
  | zero => exact ⟨[], s, Machine.Run.nil _, fun _ hx => absurd hx List.not_mem_nil, rfl, hr⟩
  | succ n ih =>
      obtain ⟨round, s₁, hround, hevents, hone, hkeeps, harmed₁⟩ := exists_round hT hs hr hv harmed
      have hr₁ : s₁.Stores r := by
        have hlt := Nat.mod_lt (handled r steps + 1) hwrap
        exact hkeeps.mpr (by omega)
      obtain ⟨w, hw, hwarmed⟩ := harmed₁ hr₁
      obtain ⟨rest, s', hrun, hevents', hcount, hr'⟩ := ih (hs.append hT hround) hr₁ hw hwarmed
      refine ⟨round ++ rest, s', hround.append hrun, ?_, ?_, hr'⟩
      · intro x hx
        rcases List.mem_append.mp hx with hx | hx
        · exact hevents x hx
        · exact hevents' x hx
      · rw [handled_append, hone, hcount]
        exact Nat.add_comm 1 n

/-- An object whose timer is pending can be left to its timer until it is given up. -/
theorem exists_run_released (hT : T.Lawful f inv limit wrap) (hwrap : limit + 1 < wrap)
    (hs : Accounted T limit wrap inv steps s) (hr : s.Stores r) {v : TimerView}
    (hv : T.view s.state r.key = some v) (hpending : v.armed = true ∨ 0 < v.queued) :
    ∃ rest s', (machine T f).Run (some s) rest (some s') ∧
      (∀ x ∈ rest, x.event = .elapses r.key ∨ x.event = .handler r) ∧ ¬ s'.Stores r := by
  -- the expirations that are left
  suffices hall : ∀ n steps s v, n = limit + 1 - handled r steps →
      Accounted T limit wrap inv steps s → s.Stores r → T.view s.state r.key = some v →
      v.armed = true → ∃ rest s', (machine T f).Run (some s) rest (some s') ∧
        (∀ x ∈ rest, x.event = .elapses r.key ∨ x.event = .handler r) ∧ ¬ s'.Stores r by
    by_cases harmed : v.armed = true
    · exact hall _ steps s v rfl hs hr hv harmed
    · obtain ⟨output, s₁, hfirst, harmed₁⟩ :=
        exists_step_handler hT hs hr hv (hpending.resolve_left harmed)
      by_cases hr₁ : s₁.Stores r
      · obtain ⟨w, hw, hwarmed⟩ := harmed₁ hr₁
        obtain ⟨rest, s', hrun, hevents, hnot⟩ :=
          hall _ _ s₁ w rfl (hs.step hT hfirst) hr₁ hw hwarmed
        refine ⟨_, s', (Machine.Run.single hfirst).append hrun, ?_, hnot⟩
        intro x hx
        rcases List.mem_append.mp hx with hx | hx
        · rw [List.mem_singleton.mp hx]
          exact Or.inr rfl
        · exact hevents x hx
      · refine ⟨_, s₁, Machine.Run.single hfirst, ?_, hr₁⟩
        intro x hx
        rw [List.mem_singleton.mp hx]
        exact Or.inr rfl
  intro n
  induction n with
  | zero =>
      intro steps s v hn hs hr hv harmed
      have hle := hs.2.bounded hwrap hr
      omega
  | succ n ih =>
      intro steps s v hn hs hr hv harmed
      obtain ⟨round, s₁, hround, hevents, hone, -, harmed₁⟩ := exists_round hT hs hr hv harmed
      by_cases hr₁ : s₁.Stores r
      · obtain ⟨w, hw, hwarmed⟩ := harmed₁ hr₁
        have hcount : n = limit + 1 - handled r (steps ++ round) := by
          rw [handled_append, hone]
          omega
        obtain ⟨rest, s', hrun, hevents', hnot⟩ :=
          ih (steps ++ round) s₁ w hcount (hs.append hT hround) hr₁ hw hwarmed
        refine ⟨round ++ rest, s', hround.append hrun, ?_, hnot⟩
        intro x hx
        rcases List.mem_append.mp hx with hx | hx
        · exact hevents x hx
        · exact hevents' x hx
      · exact ⟨round, s₁, hround, hevents, hr₁⟩

end Runs

end Watched

end Library
end WallyIo
