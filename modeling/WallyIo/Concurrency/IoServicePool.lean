import WallyIo.Library.Machine
import Mathlib.Data.Int.CardIntervalMod
import Mathlib.Data.List.Perm.Basic

/-!
# The pool of I/O services

A pool hands out its I/O services one after the other.  The calls of several threads share one
atomic counter, which each of them increments, and which a call that finds it too large tries to
cut back.  Every access of the counter is a step of its own here, so that the steps of different
calls interleave in any order.

Main results:

- Theorem {lit}`handsOut_of_run`: every service is handed out as often as every other one, give or
  take one, in whatever order the calls access the counter.
- Theorem {lit}`counter_le_of_idle`: the counter is not too large if no call is in progress.
- Theorem {lit}`exists_run_grown`: two calls at a time suffice to make it as large as can be.
- Theorem {lit}`exists_run_returns`: a call that is left alone returns.
-/

namespace WallyIo
namespace Concurrency

open Library

/-! ## The pool and its counter -/

/-- A call that has found the counter too large. -/
structure Call where
  /-- The value of the counter that the call has taken. -/
  next : UInt64
  /-- The value that the call has loaded and tries to exchange, unless it is about to load one. -/
  seen : Option UInt64
deriving DecidableEq, Repr

/-- A pool, with the calls that are in progress. -/
structure IoServicePool where
  poolSize : UInt64
  /-- There is at least one service. -/
  poolSize_pos : 0 < poolSize
  nextIoService : UInt64
  calls : List Call

/-- What a call does next. -/
inductive PoolEvent
  /-- A thread calls the pool, which increments the counter. -/
  | ioService
  /-- A call in progress loads the counter. -/
  | load (i : Nat)
  /-- A call in progress exchanges the counter if it still is what it has loaded. -/
  | compareExchange (i : Nat)
deriving DecidableEq, Repr

namespace IoServicePool

/-- A new pool. -/
def create (poolSize : UInt64) (h : 0 < poolSize) : IoServicePool := ⟨poolSize, h, 0, []⟩

/-- Which service a call gets. -/
def index (pool : IoServicePool) (call : Call) : UInt64 := call.next % pool.poolSize

/-- A call increments the counter. -/
def ioService (pool : IoServicePool) : Option UInt64 × IoServicePool :=
  let call : Call := ⟨pool.nextIoService, none⟩
  let pool := { pool with nextIoService := pool.nextIoService + 1 }
  if pool.poolSize ≤ call.next then (none, { pool with calls := pool.calls ++ [call] })
  else (some (pool.index call), pool)

/-- A call in progress returns. -/
def finish (pool : IoServicePool) (i : Nat) (call : Call) : Option UInt64 × IoServicePool :=
  (some (pool.index call), { pool with calls := pool.calls.eraseIdx i })

/-- A call in progress loads the counter.  Some other thread may have cut it back. -/
def load (pool : IoServicePool) (i : Nat) (call : Call) : Option UInt64 × IoServicePool :=
  if pool.nextIoService < pool.poolSize then pool.finish i call
  else (none, { pool with calls := pool.calls.set i ⟨call.next, some pool.nextIoService⟩ })

/-- A call in progress tries to cut the counter back.  It starts over if it succeeds. -/
def compareExchange (pool : IoServicePool) (i : Nat) (call : Call) (seen : UInt64) :
    Option UInt64 × IoServicePool :=
  if pool.nextIoService = seen then
    (none, { pool with
      nextIoService := seen % pool.poolSize, calls := pool.calls.set i ⟨call.next, none⟩ })
  else pool.finish i call

/-- One access of the counter, with the service that a call gets which returns. -/
def step (pool : IoServicePool) : PoolEvent → Option (Option UInt64 × IoServicePool)
  | .ioService => some pool.ioService
  | .load i =>
      pool.calls[i]?.bind fun call =>
        if call.seen = none then some (pool.load i call) else none
  | .compareExchange i =>
      pool.calls[i]?.bind fun call =>
        call.seen.map fun seen => pool.compareExchange i call seen

/-- The machine of a pool. -/
def machine : Machine IoServicePool PoolEvent (Option UInt64) := ⟨step⟩

/-- Executed steps of the machine. -/
abbrev PoolStep := Step IoServicePool PoolEvent (Option UInt64)

/-- How many calls have been made. -/
def callCount (steps : List PoolStep) : Nat := steps.countP (·.event == .ioService)

/-- The services that have been handed out. -/
def handedOut (steps : List PoolStep) : List UInt64 := steps.filterMap (·.output)

/-! ## What a step does -/

variable {pool pool' : IoServicePool} {event : PoolEvent} {output : Option UInt64}
  {steps : List PoolStep} {call : Call} {i : Nat}

/-- What a step does. -/
inductive Accesses (pool : IoServicePool) :
    PoolEvent → Option UInt64 → IoServicePool → Prop
  /-- A call returns at once. -/
  | returns (hlt : pool.nextIoService < pool.poolSize) :
      Accesses pool .ioService (some (pool.index ⟨pool.nextIoService, none⟩))
        { pool with nextIoService := pool.nextIoService + 1 }
  /-- A call finds the counter too large. -/
  | enters (hle : pool.poolSize ≤ pool.nextIoService) :
      Accesses pool .ioService none { pool with
        nextIoService := pool.nextIoService + 1,
        calls := pool.calls ++ [⟨pool.nextIoService, none⟩] }
  /-- A call in progress returns, either since the counter has been cut back, or since it has been
  changed. -/
  | finishes (event : PoolEvent) (i : Nat) (call : Call) (hcall : pool.calls[i]? = some call)
      (hseen : (call.seen = none ∧ pool.nextIoService < pool.poolSize) ∨
        ∃ seen, call.seen = some seen ∧ pool.nextIoService ≠ seen)
      (hevent : event ≠ .ioService) :
      Accesses pool event (some (pool.index call)) { pool with calls := pool.calls.eraseIdx i }
  | loads (i : Nat) (call : Call) (hcall : pool.calls[i]? = some call)
      (hle : pool.poolSize ≤ pool.nextIoService) :
      Accesses pool (.load i) none { pool with
        calls := pool.calls.set i ⟨call.next, some pool.nextIoService⟩ }
  | exchanges (i : Nat) (call : Call) (hcall : pool.calls[i]? = some call)
      (hseen : call.seen = some pool.nextIoService) :
      Accesses pool (.compareExchange i) none { pool with
        nextIoService := pool.nextIoService % pool.poolSize,
        calls := pool.calls.set i ⟨call.next, none⟩ }

theorem accesses_of_step (h : machine.step pool event = some (output, pool')) :
    Accesses pool event output pool' := by
  cases event with
  | ioService =>
      simp only [machine, step, Option.some.injEq, ioService] at h
      split at h
      · rename_i hle
        cases h
        exact .enters hle
      · rename_i hlt
        cases h
        exact .returns (UInt64.not_le.mp hlt)
  | load i =>
      simp only [machine, step, Option.bind_eq_some_iff] at h
      obtain ⟨call, hcall, h⟩ := h
      split at h
      · rename_i hseen
        rw [Option.some.injEq, load] at h
        split at h
        · rename_i hlt
          cases h
          exact .finishes _ i call hcall (Or.inl ⟨hseen, hlt⟩) (by simp)
        · rename_i hle
          cases h
          exact .loads i call hcall (UInt64.not_lt.mp hle)
      · cases h
  | compareExchange i =>
      simp only [machine, step, Option.bind_eq_some_iff, Option.map_eq_some_iff] at h
      obtain ⟨call, hcall, seen, hseen, h⟩ := h
      rw [compareExchange] at h
      split at h
      · rename_i hsame
        subst hsame
        cases h
        exact .exchanges i call hcall hseen
      · rename_i hne
        cases h
        exact .finishes _ i call hcall (Or.inr ⟨seen, hseen, hne⟩) (by simp)

/-- The size of a pool does not change. -/
theorem Accesses.poolSize_eq (h : Accesses pool event output pool') :
    pool'.poolSize = pool.poolSize := by
  cases h <;> rfl

theorem callCount_snoc (steps : List PoolStep) (x : PoolStep) :
    callCount (steps ++ [x]) = callCount steps + if x.event = .ioService then 1 else 0 := by
  simp [callCount, List.countP_append, List.countP_singleton]

theorem handedOut_snoc (steps : List PoolStep) (x : PoolStep) :
    handedOut (steps ++ [x]) = handedOut steps ++ x.output.toList := by
  rw [handedOut, handedOut, List.filterMap_append]
  cases h : x.output <;> simp [h]

/-! ## The services are handed out in turn -/

/-- A call that returns is not in progress any more. -/
theorem perm_eraseIdx (hcall : pool.calls[i]? = some call) :
    (pool.index call :: (pool.calls.eraseIdx i).map pool.index).Perm
      (pool.calls.map pool.index) := by
  obtain ⟨hlt, rfl⟩ := List.getElem?_eq_some_iff.mp hcall
  exact (List.getElem_cons_eraseIdx_perm hlt).map pool.index

/-- A call in progress gets the same service whatever it has seen. -/
theorem map_index_set (seen : Option UInt64) (hcall : pool.calls[i]? = some call) :
    (pool.calls.set i ⟨call.next, seen⟩).map pool.index = pool.calls.map pool.index := by
  obtain ⟨hlt, rfl⟩ := List.getElem?_eq_some_iff.mp hcall
  have hlt' : i < (pool.calls.map pool.index).length := by rwa [List.length_map]
  have hsame : pool.index ⟨pool.calls[i].next, seen⟩ = (pool.calls.map pool.index)[i] := by
    rw [List.getElem_map]
    rfl
  rw [List.map_set, hsame, List.set_getElem_self]

/-- The services of the calls in progress, and of one that returns. -/
theorem Accesses.perm (h : Accesses pool event output pool') :
    (output.toList ++ pool'.calls.map pool'.index).Perm (pool.calls.map pool.index ++
      if event = .ioService then [pool.index ⟨pool.nextIoService, none⟩] else []) := by
  cases h with
  | returns hlt =>
      rw [if_pos rfl]
      exact List.perm_append_comm
  | enters hle =>
      rw [if_pos rfl]
      exact List.Perm.of_eq List.map_append
  | finishes event i call hcall hseen hevent =>
      rw [if_neg hevent, List.append_nil]
      exact perm_eraseIdx hcall
  | loads i call hcall hle =>
      rw [if_neg (by simp), List.append_nil]
      exact List.Perm.of_eq (map_index_set _ hcall)
  | exchanges i call hcall hseen =>
      rw [if_neg (by simp), List.append_nil]
      exact List.Perm.of_eq (map_index_set _ hcall)

/-- The counter is incremented by a call, or else changes by a multiple of the size. -/
theorem Accesses.counter (h : Accesses pool event output pool') :
    if event = .ioService then pool'.nextIoService = pool.nextIoService + 1
    else pool'.nextIoService.toNat ≤ pool.nextIoService.toNat ∧
      pool'.nextIoService.toNat % pool.poolSize.toNat =
        pool.nextIoService.toNat % pool.poolSize.toNat := by
  cases h with
  | returns | enters => rfl
  | finishes event i call hcall hseen hevent =>
      rw [if_neg hevent]
      exact ⟨Nat.le_refl _, rfl⟩
  | loads => exact ⟨Nat.le_refl _, rfl⟩
  | exchanges =>
      simp only [reduceCtorEq, if_false, UInt64.toNat_mod, Nat.mod_mod, and_true]
      exact Nat.mod_le _ _

/-- The services that have been handed out, or will be to the calls in progress. -/
def served (steps : List PoolStep) (pool : IoServicePool) : List Nat :=
  (handedOut steps ++ pool.calls.map pool.index).map UInt64.toNat

/-- What has been handed out after some steps. -/
structure HandsOut (poolSize : UInt64) (steps : List PoolStep) (pool : IoServicePool) : Prop where
  poolSize_eq : pool.poolSize = poolSize
  /-- The next call gets the service whose turn it is, even if the counter has been cut back. -/
  turn : pool.nextIoService.toNat % poolSize.toNat = callCount steps % poolSize.toNat
  bounded : pool.nextIoService.toNat ≤ callCount steps
  /-- Each call so far has got the service whose turn it was. -/
  turns : (served steps pool).Perm ((List.range (callCount steps)).map (· % poolSize.toNat))

variable (steps) in
/-- What a step adds to the services. -/
theorem perm_served (h : Accesses pool event output pool') :
    (served (steps ++ [⟨pool, event, output, pool'⟩]) pool').Perm (served steps pool ++
      if event = .ioService then [pool.nextIoService.toNat % pool.poolSize.toNat] else []) := by
  have hperm := (h.perm.append_left (handedOut steps)).map UInt64.toNat
  rw [served, handedOut_snoc, List.append_assoc]
  refine hperm.trans (List.Perm.of_eq ?_)
  rw [← List.append_assoc, List.map_append, served]
  split
  · rw [List.map_singleton, index, UInt64.toNat_mod]
  · rfl

/-- Every access of the counter preserves this. -/
theorem HandsOut.step {poolSize : UInt64} (h : HandsOut poolSize steps pool)
    (hstep : machine.step pool event = some (output, pool'))
    (hcount : callCount (steps ++ [⟨pool, event, output, pool'⟩]) < 2 ^ 64) :
    HandsOut poolSize (steps ++ [⟨pool, event, output, pool'⟩]) pool' := by
  have haccesses := accesses_of_step hstep
  have hsize := haccesses.poolSize_eq.trans h.poolSize_eq
  have hserved := perm_served steps haccesses
  have hcounter := haccesses.counter
  have hbounded := h.bounded
  rw [h.poolSize_eq] at hserved hcounter
  rw [callCount_snoc] at hcount
  by_cases hevent : event = .ioService
  · rw [if_pos hevent] at hserved hcounter hcount
    have hnext : pool'.nextIoService.toNat = pool.nextIoService.toNat + 1 := by
      rw [hcounter, UInt64.toNat_add, UInt64.toNat_one]
      exact Nat.mod_eq_of_lt (by omega)
    refine ⟨hsize, ?_, ?_, ?_⟩
    · rw [hnext, callCount_snoc, if_pos hevent, Nat.add_mod, h.turn, ← Nat.add_mod]
    · rw [hnext, callCount_snoc, if_pos hevent]
      exact Nat.succ_le_succ hbounded
    · rw [callCount_snoc, if_pos hevent, List.range_succ, List.map_append, List.map_singleton,
        ← h.turn]
      exact hserved.trans (h.turns.append_right _)
  · rw [if_neg hevent] at hserved hcounter
    rw [List.append_nil] at hserved
    refine ⟨hsize, ?_, ?_, ?_⟩
    · rw [callCount_snoc, if_neg hevent]
      exact hcounter.2.trans h.turn
    · rw [callCount_snoc, if_neg hevent]
      exact hcounter.1.trans hbounded
    · rw [callCount_snoc, if_neg hevent]
      exact hserved.trans h.turns

/-- In a run the services are handed out in turn, as long as the counter cannot wrap around. -/
theorem HandsOut.of_run {poolSize : UInt64} {hpos : 0 < poolSize}
    (h : machine.Run (create poolSize hpos) steps pool) (hcount : callCount steps < 2 ^ 64) :
    HandsOut poolSize steps pool := by
  refine h.snoc_induction
    (motive := fun steps pool => callCount steps < 2 ^ 64 → HandsOut poolSize steps pool)
    ?_ ?_ hcount
  · intro _
    exact ⟨rfl, rfl, Nat.le_refl _, List.Perm.refl _⟩
  · intro pre pool event output pool' _ hstep ih hcount
    refine (ih ?_).step hstep hcount
    rw [callCount_snoc] at hcount
    exact Nat.lt_of_le_of_lt (Nat.le_add_right _ _) hcount

/-- How often a number comes up in turn. -/
theorem count_turns {n j : Nat} (hj : j < n) (k : Nat) :
    ((List.range k).map (· % n)).count j = k / n + if j < k % n then 1 else 0 := by
  have hturn := Nat.count_modEq_card k (Nat.lt_of_le_of_lt (Nat.zero_le j) hj) j
  rw [Nat.mod_eq_of_lt hj] at hturn
  rw [← hturn, List.count_eq_countP, List.countP_map, Nat.count]
  apply List.countP_congr
  intro i _
  rw [Function.comp_apply, beq_iff_eq, decide_eq_true_eq, Nat.ModEq, Nat.mod_eq_of_lt hj]

/-- The services are handed out in turn, whatever the order in which the calls access the counter:
when all calls have returned, every service has been handed out as often as every other one, give
or take one. -/
theorem handsOut_of_run {poolSize : UInt64} {hpos : 0 < poolSize}
    (h : machine.Run (create poolSize hpos) steps pool) (hcount : callCount steps < 2 ^ 64) :
    HandsOut poolSize steps pool ∧ (pool.calls = [] → ∀ j, j < poolSize →
      (handedOut steps).count j = callCount steps / poolSize.toNat +
        if j.toNat < callCount steps % poolSize.toNat then 1 else 0) := by
  have hout := HandsOut.of_run h hcount
  refine ⟨hout, ?_⟩
  intro hidle j hj
  have hperm := hout.turns
  rw [served, hidle, List.map_nil, List.append_nil] at hperm
  have hinjective : Function.Injective UInt64.toNat := fun _ _ => UInt64.toNat_inj.mp
  rw [← count_turns (UInt64.lt_iff_toNat_lt.mp hj), ← hperm.count_eq,
    List.count_map_of_injective _ _ hinjective]

/-- A pool of two services, of which each thread of two gets one. -/
theorem handsOut_of_run_two : ∃ steps pool, machine.Run (create 2 (by decide)) steps pool ∧
    callCount steps = 2 ∧ HandsOut 2 steps pool ∧ (pool.calls = [] → ∀ j : UInt64, j < 2 →
      (handedOut steps).count j = callCount steps / (2 : UInt64).toNat +
        if j.toNat < callCount steps % (2 : UInt64).toNat then 1 else 0) := by
  have hexec : machine.exec (create 2 (by decide)) [.ioService, .ioService] = some (_, _) := rfl
  have hrun := Machine.run_exec hexec
  exact ⟨_, _, hrun, rfl, handsOut_of_run hrun (by decide)⟩

/-! ## The counter is cut back -/

/-- A counter that is too large will be cut back by a call in progress: it is about to load the
counter, or has loaded the present value. -/
def CutsBack (pool : IoServicePool) : Prop :=
  pool.poolSize < pool.nextIoService →
    ∃ call ∈ pool.calls, call.seen = none ∨ call.seen = some pool.nextIoService

/-- Every access of the counter leaves a call that cuts it back. -/
theorem CutsBack.step (h : CutsBack pool)
    (hstep : machine.step pool event = some (output, pool')) : CutsBack pool' := by
  intro hlarge
  cases accesses_of_step hstep with
  | returns hlt =>
      -- the counter is at most the size of the pool
      have hle : pool.nextIoService.toNat < pool.poolSize.toNat := UInt64.lt_iff_toNat_lt.mp hlt
      have hgt : pool.poolSize.toNat < (pool.nextIoService + 1).toNat :=
        UInt64.lt_iff_toNat_lt.mp hlarge
      rw [UInt64.toNat_add, UInt64.toNat_one] at hgt
      have hmod := Nat.mod_le (pool.nextIoService.toNat + 1) (2 ^ 64)
      omega
  | enters hle =>
      exact ⟨⟨pool.nextIoService, none⟩, List.mem_append_right _ (List.mem_singleton_self _),
        Or.inl rfl⟩
  | finishes event i call hcall hseen hevent =>
      obtain ⟨other, hother, hcuts⟩ := h hlarge
      refine ⟨other, ?_, hcuts⟩
      obtain ⟨j, hj⟩ := List.getElem?_of_mem hother
      refine List.mem_eraseIdx_iff_getElem?.mpr ⟨j, ?_, hj⟩
      -- a call that returns does not cut the counter back
      rintro rfl
      cases hcall.symm.trans hj
      rcases hseen with ⟨-, hlt⟩ | ⟨seen, hsome, hne⟩
      · exact absurd (UInt64.lt_trans hlt hlarge) (UInt64.lt_irrefl _)
      · rcases hcuts with hnone | hsame
        · cases hsome.symm.trans hnone
        · exact hne (Option.some.inj (hsame.symm.trans hsome))
  | loads i call hcall hle =>
      obtain ⟨hlt, -⟩ := List.getElem?_eq_some_iff.mp hcall
      exact ⟨_, List.mem_set hlt _, Or.inr rfl⟩
  | exchanges i call hcall hseen =>
      have hsmall : pool.nextIoService % pool.poolSize < pool.poolSize :=
        UInt64.mod_lt _ pool.poolSize_pos
      exact absurd (UInt64.lt_trans hlarge hsmall) (UInt64.lt_irrefl _)

/-- The counter is not too large if no call is in progress, and otherwise there is one that cuts it
back. -/
theorem counter_le_of_idle {poolSize : UInt64} {hpos : 0 < poolSize}
    (h : machine.Run (create poolSize hpos) steps pool) :
    CutsBack pool ∧ (pool.calls = [] → pool.nextIoService ≤ pool.poolSize) := by
  have hcuts : CutsBack pool := by
    refine h.invariant (fun _ => True) CutsBack ?_ ?_ (fun _ _ => trivial)
    · intro hlarge
      exact absurd (UInt64.lt_trans hlarge hpos) (UInt64.lt_irrefl _)
    · intro pool event output pool' hpool hstep _
      exact hpool.step hstep
  refine ⟨hcuts, ?_⟩
  intro hidle
  rw [← UInt64.not_lt]
  intro hlarge
  obtain ⟨call, hmem, -⟩ := hcuts hlarge
  rw [hidle] at hmem
  cases hmem

/-- A pool of one service, with a call in progress that has found the counter too large. -/
theorem counter_le_of_idle_one : ∃ steps pool, machine.Run (create 1 (by decide)) steps pool ∧
    pool.poolSize < pool.nextIoService ∧
      CutsBack pool ∧ (pool.calls = [] → pool.nextIoService ≤ pool.poolSize) := by
  have hexec : machine.exec (create 1 (by decide)) [.ioService, .ioService] = some (_, _) := rfl
  have hrun := Machine.run_exec hexec
  exact ⟨_, _, hrun, by decide, counter_le_of_idle hrun⟩

/-! ## A call that is left alone -/

/-- A step of one call in progress. -/
def PoolEvent.isOf (event : PoolEvent) (i : Nat) : Prop :=
  event = .load i ∨ event = .compareExchange i

theorem step_load (hcall : pool.calls[i]? = some call) (hseen : call.seen = none) :
    machine.step pool (.load i) = some (pool.load i call) := by
  simp only [machine, step, hcall, Option.bind_some, hseen, if_true]

theorem step_compareExchange {seen : UInt64} (hcall : pool.calls[i]? = some call)
    (hseen : call.seen = some seen) :
    machine.step pool (.compareExchange i) = some (pool.compareExchange i call seen) := by
  simp only [machine, step, hcall, Option.bind_some, hseen, Option.map_some]

/-- What becomes of a call in progress that makes at most some steps and returns. -/
structure Returns (pool : IoServicePool) (i : Nat) (call : Call) (n : Nat)
    (steps : List PoolStep) (pool' : IoServicePool) : Prop where
  run : machine.Run pool steps pool'
  length_le : steps.length ≤ n
  alone : ∀ x ∈ steps, PoolEvent.isOf x.event i
  handedOut_eq : handedOut steps = [pool.index call]
  calls_eq : pool'.calls = pool.calls.eraseIdx i

/-- A call that returns does so with one more step in front. -/
theorem Returns.cons {event : PoolEvent} {pool₁ : IoServicePool} {call₁ : Call} {n : Nat}
    (h : Returns pool₁ i call₁ n steps pool')
    (hstep : machine.step pool event = some (none, pool₁)) (hevent : PoolEvent.isOf event i)
    (hindex : pool₁.index call₁ = pool.index call)
    (hcalls : pool₁.calls.eraseIdx i = pool.calls.eraseIdx i) :
    Returns pool i call (n + 1) (⟨pool, event, none, pool₁⟩ :: steps) pool' where
  run := Machine.Run.cons hstep h.run
  length_le := Nat.succ_le_succ h.length_le
  alone x hx := by
    rcases List.mem_cons.mp hx with rfl | hx
    · exact hevent
    · exact h.alone x hx
  handedOut_eq := h.handedOut_eq.trans (by rw [hindex])
  calls_eq := h.calls_eq.trans hcalls

/-- A call whose next step is its last one returns with it. -/
theorem Returns.last {event : PoolEvent}
    (hstep : machine.step pool event = some (pool.finish i call))
    (hevent : PoolEvent.isOf event i) (n : Nat) :
    ∃ steps pool', Returns pool i call (n + 1) steps pool' :=
  ⟨_, _, Machine.Run.single hstep, Nat.succ_le_succ (Nat.zero_le n),
    fun x hx => by rw [List.mem_singleton.mp hx]; exact hevent, rfl, rfl⟩

/-- A call that loads a small counter returns. -/
theorem returns_of_lt (hcall : pool.calls[i]? = some call) (hseen : call.seen = none)
    (hlt : pool.nextIoService < pool.poolSize) (n : Nat) :
    ∃ steps pool', Returns pool i call (n + 1) steps pool' := by
  refine Returns.last ?_ (Or.inl rfl) n
  rw [step_load hcall hseen, load, if_pos hlt]

/-- A call that tries to exchange the counter returns after at most one more step. -/
theorem returns_of_seen {seen : UInt64} (hcall : pool.calls[i]? = some call)
    (hseen : call.seen = some seen) (n : Nat) :
    ∃ steps pool', Returns pool i call (n + 2) steps pool' := by
  obtain ⟨hi, -⟩ := List.getElem?_eq_some_iff.mp hcall
  by_cases hsame : pool.nextIoService = seen
  · let pool₁ := { pool with
      nextIoService := seen % pool.poolSize, calls := pool.calls.set i ⟨call.next, none⟩ }
    have hstep : machine.step pool (.compareExchange i) = some (none, pool₁) := by
      rw [step_compareExchange hcall hseen, compareExchange, if_pos hsame]
    have hcall₁ : pool₁.calls[i]? = some ⟨call.next, none⟩ := List.getElem?_set_self hi
    have hlt : pool₁.nextIoService < pool₁.poolSize := UInt64.mod_lt _ pool.poolSize_pos
    obtain ⟨steps, pool', hreturns⟩ := returns_of_lt hcall₁ rfl hlt n
    exact ⟨_, pool', hreturns.cons hstep (Or.inr rfl) rfl List.eraseIdx_set_eq⟩
  · refine Returns.last ?_ (Or.inr rfl) (n + 1)
    rw [step_compareExchange hcall hseen, compareExchange, if_neg hsame]

/-- A call in progress that is left alone returns after at most three steps, whatever the counter
and the other calls. -/
theorem exists_run_returns (hcall : pool.calls[i]? = some call) :
    ∃ steps pool', Returns pool i call 3 steps pool' := by
  cases hseen : call.seen with
  | some seen => exact returns_of_seen hcall hseen 1
  | none =>
      by_cases hlt : pool.nextIoService < pool.poolSize
      · exact returns_of_lt hcall hseen hlt 2
      · obtain ⟨hi, -⟩ := List.getElem?_eq_some_iff.mp hcall
        let pool₁ := { pool with
          calls := pool.calls.set i ⟨call.next, some pool.nextIoService⟩ }
        have hstep : machine.step pool (.load i) = some (none, pool₁) := by
          rw [step_load hcall hseen, load, if_neg hlt]
        have hcall₁ : pool₁.calls[i]? = some ⟨call.next, some pool.nextIoService⟩ :=
          List.getElem?_set_self hi
        obtain ⟨steps, pool', hreturns⟩ := returns_of_seen hcall₁ rfl 0
        exact ⟨_, pool', hreturns.cons hstep (Or.inl rfl) rfl List.eraseIdx_set_eq⟩

/-- A call that has found the counter too large in a pool of one service. -/
theorem exists_run_returns_one : ∃ pool steps pool',
    machine.Run (create 1 (by decide)) steps pool ∧ pool.calls = [⟨1, none⟩] ∧
      ∃ steps', Returns pool 0 ⟨1, none⟩ 3 steps' pool' := by
  have hexec : machine.exec (create 1 (by decide)) [.ioService, .ioService] = some (_, _) := rfl
  have hcall : (ioService (ioService (create 1 (by decide))).2).2.calls[0]? =
      some ⟨1, none⟩ := rfl
  obtain ⟨steps', pool', hreturns⟩ := exists_run_returns hcall
  exact ⟨_, _, pool', Machine.run_exec hexec, rfl, steps', hreturns⟩

/-! ## Two calls keep it from being cut back -/

section Growth

variable {poolSize : UInt64} (hpos : 0 < poolSize)

/-- No more than two calls are in progress at any time. -/
def AtMostTwo (steps : List PoolStep) : Prop := ∀ x ∈ steps, x.after.calls.length ≤ 2

theorem AtMostTwo.append {xs ys : List PoolStep} (hx : AtMostTwo xs) (hy : AtMostTwo ys) :
    AtMostTwo (xs ++ ys) := by
  intro x hmem
  rcases List.mem_append.mp hmem with hmem | hmem
  · exact hx x hmem
  · exact hy x hmem

/-- A pool in which all calls have returned. -/
def idle (poolSize : UInt64) (hpos : 0 < poolSize) (counter : UInt64) : IoServicePool :=
  ⟨poolSize, hpos, counter, []⟩

/-- A pool in which the only call in progress is about to cut the counter back. -/
def cutting (poolSize : UInt64) (hpos : 0 < poolSize) (counter next : UInt64) : IoServicePool :=
  ⟨poolSize, hpos, counter, [⟨next, some counter⟩]⟩

/-- A call that finds the counter small enough returns at once. -/
theorem run_idle {counter : UInt64} (hlt : counter < poolSize) :
    ∃ steps, machine.Run (idle poolSize hpos counter) steps (idle poolSize hpos (counter + 1)) ∧
      AtMostTwo steps := by
  have hstep : machine.step (idle poolSize hpos counter) .ioService =
      some (some (counter % poolSize), idle poolSize hpos (counter + 1)) := by
    simp only [machine, step, ioService, idle, if_neg (UInt64.not_le.mpr hlt)]
    rfl
  refine ⟨_, Machine.Run.single hstep, ?_⟩
  intro x hx
  rw [List.mem_singleton.mp hx]
  exact Nat.zero_le 2

/-- A call finds the counter too large, and loads it. -/
theorem run_enters (hlt : poolSize < poolSize + 1) :
    ∃ steps, machine.Run (idle poolSize hpos poolSize) steps
      (cutting poolSize hpos (poolSize + 1) poolSize) ∧ AtMostTwo steps := by
  let pool₁ : IoServicePool := ⟨poolSize, hpos, poolSize + 1, [⟨poolSize, none⟩]⟩
  have hcall : machine.step (idle poolSize hpos poolSize) .ioService = some (none, pool₁) := by
    simp only [machine, step, ioService, idle, UInt64.le_refl, if_true]
    rfl
  have hload : machine.step pool₁ (.load 0) =
      some (none, cutting poolSize hpos (poolSize + 1) poolSize) := by
    have hcall₁ : pool₁.calls[0]? = some ⟨poolSize, none⟩ := rfl
    rw [step_load hcall₁ rfl, load, if_neg (UInt64.not_lt.mpr (UInt64.le_of_lt hlt))]
    rfl
  refine ⟨_, .cons hcall (.cons hload (.nil _)), ?_⟩
  intro x hx
  simp only [List.mem_cons, List.not_mem_nil, or_false] at hx
  rcases hx with rfl | rfl
  · exact Nat.le_succ 1
  · exact Nat.le_succ 1

/-- A second call takes over before the first can cut the counter back. -/
theorem run_takesOver {counter : UInt64} (next : UInt64) (hle : poolSize ≤ counter)
    (hlt : counter < counter + 1) :
    ∃ steps, machine.Run (cutting poolSize hpos counter next) steps
      (cutting poolSize hpos (counter + 1) counter) ∧ AtMostTwo steps := by
  have hlarge : ¬ counter + 1 < poolSize :=
    UInt64.not_lt.mpr (UInt64.le_of_lt (UInt64.lt_of_le_of_lt hle hlt))
  have hne : ¬ counter + 1 = counter := (UInt64.ne_of_lt hlt).symm
  let pool₁ : IoServicePool :=
    ⟨poolSize, hpos, counter + 1, [⟨next, some counter⟩, ⟨counter, none⟩]⟩
  let pool₂ : IoServicePool :=
    ⟨poolSize, hpos, counter + 1, [⟨next, some counter⟩, ⟨counter, some (counter + 1)⟩]⟩
  have hcall : machine.step (cutting poolSize hpos counter next) .ioService =
      some (none, pool₁) := by
    simp only [machine, step, ioService, cutting, if_pos hle]
    rfl
  have hload : machine.step pool₁ (.load 1) = some (none, pool₂) := by
    have hcall₁ : pool₁.calls[1]? = some ⟨counter, none⟩ := rfl
    rw [step_load hcall₁ rfl, load, if_neg hlarge]
    rfl
  have hexchange : machine.step pool₂ (.compareExchange 0) =
      some (some (next % poolSize), cutting poolSize hpos (counter + 1) counter) := by
    have hcall₂ : pool₂.calls[0]? = some ⟨next, some counter⟩ := rfl
    rw [step_compareExchange hcall₂ rfl, compareExchange, if_neg hne]
    rfl
  refine ⟨_, .cons hcall (.cons hload (.cons hexchange (.nil _))), ?_⟩
  intro x hx
  simp only [List.mem_cons, List.not_mem_nil, or_false] at hx
  rcases hx with rfl | rfl | rfl
  · exact Nat.le_refl 2
  · exact Nat.le_refl 2
  · exact Nat.le_succ 1

/-- The successor of a number that is not the largest. -/
theorem toNat_succ {m : UInt64} {n : Nat} (hn : m.toNat = n + 1) :
    (m - 1).toNat = n ∧ m - 1 + 1 = m ∧ m - 1 < m := by
  have hpred : (m - 1).toNat = n := by
    rw [UInt64.toNat_sub_of_le _ _ (UInt64.le_iff_toNat_le.mpr (by simp [hn]))]
    simp [hn]
  refine ⟨hpred, by simp, ?_⟩
  rw [UInt64.lt_iff_toNat_lt, hpred, hn]
  exact Nat.lt_succ_self n

/-- The first calls return at once. -/
theorem exists_run_idle {m : UInt64} (hm : m ≤ poolSize) :
    ∃ steps, machine.Run (create poolSize hpos) steps (idle poolSize hpos m) ∧
      AtMostTwo steps := by
  induction hn : m.toNat generalizing m with
  | zero =>
      obtain rfl : m = 0 := UInt64.toNat_inj.mp hn
      exact ⟨[], Machine.Run.nil _, fun _ hx => absurd hx List.not_mem_nil⟩
  | succ n ih =>
      obtain ⟨hpred, hsucc, hlt⟩ := toNat_succ hn
      obtain ⟨steps, hrun, htwo⟩ := ih (UInt64.le_trans (UInt64.le_of_lt hlt) hm) hpred
      obtain ⟨more, hmore, htwo'⟩ := run_idle hpos (UInt64.lt_of_lt_of_le hlt hm)
      rw [hsucc] at hmore
      exact ⟨_, hrun.append hmore, htwo.append htwo'⟩

/-- The counter can grow as large as there are numbers, although no more than two calls are ever
in progress. -/
theorem exists_run_grown {m : UInt64} (hm : poolSize < m) :
    ∃ steps next, machine.Run (create poolSize hpos) steps (cutting poolSize hpos m next) ∧
      AtMostTwo steps := by
  induction hn : m.toNat generalizing m with
  | zero =>
      rw [UInt64.lt_iff_toNat_lt, hn] at hm
      cases hm
  | succ n ih =>
      obtain ⟨hpred, hsucc, hlt⟩ := toNat_succ hn
      by_cases hfirst : m - 1 = poolSize
      · obtain ⟨steps, hrun, htwo⟩ := exists_run_idle hpos (UInt64.le_refl poolSize)
        rw [hfirst] at hsucc
        obtain ⟨more, hmore, htwo'⟩ := run_enters hpos (by rwa [hsucc])
        rw [hsucc] at hmore
        exact ⟨_, _, hrun.append hmore, htwo.append htwo'⟩
      · have hlt' : poolSize < m - 1 := by
          rw [UInt64.lt_iff_toNat_lt] at hm ⊢
          have hne : (m - 1).toNat ≠ poolSize.toNat := fun h => hfirst (UInt64.toNat_inj.mp h)
          omega
        obtain ⟨steps, next, hrun, htwo⟩ := ih hlt' hpred
        obtain ⟨more, hmore, htwo'⟩ :=
          run_takesOver hpos next (UInt64.le_of_lt hlt') (by rwa [hsucc])
        rw [hsucc] at hmore
        exact ⟨_, _, hrun.append hmore, htwo.append htwo'⟩

/-- A pool of one service. -/
theorem exists_run_grown_one : ∃ steps next,
    machine.Run (create 1 (by decide)) steps (cutting 1 (by decide) 1000000 next) ∧
      AtMostTwo steps :=
  exists_run_grown (by decide) (by decide)

end Growth

end IoServicePool

end Concurrency
end WallyIo
