import Aesd.Lib.MutualExclusion

/-!
# Threads that can be cancelled

A request to cancel a thread is acted on at the next call that is a cancellation point:
the thread ends there, wherever it is in its program.  A mutex that it owns stays locked.
So a thread that waits for a mutex waits forever if the owner has ended, or can only end.
-/

namespace Reactive

open Concurrency Loop

universe u v w x y

/-- Threads with the requests for their cancellation. -/
structure Cancellable (Env : Type u) (State : Type v) extends Shared Env State where
  cancelled : List Nat

namespace Cancellable

variable {Env : Type u} {State : Type v} {Call : Type w} {Reply : Type x} {Result : Type y}

inductive Turn (Event : Type u) where
  | call (task : Nat) (event : Event)
  | act (task : Nat)
  | request (task : Nat)

/-- A thread calls on, or ends because of a request. A call that has returned is one that the
thread had made before the request. -/
inductive Step (process : Process State Call Reply Result)
    (answers : Nat → Call × Reply → Env → Env → Prop) (isPoint : Call → Prop) :
    Cancellable Env State → Turn (Call × Reply) → Cancellable Env State → Prop where
  | call {system : Cancellable Env State} {task : Nat} {event : Call × Reply}
      {shared' : Shared Env State} :
      (task ∈ system.cancelled → ¬ isPoint event.1) →
      Shared.Step process answers system.toShared (task, event) shared' →
      Step process answers isPoint system (.call task event) ⟨shared', system.cancelled⟩
  | act {system : Cancellable Env State} {task : Nat} {state : State} :
      task ∈ system.cancelled → system.threads task = some state → isPoint (process.call state) →
      Step process answers isPoint system (.act task)
        ⟨⟨system.env, Function.update system.threads task none⟩, system.cancelled⟩
  | request {system : Cancellable Env State} {task : Nat} :
      Step process answers isPoint system (.request task)
        ⟨system.toShared, task :: system.cancelled⟩

variable {process : Process State Call Reply Result}
  {answers : Nat → Call × Reply → Env → Env → Prop} {isPoint : Call → Prop}
  {mutex : Env → Mutex} {inside : State → Prop} {system system' : Cancellable Env State}
  {turn : Turn (Call × Reply)} {labels : List (Turn (Call × Reply))}

/-- The mutex is owned by a thread that is inside, or that has ended. -/
def Owned (mutex : Env → Mutex) (inside : State → Prop) (shared : Shared Env State) : Prop :=
  ∀ task, (mutex shared.env).owner = some task →
    ∀ state, shared.threads task = some state → inside state

/-- From these states a thread comes to a cancellation point before it gives the mutex back. -/
def Traps (process : Process State Call Reply Result)
    (answers : Nat → Call × Reply → Env → Env → Prop) (isPoint : Call → Prop)
    (mutex : Env → Mutex) (trapped : State → Prop) : Prop :=
  ∀ {task state reply env env'}, trapped state → ¬ isPoint (process.call state) →
    answers task (process.call state, reply) env env' →
    mutex env' = mutex env ∧ (process.resume state reply).Satisfies trapped fun _ => True

/-- A thread that has ended, or that ends before it gives the mutex back. -/
def Doomed (trapped : State → Prop) (system : Cancellable Env State) (task : Nat) : Prop :=
  ∀ state, system.threads task = some state → task ∈ system.cancelled ∧ trapped state

def Waits (process : Process State Call Reply Result)
    (answers : Nat → Call × Reply → Env → Env → Prop) (mutex : Env → Mutex)
    (state : State) : Prop :=
  ∀ task reply env env', answers task (process.call state, reply) env env' →
    (mutex env).lock task = some (mutex env')

structure Blocked (process : Process State Call Reply Result)
    (answers : Nat → Call × Reply → Env → Env → Prop) (isPoint : Call → Prop)
    (mutex : Env → Mutex) (trapped : State → Prop) (system : Cancellable Env State)
    (waiter : Nat) (state : State) : Prop where
  owner : ∃ task, (mutex system.env).owner = some task ∧ system.Doomed trapped task
  running : system.threads waiter = some state
  waits : Waits process answers mutex state
  noPoint : ¬ isPoint (process.call state)

theorem running_of_update_none {threads : Nat → Option State} {task other : Nat} {state : State}
    (running : Function.update threads task none other = some state) :
    threads other = some state := by
  by_cases same : other = task
  · subst same
    rw [Function.update_self] at running
    cases running
  · rwa [Function.update_of_ne same] at running

theorem exclusive_step (guards : Guards process answers mutex inside)
    (exclusive : Exclusive mutex inside system.toShared)
    (taken : Step process answers isPoint system turn system') :
    Exclusive mutex inside system'.toShared := by
  cases taken with
  | call _ taken => exact guards.step exclusive taken
  | act _ _ _ =>
      exact fun other state running => exclusive other state (running_of_update_none running)
  | request => exact exclusive

/-- A thread that waits for a mutex whose owner is doomed waits forever. -/
theorem Blocked.step {waiter : Nat} {state : State} {trapped : State → Prop}
    (blocked : Blocked process answers isPoint mutex trapped system waiter state)
    (guards : Guards process answers mutex inside)
    (traps : Traps process answers isPoint mutex trapped)
    (exclusive : Exclusive mutex inside system.toShared)
    (taken : Step process answers isPoint system turn system') :
    Blocked process answers isPoint mutex trapped system' waiter state := by
  obtain ⟨⟨owner, owned, doomed⟩, waiting, waits, noPoint⟩ := blocked
  cases taken with
  | @call task event shared' allowed taken =>
      obtain ⟨_, _, apart⟩ := guards.step_cases exclusive taken
      obtain ⟨state', reply, env, running, rfl, answered, rfl⟩ := taken.cases
      have notWaiter : waiter ≠ task := by
        rintro rfl
        obtain rfl := Option.some.inj (waiting.symm.trans running)
        have free := (Mutex.lock_eq_some_iff.mp (waits _ _ _ _ answered)).1
        rw [owned] at free
        cases free
      refine ⟨⟨owner, ?_⟩, (apart waiter notWaiter).1.trans waiting, waits, noPoint⟩
      by_cases isOwner : owner = task
      · subst isOwner
        obtain ⟨requested, isTrapped⟩ := doomed state' running
        obtain ⟨same, stays⟩ := traps isTrapped (allowed requested) answered
        refine ⟨same.symm ▸ owned, fun later running' => ⟨requested, ?_⟩⟩
        simp only [Function.update_self] at running'
        exact Shared.of_after trapped stays running'
      · obtain ⟨sameOwner, stillOwned⟩ := apart owner isOwner
        exact ⟨stillOwned.mpr owned, fun later running' =>
          doomed later (sameOwner.symm.trans running')⟩
  | @act task ended requested running atPoint =>
      have notWaiter : waiter ≠ task := by
        rintro rfl
        obtain rfl := Option.some.inj (waiting.symm.trans running)
        exact noPoint atPoint
      refine ⟨⟨owner, owned, fun later running' => ?_⟩, ?_, waits, noPoint⟩
      · exact doomed later (running_of_update_none running')
      · simp only [Function.update_of_ne notWaiter]
        exact waiting
  | request =>
      refine ⟨⟨owner, owned, fun later running' => ?_⟩, waiting, waits, noPoint⟩
      obtain ⟨requested, isTrapped⟩ := doomed later running'
      exact ⟨List.mem_cons_of_mem _ requested, isTrapped⟩

/-- Threads that give the mutex back keep it only while they are inside or when they are
cancelled there. -/
theorem Owned.step {sane : State → Prop} {allowed : Call × Reply → Prop}
    (owned : Owned mutex inside system.toShared)
    (exclusive : Exclusive mutex inside system.toShared) (each : Shared.Each sane system.toShared)
    (guards : Guards process answers mutex inside)
    (returns : Returns process answers mutex inside sane allowed)
    (permitted : ∀ task event env env', answers task event env env' → allowed event)
    (taken : Step process answers isPoint system turn system') :
    Owned mutex inside system'.toShared := by
  cases taken with
  | @call task event shared' _ taken =>
      obtain ⟨_, _, apart⟩ := guards.step_cases exclusive taken
      obtain ⟨state, reply, env, running, rfl, answered, rfl⟩ := taken.cases
      intro other owner later running'
      by_cases same : other = task
      · subst same
        have before : (mutex system.env).owner = some other ↔ inside state :=
          ⟨fun owner => owned other owner state running, exclusive other state running⟩
        obtain ⟨state', resumed, isInside⟩ :=
          returns.remains (each other state running) (permitted _ _ _ _ answered) answered before
            owner
        simp only [Function.update_self, resumed] at running'
        cases running'
        exact isInside
      · obtain ⟨sameThread, sameOwner⟩ := apart other same
        exact owned other (sameOwner.mp owner) later (sameThread.symm.trans running')
  | act _ _ _ =>
      exact fun other owner later running' =>
        owned other owner later (running_of_update_none running')
  | request => exact owned

theorem each_step {sane : State → Prop} {allowed : Call × Reply → Prop}
    (each : Shared.Each sane system.toShared)
    (returns : Returns process answers mutex inside sane allowed)
    (permitted : ∀ task event env env', answers task event env env' → allowed event)
    (taken : Step process answers isPoint system turn system') :
    Shared.Each sane system'.toShared := by
  cases taken with
  | call _ taken =>
      obtain ⟨_, _, _, _, _, answered, _⟩ := taken.cases
      apply each.step (fun state reply isSane called => ?_) taken
      exact returns.keeps isSane (called ▸ permitted _ _ _ _ answered)
  | act _ _ _ =>
      exact fun other later running' => each other later (running_of_update_none running')
  | request => exact each

end Cancellable

end Reactive
