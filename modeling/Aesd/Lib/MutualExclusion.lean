import Aesd.Lib.Shared

/-!
# Mutual exclusion

A program guards its sections with a mutex if it only gets inside by taking the
mutex and gives it back at most when it leaves.  Then the threads that are inside
own the mutex, so that there is one of them at most, whatever the calls are
answered.  If in addition no way out keeps the mutex, it is owned exactly while a
thread is inside.
-/

namespace Reactive

open Concurrency Loop

universe u v w x y

variable {Env : Type u} {State : Type v} {Call : Type w} {Reply : Type x} {Result : Type y}

/-- The states in `inside` are guarded by the mutex of the environment. -/
structure Guards (process : Process State Call Reply Result)
    (answers : Nat → Call × Reply → Env → Env → Prop) (mutex : Env → Mutex)
    (inside : State → Prop) : Prop where
  /-- From outside, a step takes the mutex or stays outside and leaves the mutex alone. -/
  enters : ∀ {task state reply env env'}, ¬ inside state →
    answers task (process.call state, reply) env env' →
    (mutex env' = mutex env ∧
      (process.resume state reply).Satisfies (fun state' => ¬ inside state') fun _ => True) ∨
    (mutex env).lock task = some (mutex env')
  /-- From inside, a step leaves the mutex alone or gives it back and gets outside. -/
  leaves : ∀ {task state reply env env'}, inside state →
    answers task (process.call state, reply) env env' →
    mutex env' = mutex env ∨
    (mutex env' = (mutex env).unlock task ∧
      (process.resume state reply).Satisfies (fun state' => ¬ inside state') fun _ => True)

def Exclusive (mutex : Env → Mutex) (inside : State → Prop) (shared : Shared Env State) : Prop :=
  ∀ task state, shared.threads task = some state → inside state →
    (mutex shared.env).owner = some task

def Faithful (mutex : Env → Mutex) (inside : State → Prop) (shared : Shared Env State) : Prop :=
  ∀ task, (mutex shared.env).owner = some task ↔
    ∃ state, shared.threads task = some state ∧ inside state

section Exclusion

variable {process : Process State Call Reply Result}
  {answers : Nat → Call × Reply → Env → Env → Prop} {mutex : Env → Mutex}
  {inside : State → Prop} {shared shared' : Shared Env State} {task other : Nat}
  {event : Call × Reply} {labels : List (Nat × (Call × Reply))}

theorem Exclusive.same (exclusive : Exclusive mutex inside shared) {state state' : State}
    (running : shared.threads task = some state) (isInside : inside state)
    (running' : shared.threads other = some state') (isInside' : inside state') :
    task = other := by
  have owner := exclusive task state running isInside
  rw [exclusive other state' running' isInside', Option.some.injEq] at owner
  exact owner.symm

/-- What a step does to the mutex, for the thread that takes it and for the others. -/
theorem Guards.step_cases (guards : Guards process answers mutex inside)
    (exclusive : Exclusive mutex inside shared)
    (taken : Shared.Step process answers shared (task, event) shared') :
    (mutex shared'.env).stray = (mutex shared.env).stray ∧
      (∀ state', shared'.threads task = some state' → inside state' →
        (mutex shared'.env).owner = some task) ∧
      ∀ other, other ≠ task → (shared'.threads other = shared.threads other ∧
        ((mutex shared'.env).owner = some other ↔ (mutex shared.env).owner = some other)) := by
  obtain ⟨state, reply, env, running, rfl, answered, rfl⟩ := Shared.Step.cases taken
  have others : ∀ other, other ≠ task →
      Function.update shared.threads task (Shared.after (process.resume state reply)) other =
        shared.threads other := fun other different => Function.update_of_ne different _ _
  by_cases isInside : inside state
  · have owner := exclusive task state running isInside
    rcases guards.leaves isInside answered with same | ⟨released, outside⟩
    · refine ⟨by rw [same], fun _ _ _ => by rw [same, owner], fun other different =>
        ⟨others other different, by rw [same]⟩⟩
    · refine ⟨?_, fun state' after isInside' => ?_, fun other different =>
        ⟨others other different, ?_⟩⟩
      · rw [released, Mutex.unlock, if_pos owner]
      · simp only [Function.update_self] at after
        exact absurd isInside' (Shared.of_after (¬ inside ·) outside after)
      · rw [released, Mutex.owner_unlock owner, owner]
        simp [Ne.symm different]
  · rcases guards.enters isInside answered with ⟨same, outside⟩ | locked
    · refine ⟨by rw [same], fun state' after isInside' => ?_, fun other different =>
        ⟨others other different, by rw [same]⟩⟩
      simp only [Function.update_self] at after
      exact absurd isInside' (Shared.of_after (¬ inside ·) outside after)
    · obtain ⟨free, taken⟩ := Mutex.lock_eq_some_iff.mp locked
      refine ⟨by rw [taken], fun _ _ _ => by rw [taken], fun other different =>
        ⟨others other different, ?_⟩⟩
      rw [taken, free]
      simp [Ne.symm different]

theorem Guards.step (guards : Guards process answers mutex inside)
    (exclusive : Exclusive mutex inside shared)
    (taken : Shared.Step process answers shared (task, event) shared') :
    Exclusive mutex inside shared' := by
  obtain ⟨_, own, apart⟩ := guards.step_cases exclusive taken
  intro other state running isInside
  by_cases same : other = task
  · subst same
    exact own state running isInside
  · obtain ⟨unchanged, owner⟩ := apart other same
    rw [unchanged] at running
    exact owner.mpr (exclusive other state running isInside)

/-- In every run the threads inside own the mutex, and no thread gives back a mutex that
it does not own. -/
theorem Guards.run (guards : Guards process answers mutex inside)
    (run : Run (Shared.Step process answers) shared labels shared')
    (exclusive : Exclusive mutex inside shared) :
    Exclusive mutex inside shared' ∧ (mutex shared'.env).stray = (mutex shared.env).stray := by
  induction run with
  | nil => exact ⟨exclusive, rfl⟩
  | @cons first middle last label labels taken _ inductionHypothesis =>
      obtain ⟨task, event⟩ := label
      obtain ⟨kept, stray⟩ := inductionHypothesis (guards.step exclusive taken)
      exact ⟨kept, stray.trans (guards.step_cases exclusive taken).1⟩

/-- From sane states, calls with the given replies take the mutex on the way in and give
it back on the way out. -/
structure Returns (process : Process State Call Reply Result)
    (answers : Nat → Call × Reply → Env → Env → Prop) (mutex : Env → Mutex)
    (inside sane : State → Prop) (allowed : Call × Reply → Prop) : Prop where
  keeps : ∀ {state reply}, sane state → allowed (process.call state, reply) →
    (process.resume state reply).Satisfies sane fun _ => True
  remains : ∀ {task state reply env env'}, sane state → allowed (process.call state, reply) →
    answers task (process.call state, reply) env env' →
    ((mutex env).owner = some task ↔ inside state) → (mutex env').owner = some task →
    ∃ state', process.resume state reply = .next state' ∧ inside state'

theorem Faithful.exclusive (faithful : Faithful mutex inside shared) :
    Exclusive mutex inside shared :=
  fun task state running isInside => (faithful task).mpr ⟨state, running, isInside⟩

theorem Faithful.step {sane : State → Prop} {allowed : Call × Reply → Prop}
    (faithful : Faithful mutex inside shared) (each : Shared.Each sane shared)
    (guards : Guards process answers mutex inside)
    (returns : Returns process answers mutex inside sane allowed) (permitted : allowed event)
    (taken : Shared.Step process answers shared (task, event) shared') :
    Faithful mutex inside shared' := by
  obtain ⟨_, own, apart⟩ := guards.step_cases faithful.exclusive taken
  intro other
  by_cases same : other = task
  · subst same
    constructor
    · intro owner
      obtain ⟨state, reply, env, running, rfl, answered, rfl⟩ := Shared.Step.cases taken
      have before : (mutex shared.env).owner = some other ↔ inside state := by
        rw [faithful other, running]
        simp
      obtain ⟨state', resumed, isInside⟩ :=
        returns.remains (each other state running) permitted answered before owner
      refine ⟨state', ?_, isInside⟩
      simp only [Function.update_self, resumed]
      rfl
    · rintro ⟨state', running, isInside⟩
      exact own state' running isInside
  · obtain ⟨unchanged, owner⟩ := apart other same
    rw [owner, unchanged]
    exact faithful other

theorem Faithful.run {sane : State → Prop} {allowed : Call × Reply → Prop}
    (guards : Guards process answers mutex inside)
    (returns : Returns process answers mutex inside sane allowed)
    (run : Run (Shared.Step process answers) shared labels shared')
    (permitted : ∀ label ∈ labels, allowed label.2) (faithful : Faithful mutex inside shared)
    (each : Shared.Each sane shared) :
    Faithful mutex inside shared' ∧ Shared.Each sane shared' := by
  induction run with
  | nil => exact ⟨faithful, each⟩
  | @cons first middle last label labels taken _ inductionHypothesis =>
      obtain ⟨task, event⟩ := label
      obtain ⟨here, others⟩ := List.forall_mem_cons.mp permitted
      apply inductionHypothesis others (faithful.step each guards returns here taken)
      apply each.step (fun state reply isSane called => ?_) taken
      subst called
      exact returns.keeps isSane here

/-! ## A mutex that is lost -/

/-- The mutex is owned by a thread that is not inside, or that is not there any more. -/
def Lost (mutex : Env → Mutex) (inside : State → Prop) (shared : Shared Env State) : Prop :=
  ∃ task, (mutex shared.env).owner = some task ∧
    ∀ state, shared.threads task = some state → ¬ inside state

theorem Lost.nobody (lost : Lost mutex inside shared) (exclusive : Exclusive mutex inside shared)
    {state : State} (running : shared.threads task = some state) : ¬ inside state := by
  obtain ⟨owner, owned, outside⟩ := lost
  intro isInside
  rw [exclusive task state running isInside, Option.some.injEq] at owned
  subst owned
  exact outside state running isInside

theorem Lost.step (lost : Lost mutex inside shared)
    (guards : Guards process answers mutex inside) (exclusive : Exclusive mutex inside shared)
    (taken : Shared.Step process answers shared (task, event) shared') :
    Lost mutex inside shared' := by
  have nobody {task : Nat} {state : State} (running : shared.threads task = some state) :
      ¬ inside state := lost.nobody exclusive running
  obtain ⟨owner, owned, outside⟩ := lost
  obtain ⟨state, reply, env, running, rfl, answered, rfl⟩ := Shared.Step.cases taken
  rcases guards.enters (nobody running) answered with ⟨same, stays⟩ | locked
  · refine ⟨owner, by rw [same, owned], fun state' after => ?_⟩
    by_cases isOwner : owner = task
    · subst isOwner
      simp only [Function.update_self] at after
      exact Shared.of_after (¬ inside ·) stays after
    · simp only [Function.update_of_ne isOwner] at after
      exact outside state' after
  · rw [(Mutex.lock_eq_some_iff.mp locked).1] at owned
    cases owned

theorem Lost.run (guards : Guards process answers mutex inside)
    (run : Run (Shared.Step process answers) shared labels shared')
    (exclusive : Exclusive mutex inside shared) (lost : Lost mutex inside shared) :
    Lost mutex inside shared' := by
  induction run with
  | nil => exact lost
  | @cons first middle last label labels taken _ inductionHypothesis =>
      obtain ⟨task, event⟩ := label
      exact inductionHypothesis (guards.step exclusive taken) (lost.step guards exclusive taken)

theorem Faithful.not_lost (faithful : Faithful mutex inside shared) :
    ¬ Lost mutex inside shared := by
  rintro ⟨task, owned, outside⟩
  obtain ⟨state, running, isInside⟩ := (faithful task).mp owned
  exact outside state running isInside

end Exclusion

end Reactive
