import Aesd.Lib.Concurrency
import Aesd.Lib.Reactive
import Mathlib.Logic.Function.Basic

/-!
# Programs that share an environment

Many threads run the same program; one call of one thread, with its reply, is a
step.  The environment decides which replies are possible and what a call does to
it.  The label of a step names the thread, so that the calls of one thread are a
projection of the history.
-/

namespace Reactive

open Concurrency Loop

universe u v w x y

def own {Event : Type u} (task : Nat) : List (Nat × Event) → List Event :=
  List.filterMap fun entry => if entry.1 = task then some entry.2 else none

section Own

variable {Event : Type u} {task other : Nat}

theorem own_append (task : Nat) (first second : List (Nat × Event)) :
    own task (first ++ second) = own task first ++ own task second :=
  List.filterMap_append

theorem own_map_self (task : Nat) (events : List Event) :
    own task (events.map (task, ·)) = events := by
  rw [own, List.filterMap_map]
  simp

theorem own_map_of_ne (different : other ≠ task) (events : List Event) :
    own other (events.map (task, ·)) = [] := by
  rw [own, List.filterMap_map, List.filterMap_eq_nil_iff]
  intro event _
  exact if_neg (Ne.symm different)

theorem own_append_self (task : Nat) (past : List (Nat × Event)) (event : Event) :
    own task (past ++ [(task, event)]) = own task past ++ [event] := by
  rw [own_append]
  exact congrArg _ (own_map_self task [event])

theorem own_append_of_ne (different : other ≠ task) (past : List (Nat × Event)) (event : Event) :
    own other (past ++ [(task, event)]) = own other past := by
  rw [own_append, ← List.append_nil (own other past), List.append_assoc]
  exact congrArg _ (own_map_of_ne different [event])

theorem mem_own {history : List (Nat × Event)} {event : Event} :
    event ∈ own task history ↔ (task, event) ∈ history := by
  rw [own, List.mem_filterMap]
  constructor
  · rintro ⟨⟨other, event'⟩, membership, same⟩
    by_cases isTask : other = task
    · rw [if_pos isTask, Option.some.injEq] at same
      rwa [← isTask, ← same]
    · rw [if_neg isTask] at same
      cases same
  · exact fun membership => ⟨_, membership, if_pos rfl⟩

theorem own_flatMap {Output : Type v} (output : Event → List Output)
    (history : List (Nat × Event)) (task : Nat) :
    own task (history.flatMap fun entry => (output entry.2).map (entry.1, ·)) =
      (own task history).flatMap output := by
  induction history with
  | nil => rfl
  | cons entry history inductionHypothesis =>
      obtain ⟨other, event⟩ := entry
      rw [List.flatMap_cons, own_append, inductionHypothesis]
      by_cases same : other = task
      · subst same
        simp [own]
      · simp [own, same]

end Own

/-- The environment and the state of every thread that has not ended. -/
structure Shared (Env : Type u) (State : Type v) where
  env : Env
  threads : Nat → Option State

namespace Shared

variable {Env : Type u} {State : Type v} {Call : Type w} {Reply : Type x} {Result : Type y}

inductive Step (process : Process State Call Reply Result)
    (answers : Nat → Call × Reply → Env → Env → Prop) :
    Shared Env State → Nat × (Call × Reply) → Shared Env State → Prop where
  | next {shared : Shared Env State} {task : Nat} {state state' : State} {reply : Reply}
      {env : Env} :
      shared.threads task = some state →
      answers task (process.call state, reply) shared.env env →
      process.resume state reply = .next state' →
      Step process answers shared (task, (process.call state, reply))
        ⟨env, Function.update shared.threads task (some state')⟩
  | leave {shared : Shared Env State} {task : Nat} {state : State} {reply : Reply}
      {result : Result} {env : Env} :
      shared.threads task = some state →
      answers task (process.call state, reply) shared.env env →
      process.resume state reply = .leave result →
      Step process answers shared (task, (process.call state, reply))
        ⟨env, Function.update shared.threads task none⟩

def after : Flow State Result → Option State
  | .next state => some state
  | .leave _ => none

variable {process : Process State Call Reply Result}
  {answers : Nat → Call × Reply → Env → Env → Prop} {shared shared' : Shared Env State}
  {task : Nat} {event : Call × Reply}

theorem of_after (property : State → Prop) {state : State} {flow : Flow State Result}
    (satisfied : flow.Satisfies property fun _ => True) (running : after flow = some state) :
    property state := by
  cases flow with
  | next state =>
      cases running
      exact satisfied
  | leave result => cases running

/-- A thread makes the call that it waits for. -/
theorem Step.taken {state : State} {call : Call} {reply : Reply} {env : Env}
    (running : shared.threads task = some state) (called : process.call state = call)
    (answered : answers task (call, reply) shared.env env) :
    Step process answers shared (task, (call, reply))
      ⟨env, Function.update shared.threads task (after (process.resume state reply))⟩ := by
  subst called
  cases flow : process.resume state reply with
  | next state' => exact .next running answered flow
  | leave result => exact .leave running answered flow

theorem Step.cases (taken : Step process answers shared (task, event) shared') :
    ∃ state reply env, shared.threads task = some state ∧
      event = (process.call state, reply) ∧ answers task event shared.env env ∧
      shared' = ⟨env, Function.update shared.threads task
        (after (process.resume state reply))⟩ := by
  cases taken with
  | next running answered resumed => exact ⟨_, _, _, running, rfl, answered, by rw [resumed]; rfl⟩
  | leave running answered left => exact ⟨_, _, _, running, rfl, answered, by rw [left]; rfl⟩

def Each (property : State → Prop) (shared : Shared Env State) : Prop :=
  ∀ task state, shared.threads task = some state → property state

theorem Each.step {property : State → Prop} (each : Each property shared)
    (kept : ∀ state reply, property state → event = (process.call state, reply) →
      (process.resume state reply).Satisfies property fun _ => True)
    (taken : Step process answers shared (task, event) shared') : Each property shared' := by
  obtain ⟨state, reply, env, running, called, _, rfl⟩ := taken.cases
  intro other state' after
  by_cases same : other = task
  · subst same
    simp only [Function.update_self] at after
    exact of_after property (kept state reply (each other state running) called) after
  · simp only [Function.update_of_ne same] at after
    exact each other state' after

end Shared

end Reactive
