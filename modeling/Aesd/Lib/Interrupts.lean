import Aesd.Lib.Concurrency

/-!
# Interrupts that do not return

Signals interrupt a program.  The handler of a signal runs on top of the code that was
running, and the signal is blocked meanwhile.  The handlers here do not return, they end
the program.  So interrupted code never goes on, and all that is left of it is the
memory.  What holds at each point of the program and at the start of the handlers
therefore holds in every run.
-/

namespace Interrupts

open Concurrency

universe u v w

structure Program (Point : Type u) (Memory : Type v) where
  /-- One step; there is none when the program has ended. -/
  step : Point → Memory → Option (Point × Memory)
  /-- Where the handlers start. -/
  handler : Point

structure Machine (Signal : Type w) (Point : Type u) (Memory : Type v) where
  point : Point
  memory : Memory
  /-- The signals whose handlers are running, the latest first. -/
  handlers : List Signal
  /-- Where the interrupted code is, the latest first. -/
  interrupted : List Point

inductive Turn (Signal : Type w) where
  | run
  | deliver (signal : Signal)
  deriving DecidableEq, Repr

namespace Program

variable {Signal : Type w} {Point : Type u} {Memory : Type v} [DecidableEq Signal]
  (program : Program Point Memory)

def next (machine : Machine Signal Point Memory) :
    Turn Signal → Option (Machine Signal Point Memory)
  | .run =>
      (program.step machine.point machine.memory).map fun (point, memory) =>
        { machine with point, memory }
  | .deliver signal =>
      if signal ∈ machine.handlers then none
      else
        (program.step machine.point machine.memory).map fun _ =>
          { point := program.handler
            memory := machine.memory
            handlers := signal :: machine.handlers
            interrupted := machine.point :: machine.interrupted }

def Step (machine : Machine Signal Point Memory) (label : Turn Signal)
    (machine' : Machine Signal Point Memory) : Prop :=
  program.next machine label = some machine'

def Avoids (window : Point → Prop) (machine : Machine Signal Point Memory)
    (label : Turn Signal) : Prop :=
  label = .run ∨ ¬ window machine.point

/-- A step that does not interrupt code inside the window. -/
def AvoidingStep (window : Point → Prop) (machine : Machine Signal Point Memory)
    (label : Turn Signal) (machine' : Machine Signal Point Memory) : Prop :=
  Avoids window machine label ∧ program.Step machine label machine'

section Runs

variable {program} {machine machine' : Machine Signal Point Memory} {label : Turn Signal}
  {labels : List (Turn Signal)} {window : Point → Prop}
  {property : Point → Memory → Prop}

theorem step_cases (taken : program.Step machine label machine') :
    (label = .run ∧ program.step machine.point machine.memory =
      some (machine'.point, machine'.memory)) ∨
    (∃ signal, label = .deliver signal ∧ signal ∉ machine.handlers ∧
      machine'.point = program.handler ∧ machine'.memory = machine.memory) := by
  unfold Step at taken
  cases label with
  | run =>
      rcases Option.map_eq_some_iff.mp taken with ⟨⟨point, memory⟩, stepped, rfl⟩
      exact .inl ⟨rfl, stepped⟩
  | deliver signal =>
      by_cases blocked : signal ∈ machine.handlers
      · simp [next, blocked] at taken
      · simp only [next, blocked, if_false] at taken
        rcases Option.map_eq_some_iff.mp taken with ⟨_, _, rfl⟩
        exact .inr ⟨signal, rfl, blocked, rfl, rfl⟩

theorem machine_cases (taken : program.Step machine label machine') :
    (label = .run ∧ ∃ point memory,
      program.step machine.point machine.memory = some (point, memory) ∧
      machine' = { machine with point, memory }) ∨
    (∃ signal, label = .deliver signal ∧ signal ∉ machine.handlers ∧
      program.step machine.point machine.memory ≠ none ∧
      machine' =
        { point := program.handler
          memory := machine.memory
          handlers := signal :: machine.handlers
          interrupted := machine.point :: machine.interrupted }) := by
  unfold Step at taken
  cases label with
  | run =>
      obtain ⟨⟨point, memory⟩, stepped, same⟩ := Option.map_eq_some_iff.mp taken
      exact .inl ⟨rfl, point, memory, stepped, same.symm⟩
  | deliver signal =>
      by_cases blocked : signal ∈ machine.handlers
      · simp [next, blocked] at taken
      · simp only [next, blocked, if_false] at taken
        obtain ⟨_, stepped, same⟩ := Option.map_eq_some_iff.mp taken
        refine .inr ⟨signal, rfl, blocked, ?_, same.symm⟩
        rw [stepped]
        exact Option.some_ne_none _

theorem step_run {point : Point} {memory : Memory}
    (stepped : program.step machine.point machine.memory = some (point, memory)) :
    program.Step machine (.run : Turn Signal) { machine with point, memory } := by
  simp only [Step, next, stepped, Option.map_some]

theorem step_deliver {signal : Signal} (unblocked : signal ∉ machine.handlers)
    (going : program.step machine.point machine.memory ≠ none) :
    program.Step machine (.deliver signal)
      { point := program.handler
        memory := machine.memory
        handlers := signal :: machine.handlers
        interrupted := machine.point :: machine.interrupted } := by
  obtain ⟨_, stepped⟩ := Option.ne_none_iff_exists'.mp going
  simp only [Step, next, unblocked, if_false, stepped, Option.map_some]

theorem avoiding_of_run (run : Run program.Step machine labels machine') :
    Run (program.AvoidingStep fun _ => False) machine labels machine' := by
  induction run with
  | nil => exact .nil _
  | cons taken _ inductionHypothesis =>
      exact .cons ⟨.inr not_false, taken⟩ inductionHypothesis

theorem avoiding_of_quiet (window : Point → Prop) (run : Run program.Step machine labels machine')
    (quiet : ∀ label ∈ labels, label = .run) :
    Run (program.AvoidingStep window) machine labels machine' := by
  induction run with
  | nil => exact .nil _
  | cons taken _ inductionHypothesis =>
      rcases List.forall_mem_cons.mp quiet with ⟨first, others⟩
      exact .cons ⟨.inl first, taken⟩ (inductionHypothesis others)

/-- What the steps of the program keep, and what outside the window is enough for the
handlers to start with, holds in every run that avoids the window. -/
theorem invariant
    (kept : ∀ point memory point' memory', property point memory →
      program.step point memory = some (point', memory') → property point' memory')
    (restarts : ∀ point memory, property point memory → ¬ window point →
      property program.handler memory)
    (run : Run (program.AvoidingStep window) machine labels machine')
    (start : property machine.point machine.memory) :
    property machine'.point machine'.memory := by
  have keeps : ∀ (before : Machine Signal Point Memory) label after,
      property before.point before.memory → program.AvoidingStep window before label after →
        property after.point after.memory := by
    rintro before label after holds ⟨avoids, taken⟩
    rcases step_cases taken with ⟨_, stepped⟩ | ⟨signal, isSignal, _, point, memory⟩
    · exact kept _ _ _ _ holds stepped
    · rw [point, memory]
      apply restarts _ _ holds
      rcases avoids with isRun | outside
      · rw [isRun] at isSignal
        contradiction
      · exact outside
  exact (run.invariant keeps start :)

/-- Left alone, a program whose steps decrease a measure ends. -/
theorem exists_run_to_end (measure : Point → Memory → Nat)
    (kept : ∀ point memory point' memory', property point memory →
      program.step point memory = some (point', memory') →
        property point' memory' ∧ measure point' memory' < measure point memory)
    (start : property machine.point machine.memory) :
    ∃ labels machine', Run program.Step machine labels machine' ∧
      (∀ label ∈ labels, label = .run) ∧
      program.step machine'.point machine'.memory = none := by
  generalize bound : measure machine.point machine.memory = steps
  induction steps using Nat.strongRecOn generalizing machine with
  | ind steps inductionHypothesis =>
      cases stepped : program.step machine.point machine.memory with
      | none => exact ⟨[], machine, .nil machine, by simp, stepped⟩
      | some reached =>
          rcases reached with ⟨point, memory⟩
          rcases kept _ _ _ _ start stepped with ⟨holds, less⟩
          rw [bound] at less
          rcases @inductionHypothesis _ less { machine with point, memory } holds rfl with
            ⟨labels, machine', run, quiet, ended⟩
          refine ⟨.run :: labels, machine', .cons ?_ run, ?_, ended⟩
          · simp only [Step, next, stepped, Option.map_some]
          · exact List.forall_mem_cons.mpr ⟨rfl, quiet⟩

end Runs

end Program

end Interrupts
