import Mathlib.Data.List.Basic

/-!
# Mutexes and labelled runs

A mutex records its owner and whether it was ever released by a task that did
not hold it.  A run of a labelled transition system lists the labels of its
steps; `Run.invariant` is the induction rule for every property of reachable
states.
-/

namespace Concurrency

universe u v w

structure Mutex where
  owner : Option Nat := none
  stray : Bool := false
  deriving DecidableEq, Repr

namespace Mutex

/-- A task that finds the mutex held sleeps: there is no next state. -/
def lock (mutex : Mutex) (task : Nat) : Option Mutex :=
  match mutex.owner with
  | none => some { mutex with owner := some task }
  | some _ => none

/-- Releasing a mutex that the task does not hold only leaves a mark. -/
def unlock (mutex : Mutex) (task : Nat) : Mutex :=
  if mutex.owner = some task then { mutex with owner := none }
  else { mutex with stray := true }

theorem lock_eq_some_iff {mutex mutex' : Mutex} {task : Nat} :
    mutex.lock task = some mutex' ↔
      mutex.owner = none ∧ mutex' = { mutex with owner := some task } := by
  cases held : mutex.owner with
  | none => simp [lock, held, eq_comm]
  | some other => simp [lock, held]

theorem owner_unlock {mutex : Mutex} {task : Nat} (held : mutex.owner = some task) :
    (mutex.unlock task).owner = none := by
  rw [unlock, if_pos held]

theorem unlock_of_lock {mutex mutex' : Mutex} {task : Nat}
    (locked : mutex.lock task = some mutex') : mutex'.unlock task = mutex := by
  obtain ⟨free, rfl⟩ := lock_eq_some_iff.mp locked
  cases mutex
  simp_all [unlock]

end Mutex

/-! ## Runs -/

variable {State : Type u} {Label : Type v}

inductive Run (step : State → Label → State → Prop) : State → List Label → State → Prop where
  | nil (state : State) : Run step state [] state
  | cons {first middle last : State} {label : Label} {labels : List Label} :
      step first label middle → Run step middle labels last →
      Run step first (label :: labels) last

namespace Run

variable {step : State → Label → State → Prop} {first last : State}
  {labels : List Label}

/-- What every step keeps holds at the end of every run. -/
theorem invariant {property : State → Prop}
    (kept : ∀ state label state', property state → step state label state' → property state')
    (run : Run step first labels last) (start : property first) : property last := by
  induction run with
  | nil => exact start
  | cons taken _ inductionHypothesis => exact inductionHypothesis (kept _ _ _ start taken)

theorem history {property : List Label → State → Prop}
    (kept : ∀ past state label state', property past state → step state label state' →
      property (past ++ [label]) state')
    (run : Run step first labels last) {past : List Label} (start : property past first) :
    property (past ++ labels) last := by
  induction run generalizing past with
  | nil => rwa [List.append_nil]
  | cons taken _ inductionHypothesis =>
      have later := inductionHypothesis (kept _ _ _ _ start taken)
      rwa [List.append_assoc] at later

/-- What steps with allowed labels keep about the past and the state holds at the end of
every run of such steps. -/
theorem history_of_allowed {allowed : Label → Prop} {property : List Label → State → Prop}
    (kept : ∀ past state label state', allowed label → property past state →
      step state label state' → property (past ++ [label]) state')
    (run : Run step first labels last) (permitted : ∀ label ∈ labels, allowed label)
    {past : List Label} (start : property past first) : property (past ++ labels) last := by
  induction run generalizing past with
  | nil => rwa [List.append_nil]
  | cons taken _ inductionHypothesis =>
      obtain ⟨here, others⟩ := List.forall_mem_cons.mp permitted
      have later := inductionHypothesis others (kept _ _ _ _ here start taken)
      rwa [List.append_assoc] at later

/-- A run meets a guard at every step, or there is a first part of it that leads to a
step that does not. -/
theorem guarded_or (guard : State → Label → Prop) (run : Run step first labels last) :
    Run (fun state label state' => guard state label ∧ step state label state') first labels last ∨
      ∃ past state label state' future, labels = past ++ label :: future ∧
        Run step first past state ∧ ¬ guard state label ∧ step state label state' ∧
        Run step state' future last := by
  induction run with
  | nil state => exact .inl (.nil state)
  | @cons first middle last label labels taken following inductionHypothesis =>
      by_cases guarded : guard first label
      · rcases inductionHypothesis with
          rest | ⟨past, state, other, state', future, split, before, fails, broken, after⟩
        · exact .inl (.cons ⟨guarded, taken⟩ rest)
        · refine .inr ⟨label :: past, state, other, state', future, ?_, .cons taken before, fails,
            broken, after⟩
          rw [split, List.cons_append]
      · exact .inr ⟨[], first, label, middle, labels, rfl, .nil first, guarded, taken, following⟩

theorem imp {step' : State → Label → State → Prop}
    (implies : ∀ state label state', step state label state' → step' state label state')
    (run : Run step first labels last) : Run step' first labels last := by
  induction run with
  | nil => exact .nil _
  | cons taken _ inductionHypothesis => exact .cons (implies _ _ _ taken) inductionHypothesis

theorem concat {middle : State} {label : Label} (run : Run step first labels middle)
    (taken : step middle label last) : Run step first (labels ++ [label]) last := by
  induction run with
  | nil => exact .cons taken (.nil _)
  | cons earlier _ inductionHypothesis => exact .cons earlier (inductionHypothesis taken)

theorem append {middle : State} {more : List Label} (run : Run step first labels middle)
    (later : Run step middle more last) : Run step first (labels ++ more) last := by
  induction run with
  | nil => exact later
  | cons taken _ inductionHypothesis => exact .cons taken (inductionHypothesis later)

end Run

/-! ## Following given labels -/

def follow (next : State → Label → Option State) (state : State) : List Label → Option State
  | [] => some state
  | label :: labels =>
      match next state label with
      | none => none
      | some state => follow next state labels

def observations {Event : Type w} (next : State → Label → Option State)
    (shows : State → Label → Event) (state : State) : List Label → List Event
  | [] => []
  | label :: labels =>
      shows state label ::
        match next state label with
        | none => []
        | some state' => observations next shows state' labels

/-- Forward simulation: if every step shows a step of another system, from states that
satisfy an invariant, every run shows a run of it. -/
theorem Run.simulates {State' : Type u} {Event : Type w}
    {step : State → Label → State → Prop} {step' : State' → Event → State' → Prop}
    {next : State → Label → Option State} {shows : State → Label → Event}
    {invariant : State → Prop} {abstraction : State → State'}
    (functional : ∀ state label state', step state label state' → next state label = some state')
    (simulated : ∀ state label state', invariant state → step state label state' →
      step' (abstraction state) (shows state label) (abstraction state') ∧ invariant state')
    {first last : State} {labels : List Label} (run : Run step first labels last)
    (start : invariant first) :
    Run step' (abstraction first) (observations next shows first labels) (abstraction last) ∧
      invariant last := by
  induction run with
  | nil => exact ⟨.nil _, start⟩
  | cons taken _ inductionHypothesis =>
      obtain ⟨shown, kept⟩ := simulated _ _ _ start taken
      obtain ⟨following, ended⟩ := inductionHypothesis kept
      rw [observations, functional _ _ _ taken]
      exact ⟨.cons shown following, ended⟩

theorem run_of_follow {next : State → Label → Option State} {first last : State}
    {labels : List Label} (followed : follow next first labels = some last) :
    Run (fun state label state' => next state label = some state') first labels last := by
  induction labels generalizing first with
  | nil =>
      cases followed
      exact .nil _
  | cons label labels inductionHypothesis =>
      cases taken : next first label with
      | none => simp [follow, taken] at followed
      | some middle =>
          simp only [follow, taken] at followed
          exact .cons taken (inductionHypothesis followed)

end Concurrency
