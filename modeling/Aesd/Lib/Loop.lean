import Mathlib.Order.Basic

/-!
# Loops with an early exit

A C loop is a round that either goes on with a new state or leaves with a
result.
-/

namespace Loop

universe u v

inductive Flow (State : Type u) (Result : Type v) where
  | next (state : State)
  | leave (result : Result)
  deriving DecidableEq, Repr

variable {State : Type u} {Result : Type v}

/-- What holds after a round, by what it decides. -/
def Flow.Satisfies (onNext : State → Prop) (onLeave : Result → Prop) :
    Flow State Result → Prop
  | .next state => onNext state
  | .leave result => onLeave result

theorem Flow.Satisfies.imp {onNext onNext' : State → Prop} {onLeave onLeave' : Result → Prop}
    {flow : Flow State Result} (satisfied : flow.Satisfies onNext onLeave)
    (next : ∀ state, onNext state → onNext' state)
    (leave : ∀ result, onLeave result → onLeave' result) : flow.Satisfies onNext' onLeave' := by
  cases flow with
  | next state => exact next state satisfied
  | leave result => exact leave result satisfied

def run (round : State → Option (Flow State Result)) : Nat → State → Option Result
  | 0, _ => none
  | fuel + 1, state =>
      match round state with
      | none => none
      | some (.leave result) => some result
      | some (.next state') => run round fuel state'

variable {round : State → Option (Flow State Result)}

theorem run_leave {state : State} {result : Result} (fuel : Nat)
    (left : round state = some (.leave result)) :
    run round (fuel + 1) state = some result := by
  simp only [run, left]

theorem run_next {state state' : State} (fuel : Nat)
    (continued : round state = some (.next state')) :
    run round (fuel + 1) state = run round fuel state' := by
  simp only [run, continued]

theorem run_mono {fuel more : Nat} {state : State} {result : Result}
    (ended : run round fuel state = some result) (le : fuel ≤ more) :
    run round more state = some result := by
  induction fuel generalizing state more with
  | zero => simp [run] at ended
  | succ fuel inductionHypothesis =>
      obtain ⟨more, rfl⟩ : ∃ less, more = less + 1 := ⟨more - 1, by omega⟩
      simp only [run] at ended ⊢
      cases decided : round state with
      | none => simp [decided] at ended
      | some flow =>
          cases flow with
          | leave value => rwa [decided] at ended
          | next state' =>
              simp only [decided] at ended ⊢
              exact inductionHypothesis ended (by omega)

/-- Partial correctness: an invariant of the rounds decides what a result can be. -/
theorem run_sound (invariant : State → Prop) (post : Result → Prop)
    (kept : ∀ state state', invariant state → round state = some (.next state') →
      invariant state')
    (leaves : ∀ state result, invariant state → round state = some (.leave result) →
      post result)
    {fuel : Nat} {state : State} {result : Result} (start : invariant state)
    (ended : run round fuel state = some result) : post result := by
  induction fuel generalizing state with
  | zero => simp [run] at ended
  | succ fuel inductionHypothesis =>
      simp only [run] at ended
      cases decided : round state with
      | none => simp [decided] at ended
      | some flow =>
          cases flow with
          | leave value =>
              simp only [decided, Option.some.injEq] at ended
              subst ended
              exact leaves state value start decided
          | next state' =>
              simp only [decided] at ended
              exact inductionHypothesis (kept state state' start decided) ended

/-- Total correctness: rounds that always have a value and decrease a measure leave
within that measure, with what the leaving round establishes. -/
theorem run_total (invariant : State → Prop) (measure : State → Nat) (post : Result → Prop)
    (progress : ∀ state, invariant state →
      (∃ result, round state = some (.leave result) ∧ post result) ∨
      ∃ state', round state = some (.next state') ∧ invariant state' ∧
        measure state' < measure state)
    {fuel : Nat} {state : State} (start : invariant state) (enough : measure state < fuel) :
    ∃ result, run round fuel state = some result ∧ post result := by
  induction fuel generalizing state with
  | zero => omega
  | succ fuel inductionHypothesis =>
      rcases progress state start with
        ⟨result, left, established⟩ | ⟨state', continued, kept, smaller⟩
      · exact ⟨result, run_leave fuel left, established⟩
      · rw [run_next fuel continued]
        exact inductionHypothesis kept (by omega)

/-- A loop whose rounds always go on, from states that satisfy an invariant, has no
result. -/
theorem run_eq_none (invariant : State → Prop)
    (stays : ∀ state, invariant state →
      ∃ state', round state = some (.next state') ∧ invariant state')
    {state : State} (start : invariant state) (fuel : Nat) : run round fuel state = none := by
  induction fuel generalizing state with
  | zero => rfl
  | succ fuel inductionHypothesis =>
      obtain ⟨state', continued, kept⟩ := stays state start
      rw [run_next fuel continued]
      exact inductionHypothesis kept

inductive Reaches (round : State → Option (Flow State Result)) (first : State) :
    State → Prop where
  | start : Reaches round first first
  | next {state state' : State} :
      Reaches round first state → round state = some (.next state') →
      Reaches round first state'

theorem Reaches.invariant {invariant : State → Prop}
    (kept : ∀ state state', invariant state → round state = some (.next state') →
      invariant state')
    {first state : State} (reached : Reaches round first state) (start : invariant first) :
    invariant state := by
  induction reached with
  | start => exact start
  | next _ continued inductionHypothesis => exact kept _ _ inductionHypothesis continued

end Loop
