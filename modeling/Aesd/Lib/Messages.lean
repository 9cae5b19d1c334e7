import Aesd.Lib.MutualExclusion

/-!
# Programs that write messages

Between two of its calls a program may write messages, as many as the last reply asks for.
A message changes nothing that the calls are about, so that what is known of the program
without its messages holds with them: a thread that is about to write some is already
where it goes on behind them.
-/

namespace Reactive

open Concurrency Loop

universe u v w x y

variable {Env : Type u} {State : Type v} {Call : Type w} {Reply : Type x} {Result : Type y}

inductive LogCall (Call : Type w) where
  | message
  | call (call : Call)
  deriving DecidableEq, Repr

/-- A program at one of its calls, or at a message with `more` of them behind it. -/
inductive Logging (State : Type v) (Result : Type y) where
  | waiting (state : State)
  | messages (more : Nat) (flow : Flow State Result)
  deriving DecidableEq, Repr

namespace Logging

def proceed : Flow State Result → Flow (Logging State Result) Result
  | .next state => .next (.waiting state)
  | .leave result => .leave result

/-- Go on as in `flow` behind some messages. -/
def send : Nat → Flow State Result → Flow (Logging State Result) Result
  | 0, flow => proceed flow
  | more + 1, flow => .next (.messages more flow)

/-- What holds of the states in which the program goes on, and of its results. -/
def Ahead (onNext : State → Prop) (onLeave : Result → Prop) : Logging State Result → Prop
  | .waiting state => onNext state
  | .messages _ flow => flow.Satisfies onNext onLeave

abbrev Inside (inside : State → Prop) : Logging State Result → Prop :=
  Ahead inside fun _ => False

variable {onNext : State → Prop} {onLeave : Result → Prop} {inside : State → Prop}
  {flow : Flow State Result} {state : Logging State Result}

theorem send_satisfies (count : Nat) (satisfied : flow.Satisfies onNext onLeave) :
    (send count flow).Satisfies (Ahead onNext onLeave) onLeave := by
  cases count with
  | zero => cases flow <;> exact satisfied
  | succ more => exact satisfied

theorem not_inside_iff : ¬ Inside inside state ↔
    Ahead (fun state => ¬ inside state) (fun _ => True) state := by
  cases state with
  | waiting state => exact Iff.rfl
  | messages more flow =>
      cases flow with
      | next state => exact Iff.rfl
      | leave result => exact iff_of_true not_false trivial

theorem send_outside (count : Nat)
    (outside : flow.Satisfies (fun state => ¬ inside state) fun _ => True) :
    (send count flow).Satisfies (fun state => ¬ Inside inside state) fun _ => True :=
  (send_satisfies count outside).imp (fun _ => not_inside_iff.mpr) fun _ => id

theorem send_inside (count : Nat) {next : State} (goesOn : flow = .next next)
    (isInside : inside next) :
    ∃ state' : Logging State Result, send count flow = .next state' ∧ Inside inside state' := by
  subst goesOn
  cases count with
  | zero => exact ⟨.waiting next, rfl, isInside⟩
  | succ more => exact ⟨.messages more (.next next), rfl, isInside⟩

end Logging

/-- The program writes `messages` after each reply. -/
def Process.withMessages (process : Process State Call Reply Result)
    (messages : State → Reply → Nat) :
    Process (Logging State Result) (LogCall Call) Reply Result where
  call
    | .waiting state => .call (process.call state)
    | .messages _ _ => .message
  resume
    | .waiting state, reply => Logging.send (messages state reply) (process.resume state reply)
    | .messages more flow, _ => Logging.send more flow

def LogAnswers (answers : Nat → Call × Reply → Env → Env → Prop) (task : Nat) :
    LogCall Call × Reply → Env → Env → Prop
  | (.message, _), env, env' => env' = env
  | (.call call, reply), env, env' => answers task (call, reply) env env'

/-- What is asked of the calls is not asked of the messages. -/
def OfCalls (property : Call × Reply → Prop) : LogCall Call × Reply → Prop
  | (.message, _) => True
  | (.call call, reply) => property (call, reply)

section Messages

variable {process : Process State Call Reply Result} {messages : State → Reply → Nat}
  {answers : Nat → Call × Reply → Env → Env → Prop} {mutex : Env → Mutex}
  {inside sane : State → Prop} {allowed : Call × Reply → Prop}

theorem Guards.withMessages (guards : Guards process answers mutex inside) :
    Guards (process.withMessages messages) (LogAnswers answers) mutex
      (Logging.Inside inside) where
  enters := by
    intro task state reply env env' outside answered
    cases state with
    | waiting state =>
        rcases guards.enters outside answered with ⟨same, stays⟩ | locked
        · exact .inl ⟨same, Logging.send_outside _ stays⟩
        · exact .inr locked
    | messages more flow =>
        exact .inl ⟨congrArg mutex answered,
          Logging.send_outside more (Logging.not_inside_iff.mp outside)⟩
  leaves := by
    intro task state reply env env' isInside answered
    cases state with
    | waiting state =>
        rcases guards.leaves isInside answered with same | ⟨released, outside⟩
        · exact .inl same
        · exact .inr ⟨released, Logging.send_outside _ outside⟩
    | messages more flow => exact .inl (congrArg mutex answered)

theorem Returns.withMessages (returns : Returns process answers mutex inside sane allowed) :
    Returns (process.withMessages messages) (LogAnswers answers) mutex
      (Logging.Inside inside) (Logging.Ahead sane fun _ => True) (OfCalls allowed) where
  keeps := by
    intro state reply isSane permitted
    cases state with
    | waiting state => exact Logging.send_satisfies _ (returns.keeps isSane permitted)
    | messages more flow => exact Logging.send_satisfies more isSane
  remains := by
    intro task state reply env env' isSane permitted answered owner owner'
    cases state with
    | waiting state =>
        obtain ⟨next, goesOn, isInside⟩ :=
          returns.remains isSane permitted answered owner owner'
        exact Logging.send_inside _ goesOn isInside
    | messages more flow =>
        have same : env' = env := answered
        rw [same] at owner'
        have isInside := owner.mp owner'
        cases flow with
        | next next => exact Logging.send_inside more rfl isInside
        | leave result => exact isInside.elim

end Messages

end Reactive
