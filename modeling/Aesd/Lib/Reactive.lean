import Aesd.Lib.Loop

/-!
# Programs that call their environment

A process is a program cut at its calls: in every state it waits for the reply
to one call, and the reply decides the next call or the result.  An execution
lists the calls with their replies; a run is the part of it up to some moment.
`Executes.output_eq` is the induction rule for what a whole execution does with
the inputs that it was given, and `Keeps` is the one for what relates the past
to the present at every moment.
-/

namespace Reactive

open Loop

universe u v w x y z

theorem eq_last_of_append_cons {Event : Type y} {property : Event → Prop}
    {past before after : List Event} {event last : Event}
    (calm : ∀ event ∈ past, ¬ property event)
    (split : past ++ [last] = before ++ event :: after) (holds : property event) :
    after = [] ∧ event = last := by
  rcases List.eq_nil_or_concat after with rfl | ⟨others, other, rfl⟩
  · have same := (List.append_inj' split rfl).2
    exact ⟨rfl, (List.cons.inj same).1.symm⟩
  · rw [List.concat_eq_append, ← List.cons_append, ← List.append_assoc] at split
    have earlier := (List.append_inj' split rfl).1
    exact absurd holds (calm event (by rw [earlier]; simp))

structure Process (State : Type u) (Call : Type v) (Reply : Type w) (Result : Type x) where
  /-- The call that the program waits for. -/
  call : State → Call
  /-- What the program does with the reply, up to its next call. -/
  resume : State → Reply → Flow State Result

namespace Process

variable {State : Type u} {Call : Type v} {Reply : Type w} {Result : Type x}

/-- A complete execution, with its calls and their replies. -/
inductive Executes (process : Process State Call Reply Result) :
    State → List (Call × Reply) → Result → Prop where
  | leave {state : State} {reply : Reply} {result : Result} :
      process.resume state reply = .leave result →
      Executes process state [(process.call state, reply)] result
  | next {state state' : State} {reply : Reply} {trace : List (Call × Reply)}
      {result : Result} :
      process.resume state reply = .next state' → Executes process state' trace result →
      Executes process state ((process.call state, reply) :: trace) result

namespace Executes

variable {process : Process State Call Reply Result} {state : State}
  {trace : List (Call × Reply)} {result : Result} {Input : Type y} {Output : Type z}

/-- If every step turns its inputs into outputs as `expected` says, then so does
the execution. -/
theorem output_eq (invariant : State → Prop) (accepts : Call × Reply → Prop)
    (input : Call × Reply → List Input) (output : Call × Reply → List Output)
    (expected : State → List Input → List Output)
    (step : ∀ state reply, invariant state → accepts (process.call state, reply) →
      (process.resume state reply).Satisfies
        (fun state' => invariant state' ∧
          ∀ later, expected state (input (process.call state, reply) ++ later) =
            output (process.call state, reply) ++ expected state' later)
        (fun _ => expected state (input (process.call state, reply)) =
          output (process.call state, reply)))
    (execution : process.Executes state trace result)
    (accepted : ∀ event ∈ trace, accepts event) (start : invariant state) :
    trace.flatMap output = expected state (trace.flatMap input) := by
  induction execution with
  | @leave state reply result left =>
      have produced := step state reply start (accepted _ List.mem_cons_self)
      rw [left] at produced
      simp only [List.flatMap_cons, List.flatMap_nil, List.append_nil]
      exact Eq.symm produced
  | @next state state' reply trace result resumed _ inductionHypothesis =>
      have taken := step state reply start (accepted _ List.mem_cons_self)
      rw [resumed] at taken
      obtain ⟨kept, produced⟩ := taken
      rw [List.flatMap_cons, List.flatMap_cons, produced,
        inductionHypothesis (fun event membership =>
          accepted event (List.mem_cons_of_mem _ membership)) kept]

end Executes

/-! ## Unfinished executions -/

/-- A part of an execution, between two states in which the program waits. -/
inductive Runs (process : Process State Call Reply Result) :
    State → List (Call × Reply) → State → Prop where
  | nil (state : State) : Runs process state [] state
  | next {first middle last : State} {reply : Reply} {trace : List (Call × Reply)} :
      process.resume first reply = .next middle → Runs process middle trace last →
      Runs process first ((process.call first, reply) :: trace) last

/-- The calls up to some moment, and the result if the program has returned by then. -/
def Behaves (process : Process State Call Reply Result) (first : State)
    (trace : List (Call × Reply)) : Option Result → Prop
  | none => ∃ last, process.Runs first trace last
  | some result => process.Executes first trace result

/-- Accepted replies keep an invariant about the past and the state, and lead to
results as `post` says. -/
def Keeps (process : Process State Call Reply Result) (accepts : Call × Reply → Prop)
    (invariant : List (Call × Reply) → State → Prop)
    (post : List (Call × Reply) → Result → Prop) : Prop :=
  ∀ past state reply, invariant past state → accepts (process.call state, reply) →
    (process.resume state reply).Satisfies
      (invariant (past ++ [(process.call state, reply)]))
      (post (past ++ [(process.call state, reply)]))

section Runs

variable {process : Process State Call Reply Result} {first last : State}
  {past trace before after : List (Call × Reply)} {call : Call} {reply : Reply}
  {result : Result} {accepts : Call × Reply → Prop}
  {invariant : List (Call × Reply) → State → Prop}
  {post : List (Call × Reply) → Result → Prop}

theorem Keeps.runs (keeps : process.Keeps accepts invariant post)
    (run : process.Runs first trace last) (accepted : ∀ event ∈ trace, accepts event)
    (start : invariant past first) : invariant (past ++ trace) last := by
  induction run generalizing past with
  | nil => rwa [List.append_nil]
  | @next first middle last reply trace resumed _ inductionHypothesis =>
      obtain ⟨acceptedFirst, acceptedLater⟩ := List.forall_mem_cons.mp accepted
      have step := keeps past first reply start acceptedFirst
      rw [resumed] at step
      have later := inductionHypothesis acceptedLater step
      rwa [List.append_assoc] at later

theorem Keeps.executes (keeps : process.Keeps accepts invariant post)
    (execution : process.Executes first trace result)
    (accepted : ∀ event ∈ trace, accepts event) (start : invariant past first) :
    post (past ++ trace) result := by
  induction execution generalizing past with
  | @leave state reply result left =>
      have step := keeps past state reply start (accepted _ List.mem_cons_self)
      rwa [left] at step
  | @next state state' reply trace result resumed _ inductionHypothesis =>
      obtain ⟨acceptedFirst, acceptedLater⟩ := List.forall_mem_cons.mp accepted
      have step := keeps past state reply start acceptedFirst
      rw [resumed] at step
      have later := inductionHypothesis acceptedLater step
      rwa [List.append_assoc] at later

theorem Runs.at_call (run : process.Runs first (before ++ (call, reply) :: after) last) :
    ∃ state, process.Runs first before state ∧ process.call state = call := by
  induction before generalizing first with
  | nil =>
      cases run with
      | next _ _ => exact ⟨_, .nil _, rfl⟩
  | cons event before inductionHypothesis =>
      cases run with
      | next resumed later =>
          obtain ⟨state, earlier, same⟩ := inductionHypothesis later
          exact ⟨state, .next resumed earlier, same⟩

theorem Executes.at_call
    (execution : process.Executes first (before ++ (call, reply) :: after) result) :
    ∃ state, process.Runs first before state ∧ process.call state = call := by
  induction before generalizing first with
  | nil =>
      cases execution with
      | leave _ => exact ⟨_, .nil _, rfl⟩
      | next _ _ => exact ⟨_, .nil _, rfl⟩
  | cons event before inductionHypothesis =>
      generalize whole : event :: before ++ (call, reply) :: after = trace at execution
      cases execution with
      | leave _ => simp at whole
      | next resumed later =>
          cases whole
          obtain ⟨state, earlier, same⟩ := inductionHypothesis later
          exact ⟨state, .next resumed earlier, same⟩

end Runs

/-! ## What the calls change -/

/-- A complete execution in an environment that its calls change. -/
inductive Performs {Env : Type y} (process : Process State Call Reply Result)
    (answers : Call × Reply → Env → Env → Prop) :
    State → Env → List (Call × Reply) → Result → Env → Prop where
  | leave {state : State} {reply : Reply} {result : Result} {env env' : Env} :
      answers (process.call state, reply) env env' →
      process.resume state reply = .leave result →
      Performs process answers state env [(process.call state, reply)] result env'
  | next {state state' : State} {reply : Reply} {trace : List (Call × Reply)} {result : Result}
      {env env' env'' : Env} :
      answers (process.call state, reply) env env' →
      process.resume state reply = .next state' →
      Performs process answers state' env' trace result env'' →
      Performs process answers state env ((process.call state, reply) :: trace) result env''

section Performs

variable {Env : Type y} {process : Process State Call Reply Result}
  {answers : Call × Reply → Env → Env → Prop} {state : State} {env env' : Env}
  {past trace : List (Call × Reply)} {result : Result}

theorem Performs.post_append (performed : process.Performs answers state env trace result env')
    (invariant : List (Call × Reply) → State → Env → Prop)
    (post : List (Call × Reply) → Result → Env → Prop) (start : invariant past state env)
    (step : ∀ past state reply env env', invariant past state env →
      answers (process.call state, reply) env env' →
      (process.resume state reply).Satisfies
        (invariant (past ++ [(process.call state, reply)]) · env')
        (post (past ++ [(process.call state, reply)]) · env')) :
    post (past ++ trace) result env' := by
  induction performed generalizing past with
  | @leave state reply result env env' answered left =>
      have ended := step past state reply env env' start answered
      rwa [left] at ended
  | @next state state' reply trace result env env' env'' answered resumed _ inductionHypothesis =>
      have kept := step past state reply env env' start answered
      rw [resumed] at kept
      have later := inductionHypothesis kept
      rwa [List.append_assoc] at later

theorem Performs.post (performed : process.Performs answers state env trace result env')
    (invariant : List (Call × Reply) → State → Env → Prop)
    (post : List (Call × Reply) → Result → Env → Prop) (start : invariant [] state env)
    (step : ∀ past state reply env env', invariant past state env →
      answers (process.call state, reply) env env' →
      (process.resume state reply).Satisfies
        (invariant (past ++ [(process.call state, reply)]) · env')
        (post (past ++ [(process.call state, reply)]) · env')) :
    post trace result env' :=
  performed.post_append invariant post start step

end Performs

end Process

end Reactive
