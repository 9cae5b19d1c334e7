import Aesd.Examples.SystemCalls

/-!
# The children of a process

`wait` gives any child that has ended, so what a call returns depends on the calls before
it and on what its child does meanwhile.  The parent and its children take their steps in
any order.
-/

namespace Aesd

open Concurrency Loop Reactive

/-- A child that its parent has not waited for. One that has returned from the call may go on to
do anything before it ends; one that a signal has ended has no result. -/
inductive Child where
  | runs (state : Exec)
  | left (result : ExecResult)
  | ended (result : Option ExecResult) (status : Nat)
  deriving DecidableEq, Repr

/-- A process with the call that it makes and its children. -/
structure Family where
  call : Option Exec := none
  child : Int → Option Child := fun _ => none

inductive FamilyLabel where
  | begins (outputfile : Option String)
  | parent (event : ExecCall × ExecReply)
  | child (pid : Int) (event : ExecCall × ExecReply)
  | ends (pid : Int) (status : Nat)
  deriving DecidableEq, Repr

def Child.after : Flow Exec ExecResult → Child
  | .next state => .runs state
  | .leave result => .left result

def Family.after (family : Family) : Flow Exec ExecResult → Family
  | .next state => { family with call := some state }
  | .leave _ => { family with call := none }

def Family.withChild (family : Family) (pid : Int) (child : Option Child) : Family :=
  { family with child := Function.update family.child pid child }

/-- `wait` gives any child that has ended. The `errno` of a failed `execv` is positive. -/
inductive FamilyStep : Family → FamilyLabel → Family → Prop where
  | begins {family : Family} {outputfile : Option String} : family.call = none →
      FamilyStep family (.begins outputfile)
        { family with call := some (doExecRedirect outputfile) }
  | forks {family : Family} {fd : Nat} {reply : ExecReply} : family.call = some (.fork fd) →
      0 < reply.result → family.child reply.result = none →
      FamilyStep family (.parent (.fork, reply))
        ((family.withChild reply.result
          (some (.after (execProgram.resume (.fork fd) ⟨0, 0, 0⟩)))).after
            (execProgram.resume (.fork fd) reply))
  | forkFails {family : Family} {fd : Nat} {reply : ExecReply} : family.call = some (.fork fd) →
      reply.result = -1 →
      FamilyStep family (.parent (.fork, reply))
        (family.after (execProgram.resume (.fork fd) reply))
  | waits {family : Family} {pid : Int} {reply : ExecReply} {result : Option ExecResult} :
      family.call = some (.wait pid) →
      family.child reply.result = some (.ended result reply.status) →
      FamilyStep family (.parent (.wait, reply))
        ((family.withChild reply.result none).after (execProgram.resume (.wait pid) reply))
  | waitFails {family : Family} {pid : Int} {reply : ExecReply} : family.call = some (.wait pid) →
      reply.result = -1 →
      FamilyStep family (.parent (.wait, reply))
        (family.after (execProgram.resume (.wait pid) reply))
  | calls {family : Family} {state : Exec} {reply : ExecReply} : family.call = some state →
      (∀ fd, state ≠ .fork fd) → (∀ pid, state ≠ .wait pid) →
      FamilyStep family (.parent (execProgram.call state, reply))
        (family.after (execProgram.resume state reply))
  | child {family : Family} {pid : Int} {state : Exec} {reply : ExecReply} :
      family.child pid = some (.runs state) →
      (state = .execv → reply.result = -1 → 0 < reply.errno ∧ reply.errno < 256) →
      FamilyStep family (.child pid (execProgram.call state, reply))
        (family.withChild pid (some (.after (execProgram.resume state reply))))
  | ends {family : Family} {pid : Int} {result : ExecResult} {status : Nat} :
      family.child pid = some (.left result) → EndStatus status →
      (∀ code, result = .exits code → wifexited status → status = exitedStatus code) →
      FamilyStep family (.ends pid status)
        (family.withChild pid (some (.ended (some result) status)))
  | killed {family : Family} {pid : Int} {state : Exec} {signal : Nat} {coreDumped : Bool} :
      family.child pid = some (.runs state) → 0 < signal → signal < 127 →
      FamilyStep family (.ends pid (killedStatus signal coreDumped))
        (family.withChild pid (some (.ended none (killedStatus signal coreDumped))))

def failedWait : FamilyLabel → Bool
  | .parent (.wait, reply) => reply.result == -1
  | _ => false

def DupFailed (past : List FamilyLabel) : Prop :=
  ∃ pid fd reply, .child pid (.dup2 fd, reply) ∈ past ∧ reply.result < 0

def ExecResult.OfChild (past : List FamilyLabel) : ExecResult → Prop
  | .returned result => result = false ∧ DupFailed past
  | .executes => True
  | .exits code => 0 < code ∧ code < 256

def Exec.OfChild : Exec → Prop
  | .dup2 _ | .closeInChild _ | .execv => True
  | .openFile | .fork _ | .close _ _ | .wait _ => False

def Child.Valid (past : List FamilyLabel) : Child → Prop
  | .runs state => state.OfChild
  | .left result => result.OfChild past
  | .ended (some result) status =>
      result.OfChild past ∧ EndStatus status ∧
        ∀ code, result = .exits code → wifexited status → status = exitedStatus code
  | .ended none status => wifexited status = false

def ownPid : Option Exec → Option Int
  | some (.close _ pid) | some (.wait pid) => some pid
  | _ => none

structure Family.Valid (past : List FamilyLabel) (family : Family) : Prop where
  own : ∀ pid, ownPid family.call = some pid → 0 < pid ∧ family.child pid ≠ none
  count : ∃ children : Finset Int, (∀ pid, pid ∈ children ↔ family.child pid ≠ none) ∧
    children.card = past.countP failedWait + if (ownPid family.call).isSome then 1 else 0
  children : ∀ pid child, family.child pid = some child → 0 < pid ∧ child.Valid past

section Children

variable {past : List FamilyLabel} {label : FamilyLabel} {family family' : Family} {child : Child}
  {state : Exec} {reply : ExecReply} {fd : Nat} {pid : Int}

@[simp]
theorem Family.withChild_self (family : Family) (pid : Int) (entry : Option Child) :
    (family.withChild pid entry).child pid = entry := Function.update_self ..

theorem Family.withChild_of_ne (family : Family) {pid other : Int} (entry : Option Child)
    (different : other ≠ pid) : (family.withChild pid entry).child other = family.child other :=
  Function.update_of_ne different ..

@[simp]
theorem Family.after_child (family : Family) (flow : Flow Exec ExecResult) :
    (family.after flow).child = family.child := by
  cases flow with
  | next state => rfl
  | leave result => rfl

theorem DupFailed.concat (failed : DupFailed past) : DupFailed (past ++ [label]) := by
  obtain ⟨pid, fd, reply, member, negative⟩ := failed
  exact ⟨pid, fd, reply, List.mem_append_left _ member, negative⟩

theorem ExecResult.OfChild.concat {result : ExecResult} (ofChild : result.OfChild past) :
    result.OfChild (past ++ [label]) := by
  cases result with
  | returned result => exact ⟨ofChild.1, ofChild.2.concat⟩
  | executes => exact ofChild
  | exits code => exact ofChild

theorem Child.Valid.concat (valid : child.Valid past) : child.Valid (past ++ [label]) := by
  cases child with
  | runs state => exact valid
  | left result => exact ExecResult.OfChild.concat valid
  | ended result status =>
      cases result with
      | none => exact valid
      | some result => exact ⟨valid.1.concat, valid.2⟩

theorem Child.valid_forked (past : List FamilyLabel) (fd : Nat) :
    (Child.after (execProgram.resume (.fork fd) ⟨0, 0, 0⟩)).Valid past := by
  simp only [execProgram, if_pos]
  split
  · trivial
  · trivial

theorem Child.Valid.step (valid : (Child.runs state).Valid past)
    (failed : state = .execv → reply.result = -1 → 0 < reply.errno ∧ reply.errno < 256) :
    (Child.after (execProgram.resume state reply)).Valid
      (past ++ [.child pid (execProgram.call state, reply)]) := by
  cases state with
  | dup2 fd =>
      simp only [execProgram]
      by_cases negative : reply.result < 0
      · rw [if_pos negative]
        exact ⟨rfl, pid, fd, reply, List.mem_concat_self, negative⟩
      · rw [if_neg negative]
        trivial
  | closeInChild fd => trivial
  | execv =>
      simp only [execProgram]
      by_cases notExecuted : reply.result = -1
      · rw [if_pos notExecuted]
        exact failed rfl notExecuted
      · rw [if_neg notExecuted]
        trivial
  | openFile => exact valid.elim
  | fork fd => exact valid.elim
  | close fd pid => exact valid.elim
  | wait pid => exact valid.elim

theorem ifParent_of_pos (positive : 0 < pid) : ifParent pid = .next (.wait pid) := if_pos positive

theorem resume_fork_of_pos (fd : Nat) (positive : 0 < reply.result) :
    ∃ state, execProgram.resume (.fork fd) reply = .next state ∧
      ownPid (some state) = some reply.result := by
  simp only [execProgram, if_neg (Int.ne_of_gt positive), ifParent_of_pos positive]
  rw [if_neg (by omega)]
  split
  · exact ⟨_, rfl, rfl⟩
  · exact ⟨_, rfl, rfl⟩

theorem resume_wait (pid : Int) (reply : ExecReply) :
    ∃ result, execProgram.resume (.wait pid) reply = .leave (.returned result) := by
  simp only [execProgram]
  split
  · exact ⟨_, rfl⟩
  · exact ⟨_, rfl⟩

theorem Family.Valid.children_withChild (valid : family.Valid past) {entry : Option Child}
    (entered : ∀ child, entry = some child → 0 < pid ∧ child.Valid (past ++ [label])) (other : Int)
    (child : Child) (found : (family.withChild pid entry).child other = some child) :
    0 < other ∧ child.Valid (past ++ [label]) := by
  by_cases same : other = pid
  · subst same
    rw [withChild_self] at found
    exact entered child found
  · rw [family.withChild_of_ne entry same] at found
    obtain ⟨positive, isValid⟩ := valid.children other child found
    exact ⟨positive, isValid.concat⟩

theorem Family.Valid.withChild {old : Child} (valid : family.Valid past)
    (present : family.child pid = some old) (entered : child.Valid (past ++ [label]))
    (noWait : failedWait label = false) :
    (family.withChild pid (some child)).Valid (past ++ [label]) := by
  have kept (other : Int) :
      (family.withChild pid (some child)).child other ≠ none ↔ family.child other ≠ none := by
    by_cases same : other = pid
    · subst same
      simp [present]
    · rw [family.withChild_of_ne _ same]
  refine ⟨?_, ?_, valid.children_withChild ?_⟩
  · intro other called
    obtain ⟨positive, there⟩ := valid.own other called
    exact ⟨positive, (kept other).mpr there⟩
  · obtain ⟨children, members, count⟩ := valid.count
    refine ⟨children, fun other => (members other).trans (kept other).symm, ?_⟩
    rw [List.countP_append, List.countP_singleton, noWait]
    exact count
  · intro _ same
    cases same
    exact ⟨(valid.children pid old present).1, entered⟩

theorem Family.Valid.after (valid : family.Valid past) {flow : Flow Exec ExecResult}
    (same : ownPid (family.after flow).call = ownPid family.call)
    (noWait : failedWait label = false) : (family.after flow).Valid (past ++ [label]) := by
  refine ⟨?_, ?_, ?_⟩
  · rw [same, after_child]
    exact valid.own
  · rw [same, after_child, List.countP_append, List.countP_singleton, noWait]
    exact valid.count
  · intro pid child found
    rw [after_child] at found
    obtain ⟨positive, isValid⟩ := valid.children pid child found
    exact ⟨positive, isValid.concat⟩

theorem ownPid_after (called : family.call = some state) (noFork : ∀ fd, state ≠ .fork fd)
    (noWait : ∀ pid, state ≠ .wait pid)
    (positive : ∀ pid, ownPid family.call = some pid → 0 < pid) :
    ownPid (family.after (execProgram.resume state reply)).call = ownPid family.call := by
  rw [called] at positive ⊢
  cases state with
  | fork fd => exact absurd rfl (noFork fd)
  | wait pid => exact absurd rfl (noWait pid)
  | close fd pid =>
      simp only [execProgram, ifParent_of_pos (positive pid rfl)]
      rfl
  | closeInChild fd => rfl
  | openFile =>
      simp only [execProgram]
      split
      · rfl
      · rfl
  | dup2 fd =>
      simp only [execProgram]
      split
      · rfl
      · rfl
  | execv =>
      simp only [execProgram]
      split
      · rfl
      · rfl

theorem Family.Valid.forks (valid : family.Valid past) (called : family.call = some (.fork fd))
    (positive : 0 < reply.result) (free : family.child reply.result = none) :
    ((family.withChild reply.result
      (some (.after (execProgram.resume (.fork fd) ⟨0, 0, 0⟩)))).after
        (execProgram.resume (.fork fd) reply)).Valid (past ++ [.parent (.fork, reply)]) := by
  have isValid := Child.valid_forked (past ++ [.parent (.fork, reply)]) fd
  generalize Child.after (execProgram.resume (.fork fd) ⟨0, 0, 0⟩) = forked at isValid ⊢
  obtain ⟨state, resumed, own⟩ := resume_fork_of_pos fd positive
  obtain ⟨children, members, count⟩ := valid.count
  have new : reply.result ∉ children := fun member => (members reply.result).mp member free
  rw [resumed]
  refine ⟨?_, ⟨insert reply.result children, ?_, ?_⟩, valid.children_withChild ?_⟩
  · intro pid same
    obtain rfl := Option.some.inj (own.symm.trans same)
    refine ⟨positive, ?_⟩
    rw [after_child, withChild_self]
    exact Option.some_ne_none _
  · intro other
    rw [after_child, Finset.mem_insert]
    by_cases same : other = reply.result
    · subst same
      simp
    · rw [family.withChild_of_ne _ same, ← members other, or_iff_right same]
  · show _ = _ + if (ownPid (some state)).isSome then 1 else 0
    rw [Finset.card_insert_of_notMem new, count, called, own, List.countP_append]
    rfl
  · intro _ same
    cases same
    exact ⟨positive, isValid⟩

theorem Family.Valid.waits (valid : family.Valid past) (called : family.call = some (.wait pid))
    {result : Option ExecResult}
    (ended : family.child reply.result = some (.ended result reply.status)) :
    ((family.withChild reply.result none).after (execProgram.resume (.wait pid) reply)).Valid
      (past ++ [.parent (.wait, reply)]) := by
  obtain ⟨children, members, count⟩ := valid.count
  obtain ⟨returned, resumed⟩ := resume_wait pid reply
  have positive := (valid.children reply.result _ ended).1
  have there : reply.result ∈ children := by
    rw [members, ended]
    exact Option.some_ne_none _
  have waited : failedWait (.parent (.wait, reply)) = false := by
    simp only [failedWait, beq_eq_false_iff_ne]
    omega
  rw [resumed]
  refine ⟨?_, ⟨children.erase reply.result, ?_, ?_⟩, valid.children_withChild ?_⟩
  · intro other same
    cases same
  · intro other
    rw [after_child, Finset.mem_erase]
    by_cases same : other = reply.result
    · subst same
      simp
    · rw [family.withChild_of_ne _ same, ← members other, and_iff_right same]
  · rw [Finset.card_erase_of_mem there, count, called, List.countP_append, List.countP_singleton,
      waited]
    rfl
  · intro _ same
    cases same

theorem Family.Valid.waitFails (valid : family.Valid past) (called : family.call = some (.wait pid))
    (failed : reply.result = -1) :
    (family.after (execProgram.resume (.wait pid) reply)).Valid
      (past ++ [.parent (.wait, reply)]) := by
  obtain ⟨children, members, count⟩ := valid.count
  obtain ⟨returned, resumed⟩ := resume_wait pid reply
  have counted : failedWait (.parent (.wait, reply)) = true := by
    simp only [failedWait, failed, beq_self_eq_true]
  rw [resumed]
  refine ⟨?_, ⟨children, members, ?_⟩, ?_⟩
  · intro other same
    cases same
  · rw [count, called, List.countP_append, List.countP_singleton, counted]
    rfl
  · intro other child found
    obtain ⟨positive, isValid⟩ := valid.children other child found
    exact ⟨positive, isValid.concat⟩

theorem Family.Valid.step (valid : family.Valid past) (taken : FamilyStep family label family') :
    family'.Valid (past ++ [label]) := by
  cases taken with
  | @begins outputfile idle =>
      have same : ownPid (family.after (.next (doExecRedirect outputfile))).call =
          ownPid family.call := by
        rw [idle]
        cases outputfile with
        | none => rfl
        | some _ => rfl
      exact valid.after same rfl
  | forks called positive free => exact valid.forks called positive free
  | @forkFails fd reply called failed =>
      have resumed : execProgram.resume (.fork fd) reply = .leave (.returned false) := by
        simp [execProgram, failed]
      apply valid.after ?_ rfl
      rw [resumed, called]
      rfl
  | waits called ended => exact valid.waits called ended
  | waitFails called failed => exact valid.waitFails called failed
  | @calls state reply called noFork noWait =>
      have positive (pid : Int) (own : ownPid family.call = some pid) : 0 < pid :=
        (valid.own pid own).1
      apply valid.after (ownPid_after called noFork noWait positive)
      cases state with
      | wait pid => exact absurd rfl (noWait pid)
      | openFile => rfl
      | fork fd => rfl
      | dup2 fd => rfl
      | closeInChild fd => rfl
      | execv => rfl
      | close fd pid => rfl
  | child runs failed =>
      exact valid.withChild runs ((valid.children _ _ runs).2.step failed) rfl
  | ends left ended exits =>
      have ofChild : ExecResult.OfChild past _ := (valid.children _ _ left).2
      exact valid.withChild left ⟨ofChild.concat, ended, exits⟩ rfl
  | killed runs positive small =>
      exact valid.withChild runs (wifexited_killedStatus positive small) rfl

theorem Family.valid_of_run {labels : List FamilyLabel} (run : Run FamilyStep {} labels family) :
    family.Valid labels := by
  have begun : Family.Valid [] {} := by
    refine ⟨?_, ⟨∅, ?_, rfl⟩, ?_⟩
    · intro pid same
      cases same
    · simp
    · intro pid child found
      cases found
  exact run.history (fun _ _ _ _ valid taken => Family.Valid.step valid taken) begun

theorem FamilyStep.of_wait (waiting : family.call = some (.wait pid))
    (taken : FamilyStep family (.parent (.wait, reply)) family') :
    reply.result = -1 ∨
      ∃ result, family.child reply.result = some (.ended result reply.status) := by
  generalize same : FamilyLabel.parent (.wait, reply) = label at taken
  cases taken with
  | waits called ended =>
      cases same
      exact .inr ⟨_, ended⟩
  | waitFails called failed =>
      cases same
      exact .inl failed
  | calls called noFork noWait =>
      rw [waiting] at called
      exact absurd (Option.some.inj called).symm (noWait pid)
  | begins _ => cases same
  | forks _ _ _ => cases same
  | forkFails _ _ => cases same
  | child _ _ => cases same
  | ends _ _ _ => cases same
  | killed _ _ _ => cases same

theorem resume_wait_eq_true_iff (positive : 0 < pid) :
    execProgram.resume (.wait pid) reply = .leave (.returned true) ↔
      reply.result = pid ∧ wifexited reply.status ∧ wexitstatus reply.status = 0 := by
  simp only [execProgram]
  by_cases failed : reply.result = -1
  · rw [if_pos failed]
    refine ⟨?_, ?_⟩
    · intro same
      cases same
    · rintro ⟨own, _⟩
      omega
  · rw [if_neg failed]
    simp [and_assoc]

theorem EndStatus.eq_exitedStatus {status : Nat} (ended : EndStatus status)
    (exited : wifexited status) : status = exitedStatus (wexitstatus status) := by
  cases ended with
  | exited code =>
      rw [wexitstatus_exitedStatus, exitedStatus, exitedStatus, Nat.mod_mod]
  | killed coreDumped positive small =>
      rw [wifexited_killedStatus positive small] at exited
      cases exited

theorem Child.Valid.succeeded {result : Option ExecResult} {status : Nat}
    (valid : (Child.ended result status).Valid past) (exited : wifexited status)
    (success : wexitstatus status = 0) :
    status = exitedStatus 0 ∧ ∃ left, result = some left ∧
      (left = .executes ∨ left = .returned false ∧ DupFailed past) := by
  cases result with
  | none =>
      have killed : wifexited status = false := valid
      rw [killed] at exited
      cases exited
  | some left =>
      obtain ⟨ofChild, ended, exits⟩ := valid
      have same := ended.eq_exitedStatus exited
      rw [success] at same
      refine ⟨same, left, rfl, ?_⟩
      cases left with
      | executes => exact .inl rfl
      | returned returned =>
          obtain ⟨rfl, failed⟩ := ofChild
          exact .inr ⟨rfl, failed⟩
      | exits code =>
          obtain ⟨positive, small⟩ := ofChild
          have code := exits code rfl exited
          rw [code, wexitstatus_exitedStatus] at success
          omega

theorem ifParent_ne_true (pid : Int) : ifParent pid ≠ .leave (.returned true) := by
  intro same
  by_cases positive : 0 < pid
  · rw [ifParent_of_pos positive] at same
    cases same
  · rw [ifParent, if_neg positive] at same
    cases same

theorem wait_of_resume_eq_true
    (resumed : execProgram.resume state reply = .leave (.returned true)) :
    ∃ pid, state = .wait pid := by
  cases state with
  | wait pid => exact ⟨pid, rfl⟩
  | openFile =>
      by_cases failed : reply.result < 0
      · simp [execProgram, failed] at resumed
      · simp [execProgram, failed] at resumed
  | fork fd =>
      by_cases inChild : reply.result = 0
      · by_cases redirects : fd ≠ 0
        · simp [execProgram, inChild, redirects] at resumed
        · obtain rfl := not_not.mp redirects
          simp [execProgram, inChild] at resumed
      · by_cases failed : reply.result = -1
        · simp [execProgram, failed] at resumed
        · by_cases redirects : fd ≠ 0
          · simp [execProgram, inChild, failed, redirects] at resumed
          · simp only [execProgram, if_neg inChild, if_neg failed, if_neg redirects] at resumed
            exact absurd resumed (ifParent_ne_true _)
  | dup2 fd =>
      by_cases failed : reply.result < 0
      · simp [execProgram, failed] at resumed
      · simp [execProgram, failed] at resumed
  | closeInChild fd => cases resumed
  | execv =>
      by_cases failed : reply.result = -1
      · simp [execProgram, failed] at resumed
      · simp [execProgram, failed] at resumed
  | close fd pid => exact absurd resumed (ifParent_ne_true pid)

theorem Family.Valid.waiting (valid : family.Valid past) (waiting : family.call = some (.wait pid))
    (taken : FamilyStep family (.parent (.wait, reply)) family') :
    ∃ children : Finset Int, (∀ other, other ∈ children ↔ family.child other ≠ none) ∧
      pid ∈ children ∧ children.card = past.countP failedWait + 1 ∧
      (past.countP failedWait = 0 → reply.result = -1 ∨ reply.result = pid) := by
  obtain ⟨_, there⟩ := valid.own pid (by rw [waiting]; rfl)
  obtain ⟨children, members, count⟩ := valid.count
  rw [waiting] at count
  refine ⟨children, members, (members pid).mpr there, count, ?_⟩
  intro noneFailed
  rcases FamilyStep.of_wait waiting taken with failed | ⟨result, ended⟩
  · exact .inl failed
  · right
    have one : children.card ≤ 1 := by
      rw [count, noneFailed]
      exact le_rfl
    have given : reply.result ∈ children := by
      rw [members, ended]
      exact Option.some_ne_none _
    exact Finset.card_le_one.mp one _ given _ ((members pid).mpr there)

/-- After the `wait` true is returned exactly if it gives the own child after a success. -/
theorem Family.Valid.waited_iff (valid : family.Valid past)
    (waiting : family.call = some (.wait pid))
    (taken : FamilyStep family (.parent (.wait, reply)) family') :
    execProgram.resume (.wait pid) reply = .leave (.returned true) ↔
      reply.result = pid ∧ ∃ result,
        family.child pid = some (.ended (some result) (exitedStatus 0)) ∧
          (result = .executes ∨ result = .returned false ∧ DupFailed past) := by
  have gives := FamilyStep.of_wait waiting taken
  obtain ⟨positive, _⟩ := valid.own pid (by rw [waiting]; rfl)
  rw [resume_wait_eq_true_iff positive]
  constructor
  · rintro ⟨own, exited, success⟩
    refine ⟨own, ?_⟩
    rcases gives with failed | ⟨result, ended⟩
    · omega
    · have isValid := (valid.children _ _ ended).2
      obtain ⟨status, left, rfl, how⟩ := Child.Valid.succeeded isValid exited success
      rw [own, status] at ended
      exact ⟨left, ended, how⟩
  · rintro ⟨own, result, ended, _⟩
    rcases gives with failed | ⟨result', given⟩
    · omega
    · rw [own, ended] at given
      obtain ⟨_, status⟩ := Child.ended.inj (Option.some.inj given)
      rw [← status]
      exact ⟨own, wifexited_exitedStatus 0, wexitstatus_exitedStatus 0⟩

/-- Whichever call of the parent has returned, `do_exec` and `do_exec_redirect` return true there
if and only if it is the `wait`, gives their own child and this has exited with 0: after the
command was executed, or, if a `dup2` failed, after the child has returned from the call too.
At the `wait` they have, beside their own child, one for each `wait` that has failed before;
without such a `wait` it is their own child that they wait for. -/
theorem returns_true_iff {labels : List FamilyLabel} (run : Run FamilyStep {} labels family)
    (called : family.call = some state)
    (taken : FamilyStep family (.parent (execProgram.call state, reply)) family') :
    (execProgram.resume state reply = .leave (.returned true) ↔
      ∃ pid, state = .wait pid ∧ reply.result = pid ∧ ∃ result,
        family.child pid = some (.ended (some result) (exitedStatus 0)) ∧
          (result = .executes ∨ result = .returned false ∧ DupFailed labels)) ∧
    ∀ pid, state = .wait pid →
      ∃ children : Finset Int, (∀ other, other ∈ children ↔ family.child other ≠ none) ∧
        pid ∈ children ∧ children.card = labels.countP failedWait + 1 ∧
        (labels.countP failedWait = 0 → reply.result = -1 ∨ reply.result = pid) := by
  have valid := Family.valid_of_run run
  refine ⟨⟨?_, ?_⟩, ?_⟩
  · intro resumed
    obtain ⟨pid, rfl⟩ := wait_of_resume_eq_true resumed
    exact ⟨pid, rfl, (valid.waited_iff called taken).mp resumed⟩
  · rintro ⟨pid, rfl, own⟩
    exact (valid.waited_iff called taken).mpr own
  · rintro pid rfl
    exact valid.waiting called taken

def duplicateFails : List FamilyLabel :=
  [.begins (some "log"), .parent (.openFile, ⟨3, 0, 0⟩), .parent (.fork, ⟨7, 0, 0⟩),
    .child 7 (.dup2 3, ⟨-1, 9, 0⟩), .ends 7 (exitedStatus 0), .parent (.close 3, ⟨0, 0, 0⟩)]

/-- `do_exec_redirect` returns true for a command that was never executed. -/
theorem returns_true_iff_duplicateFails : ∃ family, Run FamilyStep {} duplicateFails family ∧
    family.child 7 = some (.ended (some (.returned false)) (exitedStatus 0)) ∧
    execProgram.resume (.wait 7) ⟨7, 0, 0⟩ = .leave (.returned true) := by
  have run : ∃ family, Run FamilyStep {} duplicateFails family ∧ family.call = some (.wait 7) ∧
      family.child 7 = some (.ended (some (.returned false)) (exitedStatus 0)) := by
    have opens := fun (family : Family) => @FamilyStep.calls family .openFile ⟨3, 0, 0⟩
    have duplicates := fun (family : Family) => @FamilyStep.child family 7 (.dup2 3) ⟨-1, 9, 0⟩
    have closes := fun (family : Family) => @FamilyStep.calls family (.close 3 7) ⟨0, 0, 0⟩
    exact ⟨_, .cons (.begins rfl) (.cons (opens _ rfl (by simp) (by simp))
      (.cons (.forks rfl (by decide) rfl) (.cons (duplicates _ rfl (by simp))
        (.cons (.ends rfl (.exited 0) (by simp)) (.cons (closes _ rfl (by simp) (by simp))
          (.nil _)))))), rfl, rfl⟩
  obtain ⟨family, run, waiting, ended⟩ := run
  have failed : DupFailed duplicateFails :=
    ⟨7, 3, ⟨-1, 9, 0⟩, by simp [duplicateFails], by decide⟩
  have taken : FamilyStep family (.parent (.wait, ⟨7, 0, 0⟩)) _ := .waits waiting ended
  exact ⟨family, run, ended,
    (returns_true_iff run waiting taken).1.mpr ⟨7, rfl, rfl, _, ended, .inr ⟨rfl, failed⟩⟩⟩

end Children

end Aesd
