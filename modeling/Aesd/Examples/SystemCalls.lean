import Aesd.Lib.Concurrency
import Aesd.Lib.Descriptors
import Aesd.Lib.Reactive
import Mathlib.Data.Finset.Card

/-!
# Commands in child processes

`systemcalls.c`.  `do_exec_redirect` opens a file, forks, and runs the command in the child
with its standard output on the file; the parent waits for a child, whichever it is.  If
`dup2` fails, the child returns from the call as well.  A call can write to the log
before it returns; the descriptor of the log is taken to be open already.
-/

namespace Aesd

open Concurrency Descriptors Loop Reactive

/-! ## How processes end -/

def wifexited (status : Nat) : Bool := status % 128 == 0

def wexitstatus (status : Nat) : Nat := status / 256 % 256

def exitedStatus (code : Nat) : Nat := code % 256 * 256

def killedStatus (signal : Nat) (coreDumped : Bool) : Nat :=
  signal + if coreDumped then 128 else 0

inductive EndStatus : Nat → Prop where
  | exited (code : Nat) : EndStatus (exitedStatus code)
  | killed {signal : Nat} (coreDumped : Bool) : 0 < signal → signal < 127 →
      EndStatus (killedStatus signal coreDumped)

theorem wifexited_exitedStatus (code : Nat) : wifexited (exitedStatus code) = true := by
  simp only [wifexited, exitedStatus, beq_iff_eq]
  omega

theorem wexitstatus_exitedStatus (code : Nat) : wexitstatus (exitedStatus code) = code % 256 := by
  unfold wexitstatus exitedStatus
  omega

theorem wifexited_killedStatus {signal : Nat} {coreDumped : Bool} (positive : 0 < signal)
    (small : signal < 127) : wifexited (killedStatus signal coreDumped) = false := by
  cases coreDumped with
  | false =>
      simp only [wifexited, killedStatus, beq_eq_false_iff_ne]
      simp
      omega
  | true =>
      simp only [wifexited, killedStatus, beq_eq_false_iff_ne]
      simp
      omega

/-- `do_system`, from the result of `system`. -/
def doSystem (cmd : Option String) (systemRet : Int) : Bool :=
  !(systemRet == -1 || systemRet == 127 || (cmd.isNone && systemRet == 0))

/-- `do_system` does not tell how the command has ended. -/
theorem doSystem_of_endStatus (cmd : String) {status : Nat} (ended : EndStatus status) :
    doSystem (some cmd) status = true := by
  have notFailed : status ≠ 127 := by
    cases ended with
    | exited code =>
        unfold exitedStatus
        omega
    | @killed signal coreDumped positive small =>
        cases coreDumped with
        | false => exact Nat.ne_of_lt small
        | true =>
            simp only [killedStatus, if_pos]
            omega
  simp only [doSystem, Option.isNone_some, Bool.false_and, Bool.or_false, Bool.not_eq_true',
    Bool.or_eq_false_iff, beq_eq_false_iff_ne]
  omega

/-! ## The calls -/

inductive ExecCall where
  | openFile
  | fork
  | dup2 (fd : Nat)
  | close (fd : Nat)
  | execv
  | wait
  deriving DecidableEq, Repr

/-- What a call returns, and what it leaves in `errno` and in `status`. -/
structure ExecReply where
  result : Int
  errno : Nat := 0
  status : Nat := 0
  deriving DecidableEq, Repr

/-- The call that the program waits for, with `fd` and `pid`. After a `fork` with the result 0 it
is the child. -/
inductive Exec where
  | openFile
  | fork (fd : Nat)
  | dup2 (fd : Nat)
  | closeInChild (fd : Nat)
  | execv
  | close (fd : Nat) (pid : Int)
  | wait (pid : Int)
  deriving DecidableEq, Repr

inductive ExecResult where
  | returned (result : Bool)
  /-- The command runs in place of the program. -/
  | executes
  /-- `exit(errno)`. -/
  | exits (code : Nat)
  deriving DecidableEq, Repr

def ifParent (pid : Int) : Flow Exec ExecResult :=
  if 0 < pid then .next (.wait pid) else .leave (.returned false)

/-- The code of `do_exec_redirect`. That of `do_exec` is the part from `fork` on, with 0 for `fd`.
`execv` returns only if it fails. -/
def execProgram : Process Exec ExecCall ExecReply ExecResult where
  call
    | .openFile => .openFile
    | .fork _ => .fork
    | .dup2 fd => .dup2 fd
    | .closeInChild fd | .close fd _ => .close fd
    | .execv => .execv
    | .wait _ => .wait
  resume
    | .openFile, reply =>
        if reply.result < 0 then .leave (.returned false)
        else .next (.fork reply.result.toNat)
    | .fork fd, reply =>
        if reply.result = 0 then
          if fd ≠ 0 then .next (.dup2 fd) else .next .execv
        else if reply.result = -1 then .leave (.returned false)
        else if fd ≠ 0 then .next (.close fd reply.result)
        else ifParent reply.result
    | .dup2 fd, reply =>
        if reply.result < 0 then .leave (.returned false) else .next (.closeInChild fd)
    | .closeInChild _, _ => .next .execv
    | .execv, reply =>
        if reply.result = -1 then .leave (.exits reply.errno) else .leave .executes
    | .close _ pid, _ => ifParent pid
    | .wait pid, reply =>
        if reply.result = -1 then .leave (.returned false)
        else
          .leave (.returned
            (reply.result == pid && wifexited reply.status && wexitstatus reply.status == 0))

def doExec : Exec := .fork 0

def doExecRedirect (outputfile : Option String) : Exec :=
  if outputfile.isSome then .openFile else doExec

/-! ## Descriptors -/

universe u

variable {File : Type u}

/-- What the calls answer and do; `output` is the open file that `open` makes. After `fork` each of
the two processes has its own table. No descriptor is marked to be closed by `execv`. -/
def ExecAnswers (output : File) (event : ExecCall × ExecReply) (table table' : Table File) : Prop :=
  match event with
  | (.openFile, reply) => Opens output table reply.result table'
  | (.dup2 fd, reply) => Duplicates fd 1 table reply.result table'
  | (.close fd, reply) => Closes fd table reply.result table'
  | (.fork, _) | (.execv, _) | (.wait, _) => table' = table

def commandTable (table : Table File) (fd : Nat) (output : File) : Table File :=
  match fd with
  | 0 => Function.update table 0 (some output)
  | 1 => table
  | _ + 2 => Function.update table 1 (some output)

/-- A call does not close the file that it has opened as 0, or if `fork` or `dup2` fails. -/
def leaks : List (ExecCall × ExecReply) → Bool
  | (.openFile, opened) :: (.fork, forked) :: later =>
      opened.result == 0 || forked.result == -1 ||
        match later with
        | (.dup2 _, duplicated) :: _ => decide (duplicated.result < 0)
        | _ => false
  | _ => false

section Descriptors

variable {initial table table' : Table File} {output : File} {start state : Exec} {fd : Nat}
  {pid : Int} {past trace : List (ExecCall × ExecReply)} {reply : ExecReply} {result : ExecResult}

def ExecEffect (initial : Table File) (output : File) (past : List (ExecCall × ExecReply))
    (table : Table File) : Prop :=
  (leaks past = false ∧ table = initial) ∨
    (leaks past = true ∧ ∃ fd, initial fd = none ∧ table = Function.update initial fd (some output))

/-- What the descriptors are at each call, in the process that called and in its child. -/
def ExecAt (start : Exec) (initial : Table File) (output : File)
    (past : List (ExecCall × ExecReply)) (state : Exec) (table : Table File) : Prop :=
  match state with
  | .openFile => start = .openFile ∧ past = [] ∧ table = initial
  | .fork fd =>
      (start = .fork 0 ∧ fd = 0 ∧ past = [] ∧ table = initial) ∨
        ∃ opened, past = [(.openFile, opened)] ∧ opened.result = fd ∧ Lowest initial fd ∧
          table = Function.update initial fd (some output)
  | .dup2 fd =>
      (∃ opened forked, past = [(.openFile, opened), (.fork, forked)]) ∧ fd ≠ 0 ∧
        Lowest initial fd ∧ table = Function.update initial fd (some output)
  | .closeInChild fd =>
      fd ≠ 0 ∧ Lowest initial fd ∧
        table = Function.update (Function.update initial fd (some output)) 1 (some output)
  | .execv =>
      (start = .fork 0 ∧ table = initial) ∨
        ∃ fd, Lowest initial fd ∧ table = commandTable initial fd output
  | .close fd _ =>
      (∃ opened forked, past = [(.openFile, opened), (.fork, forked)] ∧ opened.result ≠ 0 ∧
        forked.result ≠ -1) ∧ Lowest initial fd ∧
        table = Function.update initial fd (some output)
  | .wait _ => ∀ reply, ExecEffect initial output (past ++ [(.wait, reply)]) table

def ExecEnds (start : Exec) (initial : Table File) (output : File)
    (past : List (ExecCall × ExecReply)) (result : ExecResult) (table : Table File) : Prop :=
  match result with
  | .returned _ => ExecEffect initial output past table
  | .executes =>
      (start = .fork 0 ∧ table = initial) ∨
        ∃ fd, Lowest initial fd ∧ table = commandTable initial fd output
  | .exits _ => True

theorem update_commandTable (lowest : Lowest initial fd) (notZero : fd ≠ 0) :
    Function.update (Function.update (Function.update initial fd (some output)) 1 (some output)) fd
      none = commandTable initial fd output := by
  match fd, lowest, notZero with
  | 0, _, notZero => exact absurd rfl notZero
  | 1, lowest, _ => rw [Function.update_idem, lowest.close_open, commandTable]
  | fd + 2, lowest, _ =>
      rw [Function.update_comm (by omega), lowest.close_open, commandTable]

theorem ifParent_satisfies (returns : ExecEffect initial output past table)
    (waits : ∀ reply, ExecEffect initial output (past ++ [(.wait, reply)]) table) :
    (ifParent pid).Satisfies (ExecAt start initial output past · table)
      (ExecEnds start initial output past · table) := by
  unfold ifParent
  split
  · exact waits
  · exact returns

/-- Behind `fork` the child redirects to a file not opened as 0, and the parent closes it. -/
theorem forked_satisfies {opened : ExecReply} (asFd : opened.result = fd)
    (lowest : Lowest initial fd) :
    (execProgram.resume (.fork fd) reply).Satisfies
      (ExecAt start initial output [(.openFile, opened), (.fork, reply)] ·
        (Function.update initial fd (some output)))
      (ExecEnds start initial output [(.openFile, opened), (.fork, reply)] ·
        (Function.update initial fd (some output))) := by
  have leaked (atZero : fd = 0) (more : List (ExecCall × ExecReply)) :
      ExecEffect initial output ((.openFile, opened) :: (.fork, reply) :: more)
        (Function.update initial fd (some output)) := by
    refine .inr ⟨?_, fd, lowest.free, rfl⟩
    simp [leaks, asFd, atZero]
  simp only [execProgram]
  by_cases inChild : reply.result = 0
  · rw [if_pos inChild]
    by_cases atZero : fd = 0
    · subst atZero
      exact .inr ⟨0, lowest, rfl⟩
    · rw [if_pos atZero]
      exact ⟨⟨_, _, rfl⟩, atZero, lowest, rfl⟩
  · rw [if_neg inChild]
    by_cases failed : reply.result = -1
    · rw [if_pos failed]
      refine .inr ⟨?_, fd, lowest.free, rfl⟩
      simp [leaks, failed]
    · rw [if_neg failed]
      by_cases atZero : fd = 0
      · rw [if_neg (not_not.mpr atZero)]
        exact ifParent_satisfies (leaked atZero []) (fun _ => leaked atZero _)
      · rw [if_pos atZero]
        exact ⟨⟨_, _, rfl, by omega, failed⟩, lowest, rfl⟩

theorem ExecAt.step (here : ExecAt start initial output past state table)
    (answered : ExecAnswers output (execProgram.call state, reply) table table') :
    (execProgram.resume state reply).Satisfies
      (ExecAt start initial output (past ++ [(execProgram.call state, reply)]) · table')
      (ExecEnds start initial output (past ++ [(execProgram.call state, reply)]) · table') := by
  cases state with
  | openFile =>
      obtain ⟨started, rfl, rfl⟩ := here
      simp only [execProgram]
      by_cases negative : reply.result < 0
      · rw [if_pos negative]
        exact .inl ⟨rfl, Opens.of_neg answered negative⟩
      · rw [if_neg negative]
        obtain ⟨fd, same, lowest, rfl⟩ := Opens.of_nonneg answered (by omega)
        refine .inr ⟨reply, rfl, ?_, ?_⟩
        · omega
        · rw [same]
          exact ⟨lowest, rfl⟩
  | fork fd =>
      obtain rfl := answered
      rcases here with ⟨started, rfl, rfl, same⟩ | ⟨opened, rfl, asFd, lowest, rfl⟩
      · have unchanged (more : List (ExecCall × ExecReply)) :
            ExecEffect initial output ((.fork, reply) :: more) table' := .inl ⟨rfl, same⟩
        simp only [execProgram]
        split
        · exact .inl ⟨started, same⟩
        · split
          · exact unchanged []
          · exact ifParent_satisfies (unchanged []) (fun _ => unchanged _)
      · exact forked_satisfies asFd lowest
  | dup2 fd =>
      obtain ⟨⟨opened, forked, rfl⟩, notZero, lowest, rfl⟩ := here
      simp only [execProgram]
      by_cases negative : reply.result < 0
      · rw [if_pos negative]
        obtain rfl := Duplicates.of_neg answered negative
        refine .inr ⟨?_, fd, lowest.free, rfl⟩
        simp [leaks, negative]
      · rw [if_neg negative]
        obtain ⟨file, isOpen, rfl⟩ := Duplicates.of_nonneg answered (by omega)
        rw [Function.update_self] at isOpen
        obtain rfl := Option.some.inj isOpen
        exact ⟨notZero, lowest, rfl⟩
  | closeInChild fd =>
      obtain ⟨notZero, lowest, rfl⟩ := here
      refine .inr ⟨fd, lowest, ?_⟩
      rw [Closes.eq_update answered, update_commandTable lowest notZero]
  | execv =>
      obtain rfl := answered
      simp only [execProgram]
      split
      · trivial
      · exact here
  | close fd pid =>
      obtain ⟨⟨opened, forked, rfl, notZero, forks⟩, lowest, rfl⟩ := here
      have closed : table' = initial := by rw [Closes.eq_update answered, lowest.close_open]
      have unchanged (more : List (ExecCall × ExecReply)) : ExecEffect initial output
          ((.openFile, opened) :: (.fork, forked) :: (.close fd, reply) :: more) table' := by
        refine .inl ⟨?_, closed⟩
        simp [leaks, notZero, forks]
      exact ifParent_satisfies (unchanged []) (fun _ => unchanged _)
  | wait pid =>
      obtain rfl := answered
      simp only [execProgram]
      split
      · exact here reply
      · exact here reply

theorem execEnds_of_performs {outputfile : Option String}
    (performed : execProgram.Performs (ExecAnswers output) (doExecRedirect outputfile) initial trace
      result table) : ExecEnds (doExecRedirect outputfile) initial output trace result table := by
  have begun : ExecAt (doExecRedirect outputfile) initial output [] (doExecRedirect outputfile)
      initial := by
    cases outputfile with
    | none => exact .inl ⟨rfl, rfl, rfl, rfl⟩
    | some _ => exact ⟨rfl, rfl, rfl⟩
  exact performed.post (ExecAt (doExecRedirect outputfile) initial output)
    (ExecEnds (doExecRedirect outputfile) initial output) begun
    fun _ _ _ _ _ here answered => here.step answered

def redirectedTrace (fd : Nat) : List (ExecCall × ExecReply) :=
  [(.openFile, ⟨fd, 0, 0⟩), (.fork, ⟨0, 0, 0⟩), (.dup2 fd, ⟨1, 0, 0⟩), (.close fd, ⟨0, 0, 0⟩),
    (.execv, ⟨0, 0, 0⟩)]

theorem performs_redirected (outputfile : String) (lowest : Lowest initial fd) (large : 2 ≤ fd) :
    execProgram.Performs (ExecAnswers output) (doExecRedirect (some outputfile)) initial
      (redirectedTrace fd) .executes (commandTable initial fd output) := by
  have notZero : fd ≠ 0 := by omega
  have forks : execProgram.resume (.fork fd) ⟨0, 0, 0⟩ = .next (.dup2 fd) := by
    simp [execProgram, notZero]
  have opens : execProgram.resume .openFile ⟨fd, 0, 0⟩ = .next (.fork fd) := by
    simp [execProgram]
  have duplicated : ExecAnswers output (.dup2 fd, ⟨1, 0, 0⟩)
      (Function.update initial fd (some output))
      (Function.update (Function.update initial fd (some output)) 1 (some output)) :=
    .duplicated (Function.update_self ..)
  have closed : ExecAnswers output (.close fd, ⟨0, 0, 0⟩)
      (Function.update (Function.update initial fd (some output)) 1 (some output))
      (commandTable initial fd output) := by
    rw [← update_commandTable lowest notZero]
    refine .closed ?_ (Int.le_refl 0)
    rw [Function.update_of_ne (by omega), Function.update_self]
    exact Option.some_ne_none _
  have executed : ExecAnswers output (.execv, ⟨0, 0, 0⟩) (commandTable initial fd output)
      (commandTable initial fd output) := rfl
  apply Process.Performs.next (.opened lowest) opens
  apply Process.Performs.next rfl forks
  apply Process.Performs.next duplicated rfl
  apply Process.Performs.next closed rfl
  exact .leave executed rfl

/-- The command can get the file as its standard output if and only if the descriptors 0 and 1
were open when `do_exec_redirect` was called. It then has all other descriptors as they were. -/
theorem command_output_iff (outputfile : String) (free : ∃ fd, initial fd = none)
    (fresh : ∀ fd, initial fd ≠ some output) :
    ((∃ trace table, execProgram.Performs (ExecAnswers output) (doExecRedirect (some outputfile))
        initial trace .executes table ∧ table 1 = some output) ↔
      initial 0 ≠ none ∧ initial 1 ≠ none) ∧
    ∀ trace table, execProgram.Performs (ExecAnswers output) (doExecRedirect (some outputfile))
        initial trace .executes table →
      ∃ fd, Lowest initial fd ∧ table = commandTable initial fd output := by
  have ends (trace : List (ExecCall × ExecReply)) (table : Table File)
      (performed : execProgram.Performs (ExecAnswers output) (doExecRedirect (some outputfile))
        initial trace .executes table) :
      ∃ fd, Lowest initial fd ∧ table = commandTable initial fd output := by
    rcases execEnds_of_performs performed with ⟨started, _⟩ | found
    · cases started
    · exact found
  refine ⟨⟨?_, ?_⟩, ends⟩
  · rintro ⟨trace, table, performed, redirected⟩
    obtain ⟨fd, lowest, rfl⟩ := ends trace table performed
    match fd, lowest, redirected with
    | 0, _, redirected =>
        rw [commandTable, Function.update_of_ne one_ne_zero] at redirected
        exact absurd redirected (fresh 1)
    | 1, _, redirected => exact absurd redirected (fresh 1)
    | fd + 2, lowest, _ => exact ⟨lowest.below 0 (by omega), lowest.below 1 (by omega)⟩
  · rintro ⟨zeroOpen, oneOpen⟩
    obtain ⟨fd, lowest⟩ := exists_lowest free
    have large : 2 ≤ fd := by
      match fd, lowest with
      | 0, lowest => exact absurd lowest.free zeroOpen
      | 1, lowest => exact absurd lowest.free oneOpen
      | fd + 2, _ => exact Nat.le_add_left 2 fd
    refine ⟨_, _, performs_redirected outputfile lowest large, ?_⟩
    obtain ⟨rest, rfl⟩ := Nat.exists_eq_add_of_le' large
    rw [commandTable, Function.update_self]

/-- Without a standard input the command is not redirected. -/
theorem command_output_iff_closed : ¬ ∃ trace table,
    execProgram.Performs (ExecAnswers 5) (doExecRedirect (some "log"))
      (fun fd => if fd = 1 ∨ fd = 2 then some fd else none) trace .executes table ∧
      table 1 = some 5 := by
  intro redirected
  have fresh (fd : Nat) : (if fd = 1 ∨ fd = 2 then some fd else none) ≠ some 5 := by
    split
    · simp
      omega
    · simp
  exact ((command_output_iff "log" ⟨0, rfl⟩ fresh).1.mp redirected).1 rfl

/-! ### Many calls -/

structure ExecReturn (File : Type u) where
  outputfile : Option String
  output : File
  trace : List (ExecCall × ExecReply)

def ExecReturns (table : Table File) (call : ExecReturn File) (table' : Table File) : Prop :=
  ∃ result, execProgram.Performs (ExecAnswers call.output) (doExecRedirect call.outputfile) table
    call.trace (.returned result) table'

/-- Over any calls a process keeps what was open, and for every call whose file was opened as 0 or
whose `fork` or `dup2` failed it has one more open descriptor. -/
theorem leaked_descriptors {calls : List (ExecReturn File)}
    (run : Run ExecReturns initial calls table) :
    ∃ leaked : Finset Nat, leaked.card = calls.countP (fun call => leaks call.trace) ∧
      ∀ fd, if fd ∈ leaked then initial fd = none ∧ table fd ≠ none
        else table fd = initial fd := by
  induction run with
  | nil => exact ⟨∅, rfl, fun _ => rfl⟩
  | @cons first middle last call calls taken _ inductionHypothesis =>
      obtain ⟨leaked, count, kept⟩ := inductionHypothesis
      obtain ⟨result, performed⟩ := taken
      rcases execEnds_of_performs performed with ⟨closed, rfl⟩ | ⟨leak, fd, free, rfl⟩
      · refine ⟨leaked, ?_, kept⟩
        rw [List.countP_cons_of_neg (by simp [closed]), count]
      · have new : fd ∉ leaked := by
          intro member
          have unopened := kept fd
          rw [if_pos member, Function.update_self] at unopened
          exact Option.some_ne_none _ unopened.1
        refine ⟨insert fd leaked, ?_, fun other => ?_⟩
        · rw [Finset.card_insert_of_notMem new, count, List.countP_cons, if_pos leak]
        · have after := kept other
          by_cases same : other = fd
          · subst same
            rw [if_neg new, Function.update_self] at after
            rw [if_pos (Finset.mem_insert_self _ _), after]
            exact ⟨free, Option.some_ne_none _⟩
          · rw [Function.update_of_ne same] at after
            simpa only [Finset.mem_insert, same, false_or] using after

def leakingCalls : List (ExecReturn Nat) :=
  [⟨some "log", 5, [(.openFile, ⟨0, 0, 0⟩), (.fork, ⟨7, 0, 0⟩), (.wait, ⟨7, 0, 0⟩)]⟩,
    ⟨some "log", 6, [(.openFile, ⟨3, 0, 0⟩), (.fork, ⟨-1, 11, 0⟩)]⟩]

theorem leaked_descriptors_twice : ∃ table,
    Run ExecReturns (fun fd => if fd = 1 ∨ fd = 2 then some fd else none) leakingCalls table ∧
      ∃ leaked : Finset Nat, leaked.card = 2 ∧ ∀ fd ∈ leaked, table fd ≠ none := by
  have zero : Lowest (fun fd => if fd = 1 ∨ fd = 2 then some fd else none) 0 := .zero rfl
  have three : Lowest (Function.update (fun fd => if fd = 1 ∨ fd = 2 then some fd else none) 0
      (some 5)) 3 := by
    refine ⟨rfl, fun other less => ?_⟩
    match other, less with
    | 0, _ => exact Option.some_ne_none _
    | 1, _ => exact Option.some_ne_none _
    | 2, _ => exact Option.some_ne_none _
  have run : Run ExecReturns (fun fd => if fd = 1 ∨ fd = 2 then some fd else none) leakingCalls
      (Function.update (Function.update (fun fd => if fd = 1 ∨ fd = 2 then some fd else none) 0
        (some 5)) 3 (some 6)) := by
    apply Run.cons ⟨true, .next (.opened zero) rfl (.next rfl rfl (.leave rfl rfl))⟩
    apply Run.cons ⟨false, .next (.opened three) rfl (.leave rfl rfl)⟩
    exact .nil _
  obtain ⟨leaked, count, kept⟩ := leaked_descriptors run
  refine ⟨_, run, leaked, count, fun fd member => ?_⟩
  have opened := kept fd
  rw [if_pos member] at opened
  exact opened.2

end Descriptors

end Aesd
