import Aesd.Driver.Write.Termination
import Aesd.Server.Exclusion

/-!
# Packets of several lines

A packet ends with a newline, but a client may send several lines at once.  Then
`aesd_write` does not return, and the thread keeps the mutex.  So, while no call fails,
every write that returns is one whole line, and a packet of several lines that is to be
written is the last one that the device is used for.
-/

namespace Aesd

open Concurrency Framing Loop Reactive

def writtenData : Call × Reply → List (List UInt8)
  | (.writeFile _ data, _) => [data]
  | _ => []

/-- What all connections have written, in the order in which the writes returned. -/
def writtenLines (trace : List (Nat × (Call × Reply))) : List (List UInt8) :=
  trace.flatMap fun entry => writtenData entry.2

/-- A packet is written as a whole. -/
def Thread.Whole : Thread → Prop
  | .lock buffer | .openFile buffer => buffer.data.getLast? = some newline
  | .dumpBuffer buffer _ left => left = buffer.data ∧ left.getLast? = some newline
  | _ => True

theorem writtenLines_append (past : List (Nat × (Call × Reply))) (task : Nat)
    (event : Call × Reply) :
    writtenLines (past ++ [(task, event)]) = writtenLines past ++ writtenData event := by
  rw [writtenLines, List.flatMap_append, List.flatMap_singleton]
  rfl

theorem isFrame_of_singleNewline {data : List UInt8} (ends : data.getLast? = some newline)
    (single : SingleNewline data) : IsFrame newline data := by
  obtain ⟨body, rfl⟩ := List.getLast?_eq_some_iff.mp ends
  refine ⟨body, fun present => ?_, rfl⟩
  have several := singleNewline_iff.mp single
  have counted := List.count_pos_iff.mpr present
  rw [List.count_append, List.count_singleton_self] at several
  omega

section Answers

variable {env env' : ServerEnv} {task : Nat} {event : Call × Reply}

/-- Only a write changes what the device holds. -/
theorem ServerEnv.Answers.driver (answered : Answers task event env env')
    (unwritten : writtenData event = []) (settled : env.driver.Settled) :
    env'.driver.Settled ∧ env'.driver.commands = env.driver.commands := by
  obtain ⟨call, reply⟩ := event
  have answer := answered.2
  cases call with
  | realloc _ _ | free _ | readSocket _ | writeSocket _ | pthreadMutexUnlock | close _ =>
      obtain rfl := answer
      exact ⟨settled, rfl⟩
  | pthreadMutexLock =>
      obtain ⟨_, _, rfl⟩ := answer
      exact ⟨settled, rfl⟩
  | openFile =>
      obtain ⟨_, rfl⟩ := answer
      exact ⟨settled, rfl⟩
  | readFile _ _ =>
      obtain ⟨_, _, _, _, returned, _, rfl⟩ := answer
      obtain rfl := aesdRead_driver returned
      exact ⟨settled.dump, rfl⟩
  | ioctl _ _ =>
      obtain ⟨_, _, _, _, _, returned, rfl⟩ := answer
      obtain rfl := aesdUnlockedIoctl_driver returned
      exact ⟨settled, rfl⟩
  | writeFile _ _ => cases unwritten

/-- A write that returns had at most one newline. -/
theorem ServerEnv.Answers.single {filed : Int} {data : List UInt8} {reply : Reply}
    (answered : Answers task (.writeFile filed data, reply) env env')
    (valid : env.driver.Valid) : SingleNewline data := by
  obtain ⟨_, fuel, driver, _, written, _, _⟩ := answered
  obtain ⟨value, _, _⟩ := reply
  cases aesdWrite_effect valid written with
  | returned single _ => exact single
  | failed sections _ _ fails => exact absurd ⟨rfl, rfl, rfl⟩ fails

theorem respectsMutex_answers : RespectsMutex ServerEnv.Answers ServerEnv.mutex := by
  rintro task ⟨call, reply⟩ env env' ⟨succeeds, answer⟩
  cases call with
  | pthreadMutexLock =>
      obtain ⟨mutex, locked, rfl⟩ := answer
      have locks : reply.value = 0 := succeeds
      simpa only [MutexAnswers, if_pos locks] using locked
  | pthreadMutexUnlock =>
      obtain rfl := answer
      have unlocks : reply.value = 0 := succeeds
      simp only [MutexAnswers, if_pos unlocks]
  | openFile =>
      obtain ⟨_, rfl⟩ := answer
      rfl
  | writeFile _ _ =>
      obtain ⟨_, _, _, _, _, rfl⟩ := answer
      rfl
  | readFile _ _ =>
      obtain ⟨_, _, _, _, _, _, rfl⟩ := answer
      rfl
  | ioctl _ _ =>
      obtain ⟨_, _, _, _, _, _, rfl⟩ := answer
      rfl
  | realloc _ _ | free _ | readSocket _ | writeSocket _ | close _ =>
      obtain rfl := answer
      rfl

end Answers

namespace Thread

variable {state state' : Thread} {reply : Reply}

/-- The rest of a packet is never written on its own. -/
theorem Whole.next (whole : state.Whole) (precedes : Precedes reply state state')
    (takes : TakesWhole (threadRunFunction.call state, reply)) : state'.Whole := by
  cases precedes with
  | packet buffer allocatedSpace some ends => exact ends
  | lock buffer => exact whole
  | line buffer noKey => exact ⟨rfl, whole⟩
  | writePart buffer filed left short =>
      have taken : reply.value = left.length := takes
      omega
  | piece _ _ _ _ =>
      unfold ReadStr.round
      split <;> trivial
  | free _ => trivial
  | _ => trivial

end Thread

namespace Server

structure Orderly (past : List (Nat × (Call × Reply))) (server : Server) : Prop where
  settled : server.env.driver.Settled
  commands : server.env.driver.commands = (writtenLines past).rtake 10
  frames : ∀ data ∈ writtenLines past, IsFrame newline data
  takes : ∀ entry ∈ past, TakesWhole entry.2
  threads : Shared.Each (fun state => state.Healthy ∧ state.Whole) server

variable {past trace more : List (Nat × (Call × Reply))} {server server' : Server}
  {task other : Nat} {event : Call × Reply}

theorem init_orderly : Orderly [] init where
  settled := Driver.init_settled
  commands := rfl
  frames _ membership := absurd membership List.not_mem_nil
  takes _ membership := absurd membership List.not_mem_nil
  threads _ _ running := by
    cases running
    exact ⟨trivial, trivial⟩

theorem Orderly.served (orderly : Orderly past server) {state : Thread} {reply : Reply}
    {env : ServerEnv} (running : server.threads task = some state)
    (answered : ServerEnv.Answers task (threadRunFunction.call state, reply) server.env env) :
    env.driver.Settled ∧
      env.driver.commands =
        (writtenLines past ++ writtenData (threadRunFunction.call state, reply)).rtake 10 ∧
      (∀ data ∈ writtenData (threadRunFunction.call state, reply), IsFrame newline data) ∧
      TakesWhole (threadRunFunction.call state, reply) := by
  cases called : threadRunFunction.call state with
  | writeFile filed data =>
      rw [called] at answered
      have ends : data.getLast? = some newline := by
        have whole := (orderly.threads task state running).2
        cases state with
        | dumpBuffer buffer filed left =>
            cases called
            exact whole.2
        | readStr state => cases state <;> cases called
        | dumpFile buffer filed state => cases state <;> cases called
        | _ => cases called
      have frame := isFrame_of_singleNewline ends (answered.single orderly.settled.valid)
      obtain ⟨taken, _, _, settled, commands⟩ := answered.writeFile orderly.settled frame
      refine ⟨settled, ?_, List.forall_mem_singleton.mpr frame, taken⟩
      rw [commands, orderly.commands]
      exact List.rtake_rtake_append _ _ _
  | _ =>
      rw [called] at answered
      obtain ⟨settled, same⟩ := answered.driver rfl orderly.settled
      refine ⟨settled, ?_, by simp [writtenData], trivial⟩
      rw [same, orderly.commands]
      simp only [writtenData, List.append_nil]

theorem Orderly.step (orderly : Orderly past server)
    (taken : Step server (task, event) server') : Orderly (past ++ [(task, event)]) server' := by
  obtain ⟨state, reply, env, running, rfl, answered, shared⟩ := Shared.Step.cases taken
  obtain ⟨settled, commands, frames, takes⟩ := orderly.served running answered
  have threads : Shared.Each (fun state => state.Healthy ∧ state.Whole) server' := by
    apply orderly.threads.step (fun state' reply' kept called => ?_) taken
    have succeeds : Succeeds (threadRunFunction.call state', reply') := called ▸ answered.1
    apply (Thread.resume_cases kept.1 succeeds).imp
    · rintro next ⟨healthy, precedes⟩
      exact ⟨healthy, kept.2.next precedes (called ▸ takes)⟩
    · exact fun _ _ => trivial
  subst shared
  refine ⟨settled, ?_, ?_, ?_, threads⟩
  · rw [writtenLines_append]
    exact commands
  · rw [writtenLines_append]
    exact List.forall_mem_append.mpr ⟨orderly.frames, frames⟩
  · exact List.forall_mem_append.mpr ⟨orderly.takes, List.forall_mem_singleton.mpr takes⟩

theorem orderly_of_run (run : Run Step init trace server) : Orderly trace server := by
  have kept (past : List (Nat × (Call × Reply))) (server : Server) (entry : Nat × (Call × Reply))
      (server' : Server) (orderly : Orderly past server) (taken : Step server entry server') :
      Orderly (past ++ [entry]) server' := orderly.step taken
  exact run.history kept init_orderly

/-- Whatever the clients send in whatever pieces, while no call fails every write that
returns is one line and is taken as a whole. After it the device has no unfinished
command, and its commands are the last ten of these lines. -/
theorem writes_lines (run : Run Step init trace server) :
    (∀ data ∈ writtenLines trace, IsFrame newline data) ∧
      (∀ entry ∈ trace, TakesWhole entry.2) ∧
      server.env.driver.pending = [] ∧
      server.env.driver.commands = (writtenLines trace).rtake 10 := by
  have orderly := orderly_of_run run
  exact ⟨orderly.frames, orderly.takes, orderly.settled.pending, orderly.commands⟩

def oneLineCalls : List (Nat × (Call × Reply)) :=
  [(0, (.realloc 0 512, { value := 1 })),
    (0, (.readSocket 512, { value := 1, bytes := [97] })),
    (0, (.readSocket 511, { value := 1, bytes := [newline] })),
    (0, (.pthreadMutexLock, { value := 0 })),
    (0, (.openFile, { value := 3 })),
    (0, (.writeFile 3 [97, newline], { value := 2 }))]

theorem writes_lines_oneLine : ∃ server, Run Step init oneLineCalls server ∧
    server.env.driver.commands = [[97, newline]] := by
  have run : ∃ server, Run Step init oneLineCalls server :=
    ⟨_, .cons (Shared.Step.taken rfl rfl ⟨by decide, rfl⟩)
      (.cons (Shared.Step.taken rfl rfl ⟨by decide, rfl⟩)
      (.cons (Shared.Step.taken rfl rfl ⟨by decide, rfl⟩)
      (.cons (Shared.Step.taken rfl rfl ⟨by decide, _, rfl, rfl⟩)
      (.cons (Shared.Step.taken rfl rfl ⟨by decide, rfl, rfl⟩)
      (.cons (Shared.Step.taken rfl rfl ⟨by decide, 6, _, rfl, rfl, by decide, rfl⟩) (.nil _))))))⟩
  obtain ⟨server, run⟩ := run
  exact ⟨server, run, (writes_lines run).2.2.2⟩

/-! ## Several lines in one packet -/

theorem guards : Guards threadRunFunction ServerEnv.Answers ServerEnv.mutex Thread.InSection :=
  threadRunFunction_guards respectsMutex_answers

theorem init_exclusive : Exclusive ServerEnv.mutex Thread.InSection init := by
  intro task state running inside
  cases running
  exact inside.elim

/-- A thread has the mutex and is about to write a packet. -/
def AboutToWrite (buffer : SocketBuffer) (task : Nat) (server : Server) : Prop :=
  server.threads task = some (.openFile buffer) ∨
    ∃ filed, server.threads task = some (.dumpBuffer buffer filed buffer.data)

/-- The thread opens the file, and its write does not return. The others do not get the
mutex. -/
theorem AboutToWrite.step {buffer : SocketBuffer} (about : AboutToWrite buffer task server)
    (noKey : ¬ HasKey buffer.data) (several : 2 ≤ buffer.data.count newline)
    (exclusive : Exclusive ServerEnv.mutex Thread.InSection server) (orderly : Orderly past server)
    (taken : Step server (other, event) server') :
    AboutToWrite buffer task server' ∧
      (UsesDevice event → other = task ∧ event.1 = .openFile) := by
  have owner : server.env.mutex.owner = some task := by
    rcases about with opening | ⟨filed, writing⟩
    · exact exclusive task _ opening trivial
    · exact exclusive task _ writing trivial
  obtain ⟨state, reply, env, running, rfl, answered, rfl⟩ := Shared.Step.cases taken
  by_cases same : other = task
  · subst same
    rcases about with opening | ⟨filed, writing⟩
    · obtain rfl := Option.some.inj (running.symm.trans opening)
      refine ⟨.inr ⟨reply.value, ?_⟩, fun _ => ⟨rfl, rfl⟩⟩
      have set : buffer.bufPtr ≠ 0 := (orderly.threads other _ opening).1
      have opened : ¬ reply.value < 0 := Int.not_lt.mpr answered.1
      simp only [Function.update_self, threadRunFunction, if_neg opened, Thread.dispatch_eq set,
        if_neg noKey]
      rfl
    · obtain rfl := Option.some.inj (running.symm.trans writing)
      have single := singleNewline_iff.mp (answered.single orderly.settled.valid)
      omega
  · refine ⟨?_, fun uses => ?_⟩
    · simp only [AboutToWrite, Function.update_of_ne (Ne.symm same)]
      exact about
    · have owner' := exclusive other state running (Thread.inSection_of_usesDevice uses)
      rw [owner, Option.some.injEq] at owner'
      exact absurd owner'.symm same

theorem AboutToWrite.run {buffer : SocketBuffer} (about : AboutToWrite buffer task server)
    (noKey : ¬ HasKey buffer.data) (several : 2 ≤ buffer.data.count newline)
    (exclusive : Exclusive ServerEnv.mutex Thread.InSection server) (orderly : Orderly past server)
    (run : Run Step server more server') :
    AboutToWrite buffer task server' ∧ Exclusive ServerEnv.mutex Thread.InSection server' ∧
      ∀ entry ∈ more, UsesDevice entry.2 → entry.1 = task ∧ entry.2.1 = .openFile := by
  induction run generalizing past with
  | nil => exact ⟨about, exclusive, by simp⟩
  | @cons first middle last label labels taken _ inductionHypothesis =>
      obtain ⟨other, event⟩ := label
      obtain ⟨about', opens⟩ := about.step noKey several exclusive orderly taken
      obtain ⟨stays, exclusive', unused⟩ :=
        inductionHypothesis about' (guards.step exclusive taken) (orderly.step taken)
      exact ⟨stays, exclusive', List.forall_mem_cons.mpr ⟨opens, unused⟩⟩

/-- When a connection has got the mutex with a packet of several lines and without a key
before a zero byte, and no call fails, no other call about the device than its own `open`
returns any more: no write, no read and no seek, for no connection, and the mutex is never
released. -/
theorem stalls_forever (run : Run Step init trace server) {buffer : SocketBuffer}
    (about : AboutToWrite buffer task server) (noKey : ¬ HasKey buffer.data)
    (several : 2 ≤ buffer.data.count newline) (run' : Run Step server more server') :
    (∀ entry ∈ more, UsesDevice entry.2 → entry.1 = task ∧ entry.2.1 = .openFile) ∧
      writtenLines more = [] ∧ AboutToWrite buffer task server' ∧
      server'.env.mutex.owner = some task := by
  obtain ⟨exclusive, _⟩ := guards.run run init_exclusive
  obtain ⟨stays, exclusive', unused⟩ :=
    about.run noKey several exclusive (orderly_of_run run) run'
  refine ⟨unused, ?_, stays, ?_⟩
  · apply List.flatMap_eq_nil_iff.mpr
    rintro ⟨other, call, reply⟩ membership
    cases call with
    | writeFile filed data => cases (unused _ membership trivial).2
    | _ => rfl
  · rcases stays with opening | ⟨filed, writing⟩
    · exact exclusive' task _ opening trivial
    · exact exclusive' task _ writing trivial

def twoLinesCalls : List (Nat × (Call × Reply)) :=
  [(0, (.realloc 0 512, { value := 1 })),
    (0, (.readSocket 512, { value := 4, bytes := [97, newline, 98, newline] })),
    (0, (.pthreadMutexLock, { value := 0 }))]

theorem stalls_forever_twoLines : ∃ server, Run Step init twoLinesCalls server ∧
    ∀ more server', Run Step server more server' →
      writtenLines more = [] ∧ server'.env.mutex.owner = some 0 := by
  have run : ∃ server, Run Step init twoLinesCalls server ∧
      server.threads 0 = some (.openFile ⟨1, [97, newline, 98, newline]⟩) :=
    ⟨_, .cons (Shared.Step.taken rfl rfl ⟨by decide, rfl⟩)
      (.cons (Shared.Step.taken rfl rfl ⟨by decide, rfl⟩)
      (.cons (Shared.Step.taken rfl rfl ⟨by decide, _, rfl, rfl⟩) (.nil _))), rfl⟩
  obtain ⟨server, run, opening⟩ := run
  refine ⟨server, run, fun more server' run' => ?_⟩
  obtain ⟨_, unwritten, _, owner⟩ :=
    stalls_forever run (.inl opening) (by decide +kernel) (by decide) run'
  exact ⟨unwritten, owner⟩

end Server

end Aesd
