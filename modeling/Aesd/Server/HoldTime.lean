import Aesd.Server.Stall
import Mathlib.Data.List.Infix

/-!
# How long the mutex is held

A thread that has the mutex makes a number of calls that is bounded by the content of
the device and its own packet, however short the results of its reads and writes are:
every read before the last one moves the file on, and every write to the socket takes
something.  The others cannot make it longer.
-/

namespace Aesd

open Concurrency Framing Loop Reactive

namespace ServerEnv

/-- The number of bytes between the position of a file and the end of the content. -/
def ahead (env : ServerEnv) (filed : Int) : Nat :=
  (env.driver.content.drop ((env.files filed).getD 0).toNat).length

variable {env env' : ServerEnv} {task : Nat} {event : Call × Reply} {filed : Int}

theorem ahead_le (env : ServerEnv) (filed : Int) : env.ahead filed ≤ env.driver.content.length :=
  (List.drop_sublist _ _).length_le

theorem ahead_setFile (start : Nat) : (env.setFile filed (some (start : Int))).ahead filed =
    (env.driver.content.drop start).length := by
  rw [ahead, setFile_self]
  rfl

/-- Calls about something else leave the files alone. -/
theorem Answers.files (answered : Answers task event env env') (apart : ¬ UsesDevice event) :
    env'.files = env.files := by
  obtain ⟨call, reply⟩ := event
  have answer := answered.2
  cases call with
  | realloc _ _ | free _ | readSocket _ | writeSocket _ | pthreadMutexUnlock =>
      obtain rfl := answer
      rfl
  | pthreadMutexLock =>
      obtain ⟨_, _, rfl⟩ := answer
      rfl
  | _ => exact absurd trivial apart

/-- All open files stand at places that an `loff_t` can hold. -/
def Positioned (env : ServerEnv) : Prop :=
  ∀ filed fPos, env.files filed = some fPos → ∃ start : Nat, fPos = start ∧ start < 2 ^ 63

theorem Positioned.setFile (positioned : env.Positioned) {position : Option Int}
    (small : ∀ fPos, position = some fPos → ∃ start : Nat, fPos = start ∧ start < 2 ^ 63) :
    (env.setFile filed position).Positioned := by
  intro other fPos found
  by_cases same : other = filed
  · subst same
    rw [setFile_self] at found
    exact small fPos found
  · simp only [ServerEnv.setFile, Function.update_of_ne same] at found
    exact positioned other fPos found

theorem Positioned.move (positioned : env.Positioned) {start : Nat} (small : start < 2 ^ 63) :
    (env.setFile filed (some (start : Int))).Positioned := by
  apply positioned.setFile
  intro fPos placed
  exact ⟨start, (Option.some.inj placed).symm, small⟩

theorem Positioned.step (positioned : env.Positioned) (settled : env.driver.Settled)
    (answered : Answers task event env env') (small : ∀ filed size,
      event.1 = .readFile filed size → size < 2 ^ 63) : env'.Positioned := by
  obtain ⟨call, reply⟩ := event
  have answer := answered.2
  cases call with
  | realloc _ _ | free _ | readSocket _ | writeSocket _ | pthreadMutexUnlock =>
      obtain rfl := answer
      exact positioned
  | pthreadMutexLock =>
      obtain ⟨_, _, rfl⟩ := answer
      exact positioned
  | openFile =>
      obtain ⟨_, rfl⟩ := answer
      exact @Positioned.move env reply.value positioned 0 (by decide)
  | close filed =>
      obtain rfl := answer
      exact positioned.setFile fun _ placed => nomatch placed
  | writeFile _ _ =>
      obtain ⟨_, _, _, _, _, rfl⟩ := answer
      exact positioned
  | readFile filed size =>
      obtain ⟨fPos, _, _, found, _⟩ := answer
      obtain ⟨start, rfl, startSmall⟩ := positioned filed fPos found
      obtain ⟨_, next, rfl, nextSmall, _⟩ :=
        answered.readFile settled found startSmall (small filed size rfl)
      exact positioned.move nextSmall
  | ioctl filed seekto =>
      obtain ⟨rfl, seekSmall⟩ := answered.ioctl settled
      exact positioned.move seekSmall

end ServerEnv

namespace Thread

/-- The chunk that is being sent is inside of the buffer. -/
def Filled : Thread → Prop
  | .dumpFile _ _ state => state.Inside
  | _ => True

/-- A bound for the calls of a thread up to the release of the mutex. -/
def callsLeft (env : ServerEnv) : Thread → Nat
  | .openFile buffer => 2 * (env.driver.content.length + buffer.data.length) + 5
  | .ioctl _ _ _ => 2 * env.driver.content.length + 4
  | .dumpBuffer _ _ left => 2 * (env.driver.content.length + left.length) + 4
  | .dumpFile _ filed state => 2 * env.ahead filed + state.unsent.length + 3
  | .close _ _ => 2
  | .unlock _ => 1
  | _ => 0

end Thread

theorem unwritten_of_apart {event : Call × Reply} (apart : ¬ UsesDevice event) :
    writtenData event = [] := by
  obtain ⟨call, reply⟩ := event
  cases call with
  | writeFile _ _ => exact absurd trivial apart
  | _ => rfl

theorem length_flatten_rtake_le (count : Nat) (blocks : List (List UInt8)) :
    (blocks.rtake count).flatten.length ≤ blocks.flatten.length :=
  (List.drop_suffix _ blocks).flatten.length_le

theorem DumpFile.Inside.next {filed : Int} {state state' : DumpFile} {reply : Reply}
    (inside : state.Inside) (succeeds : Succeeds ((dumpFileToSocket filed).call state, reply))
    (continued : (dumpFileToSocket filed).resume state reply = .next state') :
    state'.Inside ∧
      match state with
      | .read _ => state'.unsent = reply.bytes ∧ reply.bytes ≠ []
      | .write _ _ _ => state'.unsent.length < state.unsent.length := by
  cases state with
  | read buf =>
      obtain ⟨counted, bounded⟩ := succeeds
      have some : 0 < reply.value := by
        by_contra nothing
        have nonnegative : ¬ reply.value < 0 := by omega
        simp only [dumpFileToSocket, if_neg nothing, if_neg nonnegative] at continued
        cases continued
      obtain ⟨next, continued', inside', unsent⟩ :=
        @DumpFile.Inside.fetch filed buf reply inside some counted bounded
      cases continued.symm.trans continued'
      refine ⟨inside', unsent, fun nothing => ?_⟩
      rw [counted, nothing] at some
      exact absurd some (by decide)
  | write buf writePtr currentChunkSize =>
      obtain ⟨some, bounded, -⟩ := succeeds
      obtain ⟨next, continued', inside', chunk⟩ :=
        @DumpFile.Inside.send filed buf writePtr currentChunkSize reply inside some bounded
      cases continued.symm.trans continued'
      refine ⟨inside', ?_⟩
      have lengths := congrArg List.length chunk
      rw [List.length_append, List.length_take] at lengths
      simp only [DumpFile.unsent] at lengths ⊢
      omega

namespace Thread

variable {env env' : ServerEnv} {task : Nat} {state state' : Thread} {reply : Reply}

theorem Filled.next (filled : state.Filled)
    (succeeds : Succeeds (threadRunFunction.call state, reply))
    (precedes : Precedes reply state state') : state'.Filled := by
  cases precedes with
  | transfer buffer filed state state' continued =>
      exact (DumpFile.Inside.next filled succeeds continued).1
  | noSeek _ _ _ | ioctl _ _ _ | writeRest _ _ _ _ => exact List.length_replicate
  | piece _ _ _ _ =>
      unfold ReadStr.round
      split <;> trivial
  | _ => trivial

theorem InSection.next (inside : state.InSection) (precedes : Precedes reply state state')
    (holds : threadRunFunction.call state ≠ .pthreadMutexUnlock) : state'.InSection := by
  cases precedes with
  | resize _ _ | piece _ _ _ _ | packet _ _ _ _ | hangUp _ _ _ | lock _ | free _ =>
      exact inside.elim
  | unlock buffer => exact absurd rfl holds
  | _ => trivial

theorem callsLeft_congr (same : env'.driver.commands = env.driver.commands)
    (sameFiles : env'.files = env.files) (state : Thread) :
    state.callsLeft env' = state.callsLeft env := by
  cases state <;> simp only [callsLeft, ServerEnv.ahead, Driver.content, same, sameFiles]

theorem size_of_readFile {filed : Int} {size : Nat}
    (reads : threadRunFunction.call state = .readFile filed size) : size = tmpBufSize := by
  cases state with
  | readStr state => cases state <;> cases reads
  | dumpFile buffer filed state =>
      cases state with
      | read buf =>
          cases reads
          rfl
      | write _ _ _ => cases reads
  | _ => cases reads

theorem callsLeft_lt (settled : env.driver.Settled) (positioned : env.Positioned)
    (whole : state.Whole) (filled : state.Filled) (inside : state.InSection)
    (answered : ServerEnv.Answers task (threadRunFunction.call state, reply) env env')
    (precedes : Precedes reply state state') : state'.callsLeft env' < state.callsLeft env := by
  have answer := answered.2
  cases precedes with
  | resize _ _ | piece _ _ _ _ | packet _ _ _ _ | hangUp _ _ _ | lock _ | free _ =>
      exact inside.elim
  | seek buffer seekto key parsed =>
      obtain ⟨_, rfl⟩ := answer
      simp only [callsLeft, ServerEnv.setFile]
      omega
  | noSeek buffer key parsed =>
      obtain ⟨_, rfl⟩ := answer
      have ahead := ServerEnv.ahead_le (env.setFile reply.value (some 0)) reply.value
      have sameDriver : (env.setFile reply.value (some 0)).driver = env.driver := rfl
      rw [sameDriver] at ahead
      simp only [callsLeft, DumpFile.start, DumpFile.unsent, List.length_nil]
      omega
  | line buffer noKey =>
      obtain ⟨_, rfl⟩ := answer
      simp only [callsLeft, ServerEnv.setFile]
      omega
  | ioctl buffer filed seekto =>
      have same := (answered.driver rfl settled).2
      have ahead := ServerEnv.ahead_le env' filed
      rw [Driver.content, same, ← Driver.content] at ahead
      simp only [callsLeft, DumpFile.start, DumpFile.unsent, List.length_nil]
      omega
  | writePart buffer filed left short =>
      have frame := isFrame_of_singleNewline whole.2 (answered.single settled.valid)
      have taken := (answered.writeFile settled frame).1
      omega
  | writeRest buffer filed left _ =>
      have frame := isFrame_of_singleNewline whole.2 (answered.single settled.valid)
      obtain ⟨_, _, _, _, commands⟩ := answered.writeFile settled frame
      have ahead := ServerEnv.ahead_le env' filed
      have grown := length_flatten_rtake_le 10 (env.driver.commands ++ [left])
      rw [← commands, List.flatten_append, List.flatten_singleton, List.length_append] at grown
      simp only [callsLeft, DumpFile.start, DumpFile.unsent, List.length_nil, Driver.content]
        at ahead ⊢
      omega
  | transfer buffer filed state state' continued =>
      have next := (DumpFile.Inside.next filled answered.1 continued).2
      cases state with
      | read buf =>
          obtain ⟨unsent, some⟩ := next
          have more := List.length_pos_iff.mpr some
          obtain ⟨fPos, _, _, found, _⟩ := answer
          obtain ⟨start, rfl, small⟩ := positioned filed fPos found
          obtain ⟨_, next, rfl, _, parts⟩ := answered.readFile settled found small (by decide)
          have lengths := congrArg List.length parts
          have before : env.ahead filed = (env.driver.content.drop start).length := by
            rw [ServerEnv.ahead, found]
            rfl
          have after : env.driver.dump.content = env.driver.content := rfl
          rw [List.length_append] at lengths
          simp only [callsLeft, ServerEnv.ahead_setFile, before, after, unsent, lengths]
          omega
      | write buf writePtr currentChunkSize =>
          obtain rfl : env' = env := answer
          simp only [callsLeft]
          omega
  | transferred buffer filed buf atEnd =>
      simp only [callsLeft]
      omega
  | close buffer filed => exact Nat.lt_succ_self 1
  | unlock buffer => exact Nat.zero_lt_one

end Thread

namespace Server

variable {past trace more : List (Nat × (Call × Reply))} {server server' : Server}
  {task other : Nat} {event : Call × Reply}

structure Bounded (past : List (Nat × (Call × Reply))) (server : Server) : Prop
    extends Orderly past server where
  exclusive : Exclusive ServerEnv.mutex Thread.InSection server
  positioned : server.env.Positioned
  filled : Shared.Each (fun state => state.Healthy ∧ state.Filled) server

theorem init_bounded : Bounded [] init where
  toOrderly := init_orderly
  exclusive := init_exclusive
  positioned _ _ found := nomatch found
  filled _ _ running := by
    cases running
    exact ⟨trivial, trivial⟩

theorem Bounded.step (bounded : Bounded past server) (taken : Step server (task, event) server') :
    Bounded (past ++ [(task, event)]) server' := by
  refine ⟨bounded.toOrderly.step taken, guards.step bounded.exclusive taken, ?_, ?_⟩
  · obtain ⟨state, reply, env, _, rfl, answered, rfl⟩ := Shared.Step.cases taken
    apply bounded.positioned.step bounded.settled answered
    intro filed size reads
    rw [Thread.size_of_readFile reads]
    decide
  · obtain ⟨state, reply, env, _, rfl, answered, _⟩ := Shared.Step.cases taken
    apply bounded.filled.step (fun state' reply' kept called => ?_) taken
    have succeeds : Succeeds (threadRunFunction.call state', reply') := called ▸ answered.1
    apply (Thread.resume_cases kept.1 succeeds).imp
    · rintro next ⟨healthy, precedes⟩
      exact ⟨healthy, kept.2.next succeeds precedes⟩
    · exact fun _ _ => trivial

theorem bounded_of_run (run : Run Step init trace server) : Bounded trace server := by
  have kept (past : List (Nat × (Call × Reply))) (server : Server) (entry : Nat × (Call × Reply))
      (server' : Server) (bounded : Bounded past server) (taken : Step server entry server') :
      Bounded (past ++ [entry]) server' := bounded.step taken
  exact run.history kept init_bounded

/-- A thread in its section comes nearer to the release of the mutex with every call of its
own, and stays where it is while the others run. -/
theorem Bounded.approaches (bounded : Bounded past server) {state : Thread}
    (running : server.threads task = some state) (inside : state.InSection)
    (taken : Step server (other, event) server')
    (holds : other = task → event.1 ≠ .pthreadMutexUnlock) :
    ∃ state', server'.threads task = some state' ∧ state'.InSection ∧
      state'.callsLeft server'.env + (own task [(other, event)]).length ≤
        state.callsLeft server.env := by
  obtain ⟨state₁, reply, env, running₁, rfl, answered, rfl⟩ := Shared.Step.cases taken
  by_cases same : other = task
  · subst same
    obtain rfl := Option.some.inj (running.symm.trans running₁)
    have proceeds := Thread.resume_cases (bounded.threads other state running).1 answered.1
    rw [Thread.Proceeds] at proceeds
    cases flow : threadRunFunction.resume state reply with
    | next state' =>
        rw [flow] at proceeds
        have nearer := Thread.callsLeft_lt bounded.settled bounded.positioned
          (bounded.threads other state running).2 (bounded.filled other state running).2 inside
          answered proceeds.2
        refine ⟨state', ?_, Thread.InSection.next inside proceeds.2 (holds rfl), ?_⟩
        · simp only [Function.update_self]
          rfl
        · have one := own_map_self other [(threadRunFunction.call state, reply)]
          rw [List.map_singleton] at one
          rw [one]
          exact nearer
    | leave ended =>
        rw [flow] at proceeds
        obtain ⟨buffer, retVal, rfl⟩ := proceeds
        exact inside.elim
  · have apart : ¬ UsesDevice (threadRunFunction.call state₁, reply) := by
      intro uses
      have owner := bounded.exclusive task state running inside
      rw [bounded.exclusive other state₁ running₁ (Thread.inSection_of_usesDevice uses),
        Option.some.injEq] at owner
      exact same owner
    have unchanged := Thread.callsLeft_congr
      (answered.driver (unwritten_of_apart apart) bounded.settled).2 (answered.files apart) state
    refine ⟨state, ?_, inside, ?_⟩
    · simp only [Function.update_of_ne (Ne.symm same)]
      exact running
    · simp [own, same, unchanged]

theorem Bounded.holds (bounded : Bounded past server) {state : Thread}
    (running : server.threads task = some state) (inside : state.InSection)
    (run : Run Step server more server')
    (held : ∀ entry ∈ more, entry.1 = task → entry.2.1 ≠ .pthreadMutexUnlock) :
    ∃ state', server'.threads task = some state' ∧ state'.InSection ∧
      state'.callsLeft server'.env + (own task more).length ≤ state.callsLeft server.env := by
  induction run generalizing past state with
  | nil => exact ⟨state, running, inside, Nat.le_refl _⟩
  | @cons first middle last label labels taken _ inductionHypothesis =>
      obtain ⟨other, event⟩ := label
      obtain ⟨here, others⟩ := List.forall_mem_cons.mp held
      obtain ⟨next, running', inside', nearer⟩ := bounded.approaches running inside taken here
      obtain ⟨state', running'', inside'', later⟩ :=
        inductionHypothesis (bounded.step taken) running' inside' others
      refine ⟨state', running'', inside'', ?_⟩
      have parts := own_append task [(other, event)] labels
      rw [List.singleton_append] at parts
      rw [parts, List.length_append]
      omega

/-- However the other connections run, while no call fails a thread that has got the mutex
for a packet has at most this number of calls return before it releases it: five, and two
for each byte of the content and of the packet. -/
theorem holds_briefly (run : Run Step init trace server) {buffer : SocketBuffer}
    (opening : server.threads task = some (.openFile buffer)) (run' : Run Step server more server')
    (held : ∀ entry ∈ more, entry.1 = task → entry.2.1 ≠ .pthreadMutexUnlock) :
    (own task more).length ≤ 2 * (server.env.driver.content.length + buffer.data.length) + 5 := by
  obtain ⟨state', _, _, nearer⟩ := (bounded_of_run run).holds opening trivial run' held
  exact Nat.le_trans (Nat.le_add_left _ _) nearer

def replyingCalls : List (Nat × (Call × Reply)) :=
  [(0, (.openFile, { value := 3 })),
    (0, (.writeFile 3 [newline], { value := 1 })),
    (0, (.readFile 3 1024, { value := 1, bytes := [newline] }))]

theorem holds_briefly_replying : ∃ server server',
    Run Step server replyingCalls server' ∧
      (own 0 replyingCalls).length ≤ 2 * (server.env.driver.content.length + 1) + 5 := by
  have run : ∃ server, Run Step init
      [(0, (.realloc 0 512, { value := 1 })),
        (0, (.readSocket 512, { value := 1, bytes := [newline] })),
        (0, (.pthreadMutexLock, { value := 0 }))] server ∧
      server.threads 0 = some (.openFile ⟨1, [newline]⟩) ∧
      ∃ server', Run Step server replyingCalls server' :=
    ⟨_, .cons (Shared.Step.taken rfl rfl ⟨by decide, rfl⟩)
      (.cons (Shared.Step.taken rfl rfl ⟨by decide, rfl⟩)
      (.cons (Shared.Step.taken rfl rfl ⟨by decide, _, rfl, rfl⟩) (.nil _))), rfl,
      ⟨_, .cons (Shared.Step.taken rfl rfl ⟨by decide, rfl, rfl⟩)
        (.cons (Shared.Step.taken rfl rfl ⟨by decide, 6, _, rfl, rfl, by decide, rfl⟩)
        (.cons (Shared.Step.taken rfl rfl ⟨by decide, _, _, _, rfl, rfl, rfl, rfl⟩) (.nil _)))⟩⟩
  obtain ⟨server, run, opening, server', run'⟩ := run
  refine ⟨server, server', run', holds_briefly run opening run' ?_⟩
  simp [replyingCalls]

end Server

end Aesd
