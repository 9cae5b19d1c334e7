import Aesd.Server.Shutdown
import Aesd.Server.Syslog

/-!
# A shutdown that does not end

`terminate` cancels the connection threads one by one and joins each of them before the
next one.  A thread that is cancelled while it serves a request ends with the mutex, and
one that waits for the mutex cannot be cancelled, since `pthread_mutex_lock` is no
cancellation point.  Then `pthread_join` does not return.  The handlers run in the thread
of `main`, once.
-/

namespace Aesd

open Concurrency Interrupts Loop Reactive

structure Closing where
  threads : Cancellable Mutex LoggingThread
  point : ServerPoint
  memory : ServerMemory

namespace ServerPoint

def requested : ServerPoint → Option Nat
  | .terminate _ (.cancel node) => some node.ptr.threadId
  | _ => none

def awaited : ServerPoint → Option Nat
  | .terminate _ (.join node) => some node.ptr.threadId
  | _ => none

/-- The nodes whose threads are still to be joined. -/
def unjoined (memory : ServerMemory) : ServerPoint → List ListNode
  | .terminate _ .head | .terminate _ (.cancel _) | .terminate _ (.join _)
  | .terminate _ (.freePtr _) | .terminate _ (.freeNode _) => memory.headNode
  | .terminate _ (.closeSocketd _) | .terminate _ (.freeIpAddress _)
  | .terminate _ (.freeFileName _) | .terminate _ (.removeHead _) => memory.headNode.tail
  | .terminate _ .destroyMutex | .terminate _ .closeServer | .terminate _ .exit
  | .exited _ => []

end ServerPoint

inductive ClosingTurn where
  | call (task : Nat) (event : LogCall Call × Reply)
  | act (task : Nat)
  | main

namespace Closing

def start (server : LoggingServer) (connections : Connections) (mutexInitialized : Bool)
    (reason : Int) : Closing where
  threads := ⟨server, []⟩
  point := .terminate reason .head
  memory := { headNode := connections.nodes, mutexInitialized }

abbrev ThreadStep : Cancellable Mutex LoggingThread →
    Cancellable.Turn (LogCall Call × Reply) → Cancellable Mutex LoggingThread → Prop :=
  Cancellable.Step loggingThread (LogAnswers WorkingMutex) IsCancellationPoint

/-- The threads run on while `terminate` does; a `pthread_join` returns when its thread has
ended. -/
inductive Step : Closing → ClosingTurn → Closing → Prop where
  | call {closing : Closing} {task : Nat} {event : LogCall Call × Reply}
      {threads : Cancellable Mutex LoggingThread} :
      ThreadStep closing.threads (.call task event) threads →
      Step closing (.call task event) { closing with threads }
  | act {closing : Closing} {task : Nat} {threads : Cancellable Mutex LoggingThread} :
      ThreadStep closing.threads (.act task) threads →
      Step closing (.act task) { closing with threads }
  | main {closing : Closing} {point : ServerPoint} {memory : ServerMemory} :
      shutdown.step closing.point closing.memory = some (point, memory) →
      (∀ task, closing.point.awaited = some task → closing.threads.threads task = none) →
      Step closing .main
        ⟨⟨closing.threads.toShared, closing.point.requested.toList ++ closing.threads.cancelled⟩,
          point, memory⟩

def unjoined (closing : Closing) : List ListNode := closing.point.unjoined closing.memory

/-- The mutex belongs to a thread that has ended with it or will, and a thread that is to be
joined waits for it. -/
structure Deadlocked (closing : Closing) : Prop where
  owner : ∃ task, closing.threads.env.owner = some task ∧
    closing.threads.Doomed LoggingThread.Trapped task
  waits : ∃ node ∈ closing.unjoined, ∃ buffer,
    closing.threads.threads node.ptr.threadId = some (.waiting (.lock buffer))

def Can (closing : Closing) (goal : Closing → Prop) : Prop :=
  ∃ labels closing', Run Step closing labels closing' ∧ goal closing'

def Exited (closing : Closing) : Prop := ∃ status, closing.point = .exited status

structure Valid (connections : Connections) (closing : Closing) : Prop where
  exclusive : Exclusive id LoggingThread.InSection closing.threads.toShared
  owned : Cancellable.Owned id LoggingThread.InSection closing.threads.toShared
  sound : Shared.Each LoggingThread.Sound closing.threads.toShared
  accounted : Accounted connections (fun _ _ => True) closing.point closing.memory
  requested : ∀ task, closing.point.awaited = some task → task ∈ closing.threads.cancelled
  ended : ∀ task ∈ closing.threads.cancelled, closing.point.awaited ≠ some task →
    closing.threads.threads task = none

section Steps

variable {connections : Connections} {closing closing' : Closing} {turn : ClosingTurn}
  {labels : List ClosingTurn} {point point' : ServerPoint} {memory memory' : ServerMemory}
  {node : ListNode}

theorem unjoined_step (accounted : Accounted connections (fun _ _ => True) point memory)
    (stepped : shutdown.step point memory = some (point', memory'))
    (membership : node ∈ point.unjoined memory) :
    node ∈ point'.unjoined memory' ∨ point.awaited = some node.ptr.threadId := by
  obtain ⟨reason, current, rfl, result⟩ := terminateStep_of_step stepped
  obtain ⟨rfl, rfl⟩ := Prod.mk.inj result
  cases current with
  | head =>
      cases list : memory.headNode with
      | nil =>
          rw [ServerPoint.unjoined, list] at membership
          cases membership
      | cons first rest =>
          exact .inl membership
  | join first =>
      obtain ⟨rest, list⟩ := accounted.linked first rfl
      rw [ServerPoint.unjoined, list] at membership
      rcases List.mem_cons.mp membership with rfl | later
      · exact .inr rfl
      · left
        simp only [ServerPoint.unjoined, ServerMemory.headNode_call, list]
        exact later
  | closeSocketd first =>
      left
      by_cases isOpen : first.ptr.socketd ≠ 0
      · simp only [if_pos isOpen]
        exact membership
      · simp only [if_neg isOpen]
        exact membership
  | destroyMutex | closeServer | exit => cases membership
  | cancel _ | freeIpAddress _ | freeFileName _ | removeHead _ | freePtr _ | freeNode _ =>
      exact .inl membership

theorem unjoined_of_step (accounted : Accounted connections (fun _ _ => True) point memory)
    (stepped : shutdown.step point memory = some (point', memory'))
    (membership : node ∈ point'.unjoined memory') : node ∈ point.unjoined memory := by
  obtain ⟨reason, current, rfl, result⟩ := terminateStep_of_step stepped
  obtain ⟨rfl, rfl⟩ := Prod.mk.inj result
  cases current with
  | head =>
      cases list : memory.headNode with
      | nil =>
          simp only [list] at membership
          cases membership
      | cons first rest =>
          simp only [list] at membership
          exact membership
  | join first =>
      exact List.mem_of_mem_tail membership
  | closeSocketd first =>
      by_cases isOpen : first.ptr.socketd ≠ 0
      · simp only [if_pos isOpen] at membership
        exact membership
      · simp only [if_neg isOpen] at membership
        exact membership
  | destroyMutex | closeServer | exit => cases membership
  | cancel _ | freeIpAddress _ | freeFileName _ | removeHead _ | freePtr _ | freeNode _ =>
      exact membership

theorem awaited_of_step (stepped : shutdown.step point memory = some (point', memory')) :
    point'.awaited = point.requested := by
  obtain ⟨reason, current, rfl, result⟩ := terminateStep_of_step stepped
  obtain ⟨rfl, rfl⟩ := Prod.mk.inj result
  cases current with
  | head => cases list : memory.headNode <;> rfl
  | closeSocketd first =>
      by_cases isOpen : first.ptr.socketd ≠ 0
      · simp only [if_pos isOpen]
        rfl
      · simp only [if_neg isOpen]
        rfl
  | _ => rfl

theorem start_valid {server : LoggingServer}
    (faithful : Faithful id LoggingThread.InSection server)
    (sound : Shared.Each LoggingThread.Sound server) (connections : Connections)
    (mutexInitialized : Bool) (reason : Int) : (start server connections mutexInitialized reason).Valid connections where
  exclusive := faithful.exclusive
  owned task owner state running := by
    obtain ⟨state', running', inside⟩ := (faithful task).mp owner
    obtain rfl := Option.some.inj (running.symm.trans running')
    exact inside
  sound := sound
  accounted := .initial connections mutexInitialized reason none fun _ => trivial
  requested _ awaited := by cases awaited
  ended _ membership := by cases membership

theorem Valid.thread {threads : Cancellable Mutex LoggingThread}
    {turn : Cancellable.Turn (LogCall Call × Reply)}
    (valid : closing.Valid connections) (taken : ThreadStep closing.threads turn threads)
    (same : threads.cancelled = closing.threads.cancelled)
    (ended : ∀ task, closing.threads.threads task = none → threads.threads task = none) :
    Valid connections { closing with threads } where
  exclusive := Cancellable.exclusive_step LoggingThread.guards valid.exclusive taken
  owned := valid.owned.step valid.exclusive valid.sound LoggingThread.guards LoggingThread.returns
    (fun _ _ _ _ => LoggingThread.releases_of_workingMutex) taken
  sound := Cancellable.each_step valid.sound LoggingThread.returns
    (fun _ _ _ _ => LoggingThread.releases_of_workingMutex) taken
  accounted := valid.accounted
  requested task awaited := by
    rw [same]
    exact valid.requested task awaited
  ended task membership apart := by
    rw [same] at membership
    exact ended task (valid.ended task membership apart)

theorem Valid.step (valid : closing.Valid connections) (taken : Step closing turn closing') :
    closing'.Valid connections := by
  cases taken with
  | @call task event threads taken =>
      refine valid.thread taken (by cases taken; rfl) fun other ended => ?_
      cases taken with
      | call _ taken =>
          obtain ⟨state, _, _, running, _, _, rfl⟩ := taken.cases
          have different : other ≠ task := by
            rintro rfl
            cases ended.symm.trans running
          simp only [Function.update_of_ne different]
          exact ended
  | @act task threads taken =>
      refine valid.thread taken (by cases taken; rfl) fun other ended => ?_
      cases taken with
      | act _ running _ =>
          have different : other ≠ task := by
            rintro rfl
            cases ended.symm.trans running
          simp only [Function.update_of_ne different]
          exact ended
  | main stepped joined =>
      have awaits := awaited_of_step stepped
      refine ⟨valid.exclusive, valid.owned, valid.sound,
        valid.accounted.kept (fun _ _ _ _ => trivial) stepped, ?_, ?_⟩
      · intro task awaited
        rw [awaits] at awaited
        exact List.mem_append_left _ (Option.mem_toList.mpr awaited)
      · intro task membership apart
        rcases List.mem_append.mp membership with isNew | isOld
        · exact absurd (awaits.trans (Option.mem_toList.mp isNew)) apart
        · by_cases awaited : closing.point.awaited = some task
          · exact joined task awaited
          · exact valid.ended task isOld awaited

theorem Valid.run (valid : closing.Valid connections) (run : Run Step closing labels closing') :
    closing'.Valid connections :=
  run.invariant (fun _ _ _ valid taken => Valid.step valid taken) valid

/-! ## It does not end -/

theorem Deadlocked.step (deadlocked : closing.Deadlocked) (valid : closing.Valid connections)
    (taken : Step closing turn closing') : closing'.Deadlocked := by
  obtain ⟨owner, node, membership, buffer, waiting⟩ := deadlocked
  have blocked : Cancellable.Blocked loggingThread (LogAnswers WorkingMutex)
      IsCancellationPoint id LoggingThread.Trapped closing.threads node.ptr.threadId
      (.waiting (.lock buffer)) :=
    ⟨owner, waiting, LoggingThread.waits_lock buffer, not_false⟩
  have threadStep {turn : Cancellable.Turn (LogCall Call × Reply)}
      {threads : Cancellable Mutex LoggingThread}
      (taken : ThreadStep closing.threads turn threads) :
      Deadlocked { closing with threads } := by
    have blocked' := blocked.step LoggingThread.guards LoggingThread.traps valid.exclusive taken
    exact ⟨blocked'.owner, node, membership, buffer, blocked'.running⟩
  cases taken with
  | call taken => exact threadStep taken
  | act taken => exact threadStep taken
  | main stepped joined =>
      have notJoined : closing.point.awaited ≠ some node.ptr.threadId := by
        intro awaited
        cases waiting.symm.trans (joined _ awaited)
      refine ⟨?_, node, ?_, buffer, waiting⟩
      · obtain ⟨task, owned, doomed⟩ := owner
        refine ⟨task, owned, fun state running => ?_⟩
        obtain ⟨isCancelled, trapped⟩ := doomed state running
        exact ⟨List.mem_append_right _ isCancelled, trapped⟩
      · exact (unjoined_step valid.accounted stepped membership).resolve_right notJoined

theorem Deadlocked.run (deadlocked : closing.Deadlocked) (valid : closing.Valid connections)
    (run : Run Step closing labels closing') : closing'.Deadlocked := by
  have both := run.invariant
    (fun _ _ _ (both : Deadlocked _ ∧ Valid connections _) taken =>
      ⟨both.1.step both.2 taken, both.2.step taken⟩) ⟨deadlocked, valid⟩
  exact both.1

/-- From a deadlock the process does not exit. -/
theorem Deadlocked.not_exits (deadlocked : closing.Deadlocked) (valid : closing.Valid connections) :
    ¬ closing.Can Exited := by
  rintro ⟨labels, closing', run, status, exited⟩
  obtain ⟨_, node, membership, _⟩ := deadlocked.run valid run
  rw [unjoined, exited] at membership
  cases membership

end Steps

/-! ## It can end otherwise -/

def setThread (closing : Closing) (mutex : Mutex) (task : Nat) (state? : Option LoggingThread) :
    Closing :=
  { closing with
    threads := ⟨⟨mutex, Function.update closing.threads.threads task state?⟩,
      closing.threads.cancelled⟩ }

section Threads

variable {closing closing' : Closing} {turn : ClosingTurn} {goal goal' : Closing → Prop}
  {mutex mutex' : Mutex} {task : Nat} {state : LoggingThread} {thread : Thread}
  {flow : Flow Thread ThreadEnd} {buffer : SocketBuffer} {filed : Int}
  {connections : Connections}

@[simp]
theorem threads_setThread_self (closing : Closing) (mutex : Mutex) (task : Nat)
    (state? : Option LoggingThread) :
    (closing.setThread mutex task state?).threads.threads task = state? :=
  Function.update_self _ _ _

theorem threads_setThread_of_ne {other : Nat} (different : other ≠ task) (closing : Closing)
    (mutex : Mutex) (state? : Option LoggingThread) :
    (closing.setThread mutex task state?).threads.threads other =
      closing.threads.threads other := Function.update_of_ne different _ _

@[simp]
theorem setThread_setThread (closing : Closing) (mutex mutex' : Mutex) (task : Nat)
    (state? state'? : Option LoggingThread) :
    (closing.setThread mutex task state?).setThread mutex' task state'? =
      closing.setThread mutex' task state'? := by
  simp only [setThread, Function.update_idem]

theorem Can.here (reached : goal closing) : closing.Can goal := ⟨[], closing, .nil closing, reached⟩

theorem Can.step (taken : Step closing turn closing') (later : closing'.Can goal) :
    closing.Can goal := by
  obtain ⟨labels, last, run, reached⟩ := later
  exact ⟨turn :: labels, last, .cons taken run, reached⟩

theorem Can.bind (valid : closing.Valid connections) (first : closing.Can goal)
    (later : ∀ closing', closing'.Valid connections → goal closing' → closing'.Can goal') :
    closing.Can goal' := by
  obtain ⟨labels, middle, run, reached⟩ := first
  obtain ⟨labels', last, run', reached'⟩ := later middle (valid.run run) reached
  exact ⟨labels ++ labels', last, run.append run', reached'⟩

theorem Can.call (reply : Reply) (running : closing.threads.threads task = some state)
    (allowed : task ∈ closing.threads.cancelled →
      ¬ IsCancellationPoint (loggingThread.call state))
    (answered : LogAnswers WorkingMutex task (loggingThread.call state, reply)
      closing.threads.env mutex)
    (later : (closing.setThread mutex task
      (Shared.after (loggingThread.resume state reply))).Can goal) : closing.Can goal :=
  Can.step (.call (.call allowed (Shared.Step.taken running rfl answered))) later

theorem Can.act (running : closing.threads.threads task = some state)
    (requested : task ∈ closing.threads.cancelled)
    (atPoint : IsCancellationPoint (loggingThread.call state))
    (later : (closing.setThread closing.threads.env task none).Can goal) : closing.Can goal :=
  Can.step (.act (.act requested running atPoint)) later

theorem can_send (kept : task ∉ closing.threads.cancelled) (count : Nat)
    (later : (closing.setThread mutex task (Shared.after (Logging.proceed flow))).Can goal) :
    (closing.setThread mutex task (Shared.after (Logging.send count flow))).Can goal := by
  induction count with
  | zero => exact later
  | succ more inductionHypothesis =>
      have writing := threads_setThread_self closing mutex task (some (.messages more flow))
      apply Can.call { value := 0 } writing (fun requested => absurd requested kept) rfl
      rw [setThread_setThread]
      exact inductionHypothesis

theorem Can.next (reply : Reply) (running : closing.threads.threads task = some (.waiting thread))
    (kept : task ∉ closing.threads.cancelled)
    (answered : WorkingMutex task (threadRunFunction.call thread, reply) closing.threads.env mutex)
    (later : (closing.setThread mutex task
      (Shared.after (Logging.proceed (threadRunFunction.resume thread reply)))).Can goal) :
    closing.Can goal :=
  Can.call reply running (fun requested => absurd requested kept) answered (can_send kept _ later)

/-! ### Leaving the section -/

def unlocked (mutex : Mutex) : Mutex := { mutex with owner := none }

/-- A thread that is cancelled here can end without the mutex. -/
def Idle : LoggingThread → Prop
  | .messages _ _ | .waiting (.readStr _) | .waiting (.free _) | .waiting (.freeBreak _) => True
  | _ => False

def LeavesTo (closing : Closing) (task : Nat) (goal : Closing → Prop) : Prop :=
  ∀ state?, (∀ state, state? = some state → Idle state) →
    (closing.setThread (unlocked closing.threads.env) task state?).Can goal

theorem LeavesTo.setThread (leaves : closing.LeavesTo task goal) (state? : Option LoggingThread) :
    (closing.setThread closing.threads.env task state?).LeavesTo task goal := by
  intro state'? idle
  rw [setThread_setThread]
  exact leaves state'? idle

def LeavesMutex : Call → Prop
  | .pthreadMutexLock | .pthreadMutexUnlock => False
  | _ => True

theorem workingMutex_same {call : Call} {reply : Reply} (leaves : LeavesMutex call)
    (replies : ReceiveReplies (call, reply)) : WorkingMutex task (call, reply) mutex mutex := by
  cases call with
  | pthreadMutexLock | pthreadMutexUnlock => exact leaves.elim
  | _ => exact ⟨rfl, ⟨replies, trivial⟩, fun locks => by cases locks⟩

theorem workingMutex_unlock (owner : mutex.owner = some task) :
    WorkingMutex task (.pthreadMutexUnlock, { value := 0 }) mutex (unlocked mutex) := by
  refine ⟨?_, ⟨trivial, rfl⟩, fun locks => by cases locks⟩
  simp only [MutexAnswers, if_true, Mutex.unlock, if_pos owner, unlocked]

theorem can_unlockBreak (running : closing.threads.threads task = some (.waiting .unlockBreak))
    (owner : closing.threads.env.owner = some task) (leaves : closing.LeavesTo task goal) :
    closing.Can goal :=
  .call { value := 0 } running (fun _ => id) (workingMutex_unlock owner)
    (leaves none fun _ ended => by cases ended)

theorem can_freeUnlockBreak
    (running : closing.threads.threads task = some (.waiting (.freeUnlockBreak buffer)))
    (owner : closing.threads.env.owner = some task) (leaves : closing.LeavesTo task goal) :
    closing.Can goal := by
  apply Can.call { value := 0 } running (fun _ => id)
    (workingMutex_same trivial trivial)
  exact can_unlockBreak (threads_setThread_self _ _ _ _) owner (leaves.setThread _)

theorem can_failing
    (failing : flow = Thread.freeBuffer buffer (.freeUnlockBreak buffer) (.next .unlockBreak))
    (owner : closing.threads.env.owner = some task) (leaves : closing.LeavesTo task goal) :
    (closing.setThread closing.threads.env task
      (Shared.after (Logging.proceed flow))).Can goal := by
  rw [failing]
  by_cases allocated : buffer.bufPtr ≠ 0
  · rw [Thread.freeBuffer, if_pos allocated]
    exact can_freeUnlockBreak (threads_setThread_self _ _ _ _) owner (leaves.setThread _)
  · rw [Thread.freeBuffer, if_neg allocated]
    exact can_unlockBreak (threads_setThread_self _ _ _ _) owner (leaves.setThread _)

theorem can_dumpFile {transfer : DumpFile}
    (running : closing.threads.threads task = some (.waiting (.dumpFile buffer filed transfer)))
    (owner : closing.threads.env.owner = some task) (kept : task ∉ closing.threads.cancelled)
    (leaves : closing.LeavesTo task goal) : closing.Can goal := by
  cases transfer with
  | read buf =>
      apply Can.next { value := -1, errno := 5 } running kept (workingMutex_same trivial trivial)
      exact can_unlockBreak (threads_setThread_self _ _ _ _) owner (leaves.setThread _)
  | write buf writePtr currentChunkSize =>
      apply Can.next { value := -1, errno := 5 } running kept (workingMutex_same trivial trivial)
      exact can_unlockBreak (threads_setThread_self _ _ _ _) owner (leaves.setThread _)

/-- A thread that is not cancelled can give the mutex back, by a call that fails. -/
theorem can_leave_trapped (running : closing.threads.threads task = some (.waiting thread))
    (trapped : thread.Trapped) (owner : closing.threads.env.owner = some task)
    (kept : task ∉ closing.threads.cancelled) (leaves : closing.LeavesTo task goal) :
    closing.Can goal := by
  cases thread with
  | openFile buffer =>
      apply Can.next { value := -1 } running kept (workingMutex_same trivial trivial)
      exact can_failing rfl owner leaves
  | ioctl buffer filed seekto =>
      apply Can.next { value := 1 } running kept (workingMutex_same trivial trivial)
      exact can_failing rfl owner leaves
  | dumpBuffer buffer filed left =>
      apply Can.next { value := 0, errno := 5 } running kept (workingMutex_same trivial trivial)
      cases left with
      | nil =>
          exact can_dumpFile (threads_setThread_self _ _ _ _) owner kept (leaves.setThread _)
      | cons byte left => exact can_failing rfl owner leaves
  | dumpFile buffer filed transfer => exact can_dumpFile running owner kept leaves
  | close buffer filed =>
      apply Can.next { value := -1 } running kept (workingMutex_same trivial trivial)
      exact can_failing rfl owner leaves
  | readStr _ | lock _ | unlock _ | free _ | freeUnlockBreak _ | unlockBreak | freeBreak _ =>
      exact trapped.elim

theorem can_leave_waiting (running : closing.threads.threads task = some (.waiting thread))
    (inside : thread.InSection) (owner : closing.threads.env.owner = some task)
    (allowed : task ∈ closing.threads.cancelled → ¬ thread.Trapped)
    (leaves : closing.LeavesTo task goal) : closing.Can goal := by
  cases thread with
  | unlock buffer =>
      apply Can.call { value := 0 } running (fun _ => id) (workingMutex_unlock owner)
      apply leaves
      intro state' after
      by_cases allocated : buffer.bufPtr ≠ 0
      · simp only [loggingThread, Process.withMessages, threadRunFunction, Thread.freeBuffer,
          if_pos allocated] at after
        cases after
        trivial
      · simp only [loggingThread, Process.withMessages, threadRunFunction, Thread.freeBuffer,
          if_neg allocated] at after
        cases after
        trivial
  | freeUnlockBreak buffer => exact can_freeUnlockBreak running owner leaves
  | unlockBreak => exact can_unlockBreak running owner leaves
  | openFile _ | ioctl _ _ _ | dumpBuffer _ _ _ | dumpFile _ _ _ | close _ _ =>
      exact can_leave_trapped running trivial owner (fun requested => allowed requested trivial)
        leaves
  | readStr _ | lock _ | free _ | freeBreak _ => exact inside.elim

theorem can_leave (running : closing.threads.threads task = some state)
    (inside : LoggingThread.InSection state) (owner : closing.threads.env.owner = some task)
    (allowed : task ∈ closing.threads.cancelled → ¬ LoggingThread.Trapped state)
    (leaves : closing.LeavesTo task goal) : closing.Can goal := by
  cases state with
  | waiting thread => exact can_leave_waiting running inside owner allowed leaves
  | messages more flow =>
      have kept : task ∉ closing.threads.cancelled := fun requested => allowed requested inside
      cases flow with
      | next thread =>
          apply Can.call { value := 0 } running (fun requested => absurd requested kept) rfl
          apply can_send kept more
          exact can_leave_waiting (threads_setThread_self _ _ _ _) inside owner
            (fun requested => absurd requested kept) (leaves.setThread _)
      | leave ended => exact inside.elim

theorem workingMutex_lock (free : mutex.owner = none) :
    WorkingMutex task (.pthreadMutexLock, { value := 0 }) mutex
      { mutex with owner := some task } := by
  refine ⟨?_, ⟨trivial, trivial⟩, fun _ => rfl⟩
  simp only [MutexAnswers, if_true]
  exact Mutex.lock_eq_some_iff.mpr ⟨free, rfl⟩

theorem can_lock (running : closing.threads.threads task = some (.waiting (.lock buffer)))
    (free : closing.threads.env.owner = none) (kept : task ∉ closing.threads.cancelled)
    (leaves : closing.LeavesTo task goal) : closing.Can goal := by
  apply Can.next { value := 0 } running kept (workingMutex_lock free)
  have opening := threads_setThread_self closing { closing.threads.env with owner := some task }
    task (some (.waiting (.openFile buffer)))
  apply can_leave_trapped opening trivial rfl kept
  intro state? idle
  rw [setThread_setThread]
  exact leaves state? idle

theorem can_lock_of_cancelled
    (running : closing.threads.threads task = some (.waiting (.lock buffer)))
    (free : closing.threads.env.owner = none) (requested : task ∈ closing.threads.cancelled)
    (later :
      (closing.setThread { closing.threads.env with owner := some task } task none).Can goal) :
    closing.Can goal := by
  apply Can.call { value := 0 } running (fun _ => id) (workingMutex_lock free)
  have opening := threads_setThread_self closing { closing.threads.env with owner := some task }
    task (some (.waiting (.openFile buffer)))
  apply Can.act opening requested trivial
  rw [setThread_setThread]
  exact later

theorem can_end_trapped (running : closing.threads.threads task = some state)
    (trapped : LoggingThread.Trapped state) (requested : task ∈ closing.threads.cancelled)
    (later : (closing.setThread closing.threads.env task none).Can goal) : closing.Can goal := by
  cases state with
  | messages more flow => exact .act running requested trivial later
  | waiting thread =>
      cases thread with
      | ioctl buffer filed seekto =>
          -- the dump of the file begins with a `read`
          apply Can.call { value := 0 } running (fun _ => id)
            (workingMutex_same trivial trivial)
          have reading := threads_setThread_self closing closing.threads.env task
            (some (.waiting (.dumpFile buffer filed DumpFile.start)))
          apply Can.act reading requested trivial
          rw [setThread_setThread]
          exact later
      | dumpFile buffer filed transfer =>
          exact .act running requested (by cases transfer <;> trivial) later
      | openFile _ | dumpBuffer _ _ _ | close _ _ => exact .act running requested trivial later
      | readStr _ | lock _ | unlock _ | free _ | freeUnlockBreak _ | unlockBreak | freeBreak _ =>
          exact trapped.elim

theorem can_end (running : closing.threads.threads task = some state) (idle : Idle state)
    (sound : LoggingThread.Sound state) (requested : task ∈ closing.threads.cancelled)
    (later : (closing.setThread closing.threads.env task none).Can goal) : closing.Can goal := by
  have receiving {closing : Closing} {buffer : SocketBuffer} {allocatedSpace : Nat}
      (running : closing.threads.threads task =
        some (.waiting (.readStr (.resize buffer allocatedSpace))))
      (requested : task ∈ closing.threads.cancelled)
      (later : (closing.setThread closing.threads.env task none).Can goal) :
      closing.Can goal := by
    apply Can.call { value := 1 } running (fun _ => id)
      (workingMutex_same trivial
        fun nothing => absurd nothing Int.one_ne_zero)
    have reading := threads_setThread_self closing closing.threads.env task
      (some (.waiting (.readStr (.read { buffer with bufPtr := 1 } (allocatedSpace + chunkSize)))))
    apply Can.act reading requested trivial
    rw [setThread_setThread]
    exact later
  cases state with
  | messages more flow => exact .act running requested trivial later
  | waiting thread =>
      cases thread with
      | readStr state =>
          cases state with
          | resize buffer allocatedSpace => exact receiving running requested later
          | read buffer allocatedSpace => exact .act running requested trivial later
          | release buffer retVal =>
              apply Can.call { value := 0 } running (fun _ => id)
                (workingMutex_same trivial trivial)
              simp only [loggingThread, Process.withMessages, threadRunFunction,
                readStrFromSocket, if_pos sound.2]
              exact later
      | free buffer =>
          apply Can.call { value := 0 } running (fun _ => id)
            (workingMutex_same trivial trivial)
          apply receiving (threads_setThread_self _ _ _ _) requested
          rw [setThread_setThread]
          exact later
      | freeBreak buffer =>
          exact .call { value := 0 } running (fun _ => id)
            (workingMutex_same trivial trivial) later
      | lock _ | openFile _ | ioctl _ _ _ | dumpBuffer _ _ _ | dumpFile _ _ _ | close _ _
      | unlock _ | freeUnlockBreak _ | unlockBreak => exact idle.elim

/-! ### Joining the threads -/

/-- Every thread that is to be joined can end when it is cancelled. -/
def Ready (closing : Closing) : Prop :=
  ∀ node ∈ closing.unjoined, ∀ state, closing.threads.threads node.ptr.threadId = some state →
    Idle state ∨ (node.ptr.threadId ∈ closing.threads.cancelled ∧
      LoggingThread.Trapped state)

theorem Valid.ends (valid : closing.Valid connections) (task : Nat) :
    (closing.setThread closing.threads.env task none).Valid connections where
  exclusive other state running := valid.exclusive other state
    (Cancellable.running_of_update_none running)
  owned other owner state running := valid.owned other owner state
    (Cancellable.running_of_update_none running)
  sound other state running := valid.sound other state (Cancellable.running_of_update_none running)
  accounted := valid.accounted
  requested := valid.requested
  ended other membership apart := by
    by_cases same : other = task
    · rw [same]
      exact threads_setThread_self _ _ _ _
    · rw [threads_setThread_of_ne same]
      exact valid.ended other membership apart

theorem Ready.ends (ready : closing.Ready) (task : Nat) :
    (closing.setThread closing.threads.env task none).Ready :=
  fun node membership state running =>
    ready node membership state (Cancellable.running_of_update_none running)

theorem Ready.step (ready : closing.Ready) (valid : closing.Valid connections) {point : ServerPoint}
    {memory : ServerMemory}
    (stepped : shutdown.step closing.point closing.memory = some (point, memory)) :
    Ready ⟨⟨closing.threads.toShared,
      closing.point.requested.toList ++ closing.threads.cancelled⟩, point, memory⟩ := by
  intro node membership state running
  have before := unjoined_of_step valid.accounted stepped membership
  rcases ready node before state running with idle | ⟨requested, trapped⟩
  · exact .inl idle
  · exact .inr ⟨List.mem_append_right _ requested, trapped⟩

theorem exists_unjoined_of_awaited (valid : closing.Valid connections)
    (awaited : closing.point.awaited = some task) :
    ∃ node ∈ closing.unjoined, node.ptr.threadId = task := by
  cases point : closing.point with
  | exited status =>
      rw [point] at awaited
      cases awaited
  | terminate reason current =>
      rw [point] at awaited
      cases current with
      | join node =>
          obtain ⟨rest, list⟩ := valid.accounted.linked node (by rw [point]; rfl)
          refine ⟨node, ?_, Option.some.inj awaited⟩
          rw [unjoined, point, ServerPoint.unjoined, list]
          exact List.mem_cons_self
      | _ => cases awaited

/-- The threads are cancelled and joined one after the other. -/
theorem can_exit_of_ready (valid : closing.Valid connections) (ready : closing.Ready) :
    closing.Can Exited := by
  generalize bound : closing.point.remaining closing.memory = steps
  induction steps using Nat.strongRecOn generalizing closing with
  | ind steps inductionHypothesis =>
      cases stepped : shutdown.step closing.point closing.memory with
      | none =>
          cases point : closing.point with
          | exited status => exact .here ⟨status, point⟩
          | terminate reason current =>
              rw [point] at stepped
              cases stepped
      | some reached =>
          obtain ⟨point, memory⟩ := reached
          have less : point.remaining memory < steps := by
            obtain ⟨reason, current, same, result⟩ := terminateStep_of_step stepped
            have accounted := valid.accounted
            rw [same] at accounted bound
            have lower := remaining_lt accounted
            rwa [result, bound] at lower
          by_cases awaits : ∃ task state, closing.point.awaited = some task ∧
              closing.threads.threads task = some state
          · obtain ⟨task, state, awaited, running⟩ := awaits
            have requested := valid.requested task awaited
            have ended : (closing.setThread closing.threads.env task none).Can Exited := by
              have joined : ∀ other, closing.point.awaited = some other →
                  (closing.setThread closing.threads.env task none).threads.threads other =
                    none := by
                intro other awaited'
                obtain rfl := Option.some.inj (awaited.symm.trans awaited')
                exact threads_setThread_self _ _ _ _
              have taken := @Step.main (closing.setThread closing.threads.env task none) point
                memory stepped joined
              exact .step taken (inductionHypothesis _ less ((valid.ends task).step taken)
                ((ready.ends task).step (valid.ends task) stepped) rfl)
            obtain ⟨node, membership, rfl⟩ := exists_unjoined_of_awaited valid awaited
            rcases ready node membership state running with idle | ⟨_, trapped⟩
            · exact can_end running idle (valid.sound _ state running) requested ended
            · exact can_end_trapped running trapped requested ended
          · have joined : ∀ task, closing.point.awaited = some task →
                closing.threads.threads task = none := by
              intro task awaited
              by_contra running
              obtain ⟨state, running⟩ := Option.ne_none_iff_exists'.mp running
              exact awaits ⟨task, state, awaited, running⟩
            have taken := Step.main stepped joined
            exact .step taken (inductionHypothesis _ less (valid.step taken)
              (ready.step valid stepped) rfl)

/-! ### Letting the waiting threads through -/

/-- The threads that are to be joined and do not wait can end if the owner of the mutex can only
do so. -/
theorem ready_of (valid : closing.Valid connections)
    (unneeded : ∀ node ∈ closing.unjoined, ∀ buffer,
      closing.threads.threads node.ptr.threadId ≠ some (.waiting (.lock buffer)))
    (doomed : ∀ task, closing.threads.env.owner = some task →
      closing.threads.Doomed LoggingThread.Trapped task) : closing.Ready := by
  intro node membership state running
  by_cases inside : LoggingThread.InSection state
  · exact .inr (doomed _ (valid.exclusive _ state running inside) state running)
  · left
    cases state with
    | messages more flow => trivial
    | waiting thread =>
        cases thread with
        | lock buffer => exact absurd running (unneeded node membership buffer)
        | readStr _ | free _ | freeBreak _ => trivial
        | _ => exact absurd trivial inside

/-- The mutex is free, and the threads of `tasks` do not wait for it unless they are
cancelled. -/
structure LetThrough (closing : Closing) (tasks : List Nat) (closing' : Closing) : Prop where
  free : closing'.threads.env.owner = none
  point : closing'.point = closing.point
  memory : closing'.memory = closing.memory
  cancelled : closing'.threads.cancelled = closing.threads.cancelled
  through : ∀ task ∈ tasks, task ∉ closing.threads.cancelled →
    ∀ buffer, closing'.threads.threads task ≠ some (.waiting (.lock buffer))
  others : ∀ task buffer, closing'.threads.threads task = some (.waiting (.lock buffer)) →
    closing.threads.threads task = some (.waiting (.lock buffer))

theorem can_letThrough_one (free : closing.threads.env.owner = none) (task : Nat) :
    closing.Can (closing.LetThrough [task]) := by
  by_cases waiting : task ∉ closing.threads.cancelled ∧
      ∃ buffer, closing.threads.threads task = some (.waiting (.lock buffer))
  · obtain ⟨kept, buffer, running⟩ := waiting
    apply can_lock running free kept
    intro state? idle
    apply Can.here
    refine ⟨rfl, rfl, rfl, rfl, ?_, ?_⟩
    · intro other membership _ buffer' running'
      obtain rfl := List.mem_singleton.mp membership
      rw [threads_setThread_self] at running'
      exact idle _ running'
    · intro other buffer' running'
      by_cases same : other = task
      · subst same
        rw [threads_setThread_self] at running'
        exact (idle _ running').elim
      · rwa [threads_setThread_of_ne same] at running'
  · apply Can.here
    refine ⟨free, rfl, rfl, rfl, ?_, fun _ _ => id⟩
    intro other membership kept buffer running
    obtain rfl := List.mem_singleton.mp membership
    exact waiting ⟨kept, buffer, running⟩

theorem can_letThrough (valid : closing.Valid connections)
    (free : closing.threads.env.owner = none) (tasks : List Nat) :
    closing.Can (closing.LetThrough tasks) := by
  induction tasks generalizing closing with
  | nil =>
      exact .here ⟨free, rfl, rfl, rfl, fun _ membership => absurd membership List.not_mem_nil,
        fun _ _ => id⟩
  | cons task tasks inductionHypothesis =>
      refine (can_letThrough_one free task).bind valid fun middle valid' first => ?_
      refine (inductionHypothesis valid' first.free).bind valid' fun last _ second => ?_
      apply Can.here
      refine ⟨second.free, second.point.trans first.point, second.memory.trans first.memory,
        second.cancelled.trans first.cancelled, ?_, ?_⟩
      · intro other membership kept buffer running
        rcases List.mem_cons.mp membership with rfl | later
        · exact first.through other (List.mem_singleton_self _) kept buffer
            (second.others other buffer running)
        · exact second.through other later (first.cancelled ▸ kept) buffer running
      · exact fun other buffer running =>
          first.others other buffer (second.others other buffer running)

/-- A cancelled thread that has not ended is the one that is waited for. -/
theorem Valid.awaited_of_running (valid : closing.Valid connections)
    (requested : task ∈ closing.threads.cancelled)
    (running : closing.threads.threads task = some state) :
    closing.point.awaited = some task := by
  by_contra apart
  cases (valid.ended task requested apart).symm.trans running

theorem can_exit_of_free (valid : closing.Valid connections)
    (free : closing.threads.env.owner = none) : closing.Can Exited := by
  refine (can_letThrough valid free (closing.unjoined.map fun node => node.ptr.threadId)).bind valid
    fun middle valid' through => ?_
  have sameUnjoined : middle.unjoined = closing.unjoined := by
    rw [unjoined, unjoined, through.point, through.memory]
  have cancelledOnly : ∀ node ∈ middle.unjoined, ∀ buffer,
      middle.threads.threads node.ptr.threadId = some (.waiting (.lock buffer)) →
        node.ptr.threadId ∈ middle.threads.cancelled := by
    intro node membership buffer running
    rw [sameUnjoined] at membership
    by_contra kept
    exact through.through _ (List.mem_map_of_mem membership) (through.cancelled ▸ kept) buffer
      running
  by_cases waiting : ∃ node ∈ middle.unjoined, ∃ buffer,
      middle.threads.threads node.ptr.threadId = some (.waiting (.lock buffer))
  · obtain ⟨node, membership, buffer, running⟩ := waiting
    have requested := cancelledOnly node membership buffer running
    have dies : middle.Can fun last => last = middle.setThread
        { middle.threads.env with owner := some node.ptr.threadId } node.ptr.threadId none :=
      can_lock_of_cancelled running through.free requested (.here rfl)
    refine dies.bind valid' fun last valid'' reached => ?_
    subst reached
    apply can_exit_of_ready valid'' (ready_of valid'' ?_ ?_)
    · intro other membership' buffer' running'
      by_cases same : other.ptr.threadId = node.ptr.threadId
      · rw [same, threads_setThread_self] at running'
        cases running'
      · rw [threads_setThread_of_ne same] at running'
        have awaited := valid'.awaited_of_running requested running
        have requested' := cancelledOnly other membership' buffer' running'
        rw [valid'.awaited_of_running requested' running', Option.some.injEq] at awaited
        exact same awaited
    · intro task owner state running'
      obtain rfl := Option.some.inj owner
      rw [threads_setThread_self] at running'
      cases running'
  · apply can_exit_of_ready valid' (ready_of valid' ?_ ?_)
    · intro node membership buffer running
      exact waiting ⟨node, membership, buffer, running⟩
    · intro task owner
      rw [through.free] at owner
      cases owner

theorem can_exit_of_not_deadlocked (valid : closing.Valid connections)
    (calm : ¬ closing.Deadlocked) : closing.Can Exited := by
  cases owner : closing.threads.env.owner with
  | none => exact can_exit_of_free valid owner
  | some task =>
      by_cases doomed : closing.threads.Doomed LoggingThread.Trapped task
      · apply can_exit_of_ready valid (ready_of valid ?_ ?_)
        · intro node membership buffer running
          exact calm ⟨⟨task, owner, doomed⟩, node, membership, buffer, running⟩
        · intro other owner'
          obtain rfl := Option.some.inj (owner.symm.trans owner')
          exact doomed
      · obtain ⟨state, running, allowed⟩ : ∃ state, closing.threads.threads task = some state ∧
            (task ∈ closing.threads.cancelled → ¬ LoggingThread.Trapped state) := by
          by_contra never
          apply doomed
          intro state running
          by_contra undoomed
          exact never ⟨state, running, fun requested trapped => undoomed ⟨requested, trapped⟩⟩
        have freed : closing.Can fun last => last.threads.env.owner = none :=
          can_leave running (valid.owned task owner state running) owner allowed
            fun _ _ => .here rfl
        exact freed.bind valid fun last valid' free => can_exit_of_free valid' free

end Threads

variable {connections : Connections} {trace : List (Nat × (LogCall Call × Reply))}
  {server : LoggingServer} {labels : List ClosingTurn} {closing : Closing}
  {mutexInitialized : Bool} {reason : Int}

/-- However the threads stand when `terminate` is called, and wherever they and `terminate` are
by now, the process can still exit exactly if it is not so that the owner of the mutex has
ended, or is cancelled and comes to a cancellation point before its unlock, while a thread
that is still to be joined waits for the mutex. -/
theorem exits_iff (run : Run LoggingServer.Step LoggingServer.init trace server)
    (regular : ∀ entry ∈ trace, OfCalls Releases entry.2)
    (run' : Run Step (start server connections mutexInitialized reason) labels closing) :
    closing.Can Exited ↔ ¬ closing.Deadlocked := by
  obtain ⟨faithful, sound⟩ := LoggingServer.faithful_run run regular
  have valid := (start_valid faithful sound connections mutexInitialized reason).run run'
  exact ⟨fun exits deadlocked => deadlocked.not_exits valid exits,
    can_exit_of_not_deadlocked valid⟩

def waitingCalls : List (Nat × (LogCall Call × Reply)) :=
  [(0, (.message, { value := 0 })),
    (1, (.message, { value := 0 })),
    (0, (.call (.realloc 0 512), { value := 1 })),
    (1, (.call (.realloc 0 512), { value := 2 })),
    (0, (.call (.readSocket 512), { value := 2, bytes := [97, newline] })),
    (1, (.call (.readSocket 512), { value := 2, bytes := [98, newline] })),
    (1, (.call .pthreadMutexLock, { value := 0 }))]

def twoConnections : Connections where
  nodes := [⟨14, ⟨11, 1, 5, some 12, some 13⟩⟩, ⟨24, ⟨21, 0, 4, some 22, some 23⟩⟩]
  accepted := by decide
  separate := by decide

/-- The thread of the second client is cancelled first, and ends with the mutex. -/
theorem exits_iff_waiting : ∃ server labels closing,
    Run LoggingServer.Step LoggingServer.init waitingCalls server ∧
      Run Step (start server twoConnections true exitSuccess) labels closing ∧
      ¬ closing.Can Exited := by
  have run : ∃ server : LoggingServer,
      Run LoggingServer.Step LoggingServer.init waitingCalls server ∧
      server.env.owner = some 1 ∧
      server.threads 1 = some (.waiting (.openFile ⟨2, [98, newline]⟩)) ∧
      server.threads 0 = some (.waiting (.lock ⟨1, [97, newline]⟩)) :=
    ⟨_, .cons (Shared.Step.taken rfl rfl rfl)
      (.cons (Shared.Step.taken rfl rfl rfl)
      (.cons (Shared.Step.taken rfl rfl rfl)
      (.cons (Shared.Step.taken rfl rfl rfl)
      (.cons (Shared.Step.taken rfl rfl rfl)
      (.cons (Shared.Step.taken rfl rfl rfl)
      (.cons (Shared.Step.taken rfl rfl rfl) (.nil _))))))), rfl, rfl, rfl⟩
  obtain ⟨server, run, owner, opening, waiting⟩ := run
  have regular : ∀ entry ∈ waitingCalls, OfCalls Releases entry.2 := by
    simp [waitingCalls, OfCalls, Releases, ReceiveReplies]
  have run' : ∃ labels closing,
      Run Step (start server twoConnections true exitSuccess) labels closing ∧
        closing.Deadlocked := by
    refine ⟨[.main, .main, .act 1], _, .cons (.main rfl fun _ awaited => by cases awaited)
      (.cons (.main rfl fun _ awaited => by cases awaited)
      (.cons (.act (.act List.mem_cons_self opening trivial)) (.nil _))), ?_⟩
    refine ⟨⟨1, owner, fun state running => ?_⟩, _, List.mem_cons_of_mem _ List.mem_cons_self, _,
      waiting⟩
    cases running
  obtain ⟨labels, closing, run', deadlocked⟩ := run'
  exact ⟨server, labels, closing, run, run', fun exits =>
    (exits_iff run regular run').mp exits deadlocked⟩

end Closing

end Aesd
