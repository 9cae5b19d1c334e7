import Aesd.Lib.Cancellation
import Aesd.Lib.Messages
import Aesd.Server.Exclusion

/-!
# The messages of a connection thread

A connection thread calls `syslog` between its other calls, also while it has the mutex.
In the C library `syslog` is a cancellation point, as `open`, `read`, `write` and `close`
are; `ioctl`, the calls about the mutex and those about the heap are none.
-/

namespace Aesd

open CText Concurrency Loop Reactive

/-! ## The calls of `syslog` -/

def ReadStr.syslogCalls : ReadStr → Reply → Nat
  | .resize _ _, reply => if reply.value = 0 then 1 else 0
  | .read _ _, reply => if reply.value ≤ 0 then 1 else 0
  | .release _ _, _ => 0

namespace Thread

/-- The calls before a packet is passed on: two when the key is found, and one with the
numbers. -/
def packetSyslogCalls (buffer : SocketBuffer) : Nat :=
  if buffer.bufPtr = 0 then 0
  else if strstr seekKey (cString buffer.data) ≠ none then
    match parseSeekto buffer.data with
    | some _ => 3
    | none => 2
  else 0

/-- How often the thread calls `syslog` between a reply and its next call. -/
def syslogCalls : Thread → Reply → Nat
  | .readStr state, reply => state.syslogCalls reply
  | .openFile buffer, reply => if reply.value < 0 then 1 else packetSyslogCalls buffer
  | .dumpBuffer _ _ left, reply =>
      if toSizeT reply.value < left.length ∧ toSizeT reply.value ≤ 0 then 1 else 0
  | .dumpFile _ _ _, reply | .close _ _, reply => if reply.value < 0 then 1 else 0
  | .lock _, reply | .ioctl _ _ _, reply | .unlock _, reply => if reply.value ≠ 0 then 1 else 0
  | .free _, _ | .freeUnlockBreak _, _ | .unlockBreak, _ | .freeBreak _, _ => 0

end Thread

abbrev LoggingThread := Logging Thread ThreadEnd

def loggingThread : Process LoggingThread (LogCall Call) Reply ThreadEnd :=
  threadRunFunction.withMessages Thread.syslogCalls

/-- The first message comes before the first packet. -/
def LoggingThread.start : LoggingThread := .messages 0 (.next .start)

/-- The calls at which a thread acts on a request for its cancellation. -/
def IsCancellationPoint : LogCall Call → Prop
  | .message | .call (.readSocket _) | .call (.writeSocket _) | .call .openFile
  | .call (.writeFile _ _) | .call (.readFile _ _) | .call (.close _) => True
  | .call (.realloc _ _) | .call (.free _) | .call .pthreadMutexLock
  | .call .pthreadMutexUnlock | .call (.ioctl _ _) => False

/-- `pthread_mutex_lock` returns with the mutex, when it is free, and the unlock does not
fail; all other calls may. -/
def WorkingMutex (task : Nat) (event : Call × Reply) (mutex mutex' : Mutex) : Prop :=
  MutexAnswers task event mutex mutex' ∧ Releases event ∧
    (event.1 = .pthreadMutexLock → event.2.value = 0)

/-! ## The section with the messages -/

/-- The states with a cancellation point before the unlock that ends the section. -/
def Thread.Trapped : Thread → Prop
  | .openFile _ | .ioctl _ _ _ | .dumpBuffer _ _ _ | .dumpFile _ _ _ | .close _ _ => True
  | .readStr _ | .lock _ | .unlock _ | .free _ | .freeUnlockBreak _ | .unlockBreak
  | .freeBreak _ => False

namespace LoggingThread

abbrev InSection : LoggingThread → Prop := Logging.Inside Thread.InSection

abbrev Sound : LoggingThread → Prop := Logging.Ahead Thread.Sound fun _ => True

/-- A message in the section is a cancellation point itself. -/
def Trapped : LoggingThread → Prop
  | .waiting state => state.Trapped
  | .messages _ flow => flow.Satisfies Thread.InSection fun _ => False

theorem guards : Guards loggingThread (LogAnswers WorkingMutex) id InSection :=
  (threadRunFunction_guards fun _ _ _ _ answered => answered.1).withMessages

theorem returns :
    Returns loggingThread (LogAnswers WorkingMutex) id InSection Sound (OfCalls Releases) :=
  (threadRunFunction_returns fun _ _ _ _ answered => answered.1).withMessages

theorem releases_of_workingMutex {task : Nat} {event : LogCall Call × Reply}
    {mutex mutex' : Mutex} (answered : LogAnswers WorkingMutex task event mutex mutex') :
    OfCalls Releases event := by
  obtain ⟨call, reply⟩ := event
  cases call with
  | message => trivial
  | call call => exact answered.2.1

theorem waits_lock (buffer : SocketBuffer) :
    Cancellable.Waits loggingThread (LogAnswers WorkingMutex) id (.waiting (.lock buffer)) := by
  rintro task reply mutex mutex' ⟨answered, _, locks⟩
  have locked : reply.value = 0 := locks rfl
  simp only [threadRunFunction, MutexAnswers, if_pos locked] at answered
  exact answered

/-- A trapped thread that is cancelled does not come to the unlock: `ioctl`, which is no
cancellation point, is followed by a message or by a `read`. -/
theorem traps :
    Cancellable.Traps loggingThread (LogAnswers WorkingMutex) IsCancellationPoint id Trapped := by
  intro task state reply mutex mutex' trapped noPoint answered
  cases state with
  | messages more flow => exact absurd trivial noPoint
  | waiting state =>
      cases state with
      | ioctl buffer filed seekto =>
          refine ⟨answered.1, ?_⟩
          by_cases failed : reply.value ≠ 0
          · have outcome : loggingThread.resume (.waiting (.ioctl buffer filed seekto)) reply =
                .next (.messages 0
                  (Thread.freeBuffer buffer (.freeUnlockBreak buffer) (.next .unlockBreak))) := by
              simp only [loggingThread, Process.withMessages, Thread.syslogCalls,
                threadRunFunction, if_pos failed, Logging.send]
            rw [outcome]
            exact Thread.freeBuffer_satisfies trivial trivial
          · simp only [loggingThread, Process.withMessages, Thread.syslogCalls,
              threadRunFunction, if_neg failed]
            trivial
      | dumpFile buffer filed state => cases state <;> exact absurd trivial noPoint
      | openFile _ | dumpBuffer _ _ _ | close _ _ => exact absurd trivial noPoint
      | readStr _ | lock _ | unlock _ | free _ | freeUnlockBreak _ | unlockBreak
      | freeBreak _ => exact trapped.elim

end LoggingThread

/-! ## Connections whose calls may fail -/

abbrev LoggingServer := Shared Mutex LoggingThread

namespace LoggingServer

def init : LoggingServer := ⟨{}, fun _ => some .start⟩

def Step : LoggingServer → Nat × (LogCall Call × Reply) → LoggingServer → Prop :=
  Shared.Step loggingThread (LogAnswers MutexAnswers)

theorem faithful_run {trace : List (Nat × (LogCall Call × Reply))} {server : LoggingServer}
    (run : Run Step init trace server) (regular : ∀ entry ∈ trace, OfCalls Releases entry.2) :
    Faithful id LoggingThread.InSection server ∧ Shared.Each LoggingThread.Sound server := by
  have guards : Guards loggingThread (LogAnswers MutexAnswers) id LoggingThread.InSection :=
    LockServer.guards.withMessages
  apply Faithful.run guards LockServer.returns.withMessages run regular
  · intro task
    constructor
    · intro owned
      cases owned
    · rintro ⟨state, running, inside⟩
      cases running
      exact inside.elim
  · intro task state running
    cases running
    trivial

end LoggingServer

end Aesd
