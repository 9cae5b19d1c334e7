import Aesd.Lib.MutualExclusion
import Aesd.Server.Resources
import Aesd.Server.System

/-!
# One connection at a time

A connection thread has the mutex from `pthread_mutex_lock` to `pthread_mutex_unlock`,
on the failure exits too.  So one thread at most has the device file open in its
hands, whatever fails, and the mutex is free again when it is done, unless
`pthread_mutex_unlock` fails.
-/

namespace Aesd

open Concurrency Loop Reactive

/-- The answers of the mutex. A lock that succeeds has found it free, and a call that fails
leaves it alone. -/
def MutexAnswers (task : Nat) (event : Call × Reply) (mutex mutex' : Mutex) : Prop :=
  match event with
  | (.pthreadMutexLock, reply) =>
      if reply.value = 0 then mutex.lock task = some mutex' else mutex' = mutex
  | (.pthreadMutexUnlock, reply) =>
      mutex' = if reply.value = 0 then mutex.unlock task else mutex
  | _ => mutex' = mutex

def UsesDevice : Call × Reply → Prop
  | (.openFile, _) | (.ioctl _ _, _) | (.writeFile _ _, _) | (.readFile _ _, _)
  | (.close _, _) => True
  | _ => False

/-- No `pthread_mutex_unlock` fails, and failed allocations and reads set `errno`. -/
def Releases (event : Call × Reply) : Prop :=
  ReceiveReplies event ∧
    match event with
    | (.pthreadMutexUnlock, reply) => reply.value = 0
    | _ => True

namespace Thread

/-- The states between the lock and the unlock. -/
def InSection : Thread → Prop
  | .openFile _ | .ioctl _ _ _ | .dumpBuffer _ _ _ | .dumpFile _ _ _ | .close _ _ | .unlock _
  | .freeUnlockBreak _ | .unlockBreak => True
  | _ => False

instance : DecidablePred InSection
  | .openFile _ | .ioctl _ _ _ | .dumpBuffer _ _ _ | .dumpFile _ _ _ | .close _ _ | .unlock _
  | .freeUnlockBreak _ | .unlockBreak => inferInstanceAs (Decidable True)
  | .readStr _ | .lock _ | .free _ | .freeBreak _ => inferInstanceAs (Decidable False)

variable {state : Thread} {reply : Reply}

theorem inSection_of_usesDevice (uses : UsesDevice (threadRunFunction.call state, reply)) :
    state.InSection := by
  cases state with
  | readStr state => cases state <;> exact uses.elim
  | dumpFile buffer filed state => trivial
  | lock _ | free _ | freeBreak _ => exact uses.elim
  | _ => trivial

theorem outside_or_lock (outside : ¬ state.InSection) :
    (threadRunFunction.resume state reply).Satisfies (fun state' => ¬ state'.InSection)
        (fun _ => True) ∨
      (threadRunFunction.call state = .pthreadMutexLock ∧ reply.value = 0) := by
  cases state with
  | readStr state =>
      left
      simp only [threadRunFunction]
      split
      · exact not_false
      · split
        · exact freeBuffer_satisfies not_false trivial
        · exact not_false
  | lock buffer =>
      by_cases locked : reply.value = 0
      · exact .inr ⟨rfl, locked⟩
      · left
        simp only [threadRunFunction, if_pos locked]
        exact freeBuffer_satisfies not_false trivial
  | free buffer => exact .inl not_false
  | freeBreak buffer => exact .inl trivial
  | _ => exact absurd trivial outside

theorem outside_of_unlock (unlocks : threadRunFunction.call state = .pthreadMutexUnlock) :
    (threadRunFunction.resume state reply).Satisfies (fun state' => ¬ state'.InSection)
      (fun _ => True) := by
  cases state with
  | readStr state => cases state <;> cases unlocks
  | dumpFile buffer filed state => cases state <;> cases unlocks
  | unlock buffer =>
      simp only [threadRunFunction]
      split
      · exact freeBuffer_satisfies not_false trivial
      · exact freeBuffer_satisfies not_false not_false
  | unlockBreak => trivial
  | _ => cases unlocks

theorem remains_inside (inside : state.InSection) (sound : state.Sound)
    (holds : threadRunFunction.call state ≠ .pthreadMutexUnlock) :
    (threadRunFunction.resume state reply).Satisfies InSection (fun _ => False) := by
  cases state with
  | openFile buffer =>
      simp only [threadRunFunction]
      split
      · exact freeBuffer_satisfies trivial trivial
      · rw [dispatch_eq sound]
        split
        · split <;> trivial
        · trivial
  | ioctl buffer filed seekto =>
      simp only [threadRunFunction]
      split
      · exact freeBuffer_satisfies trivial trivial
      · trivial
  | dumpBuffer buffer filed left =>
      simp only [threadRunFunction]
      split
      · trivial
      · split
        · exact freeBuffer_satisfies trivial trivial
        · trivial
  | dumpFile buffer filed state =>
      simp only [threadRunFunction]
      split
      · trivial
      · split <;> trivial
  | close buffer filed =>
      simp only [threadRunFunction]
      split
      · exact freeBuffer_satisfies trivial trivial
      · trivial
  | freeUnlockBreak buffer => trivial
  | unlock buffer | unlockBreak => exact absurd rfl holds
  | readStr _ | lock _ | free _ | freeBreak _ => exact inside.elim

theorem sound_of_receiveReplies (sound : state.Sound)
    (replies : ReceiveReplies (threadRunFunction.call state, reply)) :
    (threadRunFunction.resume state reply).Satisfies Sound fun _ => True := by
  have step := accounts sound replies
  by_cases leaves : LeavesBehind (threadRunFunction.call state, reply)
  · refine (step.fails leaves).imp (fun state' leaving => ?_) fun _ _ => trivial
    cases state' with
    | freeUnlockBreak _ | unlockBreak | freeBreak _ => trivial
    | _ => exact leaving.elim
  · exact (step.calm leaves).imp (fun _ kept => kept.1) fun _ _ => trivial

end Thread

section Guarded

variable {Env : Type} {answers : Nat → Call × Reply → Env → Env → Prop} {mutex : Env → Mutex}

def RespectsMutex (answers : Nat → Call × Reply → Env → Env → Prop) (mutex : Env → Mutex) : Prop :=
  ∀ task event env env', answers task event env env' →
    MutexAnswers task event (mutex env) (mutex env')

theorem mutexAnswers_same {task : Nat} {call : Call} {reply : Reply} {before after : Mutex}
    (answered : MutexAnswers task (call, reply) before after)
    (noLock : call ≠ .pthreadMutexLock ∨ reply.value ≠ 0)
    (noUnlock : call ≠ .pthreadMutexUnlock ∨ reply.value ≠ 0) : after = before := by
  cases call with
  | pthreadMutexLock =>
      have failed : reply.value ≠ 0 := noLock.resolve_left (not_not.mpr rfl)
      simpa only [MutexAnswers, if_neg failed] using answered
  | pthreadMutexUnlock =>
      have failed : reply.value ≠ 0 := noUnlock.resolve_left (not_not.mpr rfl)
      simpa only [MutexAnswers, if_neg failed] using answered
  | _ => exact answered

theorem threadRunFunction_guards (respects : RespectsMutex answers mutex) :
    Guards threadRunFunction answers mutex Thread.InSection where
  enters := by
    intro task state reply env env' outside answered
    have answered := respects _ _ _ _ answered
    rcases @Thread.outside_or_lock state reply outside with stays | ⟨locks, succeeds⟩
    · by_cases locked : threadRunFunction.call state = .pthreadMutexLock ∧ reply.value = 0
      · right
        rw [locked.1] at answered
        simpa only [MutexAnswers, if_pos locked.2] using answered
      · left
        refine ⟨mutexAnswers_same answered (not_and_or.mp locked) ?_, stays⟩
        left
        intro unlocks
        cases state with
        | readStr state => cases state <;> cases unlocks
        | lock _ | free _ | freeBreak _ => cases unlocks
        | _ => exact outside trivial
    · right
      rw [locks] at answered
      simpa only [MutexAnswers, if_pos succeeds] using answered
  leaves := by
    intro task state reply env env' inside answered
    have answered := respects _ _ _ _ answered
    have noLock : threadRunFunction.call state ≠ .pthreadMutexLock := by
      intro locks
      cases state with
      | dumpFile buffer filed state => cases state <;> cases locks
      | readStr _ | lock _ | free _ | freeBreak _ => exact inside.elim
      | _ => cases locks
    by_cases unlocks : threadRunFunction.call state = .pthreadMutexUnlock ∧ reply.value = 0
    · right
      rw [unlocks.1] at answered
      refine ⟨?_, Thread.outside_of_unlock unlocks.1⟩
      simpa only [MutexAnswers, if_pos unlocks.2] using answered
    · exact .inl (mutexAnswers_same answered (.inl noLock) (not_and_or.mp unlocks))

theorem threadRunFunction_returns (respects : RespectsMutex answers mutex) :
    Returns threadRunFunction answers mutex Thread.InSection Thread.Sound Releases where
  keeps sound releases := Thread.sound_of_receiveReplies sound releases.1
  remains := by
    intro task state reply env env' sound releases answered owner owner'
    have guards := threadRunFunction_guards respects
    by_cases inside : state.InSection
    · by_cases unlocks : threadRunFunction.call state = .pthreadMutexUnlock
      · have answered := respects _ _ _ _ answered
        have succeeds : reply.value = 0 := by
          have released := releases.2
          rw [unlocks] at released
          exact released
        rw [unlocks] at answered
        simp only [MutexAnswers, if_pos succeeds] at answered
        rw [answered, Mutex.owner_unlock (owner.mpr inside)] at owner'
        cases owner'
      · have remains := @Thread.remains_inside state reply inside sound unlocks
        cases resumed : threadRunFunction.resume state reply with
        | next state' =>
            rw [resumed] at remains
            exact ⟨state', rfl, remains⟩
        | leave ended =>
            rw [resumed] at remains
            exact remains.elim
    · rcases guards.enters inside answered with ⟨same, _⟩ | _
      · rw [same] at owner'
        exact absurd (owner.mp owner') inside
      · cases state with
        | lock buffer =>
            have answered := respects _ _ _ _ answered
            by_cases locked : reply.value = 0
            · refine ⟨.openFile buffer, ?_, trivial⟩
              have notFailed : ¬ reply.value ≠ 0 := not_not.mpr locked
              simp only [threadRunFunction, if_neg notFailed]
            · have same := mutexAnswers_same answered (.inr locked) (.inr locked)
              rw [same] at owner'
              exact absurd (owner.mp owner') inside
        | readStr state =>
            have answered := respects _ _ _ _ answered
            have same : mutex env' = mutex env := by cases state <;> exact answered
            rw [same] at owner'
            exact absurd (owner.mp owner') inside
        | free _ | freeBreak _ =>
            have same : mutex env' = mutex env := respects _ _ _ _ answered
            rw [same] at owner'
            exact absurd (owner.mp owner') inside
        | _ => exact absurd trivial inside

end Guarded

/-! ## Connections whose calls may fail -/

abbrev LockServer := Shared Mutex Thread

namespace LockServer

def init : LockServer := ⟨{}, fun _ => some .start⟩

def Step : LockServer → Nat × (Call × Reply) → LockServer → Prop :=
  Shared.Step threadRunFunction MutexAnswers

def FailedUnlock : Call × Reply → Prop
  | (.pthreadMutexUnlock, reply) => reply.value ≠ 0
  | _ => False

abbrev MutexLost (server : LockServer) : Prop := Lost id Thread.InSection server

section Runs

variable {server server' : LockServer} {trace more : List (Nat × (Call × Reply))} {task : Nat}
  {event : Call × Reply}

theorem guards : Guards threadRunFunction MutexAnswers id Thread.InSection :=
  threadRunFunction_guards fun _ _ _ _ answered => answered

theorem returns :
    Returns threadRunFunction MutexAnswers id Thread.InSection Thread.Sound Releases :=
  threadRunFunction_returns fun _ _ _ _ answered => answered

theorem init_exclusive : Exclusive id Thread.InSection init := by
  intro task state running inside
  cases running
  exact inside.elim

theorem init_faithful : Faithful id Thread.InSection init := by
  intro task
  constructor
  · intro owned
    cases owned
  · rintro ⟨state, running, inside⟩
    cases running
    exact inside.elim

theorem init_sound : Shared.Each Thread.Sound init := by
  intro task state running
  cases running
  trivial

theorem owner_of_usesDevice (exclusive : Exclusive id Thread.InSection server)
    (taken : Step server (task, event) server') (uses : UsesDevice event) :
    server.env.owner = some task := by
  obtain ⟨state, reply, env, running, rfl, _, _⟩ := Shared.Step.cases taken
  exact exclusive task state running (Thread.inSection_of_usesDevice uses)

/-- Whatever fails in whatever order, one connection at a time is between the lock and the
unlock, only its thread uses the device, and no thread releases a mutex that it does not
hold; if no `pthread_mutex_unlock` fails, the mutex is held exactly while a thread is
there. -/
theorem one_at_a_time (run : Run Step init trace server) :
    (∀ first second state state', server.threads first = some state → state.InSection →
      server.threads second = some state' → state'.InSection → first = second) ∧
    (∀ task event server', Step server (task, event) server' → UsesDevice event →
      server.env.owner = some task) ∧
    server.env.stray = false ∧
    ((∀ entry ∈ trace, Releases entry.2) → ∀ task, server.env.owner = some task ↔
      ∃ state, server.threads task = some state ∧ state.InSection) := by
  obtain ⟨exclusive, stray⟩ := guards.run run init_exclusive
  refine ⟨?_, ?_, stray, ?_⟩
  · intro first second state state' running inside running' inside'
    exact exclusive.same running inside running' inside'
  · intro task event server' taken uses
    exact owner_of_usesDevice exclusive taken uses
  · intro releases
    exact (Faithful.run guards returns run releases init_faithful init_sound).1

def heldCalls : List (Nat × (Call × Reply)) :=
  [(0, (.realloc 0 512, { value := 1 })),
    (1, (.realloc 0 512, { value := 2 })),
    (0, (.readSocket 512, { value := 2, bytes := [97, newline] })),
    (1, (.readSocket 512, { value := 2, bytes := [98, newline] })),
    (0, (.pthreadMutexLock, { value := 0 }))]

theorem one_at_a_time_held : ∃ server, Run Step init heldCalls server ∧
    ∀ task event server', Step server (task, event) server' → UsesDevice event → task = 0 := by
  have run : ∃ server : LockServer, Run Step init heldCalls server ∧ server.env.owner = some 0 :=
    ⟨_, .cons (Shared.Step.taken rfl rfl rfl)
      (.cons (Shared.Step.taken rfl rfl rfl)
      (.cons (Shared.Step.taken rfl rfl rfl)
      (.cons (Shared.Step.taken rfl rfl rfl)
      (.cons (Shared.Step.taken rfl rfl rfl) (.nil _))))), rfl⟩
  obtain ⟨server, run, owned⟩ := run
  obtain ⟨_, uses, _, _⟩ := one_at_a_time run
  refine ⟨server, run, fun task event server' taken isUse => ?_⟩
  have owner := uses task event server' taken isUse
  rw [owned, Option.some.injEq] at owner
  exact owner.symm

theorem lost_of_failedUnlock (exclusive : Exclusive id Thread.InSection server)
    (taken : Step server (task, event) server') (failed : FailedUnlock event) :
    server'.MutexLost := by
  obtain ⟨state, reply, env, running, rfl, answered, rfl⟩ := Shared.Step.cases taken
  have unlocks : threadRunFunction.call state = .pthreadMutexUnlock := by
    cases called : threadRunFunction.call state with
    | pthreadMutexUnlock => rfl
    | _ => rw [called] at failed; exact failed.elim
  rw [unlocks] at failed answered
  have inside : state.InSection := by
    cases state with
    | readStr state => cases state <;> cases unlocks
    | dumpFile buffer filed state => cases state <;> cases unlocks
    | unlock _ | unlockBreak => trivial
    | _ => cases unlocks
  have same : env = server.env :=
    mutexAnswers_same answered (.inl (by decide)) (.inr failed)
  refine ⟨task, ?_, fun state' after => ?_⟩
  · rw [same]
    exact exclusive task state running inside
  · simp only [Function.update_self] at after
    exact Shared.of_after (¬ Thread.InSection ·) (Thread.outside_of_unlock unlocks) after

theorem lost_of_run (run : Run Step server trace server')
    (exclusive : Exclusive id Thread.InSection server)
    (failed : ∃ entry ∈ trace, FailedUnlock entry.2) : server'.MutexLost := by
  induction run with
  | nil => simp at failed
  | @cons first middle last label labels taken following inductionHypothesis =>
      obtain ⟨task, event⟩ := label
      have kept := guards.step exclusive taken
      obtain ⟨entry, membership, fails⟩ := failed
      rcases List.mem_cons.mp membership with rfl | later
      · exact (lost_of_failedUnlock exclusive taken fails).run guards following kept
      · exact inductionHypothesis kept ⟨entry, later, fails⟩

theorem unused_of_lost (run : Run Step server trace server')
    (exclusive : Exclusive id Thread.InSection server) (lost : server.MutexLost) :
    ∀ entry ∈ trace, ¬ UsesDevice entry.2 := by
  induction run with
  | nil => simp
  | @cons first middle last label labels taken _ inductionHypothesis =>
      obtain ⟨task, event⟩ := label
      refine List.forall_mem_cons.mpr ⟨fun uses => ?_, ?_⟩
      · obtain ⟨state, reply, env, running, rfl, _, _⟩ := Shared.Step.cases taken
        exact lost.nobody exclusive running (Thread.inSection_of_usesDevice uses)
      · exact inductionHypothesis (guards.step exclusive taken) (lost.step guards exclusive taken)

/-- The mutex is lost exactly if some `pthread_mutex_unlock` has failed, and from then on no
connection uses the device again. -/
theorem mutexLost_iff (run : Run Step init trace server)
    (replies : ∀ entry ∈ trace, ReceiveReplies entry.2) :
    (server.MutexLost ↔ ∃ entry ∈ trace, FailedUnlock entry.2) ∧
    (server.MutexLost → ∀ more server', Run Step server more server' →
      ∀ entry ∈ more, ¬ UsesDevice entry.2) := by
  obtain ⟨exclusive, _⟩ := guards.run run init_exclusive
  refine ⟨⟨?_, lost_of_run run init_exclusive⟩, ?_⟩
  · intro lost
    by_contra calm
    have releases : ∀ entry ∈ trace, Releases entry.2 := by
      rintro ⟨task, call, reply⟩ membership
      refine ⟨replies _ membership, ?_⟩
      cases call with
      | pthreadMutexUnlock =>
          by_contra failed
          exact calm ⟨_, membership, failed⟩
      | _ => trivial
    exact (Faithful.run guards returns run releases init_faithful init_sound).1.not_lost lost
  · intro lost more server' rest
    exact unused_of_lost rest exclusive lost

def failedCalls : List (Nat × (Call × Reply)) :=
  [(0, (.realloc 0 512, { value := 1 })),
    (0, (.readSocket 512, { value := 2, bytes := [97, newline] })),
    (0, (.pthreadMutexLock, { value := 0 })),
    (0, (.openFile, { value := -1 })),
    (0, (.free 1, { value := 0 })),
    (0, (.pthreadMutexUnlock, { value := 1 }))]

theorem mutexLost_failedCalls : ∃ server, Run Step init failedCalls server ∧
    server.MutexLost ∧ ∀ more server', Run Step server more server' →
      ∀ entry ∈ more, ¬ UsesDevice entry.2 := by
  have run : ∃ server, Run Step init failedCalls server :=
    ⟨_, .cons (Shared.Step.taken rfl rfl rfl)
      (.cons (Shared.Step.taken rfl rfl rfl)
      (.cons (Shared.Step.taken rfl rfl rfl)
      (.cons (Shared.Step.taken rfl rfl rfl)
      (.cons (Shared.Step.taken rfl rfl rfl)
      (.cons (Shared.Step.taken rfl rfl rfl) (.nil _))))))⟩
  obtain ⟨server, run⟩ := run
  have replies : ∀ entry ∈ failedCalls, ReceiveReplies entry.2 := by
    simp [failedCalls, ReceiveReplies]
  obtain ⟨lost, unused⟩ := mutexLost_iff run replies
  have isLost : server.MutexLost :=
    lost.mpr ⟨(0, (.pthreadMutexUnlock, { value := 1 })), by simp [failedCalls], Int.one_ne_zero⟩
  exact ⟨server, run, isLost, unused isLost⟩

end Runs

end LockServer

end Aesd
