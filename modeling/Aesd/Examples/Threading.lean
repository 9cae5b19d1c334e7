import Aesd.Lib.MutualExclusion
import Mathlib.Algebra.Order.Ring.Int

/-!
# Threads that wait, lock, wait and unlock

`threading.c`.  The waits are given in milliseconds as an `int`; `threadfunc` splits
them with unsigned arithmetic.  A thread returns when a call fails, also from its wait
with the mutex, which it then keeps.
-/

namespace Aesd

open Concurrency Loop Reactive

/-! ## The waits -/

structure Timespec where
  tvSec : Int
  tvNsec : Int
  deriving DecidableEq, Repr

/-- `nanosleep` accepts no other values. Both fields are 64 bits wide. -/
def Timespec.Accepted (time : Timespec) : Prop :=
  0 ≤ time.tvSec ∧ 0 ≤ time.tvNsec ∧ time.tvNsec < 1000000000

instance (time : Timespec) : Decidable time.Accepted := inferInstanceAs (Decidable (_ ∧ _ ∧ _))

def toUnsigned (value : Int) : Int := value % 2 ^ 32

def waitTime (wait : Int32) : Timespec :=
  let numberOfSeconds := toUnsigned (wait.toInt.tdiv 1000)
  let numberOfMilliseconds :=
    toUnsigned (toUnsigned wait.toInt - toUnsigned (numberOfSeconds * 1000))
  { tvSec := numberOfSeconds
    tvNsec := toUnsigned (numberOfMilliseconds * 1000000) }

def Timespec.nanoseconds (time : Timespec) : Int := time.tvSec * 1000000000 + time.tvNsec

theorem toUnsigned_of_range {value : Int} (nonnegative : 0 ≤ value) (small : value < 2 ^ 32) :
    toUnsigned value = value := Int.emod_eq_of_lt nonnegative small

theorem waitTime_of_nonneg {wait : Int32} (nonnegative : 0 ≤ wait.toInt) :
    waitTime wait =
      { tvSec := wait.toInt / 1000, tvNsec := wait.toInt % 1000 * 1000000 } := by
  have large := wait.toInt_lt
  have seconds : toUnsigned (wait.toInt.tdiv 1000) = wait.toInt / 1000 := by
    rw [Int.tdiv_eq_ediv_of_nonneg nonnegative]
    exact toUnsigned_of_range (by omega) (by omega)
  have product : toUnsigned (wait.toInt / 1000 * 1000) = wait.toInt / 1000 * 1000 :=
    toUnsigned_of_range (by omega) (by omega)
  have milliseconds : toUnsigned (wait.toInt - wait.toInt / 1000 * 1000) = wait.toInt % 1000 := by
    rw [toUnsigned_of_range (by omega) (by omega)]
    omega
  have whole : toUnsigned wait.toInt = wait.toInt := toUnsigned_of_range nonnegative (by omega)
  have nanoseconds : toUnsigned (wait.toInt % 1000 * 1000000) = wait.toInt % 1000 * 1000000 :=
    toUnsigned_of_range (by omega) (by omega)
  simp only [waitTime, seconds, product, whole, milliseconds, nanoseconds]

/-- A negative rest wraps around to more nanoseconds than a second has. -/
theorem toUnsigned_nanoseconds {rest : Int} (nonnegative : 0 ≤ rest) (small : rest < 1000) :
    toUnsigned (toUnsigned (-rest) * 1000000) =
      if rest = 0 then 0 else 2 ^ 32 - rest * 1000000 := by
  by_cases none : rest = 0
  · subst none
    rfl
  · have wrapped : toUnsigned (-rest) = 2 ^ 32 - rest := by
      unfold toUnsigned
      omega
    have split : (2 ^ 32 - rest) * 1000000 = 2 ^ 32 - rest * 1000000 + 2 ^ 32 * 999999 := by omega
    rw [if_neg none, wrapped, toUnsigned, split, Int.add_mul_emod_self_left]
    exact Int.emod_eq_of_lt (by omega) (by omega)

/-- Of a negative wait the whole seconds count modulo `2 ^ 32`. -/
theorem waitTime_of_neg {wait : Int32} (negative : wait.toInt < 0) :
    waitTime wait =
      { tvSec := toUnsigned (-(-wait.toInt / 1000))
        tvNsec :=
          if -wait.toInt % 1000 = 0 then 0 else 2 ^ 32 - -wait.toInt % 1000 * 1000000 } := by
  have quotient : wait.toInt.tdiv 1000 = -(-wait.toInt / 1000) := by
    rw [← Int.tdiv_eq_ediv_of_nonneg (by omega), Int.neg_tdiv, Int.neg_neg]
  have rest : toUnsigned (toUnsigned wait.toInt -
      toUnsigned (toUnsigned (-(-wait.toInt / 1000)) * 1000)) =
        toUnsigned (-(-wait.toInt % 1000)) := by
    unfold toUnsigned
    omega
  simp only [waitTime, quotient, rest,
    toUnsigned_nanoseconds (Int.emod_nonneg (-wait.toInt) (by decide))
      (Int.emod_lt_of_pos (-wait.toInt) (by decide))]

/-- `nanosleep` accepts every wait that is not negative, and negative numbers of seconds. -/
theorem accepted_iff (wait : Int32) :
    (waitTime wait).Accepted ↔ 0 ≤ wait.toInt ∨ 1000 ∣ wait.toInt := by
  have large := wait.toInt_lt
  rcases Int.lt_or_le wait.toInt 0 with negative | nonnegative
  · have seconds : 0 ≤ toUnsigned (-(-wait.toInt / 1000)) := Int.emod_nonneg _ (by decide)
    rw [waitTime_of_neg negative, Timespec.Accepted]
    by_cases whole : -wait.toInt % 1000 = 0
    · simp only [if_pos whole]
      omega
    · simp only [if_neg whole]
      omega
  · rw [waitTime_of_nonneg nonnegative, Timespec.Accepted]
    dsimp only
    omega

/-- A wait that is not negative is passed on exactly. A negative one is refused unless it is a
number of whole seconds, and it is then a wait of many years. -/
theorem waitTime_exact (wait : Int32) :
    (0 ≤ wait.toInt →
      (waitTime wait).Accepted ∧ (waitTime wait).nanoseconds = wait.toInt * 1000000) ∧
    (wait.toInt < 0 → ¬ 1000 ∣ wait.toInt → ¬ (waitTime wait).Accepted) ∧
    (wait.toInt < 0 → 1000 ∣ wait.toInt → (waitTime wait).Accepted ∧
      (waitTime wait).nanoseconds = (2 ^ 32 * 1000 + wait.toInt) * 1000000) := by
  have small := wait.le_toInt
  have large := wait.toInt_lt
  refine ⟨?_, ?_, ?_⟩
  · intro nonnegative
    refine ⟨(accepted_iff wait).mpr (.inl nonnegative), ?_⟩
    rw [waitTime_of_nonneg nonnegative, Timespec.nanoseconds]
    dsimp only
    omega
  · intro negative uneven accepted
    rcases (accepted_iff wait).mp accepted with nonnegative | whole
    · omega
    · exact uneven whole
  · intro negative whole
    refine ⟨(accepted_iff wait).mpr (.inr whole), ?_⟩
    have noRest : -wait.toInt % 1000 = 0 := by omega
    have seconds : toUnsigned (-(-wait.toInt / 1000)) = 2 ^ 32 - -wait.toInt / 1000 := by
      unfold toUnsigned
      omega
    rw [waitTime_of_neg negative, Timespec.nanoseconds, if_pos noRest, seconds]
    dsimp only
    omega

/-! ## `threadfunc` -/

structure ThreadData where
  initialWait : Int32
  finalWait : Int32
  deriving DecidableEq

inductive ThreadCall where
  | nanosleep (waitTime : Timespec)
  | pthreadMutexLock
  | pthreadMutexUnlock
  deriving DecidableEq, Repr

inductive ThreadFunc where
  | initialWait (data : ThreadData)
  | lock (data : ThreadData)
  | finalWait (data : ThreadData)
  | unlock (data : ThreadData)
  deriving DecidableEq

/-- `threadfunc`, with `thread_complete_success` as its result. -/
def threadfunc : Process ThreadFunc ThreadCall Int Bool where
  call
    | .initialWait data => .nanosleep (waitTime data.initialWait)
    | .lock _ => .pthreadMutexLock
    | .finalWait data => .nanosleep (waitTime data.finalWait)
    | .unlock _ => .pthreadMutexUnlock
  resume
    | .initialWait data, rc => if rc ≠ 0 then .leave false else .next (.lock data)
    | .lock data, rc => if rc ≠ 0 then .leave false else .next (.finalWait data)
    | .finalWait data, rc => if rc ≠ 0 then .leave false else .next (.unlock data)
    | .unlock _, rc => if rc ≠ 0 then .leave false else .leave true

def ThreadFunc.Holds : ThreadFunc → Prop
  | .finalWait _ | .unlock _ => True
  | .initialWait _ | .lock _ => False

/-- `nanosleep` refuses what it does not accept, and may fail otherwise. -/
def ThreadingAnswers (task : Nat) (event : ThreadCall × Int) (mutex mutex' : Mutex) : Prop :=
  match event with
  | (.nanosleep waitTime, rc) => (rc = 0 → waitTime.Accepted) ∧ mutex' = mutex
  | (.pthreadMutexLock, rc) =>
      if rc = 0 then mutex.lock task = some mutex' else mutex' = mutex
  | (.pthreadMutexUnlock, rc) => mutex' = if rc = 0 then mutex.unlock task else mutex

/-- Threads started by `start_thread_obtaining_mutex` with the same mutex. -/
abbrev Threading := Shared Mutex ThreadFunc

namespace Threading

def init (data : Nat → ThreadData) : Threading := ⟨{}, fun task => some (.initialWait (data task))⟩

def Step : Threading → Nat × (ThreadCall × Int) → Threading → Prop :=
  Shared.Step threadfunc ThreadingAnswers

def Keeps (past : List (ThreadCall × Int)) : Prop :=
  (.pthreadMutexLock, 0) ∈ past ∧ (.pthreadMutexUnlock, 0) ∉ past

instance (past : List (ThreadCall × Int)) : Decidable (Keeps past) :=
  inferInstanceAs (Decidable (_ ∧ _))

section Threads

variable {threading threading' : Threading} {task other : Nat} {state : ThreadFunc} {rc : Int}
  {mutex mutex' : Mutex} {past : List (ThreadCall × Int)} {data : Nat → ThreadData}
  {trace more : List (Nat × (ThreadCall × Int))} {event : ThreadCall × Int}

theorem guards : Guards threadfunc ThreadingAnswers id ThreadFunc.Holds where
  enters := by
    intro task state rc mutex mutex' outside answered
    cases state with
    | initialWait data =>
        refine .inl ⟨answered.2, ?_⟩
        simp only [threadfunc]
        split <;> trivial
    | lock data =>
        by_cases locked : rc = 0
        · right
          simp only [ThreadingAnswers, threadfunc, if_pos locked] at answered
          exact answered
        · left
          have failed : rc ≠ 0 := locked
          simp only [ThreadingAnswers, threadfunc, if_neg locked] at answered
          simp only [threadfunc, if_pos failed]
          exact ⟨answered, trivial⟩
    | finalWait data | unlock data => exact absurd trivial outside
  leaves := by
    intro task state rc mutex mutex' inside answered
    cases state with
    | finalWait data => exact .inl answered.2
    | unlock data =>
        by_cases unlocked : rc = 0
        · right
          simp only [ThreadingAnswers, threadfunc, if_pos unlocked] at answered
          refine ⟨answered, ?_⟩
          simp only [threadfunc]
          split <;> trivial
        · left
          simp only [ThreadingAnswers, threadfunc, if_neg unlocked] at answered
          exact answered
    | initialWait data | lock data => exact inside.elim

theorem init_exclusive : Exclusive id ThreadFunc.Holds (init data) := by
  intro task state running holds
  cases running
  exact holds.elim

/-- What a thread has done by the time that it is in a state. -/
def History (data : ThreadData) (past : List (ThreadCall × Int)) : Option ThreadFunc → Prop
  | some (.initialWait data') | some (.lock data') =>
      data' = data ∧ (.pthreadMutexLock, 0) ∉ past ∧ (.pthreadMutexUnlock, 0) ∉ past
  | some (.finalWait data') =>
      data' = data ∧ (.pthreadMutexLock, 0) ∈ past ∧ (.pthreadMutexUnlock, 0) ∉ past
  | some (.unlock data') =>
      data' = data ∧ (.pthreadMutexLock, 0) ∈ past ∧ (.pthreadMutexUnlock, 0) ∉ past ∧
        (waitTime data.finalWait).Accepted
  | none => (.pthreadMutexUnlock, 0) ∈ past → (waitTime data.finalWait).Accepted

theorem History.next {data : ThreadData} (history : History data past (some state))
    (answered : ThreadingAnswers task (threadfunc.call state, rc) mutex mutex') :
    History data (past ++ [(threadfunc.call state, rc)])
      (Shared.after (threadfunc.resume state rc)) := by
  cases state with
  | initialWait data' =>
      obtain ⟨same, unlocked, unreleased⟩ := history
      by_cases failed : rc ≠ 0
      · simp only [threadfunc, if_pos failed, Shared.after, History]
        simp [unreleased]
      · simp only [threadfunc, if_neg failed, Shared.after, History]
        simp [same, unlocked, unreleased]
  | lock data' =>
      obtain ⟨same, unlocked, unreleased⟩ := history
      by_cases failed : rc ≠ 0
      · simp only [threadfunc, if_pos failed, Shared.after, History]
        simp [unreleased]
      · simp only [threadfunc, if_neg failed, Shared.after, History]
        simp [same, unreleased, not_not.mp failed]
  | finalWait data' =>
      obtain ⟨rfl, locked, unreleased⟩ := history
      by_cases failed : rc ≠ 0
      · simp only [threadfunc, if_pos failed, Shared.after, History]
        simp [unreleased]
      · have accepted := answered.1 (not_not.mp failed)
        simp only [threadfunc, if_neg failed, Shared.after, History]
        simp [locked, unreleased, accepted]
  | unlock data' =>
      obtain ⟨_, _, _, accepted⟩ := history
      by_cases failed : rc ≠ 0
      · simp only [threadfunc, if_pos failed, Shared.after, History]
        exact fun _ => accepted
      · simp only [threadfunc, if_neg failed, Shared.after, History]
        exact fun _ => accepted

structure Tracked (data : Nat → ThreadData) (past : List (Nat × (ThreadCall × Int)))
    (threading : Threading) : Prop where
  exclusive : Exclusive id ThreadFunc.Holds threading
  stray : threading.env.stray = false
  history : ∀ task, History (data task) (own task past) (threading.threads task)
  owner : ∀ task, threading.env.owner = some task ↔ Keeps (own task past)

theorem init_tracked (data : Nat → ThreadData) : Tracked data [] (init data) where
  exclusive := init_exclusive
  stray := rfl
  history task := by simp [init, History, own]
  owner task := by simp [init, Keeps, own]

theorem keeps_append (noLock : event ≠ (.pthreadMutexLock, 0))
    (noUnlock : event ≠ (.pthreadMutexUnlock, 0)) : Keeps (past ++ [event]) ↔ Keeps past := by
  simp [Keeps, Ne.symm noLock, Ne.symm noUnlock]

theorem owner_iff_keeps_next {data : ThreadData} (history : History data past (some state))
    (owner : mutex.owner = some task ↔ Keeps past)
    (answered : ThreadingAnswers task (threadfunc.call state, rc) mutex mutex') :
    mutex'.owner = some task ↔ Keeps (past ++ [(threadfunc.call state, rc)]) := by
  cases state with
  | initialWait data' | finalWait data' =>
      rw [answered.2, keeps_append (by simp [threadfunc]) (by simp [threadfunc])]
      exact owner
  | lock data' =>
      obtain ⟨_, _, unreleased⟩ := history
      by_cases locked : rc = 0
      · simp only [ThreadingAnswers, threadfunc, if_pos locked] at answered
        obtain ⟨_, rfl⟩ := Mutex.lock_eq_some_iff.mp answered
        simp [Keeps, threadfunc, locked, unreleased]
      · simp only [ThreadingAnswers, threadfunc, if_neg locked] at answered
        rw [answered, keeps_append (by simp [threadfunc, locked]) (by simp [threadfunc])]
        exact owner
  | unlock data' =>
      obtain ⟨_, isLocked, unreleased, _⟩ := history
      by_cases unlocked : rc = 0
      · simp only [ThreadingAnswers, threadfunc, if_pos unlocked] at answered
        rw [answered, Mutex.owner_unlock (owner.mpr ⟨isLocked, unreleased⟩)]
        simp [Keeps, threadfunc, unlocked]
      · simp only [ThreadingAnswers, threadfunc, if_neg unlocked] at answered
        rw [answered, keeps_append (by simp [threadfunc]) (by simp [threadfunc, unlocked])]
        exact owner

theorem Tracked.step {past : List (Nat × (ThreadCall × Int))}
    (tracked : Tracked data past threading)
    (taken : Step threading (task, event) threading') :
    Tracked data (past ++ [(task, event)]) threading' := by
  obtain ⟨stray, _, apart⟩ := guards.step_cases tracked.exclusive taken
  have exclusive := guards.step tracked.exclusive taken
  obtain ⟨state, rc, mutex, running, rfl, answered, rfl⟩ := Shared.Step.cases taken
  have here := tracked.history task
  rw [running] at here
  refine ⟨exclusive, stray.trans tracked.stray, ?_, ?_⟩
  · intro other
    by_cases same : other = task
    · subst same
      rw [own_append_self]
      simp only [Function.update_self]
      exact here.next answered
    · rw [own_append_of_ne same]
      simp only [Function.update_of_ne same]
      exact tracked.history other
  · intro other
    by_cases same : other = task
    · subst same
      rw [own_append_self]
      exact owner_iff_keeps_next here (tracked.owner other) answered
    · rw [own_append_of_ne same]
      exact (apart other same).2.trans (tracked.owner other)

theorem tracked_of_run (run : Run Step (init data) trace threading) :
    Tracked data trace threading := by
  have kept (past : List (Nat × (ThreadCall × Int))) (threading : Threading)
      (entry : Nat × (ThreadCall × Int)) (threading' : Threading)
      (tracked : Tracked data past threading) (taken : Step threading entry threading') :
      Tracked data (past ++ [entry]) threading' := tracked.step taken
  exact run.history kept (init_tracked data)

/-- In every run one thread at a time is between its lock and its unlock; the mutex belongs to
the thread that has locked it and not unlocked it, also after that thread has returned, and
no thread unlocks it that does not have it. -/
theorem threads_exclude (run : Run Step (init data) trace threading) :
    (∀ first second state state', threading.threads first = some state → state.Holds →
      threading.threads second = some state' → state'.Holds → first = second) ∧
    (∀ task, threading.env.owner = some task ↔ Keeps (own task trace)) ∧
    threading.env.stray = false := by
  have tracked := tracked_of_run run
  refine ⟨?_, tracked.owner, tracked.stray⟩
  intro first second state state' running holds running' holds'
  exact tracked.exclusive.same running holds running' holds'

def lockedCalls : List (Nat × (ThreadCall × Int)) :=
  [(0, (.nanosleep (waitTime 20), 0)), (1, (.nanosleep (waitTime 20), 0)),
    (0, (.pthreadMutexLock, 0))]

theorem threads_exclude_locked : ∃ threading,
    Run Step (init fun _ => ⟨20, 30⟩) lockedCalls threading ∧
      threading.env.owner = some 0 := by
  have run : ∃ threading, Run Step (init fun _ => ⟨20, 30⟩) lockedCalls threading :=
    ⟨_, .cons (Shared.Step.taken rfl rfl ⟨by decide, rfl⟩)
      (.cons (Shared.Step.taken rfl rfl ⟨by decide, rfl⟩)
      (.cons (Shared.Step.taken rfl rfl rfl) (.nil _)))⟩
  obtain ⟨threading, run⟩ := run
  exact ⟨threading, run, ((threads_exclude run).2.1 0).mpr (by decide)⟩

theorem owner_of_refused (run : Run Step (init data) trace threading)
    (refused : ¬ (waitTime (data task).finalWait).Accepted)
    (locked : (task, (.pthreadMutexLock, 0)) ∈ trace) : threading.env.owner = some task := by
  have tracked := tracked_of_run run
  refine (tracked.owner task).mpr ⟨mem_own.mpr locked, fun released => ?_⟩
  have history := tracked.history task
  cases running : threading.threads task with
  | none =>
      rw [running] at history
      exact refused (history released)
  | some state =>
      rw [running] at history
      cases state with
      | initialWait _ | lock _ | finalWait _ => exact history.2.2 released
      | unlock _ => exact history.2.2.1 released

/-- If the final wait of a thread is negative and no number of whole seconds, the thread never
gives the mutex back after it has got it, and no thread gets it again. -/
theorem negative_wait_keeps_mutex (run : Run Step (init data) trace threading)
    (negative : (data task).finalWait.toInt < 0) (uneven : ¬ 1000 ∣ (data task).finalWait.toInt)
    (locked : (task, (.pthreadMutexLock, 0)) ∈ trace)
    (later : Run Step threading more threading') :
    threading'.env.owner = some task ∧
      ∀ entry ∈ more, entry.2 ≠ (ThreadCall.pthreadMutexLock, 0) := by
  have refused : ¬ (waitTime (data task).finalWait).Accepted := by
    rw [accepted_iff]
    rintro (nonnegative | whole)
    · omega
    · exact uneven whole
  refine ⟨owner_of_refused (run.append later) refused (List.mem_append_left _ locked), ?_⟩
  induction later generalizing trace with
  | nil => simp
  | @cons first middle last label labels taken _ inductionHypothesis =>
      have owner := owner_of_refused run refused locked
      refine List.forall_mem_cons.mpr ⟨fun isLock => ?_,
        inductionHypothesis (run.concat taken) (List.mem_append_left _ locked)⟩
      obtain ⟨other, event⟩ := label
      obtain ⟨state, rc, mutex, _, called, answered, _⟩ := Shared.Step.cases taken
      obtain rfl : event = (ThreadCall.pthreadMutexLock, 0) := isLock
      have free := (Mutex.lock_eq_some_iff.mp answered).1
      rw [owner] at free
      cases free

def refusedCalls : List (Nat × (ThreadCall × Int)) :=
  [(0, (.nanosleep (waitTime 10), 0)), (1, (.nanosleep (waitTime 20), 0)),
    (0, (.pthreadMutexLock, 0)), (0, (.nanosleep (waitTime (-500)), -1))]

theorem negative_wait_keeps_mutex_refused : ∃ threading,
    Run Step (init fun task => if task = 0 then ⟨10, -500⟩ else ⟨20, 30⟩) refusedCalls threading ∧
      ∀ more threading', Run Step threading more threading' →
        threading'.env.owner = some 0 := by
  have run : ∃ threading, Run Step (init fun task => if task = 0 then ⟨10, -500⟩ else ⟨20, 30⟩)
      refusedCalls threading :=
    ⟨_, .cons (Shared.Step.taken rfl rfl ⟨by decide, rfl⟩)
      (.cons (Shared.Step.taken rfl rfl ⟨by decide, rfl⟩)
      (.cons (Shared.Step.taken rfl rfl rfl)
      (.cons (Shared.Step.taken rfl rfl ⟨by decide, rfl⟩) (.nil _))))⟩
  obtain ⟨threading, run⟩ := run
  refine ⟨threading, run, fun more threading' later => ?_⟩
  exact (@negative_wait_keeps_mutex threading threading' 0 _ _ more run (by decide) (by decide)
    (by simp [refusedCalls]) later).1

end Threads

end Threading

end Aesd
