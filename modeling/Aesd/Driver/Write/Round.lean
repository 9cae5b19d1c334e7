import Aesd.Driver.Ownership

/-!
# What one round of `aesd_write` does

The commands and the pending bytes of a device form a frame log.  A section that
succeeds feeds it with the bytes that the section copies; every other round
leaves it alone, and no round that ends keeps the lock.  `WriteEffect` lists the
rounds, failures included, and `aesdWriteRound_effect` is the inversion that the
proofs about whole calls and about interleaved calls start from.
-/

namespace Aesd

open BlockHeap Concurrency Framing Loop

/-- The live commands and the pending bytes, without the memory behind them. -/
def Driver.log (driver : Driver) : FrameLog UInt8 := ⟨driver.commands, driver.pending⟩

namespace Driver

/-- From `driver` to `driver'` the device has read exactly `bytes`. -/
structure Fed (driver driver' : Driver) (bytes : List UInt8) : Prop where
  valid : driver'.Valid
  lock : driver'.dev.lock = driver.dev.lock
  log : driver'.log = driver.log.feed 10 newline bytes
  copied : ReadsInside driver driver'

variable {driver driver' driver'' : Driver} {task : Nat} {bytes : List UInt8}

theorem mutexLock_eq_some_iff :
    driver.mutexLock task = some driver' ↔
      driver.dev.lock.owner = none ∧
        driver' = { driver with dev :=
          { driver.dev with lock := { driver.dev.lock with owner := some task } } } := by
  unfold mutexLock
  constructor
  · intro locked
    obtain ⟨lock, taken, rfl⟩ := Option.map_eq_some_iff.mp locked
    obtain ⟨free, rfl⟩ := Mutex.lock_eq_some_iff.mp taken
    exact ⟨free, rfl⟩
  · rintro ⟨free, rfl⟩
    rw [Mutex.lock_eq_some_iff.mpr ⟨free, rfl⟩]
    rfl

@[simp]
theorem log_dump (driver : Driver) : driver.dump.log = driver.log := rfl

theorem Valid.dump (valid : driver.Valid) : driver.dump.Valid :=
  ⟨valid.ring, valid.owns, valid.stored, valid.held⟩

theorem isSome_mutexLock_dump (driver : Driver) (task : Nat) :
    (driver.dump.mutexLock task).isSome = (driver.mutexLock task).isSome := by
  unfold mutexLock
  rw [Option.isSome_map, Option.isSome_map]
  rfl

theorem Fed.dump (fed : Fed driver driver' bytes) : Fed driver driver'.dump bytes :=
  ⟨fed.valid.dump, fed.lock, fed.log, fed.copied⟩

theorem mutexUnlock_of_mutexLock (taken : driver.mutexLock task = some driver') :
    driver'.mutexUnlock task = driver := by
  obtain ⟨lock, acquired, rfl⟩ := Option.map_eq_some_iff.mp taken
  change { driver with dev := { driver.dev with lock := lock.unlock task } } = driver
  rw [Mutex.unlock_of_lock acquired]

theorem Valid.mutexLock (valid : driver.Valid) (locked : driver.mutexLock task = some driver') :
    driver'.Valid := by
  obtain ⟨_, rfl⟩ := mutexLock_eq_some_iff.mp locked
  exact ⟨valid.ring, valid.owns, valid.stored, valid.held⟩

theorem Fed.section (locked : driver.mutexLock task = some driver')
    (fed : Fed driver' driver'' bytes) : Fed driver (driver''.mutexUnlock task) bytes := by
  obtain ⟨lock, taken, rfl⟩ := Option.map_eq_some_iff.mp locked
  refine ⟨⟨fed.valid.ring, fed.valid.owns, fed.valid.stored, fed.valid.held⟩, ?_, fed.log,
    fed.copied⟩
  change driver''.dev.lock.unlock task = driver.dev.lock
  rw [fed.lock]
  exact Mutex.unlock_of_lock taken

/-- Bytes without a newline only extend the pending ones. -/
theorem Appended.fed (appended : Appended driver driver' bytes) (clean : newline ∉ bytes) :
    Fed driver driver' bytes where
  valid := appended.valid
  lock := appended.lock
  log := by
    rw [FrameLog.feed_of_notMem _ clean]
    exact FrameLog.ext appended.commands appended.pending
  copied := appended.copied

/-- Bytes that end with their only newline end the pending command. -/
theorem Appended.fed_pushed {body : List UInt8}
    (appended : Appended driver driver' (body ++ [newline])) (clean : newline ∉ body)
    (pushed : Pushed driver' driver'') : Fed driver driver'' (body ++ [newline]) where
  valid := pushed.valid
  lock := pushed.lock.trans appended.lock
  log := by
    rw [FrameLog.feed_frame _ clean]
    apply FrameLog.ext
    · change driver''.commands = _
      rw [pushed.commands, appended.commands, appended.pending]
      rfl
    · exact pushed.pending
  copied range membership := by
    rw [pushed.copied] at membership
    exact appended.copied range membership

end Driver

/-! ## The scan -/

section Scan

variable {buf : List UInt8} {off size : Nat}

theorem userBytes_succ {byte : UInt8} (found : buf[size + off]? = some byte) :
    userBytes buf off (size + 1) = userBytes buf off size ++ [byte] := by
  unfold userBytes
  rw [List.take_add_one, List.getElem?_drop, Nat.add_comm off size, found]
  rfl

@[simp]
theorem userBytes_zero : userBytes buf off 0 = [] := List.take_zero

end Scan

/-- The scan has not passed the end of the buffer, nor a newline since `off`. -/
structure WriteCall.Scanning (call : WriteCall) : Prop where
  inside : call.idx + call.off ≤ call.buf.length
  clean : newline ∉ userBytes call.buf call.off call.idx

namespace WriteCall

variable {call : WriteCall}

theorem initial_scanning (buf : List UInt8) : ({ buf } : WriteCall).Scanning where
  inside := Nat.zero_le _
  clean := by simp

def skip (call : WriteCall) : WriteCall := { call with idx := call.idx + 1 }

/-- The locals after a segment was pushed on top of `pending` earlier bytes. -/
def advance (call : WriteCall) (pending : Nat) : WriteCall :=
  { call with
    wroteBytes := call.wroteBytes + (pending + (call.idx + 1))
    off := call.idx + 1
    idx := 0
    sections := call.sections + 1 }

theorem Scanning.skip (scanning : call.Scanning)
    (inside : call.idx + call.off < call.buf.length)
    (other : call.buf[call.idx + call.off]? ≠ some newline) : call.skip.Scanning where
  inside := by
    change call.idx + 1 + call.off ≤ call.buf.length
    omega
  clean := by
    have found := List.getElem?_eq_getElem inside
    rw [found, ne_eq, Option.some.injEq] at other
    change newline ∉ userBytes call.buf call.off (call.idx + 1)
    rw [userBytes_succ found]
    simp [scanning.clean, Ne.symm other]

theorem advance_scanning (pending : Nat) (inside : call.idx + call.off < call.buf.length) :
    (call.advance pending).Scanning where
  inside := by
    change 0 + (call.idx + 1) ≤ call.buf.length
    omega
  clean := by simp [advance]

end WriteCall

/-! ## The rounds -/

inductive WriteEffect (outcome : Outcome) (call : WriteCall) (driver : Driver) :
    Flow WriteCall Int → Driver → Prop where
  | skip (inside : call.idx + call.off < call.buf.length)
      (other : call.buf[call.idx + call.off]? ≠ some newline) :
      WriteEffect outcome call driver (.next call.skip) driver
  | push {driver' : Driver} (inside : call.idx + call.off < call.buf.length)
      (ends : call.buf[call.idx + call.off]? = some newline) (succeeds : outcome.Succeeds)
      (fed : driver.Fed driver' (userBytes call.buf call.off (call.idx + 1))) :
      WriteEffect outcome call driver (.next (call.advance driver.pending.length)) driver'
  | keep {driver' : Driver} (nonempty : call.idx ≠ 0)
      (atEnd : call.idx + call.off = call.buf.length) (succeeds : outcome.Succeeds)
      (fed : driver.Fed driver' (userBytes call.buf call.off call.idx)) :
      WriteEffect outcome call driver (.leave call.wroteBytes) driver'
  | finish (nothing : call.idx = 0) (atEnd : call.off = call.buf.length) :
      WriteEffect outcome call driver (.leave call.wroteBytes) driver.dump
  | fail {driver' : Driver} {error : Int} (negative : error < 0) (fails : ¬ outcome.Succeeds)
      (unchanged : driver.Fed driver' []) :
      WriteEffect outcome call driver (.leave error) driver'

namespace Driver

theorem Fed.refl {driver : Driver} (valid : driver.Valid) : driver.Fed driver [] :=
  (Appended.refl valid).fed (by simp)

end Driver

section Effect

variable {task : Nat} {outcome : Outcome} {call : WriteCall} {driver driver' : Driver}
  {flow : Flow WriteCall Int}

theorem interrupted_effect (valid : driver.Valid) (interrupted : outcome.interrupted = true) :
    WriteEffect outcome call driver (.leave (-erestartsys)) driver := by
  refine .fail (by decide) (fun succeeds => ?_) (.refl valid)
  rw [succeeds.1] at interrupted
  contradiction

/-- A locked section either fails, or it has the lock and its bytes are appended. -/
theorem section_cases {size : Nat} {succeeded : Driver → Flow WriteCall Int × Driver}
    (valid : driver.Valid) (inside : call.off + size ≤ call.buf.length)
    (taken : (if outcome.interrupted then some (.leave (-erestartsys), driver)
      else (driver.mutexLock task).map fun driver =>
        match driver.appendTemporary outcome call.buf call.off size with
        | (some error, driver) => (.leave error, driver.mutexUnlock task)
        | (none, driver) => succeeded driver) = some (flow, driver')) :
    WriteEffect outcome call driver flow driver' ∨
      outcome.interrupted = false ∧ ∃ locked grown, driver.mutexLock task = some locked ∧
        locked.Valid ∧
        locked.appendTemporary outcome call.buf call.off size = (none, grown) ∧
        succeeded grown = (flow, driver') := by
  cases interrupted : outcome.interrupted with
  | true =>
      left
      simp only [interrupted, if_true, Option.some.injEq, Prod.mk.injEq] at taken
      obtain ⟨rfl, rfl⟩ := taken
      exact interrupted_effect valid interrupted
  | false =>
      simp only [interrupted, Bool.false_eq_true, if_false] at taken
      obtain ⟨locked, lock, result⟩ := Option.map_eq_some_iff.mp taken
      have validLocked := valid.mutexLock lock
      cases appended : locked.appendTemporary outcome call.buf call.off size with
      | mk error grown =>
          cases error with
          | some error =>
              left
              simp only [appended, Prod.mk.injEq] at result
              obtain ⟨rfl, rfl⟩ := result
              obtain ⟨negative, fails, kept⟩ :=
                validLocked.appendTemporary_failed _ _ _ _ inside appended
              exact .fail negative fails ((kept.fed (by simp)).section lock)
          | none =>
              right
              simp only [appended] at result
              exact ⟨rfl, locked, grown, lock, validLocked, appended, result⟩

theorem pushSection_effect (valid : driver.Valid) (scanning : call.Scanning)
    (inside : call.idx + call.off < call.buf.length)
    (ends : call.buf[call.idx + call.off]? = some newline)
    (taken : pushSection task outcome call driver = some (flow, driver')) :
    WriteEffect outcome call driver flow driver' := by
  have insideSegment : call.off + (call.idx + 1) ≤ call.buf.length := by omega
  have segment := userBytes_succ ends
  unfold pushSection at taken
  rcases section_cases valid insideSegment taken with
    effect | ⟨goesOn, locked, grown, lock, validLocked, appended, result⟩
  · exact effect
  · simp only [Prod.mk.injEq] at result
    obtain ⟨rfl, rfl⟩ := result
    obtain ⟨grew, stored, memory, copied⟩ :=
      validLocked.appendTemporary_done _ _ _ _ insideSegment appended
    obtain ⟨size, pushed⟩ := grew.valid.pushTemporary stored
    rw [segment] at grew
    have fed := (grew.fed_pushed scanning.clean pushed).section lock
    rw [← segment] at fed
    have counted : grown.pushTemporary.1 = driver.pending.length + (call.idx + 1) := by
      rw [size, grew.pending, ← segment, List.length_append, length_userBytes _ insideSegment]
      obtain ⟨_, rfl⟩ := Driver.mutexLock_eq_some_iff.mp lock
      rfl
    rw [counted]
    exact .push inside ends ⟨goesOn, memory, copied (Nat.succ_pos _)⟩ fed

theorem tailSection_effect (valid : driver.Valid) (scanning : call.Scanning)
    (nonempty : call.idx ≠ 0) (atEnd : call.idx + call.off = call.buf.length)
    (taken : tailSection task outcome call driver = some (flow, driver')) :
    WriteEffect outcome call driver flow driver' := by
  have insideTail : call.off + call.idx ≤ call.buf.length := by omega
  unfold tailSection at taken
  rcases section_cases valid insideTail taken with
    effect | ⟨goesOn, locked, grown, lock, validLocked, appended, result⟩
  · exact effect
  · simp only [Prod.mk.injEq] at result
    obtain ⟨rfl, rfl⟩ := result
    obtain ⟨grew, _, memory, copied⟩ :=
      validLocked.appendTemporary_done _ _ _ _ insideTail appended
    exact .keep nonempty atEnd ⟨goesOn, memory, copied (Nat.pos_of_ne_zero nonempty)⟩
      ((grew.fed scanning.clean).section lock).dump

theorem aesdWriteRound_effect (valid : driver.Valid) (scanning : call.Scanning)
    (taken : aesdWriteRound task outcome call driver = some (flow, driver')) :
    WriteEffect outcome call driver flow driver' := by
  unfold aesdWriteRound at taken
  by_cases inside : call.idx + call.off < call.buf.length
  · rw [if_pos inside] at taken
    by_cases ends : call.buf[call.idx + call.off]? = some newline
    · rw [if_pos ends] at taken
      exact pushSection_effect valid scanning inside ends taken
    · rw [if_neg ends] at taken
      simp only [Option.some.injEq, Prod.mk.injEq] at taken
      obtain ⟨rfl, rfl⟩ := taken
      exact .skip inside ends
  · rw [if_neg inside] at taken
    by_cases tail : call.idx ≠ 0 ∧ call.idx + call.off = call.buf.length
    · rw [if_pos tail] at taken
      exact tailSection_effect valid scanning tail.1 tail.2 taken
    · rw [if_neg tail] at taken
      simp only [Option.some.injEq, Prod.mk.injEq] at taken
      obtain ⟨rfl, rfl⟩ := taken
      have bound := scanning.inside
      refine .finish ?_ ?_ <;> omega

/-- A round sleeps only on a lock that another task holds. -/
theorem aesdWriteRound_isSome (free : driver.dev.lock.owner = none) :
    (aesdWriteRound task outcome call driver).isSome := by
  have locked : driver.mutexLock task = some _ := Driver.mutexLock_eq_some_iff.mpr ⟨free, rfl⟩
  simp only [aesdWriteRound, pushSection, tailSection, locked]
  repeat' split
  all_goals rfl

/-- Every round that ends keeps the invariant and the lock, and stays inside the
buffer. -/
theorem WriteEffect.keeps (valid : driver.Valid)
    (effect : WriteEffect outcome call driver flow driver') :
    ∃ bytes, driver.Fed driver' bytes := by
  cases effect with
  | skip _ _ => exact ⟨_, .refl valid⟩
  | push _ _ _ fed => exact ⟨_, fed⟩
  | keep _ _ _ fed => exact ⟨_, fed⟩
  | finish _ _ => exact ⟨_, (Driver.Fed.refl valid).dump⟩
  | fail _ _ unchanged => exact ⟨_, unchanged⟩

end Effect

end Aesd
