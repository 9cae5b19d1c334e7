import Aesd.Driver.Write.Call

/-!
# When `aesd_write` terminates

The scan loop runs while `idx + off` is below `count`.  A skipped byte and the
first push move `idx + off` on by one.  The second push sets `off` to the length
of its segment instead of the end of it, which never is behind the newline that
it has just found: from there on the loop pushes segments for ever.
-/

namespace Aesd

open BlockHeap Concurrency Loop

def WriteCall.position (call : WriteCall) : Nat := call.idx + call.off

/-- Every iteration of the scan loop of a call moves its position on. -/
def ScanProgresses (task : Nat) (outcomes : Nat → Outcome) (start : Driver)
    (buf : List UInt8) : Prop :=
  ∀ state state', Reaches (aesdWriteLoop task outcomes) ({ buf }, start) state →
    state.1.position < buf.length → aesdWriteLoop task outcomes state = some (.next state') →
    state.1.position < state'.1.position

theorem singleNewline_iff {buf : List UInt8} : SingleNewline buf ↔ buf.count newline ≤ 1 := by
  by_cases present : newline ∈ buf
  · obtain ⟨body, rest, rfl, absent⟩ := List.eq_append_cons_of_mem present
    rw [singleNewline_append_cons absent, List.count_append, List.count_eq_zero_of_not_mem absent,
      List.count_cons_self, ← List.count_eq_zero]
    omega
  · rw [List.count_eq_zero_of_not_mem present]
    exact iff_of_true (singleNewline_of_notMem present) (Nat.zero_le 1)

section Rounds

variable {task : Nat} {outcomes : Nat → Outcome} {outcome : Outcome} {call : WriteCall}
  {driver : Driver}

theorem Driver.appendTemporary_succeeds (succeeds : outcome.Succeeds) (buf : List UInt8)
    (off size : Nat) :
    ∃ driver', driver.appendTemporary outcome buf off size = (none, driver') ∧
      driver'.dev.lock = driver.dev.lock ∧
      driver'.dev.currentTemporaryBufferSize = driver.dev.currentTemporaryBufferSize + size := by
  obtain ⟨_, allocates, copies⟩ := succeeds
  have appended : (driver.appendTemporary outcome buf off size).1 = none ∧
      (driver.appendTemporary outcome buf off size).2.dev.lock = driver.dev.lock ∧
      (driver.appendTemporary outcome buf off size).2.dev.currentTemporaryBufferSize =
        driver.dev.currentTemporaryBufferSize + size := by
    simp [appendTemporary, krealloc, copyFromUser, allocates, copies]
  exact ⟨_, Prod.ext appended.1 rfl, appended.2⟩

theorem pushSection_succeeds (task : Nat) (succeeds : outcome.Succeeds)
    (free : driver.dev.lock.owner = none) (call : WriteCall) :
    ∃ pending driver', pushSection task outcome call driver =
        some (.next (call.advance pending), driver') ∧
      driver'.dev.lock = driver.dev.lock ∧ driver'.dev.temporaryCommandBuffer = none := by
  obtain ⟨locked, taken⟩ : ∃ locked, driver.mutexLock task = some locked :=
    ⟨_, Driver.mutexLock_eq_some_iff.mpr ⟨free, rfl⟩⟩
  obtain ⟨grown, appended, lock, size⟩ := @Driver.appendTemporary_succeeds outcome locked succeeds
    call.buf call.off (call.idx + 1)
  refine ⟨locked.dev.currentTemporaryBufferSize, grown.pushTemporary.2.mutexUnlock task, ?_, ?_,
    rfl⟩
  · simp only [pushSection, succeeds.1, Bool.false_eq_true, if_false, taken, Option.map_some,
      appended, Driver.pushTemporary, size]
    rfl
  · have released := congrArg (fun driver => driver.dev.lock)
      (Driver.mutexUnlock_of_mutexLock taken)
    change grown.dev.lock.unlock task = driver.dev.lock
    rw [lock]
    exact released

theorem tailSection_succeeds (task : Nat) (succeeds : outcome.Succeeds)
    (free : driver.dev.lock.owner = none) (call : WriteCall) :
    ∃ driver', tailSection task outcome call driver =
      some (.leave call.wroteBytes, driver') := by
  obtain ⟨locked, taken⟩ : ∃ locked, driver.mutexLock task = some locked :=
    ⟨_, Driver.mutexLock_eq_some_iff.mpr ⟨free, rfl⟩⟩
  obtain ⟨grown, appended, _⟩ := @Driver.appendTemporary_succeeds outcome locked succeeds
    call.buf call.off call.idx
  refine ⟨(grown.mutexUnlock task).dump, ?_⟩
  simp only [tailSection, succeeds.1, Bool.false_eq_true, if_false, taken, Option.map_some,
    appended]

/-- A round of a call that nothing disturbs: it skips a byte, pushes a segment or
leaves. -/
theorem aesdWriteLoop_cases (task : Nat) (succeeds : ∀ sections, (outcomes sections).Succeeds)
    (free : driver.dev.lock.owner = none) (call : WriteCall) :
    (call.position < call.buf.length ∧ call.buf[call.position]? ≠ some newline ∧
      aesdWriteLoop task outcomes (call, driver) = some (.next (call.skip, driver))) ∨
    (call.position < call.buf.length ∧ call.buf[call.position]? = some newline ∧
      ∃ pending driver', aesdWriteLoop task outcomes (call, driver) =
          some (.next (call.advance pending, driver')) ∧
        driver'.dev.lock.owner = none) ∨
    (call.buf.length ≤ call.position ∧
      ∃ result, aesdWriteLoop task outcomes (call, driver) = some (.leave result)) := by
  by_cases inside : call.idx + call.off < call.buf.length
  · by_cases ends : call.buf[call.idx + call.off]? = some newline
    · obtain ⟨pending, driver', pushed, lock, _⟩ :=
        pushSection_succeeds task (succeeds call.sections) free call
      refine .inr (.inl ⟨inside, ends, pending, driver', ?_, by rw [lock, free]⟩)
      simp only [aesdWriteLoop, aesdWriteRound, if_pos inside, if_pos ends, pushed,
        Option.map_some]
    · refine .inl ⟨inside, ends, ?_⟩
      simp only [aesdWriteLoop, aesdWriteRound, if_pos inside, if_neg ends, Option.map_some]
      rfl
  · refine .inr (.inr ⟨Nat.not_lt.mp inside, ?_⟩)
    by_cases tail : call.idx ≠ 0 ∧ call.idx + call.off = call.buf.length
    · obtain ⟨driver', kept⟩ := tailSection_succeeds task (succeeds call.sections) free call
      refine ⟨(call.wroteBytes, driver'), ?_⟩
      simp only [aesdWriteLoop, aesdWriteRound, if_neg inside, if_pos tail, kept,
        Option.map_some]
    · refine ⟨(call.wroteBytes, driver.dump), ?_⟩
      simp only [aesdWriteLoop, aesdWriteRound, if_neg inside, if_neg tail, Option.map_some]

end Rounds

/-! ## One newline, and more than one -/

/-- Where a call that nothing disturbs can be. -/
structure Undisturbed (buf : List UInt8) (state : WriteCall × Driver) : Prop where
  buf_eq : state.1.buf = buf
  located : state.1.Located
  free : state.2.dev.lock.owner = none

section Termination

variable {task : Nat} {outcomes : Nat → Outcome} {start : Driver} {buf : List UInt8}
  {state state' : WriteCall × Driver}

theorem Undisturbed.initial (free : start.dev.lock.owner = none) (buf : List UInt8) :
    Undisturbed buf ({ buf }, start) :=
  ⟨rfl, WriteCall.initial_located buf, free⟩

theorem Undisturbed.next (undisturbed : Undisturbed buf state)
    (succeeds : ∀ sections, (outcomes sections).Succeeds)
    (continued : aesdWriteLoop task outcomes state = some (.next state')) :
    Undisturbed buf state' := by
  obtain ⟨rfl, located, free⟩ := undisturbed
  rcases aesdWriteLoop_cases task succeeds free state.1 with
    ⟨inside, other, skipped⟩ | ⟨inside, ends, pending, driver', pushed, freeAfter⟩ |
      ⟨_, result, left⟩
  · cases continued.symm.trans skipped
    exact ⟨rfl, located.skip inside other, free⟩
  · cases continued.symm.trans pushed
    exact ⟨rfl, located.advance inside ends pending, freeAfter⟩
  · cases continued.symm.trans left

theorem Undisturbed.exists_flow (undisturbed : Undisturbed buf state)
    (succeeds : ∀ sections, (outcomes sections).Succeeds) (task : Nat) :
    ∃ flow, aesdWriteLoop task outcomes state = some flow := by
  rcases aesdWriteLoop_cases task succeeds undisturbed.free state.1 with
    ⟨_, _, skipped⟩ | ⟨_, _, pending, driver', pushed, _⟩ | ⟨_, result, left⟩
  · exact ⟨_, skipped⟩
  · exact ⟨_, pushed⟩
  · exact ⟨_, left⟩

/-- A buffer with one newline is scanned in one direction. -/
theorem Undisturbed.position_lt (undisturbed : Undisturbed buf state)
    (succeeds : ∀ sections, (outcomes sections).Succeeds) (single : SingleNewline buf)
    (continued : aesdWriteLoop task outcomes state = some (.next state')) :
    state.1.position < state'.1.position ∧ state.1.position < buf.length := by
  have undisturbed' := undisturbed.next succeeds continued
  obtain ⟨rfl, located, free⟩ := undisturbed
  rcases aesdWriteLoop_cases task succeeds free state.1 with
    ⟨inside, _, skipped⟩ | ⟨inside, _, pending, driver', pushed, _⟩ | ⟨_, result, left⟩
  · cases continued.symm.trans skipped
    refine ⟨?_, inside⟩
    change state.1.idx + state.1.off < state.1.idx + 1 + state.1.off
    omega
  · cases continued.symm.trans pushed
    have few : state.1.sections + 1 ≤ 1 := undisturbed'.located.sections_le single
    have noSections : state.1.sections = 0 := by omega
    have atStart : state.1.off = 0 := by
      rw [located.off_eq, noSections]
      rfl
    refine ⟨?_, inside⟩
    change state.1.idx + state.1.off < 0 + (state.1.idx + 1)
    omega
  · cases continued.symm.trans left

/-- With a second newline every round goes on. -/
theorem Undisturbed.stays (undisturbed : Undisturbed buf state)
    (succeeds : ∀ sections, (outcomes sections).Succeeds) (several : ¬ SingleNewline buf)
    (task : Nat) :
    ∃ state', aesdWriteLoop task outcomes state = some (.next state') ∧
      Undisturbed buf state' := by
  rcases aesdWriteLoop_cases task succeeds undisturbed.free state.1 with
    ⟨_, _, skipped⟩ | ⟨_, _, pending, driver', pushed, _⟩ | ⟨atEnd, _⟩
  · exact ⟨_, skipped, undisturbed.next succeeds skipped⟩
  · exact ⟨_, pushed, undisturbed.next succeeds pushed⟩
  · have same := undisturbed.buf_eq
    have inside := undisturbed.located.inside
    have reachedEnd := undisturbed.located.atEnd (Nat.le_antisymm inside atEnd)
    rw [same] at reachedEnd
    exact absurd reachedEnd.1 several

theorem aesdWrite_returns_of_single (task : Nat)
    (succeeds : ∀ sections, (outcomes sections).Succeeds) (free : start.dev.lock.owner = none)
    (single : SingleNewline buf) :
    ∃ result, aesdWrite task outcomes (buf.length + 1) start buf = some result := by
  obtain ⟨result, returned, _⟩ := run_total (Undisturbed buf)
    (fun state => buf.length - state.1.position) (fun _ => True) (fun state undisturbed => by
      obtain ⟨flow, taken⟩ := undisturbed.exists_flow succeeds task
      cases flow with
      | leave result => exact .inl ⟨result, taken, trivial⟩
      | next state' =>
          obtain ⟨further, inside⟩ := undisturbed.position_lt succeeds single taken
          exact .inr ⟨state', taken, undisturbed.next succeeds taken, by omega⟩)
    (Undisturbed.initial free buf) (Nat.lt_succ_of_le (Nat.sub_le _ _))
  exact ⟨result, returned⟩

/-- A call that nothing disturbs returns, and every iteration of its scan loop moves
on, exactly if the buffer has at most one newline. It then needs no more iterations
than the buffer has bytes. -/
theorem aesdWrite_terminates_iff (task : Nat)
    (succeeds : ∀ sections, (outcomes sections).Succeeds) (free : start.dev.lock.owner = none)
    (buf : List UInt8) :
    ((ScanProgresses task outcomes start buf ∧
        ∃ result, aesdWrite task outcomes (buf.length + 1) start buf = some result) ↔
      buf.count newline ≤ 1) ∧
    ((∃ fuel result, aesdWrite task outcomes fuel start buf = some result) ↔
      buf.count newline ≤ 1) := by
  have initial := Undisturbed.initial free buf
  have single_of_returned : ∀ {fuel result},
      aesdWrite task outcomes fuel start buf = some result → SingleNewline buf := by
    intro fuel result returned
    by_contra several
    have sleeps : aesdWrite task outcomes fuel start buf = none :=
      run_eq_none (Undisturbed buf)
        (fun _ undisturbed => undisturbed.stays succeeds several task) initial fuel
    cases returned.symm.trans sleeps
  have progresses (single : SingleNewline buf) : ScanProgresses task outcomes start buf := by
    intro state state' reached _ continued
    have undisturbed := reached.invariant
      (fun _ _ undisturbed continued => Undisturbed.next undisturbed succeeds continued) initial
    exact (undisturbed.position_lt succeeds single continued).1
  rw [← singleNewline_iff]
  constructor
  · constructor
    · rintro ⟨_, result, returned⟩
      exact single_of_returned returned
    · intro single
      exact ⟨progresses single, aesdWrite_returns_of_single task succeeds free single⟩
  · constructor
    · rintro ⟨fuel, result, returned⟩
      exact single_of_returned returned
    · intro single
      exact ⟨buf.length + 1, aesdWrite_returns_of_single task succeeds free single⟩

/-- One newline with bytes behind it. -/
theorem aesdWrite_terminates_iff_command :
    ∃ result, aesdWrite 0 (fun _ => {}) 4 .init [97, newline, 98] = some result :=
  ((aesdWrite_terminates_iff 0 (fun _ => by decide) rfl [97, newline, 98]).1.mpr (by decide)).2

/-- Two commands in one buffer. -/
theorem aesdWrite_loops : ¬ ∃ fuel result,
    aesdWrite 0 (fun _ => {}) fuel .init [97, newline, 98, newline] = some result := by
  rintro ⟨fuel, result, returned⟩
  have initial : Undisturbed [97, newline, 98, newline] ({ buf := _ }, Driver.init) :=
    .initial rfl _
  have sleeps : aesdWrite 0 (fun _ => {}) fuel .init [97, newline, 98, newline] = none :=
    run_eq_none _ (fun _ undisturbed => undisturbed.stays (fun _ => by decide) (by decide) 0)
      initial fuel
  cases returned.symm.trans sleeps

end Termination

end Aesd
