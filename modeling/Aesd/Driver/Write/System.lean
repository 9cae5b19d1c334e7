import Aesd.Driver.Write.Call
import Mathlib.Logic.Function.Basic

/-!
# Interleaved calls of `aesd_write`

Any number of tasks run `aesd_write` on one device.  A step begins a call or
lets a running call do one round; what the kernel answers to the round is part
of the label.  `WriteSystem.Valid` is kept by every step, so it holds in every
state that a run reaches, in the middle of calls and after failures.
-/

namespace Aesd

open BlockHeap Concurrency Framing Loop

structure WriteSystem where
  driver : Driver
  /-- The call that a task is in. -/
  running : Nat → Option WriteCall

inductive WriteLabel where
  | enter (task : Nat) (buf : List UInt8)
  | round (task : Nat) (outcome : Outcome)
  deriving DecidableEq, Repr

namespace WriteSystem

def init : WriteSystem := ⟨.init, fun _ => none⟩

def afterRound (system : WriteSystem) (task : Nat) (flow : Flow WriteCall Int)
    (driver : Driver) : WriteSystem :=
  match flow with
  | .next call => ⟨driver, Function.update system.running task (some call)⟩
  | .leave _ => ⟨driver, Function.update system.running task none⟩

def step (system : WriteSystem) : WriteLabel → Option WriteSystem
  | .enter task buf =>
      match system.running task with
      | some _ => none
      | none => some { system with running := Function.update system.running task (some { buf }) }
  | .round task outcome =>
      match system.running task with
      | none => none
      | some call =>
          (aesdWriteRound task outcome call system.driver).map fun (flow, driver) =>
            system.afterRound task flow driver

def Step (system : WriteSystem) (label : WriteLabel) (system' : WriteSystem) : Prop :=
  system.step label = some system'

/-- The invariant of interleaved calls. It ties the scan of every running call to
its own buffer, and what has been stored to the shape of commands. -/
structure Valid (system : WriteSystem) : Prop where
  driver : system.driver.Valid
  log : system.driver.log.WellFormed 10 newline
  located : ∀ task call, system.running task = some call → call.Located
  inside : ∀ range ∈ system.driver.copied, range.off + range.size ≤ range.count

section Step

variable {system system' : WriteSystem} {label : WriteLabel}

theorem Valid.step_cases (valid : system.Valid) (taken : system.Step label system') :
    (∃ task buf, label = .enter task buf ∧ system.running task = none ∧
      system' = { system with running := Function.update system.running task (some { buf }) }) ∨
    (∃ task outcome call flow driver', label = .round task outcome ∧
      system.running task = some call ∧ WriteEffect outcome call system.driver flow driver' ∧
      system' = system.afterRound task flow driver') := by
  unfold Step at taken
  cases label with
  | enter task buf =>
      cases busy : system.running task with
      | some call => simp [WriteSystem.step, busy] at taken
      | none =>
          simp only [WriteSystem.step, busy, Option.some.injEq] at taken
          exact .inl ⟨task, buf, rfl, busy, taken.symm⟩
  | round task outcome =>
      cases busy : system.running task with
      | none => simp [WriteSystem.step, busy] at taken
      | some call =>
          simp only [WriteSystem.step, busy] at taken
          obtain ⟨⟨flow, driver'⟩, round, result⟩ := Option.map_eq_some_iff.mp taken
          have scanning := (valid.located task call busy).toScanning
          exact .inr ⟨task, outcome, call, flow, driver', rfl, busy,
            aesdWriteRound_effect valid.driver scanning round, result.symm⟩

@[simp]
theorem driver_afterRound (system : WriteSystem) (task : Nat) (flow : Flow WriteCall Int)
    (driver : Driver) : (system.afterRound task flow driver).driver = driver := by
  cases flow <;> rfl

theorem running_afterRound_of_ne (system : WriteSystem) {task other : Nat}
    (different : other ≠ task) (flow : Flow WriteCall Int) (driver : Driver) :
    (system.afterRound task flow driver).running other = system.running other := by
  cases flow <;> exact Function.update_of_ne different _ _

theorem running_afterRound_self (system : WriteSystem) (task : Nat) (flow : Flow WriteCall Int)
    (driver : Driver) : (system.afterRound task flow driver).running task =
      match flow with
      | .next call => some call
      | .leave _ => none := by
  cases flow <;> exact Function.update_self _ _ _

theorem init_valid : init.Valid where
  driver := Driver.init_valid
  log := FrameLog.empty_wellFormed
  located _ _ busy := by simp [init] at busy
  inside _ membership := by simp [init, Driver.init] at membership

theorem Valid.step (valid : system.Valid) (taken : system.Step label system') :
    system'.Valid ∧ system'.driver.dev.lock = system.driver.dev.lock := by
  rcases valid.step_cases taken with
    ⟨task, buf, _, _, rfl⟩ | ⟨task, outcome, call, flow, driver', _, busy, effect, rfl⟩
  · refine ⟨⟨valid.driver, valid.log, ?_, valid.inside⟩, rfl⟩
    intro other call busy
    by_cases same : other = task
    · subst same
      simp only [Function.update_self, Option.some.injEq] at busy
      exact busy ▸ WriteCall.initial_located buf
    · simp only [Function.update_of_ne same] at busy
      exact valid.located other call busy
  · obtain ⟨bytes, fed⟩ := effect.keeps valid.driver
    refine ⟨⟨?_, ?_, ?_, ?_⟩, ?_⟩
    · rw [driver_afterRound]
      exact fed.valid
    · rw [driver_afterRound, fed.log]
      exact valid.log.feed bytes
    · intro other call' busy'
      by_cases same : other = task
      · subst same
        rw [running_afterRound_self] at busy'
        cases flow with
        | leave result => simp at busy'
        | next next =>
            simp only [Option.some.injEq] at busy'
            subst busy'
            exact (effect.located (valid.located other call busy)).1
      · rw [running_afterRound_of_ne system same] at busy'
        exact valid.located other call' busy'
    · intro range membership
      rw [driver_afterRound] at membership
      rcases fed.copied range membership with before | inside
      · exact valid.inside range before
      · exact inside
    · rw [driver_afterRound, fed.lock]

theorem Valid.run {labels : List WriteLabel} (run : Run Step system labels system')
    (valid : system.Valid) : system'.Valid :=
  run.invariant (fun _ _ _ kept taken => (Valid.step kept taken).1) valid

end Step

/-- In every state that interleaved calls reach, the live commands are frames that
fill their blocks, the pending bytes are an unfinished one, and nothing was read
from outside a caller's buffer. -/
theorem reachable_wellFormed {labels : List WriteLabel} {system : WriteSystem}
    (run : Run Step init labels system) :
    (∀ entry ∈ system.driver.dev.data.liveEntries,
      0 < entry.size ∧
      (∃ body, newline ∉ body ∧
        Driver.entryBytes system.driver.heap entry = body ++ [newline]) ∧
      (system.driver.heap.content entry.buffptr).length = entry.size) ∧
    newline ∉ system.driver.pending ∧
    system.driver.pending.length = system.driver.dev.currentTemporaryBufferSize ∧
    ∀ range ∈ system.driver.copied, range.off + range.size ≤ range.count := by
  have valid := Valid.run run init_valid
  refine ⟨?_, valid.log.unfinished, Driver.length_pending valid.driver, valid.inside⟩
  intro entry membership
  have stored := valid.driver.stored entry membership
  obtain ⟨body, absent, bytes⟩ := valid.log.framed _ (List.mem_map_of_mem membership)
  have size := stored.length_entryBytes
  refine ⟨?_, ⟨body, absent, bytes⟩, ?_⟩
  · rw [← size, bytes, List.length_append]
    exact Nat.succ_pos _
  · rw [← stored.entryBytes_eq, size]

def interleavedLabels : List WriteLabel :=
  [.enter 0 [97, 10, 98], .enter 1 [99, 10], .round 0 {}, .round 0 {}, .round 1 {},
    .round 0 {}, .round 1 { notCopied := 1 }, .round 0 {}]

theorem reachable_wellFormed_interleaved :
    ∃ system, Run Step init interleavedLabels system ∧
      system.driver.commands = [[97, 10]] ∧ newline ∉ system.driver.pending := by
  obtain ⟨system, taken, commands⟩ : ∃ system, follow step init interleavedLabels = some system ∧
      system.driver.commands = [[97, 10]] := ⟨_, rfl, by decide⟩
  have run : Run Step init interleavedLabels system := run_of_follow taken
  exact ⟨system, run, commands, (reachable_wellFormed run).2.1⟩

end WriteSystem

end Aesd
