import Aesd.Driver.Dump
import Aesd.Driver.Locking
import Aesd.Driver.Seek

/-!
# Reads of a reachable device

Every run of the file operations keeps the device valid, so that what is proved
about valid devices holds whatever was written, sought and evicted before.  A
position can be left behind the content by an eviction; the difference that
`aesd_read` then computes wraps to a large number, and `count` is what is asked for.
What keeps a read from its purpose is the dump of the ring in front of it, and a lock
that was not given back.
-/

namespace Aesd

open BlockHeap Concurrency Loop

/-- `MAX_RW_COUNT`: the VFS asks for no more bytes in one call. -/
def maxRwCount : Nat := 0x7ffff000

/-- How many of `count` bytes there are from a position on. -/
def Driver.available (driver : Driver) (fPos count : Nat) : Nat :=
  min count (driver.content.length - fPos)

/-- What `aesd_read` is for: it returns the bytes from the position on, moves the position
behind them and changes nothing else. -/
def Driver.ReadsSlice (driver : Driver) (task fPos count fuel : Nat) : Prop :=
  ∃ call : ReadCall,
    aesdRead task {} (fun _ => 0) fuel driver fPos count =
      some ((((driver.available fPos count : Nat) : Int), call), driver) ∧
    call.data = (driver.content.drop fPos).take (driver.available fPos count) ∧
    call.fPos = fPos + (driver.available fPos count : Nat)

theorem Driver.Valid.length_command_lt {driver : Driver} (valid : driver.Valid)
    (small : driver.dev.data.liveSize < 2 ^ 63) :
    ∀ command ∈ driver.commands, command.length < 2 ^ 64 := by
  intro command membership
  have inside : command.length ≤ driver.content.length :=
    (List.sublist_flatten_of_mem membership).length_le
  rw [valid.length_content] at inside
  omega

namespace System

variable {fixedSizeLlseek : Int → Int → Int → Nat → Int × Int} {system system' : System}
  {labels : List Label}

theorem valid_of_run (run : Run (Step fixedSizeLlseek) system labels system')
    (valid : system.writes.Valid) : system'.writes.Valid := by
  induction run with
  | nil => exact valid
  | cons taken _ inductionHypothesis => exact inductionHypothesis (step_lock valid taken).1

theorem reachable_valid (run : Run (Step fixedSizeLlseek) init labels system) :
    system.writes.driver.Valid :=
  (valid_of_run run WriteSystem.init_valid).driver

theorem lock_free_of_writes (run : Run (Step fixedSizeLlseek) init labels system)
    (writes : ∀ label ∈ labels, ∃ written, label = .write written) :
    system.lock.owner = none := by
  refine (run_lock run WriteSystem.init_valid).2.mpr ⟨rfl, ?_⟩
  intro label membership
  rcases writes label membership with ⟨written, rfl⟩
  exact id

theorem run_writes {writes writes' : WriteSystem} {written : List WriteLabel}
    (run : Run WriteSystem.Step writes written writes') (fPos : Nat → Int) :
    Run (Step fixedSizeLlseek) ⟨writes, fPos⟩ (written.map .write) ⟨writes', fPos⟩ := by
  induction run with
  | nil => exact .nil _
  | cons taken _ inductionHypothesis =>
      refine .cons ?_ inductionHypothesis
      exact Option.map_eq_some_iff.mpr ⟨_, taken, rfl⟩

/-- A read of a reachable device returns the slice of the content at the position, advances
the position by its length and changes nothing else exactly if no live command is longer
than the buffer of the dump and no call has kept the lock. -/
theorem reachable_read_iff (run : Run (Step fixedSizeLlseek) init labels system)
    (fits : system.writes.driver.FitsAddressSpace) (task : Nat) {fPos count fuel : Nat}
    (position : fPos < 2 ^ 63) (limited : count ≤ maxRwCount) (enough : count < fuel) :
    system.writes.driver.ReadsSlice task fPos count fuel ↔
      (∀ command ∈ system.writes.driver.commands, command.length ≤ tmpBufferSize) ∧
        system.lock.owner = none := by
  have valid := reachable_valid run
  have small := valid.liveSize_lt fits
  have stays := valid.dump_eq_iff (valid.length_command_lt small)
  constructor
  · rintro ⟨call, returned, _, _⟩
    refine ⟨stays.mp (aesdRead_driver returned).symm, ?_⟩
    rcases Option.bind_eq_some_iff.mp returned with ⟨locked, taken, _⟩
    exact (Driver.mutexLock_eq_some_iff.mp taken).1
  · rintro ⟨short, free⟩
    have countSmall : count < 2 ^ 63 := Nat.lt_of_le_of_lt limited (by decide)
    rcases aesdRead_returns task valid free small position countSmall enough with
      ⟨call, returned, stored, advanced⟩
    have length : call.data.length = system.writes.driver.available fPos count := by
      rw [stored, List.length_take, List.length_drop]
      rfl
    rw [length, stays.mpr short] at returned
    rw [length] at advanced
    refine ⟨call, returned, ?_, advanced⟩
    rw [stored, List.take_eq_take_iff, List.length_drop, Driver.available]
    omega

def readableLabels : List Label :=
  [.write (.enter 0 [97, 98, 10]), .write (.round 0 {}), .write (.round 0 {}),
    .write (.round 0 {}), .write (.round 0 {})]

theorem reachable_read_iff_command : ∃ system,
    Run (Step kernelFixedSizeLlseek) init readableLabels system ∧
      system.writes.driver.content = [97, 98, 10] ∧
      system.writes.driver.ReadsSlice 1 1 5 6 := by
  obtain ⟨system, taken, fits, free, commands⟩ : ∃ system,
      follow (step kernelFixedSizeLlseek) init readableLabels = some system ∧
        system.writes.driver.FitsAddressSpace ∧ system.lock.owner = none ∧
        system.writes.driver.commands = [[97, 98, 10]] :=
    ⟨_, rfl, by decide, rfl, by decide⟩
  have run : Run (Step kernelFixedSizeLlseek) init readableLabels system := run_of_follow taken
  refine ⟨system, run, by rw [Driver.content, commands]; rfl, ?_⟩
  refine (reachable_read_iff run fits 1 (by decide) (by decide) (by decide)).mpr ⟨?_, free⟩
  rw [commands]
  decide

/-- With a command of 513 bytes no read leaves the device as it was. -/
theorem reachable_read_overruns : ∃ labels system command,
    Run (Step kernelFixedSizeLlseek) init labels system ∧
      system.writes.driver.FitsAddressSpace ∧ system.lock.owner = none ∧
      system.writes.driver.commands = [command] ∧ command.length = 513 ∧
      ∀ task fPos count fuel, ¬ system.writes.driver.ReadsSlice task fPos count fuel := by
  rcases WriteSystem.exists_run_command 512 with
    ⟨labels, writes, command, written, only, length, released⟩
  have run := @run_writes kernelFixedSizeLlseek _ _ _ written fun _ => 0
  have valid := reachable_valid run
  have small : writes.driver.content.length = 513 := by
    rw [Driver.content, only, List.flatten_singleton, length]
  have live : writes.driver.dev.data.liveSize = 513 := by
    rw [← small]
    exact valid.length_content.symm
  refine ⟨_, _, command, run, ?_, lock_free_of_writes run ?_, only, length, ?_⟩
  · unfold Driver.FitsAddressSpace
    rw [valid.sum_capacities, live, released]
    exact (by decide : 0 + 513 < 2 ^ 63)
  · intro label membership
    rcases List.mem_map.mp membership with ⟨written, _, rfl⟩
    exact ⟨written, rfl⟩
  · rintro task fPos count fuel ⟨call, returned, _, _⟩
    have stays := (valid.dump_eq_iff (valid.length_command_lt (by rw [live]; decide))).mp
      (aesdRead_driver returned).symm
    have fitsBuffer := stays command (by rw [only]; exact List.mem_singleton_self _)
    rw [length] at fitsBuffer
    exact absurd fitsBuffer (by decide)

end System

end Aesd
