import Aesd.Driver.Reachable
import Aesd.Lib.Shared
import Aesd.Server.Requests

/-!
# The server and its device

All connection threads share one mutex, one table of open files and the device.
One call of one thread is a step; calls that do not fail are answered as the
functions of the driver answer them, and `lock` only when the mutex is free.  The
calls about a socket or about memory concern only the thread itself, so that their
answers are free.
-/

namespace Aesd

open Concurrency Framing Loop Reactive

structure ServerEnv where
  mutex : Mutex := {}
  driver : Driver := .init
  /-- The position of every open file. -/
  files : Int → Option Int := fun _ => none

def ServerEnv.setFile (env : ServerEnv) (filed : Int) (position : Option Int) : ServerEnv :=
  { env with files := Function.update env.files filed position }

/-- The answers to calls that do not fail. A seek command names a byte when it is
executed. A call of the device is one step, which there is only if the call returns; the
mutex of the server keeps the others from the device meanwhile. -/
def ServerEnv.Answers (task : Nat) (event : Call × Reply) (env env' : ServerEnv) : Prop :=
  Succeeds event ∧
  match event with
  | (.realloc _ _, _) | (.free _, _) | (.readSocket _, _) | (.writeSocket _, _) => env' = env
  | (.pthreadMutexLock, _) =>
      ∃ mutex, env.mutex.lock task = some mutex ∧ env' = { env with mutex }
  | (.pthreadMutexUnlock, _) => env' = { env with mutex := env.mutex.unlock task }
  | (.openFile, reply) =>
      env.files reply.value = none ∧ env' = env.setFile reply.value (some 0)
  | (.close filed, _) => env' = env.setFile filed none
  | (.writeFile filed data, reply) =>
      ∃ fuel driver, (env.files filed).isSome ∧
        aesdWrite task (fun _ => {}) fuel env.driver data = some (reply.value, driver) ∧
        driver.FitsAddressSpace ∧ env' = { env with driver }
  | (.readFile filed size, reply) =>
      ∃ fPos call driver, env.files filed = some fPos ∧
        aesdRead task {} (fun _ => 0) (size + 1) env.driver fPos size =
          some ((reply.value, call), driver) ∧
        reply.bytes = call.data ∧
        env' = ({ env with driver } : ServerEnv).setFile filed (some call.fPos)
  | (.ioctl filed seekto, reply) =>
      ∃ fPos fPos' driver, env.files filed = some fPos ∧
        NamesByte env.driver.commands seekto ∧
        aesdUnlockedIoctl task {} env.driver fPos aesdcharIocseekto seekto =
          some ((reply.value, fPos'), driver) ∧
        env' = ({ env with driver } : ServerEnv).setFile filed (some fPos')

abbrev Server := Shared ServerEnv Thread

namespace Server

/-- A fresh device, and a thread for every connection there will be. -/
def init : Server := ⟨{}, fun _ => some .start⟩

def Step : Server → Nat × (Call × Reply) → Server → Prop :=
  Shared.Step threadRunFunction ServerEnv.Answers

end Server

/-! ## The device in the hands of the server -/

/-- A device that no call is in and that keeps no unfinished command. -/
structure Driver.Settled (driver : Driver) : Prop where
  valid : driver.Valid
  free : driver.dev.lock.owner = none
  fits : driver.FitsAddressSpace
  pending : driver.pending = []

section Device

variable {driver driver' : Driver} {task : Nat}

theorem Driver.init_settled : Driver.init.Settled where
  valid := Driver.init_valid
  free := rfl
  fits := by decide
  pending := rfl

theorem Driver.Settled.dump (settled : driver.Settled) : driver.dump.Settled :=
  ⟨settled.valid.dump, settled.free, settled.fits, settled.pending⟩

theorem Driver.Settled.write (settled : driver.Settled) {data : List UInt8} {fuel : Nat}
    {value : Int} (line : IsFrame newline data)
    (written : aesdWrite task (fun _ => {}) fuel driver data = some (value, driver'))
    (fits : driver'.FitsAddressSpace) :
    value = data.length ∧ driver'.Settled ∧
      driver'.commands = (driver.commands ++ [data]).rtake 10 := by
  obtain ⟨body, absent, rfl⟩ := line
  cases aesdWrite_effect settled.valid written with
  | failed sections _ _ fails => exact absurd ⟨rfl, rfl, rfl⟩ fails
  | returned single fed =>
      have log := fed.log
      rw [FrameLog.feed_frame _ absent] at log
      have commands := congrArg FrameLog.frames log
      have pending : driver'.pending = [] := congrArg FrameLog.pending log
      have nothing : driver.log.pending = [] := settled.pending
      rw [nothing, List.nil_append] at commands
      refine ⟨?_, ⟨fed.valid, ?_, fits, pending⟩, commands⟩
      · rw [if_pos (by simp), settled.pending, List.idxOf_append_of_notMem absent]
        simp
      · rw [fed.lock, settled.free]

/-- A read gets what there is from the position on, and moves the position behind it. -/
theorem Driver.Settled.read (settled : driver.Settled) {start size : Nat} {value : Int}
    {call : ReadCall} (startSmall : start < 2 ^ 63) (sizeSmall : size < 2 ^ 63)
    (done : aesdRead task {} (fun _ => 0) (size + 1) driver start size =
      some ((value, call), driver')) :
    driver' = driver.dump ∧ call.data = (driver.content.drop start).take size ∧
      ∃ next : Nat, call.fPos = next ∧ next < 2 ^ 63 ∧
        driver.content.drop start = call.data ++ driver.content.drop next := by
  have small := settled.valid.liveSize_lt settled.fits
  rw [← settled.valid.length_content] at small
  obtain ⟨call', returned, stored, moved⟩ := aesdRead_returns task settled.valid settled.free
    (settled.valid.liveSize_lt settled.fits) startSmall sizeSmall (Nat.lt_succ_self size)
  obtain ⟨⟨-, rfl⟩, same⟩ : (value = call'.data.length ∧ call = call') ∧ driver' = driver.dump := by
    rw [done] at returned
    simpa using returned
  refine ⟨same, stored, start + call.data.length, moved, ?_, ?_⟩
  · have length : call.data.length = min size (driver.content.length - start) := by
      rw [stored, List.length_take, List.length_drop]
    omega
  · rw [← List.drop_drop]
    have parts := List.take_append_drop call.data.length (driver.content.drop start)
    have taken : (driver.content.drop start).take call.data.length = call.data := by
      rw [stored, List.length_take, ← List.take_eq_take_min]
    rw [taken] at parts
    exact parts.symm

theorem Driver.Settled.ioctl (settled : driver.Settled) {fPos fPos' value : Int}
    {seekto : AesdSeekto} (names : NamesByte driver.commands seekto)
    (done : aesdUnlockedIoctl task {} driver fPos aesdcharIocseekto seekto =
      some ((value, fPos'), driver')) :
    driver' = driver ∧
      fPos' = (bytePosition driver.commands seekto.writeCmd.toNat
        seekto.writeCmdOffset.toNat : Nat) ∧
      bytePosition driver.commands seekto.writeCmd.toNat seekto.writeCmdOffset.toNat < 2 ^ 63 := by
  have small := settled.valid.liveSize_lt settled.fits
  rw [← settled.valid.length_content] at small
  obtain ⟨result, returned, ⟨_, rfl⟩ | ⟨refused, _⟩⟩ :=
    settled.valid.aesdUnlockedIoctl settled.free settled.fits task fPos seekto
  · rw [done, names.mod_eq] at returned
    simp only [Option.some.injEq, Prod.mk.injEq] at returned
    obtain ⟨⟨-, moved⟩, same⟩ := returned
    obtain ⟨command, named, inside⟩ := names
    have bound := bytePosition_le named (Nat.le_of_lt inside)
    exact ⟨same, moved, Nat.lt_of_le_of_lt bound small⟩
  · exact absurd names.accepted refused

end Device

/-! ## What the device answers -/

namespace ServerEnv

variable {env env' : ServerEnv} {task : Nat} {reply : Reply} {filed : Int}

@[simp]
theorem setFile_self (env : ServerEnv) (filed : Int) (position : Option Int) :
    (env.setFile filed position).files filed = position := Function.update_self _ _ _

theorem Answers.writeFile {data : List UInt8}
    (answered : Answers task (.writeFile filed data, reply) env env')
    (settled : env.driver.Settled) (line : IsFrame newline data) :
    reply.value = data.length ∧ env'.mutex = env.mutex ∧ env'.files = env.files ∧
      env'.driver.Settled ∧ env'.driver.commands = (env.driver.commands ++ [data]).rtake 10 := by
  obtain ⟨_, fuel, driver, _, written, fits, rfl⟩ := answered
  obtain ⟨taken, settled', commands⟩ := settled.write line written fits
  exact ⟨taken, rfl, rfl, settled', commands⟩

theorem Answers.readFile {start size : Nat}
    (answered : Answers task (.readFile filed size, reply) env env')
    (settled : env.driver.Settled) (found : env.files filed = some (start : Int))
    (startSmall : start < 2 ^ 63) (sizeSmall : size < 2 ^ 63) :
    reply.bytes = (env.driver.content.drop start).take size ∧
      ∃ next : Nat, env' = ({ env with driver := env.driver.dump } : ServerEnv).setFile filed
          (some next) ∧
        next < 2 ^ 63 ∧
        env.driver.content.drop start = reply.bytes ++ env.driver.content.drop next := by
  obtain ⟨_, fPos, call, driver, found', done, bytes, rfl⟩ := answered
  obtain rfl := Option.some.inj (found.symm.trans found')
  obtain ⟨rfl, stored, next, moved, small, parts⟩ := settled.read startSmall sizeSmall done
  rw [bytes, moved]
  exact ⟨stored, next, rfl, small, parts⟩

theorem Answers.ioctl {seekto : AesdSeekto}
    (answered : Answers task (.ioctl filed seekto, reply) env env')
    (settled : env.driver.Settled) :
    env' = env.setFile filed (some (bytePosition env.driver.commands seekto.writeCmd.toNat
      seekto.writeCmdOffset.toNat : Nat)) ∧
      bytePosition env.driver.commands seekto.writeCmd.toNat seekto.writeCmdOffset.toNat <
        2 ^ 63 := by
  obtain ⟨_, fPos, fPos', driver, _, names, done, rfl⟩ := answered
  obtain ⟨rfl, rfl, small⟩ := settled.ioctl names done
  exact ⟨rfl, small⟩

end ServerEnv

end Aesd
