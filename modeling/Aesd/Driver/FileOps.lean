import Aesd.Driver.Write.System

/-!
# Reading, seeking and the seek command

`aesd_llseek`, `aesd_read` and `aesd_unlocked_ioctl`.  Each of them takes the
lock once, so that a whole operation is one step of a device that several tasks
use.  `fixed_size_llseek` belongs to the kernel and is a parameter: it is given
the file position, the offset, `whence` and the size, and it returns its result
and the new position.
-/

namespace Aesd

open BlockHeap Concurrency Loop

/-! ## `aesd_llseek` -/

def seekSet : Int := 0

def seekCur : Int := 1

def seekEnd : Int := 2

/-- The result and the file position after `aesd_llseek`. An unsupported `whence`
returns without `mutex_unlock`. -/
def aesdLlseek (fixedSizeLlseek : Int → Int → Int → Nat → Int × Int) (task : Nat)
    (outcome : Outcome) (driver : Driver) (fPos off whence : Int) :
    Option ((Int × Int) × Driver) :=
  if outcome.interrupted then some ((-erestartsys, fPos), driver)
  else
    (driver.mutexLock task).bind fun driver =>
      driver.dev.data.contentLength.map fun circularBufferLength =>
        if whence = seekSet ∨ whence = seekEnd ∨ whence = seekCur then
          if circularBufferLength ≠ 0 then
            (fixedSizeLlseek fPos off whence circularBufferLength, driver.mutexUnlock task)
          else ((-einval, fPos), driver.mutexUnlock task)
        else ((-einval, fPos), driver)

/-! ## `aesd_read` -/

def copyToUser (notCopied : Nat) (data : List UInt8) : Nat × List UInt8 :=
  (min notCopied data.length, data.take (data.length - min notCopied data.length))

/-- The locals of a running `aesd_read` and the position behind `f_pos`. `data` is
what has been stored in the caller's buffer, and `copies` counts the calls of
`copy_to_user`. -/
structure ReadCall where
  fPos : Int
  readCount : Int := 0
  data : List UInt8 := []
  copies : Nat := 0
  deriving DecidableEq, Repr

/-- One iteration of the loop of `aesd_read`. -/
def aesdReadRound (notCopied : Nat → Nat) (driver : Driver) (numBytesToRead : Int)
    (call : ReadCall) : Option (Flow ReadCall (Int × ReadCall)) :=
  if call.readCount < numBytesToRead then
    (driver.dev.data.findEntryOffsetForFpos (toSizeT call.fPos)).map fun
      | none => .leave (call.readCount, call)
      | some (index, entryOffset) =>
          let buffentry := driver.dev.data.slot index
          let left := sizeSub buffentry.size entryOffset
          let transferSize := toSsizeT
            (if left < toSizeT (numBytesToRead - call.readCount) then left
            else toSizeT (numBytesToRead - call.readCount))
          let (failed, stored) := copyToUser (notCopied call.copies)
            (userBytes (driver.heap.content buffentry.buffptr) entryOffset transferSize.toNat)
          if failed = 0 then
            .next
              { fPos := call.fPos + transferSize
                readCount := call.readCount + transferSize
                data := call.data ++ stored
                copies := call.copies + 1 }
          else .leave (-efault, { call with data := call.data ++ stored })
  else some (.leave (call.readCount, call))

/-- The result of `aesd_read` with its locals at the return. The dump is made before the
lock is taken. -/
def aesdRead (task : Nat) (outcome : Outcome) (notCopied : Nat → Nat) (fuel : Nat)
    (driver : Driver) (fPos : Int) (count : Nat) : Option ((Int × ReadCall) × Driver) :=
  if outcome.interrupted then some ((-erestartsys, { fPos }), driver.dump)
  else
    (driver.dump.mutexLock task).bind fun driver =>
      driver.dev.data.contentLength.bind fun circularBufferLength =>
        let numBytesToRead :=
          toSsizeT (min (sizeSub circularBufferLength (toSizeT fPos)) count)
        (Loop.run (aesdReadRound notCopied driver numBytesToRead) fuel { fPos }).map
          fun result => (result, driver.mutexUnlock task)

/-! ## `aesd_unlocked_ioctl` -/

structure AesdSeekto where
  writeCmd : UInt32
  writeCmdOffset : UInt32
  deriving DecidableEq, Repr

def aesdIocMagic : UInt32 := 0x16

def aesdcharIocMaxnr : UInt32 := 1

def aesdcharIocseekto : UInt32 :=
  (3 : UInt32) <<< 30 ||| (8 : UInt32) <<< 16 ||| aesdIocMagic <<< 8 ||| 1

def iocType (cmd : UInt32) : UInt32 := cmd >>> 8 &&& 0xff

def iocNr (cmd : UInt32) : UInt32 := cmd &&& 0xff

/-- The result and the file position after `aesd_unlocked_ioctl`. -/
def aesdUnlockedIoctl (task : Nat) (outcome : Outcome) (driver : Driver) (fPos : Int)
    (cmd : UInt32) (seekto : AesdSeekto) : Option ((Int × Int) × Driver) :=
  if iocType cmd ≠ aesdIocMagic then some ((-enotty, fPos), driver)
  else if aesdcharIocMaxnr < iocNr cmd then some ((-enotty, fPos), driver)
  else if cmd = aesdcharIocseekto then
    if outcome.interrupted then some ((-erestartsys, fPos), driver)
    else
      (driver.mutexLock task).bind fun driver =>
        if outcome.notCopied = 0 then
          -- the command number is passed as a `uint8_t`
          (driver.dev.data.findFposAtPosition seekto.writeCmd.toUInt8
            seekto.writeCmdOffset.toNat).map fun found =>
              let offset := toSsizeT found
              if offset < 0 then ((-einval, fPos), driver.mutexUnlock task)
              else ((0, offset), driver.mutexUnlock task)
        else some ((-efault, fPos), driver.mutexUnlock task)
  else some ((-einval, fPos), driver)

/-! ## All file operations -/

structure System where
  writes : WriteSystem
  /-- The position of an open file. -/
  fPos : Nat → Int

inductive Label where
  | write (label : WriteLabel)
  | read (task file : Nat) (outcome : Outcome) (notCopied : Nat → Nat) (fuel count : Nat)
  | llseek (task file : Nat) (outcome : Outcome) (off whence : Int)
  | ioctl (task file : Nat) (outcome : Outcome) (cmd : UInt32) (seekto : AesdSeekto)

namespace System

def init : System := ⟨.init, fun _ => 0⟩

def setDriver (system : System) (driver : Driver) : System :=
  { system with writes := { system.writes with driver := driver } }

def setFPos (system : System) (file : Nat) (fPos : Int) : System :=
  { system with fPos := Function.update system.fPos file fPos }

variable (fixedSizeLlseek : Int → Int → Int → Nat → Int × Int)

/-- One step. A task is in one operation at a time. The kernel leaves the position of the
file alone when a read fails. -/
def step (system : System) : Label → Option System
  | .write label =>
      (system.writes.step label).map fun writes => { system with writes := writes }
  | .read task file outcome notCopied fuel count =>
      if (system.writes.running task).isSome then none
      else
        (aesdRead task outcome notCopied fuel system.writes.driver (system.fPos file) count).map
          fun (result, driver) =>
            if 0 ≤ result.1 then (system.setDriver driver).setFPos file result.2.fPos
            else system.setDriver driver
  | .llseek task file outcome off whence =>
      if (system.writes.running task).isSome then none
      else
        (aesdLlseek fixedSizeLlseek task outcome system.writes.driver (system.fPos file) off
          whence).map fun (result, driver) => (system.setDriver driver).setFPos file result.2
  | .ioctl task file outcome cmd seekto =>
      if (system.writes.running task).isSome then none
      else
        (aesdUnlockedIoctl task outcome system.writes.driver (system.fPos file) cmd seekto).map
          fun (result, driver) => (system.setDriver driver).setFPos file result.2

def Step (system : System) (label : Label) (system' : System) : Prop :=
  step fixedSizeLlseek system label = some system'

end System

end Aesd
