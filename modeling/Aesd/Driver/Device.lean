import Aesd.Driver.CircularBuffer.Fifo
import Aesd.Lib.Concurrency
import Aesd.Lib.Framing

/-!
# The device and `aesd_write`

`struct aesd_dev`, the kernel services that `main.c` calls, and `aesd_write`.
One round is one iteration of the scan loop of `aesd_write`, or what follows
the loop; a lock-protected section is part of one round, so that the rounds of
several tasks interleave as the sections do.  `idx + off`, `off` and the sizes
in `aesd_write` are bounded by the buffers that exist and never wrap.
-/

namespace Aesd

open BlockHeap Concurrency Loop

def enomem : Int := 12

def efault : Int := 14

def enotty : Int := 25

def erestartsys : Int := 512

def newline : UInt8 := 10

structure AesdDev where
  data : AesdCircularBuffer
  temporaryCommandBuffer : Option Nat
  currentTemporaryBufferSize : Nat
  lock : Mutex

/-- A range that was read from the buffer of a caller of `aesd_write`. -/
structure UserRange where
  count : Nat
  off : Nat
  size : Nat
  deriving DecidableEq, Repr

/-- The device together with the kernel memory. `copied` lists, for every
`copy_from_user` of `aesd_write`, the range it was given. -/
structure Driver where
  dev : AesdDev
  heap : Heap UInt8
  copied : List UserRange
  /-- How many calls of `print_circular_buffer_content` left their buffer on the stack. -/
  overruns : Nat

/-- What the kernel services answer in one lock-protected section. -/
structure Outcome where
  /-- `mutex_lock_interruptible` is interrupted. -/
  interrupted : Bool := false
  /-- `krealloc` returns `NULL`. -/
  nomem : Bool := false
  /-- What `copy_from_user` returns: the number of bytes it could not copy. -/
  notCopied : Nat := 0
  deriving DecidableEq, Repr

def Outcome.Succeeds (outcome : Outcome) : Prop :=
  outcome.interrupted = false ∧ outcome.nomem = false ∧ outcome.notCopied = 0

instance (outcome : Outcome) : Decidable outcome.Succeeds :=
  inferInstanceAs (Decidable (_ ∧ _ ∧ _))

namespace Driver

def init : Driver where
  dev :=
    { data := .init
      temporaryCommandBuffer := none
      currentTemporaryBufferSize := 0
      lock := {} }
  heap := .empty
  copied := []
  overruns := 0

def mutexLock (driver : Driver) (task : Nat) : Option Driver :=
  (driver.dev.lock.lock task).map fun lock => { driver with dev := { driver.dev with lock } }

def mutexUnlock (driver : Driver) (task : Nat) : Driver :=
  { driver with dev := { driver.dev with lock := driver.dev.lock.unlock task } }

end Driver

/-! ## Kernel services -/

def krealloc (outcome : Outcome) (heap : Heap UInt8) (old : Option Nat) (size : Nat) :
    Option (Nat × Heap UInt8) :=
  if outcome.nomem then none else some (heap.next, heap.resize old size)

/-- `copy_from_user(target + offset, data)`; a partial copy is a prefix. -/
def copyFromUser (outcome : Outcome) (heap : Heap UInt8) (target offset : Nat)
    (data : List UInt8) : Nat × Heap UInt8 :=
  let notCopied := min outcome.notCopied data.length
  (notCopied, heap.store target offset (data.take (data.length - notCopied)))

def userBytes (buf : List UInt8) (off size : Nat) : List UInt8 := (buf.drop off).take size

/-! ## `print_circular_buffer_content` -/

def tmpBufferSize : Nat := 512

/-- `(512 - entry->size) > 1 ? entry->size : 511`. -/
def copyLength (size : Nat) : Nat :=
  if 1 < sizeSub tmpBufferSize size then size else tmpBufferSize - 1

/-- `memcpy` to the start of `target`; there is no result when it leaves one of the
two buffers. -/
def memcpy (target source : List UInt8) (length : Nat) : Option (List UInt8) :=
  if length ≤ target.length ∧ length ≤ source.length then
    some (source.take length ++ target.drop length)
  else none

namespace Driver

def tmpBuffer (driver : Driver) (index : Nat) : Option (List UInt8) :=
  memcpy (List.replicate tmpBufferSize 0)
    (driver.heap.content (driver.dev.data.slot index).buffptr)
    (copyLength (driver.dev.data.slot index).size)

/-- `print_circular_buffer_content`: what `tmp_buffer` holds when each slot is printed. -/
def printCircularBufferContent (driver : Driver) : Option (List (List UInt8)) :=
  allSlots.mapM driver.tmpBuffer

/-- The call of `print_circular_buffer_content` in `aesd_read` and `aesd_write`. What a copy
beyond `tmp_buffer` does to the stack is undefined; it is counted, and the caller goes on. -/
def dump (driver : Driver) : Driver :=
  { driver with
    overruns := driver.overruns + if driver.printCircularBufferContent.isSome then 0 else 1 }

end Driver

/-! ## `aesd_write` -/

namespace Driver

/-- The part that both sections of `aesd_write` share: grow the temporary command
buffer by `size` bytes and fill them from `buf + off`. The result is the error
number of a failure. -/
def appendTemporary (driver : Driver) (outcome : Outcome) (buf : List UInt8)
    (off size : Nat) : Option Int × Driver :=
  let currentSize := driver.dev.currentTemporaryBufferSize
  match krealloc outcome driver.heap driver.dev.temporaryCommandBuffer (currentSize + size) with
  | none => (some (-enomem), driver)
  | some (buffer, heap) =>
      let (notCopied, heap) :=
        copyFromUser outcome heap buffer currentSize (userBytes buf off size)
      let driver : Driver :=
        { driver with
          dev := { driver.dev with temporaryCommandBuffer := some buffer }
          heap := heap
          copied := ⟨buf.length, off, size⟩ :: driver.copied }
      if notCopied = 0 then
        (none, { driver with
          dev := { driver.dev with currentTemporaryBufferSize := currentSize + size } })
      else (some (-efault), driver)

/-- Hand the temporary command buffer over to the circular buffer. The result is
`buffentry.size`. -/
def pushTemporary (driver : Driver) : Nat × Driver :=
  let buffentry : AesdBufferEntry :=
    ⟨driver.dev.temporaryCommandBuffer, driver.dev.currentTemporaryBufferSize⟩
  let (heap, data) := driver.dev.data.addEntry driver.heap buffentry
  (buffentry.size,
    { driver with
      heap := heap
      dev := { driver.dev with
        data := data
        temporaryCommandBuffer := none
        currentTemporaryBufferSize := 0 } })

end Driver

/-- The locals of a running `aesd_write`. `sections` counts the segments it has
pushed; the source has no such variable. -/
structure WriteCall where
  buf : List UInt8
  idx : Nat := 0
  off : Nat := 0
  wroteBytes : Nat := 0
  sections : Nat := 0
  deriving DecidableEq, Repr

/-- The section that pushes the segment ending at `idx + off`. -/
def pushSection (task : Nat) (outcome : Outcome) (call : WriteCall) (driver : Driver) :
    Option (Flow WriteCall Int × Driver) :=
  if outcome.interrupted then some (.leave (-erestartsys), driver)
  else
    (driver.mutexLock task).map fun driver =>
      match driver.appendTemporary outcome call.buf call.off (call.idx + 1) with
      | (some error, driver) => (.leave error, driver.mutexUnlock task)
      | (none, driver) =>
          let (size, driver) := driver.pushTemporary
          (.next { call with
            wroteBytes := call.wroteBytes + size
            off := call.idx + 1
            idx := 0
            sections := call.sections + 1 }, driver.mutexUnlock task)

/-- The section that keeps the unterminated end of the buffer, and the dump behind it. -/
def tailSection (task : Nat) (outcome : Outcome) (call : WriteCall) (driver : Driver) :
    Option (Flow WriteCall Int × Driver) :=
  if outcome.interrupted then some (.leave (-erestartsys), driver)
  else
    (driver.mutexLock task).map fun driver =>
      match driver.appendTemporary outcome call.buf call.off call.idx with
      | (some error, driver) => (.leave error, driver.mutexUnlock task)
      | (none, driver) => (.leave call.wroteBytes, (driver.mutexUnlock task).dump)

def aesdWriteRound (task : Nat) (outcome : Outcome) (call : WriteCall) (driver : Driver) :
    Option (Flow WriteCall Int × Driver) :=
  if call.idx + call.off < call.buf.length then
    if call.buf[call.idx + call.off]? = some newline then
      pushSection task outcome call driver
    else some (.next { call with idx := call.idx + 1 }, driver)
  else if call.idx ≠ 0 ∧ call.idx + call.off = call.buf.length then
    tailSection task outcome call driver
  else some (.leave call.wroteBytes, driver.dump)

/-- A call that runs alone. `outcomes` gives the answers of the kernel for each
of its sections, in order. -/
def aesdWriteLoop (task : Nat) (outcomes : Nat → Outcome) (state : WriteCall × Driver) :
    Option (Flow (WriteCall × Driver) (Int × Driver)) :=
  (aesdWriteRound task (outcomes state.1.sections) state.1 state.2).map fun
    | (.leave result, driver) => .leave (result, driver)
    | (.next call, driver) => .next (call, driver)

def aesdWrite (task : Nat) (outcomes : Nat → Outcome) (fuel : Nat) (driver : Driver)
    (buf : List UInt8) : Option (Int × Driver) :=
  Loop.run (aesdWriteLoop task outcomes) fuel ({ buf }, driver)

/-! ## What a device holds -/

namespace Driver

def entryBytes (heap : Heap UInt8) (entry : AesdBufferEntry) : List UInt8 :=
  (heap.content entry.buffptr).take entry.size

/-- The live commands, from `out_offs` in ring order. -/
def commands (driver : Driver) : List (List UInt8) :=
  driver.dev.data.liveEntries.map (entryBytes driver.heap)

/-- `temporary_command_buffer[0 .. current_temporary_buffer_size)`. -/
def pending (driver : Driver) : List UInt8 :=
  (driver.heap.content driver.dev.temporaryCommandBuffer).take
    driver.dev.currentTemporaryBufferSize

end Driver

end Aesd
