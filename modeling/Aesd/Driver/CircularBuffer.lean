import Aesd.Lib.Heap
import Aesd.Lib.Loop
import Mathlib.Algebra.Order.Ring.Int
import Mathlib.Algebra.Order.Ring.Nat

/-!
# The circular buffer of the character driver

`aesd-circular-buffer.h` and `aesd-circular-buffer.c`, function by function.
Sizes are `size_t`, so every sum of sizes is taken modulo `2 ^ 64`.  A pointer
is the identity of a heap block, and `NULL` is `none`.
-/

namespace Aesd

open BlockHeap Loop

/-! ## C integers -/

def einval : Int := 22

def toSizeT (value : Int) : Nat := (value % 2 ^ 64).toNat

def toSsizeT (value : Nat) : Int := if value < 2 ^ 63 then value else (value : Int) - 2 ^ 64

def sizeAdd (first second : Nat) : Nat := (first + second) % 2 ^ 64

def sizeSub (first second : Nat) : Nat := toSizeT ((first : Int) - second)

/-! ## Data -/

def aesdcharMaxWriteOperationsSupported : Nat := 10

structure AesdBufferEntry where
  buffptr : Option Nat := none
  size : Nat := 0
  deriving DecidableEq, Repr

structure AesdCircularBuffer where
  entry : Vector AesdBufferEntry aesdcharMaxWriteOperationsSupported
  inOffs : Nat
  outOffs : Nat
  full : Bool
  deriving DecidableEq, Repr

def nextOffs (offs : Nat) : Nat := (offs + 1) % aesdcharMaxWriteOperationsSupported

/-- `AESD_CIRCULAR_BUFFER_FOREACH`: the indices of the ten slots. -/
def allSlots : List Nat := List.range aesdcharMaxWriteOperationsSupported

namespace AesdCircularBuffer

def slot (buffer : AesdCircularBuffer) (index : Nat) : AesdBufferEntry :=
  buffer.entry[index]?.getD {}

/-- `aesd_circular_buffer_init`: all bytes zero. -/
def init : AesdCircularBuffer where
  entry := Vector.replicate _ {}
  inOffs := 0
  outOffs := 0
  full := false

/-! ## Adding an entry -/

/-- A full buffer frees the command of its oldest entry, if the entry has one. -/
def freeOldest (buffer : AesdCircularBuffer) (heap : Heap UInt8) : Heap UInt8 :=
  if buffer.full then
    match (buffer.slot buffer.outOffs).buffptr with
    | some buffptr => heap.free buffptr
    | none => heap
  else heap

def addEntry (buffer : AesdCircularBuffer) (heap : Heap UInt8) (entry : AesdBufferEntry) :
    Heap UInt8 × AesdCircularBuffer :=
  let outOffs := if buffer.full then nextOffs buffer.outOffs else buffer.outOffs
  let inOffs := nextOffs buffer.inOffs
  (buffer.freeOldest heap,
    { entry := buffer.entry.setIfInBounds buffer.inOffs entry
      inOffs := inOffs
      outOffs := outOffs
      full := buffer.full || inOffs == outOffs })

def addEntries (buffer : AesdCircularBuffer) (heap : Heap UInt8)
    (entries : List AesdBufferEntry) : Heap UInt8 × AesdCircularBuffer :=
  entries.foldl (fun state entry => state.2.addEntry state.1 entry) (heap, buffer)

/-! ## The walk of the lookups

The three lookups share the loop `do { … } while (index != buffer->in_offs)` that
starts at `out_offs`.  `visit` is the body up to the advance of the index. -/

section Walk

variable {State Result : Type}

def walkRound (inOffs : Nat) (visit : Nat → State → Flow State Result)
    (finish : State → Result) : Nat × State → Option (Flow (Nat × State) Result)
  | (index, state) =>
      match visit index state with
      | .leave result => some (.leave result)
      | .next state' =>
          if nextOffs index = inOffs then some (.leave (finish state'))
          else some (.next (nextOffs index, state'))

def walk (buffer : AesdCircularBuffer) (visit : Nat → State → Flow State Result)
    (finish : State → Result) (start : State) : Option Result :=
  Loop.run (walkRound buffer.inOffs visit finish) aesdcharMaxWriteOperationsSupported
    (buffer.outOffs, start)

end Walk

def visitedSlots (buffer : AesdCircularBuffer) : Option (List Nat) :=
  buffer.walk (fun index visited => .next (visited ++ [index])) id []

def contentLength (buffer : AesdCircularBuffer) : Option Nat :=
  buffer.walk (fun index length => .next (sizeAdd length (buffer.slot index).size)) id 0

/-- The body of `aesd_circular_buffer_find_entry_offset_for_fpos`. -/
def findVisit (buffer : AesdCircularBuffer) (charOffset entryIdx accumulatedOff : Nat) :
    Flow Nat (Option (Nat × Nat)) :=
  let accumulatedOff := sizeAdd accumulatedOff (buffer.slot entryIdx).size
  if charOffset < accumulatedOff then
    .leave (some (entryIdx,
      sizeSub charOffset (sizeSub accumulatedOff (buffer.slot entryIdx).size)))
  else .next accumulatedOff

/-- `aesd_circular_buffer_find_entry_offset_for_fpos`: the index of the returned
entry and the value stored through `entry_offset_byte_rtn`; `none` inside is a
returned `NULL`, which stores nothing. -/
def findEntryOffsetForFpos (buffer : AesdCircularBuffer) (charOffset : Nat) :
    Option (Option (Nat × Nat)) :=
  buffer.walk (buffer.findVisit charOffset) (fun _ => none) 0

/-- The same body with the variable behind `entry_offset_byte_rtn` as a second part of
the state. -/
def findVisitInto (buffer : AesdCircularBuffer) (charOffset entryIdx : Nat)
    (state : Nat × Nat) : Flow (Nat × Nat) (Option Nat × Nat) :=
  let accumulatedOff := sizeAdd state.1 (buffer.slot entryIdx).size
  if charOffset < accumulatedOff then
    .leave (some entryIdx,
      sizeSub charOffset (sizeSub accumulatedOff (buffer.slot entryIdx).size))
  else .next (accumulatedOff, state.2)

/-- The same function with `*entry_offset_byte_rtn` before the call as an argument and
after the call as the second part of the result. -/
def findEntryOffsetForFposInto (buffer : AesdCircularBuffer)
    (charOffset entryOffsetByteRtn : Nat) : Option (Option Nat × Nat) :=
  buffer.walk (buffer.findVisitInto charOffset) (fun state => (none, state.2))
    (0, entryOffsetByteRtn)

/-- The body of `aesd_circular_buffer_find_fpos_at_position`; the state is `counter`
and `offset`. -/
def positionVisit (buffer : AesdCircularBuffer) (position : UInt8) (cmdOffs index : Nat)
    (state : UInt8 × Nat) : Flow (UInt8 × Nat) Nat :=
  if position = state.1 then
    if cmdOffs ≤ (buffer.slot index).size then .leave (sizeAdd state.2 cmdOffs)
    else .leave (toSizeT (-einval))
  else .next (state.1 + 1, sizeAdd state.2 (buffer.slot index).size)

/-- `aesd_circular_buffer_find_fpos_at_position`: a `size_t` that is also used for
the negated error number. -/
def findFposAtPosition (buffer : AesdCircularBuffer) (position : UInt8) (cmdOffs : Nat) :
    Option Nat :=
  buffer.walk (buffer.positionVisit position cmdOffs) (fun _ => toSizeT (-einval)) (0, 0)

end AesdCircularBuffer

end Aesd
