import Aesd.Driver.CircularBuffer
import Aesd.Lib.BoundedFifo
import Mathlib.Data.List.Rotate

/-!
# The circular buffer refines a bounded queue

`in_offs = out_offs` holds both when the buffer is empty and when it is full,
and the walks do not look at the `full` flag.  `WellFormed` ties the flag, the
offsets and the unused slots together; it is established by `init` and kept by
every `addEntry`, and under it the live entries are a bounded queue.
-/

namespace Aesd.AesdCircularBuffer

open BlockHeap Loop

/-- A buffer that is not full has never wrapped: its unused slots are still zero. -/
structure WellFormed (buffer : AesdCircularBuffer) : Prop where
  inOffs_lt : buffer.inOffs < 10
  outOffs_lt : buffer.outOffs < 10
  full_offs : buffer.full = true → buffer.inOffs = buffer.outOffs
  notFull_outOffs : buffer.full = false → buffer.outOffs = 0
  notFull_unused : buffer.full = false →
    ∀ index, buffer.inOffs ≤ index → buffer.slot index = {}

/-- How many entries are live, by the flag and the offsets. -/
def liveCount (buffer : AesdCircularBuffer) : Nat :=
  if buffer.full then 10 else (buffer.inOffs + 10 - buffer.outOffs) % 10

/-- The `count` slots from `start` on, in ring order. -/
def ringSlots (start count : Nat) : List Nat :=
  (List.range count).map fun age => (start + age) % 10

/-- The slots of the live entries, from `out_offs` in ring order. -/
def liveSlots (buffer : AesdCircularBuffer) : List Nat :=
  ringSlots buffer.outOffs buffer.liveCount

def liveEntries (buffer : AesdCircularBuffer) : List AesdBufferEntry :=
  buffer.liveSlots.map buffer.slot

@[simp]
theorem length_ringSlots (start count : Nat) : (ringSlots start count).length = count := by
  simp [ringSlots]

theorem nextOffs_lt (offs : Nat) : nextOffs offs < 10 := Nat.mod_lt _ (by decide)

theorem ringSlots_succ (start count : Nat) :
    ringSlots start (count + 1) = ringSlots start count ++ [(start + count) % 10] := by
  simp [ringSlots, List.range_succ]

theorem ringSlots_cons (start count : Nat) :
    ringSlots start (count + 1) = start % 10 :: ringSlots (nextOffs start) count := by
  simp only [ringSlots, List.range_succ_eq_map, List.map_cons, List.map_map, Nat.add_zero]
  congr 1
  apply List.map_congr_left
  intro age _
  simp only [Function.comp, nextOffs, aesdcharMaxWriteOperationsSupported]
  omega

theorem lt_of_mem_ringSlots {start count index : Nat} (membership : index ∈ ringSlots start count) :
    index < 10 := by
  obtain ⟨age, _, rfl⟩ := List.mem_map.mp membership
  exact Nat.mod_lt _ (by decide)

theorem nodup_ringSlots (start : Nat) {count : Nat} (small : count ≤ 10) :
    (ringSlots start count).Nodup := by
  apply List.Nodup.map_on _ List.nodup_range
  intro first firstLt second secondLt same
  have firstBound := List.mem_range.mp firstLt
  have secondBound := List.mem_range.mp secondLt
  omega

theorem liveCount_le {buffer : AesdCircularBuffer} : buffer.liveCount ≤ 10 := by
  unfold liveCount
  split <;> omega

@[simp]
theorem length_liveEntries (buffer : AesdCircularBuffer) :
    buffer.liveEntries.length = buffer.liveCount := by
  simp [liveEntries, liveSlots]

theorem liveCount_of_full {buffer : AesdCircularBuffer} (isFull : buffer.full = true) :
    buffer.liveCount = 10 := by
  simp [liveCount, isFull]

theorem WellFormed.liveCount_of_notFull {buffer : AesdCircularBuffer} (formed : buffer.WellFormed)
    (notFull : buffer.full = false) : buffer.liveCount = buffer.inOffs := by
  have inBound := formed.inOffs_lt
  have outZero := formed.notFull_outOffs notFull
  simp only [liveCount, notFull, Bool.false_eq_true, if_false, outZero]
  omega

theorem WellFormed.liveEntries_of_full {buffer : AesdCircularBuffer} (formed : buffer.WellFormed)
    (isFull : buffer.full = true) :
    ∃ rest, buffer.liveEntries = buffer.slot buffer.outOffs :: rest := by
  rw [liveEntries, liveSlots, liveCount_of_full isFull, ringSlots_cons _ 9,
    Nat.mod_eq_of_lt formed.outOffs_lt]
  exact ⟨_, List.map_cons⟩

/-! ## Initialisation and adding -/

theorem slot_init (index : Nat) : init.slot index = {} := by
  unfold slot init
  rw [Vector.getElem?_replicate]
  split <;> rfl

theorem init_wellFormed : init.WellFormed where
  inOffs_lt := by decide
  outOffs_lt := by decide
  full_offs := by decide
  notFull_outOffs _ := rfl
  notFull_unused _ index _ := slot_init index

@[simp]
theorem liveEntries_init : init.liveEntries = [] := rfl

section AddEntry

variable {buffer : AesdCircularBuffer} (heap : Heap UInt8) (entry : AesdBufferEntry)

theorem slot_addEntry (inBounds : buffer.inOffs < 10) (index : Nat) :
    (buffer.addEntry heap entry).2.slot index =
      if index = buffer.inOffs then entry else buffer.slot index := by
  simp only [addEntry, slot, Vector.getElem?_setIfInBounds]
  by_cases here : index = buffer.inOffs
  · simp [here, inBounds, aesdcharMaxWriteOperationsSupported]
  · simp [here, Ne.symm here]

theorem slot_addEntry_of_ne (inBounds : buffer.inOffs < 10) {index : Nat}
    (elsewhere : index ≠ buffer.inOffs) :
    (buffer.addEntry heap entry).2.slot index = buffer.slot index := by
  rw [slot_addEntry heap entry inBounds, if_neg elsewhere]

theorem slot_addEntry_self (inBounds : buffer.inOffs < 10) :
    (buffer.addEntry heap entry).2.slot buffer.inOffs = entry := by
  rw [slot_addEntry heap entry inBounds, if_pos rfl]

theorem full_addEntry (isFull : buffer.full = true) :
    (buffer.addEntry heap entry).2.full = true := by
  simp [addEntry, isFull]

theorem WellFormed.addEntry (formed : buffer.WellFormed) :
    (buffer.addEntry heap entry).2.WellFormed := by
  have inBound := formed.inOffs_lt
  have outBound := formed.outOffs_lt
  have inNext : (buffer.addEntry heap entry).2.inOffs = (buffer.inOffs + 1) % 10 := rfl
  refine ⟨?_, ?_, ?_, ?_, ?_⟩
  · rw [inNext]
    exact Nat.mod_lt _ (by decide)
  · cases isFull : buffer.full with
    | true => simpa [AesdCircularBuffer.addEntry, isFull] using nextOffs_lt _
    | false => simpa [AesdCircularBuffer.addEntry, isFull] using outBound
  · cases isFull : buffer.full with
    | true => simp [AesdCircularBuffer.addEntry, isFull, formed.full_offs isFull]
    | false => simp [AesdCircularBuffer.addEntry, isFull]
  · intro stillNotFull
    simp only [AesdCircularBuffer.addEntry, Bool.or_eq_false_iff] at stillNotFull
    simp only [AesdCircularBuffer.addEntry, stillNotFull.1, Bool.false_eq_true, if_false]
    exact formed.notFull_outOffs stillNotFull.1
  · intro stillNotFull index above
    simp only [AesdCircularBuffer.addEntry, Bool.or_eq_false_iff] at stillNotFull
    obtain ⟨wasNotFull, noWrap⟩ := stillNotFull
    have outZero := formed.notFull_outOffs wasNotFull
    simp only [wasNotFull, Bool.false_eq_true, if_false, outZero, nextOffs,
      aesdcharMaxWriteOperationsSupported, beq_eq_false_iff_ne] at noWrap
    rw [inNext] at above
    have beyond : buffer.inOffs < index := by omega
    rw [slot_addEntry_of_ne heap entry inBound (Nat.ne_of_gt beyond)]
    exact formed.notFull_unused wasNotFull index (Nat.le_of_lt beyond)

theorem map_slot_addEntry (inBound : buffer.inOffs < 10) {first count : Nat}
    (others : ∀ age < count, (first + age) % 10 ≠ buffer.inOffs) :
    (ringSlots first count).map (buffer.addEntry heap entry).2.slot =
      (ringSlots first count).map buffer.slot := by
  apply List.map_congr_left
  intro index membership
  rcases List.mem_map.mp membership with ⟨age, inRange, rfl⟩
  exact slot_addEntry_of_ne heap entry inBound (others age (List.mem_range.mp inRange))

theorem WellFormed.liveEntries_addEntry_of_notFull (formed : buffer.WellFormed)
    (notFull : buffer.full = false) :
    (buffer.addEntry heap entry).2.liveEntries = buffer.liveEntries ++ [entry] := by
  have inBound := formed.inOffs_lt
  have outZero := formed.notFull_outOffs notFull
  have newOut : (buffer.addEntry heap entry).2.outOffs = 0 := by
    simp [AesdCircularBuffer.addEntry, notFull, outZero]
  have newCount : (buffer.addEntry heap entry).2.liveCount = buffer.inOffs + 1 := by
    simp only [AesdCircularBuffer.addEntry, liveCount, notFull, outZero, nextOffs,
      aesdcharMaxWriteOperationsSupported, Bool.false_or, Bool.false_eq_true, if_false]
    by_cases atEnd : (buffer.inOffs + 1) % 10 = 0
    · rw [if_pos (by simpa using atEnd)]
      omega
    · rw [if_neg (by simpa using atEnd)]
      omega
  rw [liveEntries, liveSlots, newOut, newCount, ringSlots_succ, List.map_append,
    liveEntries, liveSlots, outZero, formed.liveCount_of_notFull notFull]
  congr 1
  · apply map_slot_addEntry heap entry inBound
    intro age before
    omega
  · rw [List.map_singleton, Nat.zero_add, Nat.mod_eq_of_lt inBound,
      slot_addEntry_self heap entry inBound]

/-- A full buffer gives up its oldest live entry and no other one. -/
theorem WellFormed.liveEntries_addEntry_of_full (formed : buffer.WellFormed)
    (isFull : buffer.full = true) :
    (buffer.addEntry heap entry).2.liveEntries = buffer.liveEntries.tail ++ [entry] := by
  have inBound := formed.inOffs_lt
  have outBound := formed.outOffs_lt
  have offs := formed.full_offs isFull
  have newOut : (buffer.addEntry heap entry).2.outOffs = nextOffs buffer.outOffs := by
    simp [AesdCircularBuffer.addEntry, isFull]
  rw [liveEntries, liveSlots, newOut, liveCount_of_full (full_addEntry heap entry isFull),
    ringSlots_succ _ 9, List.map_append, List.map_singleton, liveEntries, liveSlots,
    liveCount_of_full isFull, ringSlots_cons buffer.outOffs 9, List.map_cons, List.tail_cons]
  congr 1
  · apply map_slot_addEntry heap entry inBound
    intro age before
    simp only [nextOffs, aesdcharMaxWriteOperationsSupported]
    omega
  · have last : (nextOffs buffer.outOffs + 9) % 10 = buffer.inOffs := by
      simp only [nextOffs, aesdcharMaxWriteOperationsSupported]
      omega
    rw [last, slot_addEntry_self heap entry inBound]

end AddEntry

/-- The queue that a well-formed buffer stands for. -/
def WellFormed.toFifo {buffer : AesdCircularBuffer} (_formed : buffer.WellFormed) :
    BoundedFifo 10 AesdBufferEntry :=
  ⟨buffer.liveEntries, by rw [length_liveEntries]; exact liveCount_le⟩

theorem WellFormed.toFifo_addEntry {buffer : AesdCircularBuffer} (formed : buffer.WellFormed)
    (heap : Heap UInt8) (entry : AesdBufferEntry) :
    (formed.addEntry heap entry).toFifo = formed.toFifo.push entry := by
  apply BoundedFifo.ext
  change (buffer.addEntry heap entry).2.liveEntries = _
  cases isFull : buffer.full with
  | true =>
      rw [formed.liveEntries_addEntry_of_full heap entry isFull,
        BoundedFifo.push_items_of_full _ _ (by decide)
          (by rw [toFifo, length_liveEntries, liveCount_of_full isFull])]
      rfl
  | false =>
      have room : formed.toFifo.items.length < 10 := by
        rw [toFifo, length_liveEntries, formed.liveCount_of_notFull isFull]
        exact formed.inOffs_lt
      rw [formed.liveEntries_addEntry_of_notFull heap entry isFull,
        BoundedFifo.push_items_of_room _ _ room]
      rfl

theorem WellFormed.liveEntries_addEntry {buffer : AesdCircularBuffer} (formed : buffer.WellFormed)
    (heap : Heap UInt8) (entry : AesdBufferEntry) :
    (buffer.addEntry heap entry).2.liveEntries = (buffer.liveEntries ++ [entry]).rtake 10 :=
  congrArg BoundedFifo.items (formed.toFifo_addEntry heap entry)

end Aesd.AesdCircularBuffer
