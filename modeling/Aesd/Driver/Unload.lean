import Aesd.Driver.Write.System
import Mathlib.Data.List.Perm.Subperm

/-!
# Unloading the module

`aesd_cleanup_module` frees the command buffers of all ten slots of the ring and
the temporary command buffer.  The slots that are not live have no buffer, so
these are the blocks that the device owns.
-/

namespace Aesd

open BlockHeap Concurrency Framing Loop

/-- `kfree` of a pointer that is checked not to be `NULL`. -/
def freeIfSet (heap : Heap UInt8) : Option Nat → Heap UInt8
  | some pointer => heap.free pointer
  | none => heap

/-- `aesd_cleanup_module`: what it does to the memory of the commands. -/
def aesdCleanupModule (driver : Driver) : Heap UInt8 :=
  freeIfSet
    (allSlots.foldl (fun heap index => freeIfSet heap (driver.dev.data.slot index).buffptr)
      driver.heap)
    driver.dev.temporaryCommandBuffer

def Driver.heldPointers (driver : Driver) : List Nat :=
  allSlots.filterMap (fun index => (driver.dev.data.slot index).buffptr) ++
    driver.dev.temporaryCommandBuffer.toList

theorem freeIfSet_eq (heap : Heap UInt8) (pointer : Option Nat) :
    freeIfSet heap pointer = heap.freeAll pointer.toList := by
  cases pointer <;> rfl

theorem foldl_freeIfSet (buffptr : Nat → Option Nat) (slots : List Nat) (heap : Heap UInt8) :
    slots.foldl (fun heap index => freeIfSet heap (buffptr index)) heap =
      heap.freeAll (slots.filterMap buffptr) := by
  induction slots generalizing heap with
  | nil => rfl
  | cons index slots inductionHypothesis =>
      rw [List.foldl_cons, inductionHypothesis, freeIfSet_eq, ← Heap.freeAll_append]
      cases held : buffptr index <;> simp [held]

theorem aesdCleanupModule_eq (driver : Driver) :
    aesdCleanupModule driver = driver.heap.freeAll driver.heldPointers := by
  unfold aesdCleanupModule Driver.heldPointers
  rw [foldl_freeIfSet fun index => (driver.dev.data.slot index).buffptr, freeIfSet_eq,
    ← Heap.freeAll_append]

namespace AesdCircularBuffer

/-- Ten consecutive slots of the ring are all of them. -/
theorem ringSlots_ten_perm (start : Nat) : (ringSlots start 10).Perm allSlots := by
  have subperm : (ringSlots start 10).Subperm allSlots := by
    apply List.subperm_of_subset (nodup_ringSlots start (Nat.le_refl 10))
    intro index membership
    exact List.mem_range.mpr (lt_of_mem_ringSlots membership)
  apply subperm.perm_of_length_le
  rw [length_ringSlots]
  rfl

/-- A ring that has never wrapped fills its slots from the first one on. -/
theorem WellFormed.allSlots_of_notFull {buffer : AesdCircularBuffer} (formed : buffer.WellFormed)
    (notFull : buffer.full = false) :
    ∃ unused, allSlots = buffer.liveSlots ++ unused ∧
      ∀ index ∈ unused, (buffer.slot index).buffptr = none := by
  have inBound := formed.inOffs_lt
  obtain ⟨more, split⟩ : ∃ more, 10 = buffer.inOffs + more := ⟨10 - buffer.inOffs, by omega⟩
  have live : buffer.liveSlots = List.range buffer.inOffs := by
    rw [liveSlots, formed.liveCount_of_notFull notFull, formed.notFull_outOffs notFull, ringSlots]
    refine (List.map_congr_left fun age membership => ?_).trans (List.map_id' _)
    have bound := List.mem_range.mp membership
    omega
  refine ⟨(List.range more).map (buffer.inOffs + ·), ?_, ?_⟩
  · rw [live, allSlots, aesdcharMaxWriteOperationsSupported, split, List.range_add]
  · intro index membership
    obtain ⟨beyond, _, rfl⟩ := List.mem_map.mp membership
    rw [formed.notFull_unused notFull _ (Nat.le_add_right _ _)]

theorem WellFormed.buffptr_perm {buffer : AesdCircularBuffer} (formed : buffer.WellFormed) :
    (allSlots.filterMap fun index => (buffer.slot index).buffptr).Perm
      (Driver.pointers buffer.liveEntries) := by
  have livePointers : Driver.pointers buffer.liveEntries =
      buffer.liveSlots.filterMap fun index => (buffer.slot index).buffptr := by
    rw [Driver.pointers, liveEntries, List.filterMap_map]
    rfl
  rw [livePointers]
  cases isFull : buffer.full with
  | true =>
      apply List.Perm.filterMap
      rw [liveSlots, liveCount_of_full isFull]
      exact (ringSlots_ten_perm _).symm
  | false =>
      obtain ⟨unused, slots, empty⟩ := formed.allSlots_of_notFull isFull
      rw [slots, List.filterMap_append, List.filterMap_eq_nil_iff.mpr empty, List.append_nil]

end AesdCircularBuffer

theorem Driver.Valid.owns_heldPointers {driver : Driver} (valid : driver.Valid) :
    driver.heap.Owns driver.heldPointers := by
  apply valid.owns.perm
  refine List.perm_append_comm.trans ?_
  exact valid.ring.buffptr_perm.symm.append_right _

/-- In every state that interleaved calls reach, the live blocks are the buffers of
the ten slots and the temporary command buffer, each held once, and no block was
given back twice; unloading the module gives back each of them once. -/
theorem reachable_owned {labels : List WriteLabel} {system : WriteSystem}
    (run : Run WriteSystem.Step .init labels system) :
    system.driver.heldPointers.Nodup ∧
    (∀ pointer, (system.driver.heap.block pointer).isSome ↔
      pointer ∈ system.driver.heldPointers) ∧
    system.driver.heap.retired.Nodup ∧
    (aesdCleanupModule system.driver).retired =
      system.driver.heldPointers.reverse ++ system.driver.heap.retired ∧
    (aesdCleanupModule system.driver).retired.Nodup ∧
    ∀ pointer, (aesdCleanupModule system.driver).block pointer = none := by
  have owns := (WriteSystem.Valid.run run WriteSystem.init_valid).driver.owns_heldPointers
  have cleaned : (aesdCleanupModule system.driver).Owns [] := by
    rw [aesdCleanupModule_eq]
    apply Heap.Owns.freeAll
    rw [List.append_nil]
    exact owns
  refine ⟨owns.distinct, owns.live, owns.retiredOnce, ?_, cleaned.retiredOnce, ?_⟩
  · rw [aesdCleanupModule_eq, Heap.retired_freeAll]
  · intro pointer
    rw [← Option.not_isSome_iff_eq_none, cleaned.live]
    exact List.not_mem_nil

/-- A failed copy in between leaves a larger block behind, which is still owned. -/
theorem reachable_owned_interleaved :
    ∃ system, Run WriteSystem.Step .init WriteSystem.interleavedLabels system ∧
      system.driver.heldPointers = [0, 2] ∧
      (aesdCleanupModule system.driver).retired = [2, 0, 1] ∧
      ∀ pointer, (aesdCleanupModule system.driver).block pointer = none := by
  obtain ⟨system, taken, held, retired⟩ : ∃ system,
      follow WriteSystem.step .init WriteSystem.interleavedLabels = some system ∧
      system.driver.heldPointers = [0, 2] ∧ (aesdCleanupModule system.driver).retired = [2, 0, 1] :=
    ⟨_, rfl, by decide, by decide⟩
  have run : Run WriteSystem.Step .init WriteSystem.interleavedLabels system :=
    run_of_follow taken
  exact ⟨system, run, held, retired, (reachable_owned run).2.2.2.2.2⟩

end Aesd
