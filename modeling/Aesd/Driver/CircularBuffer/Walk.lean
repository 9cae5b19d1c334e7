import Aesd.Driver.CircularBuffer.Fifo

/-!
# What the walk of the lookups visits

The do-while loop runs its body once before it compares the index with
`in_offs`.  For offsets below ten it visits `visitedCount` slots from `out_offs`
on; for a buffer that holds an entry these are the live slots.
-/

namespace Aesd.AesdCircularBuffer

open BlockHeap Loop

section Walk

variable {State Result : Type}

/-- The bodies of the walk, one after the other, over given slots. -/
def foldVisits (visit : Nat → State → Flow State Result) (finish : State → Result) :
    List Nat → State → Result
  | [], state => finish state
  | index :: rest, state =>
      match visit index state with
      | .leave result => result
      | .next state' => foldVisits visit finish rest state'

theorem run_walkRound (visit : Nat → State → Flow State Result) (finish : State → Result)
    {inOffs index more fuel : Nat} (state : State) (inBounds : index < 10)
    (ends : (index + (more + 1)) % 10 = inOffs) (atMostOnce : more < 10) (enough : more < fuel) :
    Loop.run (walkRound inOffs visit finish) fuel (index, state) =
      some (foldVisits visit finish (ringSlots index (more + 1)) state) := by
  obtain ⟨fuel, rfl⟩ : ∃ less, fuel = less + 1 := ⟨fuel - 1, by omega⟩
  rw [ringSlots_cons, Nat.mod_eq_of_lt inBounds]
  induction more generalizing index state fuel with
  | zero =>
      have stop : nextOffs index = inOffs := ends
      cases visited : visit index state with
      | leave result => simp [Loop.run, walkRound, foldVisits, visited]
      | next state' => simp [Loop.run, walkRound, foldVisits, visited, stop, ringSlots]
  | succ more inductionHypothesis =>
      have goesOn : nextOffs index ≠ inOffs := by
        simp only [nextOffs, aesdcharMaxWriteOperationsSupported]
        omega
      cases visited : visit index state with
      | leave result => simp [Loop.run, walkRound, foldVisits, visited]
      | next state' =>
          obtain ⟨fuel, rfl⟩ : ∃ less, fuel = less + 1 := ⟨fuel - 1, by omega⟩
          have endsNext : (nextOffs index + (more + 1)) % 10 = inOffs := by
            simp only [nextOffs, aesdcharMaxWriteOperationsSupported]
            omega
          have step : walkRound inOffs visit finish (index, state) =
              some (.next (nextOffs index, state')) := by
            simp [walkRound, visited, goesOn]
          rw [Loop.run_next _ step, foldVisits, visited, ringSlots_cons,
            Nat.mod_eq_of_lt (nextOffs_lt index)]
          exact inductionHypothesis state' (nextOffs_lt index) endsNext (by omega) fuel (by omega)

def visitedCount (buffer : AesdCircularBuffer) : Nat :=
  if buffer.inOffs = buffer.outOffs then 10 else (buffer.inOffs + 10 - buffer.outOffs) % 10

/-- The walk of a buffer whose offsets are in bounds ends, and does its body for
the visited slots in ring order. -/
theorem walk_eq {buffer : AesdCircularBuffer} (inBound : buffer.inOffs < 10)
    (outBound : buffer.outOffs < 10) (visit : Nat → State → Flow State Result)
    (finish : State → Result) (start : State) :
    buffer.walk visit finish start =
      some (foldVisits visit finish (ringSlots buffer.outOffs buffer.visitedCount) start) := by
  obtain ⟨more, count⟩ : ∃ more, buffer.visitedCount = more + 1 := by
    refine ⟨buffer.visitedCount - 1, ?_⟩
    unfold visitedCount
    split <;> omega
  have small : more < 10 := by
    have bound : buffer.visitedCount ≤ 10 := by
      unfold visitedCount
      split <;> omega
    omega
  have ends : (buffer.outOffs + (more + 1)) % 10 = buffer.inOffs := by
    rw [← count]
    unfold visitedCount
    split <;> omega
  rw [count]
  exact run_walkRound visit finish start outBound ends small small

theorem foldVisits_record (slots visited : List Nat) :
    foldVisits (fun index visited => Flow.next (visited ++ [index])) id slots visited =
      visited ++ slots := by
  induction slots generalizing visited with
  | nil => simp [foldVisits]
  | cons index slots inductionHypothesis =>
      simp only [foldVisits]
      rw [inductionHypothesis]
      simp

end Walk

variable {buffer : AesdCircularBuffer}

theorem WellFormed.visitedSlots_eq (formed : buffer.WellFormed) :
    buffer.visitedSlots = some (ringSlots buffer.outOffs buffer.visitedCount) := by
  rw [visitedSlots, walk_eq formed.inOffs_lt formed.outOffs_lt, foldVisits_record]
  rfl

theorem WellFormed.inOffs_eq_outOffs_iff (formed : buffer.WellFormed) :
    buffer.inOffs = buffer.outOffs ↔ buffer.liveEntries = [] ∨ buffer.full = true := by
  rw [← List.length_eq_zero_iff, length_liveEntries]
  cases isFull : buffer.full with
  | true => simp [formed.full_offs isFull]
  | false =>
      rw [formed.liveCount_of_notFull isFull, formed.notFull_outOffs isFull]
      simp

theorem WellFormed.visited_of_nonempty (formed : buffer.WellFormed)
    (nonempty : buffer.liveEntries ≠ []) :
    ringSlots buffer.outOffs buffer.visitedCount = buffer.liveSlots := by
  have sameCount : buffer.visitedCount = buffer.liveCount := by
    cases isFull : buffer.full with
    | true => simp [visitedCount, formed.full_offs isFull, liveCount_of_full isFull]
    | false =>
        have apart : buffer.inOffs ≠ buffer.outOffs := by
          rw [ne_eq, formed.inOffs_eq_outOffs_iff]
          simp [nonempty, isFull]
        simp [visitedCount, apart, liveCount, isFull]
  rw [sameCount, liveSlots]

/-- A walk of an empty buffer visits all ten slots, and all of them are zero. -/
theorem WellFormed.visited_of_empty (formed : buffer.WellFormed)
    (isEmpty : buffer.liveEntries = []) :
    buffer.visitedCount = 10 ∧ ∀ index, buffer.slot index = {} := by
  have count : buffer.liveCount = 0 := by
    rw [← length_liveEntries, isEmpty, List.length_nil]
  have notFull : buffer.full = false := by
    cases isFull : buffer.full with
    | true => rw [liveCount_of_full isFull] at count; contradiction
    | false => rfl
  rw [formed.liveCount_of_notFull notFull] at count
  refine ⟨?_, fun index => ?_⟩
  · rw [visitedCount, count, formed.notFull_outOffs notFull, if_pos rfl]
  · exact formed.notFull_unused notFull index (by omega)

/-! ## Sequences of adds -/

theorem addEntries_concat (heap : Heap UInt8) (entries : List AesdBufferEntry)
    (entry : AesdBufferEntry) :
    buffer.addEntries heap (entries ++ [entry]) =
      (buffer.addEntries heap entries).2.addEntry (buffer.addEntries heap entries).1 entry := by
  simp [addEntries]

theorem WellFormed.addEntries (formed : buffer.WellFormed) (heap : Heap UInt8)
    (entries : List AesdBufferEntry) : (buffer.addEntries heap entries).2.WellFormed := by
  induction entries using List.reverseRecOn with
  | nil => exact formed
  | append_singleton entries entry inductionHypothesis =>
      rw [addEntries_concat]
      exact inductionHypothesis.addEntry _ entry

theorem WellFormed.toFifo_addEntries (formed : buffer.WellFormed) (heap : Heap UInt8)
    (entries : List AesdBufferEntry) :
    (formed.addEntries heap entries).toFifo = formed.toFifo.pushAll entries := by
  induction entries using List.reverseRecOn with
  | nil => rfl
  | append_singleton entries entry inductionHypothesis =>
      have step := (formed.addEntries heap entries).toFifo_addEntry
        (buffer.addEntries heap entries).1 entry
      rw [inductionHypothesis, ← BoundedFifo.pushAll_concat] at step
      rw [← step]
      apply BoundedFifo.ext
      simp only [toFifo, addEntries_concat]

theorem liveEntries_addEntries_init (heap : Heap UInt8) (entries : List AesdBufferEntry) :
    (init.addEntries heap entries).2.liveEntries = entries.rtake 10 := by
  have pushes := congrArg BoundedFifo.items (init_wellFormed.toFifo_addEntries heap entries)
  rw [BoundedFifo.pushAll_items] at pushes
  exact pushes

theorem full_addEntries_init_iff (heap : Heap UInt8) (entries : List AesdBufferEntry) :
    (init.addEntries heap entries).2.full = true ↔ 10 ≤ entries.length := by
  have formed := init_wellFormed.addEntries heap entries
  have count := congrArg List.length (liveEntries_addEntries_init heap entries)
  rw [length_liveEntries, List.length_rtake] at count
  cases isFull : (init.addEntries heap entries).2.full with
  | true =>
      rw [liveCount_of_full isFull] at count
      simp only [true_iff]
      omega
  | false =>
      have inBound := formed.inOffs_lt
      rw [formed.liveCount_of_notFull isFull] at count
      simp only [Bool.false_eq_true, false_iff]
      omega

/-- `n` adds to an initialised buffer leave the last ten entries, in the order
they were added, and the walk of the lookups visits exactly those. -/
theorem addEntries_init_refines (heap : Heap UInt8) (entries : List AesdBufferEntry) :
    let buffer := (init.addEntries heap entries).2
    buffer.inOffs < 10 ∧ buffer.outOffs < 10 ∧
    (buffer.full = true ↔ 10 ≤ entries.length) ∧
    (buffer.inOffs = buffer.outOffs ↔ entries = [] ∨ buffer.full = true) ∧
    (∃ slots, buffer.visitedSlots = some slots ∧ slots.Nodup ∧ (∀ index ∈ slots, index < 10) ∧
      (entries ≠ [] → slots.map buffer.slot = entries.rtake 10) ∧
      (entries = [] → ∀ index ∈ slots, (buffer.slot index).size = 0)) ∧
    buffer.liveEntries = entries.rtake 10 ∧
    ∀ heap' entry,
      (buffer.addEntry heap' entry).2.liveEntries =
        if buffer.full then buffer.liveEntries.tail ++ [entry]
        else buffer.liveEntries ++ [entry] := by
  intro buffer
  have formed : buffer.WellFormed := init_wellFormed.addEntries heap entries
  have live : buffer.liveEntries = entries.rtake 10 := liveEntries_addEntries_init heap entries
  have emptyIff : buffer.liveEntries = [] ↔ entries = [] := by
    rw [live, ← List.length_eq_zero_iff, List.length_rtake, ← List.length_eq_zero_iff]
    omega
  have visitedSmall : buffer.visitedCount ≤ 10 := by
    unfold visitedCount
    split <;> omega
  refine ⟨formed.inOffs_lt, formed.outOffs_lt, full_addEntries_init_iff heap entries, ?_, ?_,
    live, ?_⟩
  · rw [formed.inOffs_eq_outOffs_iff, emptyIff]
  · refine ⟨_, formed.visitedSlots_eq, nodup_ringSlots _ visitedSmall,
      fun index membership => lt_of_mem_ringSlots membership, ?_, ?_⟩
    · intro nonempty
      rw [formed.visited_of_nonempty (mt emptyIff.mp nonempty), ← live]
      rfl
    · intro isEmpty index _
      rw [(formed.visited_of_empty (emptyIff.mpr isEmpty)).2 index]
  · intro heap' entry
    cases isFull : buffer.full with
    | true => exact formed.liveEntries_addEntry_of_full heap' entry isFull
    | false => exact formed.liveEntries_addEntry_of_notFull heap' entry isFull

end Aesd.AesdCircularBuffer
