import Aesd.Driver.CircularBuffer.Walk

/-!
# The lookups

With sizes that sum up below `2 ^ 64` nothing wraps, and the three lookups agree
with the concatenation of the live entries: its length, the entry that contains
a byte of it, and the position of a byte of an entry.
-/

namespace Aesd

open BlockHeap Loop

section Integers

theorem sizeAdd_of_lt {first second : Nat} (small : first + second < 2 ^ 64) :
    sizeAdd first second = first + second := Nat.mod_eq_of_lt small

theorem toSizeT_natCast {value : Nat} (small : value < 2 ^ 64) : toSizeT value = value := by
  unfold toSizeT
  omega

theorem sizeSub_of_le {first second : Nat} (le : second ≤ first) (small : first < 2 ^ 64) :
    sizeSub first second = first - second := by
  unfold sizeSub toSizeT
  omega

theorem toSsizeT_of_lt {value : Nat} (small : value < 2 ^ 63) : toSsizeT value = value := by
  rw [toSsizeT, if_pos small]

theorem toSsizeT_toSizeT_neg_einval : toSsizeT (toSizeT (-einval)) = -einval := by decide

end Integers

namespace AesdCircularBuffer

variable {buffer : AesdCircularBuffer}

def totalSize (buffer : AesdCircularBuffer) (slots : List Nat) : Nat :=
  (slots.map fun index => (buffer.slot index).size).sum

@[simp]
theorem totalSize_nil : buffer.totalSize [] = 0 := rfl

@[simp]
theorem totalSize_cons (index : Nat) (slots : List Nat) :
    buffer.totalSize (index :: slots) = (buffer.slot index).size + buffer.totalSize slots := by
  simp [totalSize]

@[simp]
theorem totalSize_append (first second : List Nat) :
    buffer.totalSize (first ++ second) = buffer.totalSize first + buffer.totalSize second := by
  simp [totalSize]

theorem totalSize_of_unused (unused : ∀ index, buffer.slot index = {}) (slots : List Nat) :
    buffer.totalSize slots = 0 := by
  induction slots with
  | nil => rfl
  | cons index slots inductionHypothesis => rw [totalSize_cons, unused, inductionHypothesis]

theorem exists_split {slots : List Nat} {charOffset : Nat}
    (inside : charOffset < buffer.totalSize slots) :
    ∃ before index after, slots = before ++ index :: after ∧
      buffer.totalSize before ≤ charOffset ∧
      charOffset < buffer.totalSize before + (buffer.slot index).size := by
  induction slots generalizing charOffset with
  | nil => exact absurd inside (Nat.not_lt_zero _)
  | cons index slots inductionHypothesis =>
      rw [totalSize_cons] at inside
      by_cases here : charOffset < (buffer.slot index).size
      · exact ⟨[], index, slots, rfl, Nat.zero_le _, by rwa [totalSize_nil, Nat.zero_add]⟩
      · obtain ⟨before, found, after, split, reached, within⟩ :=
          @inductionHypothesis (charOffset - (buffer.slot index).size) (by omega)
        refine ⟨index :: before, found, after, by rw [split]; rfl, ?_, ?_⟩
        · rw [totalSize_cons]
          omega
        · rw [totalSize_cons]
          omega

section Visits

variable {slots : List Nat}

theorem foldVisits_length {length : Nat} (small : length + buffer.totalSize slots < 2 ^ 64) :
    foldVisits (fun index length => Flow.next (sizeAdd length (buffer.slot index).size)) id slots
      length = length + buffer.totalSize slots := by
  induction slots generalizing length with
  | nil => simp [foldVisits]
  | cons index slots inductionHypothesis =>
      rw [totalSize_cons] at small
      simp only [foldVisits]
      rw [sizeAdd_of_lt (by omega), inductionHypothesis (by omega), totalSize_cons]
      omega

theorem foldVisits_find_none {accumulated charOffset : Nat}
    (small : accumulated + buffer.totalSize slots < 2 ^ 64)
    (beyond : accumulated + buffer.totalSize slots ≤ charOffset) :
    foldVisits (buffer.findVisit charOffset) (fun _ => none) slots accumulated = none := by
  induction slots generalizing accumulated with
  | nil => rfl
  | cons index slots inductionHypothesis =>
      rw [totalSize_cons] at small beyond
      have step : buffer.findVisit charOffset index accumulated =
          .next (accumulated + (buffer.slot index).size) := by
        rw [findVisit, sizeAdd_of_lt (by omega)]
        exact if_neg (by omega)
      simp only [foldVisits, step]
      exact inductionHypothesis (by omega) (by omega)

theorem foldVisits_find_some {accumulated charOffset index : Nat} {before after : List Nat}
    (small : accumulated + buffer.totalSize (before ++ index :: after) < 2 ^ 64)
    (reached : accumulated + buffer.totalSize before ≤ charOffset)
    (inside : charOffset < accumulated + buffer.totalSize before + (buffer.slot index).size) :
    foldVisits (buffer.findVisit charOffset) (fun _ => none) (before ++ index :: after)
      accumulated = some (index, charOffset - (accumulated + buffer.totalSize before)) := by
  induction before generalizing accumulated with
  | nil =>
      rw [List.nil_append, totalSize_cons] at small
      rw [totalSize_nil, Nat.add_zero] at reached inside
      rw [List.nil_append, totalSize_nil, Nat.add_zero]
      have entryStart : sizeSub (accumulated + (buffer.slot index).size) (buffer.slot index).size =
          accumulated := by
        rw [sizeSub_of_le (Nat.le_add_left _ _) (by omega), Nat.add_sub_cancel]
      have step : buffer.findVisit charOffset index accumulated =
          .leave (some (index, charOffset - accumulated)) := by
        rw [findVisit, sizeAdd_of_lt (by omega), entryStart, sizeSub_of_le reached (by omega)]
        exact if_pos inside
      simp only [foldVisits, step]
  | cons first before inductionHypothesis =>
      simp only [List.cons_append, totalSize_cons] at small reached inside ⊢
      have step : buffer.findVisit charOffset first accumulated =
          .next (accumulated + (buffer.slot first).size) := by
        rw [findVisit, sizeAdd_of_lt (by omega)]
        exact if_neg (by omega)
      simp only [foldVisits, step]
      rw [inductionHypothesis (by omega) (by omega) (by omega), Nat.add_assoc]

/-- The entry whose rank is the position decides; beyond the last one there is none. -/
theorem foldVisits_position {position counter : UInt8} {offset cmdOffs : Nat}
    (reached : counter.toNat ≤ position.toNat) (few : counter.toNat + slots.length < 256)
    (small : offset + buffer.totalSize slots + cmdOffs < 2 ^ 64) :
    foldVisits (buffer.positionVisit position cmdOffs) (fun _ => toSizeT (-einval)) slots
        (counter, offset) =
      match slots[position.toNat - counter.toNat]? with
      | some index =>
          if cmdOffs ≤ (buffer.slot index).size then
            offset + buffer.totalSize (slots.take (position.toNat - counter.toNat)) + cmdOffs
          else toSizeT (-einval)
      | none => toSizeT (-einval) := by
  induction slots generalizing counter offset with
  | nil => rfl
  | cons index slots inductionHypothesis =>
      rw [totalSize_cons] at small
      rw [List.length_cons] at few
      by_cases here : position = counter
      · subst here
        rw [Nat.sub_self, List.getElem?_cons_zero, List.take_zero, totalSize_nil, Nat.add_zero]
        by_cases fits : cmdOffs ≤ (buffer.slot index).size
        · simp only [foldVisits, positionVisit, if_true, fits]
          exact sizeAdd_of_lt (by omega)
        · simp only [foldVisits, positionVisit, if_true, fits, if_false]
      · have apart : position.toNat ≠ counter.toNat := fun same => here (UInt8.toNat_inj.mp same)
        have advanced : (counter + 1).toNat = counter.toNat + 1 := by
          rw [UInt8.toNat_add]
          exact Nat.mod_eq_of_lt (by change counter.toNat + 1 < 256; omega)
        have step : buffer.positionVisit position cmdOffs index (counter, offset) =
            .next (counter + 1, offset + (buffer.slot index).size) := by
          rw [positionVisit, if_neg here, sizeAdd_of_lt (by omega)]
        have rank : position.toNat - counter.toNat = position.toNat - (counter + 1).toNat + 1 := by
          omega
        simp only [foldVisits, step]
        rw [inductionHypothesis (by omega) (by omega) (by omega), rank, List.getElem?_cons_succ,
          List.take_succ_cons, totalSize_cons, Nat.add_assoc offset]

end Visits

def liveSize (buffer : AesdCircularBuffer) : Nat := buffer.totalSize buffer.liveSlots

section Lookups

variable (formed : buffer.WellFormed)
include formed

theorem WellFormed.totalSize_visited :
    buffer.totalSize (ringSlots buffer.outOffs buffer.visitedCount) = buffer.liveSize := by
  by_cases isEmpty : buffer.liveEntries = []
  · have noSlots : buffer.liveSlots = [] := List.map_eq_nil_iff.mp isEmpty
    rw [liveSize, noSlots, totalSize_nil]
    exact totalSize_of_unused (formed.visited_of_empty isEmpty).2 _
  · rw [formed.visited_of_nonempty isEmpty, liveSize]

theorem WellFormed.contentLength_eq (small : buffer.liveSize < 2 ^ 64) :
    buffer.contentLength = some buffer.liveSize := by
  rw [← formed.totalSize_visited] at small ⊢
  rw [contentLength, walk_eq formed.inOffs_lt formed.outOffs_lt,
    foldVisits_length (by rwa [Nat.zero_add]), Nat.zero_add]

theorem WellFormed.find_none (small : buffer.liveSize < 2 ^ 64) {charOffset : Nat}
    (beyond : buffer.liveSize ≤ charOffset) :
    buffer.findEntryOffsetForFpos charOffset = some none := by
  rw [← formed.totalSize_visited] at small beyond
  rw [findEntryOffsetForFpos, walk_eq formed.inOffs_lt formed.outOffs_lt,
    foldVisits_find_none (by rwa [Nat.zero_add]) (by rwa [Nat.zero_add])]

theorem WellFormed.find_some (small : buffer.liveSize < 2 ^ 64) {charOffset index : Nat}
    {before after : List Nat} (split : buffer.liveSlots = before ++ index :: after)
    (reached : buffer.totalSize before ≤ charOffset)
    (inside : charOffset < buffer.totalSize before + (buffer.slot index).size) :
    buffer.findEntryOffsetForFpos charOffset =
      some (some (index, charOffset - buffer.totalSize before)) := by
  have nonempty : buffer.liveEntries ≠ [] := by
    rw [liveEntries, split]
    simp
  rw [liveSize, split] at small
  rw [findEntryOffsetForFpos, walk_eq formed.inOffs_lt formed.outOffs_lt,
    formed.visited_of_nonempty nonempty, split,
    foldVisits_find_some (by rwa [Nat.zero_add]) (by rwa [Nat.zero_add])
      (by rwa [Nat.zero_add]), Nat.zero_add]

theorem WellFormed.findFposAtPosition_of_nonempty (nonempty : buffer.liveEntries ≠ [])
    {position : UInt8} {cmdOffs : Nat} (small : buffer.liveSize + cmdOffs < 2 ^ 64) :
    buffer.findFposAtPosition position cmdOffs = some (
      match buffer.liveSlots[position.toNat]? with
      | some index =>
          if cmdOffs ≤ (buffer.slot index).size then
            buffer.totalSize (buffer.liveSlots.take position.toNat) + cmdOffs
          else toSizeT (-einval)
      | none => toSizeT (-einval)) := by
  have few : buffer.liveSlots.length ≤ 10 := by
    rw [liveSlots, length_ringSlots]
    exact liveCount_le
  rw [findFposAtPosition, walk_eq formed.inOffs_lt formed.outOffs_lt,
    formed.visited_of_nonempty nonempty,
    foldVisits_position (Nat.zero_le _) (by change 0 + _ < 256; omega)
      (by rwa [Nat.zero_add])]
  simp only [UInt8.toNat_zero, Nat.sub_zero, Nat.zero_add]

/-- In an empty buffer, all ten slots count as entries of size zero. -/
theorem WellFormed.findFposAtPosition_of_empty (isEmpty : buffer.liveEntries = [])
    {position : UInt8} {cmdOffs : Nat} (small : cmdOffs < 2 ^ 64) :
    buffer.findFposAtPosition position cmdOffs =
      some (if position.toNat < 10 ∧ cmdOffs = 0 then 0 else toSizeT (-einval)) := by
  obtain ⟨count, unused⟩ := formed.visited_of_empty isEmpty
  have zero := totalSize_of_unused unused
  rw [findFposAtPosition, walk_eq formed.inOffs_lt formed.outOffs_lt, count,
    foldVisits_position (Nat.zero_le _) (by rw [length_ringSlots]; decide)
      (by rw [zero]; omega)]
  simp only [UInt8.toNat_zero, Nat.sub_zero, Nat.zero_add, zero, unused, Nat.le_zero]
  by_cases inBounds : position.toNat < 10
  · rw [List.getElem?_eq_getElem (by rwa [length_ringSlots])]
    by_cases atStart : cmdOffs = 0 <;> simp [inBounds, atStart]
  · rw [List.getElem?_eq_none (by rw [length_ringSlots]; omega)]
    simp [inBounds]

end Lookups

end AesdCircularBuffer

end Aesd
