import Aesd.Driver.CircularBuffer.Lookup

/-!
# The place of a byte

A byte of the concatenated entries is in one entry, at one index.  The offset
lookup of a ring that entries were added to returns that entry and stores that
index, for every offset below the content length; for every other offset it
stores nothing.
-/

namespace Aesd

open BlockHeap Loop

/-- Byte `charOffset` of the entries, one behind the other, is byte `index` of `entry`,
the one of number `rank`. -/
structure ByteAt (entries : List AesdBufferEntry) (charOffset rank : Nat)
    (entry : AesdBufferEntry) (index : Nat) : Prop where
  named : entries[rank]? = some entry
  inside : index < entry.size
  position : ((entries.take rank).map AesdBufferEntry.size).sum + index = charOffset

namespace AesdCircularBuffer

variable {buffer : AesdCircularBuffer}

def stored (entryOffsetByteRtn : Nat) : Option (Nat × Nat) → Option Nat × Nat
  | none => (none, entryOffsetByteRtn)
  | some (index, offset) => (some index, offset)

theorem foldVisits_findInto (charOffset entryOffsetByteRtn accumulated : Nat)
    (slots : List Nat) :
    foldVisits (buffer.findVisitInto charOffset) (fun state => (none, state.2)) slots
        (accumulated, entryOffsetByteRtn) =
      stored entryOffsetByteRtn
        (foldVisits (buffer.findVisit charOffset) (fun _ => none) slots accumulated) := by
  induction slots generalizing accumulated with
  | nil => rfl
  | cons index slots inductionHypothesis =>
      by_cases here : charOffset < sizeAdd accumulated (buffer.slot index).size
      · simp only [foldVisits, findVisitInto, findVisit, if_pos here]
        rfl
      · simp only [foldVisits, findVisitInto, findVisit, if_neg here]
        exact inductionHypothesis _

theorem WellFormed.findInto_eq (formed : buffer.WellFormed) (charOffset entryOffsetByteRtn : Nat) :
    buffer.findEntryOffsetForFposInto charOffset entryOffsetByteRtn =
      (buffer.findEntryOffsetForFpos charOffset).map (stored entryOffsetByteRtn) := by
  rw [findEntryOffsetForFposInto, findEntryOffsetForFpos,
    walk_eq formed.inOffs_lt formed.outOffs_lt, walk_eq formed.inOffs_lt formed.outOffs_lt,
    foldVisits_findInto]
  rfl

theorem map_size_slots (slots : List Nat) :
    ((slots.map buffer.slot).map AesdBufferEntry.size).sum = buffer.totalSize slots := by
  rw [List.map_map]
  rfl

theorem WellFormed.find_byteAt (formed : buffer.WellFormed) (small : buffer.liveSize < 2 ^ 64)
    {charOffset : Nat} (inside : charOffset < buffer.liveSize) :
    ∃ rank index offset, buffer.liveSlots[rank]? = some index ∧
      buffer.findEntryOffsetForFpos charOffset = some (some (index, offset)) ∧
      ByteAt buffer.liveEntries charOffset rank (buffer.slot index) offset := by
  obtain ⟨before, index, after, split, reached, within⟩ := exists_split inside
  refine ⟨before.length, index, charOffset - buffer.totalSize before, ?_,
    formed.find_some small split reached within, ?_, by omega, ?_⟩
  · rw [split]
    simp
  · rw [liveEntries, split]
    simp
  · have earlier : buffer.liveEntries.take before.length = before.map buffer.slot := by
      rw [liveEntries, split]
      simp
    rw [earlier, map_size_slots]
    omega

theorem liveSize_addEntries_init (heap : Heap UInt8) (entries : List AesdBufferEntry) :
    (init.addEntries heap entries).2.liveSize =
      ((entries.rtake 10).map AesdBufferEntry.size).sum := by
  rw [← liveEntries_addEntries_init heap entries, liveEntries, map_size_slots, liveSize]

/-- The offset lookup of a buffer that was initialised and filled agrees with the
concatenation of the live entries and with the length function. -/
theorem find_addEntries_init (heap : Heap UInt8) (entries : List AesdBufferEntry)
    (small : ((entries.rtake 10).map AesdBufferEntry.size).sum < 2 ^ 64)
    (charOffset entryOffsetByteRtn : Nat) :
    let buffer := (init.addEntries heap entries).2
    ∃ length found rtn, buffer.contentLength = some length ∧
      buffer.findEntryOffsetForFposInto charOffset entryOffsetByteRtn = some (found, rtn) ∧
      length = ((entries.rtake 10).map AesdBufferEntry.size).sum ∧
      (found ≠ none ↔ charOffset < length) ∧
      (∀ index, found = some index → ∃ rank, buffer.liveSlots[rank]? = some index ∧
        ByteAt (entries.rtake 10) charOffset rank (buffer.slot index) rtn) ∧
      (found = none → rtn = entryOffsetByteRtn) := by
  intro buffer
  have formed : buffer.WellFormed := init_wellFormed.addEntries heap entries
  have live : buffer.liveEntries = entries.rtake 10 := liveEntries_addEntries_init heap entries
  have total : buffer.liveSize = ((entries.rtake 10).map AesdBufferEntry.size).sum :=
    liveSize_addEntries_init heap entries
  rw [← total] at small ⊢
  rw [← live]
  by_cases inside : charOffset < buffer.liveSize
  · obtain ⟨rank, index, offset, named, found, place⟩ := formed.find_byteAt small inside
    refine ⟨buffer.liveSize, some index, offset, formed.contentLength_eq small, ?_, rfl,
      by simp [inside], ?_, by simp⟩
    · rw [formed.findInto_eq, found]
      rfl
    · rintro _ ⟨⟩
      exact ⟨rank, named, place⟩
  · refine ⟨buffer.liveSize, none, entryOffsetByteRtn, formed.contentLength_eq small, ?_, rfl,
      by simp [inside], by simp, fun _ => rfl⟩
    rw [formed.findInto_eq, formed.find_none small (Nat.not_lt.mp inside)]
    rfl

/-- Two, zero and three bytes: the fourth one is found. -/
theorem find_addEntries_init_fourth : ∃ found rtn,
    (init.addEntries .empty [⟨some 0, 2⟩, ⟨none, 0⟩, ⟨some 1, 3⟩]).2.findEntryOffsetForFposInto
      3 7 = some (found, rtn) ∧ found ≠ none := by
  obtain ⟨length, found, rtn, _, returned, total, inside, _⟩ :=
    find_addEntries_init .empty [⟨some 0, 2⟩, ⟨none, 0⟩, ⟨some 1, 3⟩] (by decide) 3 7
  refine ⟨found, rtn, returned, inside.mpr ?_⟩
  rw [total]
  decide

/-! ## Back from the entry to the byte -/

/-- `(index - out_offs) mod 10`: how many live entries are older than the one in a slot. -/
def ageRank (buffer : AesdCircularBuffer) (index : Nat) : Nat :=
  (((index : Int) - buffer.outOffs) % aesdcharMaxWriteOperationsSupported).toNat

theorem ageRank_of_getElem? {rank index : Nat} (named : buffer.liveSlots[rank]? = some index) :
    rank < 10 ∧ buffer.ageRank index = rank := by
  rcases List.getElem?_eq_some_iff.mp named with ⟨inBounds, value⟩
  have fewer : rank < 10 := by
    rw [liveSlots, length_ringSlots] at inBounds
    exact Nat.lt_of_lt_of_le inBounds liveCount_le
  refine ⟨fewer, ?_⟩
  have slotOf : (buffer.outOffs + rank) % 10 = index := by
    simpa [liveSlots, ringSlots] using value
  rw [← slotOf, ageRank, aesdcharMaxWriteOperationsSupported]
  omega

/-- The position lookup takes the rank of an entry and an index into it to the byte
that is there. -/
theorem WellFormed.findFposAtPosition_byteAt (formed : buffer.WellFormed)
    {charOffset rank index offset : Nat} (named : buffer.liveSlots[rank]? = some index)
    (place : ByteAt buffer.liveEntries charOffset rank (buffer.slot index) offset)
    (small : buffer.liveSize + offset < 2 ^ 64) :
    buffer.findFposAtPosition (UInt8.ofNat rank) offset = some charOffset := by
  have fewer : rank < 10 := (ageRank_of_getElem? named).1
  have counter : (UInt8.ofNat rank).toNat = rank := UInt8.toNat_ofNat_of_lt (by
    change rank < 256
    omega)
  have nonempty : buffer.liveEntries ≠ [] := by
    intro isEmpty
    have noEntry := place.named
    rw [isEmpty] at noEntry
    contradiction
  have inEntry : offset ≤ (buffer.slot index).size := Nat.le_of_lt place.inside
  have earlier : buffer.totalSize (buffer.liveSlots.take rank) + offset = charOffset := by
    rw [← map_size_slots, List.map_take]
    exact place.position
  rw [formed.findFposAtPosition_of_nonempty nonempty small, counter, named]
  simp only [inEntry, if_true, earlier]

/-- In a buffer that was initialised and filled, every byte below the content length is
found, and the rank of its entry and the index into it lead back to the byte. -/
theorem findFposAtPosition_findEntryOffsetForFpos (heap : Heap UInt8)
    (entries : List AesdBufferEntry)
    (small : ((entries.rtake 10).map AesdBufferEntry.size).sum < 2 ^ 63) :
    let buffer := (init.addEntries heap entries).2
    ∃ length, buffer.contentLength = some length ∧ ∀ charOffset < length,
      ∃ index offset,
        buffer.findEntryOffsetForFpos charOffset = some (some (index, offset)) ∧
        buffer.findFposAtPosition (UInt8.ofNat (buffer.ageRank index)) offset =
          some charOffset ∧
        charOffset ≠ toSizeT (-einval) ∧ toSsizeT charOffset = charOffset := by
  intro buffer
  have formed : buffer.WellFormed := init_wellFormed.addEntries heap entries
  have total : buffer.liveSize = ((entries.rtake 10).map AesdBufferEntry.size).sum :=
    liveSize_addEntries_init heap entries
  rw [← total] at small
  refine ⟨buffer.liveSize, formed.contentLength_eq (by omega), ?_⟩
  intro charOffset inside
  rcases formed.find_byteAt (by omega) inside with ⟨rank, index, offset, named, found, place⟩
  refine ⟨index, offset, found, ?_, ?_, ?_⟩
  · rw [(ageRank_of_getElem? named).2]
    apply formed.findFposAtPosition_byteAt named place
    have position := place.position
    omega
  · have negative : toSizeT (-einval) = 2 ^ 64 - 22 := by decide
    omega
  · apply toSsizeT_of_lt
    omega

/-- Twelve entries, so that the oldest one is in slot two, some of them with no bytes:
byte five is found and found again. -/
theorem findFposAtPosition_findEntryOffsetForFpos_wrapped :
    let buffer := (init.addEntries .empty
      ((List.range 12).map fun age => AesdBufferEntry.mk (some age) (age % 3))).2
    ∃ index offset,
      buffer.findEntryOffsetForFpos 5 = some (some (index, offset)) ∧
      buffer.findFposAtPosition (UInt8.ofNat (buffer.ageRank index)) offset = some 5 := by
  intro buffer
  rcases findFposAtPosition_findEntryOffsetForFpos .empty
    ((List.range 12).map fun age => AesdBufferEntry.mk (some age) (age % 3))
    (by decide) with ⟨length, total, back⟩
  have enough : some length = some 11 := by
    rw [← total]
    decide +kernel
  rcases back 5 (by rw [Option.some.inj enough]; decide) with
    ⟨index, offset, found, returned, _⟩
  exact ⟨index, offset, found, returned⟩

end AesdCircularBuffer

end Aesd
