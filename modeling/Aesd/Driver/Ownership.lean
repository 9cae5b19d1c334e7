import Aesd.Driver.Device

/-!
# Who owns which block

`Valid` is the invariant of the device between lock-protected sections: the
ring is well formed, the live blocks are the temporary command buffer and the
blocks of the live entries, every live entry fills its block, and the temporary
buffer holds at least `current_temporary_buffer_size` bytes.  Both steps of a
section, growing the temporary buffer and pushing it, keep it.
-/

namespace Aesd

open BlockHeap Concurrency Loop

/-- A live entry has a block of its own size, and all of it has been written. -/
def AesdBufferEntry.Stored (heap : Heap UInt8) (entry : AesdBufferEntry) : Prop :=
  ∃ pointer block, entry.buffptr = some pointer ∧ heap.block pointer = some block ∧
    block.capacity = entry.size ∧ block.content.length = entry.size

namespace AesdBufferEntry.Stored

variable {heap heap' : Heap UInt8} {entry : AesdBufferEntry}

theorem congr (stored : entry.Stored heap)
    (same : ∀ pointer, entry.buffptr = some pointer → heap'.block pointer = heap.block pointer) :
    entry.Stored heap' := by
  obtain ⟨pointer, block, held, found, capacity, written⟩ := stored
  exact ⟨pointer, block, held, (same pointer held).trans found, capacity, written⟩

theorem entryBytes_eq (stored : entry.Stored heap) :
    Driver.entryBytes heap entry = heap.content entry.buffptr := by
  obtain ⟨pointer, block, held, found, _, written⟩ := stored
  unfold Driver.entryBytes
  rw [held, Heap.content_some found, ← written]
  exact List.take_length

theorem length_entryBytes (stored : entry.Stored heap) :
    (Driver.entryBytes heap entry).length = entry.size := by
  rw [stored.entryBytes_eq]
  obtain ⟨pointer, block, held, found, _, written⟩ := stored
  rw [held, Heap.content_some found, written]

end AesdBufferEntry.Stored

theorem length_userBytes (buf : List UInt8) {off size : Nat} (inside : off + size ≤ buf.length) :
    (userBytes buf off size).length = size := by
  rw [userBytes, List.length_take, List.length_drop]
  omega

namespace Driver

def pointers (entries : List AesdBufferEntry) : List Nat :=
  entries.filterMap AesdBufferEntry.buffptr

/-- The blocks that the device is responsible for. -/
def owners (driver : Driver) : List Nat :=
  driver.dev.temporaryCommandBuffer.toList ++ pointers driver.dev.data.liveEntries

structure Valid (driver : Driver) : Prop where
  ring : driver.dev.data.WellFormed
  owns : driver.heap.Owns driver.owners
  stored : ∀ entry ∈ driver.dev.data.liveEntries, entry.Stored driver.heap
  held : driver.dev.currentTemporaryBufferSize ≤
    (driver.heap.content driver.dev.temporaryCommandBuffer).length

theorem init_valid : init.Valid where
  ring := AesdCircularBuffer.init_wellFormed
  owns := Heap.empty_owns
  stored entry membership := by simp [init] at membership
  held := Nat.zero_le _

theorem mem_pointers {entries : List AesdBufferEntry} {entry : AesdBufferEntry} {pointer : Nat}
    (membership : entry ∈ entries) (held : entry.buffptr = some pointer) :
    pointer ∈ pointers entries :=
  List.mem_filterMap.mpr ⟨entry, membership, held⟩

theorem commands_congr {heap heap' : Heap UInt8} {entries : List AesdBufferEntry}
    (same : ∀ pointer ∈ pointers entries, heap'.block pointer = heap.block pointer) :
    entries.map (entryBytes heap') = entries.map (entryBytes heap) := by
  apply List.map_congr_left
  intro entry membership
  unfold entryBytes
  rw [Heap.content_congr fun pointer held => same pointer (mem_pointers membership held)]

theorem length_pending {driver : Driver} (valid : driver.Valid) :
    driver.pending.length = driver.dev.currentTemporaryBufferSize := by
  rw [pending, List.length_take]
  exact Nat.min_eq_left valid.held

theorem length_commands_le (driver : Driver) : driver.commands.length ≤ 10 := by
  rw [commands, List.length_map, AesdCircularBuffer.length_liveEntries]
  exact AesdCircularBuffer.liveCount_le

/-- Every range of a caller's buffer that was read since `driver` lies inside it. -/
def ReadsInside (driver driver' : Driver) : Prop :=
  ∀ range ∈ driver'.copied, range ∈ driver.copied ∨ range.off + range.size ≤ range.count

/-- What growing the temporary buffer does: the ring and its commands stay, and
`bytes` are added to the pending ones. -/
structure Appended (driver driver' : Driver) (bytes : List UInt8) : Prop where
  valid : driver'.Valid
  lock : driver'.dev.lock = driver.dev.lock
  commands : driver'.commands = driver.commands
  pending : driver'.pending = driver.pending ++ bytes
  copied : ReadsInside driver driver'

theorem Appended.refl {driver : Driver} (valid : driver.Valid) : Appended driver driver [] :=
  ⟨valid, rfl, rfl, (List.append_nil _).symm, fun _ membership => .inl membership⟩

section AppendTemporary

variable {driver : Driver} (outcome : Outcome) (buf : List UInt8) (off size : Nat)

theorem Valid.block_of_ring (valid : driver.Valid) (capacity offset : Nat) (data : List UInt8)
    {pointer : Nat} (membership : pointer ∈ pointers driver.dev.data.liveEntries) :
    ((driver.heap.resize driver.dev.temporaryCommandBuffer capacity).store driver.heap.next
      offset data).block pointer = driver.heap.block pointer := by
  have notNew : pointer ≠ driver.heap.next := by
    intro isNew
    exact valid.owns.next_notMem (isNew ▸ List.mem_append_right _ membership)
  have notOld : driver.dev.temporaryCommandBuffer ≠ some pointer := by
    intro isOld
    have disjoint := (List.nodup_append.mp valid.owns.distinct).2.2
    exact disjoint pointer (Option.mem_toList.mpr isOld) pointer membership rfl
  rw [Heap.block_store_of_ne _ _ notNew, Heap.block_resize_of_ne _ notNew notOld]

/-- The device once `krealloc` has succeeded and `data` has been copied. -/
def regrown (driver : Driver) (range : UserRange) (data : List UInt8) (newSize : Nat) :
    Driver :=
  { driver with
    dev :=
      { driver.dev with
        temporaryCommandBuffer := some driver.heap.next
        currentTemporaryBufferSize := newSize }
    heap := (driver.heap.resize driver.dev.temporaryCommandBuffer
      (driver.dev.currentTemporaryBufferSize + range.size)).store driver.heap.next
        driver.dev.currentTemporaryBufferSize data
    copied := range :: driver.copied }

theorem appendTemporary_cases {error : Option Int} {driver' : Driver}
    (result : driver.appendTemporary outcome buf off size = (error, driver')) :
    (outcome.nomem = true ∧ error = some (-enomem) ∧ driver' = driver) ∨
    (outcome.nomem = false ∧ outcome.notCopied ≠ 0 ∧ error = some (-efault) ∧
      ∃ data, driver' =
        driver.regrown ⟨buf.length, off, size⟩ data driver.dev.currentTemporaryBufferSize) ∨
    (outcome.nomem = false ∧ min outcome.notCopied (userBytes buf off size).length = 0 ∧
      error = none ∧
      driver' = driver.regrown ⟨buf.length, off, size⟩ (userBytes buf off size)
        (driver.dev.currentTemporaryBufferSize + size)) := by
  unfold appendTemporary krealloc at result
  cases nomem : outcome.nomem with
  | true =>
      simp only [nomem, if_true, Prod.mk.injEq] at result
      exact .inl ⟨rfl, result.1.symm, result.2.symm⟩
  | false =>
      right
      simp only [nomem, Bool.false_eq_true, if_false] at result
      by_cases copied : min outcome.notCopied (userBytes buf off size).length = 0
      · rw [if_pos (by exact copied)] at result
        refine .inr ⟨rfl, copied, (congrArg Prod.fst result).symm, ?_⟩
        refine (congrArg Prod.snd result).symm.trans ?_
        simp only [Driver.regrown, copyFromUser, copied, Nat.sub_zero, List.take_length]
      · rw [if_neg (by exact copied)] at result
        refine .inl ⟨rfl, fun allCopied => copied ?_, (congrArg Prod.fst result).symm, _,
          (congrArg Prod.snd result).symm⟩
        rw [allCopied, Nat.zero_min]

theorem Valid.regrown (valid : driver.Valid) (range : UserRange) {data : List UInt8}
    {newSize : Nat} (enough : newSize ≤ driver.dev.currentTemporaryBufferSize + data.length) :
    (driver.regrown range data newSize).Valid := by
  refine ⟨valid.ring, ?_, ?_, ?_⟩
  · exact (valid.owns.resize _).store _ _
  · intro entry membership
    apply (valid.stored entry membership).congr
    intro pointer held
    exact valid.block_of_ring _ _ _ (mem_pointers membership held)
  · have kept := valid.held
    simp only [Driver.regrown, Heap.content_store_resize, List.length_append, List.length_take]
    omega

theorem Valid.commands_regrown (valid : driver.Valid) (range : UserRange) (data : List UInt8)
    (newSize : Nat) : (driver.regrown range data newSize).commands = driver.commands :=
  commands_congr fun _ membership => valid.block_of_ring _ _ _ membership

theorem readsInside_regrown {off size count : Nat} {data : List UInt8} {newSize : Nat}
    (inside : off + size ≤ count) :
    ReadsInside driver (driver.regrown ⟨count, off, size⟩ data newSize) := by
  intro range membership
  rcases List.mem_cons.mp membership with new | old
  · exact .inr (new ▸ inside)
  · exact .inl old

theorem Valid.appendTemporary_failed (valid : driver.Valid) {error : Int} {driver' : Driver}
    (inside : off + size ≤ buf.length)
    (failed : driver.appendTemporary outcome buf off size = (some error, driver')) :
    error < 0 ∧ ¬ outcome.Succeeds ∧ Appended driver driver' [] := by
  rcases appendTemporary_cases outcome buf off size failed with
    ⟨nomem, code, same⟩ | ⟨_, notCopied, code, data, same⟩ | ⟨_, _, code, _⟩
  · simp only [Option.some.injEq] at code
    subst code same
    refine ⟨by decide, fun succeeds => ?_, .refl valid⟩
    rw [succeeds.2.1] at nomem
    contradiction
  · simp only [Option.some.injEq] at code
    subst code same
    refine ⟨by decide, fun succeeds => notCopied succeeds.2.2, ?_⟩
    refine ⟨valid.regrown _ (Nat.le_add_right _ _), rfl, valid.commands_regrown _ _ _, ?_,
      readsInside_regrown inside⟩
    have kept := valid.held
    simp only [Driver.pending, Driver.regrown, Heap.content_store_resize, List.append_nil]
    rw [List.append_assoc, List.take_append_of_le_length (by rw [List.length_take]; omega),
      List.take_take, Nat.min_self]
  · simp at code

/-- A successful growth also makes the temporary buffer a block of exactly the
size that it will have as a command. -/
theorem Valid.appendTemporary_done (valid : driver.Valid) {driver' : Driver}
    (inside : off + size ≤ buf.length)
    (done : driver.appendTemporary outcome buf off size = (none, driver')) :
    Appended driver driver' (userBytes buf off size) ∧
      AesdBufferEntry.Stored driver'.heap
        ⟨driver'.dev.temporaryCommandBuffer, driver'.dev.currentTemporaryBufferSize⟩ ∧
      outcome.nomem = false ∧ (0 < size → outcome.notCopied = 0) := by
  have length := length_userBytes buf inside
  have kept := valid.held
  rcases appendTemporary_cases outcome buf off size done with
    ⟨_, code, _⟩ | ⟨_, _, code, _⟩ | ⟨memory, copied, _, rfl⟩
  · simp at code
  · simp at code
  · refine ⟨⟨valid.regrown _ (by omega), rfl, valid.commands_regrown _ _ _, ?_,
      readsInside_regrown inside⟩, ?_, memory, by omega⟩
    · simp only [Driver.pending, Driver.regrown, Heap.content_store_resize, length,
        List.drop_take_self, List.append_nil]
      apply List.take_of_length_le
      rw [List.length_append, List.length_take, length]
      omega
    · refine ⟨driver.heap.next, _, rfl,
        Heap.block_store_self _ _ (Heap.block_resize_next _ _ _), rfl, ?_⟩
      simp only [Driver.regrown, List.length_append, List.length_take, List.length_drop, length]
      omega

end AppendTemporary

section PushTemporary

variable {driver : Driver}

theorem pointers_append (first second : List AesdBufferEntry) :
    pointers (first ++ second) = pointers first ++ pointers second :=
  List.filterMap_append

/-- A full ring frees the block of the entry that it drops, and no other one. -/
theorem Valid.freeOldest (valid : driver.Valid) (entry : AesdBufferEntry) {pointer : Nat}
    (fresh : entry.buffptr = some pointer)
    (owns : driver.heap.Owns (pointer :: pointers driver.dev.data.liveEntries)) :
    (driver.dev.data.freeOldest driver.heap).Owns
        (pointers ((driver.dev.data.liveEntries ++ [entry]).rtake 10)) ∧
      ∀ other ∈ pointers ((driver.dev.data.liveEntries ++ [entry]).rtake 10),
        (driver.dev.data.freeOldest driver.heap).block other = driver.heap.block other := by
  have entryPointers : pointers [entry] = [pointer] := by simp [pointers, fresh]
  cases isFull : driver.dev.data.full with
  | false =>
      have room : (driver.dev.data.liveEntries ++ [entry]).length ≤ 10 := by
        rw [List.length_append, AesdCircularBuffer.length_liveEntries,
          valid.ring.liveCount_of_notFull isFull]
        exact valid.ring.inOffs_lt
      have nothingFreed : driver.dev.data.freeOldest driver.heap = driver.heap := by
        simp [AesdCircularBuffer.freeOldest, isFull]
      rw [List.rtake_of_length_le room, nothingFreed, pointers_append, entryPointers]
      exact ⟨owns.perm (List.perm_append_singleton _ _).symm, fun _ _ => rfl⟩
  | true =>
      obtain ⟨rest, live⟩ := valid.ring.liveEntries_of_full isFull
      have filled : driver.dev.data.liveEntries.length = 10 := by
        rw [AesdCircularBuffer.length_liveEntries, AesdCircularBuffer.liveCount_of_full isFull]
      obtain ⟨dropped, _, held, _⟩ := valid.stored (driver.dev.data.slot driver.dev.data.outOffs)
        (live ▸ List.mem_cons_self)
      have oldestFreed : driver.dev.data.freeOldest driver.heap = driver.heap.free dropped := by
        simp [AesdCircularBuffer.freeOldest, isFull, held]
      have livePointers : pointers driver.dev.data.liveEntries = dropped :: pointers rest := by
        rw [live]
        simp [pointers, held]
      rw [List.rtake_append_singleton_of_length_eq entry (by decide) filled, oldestFreed, live,
        List.tail_cons, pointers_append, entryPointers]
      rw [livePointers] at owns
      have moved : (pointer :: dropped :: pointers rest).Perm
          (dropped :: (pointers rest ++ [pointer])) :=
        (List.Perm.swap _ _ _).trans ((List.perm_append_singleton _ _).symm.cons _)
      have ownsDropped := owns.perm moved
      refine ⟨ownsDropped.free, fun other membership => ?_⟩
      apply Heap.block_free_of_ne
      intro same
      exact (List.nodup_cons.mp ownsDropped.distinct).1 (same ▸ membership)

/-- What pushing the temporary buffer does: the pending bytes become the newest
command, and the ring keeps the last ten. -/
structure Pushed (driver driver' : Driver) : Prop where
  valid : driver'.Valid
  lock : driver'.dev.lock = driver.dev.lock
  commands : driver'.commands = (driver.commands ++ [driver.pending]).rtake 10
  pending : driver'.pending = []
  copied : driver'.copied = driver.copied

theorem Valid.pushTemporary (valid : driver.Valid)
    (stored : AesdBufferEntry.Stored driver.heap
      ⟨driver.dev.temporaryCommandBuffer, driver.dev.currentTemporaryBufferSize⟩) :
    driver.pushTemporary.1 = driver.pending.length ∧ Pushed driver driver.pushTemporary.2 := by
  obtain ⟨pointer, _, held, _⟩ := id stored
  have owns : driver.heap.Owns (pointer :: pointers driver.dev.data.liveEntries) := by
    have whole := valid.owns
    rw [owners, show driver.dev.temporaryCommandBuffer = some pointer from held] at whole
    exact whole
  have live := valid.ring.liveEntries_addEntry driver.heap
    ⟨driver.dev.temporaryCommandBuffer, driver.dev.currentTemporaryBufferSize⟩
  obtain ⟨ownsKept, untouched⟩ := valid.freeOldest ⟨_, _⟩ held owns
  rw [← live] at ownsKept untouched
  refine ⟨(length_pending valid).symm, ⟨?_, rfl, ?_, rfl, rfl⟩⟩
  · refine ⟨valid.ring.addEntry driver.heap _, ownsKept, ?_, Nat.zero_le _⟩
    intro entry membership
    have before : entry.Stored driver.heap := by
      rw [show driver.pushTemporary.2.dev.data.liveEntries = _ from live] at membership
      rcases List.mem_append.mp (List.mem_of_mem_drop membership) with old | new
      · exact valid.stored entry old
      · rw [List.mem_singleton.mp new]
        exact stored
    exact before.congr fun p isHeld => untouched p (mem_pointers membership isHeld)
  · refine (commands_congr untouched).trans ?_
    rw [live, List.map_rtake, List.map_append]
    rfl

end PushTemporary

end Driver

end Aesd
