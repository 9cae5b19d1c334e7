import Aesd.Driver.CircularBuffer.Lookup
import Aesd.Driver.FileOps

/-!
# What `aesd_read` reads

The content of a device is the concatenation of its live commands.  A read that
is not disturbed stores the slice of the content at the file position, entry by
entry, and advances the position by what it stored.
-/

namespace Aesd

open BlockHeap Concurrency Loop

/-- The live commands, one behind the other. -/
def Driver.content (driver : Driver) : List UInt8 := driver.commands.flatten

section Content

variable {driver : Driver}

def Driver.slotBytes (driver : Driver) (index : Nat) : List UInt8 :=
  Driver.entryBytes driver.heap (driver.dev.data.slot index)

theorem Driver.content_eq (driver : Driver) :
    driver.content = (driver.dev.data.liveSlots.map driver.slotBytes).flatten := by
  rw [Driver.content, Driver.commands, AesdCircularBuffer.liveEntries, List.map_map]
  rfl

theorem Driver.Valid.length_slotBytes (valid : driver.Valid) {index : Nat}
    (live : index ∈ driver.dev.data.liveSlots) :
    (driver.slotBytes index).length = (driver.dev.data.slot index).size :=
  (valid.stored _ (List.mem_map_of_mem live)).length_entryBytes

theorem Driver.Valid.length_flatten_slotBytes (valid : driver.Valid) {slots : List Nat}
    (live : slots ⊆ driver.dev.data.liveSlots) :
    (slots.map driver.slotBytes).flatten.length = driver.dev.data.totalSize slots := by
  induction slots with
  | nil => rfl
  | cons index slots inductionHypothesis =>
      obtain ⟨first, rest⟩ := List.cons_subset.mp live
      rw [List.map_cons, List.flatten_cons, List.length_append, inductionHypothesis rest,
        valid.length_slotBytes first, AesdCircularBuffer.totalSize_cons]

theorem Driver.Valid.length_content (valid : driver.Valid) :
    driver.content.length = driver.dev.data.liveSize := by
  rw [Driver.content_eq]
  exact valid.length_flatten_slotBytes (List.Subset.refl _)

/-- Where the lookup finds a position, and what is in front of it and behind it. -/
structure EntryAt (driver : Driver) (position index entryOffset : Nat)
    (before after : List (List UInt8)) : Prop where
  found : driver.dev.data.findEntryOffsetForFpos position = some (some (index, entryOffset))
  commands : driver.commands = before ++ driver.slotBytes index :: after
  reached : before.flatten.length + entryOffset = position
  inside : entryOffset < (driver.dev.data.slot index).size
  bytes : driver.heap.content (driver.dev.data.slot index).buffptr = driver.slotBytes index
  length : (driver.slotBytes index).length = (driver.dev.data.slot index).size
  small : (driver.dev.data.slot index).size < 2 ^ 63
  behind : position + ((driver.dev.data.slot index).size - entryOffset) ≤
    driver.dev.data.liveSize

theorem Driver.Valid.exists_entryAt (valid : driver.Valid)
    (small : driver.dev.data.liveSize < 2 ^ 63) {position : Nat}
    (inside : position < driver.dev.data.liveSize) :
    ∃ index entryOffset before after,
      EntryAt driver position index entryOffset before after := by
  rcases AesdCircularBuffer.exists_split inside with
    ⟨before, index, after, split, reached, within⟩
  have live : index ∈ driver.dev.data.liveSlots := by
    rw [split]
    exact List.mem_append_right _ List.mem_cons_self
  have liveBefore : before ⊆ driver.dev.data.liveSlots := by
    rw [split]
    exact List.subset_append_left _ _
  have total : driver.dev.data.liveSize = driver.dev.data.totalSize before +
      ((driver.dev.data.slot index).size + driver.dev.data.totalSize after) := by
    rw [AesdCircularBuffer.liveSize, split, AesdCircularBuffer.totalSize_append,
      AesdCircularBuffer.totalSize_cons]
  refine ⟨index, position - driver.dev.data.totalSize before, before.map driver.slotBytes,
    after.map driver.slotBytes, ?_⟩
  exact {
    found := valid.ring.find_some (by omega) split reached within
    commands := by
      rw [Driver.commands, AesdCircularBuffer.liveEntries, split, List.map_map, List.map_append,
        List.map_cons]
      rfl
    reached := by
      rw [valid.length_flatten_slotBytes liveBefore]
      omega
    inside := by omega
    bytes := (valid.stored _ (List.mem_map_of_mem live)).entryBytes_eq.symm
    length := valid.length_slotBytes live
    small := by omega
    behind := by omega }

/-- From the position on, the content is the rest of the entry and what follows it. -/
theorem EntryAt.drop_content {position index entryOffset : Nat} {before after : List (List UInt8)}
    (entry : EntryAt driver position index entryOffset before after) :
    driver.content.drop position =
      (driver.slotBytes index).drop entryOffset ++ after.flatten := by
  have inside : entryOffset ≤ (driver.slotBytes index).length := by
    rw [entry.length]
    exact Nat.le_of_lt entry.inside
  rw [Driver.content, entry.commands, List.flatten_append, List.flatten_cons, ← entry.reached,
    List.drop_append, List.drop_of_length_le (Nat.le_add_right _ _), List.nil_append,
    Nat.add_sub_cancel_left, List.drop_append_of_le_length inside]

end Content

/-! ## The loop -/

/-- A read from `start` has stored the beginning of what is there. -/
structure ReadCall.Sliced (driver : Driver) (start goal : Nat) (call : ReadCall) : Prop where
  fPos_eq : call.fPos = start + call.data.length
  readCount_eq : call.readCount = call.data.length
  stored : call.data = (driver.content.drop start).take call.data.length
  bounded : call.data.length ≤ goal

section Read

variable {driver : Driver} {start goal : Nat} {call : ReadCall}

theorem ReadCall.Sliced.initial (driver : Driver) (start goal : Nat) :
    ({ fPos := start } : ReadCall).Sliced driver start goal where
  fPos_eq := by simp
  readCount_eq := rfl
  stored := rfl
  bounded := Nat.zero_le _

/-- A read leaves at its goal and at the end of the content. -/
theorem aesdReadRound_leave (valid : driver.Valid)
    (small : driver.dev.data.liveSize < 2 ^ 63) (startSmall : start < 2 ^ 63)
    (goalSmall : goal < 2 ^ 63) (sliced : call.Sliced driver start goal)
    (ended : call.data.length = goal ∨ driver.content.length ≤ start + call.data.length) :
    aesdReadRound (fun _ => 0) driver goal call = some (.leave (call.readCount, call)) := by
  have bounded := sliced.bounded
  unfold aesdReadRound
  by_cases more : call.readCount < goal
  · rw [if_pos more]
    have beyond : driver.content.length ≤ start + call.data.length := by
      rcases ended with atGoal | beyond
      · rw [sliced.readCount_eq, atGoal] at more
        exact absurd more (Int.lt_irrefl _)
      · exact beyond
    have position : toSizeT call.fPos = start + call.data.length := by
      rw [sliced.fPos_eq]
      exact toSizeT_natCast (by omega)
    rw [valid.length_content] at beyond
    rw [position, valid.ring.find_none (by omega) beyond]
    rfl
  · rw [if_neg more]

/-- The bytes that one iteration transfers from an entry of `size` bytes. -/
def transferred (size entryOffset wanted : Nat) : Nat := min (size - entryOffset) wanted

theorem transferSize_eq {size entryOffset wanted : Nat} (inEntry : entryOffset ≤ size)
    (sizeSmall : size < 2 ^ 63) (wantedSmall : wanted < 2 ^ 63) :
    toSsizeT (if sizeSub size entryOffset < wanted then sizeSub size entryOffset else wanted) =
      transferred size entryOffset wanted := by
  rw [sizeSub_of_le inEntry (by omega), transferred]
  by_cases less : size - entryOffset < wanted
  · rw [if_pos less, toSsizeT_of_lt (by omega), Nat.min_eq_left (Nat.le_of_lt less)]
  · rw [if_neg less, toSsizeT_of_lt wantedSmall, Nat.min_eq_right (Nat.not_lt.mp less)]

theorem aesdReadRound_of_found {notCopied : Nat → Nat} {index entryOffset : Nat}
    {bytes : List UInt8} (counted : call.readCount = call.data.length)
    (more : call.data.length < goal) (goalSmall : goal < 2 ^ 63)
    (found : driver.dev.data.findEntryOffsetForFpos (toSizeT call.fPos) =
      some (some (index, entryOffset)))
    (inEntry : entryOffset ≤ (driver.dev.data.slot index).size)
    (sizeSmall : (driver.dev.data.slot index).size < 2 ^ 63)
    (stored : userBytes (driver.heap.content (driver.dev.data.slot index).buffptr) entryOffset
      (transferred (driver.dev.data.slot index).size entryOffset (goal - call.data.length)) =
        bytes)
    (length : bytes.length =
      transferred (driver.dev.data.slot index).size entryOffset (goal - call.data.length)) :
    aesdReadRound notCopied driver goal call = some (
      if (copyToUser (notCopied call.copies) bytes).1 = 0 then
        .next
          { fPos := call.fPos + bytes.length
            readCount := call.readCount + bytes.length
            data := call.data ++ (copyToUser (notCopied call.copies) bytes).2
            copies := call.copies + 1 }
      else
        .leave (-efault,
          { call with data := call.data ++ (copyToUser (notCopied call.copies) bytes).2 })) := by
  have wanted : toSizeT (goal - call.readCount) = goal - call.data.length := by
    rw [counted, ← Int.ofNat_sub (Nat.le_of_lt more)]
    exact toSizeT_natCast (by omega)
  have continues : call.readCount < goal := by
    rw [counted]
    exact Int.ofNat_lt.mpr more
  unfold aesdReadRound
  rw [if_pos continues, found]
  simp only [Option.map_some, wanted]
  rw [transferSize_eq inEntry sizeSmall (by omega), Int.toNat_natCast, stored, ← length]

@[simp]
theorem copyToUser_zero (data : List UInt8) : copyToUser 0 data = (0, data) := by
  simp [copyToUser]

theorem ReadCall.Sliced.store (sliced : call.Sliced driver start goal) {bytes : List UInt8}
    (next : bytes = (driver.content.drop (start + call.data.length)).take bytes.length)
    (bounded : call.data.length + bytes.length ≤ goal) :
    ReadCall.Sliced driver start goal
      { fPos := call.fPos + bytes.length
        readCount := call.readCount + bytes.length
        data := call.data ++ bytes
        copies := call.copies + 1 } where
  fPos_eq := by
    simp only [sliced.fPos_eq, List.length_append]
    omega
  readCount_eq := by
    simp only [sliced.readCount_eq, List.length_append]
    omega
  stored := by
    simp only [List.length_append]
    rw [List.take_add, ← sliced.stored, List.drop_drop, ← next]
  bounded := by rwa [List.length_append]

theorem aesdReadRound_next (valid : driver.Valid)
    (small : driver.dev.data.liveSize < 2 ^ 63) (goalSmall : goal < 2 ^ 63)
    (sliced : call.Sliced driver start goal) (more : call.data.length < goal)
    (inside : start + call.data.length < driver.content.length) :
    ∃ call', aesdReadRound (fun _ => 0) driver goal call = some (.next call') ∧
      call'.Sliced driver start goal ∧ call.data.length < call'.data.length := by
  rw [valid.length_content] at inside
  rcases valid.exists_entryAt small inside with ⟨index, entryOffset, before, after, entry⟩
  have position : toSizeT call.fPos = start + call.data.length := by
    rw [sliced.fPos_eq]
    exact toSizeT_natCast (by omega)
  have inEntry := entry.inside
  obtain ⟨bytes, isBytes⟩ : ∃ bytes, bytes = userBytes (driver.slotBytes index) entryOffset
      (transferred (driver.dev.data.slot index).size entryOffset (goal - call.data.length)) :=
    ⟨_, rfl⟩
  have length : bytes.length = transferred (driver.dev.data.slot index).size entryOffset
      (goal - call.data.length) := by
    rw [isBytes]
    apply length_userBytes
    rw [entry.length, transferred]
    omega
  have next : bytes = (driver.content.drop (start + call.data.length)).take bytes.length := by
    rw [entry.drop_content, List.take_append_of_le_length, length]
    · exact isBytes
    · rw [length, transferred, List.length_drop, entry.length]
      omega
  have round := @aesdReadRound_of_found _ _ _ (fun _ => 0) _ _ _ sliced.readCount_eq more
    goalSmall (by rw [position]; exact entry.found) (Nat.le_of_lt inEntry) entry.small
    (by rw [entry.bytes, isBytes]) length
  simp only [copyToUser_zero, if_true] at round
  rw [transferred] at length
  refine ⟨_, round, sliced.store next (by omega), ?_⟩
  rw [List.length_append]
  omega

/-- How much a read can return: what there is behind the position, and `count`. -/
theorem numBytesToRead_eq {length start count : Nat} (small : length < 2 ^ 63)
    (startSmall : start < 2 ^ 63) (countSmall : count < 2 ^ 63) :
    toSsizeT (min (sizeSub length (toSizeT start)) count) =
      ((if start ≤ length then min (length - start) count else count : Nat) : Int) := by
  rw [toSizeT_natCast (by omega)]
  by_cases inside : start ≤ length
  · rw [if_pos inside, sizeSub_of_le inside (by omega), toSsizeT_of_lt (by omega)]
  · have wraps : count ≤ sizeSub length start := by
      unfold sizeSub toSizeT
      omega
    rw [if_neg inside, Nat.min_eq_right wraps, toSsizeT_of_lt countSmall]

theorem run_aesdReadRound (valid : driver.Valid) (small : driver.dev.data.liveSize < 2 ^ 63)
    (startSmall : start < 2 ^ 63) (goalSmall : goal < 2 ^ 63) {fuel : Nat}
    (enough : goal < fuel) :
    ∃ call, Loop.run (aesdReadRound (fun _ => 0) driver goal) fuel { fPos := start } =
        some ((call.data.length : Int), call) ∧
      call.Sliced driver start goal ∧
      (call.data.length = goal ∨ driver.content.length ≤ start + call.data.length) := by
  have progress : ∀ call : ReadCall, call.Sliced driver start goal →
      (∃ result, aesdReadRound (fun _ => 0) driver goal call = some (.leave result) ∧
        result.1 = result.2.data.length ∧ result.2.Sliced driver start goal ∧
        (result.2.data.length = goal ∨
          driver.content.length ≤ start + result.2.data.length)) ∨
      ∃ call', aesdReadRound (fun _ => 0) driver goal call = some (.next call') ∧
        call'.Sliced driver start goal ∧ goal - call'.data.length < goal - call.data.length := by
    intro call sliced
    by_cases ended :
        call.data.length = goal ∨ driver.content.length ≤ start + call.data.length
    · exact .inl ⟨_, aesdReadRound_leave valid small startSmall goalSmall sliced ended,
        sliced.readCount_eq, sliced, ended⟩
    · have bounded := sliced.bounded
      obtain ⟨call', continued, sliced', longer⟩ :=
        aesdReadRound_next valid small goalSmall sliced (by omega) (by omega)
      have bounded' := sliced'.bounded
      exact .inr ⟨call', continued, sliced', by omega⟩
  obtain ⟨⟨readCount, call⟩, returned, counted, sliced, last⟩ := run_total _
    (fun call => goal - call.data.length) _ progress (ReadCall.Sliced.initial driver start goal)
    (Nat.lt_of_le_of_lt (Nat.sub_le _ _) enough)
  have same : readCount = call.data.length := counted
  subst same
  exact ⟨call, returned, sliced, last⟩

/-- A read that is not disturbed dumps the ring and returns the slice of the content at
the position. -/
theorem aesdRead_returns (task : Nat) {count fuel : Nat} (valid : driver.Valid)
    (free : driver.dev.lock.owner = none) (small : driver.dev.data.liveSize < 2 ^ 63)
    (startSmall : start < 2 ^ 63) (countSmall : count < 2 ^ 63) (enough : count < fuel) :
    ∃ call, aesdRead task {} (fun _ => 0) fuel driver start count =
        some (((call.data.length : Int), call), driver.dump) ∧
      call.data = (driver.content.drop start).take count ∧
      call.fPos = start + call.data.length := by
  obtain ⟨locked, taken⟩ : ∃ locked, driver.dump.mutexLock task = some locked :=
    ⟨_, Driver.mutexLock_eq_some_iff.mpr ⟨free, rfl⟩⟩
  have unlocked := Driver.mutexUnlock_of_mutexLock taken
  have validLocked := valid.dump.mutexLock taken
  have sameContent : locked.content = driver.content ∧ locked.dev.data = driver.dev.data := by
    obtain ⟨_, rfl⟩ := Driver.mutexLock_eq_some_iff.mp taken
    exact ⟨rfl, rfl⟩
  have length := valid.length_content
  obtain ⟨goal, isGoal⟩ : ∃ goal, goal = if start ≤ driver.dev.data.liveSize then
      min (driver.dev.data.liveSize - start) count else count := ⟨_, rfl⟩
  have goalBound : goal ≤ count := by
    rw [isGoal]
    split <;> omega
  obtain ⟨call, returned, sliced, last⟩ := run_aesdReadRound validLocked
    (by rwa [sameContent.2]) startSmall (Nat.lt_of_le_of_lt goalBound countSmall)
    (Nat.lt_of_le_of_lt goalBound enough)
  rw [sameContent.1, length] at last
  have bounded := sliced.bounded
  refine ⟨call, ?_, ?_, sliced.fPos_eq⟩
  · unfold aesdRead
    rw [if_neg (by decide), taken, Option.bind_some,
      validLocked.ring.contentLength_eq (by rw [sameContent.2]; omega), sameContent.2,
      Option.bind_some, numBytesToRead_eq small startSmall countSmall, ← isGoal]
    dsimp only
    rw [returned, Option.map_some, unlocked]
  · have stored := sliced.stored
    rw [sameContent.1] at stored
    rw [stored, List.take_eq_take_iff, List.length_drop, length]
    split at isGoal <;> omega

end Read

end Aesd
