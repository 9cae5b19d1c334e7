import Aesd.Driver.Read

/-!
# The seek command

`AESDCHAR_IOCSEEKTO` names a byte by the number of its command and its offset in
it.  The command number reaches the lookup as a `uint8_t`, the lookup accepts an
offset equal to the size of the command, and in an empty device it takes the ten
unused slots for empty commands.  `SeekMisses` collects the requests that are
accepted for one of these reasons only.
-/

namespace Aesd

open BlockHeap Concurrency Loop

/-- The blocks that a device holds are disjoint parts of the kernel's half of the
address space. -/
def Driver.FitsAddressSpace (driver : Driver) : Prop :=
  ((driver.owners.filterMap driver.heap.block).map Block.capacity).sum < 2 ^ 63

instance (driver : Driver) : Decidable driver.FitsAddressSpace :=
  inferInstanceAs (Decidable (_ < _))

section Memory

variable {driver : Driver}

theorem capacities_of_stored {heap : Heap UInt8} {entries : List AesdBufferEntry}
    (stored : ∀ entry ∈ entries, entry.Stored heap) :
    ((Driver.pointers entries).filterMap heap.block).map Block.capacity =
      entries.map AesdBufferEntry.size := by
  induction entries with
  | nil => rfl
  | cons entry entries inductionHypothesis =>
      obtain ⟨pointer, block, held, found, capacity, _⟩ := stored entry List.mem_cons_self
      have rest := inductionHypothesis fun other membership =>
        stored other (List.mem_cons_of_mem _ membership)
      unfold Driver.pointers at rest ⊢
      rw [List.filterMap_cons_some held, List.filterMap_cons_some found, List.map_cons, rest,
        capacity, List.map_cons]

theorem Driver.Valid.sum_capacities (valid : driver.Valid) :
    ((driver.owners.filterMap driver.heap.block).map Block.capacity).sum =
      ((driver.dev.temporaryCommandBuffer.toList.filterMap driver.heap.block).map
        Block.capacity).sum + driver.dev.data.liveSize := by
  rw [Driver.owners, List.filterMap_append, List.map_append, List.sum_append,
    capacities_of_stored valid.stored, AesdCircularBuffer.liveEntries, List.map_map]
  rfl

/-- So the sizes of the live commands do not wrap. -/
theorem Driver.Valid.liveSize_lt (valid : driver.Valid) (fits : driver.FitsAddressSpace) :
    driver.dev.data.liveSize < 2 ^ 63 := by
  unfold Driver.FitsAddressSpace at fits
  rw [valid.sum_capacities] at fits
  omega

end Memory

/-! ## What the request names, and what the code accepts -/

def bytePosition (commands : List (List UInt8)) (command offset : Nat) : Nat :=
  ((commands.take command).map List.length).sum + offset

def NamesByte (commands : List (List UInt8)) (seekto : AesdSeekto) : Prop :=
  ∃ command, commands[seekto.writeCmd.toNat]? = some command ∧
    seekto.writeCmdOffset.toNat < command.length

/-- What `AESDCHAR_IOCSEEKTO` is for: it moves the position to an existing byte,
where the next read starts, and refuses every other request. -/
structure SeeksExactly (driver : Driver) (fPos : Int) (seekto : AesdSeekto)
    (result : Int × Int) : Prop where
  accepts : result.1 = 0 ↔ NamesByte driver.commands seekto
  position : result.1 = 0 → result.2 =
    bytePosition driver.commands seekto.writeCmd.toNat seekto.writeCmdOffset.toNat
  nextRead : result.1 = 0 → ∀ task count fuel, 0 < count → count < 2 ^ 63 → count < fuel →
    ∃ read call, aesdRead task {} (fun _ => 0) fuel driver result.2 count =
        some ((read, call), driver.dump) ∧
      ∃ command, driver.commands[seekto.writeCmd.toNat]? = some command ∧
        call.data.head? = command[seekto.writeCmdOffset.toNat]?
  refuses : result.1 ≠ 0 → result.1 < 0 ∧ result.2 = fPos

/-- The requests that are accepted although they name no byte. -/
def SeekMisses (commands : List (List UInt8)) (seekto : AesdSeekto) : Prop :=
  (commands = [] ∧ seekto.writeCmd.toNat % 256 < 10 ∧ seekto.writeCmdOffset.toNat = 0) ∨
  ∃ command, commands[seekto.writeCmd.toNat % 256]? = some command ∧
    (seekto.writeCmdOffset.toNat = command.length ∨
      (256 ≤ seekto.writeCmd.toNat ∧ seekto.writeCmdOffset.toNat < command.length))

def SeekAccepts (commands : List (List UInt8)) (seekto : AesdSeekto) : Prop :=
  (commands = [] ∧ seekto.writeCmd.toNat % 256 < 10 ∧ seekto.writeCmdOffset.toNat = 0) ∨
  ∃ command, commands[seekto.writeCmd.toNat % 256]? = some command ∧
    seekto.writeCmdOffset.toNat ≤ command.length

section Position

variable {commands : List (List UInt8)} {command : List UInt8} {rank offset : Nat}

theorem split_at_command (named : commands[rank]? = some command) :
    commands = commands.take rank ++ command :: commands.drop (rank + 1) := by
  obtain ⟨inBounds, here⟩ := List.getElem?_eq_some_iff.mp named
  rw [← here, List.getElem_cons_drop, List.take_append_drop]

theorem bytePosition_le (named : commands[rank]? = some command)
    (inside : offset ≤ command.length) :
    bytePosition commands rank offset ≤ commands.flatten.length := by
  have whole := congrArg (fun list => list.flatten.length) (split_at_command named)
  simp only [List.flatten_append, List.length_append, List.flatten_cons, List.length_flatten]
    at whole
  rw [List.length_flatten, bytePosition]
  omega

theorem head_drop_bytePosition (named : commands[rank]? = some command)
    (inside : offset < command.length) :
    (commands.flatten.drop (bytePosition commands rank offset)).head? = command[offset]? := by
  have start : bytePosition commands rank offset =
      (commands.take rank).flatten.length + offset := by
    rw [bytePosition, List.length_flatten]
  have whole : commands.flatten =
      (commands.take rank).flatten ++ (command ++ (commands.drop (rank + 1)).flatten) := by
    rw [← List.flatten_cons, ← List.flatten_append, ← split_at_command named]
  rw [start, whole, ← List.drop_drop, List.drop_left, List.drop_append_of_le_length
    (Nat.le_of_lt inside), List.head?_append, List.head?_drop, List.getElem?_eq_getElem inside]
  rfl

end Position

section Seek

variable {driver : Driver} {seekto : AesdSeekto}

theorem Driver.commands_eq (driver : Driver) :
    driver.commands = driver.dev.data.liveSlots.map driver.slotBytes := by
  rw [Driver.commands, AesdCircularBuffer.liveEntries, List.map_map]
  rfl

theorem Driver.Valid.totalSize_take (valid : driver.Valid) (count : Nat) :
    driver.dev.data.totalSize (driver.dev.data.liveSlots.take count) =
      ((driver.commands.take count).map List.length).sum := by
  have live := valid.length_flatten_slotBytes
    (List.take_subset count driver.dev.data.liveSlots)
  rw [← live, Driver.commands_eq, ← List.map_take, List.length_flatten]

def Driver.Looks (driver : Driver) (seekto : AesdSeekto) (found : Option Nat) : Prop :=
  (SeekAccepts driver.commands seekto ∧
    found = some (bytePosition driver.commands (seekto.writeCmd.toNat % 256)
      seekto.writeCmdOffset.toNat) ∧
    bytePosition driver.commands (seekto.writeCmd.toNat % 256) seekto.writeCmdOffset.toNat <
      2 ^ 63) ∨
  (¬ SeekAccepts driver.commands seekto ∧ found = some (toSizeT (-einval)))

/-- Without commands only the beginning of a slot is found. -/
theorem Driver.Valid.looks_of_empty (valid : driver.Valid)
    (isEmpty : driver.dev.data.liveEntries = []) (seekto : AesdSeekto) :
    driver.Looks seekto (driver.dev.data.findFposAtPosition seekto.writeCmd.toUInt8
      seekto.writeCmdOffset.toNat) := by
  have offsetSmall : seekto.writeCmdOffset.toNat < 2 ^ 32 := seekto.writeCmdOffset.toNat_lt
  have position : seekto.writeCmd.toUInt8.toNat = seekto.writeCmd.toNat % 256 := rfl
  have noCommands : driver.commands = [] := by
    rw [Driver.commands, isEmpty]
    rfl
  have found := @AesdCircularBuffer.WellFormed.findFposAtPosition_of_empty _ valid.ring isEmpty
    seekto.writeCmd.toUInt8 seekto.writeCmdOffset.toNat (by omega)
  rw [position] at found
  rw [Driver.Looks, noCommands]
  by_cases atStart : seekto.writeCmd.toNat % 256 < 10 ∧ seekto.writeCmdOffset.toNat = 0
  · rw [if_pos atStart] at found
    have start : bytePosition [] (seekto.writeCmd.toNat % 256) seekto.writeCmdOffset.toNat = 0 := by
      simp [bytePosition, atStart.2]
    exact .inl ⟨.inl ⟨rfl, atStart⟩, by rw [start, found], by rw [start]; decide⟩
  · rw [if_neg atStart] at found
    refine .inr ⟨?_, found⟩
    rintro (⟨_, accepted⟩ | ⟨command, named, _⟩)
    · exact atStart accepted
    · simp at named

/-- A command is found with every offset up to its length. -/
theorem Driver.Valid.looks_of_nonempty (valid : driver.Valid)
    (small : driver.dev.data.liveSize < 2 ^ 63) (nonempty : driver.dev.data.liveEntries ≠ [])
    (seekto : AesdSeekto) :
    driver.Looks seekto (driver.dev.data.findFposAtPosition seekto.writeCmd.toUInt8
      seekto.writeCmdOffset.toNat) := by
  have offsetSmall : seekto.writeCmdOffset.toNat < 2 ^ 32 := seekto.writeCmdOffset.toNat_lt
  have position : seekto.writeCmd.toUInt8.toNat = seekto.writeCmd.toNat % 256 := rfl
  have someCommands : driver.commands ≠ [] := mt List.map_eq_nil_iff.mp nonempty
  have found := @AesdCircularBuffer.WellFormed.findFposAtPosition_of_nonempty _ valid.ring nonempty
    seekto.writeCmd.toUInt8 seekto.writeCmdOffset.toNat (by omega)
  rw [position] at found
  have named : driver.commands[seekto.writeCmd.toNat % 256]? =
      driver.dev.data.liveSlots[seekto.writeCmd.toNat % 256]?.map driver.slotBytes := by
    rw [Driver.commands_eq, List.getElem?_map]
  cases slot : driver.dev.data.liveSlots[seekto.writeCmd.toNat % 256]? with
  | none =>
      rw [slot] at found named
      refine .inr ⟨?_, found⟩
      rintro (⟨nothing, _⟩ | ⟨command, isCommand, _⟩)
      · exact someCommands nothing
      · rw [named] at isCommand
        simp at isCommand
  | some index =>
      rw [slot] at found named
      have size := valid.length_slotBytes (List.mem_of_getElem? slot)
      dsimp only at found
      by_cases fits : seekto.writeCmdOffset.toNat ≤ (driver.dev.data.slot index).size
      · rw [if_pos fits, valid.totalSize_take] at found
        have inside : seekto.writeCmdOffset.toNat ≤ (driver.slotBytes index).length := by
          rwa [size]
        have bound : _ ≤ driver.content.length := bytePosition_le named inside
        rw [valid.length_content] at bound
        exact .inl ⟨.inr ⟨_, named, inside⟩, found, by omega⟩
      · rw [if_neg fits] at found
        refine .inr ⟨?_, found⟩
        rintro (⟨nothing, _⟩ | ⟨command, isCommand, inside⟩)
        · exact someCommands nothing
        · rw [named, Option.map_some, Option.some.injEq] at isCommand
          rw [← isCommand, size] at inside
          exact fits inside

theorem Driver.Valid.looks (valid : driver.Valid)
    (small : driver.dev.data.liveSize < 2 ^ 63) (seekto : AesdSeekto) :
    driver.Looks seekto (driver.dev.data.findFposAtPosition seekto.writeCmd.toUInt8
      seekto.writeCmdOffset.toNat) := by
  by_cases isEmpty : driver.dev.data.liveEntries = []
  · exact valid.looks_of_empty isEmpty seekto
  · exact valid.looks_of_nonempty small isEmpty seekto

theorem Driver.Valid.aesdUnlockedIoctl (valid : driver.Valid)
    (free : driver.dev.lock.owner = none) (fits : driver.FitsAddressSpace) (task : Nat)
    (fPos : Int) (seekto : AesdSeekto) :
    ∃ result, aesdUnlockedIoctl task {} driver fPos aesdcharIocseekto seekto =
        some (result, driver) ∧
      (SeekAccepts driver.commands seekto ∧ result = (0, (bytePosition driver.commands
          (seekto.writeCmd.toNat % 256) seekto.writeCmdOffset.toNat : Int)) ∨
        ¬ SeekAccepts driver.commands seekto ∧ result = (-einval, fPos)) := by
  obtain ⟨locked, taken⟩ : ∃ locked, driver.mutexLock task = some locked :=
    ⟨_, Driver.mutexLock_eq_some_iff.mpr ⟨free, rfl⟩⟩
  have unlocked := Driver.mutexUnlock_of_mutexLock taken
  have sameData : locked.dev.data = driver.dev.data := by
    obtain ⟨_, rfl⟩ := Driver.mutexLock_eq_some_iff.mp taken
    rfl
  unfold Aesd.aesdUnlockedIoctl
  rw [if_neg (by decide), if_neg (by decide), if_pos rfl, if_neg (by decide), taken,
    Option.bind_some, if_pos rfl, sameData, unlocked]
  rcases valid.looks (valid.liveSize_lt fits) seekto with
    ⟨accepted, found, small⟩ | ⟨refused, found⟩
  · refine ⟨_, ?_, .inl ⟨accepted, rfl⟩⟩
    rw [found, Option.map_some, toSsizeT_of_lt small]
    dsimp only
    rw [if_neg (Int.not_lt.mpr (Int.natCast_nonneg _))]
  · refine ⟨_, ?_, .inr ⟨refused, rfl⟩⟩
    rw [found, Option.map_some, toSsizeT_toSizeT_neg_einval]
    rfl

/-- A command number that exists is not changed by the conversion to `uint8_t`. -/
theorem NamesByte.mod_eq (names : NamesByte driver.commands seekto) :
    seekto.writeCmd.toNat % 256 = seekto.writeCmd.toNat := by
  obtain ⟨command, named, _⟩ := names
  obtain ⟨inBounds, _⟩ := List.getElem?_eq_some_iff.mp named
  have few := driver.length_commands_le
  omega

theorem NamesByte.accepted (names : NamesByte driver.commands seekto) :
    SeekAccepts driver.commands seekto := by
  have same := names.mod_eq
  obtain ⟨command, named, inside⟩ := names
  exact .inr ⟨command, by rwa [same], Nat.le_of_lt inside⟩

/-- The requests that are accepted wrongly are the accepted ones that name no byte. -/
theorem seekMisses_iff : SeekMisses driver.commands seekto ↔
    SeekAccepts driver.commands seekto ∧ ¬ NamesByte driver.commands seekto := by
  constructor
  · rintro (⟨nothing, atStart⟩ | ⟨command, named, wrongly⟩)
    · refine ⟨.inl ⟨nothing, atStart⟩, ?_⟩
      rintro ⟨command, named, _⟩
      simp [nothing] at named
    · refine ⟨.inr ⟨command, named, by omega⟩, ?_⟩
      intro names
      have same := names.mod_eq
      obtain ⟨other, named', inside⟩ := names
      rw [same, named', Option.some.injEq] at named
      subst named
      omega
  · rintro ⟨⟨nothing, atStart⟩ | ⟨command, named, inside⟩, noByte⟩
    · exact .inl ⟨nothing, atStart⟩
    · refine .inr ⟨command, named, ?_⟩
      by_contra rightly
      have same : seekto.writeCmd.toNat % 256 = seekto.writeCmd.toNat := by omega
      rw [same] at named
      exact noByte ⟨command, named, by omega⟩

theorem NamesByte.seeksExactly (names : NamesByte driver.commands seekto)
    (valid : driver.Valid) (free : driver.dev.lock.owner = none)
    (fits : driver.FitsAddressSpace) (fPos : Int) :
    SeeksExactly driver fPos seekto
      (0, (bytePosition driver.commands seekto.writeCmd.toNat seekto.writeCmdOffset.toNat : Int))
    where
  accepts := ⟨fun _ => names, fun _ => rfl⟩
  position _ := rfl
  nextRead := by
    intro _ task count fuel positive countSmall enough
    obtain ⟨command, named, inside⟩ := names
    have small := valid.liveSize_lt fits
    have bound : _ ≤ driver.content.length := bytePosition_le named (Nat.le_of_lt inside)
    rw [valid.length_content] at bound
    obtain ⟨call, returned, stored, _⟩ := aesdRead_returns task valid free small
      (Nat.lt_of_le_of_lt bound small) countSmall enough
    refine ⟨_, call, returned, command, named, ?_⟩
    rw [stored, List.head?_take, if_neg (Nat.ne_of_gt positive)]
    exact head_drop_bytePosition named inside
  refuses failed := absurd rfl failed

/-- On every device and for every request, the ioctl seeks exactly unless the code
accepts the request without a byte. -/
theorem aesdUnlockedIoctl_seeks_iff (valid : driver.Valid) (free : driver.dev.lock.owner = none)
    (fits : driver.FitsAddressSpace) (task : Nat) (fPos : Int) (seekto : AesdSeekto) :
    ∃ result, aesdUnlockedIoctl task {} driver fPos aesdcharIocseekto seekto =
        some (result, driver) ∧
      (SeeksExactly driver fPos seekto result ↔ ¬ SeekMisses driver.commands seekto) := by
  obtain ⟨result, returned, ⟨accepted, rfl⟩ | ⟨refused, rfl⟩⟩ :=
    valid.aesdUnlockedIoctl free fits task fPos seekto
  · refine ⟨_, returned, ?_⟩
    rw [seekMisses_iff, not_and_not_right]
    constructor
    · exact fun exactly _ => exactly.accepts.mp rfl
    · intro onlyBytes
      have names := onlyBytes accepted
      rw [names.mod_eq]
      exact names.seeksExactly valid free fits fPos
  · refine ⟨_, returned, ?_⟩
    have noByte : ¬ NamesByte driver.commands seekto := mt NamesByte.accepted refused
    rw [seekMisses_iff, not_and_not_right]
    constructor
    · exact fun _ accepted => absurd accepted refused
    · intro _
      have negative : -einval < 0 := by decide
      have failed : (-einval, fPos).1 ≠ 0 := Int.ne_of_lt negative
      exact ⟨⟨fun zero => absurd zero failed, fun names => absurd names noByte⟩,
        fun zero => absurd zero failed, fun zero => absurd zero failed,
        fun _ => ⟨negative, rfl⟩⟩

end Seek

/-! ## A device with one command -/

def oneCommand : Option (Int × Driver) :=
  aesdWrite 0 (fun _ => {}) 9 .init [97, 98, 10]

theorem oneCommand_eq : ∃ driver, oneCommand = some (3, driver) ∧ driver.Valid ∧
    driver.dev.lock.owner = none ∧ driver.FitsAddressSpace ∧
    driver.commands = [[97, 98, 10]] := by
  obtain ⟨driver, returned, free, fits, commands⟩ : ∃ driver, oneCommand = some (3, driver) ∧
      driver.dev.lock.owner = none ∧ driver.FitsAddressSpace ∧
      driver.commands = [[97, 98, 10]] := ⟨_, rfl, rfl, by decide, by decide⟩
  have fed := ((aesdWrite_effect Driver.init_valid returned).fed_of_nonneg
    (by decide : (0 : Int) ≤ 3)).2
  exact ⟨driver, returned, fed.valid, free, fits, commands⟩

/-- A request for the second byte of the only command. -/
theorem aesdUnlockedIoctl_seeks_iff_secondByte : ∃ driver result,
    oneCommand = some (3, driver) ∧
    aesdUnlockedIoctl 0 {} driver 7 aesdcharIocseekto ⟨0, 1⟩ = some (result, driver) ∧
    SeeksExactly driver 7 ⟨0, 1⟩ result := by
  obtain ⟨driver, returned, valid, free, fits, commands⟩ := oneCommand_eq
  obtain ⟨result, sought, exactly⟩ := aesdUnlockedIoctl_seeks_iff valid free fits 0 7 ⟨0, 1⟩
  refine ⟨driver, result, returned, sought, exactly.mpr ?_⟩
  rw [commands]
  rintro (⟨nothing, _⟩ | ⟨command, named, wrongly⟩)
  · contradiction
  · cases named
    revert wrongly
    decide

/-- An offset equal to the size of the command is accepted, and so are the command
number 256 for the first command and any of ten commands of an empty device. -/
theorem aesdUnlockedIoctl_misses :
    (∃ driver result, oneCommand = some (3, driver) ∧
      aesdUnlockedIoctl 0 {} driver 7 aesdcharIocseekto ⟨0, 3⟩ = some (result, driver) ∧
      ¬ SeeksExactly driver 7 ⟨0, 3⟩ result) ∧
    (∃ driver result, oneCommand = some (3, driver) ∧
      aesdUnlockedIoctl 0 {} driver 7 aesdcharIocseekto ⟨256, 1⟩ = some (result, driver) ∧
      ¬ SeeksExactly driver 7 ⟨256, 1⟩ result) ∧
    (∃ result, aesdUnlockedIoctl 0 {} .init 7 aesdcharIocseekto ⟨9, 0⟩ = some (result, .init) ∧
      ¬ SeeksExactly .init 7 ⟨9, 0⟩ result) := by
  refine ⟨⟨_, _, rfl, rfl, fun exactly => ?_⟩, ⟨_, _, rfl, rfl, fun exactly => ?_⟩,
    ⟨_, rfl, fun exactly => ?_⟩⟩
  · obtain ⟨command, named, inside⟩ := exactly.accepts.mp rfl
    cases named
    revert inside
    decide
  · obtain ⟨command, named, _⟩ := exactly.accepts.mp rfl
    cases named
  · obtain ⟨command, named, _⟩ := exactly.accepts.mp rfl
    cases named

end Aesd
