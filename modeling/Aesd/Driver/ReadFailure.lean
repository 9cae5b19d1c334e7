import Aesd.Driver.Reachable
import Aesd.Lib.Slices

/-!
# Reads that fail

`aesd_read` advances the position after each entry that it has copied, and a
`copy_to_user` that fails returns an error without taking back what was advanced
before.  `spanned` lists what the read would copy, entry by entry; the number of
the first copy that fails decides whether the position and the result agree.
-/

namespace Aesd

open BlockHeap Concurrency Loop Slicing

/-- The bytes that a read copies, a list for each call of `copy_to_user`. -/
def Driver.spanned (driver : Driver) (fPos : Int) (count : Nat) : List (List UInt8) :=
  slices driver.commands (toSizeT fPos) count

/-- A negative result leaves the position alone, another one is how far it advanced. -/
structure PositionAgrees (fPos result fPos' : Int) : Prop where
  failed : result < 0 → fPos' = fPos
  read : 0 ≤ result → fPos' = fPos + result

/-- How a read of given parts ends. -/
inductive ReadEnds (notCopied : Nat → Nat) (parts : List (List UInt8)) (fPos : Int) :
    Int → Int → Prop where
  | copied (all : ∀ copy < parts.length, notCopied copy = 0) :
      ReadEnds notCopied parts fPos parts.flatten.length (fPos + parts.flatten.length)
  | fault (copy : Nat) (spans : copy < parts.length) (fails : notCopied copy ≠ 0)
      (earlier : ∀ other < copy, notCopied other = 0) :
      ReadEnds notCopied parts fPos (-efault) (fPos + (parts.take copy).flatten.length)

section Ends

variable {notCopied : Nat → Nat} {parts : List (List UInt8)} {fPos result fPos' : Int}

theorem length_flatten_take_pos (nonempty : ∀ part ∈ parts, part ≠ []) {copy : Nat}
    (spans : copy < parts.length) (later : copy ≠ 0) : 0 < (parts.take copy).flatten.length := by
  cases parts with
  | nil => simp at spans
  | cons part parts =>
      rcases Nat.exists_eq_succ_of_ne_zero later with ⟨copy, rfl⟩
      rw [List.take_succ_cons, List.flatten_cons, List.length_append]
      have first := List.length_pos_iff_ne_nil.mpr (nonempty part List.mem_cons_self)
      omega

/-- The result is wrong about the position if a copy fails behind the first one. -/
theorem ReadEnds.agrees_iff (ends : ReadEnds notCopied parts fPos result fPos')
    (nonempty : ∀ part ∈ parts, part ≠ []) :
    PositionAgrees fPos result fPos' ↔
      notCopied 0 ≠ 0 ∨ ∀ copy < parts.length, notCopied copy = 0 := by
  cases ends with
  | copied all =>
      refine ⟨fun _ => .inr all, fun _ => ⟨fun negative => ?_, fun _ => rfl⟩⟩
      omega
  | fault copy spans fails earlier =>
      have negative : -efault < 0 := by decide
      by_cases first : copy = 0
      · subst first
        refine ⟨fun _ => .inl fails, fun _ => ⟨fun _ => ?_, fun positive => ?_⟩⟩
        · simp
        · omega
      · have advanced := length_flatten_take_pos nonempty spans first
        constructor
        · intro agrees
          have unmoved := agrees.failed negative
          omega
        · rintro (atFirst | none)
          · exact absurd (earlier 0 (Nat.pos_of_ne_zero first)) atFirst
          · exact absurd (none copy spans) fails

end Ends

/-! ## The loop -/

/-- A read has copied the first parts, and those that it still has to copy are behind
them. -/
structure ReadCall.Spanning (notCopied : Nat → Nat) (driver : Driver) (fPos : Int) (count : Nat)
    (call : ReadCall) : Prop where
  fPos_eq : call.fPos = fPos + call.data.length
  readCount_eq : call.readCount = call.data.length
  parts : ∃ done, driver.spanned fPos count = done ++
      slices driver.commands (toSizeT fPos + call.data.length) (count - call.data.length) ∧
    done.length = call.copies ∧ done.flatten = call.data
  copied : ∀ copy < call.copies, notCopied copy = 0

section Loop

variable {notCopied : Nat → Nat} {driver : Driver} {fPos : Int} {count goal : Nat}
  {call : ReadCall}

theorem ReadCall.Spanning.initial (notCopied : Nat → Nat) (driver : Driver) (fPos : Int)
    (count : Nat) : ({ fPos } : ReadCall).Spanning notCopied driver fPos count where
  fPos_eq := (Int.add_zero _).symm
  readCount_eq := rfl
  parts := ⟨[], rfl, rfl, rfl⟩
  copied _ before := absurd before (Nat.not_lt_zero _)

theorem toSizeT_add {first : Int} {second : Nat} (small : toSizeT first + second < 2 ^ 64) :
    toSizeT (first + second) = toSizeT first + second := by
  unfold toSizeT at *
  omega

theorem ReadCall.Spanning.ends (spanning : call.Spanning notCopied driver fPos count)
    (nothing : (driver.content.drop (toSizeT fPos + call.data.length)).take
      (count - call.data.length) = []) :
    ReadEnds notCopied (driver.spanned fPos count) fPos call.readCount call.fPos := by
  rcases spanning.parts with ⟨done, parts, copies, data⟩
  rw [slices_eq_nil nothing, List.append_nil] at parts
  rw [spanning.readCount_eq, spanning.fPos_eq, parts, ← data]
  apply ReadEnds.copied
  rw [copies]
  exact spanning.copied

theorem ReadCall.Spanning.next {index entryOffset : Nat} {before after : List (List UInt8)}
    (spanning : call.Spanning notCopied driver fPos count)
    (entry : EntryAt driver (toSizeT fPos + call.data.length) index entryOffset before after)
    (more : call.data.length < count) :
    ∃ done part rest, driver.spanned fPos count = done ++ part :: rest ∧
      part = ((driver.slotBytes index).drop entryOffset).take (count - call.data.length) ∧
      rest = slices driver.commands (toSizeT fPos + (call.data.length + part.length))
        (count - (call.data.length + part.length)) ∧
      done.length = call.copies ∧ done.flatten = call.data := by
  rcases spanning.parts with ⟨done, parts, copies, data⟩
  have inside : entryOffset < (driver.slotBytes index).length := by
    rw [entry.length]
    exact entry.inside
  refine ⟨done, _, _, ?_, rfl, rfl, copies, data⟩
  rw [parts, entry.commands, slices_next entry.reached inside (Nat.sub_pos_of_lt more),
    Nat.add_assoc, Nat.sub_sub]

theorem ReadCall.Spanning.store {done rest : List (List UInt8)} {part : List UInt8}
    (spanning : call.Spanning notCopied driver fPos count)
    (parts : driver.spanned fPos count = done ++ part :: rest)
    (isRest : rest = slices driver.commands (toSizeT fPos + (call.data.length + part.length))
      (count - (call.data.length + part.length)))
    (copies : done.length = call.copies) (data : done.flatten = call.data)
    (succeeds : notCopied call.copies = 0) :
    ReadCall.Spanning notCopied driver fPos count
      { fPos := call.fPos + part.length
        readCount := call.readCount + part.length
        data := call.data ++ part
        copies := call.copies + 1 } where
  fPos_eq := by
    simp only [spanning.fPos_eq, List.length_append]
    omega
  readCount_eq := by
    simp only [spanning.readCount_eq, List.length_append]
    omega
  parts := by
    refine ⟨done ++ [part], ?_, ?_, ?_⟩
    · rw [parts, isRest, List.length_append, List.append_assoc]
      rfl
    · rw [List.length_append, copies]
      rfl
    · rw [List.flatten_append, data, List.flatten_singleton]
  copied := by
    intro copy before
    rcases Nat.lt_succ_iff_lt_or_eq.mp before with earlier | this
    · exact spanning.copied copy earlier
    · rw [this]
      exact succeeds

/-- The read ends before the part that is next, with the position behind the parts that
it has copied. -/
theorem ReadCall.Spanning.fault {done rest : List (List UInt8)} {part : List UInt8}
    (spanning : call.Spanning notCopied driver fPos count)
    (parts : driver.spanned fPos count = done ++ part :: rest)
    (copies : done.length = call.copies) (data : done.flatten = call.data)
    (fails : notCopied call.copies ≠ 0) :
    ReadEnds notCopied (driver.spanned fPos count) fPos (-efault) call.fPos := by
  have spans : call.copies < (driver.spanned fPos count).length := by
    rw [parts, List.length_append, copies, List.length_cons]
    omega
  have ended := @ReadEnds.fault notCopied _ fPos call.copies spans fails spanning.copied
  rw [parts, ← copies, List.take_left, data, ← spanning.fPos_eq] at ended
  rw [parts]
  exact ended

/-- The round with the next part goes on behind it, or it fails and leaves the position
where it is. -/
theorem aesdReadRound_part {index entryOffset : Nat} {before after : List (List UInt8)}
    (spanning : call.Spanning notCopied driver fPos count)
    (entry : EntryAt driver (toSizeT fPos + call.data.length) index entryOffset before after)
    (position : toSizeT call.fPos = toSizeT fPos + call.data.length)
    (more : call.data.length < goal) (goalSmall : goal < 2 ^ 63) (within : goal ≤ count)
    (clipped : goal = count ∨
      (driver.dev.data.slot index).size - entryOffset ≤ goal - call.data.length) :
    (∃ result, aesdReadRound notCopied driver goal call = some (.leave result) ∧
      ReadEnds notCopied (driver.spanned fPos count) fPos result.1 result.2.fPos) ∨
    ∃ call', aesdReadRound notCopied driver goal call = some (.next call') ∧
      call'.Spanning notCopied driver fPos count ∧
      call.data.length < call'.data.length ∧ call'.data.length ≤ goal := by
  have inside := entry.inside
  rcases spanning.next entry (by omega) with ⟨done, part, rest, parts, isPart, isRest, copies, data⟩
  have length : part.length =
      transferred (driver.dev.data.slot index).size entryOffset (goal - call.data.length) := by
    rw [isPart, transferred, List.length_take, List.length_drop, entry.length]
    omega
  have stored : userBytes (driver.heap.content (driver.dev.data.slot index).buffptr) entryOffset
      (transferred (driver.dev.data.slot index).size entryOffset (goal - call.data.length)) =
        part := by
    rw [entry.bytes, ← length, isPart, userBytes, List.take_eq_take_iff, List.length_take]
    omega
  have round := @aesdReadRound_of_found _ _ _ notCopied _ _ _ spanning.readCount_eq more
    goalSmall (by rw [position]; exact entry.found) (Nat.le_of_lt inside) entry.small stored length
  have someBytes : 0 < part.length := by
    rw [length, transferred]
    omega
  by_cases succeeds : notCopied call.copies = 0
  · right
    simp only [succeeds, copyToUser_zero, if_true] at round
    refine ⟨_, round, spanning.store parts isRest copies data succeeds, ?_, ?_⟩
    · rw [List.length_append]
      omega
    · rw [List.length_append, length, transferred]
      omega
  · left
    have failed : (copyToUser (notCopied call.copies) part).1 ≠ 0 := by
      change min (notCopied call.copies) part.length ≠ 0
      omega
    rw [if_neg failed] at round
    exact ⟨_, round, spanning.fault parts copies data succeeds⟩

theorem run_aesdReadRound_parts (valid : driver.Valid)
    (small : driver.dev.data.liveSize < 2 ^ 63)
    (inside : toSizeT fPos < driver.dev.data.liveSize)
    (isGoal : goal = min (driver.dev.data.liveSize - toSizeT fPos) count) {fuel : Nat}
    (enough : goal < fuel) :
    ∃ result, Loop.run (aesdReadRound notCopied driver goal) fuel { fPos } = some result ∧
      ReadEnds notCopied (driver.spanned fPos count) fPos result.1 result.2.fPos := by
  have total := valid.length_content
  refine run_total (fun call => call.Spanning notCopied driver fPos count ∧
      call.data.length ≤ goal) (fun call => goal - call.data.length) _ ?_
    ⟨ReadCall.Spanning.initial notCopied driver fPos count, Nat.zero_le _⟩
    (Nat.lt_of_le_of_lt (Nat.sub_le _ _) enough)
  rintro call ⟨spanning, bounded⟩
  by_cases atGoal : call.data.length = goal
  · left
    refine ⟨(call.readCount, call), ?_, spanning.ends ?_⟩
    · unfold aesdReadRound
      rw [if_neg]
      rw [spanning.readCount_eq, atGoal]
      exact Int.lt_irrefl _
    · rw [List.take_eq_nil_iff, List.drop_eq_nil_iff, total]
      omega
  · have reached : toSizeT fPos + call.data.length < driver.dev.data.liveSize := by omega
    rcases valid.exists_entryAt small reached with ⟨index, entryOffset, before, after, entry⟩
    have position : toSizeT call.fPos = toSizeT fPos + call.data.length := by
      rw [spanning.fPos_eq]
      apply toSizeT_add
      omega
    have behind := entry.behind
    have more : call.data.length < goal := Nat.lt_of_le_of_ne bounded atGoal
    rcases aesdReadRound_part spanning entry position more (by omega) (by omega) (by omega) with
      left | ⟨call', continued, spanning', longer, bounded'⟩
    · exact .inl left
    · exact .inr ⟨call', continued, ⟨spanning', bounded'⟩, by omega⟩

theorem run_aesdReadRound_beyond (valid : driver.Valid)
    (small : driver.dev.data.liveSize < 2 ^ 64)
    (beyond : driver.dev.data.liveSize ≤ toSizeT fPos) (numBytesToRead : Int) (fuel : Nat) :
    ∃ result, Loop.run (aesdReadRound notCopied driver numBytesToRead) (fuel + 1) { fPos } =
        some result ∧
      ReadEnds notCopied (driver.spanned fPos count) fPos result.1 result.2.fPos := by
  refine ⟨(0, { fPos }), run_leave fuel ?_, ?_⟩
  · unfold aesdReadRound
    split
    · rw [valid.ring.find_none small beyond]
      rfl
    · rfl
  · apply (ReadCall.Spanning.initial notCopied driver fPos count).ends
    rw [List.take_eq_nil_iff, List.drop_eq_nil_iff, valid.length_content]
    exact .inr beyond

/-- Every read that gets the lock ends one of the two ways. -/
theorem aesdRead_ends (valid : driver.Valid) (small : driver.dev.data.liveSize < 2 ^ 63)
    {task fuel : Nat} {outcome : Outcome} (goesOn : outcome.interrupted = false)
    (acquires : (driver.dump.mutexLock task).isSome) (enough : count < fuel) :
    ∃ value call, aesdRead task outcome notCopied fuel driver fPos count =
        some ((value, call), driver.dump) ∧
      ReadEnds notCopied (driver.spanned fPos count) fPos value call.fPos := by
  rcases Option.isSome_iff_exists.mp acquires with ⟨locked, taken⟩
  have unlocked := Driver.mutexUnlock_of_mutexLock taken
  have validLocked := valid.dump.mutexLock taken
  have same : locked.spanned fPos count = driver.spanned fPos count ∧
      locked.dev.data = driver.dev.data := by
    rcases Driver.mutexLock_eq_some_iff.mp taken with ⟨_, rfl⟩
    exact ⟨rfl, rfl⟩
  have started : ∃ result, Loop.run (aesdReadRound notCopied locked
      (toSsizeT (min (sizeSub driver.dev.data.liveSize (toSizeT fPos)) count))) fuel { fPos } =
        some result ∧
      ReadEnds notCopied (driver.spanned fPos count) fPos result.1 result.2.fPos := by
    rw [← same.1, ← same.2]
    rw [← same.2] at small
    rcases Nat.lt_or_ge (toSizeT fPos) locked.dev.data.liveSize with inside | beyond
    · rw [sizeSub_of_le (Nat.le_of_lt inside) (by omega), toSsizeT_of_lt (by omega)]
      exact run_aesdReadRound_parts validLocked small inside rfl (by omega)
    · rcases Nat.exists_eq_succ_of_ne_zero (Nat.ne_zero_of_lt enough) with ⟨fuel, rfl⟩
      exact run_aesdReadRound_beyond validLocked (by omega) beyond _ fuel
  rcases started with ⟨⟨value, call⟩, returned, ends⟩
  refine ⟨value, call, ?_, ends⟩
  unfold aesdRead
  rw [goesOn, if_neg (by decide), taken, Option.bind_some,
    validLocked.ring.contentLength_eq (by rw [same.2]; omega), same.2, Option.bind_some]
  dsimp only
  rw [returned, Option.map_some, unlocked]

end Loop

namespace System

variable {fixedSizeLlseek : Int → Int → Int → Nat → Int × Int} {system : System}
  {labels : List Label}

/-- On a reachable device the position and the result of a read agree exactly if the read
is interrupted before it has the lock, its first copy fails or none of its copies fails. -/
theorem reachable_read_agrees_iff (run : Run (Step fixedSizeLlseek) init labels system)
    (fits : system.writes.driver.FitsAddressSpace) {task : Nat} {outcome : Outcome}
    (acquires : outcome.interrupted = true ∨ (system.writes.driver.mutexLock task).isSome)
    (notCopied : Nat → Nat) (fPos : Int) {count fuel : Nat} (enough : count < fuel) :
    ∃ value call, aesdRead task outcome notCopied fuel system.writes.driver fPos count =
        some ((value, call), system.writes.driver.dump) ∧
      (PositionAgrees fPos value call.fPos ↔
        outcome.interrupted = true ∨ notCopied 0 ≠ 0 ∨
          ∀ copy < (system.writes.driver.spanned fPos count).length, notCopied copy = 0) := by
  have valid := reachable_valid run
  cases interrupted : outcome.interrupted with
  | true =>
      refine ⟨-erestartsys, { fPos }, ?_, fun _ => .inl rfl, fun _ => ⟨fun _ => rfl, ?_⟩⟩
      · unfold aesdRead
        rw [if_pos interrupted]
      · exact fun positive => absurd positive (by decide)
  | false =>
      rw [interrupted] at acquires
      have free := acquires.resolve_left (by decide)
      rw [← Driver.isSome_mutexLock_dump] at free
      rcases @aesdRead_ends notCopied _ fPos _ valid (valid.liveSize_lt fits) _ _ _ interrupted free
        enough with ⟨value, call, returned, ends⟩
      refine ⟨value, call, returned, ?_⟩
      rw [ends.agrees_iff fun part membership => ne_nil_of_mem_slices membership]
      simp

def twoCommandLabels : List Label :=
  [.write (.enter 0 [97, 10]), .write (.round 0 {}), .write (.round 0 {}), .write (.round 0 {}),
    .write (.enter 0 [98, 10]), .write (.round 0 {}), .write (.round 0 {}), .write (.round 0 {})]

/-- The first command is copied, the second one is not: an error, and the position is
behind the first one. -/
theorem reachable_read_disagrees : ∃ system call driver,
    Run (Step kernelFixedSizeLlseek) init twoCommandLabels system ∧
      aesdRead 1 {} (fun copy => copy) 5 system.writes.driver 0 4 =
        some ((-efault, call), driver) ∧
      call.fPos = 2 ∧ ¬ PositionAgrees 0 (-efault) call.fPos := by
  refine ⟨_, _, _, run_of_follow rfl, rfl, rfl, ?_⟩
  intro agrees
  have unmoved := agrees.failed (by decide)
  exact absurd unmoved (by decide)

/-- With all copies done they agree. -/
theorem reachable_read_agrees_twoCommands : ∃ system value call,
    Run (Step kernelFixedSizeLlseek) init twoCommandLabels system ∧
      aesdRead 1 {} (fun _ => 0) 5 system.writes.driver 0 4 =
        some ((value, call), system.writes.driver.dump) ∧
      PositionAgrees 0 value call.fPos := by
  obtain ⟨system, taken, fits, acquires⟩ : ∃ system,
      follow (step kernelFixedSizeLlseek) init twoCommandLabels = some system ∧
        system.writes.driver.FitsAddressSpace ∧
        (system.writes.driver.mutexLock 1).isSome = true :=
    ⟨_, rfl, by decide, by decide⟩
  have run : Run (Step kernelFixedSizeLlseek) init twoCommandLabels system := run_of_follow taken
  rcases @reachable_read_agrees_iff _ _ _ run fits 1 {} (.inr acquires) (fun _ => 0) 0 4 5
    (by decide) with ⟨value, call, returned, agrees⟩
  exact ⟨system, value, call, run, returned, agrees.mpr (.inr (.inr fun _ _ => rfl))⟩

end System

end Aesd
