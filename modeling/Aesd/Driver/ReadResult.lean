import Aesd.Driver.ReadFailure

/-!
# What a read returns

Every read that returns a value that is not negative has stored the slice of the
content at the position; a read that fails may have moved the position behind
bytes of the content, and never behind its end.
-/

namespace Aesd

open BlockHeap Concurrency Loop Slicing

section Loop

variable {notCopied : Nat → Nat} {driver : Driver} {fPos : Int} {count goal : Nat}
  {call : ReadCall} {numBytesToRead : Int}

theorem aesdReadRound_leaves {result : Int × ReadCall}
    (left : aesdReadRound notCopied driver numBytesToRead call = some (.leave result)) :
    result.1 = -efault ∨ result = (call.readCount, call) := by
  unfold aesdReadRound at left
  split at left
  · obtain ⟨found, _, flow⟩ := Option.map_eq_some_iff.mp left
    cases found with
    | none =>
        cases flow
        exact .inr rfl
    | some place =>
        -- both sizes of a transfer end in the same test of what was not copied
        dsimp only at flow
        split at flow <;> split at flow <;> cases flow <;> exact .inl rfl
  · cases left
    exact .inr rfl

structure ReadStores (driver : Driver) (fPos : Int) (count : Nat) (result : Int × ReadCall) :
    Prop where
  counted : result.1 = result.2.data.length
  stored : result.2.data <+: (driver.content.drop (toSizeT fPos)).take count

theorem ReadCall.Spanning.stores (spanning : call.Spanning notCopied driver fPos count) :
    ReadStores driver fPos count (call.readCount, call) where
  counted := spanning.readCount_eq
  stored := by
    rcases spanning.parts with ⟨done, parts, _, data⟩
    have whole := flatten_slices driver.commands (toSizeT fPos) count
    change (driver.spanned fPos count).flatten = _ at whole
    rw [parts, List.flatten_append, data] at whole
    change call.data <+: (driver.commands.flatten.drop (toSizeT fPos)).take count
    rw [← whole]
    exact List.prefix_append _ _

/-- From a position inside the content on, a result that is not an error counts what
is stored. -/
theorem run_aesdReadRound_stores (valid : driver.Valid)
    (small : driver.dev.data.liveSize < 2 ^ 63)
    (inside : toSizeT fPos < driver.dev.data.liveSize)
    (isGoal : goal = min (driver.dev.data.liveSize - toSizeT fPos) count) {fuel : Nat}
    {result : Int × ReadCall}
    (returned : Loop.run (aesdReadRound notCopied driver goal) fuel { fPos } = some result) :
    result.1 = -efault ∨ ReadStores driver fPos count result := by
  refine run_sound (fun call : ReadCall => call.Spanning notCopied driver fPos count ∧
      call.data.length ≤ goal) (fun result => result.1 = -efault ∨ ReadStores driver fPos count
        result) ?_ ?_
    ⟨ReadCall.Spanning.initial notCopied driver fPos count, Nat.zero_le _⟩ returned
  · rintro call call' ⟨spanning, bounded⟩ continued
    by_cases atGoal : call.data.length = goal
    · unfold aesdReadRound at continued
      rw [if_neg (by rw [spanning.readCount_eq, atGoal]; exact Int.lt_irrefl _)] at continued
      cases continued
    · have reached : toSizeT fPos + call.data.length < driver.dev.data.liveSize := by omega
      rcases valid.exists_entryAt small reached with ⟨index, entryOffset, before, after, entry⟩
      have position : toSizeT call.fPos = toSizeT fPos + call.data.length := by
        rw [spanning.fPos_eq]
        apply toSizeT_add
        omega
      have behind := entry.behind
      rcases aesdReadRound_part spanning entry position (Nat.lt_of_le_of_ne bounded atGoal)
          (by omega) (by omega) (by omega) with
        ⟨_, left, _⟩ | ⟨next, goesOn, spanning', _, bounded'⟩
      · cases left.symm.trans continued
      · cases goesOn.symm.trans continued
        exact ⟨spanning', bounded'⟩
  · rintro call result ⟨spanning, _⟩ left
    rcases aesdReadRound_leaves left with failed | rfl
    · exact .inl failed
    · exact .inr spanning.stores

inductive ReadReturns (driver : Driver) (fPos : Int) (count : Nat) : Int × ReadCall → Prop where
  | stored {call : ReadCall}
      (data : call.data = (driver.content.drop (toSizeT fPos)).take count)
      (position : call.fPos = fPos + call.data.length) :
      ReadReturns driver fPos count (call.data.length, call)
  | failed {value : Int} {call : ReadCall} (negative : value < 0) :
      ReadReturns driver fPos count (value, call)

theorem ReadEnds.returns {value : Int}
    (ends : ReadEnds notCopied (driver.spanned fPos count) fPos value call.fPos)
    (stores : value = -efault ∨ ReadStores driver fPos count (value, call)) :
    ReadReturns driver fPos count (value, call) := by
  have whole : (driver.spanned fPos count).flatten =
      (driver.content.drop (toSizeT fPos)).take count :=
    flatten_slices driver.commands (toSizeT fPos) count
  generalize position : call.fPos = fPos' at ends
  cases ends with
  | copied all =>
      rcases stores with failed | stores
      · have negative : -efault < 0 := by decide
        omega
      · have counted : ((driver.spanned fPos count).flatten.length : Int) = call.data.length :=
          stores.counted
        have data : call.data = (driver.spanned fPos count).flatten := by
          apply List.IsPrefix.eq_of_length
          · rw [whole]
            exact stores.stored
          · omega
        rw [counted] at position ⊢
        exact .stored (data.trans whole) position
  | fault _ _ _ _ => exact .failed (by decide)

theorem run_aesdReadRound_returns (valid : driver.Valid)
    (small : driver.dev.data.liveSize < 2 ^ 63) {fuel : Nat} {result : Int × ReadCall}
    (returned : Loop.run (aesdReadRound notCopied driver
      (toSsizeT (min (sizeSub driver.dev.data.liveSize (toSizeT fPos)) count))) fuel { fPos } =
        some result) :
    ReadReturns driver fPos count result := by
  rcases Nat.lt_or_ge (toSizeT fPos) driver.dev.data.liveSize with inside | beyond
  · rw [sizeSub_of_le (Nat.le_of_lt inside) (by omega), toSsizeT_of_lt (by omega)] at returned
    have stores := run_aesdReadRound_stores valid small inside rfl returned
    obtain ⟨fuel', enough, more⟩ : ∃ fuel', fuel ≤ fuel' ∧
        min (driver.dev.data.liveSize - toSizeT fPos) count < fuel' :=
      ⟨max fuel (min (driver.dev.data.liveSize - toSizeT fPos) count + 1), by omega, by omega⟩
    rcases @run_aesdReadRound_parts notCopied driver fPos count _ valid small inside rfl _ more with
      ⟨other, ended, ends⟩
    rw [run_mono returned enough, Option.some.injEq] at ended
    subst ended
    exact ends.returns stores
  · cases fuel with
    | zero => simp [Loop.run] at returned
    | succ fuel =>
        have leaves : aesdReadRound notCopied driver
            (toSsizeT (min (sizeSub driver.dev.data.liveSize (toSizeT fPos)) count)) { fPos } =
              some (.leave (0, { fPos })) := by
          unfold aesdReadRound
          split
          · rw [valid.ring.find_none (by omega) beyond]
            rfl
          · rfl
        rw [run_leave fuel leaves, Option.some.injEq] at returned
        subst returned
        refine @ReadReturns.stored driver fPos count { fPos } ?_ (Int.add_zero _).symm
        rw [List.drop_of_length_le (by rwa [valid.length_content]), List.take_nil]

theorem aesdRead_result (valid : driver.Valid) (small : driver.dev.data.liveSize < 2 ^ 63)
    {task fuel : Nat} {outcome : Outcome} {result : Int × ReadCall} {driver' : Driver}
    (returned : aesdRead task outcome notCopied fuel driver fPos count = some (result, driver')) :
    driver' = driver.dump ∧ ReadReturns driver fPos count result := by
  refine ⟨aesdRead_driver returned, ?_⟩
  unfold aesdRead at returned
  split at returned
  · cases returned
    exact .failed (by decide)
  · obtain ⟨locked, taken, body⟩ := Option.bind_eq_some_iff.mp returned
    obtain ⟨length, counted, body⟩ := Option.bind_eq_some_iff.mp body
    obtain ⟨ended, ran, same⟩ := Option.map_eq_some_iff.mp body
    obtain ⟨rfl, _⟩ := Prod.mk.inj same
    have validLocked := valid.dump.mutexLock taken
    obtain ⟨sameContent, sameData⟩ : locked.content = driver.content ∧
        locked.dev.data = driver.dev.data := by
      obtain ⟨_, rfl⟩ := Driver.mutexLock_eq_some_iff.mp taken
      exact ⟨rfl, rfl⟩
    rw [← sameData] at small
    rw [validLocked.ring.contentLength_eq (by omega), Option.some.injEq] at counted
    subst counted
    have returns := run_aesdReadRound_returns validLocked small ran
    cases returns with
    | stored data position => exact .stored (by rw [data, sameContent]) position
    | failed negative => exact .failed negative

end Loop

end Aesd
