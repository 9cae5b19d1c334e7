import Aesd.Driver.Write.Round

/-!
# Whole calls of `aesd_write`

After a push the scan goes on at `idx + 1`, a length, instead of at
`off + idx + 1`.  `scanStart` and `segments` follow it.  With a second newline
the scan never reaches the end of the buffer again, so the calls that return are
those whose buffer has at most one newline, and they feed the device with the
whole buffer.
-/

namespace Aesd

open BlockHeap Concurrency Framing Loop

/-! ## The segments that the scan pushes -/

/-- `off` after so many pushes. -/
def scanStart (buf : List UInt8) : Nat → Nat
  | 0 => 0
  | sections + 1 => (buf.drop (scanStart buf sections)).idxOf newline + 1

/-- What the scan pushes from its start number `section` on. -/
def segment (buf : List UInt8) (sections : Nat) : List UInt8 :=
  userBytes buf (scanStart buf sections) (scanStart buf (sections + 1))

def segments (buf : List UInt8) (sections : Nat) : List (List UInt8) :=
  (List.range sections).map (segment buf)

/-- The buffer has at most one newline. -/
def SingleNewline (buf : List UInt8) : Prop := newline ∉ buf.drop (scanStart buf 1)

instance (buf : List UInt8) : Decidable (SingleNewline buf) :=
  inferInstanceAs (Decidable (_ ∉ _))

section Segments

variable {buf : List UInt8} {sections : Nat}

theorem segments_succ (buf : List UInt8) (sections : Nat) :
    segments buf (sections + 1) = segments buf sections ++ [segment buf sections] := by
  simp [segments, List.range_succ]

theorem idxOf_of_scan {off idx : Nat} (clean : newline ∉ userBytes buf off idx)
    (ends : buf[idx + off]? = some newline) : (buf.drop off).idxOf newline = idx := by
  have found : (buf.drop off)[idx]? = some newline := by
    rw [List.getElem?_drop, Nat.add_comm]
    exact ends
  obtain ⟨inside, here⟩ := List.getElem?_eq_some_iff.mp found
  have parts : buf.drop off =
      userBytes buf off idx ++ newline :: (buf.drop off).drop (idx + 1) := by
    rw [userBytes, ← here, List.cons_getElem_drop_succ, List.take_append_drop]
  rw [parts, List.idxOf_append_of_notMem clean, List.idxOf_cons_self, Nat.add_zero, userBytes,
    List.length_take]
  exact Nat.min_eq_left (Nat.le_of_lt inside)

theorem segment_isFrame (reached : newline ∈ buf.drop (scanStart buf sections)) :
    IsFrame newline (segment buf sections) := by
  obtain ⟨body, rest, whole, absent⟩ := List.eq_append_cons_of_mem reached
  refine ⟨body, absent, ?_⟩
  rw [segment, scanStart, userBytes, whole, List.idxOf_append_of_notMem absent,
    List.idxOf_cons_self, Nat.add_zero, List.take_append, List.take_of_length_le (by omega)]
  simp

/-- Once the scan has restarted behind the start of the buffer, the newline that
ended a segment is ahead of it again. -/
theorem reached_succ (restarted : 0 < scanStart buf sections)
    (reached : newline ∈ buf.drop (scanStart buf sections)) :
    newline ∈ buf.drop (scanStart buf (sections + 1)) := by
  have inside := List.idxOf_lt_length_iff.mpr reached
  have found := List.getElem_idxOf inside
  rw [List.getElem_drop] at found
  rw [scanStart, List.mem_iff_getElem?]
  refine ⟨scanStart buf sections + (buf.drop (scanStart buf sections)).idxOf newline -
    ((buf.drop (scanStart buf sections)).idxOf newline + 1), ?_⟩
  rw [List.getElem?_drop, Nat.add_sub_cancel' (by omega), List.getElem?_eq_some_iff]
  rw [List.length_drop] at inside
  exact ⟨by omega, found⟩

theorem reached_of_second (second : newline ∈ buf.drop (scanStart buf 1)) (more : Nat) :
    newline ∈ buf.drop (scanStart buf (more + 1)) := by
  induction more with
  | zero => exact second
  | succ more inductionHypothesis => exact reached_succ (Nat.succ_pos _) inductionHypothesis

/-- Until the scan restarts a second time, the segments and the rest are the buffer. -/
theorem segments_flatten_append (few : sections ≤ 1) :
    (segments buf sections).flatten ++ buf.drop (scanStart buf sections) = buf := by
  obtain rfl | rfl : sections = 0 ∨ sections = 1 := by omega
  · rfl
  · simp [segments, segment, userBytes, scanStart]

theorem singleNewline_append_cons {body rest : List UInt8} (absent : newline ∉ body) :
    SingleNewline (body ++ newline :: rest) ↔ newline ∉ rest := by
  have position : scanStart (body ++ newline :: rest) 1 = body.length + 1 := by
    rw [scanStart, scanStart, List.drop_zero, List.idxOf_append_of_notMem absent,
      List.idxOf_cons_self, Nat.add_zero]
  rw [SingleNewline, position, List.drop_append, List.drop_of_length_le (Nat.le_succ _),
    Nat.add_sub_cancel_left, List.nil_append, List.drop_one, List.tail_cons]

theorem singleNewline_of_notMem (absent : newline ∉ buf) : SingleNewline buf :=
  fun membership => absent (List.mem_of_mem_drop membership)

end Segments

/-! ## The invariant of a call -/

/-- Where the scan of a call can be. -/
structure WriteCall.Located (call : WriteCall) : Prop extends call.Scanning where
  off_eq : call.off = scanStart call.buf call.sections
  reached : ∀ earlier < call.sections, newline ∈ call.buf.drop (scanStart call.buf earlier)

/-- What a call that began on the device `start` has done when it is at `call`. -/
structure Committed (start : Driver) (outcomes : Nat → Outcome) (call : WriteCall)
    (driver : Driver) : Prop where
  located : call.Located
  succeeded : ∀ earlier < call.sections, (outcomes earlier).Succeeds
  fed : start.Fed driver (segments call.buf call.sections).flatten
  wrote : call.sections ≤ 1 → call.wroteBytes =
    if call.sections = 0 then 0 else start.pending.length + call.off

inductive CallEffect (start : Driver) (outcomes : Nat → Outcome) (buf : List UInt8) :
    Int × Driver → Prop where
  | returned {driver : Driver} (single : SingleNewline buf) (fed : start.Fed driver buf) :
      CallEffect start outcomes buf
        (((if newline ∈ buf then start.pending.length + (buf.idxOf newline + 1)
          else 0 : Nat) : Int), driver)
  | failed {driver : Driver} {error : Int} (sections : Nat) (negative : error < 0)
      (succeeded : ∀ earlier < sections, (outcomes earlier).Succeeds)
      (fails : ¬ (outcomes sections).Succeeds)
      (reached : ∀ earlier < sections, newline ∈ buf.drop (scanStart buf earlier))
      (fed : start.Fed driver (segments buf sections).flatten) :
      CallEffect start outcomes buf (error, driver)

namespace Driver

variable {first middle last : Driver} {bytes more : List UInt8}

theorem Fed.trans (earlier : first.Fed middle bytes) (later : middle.Fed last more) :
    first.Fed last (bytes ++ more) where
  valid := later.valid
  lock := later.lock.trans earlier.lock
  log := by rw [later.log, earlier.log, FrameLog.feed_append]
  copied range membership := by
    rcases later.copied range membership with before | inside
    · exact earlier.copied range before
    · exact .inr inside

end Driver

section Located

variable {outcome : Outcome} {driver driver' : Driver} {call call' : WriteCall}

theorem WriteCall.initial_located (buf : List UInt8) : ({ buf } : WriteCall).Located where
  toScanning := WriteCall.initial_scanning buf
  off_eq := rfl
  reached _ none := absurd none (Nat.not_lt_zero _)

theorem WriteCall.Located.restart (located : call.Located)
    (ends : call.buf[call.idx + call.off]? = some newline) :
    scanStart call.buf (call.sections + 1) = call.idx + 1 := by
  rw [scanStart, ← located.off_eq, idxOf_of_scan located.clean ends]

theorem WriteCall.Located.skip (located : call.Located)
    (inside : call.idx + call.off < call.buf.length)
    (other : call.buf[call.idx + call.off]? ≠ some newline) : call.skip.Located where
  toScanning := located.toScanning.skip inside other
  off_eq := located.off_eq
  reached := located.reached

theorem WriteCall.Located.advance (located : call.Located)
    (inside : call.idx + call.off < call.buf.length)
    (ends : call.buf[call.idx + call.off]? = some newline) (pending : Nat) :
    (call.advance pending).Located where
  toScanning := WriteCall.advance_scanning pending inside
  off_eq := (located.restart ends).symm
  reached := by
    intro earlier before
    rcases Nat.lt_succ_iff_lt_or_eq.mp before with old | rfl
    · exact located.reached earlier old
    · change newline ∈ call.buf.drop (scanStart call.buf call.sections)
      rw [← located.off_eq]
      apply List.mem_of_getElem?
      rw [List.getElem?_drop, Nat.add_comm]
      exact ends

theorem WriteEffect.located (located : call.Located)
    (effect : WriteEffect outcome call driver (.next call') driver') :
    call'.Located ∧ call'.buf = call.buf := by
  cases effect with
  | skip inside other => exact ⟨located.skip inside other, rfl⟩
  | push inside ends _ _ => exact ⟨located.advance inside ends _, rfl⟩

/-- The pushes of a buffer with one newline. -/
theorem WriteCall.Located.sections_le (located : call.Located)
    (single : SingleNewline call.buf) : call.sections ≤ 1 := by
  by_contra many
  exact single (located.reached 1 (by omega))

theorem WriteCall.Located.atEnd (located : call.Located)
    (atEnd : call.idx + call.off = call.buf.length) :
    SingleNewline call.buf ∧
      userBytes call.buf call.off call.idx = call.buf.drop (scanStart call.buf call.sections) := by
  have rest : userBytes call.buf call.off call.idx =
      call.buf.drop (scanStart call.buf call.sections) := by
    rw [userBytes, ← located.off_eq]
    apply List.take_of_length_le
    rw [List.length_drop]
    omega
  have clean := located.clean
  rw [rest] at clean
  refine ⟨?_, rest⟩
  intro second
  cases count : call.sections with
  | zero =>
      rw [count] at clean
      exact clean (List.mem_of_mem_drop second)
  | succ more =>
      rw [count] at clean
      exact clean (reached_of_second second more)

end Located

section Call

variable {task : Nat} {outcomes : Nat → Outcome} {start driver driver' : Driver}
  {call call' : WriteCall}

theorem Committed.initial (valid : start.Valid) (buf : List UInt8) :
    Committed start outcomes { buf } start where
  located := WriteCall.initial_located buf
  succeeded _ none := absurd none (Nat.not_lt_zero _)
  fed := .refl valid
  wrote _ := rfl

theorem Committed.next (committed : Committed start outcomes call driver)
    (effect : WriteEffect (outcomes call.sections) call driver (.next call') driver') :
    Committed start outcomes call' driver' := by
  have located := (effect.located committed.located).1
  cases effect with
  | skip inside other =>
      exact ⟨located, committed.succeeded, committed.fed, committed.wrote⟩
  | push inside ends succeeds fed =>
      refine ⟨located, ?_, ?_, ?_⟩
      · intro earlier before
        rcases Nat.lt_succ_iff_lt_or_eq.mp before with old | rfl
        · exact committed.succeeded earlier old
        · exact succeeds
      · have pushedSegment : userBytes call.buf call.off (call.idx + 1) =
            segment call.buf call.sections := by
          rw [segment, committed.located.restart ends, committed.located.off_eq]
        rw [pushedSegment] at fed
        have both := committed.fed.trans fed
        change start.Fed driver' (segments call.buf (call.sections + 1)).flatten
        rw [segments_succ, List.flatten_append, List.flatten_singleton]
        exact both
      · intro first
        have isFirst : call.sections = 0 := by
          change call.sections + 1 ≤ 1 at first
          omega
        have nothingYet : driver.pending = start.pending := by
          have same := committed.fed.log
          rw [isFirst] at same
          exact congrArg FrameLog.pending same
        have noBytes := committed.wrote (by omega)
        rw [if_pos isFirst] at noBytes
        change call.wroteBytes + (driver.pending.length + (call.idx + 1)) = _
        rw [noBytes, nothingYet, Nat.zero_add]
        rfl

theorem Committed.leave (committed : Committed start outcomes call driver)
    (atEnd : call.idx + call.off = call.buf.length)
    (fed : driver.Fed driver' (userBytes call.buf call.off call.idx)) :
    CallEffect start outcomes call.buf (call.wroteBytes, driver') := by
  obtain ⟨single, rest⟩ := committed.located.atEnd atEnd
  have few := committed.located.sections_le single
  have whole := committed.fed.trans fed
  rw [rest, segments_flatten_append few] at whole
  have clean := committed.located.clean
  rw [rest] at clean
  have counted : call.wroteBytes =
      if newline ∈ call.buf then start.pending.length + (call.buf.idxOf newline + 1) else 0 := by
    rw [committed.wrote few]
    obtain count | count : call.sections = 0 ∨ call.sections = 1 := by omega
    · rw [count] at clean
      have absent : newline ∉ call.buf := clean
      rw [if_pos count, if_neg absent]
    · have membership : newline ∈ call.buf := committed.located.reached 0 (by omega)
      rw [if_neg (by omega), if_pos membership, committed.located.off_eq, count]
      rfl
  rw [counted]
  exact .returned single whole

/-- Everything that a call which returns has done. -/
theorem aesdWrite_effect (valid : start.Valid) {fuel : Nat} {buf : List UInt8}
    {result : Int × Driver} (returned : aesdWrite task outcomes fuel start buf = some result) :
    CallEffect start outcomes buf result := by
  refine run_sound (fun state => state.1.buf = buf ∧ Committed start outcomes state.1 state.2)
    (CallEffect start outcomes buf) ?_ ?_ ⟨rfl, .initial valid buf⟩ returned
  · rintro ⟨call, driver⟩ ⟨call', driver'⟩ ⟨sameBuf, committed⟩ continued
    obtain ⟨⟨flow, _⟩, taken, result⟩ := Option.map_eq_some_iff.mp continued
    have effect := aesdWriteRound_effect committed.fed.valid committed.located.toScanning taken
    cases flow with
    | leave value => cases result
    | next _ =>
        cases result
        exact ⟨(effect.located committed.located).2.trans sameBuf, committed.next effect⟩
  · rintro ⟨call, driver⟩ result ⟨rfl, committed⟩ left
    obtain ⟨⟨flow, _⟩, taken, result⟩ := Option.map_eq_some_iff.mp left
    have effect := aesdWriteRound_effect committed.fed.valid committed.located.toScanning taken
    cases flow with
    | next _ => cases result
    | leave value =>
        cases result
        cases effect with
        | keep nonempty atEnd succeeds fed => exact committed.leave atEnd fed
        | finish nothing atEnd =>
            refine committed.leave (by omega) ?_
            rw [nothing, userBytes_zero]
            exact (Driver.Fed.refl committed.fed.valid).dump
        | fail negative fails unchanged =>
            have fed := committed.fed.trans unchanged
            rw [List.append_nil] at fed
            exact .failed _ negative committed.succeeded fails committed.located.reached fed

/-! ## Calls that return -/

theorem CallEffect.fed_of_nonneg {start : Driver} {outcomes : Nat → Outcome} {buf : List UInt8}
    {result : Int × Driver} (effect : CallEffect start outcomes buf result)
    (nonnegative : 0 ≤ result.1) : SingleNewline buf ∧ start.Fed result.2 buf := by
  cases effect with
  | returned single fed => exact ⟨single, fed⟩
  | failed _ negative => exact absurd nonnegative (Int.not_le.mpr negative)

def WriteCall.remaining (call : WriteCall) : Nat :=
  (1 - call.sections) * (call.buf.length + 1) + (call.buf.length - (call.idx + call.off))

/-- A round of a call with one newline, on a free lock, leaves or gets closer to
the end. -/
theorem Committed.progress (committed : Committed start outcomes call driver)
    (single : SingleNewline call.buf) (free : start.dev.lock.owner = none) (task : Nat) :
    ∃ flow driver', aesdWriteRound task (outcomes call.sections) call driver =
        some (flow, driver') ∧
      ∀ call', flow = .next call' →
        Committed start outcomes call' driver' ∧ call'.buf = call.buf ∧
          call'.remaining < call.remaining := by
  have freeNow : driver.dev.lock.owner = none := by rw [committed.fed.lock, free]
  obtain ⟨⟨flow, driver'⟩, taken⟩ := Option.isSome_iff_exists.mp
    (@aesdWriteRound_isSome task (outcomes call.sections) call driver freeNow)
  have effect := aesdWriteRound_effect committed.fed.valid committed.located.toScanning taken
  refine ⟨flow, driver', taken, ?_⟩
  rintro call' rfl
  have committed' := committed.next effect
  refine ⟨committed', (effect.located committed.located).2, ?_⟩
  cases effect with
  | skip inside other =>
      simp only [WriteCall.remaining, WriteCall.skip]
      omega
  | push inside ends succeeds fed =>
      have few : call.sections + 1 ≤ 1 := committed'.located.sections_le single
      have first : call.sections = 0 := by omega
      simp only [WriteCall.remaining, WriteCall.advance, first]
      omega

theorem aesdWrite_returns (task : Nat) {fuel : Nat} {buf : List UInt8} (valid : start.Valid)
    (free : start.dev.lock.owner = none) (single : SingleNewline buf)
    (succeeds : ∀ sections, (outcomes sections).Succeeds) (enough : 2 * buf.length + 1 < fuel) :
    ∃ result driver', aesdWrite task outcomes fuel start buf = some (result, driver') ∧
      0 ≤ result ∧ start.Fed driver' buf := by
  have ended : ∃ result, aesdWrite task outcomes fuel start buf = some result ∧ True := by
    refine run_total
      (fun state => state.1.buf = buf ∧ Committed start outcomes state.1 state.2)
      (fun state => state.1.remaining) (fun _ => True) ?_ ⟨rfl, .initial valid buf⟩ ?_
    · rintro ⟨call, driver⟩ ⟨rfl, committed⟩
      obtain ⟨flow, driver', taken, closer⟩ := committed.progress single free task
      cases flow with
      | leave value => exact .inl ⟨(value, driver'), by simp [aesdWriteLoop, taken]⟩
      | next call' =>
          obtain ⟨committed', sameBuf, smaller⟩ := closer call' rfl
          exact .inr ⟨(call', driver'), by simp [aesdWriteLoop, taken], ⟨sameBuf, committed'⟩,
            smaller⟩
    · simp only [WriteCall.remaining]
      omega
  obtain ⟨⟨result, driver'⟩, returned, _⟩ := ended
  refine ⟨result, driver', returned, ?_⟩
  cases aesdWrite_effect valid returned with
  | returned _ fed => exact ⟨Int.natCast_nonneg _, fed⟩
  | failed sections _ _ fails => exact absurd (succeeds sections) fails

end Call

end Aesd
