import Aesd.Driver.Write.Call

/-!
# The stream that a device has been given

Calls of `aesd_write` that do not fail feed the device with their whole buffers,
so what it holds depends on the concatenation of the buffers and not on the way
it was cut.  The value that a call returns is a sum of command sizes; it counts
the consumed bytes only if it ends with the newline and the sizes happen to
agree.
-/

namespace Aesd

open BlockHeap Concurrency Framing Loop

structure WriteRequest where
  buf : List UInt8
  task : Nat := 0
  outcomes : Nat → Outcome := fun _ => {}
  fuel : Nat

def writeAll (driver : Driver) : List WriteRequest → Option (List Int × Driver)
  | [] => some ([], driver)
  | request :: requests =>
      match aesdWrite request.task request.outcomes request.fuel driver request.buf with
      | none => none
      | some (result, driver) =>
          (writeAll driver requests).map fun rest => (result :: rest.1, rest.2)

def stream (requests : List WriteRequest) : List UInt8 :=
  (requests.map WriteRequest.buf).flatten

theorem writeAll_fed {driver driver' : Driver} {requests : List WriteRequest} {results : List Int}
    (valid : driver.Valid) (returned : writeAll driver requests = some (results, driver'))
    (nonnegative : ∀ result ∈ results, 0 ≤ result) : driver.Fed driver' (stream requests) := by
  induction requests generalizing driver results with
  | nil =>
      cases returned
      exact .refl valid
  | cons request requests inductionHypothesis =>
      rw [writeAll] at returned
      cases first : aesdWrite request.task request.outcomes request.fuel driver request.buf with
      | none => simp [first] at returned
      | some ended =>
          simp only [first] at returned
          obtain ⟨⟨rest, last⟩, following, equality⟩ := Option.map_eq_some_iff.mp returned
          cases equality
          have nonnegativeFirst : 0 ≤ ended.1 := nonnegative _ List.mem_cons_self
          have fed := ((aesdWrite_effect valid first).fed_of_nonneg nonnegativeFirst).2
          exact fed.trans (inductionHypothesis fed.valid following
            fun result membership => nonnegative result (List.mem_cons_of_mem _ membership))

theorem init_log : Driver.init.log = FrameLog.empty := rfl

/-- The commands of the device are the last ten of the stream, and what follows
the last newline is pending, however the stream was cut into calls. -/
theorem writeAll_init_frames {requests : List WriteRequest} {results : List Int}
    {driver : Driver} (returned : writeAll .init requests = some (results, driver))
    (nonnegative : ∀ result ∈ results, 0 ≤ result) :
    driver.commands = (frames newline (stream requests)).rtake 10 ∧
    driver.pending = remainder newline (stream requests) ∧
    driver.dev.currentTemporaryBufferSize = driver.pending.length ∧
    (∀ entry ∈ driver.dev.data.liveEntries,
      (Driver.entryBytes driver.heap entry).length = entry.size) ∧
    ∀ requests' results' driver', writeAll .init requests' = some (results', driver') →
      (∀ result ∈ results', 0 ≤ result) → stream requests' = stream requests →
      driver'.commands = driver.commands ∧ driver'.pending = driver.pending := by
  have fed := writeAll_fed Driver.init_valid returned nonnegative
  have log := fed.log
  rw [init_log, FrameLog.feed_empty] at log
  refine ⟨congrArg FrameLog.frames log, congrArg FrameLog.pending log,
    (Driver.length_pending fed.valid).symm, ?_, ?_⟩
  · intro entry membership
    exact (fed.valid.stored entry membership).length_entryBytes
  · intro requests' results' driver' returned' nonnegative' same
    have log' := (writeAll_fed Driver.init_valid returned' nonnegative').log
    rw [init_log, FrameLog.feed_empty, same, ← log] at log'
    exact ⟨congrArg FrameLog.frames log', congrArg FrameLog.pending log'⟩

def twoCalls : List WriteRequest :=
  [{ buf := [97, 10, 98], fuel := 9 }, { buf := [99, 10], fuel := 9 }]

theorem writeAll_init_frames_twoCalls :
    ∃ driver, writeAll .init twoCalls = some ([2, 3], driver) ∧
      driver.commands = [[97, 10], [98, 99, 10]] ∧ driver.pending = [] := by
  obtain ⟨driver, returned⟩ : ∃ driver, writeAll .init twoCalls = some ([2, 3], driver) :=
    ⟨_, rfl⟩
  have held := writeAll_init_frames returned (by decide)
  refine ⟨driver, returned, held.1.trans ?_, held.2.1.trans ?_⟩ <;> decide

/-! ## The value that is returned -/

/-- The device has consumed exactly the first `result` bytes of the buffer. -/
def ReportsConsumed (driver driver' : Driver) (buf : List UInt8) (result : Int) : Prop :=
  result ≤ buf.length ∧ driver'.log = driver.log.feed 10 newline (buf.take result.toNat)

instance (driver driver' : Driver) (buf : List UInt8) (result : Int) :
    Decidable (ReportsConsumed driver driver' buf result) :=
  inferInstanceAs (Decidable (_ ∧ _))

section Reports

variable {driver driver' : Driver} {buf body rest : List UInt8}

theorem reports_iff_of_notMem (absent : newline ∉ buf) (fed : driver.Fed driver' buf) :
    ReportsConsumed driver driver' buf 0 ↔ buf = [] := by
  unfold ReportsConsumed
  rw [fed.log, FrameLog.feed_of_notMem _ absent]
  constructor
  · rintro ⟨_, same⟩
    exact List.append_right_eq_self.mp (congrArg FrameLog.pending same)
  · rintro rfl
    exact ⟨Int.le_refl 0, by simp⟩

theorem reports_iff_of_mem (absent : newline ∉ body) (absentRest : newline ∉ rest)
    (fed : driver.Fed driver' (body ++ newline :: rest)) :
    ReportsConsumed driver driver' (body ++ newline :: rest)
        ((driver.pending.length + (body.length + 1) : Nat) : Int) ↔
      driver.pending.length = rest.length := by
  have taken : (body ++ newline :: rest).take (driver.pending.length + (body.length + 1)) =
      body ++ newline :: rest.take driver.pending.length := by
    rw [List.take_append, List.take_of_length_le (by omega)]
    congr 1
    rw [show driver.pending.length + (body.length + 1) - body.length =
      driver.pending.length + 1 by omega, List.take_succ_cons]
  have absentTaken : newline ∉ rest.take driver.pending.length :=
    fun membership => absentRest (List.mem_of_mem_take membership)
  unfold ReportsConsumed
  rw [fed.log, Int.toNat_natCast, taken, FrameLog.feed_frame_append _ absent absentRest,
    FrameLog.feed_frame_append _ absent absentTaken]
  constructor
  · rintro ⟨bound, same⟩
    have whole : rest = rest.take driver.pending.length := congrArg FrameLog.pending same
    have length := congrArg List.length whole
    rw [List.length_take] at length
    simp only [List.length_append, List.length_cons] at bound
    omega
  · intro same
    refine ⟨?_, by rw [same, List.take_length]⟩
    simp only [List.length_append, List.length_cons]
    omega

/-- The value is right for an empty buffer, and for a buffer with a newline in
front of as many bytes as were pending before. -/
theorem aesdWrite_reports_iff {task fuel : Nat} {outcomes : Nat → Outcome} {result : Int}
    (valid : driver.Valid)
    (returned : aesdWrite task outcomes fuel driver buf = some (result, driver'))
    (nonnegative : 0 ≤ result) :
    ReportsConsumed driver driver' buf result ↔
      buf = [] ∨
        (newline ∈ buf ∧ driver.pending.length + (buf.idxOf newline + 1) = buf.length) := by
  cases aesdWrite_effect valid returned with
  | failed _ negative => exact absurd nonnegative (Int.not_le.mpr negative)
  | returned single fed =>
      by_cases membership : newline ∈ buf
      · obtain ⟨body, rest, rfl, absent⟩ := List.eq_append_cons_of_mem membership
        have position : (body ++ newline :: rest).idxOf newline = body.length := by
          rw [List.idxOf_append_of_notMem absent, List.idxOf_cons_self, Nat.add_zero]
        have absentRest := (singleNewline_append_cons absent).mp single
        rw [if_pos membership, position, reports_iff_of_mem absent absentRest fed]
        simp only [List.append_eq_nil_iff, reduceCtorEq, and_false, membership, true_and,
          false_or, List.length_append, List.length_cons]
        omega
      · rw [if_neg membership, Int.natCast_zero, reports_iff_of_notMem membership fed]
        simp [membership]

/-- A command that meets an empty pending buffer is counted exactly. -/
theorem aesdWrite_reports_iff_command :
    ∃ driver', aesdWrite 0 (fun _ => {}) 9 .init [97, 10] = some (2, driver') ∧
      ReportsConsumed .init driver' [97, 10] 2 := by
  obtain ⟨driver', returned⟩ : ∃ driver', aesdWrite 0 (fun _ => {}) 9 .init [97, 10] =
      some (2, driver') := ⟨_, rfl⟩
  refine ⟨driver', returned, ?_⟩
  exact (aesdWrite_reports_iff Driver.init_valid returned (by decide)).mpr (.inr (by decide))

/-- A byte without a newline is consumed and not counted. -/
theorem aesdWrite_reports_unterminated :
    ∃ driver', aesdWrite 0 (fun _ => {}) 9 .init [97] = some (0, driver') ∧
      ¬ ReportsConsumed .init driver' [97] 0 :=
  ⟨_, rfl, by decide⟩

end Reports

end Aesd
