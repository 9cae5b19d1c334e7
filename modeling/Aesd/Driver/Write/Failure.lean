import Aesd.Driver.Write.Call

/-!
# Calls of `aesd_write` that fail

A call works segment by segment, and an error that meets a later section leaves
the segments that were pushed before it in the ring.  The first section that
fails decides what such a call leaves behind.
-/

namespace Aesd

open BlockHeap Concurrency Framing Loop

def FirstFailure (outcomes : Nat → Outcome) (sections : Nat) : Prop :=
  (∀ earlier < sections, (outcomes earlier).Succeeds) ∧ ¬ (outcomes sections).Succeeds

theorem FirstFailure.unique {outcomes : Nat → Outcome} {first second : Nat}
    (isFirst : FirstFailure outcomes first) (isSecond : FirstFailure outcomes second) :
    first = second := by
  rcases Nat.lt_trichotomy first second with before | same | after
  · exact absurd (isSecond.1 first before) isFirst.2
  · exact same
  · exact absurd (isFirst.1 second after) isSecond.2

section Failure

variable {driver driver' : Driver} {buf : List UInt8}

theorem segments_isFrame {sections : Nat}
    (reached : ∀ earlier < sections, newline ∈ buf.drop (scanStart buf earlier)) :
    ∀ frame ∈ segments buf sections, IsFrame newline frame := by
  intro frame membership
  obtain ⟨earlier, before, rfl⟩ := List.mem_map.mp membership
  exact segment_isFrame (reached earlier (List.mem_range.mp before))

/-- Pushed segments are visible, unless nothing was pending and the ring, which
is full, ends up with the same ten commands. -/
theorem fed_segments_unchanged_iff {sections : Nat}
    (reached : ∀ earlier < sections, newline ∈ buf.drop (scanStart buf earlier))
    (fed : driver.Fed driver' (segments buf sections).flatten) :
    (driver'.commands = driver.commands ∧ driver'.pending = driver.pending) ↔
      sections = 0 ∨ (driver.pending = [] ∧
        (driver.commands ++ segments buf sections).rtake 10 = driver.commands) := by
  have framed := segments_isFrame reached
  have log := fed.log
  by_cases nothing : driver.pending = []
  · rw [FrameLog.feed_frames driver.length_commands_le nothing framed] at log
    have commands : driver'.commands = (driver.commands ++ segments buf sections).rtake 10 :=
      congrArg FrameLog.frames log
    have pending : driver'.pending = [] := congrArg FrameLog.pending log
    rw [commands, pending, nothing]
    constructor
    · exact fun same => .inr ⟨rfl, same.1⟩
    · rintro (rfl | ⟨_, same⟩)
      · refine ⟨?_, rfl⟩
        rw [segments, List.range_zero, List.map_nil, List.append_nil]
        exact List.rtake_of_length_le driver.length_commands_le
      · exact ⟨same, rfl⟩
  · simp only [nothing, false_and, or_false]
    constructor
    · rintro ⟨_, same⟩
      cases sections with
      | zero => rfl
      | succ more =>
          have list : segments buf (more + 1) = segment buf 0 ::
              (List.range more).map fun earlier => segment buf (earlier + 1) := by
            rw [segments, List.range_succ_eq_map, List.map_cons, List.map_map]
            rfl
          rw [list] at log framed
          have gone := @FrameLog.feed_frames_pending _ _ 10 _ driver.log _ _ framed
          rw [← log] at gone
          exact absurd (same.symm.trans gone) nothing
    · rintro rfl
      exact ⟨congrArg FrameLog.frames log, congrArg FrameLog.pending log⟩

/-- A failed call changes nothing exactly if its first section is the one that
fails, or if what it pushed cannot be seen. -/
theorem aesdWrite_failed_unchanged_iff {task fuel : Nat} {outcomes : Nat → Outcome} {error : Int}
    (valid : driver.Valid)
    (returned : aesdWrite task outcomes fuel driver buf = some (error, driver'))
    (negative : error < 0) :
    ∃ sections, FirstFailure outcomes sections ∧
      ((driver'.commands = driver.commands ∧ driver'.pending = driver.pending) ↔
        sections = 0 ∨ (driver.pending = [] ∧
          (driver.commands ++ segments buf sections).rtake 10 = driver.commands)) := by
  cases aesdWrite_effect valid returned with
  | returned _ _ => omega
  | failed sections _ succeeded fails reached fed =>
      exact ⟨sections, ⟨succeeded, fails⟩, fed_segments_unchanged_iff reached fed⟩

def secondFails (outcome : Outcome) (sections : Nat) : Outcome :=
  if sections = 1 then outcome else {}

/-- With its first section interrupted, `a`, newline and `b` leave no trace. -/
theorem aesdWrite_failed_unchanged_iff_interrupted :
    ∃ driver', aesdWrite 0 (fun _ => { interrupted := true }) 9 .init [97, 10, 98] =
        some (-erestartsys, driver') ∧
      driver'.commands = Driver.init.commands ∧ driver'.pending = Driver.init.pending := by
  obtain ⟨driver', returned⟩ : ∃ driver',
      aesdWrite 0 (fun _ => { interrupted := true }) 9 .init [97, 10, 98] =
        some (-erestartsys, driver') := ⟨_, rfl⟩
  obtain ⟨sections, first, same⟩ :=
    aesdWrite_failed_unchanged_iff Driver.init_valid returned (by decide)
  have atStart : FirstFailure (fun _ => { interrupted := true }) 0 :=
    ⟨fun _ none => absurd none (Nat.not_lt_zero _), by decide⟩
  exact ⟨driver', returned, same.mpr (.inl (first.unique atStart))⟩

/-- With its second section interrupted, or without memory for it, the command
stays in the ring. -/
theorem aesdWrite_failed_changed :
    (∃ driver', aesdWrite 0 (secondFails { interrupted := true }) 9 .init [97, 10, 98] =
        some (-erestartsys, driver') ∧ driver'.commands ≠ Driver.init.commands) ∧
    (∃ driver', aesdWrite 0 (secondFails { nomem := true }) 9 .init [97, 10, 98] =
        some (-enomem, driver') ∧ driver'.commands ≠ Driver.init.commands) :=
  ⟨⟨_, rfl, by decide⟩, ⟨_, rfl, by decide⟩⟩

end Failure

end Aesd
