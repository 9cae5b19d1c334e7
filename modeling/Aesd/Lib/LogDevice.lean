import Aesd.Lib.Concurrency
import Aesd.Lib.Framing
import Mathlib.Data.List.Infix
import Mathlib.Logic.Function.Basic

/-!
# A log device and its readers

Writers feed a bounded frame log, and readers read its content, each from a
position of its own.  A frame that the log drops moves the content under the
positions.  Measured in the whole stream of frames a reader that is never moved
only goes forward: `Follows` is the invariant, and a run delivers to the reader
a sublist of the stream, or a slice of it as long as no frame is dropped.
-/

namespace Framing

open Concurrency

universe u

inductive DeviceEvent (Cell : Type u) where
  | quiet
  | feed (piece : List Cell)
  | read (reader wanted returned : Nat) (delivered : List Cell)
  | seek (reader position : Nat)
  deriving DecidableEq, Repr

namespace DeviceEvent

variable {Cell : Type u}

def piece : DeviceEvent Cell → List Cell
  | .feed piece => piece
  | _ => []

def deliveredTo (reader : Nat) : DeviceEvent Cell → List Cell
  | .read other _ _ delivered => if other = reader then delivered else []
  | _ => []

def Seeks (reader : Nat) : DeviceEvent Cell → Prop
  | .seek other _ => other = reader
  | _ => False

instance (reader : Nat) : DecidablePred (@Seeks Cell reader)
  | .seek other _ => inferInstanceAs (Decidable (other = reader))
  | .quiet => inferInstanceAs (Decidable False)
  | .feed _ => inferInstanceAs (Decidable False)
  | .read _ _ _ _ => inferInstanceAs (Decidable False)

end DeviceEvent

section Events

variable {Cell : Type u}

def fed (events : List (DeviceEvent Cell)) : List Cell := events.flatMap DeviceEvent.piece

def delivered (reader : Nat) (events : List (DeviceEvent Cell)) : List Cell :=
  events.flatMap (DeviceEvent.deliveredTo reader)

theorem fed_append (past more : List (DeviceEvent Cell)) :
    fed (past ++ more) = fed past ++ fed more := List.flatMap_append

theorem fed_concat (past : List (DeviceEvent Cell)) (event : DeviceEvent Cell) :
    fed (past ++ [event]) = fed past ++ event.piece := by
  rw [fed_append]
  exact congrArg (fed past ++ ·) (List.flatMap_singleton _ _)

theorem delivered_concat (reader : Nat) (past : List (DeviceEvent Cell))
    (event : DeviceEvent Cell) :
    delivered reader (past ++ [event]) = delivered reader past ++ event.deliveredTo reader := by
  unfold delivered
  rw [List.flatMap_append, List.flatMap_singleton]

end Events

structure LogDevice (Cell : Type u) where
  log : FrameLog Cell
  position : Nat → Nat

def FrameLog.content {Cell : Type u} (log : FrameLog Cell) : List Cell := log.frames.flatten

namespace LogDevice

variable {Cell : Type u} [DecidableEq Cell]

omit [DecidableEq Cell] in
@[ext]
theorem ext {device device' : LogDevice Cell} (sameLog : device.log = device'.log)
    (samePosition : device.position = device'.position) : device = device' := by
  cases device
  cases device'
  simp_all

def ahead (device : LogDevice Cell) (reader : Nat) : List Cell :=
  device.log.content.drop (device.position reader)

def move (device : LogDevice Cell) (reader position : Nat) : LogDevice Cell :=
  { device with position := Function.update device.position reader position }

/-- One event. A read delivers what is ahead, as much as is wanted, and says how
much that is; nothing passes the end of the content. -/
inductive Step (capacity : Nat) (delimiter : Cell) (device : LogDevice Cell) :
    DeviceEvent Cell → LogDevice Cell → Prop where
  | quiet : Step capacity delimiter device .quiet device
  | feed (piece : List Cell) : Step capacity delimiter device (.feed piece)
      { device with log := device.log.feed capacity delimiter piece }
  | read (reader wanted : Nat) : Step capacity delimiter device
      (.read reader wanted ((device.ahead reader).take wanted).length
        ((device.ahead reader).take wanted))
      (device.move reader
        (device.position reader + ((device.ahead reader).take wanted).length))
  | seek (reader position : Nat) (inside : position ≤ device.log.content.length) :
      Step capacity delimiter device (.seek reader position) (device.move reader position)

end LogDevice

/-! ## The stream behind a log -/

section Stream

variable {Cell : Type u} [DecidableEq Cell] {capacity : Nat} {delimiter : Cell}

theorem frames_append (first second : List Cell) :
    frames delimiter (first ++ second) =
      frames delimiter first ++ frames delimiter (remainder delimiter first ++ second) := by
  obtain ⟨parts, framed, _⟩ := frames_remainder delimiter first
  conv_lhs => rw [parts, List.append_assoc]
  exact frames_flatten_append framed

omit [DecidableEq Cell] in
theorem flatten_drop {blocks : List (List Cell)} (count : Nat) :
    (blocks.drop count).flatten = blocks.flatten.drop (blocks.take count).flatten.length := by
  have whole := congrArg List.flatten (List.take_append_drop count blocks)
  rw [List.flatten_append] at whole
  rw [← whole, List.drop_left]

namespace FrameLog

def written (log : FrameLog Cell) (delimiter : Cell) (piece : List Cell) : List (List Cell) :=
  log.frames ++ Framing.frames delimiter (log.pending ++ piece)

/-- How many cells of them the log has dropped. -/
def dropped (log : FrameLog Cell) (capacity : Nat) (delimiter : Cell) (piece : List Cell) : Nat :=
  ((log.written delimiter piece).take
    ((log.written delimiter piece).length - capacity)).flatten.length

variable {log : FrameLog Cell}

theorem written_append (log : FrameLog Cell) (first second : List Cell) :
    log.written delimiter (first ++ second) = log.written delimiter first ++
      Framing.frames delimiter (remainder delimiter (log.pending ++ first) ++ second) := by
  rw [written, written, ← List.append_assoc, frames_append, List.append_assoc]

theorem content_feed (formed : log.WellFormed capacity delimiter) (piece : List Cell) :
    (log.feed capacity delimiter piece).content =
      (log.written delimiter piece).flatten.drop (log.dropped capacity delimiter piece) := by
  rw [feed_eq formed.bounded formed.unfinished]
  exact flatten_drop _

theorem dropped_le_append (log : FrameLog Cell) (first second : List Cell) :
    log.dropped capacity delimiter first ≤ log.dropped capacity delimiter (first ++ second) := by
  unfold dropped
  rw [written_append, List.length_append]
  generalize log.written delimiter first = whole
  generalize Framing.frames delimiter _ = more
  have parts : whole.take (whole.length - capacity) <+:
      (whole ++ more).take (whole.length + more.length - capacity) := by
    rw [← @List.take_append_of_le_length _ whole more _ (Nat.sub_le _ capacity)]
    exact List.take_prefix_take_left (by omega)
  exact (List.IsPrefix.flatten parts).length_le

theorem dropped_of_le {piece : List Cell} (room : (log.written delimiter piece).length ≤ capacity) :
    log.dropped capacity delimiter piece = 0 := by
  rw [dropped, Nat.sub_eq_zero_of_le room]
  rfl

end FrameLog

end Stream

/-! ## Readers that are never moved -/

section Passing

variable {Cell : Type u} {stream stream' got : List Cell} {start passed passed' : Nat}

theorem take_length_take (stream : List Cell) (wanted : Nat) :
    stream.take (stream.take wanted).length = stream.take wanted := by
  rw [List.take_eq_take_iff, List.length_take]
  omega

theorem eq_take_of_prefix (begins : got = stream.take got.length) (longer : stream <+: stream') :
    got = stream'.take got.length := by
  have short := congrArg List.length begins
  rw [List.length_take] at short
  obtain ⟨rest, rfl⟩ := longer
  rw [List.take_append_of_le_length (by omega)]
  exact begins

theorem sublist_passed_mono (sublist : got.Sublist ((stream.take passed).drop start))
    (longer : stream <+: stream') (further : passed ≤ passed') :
    got.Sublist ((stream'.take passed').drop start) := by
  refine sublist.trans (List.Sublist.drop ?_ start)
  have within : stream.take passed <+: stream'.take passed := List.IsPrefix.take longer passed
  exact (within.trans (List.take_prefix_take_left further)).sublist

theorem sublist_passed_append (sublist : got.Sublist ((stream.take passed).drop start))
    (forward : start ≤ passed) (wanted : Nat) :
    (got ++ (stream.drop passed).take wanted).Sublist
      ((stream.take (passed + ((stream.drop passed).take wanted).length)).drop start) := by
  rw [List.take_add, take_length_take]
  rcases Nat.le_total start stream.length with inside | beyond
  · rw [List.drop_append_of_le_length (by rw [List.length_take]; omega)]
    exact List.Sublist.append sublist (List.Sublist.refl _)
  · have nothing : (stream.drop passed).take wanted = [] := by
      rw [List.drop_of_length_le (Nat.le_trans beyond forward), List.take_nil]
    rw [nothing, List.append_nil, List.append_nil]
    exact sublist

end Passing

namespace LogDevice

variable {Cell : Type u} [DecidableEq Cell] {capacity : Nat} {delimiter : Cell}
  {first device device' last : LogDevice Cell} {events past : List (DeviceEvent Cell)}
  {event : DeviceEvent Cell} {reader : Nat}

omit [DecidableEq Cell] in
@[simp]
theorem move_position_self (device : LogDevice Cell) (reader position : Nat) :
    (device.move reader position).position reader = position := Function.update_self _ _ _

omit [DecidableEq Cell] in
theorem move_position_of_ne (device : LogDevice Cell) {reader other : Nat}
    (different : reader ≠ other) (position : Nat) :
    (device.move other position).position reader = device.position reader :=
  Function.update_of_ne different _ _

theorem Step.log_eq (taken : Step capacity delimiter device event device') :
    device'.log = device.log.feed capacity delimiter event.piece := by
  cases taken with
  | quiet => rfl
  | feed piece => rfl
  | read other wanted => rfl
  | seek other position inside => rfl

theorem log_of_run (run : Run (Step capacity delimiter) first events last) :
    last.log = first.log.feed capacity delimiter (fed events) := by
  have kept : ∀ past device event device',
      device.log = first.log.feed capacity delimiter (fed past) →
      Step capacity delimiter device event device' →
      device'.log = first.log.feed capacity delimiter (fed (past ++ [event])) := by
    intro past device event device' log taken
    rw [taken.log_eq, log, fed_concat, FrameLog.feed_append]
  have start : first.log = first.log.feed capacity delimiter (fed []) := rfl
  exact run.history kept start

/-- How a step moves a reader that it does not seek with, and what the reader gets. -/
theorem Step.reader_cases (taken : Step capacity delimiter device event device')
    (still : ¬ event.Seeks reader) :
    (event.deliveredTo reader = [] ∧ device'.position reader = device.position reader) ∨
    (event.piece = [] ∧ ∃ wanted, event.deliveredTo reader = (device.ahead reader).take wanted ∧
      device'.position reader =
        device.position reader + ((device.ahead reader).take wanted).length) := by
  cases taken with
  | quiet => exact .inl ⟨rfl, rfl⟩
  | feed piece => exact .inl ⟨rfl, rfl⟩
  | read other wanted =>
      by_cases same : other = reader
      · subst same
        exact .inr ⟨rfl, wanted, if_pos rfl, move_position_self _ _ _⟩
      · exact .inl ⟨if_neg same, move_position_of_ne device (Ne.symm same) _⟩
  | seek other position inside =>
      exact .inl ⟨rfl, move_position_of_ne device (Ne.symm still) _⟩

def passed (capacity : Nat) (delimiter : Cell) (first : LogDevice Cell) (reader : Nat)
    (past : List (DeviceEvent Cell)) (device : LogDevice Cell) : Nat :=
  first.log.dropped capacity delimiter (fed past) + device.position reader

/-- A reader that is never moved has got a sublist of what it has passed. -/
structure Follows (capacity : Nat) (delimiter : Cell) (first : LogDevice Cell) (reader : Nat)
    (past : List (DeviceEvent Cell)) (device : LogDevice Cell) : Prop where
  log : device.log = first.log.feed capacity delimiter (fed past)
  forward : first.position reader ≤ passed capacity delimiter first reader past device
  sublist : (delivered reader past).Sublist
    (((first.log.written delimiter (fed past)).flatten.take
      (passed capacity delimiter first reader past device)).drop (first.position reader))

theorem written_grows (first : LogDevice Cell) (delimiter : Cell)
    (past : List (DeviceEvent Cell)) (event : DeviceEvent Cell) :
    first.log.written delimiter (fed past) <+:
      first.log.written delimiter (fed (past ++ [event])) := by
  rw [fed_concat, FrameLog.written_append]
  exact List.prefix_append _ _

/-- What is ahead of a reader, in the stream of all frames. -/
theorem Follows.ahead (follows : Follows capacity delimiter first reader past device)
    (formed : first.log.WellFormed capacity delimiter) :
    device.ahead reader = (first.log.written delimiter (fed past)).flatten.drop
      (passed capacity delimiter first reader past device) := by
  rw [LogDevice.ahead, follows.log, FrameLog.content_feed formed, List.drop_drop, passed]

theorem Follows.initial (first : LogDevice Cell) (reader : Nat) :
    Follows capacity delimiter first reader [] first where
  log := rfl
  forward := Nat.le_add_left _ _
  sublist := List.nil_sublist _

theorem Follows.step (follows : Follows capacity delimiter first reader past device)
    (formed : first.log.WellFormed capacity delimiter) (still : ¬ event.Seeks reader)
    (taken : Step capacity delimiter device event device') :
    Follows capacity delimiter first reader (past ++ [event]) device' := by
  have log : device'.log = first.log.feed capacity delimiter (fed (past ++ [event])) := by
    rw [taken.log_eq, follows.log, fed_concat, FrameLog.feed_append]
  have longer := List.IsPrefix.flatten (written_grows first delimiter past event)
  have drops : first.log.dropped capacity delimiter (fed past) ≤
      first.log.dropped capacity delimiter (fed (past ++ [event])) := by
    rw [fed_concat]
    exact FrameLog.dropped_le_append _ _ _
  have forward := follows.forward
  rcases taken.reader_cases still with
    ⟨nothing, unmoved⟩ | ⟨noPiece, wanted, got, moved⟩
  · have mono : passed capacity delimiter first reader past device ≤
        passed capacity delimiter first reader (past ++ [event]) device' := by
      unfold passed
      omega
    refine ⟨log, Nat.le_trans forward mono, ?_⟩
    rw [delivered_concat, nothing, List.append_nil]
    exact sublist_passed_mono follows.sublist longer mono
  · have sameFed : fed (past ++ [event]) = fed past := by
      rw [fed_concat, noPiece, List.append_nil]
    rw [follows.ahead formed] at got moved
    have moves : passed capacity delimiter first reader (past ++ [event]) device' =
        passed capacity delimiter first reader past device +
          (((first.log.written delimiter (fed past)).flatten.drop
            (passed capacity delimiter first reader past device)).take wanted).length := by
      rw [passed, sameFed, moved, passed, Nat.add_assoc]
    refine ⟨log, by omega, ?_⟩
    rw [delivered_concat, got, moves, sameFed]
    exact sublist_passed_append follows.sublist forward wanted

/-- In a run that does not seek with it, a reader gets the cells of the stream of all
frames in their order, none of them twice and none that it has not passed. -/
theorem follows_of_run (run : Run (Step capacity delimiter) first events last)
    (formed : first.log.WellFormed capacity delimiter)
    (still : ∀ event ∈ events, ¬ event.Seeks reader) :
    Follows capacity delimiter first reader events last := by
  have kept : ∀ past device event device', ¬ event.Seeks reader →
      Follows capacity delimiter first reader past device →
      Step capacity delimiter device event device' →
      Follows capacity delimiter first reader (past ++ [event]) device' :=
    fun _ _ _ _ unmoved follows taken => Follows.step follows formed unmoved taken
  exact run.history_of_allowed kept still (Follows.initial first reader)

/-! ## As long as nothing is dropped -/

/-- A reader has got all that it has passed. -/
structure Tails (first : LogDevice Cell) (reader : Nat) (past : List (DeviceEvent Cell))
    (device : LogDevice Cell) : Prop where
  position : device.position reader = first.position reader + (delivered reader past).length
  got : delivered reader past =
    (device.log.content.drop (first.position reader)).take (delivered reader past).length

theorem content_eq (formed : first.log.WellFormed capacity delimiter)
    (log : device.log = first.log.feed capacity delimiter (fed past))
    (room : (first.log.written delimiter (fed past)).length ≤ capacity) :
    device.log.content = (first.log.written delimiter (fed past)).flatten := by
  rw [log, FrameLog.content_feed formed, FrameLog.dropped_of_le room, List.drop_zero]

omit [DecidableEq Cell] in
theorem Tails.initial (first : LogDevice Cell) (reader : Nat) : Tails first reader [] first where
  position := rfl
  got := rfl

theorem Tails.step (tails : Tails first reader past device)
    (formed : first.log.WellFormed capacity delimiter)
    (log : device.log = first.log.feed capacity delimiter (fed past))
    (room : (first.log.written delimiter (fed (past ++ [event]))).length ≤ capacity)
    (still : ¬ event.Seeks reader)
    (taken : Step capacity delimiter device event device') :
    Tails first reader (past ++ [event]) device' := by
  have log' : device'.log = first.log.feed capacity delimiter (fed (past ++ [event])) := by
    rw [taken.log_eq, log, fed_concat, FrameLog.feed_append]
  have grows := written_grows first delimiter past event
  have longer : device.log.content <+: device'.log.content := by
    rw [content_eq formed log' room, content_eq formed log (Nat.le_trans grows.length_le room)]
    exact List.IsPrefix.flatten grows
  rcases taken.reader_cases still with
    ⟨nothing, unmoved⟩ | ⟨noPiece, wanted, got, moved⟩
  · refine ⟨?_, ?_⟩
    · rw [unmoved, tails.position, delivered_concat, nothing, List.append_nil]
    · rw [delivered_concat, nothing, List.append_nil]
      exact eq_take_of_prefix tails.got (longer.drop _)
  · have sameContent : device'.log.content = device.log.content := by
      rw [taken.log_eq, noPiece, FrameLog.feed_nil]
    refine ⟨?_, ?_⟩
    · rw [moved, tails.position, delivered_concat, got, List.length_append, Nat.add_assoc]
    · rw [sameContent, delivered_concat, got, List.length_append, List.take_add, ← tails.got,
        List.drop_drop, ← tails.position]
      exact congrArg (delivered reader past ++ ·) (take_length_take _ _).symm

/-- In a run that drops no frame, a reader that is not moved gets a slice of the content
from where it was: nothing is left out, however the reads and the pieces interleave. -/
theorem tails_of_run (run : Run (Step capacity delimiter) first events last)
    (formed : first.log.WellFormed capacity delimiter)
    (room : (first.log.written delimiter (fed events)).length ≤ capacity)
    (still : ∀ event ∈ events, ¬ event.Seeks reader) :
    Tails first reader events last := by
  have kept : ∀ past device event device', ¬ event.Seeks reader →
      (device.log = first.log.feed capacity delimiter (fed past) ∧
        ((first.log.written delimiter (fed past)).length ≤ capacity →
          Tails first reader past device)) →
      Step capacity delimiter device event device' →
      device'.log = first.log.feed capacity delimiter (fed (past ++ [event])) ∧
        ((first.log.written delimiter (fed (past ++ [event]))).length ≤ capacity →
          Tails first reader (past ++ [event]) device') := by
    rintro past device event device' unmoved ⟨log, tails⟩ taken
    refine ⟨?_, fun room => ?_⟩
    · rw [taken.log_eq, log, fed_concat, FrameLog.feed_append]
    · have roomBefore := Nat.le_trans (written_grows first delimiter past event).length_le room
      exact (tails roomBefore).step formed log room unmoved taken
  exact (run.history_of_allowed kept still ⟨rfl, fun _ => Tails.initial first reader⟩).2 room

omit [DecidableEq Cell] in
theorem Tails.all (tails : Tails first reader events last)
    (atEnd : last.ahead reader = []) :
    delivered reader events = last.log.content.drop (first.position reader) := by
  rw [tails.got]
  apply List.take_of_length_le
  rw [LogDevice.ahead, List.drop_eq_nil_iff, tails.position] at atEnd
  rw [List.length_drop]
  omega

end LogDevice

end Framing
