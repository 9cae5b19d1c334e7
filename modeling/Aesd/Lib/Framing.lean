import Aesd.Lib.BoundedFifo

/-!
# Delimited frames and bounded frame logs

A stream is cut into frames by a delimiter that ends each of them; what follows
the last delimiter is the remainder.  A `FrameLog` is the state of a consumer
that reads the stream cell by cell, keeps the last `capacity` frames and the
frame that has not ended yet.  `FrameLog.feed_eq` is the contract: the log
depends on the stream only, not on how the stream was cut into pieces.
-/

namespace Framing

universe u

variable {Cell : Type u} [DecidableEq Cell]

/-- The frames of a stream that have ended, each with its delimiter. -/
def frames (delimiter : Cell) (stream : List Cell) : List (List Cell) :=
  (stream.splitOn delimiter).dropLast.map (· ++ [delimiter])

/-- What follows the last delimiter of a stream. -/
def remainder (delimiter : Cell) (stream : List Cell) : List Cell :=
  (stream.splitOn delimiter).getLastD []

/-- A frame ends with the delimiter and contains no other one. -/
def IsFrame (delimiter : Cell) (frame : List Cell) : Prop :=
  ∃ body, delimiter ∉ body ∧ frame = body ++ [delimiter]

section Frames

variable {delimiter : Cell} {stream body rest : List Cell}

theorem frames_of_notMem (absent : delimiter ∉ stream) : frames delimiter stream = [] := by
  simp [frames, List.splitOn_eq_singleton absent]

theorem remainder_of_notMem (absent : delimiter ∉ stream) :
    remainder delimiter stream = stream := by
  simp [remainder, List.splitOn_eq_singleton absent]

theorem frames_append_cons (absent : delimiter ∉ body) :
    frames delimiter (body ++ delimiter :: rest) =
      (body ++ [delimiter]) :: frames delimiter rest := by
  rw [frames, List.splitOn_append_cons_self_of_not_mem absent,
    List.dropLast_cons_of_ne_nil (List.splitOn_ne_nil _ _)]
  rfl

theorem remainder_append_cons (absent : delimiter ∉ body) :
    remainder delimiter (body ++ delimiter :: rest) = remainder delimiter rest := by
  rw [remainder, List.splitOn_append_cons_self_of_not_mem absent, remainder]
  cases split : rest.splitOn delimiter with
  | nil => exact absurd split (List.splitOn_ne_nil _ _)
  | cons first others => rfl

theorem frames_flatten_append {whole : List (List Cell)}
    (framed : ∀ frame ∈ whole, IsFrame delimiter frame) :
    frames delimiter (whole.flatten ++ rest) = whole ++ frames delimiter rest := by
  induction whole with
  | nil => rfl
  | cons frame whole inductionHypothesis =>
      obtain ⟨⟨body, absent, rfl⟩, others⟩ := List.forall_mem_cons.mp framed
      rw [List.flatten_cons, List.append_assoc, List.append_assoc, List.singleton_append,
        frames_append_cons absent, inductionHypothesis others]
      rfl

theorem remainder_flatten_append {whole : List (List Cell)}
    (framed : ∀ frame ∈ whole, IsFrame delimiter frame) :
    remainder delimiter (whole.flatten ++ rest) = remainder delimiter rest := by
  induction whole with
  | nil => rfl
  | cons frame whole inductionHypothesis =>
      obtain ⟨⟨body, absent, rfl⟩, others⟩ := List.forall_mem_cons.mp framed
      rw [List.flatten_cons, List.append_assoc, List.append_assoc, List.singleton_append,
        remainder_append_cons absent, inductionHypothesis others]

theorem exists_frames (delimiter : Cell) (stream : List Cell) :
    ∃ (whole : List (List Cell)) (rest : List Cell), stream = whole.flatten ++ rest ∧
      (∀ frame ∈ whole, IsFrame delimiter frame) ∧ delimiter ∉ rest := by
  induction stream with
  | nil => exact ⟨[], [], rfl, by simp, by simp⟩
  | cons cell stream inductionHypothesis =>
      obtain ⟨whole, rest, rfl, framed, absent⟩ := inductionHypothesis
      by_cases ends : cell = delimiter
      · refine ⟨[cell] :: whole, rest, rfl, List.forall_mem_cons.mpr ⟨?_, framed⟩, absent⟩
        exact ⟨[], by simp, by simp [ends]⟩
      · cases whole with
        | nil => exact ⟨[], cell :: rest, rfl, by simp, by simp [absent, Ne.symm ends]⟩
        | cons frame whole =>
            obtain ⟨⟨body, absentBody, rfl⟩, others⟩ := List.forall_mem_cons.mp framed
            refine ⟨(cell :: (body ++ [delimiter])) :: whole, rest, by simp,
              List.forall_mem_cons.mpr ⟨?_, others⟩, absent⟩
            exact ⟨cell :: body, by simp [absentBody, Ne.symm ends], rfl⟩

theorem frames_remainder (delimiter : Cell) (stream : List Cell) :
    stream = (frames delimiter stream).flatten ++ remainder delimiter stream ∧
    (∀ frame ∈ frames delimiter stream, IsFrame delimiter frame) ∧
    delimiter ∉ remainder delimiter stream := by
  obtain ⟨whole, rest, rfl, framed, absent⟩ := exists_frames delimiter stream
  rw [frames_flatten_append framed, remainder_flatten_append framed,
    frames_of_notMem absent, remainder_of_notMem absent, List.append_nil]
  exact ⟨rfl, framed, absent⟩

theorem IsFrame.frames_eq {frame : List Cell} (framed : IsFrame delimiter frame) :
    frames delimiter frame = [frame] ∧ remainder delimiter frame = [] := by
  obtain ⟨body, absent, rfl⟩ := framed
  rw [frames_append_cons absent, remainder_append_cons absent]
  exact ⟨rfl, rfl⟩

theorem remainder_eq_nil (ends : stream.getLast? = some delimiter) :
    remainder delimiter stream = [] := by
  obtain ⟨parts, -, absent⟩ := frames_remainder delimiter stream
  by_contra nonempty
  have last : (remainder delimiter stream).getLast? = some delimiter := by
    rw [← ends]
    conv_rhs => rw [parts]
    rw [List.getLast?_append_of_ne_nil _ nonempty]
  exact absent (List.mem_of_getLast? last)

theorem getLast?_of_remainder (whole : remainder delimiter stream = []) (nonempty : stream ≠ []) :
    stream.getLast? = some delimiter := by
  obtain ⟨parts, framed, -⟩ := frames_remainder delimiter stream
  rw [whole, List.append_nil] at parts
  rcases List.eq_nil_or_concat (frames delimiter stream) with none | ⟨first, frame, equality⟩
  · rw [none, List.flatten_nil] at parts
    exact absurd parts nonempty
  · obtain ⟨body, -, shape⟩ := framed frame (by rw [equality]; simp)
    rw [parts, equality, shape]
    simp

theorem frames_flatten {streams : List (List Cell)}
    (ended : ∀ stream ∈ streams, remainder delimiter stream = []) :
    frames delimiter streams.flatten = streams.flatMap (frames delimiter) := by
  induction streams with
  | nil => simp [frames]
  | cons stream streams inductionHypothesis =>
      obtain ⟨whole, others⟩ := List.forall_mem_cons.mp ended
      obtain ⟨parts, framed, -⟩ := frames_remainder delimiter stream
      rw [whole, List.append_nil] at parts
      rw [List.flatten_cons, List.flatMap_cons, ← inductionHypothesis others]
      conv_lhs => rw [parts]
      exact frames_flatten_append framed

end Frames

/-- The frames that ended last and the cells of the frame that has not ended. -/
structure FrameLog (Cell : Type u) where
  frames : List (List Cell)
  pending : List Cell
  deriving DecidableEq, Repr

namespace FrameLog

omit [DecidableEq Cell] in
@[ext]
theorem ext {log log' : FrameLog Cell} (sameFrames : log.frames = log'.frames)
    (samePending : log.pending = log'.pending) : log = log' := by
  cases log
  cases log'
  simp_all

def empty : FrameLog Cell := ⟨[], []⟩

section Feed

variable (capacity : Nat) (delimiter : Cell)

def feedOne (log : FrameLog Cell) (cell : Cell) : FrameLog Cell :=
  if cell = delimiter then
    ⟨(log.frames ++ [log.pending ++ [cell]]).rtake capacity, []⟩
  else
    ⟨log.frames, log.pending ++ [cell]⟩

def feed (log : FrameLog Cell) (piece : List Cell) : FrameLog Cell :=
  piece.foldl (feedOne capacity delimiter) log

/-- What every log that was fed from the empty one satisfies. -/
structure WellFormed (log : FrameLog Cell) : Prop where
  bounded : log.frames.length ≤ capacity
  framed : ∀ frame ∈ log.frames, IsFrame delimiter frame
  unfinished : delimiter ∉ log.pending

end Feed

variable {capacity : Nat} {delimiter : Cell} (log : FrameLog Cell)

@[simp]
theorem feed_nil : log.feed capacity delimiter [] = log := rfl

theorem feed_cons (cell : Cell) (piece : List Cell) :
    log.feed capacity delimiter (cell :: piece) =
      (log.feedOne capacity delimiter cell).feed capacity delimiter piece := rfl

theorem feed_append (first second : List Cell) :
    log.feed capacity delimiter (first ++ second) =
      (log.feed capacity delimiter first).feed capacity delimiter second :=
  List.foldl_append

theorem feed_of_notMem {piece : List Cell} (absent : delimiter ∉ piece) :
    log.feed capacity delimiter piece = ⟨log.frames, log.pending ++ piece⟩ := by
  induction piece generalizing log with
  | nil => simp
  | cons cell piece inductionHypothesis =>
      have parts : delimiter ≠ cell ∧ delimiter ∉ piece := by simpa using absent
      have step : log.feedOne capacity delimiter cell =
          ⟨log.frames, log.pending ++ [cell]⟩ := by
        simp [feedOne, Ne.symm parts.1]
      rw [feed_cons, step, inductionHypothesis _ parts.2]
      simp

theorem feed_frame {body : List Cell} (absent : delimiter ∉ body) :
    log.feed capacity delimiter (body ++ [delimiter]) =
      ⟨(log.frames ++ [log.pending ++ (body ++ [delimiter])]).rtake capacity, []⟩ := by
  rw [feed_append, feed_of_notMem log absent]
  simp [feed, feedOne]

theorem feed_frame_append {body rest : List Cell} (absent : delimiter ∉ body)
    (absentRest : delimiter ∉ rest) :
    log.feed capacity delimiter (body ++ delimiter :: rest) =
      ⟨(log.frames ++ [log.pending ++ (body ++ [delimiter])]).rtake capacity, rest⟩ := by
  rw [← List.singleton_append, ← List.append_assoc, feed_append, feed_frame log absent,
    feed_of_notMem _ absentRest]
  rfl

theorem feed_frames {log : FrameLog Cell} (bounded : log.frames.length ≤ capacity)
    (nothing : log.pending = []) {more : List (List Cell)}
    (framed : ∀ frame ∈ more, IsFrame delimiter frame) :
    log.feed capacity delimiter more.flatten = ⟨(log.frames ++ more).rtake capacity, []⟩ := by
  induction more generalizing log with
  | nil =>
      apply FrameLog.ext
      · simp [List.rtake_of_length_le bounded]
      · exact nothing
  | cons frame more inductionHypothesis =>
      obtain ⟨body, absent, rfl⟩ := framed frame List.mem_cons_self
      rw [List.flatten_cons, feed_append, feed_frame log absent, nothing, List.nil_append]
      have step := @inductionHypothesis
        ⟨(log.frames ++ [body ++ [delimiter]]).rtake capacity, []⟩
        (by rw [List.length_rtake]; exact Nat.min_le_left _ _) rfl
        (fun other membership => framed other (List.mem_cons_of_mem _ membership))
      rw [List.rtake_rtake_append, List.append_assoc] at step
      exact step

theorem feed_frames_pending {first : List Cell} {more : List (List Cell)}
    (framed : ∀ frame ∈ first :: more, IsFrame delimiter frame) :
    (log.feed capacity delimiter (first :: more).flatten).pending = [] := by
  obtain ⟨body, absent, rfl⟩ := framed first List.mem_cons_self
  rw [List.flatten_cons, feed_append, feed_frame log absent, feed_frames
    (by rw [List.length_rtake]; exact Nat.min_le_left _ _) rfl
    (fun other membership => framed other (List.mem_cons_of_mem _ membership))]

/-- The log after a piece, in terms of the frames of the unfinished frame
followed by the piece. -/
theorem feed_eq {log : FrameLog Cell} (bounded : log.frames.length ≤ capacity)
    (unfinished : delimiter ∉ log.pending) (piece : List Cell) :
    log.feed capacity delimiter piece =
      ⟨(log.frames ++ Framing.frames delimiter (log.pending ++ piece)).rtake capacity,
        remainder delimiter (log.pending ++ piece)⟩ := by
  induction piece generalizing log with
  | nil =>
      have absent : delimiter ∉ log.pending ++ [] := by simpa using unfinished
      rw [feed_nil, frames_of_notMem absent, remainder_of_notMem absent]
      simp [List.rtake_of_length_le bounded]
  | cons cell piece inductionHypothesis =>
      by_cases ends : cell = delimiter
      · subst ends
        have step : log.feedOne capacity cell cell =
            ⟨(log.frames ++ [log.pending ++ [cell]]).rtake capacity, []⟩ := by
          simp [feedOne]
        rw [frames_append_cons unfinished, remainder_append_cons unfinished, feed_cons, step,
          inductionHypothesis (by rw [List.length_rtake]; exact Nat.min_le_left _ _) (by simp)]
        simp [List.rtake_rtake_append]
      · have step : log.feedOne capacity delimiter cell =
            ⟨log.frames, log.pending ++ [cell]⟩ := by
          simp [feedOne, ends]
        have moved : log.pending ++ cell :: piece = (log.pending ++ [cell]) ++ piece := by simp
        have stillUnfinished : delimiter ∉ log.pending ++ [cell] := by
          simp [unfinished, Ne.symm ends]
        rw [moved, feed_cons, step]
        exact @inductionHypothesis ⟨log.frames, log.pending ++ [cell]⟩ bounded stillUnfinished

/-- The contract of a consumer that starts empty. -/
theorem feed_empty (stream : List Cell) :
    (empty : FrameLog Cell).feed capacity delimiter stream =
      ⟨(Framing.frames delimiter stream).rtake capacity, remainder delimiter stream⟩ := by
  rw [feed_eq (by simp [empty]) (by simp [empty])]
  simp [empty]

theorem WellFormed.feedOne {log : FrameLog Cell}
    (formed : log.WellFormed capacity delimiter) (cell : Cell) :
    (log.feedOne capacity delimiter cell).WellFormed capacity delimiter := by
  by_cases ends : cell = delimiter
  · subst ends
    simp only [FrameLog.feedOne, if_true]
    refine ⟨by rw [List.length_rtake]; exact Nat.min_le_left _ _, ?_, by simp⟩
    intro frame membership
    rcases List.mem_append.mp (List.mem_of_mem_drop membership) with old | new
    · exact formed.framed frame old
    · exact ⟨log.pending, formed.unfinished, List.mem_singleton.mp new⟩
  · simp only [FrameLog.feedOne, ends, if_false]
    exact ⟨formed.bounded, formed.framed, by simp [formed.unfinished, Ne.symm ends]⟩

theorem WellFormed.feed {log : FrameLog Cell}
    (formed : log.WellFormed capacity delimiter) (piece : List Cell) :
    (log.feed capacity delimiter piece).WellFormed capacity delimiter := by
  induction piece generalizing log with
  | nil => exact formed
  | cons cell piece inductionHypothesis => exact inductionHypothesis (formed.feedOne cell)

omit [DecidableEq Cell] in
theorem empty_wellFormed : (empty : FrameLog Cell).WellFormed capacity delimiter :=
  ⟨by simp [empty], by simp [empty], by simp [empty]⟩

end FrameLog

end Framing
