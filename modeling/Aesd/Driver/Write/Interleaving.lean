import Aesd.Driver.Write.Stream
import Aesd.Driver.Write.System

/-!
# Interleaved calls and serial orders

The lock covers one section, so between the sections of a call other calls can
run.  A buffer with one newline has at most two sections: one up to the newline
and one for what follows it.  Cut into these pieces, the interleaved calls leave
the device as the pieces do when they are written one after the other.
-/

namespace Aesd

open BlockHeap Concurrency Framing Loop

/-! ## Pieces -/

/-- What follows the first newline, if anything does. -/
def tailPiece (buf : List UInt8) : List (List UInt8) :=
  if buf.drop (scanStart buf 1) = [] then [] else [buf.drop (scanStart buf 1)]

/-- A buffer cut behind its first newline. -/
def pieces (buf : List UInt8) : List (List UInt8) := buf.take (scanStart buf 1) :: tailPiece buf

def WriteCall.left (call : WriteCall) : List (List UInt8) :=
  if call.sections = 0 then pieces call.buf else tailPiece call.buf

section Pieces

variable {buf : List UInt8}

theorem flatten_tailPiece (buf : List UInt8) :
    (tailPiece buf).flatten = buf.drop (scanStart buf 1) := by
  by_cases nothing : buf.drop (scanStart buf 1) = []
  · rw [tailPiece, if_pos nothing, nothing]
    rfl
  · rw [tailPiece, if_neg nothing]
    exact List.flatten_singleton

theorem tailPiece_of_notMem (absent : newline ∉ buf) : tailPiece buf = [] := by
  unfold tailPiece
  apply if_pos
  rw [scanStart, scanStart, List.drop_zero, List.idxOf_eq_length absent]
  exact List.drop_of_length_le (Nat.le_succ _)

theorem pieces_of_nothing_after (nothing : buf.drop (scanStart buf 1) = []) :
    pieces buf = [buf] := by
  have whole := List.take_append_drop (scanStart buf 1) buf
  rw [nothing, List.append_nil] at whole
  rw [pieces, whole, tailPiece, if_pos nothing]

theorem pieces_of_notMem (absent : newline ∉ buf) : pieces buf = [buf] := by
  have nothing : (tailPiece buf).flatten = [] := by
    rw [tailPiece_of_notMem absent]
    rfl
  rw [flatten_tailPiece] at nothing
  exact pieces_of_nothing_after nothing

theorem single_of_mem_tailPiece (single : SingleNewline buf) {piece : List UInt8}
    (membership : piece ∈ tailPiece buf) : SingleNewline piece := by
  unfold tailPiece at membership
  split at membership
  · simp at membership
  · rw [List.mem_singleton.mp membership]
    exact singleNewline_of_notMem single

theorem WriteCall.Located.left_of_atEnd {call : WriteCall} (located : call.Located)
    (single : SingleNewline call.buf) (atEnd : call.idx + call.off = call.buf.length) :
    call.left.flatten = userBytes call.buf call.off call.idx ∧
      ∀ piece ∈ call.left, SingleNewline piece := by
  obtain ⟨_, rest⟩ := located.atEnd atEnd
  have clean := located.clean
  rw [rest] at clean
  rw [rest]
  obtain count | count : call.sections = 0 ∨ call.sections = 1 := by
    have few := located.sections_le single
    omega
  · rw [count] at clean
    have absent : newline ∉ call.buf := clean
    rw [WriteCall.left, if_pos count, pieces_of_notMem absent, List.flatten_singleton, count]
    refine ⟨rfl, ?_⟩
    intro piece membership
    rw [List.mem_singleton.mp membership]
    exact single
  · rw [WriteCall.left, if_neg (by omega), flatten_tailPiece, count]
    exact ⟨rfl, fun piece => single_of_mem_tailPiece single⟩

/-- A command that is pushed is the piece up to the only newline. -/
theorem WriteCall.Located.left_of_push {call : WriteCall} (located : call.Located)
    (first : call.sections = 0)
    (ends : call.buf[call.idx + call.off]? = some newline) :
    call.left = userBytes call.buf call.off (call.idx + 1) :: tailPiece call.buf ∧
      SingleNewline (userBytes call.buf call.off (call.idx + 1)) := by
  have here : newline ∈ call.buf := List.mem_of_getElem? ends
  have restart := located.restart ends
  rw [first] at restart
  have piece : userBytes call.buf call.off (call.idx + 1) =
      call.buf.take (scanStart call.buf 1) := by
    rw [restart, located.off_eq, first]
    rfl
  rw [piece, WriteCall.left, if_pos first]
  refine ⟨rfl, ?_⟩
  have whole : newline ∈ call.buf.drop (scanStart call.buf 0) := here
  obtain ⟨body, absent, frame⟩ := segment_isFrame whole
  have asFrame : call.buf.take (scanStart call.buf 1) = body ++ [newline] := frame
  rw [asFrame]
  exact (singleNewline_append_cons absent).mpr (by simp)

theorem WriteEffect.pieces {outcome : Outcome} {call : WriteCall} {driver driver' : Driver}
    {flow : Flow WriteCall Int} (valid : driver.Valid) (located : call.Located)
    (single : SingleNewline call.buf) (succeeds : outcome.Succeeds)
    (effect : WriteEffect outcome call driver flow driver') :
    ∃ done, driver.Fed driver' done.flatten ∧ (∀ piece ∈ done, SingleNewline piece) ∧
      call.left = done ++
        match flow with
        | .next call' => call'.left
        | .leave _ => [] := by
  have next := @WriteEffect.located outcome driver driver' call
  cases effect with
  | skip inside other => exact ⟨[], .refl valid, by simp, rfl⟩
  | push inside ends succeeds' fed =>
      have few := (next located (.push inside ends succeeds' fed)).1.sections_le single
      have first : call.sections = 0 := by
        change call.sections + 1 ≤ 1 at few
        omega
      obtain ⟨left, singlePiece⟩ := located.left_of_push first ends
      refine ⟨[userBytes call.buf call.off (call.idx + 1)], by rwa [List.flatten_singleton],
        ?_, left⟩
      exact List.forall_mem_singleton.mpr singlePiece
  | keep nonempty atEnd _ fed =>
      obtain ⟨bytes, singles⟩ := located.left_of_atEnd single atEnd
      exact ⟨call.left, by rwa [bytes], singles, (List.append_nil _).symm⟩
  | finish nothing atEnd =>
      have finished : call.idx + call.off = call.buf.length := by omega
      obtain ⟨bytes, singles⟩ := located.left_of_atEnd single finished
      rw [nothing, userBytes_zero] at bytes
      exact ⟨call.left, by rw [bytes]; exact (Driver.Fed.refl valid).dump, singles,
        (List.append_nil _).symm⟩
  | fail _ fails _ => exact absurd succeeds fails

end Pieces

/-! ## Serial orders -/

def ofTask (order : List (Nat × List UInt8)) (task : Nat) : List (List UInt8) :=
  order.filterMap fun entry => if entry.1 = task then some entry.2 else none

def serialRequests (order : List (Nat × List UInt8)) : List WriteRequest :=
  order.map fun entry => { buf := entry.2, task := entry.1, fuel := 2 * entry.2.length + 2 }

def entered (labels : List WriteLabel) (task : Nat) : List (List UInt8) :=
  labels.filterMap fun
    | .enter other buf => if other = task then some buf else none
    | .round _ _ => none

def WriteLabel.Succeeds : WriteLabel → Prop
  | .enter _ _ => True
  | .round _ outcome => outcome.Succeeds

instance : DecidablePred WriteLabel.Succeeds
  | .enter _ _ => inferInstanceAs (Decidable True)
  | .round _ outcome => inferInstanceAs (Decidable outcome.Succeeds)

/-- The call returns when it is the only one on a new device. -/
def ReturnsAlone (buf : List UInt8) : Prop :=
  ∃ fuel result, aesdWrite 0 (fun _ => {}) fuel .init buf = some result

theorem ReturnsAlone.single {buf : List UInt8} (returns : ReturnsAlone buf) :
    SingleNewline buf := by
  obtain ⟨fuel, result, returned⟩ := returns
  cases aesdWrite_effect Driver.init_valid returned with
  | returned single _ => exact single
  | failed _ _ _ fails => exact absurd (by decide) fails

theorem stream_serialRequests (order : List (Nat × List UInt8)) :
    stream (serialRequests order) = (order.map Prod.snd).flatten := by
  rw [stream, serialRequests, List.map_map]
  rfl

/-- Calls with at most one newline each can be made in any order. -/
theorem writeAll_serialRequests {driver : Driver} (valid : driver.Valid)
    (free : driver.dev.lock.owner = none) {order : List (Nat × List UInt8)}
    (single : ∀ entry ∈ order, SingleNewline entry.2) :
    ∃ results driver', writeAll driver (serialRequests order) = some (results, driver') ∧
      ∀ result ∈ results, 0 ≤ result := by
  induction order generalizing driver with
  | nil => exact ⟨[], driver, rfl, by simp⟩
  | cons entry order inductionHypothesis =>
      obtain ⟨first, middle, returned, positive, fed⟩ :=
        @aesdWrite_returns (fun _ => {}) driver entry.1 (2 * entry.2.length + 2) entry.2 valid free
          (single entry List.mem_cons_self) (fun _ => by decide) (Nat.lt_succ_self _)
      have freeNow : middle.dev.lock.owner = none := by rw [fed.lock, free]
      obtain ⟨results, driver', following, nonnegative⟩ := inductionHypothesis fed.valid freeNow
        fun other membership => single other (List.mem_cons_of_mem _ membership)
      refine ⟨first :: results, driver', ?_, List.forall_mem_cons.mpr ⟨positive, nonnegative⟩⟩
      rw [serialRequests, List.map_cons, ← serialRequests, writeAll]
      simp only [returned, following]
      rfl

/-! ## From a run to a serial order -/

theorem entered_append (labels more : List WriteLabel) (task : Nat) :
    entered (labels ++ more) task = entered labels task ++ entered more task :=
  List.filterMap_append

theorem ofTask_append (order more : List (Nat × List UInt8)) (task : Nat) :
    ofTask (order ++ more) task = ofTask order task ++ ofTask more task :=
  List.filterMap_append

theorem ofTask_self (task : Nat) (done : List (List UInt8)) :
    ofTask (done.map (task, ·)) task = done := by
  induction done with
  | nil => rfl
  | cons piece done inductionHypothesis =>
      rw [ofTask] at inductionHypothesis
      simp [ofTask, inductionHypothesis]

theorem ofTask_of_ne {task other : Nat} (different : other ≠ task) (done : List (List UInt8)) :
    ofTask (done.map (task, ·)) other = [] := by
  rw [ofTask, List.filterMap_eq_nil_iff]
  intro entry membership
  obtain ⟨piece, _, rfl⟩ := List.mem_map.mp membership
  exact if_neg (Ne.symm different)

def WriteSystem.left (system : WriteSystem) (task : Nat) : List (List UInt8) :=
  match system.running task with
  | some call => call.left
  | none => []

/-- The device has read the pieces of `order`, and each task has contributed the
pieces of its calls up to where it is. -/
structure Serialized (start : WriteSystem) (past : List WriteLabel)
    (order : List (Nat × List UInt8)) (system : WriteSystem) : Prop where
  valid : system.Valid
  fed : start.driver.Fed system.driver (order.map Prod.snd).flatten
  written : ∀ task, ofTask order task ++ system.left task = (entered past task).flatMap pieces
  running : ∀ task call, system.running task = some call → SingleNewline call.buf
  single : ∀ entry ∈ order, SingleNewline entry.2

section Serialized

variable {start system system' : WriteSystem} {past labels : List WriteLabel}
  {label : WriteLabel} {order : List (Nat × List UInt8)}

theorem Serialized.initial (valid : start.Valid) (idle : ∀ task, start.running task = none) :
    Serialized start [] [] start where
  valid := valid
  fed := .refl valid.driver
  written task := by simp [WriteSystem.left, idle, ofTask, entered]
  running task call busy := by simp [idle] at busy
  single := by simp

theorem Serialized.enter {task : Nat} {buf : List UInt8}
    (serialized : Serialized start past order system) (idle : system.running task = none)
    (single : SingleNewline buf)
    (valid : WriteSystem.Valid { system with
      running := Function.update system.running task (some { buf }) }) :
    Serialized start (past ++ [.enter task buf]) order { system with
      running := Function.update system.running task (some { buf }) } := by
  refine ⟨valid, serialized.fed, ?_, ?_, serialized.single⟩
  · intro other
    have before := serialized.written other
    rw [entered_append]
    by_cases same : other = task
    · subst same
      have nothing : system.left other = [] := by rw [WriteSystem.left, idle]
      rw [nothing, List.append_nil] at before
      rw [before]
      simp [WriteSystem.left, WriteCall.left, entered]
    · have unchanged : entered [WriteLabel.enter task buf] other = [] := by
        simp [entered, Ne.symm same]
      rw [unchanged, List.append_nil, ← before]
      simp [WriteSystem.left, Function.update_of_ne same]
  · intro other call busy
    by_cases same : other = task
    · subst same
      simp only [Function.update_self, Option.some.injEq] at busy
      subst busy
      exact single
    · simp only [Function.update_of_ne same] at busy
      exact serialized.running other call busy

theorem Serialized.round {task : Nat} {outcome : Outcome} {call : WriteCall}
    {flow : Flow WriteCall Int} {driver' : Driver}
    (serialized : Serialized start past order system) (busy : system.running task = some call)
    (succeeds : outcome.Succeeds)
    (effect : WriteEffect outcome call system.driver flow driver')
    (valid : (system.afterRound task flow driver').Valid) :
    ∃ order', Serialized start (past ++ [.round task outcome]) order'
      (system.afterRound task flow driver') := by
  have located := serialized.valid.located task call busy
  obtain ⟨done, fed, singles, split⟩ := effect.pieces serialized.valid.driver located
    (serialized.running task call busy) succeeds
  have left : system.left task = done ++ (system.afterRound task flow driver').left task := by
    rw [WriteSystem.left, busy, WriteSystem.left, WriteSystem.running_afterRound_self]
    cases flow <;> exact split
  refine ⟨order ++ done.map (task, ·), valid, ?_, ?_, ?_, ?_⟩
  · rw [WriteSystem.driver_afterRound, List.map_append, List.flatten_append, List.map_map]
    refine serialized.fed.trans ?_
    rwa [show done.map (Prod.snd ∘ (task, ·)) = done from List.map_id' done]
  · intro other
    have before := serialized.written other
    rw [entered_append, show entered [WriteLabel.round task outcome] other = [] from rfl,
      List.append_nil, ← before, ofTask_append, List.append_assoc]
    congr 1
    by_cases same : other = task
    · subst same
      rw [ofTask_self, left]
    · rw [ofTask_of_ne same, List.nil_append, WriteSystem.left, WriteSystem.left,
        WriteSystem.running_afterRound_of_ne system same]
  · intro other call' busy'
    by_cases same : other = task
    · subst same
      rw [WriteSystem.running_afterRound_self] at busy'
      cases flow with
      | leave result => simp at busy'
      | next next =>
          simp only [Option.some.injEq] at busy'
          subst busy'
          rw [(effect.located located).2]
          exact serialized.running other call busy
    · rw [WriteSystem.running_afterRound_of_ne system same] at busy'
      exact serialized.running other call' busy'
  · intro entry membership
    rcases List.mem_append.mp membership with old | new
    · exact serialized.single entry old
    · obtain ⟨piece, isDone, rfl⟩ := List.mem_map.mp new
      exact singles piece isDone

theorem Serialized.step (serialized : Serialized start past order system)
    (taken : system.Step label system') (succeeds : label.Succeeds)
    (single : ∀ task buf, label = .enter task buf → SingleNewline buf) :
    ∃ order', Serialized start (past ++ [label]) order' system' := by
  have valid := (serialized.valid.step taken).1
  rcases serialized.valid.step_cases taken with
    ⟨task, buf, rfl, idle, rfl⟩ | ⟨task, outcome, call, flow, driver', rfl, busy, effect, rfl⟩
  · exact ⟨order, serialized.enter idle (single task buf rfl) valid⟩
  · exact serialized.round busy succeeds effect valid

theorem Serialized.run (run : Run WriteSystem.Step system labels system')
    (serialized : Serialized start past order system)
    (succeeds : ∀ label ∈ labels, label.Succeeds)
    (single : ∀ task buf, .enter task buf ∈ labels → SingleNewline buf) :
    ∃ order', Serialized start (past ++ labels) order' system' := by
  induction run generalizing past order with
  | nil => exact ⟨order, by rwa [List.append_nil]⟩
  | @cons first middle last label labels taken following inductionHypothesis =>
      obtain ⟨order', step⟩ := serialized.step taken (succeeds label List.mem_cons_self)
        fun task buf entering => single task buf (entering ▸ List.mem_cons_self)
      obtain ⟨order'', rest⟩ := inductionHypothesis step
        (fun other membership => succeeds other (List.mem_cons_of_mem _ membership))
        (fun task buf membership => single task buf (List.mem_cons_of_mem _ membership))
      rw [List.append_assoc] at rest
      exact ⟨order'', rest⟩

/-- Interleaved calls that all return leave what their pieces leave in some serial
order that keeps the order of each task. Calls with nothing behind their newline
are single pieces, so they are atomic. -/
theorem interleaved_serializable (run : Run WriteSystem.Step start labels system)
    (valid : start.Valid) (free : start.driver.dev.lock.owner = none)
    (idle : ∀ task, start.running task = none) (succeeds : ∀ label ∈ labels, label.Succeeds)
    (returns : ∀ task buf, .enter task buf ∈ labels → ReturnsAlone buf)
    (finished : ∀ task, system.running task = none) :
    ∃ order results driver,
      (∀ task, ofTask order task = (entered labels task).flatMap pieces) ∧
      ((∀ task buf, .enter task buf ∈ labels → buf.drop (scanStart buf 1) = []) →
        ∀ task, ofTask order task = entered labels task) ∧
      writeAll start.driver (serialRequests order) = some (results, driver) ∧
      (∀ result ∈ results, 0 ≤ result) ∧
      system.driver.commands = driver.commands ∧ system.driver.pending = driver.pending := by
  obtain ⟨order, serialized⟩ := (Serialized.initial valid idle).run run succeeds
    fun task buf entering => (returns task buf entering).single
  obtain ⟨results, driver, returned, nonnegative⟩ :=
    writeAll_serialRequests valid.driver free serialized.single
  have written : ∀ task, ofTask order task = (entered labels task).flatMap pieces := by
    intro task
    have whole := serialized.written task
    rwa [WriteSystem.left, finished, List.append_nil, List.nil_append] at whole
  have log : system.driver.log = driver.log := by
    rw [serialized.fed.log, (writeAll_fed valid.driver returned nonnegative).log,
      stream_serialRequests]
  refine ⟨order, results, driver, written, ?_, returned, nonnegative,
    congrArg FrameLog.frames log, congrArg FrameLog.pending log⟩
  intro nothing task
  rw [written task]
  have each : ∀ buf ∈ entered labels task, pieces buf = [buf] := by
    intro buf membership
    obtain ⟨label, entering, here⟩ := List.mem_filterMap.mp membership
    cases label with
    | round other outcome => simp at here
    | enter other buf' =>
        simp only [Option.ite_none_right_eq_some, Option.some.injEq] at here
        obtain ⟨rfl, rfl⟩ := here
        exact pieces_of_nothing_after (nothing other buf' entering)
  rw [List.flatMap_congr each]
  exact List.flatMap_singleton' _

def tornLabels : List WriteLabel :=
  [.enter 0 [97, 10, 98], .enter 1 [120, 10], .round 0 {}, .round 0 {}, .round 1 {}, .round 1 {},
    .round 1 {}, .round 0 {}, .round 0 {}]

theorem run_tornLabels : ∃ system, Run WriteSystem.Step .init tornLabels system ∧
    (∀ task, system.running task = none) ∧
    system.driver.log = ⟨[[97, 10], [120, 10]], [98]⟩ := by
  refine ⟨_, run_of_follow rfl, ?_, by decide⟩
  intro task
  match task with
  | 0 => rfl
  | 1 => rfl
  | _ + 2 => rfl

theorem returnsAlone_of_tornLabels (task : Nat) (buf : List UInt8)
    (entering : .enter task buf ∈ tornLabels) : ReturnsAlone buf := by
  simp only [tornLabels, List.mem_cons, WriteLabel.enter.injEq, reduceCtorEq, List.not_mem_nil,
    or_false] at entering
  rcases entering with ⟨_, rfl⟩ | ⟨_, rfl⟩
  · exact ⟨9, _, rfl⟩
  · exact ⟨9, _, rfl⟩

theorem interleaved_serializable_torn : ∃ system order results driver,
    Run WriteSystem.Step .init tornLabels system ∧
    (∀ task, ofTask order task = (entered tornLabels task).flatMap pieces) ∧
    writeAll .init (serialRequests order) = some (results, driver) ∧
    driver.log = ⟨[[97, 10], [120, 10]], [98]⟩ := by
  obtain ⟨system, run, finished, log⟩ := run_tornLabels
  obtain ⟨order, results, driver, written, _, returned, _, commands, pending⟩ :=
    interleaved_serializable run WriteSystem.init_valid rfl (fun _ => rfl) (by decide)
      returnsAlone_of_tornLabels finished
  exact ⟨system, order, results, driver, run, written, returned,
    (FrameLog.ext commands pending).symm.trans log⟩

end Serialized

/-! ## Whole calls are not atomic -/

theorem ofTask_cons (entry : Nat × List UInt8) (order : List (Nat × List UInt8)) (task : Nat) :
    ofTask (entry :: order) task =
      if entry.1 = task then entry.2 :: ofTask order task else ofTask order task := by
  by_cases same : entry.1 = task <;> simp [ofTask, same]

theorem order_of_none {order : List (Nat × List UInt8)}
    (nothing : ∀ task, ofTask order task = []) : order = [] := by
  cases order with
  | nil => rfl
  | cons entry order =>
      have here := nothing entry.1
      rw [ofTask_cons, if_pos rfl] at here
      contradiction

theorem order_of_one {order : List (Nat × List UInt8)} {task : Nat} {buf : List UInt8}
    (one : ofTask order task = [buf]) (others : ∀ other, other ≠ task → ofTask order other = []) :
    order = [(task, buf)] := by
  cases order with
  | nil => simp [ofTask] at one
  | cons entry order =>
      obtain ⟨owner, piece⟩ := entry
      by_cases same : owner = task
      · subst same
        rw [ofTask_cons, if_pos rfl, List.cons.injEq] at one
        obtain ⟨rfl, rest⟩ := one
        have nothing : order = [] := by
          apply order_of_none
          intro other
          by_cases again : other = owner
          · rw [again, rest]
          · have none := others other again
            rwa [ofTask_cons, if_neg (Ne.symm again)] at none
        rw [nothing]
      · have here := others owner same
        rw [ofTask_cons, if_pos rfl] at here
        contradiction

theorem order_of_two {order : List (Nat × List UInt8)} {first second : List UInt8}
    (ofFirst : ofTask order 0 = [first]) (ofSecond : ofTask order 1 = [second])
    (ofOthers : ∀ task, ofTask order (task + 2) = []) :
    order = [(0, first), (1, second)] ∨ order = [(1, second), (0, first)] := by
  match order with
  | [] => simp [ofTask] at ofFirst
  | (task + 2, buf) :: rest =>
      have here := ofOthers task
      rw [ofTask_cons, if_pos rfl] at here
      contradiction
  | (0, buf) :: rest =>
      simp only [ofTask_cons] at ofFirst ofSecond ofOthers
      obtain ⟨rfl, rest0⟩ := List.cons.inj ofFirst
      left
      rw [order_of_one ofSecond]
      intro other different
      match other with
      | 0 => exact rest0
      | 1 => contradiction
      | task + 2 => exact ofOthers task
  | (1, buf) :: rest =>
      simp only [ofTask_cons] at ofFirst ofSecond ofOthers
      obtain ⟨rfl, rest1⟩ := List.cons.inj ofSecond
      right
      rw [order_of_one ofFirst]
      intro other different
      match other with
      | 0 => contradiction
      | 1 => exact rest1
      | task + 2 => exact ofOthers task

/-- The torn calls return alone and do not fail, but they leave what neither of
their serial orders leaves. -/
theorem interleaved_not_atomic : ∃ system,
    Run WriteSystem.Step .init tornLabels system ∧ (∀ task, system.running task = none) ∧
    (∀ label ∈ tornLabels, label.Succeeds) ∧
    (∀ task buf, .enter task buf ∈ tornLabels → ReturnsAlone buf) ∧
    ∀ order results driver, (∀ task, ofTask order task = entered tornLabels task) →
      writeAll .init (serialRequests order) = some (results, driver) →
      ¬ (system.driver.commands = driver.commands ∧ system.driver.pending = driver.pending) := by
  obtain ⟨system, run, finished, log⟩ := run_tornLabels
  refine ⟨system, run, finished, by decide,
    returnsAlone_of_tornLabels, ?_⟩
  rintro order results driver whole returned ⟨commands, pending⟩
  have same : driver.log = ⟨[[97, 10], [120, 10]], [98]⟩ :=
    (FrameLog.ext commands pending).symm.trans log
  have held := congrArg (Option.map fun result => result.2.log) returned
  rw [Option.map_some, same] at held
  rcases order_of_two (whole 0) (whole 1) (fun task => whole (task + 2)) with rfl | rfl
  · exact absurd held (by decide)
  · exact absurd held (by decide)

end Aesd
