import Aesd.Driver.CircularBuffer.Lookup
import Aesd.Driver.Unload
import Aesd.Driver.Write.Termination

/-!
# The dump of the ring

`print_circular_buffer_content` copies the command of each of the ten slots into
a buffer of 512 bytes on the stack.  The length that it passes to `memcpy` comes
from a difference of unsigned numbers, which wraps for commands of more than 512
bytes: they are copied whole.
-/

namespace Aesd

open BlockHeap Concurrency Framing Loop

namespace Driver

/-- Each `memcpy` of the dump ends before the last byte of `tmp_buffer` and inside the
entry, and `tmp_buffer` is a string each time it is printed. -/
structure DumpStays (driver : Driver) : Prop where
  lengths : ∀ index ∈ allSlots,
    copyLength (driver.dev.data.slot index).size ≤ tmpBufferSize - 1 ∧
      copyLength (driver.dev.data.slot index).size ≤ (driver.dev.data.slot index).size
  terminated : ∃ buffers, driver.printCircularBufferContent = some buffers ∧
    ∀ buffer ∈ buffers, buffer.length = tmpBufferSize ∧ buffer.getLast? = some 0

end Driver

/-! ## The length -/

section CopyLength

variable {size : Nat}

theorem copyLength_of_le (short : size ≤ tmpBufferSize) :
    copyLength size = min size (tmpBufferSize - 1) := by
  rw [copyLength, sizeSub_of_le short (by decide)]
  unfold tmpBufferSize at *
  split <;> omega

/-- The difference wraps, and what was meant to be cut off is copied. -/
theorem copyLength_of_lt (long : tmpBufferSize < size) (small : size < 2 ^ 64) :
    copyLength size = size := by
  have wraps : 1 < sizeSub tmpBufferSize size := by
    unfold sizeSub toSizeT tmpBufferSize at *
    omega
  rw [copyLength, if_pos wraps]

end CopyLength

/-! ## The slots -/

theorem AesdCircularBuffer.WellFormed.slot_cases {buffer : AesdCircularBuffer}
    (formed : buffer.WellFormed) {index : Nat} (isSlot : index ∈ allSlots) :
    buffer.slot index ∈ buffer.liveEntries ∨ buffer.slot index = {} := by
  cases isFull : buffer.full with
  | true =>
      left
      apply List.mem_map_of_mem
      rw [liveSlots, liveCount_of_full isFull]
      exact (ringSlots_ten_perm _).mem_iff.mpr isSlot
  | false =>
      rcases Nat.lt_or_ge index buffer.inOffs with used | unused
      · left
        apply List.mem_map_of_mem
        rw [liveSlots, formed.liveCount_of_notFull isFull, formed.notFull_outOffs isFull]
        refine List.mem_map.mpr ⟨index, List.mem_range.mpr used, ?_⟩
        rw [Nat.zero_add]
        exact Nat.mod_eq_of_lt (List.mem_range.mp isSlot)
      · exact .inr (formed.notFull_unused isFull index unused)

theorem AesdCircularBuffer.mem_allSlots_of_live {buffer : AesdCircularBuffer} {index : Nat}
    (live : index ∈ buffer.liveSlots) : index ∈ allSlots :=
  List.mem_range.mpr (lt_of_mem_ringSlots live)

section Slots

variable {driver : Driver}

theorem Driver.Valid.size_of_mem_commands (valid : driver.Valid) {bound : Nat} :
    (∀ command ∈ driver.commands, command.length ≤ bound) ↔
      ∀ entry ∈ driver.dev.data.liveEntries, entry.size ≤ bound := by
  constructor
  · intro short entry membership
    rw [← (valid.stored entry membership).length_entryBytes]
    exact short _ (List.mem_map_of_mem membership)
  · intro short command membership
    rcases List.mem_map.mp membership with ⟨entry, live, rfl⟩
    rw [(valid.stored entry live).length_entryBytes]
    exact short entry live

theorem Driver.Valid.length_content_slot (valid : driver.Valid) {index : Nat}
    (isSlot : index ∈ allSlots) :
    (driver.heap.content (driver.dev.data.slot index).buffptr).length =
      (driver.dev.data.slot index).size := by
  rcases valid.ring.slot_cases isSlot with live | unused
  · have stored := valid.stored _ live
    rw [← stored.entryBytes_eq]
    exact stored.length_entryBytes
  · rw [unused]
    rfl

end Slots

/-! ## The copies -/

theorem memcpy_zeros {source : List UInt8} {length : Nat} (inTarget : length ≤ tmpBufferSize - 1)
    (inSource : length ≤ source.length) :
    ∃ buffer, memcpy (List.replicate tmpBufferSize 0) source length = some buffer ∧
      buffer.length = tmpBufferSize ∧ buffer.getLast? = some 0 := by
  have zeros : tmpBufferSize - length = (tmpBufferSize - length - 1) + 1 := by
    unfold tmpBufferSize at *
    omega
  refine ⟨source.take length ++ (List.replicate tmpBufferSize 0).drop length, ?_, ?_, ?_⟩
  · refine if_pos ⟨?_, inSource⟩
    rw [List.length_replicate]
    omega
  · rw [List.length_append, List.length_take, List.length_drop, List.length_replicate]
    omega
  · rw [List.drop_replicate, zeros, List.replicate_succ']
    simp

theorem mapM_eq_some {Input Output : Type} {each : Input → Option Output}
    {property : Output → Prop} {inputs : List Input}
    (succeeds : ∀ input ∈ inputs, ∃ output, each input = some output ∧ property output) :
    ∃ outputs, inputs.mapM each = some outputs ∧ ∀ output ∈ outputs, property output := by
  induction inputs with
  | nil => exact ⟨[], rfl, by simp⟩
  | cons input inputs inductionHypothesis =>
      rcases List.forall_mem_cons.mp succeeds with ⟨⟨output, first, holds⟩, others⟩
      rcases inductionHypothesis others with ⟨outputs, rest, hold⟩
      refine ⟨output :: outputs, ?_, List.forall_mem_cons.mpr ⟨holds, hold⟩⟩
      rw [List.mapM_cons, first, rest]
      rfl

theorem exists_of_mapM {Input Output : Type} {each : Input → Option Output}
    {inputs : List Input} {outputs : List Output} (all : inputs.mapM each = some outputs)
    {input : Input} (membership : input ∈ inputs) : ∃ output, each input = some output := by
  induction inputs generalizing outputs with
  | nil => cases membership
  | cons first inputs inductionHypothesis =>
      rw [List.mapM_cons] at all
      rcases Option.bind_eq_some_iff.mp all with ⟨output, ofFirst, rest⟩
      rcases Option.bind_eq_some_iff.mp rest with ⟨others, ofRest, _⟩
      rcases List.mem_cons.mp membership with rfl | later
      · exact ⟨output, ofFirst⟩
      · exact inductionHypothesis ofRest later

section Stays

variable {driver : Driver}

/-- The lengths decide. -/
theorem Driver.Valid.dumpStays (valid : driver.Valid)
    (short : ∀ command ∈ driver.commands, command.length ≤ tmpBufferSize) : driver.DumpStays := by
  have lengths : ∀ index ∈ allSlots,
      copyLength (driver.dev.data.slot index).size ≤ tmpBufferSize - 1 ∧
        copyLength (driver.dev.data.slot index).size ≤ (driver.dev.data.slot index).size := by
    intro index isSlot
    have bounded : (driver.dev.data.slot index).size ≤ tmpBufferSize := by
      rcases valid.ring.slot_cases isSlot with live | unused
      · exact valid.size_of_mem_commands.mp short _ live
      · rw [unused]
        exact Nat.zero_le _
    rw [copyLength_of_le bounded]
    exact ⟨Nat.min_le_right _ _, Nat.min_le_left _ _⟩
  refine ⟨lengths, mapM_eq_some ?_⟩
  intro index isSlot
  rcases lengths index isSlot with ⟨inTarget, inEntry⟩
  apply memcpy_zeros inTarget
  rw [valid.length_content_slot isSlot]
  exact inEntry

theorem Driver.Valid.short_of_copyLength (valid : driver.Valid)
    (sizes : ∀ command ∈ driver.commands, command.length < 2 ^ 64)
    (inside : ∀ index ∈ allSlots, copyLength (driver.dev.data.slot index).size ≤ tmpBufferSize) :
    ∀ command ∈ driver.commands, command.length ≤ tmpBufferSize := by
  apply valid.size_of_mem_commands.mpr
  intro entry live
  have small : entry.size < 2 ^ 64 := by
    rw [← (valid.stored entry live).length_entryBytes]
    exact sizes _ (List.mem_map_of_mem live)
  rcases List.mem_map.mp live with ⟨index, liveSlot, rfl⟩
  by_contra long
  have inTarget := inside index (AesdCircularBuffer.mem_allSlots_of_live liveSlot)
  rw [copyLength_of_lt (Nat.not_le.mp long) small] at inTarget
  exact long inTarget

theorem Driver.DumpStays.short (stays : driver.DumpStays) (valid : driver.Valid)
    (sizes : ∀ command ∈ driver.commands, command.length < 2 ^ 64) :
    ∀ command ∈ driver.commands, command.length ≤ tmpBufferSize := by
  apply valid.short_of_copyLength sizes
  intro index isSlot
  exact Nat.le_trans (stays.lengths index isSlot).1 (Nat.sub_le _ _)

theorem Driver.dump_eq_iff : driver.dump = driver ↔ driver.printCircularBufferContent.isSome := by
  unfold Driver.dump
  by_cases stays : driver.printCircularBufferContent.isSome
  · rw [if_pos stays]
    exact iff_of_true rfl stays
  · rw [if_neg stays]
    refine iff_of_false (fun same => ?_) stays
    have counted := congrArg Driver.overruns same
    exact Nat.succ_ne_self _ counted

theorem Driver.Valid.dump_eq_iff (valid : driver.Valid)
    (sizes : ∀ command ∈ driver.commands, command.length < 2 ^ 64) :
    driver.dump = driver ↔ ∀ command ∈ driver.commands, command.length ≤ tmpBufferSize := by
  rw [Driver.dump_eq_iff]
  constructor
  · intro stays
    rcases Option.isSome_iff_exists.mp stays with ⟨buffers, printed⟩
    apply valid.short_of_copyLength sizes
    intro index isSlot
    rcases exists_of_mapM printed isSlot with ⟨buffer, copied⟩
    unfold Driver.tmpBuffer memcpy at copied
    rw [Option.ite_none_right_eq_some, List.length_replicate] at copied
    exact copied.1.1
  · intro short
    rcases (valid.dumpStays short).terminated with ⟨buffers, printed, _⟩
    rw [printed]
    rfl

end Stays

/-! ## Interleaved writes -/

namespace WriteSystem

def ShortCommand (system : WriteSystem) : WriteLabel → Prop
  | .enter _ _ => True
  | .round task outcome => ∀ call, system.running task = some call → outcome.Succeeds →
      call.buf[call.idx + call.off]? = some newline →
      system.driver.dev.currentTemporaryBufferSize + (call.idx + 1) ≤ tmpBufferSize

def ShortStep (system : WriteSystem) (label : WriteLabel) (system' : WriteSystem) : Prop :=
  system.ShortCommand label ∧ Step system label system'

theorem commands_push {call : WriteCall} {driver driver' : Driver} (valid : driver.Valid)
    (scanning : call.Scanning) (ends : call.buf[call.idx + call.off]? = some newline)
    (fed : driver.Fed driver' (userBytes call.buf call.off (call.idx + 1))) :
    ∃ command, driver'.commands = (driver.commands ++ [command]).rtake 10 ∧
      command.length = driver.dev.currentTemporaryBufferSize + (call.idx + 1) := by
  have inside := (List.getElem?_eq_some_iff.mp ends).1
  have segment := userBytes_succ ends
  have log := fed.log
  rw [segment, FrameLog.feed_frame _ scanning.clean, ← segment] at log
  refine ⟨_, congrArg FrameLog.frames log, ?_⟩
  rw [List.length_append, length_userBytes _ (by omega)]
  exact congrArg (· + (call.idx + 1)) (Driver.length_pending valid)

theorem commands_round {outcome : Outcome} {call : WriteCall} {driver driver' : Driver}
    {flow : Flow WriteCall Int} (valid : driver.Valid) (scanning : call.Scanning)
    (effect : WriteEffect outcome call driver flow driver') :
    driver'.commands = driver.commands ∨
      outcome.Succeeds ∧ call.buf[call.idx + call.off]? = some newline ∧
        ∃ command, driver'.commands = (driver.commands ++ [command]).rtake 10 ∧
          command.length = driver.dev.currentTemporaryBufferSize + (call.idx + 1) := by
  cases effect with
  | skip _ _ => exact .inl rfl
  | finish _ _ => exact .inl rfl
  | keep _ _ _ fed =>
      have log := fed.log
      rw [FrameLog.feed_of_notMem _ scanning.clean] at log
      exact .inl (congrArg FrameLog.frames log)
  | fail _ _ unchanged => exact .inl (congrArg FrameLog.frames unchanged.log)
  | push inside ends succeeds fed =>
      exact .inr ⟨succeeds, ends, commands_push valid scanning ends fed⟩

theorem Valid.shortStep {system system' : WriteSystem} {label : WriteLabel}
    (valid : system.Valid) (taken : system.Step label system')
    (short : ∀ command ∈ system.driver.commands, command.length ≤ tmpBufferSize)
    (pushes : system.ShortCommand label) :
    ∀ command ∈ system'.driver.commands, command.length ≤ tmpBufferSize := by
  rcases valid.step_cases taken with
    ⟨task, buf, rfl, _, rfl⟩ | ⟨task, outcome, call, flow, driver', rfl, busy, effect, rfl⟩
  · exact short
  · rw [driver_afterRound]
    rcases commands_round valid.driver (valid.located task call busy).toScanning effect with
      same | ⟨succeeds, ends, command, pushed, length⟩
    · rw [same]
      exact short
    · rw [pushed]
      intro other membership
      rcases List.mem_append.mp (List.mem_of_mem_drop membership) with old | new
      · exact short other old
      · rw [List.mem_singleton.mp new, length]
        exact pushes call busy succeeds ends

theorem short_of_shortRun {labels : List WriteLabel} {system : WriteSystem}
    (run : Run ShortStep init labels system) :
    ∀ command ∈ system.driver.commands, command.length ≤ tmpBufferSize := by
  have kept : ∀ before label after,
      (before.Valid ∧ ∀ command ∈ before.driver.commands, command.length ≤ tmpBufferSize) →
        ShortStep before label after →
          after.Valid ∧ ∀ command ∈ after.driver.commands, command.length ≤ tmpBufferSize := by
    rintro before label after ⟨valid, short⟩ ⟨pushes, taken⟩
    exact ⟨(valid.step taken).1, valid.shortStep taken short pushes⟩
  have nothing : init.driver.commands = [] := rfl
  exact (run.invariant kept ⟨init_valid, by simp [nothing]⟩).2

/-- In a state that interleaved calls reach, the dump stays inside its buffer exactly
if no live command has more than 512 bytes, and it does so in every state of a run that
pushes no such command. The lengths of commands are numbers of type `size_t`. -/
theorem reachable_dumpStays {labels : List WriteLabel} {system : WriteSystem}
    (run : Run Step init labels system)
    (sizes : ∀ command ∈ system.driver.commands, command.length < 2 ^ 64) :
    (system.driver.DumpStays ↔
      ∀ command ∈ system.driver.commands, command.length ≤ tmpBufferSize) ∧
    (Run ShortStep init labels system → system.driver.DumpStays) := by
  have valid := (Valid.run run init_valid).driver
  refine ⟨⟨?_, valid.dumpStays⟩, ?_⟩
  · intro stays
    exact stays.short valid sizes
  · intro shortRun
    exact valid.dumpStays (short_of_shortRun shortRun)

theorem reachable_dumpStays_interleaved : ∃ system,
    Run Step init interleavedLabels system ∧ system.driver.DumpStays := by
  obtain ⟨system, taken, short⟩ : ∃ system, follow step init interleavedLabels = some system ∧
      ∀ command ∈ system.driver.commands, command.length ≤ 2 := ⟨_, rfl, by decide⟩
  have run : Run Step init interleavedLabels system := run_of_follow taken
  refine ⟨system, run, (reachable_dumpStays run ?_).1.mpr ?_⟩
  · intro command isLive
    exact Nat.lt_of_le_of_lt (short command isLive) (by decide)
  · intro command isLive
    exact Nat.le_trans (short command isLive) (by decide)

/-! ## Long commands -/

theorem run_scan {buf : List UInt8} {idx : Nat} (inside : idx ≤ buf.length)
    (clean : newline ∉ buf.take idx) : ∃ labels, Run Step init labels
      ⟨.init, Function.update (fun _ => none) 0 (some { buf, idx })⟩ := by
  induction idx with
  | zero => exact ⟨[.enter 0 buf], .cons rfl (.nil _)⟩
  | succ idx inductionHypothesis =>
      have here := List.getElem?_eq_getElem inside
      rw [List.take_add_one, here, Option.toList_some, List.mem_append,
        List.mem_singleton, not_or] at clean
      rcases inductionHypothesis (Nat.le_of_succ_le inside) clean.1 with ⟨labels, run⟩
      refine ⟨labels ++ [.round 0 {}], run.concat ?_⟩
      have within : idx < buf.length := inside
      have other : buf[idx] ≠ newline := fun same => clean.2 same.symm
      simp [Step, WriteSystem.step, aesdWriteRound, within, other, afterRound]

theorem exists_pushStep {system : WriteSystem} {task : Nat} {call : WriteCall}
    (valid : system.Valid) (busy : system.running task = some call)
    (free : system.driver.dev.lock.owner = none)
    (ends : call.buf[call.idx + call.off]? = some newline) :
    ∃ system' command, Step system (.round task {}) system' ∧
      system'.driver.commands = (system.driver.commands ++ [command]).rtake 10 ∧
      command.length = system.driver.dev.currentTemporaryBufferSize + (call.idx + 1) ∧
      system'.driver.dev.temporaryCommandBuffer = none := by
  have inside := (List.getElem?_eq_some_iff.mp ends).1
  rcases @pushSection_succeeds {} system.driver task (by decide) free call with
    ⟨pending, driver', pushed, _, released⟩
  have round : aesdWriteRound task {} call system.driver =
      some (.next (call.advance pending), driver') := by
    rw [aesdWriteRound, if_pos inside, if_pos ends, pushed]
  have scanning := (valid.located task call busy).toScanning
  have effect := aesdWriteRound_effect valid.driver scanning round
  have taken : Step system (.round task {})
      (afterRound system task (.next (call.advance pending)) driver') := by
    simp only [Step, WriteSystem.step, busy, round, Option.map_some]
  generalize call.advance pending = call' at effect taken
  cases effect with
  | skip _ other => exact absurd ends other
  | push _ _ _ fed =>
      rcases commands_push valid.driver scanning ends fed with ⟨command, commands, length⟩
      exact ⟨_, command, taken, commands, length, released⟩

theorem exists_run_command (length : Nat) : ∃ labels system command,
    Run Step init labels system ∧ system.driver.commands = [command] ∧
      command.length = length + 1 ∧ system.driver.dev.temporaryCommandBuffer = none := by
  obtain ⟨body, isBody⟩ : ∃ body : List UInt8, body = List.replicate length 97 := ⟨_, rfl⟩
  have bodyLength : body.length = length := by rw [isBody, List.length_replicate]
  have absent : newline ∉ body := by
    rw [isBody, List.mem_replicate]
    exact fun found => absurd found.2 (by decide)
  obtain ⟨call, isCall⟩ : ∃ call : WriteCall,
      call = { buf := body ++ [newline], idx := body.length } := ⟨_, rfl⟩
  have ends : call.buf[call.idx + call.off]? = some newline := by simp [isCall]
  rcases @run_scan (body ++ [newline]) body.length (by simp) (by simpa using absent) with
    ⟨labels, scanned⟩
  rw [← isCall] at scanned
  have busy : Function.update (fun _ => none) 0 (some call) 0 = some call :=
    Function.update_self _ _ _
  rcases @exists_pushStep _ 0 call (Valid.run scanned init_valid) busy rfl ends with
    ⟨system, command, taken, commands, count, released⟩
  have nothing : Driver.init.commands = [] := rfl
  rw [nothing] at commands
  refine ⟨labels ++ [.round 0 {}], system, command, scanned.concat taken, commands, ?_, released⟩
  rw [count, isCall, ← bodyLength]
  exact Nat.zero_add _

/-- A command of 513 bytes leads the dump out of its buffer. -/
theorem reachable_dump_overruns : ∃ labels system, Run Step init labels system ∧
    ¬ system.driver.DumpStays ∧ ∃ index ∈ allSlots,
      copyLength (system.driver.dev.data.slot index).size = 513 ∧
      system.driver.tmpBuffer index = none := by
  rcases exists_run_command 512 with ⟨labels, system, command, run, only, length, _⟩
  have valid := (Valid.run run init_valid).driver
  have isLive : command ∈ system.driver.commands := by
    rw [only]
    exact List.mem_singleton_self _
  rcases List.mem_map.mp isLive with ⟨entry, live, bytes⟩
  have size := (valid.stored entry live).length_entryBytes
  rw [bytes, length] at size
  rcases List.mem_map.mp live with ⟨index, liveSlot, rfl⟩
  have isSlot := AesdCircularBuffer.mem_allSlots_of_live liveSlot
  have copied : copyLength (system.driver.dev.data.slot index).size = 513 := by
    rw [← size]
    decide
  refine ⟨labels, system, run, ?_, index, isSlot, copied, ?_⟩
  · intro stays
    have inTarget := (stays.lengths index isSlot).1
    rw [copied] at inTarget
    exact absurd inTarget (by decide)
  · unfold Driver.tmpBuffer memcpy
    rw [copied]
    apply if_neg
    rw [List.length_replicate]
    exact fun inside => absurd inside.1 (by decide)

end WriteSystem

end Aesd
