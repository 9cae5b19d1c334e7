import Aesd.Driver.CircularBuffer.Lookup
import Aesd.Server.Connection

/-!
# The transfers between a file and a socket

`dump_file_to_socket` and `dump_buffer_to_file` under any sequence of short
transfers and failures.  What was read, written and sent is read off the trace of
the calls; the invariants relate it to what the functions still hold.
-/

namespace Aesd

open Loop Reactive

/-! ## What a trace has moved -/

def written : List (Call × Reply) → List UInt8 :=
  List.flatMap fun
    | (.writeFile _ data, reply) => data.take reply.value.toNat
    | _ => []

def fetched : List (Call × Reply) → List UInt8 :=
  List.flatMap fun
    | (.readFile _ _, reply) => if 0 < reply.value then reply.bytes else []
    | _ => []

def sent : List (Call × Reply) → List UInt8 :=
  List.flatMap fun
    | (.writeSocket data, reply) => data.take reply.value.toNat
    | _ => []

section Moved

variable (past : List (Call × Reply)) (reply : Reply) (filed : Int)

@[simp]
theorem written_append_writeFile (data : List UInt8) :
    written (past ++ [(.writeFile filed data, reply)]) =
      written past ++ data.take reply.value.toNat := by
  simp [written]

@[simp]
theorem fetched_append_readFile (size : Nat) :
    fetched (past ++ [(.readFile filed size, reply)]) =
      fetched past ++ if 0 < reply.value then reply.bytes else [] := by
  simp [fetched]

@[simp]
theorem fetched_append_writeSocket (data : List UInt8) :
    fetched (past ++ [(.writeSocket data, reply)]) = fetched past := by
  simp [fetched]

@[simp]
theorem sent_append_readFile (size : Nat) :
    sent (past ++ [(.readFile filed size, reply)]) = sent past := by
  simp [sent]

@[simp]
theorem sent_append_writeSocket (data : List UInt8) :
    sent (past ++ [(.writeSocket data, reply)]) = sent past ++ data.take reply.value.toNat := by
  simp [sent]

end Moved

/-! ## `dump_buffer_to_file` -/

/-- What a `write` to the file can answer: `-1`, or how much of the data it took. -/
def WriteReplies : Call × Reply → Prop
  | (.writeFile _ data, reply) =>
      reply.value = -1 ∨ (0 ≤ reply.value ∧ reply.value ≤ data.length)
  | _ => True

/-- A `write` that takes nothing of its data and is counted as success: the result
`-1` is a large number as a `size_t`, and for the result 0 `errno` is returned. -/
def CountsAsSuccess : Call × Reply → Prop
  | (.writeFile _ data, reply) =>
      data ≠ [] ∧ (reply.value = -1 ∨ (reply.value = 0 ∧ reply.errno = 0))
  | _ => False

instance : DecidablePred CountsAsSuccess
  | (.writeFile _ _, _) => inferInstanceAs (Decidable (_ ∧ _))
  | (.realloc _ _, _) | (.free _, _) | (.readSocket _, _) | (.writeSocket _, _)
  | (.pthreadMutexLock, _) | (.pthreadMutexUnlock, _) | (.openFile, _) | (.ioctl _ _, _)
  | (.readFile _ _, _) | (.close _, _) => inferInstanceAs (Decidable False)

/-- Every call gets what was not taken before, and success is reported exactly if
everything was taken. -/
structure WritesWhole (filed : Int) (buffer : List UInt8) (trace : List (Call × Reply))
    (retVal : Int) : Prop where
  calls : ∀ before call reply after, trace = before ++ (call, reply) :: after →
    call = .writeFile filed (buffer.drop (written before).length)
  success : retVal = 0 ↔ written trace = buffer

section DumpBuffer

variable {filed : Int} {buffer : List UInt8} {trace : List (Call × Reply)} {retVal : Int}

theorem toSizeT_neg_one : toSizeT (-1) = 2 ^ 64 - 1 := by decide

/-- What the answer of `write` leads to: a failure is passed over or returned, the
rest is tried again, or everything was taken. -/
theorem dumpBufferToFile_cases {left : List UInt8} {reply : Reply}
    (small : left.length < 2 ^ 64)
    (replies : WriteReplies ((dumpBufferToFile filed).call left, reply)) :
    (CountsAsSuccess ((dumpBufferToFile filed).call left, reply) ∧ left ≠ [] ∧
      left.take reply.value.toNat = [] ∧
      (dumpBufferToFile filed).resume left reply = .leave 0) ∨
    (left ≠ [] ∧ left.take reply.value.toNat = [] ∧ reply.errno ≠ 0 ∧
      ¬ CountsAsSuccess ((dumpBufferToFile filed).call left, reply) ∧
      (dumpBufferToFile filed).resume left reply = .leave reply.errno) ∨
    (0 < reply.value.toNat ∧ reply.value.toNat < left.length ∧
      ¬ CountsAsSuccess ((dumpBufferToFile filed).call left, reply) ∧
      (dumpBufferToFile filed).resume left reply = .next (left.drop reply.value.toNat)) ∨
    (left.take reply.value.toNat = left ∧
      ¬ CountsAsSuccess ((dumpBufferToFile filed).call left, reply) ∧
      (dumpBufferToFile filed).resume left reply = .leave 0) := by
  rcases replies with failed | ⟨nonnegative, bounded⟩
  · have large : ¬ toSizeT reply.value < left.length := by
      rw [failed, toSizeT_neg_one]
      omega
    have left' : (dumpBufferToFile filed).resume left reply = .leave 0 := if_neg large
    by_cases nothing : left = []
    · refine .inr (.inr (.inr ⟨by simp [nothing], ?_, left'⟩))
      exact fun counts => counts.1 nothing
    · exact .inl ⟨⟨nothing, .inl failed⟩, nothing, by simp [failed], left'⟩
  · obtain ⟨count, value⟩ := Int.eq_ofNat_of_zero_le nonnegative
    have wrote : toSizeT reply.value = count := by
      rw [value]
      exact toSizeT_natCast (by omega)
    have counted : reply.value.toNat = count := by omega
    rw [counted]
    by_cases short : count < left.length
    · by_cases none : count = 0
      · have left' : (dumpBufferToFile filed).resume left reply = .leave reply.errno := by
          simp only [dumpBufferToFile, wrote, if_pos short, if_pos (Nat.le_of_eq none)]
        have nonempty : left ≠ [] := List.ne_nil_of_length_pos (by omega)
        by_cases calm : reply.errno = 0
        · rw [calm] at left'
          exact .inl ⟨⟨nonempty, .inr ⟨by omega, calm⟩⟩, nonempty, by simp [none], left'⟩
        · refine .inr (.inl ⟨nonempty, by simp [none], calm, ?_, left'⟩)
          rintro ⟨_, failed | ⟨_, noError⟩⟩
          · omega
          · exact calm noError
      · refine .inr (.inr (.inl ⟨by omega, short, ?_, ?_⟩))
        · rintro ⟨_, failed | ⟨nothing, _⟩⟩ <;> omega
        · simp only [dumpBufferToFile, wrote, if_pos short, if_neg (mt Nat.le_zero.mp none)]
    · refine .inr (.inr (.inr ⟨List.take_of_length_le (by omega), ?_, ?_⟩))
      · rintro ⟨nonempty, failed | ⟨nothing, _⟩⟩
        · omega
        · exact nonempty (List.length_eq_zero_iff.mp (by omega))
      · simp only [dumpBufferToFile, wrote, if_neg short]

def DumpsBuffer (buffer : List UInt8) (past : List (Call × Reply)) (left : List UInt8) : Prop :=
  written past ++ left = buffer ∧ ∀ event ∈ past, ¬ CountsAsSuccess event

theorem dumpBufferToFile_keeps (filed : Int) (small : buffer.length < 2 ^ 64) :
    (dumpBufferToFile filed).Keeps WriteReplies (DumpsBuffer buffer) fun past retVal =>
      ((retVal = 0 ↔ written past = buffer) ↔ ∀ event ∈ past, ¬ CountsAsSuccess event) := by
  rintro past left reply ⟨parts, calm⟩ replies
  have short : left.length < 2 ^ 64 := by
    rw [← parts, List.length_append] at small
    omega
  have whole : written past = buffer ↔ left = [] := by
    rw [← parts]
    simp
  have taken : written (past ++ [((dumpBufferToFile filed).call left, reply)]) =
      written past ++ left.take reply.value.toNat := written_append_writeFile _ _ _ _
  have calmAfter (last : ¬ CountsAsSuccess ((dumpBufferToFile filed).call left, reply)) :
      ∀ event ∈ past ++ [((dumpBufferToFile filed).call left, reply)],
        ¬ CountsAsSuccess event :=
    List.forall_mem_append.mpr ⟨calm, List.forall_mem_singleton.mpr last⟩
  rcases dumpBufferToFile_cases short replies with
    ⟨counts, nonempty, nothing, left'⟩ | ⟨nonempty, nothing, failed, last, left'⟩ |
      ⟨some, further, last, continued⟩ | ⟨everything, last, left'⟩
  · rw [left']
    refine iff_of_false ?_ fun calm => calm _ (List.mem_append_right _ (.head _)) counts
    rw [taken, nothing, List.append_nil, whole]
    exact fun agree => nonempty (agree.mp rfl)
  · rw [left']
    refine iff_of_true (iff_of_false failed ?_) (calmAfter last)
    rw [taken, nothing, List.append_nil, whole]
    exact nonempty
  · rw [continued]
    refine ⟨?_, calmAfter last⟩
    rw [taken, List.append_assoc, List.take_append_drop, parts]
  · rw [left']
    refine iff_of_true (iff_of_true rfl ?_) (calmAfter last)
    rw [taken, everything, parts]

/-- Every call but the last takes a byte, so the function returns. -/
theorem dumpBufferToFile_run_length {left last : List UInt8} (small : left.length < 2 ^ 64)
    (run : (dumpBufferToFile filed).Runs left trace last)
    (replies : ∀ event ∈ trace, WriteReplies event) : trace.length + last.length ≤ left.length := by
  induction run with
  | nil => simp
  | @next first middle last reply trace resumed _ inductionHypothesis =>
      obtain ⟨replied, later⟩ := List.forall_mem_cons.mp replies
      rcases dumpBufferToFile_cases small replied with
        ⟨_, _, _, left'⟩ | ⟨_, _, _, _, left'⟩ | ⟨some, further, _, continued⟩ | ⟨_, _, left'⟩
      · cases resumed.symm.trans left'
      · cases resumed.symm.trans left'
      · cases resumed.symm.trans continued
        have rest := List.length_drop (i := reply.value.toNat) (l := first)
        have bound := inductionHypothesis (by omega) later
        rw [List.length_cons]
        omega
      · cases resumed.symm.trans left'

/-- `dump_buffer_to_file` returns after at most as many calls as the buffer has bytes. It
writes the whole buffer in order and reports this correctly exactly if no `write` of
remaining data fails with `-1` or takes nothing without an error number. -/
theorem dumpBufferToFile_writesWhole_iff (small : buffer.length < 2 ^ 64)
    (replies : ∀ event ∈ trace, WriteReplies event) :
    (∀ left, (dumpBufferToFile filed).Runs buffer trace left →
      trace.length + left.length ≤ buffer.length) ∧
    ∀ retVal, (dumpBufferToFile filed).Executes buffer trace retVal →
      (WritesWhole filed buffer trace retVal ↔ ∀ event ∈ trace, ¬ CountsAsSuccess event) := by
  refine ⟨fun left run => dumpBufferToFile_run_length small run replies, ?_⟩
  intro retVal execution
  have keeps := dumpBufferToFile_keeps filed small
  have start : DumpsBuffer buffer [] buffer := ⟨rfl, by simp⟩
  have reported := keeps.executes execution replies start
  rw [List.nil_append] at reported
  rw [← reported]
  refine ⟨fun writes => writes.success, fun success => ⟨?_, success⟩⟩
  rintro before call reply after rfl
  obtain ⟨left, run, rfl⟩ := execution.at_call
  have parts := (keeps.runs run (fun event membership =>
    replies event (List.mem_append_left _ membership)) start).1
  rw [List.nil_append] at parts
  rw [← parts, List.drop_left]
  rfl

theorem dumpBufferToFile_writesWhole_iff_short : WritesWhole 3 [97, 98, newline]
    [(.writeFile 3 [97, 98, newline], { value := 2 }), (.writeFile 3 [newline], { value := 1 })]
    0 :=
  ((dumpBufferToFile_writesWhole_iff (by decide) (by simp [WriteReplies, dumpBufferToFile])).2 0
    (.next rfl (.leave rfl))).mpr (by decide)

/-- A failure of the first `write` is reported as success. -/
theorem dumpBufferToFile_misreports :
    (dumpBufferToFile 3).Executes [97, newline]
      [(.writeFile 3 [97, newline], { value := -1, errno := 5 })] 0 ∧
    ¬ WritesWhole 3 [97, newline]
      [(.writeFile 3 [97, newline], { value := -1, errno := 5 })] 0 :=
  ⟨.leave rfl, fun writes => absurd (writes.success.mp rfl) (by decide)⟩

end DumpBuffer

/-! ## `dump_file_to_socket` -/

/-- What the reads of the file and the writes to the socket can answer. -/
def TransferReplies : Call × Reply → Prop
  | (.readFile _ size, reply) =>
      (reply.value = -1 ∧ reply.errno ≠ 0) ∨
        (reply.value = reply.bytes.length ∧ reply.bytes.length ≤ size)
  | (.writeSocket data, reply) =>
      (reply.value = -1 ∧ reply.errno ≠ 0) ∨ (1 ≤ reply.value ∧ reply.value ≤ data.length)
  | _ => True

/-- What is sent is what was read, once and in order, and a failure ends the transfer. -/
structure SendsInOrder (filed : Int) (trace : List (Call × Reply)) (ended : Option Int) : Prop where
  inOrder : sent trace <+: fetched trace
  complete : ended = some 0 → sent trace = fetched trace ∧
    ∃ before reply, trace = before ++ [(.readFile filed tmpBufSize, reply)] ∧ reply.value = 0
  failed : ∀ before event after, trace = before ++ event :: after → event.2.value < 0 →
    after = [] ∧ ∃ retVal, retVal ≠ 0 ∧ ended = some retVal

namespace DumpFile

def unsent : DumpFile → List UInt8
  | .read _ => []
  | .write buf writePtr currentChunkSize => (buf.drop writePtr).take currentChunkSize

def Inside : DumpFile → Prop
  | .read buf => buf.length = tmpBufSize
  | .write buf writePtr currentChunkSize =>
      buf.length = tmpBufSize ∧ 0 < currentChunkSize ∧ writePtr + currentChunkSize ≤ tmpBufSize

/-- What was sent and what is still in the buffer are what was read. -/
structure Relays (past : List (Call × Reply)) (state : DumpFile) : Prop where
  inside : state.Inside
  parts : sent past ++ state.unsent = fetched past
  calm : ∀ event ∈ past, 0 ≤ event.2.value

end DumpFile

section DumpFile

variable {filed : Int} {trace past : List (Call × Reply)} {ended : Option Int}
  {state : DumpFile}

theorem DumpFile.Relays.last_of_failed {before after : List (Call × Reply)}
    {event last : Call × Reply} (relays : DumpFile.Relays past state)
    (split : past ++ [last] = before ++ event :: after) (failed : event.2.value < 0) :
    after = [] ∧ event = last := by
  have calm : ∀ event ∈ past, ¬ event.2.value < 0 := fun event membership =>
    Int.not_lt.mpr (relays.calm event membership)
  exact eq_last_of_append_cons calm split failed

theorem DumpFile.Relays.inOrder (relays : DumpFile.Relays past state) :
    sent past <+: fetched past := ⟨state.unsent, relays.parts⟩

theorem DumpFile.Relays.sendsInOrder (relays : DumpFile.Relays past state) :
    SendsInOrder filed past none where
  inOrder := relays.inOrder
  complete ended := by cases ended
  failed before event after split failure := by
    have nonnegative := relays.calm event (by rw [split]; simp)
    omega

theorem DumpFile.Relays.fail {reply : Reply} (relays : DumpFile.Relays past state)
    (failed : reply.value = -1) (error : reply.errno ≠ 0) :
    SendsInOrder filed (past ++ [((dumpFileToSocket filed).call state, reply)])
      (some reply.errno) := by
  refine ⟨?_, fun ended => absurd (Option.some.inj ended) error, ?_⟩
  · cases state with
    | read buf => simp [dumpFileToSocket, failed, relays.inOrder]
    | write buf writePtr currentChunkSize => simp [dumpFileToSocket, failed, relays.inOrder]
  · intro before event after split failure
    exact ⟨(relays.last_of_failed split failure).1, reply.errno, error, rfl⟩

theorem DumpFile.Relays.finish {buf : List UInt8} {reply : Reply}
    (relays : DumpFile.Relays past (.read buf)) (atEnd : reply.value = 0) :
    SendsInOrder filed (past ++ [(.readFile filed tmpBufSize, reply)]) (some 0) := by
  have same : sent past = fetched past := by
    have parts := relays.parts
    rwa [unsent, List.append_nil] at parts
  refine ⟨by simp [atEnd, same], fun _ => ⟨by simp [atEnd, same], past, reply, rfl, atEnd⟩, ?_⟩
  intro before event after split failure
  obtain ⟨rfl, rfl⟩ := relays.last_of_failed split failure
  exact absurd failure (by simp [atEnd])

theorem DumpFile.Relays.calm_append {call : Call} {reply : Reply}
    (relays : DumpFile.Relays past state) (nonnegative : 0 ≤ reply.value) :
    ∀ event ∈ past ++ [(call, reply)], 0 ≤ event.2.value :=
  List.forall_mem_append.mpr ⟨relays.calm, List.forall_mem_singleton.mpr nonnegative⟩

theorem DumpFile.Inside.fetch {buf : List UInt8} {reply : Reply}
    (inside : (DumpFile.read buf).Inside) (some : 0 < reply.value)
    (counted : reply.value = reply.bytes.length) (bounded : reply.bytes.length ≤ tmpBufSize) :
    ∃ state', (dumpFileToSocket filed).resume (.read buf) reply = .next state' ∧
      state'.Inside ∧ state'.unsent = reply.bytes := by
  have bufSize : buf.length = tmpBufSize := inside
  refine ⟨_, if_pos some, ⟨?_, by omega, by omega⟩, ?_⟩
  · rw [List.length_append, List.length_drop]
    omega
  · rw [unsent, List.drop_zero, counted, Int.toNat_natCast, List.take_left]

theorem DumpFile.Inside.send {buf : List UInt8} {writePtr currentChunkSize : Nat} {reply : Reply}
    (inside : (DumpFile.write buf writePtr currentChunkSize).Inside) (some : 1 ≤ reply.value)
    (bounded : reply.value ≤ ((buf.drop writePtr).take currentChunkSize).length) :
    ∃ state', (dumpFileToSocket filed).resume (.write buf writePtr currentChunkSize) reply =
        .next state' ∧ state'.Inside ∧
      ((buf.drop writePtr).take currentChunkSize).take reply.value.toNat ++ state'.unsent =
        (buf.drop writePtr).take currentChunkSize := by
  obtain ⟨bufSize, _, small⟩ := inside
  obtain ⟨count, value⟩ := Int.eq_ofNat_of_zero_le (show 0 ≤ reply.value by omega)
  have counted : reply.value.toNat = count := by omega
  have fits : count ≤ currentChunkSize := by
    have length := List.length_take_le currentChunkSize (buf.drop writePtr)
    omega
  have nonnegative : ¬ reply.value < 0 := by omega
  have pageSize : tmpBufSize = 1024 := rfl
  have advanced : sizeAdd writePtr count = writePtr + count := sizeAdd_of_lt (by omega)
  have rest : sizeSub currentChunkSize count = currentChunkSize - count :=
    sizeSub_of_le fits (by omega)
  have chunk : ((buf.drop writePtr).take currentChunkSize).take count ++
      (buf.drop (writePtr + count)).take (currentChunkSize - count) =
        (buf.drop writePtr).take currentChunkSize := by
    rw [← List.drop_drop, ← List.drop_take, List.take_append_drop]
  rw [counted]
  by_cases short : count < currentChunkSize
  · refine ⟨.write buf (writePtr + count) (currentChunkSize - count), ?_,
      ⟨bufSize, by omega, by omega⟩, chunk⟩
    simp only [dumpFileToSocket, if_neg nonnegative, counted, advanced, rest]
    exact if_pos (Nat.sub_pos_of_lt short)
  · have nothing : currentChunkSize - count = 0 := by omega
    rw [nothing, List.take_zero] at chunk
    refine ⟨.read buf, ?_, bufSize, chunk⟩
    simp only [dumpFileToSocket, if_neg nonnegative, counted, advanced, rest, nothing]
    exact if_neg (Nat.lt_irrefl 0)

theorem dumpFileToSocket_keeps (filed : Int) :
    (dumpFileToSocket filed).Keeps TransferReplies DumpFile.Relays fun past retVal =>
      SendsInOrder filed past (some retVal) := by
  intro past state reply relays replies
  have parts := relays.parts
  cases state with
  | read buf =>
      rcases replies with ⟨failed, error⟩ | ⟨counted, bounded⟩
      · have left : (dumpFileToSocket filed).resume (.read buf) reply = .leave reply.errno := by
          simp [dumpFileToSocket, failed]
        rw [left]
        exact relays.fail failed error
      · by_cases some : 0 < reply.value
        · obtain ⟨state', continued, inside, unsent⟩ :=
            @DumpFile.Inside.fetch filed buf reply relays.inside some counted bounded
          rw [continued]
          refine ⟨inside, ?_, relays.calm_append (Int.le_of_lt some)⟩
          rw [DumpFile.unsent, List.append_nil] at parts
          simp only [dumpFileToSocket, sent_append_readFile, fetched_append_readFile, if_pos some,
            unsent, parts]
        · have atEnd : reply.value = 0 := by omega
          have left : (dumpFileToSocket filed).resume (.read buf) reply = .leave 0 := by
            simp [dumpFileToSocket, atEnd]
          rw [left]
          exact relays.finish atEnd
  | write buf writePtr currentChunkSize =>
      rcases replies with ⟨failed, error⟩ | ⟨some, bounded⟩
      · have left : (dumpFileToSocket filed).resume (.write buf writePtr currentChunkSize) reply =
            .leave reply.errno := by
          simp [dumpFileToSocket, failed]
        rw [left]
        exact relays.fail failed error
      · obtain ⟨state', continued, inside, chunk⟩ :=
          @DumpFile.Inside.send filed buf writePtr currentChunkSize reply relays.inside some bounded
        rw [continued]
        have nonnegative : 0 ≤ reply.value := by omega
        refine ⟨inside, ?_, relays.calm_append nonnegative⟩
        rw [DumpFile.unsent, ← chunk, ← List.append_assoc] at parts
        simp only [dumpFileToSocket, sent_append_writeSocket, fetched_append_writeSocket]
        exact parts

theorem DumpFile.start_relays : DumpFile.Relays [] DumpFile.start where
  inside := List.length_replicate
  parts := rfl
  calm := by simp

/-- `dump_file_to_socket` sends what it reads, at every moment of it and for every
sequence of answers. -/
theorem dumpFileToSocket_sendsInOrder
    (behaves : (dumpFileToSocket filed).Behaves DumpFile.start trace ended)
    (replies : ∀ event ∈ trace, TransferReplies event) : SendsInOrder filed trace ended := by
  have keeps := dumpFileToSocket_keeps filed
  cases ended with
  | none =>
      obtain ⟨last, run⟩ := behaves
      exact (keeps.runs run replies DumpFile.start_relays).sendsInOrder
  | some retVal => exact keeps.executes behaves replies DumpFile.start_relays

/-- Two bytes are read and sent one by one. -/
theorem dumpFileToSocket_sendsInOrder_bytewise : SendsInOrder 3
    [(.readFile 3 tmpBufSize, { value := 2, bytes := [97, 98] }),
      (.writeSocket [97, 98], { value := 1 }), (.writeSocket [98], { value := 1 }),
      (.readFile 3 tmpBufSize, { value := 0 })] (some 0) :=
  dumpFileToSocket_sendsInOrder (.next rfl (.next rfl (.next rfl (.leave rfl))))
    (by simp [TransferReplies, tmpBufSize])

end DumpFile

end Aesd
