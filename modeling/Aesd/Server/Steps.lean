import Aesd.Server.Connection
import Aesd.Server.SeekCommand

/-!
# The steps of a thread none of whose calls fails

`Thread.Precedes` lists everything that such a step can be, with what the reply has
to be for it; `Thread.resume_cases` is the inversion of `thread_run_function` that
the results about such threads start from.
-/

namespace Aesd

open CText Loop Reactive

/-- The replies of calls that succeed. Reads and writes may be short, and a read
returns 0 at the end. -/
def Succeeds : Call × Reply → Prop
  | (.realloc _ _, reply) => reply.value ≠ 0
  | (.free _, _) => True
  | (.readSocket size, reply) | (.readFile _ size, reply) =>
      reply.value = reply.bytes.length ∧ reply.bytes.length ≤ size
  | (.writeSocket data, reply) | (.writeFile _ data, reply) =>
      0 < reply.value ∧ reply.value ≤ data.length ∧ reply.value < 2 ^ 63
  | (.openFile, reply) => 0 ≤ reply.value
  | (.pthreadMutexLock, reply) | (.pthreadMutexUnlock, reply) | (.ioctl _ _, reply)
  | (.close _, reply) => reply.value = 0

instance : DecidablePred Succeeds
  | (.realloc _ _, _) => inferInstanceAs (Decidable (_ ≠ _))
  | (.free _, _) => inferInstanceAs (Decidable True)
  | (.readSocket _, _) | (.readFile _ _, _) => inferInstanceAs (Decidable (_ ∧ _))
  | (.writeSocket _, _) | (.writeFile _ _, _) => inferInstanceAs (Decidable (_ ∧ _ ∧ _))
  | (.openFile, _) => inferInstanceAs (Decidable (_ ≤ _))
  | (.pthreadMutexLock, _) | (.pthreadMutexUnlock, _) | (.ioctl _ _, _) | (.close _, _) =>
      inferInstanceAs (Decidable (_ = _))

def ReadStr.buffer : ReadStr → SocketBuffer
  | .resize buffer _ | .read buffer _ | .release buffer _ => buffer

namespace Thread

/-- The states of a thread none of whose calls has failed. -/
def Healthy : Thread → Prop
  | .readStr (.resize _ _) => True
  | .readStr (.read buffer _) => buffer.bufPtr ≠ 0
  | .readStr (.release _ retVal) => retVal ≠ 0
  | .lock buffer | .openFile buffer | .ioctl buffer _ _ | .dumpBuffer buffer _ _
  | .dumpFile buffer _ _ | .close buffer _ | .unlock buffer | .free buffer => buffer.bufPtr ≠ 0
  | .freeUnlockBreak _ | .unlockBreak | .freeBreak _ => False

end Thread

theorem ReadStr.buffer_round (buffer : SocketBuffer) (allocatedSpace : Nat) :
    (ReadStr.round buffer allocatedSpace).buffer = buffer := by
  unfold ReadStr.round
  split <;> rfl

theorem ReadStr.healthy_round {buffer : SocketBuffer} (set : buffer.bufPtr ≠ 0)
    (allocatedSpace : Nat) : (Thread.readStr (ReadStr.round buffer allocatedSpace)).Healthy := by
  unfold ReadStr.round
  split
  · trivial
  · exact set

theorem Thread.freeBuffer_eq {buffer : SocketBuffer} (set : buffer.bufPtr ≠ 0)
    (freeing : Thread) (otherwise : Flow Thread ThreadEnd) :
    Thread.freeBuffer buffer freeing otherwise = .next freeing := if_pos set

theorem Thread.freeBuffer_satisfies {buffer : SocketBuffer} {freeing : Thread}
    {otherwise : Flow Thread ThreadEnd} {onNext : Thread → Prop} {onLeave : ThreadEnd → Prop}
    (freed : onNext freeing)
    (continued : otherwise.Satisfies onNext onLeave) :
    (Thread.freeBuffer buffer freeing otherwise).Satisfies onNext onLeave := by
  unfold Thread.freeBuffer
  split
  · exact freed
  · exact continued

theorem Thread.dispatch_eq {buffer : SocketBuffer} (set : buffer.bufPtr ≠ 0) (filed : Int) :
    Thread.dispatch buffer filed =
      if HasKey buffer.data then
        match parseSeekto buffer.data with
        | some seekto => .next (.ioctl buffer filed seekto)
        | none => .next (.dumpFile buffer filed DumpFile.start)
      else .next (.dumpBuffer buffer filed buffer.data) := by
  by_cases key : HasKey buffer.data
  · rw [if_pos key]
    exact (if_neg set).trans (if_pos (strstr_ne_none_iff.mpr key))
  · rw [if_neg key]
    exact (if_neg set).trans (if_neg ((not_congr strstr_ne_none_iff).mpr key))

section Steps

variable {reply : Reply}

theorem dumpBufferToFile_resume {filed : Int} {left : List UInt8}
    (succeeds : Succeeds ((dumpBufferToFile filed).call left, reply)) :
    (dumpBufferToFile filed).resume left reply =
      if reply.value.toNat < left.length then .next (left.drop reply.value.toNat)
      else .leave 0 := by
  obtain ⟨positive, -, small⟩ := succeeds
  have wrote : toSizeT reply.value = reply.value.toNat := by
    simp only [toSizeT]
    omega
  have some : ¬ reply.value.toNat ≤ 0 := by omega
  simp only [dumpBufferToFile, wrote, if_neg some]

theorem dumpFileToSocket_resume {filed : Int} {state : DumpFile}
    (succeeds : Succeeds ((dumpFileToSocket filed).call state, reply)) :
    (∃ state', (dumpFileToSocket filed).resume state reply = .next state') ∨
      (∃ buf, state = .read buf ∧ reply.value = 0 ∧
        (dumpFileToSocket filed).resume state reply = .leave 0) := by
  cases state with
  | read buf =>
      have nonnegative : ¬ reply.value < 0 := by
        rw [succeeds.1]
        omega
      by_cases some : 0 < reply.value
      · exact .inl ⟨_, if_pos some⟩
      · exact .inr ⟨buf, rfl, by omega, (if_neg some).trans (if_neg nonnegative)⟩
  | write buf writePtr currentChunkSize =>
      have nonnegative : ¬ reply.value < 0 := by
        have positive := succeeds.1
        omega
      simp only [dumpFileToSocket, if_neg nonnegative]
      split
      · exact .inl ⟨_, rfl⟩
      · exact .inl ⟨_, rfl⟩

namespace Thread

inductive Precedes (reply : Reply) : Thread → Thread → Prop where
  | resize (buffer : SocketBuffer) (allocatedSpace : Nat) :
      Precedes reply (.readStr (.resize buffer allocatedSpace))
        (.readStr (.read { buffer with bufPtr := reply.value } (allocatedSpace + chunkSize)))
  | piece (buffer : SocketBuffer) (allocatedSpace : Nat) : reply.value ≠ 0 →
      (buffer.data ++ reply.bytes).getLast? ≠ some newline →
      Precedes reply (.readStr (.read buffer allocatedSpace))
        (.readStr (ReadStr.round { buffer with data := buffer.data ++ reply.bytes } allocatedSpace))
  | packet (buffer : SocketBuffer) (allocatedSpace : Nat) : reply.value ≠ 0 →
      (buffer.data ++ reply.bytes).getLast? = some newline →
      Precedes reply (.readStr (.read buffer allocatedSpace))
        (.lock { buffer with data := buffer.data ++ reply.bytes })
  | hangUp (buffer : SocketBuffer) (allocatedSpace : Nat) : reply.value = 0 →
      Precedes reply (.readStr (.read buffer allocatedSpace)) (.readStr (.release buffer (-1)))
  | lock (buffer : SocketBuffer) : Precedes reply (.lock buffer) (.openFile buffer)
  | seek (buffer : SocketBuffer) (seekto : AesdSeekto) : HasKey buffer.data →
      parseSeekto buffer.data = some seekto →
      Precedes reply (.openFile buffer) (.ioctl buffer reply.value seekto)
  | noSeek (buffer : SocketBuffer) : HasKey buffer.data → parseSeekto buffer.data = none →
      Precedes reply (.openFile buffer) (.dumpFile buffer reply.value DumpFile.start)
  | line (buffer : SocketBuffer) : ¬ HasKey buffer.data →
      Precedes reply (.openFile buffer) (.dumpBuffer buffer reply.value buffer.data)
  | ioctl (buffer : SocketBuffer) (filed : Int) (seekto : AesdSeekto) :
      Precedes reply (.ioctl buffer filed seekto) (.dumpFile buffer filed DumpFile.start)
  | writePart (buffer : SocketBuffer) (filed : Int) (left : List UInt8) :
      reply.value.toNat < left.length →
      Precedes reply (.dumpBuffer buffer filed left)
        (.dumpBuffer buffer filed (left.drop reply.value.toNat))
  | writeRest (buffer : SocketBuffer) (filed : Int) (left : List UInt8) :
      left.length ≤ reply.value.toNat →
      Precedes reply (.dumpBuffer buffer filed left) (.dumpFile buffer filed DumpFile.start)
  | transfer (buffer : SocketBuffer) (filed : Int) (state state' : DumpFile) :
      (dumpFileToSocket filed).resume state reply = .next state' →
      Precedes reply (.dumpFile buffer filed state) (.dumpFile buffer filed state')
  | transferred (buffer : SocketBuffer) (filed : Int) (buf : List UInt8) : reply.value = 0 →
      Precedes reply (.dumpFile buffer filed (.read buf)) (.close buffer filed)
  | close (buffer : SocketBuffer) (filed : Int) :
      Precedes reply (.close buffer filed) (.unlock buffer)
  | unlock (buffer : SocketBuffer) : Precedes reply (.unlock buffer) (.free buffer)
  | free (buffer : SocketBuffer) : Precedes reply (.free buffer) start

/-- A step keeps the thread healthy, and only the end of the stream ends it. -/
def Proceeds (state : Thread) (reply : Reply) : Prop :=
  (threadRunFunction.resume state reply).Satisfies
    (fun state' => state'.Healthy ∧ Precedes reply state state')
    (fun _ => ∃ buffer retVal, state = .readStr (.release buffer retVal))

/-- A result of the socket completes a packet or is kept for the next one. -/
theorem resume_read {buffer : SocketBuffer} {allocatedSpace : Nat} (nonnegative : ¬ reply.value < 0)
    (nonzero : reply.value ≠ 0) :
    threadRunFunction.resume (.readStr (.read buffer allocatedSpace)) reply =
      if (buffer.data ++ reply.bytes).getLast? = some newline then
        .next (.lock ⟨buffer.bufPtr, buffer.data ++ reply.bytes⟩)
      else
        .next (.readStr (ReadStr.round ⟨buffer.bufPtr, buffer.data ++ reply.bytes⟩
          allocatedSpace)) := by
  by_cases ends : (buffer.data ++ reply.bytes).getLast? = some newline
  · simp only [threadRunFunction, readStrFromSocket, if_neg nonnegative, if_neg nonzero,
      if_pos ends, ne_eq, not_true, if_false]
  · simp only [threadRunFunction, readStrFromSocket, if_neg nonnegative, if_neg nonzero,
      if_neg ends]

theorem readStr_proceeds {state : ReadStr} (healthy : (Thread.readStr state).Healthy)
    (succeeds : Succeeds (readStrFromSocket.call state, reply)) :
    (Thread.readStr state).Proceeds reply := by
  cases state with
  | resize buffer allocatedSpace =>
      have allocated : reply.value ≠ 0 := succeeds
      simp only [Proceeds, threadRunFunction, readStrFromSocket, if_neg allocated]
      exact ⟨allocated, .resize buffer allocatedSpace⟩
  | read buffer allocatedSpace =>
      have set : buffer.bufPtr ≠ 0 := healthy
      have nonnegative : ¬ reply.value < 0 := by
        rw [succeeds.1]
        omega
      by_cases atEnd : reply.value = 0
      · simp only [Proceeds, threadRunFunction, readStrFromSocket, if_neg nonnegative,
          if_pos atEnd, ReadStr.fail, if_pos set]
        exact ⟨show (-1 : Int) ≠ 0 by decide, .hangUp buffer allocatedSpace atEnd⟩
      · rw [Proceeds, resume_read nonnegative atEnd]
        by_cases ends : (buffer.data ++ reply.bytes).getLast? = some newline
        · rw [if_pos ends]
          exact ⟨set, .packet buffer allocatedSpace atEnd ends⟩
        · rw [if_neg ends]
          exact ⟨ReadStr.healthy_round (by exact set) _, .piece buffer allocatedSpace atEnd ends⟩
  | release buffer retVal =>
      have failed : retVal ≠ 0 := healthy
      simp only [Proceeds, threadRunFunction, readStrFromSocket, if_pos failed, freeBuffer,
        ne_eq, not_true, if_false]
      exact ⟨buffer, retVal, rfl⟩

theorem openFile_proceeds {buffer : SocketBuffer} (set : buffer.bufPtr ≠ 0)
    (opened : 0 ≤ reply.value) : (Thread.openFile buffer).Proceeds reply := by
  simp only [Proceeds, threadRunFunction, if_neg (Int.not_lt.mpr opened)]
  rw [dispatch_eq set]
  by_cases key : HasKey buffer.data
  · rw [if_pos key]
    cases parsed : parseSeekto buffer.data with
    | none => exact ⟨set, .noSeek buffer key parsed⟩
    | some seekto => exact ⟨set, .seek buffer seekto key parsed⟩
  · rw [if_neg key]
    exact ⟨set, .line buffer key⟩

theorem dumpBuffer_proceeds {buffer : SocketBuffer} {filed : Int} {left : List UInt8}
    (set : buffer.bufPtr ≠ 0)
    (succeeds : Succeeds ((dumpBufferToFile filed).call left, reply)) :
    (Thread.dumpBuffer buffer filed left).Proceeds reply := by
  simp only [Proceeds, threadRunFunction, dumpBufferToFile_resume succeeds]
  by_cases short : reply.value.toNat < left.length
  · simp only [if_pos short]
    exact ⟨set, .writePart buffer filed left short⟩
  · simp only [if_neg short, ne_eq, not_true, if_false]
    exact ⟨set, .writeRest buffer filed left (Nat.not_lt.mp short)⟩

theorem dumpFile_proceeds {buffer : SocketBuffer} {filed : Int} {state : DumpFile}
    (set : buffer.bufPtr ≠ 0)
    (succeeds : Succeeds ((dumpFileToSocket filed).call state, reply)) :
    (Thread.dumpFile buffer filed state).Proceeds reply := by
  rcases dumpFileToSocket_resume succeeds with ⟨state', continued⟩ | ⟨buf, rfl, atEnd, left⟩
  · simp only [Proceeds, threadRunFunction, continued]
    exact ⟨set, .transfer buffer filed state state' continued⟩
  · simp only [Proceeds, threadRunFunction, left, ne_eq, not_true, if_false]
    exact ⟨set, .transferred buffer filed buf atEnd⟩

theorem resume_cases {state : Thread} (healthy : state.Healthy)
    (succeeds : Succeeds (threadRunFunction.call state, reply)) : state.Proceeds reply := by
  cases state with
  | readStr state => exact readStr_proceeds healthy succeeds
  | lock buffer =>
      have locked : ¬ reply.value ≠ 0 := fun failed => failed succeeds
      simp only [Proceeds, threadRunFunction, if_neg locked]
      exact ⟨healthy, .lock buffer⟩
  | openFile buffer => exact openFile_proceeds healthy succeeds
  | ioctl buffer filed seekto =>
      have done : ¬ reply.value ≠ 0 := fun failed => failed succeeds
      simp only [Proceeds, threadRunFunction, if_neg done]
      exact ⟨healthy, .ioctl buffer filed seekto⟩
  | dumpBuffer buffer filed left => exact dumpBuffer_proceeds healthy succeeds
  | dumpFile buffer filed state => exact dumpFile_proceeds healthy succeeds
  | close buffer filed =>
      have closed : ¬ reply.value < 0 := by
        rw [show reply.value = 0 from succeeds]
        decide
      simp only [Proceeds, threadRunFunction, if_neg closed]
      exact ⟨healthy, .close buffer filed⟩
  | unlock buffer =>
      have unlocked : ¬ reply.value ≠ 0 := fun failed => failed succeeds
      simp only [Proceeds, threadRunFunction, if_neg unlocked, freeBuffer_eq healthy]
      exact ⟨healthy, .unlock buffer⟩
  | free buffer => exact ⟨trivial, .free buffer⟩
  | freeUnlockBreak buffer => exact healthy.elim
  | unlockBreak => exact healthy.elim
  | freeBreak buffer => exact healthy.elim

end Thread

end Steps

end Aesd
