import Aesd.Driver.CircularBuffer.Lookup
import Aesd.Server.Connection

/-!
# How a packet is received

`read_str_from_socket` for any sequence of results of the reads and any pattern of
failed allocations.  The block behind `buf_ptr` grows by `chunk_size` whenever less
than a quarter of it is free, so that there is always room for a read; the
terminator that the caller stores behind the packet has no such guarantee.
-/

namespace Aesd

open Loop Reactive

/-! ## What a trace has received -/

/-- The results of the reads, one by one. -/
def receivedPieces : List (Call × Reply) → List (List UInt8) :=
  List.flatMap fun
    | (.readSocket _, reply) => if 0 < reply.value then [reply.bytes] else []
    | _ => []

def allocatedBlock : List (Call × Reply) → Int × Nat :=
  List.foldl (fun block event =>
    match event with
    | (.realloc _ size, reply) => if reply.value = 0 then block else (reply.value, size)
    | _ => block) (0, 0)

def freedBlocks : List (Call × Reply) → List Int :=
  List.flatMap fun
    | (.free ptr, _) => [ptr]
    | _ => []

/-- What the allocations and the reads can answer. -/
def ReceiveReplies : Call × Reply → Prop
  | (.realloc _ _, reply) => reply.value = 0 → reply.errno ≠ 0
  | (.readSocket size, reply) =>
      (reply.value = -1 ∧ reply.errno ≠ 0) ∨
        (reply.value = reply.bytes.length ∧ reply.bytes.length ≤ size)
  | _ => True

section Received

variable (past : List (Call × Reply)) (reply : Reply)

@[simp]
theorem receivedPieces_append_readSocket (size : Nat) :
    receivedPieces (past ++ [(.readSocket size, reply)]) =
      receivedPieces past ++ if 0 < reply.value then [reply.bytes] else [] := by
  simp [receivedPieces]

@[simp]
theorem receivedPieces_append_realloc (ptr : Int) (size : Nat) :
    receivedPieces (past ++ [(.realloc ptr size, reply)]) = receivedPieces past := by
  simp [receivedPieces]

@[simp]
theorem receivedPieces_append_free (ptr : Int) :
    receivedPieces (past ++ [(.free ptr, reply)]) = receivedPieces past := by
  simp [receivedPieces]

@[simp]
theorem allocatedBlock_append_readSocket (size : Nat) :
    allocatedBlock (past ++ [(.readSocket size, reply)]) = allocatedBlock past := by
  simp [allocatedBlock]

@[simp]
theorem allocatedBlock_append_realloc (ptr : Int) (size : Nat) :
    allocatedBlock (past ++ [(.realloc ptr size, reply)]) =
      if reply.value = 0 then allocatedBlock past else (reply.value, size) := by
  simp [allocatedBlock]

@[simp]
theorem allocatedBlock_append_free (ptr : Int) :
    allocatedBlock (past ++ [(.free ptr, reply)]) = allocatedBlock past := by
  simp [allocatedBlock]

@[simp]
theorem freedBlocks_append_readSocket (size : Nat) :
    freedBlocks (past ++ [(.readSocket size, reply)]) = freedBlocks past := by
  simp [freedBlocks]

@[simp]
theorem freedBlocks_append_realloc (ptr : Int) (size : Nat) :
    freedBlocks (past ++ [(.realloc ptr size, reply)]) = freedBlocks past := by
  simp [freedBlocks]

@[simp]
theorem freedBlocks_append_free (ptr : Int) :
    freedBlocks (past ++ [(.free ptr, reply)]) = freedBlocks past ++ [ptr] := by
  simp [freedBlocks]

end Received

/-! ## The invariant -/

theorem ReadStr.freeSpace_eq {buffer : SocketBuffer} {allocatedSpace : Nat}
    (enough : buffer.data.length ≤ allocatedSpace)
    (bounded : allocatedSpace ≤ buffer.data.length + 639) :
    ReadStr.freeSpace buffer allocatedSpace = allocatedSpace - buffer.data.length := by
  simp only [ReadStr.freeSpace, sizeSub, toSizeT]
  omega

/-- The block and the bytes in it are those of the trace, and no result of a read has
ended the packet. -/
structure Gathering (past : List (Call × Reply)) (buffer : SocketBuffer)
    (allocatedSpace : Nat) : Prop where
  data : buffer.data = (receivedPieces past).flatten
  block : allocatedBlock past = (buffer.bufPtr, allocatedSpace)
  enough : buffer.data.length ≤ allocatedSpace
  bounded : allocatedSpace ≤ buffer.data.length + 639
  chunks : chunkSize ∣ allocatedSpace
  unfinished : ∀ piece ∈ receivedPieces past, piece.getLast? ≠ some newline
  unset : buffer.bufPtr = 0 → allocatedSpace = 0
  kept : freedBlocks past = []

structure Reading (past : List (Call × Reply)) (buffer : SocketBuffer)
    (allocatedSpace : Nat) : Prop extends Gathering past buffer allocatedSpace where
  set : buffer.bufPtr ≠ 0
  room : buffer.data.length + 128 ≤ allocatedSpace

def Receiving (past : List (Call × Reply)) : ReadStr → Prop
  | .resize buffer allocatedSpace =>
      Gathering past buffer allocatedSpace ∧ allocatedSpace < buffer.data.length + 128
  | .read buffer allocatedSpace => Reading past buffer allocatedSpace
  | .release buffer retVal =>
      retVal ≠ 0 ∧ buffer.bufPtr ≠ 0 ∧
        ∃ allocatedSpace, Gathering past buffer allocatedSpace

/-- The packet that was delivered: the last result of a read ended it. -/
structure Delivered (past : List (Call × Reply)) (buffer : SocketBuffer)
    (earlier : List (List UInt8)) (piece : List UInt8) (allocatedSpace : Nat) : Prop where
  pieces : receivedPieces past = earlier ++ [piece]
  data : buffer.data = (receivedPieces past).flatten
  ended : piece.getLast? = some newline
  unfinished : ∀ piece ∈ earlier, piece.getLast? ≠ some newline
  block : allocatedBlock past = (buffer.bufPtr, allocatedSpace)
  set : buffer.bufPtr ≠ 0
  chunks : chunkSize ∣ allocatedSpace
  room : earlier.flatten.length + 128 ≤ allocatedSpace
  bounded : allocatedSpace ≤ earlier.flatten.length + 639
  enough : (receivedPieces past).flatten.length ≤ allocatedSpace
  kept : freedBlocks past = []

/-- Nothing was delivered, and the block was freed if there was one. -/
structure GaveUp (past : List (Call × Reply)) (buffer : SocketBuffer) : Prop where
  unset : buffer = {}
  enough : (receivedPieces past).flatten.length ≤ (allocatedBlock past).2
  freed : freedBlocks past =
    if (allocatedBlock past).1 = 0 then [] else [(allocatedBlock past).1]

def Returned (past : List (Call × Reply)) (returned : Int × SocketBuffer) : Prop :=
  (returned.1 = 0 ∧
    ∃ earlier piece allocatedSpace, Delivered past returned.2 earlier piece allocatedSpace) ∨
  (returned.1 ≠ 0 ∧ GaveUp past returned.2)

/-! ## What ends a packet -/

def FailsReceive : Call × Reply → Prop
  | (.realloc _ _, reply) => reply.value = 0
  | (.readSocket _, reply) => reply.value ≤ 0
  | _ => False

def CompletesPacket : Call × Reply → Prop
  | (.readSocket _, reply) => 0 < reply.value ∧ reply.bytes.getLast? = some newline
  | _ => False

/-- The packet goes on after every call. -/
def GoesOn (past : List (Call × Reply)) : Prop :=
  ∀ event ∈ past, ¬ (FailsReceive event ∨ CompletesPacket event)

/-- Before the return, at most the last call has failed, and then the block is to be freed. -/
def NotStopped (past : List (Call × Reply)) : ReadStr → Prop
  | .resize _ _ | .read _ _ => GoesOn past
  | .release _ retVal =>
      retVal ≠ 0 ∧ ∃ earlier event, past = earlier ++ [event] ∧ GoesOn earlier ∧
        ¬ CompletesPacket event

/-- At the return, the last call has failed or completed the packet, or it is the `free` after
one that failed. -/
def Stopped (past : List (Call × Reply)) (returned : Int × SocketBuffer) : Prop :=
  ∃ earlier event, GoesOn earlier ∧
    ((past = earlier ++ [event] ∧ (FailsReceive event → returned.1 ≠ 0) ∧
        (CompletesPacket event → returned.1 = 0)) ∨
      (returned.1 ≠ 0 ∧ ¬ CompletesPacket event ∧
        ∃ ptr reply, past = earlier ++ [event] ++ [(.free ptr, reply)]))

section Stops

variable {past before after : List (Call × Reply)} {event : Call × Reply} {buffer : SocketBuffer}
  {reply : Reply}

theorem GoesOn.concat (goesOn : GoesOn past)
    (calm : ¬ (FailsReceive event ∨ CompletesPacket event)) : GoesOn (past ++ [event]) :=
  List.forall_mem_append.mpr ⟨goesOn, List.forall_mem_singleton.mpr calm⟩

theorem notStopped_round {allocatedSpace : Nat} (goesOn : GoesOn past) :
    NotStopped past (ReadStr.round buffer allocatedSpace) := by
  unfold ReadStr.round
  split
  · exact goesOn
  · exact goesOn

theorem start_notStopped : NotStopped [] ReadStr.start :=
  notStopped_round fun _ membership => absurd membership List.not_mem_nil

theorem GoesOn.fail {retVal : Int} (goesOn : GoesOn past) (failed : retVal ≠ 0)
    (incomplete : ¬ CompletesPacket event) :
    (ReadStr.fail buffer retVal).Satisfies (NotStopped (past ++ [event]))
      (Stopped (past ++ [event])) := by
  unfold ReadStr.fail
  split
  · exact ⟨failed, past, event, rfl, goesOn, incomplete⟩
  · exact ⟨past, event, goesOn, .inl ⟨rfl, fun _ => failed, fun complete =>
      absurd complete incomplete⟩⟩

theorem readStrFromSocket_stops : readStrFromSocket.Keeps ReceiveReplies NotStopped Stopped := by
  intro past state reply going replies
  cases state with
  | resize buffer allocatedSpace =>
      have goesOn : GoesOn past := going
      by_cases failed : reply.value = 0
      · simp only [readStrFromSocket, if_pos failed]
        exact goesOn.fail (replies failed) id
      · simp only [readStrFromSocket, if_neg failed]
        refine goesOn.concat ?_
        rintro (noMemory | complete)
        · exact failed noMemory
        · exact complete
  | read buffer allocatedSpace =>
      have goesOn : GoesOn past := going
      rcases replies with ⟨failed, error⟩ | ⟨counted, bounded⟩
      · have negative : reply.value < 0 := by omega
        simp only [readStrFromSocket, if_pos negative]
        refine goesOn.fail error ?_
        rintro ⟨some, _⟩
        omega
      · have nonnegative : ¬ reply.value < 0 := by omega
        simp only [readStrFromSocket, if_neg nonnegative]
        by_cases atEnd : reply.value = 0
        · simp only [if_pos atEnd]
          refine goesOn.fail (by decide) ?_
          rintro ⟨some, _⟩
          omega
        · have received : 0 < reply.value := by omega
          have nonempty : reply.bytes ≠ [] := List.ne_nil_of_length_pos (by omega)
          simp only [if_neg atEnd, List.getLast?_append_of_ne_nil _ nonempty]
          by_cases ends : reply.bytes.getLast? = Option.some newline
          · simp only [if_pos ends]
            refine ⟨past, _, goesOn, .inl ⟨rfl, ?_, fun _ => rfl⟩⟩
            intro failed
            exact absurd received (Int.not_lt.mpr failed)
          · simp only [if_neg ends]
            apply notStopped_round
            refine goesOn.concat ?_
            rintro (failed | complete)
            · exact absurd received (Int.not_lt.mpr failed)
            · exact ends complete.2
  | release buffer retVal =>
      obtain ⟨failed, earlier, event, rfl, goesOn, incomplete⟩ := going
      exact ⟨earlier, event, goesOn, .inr ⟨failed, incomplete, _, _, rfl⟩⟩

theorem GoesOn.eq_last {last : Call × Reply} (goesOn : GoesOn past)
    (split : past ++ [last] = before ++ event :: after)
    (stops : FailsReceive event ∨ CompletesPacket event) : after = [] ∧ event = last :=
  eq_last_of_append_cons goesOn split stops

theorem GoesOn.eq_last_of_free {last : Call × Reply} {ptr : Int} (goesOn : GoesOn past)
    (split : past ++ [last] ++ [(.free ptr, reply)] = before ++ event :: after)
    (stops : FailsReceive event ∨ CompletesPacket event) :
    after = [(.free ptr, reply)] ∧ event = last := by
  rcases List.eq_nil_or_concat after with rfl | ⟨others, other, rfl⟩
  · have same := (List.append_inj' split rfl).2
    rw [← (List.cons.inj same).1] at stops
    exact absurd stops (by simp [FailsReceive, CompletesPacket])
  · rw [List.concat_eq_append, ← List.cons_append, ← List.append_assoc] at split
    obtain ⟨earlier, freed⟩ := List.append_inj' split rfl
    obtain ⟨rfl, rfl⟩ := goesOn.eq_last earlier stops
    exact ⟨by rw [List.concat_eq_append, List.nil_append, freed], rfl⟩

/-- A moment before the return: no packet is complete, and only the last call can have failed. -/
theorem NotStopped.last {state : ReadStr} (going : NotStopped past state)
    (split : past = before ++ event :: after) :
    ¬ CompletesPacket event ∧ (FailsReceive event → after = []) := by
  have within : event ∈ past := by
    rw [split]
    exact List.mem_append_right _ List.mem_cons_self
  cases state with
  | resize _ _ | read _ _ =>
      have calm := not_or.mp (going event within)
      exact ⟨calm.2, fun failed => absurd failed calm.1⟩
  | release buffer retVal =>
      obtain ⟨_, earlier, last, rfl, goesOn, incomplete⟩ := going
      refine ⟨fun complete => ?_, fun failed => (goesOn.eq_last split (.inl failed)).1⟩
      obtain ⟨_, rfl⟩ := goesOn.eq_last split (.inr complete)
      exact incomplete complete

theorem Stopped.completes {returned : Int × SocketBuffer} (stopped : Stopped past returned)
    (split : past = before ++ event :: after) (complete : CompletesPacket event) :
    after = [] ∧ returned.1 = 0 := by
  obtain ⟨earlier, last, goesOn, ⟨rfl, _, delivers⟩ | ⟨_, incomplete, ptr, reply, rfl⟩⟩ := stopped
  · obtain ⟨nothing, rfl⟩ := goesOn.eq_last split (.inr complete)
    exact ⟨nothing, delivers complete⟩
  · obtain ⟨_, rfl⟩ := goesOn.eq_last_of_free split (.inr complete)
    exact absurd complete incomplete

/-- After a failure there is at most the release of the block. -/
theorem Stopped.stops {returned : Int × SocketBuffer} (stopped : Stopped past returned)
    (split : past = before ++ event :: after) (failed : FailsReceive event) :
    (after = [] ∨ ∃ ptr reply, after = [(.free ptr, reply)]) ∧ returned.1 ≠ 0 := by
  obtain ⟨earlier, last, goesOn, ⟨rfl, fails, _⟩ | ⟨nonzero, _, ptr, reply, rfl⟩⟩ := stopped
  · obtain ⟨nothing, rfl⟩ := goesOn.eq_last split (.inl failed)
    exact ⟨.inl nothing, fails failed⟩
  · obtain ⟨freed, _⟩ := goesOn.eq_last_of_free split (.inl failed)
    exact ⟨.inr ⟨ptr, reply, freed⟩, nonzero⟩

end Stops

section Steps

variable {past : List (Call × Reply)} {buffer : SocketBuffer} {allocatedSpace : Nat}
  {reply : Reply}

theorem Gathering.round (gathering : Gathering past buffer allocatedSpace) :
    Receiving past (ReadStr.round buffer allocatedSpace) := by
  have enough := gathering.enough
  have quarter : chunkSize >>> 2 = 128 := rfl
  rw [ReadStr.round, ReadStr.freeSpace_eq enough gathering.bounded, quarter]
  split
  · exact ⟨gathering, by omega⟩
  · have room : buffer.data.length + 128 ≤ allocatedSpace := by omega
    refine ⟨gathering, fun unset => ?_, room⟩
    have nothing := gathering.unset unset
    omega

theorem start_receiving : Receiving [] ReadStr.start :=
  Gathering.round ⟨rfl, rfl, Nat.le_refl 0, Nat.zero_le _, Nat.dvd_zero _, by simp [receivedPieces],
    fun _ => rfl, rfl⟩

theorem Gathering.fail {retVal : Int} (gathering : Gathering past buffer allocatedSpace)
    (failed : retVal ≠ 0) :
    (ReadStr.fail buffer retVal).Satisfies (Receiving past) (Returned past) := by
  by_cases unset : buffer.bufPtr = 0
  · rw [ReadStr.fail, if_neg (not_not.mpr unset)]
    refine .inr ⟨failed, rfl, ?_, ?_⟩
    · rw [gathering.block, ← gathering.data]
      exact gathering.enough
    · rw [gathering.block, if_pos unset, gathering.kept]
  · rw [ReadStr.fail, if_pos unset]
    exact ⟨failed, unset, allocatedSpace, gathering⟩

theorem Gathering.idle {call : Call} (gathering : Gathering past buffer allocatedSpace)
    (pieces : receivedPieces (past ++ [(call, reply)]) = receivedPieces past)
    (block : allocatedBlock (past ++ [(call, reply)]) = allocatedBlock past)
    (kept : freedBlocks (past ++ [(call, reply)]) = freedBlocks past) :
    Gathering (past ++ [(call, reply)]) buffer allocatedSpace where
  data := by rw [pieces, gathering.data]
  block := by rw [block, gathering.block]
  enough := gathering.enough
  bounded := gathering.bounded
  chunks := gathering.chunks
  unfinished := by
    rw [pieces]
    exact gathering.unfinished
  unset := gathering.unset
  kept := by rw [kept, gathering.kept]

theorem Gathering.grow {ptr : Int} (gathering : Gathering past buffer allocatedSpace)
    (small : allocatedSpace < buffer.data.length + 128) (allocated : reply.value ≠ 0) :
    Reading (past ++ [(.realloc ptr (allocatedSpace + chunkSize), reply)])
      { buffer with bufPtr := reply.value } (allocatedSpace + chunkSize) := by
  have enough := gathering.enough
  have chunk : chunkSize = 512 := rfl
  refine ⟨⟨?_, ?_, ?_, ?_, ?_, ?_, ?_, ?_⟩, allocated, ?_⟩
  · rw [receivedPieces_append_realloc, gathering.data]
  · rw [allocatedBlock_append_realloc, if_neg allocated]
  · dsimp only
    omega
  · dsimp only
    omega
  · exact Nat.dvd_add gathering.chunks (Nat.dvd_refl _)
  · rw [receivedPieces_append_realloc]
    exact gathering.unfinished
  · exact fun unset => absurd unset allocated
  · rw [freedBlocks_append_realloc, gathering.kept]
  · dsimp only
    omega

theorem Reading.gather {size : Nat} (reading : Reading past buffer allocatedSpace)
    (some : 0 < reply.value) (fits : buffer.data.length + reply.bytes.length ≤ allocatedSpace)
    (goesOn : reply.bytes.getLast? ≠ Option.some newline) :
    Gathering (past ++ [(.readSocket size, reply)])
      { buffer with data := buffer.data ++ reply.bytes } allocatedSpace where
  data := by
    rw [receivedPieces_append_readSocket, if_pos some, List.flatten_append, ← reading.data]
    simp
  block := by rw [allocatedBlock_append_readSocket, reading.block]
  enough := by rwa [List.length_append]
  bounded := by
    have bounded := reading.bounded
    rw [List.length_append]
    omega
  chunks := reading.chunks
  unfinished := by
    rw [receivedPieces_append_readSocket, if_pos some]
    exact List.forall_mem_append.mpr ⟨reading.unfinished, List.forall_mem_singleton.mpr goesOn⟩
  unset unset := absurd unset reading.set
  kept := by rw [freedBlocks_append_readSocket, reading.kept]

theorem Reading.deliver {size : Nat} (reading : Reading past buffer allocatedSpace)
    (some : 0 < reply.value) (fits : buffer.data.length + reply.bytes.length ≤ allocatedSpace)
    (ends : reply.bytes.getLast? = Option.some newline) :
    Delivered (past ++ [(.readSocket size, reply)])
      { buffer with data := buffer.data ++ reply.bytes } (receivedPieces past) reply.bytes
      allocatedSpace where
  pieces := by rw [receivedPieces_append_readSocket, if_pos some]
  data := by
    rw [receivedPieces_append_readSocket, if_pos some, List.flatten_append, ← reading.data]
    simp
  ended := ends
  unfinished := reading.unfinished
  block := by rw [allocatedBlock_append_readSocket, reading.block]
  set := reading.set
  chunks := reading.chunks
  room := by
    rw [← reading.data]
    exact reading.room
  bounded := by
    rw [← reading.data]
    exact reading.bounded
  enough := by
    rw [receivedPieces_append_readSocket, if_pos some, List.flatten_append, ← reading.data]
    simpa using fits
  kept := by rw [freedBlocks_append_readSocket, reading.kept]

theorem Reading.step (reading : Reading past buffer allocatedSpace)
    (replies : ReceiveReplies (readStrFromSocket.call (.read buffer allocatedSpace), reply)) :
    (readStrFromSocket.resume (.read buffer allocatedSpace) reply).Satisfies
      (Receiving (past ++ [(readStrFromSocket.call (.read buffer allocatedSpace), reply)]))
      (Returned (past ++ [(readStrFromSocket.call (.read buffer allocatedSpace), reply)])) := by
  have idle (nothing : ¬ 0 < reply.value) :
      Gathering (past ++ [(readStrFromSocket.call (.read buffer allocatedSpace), reply)]) buffer
        allocatedSpace :=
    reading.toGathering.idle (by simp [readStrFromSocket, nothing]) (by simp [readStrFromSocket])
      (by simp [readStrFromSocket])
  rcases replies with ⟨failed, error⟩ | ⟨counted, bounded⟩
  · have negative : reply.value < 0 := by omega
    simp only [readStrFromSocket, if_pos negative]
    exact (idle (by omega)).fail error
  · have nonnegative : ¬ reply.value < 0 := by omega
    simp only [readStrFromSocket, if_neg nonnegative]
    by_cases atEnd : reply.value = 0
    · simp only [if_pos atEnd]
      exact (idle (by omega)).fail (by decide)
    · have received : 0 < reply.value := by omega
      have nonempty : reply.bytes ≠ [] := List.ne_nil_of_length_pos (by omega)
      have enough := reading.enough
      rw [ReadStr.freeSpace_eq enough reading.bounded] at bounded
      have fits : buffer.data.length + reply.bytes.length ≤ allocatedSpace := by omega
      simp only [if_neg atEnd, List.getLast?_append_of_ne_nil _ nonempty]
      by_cases ends : reply.bytes.getLast? = some newline
      · rw [if_pos ends]
        exact .inl ⟨rfl, _, _, _, reading.deliver received fits ends⟩
      · rw [if_neg ends]
        exact (reading.gather received fits ends).round

theorem readStrFromSocket_keeps :
    readStrFromSocket.Keeps ReceiveReplies Receiving Returned := by
  intro past state reply receiving replies
  cases state with
  | resize buffer allocatedSpace =>
      obtain ⟨gathering, small⟩ := receiving
      by_cases failed : reply.value = 0
      · simp only [readStrFromSocket, if_pos failed]
        exact (gathering.idle (by simp) (by simp [failed]) (by simp)).fail (replies failed)
      · simp only [readStrFromSocket, if_neg failed]
        exact gathering.grow small failed
  | read buffer allocatedSpace => exact Reading.step receiving replies
  | release buffer retVal =>
      obtain ⟨failed, set, allocatedSpace, gathering⟩ := receiving
      refine .inr ⟨failed, rfl, ?_, ?_⟩
      · simp only [readStrFromSocket, receivedPieces_append_free, allocatedBlock_append_free,
          gathering.block, ← gathering.data]
        exact gathering.enough
      · simp only [readStrFromSocket, freedBlocks_append_free, allocatedBlock_append_free,
          gathering.block, gathering.kept, if_neg set, List.nil_append]

end Steps

/-! ## Whole executions -/

/-- What a caller can rely on, at every moment and after the return. -/
structure Assembles (trace : List (Call × Reply)) (ended : Option (Int × SocketBuffer)) :
    Prop where
  space : (receivedPieces trace).flatten.length ≤ (allocatedBlock trace).2
  requests : ∀ before size reply after, trace = before ++ (.readSocket size, reply) :: after →
    (receivedPieces before).flatten.length + size = (allocatedBlock before).2 ∧
      128 ≤ size ∧ size ≤ 639
  delivered : ∀ buffer, ended = some (0, buffer) →
    buffer.data = (receivedPieces trace).flatten ∧ buffer.data.getLast? = some newline ∧
      (∀ piece ∈ (receivedPieces trace).dropLast, piece.getLast? ≠ some newline) ∧
      buffer.bufPtr = (allocatedBlock trace).1 ∧ buffer.bufPtr ≠ 0 ∧ freedBlocks trace = []
  completes : ∀ before event after, trace = before ++ event :: after → CompletesPacket event →
    after = [] ∧ ∃ buffer, ended = some (0, buffer)
  stops : ∀ before event after, trace = before ++ event :: after → FailsReceive event →
    (after = [] ∧ ended = none) ∨
      ((after = [] ∨ ∃ ptr reply, after = [(.free ptr, reply)]) ∧
        ∃ retVal buffer, retVal ≠ 0 ∧ ended = some (retVal, buffer))
  failed : ∀ retVal buffer, ended = some (retVal, buffer) → retVal ≠ 0 →
    buffer.bufPtr = 0 ∧ freedBlocks trace =
      if (allocatedBlock trace).1 = 0 then [] else [(allocatedBlock trace).1]

section Executions

variable {trace past : List (Call × Reply)} {ended : Option (Int × SocketBuffer)}
  {buffer : SocketBuffer}

theorem Receiving.space {state : ReadStr} (receiving : Receiving past state) :
    (receivedPieces past).flatten.length ≤ (allocatedBlock past).2 := by
  have ofGathering : ∀ {buffer allocatedSpace}, Gathering past buffer allocatedSpace →
      (receivedPieces past).flatten.length ≤ (allocatedBlock past).2 := by
    intro buffer allocatedSpace gathering
    rw [gathering.block, ← gathering.data]
    exact gathering.enough
  cases state with
  | resize buffer allocatedSpace => exact ofGathering receiving.1
  | read buffer allocatedSpace => exact ofGathering receiving.toGathering
  | release buffer retVal =>
      obtain ⟨_, _, allocatedSpace, gathering⟩ := receiving
      exact ofGathering gathering

theorem Receiving.request {state : ReadStr} {size : Nat} (receiving : Receiving past state)
    (call : readStrFromSocket.call state = .readSocket size) :
    (receivedPieces past).flatten.length + size = (allocatedBlock past).2 ∧
      128 ≤ size ∧ size ≤ 639 := by
  cases state with
  | resize buffer allocatedSpace => cases call
  | release buffer retVal => cases call
  | read buffer allocatedSpace =>
      have reading : Reading past buffer allocatedSpace := receiving
      have enough := reading.enough
      have bounded := reading.bounded
      have room := reading.room
      have request : ReadStr.freeSpace buffer allocatedSpace = size := Call.readSocket.inj call
      rw [ReadStr.freeSpace_eq enough bounded] at request
      rw [reading.block, ← reading.data]
      dsimp only
      omega

theorem Returned.delivered (returned : Returned trace (0, buffer)) :
    ∃ earlier piece allocatedSpace, Delivered trace buffer earlier piece allocatedSpace := by
  rcases returned with ⟨_, delivered⟩ | ⟨failed, _⟩
  · exact delivered
  · exact absurd rfl failed

theorem Returned.gaveUp {retVal : Int} (returned : Returned trace (retVal, buffer))
    (failed : retVal ≠ 0) : GaveUp trace buffer := by
  rcases returned with ⟨succeeded, _⟩ | ⟨_, gaveUp⟩
  · exact absurd succeeded failed
  · exact gaveUp

theorem Returned.space {result : Int × SocketBuffer} (returned : Returned trace result) :
    (receivedPieces trace).flatten.length ≤ (allocatedBlock trace).2 := by
  rcases returned with ⟨_, _, _, _, delivered⟩ | ⟨_, gaveUp⟩
  · rw [delivered.block]
    exact delivered.enough
  · exact gaveUp.enough

theorem Delivered.ends_newline {earlier : List (List UInt8)} {piece : List UInt8}
    {allocatedSpace : Nat} (delivered : Delivered trace buffer earlier piece allocatedSpace) :
    buffer.data.getLast? = some newline := by
  have nonempty : piece ≠ [] := by
    rintro rfl
    exact absurd delivered.ended (by simp)
  rw [delivered.data, delivered.pieces, List.flatten_append, List.flatten_singleton,
    List.getLast?_append_of_ne_nil _ nonempty, delivered.ended]

/-- `read_str_from_socket` assembles what it reads, for every sequence of answers. -/
theorem readStrFromSocket_assembles
    (behaves : readStrFromSocket.Behaves ReadStr.start trace ended)
    (replies : ∀ event ∈ trace, ReceiveReplies event) : Assembles trace ended := by
  have keeps := readStrFromSocket_keeps
  have receiving : ∀ {before state}, readStrFromSocket.Runs ReadStr.start before state →
      (∀ event ∈ before, ReceiveReplies event) → Receiving before state :=
    fun run replies => keeps.runs run replies start_receiving
  have requests (moment : ∀ before call reply after, trace = before ++ (call, reply) :: after →
      ∃ state, readStrFromSocket.Runs ReadStr.start before state ∧
        readStrFromSocket.call state = call) :
      ∀ before size reply after, trace = before ++ (.readSocket size, reply) :: after →
        (receivedPieces before).flatten.length + size = (allocatedBlock before).2 ∧
          128 ≤ size ∧ size ≤ 639 := by
    intro before size reply after split
    obtain ⟨state, run, call⟩ := moment before _ reply after split
    refine (receiving run fun event membership => replies event ?_).request call
    rw [split]
    exact List.mem_append_left _ membership
  cases ended with
  | none =>
      obtain ⟨last, run⟩ := behaves
      have going : NotStopped trace last :=
        readStrFromSocket_stops.runs run replies start_notStopped
      refine ⟨(receiving run replies).space, requests ?_, ?_, ?_, ?_, ?_⟩
      · rintro before call reply after rfl
        exact run.at_call
      · intro buffer returned
        cases returned
      · intro before event after split complete
        exact absurd complete (going.last split).1
      · intro before event after split failed
        exact .inl ⟨(going.last split).2 failed, rfl⟩
      · intro retVal buffer returned
        cases returned
  | some result =>
      have execution : readStrFromSocket.Executes ReadStr.start trace result := behaves
      have returned : Returned trace result := keeps.executes execution replies start_receiving
      have moments : ∀ before call reply after, trace = before ++ (call, reply) :: after →
          ∃ state, readStrFromSocket.Runs ReadStr.start before state ∧
            readStrFromSocket.call state = call := by
        rintro before call reply after rfl
        exact execution.at_call
      have stopped : Stopped trace result :=
        readStrFromSocket_stops.executes execution replies start_notStopped
      refine ⟨returned.space, requests moments, ?_, ?_, ?_, ?_⟩
      · rintro buffer ⟨⟩
        obtain ⟨earlier, piece, allocatedSpace, delivered⟩ := returned.delivered
        refine ⟨delivered.data, delivered.ends_newline, ?_, ?_, delivered.set, delivered.kept⟩
        · rw [delivered.pieces, List.dropLast_concat]
          exact delivered.unfinished
        · rw [delivered.block]
      · intro before event after split complete
        obtain ⟨nothing, delivers⟩ := stopped.completes split complete
        exact ⟨nothing, result.2, by rw [← delivers]⟩
      · intro before event after split failed
        obtain ⟨atMostFreed, nonzero⟩ := stopped.stops split failed
        exact .inr ⟨atMostFreed, result.1, result.2, nonzero, rfl⟩
      · rintro retVal buffer ⟨⟩ failed
        have gaveUp := returned.gaveUp failed
        exact ⟨congrArg SocketBuffer.bufPtr gaveUp.unset, gaveUp.freed⟩

/-- A packet that arrives in two parts. -/
theorem readStrFromSocket_assembles_twoParts : Assembles
    [(.realloc 0 512, { value := 8 }), (.readSocket 512, { value := 1, bytes := [97] }),
      (.readSocket 511, { value := 2, bytes := [98, newline] })]
    (some (0, ⟨8, [97, 98, newline]⟩)) :=
  readStrFromSocket_assembles (.next rfl (.next rfl (.leave rfl))) (by simp [ReceiveReplies])

/-- A delivered packet is shorter than its block exactly if its size is no multiple of
the chunk size or less than a quarter of a chunk came with the last read. -/
theorem readStrFromSocket_roomForTerminator_iff
    (execution : readStrFromSocket.Executes ReadStr.start trace (0, buffer))
    (replies : ∀ event ∈ trace, ReceiveReplies event) :
    buffer.data.length < (allocatedBlock trace).2 ↔
      ¬ (chunkSize ∣ (receivedPieces trace).flatten.length ∧
        chunkSize >>> 2 ≤ ((receivedPieces trace).getLastD []).length) := by
  have returned := readStrFromSocket_keeps.executes execution replies start_receiving
  obtain ⟨earlier, piece, allocatedSpace, delivered⟩ := Returned.delivered returned
  rw [List.nil_append] at delivered
  have room := delivered.room
  have bounded := delivered.bounded
  have enough := delivered.enough
  have chunks := delivered.chunks
  have last : (receivedPieces trace).getLastD [] = piece := by
    rw [delivered.pieces, List.getLastD_concat]
  have length : (receivedPieces trace).flatten.length = earlier.flatten.length + piece.length := by
    rw [delivered.pieces, List.flatten_append, List.flatten_singleton, List.length_append]
  have quarter : chunkSize >>> 2 = 128 := rfl
  have chunk : chunkSize = 512 := rfl
  rw [delivered.block, delivered.data, last, quarter]
  rw [length] at enough ⊢
  rw [chunk] at chunks ⊢
  dsimp only
  omega

/-- A packet of 512 bytes that arrives at once fills its block. -/
theorem readStrFromSocket_noRoomForTerminator :
    ∃ trace buffer, readStrFromSocket.Executes ReadStr.start trace (0, buffer) ∧
      (∀ event ∈ trace, ReceiveReplies event) ∧
      ¬ buffer.data.length < (allocatedBlock trace).2 := by
  obtain ⟨packet, size, ends⟩ : ∃ packet : List UInt8, packet.length = 512 ∧
      packet.getLast? = some newline :=
    ⟨List.replicate 511 97 ++ [newline], by rw [List.length_append, List.length_replicate]; rfl,
      List.getLast?_concat⟩
  refine ⟨[(.realloc 0 512, { value := 8 }),
    (.readSocket 512, { value := 512, bytes := packet })], ⟨8, packet⟩,
    .next rfl (.leave ?_), ?_, ?_⟩
  · simp [readStrFromSocket, ends]
  · simp [ReceiveReplies, size]
  · simp [allocatedBlock, size]

/-- Two bytes leave room. -/
theorem readStrFromSocket_roomForTerminator_twoBytes : ∃ trace buffer,
    readStrFromSocket.Executes ReadStr.start trace (0, buffer) ∧
      buffer.data.length < (allocatedBlock trace).2 := by
  have execution : readStrFromSocket.Executes ReadStr.start
      [(.realloc 0 512, { value := 8 }), (.readSocket 512, { value := 2, bytes := [97, newline] })]
      (0, ⟨8, [97, newline]⟩) := .next rfl (.leave rfl)
  refine ⟨_, _, execution, ?_⟩
  exact (readStrFromSocket_roomForTerminator_iff execution (by simp [ReceiveReplies])).mpr
    (by decide)

end Executions

end Aesd
