import Aesd.Server.Receive
import Aesd.Server.Steps

/-!
# Sessions in which no call fails

A session is a complete execution of a connection thread, from the first read of
the socket to the end of the stream, in which every call returns and succeeds.  What the
device is made to do depends only on the results of the socket reads: they are
gathered into packets, and each packet has its effects (`Session.effects_eq`).
Every way to cut a stream into results of at most 128 bytes has a session
(`exists_session`).
-/

namespace Aesd

open CText Loop Reactive

/-- What a client has the device do, byte by byte. -/
inductive DeviceEffect where
  | write (byte : UInt8)
  | ioctl (seekto : AesdSeekto)
  deriving DecidableEq, Repr

def deviceEffects : Call × Reply → List DeviceEffect
  | (.writeFile _ data, reply) => (data.take reply.value.toNat).map .write
  | (.ioctl _ seekto, _) => [.ioctl seekto]
  | _ => []

def readResults : Call × Reply → List (List UInt8)
  | (.readSocket _, reply) => if reply.value = 0 then [] else [reply.bytes]
  | _ => []

/-- A client sends `stream` and closes the connection. -/
structure Session (stream : List UInt8) (trace : List (Call × Reply)) : Prop where
  executes : ∃ ended, threadRunFunction.Executes Thread.start trace ended
  succeeds : ∀ event ∈ trace, Succeeds event
  stream : (trace.flatMap readResults).flatten = stream

/-! ## Packets -/

/-- The packets that the results of socket reads make up, after `received`. -/
def packetsFrom (received : List UInt8) : List (List UInt8) → List (List UInt8)
  | [] => []
  | piece :: pieces =>
      if (received ++ piece).getLast? = some newline then
        (received ++ piece) :: packetsFrom [] pieces
      else packetsFrom (received ++ piece) pieces

/-- What the thread does with a packet. -/
def packetEffects (packet : List UInt8) : List DeviceEffect :=
  if HasKey packet then (parseSeekto packet).toList.map .ioctl else packet.map .write

def piecesEffects (received : List UInt8) (pieces : List (List UInt8)) : List DeviceEffect :=
  (packetsFrom received pieces).flatMap packetEffects

section Packets

variable {received piece : List UInt8} {pieces : List (List UInt8)}

theorem packetsFrom_ended (ends : (received ++ piece).getLast? = some newline) :
    packetsFrom received (piece :: pieces) = (received ++ piece) :: packetsFrom [] pieces :=
  if_pos ends

theorem packetsFrom_open (goesOn : (received ++ piece).getLast? ≠ some newline) :
    packetsFrom received (piece :: pieces) = packetsFrom (received ++ piece) pieces :=
  if_neg goesOn

theorem piecesEffects_ended (ends : (received ++ piece).getLast? = some newline) :
    piecesEffects received (piece :: pieces) =
      packetEffects (received ++ piece) ++ piecesEffects [] pieces := by
  rw [piecesEffects, packetsFrom_ended ends]
  rfl

theorem piecesEffects_open (goesOn : (received ++ piece).getLast? ≠ some newline) :
    piecesEffects received (piece :: pieces) = piecesEffects (received ++ piece) pieces := by
  rw [piecesEffects, packetsFrom_open goesOn]
  rfl

end Packets

/-! ## What a thread has still to do -/

namespace Thread

def remaining (state : Thread) (pieces : List (List UInt8)) : List DeviceEffect :=
  match state with
  | .readStr state => piecesEffects state.buffer.data pieces
  | .lock buffer | .openFile buffer => packetEffects buffer.data ++ piecesEffects [] pieces
  | .ioctl _ _ seekto => .ioctl seekto :: piecesEffects [] pieces
  | .dumpBuffer _ _ left => left.map .write ++ piecesEffects [] pieces
  | _ => piecesEffects [] pieces

end Thread

section Steps

variable {reply : Reply}

theorem deviceEffects_dumpFile (filed : Int) (state : DumpFile) (reply : Reply) :
    deviceEffects ((dumpFileToSocket filed).call state, reply) = [] ∧
    readResults ((dumpFileToSocket filed).call state, reply) = [] := by
  cases state <;> exact ⟨rfl, rfl⟩

/-- A step keeps the thread healthy, and what it makes the device do is what was to
come first. -/
def Thread.StepSpec (state : Thread) (reply : Reply) : Prop :=
  (threadRunFunction.resume state reply).Satisfies
    (fun state' => state'.Healthy ∧
      ∀ later, state.remaining (readResults (threadRunFunction.call state, reply) ++ later) =
        deviceEffects (threadRunFunction.call state, reply) ++ state'.remaining later)
    (fun _ => state.remaining (readResults (threadRunFunction.call state, reply)) =
      deviceEffects (threadRunFunction.call state, reply))

theorem writeEffects_eq (left : List UInt8) (count : Nat) :
    left.map DeviceEffect.write =
      (left.take count).map .write ++ (left.drop count).map .write := by
  rw [← List.map_append, List.take_append_drop]

theorem Thread.Precedes.remaining_eq {state state' : Thread}
    (precedes : Precedes reply state state') (later : List (List UInt8)) :
    state.remaining (readResults (threadRunFunction.call state, reply) ++ later) =
      deviceEffects (threadRunFunction.call state, reply) ++ state'.remaining later := by
  cases precedes with
  | resize buffer allocatedSpace => rfl
  | piece buffer allocatedSpace some goesOn =>
      simp only [threadRunFunction, readStrFromSocket, readResults, if_neg some]
      simp only [remaining, ReadStr.buffer_round]
      exact piecesEffects_open goesOn
  | packet buffer allocatedSpace some ends =>
      simp only [threadRunFunction, readStrFromSocket, readResults, if_neg some]
      exact piecesEffects_ended ends
  | hangUp buffer allocatedSpace atEnd =>
      simp only [threadRunFunction, readStrFromSocket, readResults, if_pos atEnd]
      rfl
  | seek buffer seekto key parsed =>
      simp only [remaining, packetEffects, if_pos key, parsed]
      rfl
  | noSeek buffer key parsed =>
      simp only [remaining, packetEffects, if_pos key, parsed]
      rfl
  | line buffer noKey =>
      simp only [remaining, packetEffects, if_neg noKey]
      rfl
  | writePart buffer filed left short =>
      simp only [remaining, writeEffects_eq left reply.value.toNat, List.append_assoc]
      rfl
  | writeRest buffer filed left whole =>
      have parts := writeEffects_eq left reply.value.toNat
      rw [List.drop_eq_nil_of_le whole, List.map_nil, List.append_nil] at parts
      simp only [remaining, parts]
      rfl
  | transfer buffer filed state state' continued =>
      obtain ⟨noEffects, noResults⟩ := deviceEffects_dumpFile filed state reply
      simp only [threadRunFunction, noEffects, noResults]
      rfl
  | lock _ | ioctl _ _ _ | transferred _ _ _ _ | close _ _ | unlock _ | free _ => rfl

theorem Thread.resume_spec {state : Thread} (healthy : state.Healthy)
    (succeeds : Succeeds (threadRunFunction.call state, reply)) : state.StepSpec reply := by
  apply (resume_cases healthy succeeds).imp
  · rintro state' ⟨healthy', precedes⟩
    exact ⟨healthy', precedes.remaining_eq⟩
  · rintro _ ⟨buffer, retVal, rfl⟩
    rfl

end Steps

theorem Session.effects_eq {stream : List UInt8} {trace : List (Call × Reply)}
    (session : Session stream trace) :
    trace.flatMap deviceEffects = piecesEffects [] (trace.flatMap readResults) := by
  obtain ⟨ended, executes⟩ := session.executes
  have start : Thread.start.Healthy := trivial
  exact executes.output_eq Thread.Healthy Succeeds readResults deviceEffects Thread.remaining
    (fun _ _ healthy => Thread.resume_spec healthy) session.succeeds start

/-! ## Sessions for given pieces -/

namespace Thread

/-- From this state an execution is possible in which no call fails and the socket
reads give `pieces`. -/
def CanRead (state : Thread) (pieces : List (List UInt8)) : Prop :=
  ∃ trace ended, threadRunFunction.Executes state trace ended ∧
    (∀ event ∈ trace, Succeeds event) ∧ trace.flatMap readResults = pieces

variable {state state' : Thread} {buffer : SocketBuffer} {filed : Int}
  {pieces : List (List UInt8)}

theorem CanRead.next (reply : Reply) (succeeds : Succeeds (threadRunFunction.call state, reply))
    (resumed : threadRunFunction.resume state reply = .next state')
    (later : state'.CanRead pieces) :
    state.CanRead (readResults (threadRunFunction.call state, reply) ++ pieces) := by
  obtain ⟨trace, ended, executes, succeed, results⟩ := later
  refine ⟨_, ended, .next resumed executes, List.forall_mem_cons.mpr ⟨succeeds, succeed⟩, ?_⟩
  rw [List.flatMap_cons, results]

theorem canRead_nil {allocatedSpace : Nat} (set : buffer.bufPtr ≠ 0) :
    (Thread.readStr (.read buffer allocatedSpace)).CanRead [] := by
  have released : (Thread.readStr (.release buffer (-1))).CanRead [] :=
    ⟨[(.free buffer.bufPtr, { value := 0 })], .exitFailure, .leave rfl,
      List.forall_mem_singleton.mpr trivial, rfl⟩
  have atEnd : threadRunFunction.resume (.readStr (.read buffer allocatedSpace)) { value := 0 } =
      .next (.readStr (.release buffer (-1))) := by
    simp [threadRunFunction, readStrFromSocket, ReadStr.fail, set]
  exact CanRead.next { value := 0 } ⟨rfl, Nat.zero_le _⟩ atEnd released

theorem canRead_dumpFile (set : buffer.bufPtr ≠ 0) (later : start.CanRead pieces) :
    (Thread.dumpFile buffer filed DumpFile.start).CanRead pieces := by
  have freed : (Thread.free buffer).CanRead pieces :=
    CanRead.next { value := 0 } trivial rfl later
  have unlocked : (Thread.unlock buffer).CanRead pieces :=
    CanRead.next { value := 0 } rfl (freeBuffer_eq set _ _) freed
  have closed : (Thread.close buffer filed).CanRead pieces :=
    CanRead.next { value := 0 } rfl rfl unlocked
  exact CanRead.next { value := 0 } ⟨rfl, Nat.zero_le _⟩ rfl closed

theorem canRead_dumpBuffer (set : buffer.bufPtr ≠ 0) (later : start.CanRead pieces)
    {left : List UInt8} (nonempty : left ≠ []) :
    (Thread.dumpBuffer buffer filed left).CanRead pieces := by
  induction left with
  | nil => exact absurd rfl nonempty
  | cons byte left inductionHypothesis =>
      have succeeds : Succeeds ((dumpBufferToFile filed).call (byte :: left), { value := 1 }) :=
        ⟨by decide, Int.ofNat_le.mpr (Nat.succ_pos left.length), by decide⟩
      have flow := dumpBufferToFile_resume succeeds
      cases left with
      | nil =>
          have written : threadRunFunction.resume (.dumpBuffer buffer filed [byte])
              { value := 1 } = .next (.dumpFile buffer filed DumpFile.start) := by
            simp [threadRunFunction, flow]
          exact CanRead.next { value := 1 } succeeds written (canRead_dumpFile set later)
      | cons second left =>
          have written : threadRunFunction.resume
              (.dumpBuffer buffer filed (byte :: second :: left)) { value := 1 } = .next (.dumpBuffer buffer filed (second :: left)) := by
            simp [threadRunFunction, flow]
          exact CanRead.next { value := 1 } succeeds written
            (inductionHypothesis (List.cons_ne_nil _ _))

theorem canRead_lock (set : buffer.bufPtr ≠ 0) (nonempty : buffer.data ≠ [])
    (later : start.CanRead pieces) : (Thread.lock buffer).CanRead pieces := by
  have opened : (Thread.openFile buffer).CanRead pieces := by
    have decided := dispatch_eq set 0
    by_cases key : HasKey buffer.data
    · rw [if_pos key] at decided
      cases parsed : parseSeekto buffer.data with
      | some seekto =>
          rw [parsed] at decided
          have sought : (Thread.ioctl buffer 0 seekto).CanRead pieces :=
            CanRead.next { value := 0 } rfl rfl (canRead_dumpFile set later)
          exact CanRead.next { value := 0 } (Int.le_refl 0) decided sought
      | none =>
          rw [parsed] at decided
          exact CanRead.next { value := 0 } (Int.le_refl 0) decided (canRead_dumpFile set later)
    · rw [if_neg key] at decided
      exact CanRead.next { value := 0 } (Int.le_refl 0) decided
        (canRead_dumpBuffer set later nonempty)
  exact CanRead.next { value := 0 } rfl rfl opened

/-- There is room for a piece, and no more than a chunk and a quarter. -/
def Room (data : List UInt8) (allocatedSpace : Nat) : Prop :=
  data.length + 128 ≤ allocatedSpace ∧ allocatedSpace ≤ data.length + 639

theorem canRead_round {allocatedSpace : Nat} (enough : buffer.data.length ≤ allocatedSpace)
    (bounded : allocatedSpace ≤ buffer.data.length + 639)
    (set : buffer.data.length + 128 ≤ allocatedSpace → buffer.bufPtr ≠ 0)
    (later : ∀ bufPtr allocatedSpace', bufPtr ≠ 0 → Room buffer.data allocatedSpace' →
      (Thread.readStr (.read ⟨bufPtr, buffer.data⟩ allocatedSpace')).CanRead pieces) :
    (Thread.readStr (ReadStr.round buffer allocatedSpace)).CanRead pieces := by
  have quarter : chunkSize >>> 2 = 128 := rfl
  rw [ReadStr.round, ReadStr.freeSpace_eq enough bounded, quarter]
  by_cases small : allocatedSpace - buffer.data.length < 128
  · rw [if_pos small]
    have room : Room buffer.data (allocatedSpace + chunkSize) := by
      simp only [Room, chunkSize]
      omega
    have resized : threadRunFunction.resume (.readStr (.resize buffer allocatedSpace))
        { value := 1 } =
          .next (.readStr (.read ⟨1, buffer.data⟩ (allocatedSpace + chunkSize))) := rfl
    exact CanRead.next { value := 1 } Int.one_ne_zero resized (later 1 _ Int.one_ne_zero room)
  · rw [if_neg small]
    have fits : buffer.data.length + 128 ≤ allocatedSpace := by omega
    exact later buffer.bufPtr allocatedSpace (set fits) ⟨fits, bounded⟩

theorem canRead_start
    (later : ∀ bufPtr allocatedSpace, bufPtr ≠ 0 → Room [] allocatedSpace →
      (Thread.readStr (.read ⟨bufPtr, []⟩ allocatedSpace)).CanRead pieces) :
    start.CanRead pieces :=
  canRead_round (Nat.le_refl 0) (Nat.zero_le _) (by decide) later

def received (piece : List UInt8) : Reply := { value := piece.length, bytes := piece }

theorem canRead_pieces {allocatedSpace : Nat} (set : buffer.bufPtr ≠ 0)
    (room : Room buffer.data allocatedSpace)
    (sizes : ∀ piece ∈ pieces, piece ≠ [] ∧ piece.length ≤ 128) :
    (Thread.readStr (.read buffer allocatedSpace)).CanRead pieces := by
  induction pieces generalizing buffer allocatedSpace with
  | nil => exact canRead_nil set
  | cons piece pieces inductionHypothesis =>
      obtain ⟨⟨nonempty, small⟩, others⟩ := List.forall_mem_cons.mp sizes
      obtain ⟨enough, bounded⟩ := room
      have space := ReadStr.freeSpace_eq (Nat.le_trans (Nat.le_add_right _ _) enough) bounded
      have succeeds : Succeeds (threadRunFunction.call (.readStr (.read buffer allocatedSpace)),
          received piece) := by
        refine ⟨rfl, ?_⟩
        rw [space]
        exact Nat.le_trans small (Nat.le_sub_of_add_le' enough)
      have results : readResults (threadRunFunction.call (.readStr (.read buffer allocatedSpace)),
          received piece) = [piece] :=
        if_neg (Int.natCast_ne_zero.mpr (List.length_pos_iff.mpr nonempty).ne')
      have later : ∀ bufPtr data allocatedSpace', bufPtr ≠ 0 → Room data allocatedSpace' →
          (Thread.readStr (.read ⟨bufPtr, data⟩ allocatedSpace')).CanRead pieces :=
        fun bufPtr data _ set room => @inductionHypothesis ⟨bufPtr, data⟩ _ set room others
      have positive := List.length_pos_iff.mpr nonempty
      have nonnegative : ¬ (received piece).value < 0 := Int.not_lt.mpr (Int.natCast_nonneg _)
      have nonzero : (received piece).value ≠ 0 := Int.natCast_ne_zero.mpr positive.ne'
      have resumed := @resume_read (received piece) buffer allocatedSpace nonnegative nonzero
      rw [show (received piece).bytes = piece from rfl] at resumed
      rw [← List.singleton_append, ← results]
      split at resumed
      · apply CanRead.next (received piece) succeeds resumed
        exact canRead_lock set (by simp [nonempty])
          (canRead_start fun bufPtr _ => later bufPtr [] _)
      · apply CanRead.next (received piece) succeeds resumed
        have lengths : (buffer.data ++ piece).length = buffer.data.length + piece.length :=
          List.length_append
        exact canRead_round (by simp only [lengths]; omega) (by simp only [lengths]; omega)
          (fun _ => set) (fun bufPtr _ => later bufPtr _ _)

end Thread

/-- Every way to cut a stream into pieces of at most 128 bytes has a session. -/
theorem exists_session {pieces : List (List UInt8)}
    (sizes : ∀ piece ∈ pieces, piece ≠ [] ∧ piece.length ≤ 128) :
    ∃ trace, Session pieces.flatten trace ∧ trace.flatMap readResults = pieces := by
  obtain ⟨trace, ended, executes, succeeds, results⟩ :=
    Thread.canRead_start fun bufPtr allocatedSpace set room =>
      @Thread.canRead_pieces ⟨bufPtr, []⟩ pieces allocatedSpace set room sizes
  exact ⟨trace, ⟨⟨ended, executes⟩, succeeds, congrArg List.flatten results⟩, results⟩

end Aesd
