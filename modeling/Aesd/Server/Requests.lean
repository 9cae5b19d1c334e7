import Aesd.Server.Session
import Aesd.Server.Transfer
import Mathlib.Data.List.ModifyLast

/-!
# Requests and replies of a connection

A packet is a request: a line for the device, or a seek command.  It is executed by
the `write` or the `ioctl` that it leads to, and its reply is what is sent from then
on up to the next request.  `Progress` relates the calls of a connection in which
nothing fails to the state that its thread is in.
-/

namespace Aesd

open CText Framing Loop Reactive

inductive Request where
  | line (data : List UInt8)
  | seek (seekto : AesdSeekto)
  deriving DecidableEq, Repr

def requestOf (packet : List UInt8) : Request :=
  match seekCommand packet with
  | some seekto => .seek seekto
  | none => .line packet

/-- A packet that is one line, and a seek command if it contains the key. -/
structure IsRequest (packet : List UInt8) : Prop where
  framed : IsFrame newline packet
  known : HasKey packet → ∃ seekto, seekCommand packet = some seekto

theorem IsRequest.parsed {packet : List UInt8} (request : IsRequest packet)
    (key : HasKey packet) :
    ∃ seekto, seekCommand packet = some seekto ∧ parseSeekto packet = some seekto := by
  obtain ⟨seekto, command⟩ := request.known key
  exact ⟨seekto, command, parseSeekto_of_seekCommand command⟩

/-! ## What a trace tells -/

def packets (trace : List (Call × Reply)) : List (List UInt8) :=
  packetsFrom [] (trace.flatMap readResults)

def executed : Call × Reply → List Request
  | (.writeFile _ data, _) => [.line data]
  | (.ioctl _ seekto, _) => [.seek seekto]
  | _ => []

def extendLast (replies : List (List UInt8)) (bytes : List UInt8) : List (List UInt8) :=
  replies.modifyLast (· ++ bytes)

def noteReply (replies : List (List UInt8)) : Call × Reply → List (List UInt8)
  | (.writeFile _ _, _) | (.ioctl _ _, _) => replies ++ [[]]
  | (.writeSocket data, reply) => extendLast replies (data.take reply.value.toNat)
  | _ => replies

def noteFetch (fetches : List (List UInt8)) : Call × Reply → List (List UInt8)
  | (.writeFile _ _, _) | (.ioctl _ _, _) => fetches ++ [[]]
  | (.readFile _ _, reply) => extendLast fetches reply.bytes
  | _ => fetches

/-- For each executed request what the socket has taken since. -/
def replies : List (Call × Reply) → List (List UInt8) := List.foldl noteReply []

/-- For each executed request what was read from the file since. -/
def fetches : List (Call × Reply) → List (List UInt8) := List.foldl noteFetch []

def gathered (received : List UInt8) : List (List UInt8) → List UInt8
  | [] => received
  | piece :: pieces =>
      if (received ++ piece).getLast? = some newline then gathered [] pieces
      else gathered (received ++ piece) pieces

section Traces

variable {past : List (Call × Reply)} {event : Call × Reply}

theorem packetsFrom_append (received : List UInt8) (pieces more : List (List UInt8)) :
    packetsFrom received (pieces ++ more) =
      packetsFrom received pieces ++ packetsFrom (gathered received pieces) more := by
  induction pieces generalizing received with
  | nil => rfl
  | cons piece pieces inductionHypothesis =>
      by_cases ends : (received ++ piece).getLast? = some newline
      · simp only [List.cons_append, packetsFrom, gathered, if_pos ends, inductionHypothesis]
      · simp only [List.cons_append, packetsFrom, gathered, if_neg ends, inductionHypothesis]

theorem gathered_append (received : List UInt8) (pieces more : List (List UInt8)) :
    gathered received (pieces ++ more) = gathered (gathered received pieces) more := by
  induction pieces generalizing received with
  | nil => rfl
  | cons piece pieces inductionHypothesis =>
      by_cases ends : (received ++ piece).getLast? = some newline
      · simp only [List.cons_append, gathered, if_pos ends, inductionHypothesis]
      · simp only [List.cons_append, gathered, if_neg ends, inductionHypothesis]

theorem packets_append (past : List (Call × Reply)) (event : Call × Reply) :
    packets (past ++ [event]) =
      packets past ++ packetsFrom (gathered [] (past.flatMap readResults)) (readResults event) := by
  rw [packets, List.flatMap_append, packetsFrom_append, List.flatMap_singleton]
  rfl

theorem replies_append (past : List (Call × Reply)) (event : Call × Reply) :
    replies (past ++ [event]) = noteReply (replies past) event := by
  simp [replies]

theorem fetches_append (past : List (Call × Reply)) (event : Call × Reply) :
    fetches (past ++ [event]) = noteFetch (fetches past) event := by
  simp [fetches]

end Traces

section Extend

variable {some more : List UInt8} {earlier : List (List UInt8)}

@[simp]
theorem extendLast_nil (replies : List (List UInt8)) : extendLast replies [] = replies := by
  rcases List.eq_nil_or_concat replies with none | ⟨earlier, last, equality⟩
  · rw [none]
    rfl
  · rw [equality, List.concat_eq_append, extendLast, List.modifyLast_concat, List.append_nil]

theorem extendLast_extendLast (replies : List (List UInt8)) (some more : List UInt8) :
    extendLast (extendLast replies some) more = extendLast replies (some ++ more) := by
  rcases List.eq_nil_or_concat replies with none | ⟨earlier, last, equality⟩
  · rw [none]
    rfl
  · simp only [equality, List.concat_eq_append, extendLast, List.modifyLast_concat,
      List.append_assoc]

theorem extendLast_begun (replies : List (List UInt8)) (bytes : List UInt8) :
    extendLast (replies ++ [[]]) bytes = replies ++ [bytes] := by
  rw [extendLast, List.modifyLast_concat, List.nil_append]

end Extend

/-! ## The state of a connection -/

namespace Thread

def unfinished : Thread → List UInt8
  | .readStr state => state.buffer.data
  | _ => []

def awaiting : Thread → List Request
  | .lock buffer | .openFile buffer => [requestOf buffer.data]
  | .ioctl _ _ seekto => [.seek seekto]
  | .dumpBuffer _ _ left => [.line left]
  | _ => []

def unsent : Thread → List UInt8
  | .dumpFile _ _ state => state.unsent
  | _ => []

def Contains (past : List (Call × Reply)) : Thread → Prop
  | .lock buffer | .openFile buffer => buffer.data ∈ packets past
  | .dumpFile _ _ state => state.Inside
  | _ => True

end Thread

structure Progress (past : List (Call × Reply)) (state : Thread) : Prop where
  healthy : state.Healthy
  gathers : state.unfinished = gathered [] (past.flatMap readResults)
  waits : (packets past).map requestOf = past.flatMap executed ++ state.awaiting
  relays : extendLast (replies past) state.unsent = fetches past
  contains : state.Contains past

structure Finished (past : List (Call × Reply)) : Prop where
  served : (packets past).map requestOf = past.flatMap executed
  relayed : replies past = fetches past

/-- A `write` to the device that takes all of its data. -/
def TakesWhole : Call × Reply → Prop
  | (.writeFile _ data, reply) => reply.value = data.length
  | _ => True

/-- A call that receives, executes, reads and sends nothing. -/
structure Quiet (event : Call × Reply) : Prop where
  results : readResults event = []
  executes : executed event = []
  reply : ∀ replies, noteReply replies event = replies
  fetch : ∀ fetches, noteFetch fetches event = fetches

section Progress

variable {past : List (Call × Reply)} {event : Call × Reply} {state state' : Thread}
  {reply : Reply} {buffer : SocketBuffer} {filed : Int}

theorem packets_append_nil (nothing : readResults event = []) :
    packets (past ++ [event]) = packets past := by
  rw [packets_append, nothing, packetsFrom, List.append_nil]

theorem gathered_append_nil (nothing : readResults event = []) :
    gathered [] ((past ++ [event]).flatMap readResults) =
      gathered [] (past.flatMap readResults) := by
  rw [List.flatMap_append, List.flatMap_singleton, nothing, List.append_nil]

theorem executed_append (past : List (Call × Reply)) (event : Call × Reply) :
    (past ++ [event]).flatMap executed = past.flatMap executed ++ executed event := by
  rw [List.flatMap_append, List.flatMap_singleton]

theorem Progress.start : Progress [] Thread.start where
  healthy := trivial
  gathers := rfl
  waits := rfl
  relays := rfl
  contains := trivial

theorem Progress.contains_append (progress : Progress past state)
    (nothing : readResults event = []) : state.Contains (past ++ [event]) := by
  have contains := progress.contains
  cases state <;> simp only [Thread.Contains, packets_append_nil nothing] at contains ⊢ <;>
    exact contains

theorem Progress.quiet (progress : Progress past state) (quiet : Quiet event)
    (healthy : state'.Healthy) (gathers : state'.unfinished = state.unfinished)
    (waits : state'.awaiting = state.awaiting) (relays : state'.unsent = state.unsent)
    (contains : state'.Contains (past ++ [event])) : Progress (past ++ [event]) state' where
  healthy := healthy
  gathers := by rw [gathers, progress.gathers, gathered_append_nil quiet.results]
  waits := by
    rw [packets_append_nil quiet.results, executed_append, quiet.executes, List.append_nil, waits]
    exact progress.waits
  relays := by
    rw [replies_append, fetches_append, quiet.reply, quiet.fetch, relays]
    exact progress.relays
  contains := contains

theorem Progress.execute (progress : Progress past state) {request : Request}
    (waiting : state.awaiting = [request]) (idle : state.unfinished = [])
    (relayed : state.unsent = []) (nothing : readResults event = [])
    (executes : executed event = [request])
    (begins : ∀ replies, noteReply replies event = replies ++ [[]])
    (begins' : ∀ fetches, noteFetch fetches event = fetches ++ [[]])
    (set : buffer.bufPtr ≠ 0) :
    Progress (past ++ [event]) (.dumpFile buffer filed DumpFile.start) where
  healthy := set
  gathers := by
    rw [gathered_append_nil nothing, ← progress.gathers, idle]
    rfl
  waits := by
    rw [packets_append_nil nothing, executed_append, executes, progress.waits, waiting]
    exact (List.append_nil _).symm
  relays := by
    have same := progress.relays
    rw [relayed, extendLast_nil] at same
    rw [replies_append, fetches_append, begins, begins', same]
    exact extendLast_nil _
  contains := List.length_replicate

theorem Progress.finish (progress : Progress past state) (quiet : Quiet event)
    (idle : state.awaiting = []) (relayed : state.unsent = []) : Finished (past ++ [event]) where
  served := by
    rw [packets_append_nil quiet.results, executed_append, quiet.executes, progress.waits, idle]
  relayed := by
    have same := progress.relays
    rw [relayed, extendLast_nil] at same
    rw [replies_append, fetches_append, quiet.reply, quiet.fetch, same]

structure Progress.Received (past : List (Call × Reply)) (event : Call × Reply)
    (buffer : SocketBuffer) (bytes : List UInt8) : Prop where
  results : readResults event = [bytes]
  executes : executed event = []
  completes : packets (past ++ [event]) = packets past ++ packetsFrom buffer.data [bytes]
  gathers : gathered [] ((past ++ [event]).flatMap readResults) = gathered buffer.data [bytes]
  waits : (packets past).map requestOf = past.flatMap executed
  relays : replies (past ++ [event]) = fetches (past ++ [event])

theorem Progress.received {allocatedSpace : Nat}
    (progress : Progress past (.readStr (.read buffer allocatedSpace)))
    (nonzero : reply.value ≠ 0) :
    Progress.Received past (threadRunFunction.call (.readStr (.read buffer allocatedSpace)), reply)
      buffer reply.bytes := by
  have gathers : buffer.data = gathered [] (past.flatMap readResults) := progress.gathers
  have results : readResults (threadRunFunction.call (.readStr (.read buffer allocatedSpace)),
      reply) = [reply.bytes] := if_neg nonzero
  have same : extendLast (replies past) [] = fetches past := progress.relays
  refine ⟨results, rfl, ?_, ?_, progress.waits.trans (List.append_nil _), ?_⟩
  · rw [packets_append, results, gathers]
  · rw [List.flatMap_append, List.flatMap_singleton, results, gathered_append, gathers]
  · rw [replies_append, fetches_append]
    exact (extendLast_nil _).symm.trans same

/-- A transfer goes on: the reply grows by what is sent, and never beyond what was read. -/
theorem Progress.transfer {state state' : DumpFile}
    (progress : Progress past (.dumpFile buffer filed state))
    (succeeds : Succeeds ((dumpFileToSocket filed).call state, reply))
    (continued : (dumpFileToSocket filed).resume state reply = .next state') :
    Progress (past ++ [((dumpFileToSocket filed).call state, reply)])
      (.dumpFile buffer filed state') := by
  have inside : state.Inside := progress.contains
  have relays : extendLast (replies past) state.unsent = fetches past := progress.relays
  have noResults := (deviceEffects_dumpFile filed state reply).2
  have noRequest : executed ((dumpFileToSocket filed).call state, reply) = [] := by
    cases state <;> rfl
  have gathers : gathered [] (past.flatMap readResults) = [] := progress.gathers.symm
  have moved : extendLast (replies (past ++ [((dumpFileToSocket filed).call state, reply)]))
      state'.unsent = fetches (past ++ [((dumpFileToSocket filed).call state, reply)]) ∧
        state'.Inside := by
    rw [replies_append, fetches_append]
    cases state with
    | read buf =>
        obtain ⟨counted, bounded⟩ := succeeds
        have some : 0 < reply.value := by
          by_contra nothing
          have nonnegative : ¬ reply.value < 0 := by omega
          simp only [dumpFileToSocket, if_neg nothing, if_neg nonnegative] at continued
          cases continued
        obtain ⟨next, continued', inside', unsent⟩ :=
          @DumpFile.Inside.fetch filed buf reply inside some counted bounded
        cases continued.symm.trans continued'
        rw [DumpFile.unsent, extendLast_nil] at relays
        rw [unsent, ← relays]
        exact ⟨rfl, inside'⟩
    | write buf writePtr currentChunkSize =>
        obtain ⟨some, bounded, -⟩ := succeeds
        obtain ⟨next, continued', inside', chunk⟩ :=
          @DumpFile.Inside.send filed buf writePtr currentChunkSize reply inside some bounded
        cases continued.symm.trans continued'
        rw [DumpFile.unsent, ← chunk, ← extendLast_extendLast] at relays
        exact ⟨relays, inside'⟩
  refine ⟨progress.healthy, ?_, ?_, moved.1, moved.2⟩
  · rw [gathered_append_nil noResults, gathers]
    rfl
  · rw [packets_append_nil noResults, executed_append, noRequest, List.append_nil]
    exact progress.waits

theorem Progress.next (progress : Progress past state)
    (succeeds : Succeeds (threadRunFunction.call state, reply))
    (whole : TakesWhole (threadRunFunction.call state, reply))
    (requests : ∀ packet ∈ packets past, IsRequest packet) (healthy : state'.Healthy)
    (precedes : Thread.Precedes reply state state') :
    Progress (past ++ [(threadRunFunction.call state, reply)]) state' := by
  cases precedes with
  | resize buffer allocatedSpace =>
      exact progress.quiet ⟨rfl, rfl, fun _ => rfl, fun _ => rfl⟩ healthy rfl rfl rfl trivial
  | piece buffer allocatedSpace some goesOn =>
      have received := progress.received some
      have completes := received.completes
      have gathers := received.gathers
      rw [packetsFrom_open goesOn, packetsFrom, List.append_nil] at completes
      rw [gathered, if_neg goesOn, gathered] at gathers
      refine ⟨healthy, ?_, ?_, (extendLast_nil _).trans received.relays, trivial⟩
      · rw [gathers, Thread.unfinished, ReadStr.buffer_round]
      · rw [completes, executed_append, received.executes, List.append_nil, received.waits]
        exact (List.append_nil _).symm
  | packet buffer allocatedSpace some ends =>
      have received := progress.received some
      have completes := received.completes
      have gathers := received.gathers
      rw [packetsFrom_ended ends, packetsFrom] at completes
      rw [gathered, if_pos ends, gathered] at gathers
      refine ⟨healthy, gathers.symm, ?_, (extendLast_nil _).trans received.relays, ?_⟩
      · rw [completes, executed_append, received.executes, List.append_nil, List.map_append,
          received.waits]
        rfl
      · rw [Thread.Contains, completes]
        exact List.mem_append_right _ List.mem_cons_self
  | hangUp buffer allocatedSpace atEnd =>
      have nothing : readResults (threadRunFunction.call (.readStr (.read buffer allocatedSpace)),
          reply) = [] := if_pos atEnd
      exact progress.quiet ⟨nothing, rfl, fun _ => rfl, fun _ => rfl⟩ healthy rfl rfl rfl trivial
  | lock buffer =>
      exact progress.quiet ⟨rfl, rfl, fun _ => rfl, fun _ => rfl⟩ healthy rfl rfl rfl
        (progress.contains_append rfl)
  | seek buffer seekto key parsed =>
      obtain ⟨seekto', command, parsed'⟩ := (requests _ progress.contains).parsed key
      obtain rfl := Option.some.inj (parsed.symm.trans parsed')
      refine progress.quiet ⟨rfl, rfl, fun _ => rfl, fun _ => rfl⟩ healthy rfl ?_ rfl trivial
      simp only [Thread.awaiting, requestOf, command]
  | noSeek buffer key parsed =>
      obtain ⟨seekto, _, parsed'⟩ := (requests _ progress.contains).parsed key
      cases parsed.symm.trans parsed'
  | line buffer noKey =>
      have line : seekCommand buffer.data = none :=
        Option.eq_none_iff_forall_ne_some.mpr fun seekto command =>
          noKey (hasKey_of_seekCommand command)
      refine progress.quiet ⟨rfl, rfl, fun _ => rfl, fun _ => rfl⟩ healthy rfl ?_ rfl trivial
      simp only [Thread.awaiting, requestOf, line]
  | ioctl buffer filed seekto =>
      exact progress.execute rfl rfl rfl rfl rfl (fun _ => rfl) (fun _ => rfl) healthy
  | writePart buffer filed left short =>
      have taken : reply.value = left.length := whole
      omega
  | writeRest buffer filed left _ =>
      exact progress.execute rfl rfl rfl rfl rfl (fun _ => rfl) (fun _ => rfl) healthy
  | transfer buffer filed state state' continued => exact progress.transfer succeeds continued
  | transferred buffer filed buf atEnd =>
      have nothing : reply.bytes = [] := by
        apply List.length_eq_zero_iff.mp
        exact Int.natCast_eq_zero.mp (succeeds.1.symm.trans atEnd)
      refine progress.quiet ⟨rfl, rfl, fun _ => rfl, fun fetches => ?_⟩ healthy rfl rfl rfl trivial
      simp only [threadRunFunction, dumpFileToSocket, noteFetch, nothing, extendLast_nil]
  | close buffer filed | unlock buffer | free buffer =>
      exact progress.quiet ⟨rfl, rfl, fun _ => rfl, fun _ => rfl⟩ healthy rfl rfl rfl trivial

end Progress

end Aesd
