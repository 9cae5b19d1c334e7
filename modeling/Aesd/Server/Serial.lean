import Aesd.Server.System

/-!
# Concurrent connections are served one after the other

The specification serves whole requests: a line becomes the last of at most ten
commands and is answered with the content, a seek command is answered with the
content from the byte that it names on.  The order is the one in which the calls
`write` and `ioctl` are made.  `Consistent` ties the owner of the mutex, the
position of its file and what was read and sent so far to that order.
-/

namespace Aesd

open Concurrency Framing Loop Reactive

/-! ## Requests that are served one by one -/

def commit (commands : List (List UInt8)) : Request → List (List UInt8)
  | .line data => (commands ++ [data]).rtake 10
  | .seek _ => commands

def commitAll : List (List UInt8) → List Request → List (List UInt8) := List.foldl commit

def replyTo (commands : List (List UInt8)) : Request → List UInt8
  | .line data => (commit commands (.line data)).flatten
  | .seek seekto => commands.flatten.drop
      (bytePosition commands seekto.writeCmd.toNat seekto.writeCmdOffset.toNat)

/-- The replies to the requests of several clients. -/
def serveAll (commands : List (List UInt8)) : List (Nat × Request) → List (Nat × List UInt8)
  | [] => []
  | (client, request) :: later =>
      (client, replyTo commands request) :: serveAll (commit commands request) later

section Specification

variable {commands : List (List UInt8)} {client other : Nat}

theorem commitAll_append (commands : List (List UInt8)) (first second : List Request) :
    commitAll commands (first ++ second) = commitAll (commitAll commands first) second :=
  List.foldl_append

theorem serveAll_append (commands : List (List UInt8)) (first second : List (Nat × Request)) :
    serveAll commands (first ++ second) = serveAll commands first ++
      serveAll (commitAll commands (first.map Prod.snd)) second := by
  induction first generalizing commands with
  | nil => rfl
  | cons entry first inductionHypothesis =>
      obtain ⟨client, request⟩ := entry
      rw [List.cons_append, serveAll, inductionHypothesis, serveAll, List.cons_append,
        List.map_cons]
      rfl

theorem own_serveAll_of_ne (different : other ≠ client) (commands : List (List UInt8))
    (requests : List Request) :
    own other (serveAll commands (requests.map (client, ·))) = [] := by
  induction requests generalizing commands with
  | nil => rfl
  | cons request requests inductionHypothesis =>
      rw [List.map_cons, serveAll, ← List.singleton_append, own_append, inductionHypothesis,
        List.append_nil]
      exact own_map_of_ne different [replyTo commands request]

theorem suffix_replyTo (commands : List (List UInt8)) (data : List UInt8) :
    data <:+ replyTo commands (.line data) := by
  have last : (commands ++ [data]).rtake 10 = commands.rtake 9 ++ [data] := by
    rw [List.rtake_concat_succ]
  rw [replyTo, commit, last, List.flatten_append, List.flatten_singleton]
  exact List.suffix_append _ _

end Specification

/-! ## The order of a run -/

def order (trace : List (Nat × (Call × Reply))) : List (Nat × Request) :=
  trace.flatMap fun entry => (executed entry.2).map (entry.1, ·)

theorem order_append (past : List (Nat × (Call × Reply))) (client : Nat)
    (event : Call × Reply) :
    order (past ++ [(client, event)]) = order past ++ (executed event).map (client, ·) := by
  rw [order, List.flatMap_append, List.flatMap_singleton]
  rfl

def awaiting : Option Thread → List Request
  | some state => state.awaiting
  | none => []

/-- A run has done what serving its requests one after the other does. Of the last
reply to a client the rest may be missing as long as it is being transferred. -/
structure Serialised (trace : List (Nat × (Call × Reply))) (server : Server) : Prop where
  executes : ∀ client, (packets (own client trace)).map requestOf =
    own client (order trace) ++ awaiting (server.threads client)
  takes : ∀ entry ∈ trace, TakesWhole entry.2
  commands : server.env.driver.commands = commitAll [] ((order trace).map Prod.snd)
  pending : server.env.driver.pending = []
  replies : ∀ client, ∃ rest,
    extendLast (replies (own client trace)) rest = own client (serveAll [] (order trace)) ∧
    (rest = [] ∨ ∃ buffer filed state,
      server.threads client = some (.dumpFile buffer filed state))

/-! ## The invariant -/

namespace Thread

def Critical : Thread → Prop
  | .openFile _ | .ioctl _ _ _ | .dumpBuffer _ _ _ | .dumpFile _ _ _ | .close _ _
  | .unlock _ => True
  | _ => False

/-- Where the file stands, and how what was read from it makes up the replies. -/
def Reads (env : ServerEnv) (fetched expected : List (List UInt8)) : Thread → Prop
  | .ioctl _ filed _ | .dumpBuffer _ filed _ => env.files filed = some 0 ∧ fetched = expected
  | .dumpFile _ filed _ =>
      ∃ start : Nat, env.files filed = some (start : Int) ∧ start < 2 ^ 63 ∧
        extendLast fetched (env.driver.content.drop start) = expected
  | _ => fetched = expected

end Thread

structure Client (env : ServerEnv) (client : Nat) (past : List (Call × Reply))
    (expected : List (List UInt8)) (state : Thread) : Prop where
  progress : Progress past state
  holds : env.mutex.owner = some client ↔ state.Critical
  reads : state.Reads env (fetches past) expected

structure Gone (env : ServerEnv) (client : Nat) (past : List (Call × Reply))
    (expected : List (List UInt8)) : Prop where
  finished : Finished past
  free : env.mutex.owner ≠ some client
  reads : fetches past = expected

def Standing (env : ServerEnv) (client : Nat) (past : List (Call × Reply))
    (expected : List (List UInt8)) : Option Thread → Prop
  | some state => Client env client past expected state
  | none => Gone env client past expected

structure Consistent (past : List (Nat × (Call × Reply))) (server : Server) : Prop where
  settled : server.env.driver.Settled
  commands : server.env.driver.commands = commitAll [] ((order past).map Prod.snd)
  takes : ∀ entry ∈ past, TakesWhole entry.2
  clients : ∀ client, Standing server.env client (own client past)
    (own client (serveAll [] (order past))) (server.threads client)

structure Served (env env' : ServerEnv) (client : Nat) (event : Call × Reply) : Prop where
  takes : TakesWhole event
  settled : env'.driver.Settled
  commands : env'.driver.commands = commitAll env.driver.commands (executed event)
  apart : env' = env ∨
    ∀ other, other ≠ client → env.mutex.owner ≠ some other ∧ env'.mutex.owner ≠ some other

def due (commands : List (List UInt8)) (client : Nat) (expected : List (List UInt8))
    (event : Call × Reply) : List (List UInt8) :=
  expected ++ own client (serveAll commands ((executed event).map (client, ·)))

section Client

variable {env env' : ServerEnv} {client other : Nat} {past : List (Call × Reply)}
  {expected : List (List UInt8)} {event : Call × Reply} {state state' : Thread} {reply : Reply}
  {commands : List (List UInt8)}

theorem due_nil (nothing : executed event = []) :
    due commands client expected event = expected := by
  rw [due, nothing]
  exact List.append_nil _

theorem due_singleton {request : Request} (executes : executed event = [request]) :
    due commands client expected event = expected ++ [replyTo commands request] := by
  rw [due, executes]
  exact congrArg _ (own_map_self client [replyTo commands request])

/-- The others see nothing of a call of a thread that has, takes or leaves the mutex,
or that only concerns itself. -/
theorem Standing.apart {state? : Option Thread} (standing : Standing env other past expected state?)
    (apart : env' = env ∨
      (env.mutex.owner ≠ some other ∧ env'.mutex.owner ≠ some other)) :
    Standing env' other past expected state? := by
  rcases apart with rfl | ⟨notBefore, notAfter⟩
  · exact standing
  · cases state? with
    | none => exact ⟨standing.finished, notAfter, standing.reads⟩
    | some state =>
        have outside : ¬ state.Critical := mt standing.holds.mpr notBefore
        refine ⟨standing.progress, iff_of_false notAfter outside, ?_⟩
        have reads := standing.reads
        cases state with
        | openFile _ | ioctl _ _ _ | dumpBuffer _ _ _ | dumpFile _ _ _ | close _ _ | unlock _ =>
            exact absurd trivial outside
        | readStr _ | lock _ | free _ | freeUnlockBreak _ | unlockBreak | freeBreak _ => exact reads

/-- A call of the thread with the mutex does not concern the others. -/
theorem apart_of_owner (owner : env.mutex.owner = some client)
    (owner' : env'.mutex.owner = some client ∨ env'.mutex.owner = none) (other : Nat)
    (different : other ≠ client) :
    env.mutex.owner ≠ some other ∧ env'.mutex.owner ≠ some other := by
  have notOther : some client ≠ some other := fun same => different (Option.some.inj same).symm
  refine ⟨owner ▸ notOther, ?_⟩
  rcases owner' with kept | released
  · exact kept ▸ notOther
  · rw [released]
    exact (Option.some_ne_none other).symm

theorem Progress.line {buffer : SocketBuffer} {filed : Int} {left : List UInt8}
    (progress : Progress past (.dumpBuffer buffer filed left))
    (requests : ∀ packet ∈ packets past, IsRequest packet) : IsFrame newline left := by
  have waiting : Request.line left ∈ (packets past).map requestOf := by
    rw [progress.waits]
    exact List.mem_append_right _ List.mem_cons_self
  obtain ⟨packet, received, isLine⟩ := List.mem_map.mp waiting
  have same : packet = left := by
    unfold requestOf at isLine
    split at isLine
    · cases isLine
    · exact Request.line.inj isLine
  rw [← same]
  exact (requests packet received).framed

theorem Served.same (settled : env.driver.Settled) (same : env' = env)
    (nothing : executed event = []) (takes : TakesWhole event) : Served env env' client event where
  takes := takes
  settled := by rwa [same]
  commands := by
    rw [same, nothing]
    rfl
  apart := .inl same

theorem Served.files (settled : env'.driver.Settled)
    (same : env'.driver.commands = env.driver.commands)
    (nothing : commitAll env.driver.commands (executed event) = env.driver.commands)
    (takes : TakesWhole event) (owner : env.mutex.owner = some client)
    (owner' : env'.mutex.owner = some client ∨ env'.mutex.owner = none) :
    Served env env' client event where
  takes := takes
  settled := settled
  commands := by rw [same, nothing]
  apart := .inr (apart_of_owner owner owner')

theorem Client.served (here : Client env client past expected state)
    (settled : env.driver.Settled) (requests : ∀ packet ∈ packets past, IsRequest packet)
    (answered : ServerEnv.Answers client (threadRunFunction.call state, reply) env env') :
    Served env env' client (threadRunFunction.call state, reply) := by
  have answer := answered.2
  have owner (critical : state.Critical) : env.mutex.owner = some client := here.holds.mpr critical
  cases state with
  | readStr state => cases state <;> exact .same settled answer rfl trivial
  | lock buffer =>
      obtain ⟨mutex, locked, rfl⟩ := answer
      obtain ⟨free, rfl⟩ := Mutex.lock_eq_some_iff.mp locked
      refine ⟨trivial, settled, rfl, .inr fun other different => ⟨?_, ?_⟩⟩
      · rw [free]
        exact (Option.some_ne_none other).symm
      · exact fun same => different (Option.some.inj same).symm
  | openFile buffer =>
      obtain ⟨_, rfl⟩ := answer
      exact .files settled rfl rfl trivial (owner trivial) (.inl (owner trivial))
  | ioctl buffer filed seekto =>
      obtain ⟨rfl, _⟩ := answered.ioctl settled
      exact .files settled rfl rfl trivial (owner trivial) (.inl (owner trivial))
  | dumpBuffer buffer filed left =>
      obtain ⟨taken, sameMutex, _, settled', commands⟩ :=
        answered.writeFile settled (here.progress.line requests)
      refine ⟨taken, settled', commands, .inr (apart_of_owner (owner trivial) (.inl ?_))⟩
      rw [sameMutex, owner trivial]
  | dumpFile buffer filed state =>
      cases state with
      | read buf =>
          obtain ⟨start, found, small, _⟩ := here.reads
          obtain ⟨_, next, rfl, _⟩ := answered.readFile settled found small (by decide)
          exact .files settled.dump rfl rfl trivial (owner trivial) (.inl (owner trivial))
      | write buf writePtr currentChunkSize => exact .same settled answer rfl trivial
  | close buffer filed =>
      obtain rfl : env' = env.setFile filed none := answer
      exact .files settled rfl rfl trivial (owner trivial) (.inl (owner trivial))
  | unlock buffer =>
      obtain rfl : env' = { env with mutex := env.mutex.unlock client } := answer
      exact .files settled rfl rfl trivial (owner trivial)
        (.inr (Mutex.owner_unlock (owner trivial)))
  | free buffer | freeBreak buffer | freeUnlockBreak buffer =>
      exact .same settled answer rfl trivial
  | unlockBreak => exact here.progress.healthy.elim

theorem fetches_of_quiet (quiet : ∀ fetches, noteFetch fetches event = fetches) :
    fetches (past ++ [event]) = fetches past := by
  rw [fetches_append, quiet]

theorem Client.quiet (here : Client env client past expected state)
    (progress : Progress (past ++ [event]) state') (nothing : executed event = [])
    (fetch : ∀ fetches, noteFetch fetches event = fetches)
    (holds : env'.mutex.owner = some client ↔ state'.Critical)
    (reads : state.Reads env (fetches past) expected → state'.Reads env' (fetches past) expected) :
    Client env' client (past ++ [event]) (due commands client expected event) state' where
  progress := progress
  holds := holds
  reads := by
    rw [due_nil nothing, fetches_of_quiet fetch]
    exact reads here.reads

theorem Client.execute {buffer : SocketBuffer} {filed : Int} {request : Request} {start : Nat}
    (read : fetches past = expected)
    (progress : Progress (past ++ [event]) (.dumpFile buffer filed DumpFile.start))
    (executes : executed event = [request])
    (begins : ∀ fetches, noteFetch fetches event = fetches ++ [[]])
    (owner : env'.mutex.owner = some client) (found : env'.files filed = some (start : Int))
    (small : start < 2 ^ 63) (reply : env'.driver.content.drop start = replyTo commands request) :
    Client env' client (past ++ [event]) (due commands client expected event)
      (.dumpFile buffer filed DumpFile.start) where
  progress := progress
  holds := iff_of_true owner trivial
  reads := by
    refine ⟨start, found, small, ?_⟩
    rw [due_singleton executes, fetches_append, begins, extendLast_begun, reply, read]

theorem Client.fetch {buffer : SocketBuffer} {filed : Int} {buf : List UInt8} {state' : DumpFile}
    (here : Client env client past expected (.dumpFile buffer filed (.read buf)))
    (settled : env.driver.Settled)
    (answered : ServerEnv.Answers client (.readFile filed tmpBufSize, reply) env env')
    (progress : Progress (past ++ [(.readFile filed tmpBufSize, reply)])
      (.dumpFile buffer filed state')) :
    Client env' client (past ++ [(.readFile filed tmpBufSize, reply)])
      (due commands client expected (.readFile filed tmpBufSize, reply))
      (.dumpFile buffer filed state') := by
  obtain ⟨start, found, small, parts⟩ := here.reads
  obtain ⟨_, next, rfl, nextSmall, rest⟩ := answered.readFile settled found small (by decide)
  refine ⟨progress, here.holds, next, ServerEnv.setFile_self _ _ _, nextSmall, ?_⟩
  have fetch : fetches (past ++ [(.readFile filed tmpBufSize, reply)]) =
      extendLast (fetches past) reply.bytes := fetches_append _ _
  rw [due_nil rfl, fetch, extendLast_extendLast, ← parts, rest]
  rfl

theorem Client.fetched {buffer : SocketBuffer} {filed : Int} {buf : List UInt8}
    (here : Client env client past expected (.dumpFile buffer filed (.read buf)))
    (settled : env.driver.Settled)
    (answered : ServerEnv.Answers client (.readFile filed tmpBufSize, reply) env env')
    (progress : Progress (past ++ [(.readFile filed tmpBufSize, reply)]) (.close buffer filed))
    (nothing : reply.bytes = []) :
    Client env' client (past ++ [(.readFile filed tmpBufSize, reply)])
      (due commands client expected (.readFile filed tmpBufSize, reply)) (.close buffer filed) := by
  obtain ⟨start, found, small, parts⟩ := here.reads
  obtain ⟨stored, next, rfl, _⟩ := answered.readFile settled found small (by decide)
  have atEnd : env.driver.content.drop start = [] := by
    rcases List.take_eq_nil_iff.mp (stored.symm.trans nothing) with never | atEnd
    · exact absurd never (by decide)
    · exact atEnd
  rw [atEnd, extendLast_nil] at parts
  have fetch (fetches : List (List UInt8)) :
      noteFetch fetches (.readFile filed tmpBufSize, reply) = fetches := by
    simp only [noteFetch, nothing, extendLast_nil]
  exact here.quiet progress rfl fetch here.holds fun _ => parts

theorem Client.next (here : Client env client past expected state)
    (settled : env.driver.Settled) (requests : ∀ packet ∈ packets past, IsRequest packet)
    (answered : ServerEnv.Answers client (threadRunFunction.call state, reply) env env')
    (progress : Progress (past ++ [(threadRunFunction.call state, reply)]) state')
    (precedes : Thread.Precedes reply state state') :
    Client env' client (past ++ [(threadRunFunction.call state, reply)])
      (due env.driver.commands client expected (threadRunFunction.call state, reply)) state' := by
  have answer := answered.2
  have reads := here.reads
  have owner (critical : state.Critical) : env.mutex.owner = some client := here.holds.mpr critical
  cases precedes with
  | resize _ _ | piece _ _ _ _ | packet _ _ _ _ | hangUp _ _ _ | free _ =>
      obtain rfl : env' = env := answer
      exact here.quiet progress rfl (fun _ => rfl) here.holds id
  | lock buffer =>
      obtain ⟨mutex, locked, rfl⟩ := answer
      obtain ⟨_, rfl⟩ := Mutex.lock_eq_some_iff.mp locked
      exact here.quiet progress rfl (fun _ => rfl) (iff_of_true rfl trivial) id
  | seek buffer seekto key parsed =>
      obtain ⟨_, rfl⟩ := answer
      exact here.quiet progress rfl (fun _ => rfl) here.holds
        fun reads => ⟨env.setFile_self _ _, reads⟩
  | noSeek buffer key parsed =>
      obtain ⟨seekto, _, parsed'⟩ := (requests _ here.progress.contains).parsed key
      cases parsed.symm.trans parsed'
  | line buffer noKey =>
      obtain ⟨_, rfl⟩ := answer
      exact here.quiet progress rfl (fun _ => rfl) here.holds
        fun reads => ⟨env.setFile_self _ _, reads⟩
  | ioctl buffer filed seekto =>
      obtain ⟨rfl, small⟩ := answered.ioctl settled
      exact .execute reads.2 progress rfl (fun _ => rfl) (owner trivial) (env.setFile_self _ _)
        small rfl
  | writePart buffer filed left short =>
      have taken := (answered.writeFile settled (here.progress.line requests)).1
      omega
  | writeRest buffer filed left _ =>
      obtain ⟨_, sameMutex, sameFiles, _, commands⟩ :=
        answered.writeFile settled (here.progress.line requests)
      apply Client.execute reads.2 progress rfl fun _ => rfl
      · rw [sameMutex, owner trivial]
      · rw [sameFiles]
        exact reads.1
      · decide
      · exact congrArg List.flatten commands
  | transfer buffer filed state state' continued =>
      cases state with
      | read buf => exact here.fetch settled answered progress
      | write buf writePtr currentChunkSize =>
          obtain rfl : env' = env := answer
          exact here.quiet progress rfl (fun _ => rfl) here.holds id
  | transferred buffer filed buf atEnd =>
      have nothing : reply.bytes = [] := by
        apply List.length_eq_zero_iff.mp
        exact Int.natCast_eq_zero.mp (answered.1.1.symm.trans atEnd)
      exact here.fetched settled answered progress nothing
  | close buffer filed =>
      obtain rfl : env' = env.setFile filed none := answer
      exact here.quiet progress rfl (fun _ => rfl) here.holds id
  | unlock buffer =>
      obtain rfl : env' = { env with mutex := env.mutex.unlock client } := answer
      refine here.quiet progress rfl (fun _ => rfl) (iff_of_false ?_ not_false) id
      rw [Mutex.owner_unlock (owner trivial)]
      exact (Option.some_ne_none client).symm

theorem Client.after (here : Client env client past expected state)
    (settled : env.driver.Settled) (requests : ∀ packet ∈ packets past, IsRequest packet)
    (answered : ServerEnv.Answers client (threadRunFunction.call state, reply) env env') :
    Standing env' client (past ++ [(threadRunFunction.call state, reply)])
      (due env.driver.commands client expected (threadRunFunction.call state, reply))
      (Shared.after (threadRunFunction.resume state reply)) := by
  have takes := (here.served settled requests answered).takes
  have proceeds := Thread.resume_cases here.progress.healthy answered.1
  rw [Thread.Proceeds] at proceeds
  cases flow : threadRunFunction.resume state reply with
  | next state' =>
      rw [flow] at proceeds
      obtain ⟨healthy, precedes⟩ := proceeds
      have progress := here.progress.next answered.1 takes requests healthy precedes
      exact here.next settled requests answered progress precedes
  | leave ended =>
      rw [flow] at proceeds
      obtain ⟨buffer, retVal, rfl⟩ := proceeds
      obtain rfl : env' = env := answered.2
      have finished : Finished (past ++ [(.free buffer.bufPtr, reply)]) :=
        here.progress.finish ⟨rfl, rfl, fun _ => rfl, fun _ => rfl⟩ rfl rfl
      refine ⟨finished, here.holds.mp, ?_⟩
      rw [due_nil rfl]
      exact (fetches_of_quiet fun _ => rfl).trans here.reads

end Client

section Server

variable {past : List (Nat × (Call × Reply))} {server server' : Server} {task : Nat}
  {event : Call × Reply}

theorem Server.init_consistent : Consistent [] Server.init where
  settled := Driver.init_settled
  commands := rfl
  takes _ membership := absurd membership List.not_mem_nil
  clients client := ⟨Progress.start, iff_of_false (Option.some_ne_none client).symm not_false, rfl⟩

theorem Consistent.step (consistent : Consistent past server)
    (requests : ∀ client, ∀ packet ∈ packets (own client past), IsRequest packet)
    (taken : Server.Step server (task, event) server') :
    Consistent (past ++ [(task, event)]) server' := by
  obtain ⟨state, reply, env, running, rfl, answered, rfl⟩ := Shared.Step.cases taken
  have here := consistent.clients task
  rw [running] at here
  have served := Client.served here consistent.settled (requests task) answered
  have after := Client.after here consistent.settled (requests task) answered
  have commands := served.commands
  rw [consistent.commands, ← commitAll_append] at commands
  refine ⟨served.settled, ?_, ?_, fun client => ?_⟩
  · rw [order_append, List.map_append, commands]
    simp
  · exact List.forall_mem_append.mpr
      ⟨consistent.takes, List.forall_mem_singleton.mpr served.takes⟩
  · rw [order_append, serveAll_append, ← consistent.commands]
    by_cases same : client = task
    · subst same
      rw [own_append_self, own_append]
      simp only [Function.update_self]
      exact after
    · rw [own_append_of_ne same, own_append, own_serveAll_of_ne same, List.append_nil]
      simp only [Function.update_of_ne same]
      apply (consistent.clients client).apart
      exact served.apart.imp id fun apart => apart client same

theorem packets_own_subset (past : List (Nat × (Call × Reply))) (entry : Nat × (Call × Reply))
    (client : Nat) : packets (own client past) ⊆ packets (own client (past ++ [entry])) := by
  obtain ⟨task, event⟩ := entry
  by_cases same : client = task
  · subst same
    rw [own_append_self, packets_append]
    exact List.subset_append_left _ _
  · rw [own_append_of_ne same]
    exact List.Subset.refl _

theorem Server.consistent_of_run {trace : List (Nat × (Call × Reply))}
    (run : Run Server.Step Server.init trace server)
    (requests : ∀ client, ∀ packet ∈ packets (own client trace), IsRequest packet) :
    Consistent trace server := by
  have kept (past : List (Nat × (Call × Reply))) (server : Server) (entry : Nat × (Call × Reply))
      (server' : Server) (consistent : (∀ client, ∀ packet ∈ packets (own client past),
        IsRequest packet) → Consistent past server) (taken : Server.Step server entry server')
      (requests : ∀ client, ∀ packet ∈ packets (own client (past ++ [entry])),
        IsRequest packet) : Consistent (past ++ [entry]) server' := by
    have earlier (client : Nat) : ∀ packet ∈ packets (own client past), IsRequest packet :=
      fun packet received =>
        requests client packet (packets_own_subset past entry client received)
    exact (consistent earlier).step earlier taken
  exact run.history kept (fun _ => Server.init_consistent) requests

theorem Standing.replies {env : ServerEnv} {client : Nat} {past : List (Call × Reply)}
    {expected : List (List UInt8)} {state? : Option Thread}
    (standing : Standing env client past expected state?) :
    ∃ rest, extendLast (replies past) rest = expected ∧
      (rest = [] ∨ ∃ buffer filed state, state? = some (.dumpFile buffer filed state)) := by
  cases state? with
  | none =>
      refine ⟨[], ?_, .inl rfl⟩
      rw [extendLast_nil, standing.finished.relayed, standing.reads]
  | some state =>
      have relays := standing.progress.relays
      have reads := standing.reads
      cases state with
      | dumpFile buffer filed state =>
          obtain ⟨start, _, _, parts⟩ := reads
          refine ⟨state.unsent ++ env.driver.content.drop start, ?_, .inr ⟨_, _, _, rfl⟩⟩
          rw [← extendLast_extendLast, ← parts]
          exact congrArg (extendLast · _) relays
      | ioctl _ _ _ | dumpBuffer _ _ _ => exact ⟨[], relays.trans reads.2, .inl rfl⟩
      | readStr _ | lock _ | openFile _ | close _ _ | unlock _ | free _ | freeUnlockBreak _
      | unlockBreak | freeBreak _ => exact ⟨[], relays.trans reads, .inl rfl⟩

theorem Consistent.serialised (consistent : Consistent past server) : Serialised past server where
  executes client := by
    have served := own_flatMap executed past client
    have standing := consistent.clients client
    rw [order, served]
    cases running : server.threads client with
    | none =>
        rw [running] at standing
        exact standing.finished.served.trans (List.append_nil _).symm
    | some state =>
        rw [running] at standing
        exact standing.progress.waits
  takes := consistent.takes
  commands := consistent.commands
  pending := consistent.settled.pending
  replies client := (consistent.clients client).replies

/-- However the calls of the connections are interleaved, their requests are served as
if they came one after the other, and a line is the end of the reply to it. -/
theorem Server.serialises_requests {trace : List (Nat × (Call × Reply))}
    (run : Run Server.Step Server.init trace server)
    (requests : ∀ client, ∀ packet ∈ packets (own client trace), IsRequest packet) :
    Serialised trace server ∧ ∀ commands data, data <:+ replyTo commands (.line data) :=
  ⟨(Server.consistent_of_run run requests).serialised, suffix_replyTo⟩

/-- The first client has sent a line and got half of the reply, the second one waits
with a seek command. -/
def interleavedCalls : List (Nat × (Call × Reply)) :=
  [(0, (.realloc 0 512, { value := 1 })),
    (1, (.realloc 0 512, { value := 2 })),
    (0, (.readSocket 512, { value := 2, bytes := [97, newline] })),
    (1, (.readSocket 512, { value := 23, bytes := seekLine [48] [49] })),
    (0, (.pthreadMutexLock, { value := 0 })),
    (0, (.openFile, { value := 3 })),
    (0, (.writeFile 3 [97, newline], { value := 2 })),
    (0, (.readFile 3 1024, { value := 2, bytes := [97, newline] })),
    (0, (.writeSocket [97, newline], { value := 1 }))]

theorem Server.serialises_interleaved : ∃ server,
    Run Server.Step Server.init interleavedCalls server ∧
      Serialised interleavedCalls server ∧
      replies (own 0 interleavedCalls) = [[97]] := by
  have run : ∃ server, Run Server.Step Server.init interleavedCalls server :=
    ⟨_, .cons (Shared.Step.taken rfl rfl ⟨by decide, rfl⟩)
      (.cons (Shared.Step.taken rfl rfl ⟨by decide, rfl⟩)
      (.cons (Shared.Step.taken rfl rfl ⟨by decide, rfl⟩)
      (.cons (Shared.Step.taken rfl rfl ⟨by decide, rfl⟩)
      (.cons (Shared.Step.taken rfl rfl ⟨by decide, _, rfl, rfl⟩)
      (.cons (Shared.Step.taken rfl rfl ⟨by decide, rfl, rfl⟩)
      (.cons (Shared.Step.taken rfl rfl ⟨by decide, 6, _, rfl, rfl, by decide, rfl⟩)
      (.cons (Shared.Step.taken rfl rfl ⟨by decide, _, _, _, rfl, rfl, rfl, rfl⟩)
      (.cons (Shared.Step.taken rfl rfl ⟨by decide, rfl⟩) (.nil _)))))))))⟩
  obtain ⟨server, run⟩ := run
  have line : IsRequest [97, newline] :=
    ⟨⟨[97], by decide, rfl⟩, fun key => absurd key (by decide)⟩
  have seek : IsRequest (seekLine [48] [49]) :=
    ⟨⟨seekKey ++ [48, comma, 49], by decide, rfl⟩, fun _ =>
      ⟨_, seekCommand_seekLine (by decide +kernel) (by decide +kernel)⟩⟩
  refine ⟨server, run, (Server.serialises_requests run fun client packet received => ?_).1,
    by decide⟩
  by_cases first : client = 0
  · subst first
    obtain rfl := List.mem_singleton.mp (show packet ∈ [[97, newline]] from received)
    exact line
  · by_cases second : client = 1
    · subst second
      obtain rfl := List.mem_singleton.mp (show packet ∈ [seekLine [48] [49]] from received)
      exact seek
    · have nothing : own client interleavedCalls = [] := by
        simp [own, interleavedCalls, Ne.symm first, Ne.symm second]
      rw [nothing] at received
      exact absurd received List.not_mem_nil

end Server

end Aesd
