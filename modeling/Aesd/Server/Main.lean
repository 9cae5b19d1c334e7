import Aesd.Lib.LinkedList
import Aesd.Server.Shutdown

/-!
# `main` and its list in memory

The accept loop of `main` and `terminate` over the memory that they share: the cells of
the list and its first pointer, store by store, and the blocks that `calloc` returns.
The handlers of the signals can start between any two steps.  The calls of one
iteration are answered together, by `Environment`.  `fault` is an access to a node or a
thread information that has been given back.
-/

namespace Aesd

open Concurrency Interrupts LinkedList

namespace Main

/-- What one iteration of the loop is answered; by `calloc`, whether it returns a block. -/
structure Answers where
  connSocket : Int
  tInfo : Bool
  ipAddress : Bool
  fileName : Bool
  pthreadCreate : Int
  threadId : Nat
  tNode : Bool
  closeListening : Int
  deriving DecidableEq, Repr

/-- The answers in every iteration. The loop closes no socket that it has accepted and joins
no thread, so that they are all different. -/
structure Environment where
  answers : Nat → Answers
  sockets : ∀ first second, first ≠ second → 0 < (answers first).connSocket →
    (answers first).connSocket ≠ (answers second).connSocket
  threads : Function.Injective fun iteration => (answers iteration).threadId

/-- The blocks of an iteration: the thread information, its two strings, and the node. -/
def infoBlock (iteration : Nat) : Nat := 4 * iteration

def ipAddressBlock (iteration : Nat) : Nat := 4 * iteration + 1

def fileNameBlock (iteration : Nat) : Nat := 4 * iteration + 2

def nodeBlock (iteration : Nat) : Nat := 4 * iteration + 3

def Environment.threadInformation (environment : Environment) (iteration : Nat) :
    ThreadInformation where
  address := infoBlock iteration
  threadId := (environment.answers iteration).threadId
  socketd := (environment.answers iteration).connSocket
  ipAddress := some (ipAddressBlock iteration)
  fileName := some (fileNameBlock iteration)

/-- The points of the loop. A failure frees the blocks that are listed and calls `terminate`. -/
inductive MainPoint where
  | accept
  | callocInfo
  | callocIpAddress
  | callocFileName
  | pthreadCreate
  | callocNode
  | storePtr
  | insertNext
  | insertFirst
  | failure (blocks : List Nat)
  | closeListening
  deriving DecidableEq, Repr

inductive Place where
  | head
  | cancel (currentNode : Nat)
  | join (currentNode : Nat)
  | closeSocketd (currentNode : Nat)
  | freeIpAddress (currentNode : Nat)
  | freeFileName (currentNode : Nat)
  | removeHead (currentNode : Nat)
  | freePtr (currentNode : Nat)
  | freeNode (currentNode : Nat)
  | destroyMutex
  | closeServer
  | exit
  deriving DecidableEq, Repr

inductive Point where
  | main (point : MainPoint)
  | terminate (terminationReason : Int) (place : Place)
  | exited (status : Int)
  | fault
  deriving DecidableEq, Repr

/-- The iteration that `main` is in, the list, and what has happened so far: the blocks that
`calloc` has returned, the threads created, and the calls that give something back. -/
structure Memory where
  iteration : Nat := 0
  headNode : Option Nat := none
  nodes : Cells (Option ThreadInformation) := fun _ => none
  blocks : List Nat := []
  created : List ThreadInformation := []
  calls : List TerminateCall := []

def Memory.call (memory : Memory) (calls : List TerminateCall) : Memory :=
  { memory with calls := memory.calls ++ calls }

def Memory.calloc (memory : Memory) (block : Nat) : Memory :=
  { memory with blocks := memory.blocks ++ [block] }

def Memory.store (memory : Memory) (node : Nat)
    (field : Cell (Option ThreadInformation) → Cell (Option ThreadInformation)) : Memory :=
  { memory with nodes := Function.update memory.nodes node ((memory.nodes node).map field) }

/-- One step of the loop. `SLIST_INSERT_HEAD` is two stores. -/
def mainStep (environment : Environment) (memory : Memory) : MainPoint → Point × Memory
  | .accept =>
      if 0 < (environment.answers memory.iteration).connSocket then (.main .callocInfo, memory)
      else (.main .closeListening, memory)
  | .callocInfo =>
      if (environment.answers memory.iteration).tInfo then
        (.main .callocIpAddress, memory.calloc (infoBlock memory.iteration))
      else (.terminate exitFailure .head, memory)
  | .callocIpAddress =>
      if (environment.answers memory.iteration).ipAddress then
        (.main .callocFileName, memory.calloc (ipAddressBlock memory.iteration))
      else (.main (.failure [infoBlock memory.iteration]), memory)
  | .callocFileName =>
      if (environment.answers memory.iteration).fileName then
        (.main .pthreadCreate, memory.calloc (fileNameBlock memory.iteration))
      else
        (.main (.failure [ipAddressBlock memory.iteration, infoBlock memory.iteration]), memory)
  | .pthreadCreate =>
      if (environment.answers memory.iteration).pthreadCreate ≠ 0 then
        (.main (.failure [ipAddressBlock memory.iteration, fileNameBlock memory.iteration,
          infoBlock memory.iteration]), memory)
      else
        (.main .callocNode,
          { memory with
            created := memory.created ++ [environment.threadInformation memory.iteration] })
  | .callocNode =>
      if (environment.answers memory.iteration).tNode then
        (.main .storePtr,
          { memory.calloc (nodeBlock memory.iteration) with
            nodes := Function.update memory.nodes (nodeBlock memory.iteration)
              (some ⟨none, none⟩) })
      else
        (.main (.failure [ipAddressBlock memory.iteration, fileNameBlock memory.iteration,
          infoBlock memory.iteration]), memory)
  | .storePtr =>
      (.main .insertNext, memory.store (nodeBlock memory.iteration) fun cell =>
        { cell with item := some (environment.threadInformation memory.iteration) })
  | .insertNext =>
      (.main .insertFirst, memory.store (nodeBlock memory.iteration) fun cell =>
        { cell with next := memory.headNode })
  | .insertFirst =>
      (.main .accept,
        { memory with
          headNode := some (nodeBlock memory.iteration)
          iteration := memory.iteration + 1 })
  | .failure [] => (.terminate exitFailure .head, memory)
  | .failure (block :: blocks) => (.main (.failure blocks), memory.call [.free block])
  | .closeListening =>
      (.terminate
        (if (environment.answers memory.iteration).closeListening < 0 then exitFailure
          else exitSuccess) .head, memory)

/-- `*current_node->ptr`, if neither has been given back. -/
def Memory.thread (memory : Memory) (currentNode : Nat) : Option ThreadInformation :=
  (memory.nodes currentNode).bind fun cell =>
    cell.item.bind fun info => if .free info.address ∈ memory.calls then none else some info

def Memory.withThread (memory : Memory) (currentNode : Nat)
    (step : ThreadInformation → Point × Memory) : Point × Memory :=
  match memory.thread currentNode with
  | none => (.fault, memory)
  | some info => step info

/-- One step of `terminate`. `SLIST_REMOVE_HEAD` is one store. -/
def terminateStep (reason : Int) (memory : Memory) : Place → Point × Memory
  | .head =>
      match memory.headNode with
      | none => (.terminate reason .destroyMutex, memory)
      | some currentNode => (.terminate reason (.cancel currentNode), memory)
  | .cancel currentNode =>
      memory.withThread currentNode fun info =>
        (.terminate reason (.join currentNode), memory.call [.pthreadCancel info.threadId])
  | .join currentNode =>
      memory.withThread currentNode fun info =>
        (.terminate reason (.closeSocketd currentNode), memory.call [.pthreadJoin info.threadId])
  | .closeSocketd currentNode =>
      memory.withThread currentNode fun info =>
        if info.socketd ≠ 0 then
          (.terminate reason (.freeIpAddress currentNode), memory.call [.close info.socketd])
        else (.terminate reason (.freeFileName currentNode), memory)
  | .freeIpAddress currentNode =>
      memory.withThread currentNode fun info =>
        (.terminate reason (.freeFileName currentNode), memory.call (freeCalls info.ipAddress))
  | .freeFileName currentNode =>
      memory.withThread currentNode fun info =>
        (.terminate reason (.removeHead currentNode), memory.call (freeCalls info.fileName))
  | .removeHead currentNode =>
      match memory.headNode.bind memory.nodes with
      | none => (.fault, memory)
      | some cell =>
          (.terminate reason (.freePtr currentNode), { memory with headNode := cell.next })
  | .freePtr currentNode =>
      memory.withThread currentNode fun info =>
        (.terminate reason (.freeNode currentNode), memory.call [.free info.address])
  | .freeNode currentNode =>
      match memory.nodes currentNode with
      | none => (.fault, memory)
      | some _ =>
          (.terminate reason .head,
            { memory.call [.free currentNode] with
              nodes := Function.update memory.nodes currentNode none })
  | .destroyMutex => (.terminate reason .closeServer, memory.call [.pthreadMutexDestroy])
  | .closeServer => (.terminate reason .exit, memory.call (closeSocket serverSocketDescriptor))
  | .exit => (.exited reason, memory)

/-- The loop, `terminate`, and the handlers of the signals. -/
def server (environment : Environment) : Program Point Memory where
  step
    | .main point, memory => some (mainStep environment memory point)
    | .terminate reason place, memory => some (terminateStep reason memory place)
    | .exited _, _ => none
    | .fault, _ => none
  handler := .terminate exitSuccess .head

def start : Machine TerminationSignal Point Memory where
  point := .main .accept
  memory := {}
  handlers := []
  interrupted := []

/-! ## What an iteration does -/

/-- The thread of the iteration is created. -/
structure Answers.Starts (answers : Answers) : Prop where
  connSocket : 0 < answers.connSocket
  tInfo : answers.tInfo = true
  ipAddress : answers.ipAddress = true
  fileName : answers.fileName = true
  pthreadCreate : answers.pthreadCreate = 0

def Answers.Completes (answers : Answers) : Prop := answers.Starts ∧ answers.tNode = true

def Environment.node (environment : Environment) (iteration : Nat) : ListNode where
  address := nodeBlock iteration
  ptr := environment.threadInformation iteration

/-- The nodes of the first iterations, the latest first. -/
def Environment.connected (environment : Environment) : Nat → List ListNode
  | 0 => []
  | iterations + 1 => environment.node iterations :: environment.connected iterations

def entry (node : ListNode) : Nat × Option ThreadInformation := (node.address, some node.ptr)

/-! ## What holds at every point -/

section Facts

variable {environment : Environment} {memory memory' : Memory} {linked iteration block : Nat}
  {point point' : Point}

theorem mem_connected {node : ListNode} :
    node ∈ environment.connected linked ↔
      ∃ iteration < linked, node = environment.node iteration := by
  induction linked with
  | zero => simp [Environment.connected]
  | succ linked inductionHypothesis =>
      simp only [Environment.connected, List.mem_cons, inductionHypothesis,
        Nat.lt_succ_iff_lt_or_eq]
      grind

theorem entry_ne (bound : linked ≤ iteration) :
    ∀ cell ∈ (environment.connected linked).map entry, cell.1 ≠ nodeBlock iteration := by
  intro cell membership same
  obtain ⟨node, inList, rfl⟩ := List.mem_map.mp membership
  obtain ⟨earlier, less, rfl⟩ := mem_connected.mp inList
  simp only [entry, Environment.node, nodeBlock] at same
  omega

def MainSound (environment : Environment) (memory : Memory) : MainPoint → Prop
  | .failure blocks =>
      ¬ (environment.answers memory.iteration).Completes ∧
        (∀ call ∈ memory.calls, ∃ block, call = .free block ∧ block / 4 = memory.iteration) ∧
        ∀ block ∈ blocks, block / 4 = memory.iteration
  | point =>
      memory.calls = [] ∧
        match point with
        | .callocInfo => 0 < (environment.answers memory.iteration).connSocket
        | .callocIpAddress =>
            0 < (environment.answers memory.iteration).connSocket ∧
              (environment.answers memory.iteration).tInfo = true
        | .callocFileName =>
            0 < (environment.answers memory.iteration).connSocket ∧
              (environment.answers memory.iteration).tInfo = true ∧
              (environment.answers memory.iteration).ipAddress = true
        | .pthreadCreate =>
            0 < (environment.answers memory.iteration).connSocket ∧
              (environment.answers memory.iteration).tInfo = true ∧
              (environment.answers memory.iteration).ipAddress = true ∧
              (environment.answers memory.iteration).fileName = true
        | .callocNode => (environment.answers memory.iteration).Starts
        | .storePtr =>
            (environment.answers memory.iteration).Completes ∧
              ∃ next, memory.nodes (nodeBlock memory.iteration) = some ⟨none, next⟩
        | .insertNext =>
            (environment.answers memory.iteration).Completes ∧
              ∃ next, memory.nodes (nodeBlock memory.iteration) =
                some ⟨some (environment.threadInformation memory.iteration), next⟩
        | .insertFirst =>
            (environment.answers memory.iteration).Completes ∧
              memory.nodes (nodeBlock memory.iteration) =
                some ⟨some (environment.threadInformation memory.iteration), memory.headNode⟩
        | _ => True

/-- The node that `terminate` works on is the last one that is linked, or the one before. -/
def PlaceSound (environment : Environment) (linked : Nat) (memory : Memory) : Place → Prop
  | .cancel currentNode | .join currentNode =>
      ∃ iteration, linked = iteration + 1 ∧ currentNode = nodeBlock iteration
  | .closeSocketd currentNode | .freeIpAddress currentNode | .freeFileName currentNode
  | .removeHead currentNode =>
      ∃ iteration, linked = iteration + 1 ∧ currentNode = nodeBlock iteration ∧
        .pthreadJoin (environment.answers iteration).threadId ∈ memory.calls
  | .freePtr currentNode =>
      currentNode = nodeBlock linked ∧ linked < memory.iteration ∧
        (∃ next, memory.nodes currentNode =
          some ⟨some (environment.threadInformation linked), next⟩) ∧
        .free (infoBlock linked) ∉ memory.calls
  | .freeNode currentNode =>
      currentNode = nodeBlock linked ∧ linked < memory.iteration ∧
        memory.nodes currentNode ≠ none
  | .head | .destroyMutex | .closeServer | .exit => True

def PointSound (environment : Environment) (linked : Nat) (memory : Memory) : Point → Prop
  | .main point => linked = memory.iteration ∧ MainSound environment memory point
  | .terminate _ place => PlaceSound environment linked memory place
  | .exited _ => True
  | .fault => False

/-- The list holds the nodes of the first `linked` iterations; what is given back belongs to
the others, or to a thread that is joined. -/
structure Sound (environment : Environment) (linked : Nat) (point : Point) (memory : Memory) :
    Prop where
  chain : Chain memory.nodes memory.headNode ((environment.connected linked).map entry)
  linked_le : linked ≤ memory.iteration
  completed : ∀ iteration < memory.iteration, (environment.answers iteration).Completes
  freed : ∀ block, .free block ∈ memory.calls → block / 4 < memory.iteration ∨
    block / 4 = memory.iteration ∧ ¬ (environment.answers memory.iteration).Completes
  kept : ∀ iteration < linked, .free (infoBlock iteration) ∉ memory.calls
  joined : ∀ iteration < memory.iteration, linked ≤ iteration ∨
      .free (fileNameBlock iteration) ∈ memory.calls →
    .pthreadJoin (environment.answers iteration).threadId ∈ memory.calls
  joins : ∀ threadId, .pthreadJoin threadId ∈ memory.calls →
    ∃ iteration < memory.iteration, threadId = (environment.answers iteration).threadId
  started : ∀ info ∈ memory.created, ∃ iteration, info = environment.threadInformation iteration ∧
    (iteration < memory.iteration ∨
      iteration = memory.iteration ∧ (environment.answers iteration).Starts)
  here : PointSound environment linked memory point

theorem Sound.within {mainPoint : MainPoint}
    (sound : Sound environment linked (.main mainPoint) memory)
    (memory' : Memory) (mainPoint' : MainPoint) (iteration : memory'.iteration = memory.iteration)
    (headNode : memory'.headNode = memory.headNode)
    (nodes : Chain memory'.nodes memory.headNode ((environment.connected linked).map entry))
    (calls : memory'.calls = memory.calls)
    (started : ∀ info ∈ memory'.created, info ∈ memory.created ∨
      info = environment.threadInformation memory.iteration ∧
        (environment.answers memory.iteration).Starts)
    (here : MainSound environment memory' mainPoint') :
    Sound environment linked (.main mainPoint') memory' where
  chain := by rwa [headNode]
  linked_le := by rw [iteration]; exact sound.linked_le
  completed := by rw [iteration]; exact sound.completed
  freed := by rw [iteration, calls]; exact sound.freed
  kept := by rw [calls]; exact sound.kept
  joined := by rw [iteration, calls]; exact sound.joined
  joins := by rw [iteration, calls]; exact sound.joins
  started := by
    intro info membership
    rw [iteration]
    rcases started info membership with earlier | ⟨isThis, starts⟩
    · exact sound.started info earlier
    · exact ⟨memory.iteration, isThis, .inr ⟨rfl, starts⟩⟩
  here := ⟨sound.here.1.trans iteration.symm, here⟩

theorem Sound.move (sound : Sound environment linked point memory)
    (here : PointSound environment linked memory point') : Sound environment linked point' memory :=
  { sound with here }

def SoundAfter (environment : Environment) (linked : Nat) (after : Point × Memory) : Prop :=
  Sound environment linked after.1 after.2

/-- The blocks of an iteration that fails are freed. -/
theorem Sound.fails {blocks : List Nat}
    (sound : Sound environment memory.iteration point memory) (noCalls : memory.calls = [])
    (fails : ¬ (environment.answers memory.iteration).Completes)
    (blocksHere : ∀ block ∈ blocks, block / 4 = memory.iteration) :
    Sound environment memory.iteration (.main (.failure blocks)) memory :=
  sound.move ⟨rfl, fails, by simp [noCalls], blocksHere⟩

theorem Sound.accept (sound : Sound environment linked (.main .accept) memory) :
    SoundAfter environment linked (mainStep environment memory .accept) := by
  obtain ⟨rfl, noCalls, _⟩ := sound.here
  by_cases accepted : 0 < (environment.answers memory.iteration).connSocket
  · simp only [SoundAfter, mainStep, if_pos accepted]
    exact sound.move ⟨rfl, noCalls, accepted⟩
  · simp only [SoundAfter, mainStep, if_neg accepted]
    exact sound.move ⟨rfl, noCalls, trivial⟩

theorem Sound.callocInfo (sound : Sound environment linked (.main .callocInfo) memory) :
    SoundAfter environment linked (mainStep environment memory .callocInfo) := by
  obtain ⟨rfl, noCalls, accepted⟩ := sound.here
  by_cases returned : (environment.answers memory.iteration).tInfo
  · simp only [SoundAfter, mainStep, if_pos returned]
    exact sound.within (memory.calloc _) .callocIpAddress rfl rfl sound.chain rfl
      (fun _ => .inl) ⟨noCalls, accepted, returned⟩
  · simp only [SoundAfter, mainStep, if_neg returned]
    exact sound.move trivial

theorem Sound.callocIpAddress (sound : Sound environment linked (.main .callocIpAddress) memory) :
    SoundAfter environment linked (mainStep environment memory .callocIpAddress) := by
  obtain ⟨rfl, noCalls, accepted, tInfo⟩ := sound.here
  by_cases returned : (environment.answers memory.iteration).ipAddress
  · simp only [SoundAfter, mainStep, if_pos returned]
    exact sound.within (memory.calloc _) .callocFileName rfl rfl sound.chain rfl
      (fun _ => .inl) ⟨noCalls, accepted, tInfo, returned⟩
  · simp only [SoundAfter, mainStep, if_neg returned]
    apply sound.fails noCalls fun completes => returned completes.1.ipAddress
    simp [infoBlock]

theorem Sound.callocFileName (sound : Sound environment linked (.main .callocFileName) memory) :
    SoundAfter environment linked (mainStep environment memory .callocFileName) := by
  obtain ⟨rfl, noCalls, accepted, tInfo, ipAddress⟩ := sound.here
  by_cases returned : (environment.answers memory.iteration).fileName
  · simp only [SoundAfter, mainStep, if_pos returned]
    exact sound.within (memory.calloc _) .pthreadCreate rfl rfl sound.chain rfl
      (fun _ => .inl) ⟨noCalls, accepted, tInfo, ipAddress, returned⟩
  · simp only [SoundAfter, mainStep, if_neg returned]
    apply sound.fails noCalls fun completes => returned completes.1.fileName
    simp only [List.forall_mem_cons, infoBlock, ipAddressBlock]
    exact ⟨by omega, by omega, by simp⟩

theorem threeBlocks_div (iteration : Nat) :
    ∀ block ∈ [ipAddressBlock iteration, fileNameBlock iteration, infoBlock iteration],
      block / 4 = iteration := by
  simp only [List.forall_mem_cons, infoBlock, ipAddressBlock, fileNameBlock]
  exact ⟨by omega, by omega, by omega, by simp⟩

theorem Sound.pthreadCreate (sound : Sound environment linked (.main .pthreadCreate) memory) :
    SoundAfter environment linked (mainStep environment memory .pthreadCreate) := by
  obtain ⟨rfl, noCalls, accepted, tInfo, ipAddress, fileName⟩ := sound.here
  by_cases failed : (environment.answers memory.iteration).pthreadCreate ≠ 0
  · simp only [SoundAfter, mainStep, if_pos failed]
    exact sound.fails noCalls (fun completes => failed completes.1.pthreadCreate)
      (threeBlocks_div _)
  · have starts : (environment.answers memory.iteration).Starts :=
      ⟨accepted, tInfo, ipAddress, fileName, not_not.mp failed⟩
    simp only [SoundAfter, mainStep, if_neg failed]
    refine sound.within { memory with created := _ } .callocNode rfl rfl sound.chain rfl ?_
      ⟨noCalls, starts⟩
    intro info membership
    rcases List.mem_append.mp membership with earlier | isThis
    · exact .inl earlier
    · exact .inr ⟨List.mem_singleton.mp isThis, starts⟩

theorem Sound.callocNode (sound : Sound environment linked (.main .callocNode) memory) :
    SoundAfter environment linked (mainStep environment memory .callocNode) := by
  obtain ⟨rfl, noCalls, starts⟩ := sound.here
  by_cases returned : (environment.answers memory.iteration).tNode
  · simp only [SoundAfter, mainStep, if_pos returned]
    exact sound.within { memory.calloc _ with nodes := _ } .storePtr rfl rfl
      (sound.chain.update (entry_ne (Nat.le_refl _)) _) rfl (fun _ => .inl)
      ⟨noCalls, ⟨starts, returned⟩, none, Function.update_self ..⟩
  · simp only [SoundAfter, mainStep, if_neg returned]
    exact sound.fails noCalls (fun completes => returned completes.2) (threeBlocks_div _)

theorem Sound.storePtr (sound : Sound environment linked (.main .storePtr) memory) :
    SoundAfter environment linked (mainStep environment memory .storePtr) := by
  obtain ⟨rfl, noCalls, completes, next, cell⟩ := sound.here
  exact sound.within (memory.store _ _) .insertNext rfl rfl
    (sound.chain.update (entry_ne (Nat.le_refl _)) _) rfl (fun _ => .inl)
    ⟨noCalls, completes, next, by simp [Memory.store, cell]⟩

theorem Sound.insertNext (sound : Sound environment linked (.main .insertNext) memory) :
    SoundAfter environment linked (mainStep environment memory .insertNext) := by
  obtain ⟨rfl, noCalls, completes, next, cell⟩ := sound.here
  exact sound.within (memory.store _ _) .insertFirst rfl rfl
    (sound.chain.update (entry_ne (Nat.le_refl _)) _) rfl (fun _ => .inl)
    ⟨noCalls, completes, by simp [Memory.store, cell]⟩

theorem Sound.insertFirst (sound : Sound environment linked (.main .insertFirst) memory) :
    SoundAfter environment (linked + 1) (mainStep environment memory .insertFirst) := by
  obtain ⟨rfl, noCalls, completes, cell⟩ := sound.here
  have empty : ∀ call, call ∉ memory.calls := by simp [noCalls]
  constructor
  · exact .cons cell sound.chain
  · exact Nat.le_refl _
  · intro iteration less
    rcases Nat.lt_succ_iff_lt_or_eq.mp less with earlier | rfl
    · exact sound.completed iteration earlier
    · exact completes
  · intro block isFree
    exact absurd isFree (empty _)
  · exact fun _ _ => empty _
  · rintro iteration less (isLast | isFree)
    · exact absurd isLast (Nat.not_le_of_lt less)
    · exact absurd isFree (empty _)
  · exact fun _ isJoin => absurd isJoin (empty _)
  · intro info membership
    obtain ⟨iteration, rfl, place⟩ := sound.started info membership
    refine ⟨iteration, rfl, .inl ?_⟩
    rcases place with earlier | ⟨rfl, _⟩
    · exact Nat.lt_succ_of_lt earlier
    · exact Nat.lt_succ_self _
  · exact ⟨rfl, noCalls, trivial⟩

theorem Sound.failure {blocks : List Nat}
    (sound : Sound environment linked (.main (.failure blocks)) memory) :
    SoundAfter environment linked (mainStep environment memory (.failure blocks)) := by
  obtain ⟨rfl, fails, isFree, blocksHere⟩ := sound.here
  cases blocks with
  | nil => exact sound.move trivial
  | cons block blocks =>
      obtain ⟨blockHere, othersHere⟩ := List.forall_mem_cons.mp blocksHere
      have next : ∀ call ∈ memory.calls ++ [.free block],
          ∃ block, call = .free block ∧ block / 4 = memory.iteration := by
        intro call membership
        rcases List.mem_append.mp membership with earlier | isThis
        · exact isFree call earlier
        · exact ⟨block, List.mem_singleton.mp isThis, blockHere⟩
      have here : ∀ {other}, .free other ∈ memory.calls ++ [.free block] →
          other / 4 = memory.iteration := by
        intro other membership
        obtain ⟨_, same, place⟩ := next _ membership
        rwa [TerminateCall.free.inj same]
      constructor
      · exact sound.chain
      · exact sound.linked_le
      · exact sound.completed
      · exact fun other membership => .inr ⟨here membership, fails⟩
      · intro iteration less membership
        have place := here membership
        simp only [infoBlock] at place
        omega
      · rintro iteration less (isLast | membership)
        · exact absurd isLast (Nat.not_le_of_lt less)
        · have earlier : iteration < memory.iteration := less
          have place := here membership
          simp only [fileNameBlock] at place
          omega
      · intro threadId membership
        obtain ⟨_, same, _⟩ := next _ membership
        cases same
      · exact sound.started
      · exact ⟨rfl, fails, next, othersHere⟩

theorem Sound.mainStep {mainPoint : MainPoint}
    (sound : Sound environment linked (.main mainPoint) memory) :
    ∃ linked', SoundAfter environment linked' (mainStep environment memory mainPoint) := by
  cases mainPoint with
  | accept => exact ⟨linked, sound.accept⟩
  | callocInfo => exact ⟨linked, sound.callocInfo⟩
  | callocIpAddress => exact ⟨linked, sound.callocIpAddress⟩
  | callocFileName => exact ⟨linked, sound.callocFileName⟩
  | pthreadCreate => exact ⟨linked, sound.pthreadCreate⟩
  | callocNode => exact ⟨linked, sound.callocNode⟩
  | storePtr => exact ⟨linked, sound.storePtr⟩
  | insertNext => exact ⟨linked, sound.insertNext⟩
  | insertFirst => exact ⟨linked + 1, sound.insertFirst⟩
  | failure blocks => exact ⟨linked, sound.failure⟩
  | closeListening => exact ⟨linked, sound.move trivial⟩

/-! ## What holds in `terminate` -/

theorem Memory.withThread_eq {currentNode : Nat} {info : ThreadInformation} {next : Option Nat}
    (cell : memory.nodes currentNode = some ⟨some info, next⟩)
    (live : .free info.address ∉ memory.calls) (step : ThreadInformation → Point × Memory) :
    memory.withThread currentNode step = step info := by
  simp only [Memory.withThread, Memory.thread, cell, Option.bind_some, if_neg live]

/-- The last node that is linked is the first of the list. -/
theorem Sound.first (sound : Sound environment (iteration + 1) point memory) :
    memory.headNode = some (nodeBlock iteration) ∧ ∃ next,
      memory.nodes (nodeBlock iteration) =
        some ⟨some (environment.threadInformation iteration), next⟩ ∧
      Chain memory.nodes next ((environment.connected iteration).map entry) :=
  sound.chain.uncons

theorem Sound.withThread_eq (sound : Sound environment (iteration + 1) point memory)
    (step : ThreadInformation → Point × Memory) :
    memory.withThread (nodeBlock iteration) step =
      step (environment.threadInformation iteration) := by
  obtain ⟨_, next, cell, _⟩ := sound.first
  exact Memory.withThread_eq cell (sound.kept iteration (Nat.lt_succ_self _)) step

/-- Calls for nodes that are linked no more, or for the strings of a thread that is joined. -/
structure Harmless (environment : Environment) (linked : Nat) (memory : Memory)
    (calls : List TerminateCall) : Prop where
  freed : ∀ block, .free block ∈ calls → block / 4 < memory.iteration
  kept : ∀ iteration < linked, .free (infoBlock iteration) ∉ calls
  joined : ∀ iteration < memory.iteration, .free (fileNameBlock iteration) ∈ calls →
    .pthreadJoin (environment.answers iteration).threadId ∈ memory.calls
  joins : ∀ threadId, .pthreadJoin threadId ∈ calls →
    ∃ iteration < memory.iteration, threadId = (environment.answers iteration).threadId

theorem Sound.call {calls : List TerminateCall} (sound : Sound environment linked point memory)
    (harmless : Harmless environment linked memory calls)
    (here : PointSound environment linked (memory.call calls) point') :
    Sound environment linked point' (memory.call calls) where
  chain := sound.chain
  linked_le := sound.linked_le
  completed := sound.completed
  freed block membership := by
    rcases List.mem_append.mp membership with earlier | isNew
    · exact sound.freed block earlier
    · exact .inl (harmless.freed block isNew)
  kept iteration less membership := by
    rcases List.mem_append.mp membership with earlier | isNew
    · exact sound.kept iteration less earlier
    · exact harmless.kept iteration less isNew
  joined iteration less reason := by
    apply List.mem_append_left
    rcases reason with isLast | membership
    · exact sound.joined iteration less (.inl isLast)
    · rcases List.mem_append.mp membership with earlier | isNew
      · exact sound.joined iteration less (.inr earlier)
      · exact harmless.joined iteration less isNew
  joins threadId membership := by
    rcases List.mem_append.mp membership with earlier | isNew
    · exact sound.joins threadId earlier
    · exact harmless.joins threadId isNew
  started := sound.started
  here := here

theorem Harmless.of_quiet {calls : List TerminateCall}
    (noFree : ∀ block, .free block ∉ calls) (noJoin : ∀ threadId, .pthreadJoin threadId ∉ calls) :
    Harmless environment linked memory calls where
  freed block membership := absurd membership (noFree block)
  kept _ _ := noFree _
  joined _ _ membership := absurd membership (noFree _)
  joins threadId membership := absurd membership (noJoin threadId)

theorem Harmless.free (place : block / 4 < memory.iteration)
    (notKept : ∀ iteration < linked, infoBlock iteration ≠ block)
    (joined : ∀ iteration < memory.iteration, fileNameBlock iteration = block →
      .pthreadJoin (environment.answers iteration).threadId ∈ memory.calls) :
    Harmless environment linked memory [.free block] where
  freed other membership := by
    rw [TerminateCall.free.inj (List.mem_singleton.mp membership)]
    exact place
  kept iteration less membership :=
    notKept iteration less (TerminateCall.free.inj (List.mem_singleton.mp membership))
  joined iteration less membership :=
    joined iteration less (TerminateCall.free.inj (List.mem_singleton.mp membership))
  joins _ membership := by simp at membership

def Place.linkedAfter (linked : Nat) : Place → Nat
  | .removeHead _ => linked - 1
  | _ => linked

section TerminateStep

variable {reason : Int} {currentNode : Nat}

theorem Sound.head (sound : Sound environment linked (.terminate reason .head) memory) :
    SoundAfter environment linked (terminateStep reason memory .head) := by
  cases linked with
  | zero =>
      simp only [SoundAfter, terminateStep, sound.chain.first_eq_none]
      exact sound.move trivial
  | succ iteration =>
      simp only [SoundAfter, terminateStep, sound.first.1]
      exact sound.move ⟨iteration, rfl, rfl⟩

theorem Sound.cancel
    (sound : Sound environment linked (.terminate reason (.cancel currentNode)) memory) :
    SoundAfter environment linked (terminateStep reason memory (.cancel currentNode)) := by
  obtain ⟨iteration, rfl, rfl⟩ := sound.here
  simp only [SoundAfter, terminateStep, sound.withThread_eq]
  exact sound.call (.of_quiet (by simp) (by simp)) ⟨iteration, rfl, rfl⟩

theorem Sound.join
    (sound : Sound environment linked (.terminate reason (.join currentNode)) memory) :
    SoundAfter environment linked (terminateStep reason memory (.join currentNode)) := by
  obtain ⟨iteration, rfl, rfl⟩ := sound.here
  have less : iteration < memory.iteration := sound.linked_le
  simp only [SoundAfter, terminateStep, sound.withThread_eq]
  refine sound.call ⟨by simp, by simp, by simp, ?_⟩ ⟨iteration, rfl, rfl, ?_⟩
  · intro threadId membership
    exact ⟨iteration, less, TerminateCall.pthreadJoin.inj (List.mem_singleton.mp membership)⟩
  · exact List.mem_append_right _ (List.mem_singleton_self _)

theorem Sound.closeSocketd
    (sound : Sound environment linked (.terminate reason (.closeSocketd currentNode)) memory) :
    SoundAfter environment linked (terminateStep reason memory (.closeSocketd currentNode)) := by
  obtain ⟨iteration, rfl, rfl, joined⟩ := sound.here
  simp only [SoundAfter, terminateStep, sound.withThread_eq]
  by_cases isOpen : (environment.threadInformation iteration).socketd ≠ 0
  · rw [if_pos isOpen]
    refine sound.call (.of_quiet (by simp) (by simp)) ⟨iteration, rfl, rfl, ?_⟩
    exact List.mem_append_left _ joined
  · rw [if_neg isOpen]
    exact sound.move ⟨iteration, rfl, rfl, joined⟩

theorem Sound.freeIpAddress
    (sound : Sound environment linked (.terminate reason (.freeIpAddress currentNode)) memory) :
    SoundAfter environment linked (terminateStep reason memory (.freeIpAddress currentNode)) := by
  obtain ⟨iteration, rfl, rfl, joined⟩ := sound.here
  have less : iteration < memory.iteration := sound.linked_le
  simp only [SoundAfter, terminateStep, sound.withThread_eq]
  refine sound.call (.free ?_ ?_ ?_) ⟨iteration, rfl, rfl, List.mem_append_left _ joined⟩
  · simp only [ipAddressBlock]
    omega
  · intro other _ same
    simp only [infoBlock, ipAddressBlock] at same
    omega
  · intro other _ same
    simp only [fileNameBlock, ipAddressBlock] at same
    omega

theorem Sound.freeFileName
    (sound : Sound environment linked (.terminate reason (.freeFileName currentNode)) memory) :
    SoundAfter environment linked (terminateStep reason memory (.freeFileName currentNode)) := by
  obtain ⟨iteration, rfl, rfl, joined⟩ := sound.here
  have less : iteration < memory.iteration := sound.linked_le
  simp only [SoundAfter, terminateStep, sound.withThread_eq]
  refine sound.call (.free ?_ ?_ ?_) ⟨iteration, rfl, rfl, List.mem_append_left _ joined⟩
  · simp only [fileNameBlock]
    omega
  · intro other _ same
    simp only [infoBlock, fileNameBlock] at same
    omega
  · intro other _ same
    have isThis : other = iteration := by
      simp only [fileNameBlock] at same
      omega
    rw [isThis]
    exact joined

theorem Sound.removeHead
    (sound : Sound environment linked (.terminate reason (.removeHead currentNode)) memory) :
    SoundAfter environment (linked - 1)
      (terminateStep reason memory (.removeHead currentNode)) := by
  obtain ⟨iteration, rfl, rfl, joined⟩ := sound.here
  have less : iteration < memory.iteration := sound.linked_le
  obtain ⟨first, next, cell, rest⟩ := sound.first
  simp only [SoundAfter, terminateStep, first, Option.bind_some, cell]
  constructor
  · exact rest
  · exact Nat.le_of_lt less
  · exact sound.completed
  · exact sound.freed
  · exact fun other earlier => sound.kept other (Nat.lt_succ_of_lt earlier)
  · rintro other otherLess (isLast | isFree)
    · rcases Nat.lt_or_eq_of_le isLast with later | rfl
      · exact sound.joined other otherLess (.inl later)
      · exact joined
    · exact sound.joined other otherLess (.inr isFree)
  · exact sound.joins
  · exact sound.started
  · exact ⟨rfl, less, ⟨next, cell⟩, sound.kept iteration (Nat.lt_succ_self _)⟩

theorem Sound.freePtr
    (sound : Sound environment linked (.terminate reason (.freePtr currentNode)) memory) :
    SoundAfter environment linked (terminateStep reason memory (.freePtr currentNode)) := by
  obtain ⟨rfl, less, ⟨next, cell⟩, live⟩ := sound.here
  simp only [SoundAfter, terminateStep, Memory.withThread_eq cell live]
  refine sound.call (.free ?_ ?_ ?_) ⟨rfl, less, ?_⟩
  · simp only [Environment.threadInformation, infoBlock]
    omega
  · intro other otherLess same
    simp only [Environment.threadInformation, infoBlock] at same
    omega
  · intro other _ same
    simp only [Environment.threadInformation, infoBlock, fileNameBlock] at same
    omega
  · simp [Memory.call, cell]

theorem Sound.freeNode
    (sound : Sound environment linked (.terminate reason (.freeNode currentNode)) memory) :
    SoundAfter environment linked (terminateStep reason memory (.freeNode currentNode)) := by
  obtain ⟨rfl, less, present⟩ := sound.here
  obtain ⟨cell, found⟩ := Option.ne_none_iff_exists'.mp present
  have freed : Harmless environment linked memory [.free (nodeBlock linked)] := by
    refine .free ?_ ?_ ?_
    · simp only [nodeBlock]
      omega
    · intro other _ same
      simp only [infoBlock, nodeBlock] at same
      omega
    · intro other _ same
      simp only [fileNameBlock, nodeBlock] at same
      omega
  have called : Sound environment linked (.terminate reason .head)
      (memory.call [.free (nodeBlock linked)]) := sound.call freed trivial
  simp only [SoundAfter, terminateStep, found]
  exact { called with chain := sound.chain.update (entry_ne (Nat.le_refl _)) _ }

theorem Sound.terminateStep {place : Place}
    (sound : Sound environment linked (.terminate reason place) memory) :
    SoundAfter environment (place.linkedAfter linked) (terminateStep reason memory place) := by
  cases place with
  | head => exact sound.head
  | cancel currentNode => exact sound.cancel
  | join currentNode => exact sound.join
  | closeSocketd currentNode => exact sound.closeSocketd
  | freeIpAddress currentNode => exact sound.freeIpAddress
  | freeFileName currentNode => exact sound.freeFileName
  | removeHead currentNode => exact sound.removeHead
  | freePtr currentNode => exact sound.freePtr
  | freeNode currentNode => exact sound.freeNode
  | destroyMutex => exact sound.call (.of_quiet (by simp) (by simp)) trivial
  | closeServer =>
      refine sound.call (.of_quiet ?_ ?_) trivial
      · simp [closeSocket, serverSocketDescriptor]
      · simp [closeSocket, serverSocketDescriptor]
  | exit => exact sound.move trivial

end TerminateStep

theorem Sound.start : Sound environment 0 Main.start.point Main.start.memory where
  chain := .nil
  linked_le := Nat.le_refl _
  completed iteration less := absurd less (Nat.not_lt_zero _)
  freed block membership := by cases membership
  kept iteration less := absurd less (Nat.not_lt_zero _)
  joined iteration less := absurd less (Nat.not_lt_zero _)
  joins threadId membership := by cases membership
  started info membership := by cases membership
  here := ⟨rfl, rfl, trivial⟩

theorem Sound.step (sound : Sound environment linked point memory)
    (stepped : (server environment).step point memory = some (point', memory')) :
    ∃ linked', Sound environment linked' point' memory' := by
  cases point with
  | main mainPoint =>
      have next := sound.mainStep
      rwa [Option.some.inj stepped] at next
  | terminate reason place =>
      have next := sound.terminateStep
      rw [Option.some.inj stepped] at next
      exact ⟨_, next⟩
  | exited status | fault => cases stepped

/-- The invariant, however many nodes are linked. -/
def Holds (environment : Environment) (point : Point) (memory : Memory) : Prop :=
  ∃ linked, Sound environment linked point memory

theorem sound_of_run {labels : List (Turn TerminationSignal)}
    {machine : Machine TerminationSignal Point Memory}
    (run : Run (server environment).Step start labels machine) :
    Holds environment machine.point machine.memory := by
  apply Program.invariant ?_ ?_ (Program.avoiding_of_run run) ⟨0, Sound.start⟩
  · rintro point memory point' memory' ⟨linked, sound⟩ stepped
    exact sound.step stepped
  · rintro point memory ⟨linked, sound⟩ _
    exact ⟨linked, sound.move trivial⟩

end Facts

end Main

end Aesd
