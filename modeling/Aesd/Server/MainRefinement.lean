import Aesd.Server.Main

/-!
# The list in memory and the list of nodes

`terminate` over the cells in memory does what it does over a list of nodes, also when
the handlers interrupt the loop and each other (`refines_shutdown`).  Along the way it
is recorded which blocks `main` has and which of them it has given back by itself.
-/

namespace Aesd

open Concurrency Interrupts LinkedList

namespace Main

/-! ## `terminate` over a list of nodes -/

def erasePlace : TerminatePoint → Place
  | .head => .head
  | .cancel node => .cancel node.address
  | .join node => .join node.address
  | .closeSocketd node => .closeSocketd node.address
  | .freeIpAddress node => .freeIpAddress node.address
  | .freeFileName node => .freeFileName node.address
  | .removeHead node => .removeHead node.address
  | .freePtr node => .freePtr node.address
  | .freeNode node => .freeNode node.address
  | .destroyMutex => .destroyMutex
  | .closeServer => .closeServer
  | .exit => .exit

def erase : ServerPoint → Point
  | .terminate reason point => .terminate reason (erasePlace point)
  | .exited status => .exited status

section Refinement

variable {environment : Environment} {memory memory' : Memory} {serverPoint : ServerPoint}
  {serverMemory : ServerMemory} {earlier : List TerminateCall} {reason : Int}
  {linked iteration : Nat}

/-- A memory of `terminate`, and what it is over a list of nodes. -/
structure Refines (environment : Environment) (earlier : List TerminateCall) (memory : Memory)
    (serverPoint : ServerPoint) (serverMemory : ServerMemory) : Prop where
  list : ∃ linked, serverMemory.headNode = environment.connected linked ∧
    Sound environment linked (erase serverPoint) memory
  calls : memory.calls = earlier ++ serverMemory.calls
  mutexInitialized : serverMemory.mutexInitialized = true
  worked : ∀ node, serverPoint.linked = some node ∨ node ∈ serverPoint.unlinked →
    ∃ iteration, node = environment.node iteration

theorem node_of_address {node : ListNode} (worked : ∃ iteration, node = environment.node iteration)
    (address : node.address = nodeBlock linked) : node = environment.node linked := by
  obtain ⟨iteration, rfl⟩ := worked
  have same : iteration = linked := by
    simp only [Environment.node, nodeBlock] at address
    omega
  rw [same]

theorem calls_append {calls : List TerminateCall}
    (same : memory.calls = earlier ++ serverMemory.calls) :
    (memory.call calls).calls = earlier ++ (serverMemory.call calls).calls := by
  simp only [Memory.call, ServerMemory.calls_call, same, List.append_assoc]

/-- A step of `terminate` does in memory what it does over a list of nodes. -/
def StepRefines (environment : Environment) (earlier : List TerminateCall) (memory : Memory)
    (serverMemory : ServerMemory) (reason : Int) (point : TerminatePoint) : Prop :=
  (terminateStep reason memory (erasePlace point)).1 =
      erase (Aesd.terminateStep reason serverMemory point).1 ∧
    Refines environment earlier (terminateStep reason memory (erasePlace point)).2
      (Aesd.terminateStep reason serverMemory point).1
      (Aesd.terminateStep reason serverMemory point).2

theorem Refines.of_step {point : TerminatePoint}
    (sound : Sound environment linked (.terminate reason (erasePlace point)) memory)
    (samePoint : (terminateStep reason memory (erasePlace point)).1 =
      erase (Aesd.terminateStep reason serverMemory point).1)
    (list : (Aesd.terminateStep reason serverMemory point).2.headNode =
      environment.connected ((erasePlace point).linkedAfter linked))
    (calls : (terminateStep reason memory (erasePlace point)).2.calls =
      earlier ++ (Aesd.terminateStep reason serverMemory point).2.calls)
    (mutexInitialized :
      (Aesd.terminateStep reason serverMemory point).2.mutexInitialized = true)
    (worked : ∀ node, (Aesd.terminateStep reason serverMemory point).1.linked = some node ∨
        node ∈ (Aesd.terminateStep reason serverMemory point).1.unlinked →
      ∃ iteration, node = environment.node iteration) :
    StepRefines environment earlier memory serverMemory reason point := by
  refine ⟨samePoint, ⟨_, list, ?_⟩, calls, mutexInitialized, worked⟩
  rw [← samePoint]
  exact sound.terminateStep

section Points

variable {node : ListNode}

theorem Refines.head
    (refines : Refines environment earlier memory (.terminate reason .head) serverMemory) :
    StepRefines environment earlier memory serverMemory reason .head := by
  obtain ⟨linked, list, sound⟩ := refines.list
  cases linked with
  | zero =>
      have empty : memory.headNode = none := sound.chain.first_eq_none
      have noNodes : serverMemory.headNode = [] := list
      apply Refines.of_step sound
      all_goals simp only [erasePlace, terminateStep, Aesd.terminateStep, empty, noNodes]
      · rfl
      · rfl
      · exact refines.calls
      · exact refines.mutexInitialized
      · simp [ServerPoint.linked, ServerPoint.unlinked]
  | succ iteration =>
      have first := sound.first.1
      have nodes : serverMemory.headNode =
          environment.node iteration :: environment.connected iteration := list
      apply Refines.of_step sound
      all_goals simp only [erasePlace, terminateStep, Aesd.terminateStep, first, nodes]
      · rfl
      · rfl
      · exact refines.calls
      · exact refines.mutexInitialized
      · rintro node (isLinked | isUnlinked)
        · exact ⟨iteration, (Option.some.inj isLinked).symm⟩
        · cases isUnlinked

/-- A step that makes some calls for the node that it works on, the last one that is linked. -/
theorem Refines.of_calls {point : TerminatePoint}
    (refines : Refines environment earlier memory (.terminate reason point) serverMemory)
    (isLinked : (ServerPoint.terminate reason point).linked = some node) (next : TerminatePoint)
    (calls : List TerminateCall)
    (staysLinked : (ServerPoint.terminate reason next).linked = some node)
    (noneUnlinked : (ServerPoint.terminate reason next).unlinked = [])
    (unchanged : ∀ linked, (erasePlace point).linkedAfter linked = linked)
    (address : ∀ linked, PlaceSound environment linked memory (erasePlace point) →
      ∃ iteration, linked = iteration + 1 ∧ node.address = nodeBlock iteration)
    (steps : ∀ iteration, node = environment.node iteration →
      (∀ step, memory.withThread (nodeBlock iteration) step =
        step (environment.threadInformation iteration)) →
      0 < (environment.answers iteration).connSocket →
      terminateStep reason memory (erasePlace point) =
          (.terminate reason (erasePlace next), memory.call calls) ∧
        Aesd.terminateStep reason serverMemory point =
          (.terminate reason next, serverMemory.call calls)) :
    StepRefines environment earlier memory serverMemory reason point := by
  obtain ⟨linked, list, sound⟩ := refines.list
  obtain ⟨iteration, rfl, same⟩ := address linked sound.here
  have isNode := node_of_address (refines.worked node (.inl isLinked)) same
  have accepted := (sound.completed iteration sound.linked_le).1.connSocket
  obtain ⟨concrete, abstract⟩ := steps iteration isNode sound.withThread_eq accepted
  apply Refines.of_step sound
  all_goals rw [abstract]
  · rw [concrete]
    rfl
  · rw [unchanged]
    exact list
  · rw [concrete]
    exact calls_append refines.calls
  · exact refines.mutexInitialized
  · rintro other (isOther | isOther)
    · exact ⟨iteration, (Option.some.inj (staysLinked.symm.trans isOther)).symm.trans isNode⟩
    · rw [noneUnlinked] at isOther
      cases isOther

theorem Refines.cancel
    (refines : Refines environment earlier memory (.terminate reason (.cancel node))
      serverMemory) :
    StepRefines environment earlier memory serverMemory reason (.cancel node) := by
  apply refines.of_calls rfl (.join node) [.pthreadCancel node.ptr.threadId] rfl rfl (fun _ => rfl)
  · exact fun _ here => here
  · rintro iteration rfl access _
    exact ⟨access _, rfl⟩

theorem Refines.join
    (refines : Refines environment earlier memory (.terminate reason (.join node))
      serverMemory) :
    StepRefines environment earlier memory serverMemory reason (.join node) := by
  apply refines.of_calls rfl (.closeSocketd node) [.pthreadJoin node.ptr.threadId] rfl rfl
    (fun _ => rfl)
  · exact fun _ here => here
  · rintro iteration rfl access _
    exact ⟨access _, rfl⟩

/-- The socket of a connection that was accepted is closed. -/
theorem Refines.closeSocketd
    (refines : Refines environment earlier memory (.terminate reason (.closeSocketd node))
      serverMemory) :
    StepRefines environment earlier memory serverMemory reason (.closeSocketd node) := by
  apply refines.of_calls rfl (.freeIpAddress node) [.close node.ptr.socketd] rfl rfl (fun _ => rfl)
  · exact fun _ ⟨iteration, more, address, _⟩ => ⟨iteration, more, address⟩
  · rintro iteration rfl access accepted
    have isOpen : (environment.threadInformation iteration).socketd ≠ 0 := Int.ne_of_gt accepted
    exact ⟨(access _).trans (if_pos isOpen), if_pos isOpen⟩

theorem Refines.freeIpAddress
    (refines : Refines environment earlier memory (.terminate reason (.freeIpAddress node))
      serverMemory) :
    StepRefines environment earlier memory serverMemory reason (.freeIpAddress node) := by
  apply refines.of_calls rfl (.freeFileName node) (freeCalls node.ptr.ipAddress) rfl rfl
    (fun _ => rfl)
  · exact fun _ ⟨iteration, more, address, _⟩ => ⟨iteration, more, address⟩
  · rintro iteration rfl access _
    exact ⟨access _, rfl⟩

theorem Refines.freeFileName
    (refines : Refines environment earlier memory (.terminate reason (.freeFileName node))
      serverMemory) :
    StepRefines environment earlier memory serverMemory reason (.freeFileName node) := by
  apply refines.of_calls rfl (.removeHead node) (freeCalls node.ptr.fileName) rfl rfl (fun _ => rfl)
  · exact fun _ ⟨iteration, more, address, _⟩ => ⟨iteration, more, address⟩
  · rintro iteration rfl access _
    exact ⟨access _, rfl⟩

theorem Refines.removeHead
    (refines : Refines environment earlier memory (.terminate reason (.removeHead node))
      serverMemory) :
    StepRefines environment earlier memory serverMemory reason (.removeHead node) := by
  obtain ⟨linked, list, sound⟩ := refines.list
  obtain ⟨iteration, rfl, _, _⟩ := sound.here
  obtain ⟨first, next, cell, _⟩ := sound.first
  apply Refines.of_step sound
  all_goals simp only [erasePlace, terminateStep, Aesd.terminateStep, first, Option.bind_some,
    cell]
  · rfl
  · rw [list]
    rfl
  · exact refines.calls
  · exact refines.mutexInitialized
  · rintro other (isLinked | isUnlinked)
    · cases isLinked
    · exact refines.worked other (.inl (congrArg some (List.mem_singleton.mp isUnlinked).symm))

theorem Refines.freePtr
    (refines : Refines environment earlier memory (.terminate reason (.freePtr node))
      serverMemory) :
    StepRefines environment earlier memory serverMemory reason (.freePtr node) := by
  obtain ⟨linked, list, sound⟩ := refines.list
  obtain ⟨address, _, ⟨next, cell⟩, live⟩ := sound.here
  obtain rfl := node_of_address (refines.worked node (.inr (List.mem_singleton_self _))) address
  have access := fun step => Memory.withThread_eq cell live step
  apply Refines.of_step sound
  all_goals simp only [erasePlace, terminateStep, Aesd.terminateStep, access]
  · rfl
  · exact list
  · exact calls_append refines.calls
  · exact refines.mutexInitialized
  · exact refines.worked

theorem Refines.freeNode
    (refines : Refines environment earlier memory (.terminate reason (.freeNode node))
      serverMemory) :
    StepRefines environment earlier memory serverMemory reason (.freeNode node) := by
  obtain ⟨linked, list, sound⟩ := refines.list
  obtain ⟨cell, found⟩ := Option.ne_none_iff_exists'.mp sound.here.2.2
  apply Refines.of_step sound
  all_goals simp only [erasePlace, terminateStep, Aesd.terminateStep, found]
  · rfl
  · exact list
  · exact calls_append refines.calls
  · exact refines.mutexInitialized
  · simp [ServerPoint.linked, ServerPoint.unlinked]

theorem Refines.behind {point : TerminatePoint}
    (refines : Refines environment earlier memory (.terminate reason point) serverMemory)
    (isBehind : point = .destroyMutex ∨ point = .closeServer ∨ point = .exit) :
    StepRefines environment earlier memory serverMemory reason point := by
  obtain ⟨linked, list, sound⟩ := refines.list
  have mutexInitialized := refines.mutexInitialized
  rcases isBehind with rfl | rfl | rfl
  · apply Refines.of_step sound
    all_goals simp only [erasePlace, terminateStep, Aesd.terminateStep, mutexInitialized, if_true]
    · rfl
    · exact list
    · exact calls_append refines.calls
    · exact mutexInitialized
    · simp [ServerPoint.linked, ServerPoint.unlinked]
  · apply Refines.of_step sound rfl list (calls_append refines.calls) mutexInitialized
    simp [Aesd.terminateStep, ServerPoint.linked, ServerPoint.unlinked]
  · apply Refines.of_step sound rfl list refines.calls mutexInitialized
    simp [Aesd.terminateStep, ServerPoint.linked, ServerPoint.unlinked]

theorem Refines.step {point : TerminatePoint}
    (refines : Refines environment earlier memory (.terminate reason point) serverMemory) :
    StepRefines environment earlier memory serverMemory reason point := by
  cases point with
  | head => exact refines.head
  | cancel node => exact refines.cancel
  | join node => exact refines.join
  | closeSocketd node => exact refines.closeSocketd
  | freeIpAddress node => exact refines.freeIpAddress
  | freeFileName node => exact refines.freeFileName
  | removeHead node => exact refines.removeHead
  | freePtr node => exact refines.freePtr
  | freeNode node => exact refines.freeNode
  | destroyMutex => exact refines.behind (.inl rfl)
  | closeServer => exact refines.behind (.inr (.inl rfl))
  | exit => exact refines.behind (.inr (.inr rfl))

end Points

/-! ## Whole runs -/

theorem mem_releases {call : TerminateCall} :
    call ∈ (environment.node iteration).releases ↔
      call = .close (environment.answers iteration).connSocket ∨
        ∃ block, call = .free block ∧ block / 4 = iteration := by
  simp only [Environment.node, Environment.threadInformation, ListNode.releases, freeCalls,
    Option.toList_some, List.map_cons, List.map_nil, List.cons_append, List.nil_append,
    List.mem_cons, List.not_mem_nil, or_false, infoBlock, ipAddressBlock, fileNameBlock, nodeBlock]
  refine or_congr_right ⟨?_, ?_⟩
  · rintro (rfl | rfl | rfl | rfl)
    all_goals exact ⟨_, rfl, by omega⟩
  · rintro ⟨block, rfl, place⟩
    simp only [TerminateCall.free.injEq]
    omega

theorem connected_accepted {iterations : Nat}
    (completed : ∀ iteration < iterations, (environment.answers iteration).Completes) :
    ∀ node ∈ environment.connected iterations, 0 < node.ptr.socketd := by
  intro node membership
  obtain ⟨iteration, less, rfl⟩ := mem_connected.mp membership
  exact (completed iteration less).1.connSocket

theorem connected_separate {iterations : Nat}
    (completed : ∀ iteration < iterations, (environment.answers iteration).Completes) :
    ((environment.connected iterations).flatMap ListNode.releases).Nodup := by
  induction iterations with
  | zero => exact List.nodup_nil
  | succ iterations inductionHypothesis =>
      rw [Environment.connected, List.flatMap_cons, List.nodup_append]
      refine ⟨?_, inductionHypothesis fun iteration less =>
        completed iteration (Nat.lt_succ_of_lt less), ?_⟩
      · simp [Environment.node, Environment.threadInformation, ListNode.releases, freeCalls,
          infoBlock, ipAddressBlock, fileNameBlock, nodeBlock]
      · rintro call isThis _ isEarlier rfl
        obtain ⟨node, membership, isRelease⟩ := List.mem_flatMap.mp isEarlier
        obtain ⟨earlier, less, rfl⟩ := mem_connected.mp membership
        rcases mem_releases.mp isThis with rfl | ⟨block, rfl, place⟩
        · rcases mem_releases.mp isRelease with same | ⟨_, same, _⟩
          · exact environment.sockets _ _ (Nat.ne_of_gt less)
              (completed iterations (Nat.lt_succ_self _)).1.connSocket
              (TerminateCall.close.inj same)
          · cases same
        · rcases mem_releases.mp isRelease with same | ⟨_, same, place'⟩
          · cases same
          · cases same
            omega

def Environment.connections (environment : Environment) (iterations : Nat)
    (completed : ∀ iteration < iterations, (environment.answers iteration).Completes) :
    Connections where
  nodes := environment.connected iterations
  accepted := connected_accepted completed
  separate := connected_separate completed

variable {labels past : List (Turn TerminationSignal)} {label : Turn TerminationSignal}
  {machine machine' : Machine TerminationSignal Point Memory} {window : Point → Prop}

structure SameLoop (memory memory' : Memory) : Prop where
  iteration : memory'.iteration = memory.iteration
  blocks : memory'.blocks = memory.blocks
  created : memory'.created = memory.created
  calls : memory.calls <+: memory'.calls

theorem SameLoop.refl (memory : Memory) : SameLoop memory memory :=
  ⟨rfl, rfl, rfl, List.prefix_refl _⟩

theorem SameLoop.call (memory : Memory) (calls : List TerminateCall) :
    SameLoop memory (memory.call calls) := ⟨rfl, rfl, rfl, List.prefix_append _ _⟩

/-- A step leaves the loop alone, and does not lead back to it. -/
def LeavesLoop (memory : Memory) (result : Point × Memory) : Prop :=
  SameLoop memory result.2 ∧ ∀ point, result.1 ≠ .main point

theorem LeavesLoop.refl {point : Point} (outside : ∀ mainPoint, point ≠ .main mainPoint) :
    LeavesLoop memory (point, memory) := ⟨.refl memory, outside⟩

theorem LeavesLoop.withThread {currentNode : Nat} {step : ThreadInformation → Point × Memory}
    (leaves : ∀ info, LeavesLoop memory (step info)) :
    LeavesLoop memory (memory.withThread currentNode step) := by
  unfold Memory.withThread
  split
  · exact .refl fun _ same => by cases same
  · exact leaves _

theorem terminateStep_leavesLoop (place : Place) :
    LeavesLoop memory (terminateStep reason memory place) := by
  cases place with
  | head =>
      simp only [terminateStep]
      split
      · exact .refl fun _ same => by cases same
      · exact .refl fun _ same => by cases same
  | cancel _ | join _ | freeIpAddress _ | freeFileName _ | freePtr _ =>
      exact .withThread fun info => ⟨.call memory _, fun _ same => by cases same⟩
  | closeSocketd _ =>
      refine .withThread fun info => ?_
      split
      · exact ⟨.call memory _, fun _ same => by cases same⟩
      · exact .refl fun _ same => by cases same
  | removeHead _ =>
      simp only [terminateStep]
      split
      · exact .refl fun _ same => by cases same
      · exact ⟨⟨rfl, rfl, rfl, List.prefix_refl _⟩, fun _ same => by cases same⟩
  | freeNode _ =>
      simp only [terminateStep]
      split
      · exact .refl fun _ same => by cases same
      · exact ⟨⟨rfl, rfl, rfl, List.prefix_append _ _⟩, fun _ same => by cases same⟩
  | destroyMutex | closeServer => exact ⟨.call memory _, fun _ same => by cases same⟩
  | exit => exact .refl fun _ same => by cases same

/-- The blocks that `calloc` has returned: those of the iterations that are completed, and those
of the last one, of which some are given back already. -/
structure Acquires (iteration : Nat) (blocks given rest : List Nat) : Prop where
  blocks : ∀ block, block ∈ blocks ↔ block < 4 * iteration ∨ block ∈ given ++ rest
  distinct : (given ++ rest).Nodup
  place : ∀ block ∈ given ++ rest, block / 4 = iteration

/-- The blocks of an iteration that are not given back, at each point. -/
def pending (iteration : Nat) : MainPoint → List Nat
  | .accept | .callocInfo | .closeListening => []
  | .callocIpAddress => [infoBlock iteration]
  | .callocFileName => [infoBlock iteration, ipAddressBlock iteration]
  | .pthreadCreate | .callocNode =>
      [infoBlock iteration, ipAddressBlock iteration, fileNameBlock iteration]
  | .storePtr | .insertNext | .insertFirst =>
      [infoBlock iteration, ipAddressBlock iteration, fileNameBlock iteration,
        nodeBlock iteration]
  | .failure blocks => blocks

section Blocks

variable {blocks given rest rest' : List Nat} {block : Nat}

theorem Acquires.perm (acquires : Acquires iteration blocks given rest) (same : rest.Perm rest') :
    Acquires iteration blocks given rest' := by
  have whole : (given ++ rest).Perm (given ++ rest') := same.append_left given
  refine ⟨?_, whole.nodup_iff.mp acquires.distinct, ?_⟩
  · intro block
    rw [acquires.blocks, whole.mem_iff]
  · intro block membership
    exact acquires.place block (whole.mem_iff.mpr membership)

theorem Acquires.calloc (acquires : Acquires iteration blocks given rest)
    (fresh : block ∉ given ++ rest) (place : block / 4 = iteration) :
    Acquires iteration (blocks ++ [block]) given (rest ++ [block]) := by
  refine ⟨?_, ?_, ?_⟩
  · intro other
    rw [List.mem_append, acquires.blocks, or_assoc, ← List.append_assoc, ← List.mem_append]
  · rw [← List.append_assoc]
    exact List.nodup_append.mpr ⟨acquires.distinct, List.nodup_singleton _, fun other membership
      _ isBlock same => fresh (List.mem_singleton.mp isBlock ▸ same ▸ membership)⟩
  · intro other membership
    rw [← List.append_assoc] at membership
    rcases List.mem_append.mp membership with earlier | isNew
    · exact acquires.place other earlier
    · rw [List.mem_singleton.mp isNew]
      exact place

theorem Acquires.give (acquires : Acquires iteration blocks given (block :: rest)) :
    Acquires iteration blocks (given ++ [block]) rest := by
  have same : given ++ block :: rest = given ++ [block] ++ rest := by simp
  obtain ⟨members, distinct, place⟩ := acquires
  rw [same] at distinct place
  exact ⟨fun other => same ▸ members other, distinct, place⟩

/-- When an iteration is completed, the next one begins without a block. -/
theorem Acquires.complete
    (acquires : Acquires iteration blocks [] (pending iteration .insertFirst)) :
    Acquires (iteration + 1) blocks [] [] := by
  refine ⟨?_, List.nodup_nil, by simp⟩
  intro block
  rw [acquires.blocks]
  simp only [pending, infoBlock, ipAddressBlock, fileNameBlock, nodeBlock, List.nil_append,
    List.mem_cons, List.not_mem_nil, or_false]
  omega

theorem Acquires.mainStep {point : MainPoint}
    (acquires : Acquires memory.iteration memory.blocks given (pending memory.iteration point))
    (here : MainSound environment memory point) (calls : memory.calls = given.map .free) :
    (∃ point' given', (mainStep environment memory point).1 = .main point' ∧
      (mainStep environment memory point).2.calls = given'.map .free ∧
      Acquires (mainStep environment memory point).2.iteration
        (mainStep environment memory point).2.blocks given'
        (pending (mainStep environment memory point).2.iteration point')) ∨
    (∃ reason, (mainStep environment memory point).1 = .terminate reason .head ∧
      (mainStep environment memory point).2 = memory ∧ pending memory.iteration point = []) := by
  have stays (point' : MainPoint)
      (same : pending memory.iteration point' = pending memory.iteration point) :
      Acquires memory.iteration memory.blocks given (pending memory.iteration point') := by
    rwa [same]
  have noneGiven : memory.calls = [] → given = [] := by
    intro noCalls
    exact List.map_eq_nil_iff.mp (calls.symm.trans noCalls)
  cases point with
  | accept =>
      left
      simp only [Main.mainStep]
      split
      · exact ⟨_, given, rfl, calls, stays .callocInfo rfl⟩
      · exact ⟨_, given, rfl, calls, stays .closeListening rfl⟩
  | callocInfo =>
      obtain rfl := noneGiven here.1
      simp only [Main.mainStep]
      split
      · refine .inl ⟨.callocIpAddress, [], rfl, calls, acquires.calloc (by simp [pending]) ?_⟩
        simp only [infoBlock]
        omega
      · exact .inr ⟨_, rfl, rfl, rfl⟩
  | callocIpAddress =>
      obtain rfl := noneGiven here.1
      left
      simp only [Main.mainStep]
      split
      · refine ⟨.callocFileName, [], rfl, calls, acquires.calloc ?_ ?_⟩
        · simp [pending, infoBlock, ipAddressBlock]
        · simp only [ipAddressBlock]
          omega
      · exact ⟨_, [], rfl, calls, stays (.failure _) rfl⟩
  | callocFileName =>
      obtain rfl := noneGiven here.1
      left
      simp only [Main.mainStep]
      split
      · refine ⟨.pthreadCreate, [], rfl, calls, acquires.calloc ?_ ?_⟩
        · simp [pending, infoBlock, ipAddressBlock, fileNameBlock]
        · simp only [fileNameBlock]
          omega
      · exact ⟨.failure _, [], rfl, calls, acquires.perm (List.Perm.swap _ _ _)⟩
  | pthreadCreate =>
      left
      simp only [Main.mainStep]
      split
      · refine ⟨.failure _, given, rfl, calls, acquires.perm ?_⟩
        exact (List.perm_append_comm : ([_] ++ [_, _]).Perm ([_, _] ++ [_]))
      · exact ⟨_, given, rfl, calls, stays .callocNode rfl⟩
  | callocNode =>
      obtain rfl := noneGiven here.1
      left
      simp only [Main.mainStep]
      split
      · refine ⟨.storePtr, [], rfl, calls, acquires.calloc ?_ ?_⟩
        · simp [pending, infoBlock, ipAddressBlock, fileNameBlock, nodeBlock]
        · simp only [nodeBlock]
          omega
      · refine ⟨.failure _, [], rfl, calls, acquires.perm ?_⟩
        exact (List.perm_append_comm : ([_] ++ [_, _]).Perm ([_, _] ++ [_]))
  | storePtr | insertNext => exact .inl ⟨_, given, rfl, calls, acquires⟩
  | insertFirst =>
      obtain rfl := noneGiven here.1
      exact .inl ⟨.accept, [], rfl, calls, acquires.complete⟩
  | failure blocks =>
      cases blocks with
      | nil => exact .inr ⟨_, rfl, rfl, rfl⟩
      | cons block blocks =>
          refine .inl ⟨_, given ++ [block], rfl, ?_, acquires.give⟩
          simp only [Main.mainStep, Memory.call, calls, List.map_append, List.map_singleton]
  | closeListening => exact .inr ⟨_, rfl, rfl, rfl⟩

end Blocks

/-- In the loop, or in a run of `terminate` over the nodes of the iterations that are completed.
What `main` has freed by itself is of the last iteration; what is left of that one stays if
`main` was interrupted. -/
inductive Phase (environment : Environment) (window : Point → Prop)
    (past : List (Turn TerminationSignal)) (machine : Machine TerminationSignal Point Memory) :
    Prop where
  | main {point : MainPoint} {given : List Nat} : machine.point = .main point →
      machine.handlers = [] →
      Sound environment machine.memory.iteration machine.point machine.memory →
      machine.memory.calls = given.map .free →
      Acquires machine.memory.iteration machine.memory.blocks given
        (pending machine.memory.iteration point) →
      Phase environment window past machine
  | terminate {iterations : Nat}
      {completed : ∀ iteration < iterations, (environment.answers iteration).Completes}
      {reason : Int} {caller : Option TerminationSignal} {more : List (Turn TerminationSignal)}
      {abstract : Machine TerminationSignal ServerPoint ServerMemory} {given rest : List Nat} :
      machine.memory.iteration = iterations →
      Run shutdown.Step (terminating (environment.connections iterations completed) true reason
        caller) more abstract →
      more <:+ past → machine.point = erase abstract.point →
      machine.handlers = abstract.handlers →
      Refines environment (given.map .free) machine.memory abstract.point abstract.memory →
      Acquires iterations machine.memory.blocks given rest →
      (rest = [] ∨ ∃ signal, .deliver signal ∈ past) →
      ((∀ reason place, window (.terminate reason place)) → ∀ label ∈ more, label = .run) →
      Phase environment window past machine

theorem Phase.enter {point : MainPoint} {given rest : List Nat} (caller : Option TerminationSignal)
    (sound : Sound environment machine.memory.iteration (.main point) machine.memory)
    (calls : machine.memory.calls = given.map .free)
    (acquires : Acquires machine.memory.iteration machine.memory.blocks given rest)
    (isPoint : machine'.point = .terminate reason .head) (same : machine'.memory = machine.memory)
    (handlers : machine'.handlers = caller.toList)
    (interrupted : rest = [] ∨ ∃ signal, .deliver signal ∈ past) :
    Phase environment window past machine' := by
  rw [← same] at calls acquires sound
  have begun : Run shutdown.Step
      (terminating (environment.connections machine'.memory.iteration sound.completed) true reason
        caller) [] _ := .nil _
  refine .terminate rfl begun List.nil_suffix isPoint handlers
    ⟨⟨_, rfl, sound.move trivial⟩, ?_, rfl, ?_⟩ acquires interrupted (by simp)
  · rw [calls]
    exact (List.append_nil _).symm
  · rintro node (isLinked | isUnlinked)
    · cases isLinked
    · cases isUnlinked

theorem Phase.step (phase : Phase environment window past machine)
    (taken : (server environment).AvoidingStep window machine label machine') :
    Phase environment window (past ++ [label]) machine' := by
  obtain ⟨avoids, taken⟩ := taken
  cases phase with
  | @main point given isMain noHandlers sound calls acquires =>
      rw [isMain] at sound
      rcases Program.machine_cases taken with
        ⟨_, point', memory', stepped, rfl⟩ | ⟨signal, rfl, _, _, rfl⟩
      · rw [isMain] at stepped
        have result := Option.some.inj stepped
        rcases acquires.mainStep sound.here.2 calls with
          ⟨next, given', isNext, calls', acquires'⟩ | ⟨reason, isNext, same, settled⟩
        · rw [result] at isNext calls' acquires'
          obtain ⟨linked, sound'⟩ := sound.mainStep
          rw [result] at sound'
          dsimp only at isNext sound'
          subst isNext
          obtain ⟨isLinked, _⟩ := sound'.here
          subst isLinked
          exact .main rfl noHandlers sound' calls' acquires'
        · rw [result] at isNext same
          exact .enter none sound calls acquires isNext same noHandlers (.inl settled)
      · refine .enter (some signal) sound calls acquires rfl rfl
          (congrArg (signal :: ·) noHandlers) (.inr ⟨signal, ?_⟩)
        exact List.mem_append_right _ (List.mem_singleton_self _)
  | @terminate iterations completed reason caller more abstract given rest isIteration run
      isSuffix isPoint handlers refines acquires interrupted quiet =>
      have longer : more ++ [label] <:+ past ++ [label] := by
        obtain ⟨earlier, rfl⟩ := isSuffix
        exact ⟨earlier, (List.append_assoc _ _ _).symm⟩
      have interrupted' : rest = [] ∨ ∃ signal, .deliver signal ∈ past ++ [label] :=
        interrupted.imp_right fun ⟨signal, membership⟩ =>
          ⟨signal, List.mem_append_left _ membership⟩
      cases abstractPoint : abstract.point with
      | exited status =>
          rw [abstractPoint] at isPoint
          rcases Program.machine_cases taken with ⟨_, _, _, stepped, _⟩ | ⟨_, _, _, going, _⟩
          · rw [isPoint] at stepped
            cases stepped
          · rw [isPoint] at going
            exact absurd rfl going
      | terminate current point =>
          rw [abstractPoint] at isPoint refines
          have abstractStep : shutdown.step abstract.point abstract.memory =
              some (Aesd.terminateStep current abstract.memory point) := by
            rw [abstractPoint]
            rfl
          have quiet' : (∀ reason place, window (.terminate reason place)) →
              ∀ label' ∈ more ++ [label], label' = .run := by
            intro covers label' membership
            rcases List.mem_append.mp membership with earlier | isThis
            · exact quiet covers label' earlier
            · rw [List.mem_singleton.mp isThis]
              rcases avoids with isRun | outside
              · exact isRun
              · rw [isPoint] at outside
                exact absurd (covers _ _) outside
          rcases Program.machine_cases taken with
            ⟨rfl, point', memory', stepped, rfl⟩ | ⟨signal, rfl, unblocked, _, rfl⟩
          · rw [isPoint] at stepped
            have result := Option.some.inj stepped
            obtain ⟨samePoint, refines'⟩ := refines.step
            have same := (@terminateStep_leavesLoop machine.memory current (erasePlace point)).1
            rw [result] at samePoint refines' same
            rw [← same.blocks] at acquires
            exact .terminate (same.iteration.trans isIteration)
              (run.concat (Program.step_run abstractStep)) longer samePoint handlers refines'
              acquires interrupted' quiet'
          · have going : shutdown.step abstract.point abstract.memory ≠ none := by
              rw [abstractStep]
              exact Option.some_ne_none _
            rw [handlers] at unblocked
            obtain ⟨linked, list, sound⟩ := refines.list
            refine .terminate isIteration (run.concat (Program.step_deliver unblocked going))
              longer rfl (congrArg (signal :: ·) handlers)
              ⟨⟨linked, list, sound.move trivial⟩, refines.calls, refines.mutexInitialized, ?_⟩
              acquires interrupted' quiet'
            rintro node (isLinked | isUnlinked)
            · cases isLinked
            · cases isUnlinked

theorem phase_of_run (run : Run ((server environment).AvoidingStep window) start labels machine) :
    Phase environment window labels machine := by
  have kept (past : List (Turn TerminationSignal)) (machine : Machine _ _ _)
      (label : Turn TerminationSignal) (machine' : Machine _ _ _)
      (phase : Phase environment window past machine)
      (taken : (server environment).AvoidingStep window machine label machine') :
      Phase environment window (past ++ [label]) machine' := phase.step taken
  have noBlocks : Acquires 0 [] [] (pending 0 .accept) :=
    ⟨fun block => by simp [pending], List.nodup_nil, by simp [pending]⟩
  have first : Phase environment window [] start := .main rfl rfl Sound.start rfl noBlocks
  exact run.history kept first

/-- However the handlers interrupt the loop and each other, the list in memory is that of the
connections, nothing that is freed is accessed, and `terminate` does what it does over a list
of nodes. -/
theorem refines_shutdown (run : Run (server environment).Step start labels machine) :
    machine.point ≠ .fault ∧
    ((∃ point, machine.point = .main point ∧ Chain machine.memory.nodes machine.memory.headNode
        ((environment.connected machine.memory.iteration).map entry)) ∨
      ∃ connections reason caller more abstract earlier,
        connections.nodes = environment.connected machine.memory.iteration ∧
        Run shutdown.Step (terminating connections true reason caller) more abstract ∧
        more <:+ labels ∧ machine.point = erase abstract.point ∧
        machine.handlers = abstract.handlers ∧
        machine.memory.calls = earlier ++ abstract.memory.calls ∧
        (∀ call ∈ earlier, ∃ block, call = .free block ∧ block / 4 = machine.memory.iteration) ∧
        Chain machine.memory.nodes machine.memory.headNode
          (abstract.memory.headNode.map entry)) := by
  refine ⟨?_, ?_⟩
  · intro isFault
    obtain ⟨_, sound⟩ := sound_of_run run
    rw [isFault] at sound
    exact sound.here
  · cases phase_of_run (Program.avoiding_of_run run) with
    | @main point given isMain _ sound => exact .inl ⟨point, isMain, sound.chain⟩
    | @terminate iterations completed reason caller more abstract given rest isIteration run
        isSuffix isPoint handlers refines acquires =>
        obtain ⟨linked, list, sound⟩ := refines.list
        refine .inr ⟨_, reason, caller, more, abstract, _, ?_, run, isSuffix, isPoint, handlers,
          refines.calls, ?_, ?_⟩
        · rw [isIteration]
          rfl
        · intro call membership
          obtain ⟨block, isGiven, rfl⟩ := List.mem_map.mp membership
          exact ⟨block, rfl, (acquires.place block (List.mem_append_left _ isGiven)).trans
            isIteration.symm⟩
        · rw [list]
          exact sound.chain

def serving (connections : Nat) (orphan : Option Nat) : Environment where
  answers iteration :=
    { connSocket := if iteration < connections then 4 + iteration else -1
      tInfo := true
      ipAddress := true
      fileName := true
      pthreadCreate := 0
      threadId := iteration
      tNode := orphan ≠ some iteration
      closeListening := 0 }
  sockets := by
    intro first second different accepted
    dsimp only at accepted ⊢
    by_cases inside : first < connections
    · rw [if_pos inside]
      split
      · omega
      · omega
    · rw [if_neg inside] at accepted
      omega
  threads := fun _ _ same => same

def interruptedTurns : List (Turn TerminationSignal) :=
  List.replicate 12 .run ++ .deliver .sigterm :: List.replicate 4 .run ++
    .deliver .sigint :: List.replicate 9 .run

theorem refines_shutdown_interrupted : ∃ machine,
    Run (server (serving 2 none)).Step start interruptedTurns machine ∧
      machine.memory.iteration = 1 ∧ machine.memory.headNode = none ∧ machine.point ≠ .fault := by
  obtain ⟨machine, followed, iteration, empty⟩ : ∃ machine,
      follow (server (serving 2 none)).next start interruptedTurns = some machine ∧
        machine.memory.iteration = 1 ∧ machine.memory.headNode = none := ⟨_, rfl, rfl, rfl⟩
  have run := run_of_follow followed
  exact ⟨machine, run, iteration, empty, (refines_shutdown run).1⟩

end Refinement

end Main

end Aesd
