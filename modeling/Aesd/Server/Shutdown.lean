import Aesd.Lib.Interrupts
import Mathlib.Data.List.Flatten
import Mathlib.Data.List.Nodup

/-!
# Shutdown

`terminate` takes the list of connections apart and ends in `exit`.  The handlers of
`SIGINT` and `SIGTERM` call it, and since they do not block each other it can interrupt
itself.  It unlinks a node only after it has closed the socket and freed the strings of
the connection; interrupted between these steps, it does them once more.
-/

namespace Aesd

open Concurrency Interrupts

/-! ## The list of connections -/

def exitSuccess : Int := 0

def exitFailure : Int := 1

/-- What `terminate` uses of the `struct thread_information` at `address`. -/
structure ThreadInformation where
  address : Nat
  threadId : Nat
  socketd : Int
  ipAddress : Option Nat
  fileName : Option Nat
  deriving DecidableEq, Repr

structure ListNode where
  address : Nat
  ptr : ThreadInformation
  deriving DecidableEq, Repr

inductive TerminateCall where
  | pthreadCancel (threadId : Nat)
  | pthreadJoin (threadId : Nat)
  | close (socketd : Int)
  | free (ptr : Nat)
  | pthreadMutexDestroy
  deriving DecidableEq, Repr

/-- `if (ptr) free(ptr)`. -/
def freeCalls (ptr : Option Nat) : List TerminateCall := ptr.toList.map .free

/-- The calls that release a connection: its socket, its strings, its thread information
and its node. -/
def ListNode.releases (node : ListNode) : List TerminateCall :=
  .close node.ptr.socketd :: freeCalls node.ptr.ipAddress ++ freeCalls node.ptr.fileName ++
    [.free node.ptr.address, .free node.address]

theorem ListNode.releases_eq (node : ListNode) : node.releases =
    (.close node.ptr.socketd :: freeCalls node.ptr.ipAddress ++ freeCalls node.ptr.fileName ++
      [.free node.ptr.address]) ++ [.free node.address] := by
  rw [ListNode.releases, List.append_assoc _ [_] [_]]
  rfl

/-- A list of connections that share nothing. -/
structure Connections where
  nodes : List ListNode
  accepted : ∀ node ∈ nodes, 0 < node.ptr.socketd
  separate : (nodes.flatMap ListNode.releases).Nodup

/-! ## `terminate` -/

inductive TerminationSignal where
  | sigint
  | sigterm
  deriving DecidableEq, Repr

/-- The points of `terminate`. A node is the one behind `current_node`. -/
inductive TerminatePoint where
  | head
  | cancel (node : ListNode)
  | join (node : ListNode)
  | closeSocketd (node : ListNode)
  | freeIpAddress (node : ListNode)
  | freeFileName (node : ListNode)
  | removeHead (node : ListNode)
  | freePtr (node : ListNode)
  | freeNode (node : ListNode)
  | destroyMutex
  | closeServer
  | exit
  deriving DecidableEq, Repr

inductive ServerPoint where
  | terminate (terminationReason : Int) (point : TerminatePoint)
  | exited (status : Int)
  deriving DecidableEq, Repr

/-- The globals that `terminate` uses, and the calls that it has made. -/
structure ServerMemory where
  headNode : List ListNode
  mutexInitialized : Bool
  calls : List TerminateCall := []

/-- The global is never assigned; the listening socket is a local of `main`. -/
def serverSocketDescriptor : Int := 0

def closeSocket (sd : Int) : List TerminateCall := if sd ≠ 0 then [.close sd] else []

def ServerMemory.call (memory : ServerMemory) (calls : List TerminateCall) : ServerMemory :=
  { memory with calls := memory.calls ++ calls }

@[simp]
theorem ServerMemory.headNode_call (memory : ServerMemory) (calls : List TerminateCall) :
    (memory.call calls).headNode = memory.headNode := rfl

@[simp]
theorem ServerMemory.calls_call (memory : ServerMemory) (calls : List TerminateCall) :
    (memory.call calls).calls = memory.calls ++ calls := rfl

/-- One step of `terminate`. The timer exists only without the character device. -/
def terminateStep (terminationReason : Int) (memory : ServerMemory) :
    TerminatePoint → ServerPoint × ServerMemory
  | .head =>
      match memory.headNode with
      | [] => (.terminate terminationReason .destroyMutex, memory)
      | node :: _ => (.terminate terminationReason (.cancel node), memory)
  | .cancel node =>
      (.terminate terminationReason (.join node), memory.call [.pthreadCancel node.ptr.threadId])
  | .join node =>
      (.terminate terminationReason (.closeSocketd node),
        memory.call [.pthreadJoin node.ptr.threadId])
  | .closeSocketd node =>
      if node.ptr.socketd ≠ 0 then
        (.terminate terminationReason (.freeIpAddress node), memory.call [.close node.ptr.socketd])
      else (.terminate terminationReason (.freeFileName node), memory)
  | .freeIpAddress node =>
      (.terminate terminationReason (.freeFileName node),
        memory.call (freeCalls node.ptr.ipAddress))
  | .freeFileName node =>
      (.terminate terminationReason (.removeHead node), memory.call (freeCalls node.ptr.fileName))
  | .removeHead node =>
      (.terminate terminationReason (.freePtr node),
        { memory with headNode := memory.headNode.tail })
  | .freePtr node =>
      (.terminate terminationReason (.freeNode node), memory.call [.free node.ptr.address])
  | .freeNode node => (.terminate terminationReason .head, memory.call [.free node.address])
  | .destroyMutex =>
      (.terminate terminationReason .closeServer,
        memory.call (if memory.mutexInitialized then [.pthreadMutexDestroy] else []))
  | .closeServer =>
      (.terminate terminationReason .exit, memory.call (closeSocket serverSocketDescriptor))
  | .exit => (.exited terminationReason, memory)

/-- `terminate`, and `termination_handler`, which calls it for both signals. -/
def shutdown : Program ServerPoint ServerMemory where
  step
    | .terminate terminationReason point, memory =>
        some (terminateStep terminationReason memory point)
    | .exited _, _ => none
  handler := .terminate exitSuccess .head

/-- `terminate` is called: by `main`, or by the handler of a signal. -/
def terminating (connections : Connections) (mutexInitialized : Bool) (terminationReason : Int)
    (caller : Option TerminationSignal) :
    Machine TerminationSignal ServerPoint ServerMemory where
  point := .terminate terminationReason .head
  memory := { headNode := connections.nodes, mutexInitialized }
  handlers := caller.toList
  interrupted := []

/-! ## Where a node is -/

namespace ServerPoint

def linked : ServerPoint → Option ListNode
  | .terminate _ (.cancel node) | .terminate _ (.join node) | .terminate _ (.closeSocketd node)
  | .terminate _ (.freeIpAddress node) | .terminate _ (.freeFileName node)
  | .terminate _ (.removeHead node) => some node
  | _ => none

def unlinked : ServerPoint → List ListNode
  | .terminate _ (.freePtr node) | .terminate _ (.freeNode node) => [node]
  | _ => []

def done : ServerPoint → List TerminateCall
  | .terminate _ (.freeIpAddress node) => [.close node.ptr.socketd]
  | .terminate _ (.freeFileName node) =>
      .close node.ptr.socketd :: freeCalls node.ptr.ipAddress
  | .terminate _ (.removeHead node) | .terminate _ (.freePtr node) =>
      .close node.ptr.socketd :: freeCalls node.ptr.ipAddress ++ freeCalls node.ptr.fileName
  | .terminate _ (.freeNode node) =>
      .close node.ptr.socketd :: freeCalls node.ptr.ipAddress ++ freeCalls node.ptr.fileName ++
        [.free node.ptr.address]
  | _ => []

def BehindLoop : ServerPoint → Prop
  | .terminate _ .destroyMutex | .terminate _ .closeServer | .terminate _ .exit
  | .exited _ => True
  | _ => False

/-- Between the `close` of the socket of a node and the removal of the node. -/
def HalfReleased : ServerPoint → Prop
  | .terminate _ (.freeIpAddress _) | .terminate _ (.freeFileName _)
  | .terminate _ (.removeHead _) => True
  | _ => False

end ServerPoint

/-- The calls that give something back. -/
def TerminateCall.isRelease : TerminateCall → Bool
  | .close _ | .free _ => true
  | _ => false

def released (calls : List TerminateCall) : List TerminateCall :=
  calls.filter TerminateCall.isRelease

@[simp]
theorem released_append (first second : List TerminateCall) :
    released (first ++ second) = released first ++ released second :=
  List.filter_append ..

@[simp]
theorem released_freeCalls (ptr : Option Nat) : released (freeCalls ptr) = freeCalls ptr := by
  cases ptr <;> rfl

/-- What has been released is what the nodes that are gone had, and the part of the node
that is worked on, up to a relation between the two. -/
structure Accounted (connections : Connections)
    (relation : List TerminateCall → List TerminateCall → Prop) (point : ServerPoint)
    (memory : ServerMemory) : Prop where
  linked : ∀ node, point.linked = some node → ∃ rest, memory.headNode = node :: rest
  emptied : point.BehindLoop → memory.headNode = []
  closed : ∀ node, point.linked = some node → point.HalfReleased →
    .close node.ptr.socketd ∈ memory.calls
  account : ∃ gone, connections.nodes = gone ++ point.unlinked ++ memory.headNode ∧
    relation (released memory.calls) (gone.flatMap ListNode.releases ++ point.done)

section Steps

variable {connections : Connections} {relation : List TerminateCall → List TerminateCall → Prop}
  {reason : Int} {point : TerminatePoint} {memory : ServerMemory}

theorem Accounted.accepted {point : ServerPoint} {node : ListNode}
    (accounted : Accounted connections relation point memory)
    (worked : point.linked = some node) : node ∈ connections.nodes ∧ 0 < node.ptr.socketd := by
  rcases accounted.linked node worked with ⟨rest, head⟩
  rcases accounted.account with ⟨gone, nodes, _⟩
  have inList : node ∈ connections.nodes := by
    rw [nodes, head]
    exact List.mem_append_right _ List.mem_cons_self
  exact ⟨inList, connections.accepted node inList⟩

theorem relation_call (extended : ∀ first second more, relation first second →
      relation (first ++ more) (second ++ more)) {owed owed' calls : List TerminateCall}
    (balance : relation (released memory.calls) owed) (more : owed' = owed ++ released calls) :
    relation (released (memory.call calls).calls) owed' := by
  rw [ServerMemory.calls_call, released_append, more]
  exact extended _ _ _ balance

theorem Accounted.step (extended : ∀ first second more, relation first second →
      relation (first ++ more) (second ++ more))
    (accounted : Accounted connections relation (.terminate reason point) memory) :
    Accounted connections relation (terminateStep reason memory point).1
      (terminateStep reason memory point).2 := by
  rcases accounted.account with ⟨gone, nodes, balance⟩
  cases point with
  | head =>
      cases list : memory.headNode with
      | nil =>
          rw [list] at nodes
          simp only [terminateStep, list]
          exact ⟨nofun, fun _ => list, nofun, gone, by rw [list]; exact nodes, balance⟩
      | cons node rest =>
          rw [list] at nodes
          simp only [terminateStep, list]
          refine ⟨?_, nofun, nofun, gone, by rw [list]; exact nodes, balance⟩
          rintro _ ⟨⟩
          exact ⟨rest, list⟩
  | cancel node =>
      exact ⟨accounted.linked, nofun, nofun, gone, nodes,
        relation_call extended balance (List.append_nil _).symm⟩
  | join node =>
      exact ⟨accounted.linked, nofun, nofun, gone, nodes,
        relation_call extended balance (List.append_nil _).symm⟩
  | closeSocketd node =>
      have isOpen : node.ptr.socketd ≠ 0 := Int.ne_of_gt (accounted.accepted rfl).2
      simp only [terminateStep, if_pos isOpen]
      refine ⟨accounted.linked, nofun, ?_, gone, nodes, relation_call extended balance ?_⟩
      · rintro _ ⟨⟩ _
        exact List.mem_append_right _ (List.mem_singleton_self _)
      · rw [List.append_assoc]
        rfl
  | freeIpAddress node =>
      refine ⟨accounted.linked, nofun, ?_, gone, nodes, relation_call extended balance ?_⟩
      · intro worked isWorked _
        exact List.mem_append_left _ (accounted.closed worked isWorked trivial)
      · rw [released_freeCalls, List.append_assoc]
        rfl
  | freeFileName node =>
      refine ⟨accounted.linked, nofun, ?_, gone, nodes, relation_call extended balance ?_⟩
      · intro worked isWorked _
        exact List.mem_append_left _ (accounted.closed worked isWorked trivial)
      · rw [released_freeCalls, List.append_assoc]
        rfl
  | removeHead node =>
      rcases accounted.linked node rfl with ⟨rest, list⟩
      refine ⟨nofun, nofun, nofun, gone, ?_, balance⟩
      rw [nodes, list, List.append_assoc, List.append_assoc]
      simp only [terminateStep, list]
      rfl
  | freePtr node =>
      refine ⟨nofun, nofun, nofun, gone, nodes, relation_call extended balance ?_⟩
      rw [List.append_assoc]
      rfl
  | freeNode node =>
      refine ⟨nofun, nofun, nofun, gone ++ [node], ?_, relation_call extended balance ?_⟩
      · rw [nodes, List.append_assoc (gone ++ [node])]
        rfl
      · rw [List.flatMap_append, List.flatMap_singleton, node.releases_eq, ← List.append_assoc]
        exact List.append_nil _
  | destroyMutex =>
      have quiet : released (if memory.mutexInitialized then [TerminateCall.pthreadMutexDestroy]
          else []) = [] := by
        cases memory.mutexInitialized <;> rfl
      refine ⟨nofun, accounted.emptied, nofun, gone, nodes, relation_call extended balance ?_⟩
      rw [quiet]
      exact (List.append_nil _).symm
  | closeServer =>
      exact ⟨nofun, accounted.emptied, nofun, gone, nodes,
        relation_call extended balance (List.append_nil _).symm⟩
  | exit => exact ⟨nofun, accounted.emptied, nofun, gone, nodes, balance⟩

end Steps

/-! ## Interruptions -/

namespace ServerPoint

theorem done_sublist (point : ServerPoint) : point.done.Sublist
    ((point.unlinked ++ point.linked.toList).flatMap ListNode.releases) := by
  have ofNode : ∀ node : ListNode, [node].flatMap ListNode.releases = node.releases :=
    fun node => List.flatMap_singleton ..
  cases point with
  | exited status => exact List.nil_sublist _
  | terminate reason point =>
      cases point with
      | head | destroyMutex | closeServer | exit => exact List.nil_sublist _
      | cancel node | join node | closeSocketd node => exact List.nil_sublist _
      | freeIpAddress node => exact (List.nil_sublist _).cons_cons _
      | freeFileName node =>
          change List.Sublist _ ([node].flatMap ListNode.releases)
          rw [ofNode, ListNode.releases, List.append_assoc]
          exact List.sublist_append_left _ _
      | removeHead node | freePtr node =>
          change List.Sublist _ ([node].flatMap ListNode.releases)
          rw [ofNode]
          exact List.sublist_append_left _ _
      | freeNode node =>
          change List.Sublist _ ([node].flatMap ListNode.releases)
          rw [ofNode, ListNode.releases_eq]
          exact List.sublist_append_left _ _

/-- Outside the window nothing of a node in the list is released. -/
theorem done_of_linked {point : ServerPoint} {node : ListNode} (worked : point.linked = some node)
    (outside : ¬ point.HalfReleased) : point.done = [] := by
  cases point with
  | exited status => rfl
  | terminate reason point =>
      cases point with
      | head | destroyMutex | closeServer | exit => rfl
      | cancel node | join node | closeSocketd node => rfl
      | freePtr node | freeNode node => contradiction
      | freeIpAddress node | freeFileName node | removeHead node => exact absurd trivial outside

end ServerPoint

section Runs

variable {connections : Connections} {relation : List TerminateCall → List TerminateCall → Prop}
  {point point' : ServerPoint} {memory memory' : ServerMemory}

theorem Accounted.initial (connections : Connections) (mutexInitialized : Bool) (reason : Int)
    (caller : Option TerminationSignal) (reflexive : ∀ calls, relation calls calls) :
    Accounted connections relation
      (terminating connections mutexInitialized reason caller).point
      (terminating connections mutexInitialized reason caller).memory :=
  ⟨nofun, nofun, nofun, [], rfl, reflexive []⟩

theorem terminateStep_of_step (stepped : shutdown.step point memory = some (point', memory')) :
    ∃ reason current, point = .terminate reason current ∧
      terminateStep reason memory current = (point', memory') := by
  cases point with
  | exited status => contradiction
  | terminate reason current => exact ⟨reason, current, rfl, Option.some.inj stepped⟩

theorem Accounted.kept (extended : ∀ first second more, relation first second →
      relation (first ++ more) (second ++ more))
    (accounted : Accounted connections relation point memory)
    (stepped : shutdown.step point memory = some (point', memory')) :
    Accounted connections relation point' memory' := by
  rcases terminateStep_of_step stepped with ⟨reason, current, rfl, result⟩
  have next := accounted.step extended
  rwa [result] at next

/-- A handler starts as if the node that was worked on were gone, or untouched if it is
in the list. -/
theorem Accounted.restart_of (accounted : Accounted connections relation point memory)
    (settles : ∀ gone, relation (released memory.calls)
        (gone.flatMap ListNode.releases ++ point.done) →
      relation (released memory.calls) ((gone ++ point.unlinked).flatMap ListNode.releases)) :
    Accounted connections relation shutdown.handler memory := by
  rcases accounted.account with ⟨gone, nodes, balance⟩
  refine ⟨nofun, nofun, nofun, gone ++ point.unlinked, ?_, ?_⟩
  · rw [nodes, List.append_assoc (gone ++ point.unlinked)]
    rfl
  · have settled := settles gone balance
    rwa [← List.append_nil (List.flatMap _ _)] at settled

theorem Accounted.restart (accounted : Accounted connections List.Sublist point memory)
    (outside : ¬ point.HalfReleased) :
    Accounted connections List.Sublist shutdown.handler memory := by
  have settled : point.done.Sublist (point.unlinked.flatMap ListNode.releases) := by
    cases worked : point.linked with
    | some node =>
        rw [point.done_of_linked worked outside]
        exact List.nil_sublist _
    | none =>
        have sublist := point.done_sublist
        rwa [worked, Option.toList_none, List.append_nil] at sublist
  apply accounted.restart_of
  intro gone balance
  rw [List.flatMap_append]
  exact balance.trans (settled.append_left _)

theorem Accounted.restart_true (accounted : Accounted connections (fun _ _ => True) point memory) :
    Accounted connections (fun _ _ => True) shutdown.handler memory :=
  accounted.restart_of fun _ _ => trivial

theorem Accounted.released_sublist (accounted : Accounted connections List.Sublist point memory) :
    (released memory.calls).Sublist (connections.nodes.flatMap ListNode.releases) := by
  rcases accounted.account with ⟨gone, nodes, balance⟩
  have inList : point.linked.toList.Sublist memory.headNode := by
    cases worked : point.linked with
    | none => exact List.nil_sublist _
    | some node =>
        rcases accounted.linked node worked with ⟨rest, list⟩
        rw [list]
        exact (List.nil_sublist rest).cons_cons node
  refine balance.trans ?_
  rw [nodes, List.append_assoc, List.flatMap_append]
  exact (point.done_sublist.trans ((inList.append_left _).flatMap _)).append_left _

/-! ## A second release -/

/-- A node of the list will be, or has been, closed twice. -/
def Doubled (connections : Connections) (point : ServerPoint) (memory : ServerMemory) : Prop :=
  (∃ node ∈ connections.nodes, (∃ rest, memory.headNode = node :: rest) ∧
    .close node.ptr.socketd ∈ memory.calls ∧ ∃ reason,
      point = .terminate reason .head ∨ point = .terminate reason (.cancel node) ∨
      point = .terminate reason (.join node) ∨ point = .terminate reason (.closeSocketd node)) ∨
  ∃ node ∈ connections.nodes, 2 ≤ memory.calls.count (.close node.ptr.socketd)

/-- An interruption inside the window begins with a node whose socket is closed. -/
theorem Accounted.doubled (accounted : Accounted connections relation point memory)
    (inside : point.HalfReleased) : Doubled connections shutdown.handler memory := by
  have worked : ∃ node, point.linked = some node := by
    cases point with
    | exited status => contradiction
    | terminate reason point =>
        cases point with
        | freeIpAddress node | freeFileName node | removeHead node => exact ⟨node, rfl⟩
        | _ => contradiction
  rcases worked with ⟨node, worked⟩
  exact .inl ⟨node, (accounted.accepted worked).1, accounted.linked node worked,
    accounted.closed node worked inside, exitSuccess, .inl rfl⟩

theorem exists_calls_terminateStep (reason : Int) (memory : ServerMemory)
    (point : TerminatePoint) :
    ∃ calls, (terminateStep reason memory point).2.calls = memory.calls ++ calls := by
  cases point with
  | head => cases list : memory.headNode <;> exact ⟨[], by simp [terminateStep, list]⟩
  | closeSocketd node =>
      by_cases isClosed : node.ptr.socketd = 0
      · exact ⟨[], by simp [terminateStep, isClosed]⟩
      · exact ⟨[.close node.ptr.socketd], by simp [terminateStep, isClosed]⟩
  | removeHead node => exact ⟨[], (List.append_nil _).symm⟩
  | exit => exact ⟨[], (List.append_nil _).symm⟩
  | _ => exact ⟨_, rfl⟩

theorem Doubled.kept (doubled : Doubled connections point memory)
    (stepped : shutdown.step point memory = some (point', memory')) :
    Doubled connections point' memory' := by
  rcases terminateStep_of_step stepped with ⟨reason, current, rfl, result⟩
  rcases doubled with ⟨node, inList, ⟨rest, list⟩, closed, again, place⟩ | ⟨node, inList, twice⟩
  · have isOpen : node.ptr.socketd ≠ 0 := Int.ne_of_gt (connections.accepted node inList)
    simp only [ServerPoint.terminate.injEq] at place
    rcases place with ⟨rfl, rfl⟩ | ⟨rfl, rfl⟩ | ⟨rfl, rfl⟩ | ⟨rfl, rfl⟩
    · simp only [terminateStep, list, Prod.mk.injEq] at result
      rcases result with ⟨rfl, rfl⟩
      exact .inl ⟨node, inList, ⟨rest, list⟩, closed, reason, .inr (.inl rfl)⟩
    · rcases Prod.mk.inj result with ⟨rfl, rfl⟩
      exact .inl ⟨node, inList, ⟨rest, list⟩, List.mem_append_left _ closed, reason,
        .inr (.inr (.inl rfl))⟩
    · rcases Prod.mk.inj result with ⟨rfl, rfl⟩
      exact .inl ⟨node, inList, ⟨rest, list⟩, List.mem_append_left _ closed, reason,
        .inr (.inr (.inr rfl))⟩
    · simp only [terminateStep, if_pos isOpen, Prod.mk.injEq] at result
      rcases result with ⟨_, rfl⟩
      refine .inr ⟨node, inList, ?_⟩
      have once := List.count_pos_iff.mpr closed
      rw [ServerMemory.calls_call, List.count_append, List.count_singleton_self]
      omega
  · rcases exists_calls_terminateStep reason memory current with ⟨calls, more⟩
    rw [result] at more
    refine .inr ⟨node, inList, ?_⟩
    rw [more, List.count_append]
    exact Nat.le_add_right_of_le twice

theorem Doubled.restart (doubled : Doubled connections point memory) :
    Doubled connections shutdown.handler memory := by
  rcases doubled with ⟨node, inList, list, closed, _⟩ | twice
  · exact .inl ⟨node, inList, list, closed, exitSuccess, .inl rfl⟩
  · exact .inr twice

end Runs

/-! ## Whole runs -/

def Exited (machine : Machine TerminationSignal ServerPoint ServerMemory) : Prop :=
  ∃ status, machine.point = .exited status

/-- No part of a connection is released twice. -/
def ReleasedAtMostOnce (connections : Connections) (calls : List TerminateCall) : Prop :=
  ∀ node ∈ connections.nodes, ∀ call ∈ node.releases, calls.count call ≤ 1

/-- Every part of every connection is released, and not twice. -/
def ReleasedOnce (connections : Connections) (calls : List TerminateCall) : Prop :=
  ∀ node ∈ connections.nodes, ∀ call ∈ node.releases, calls.count call = 1

section Counts

variable {connections : Connections} {calls : List TerminateCall}

theorem count_released {node : ListNode} {call : TerminateCall}
    (isRelease : call ∈ node.releases) : (released calls).count call = calls.count call := by
  apply List.count_filter
  have whole : released node.releases = node.releases := by
    rw [ListNode.releases, released_append, ← List.singleton_append, released_append,
      released_append, released_freeCalls, released_freeCalls]
    rfl
  rw [← whole] at isRelease
  exact (List.mem_filter.mp isRelease).2

theorem releasedAtMostOnce_of_sublist
    (sublist : (released calls).Sublist (connections.nodes.flatMap ListNode.releases)) :
    ReleasedAtMostOnce connections calls := by
  intro node _ call isRelease
  rw [← count_released isRelease]
  exact List.nodup_iff_count_le_one.mp (sublist.nodup connections.separate) call

theorem releasedOnce_of_eq
    (whole : released calls = connections.nodes.flatMap ListNode.releases) :
    ReleasedOnce connections calls := by
  intro node inList call isRelease
  rw [← count_released isRelease, whole]
  exact List.count_eq_one_of_mem connections.separate
    (List.mem_flatMap.mpr ⟨node, inList, isRelease⟩)

end Counts

section Whole

variable {connections : Connections} {mutexInitialized : Bool} {reason : Int}
  {caller : Option TerminationSignal} {labels : List (Turn TerminationSignal)}
  {machine : Machine TerminationSignal ServerPoint ServerMemory}

theorem accounted_of_run
    (run : Run shutdown.Step (terminating connections mutexInitialized reason caller) labels
      machine) :
    Accounted connections (fun _ _ => True) machine.point machine.memory :=
  Program.invariant (fun _ _ _ _ accounted => accounted.kept fun _ _ _ _ => trivial)
    (fun _ _ accounted _ => accounted.restart_true) (Program.avoiding_of_run run)
    (Accounted.initial _ _ _ _ fun _ => trivial)

theorem releasedAtMostOnce_of_avoiding
    (run : Run (shutdown.AvoidingStep ServerPoint.HalfReleased)
      (terminating connections mutexInitialized reason caller) labels machine) :
    ReleasedAtMostOnce connections machine.memory.calls := by
  have accounted : Accounted connections List.Sublist machine.point machine.memory :=
    Program.invariant
      (fun _ _ _ _ accounted => accounted.kept fun _ _ more sublist => sublist.append_right more)
      (fun _ _ accounted outside => accounted.restart outside) run
      (Accounted.initial _ _ _ _ List.Sublist.refl)
  exact releasedAtMostOnce_of_sublist accounted.released_sublist

theorem releasedOnce_of_quiet
    (run : Run shutdown.Step (terminating connections mutexInitialized reason caller) labels
      machine) (quiet : ∀ label ∈ labels, label = .run) (exited : Exited machine) :
    ReleasedOnce connections machine.memory.calls := by
  have accounted : Accounted connections Eq machine.point machine.memory :=
    Program.invariant
      (fun _ _ _ _ accounted => accounted.kept fun _ _ more same => congrArg (· ++ more) same)
      (fun _ _ _ outside => absurd trivial outside)
      (Program.avoiding_of_quiet (fun _ => True) run quiet)
      (Accounted.initial _ _ _ _ fun _ => rfl)
  rcases exited with ⟨status, ended⟩
  rcases accounted.account with ⟨gone, nodes, balance⟩
  have empty : machine.memory.headNode = [] := by
    apply accounted.emptied
    rw [ended]
    trivial
  rw [ended] at nodes balance
  rw [empty] at nodes
  have all : connections.nodes = gone := by
    rw [nodes]
    exact (List.append_nil _).trans (List.append_nil _)
  apply releasedOnce_of_eq
  rw [balance, all]
  exact List.append_nil _

/-- An ended run in which code inside the window was interrupted has closed a socket twice. -/
theorem not_releasedAtMostOnce_of_interrupted {before interrupted : Machine _ _ _}
    {past future : List (Turn TerminationSignal)} {label : Turn TerminationSignal}
    (run : Run shutdown.Step (terminating connections mutexInitialized reason caller) past before)
    (inside : ¬ Program.Avoids ServerPoint.HalfReleased before label)
    (taken : shutdown.Step before label interrupted)
    (rest : Run shutdown.Step interrupted future machine) (exited : Exited machine) :
    ¬ ReleasedAtMostOnce connections machine.memory.calls := by
  have accounted := accounted_of_run run
  rcases not_or.mp inside with ⟨notRun, window⟩
  have begins : Doubled connections interrupted.point interrupted.memory := by
    rcases Program.step_cases taken with ⟨isRun, _⟩ | ⟨signal, _, _, point, memory⟩
    · exact absurd isRun notRun
    · rw [point, memory]
      exact accounted.doubled (not_not.mp window)
  have doubled : Doubled connections machine.point machine.memory :=
    Program.invariant (fun _ _ _ _ doubled => doubled.kept)
      (fun _ _ doubled _ => doubled.restart) (Program.avoiding_of_run rest) begins
  intro atMostOnce
  rcases exited with ⟨status, ended⟩
  rcases doubled with ⟨node, _, _, _, again, place⟩ | ⟨node, inList, twice⟩
  · rw [ended] at place
    simp at place
  · have once := atMostOnce node inList (.close node.ptr.socketd) List.mem_cons_self
    omega

def ServerPoint.remaining (point : ServerPoint) (memory : ServerMemory) : Nat :=
  10 * memory.headNode.length +
    match point with
    | .terminate _ (.freePtr _) => 22
    | .terminate _ (.freeNode _) => 21
    | .terminate _ .head => 20
    | .terminate _ (.cancel _) => 19
    | .terminate _ (.join _) => 18
    | .terminate _ (.closeSocketd _) => 17
    | .terminate _ (.freeIpAddress _) => 16
    | .terminate _ (.freeFileName _) => 15
    | .terminate _ (.removeHead _) => 14
    | .terminate _ .destroyMutex => 3
    | .terminate _ .closeServer => 2
    | .terminate _ .exit => 1
    | .exited _ => 0

theorem remaining_lt {point : TerminatePoint} {memory : ServerMemory}
    {relation : List TerminateCall → List TerminateCall → Prop}
    (accounted : Accounted connections relation (.terminate reason point) memory) :
    (terminateStep reason memory point).1.remaining (terminateStep reason memory point).2 <
      (ServerPoint.terminate reason point).remaining memory := by
  cases point with
  | head => cases list : memory.headNode <;> simp [terminateStep, ServerPoint.remaining, list]
  | closeSocketd node =>
      by_cases isClosed : node.ptr.socketd = 0 <;>
        simp [terminateStep, ServerPoint.remaining, isClosed]
  | removeHead node =>
      rcases accounted.linked node rfl with ⟨rest, list⟩
      simp only [terminateStep, ServerPoint.remaining, list, List.tail_cons, List.length_cons]
      omega
  | _ => simp [terminateStep, ServerPoint.remaining]

theorem exists_run_to_exit
    (run : Run shutdown.Step (terminating connections mutexInitialized reason caller) labels
      machine) :
    ∃ more machine', Run shutdown.Step machine more machine' ∧ (∀ label ∈ more, label = .run) ∧
      Exited machine' := by
  have steps : ∀ point memory point' memory', Accounted connections (fun _ _ => True) point memory →
      shutdown.step point memory = some (point', memory') →
        Accounted connections (fun _ _ => True) point' memory' ∧
          point'.remaining memory' < point.remaining memory := by
    intro point memory point' memory' accounted stepped
    refine ⟨accounted.kept (fun _ _ _ _ => trivial) stepped, ?_⟩
    rcases terminateStep_of_step stepped with ⟨reason, current, rfl, result⟩
    have less := remaining_lt accounted
    rwa [result] at less
  rcases Program.exists_run_to_end _ steps (accounted_of_run run) with
    ⟨more, machine', rest, quiet, ended⟩
  refine ⟨more, machine', rest, quiet, ?_⟩
  cases point : machine'.point with
  | exited status => exact ⟨status, point⟩
  | terminate reason point' =>
      rw [point] at ended
      contradiction

/-- `terminate` releases nothing twice as long as it is not interrupted between the
`close` of a socket and the removal of its node; an ended run in which it was has released
something twice. Without further signals it ends, with each connection released once. -/
theorem terminate_releases_iff
    (run : Run shutdown.Step (terminating connections mutexInitialized reason caller) labels
      machine) :
    (Run (shutdown.AvoidingStep ServerPoint.HalfReleased)
        (terminating connections mutexInitialized reason caller) labels machine →
      ReleasedAtMostOnce connections machine.memory.calls) ∧
    (Exited machine →
      ((ReleasedAtMostOnce connections machine.memory.calls ∧
          ((∀ label ∈ labels, label = .run) →
            ReleasedOnce connections machine.memory.calls)) ↔
        Run (shutdown.AvoidingStep ServerPoint.HalfReleased)
          (terminating connections mutexInitialized reason caller) labels machine)) ∧
    ∃ more machine', Run shutdown.Step machine more machine' ∧ (∀ label ∈ more, label = .run) ∧
      Exited machine' := by
  refine ⟨releasedAtMostOnce_of_avoiding, fun exited => ⟨?_, ?_⟩, exists_run_to_exit run⟩
  · rintro ⟨atMostOnce, _⟩
    rcases Run.guarded_or (Program.Avoids ServerPoint.HalfReleased) run with
      avoids | ⟨past, before, label, interrupted, future, _, earlier, inside, taken, rest⟩
    · exact avoids
    · exact absurd atMostOnce
        (not_releasedAtMostOnce_of_interrupted earlier inside taken rest exited)
  · intro avoiding
    exact ⟨releasedAtMostOnce_of_avoiding avoiding,
      fun quiet => releasedOnce_of_quiet run quiet exited⟩

def oneConnection : Connections where
  nodes := [⟨1, ⟨2, 3, 4, some 5, some 6⟩⟩]
  accepted := by decide
  separate := by decide

def doubleCloseTurns : List (Turn TerminationSignal) :=
  List.replicate 4 .run ++ .deliver .sigterm :: List.replicate 13 .run

theorem terminate_closes_twice : ∃ machine,
    Run shutdown.Step (terminating oneConnection true exitSuccess (some .sigint))
      doubleCloseTurns machine ∧
    Exited machine ∧ machine.memory.calls.count (.close 4) = 2 ∧
    ¬ ReleasedAtMostOnce oneConnection machine.memory.calls := by
  obtain ⟨machine, followed, exited, twice⟩ : ∃ machine,
      follow shutdown.next (terminating oneConnection true exitSuccess (some .sigint))
          doubleCloseTurns = some machine ∧
        machine.point = .exited exitSuccess ∧ machine.memory.calls.count (.close 4) = 2 :=
    ⟨_, rfl, rfl, by decide⟩
  refine ⟨machine, run_of_follow followed, ⟨_, exited⟩, twice, ?_⟩
  intro atMostOnce
  have once := atMostOnce ⟨1, ⟨2, 3, 4, some 5, some 6⟩⟩ List.mem_cons_self (.close 4)
    List.mem_cons_self
  omega

/-- A second signal before the socket is closed does no harm. -/
theorem terminate_releases_iff_early : ∃ machine,
    Run shutdown.Step (terminating oneConnection true exitFailure none)
      (.run :: .deliver .sigterm :: List.replicate 13 .run) machine ∧
    Exited machine ∧ ReleasedAtMostOnce oneConnection machine.memory.calls := by
  obtain ⟨started, interrupted, machine, first, second, followed, exited⟩ :
      ∃ started interrupted machine,
        shutdown.Step (terminating oneConnection true exitFailure none) .run started ∧
        shutdown.AvoidingStep ServerPoint.HalfReleased started (.deliver .sigterm) interrupted ∧
        follow shutdown.next interrupted (List.replicate 13 .run) = some machine ∧
        machine.point = .exited exitSuccess := ⟨_, _, _, rfl, ⟨.inr nofun, rfl⟩, rfl, rfl⟩
  have rest : Run shutdown.Step interrupted (List.replicate 13 .run) machine :=
    run_of_follow followed
  have quiet : ∀ label ∈ List.replicate 13 (Turn.run : Turn TerminationSignal), label = .run :=
    fun label membership => List.eq_of_mem_replicate membership
  have run := Run.cons first (Run.cons second.2 rest)
  exact ⟨machine, run, ⟨_, exited⟩, (terminate_releases_iff run).1
    (.cons ⟨.inl rfl, first⟩ (.cons second (Program.avoiding_of_quiet _ rest quiet)))⟩

end Whole

end Aesd
