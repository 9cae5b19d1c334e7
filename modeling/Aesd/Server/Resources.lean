import Aesd.Server.Receive
import Aesd.Server.Steps

/-!
# What a connection thread holds

The mutex, the descriptors and the receive buffers that a thread has taken and not
given back, read off its calls.  At the head of its loop a thread holds nothing.
The failures of the `ioctl`, of the transfers and of the release of the mutex lead
to exits that leave something behind; all others give everything back.
-/

namespace Aesd

open Loop Reactive

/-- `stray` marks that something was given back that was not held. -/
structure Held where
  mutex : Bool := false
  descriptors : List Int := []
  buffers : List Int := []
  stray : Bool := false
  deriving DecidableEq, Repr

namespace Held

/-- `free` and `realloc` give a buffer back, `NULL` being none. -/
def dropBuffer (held : Held) (ptr : Int) : Held :=
  if ptr = 0 then held
  else if ptr ∈ held.buffers then { held with buffers := held.buffers.erase ptr }
  else { held with stray := true }

def closeDescriptor (held : Held) (filed : Int) : Held :=
  if filed ∈ held.descriptors then { held with descriptors := held.descriptors.erase filed }
  else { held with stray := true }

/-- What is held after a call. A descriptor that was passed to `close` is given back,
whatever `close` returns. -/
def after (held : Held) : Call × Reply → Held
  | (.realloc ptr _, reply) =>
      if reply.value = 0 then held
      else
        { held.dropBuffer ptr with
          buffers := reply.value :: (held.dropBuffer ptr).buffers }
  | (.free ptr, _) => held.dropBuffer ptr
  | (.pthreadMutexLock, reply) => if reply.value = 0 then { held with mutex := true } else held
  | (.pthreadMutexUnlock, reply) =>
      if reply.value ≠ 0 then held
      else if held.mutex then { held with mutex := false }
      else { held with stray := true }
  | (.openFile, reply) =>
      if reply.value < 0 then held
      else { held with descriptors := reply.value :: held.descriptors }
  | (.close filed, _) => held.closeDescriptor filed
  | _ => held

end Held

def heldAfter : List (Call × Reply) → Held := List.foldl Held.after {}

theorem heldAfter_append (past : List (Call × Reply)) (event : Call × Reply) :
    heldAfter (past ++ [event]) = (heldAfter past).after event := by
  simp [heldAfter]

/-- The failures after which a thread ends without giving everything back. -/
def LeavesBehind : Call × Reply → Prop
  | (.ioctl _ _, reply) | (.pthreadMutexUnlock, reply) => reply.value ≠ 0
  | (.writeFile _ data, reply) =>
      data ≠ [] ∧ toSizeT reply.value = 0 ∧ reply.errno ≠ 0
  | (.readFile _ _, reply) | (.writeSocket _, reply) => reply.value < 0 ∧ reply.errno ≠ 0
  | _ => False

namespace Thread

/-- What a thread holds in a state, as long as nothing was left behind. -/
def held : Thread → Held
  | .readStr state => holding false [] state.buffer
  | .lock buffer | .free buffer | .freeBreak buffer => holding false [] buffer
  | .openFile buffer | .unlock buffer | .freeUnlockBreak buffer => holding true [] buffer
  | .ioctl buffer filed _ | .dumpBuffer buffer filed _ | .dumpFile buffer filed _
  | .close buffer filed => holding true [filed] buffer
  | .unlockBreak => holding true [] {}
where
  holding (mutex : Bool) (descriptors : List Int) (buffer : SocketBuffer) : Held :=
    { mutex, descriptors, buffers := if buffer.bufPtr = 0 then [] else [buffer.bufPtr] }

/-- A thread that has a packet has a buffer. -/
def Sound : Thread → Prop
  | .readStr (.resize _ _) => True
  | .readStr (.read buffer _) => buffer.bufPtr ≠ 0
  | .readStr (.release buffer retVal) => buffer.bufPtr ≠ 0 ∧ retVal ≠ 0
  | .lock buffer | .openFile buffer => buffer.bufPtr ≠ 0
  | _ => True

def Leaving (held : Held) : Thread → Prop
  | .freeUnlockBreak _ | .unlockBreak => held.descriptors ≠ []
  | .freeBreak _ => held.mutex = true
  | _ => False

structure Accounts (state : Thread) (reply : Reply) : Prop where
  calm : ¬ LeavesBehind (threadRunFunction.call state, reply) →
    (threadRunFunction.resume state reply).Satisfies
      (fun state' => state'.Sound ∧
        state.held.after (threadRunFunction.call state, reply) = state'.held)
      (fun _ => state.held.after (threadRunFunction.call state, reply) = {})
  fails : LeavesBehind (threadRunFunction.call state, reply) →
    (threadRunFunction.resume state reply).Satisfies
      (Leaving (state.held.after (threadRunFunction.call state, reply)))
      (fun _ => state.held.after (threadRunFunction.call state, reply) ≠ {})

section Holding

variable {mutex : Bool} {descriptors : List Int} {buffer : SocketBuffer}

theorem holding_of_unset (unset : buffer.bufPtr = 0) :
    held.holding mutex descriptors buffer = held.holding mutex descriptors {} := by
  simp [held.holding, unset]

theorem dropBuffer_holding : (held.holding mutex descriptors buffer).dropBuffer buffer.bufPtr =
    held.holding mutex descriptors {} := by
  by_cases unset : buffer.bufPtr = 0
  · simp [Held.dropBuffer, held.holding, unset]
  · simp [Held.dropBuffer, held.holding, unset]

theorem closeDescriptor_holding (filed : Int) :
    (held.holding mutex [filed] buffer).closeDescriptor filed =
      held.holding mutex [] buffer := by
  simp [Held.closeDescriptor, held.holding]

theorem freeBuffer_holding {held' : Held} {freeing : Thread} {otherwise : Flow Thread ThreadEnd}
    {onLeave : ThreadEnd → Prop}
    (same : held' = held.holding mutex descriptors buffer) (sound : freeing.Sound)
    (freed : freeing.held = held.holding mutex descriptors buffer)
    (continued : held' = held.holding mutex descriptors {} →
      otherwise.Satisfies (fun state' => state'.Sound ∧ held' = state'.held) onLeave) :
    (freeBuffer buffer freeing otherwise).Satisfies
      (fun state' => state'.Sound ∧ held' = state'.held) onLeave := by
  by_cases unset : buffer.bufPtr = 0
  · rw [freeBuffer, if_neg (not_not.mpr unset)]
    exact continued (same.trans (holding_of_unset unset))
  · rw [freeBuffer, if_pos unset]
    exact ⟨sound, same.trans freed.symm⟩

end Holding

section Steps

variable {buffer : SocketBuffer} {reply : Reply} {filed : Int}

theorem Accounts.of_calm {state : Thread}
    (never : ¬ LeavesBehind (threadRunFunction.call state, reply))
    (satisfied : (threadRunFunction.resume state reply).Satisfies
      (fun state' => state'.Sound ∧
        state.held.after (threadRunFunction.call state, reply) = state'.held)
      (fun _ => state.held.after (threadRunFunction.call state, reply) = {})) :
    state.Accounts reply :=
  ⟨fun _ => satisfied, fun leaves => absurd leaves never⟩

theorem accounts_lock (set : buffer.bufPtr ≠ 0) : (Thread.lock buffer).Accounts reply := by
  apply Accounts.of_calm
  · exact id
  by_cases locked : reply.value = 0
  · simp only [threadRunFunction, Held.after, ne_eq, locked, not_true, if_false]
    exact ⟨set, rfl⟩
  · simp only [threadRunFunction, Held.after, if_neg locked, ne_eq, if_pos locked]
    exact freeBuffer_holding rfl trivial rfl id

theorem accounts_openFile (set : buffer.bufPtr ≠ 0) :
    (Thread.openFile buffer).Accounts reply := by
  apply Accounts.of_calm
  · exact id
  by_cases failed : reply.value < 0
  · simp only [threadRunFunction, Held.after, if_pos failed]
    exact freeBuffer_holding rfl trivial rfl fun nothing => ⟨trivial, nothing⟩
  · simp only [threadRunFunction, Held.after, if_neg failed, dispatch_eq set]
    split
    · split
      · exact ⟨trivial, rfl⟩
      · exact ⟨trivial, rfl⟩
    · exact ⟨trivial, rfl⟩

theorem descriptors_ne_nil (mutex : Bool) (filed : Int) (buffer : SocketBuffer) :
    (held.holding mutex [filed] buffer).descriptors ≠ [] := List.cons_ne_nil _ _

theorem freeBuffer_leaving {onLeave : ThreadEnd → Prop} {held : Held}
    (forgotten : held.descriptors ≠ []) :
    (freeBuffer buffer (.freeUnlockBreak buffer) (.next .unlockBreak)).Satisfies
      (Leaving held) onLeave :=
  freeBuffer_satisfies forgotten forgotten

theorem accounts_ioctl (seekto : AesdSeekto) :
    (Thread.ioctl buffer filed seekto).Accounts reply where
  calm succeeds := by
    have sought : ¬ reply.value ≠ 0 := succeeds
    simp only [threadRunFunction, if_neg sought]
    exact ⟨trivial, rfl⟩
  fails failed := by
    have refused : reply.value ≠ 0 := failed
    simp only [threadRunFunction, if_pos refused]
    exact freeBuffer_leaving (descriptors_ne_nil true filed buffer)

theorem accounts_dumpBuffer (left : List UInt8) :
    (Thread.dumpBuffer buffer filed left).Accounts reply := by
  by_cases short : toSizeT reply.value < left.length
  · by_cases nothing : toSizeT reply.value ≤ 0
    · have resumed : (dumpBufferToFile filed).resume left reply = .leave reply.errno := by
        simp only [dumpBufferToFile, if_pos short, if_pos nothing]
      constructor
      · intro succeeds
        have noError : ¬ reply.errno ≠ 0 := by
          intro error
          exact succeeds ⟨List.ne_nil_of_length_pos (by omega), Nat.le_zero.mp nothing, error⟩
        simp only [threadRunFunction, resumed, if_neg noError]
        exact ⟨trivial, rfl⟩
      · rintro ⟨_, _, error⟩
        simp only [threadRunFunction, resumed, if_pos error]
        exact freeBuffer_leaving (descriptors_ne_nil true filed buffer)
    · have resumed : (dumpBufferToFile filed).resume left reply =
          .next (left.drop (toSizeT reply.value)) := by
        simp only [dumpBufferToFile, if_pos short, if_neg nothing]
      apply Accounts.of_calm
      · rintro ⟨_, none, _⟩
        exact nothing (Nat.le_of_eq none)
      · simp only [threadRunFunction, resumed]
        exact ⟨trivial, rfl⟩
  · have resumed : (dumpBufferToFile filed).resume left reply = .leave 0 := if_neg short
    apply Accounts.of_calm
    · rintro ⟨nonempty, none, _⟩
      have some := List.length_pos_iff.mpr nonempty
      omega
    · simp only [threadRunFunction, resumed, ne_eq, not_true, if_false]
      exact ⟨trivial, rfl⟩

/-- A failed read or write is what ends the transfer with an error. -/
theorem dumpFile_leavesBehind_iff (state : DumpFile) :
    LeavesBehind ((dumpFileToSocket filed).call state, reply) ↔
      ∃ retVal, retVal ≠ 0 ∧ (dumpFileToSocket filed).resume state reply = .leave retVal := by
  cases state with
  | read buf =>
      simp only [dumpFileToSocket, LeavesBehind]
      by_cases some : 0 < reply.value
      · simp [some, Int.not_lt.mpr (Int.le_of_lt some)]
      · by_cases failed : reply.value < 0
        · simp [some, failed]
        · simp [some, failed]
  | write buf writePtr currentChunkSize =>
      simp only [dumpFileToSocket, LeavesBehind]
      by_cases failed : reply.value < 0
      · simp [failed]
      · simp only [failed, false_and, if_false, false_iff]
        rintro ⟨retVal, _, left⟩
        split at left <;> cases left

theorem accounts_dumpFile (state : DumpFile) :
    (Thread.dumpFile buffer filed state).Accounts reply := by
  have leaves := @dumpFile_leavesBehind_iff reply filed state
  have same : (Thread.dumpFile buffer filed state).held.after
      ((dumpFileToSocket filed).call state, reply) = held.holding true [filed] buffer := by
    cases state <;> rfl
  constructor
  · intro succeeds
    simp only [threadRunFunction, same]
    cases resumed : (dumpFileToSocket filed).resume state reply with
    | next state' => exact ⟨trivial, rfl⟩
    | leave retVal =>
        have sent : ¬ retVal ≠ 0 := fun failed => succeeds (leaves.mpr ⟨retVal, failed, resumed⟩)
        simp only [if_neg sent]
        exact ⟨trivial, rfl⟩
  · intro failure
    obtain ⟨retVal, failed, resumed⟩ := leaves.mp failure
    simp only [threadRunFunction, same, resumed, if_pos failed]
    exact descriptors_ne_nil true filed buffer

theorem accounts_close : (Thread.close buffer filed).Accounts reply := by
  apply Accounts.of_calm
  · exact id
  have closed : (Thread.close buffer filed).held.closeDescriptor filed =
      held.holding true [] buffer := closeDescriptor_holding filed
  simp only [threadRunFunction, Held.after]
  split
  · exact freeBuffer_holding closed trivial rfl fun nothing => ⟨trivial, nothing⟩
  · exact ⟨trivial, closed⟩

theorem accounts_unlock : (Thread.unlock buffer).Accounts reply where
  calm succeeds := by
    have unlocked : ¬ reply.value ≠ 0 := succeeds
    simp only [threadRunFunction, Held.after, if_neg unlocked]
    exact freeBuffer_holding rfl trivial rfl fun nothing => ⟨trivial, nothing⟩
  fails failed := by
    have stuck : reply.value ≠ 0 := failed
    have holds : (Thread.unlock buffer).held ≠ {} := fun same => by
      cases congrArg Held.mutex same
    simp only [threadRunFunction, Held.after, if_pos stuck]
    exact freeBuffer_satisfies rfl holds

theorem accounts_unlockBreak : Thread.unlockBreak.Accounts reply where
  calm succeeds := by
    have unlocked : ¬ reply.value ≠ 0 := succeeds
    simp only [threadRunFunction, Held.after, if_neg unlocked]
    rfl
  fails failed := by
    have stuck : reply.value ≠ 0 := failed
    simp only [threadRunFunction, Held.after, if_pos stuck]
    exact fun same => by cases congrArg Held.mutex same

theorem accounts_free (buffer : SocketBuffer) (reply : Reply) :
    (Thread.free buffer).Accounts reply :=
  .of_calm id ⟨trivial, dropBuffer_holding⟩

theorem accounts_freeUnlockBreak (buffer : SocketBuffer) (reply : Reply) :
    (Thread.freeUnlockBreak buffer).Accounts reply :=
  .of_calm id ⟨trivial, dropBuffer_holding⟩

theorem accounts_freeBreak (buffer : SocketBuffer) (reply : Reply) :
    (Thread.freeBreak buffer).Accounts reply :=
  .of_calm id dropBuffer_holding

/-! ### Receiving -/

theorem sound_round (set : buffer.bufPtr ≠ 0) (allocatedSpace : Nat) :
    (Thread.readStr (ReadStr.round buffer allocatedSpace)).Sound := by
  unfold ReadStr.round
  split
  · trivial
  · exact set

theorem readStr_fail {state : ReadStr} {retVal : Int} {held' : Held} {failed : Flow ReadStr _}
    (resumed : readStrFromSocket.resume state reply = failed)
    (exits : failed = ReadStr.fail buffer retVal) (error : retVal ≠ 0)
    (same : held' = held.holding false [] buffer) :
    (threadRunFunction.resume (.readStr state) reply).Satisfies
      (fun state' => state'.Sound ∧ held' = state'.held) (fun _ => held' = {}) := by
  rw [exits, ReadStr.fail] at resumed
  by_cases set : buffer.bufPtr ≠ 0
  · rw [if_pos set] at resumed
    simp only [threadRunFunction, resumed]
    exact ⟨⟨set, error⟩, same⟩
  · rw [if_neg set] at resumed
    simp only [threadRunFunction, resumed, if_pos error]
    rw [ne_eq, not_not] at set
    exact same.trans (holding_of_unset set)

theorem accounts_resize {allocatedSpace : Nat}
    (replies : ReceiveReplies
      (readStrFromSocket.call (.resize buffer allocatedSpace), reply)) :
    (Thread.readStr (.resize buffer allocatedSpace)).Accounts reply := by
  apply Accounts.of_calm
  · exact id
  by_cases failed : reply.value = 0
  · have resumed : readStrFromSocket.resume (.resize buffer allocatedSpace) reply =
        ReadStr.fail buffer reply.errno := if_pos failed
    refine readStr_fail resumed rfl (replies failed) ?_
    exact if_pos failed
  · simp only [threadRunFunction, readStrFromSocket, Held.after, if_neg failed]
    refine ⟨failed, ?_⟩
    have dropped : (Thread.readStr (.resize buffer allocatedSpace)).held.dropBuffer
        buffer.bufPtr = held.holding false [] {} := dropBuffer_holding
    rw [dropped]
    simp [Thread.held, ReadStr.buffer, held.holding, failed]

theorem accounts_read {allocatedSpace : Nat} (set : buffer.bufPtr ≠ 0)
    (replies : ReceiveReplies
      (readStrFromSocket.call (.read buffer allocatedSpace), reply)) :
    (Thread.readStr (.read buffer allocatedSpace)).Accounts reply := by
  apply Accounts.of_calm
  · exact id
  by_cases failed : reply.value < 0
  · have resumed : readStrFromSocket.resume (.read buffer allocatedSpace) reply =
        ReadStr.fail buffer reply.errno := if_pos failed
    refine readStr_fail resumed rfl ?_ rfl
    rcases replies with ⟨_, error⟩ | ⟨counted, _⟩
    · exact error
    · omega
  · by_cases atEnd : reply.value = 0
    · have resumed : readStrFromSocket.resume (.read buffer allocatedSpace) reply =
          ReadStr.fail buffer (-1) := (if_neg failed).trans (if_pos atEnd)
      exact readStr_fail resumed rfl (by decide) rfl
    · rw [resume_read failed atEnd]
      split
      · exact ⟨set, rfl⟩
      · refine ⟨sound_round (by exact set) _, ?_⟩
        simp only [Thread.held, ReadStr.buffer_round]
        rfl

theorem accounts_release {retVal : Int} (failed : retVal ≠ 0) :
    (Thread.readStr (.release buffer retVal)).Accounts reply := by
  apply Accounts.of_calm
  · exact id
  simp only [threadRunFunction, readStrFromSocket, if_pos failed]
  exact dropBuffer_holding

/-- A step accounts for everything, if failed allocations and reads set `errno`. -/
theorem accounts {state : Thread} (sound : state.Sound)
    (replies : ReceiveReplies (threadRunFunction.call state, reply)) :
    state.Accounts reply := by
  cases state with
  | readStr state =>
      cases state with
      | resize buffer allocatedSpace => exact accounts_resize replies
      | read buffer allocatedSpace => exact accounts_read sound replies
      | release buffer retVal => exact accounts_release sound.2
  | lock buffer => exact accounts_lock sound
  | openFile buffer => exact accounts_openFile sound
  | ioctl buffer filed seekto => exact accounts_ioctl seekto
  | dumpBuffer buffer filed left => exact accounts_dumpBuffer left
  | dumpFile buffer filed state => exact accounts_dumpFile state
  | close buffer filed => exact accounts_close
  | unlock buffer => exact accounts_unlock
  | free buffer => exact accounts_free buffer reply
  | freeUnlockBreak buffer => exact accounts_freeUnlockBreak buffer reply
  | unlockBreak => exact accounts_unlockBreak
  | freeBreak buffer => exact accounts_freeBreak buffer reply

/-! ### After something was left behind -/

theorem dropBuffer_frame (held : Held) (ptr : Int) :
    (held.dropBuffer ptr).descriptors = held.descriptors ∧
      (held.dropBuffer ptr).mutex = held.mutex := by
  unfold Held.dropBuffer
  split
  · exact ⟨rfl, rfl⟩
  · split <;> exact ⟨rfl, rfl⟩

/-- The exits do not find again what was left behind. -/
theorem Leaving.step {state : Thread} {held : Held} (leaving : Leaving held state) :
    (threadRunFunction.resume state reply).Satisfies
      (Leaving (held.after (threadRunFunction.call state, reply)))
      (fun _ => held.after (threadRunFunction.call state, reply) ≠ {}) := by
  cases state with
  | freeUnlockBreak buffer =>
      have forgotten : held.descriptors ≠ [] := leaving
      change (held.dropBuffer buffer.bufPtr).descriptors ≠ []
      rwa [(dropBuffer_frame held buffer.bufPtr).1]
  | unlockBreak =>
      have forgotten : held.descriptors ≠ [] := leaving
      have kept : (held.after (.pthreadMutexUnlock, reply)).descriptors = held.descriptors := by
        simp only [Held.after]
        split
        · rfl
        · split <;> rfl
      change held.after (.pthreadMutexUnlock, reply) ≠ {}
      intro nothing
      rw [nothing] at kept
      exact forgotten kept.symm
  | freeBreak buffer =>
      have stuck : held.mutex = true := leaving
      change held.dropBuffer buffer.bufPtr ≠ {}
      intro nothing
      have kept := (dropBuffer_frame held buffer.bufPtr).2
      rw [nothing, stuck] at kept
      cases kept
  | _ => exact leaving.elim

end Steps

/-! ## Whole runs -/

/-- The trace accounts for what the thread holds, or something was left behind. -/
def Accounted (past : List (Call × Reply)) (state : Thread) : Prop :=
  ((∀ event ∈ past, ¬ LeavesBehind event) ∧ state.Sound ∧ heldAfter past = state.held) ∨
  ((∃ event ∈ past, LeavesBehind event) ∧ Leaving (heldAfter past) state)

theorem threadRunFunction_keeps_accounted :
    threadRunFunction.Keeps ReceiveReplies Accounted fun past _ =>
      (heldAfter past = {} ↔ ∀ event ∈ past, ¬ LeavesBehind event) := by
  intro past state reply accounted replies
  have added := heldAfter_append past (threadRunFunction.call state, reply)
  -- once something was left behind, the past contains the failure for good
  have notCalm {event : Call × Reply} {more : List (Call × Reply)} (leaves : LeavesBehind event)
      (membership : event ∈ more) : ¬ ∀ event ∈ more, ¬ LeavesBehind event :=
    fun calm => calm event membership leaves
  rcases accounted with ⟨calm, sound, holds⟩ | ⟨⟨event, earlier, leaves⟩, leaving⟩
  · have step := accounts sound replies
    rw [holds] at added
    by_cases leaves : LeavesBehind (threadRunFunction.call state, reply)
    · have member : (threadRunFunction.call state, reply) ∈
          past ++ [(threadRunFunction.call state, reply)] := by simp
      have failing := step.fails leaves
      rw [← added] at failing
      refine failing.imp ?_ ?_
      · exact fun _ leaving => .inr ⟨⟨_, member, leaves⟩, leaving⟩
      · exact fun _ remains => iff_of_false remains (notCalm leaves member)
    · have calmAfter : ∀ event ∈ past ++ [(threadRunFunction.call state, reply)],
          ¬ LeavesBehind event :=
        List.forall_mem_append.mpr ⟨calm, List.forall_mem_singleton.mpr leaves⟩
      refine (step.calm leaves).imp ?_ ?_
      · rintro state' ⟨sound', holds'⟩
        exact .inl ⟨calmAfter, sound', added.trans holds'⟩
      · exact fun _ nothing => iff_of_true (added.trans nothing) calmAfter
  · have member : event ∈ past ++ [(threadRunFunction.call state, reply)] :=
      List.mem_append_left _ earlier
    have step := @Leaving.step reply state (heldAfter past) leaving
    rw [← added] at step
    refine step.imp ?_ ?_
    · exact fun _ leaving => .inr ⟨⟨event, member, leaves⟩, leaving⟩
    · exact fun _ remains => iff_of_false remains (notCalm leaves member)

theorem start_accounted : Accounted [] start :=
  .inl ⟨by simp, trivial, rfl⟩

end Thread

/-- At the head of its loop and after its return a thread has given everything back,
once. -/
structure GivesBack (trace : List (Call × Reply)) (ended : Option ThreadEnd) : Prop where
  loopHeads : ∀ before after, trace = before ++ after →
    threadRunFunction.Runs Thread.start before Thread.start → heldAfter before = {}
  returned : ended.isSome → heldAfter trace = {}

section Executions

variable {trace : List (Call × Reply)} {ended : Option ThreadEnd}

/-- A thread holds nothing at the head of its loop, and it has given everything back
when it returns exactly if none of the failures has happened after which it leaves
something behind. -/
theorem threadRunFunction_givesBack_iff
    (behaves : threadRunFunction.Behaves Thread.start trace ended)
    (replies : ∀ event ∈ trace, ReceiveReplies event) :
    GivesBack trace ended ↔ (ended.isSome → ∀ event ∈ trace, ¬ LeavesBehind event) := by
  have keeps := Thread.threadRunFunction_keeps_accounted
  have loopHeads : ∀ before after, trace = before ++ after →
      threadRunFunction.Runs Thread.start before Thread.start → heldAfter before = {} := by
    intro before after split run
    have accounted := keeps.runs run (fun event membership => replies event (by
      rw [split]
      exact List.mem_append_left _ membership)) Thread.start_accounted
    rcases accounted with ⟨_, _, holds⟩ | ⟨_, leaving⟩
    · exact holds
    · exact leaving.elim
  have returned (finished : ended.isSome) :
      heldAfter trace = {} ↔ ∀ event ∈ trace, ¬ LeavesBehind event := by
    obtain ⟨result, rfl⟩ := Option.isSome_iff_exists.mp finished
    exact keeps.executes behaves replies Thread.start_accounted
  constructor
  · exact fun givesBack finished => (returned finished).mp (givesBack.returned finished)
  · exact fun calm => ⟨loopHeads, fun finished => (returned finished).mpr (calm finished)⟩

/-- A client that closes the connection at once. -/
theorem threadRunFunction_givesBack_iff_closed : GivesBack
    [(.realloc 0 512, { value := 8 }), (.readSocket 512, { value := 0 }),
      (.free 8, { value := 0 })] (some .exitFailure) := by
  have executes : threadRunFunction.Executes Thread.start
      [(.realloc 0 512, { value := 8 }), (.readSocket 512, { value := 0 }),
        (.free 8, { value := 0 })] .exitFailure := .next rfl (.next rfl (.leave rfl))
  exact (@threadRunFunction_givesBack_iff _ (some .exitFailure) executes
    (by simp [ReceiveReplies])).mpr (by simp [LeavesBehind])

/-- The reply to a line fails: the descriptor and the buffer are kept. -/
theorem threadRunFunction_leavesBehind : ∃ trace ended,
    threadRunFunction.Behaves Thread.start trace ended ∧
      (∀ event ∈ trace, ReceiveReplies event) ∧ ¬ GivesBack trace ended ∧
      heldAfter trace = { descriptors := [3], buffers := [8] } := by
  refine ⟨[(.realloc 0 512, { value := 8 }), (.readSocket 512, { value := 1, bytes := [newline] }),
    (.pthreadMutexLock, { value := 0 }), (.openFile, { value := 3 }),
    (.writeFile 3 [newline], { value := 1 }), (.readFile 3 1024, { value := -1, errno := 5 }),
    (.pthreadMutexUnlock, { value := 0 })], some .exitFailure, ?_, ?_, ?_, rfl⟩
  · exact .next rfl (.next rfl (.next rfl (.next rfl (.next rfl (.next rfl (.leave rfl))))))
  · simp [ReceiveReplies]
  · exact fun givesBack => absurd (givesBack.returned rfl) (by decide)

end Executions

end Aesd
