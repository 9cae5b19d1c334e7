import Aesd.Server.Steps

/-!
# Which packets are executed as seek commands

A packet without the key is written to the device, and a seek command of the
grammar is executed.  A packet with the key that is no seek command is parsed all
the same: it leads to some other `ioctl` or to nothing, and it is not written.
-/

namespace Aesd

open CText Loop Reactive

def issued : List (Call × Reply) → List AesdSeekto :=
  List.flatMap fun
    | (.ioctl _ seekto, _) => [seekto]
    | _ => []

/-- Any call but those that receive the next packet. -/
def NotReceiving : Call × Reply → Prop
  | (.realloc _ _, _) | (.readSocket _, _) => False
  | _ => True

/-- A packet is executed exactly if it is a seek command, and it is written as a whole
otherwise. Until the next packet is received, nothing else is issued. -/
structure FollowsGrammar (buffer : SocketBuffer) : Prop where
  executed : ∀ reply seekto, 0 ≤ reply.value → seekCommand buffer.data = some seekto →
    threadRunFunction.resume (.openFile buffer) reply = .next (.ioctl buffer reply.value seekto)
  stored : ∀ reply, 0 ≤ reply.value → seekCommand buffer.data = none →
    threadRunFunction.resume (.openFile buffer) reply =
      .next (.dumpBuffer buffer reply.value buffer.data)
  issues : ∀ reply trace state, 0 ≤ reply.value →
    threadRunFunction.Runs (.openFile buffer) ((.openFile, reply) :: trace) state →
    (∀ event ∈ trace, NotReceiving event) →
    issued trace <+: (seekCommand buffer.data).toList

namespace Thread

/-- The states behind the dispatch of a packet and before the next packet. -/
def Dispatched : Thread → Prop
  | .readStr (.read _ _) | .readStr (.release _ _) | .lock _ | .openFile _ => False
  | _ => True

def upcoming : Thread → List AesdSeekto
  | .ioctl _ _ seekto => [seekto]
  | _ => []

section Steps

variable {reply : Reply} {state state' : Thread}

def Issues (expected : List AesdSeekto) (past : List (Call × Reply)) (state : Thread) : Prop :=
  state.Dispatched ∧ issued past ++ state.upcoming = expected

theorem issues_next {expected : List AesdSeekto} {past : List (Call × Reply)} {call : Call}
    (issues : Issues expected past state) (dispatched : state'.Dispatched)
    (nothing : state'.upcoming = []) (same : issued [(call, reply)] = state.upcoming) :
    Issues expected (past ++ [(call, reply)]) state' := by
  refine ⟨dispatched, ?_⟩
  rw [nothing, List.append_nil, issued, List.flatMap_append, ← issued, ← issues.2, ← same]

theorem threadRunFunction_keeps_issues (expected : List AesdSeekto) :
    threadRunFunction.Keeps NotReceiving (Issues expected) fun _ _ => True := by
  intro past state reply issues accepted
  have next {state' : Thread} (dispatched : state'.Dispatched) (nothing : state'.upcoming = [])
      (same : issued [(threadRunFunction.call state, reply)] = state.upcoming) :
      Issues expected (past ++ [(threadRunFunction.call state, reply)]) state' :=
    issues_next issues dispatched nothing same
  cases state with
  | readStr state =>
      cases state with
      | resize buffer allocatedSpace => exact accepted.elim
      | read buffer allocatedSpace => exact issues.1.elim
      | release buffer retVal => exact issues.1.elim
  | lock buffer => exact issues.1.elim
  | openFile buffer => exact issues.1.elim
  | ioctl buffer filed seekto =>
      simp only [threadRunFunction]
      split
      · exact freeBuffer_satisfies (next trivial rfl rfl) (next trivial rfl rfl)
      · exact next trivial rfl rfl
  | dumpBuffer buffer filed left =>
      simp only [threadRunFunction]
      split
      · exact next trivial rfl rfl
      · split
        · exact freeBuffer_satisfies (next trivial rfl rfl) (next trivial rfl rfl)
        · exact next trivial rfl rfl
  | dumpFile buffer filed state =>
      have same : issued [((dumpFileToSocket filed).call state, reply)] = [] := by
        cases state <;> rfl
      simp only [threadRunFunction]
      split
      · exact next trivial rfl same
      · split
        · exact next trivial rfl same
        · exact next trivial rfl same
  | close buffer filed =>
      simp only [threadRunFunction]
      split
      · exact freeBuffer_satisfies (next trivial rfl rfl) (next trivial rfl rfl)
      · exact next trivial rfl rfl
  | unlock buffer =>
      simp only [threadRunFunction]
      split
      · exact freeBuffer_satisfies (next trivial rfl rfl) trivial
      · exact freeBuffer_satisfies (next trivial rfl rfl) (next trivial rfl rfl)
  | free buffer => exact next trivial rfl rfl
  | freeUnlockBreak buffer => exact next trivial rfl rfl
  | unlockBreak => trivial
  | freeBreak buffer => trivial

/-- Until the next packet is received, only the seek command that comes next is
issued. -/
theorem Dispatched.issued {trace : List (Call × Reply)} {last : Thread}
    (dispatched : state.Dispatched) (run : threadRunFunction.Runs state trace last)
    (accepted : ∀ event ∈ trace, NotReceiving event) : issued trace <+: state.upcoming := by
  have start : Issues state.upcoming [] state := ⟨dispatched, rfl⟩
  have kept := (threadRunFunction_keeps_issues state.upcoming).runs run accepted start
  exact ⟨last.upcoming, kept.2⟩

end Steps

end Thread

section Packets

variable {buffer : SocketBuffer}

theorem resume_openFile {reply : Reply} (opened : 0 ≤ reply.value) :
    threadRunFunction.resume (.openFile buffer) reply = Thread.dispatch buffer reply.value :=
  if_neg (Int.not_lt.mpr opened)

/-- The packets that are handled as the grammar says are those without the key and the
seek commands. -/
theorem followsGrammar_iff (set : buffer.bufPtr ≠ 0) :
    FollowsGrammar buffer ↔
      (HasKey buffer.data → ∃ seekto, seekCommand buffer.data = some seekto) := by
  constructor
  · intro follows key
    cases found : seekCommand buffer.data with
    | some seekto => exact ⟨seekto, rfl⟩
    | none =>
        have stored := follows.stored { value := 0 } (Int.le_refl 0) found
        rw [resume_openFile (Int.le_refl 0), Thread.dispatch_eq set, if_pos key] at stored
        split at stored <;> cases stored
  · intro known
    have executed : ∀ filed seekto, seekCommand buffer.data = some seekto →
        Thread.dispatch buffer filed = .next (.ioctl buffer filed seekto) := by
      intro filed seekto found
      rw [Thread.dispatch_eq set, if_pos (hasKey_of_seekCommand found),
        parseSeekto_of_seekCommand found]
    have stored : ∀ filed, seekCommand buffer.data = none →
        Thread.dispatch buffer filed = .next (.dumpBuffer buffer filed buffer.data) := by
      intro filed noCommand
      have noKey : ¬ HasKey buffer.data := by
        intro key
        obtain ⟨seekto, found⟩ := known key
        rw [noCommand] at found
        cases found
      rw [Thread.dispatch_eq set, if_neg noKey]
    refine ⟨?_, ?_, ?_⟩
    · intro reply seekto opened found
      rw [resume_openFile opened, executed _ _ found]
    · intro reply opened noCommand
      rw [resume_openFile opened, stored _ noCommand]
    · intro reply trace last opened run accepted
      generalize whole : (Call.openFile, reply) :: trace = events at run
      cases run with
      | nil => cases whole
      | @next _ state _ reply' trace' resumed later =>
          cases whole
          rw [resume_openFile opened] at resumed
          cases found : seekCommand buffer.data with
          | some seekto =>
              rw [executed _ _ found] at resumed
              cases resumed
              have dispatched : (Thread.ioctl buffer reply.value seekto).Dispatched := trivial
              exact dispatched.issued later accepted
          | none =>
              rw [stored _ found] at resumed
              cases resumed
              have dispatched : (Thread.dumpBuffer buffer reply.value buffer.data).Dispatched :=
                trivial
              exact dispatched.issued later accepted

/-- A seek command to the second byte of the first line. -/
theorem followsGrammar_iff_command :
    FollowsGrammar ⟨8, ascii "AESDCHAR_IOCSEEKTO:0,1\n"⟩ :=
  (followsGrammar_iff (by decide)).mpr fun _ => ⟨⟨0, 1⟩, by decide +kernel⟩

/-- A packet with the key and no comma is neither executed nor written. -/
theorem not_followsGrammar_noComma :
    ¬ FollowsGrammar ⟨8, ascii "AESDCHAR_IOCSEEKTO:0\n"⟩ := by
  intro follows
  have stored := follows.stored { value := 3 } (by decide) (by decide +kernel)
  revert stored
  decide +kernel

end Packets

end Aesd
