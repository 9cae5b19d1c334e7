import Aesd.Server.MainRefinement
import Mathlib.Data.List.Count

/-!
# From the first connection to the exit

What is freed when `main` and `terminate` are done, and which threads can find their
memory freed.
-/

namespace Aesd

open Concurrency Interrupts

namespace Main

section Lifetime

variable {environment : Environment} {memory memory' : Memory} {linked iteration : Nat}
  {labels : List (Turn TerminationSignal)} {machine : Machine TerminationSignal Point Memory}

/-! ## At the exit -/

def InTerminate : Point → Prop
  | .terminate _ _ => True
  | _ => False

theorem accounted_of_quiet {connections : Connections} {caller : Option TerminationSignal}
    {more : List (Turn TerminationSignal)}
    {abstract : Machine TerminationSignal ServerPoint ServerMemory}
    (run : Run shutdown.Step (terminating connections true reason caller) more abstract)
    (quiet : ∀ label ∈ more, label = .run) :
    Accounted connections List.Sublist abstract.point abstract.memory :=
  Program.invariant
    (fun _ _ _ _ accounted => accounted.kept fun _ _ more sublist => sublist.append_right more)
    (fun _ _ _ outside => absurd trivial outside)
    (Program.avoiding_of_quiet (fun _ => True) run quiet)
    (Accounted.initial _ _ _ _ List.Sublist.refl)

theorem count_free_of_quiet {iterations : Nat}
    {completed : ∀ iteration < iterations, (environment.answers iteration).Completes}
    {caller : Option TerminationSignal} {more : List (Turn TerminationSignal)}
    {abstract : Machine TerminationSignal ServerPoint ServerMemory}
    (run : Run shutdown.Step
      (terminating (environment.connections iterations completed) true reason caller) more abstract)
    (quiet : ∀ label ∈ more, label = .run) (exited : Exited abstract) (block : Nat) :
    abstract.memory.calls.count (.free block) = if block < 4 * iterations then 1 else 0 := by
  by_cases inside : block < 4 * iterations
  · rw [if_pos inside]
    have less : block / 4 < iterations := by omega
    exact releasedOnce_of_quiet run quiet exited _ (mem_connected.mpr ⟨_, less, rfl⟩) _
      (mem_releases.mpr (.inr ⟨block, rfl, rfl⟩))
  · rw [if_neg inside]
    apply List.count_eq_zero.mpr
    intro isFreed
    have isReleased : .free block ∈ released abstract.memory.calls :=
      List.mem_filter.mpr ⟨isFreed, rfl⟩
    have owned := (accounted_of_quiet run quiet).released_sublist.subset isReleased
    obtain ⟨node, inList, isRelease⟩ := List.mem_flatMap.mp owned
    obtain ⟨iteration, less, rfl⟩ := mem_connected.mp inList
    rcases mem_releases.mp isRelease with same | ⟨_, same, place⟩
    · cases same
    · cases same
      omega

/-- The calls at an exit to which `terminate` was not interrupted, and the blocks that `main` has
given back by itself or has left. -/
structure AtExit (environment : Environment) (labels : List (Turn TerminationSignal))
    (memory : Memory) (given rest : List Nat) : Prop where
  acquires : Acquires memory.iteration memory.blocks given rest
  interrupted : rest = [] ∨ ∃ signal, .deliver signal ∈ labels
  total : ∀ block, memory.calls.count (.free block) =
    given.count block + if block < 4 * memory.iteration then 1 else 0
  closed : ∀ iteration < memory.iteration,
    memory.calls.count (.close (environment.answers iteration).connSocket) = 1
  joined : ∀ iteration < memory.iteration,
    .pthreadJoin (environment.answers iteration).threadId ∈ memory.calls
  closes : ∀ socketd, .close socketd ∈ memory.calls →
    ∃ iteration < memory.iteration, socketd = (environment.answers iteration).connSocket
  joins : ∀ threadId, .pthreadJoin threadId ∈ memory.calls →
    ∃ iteration < memory.iteration, threadId = (environment.answers iteration).threadId

theorem exists_atExit
    (run : Run ((server environment).AvoidingStep InTerminate) start labels machine)
    (exited : ∃ status, machine.point = .exited status) :
    ∃ given rest, AtExit environment labels machine.memory given rest := by
  obtain ⟨status, isExit⟩ := exited
  cases phase_of_run run with
  | main isMain =>
      rw [isExit] at isMain
      cases isMain
  | @terminate iterations completed reason caller more abstract given rest isIteration run _
      isPoint _ refines acquires interrupted quiet =>
      subst isIteration
      have isQuiet : ∀ label ∈ more, label = .run := quiet fun _ _ => trivial
      have abstractExit : Exited abstract := by
        cases abstractPoint : abstract.point with
        | exited status => exact ⟨status, abstractPoint⟩
        | terminate _ _ =>
            rw [isExit, abstractPoint] at isPoint
            cases isPoint
      have accounted := accounted_of_quiet run isQuiet
      obtain ⟨linked, list, sound⟩ := refines.list
      have unlinked : linked = 0 := by
        obtain ⟨status', isExited⟩ := abstractExit
        have empty : abstract.memory.headNode = [] := by
          apply accounted.emptied
          rw [isExited]
          trivial
        cases linked with
        | zero => rfl
        | succ linked =>
            rw [empty] at list
            cases list
      refine ⟨given, rest, acquires, interrupted, ?_, ?_, ?_, ?_, sound.joins⟩
      · intro block
        rw [refines.calls, List.count_append, count_free_of_quiet run isQuiet abstractExit]
        congr 1
        exact List.count_map_of_injective given _ (fun _ _ => TerminateCall.free.inj) block
      · intro iteration less
        have once := releasedOnce_of_quiet run isQuiet abstractExit _
          (mem_connected.mpr ⟨iteration, less, rfl⟩) _ (mem_releases.mpr (.inl rfl))
        rw [refines.calls, List.count_append, once, Nat.add_eq_right]
        apply List.count_eq_zero.mpr
        simp
      · exact fun iteration less => sound.joined iteration less (.inl (unlinked ▸ Nat.zero_le _))
      · intro socketd isClose
        rw [refines.calls, List.mem_append] at isClose
        have isReleased : .close socketd ∈ released abstract.memory.calls :=
          List.mem_filter.mpr ⟨isClose.resolve_left (by simp), rfl⟩
        obtain ⟨node, inList, isRelease⟩ :=
          List.mem_flatMap.mp (accounted.released_sublist.subset isReleased)
        obtain ⟨iteration, less, rfl⟩ := mem_connected.mp inList
        rcases mem_releases.mp isRelease with same | ⟨_, same, _⟩
        · exact ⟨iteration, less, TerminateCall.close.inj same⟩
        · cases same

section AtExit

variable {given rest : List Nat} {block : Nat}

theorem AtExit.not_mem_given (atExit : AtExit environment labels memory given rest)
    (inside : block < 4 * memory.iteration) : block ∉ given := by
  intro membership
  have place := atExit.acquires.place block (List.mem_append_left _ membership)
  omega

theorem AtExit.freed_once (atExit : AtExit environment labels memory given rest) :
    memory.calls.count (.free block) ≤ 1 := by
  have distinct : given.Nodup := (List.nodup_append.mp atExit.acquires.distinct).1
  have once : given.count block ≤ 1 := List.nodup_iff_count_le_one.mp distinct block
  rw [atExit.total]
  by_cases inside : block < 4 * memory.iteration
  · have notGiven : given.count block = 0 :=
      List.count_eq_zero.mpr (atExit.not_mem_given inside)
    rw [if_pos inside]
    omega
  · rw [if_neg inside]
    exact once

theorem AtExit.mem_blocks (atExit : AtExit environment labels memory given rest)
    (isFreed : .free block ∈ memory.calls) : block ∈ memory.blocks := by
  have positive := List.count_pos_iff.mpr isFreed
  rw [atExit.total] at positive
  apply (atExit.acquires.blocks block).mpr
  by_cases inside : block < 4 * memory.iteration
  · exact .inl inside
  · rw [if_neg inside, Nat.add_zero] at positive
    exact .inr (List.mem_append_left _ (List.count_pos_iff.mp positive))

/-- What is not freed is of the iteration that was interrupted. -/
theorem AtExit.left_behind (atExit : AtExit environment labels memory given rest)
    (isBlock : block ∈ memory.blocks) (kept : .free block ∉ memory.calls) :
    block / 4 = memory.iteration ∧ ∃ signal, .deliver signal ∈ labels := by
  have none := List.count_eq_zero.mpr kept
  rw [atExit.total] at none
  have outside : ¬ block < 4 * memory.iteration := by
    intro inside
    rw [if_pos inside] at none
    omega
  have notGiven : block ∉ given := by
    rw [if_neg outside] at none
    exact List.count_eq_zero.mp none
  have isLast := ((atExit.acquires.blocks block).mp isBlock).resolve_left outside
  have left := (List.mem_append.mp isLast).resolve_left notGiven
  refine ⟨atExit.acquires.place block isLast, atExit.interrupted.resolve_left ?_⟩
  exact List.ne_nil_of_mem left

end AtExit

/-- If `terminate` is not interrupted, then at the exit no block is freed twice, and every block
is freed but those of the connection that `main` was setting up when a signal interrupted it.
The sockets of the connections whose set-up was completed are closed once and their threads are
joined; the socket of the one that was being set up is not closed, and its thread is not
joined. -/
theorem exit_releases
    (run : Run ((server environment).AvoidingStep InTerminate) start labels machine)
    (exited : ∃ status, machine.point = .exited status) :
    (∀ block, machine.memory.calls.count (.free block) ≤ 1 ∧
      (.free block ∈ machine.memory.calls → block ∈ machine.memory.blocks)) ∧
    (∀ block ∈ machine.memory.blocks, .free block ∉ machine.memory.calls →
      block / 4 = machine.memory.iteration ∧ ∃ signal, .deliver signal ∈ labels) ∧
    (∀ iteration < machine.memory.iteration, (environment.answers iteration).Completes ∧
      machine.memory.calls.count (.close (environment.answers iteration).connSocket) = 1 ∧
      .pthreadJoin (environment.answers iteration).threadId ∈ machine.memory.calls) ∧
    (0 < (environment.answers machine.memory.iteration).connSocket →
      .close (environment.answers machine.memory.iteration).connSocket ∉ machine.memory.calls) ∧
    .pthreadJoin (environment.answers machine.memory.iteration).threadId ∉
      machine.memory.calls := by
  obtain ⟨given, rest, atExit⟩ := exists_atExit run exited
  obtain ⟨linked, sound⟩ := sound_of_run (run.imp fun _ _ _ taken => taken.2)
  refine ⟨fun block => ⟨atExit.freed_once, atExit.mem_blocks⟩,
    fun block => atExit.left_behind, ?_, ?_, ?_⟩
  · exact fun iteration less =>
      ⟨sound.completed iteration less, atExit.closed iteration less, atExit.joined iteration less⟩
  · intro accepted isClosed
    obtain ⟨iteration, less, same⟩ := atExit.closes _ isClosed
    exact environment.sockets _ _ (Nat.ne_of_gt less) accepted same
  · intro isJoined
    obtain ⟨iteration, less, same⟩ := atExit.joins _ isJoined
    exact Nat.ne_of_gt less (environment.threads same)

theorem exit_releases_interrupted : ∃ machine,
    Run ((server (serving 2 none)).AvoidingStep InTerminate) start
      (List.replicate 12 .run ++ .deliver .sigterm :: List.replicate 13 .run) machine ∧
    machine.memory.blocks = [0, 1, 2, 3, 4, 5] ∧
    machine.memory.calls.count (.close 4) = 1 := by
  obtain ⟨before, entered, machine, first, second, third, blocks, isExit, iteration⟩ :
      ∃ before entered machine,
        follow (server (serving 2 none)).next start (List.replicate 12 .run) = some before ∧
        (server (serving 2 none)).AvoidingStep InTerminate before (.deliver .sigterm) entered ∧
        follow (server (serving 2 none)).next entered (List.replicate 13 .run) = some machine ∧
        machine.memory.blocks = [0, 1, 2, 3, 4, 5] ∧
        machine.point = .exited exitSuccess ∧ machine.memory.iteration = 1 :=
    ⟨_, _, _, rfl, ⟨.inr fun inside => inside, rfl⟩, rfl, rfl, rfl, rfl⟩
  have quiet (turns : Nat) : ∀ label ∈ List.replicate turns (Turn.run : Turn TerminationSignal),
      label = .run := fun label membership => List.eq_of_mem_replicate membership
  have run : Run ((server (serving 2 none)).AvoidingStep InTerminate) start
      (List.replicate 12 .run ++ .deliver .sigterm :: List.replicate 13 .run) machine :=
    (Program.avoiding_of_quiet _ (run_of_follow first) (quiet 12)).append
      (.cons second (Program.avoiding_of_quiet _ (run_of_follow third) (quiet 13)))
  obtain ⟨_, _, completed, _⟩ := exit_releases run ⟨_, isExit⟩
  exact ⟨machine, run, blocks, (completed 0 (by rw [iteration]; decide)).2.1⟩

/-! ## Threads without a node -/

/-- A thread that is not joined finds its information or the name of its file freed. -/
def Memory.UsesFreed (memory : Memory) : Prop :=
  ∃ info ∈ memory.created, .pthreadJoin info.threadId ∉ memory.calls ∧
    (.free info.address ∈ memory.calls ∨
      ∃ fileName ∈ info.fileName, .free fileName ∈ memory.calls)

/-- The thread of an iteration is created, and there is no memory for its node. -/
structure Environment.Orphans (environment : Environment) (iteration : Nat) : Prop where
  completed : ∀ earlier < iteration, (environment.answers earlier).Completes
  starts : (environment.answers iteration).Starts
  tNode : (environment.answers iteration).tNode = false

theorem Sound.orphans {point : Point} (sound : Sound environment linked point memory)
    (uses : memory.UsesFreed) : environment.Orphans memory.iteration := by
  obtain ⟨info, isCreated, notJoined, isFreed⟩ := uses
  obtain ⟨iteration, rfl, place⟩ := sound.started info isCreated
  rcases place with earlier | ⟨rfl, starts⟩
  · refine absurd (sound.joined iteration earlier ?_) notJoined
    rcases isFreed with info | ⟨fileName, isName, name⟩
    · refine .inl (Nat.le_of_not_lt fun less => ?_)
      exact sound.kept iteration less info
    · obtain rfl := Option.some.inj isName
      exact .inr name
  · refine ⟨sound.completed, starts, Bool.eq_false_iff.mpr fun returned => ?_⟩
    obtain ⟨block, isBlock, place⟩ :
        ∃ block, .free block ∈ memory.calls ∧ block / 4 = memory.iteration := by
      rcases isFreed with info | ⟨fileName, isName, name⟩
      · refine ⟨_, info, ?_⟩
        simp only [Environment.threadInformation, infoBlock]
        omega
      · obtain rfl := Option.some.inj isName
        refine ⟨_, name, ?_⟩
        simp only [fileNameBlock]
        omega
    rcases sound.freed block isBlock with earlier | ⟨_, fails⟩
    · omega
    · exact fails ⟨starts, returned⟩

/-- Without signals, `main` comes to the iteration and leaves the loop there. -/
def OrphanedAt (environment : Environment) (iteration : Nat) (memory : Memory) : Point → Prop
  | .main .closeListening => False
  | .main (.failure blocks) =>
      memory.iteration = iteration ∧ environment.threadInformation iteration ∈ memory.created ∧
        (.free (infoBlock iteration) ∈ memory.calls ∨ infoBlock iteration ∈ blocks)
  | .main .callocNode =>
      memory.iteration ≤ iteration ∧ (memory.iteration = iteration →
        environment.threadInformation iteration ∈ memory.created)
  | .main .storePtr | .main .insertNext | .main .insertFirst => memory.iteration < iteration
  | .main _ => memory.iteration ≤ iteration
  | .terminate _ _ | .exited _ =>
      memory.iteration = iteration ∧ environment.threadInformation iteration ∈ memory.created ∧
        .free (infoBlock iteration) ∈ memory.calls
  | .fault => True

theorem Environment.Orphans.starts_of_le {target : Nat} (orphans : environment.Orphans target)
    (le : iteration ≤ target) : (environment.answers iteration).Starts := by
  rcases Nat.lt_or_eq_of_le le with less | rfl
  · exact (orphans.completed iteration less).1
  · exact orphans.starts

theorem OrphanedAt.mainStep {target : Nat} {point : MainPoint}
    (orphans : environment.Orphans target)
    (orphaned : OrphanedAt environment target memory (.main point)) :
    OrphanedAt environment target (mainStep environment memory point).2
      (mainStep environment memory point).1 := by
  cases point with
  | accept =>
      simp only [Main.mainStep, if_pos (orphans.starts_of_le orphaned).connSocket]
      exact orphaned
  | callocInfo =>
      simp only [Main.mainStep, if_pos (orphans.starts_of_le orphaned).tInfo]
      exact orphaned
  | callocIpAddress =>
      simp only [Main.mainStep, if_pos (orphans.starts_of_le orphaned).ipAddress]
      exact orphaned
  | callocFileName =>
      simp only [Main.mainStep, if_pos (orphans.starts_of_le orphaned).fileName]
      exact orphaned
  | pthreadCreate =>
      have created := (orphans.starts_of_le orphaned).pthreadCreate
      simp only [Main.mainStep, created, ne_eq, not_true_eq_false, if_false]
      refine ⟨orphaned, fun isTarget => List.mem_append_right _ (List.mem_singleton.mpr ?_)⟩
      rw [isTarget]
  | callocNode =>
      obtain ⟨le, created⟩ := orphaned
      rcases Nat.lt_or_eq_of_le le with less | isTarget
      · simp only [Main.mainStep, if_pos (orphans.completed _ less).2]
        exact less
      · have noNode : (environment.answers memory.iteration).tNode = false := by
          rw [isTarget]
          exact orphans.tNode
        simp only [Main.mainStep, noNode, Bool.false_eq_true, if_false]
        exact ⟨isTarget, created isTarget, .inr (by simp [isTarget])⟩
  | storePtr | insertNext => exact orphaned
  | insertFirst => exact Nat.succ_le_of_lt orphaned
  | failure blocks =>
      obtain ⟨isTarget, created, place⟩ := orphaned
      cases blocks with
      | nil => exact ⟨isTarget, created, place.resolve_right List.not_mem_nil⟩
      | cons block blocks =>
          refine ⟨isTarget, created, ?_⟩
          rcases place with isFreed | isBlock
          · exact .inl (List.mem_append_left _ isFreed)
          · rcases List.mem_cons.mp isBlock with isThis | isLater
            · exact .inl (List.mem_append_right _ (List.mem_singleton.mpr (isThis ▸ rfl)))
            · exact .inr isLater
  | closeListening => exact orphaned.elim

theorem OrphanedAt.step {target : Nat} {point point' : Point} (orphans : environment.Orphans target)
    (orphaned : OrphanedAt environment target memory point)
    (stepped : (server environment).step point memory = some (point', memory')) :
    OrphanedAt environment target memory' point' := by
  cases point with
  | main mainPoint =>
      have next := OrphanedAt.mainStep orphans orphaned
      rwa [Option.some.inj stepped] at next
  | terminate reason place =>
      obtain ⟨isTarget, created, isFreed⟩ := orphaned
      obtain ⟨same, outside⟩ := @terminateStep_leavesLoop memory reason place
      rw [Option.some.inj stepped] at same outside
      have kept : memory'.iteration = target ∧
          environment.threadInformation target ∈ memory'.created ∧
          .free (infoBlock target) ∈ memory'.calls :=
        ⟨same.iteration.trans isTarget, same.created ▸ created, same.calls.subset isFreed⟩
      cases point' with
      | main mainPoint => exact absurd rfl (outside mainPoint)
      | terminate _ _ | exited _ => exact kept
      | fault => trivial
  | exited status | fault => cases stepped

theorem orphaned_of_quiet {target : Nat} (orphans : environment.Orphans target)
    (run : Run (server environment).Step start labels machine)
    (quiet : ∀ label ∈ labels, label = .run) :
    OrphanedAt environment target machine.memory machine.point :=
  Program.invariant (fun _ _ _ _ orphaned stepped => OrphanedAt.step orphans orphaned stepped)
    (fun _ _ _ outside => absurd trivial outside)
    (Program.avoiding_of_quiet (fun _ => True) run quiet) (Nat.zero_le _)

/-- The memory of a thread that may run is freed only if there was none for its node; and
then, without signals, it is. -/
theorem usesFreed_iff (run : Run (server environment).Step start labels machine) :
    (machine.memory.UsesFreed → environment.Orphans machine.memory.iteration) ∧
    ((∀ label ∈ labels, label = .run) → (∃ status, machine.point = .exited status) →
      (machine.memory.UsesFreed ↔ ∃ iteration, environment.Orphans iteration)) := by
  obtain ⟨linked, sound⟩ := sound_of_run run
  refine ⟨sound.orphans, fun quiet exited => ⟨fun uses => ⟨_, sound.orphans uses⟩, ?_⟩⟩
  rintro ⟨iteration, orphans⟩
  obtain ⟨status, isExit⟩ := exited
  have orphaned := orphaned_of_quiet orphans run quiet
  rw [isExit] at orphaned
  obtain ⟨isTarget, created, isFreed⟩ := orphaned
  refine ⟨_, created, fun isJoined => ?_, .inl isFreed⟩
  obtain ⟨earlier, less, same⟩ := sound.joins _ isJoined
  have isEarlier : iteration = earlier := environment.threads same
  omega

theorem usesFreed_iff_orphan : ∃ machine,
    Run (server (serving 1 (some 0))).Step start (List.replicate 14 .run) machine ∧
      machine.memory.UsesFreed := by
  obtain ⟨machine, followed, isExit⟩ : ∃ machine,
      follow (server (serving 1 (some 0))).next start (List.replicate 14 .run) = some machine ∧
        machine.point = .exited exitFailure := ⟨_, rfl, rfl⟩
  have run := run_of_follow followed
  have quiet : ∀ label ∈ List.replicate 14 (Turn.run : Turn TerminationSignal), label = .run :=
    fun label membership => List.eq_of_mem_replicate membership
  have orphans : (serving 1 (some 0)).Orphans 0 :=
    ⟨fun earlier less => absurd less (Nat.not_lt_zero _), ⟨by decide, rfl, rfl, rfl, rfl⟩,
      by decide⟩
  exact ⟨machine, run, ((usesFreed_iff run).2 quiet ⟨_, isExit⟩).mpr ⟨0, orphans⟩⟩

end Lifetime

end Main

end Aesd
