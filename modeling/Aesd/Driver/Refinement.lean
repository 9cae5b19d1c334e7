import Aesd.Driver.ReadResult
import Aesd.Lib.LogDevice

/-!
# The driver is a log device

Without the ring, the memory, the lock and the rounds of the calls, the driver
is a bounded log of newline-terminated commands that every open file reads from
its own position.  Each step of the file operations, failures included, shows
one event of that device.
-/

namespace Aesd

open BlockHeap Concurrency Framing Loop

/-- What `fixed_size_llseek` does: it leaves the position alone, or it returns the
new one, which is not behind the size. -/
def SeeksWithin (fixedSizeLlseek : Int → Int → Int → Nat → Int × Int) : Prop :=
  ∀ fPos off whence size,
    (fixedSizeLlseek fPos off whence size).2 = fPos ∨
      (fixedSizeLlseek fPos off whence size).1 = (fixedSizeLlseek fPos off whence size).2 ∧
        0 ≤ (fixedSizeLlseek fPos off whence size).2 ∧
        (fixedSizeLlseek fPos off whence size).2 ≤ size

theorem kernelFixedSizeLlseek_seeksWithin : SeeksWithin kernelFixedSizeLlseek := by
  intro fPos off whence size
  unfold kernelFixedSizeLlseek
  generalize (if whence = seekEnd then (size : Int) + off
    else if whence = seekCur then fPos + off else off) = target
  dsimp only
  by_cases outside : target < 0 ∨ size < target
  · rw [if_pos outside]
    exact .inl rfl
  · rw [if_neg outside]
    rw [not_or, Int.not_lt, Int.not_lt] at outside
    exact .inr ⟨rfl, outside⟩

/-! ## What a step shows -/

def WriteCall.consumed (call : WriteCall) (outcome : Outcome) : List UInt8 :=
  if outcome.Succeeds then
    if call.idx + call.off < call.buf.length then
      if call.buf[call.idx + call.off]? = some newline then
        userBytes call.buf call.off (call.idx + 1)
      else []
    else userBytes call.buf call.off call.idx
  else []

/-- A file whose position has changed without a read has been sought with. -/
def seekEvent (file : Nat) (fPos fPos' : Int) : DeviceEvent UInt8 :=
  if fPos' = fPos then .quiet else .seek file fPos'.toNat

namespace System

variable (fixedSizeLlseek : Int → Int → Int → Nat → Int × Int)

/-- What a step shows to the users of the device: the bytes that it takes from them, what it
stores in their buffers, what it returns and where it leaves the position. -/
def event (system : System) : Label → DeviceEvent UInt8
  | .write (.enter _ _) => .quiet
  | .write (.round task outcome) =>
      match system.writes.running task with
      | none => .quiet
      | some call => .feed (call.consumed outcome)
  | .read task file outcome notCopied fuel count =>
      match aesdRead task outcome notCopied fuel system.writes.driver (system.fPos file) count with
      | none => .quiet
      | some ((value, call), _) =>
          if 0 ≤ value then .read file count value.toNat call.data else .quiet
  | .llseek task file outcome off whence =>
      match aesdLlseek fixedSizeLlseek task outcome system.writes.driver (system.fPos file) off
          whence with
      | none => .quiet
      | some ((_, fPos), _) => seekEvent file (system.fPos file) fPos
  | .ioctl task file outcome cmd seekto =>
      match aesdUnlockedIoctl task outcome system.writes.driver (system.fPos file) cmd seekto with
      | none => .quiet
      | some ((_, fPos), _) => seekEvent file (system.fPos file) fPos

def events (system : System) (labels : List Label) : List (DeviceEvent UInt8) :=
  observations (step fixedSizeLlseek) (event fixedSizeLlseek) system labels

/-- The log device behind the driver. -/
def abstraction (system : System) : LogDevice UInt8 where
  log := system.writes.driver.log
  position file := (system.fPos file).toNat

structure Sound (system : System) : Prop where
  writes : system.writes.Valid
  position : ∀ file, 0 ≤ system.fPos file ∧ system.fPos file < 2 ^ 63

/-- A step from a state whose commands fit into the address space. -/
def FittingStep (system : System) (label : Label) (system' : System) : Prop :=
  system.writes.driver.FitsAddressSpace ∧ Step fixedSizeLlseek system label system'

end System

/-! ## One step -/

section Positions

variable {fixedSizeLlseek : Int → Int → Int → Nat → Int × Int} {driver driver' : Driver}
  {task : Nat} {outcome : Outcome} {fPos : Int} {result : Int × Int}

/-- `aesd_llseek` leaves the position alone or puts it into the content. -/
theorem aesdLlseek_position (within : SeeksWithin fixedSizeLlseek) (valid : driver.Valid)
    (small : driver.dev.data.liveSize < 2 ^ 63) {off whence : Int}
    (returned : aesdLlseek fixedSizeLlseek task outcome driver fPos off whence =
      some (result, driver')) :
    result.2 = fPos ∨ 0 ≤ result.2 ∧ result.2 ≤ driver.content.length := by
  unfold aesdLlseek at returned
  split at returned
  · cases returned
    exact .inl rfl
  · obtain ⟨locked, taken, body⟩ := Option.bind_eq_some_iff.mp returned
    obtain ⟨length, counted, result⟩ := Option.map_eq_some_iff.mp body
    have validLocked := valid.mutexLock taken
    have sameData : locked.dev.data = driver.dev.data := by
      obtain ⟨_, rfl⟩ := Driver.mutexLock_eq_some_iff.mp taken
      rfl
    rw [validLocked.ring.contentLength_eq (by rw [sameData]; omega), sameData,
      Option.some.injEq] at counted
    subst counted
    rw [valid.length_content]
    split at result
    · split at result
      · cases result
        exact (within fPos off whence driver.dev.data.liveSize).imp_right And.right
      · cases result
        exact .inl rfl
    · cases result
      exact .inl rfl

theorem aesdUnlockedIoctl_position (valid : driver.Valid)
    (small : driver.dev.data.liveSize < 2 ^ 63) {cmd : UInt32} {seekto : AesdSeekto}
    (returned : aesdUnlockedIoctl task outcome driver fPos cmd seekto = some (result, driver')) :
    result.2 = fPos ∨ 0 ≤ result.2 ∧ result.2 ≤ driver.content.length := by
  unfold aesdUnlockedIoctl at returned
  split at returned
  · cases returned
    exact .inl rfl
  split at returned
  · cases returned
    exact .inl rfl
  split at returned
  · split at returned
    · cases returned
      exact .inl rfl
    · obtain ⟨locked, taken, body⟩ := Option.bind_eq_some_iff.mp returned
      have sameData : locked.dev.data = driver.dev.data := by
        obtain ⟨_, rfl⟩ := Driver.mutexLock_eq_some_iff.mp taken
        rfl
      split at body
      · obtain ⟨found, looked, ended⟩ := Option.map_eq_some_iff.mp body
        rw [sameData] at looked
        have looks := valid.looks small seekto
        rw [looked] at looks
        rcases looks with ⟨accepted, isFound, bound⟩ | ⟨_, isFound⟩
        · rw [Option.some.injEq] at isFound
          subst isFound
          rw [toSsizeT_of_lt bound] at ended
          dsimp only at ended
          rw [if_neg (Int.not_lt.mpr (Int.natCast_nonneg _))] at ended
          cases ended
          refine .inr ⟨Int.natCast_nonneg _, Int.ofNat_le.mpr ?_⟩
          rcases accepted with ⟨nothing, _, atStart⟩ | ⟨command, named, inside⟩
          · rw [atStart, nothing]
            simp [bytePosition]
          · exact bytePosition_le named inside
        · rw [Option.some.injEq] at isFound
          subst isFound
          rw [toSsizeT_toSizeT_neg_einval] at ended
          cases ended
          exact .inl rfl
      · cases body
        exact .inl rfl
  · cases returned
    exact .inl rfl

/-- A round hands over the bytes that the log is fed with. -/
theorem WriteEffect.log_eq {call : WriteCall} {flow : Flow WriteCall Int}
    (effect : WriteEffect outcome call driver flow driver') :
    driver'.log = driver.log.feed 10 newline (call.consumed outcome) := by
  unfold WriteCall.consumed
  cases effect with
  | skip inside other => rw [if_pos inside, if_neg other, ite_self, FrameLog.feed_nil]
  | push inside ends succeeds fed => rw [if_pos succeeds, if_pos inside, if_pos ends, fed.log]
  | keep nonempty atEnd succeeds fed =>
      rw [if_pos succeeds, if_neg (by omega), fed.log]
  | finish nothing atEnd =>
      rw [if_neg (show ¬ call.idx + call.off < call.buf.length by omega), nothing, userBytes_zero,
        ite_self, FrameLog.feed_nil, Driver.log_dump]
  | fail negative fails unchanged => rw [if_neg fails, unchanged.log]

end Positions

namespace System

variable {fixedSizeLlseek : Int → Int → Int → Nat → Int × Int} {system system' : System}
  {label : Label} {labels : List Label}

theorem abstraction_setFPos {driver : Driver} {file : Nat} {fPos : Int}
    (sameLog : driver.log = system.writes.driver.log) :
    ((system.setDriver driver).setFPos file fPos).abstraction =
      system.abstraction.move file fPos.toNat := by
  apply LogDevice.ext
  · exact sameLog
  · funext other
    by_cases same : other = file
    · subst same
      simp [abstraction, setFPos, LogDevice.move]
    · simp [abstraction, setFPos, setDriver, LogDevice.move, Function.update_of_ne same]

theorem move_unmoved (device : LogDevice UInt8) (reader : Nat) :
    device.move reader (device.position reader) = device := by
  apply LogDevice.ext
  · rfl
  · exact Function.update_eq_self _ _

theorem step_seekEvent {driver : Driver} {file : Nat} {fPos : Int}
    (sameLog : driver.log = system.writes.driver.log)
    (inside : fPos = system.fPos file ∨
      0 ≤ fPos ∧ fPos ≤ system.writes.driver.content.length) :
    LogDevice.Step 10 newline system.abstraction (seekEvent file (system.fPos file) fPos)
      ((system.setDriver driver).setFPos file fPos).abstraction := by
  rw [abstraction_setFPos sameLog, seekEvent]
  by_cases unmoved : fPos = system.fPos file
  · rw [if_pos unmoved, unmoved]
    change LogDevice.Step 10 newline _ _
      (system.abstraction.move file (system.abstraction.position file))
    rw [move_unmoved]
    exact .quiet
  · rw [if_neg unmoved]
    obtain ⟨positive, bounded⟩ := inside.resolve_left unmoved
    apply LogDevice.Step.seek
    change fPos.toNat ≤ system.writes.driver.content.length
    omega

theorem fPos_setFPos_self (system : System) (file : Nat) (fPos : Int) :
    (system.setFPos file fPos).fPos file = fPos := Function.update_self _ _ _

theorem fPos_setFPos_of_ne (system : System) {file other : Nat} (different : other ≠ file)
    (fPos : Int) : (system.setFPos file fPos).fPos other = system.fPos other :=
  Function.update_of_ne different _ _

theorem abstraction_setDriver {driver : Driver} (sameLog : driver.log = system.writes.driver.log) :
    (system.setDriver driver).abstraction = system.abstraction :=
  LogDevice.ext sameLog rfl

theorem Sound.setFPos {driver : Driver} {file : Nat} {fPos : Int} (sound : system.Sound)
    (writes : ((system.setDriver driver).setFPos file fPos).writes.Valid)
    (inside : 0 ≤ fPos ∧ fPos < 2 ^ 63) :
    ((system.setDriver driver).setFPos file fPos).Sound where
  writes := writes
  position other := by
    by_cases same : other = file
    · subst same
      rw [fPos_setFPos_self]
      exact inside
    · rw [fPos_setFPos_of_ne _ same]
      exact sound.position other

theorem toSizeT_fPos (sound : system.Sound) (file : Nat) :
    toSizeT (system.fPos file) = (system.fPos file).toNat := by
  have inside := sound.position file
  unfold toSizeT
  omega

/-- A read shows what it has stored; one that fails shows nothing. -/
theorem read_refines (sound : system.Sound) (fits : system.writes.driver.FitsAddressSpace)
    {task file fuel count : Nat} {outcome : Outcome} {notCopied : Nat → Nat}
    {result : Int × ReadCall} {driver : Driver}
    (returned : aesdRead task outcome notCopied fuel system.writes.driver (system.fPos file) count =
      some (result, driver)) :
    LogDevice.Step 10 newline system.abstraction
        (system.event fixedSizeLlseek (.read task file outcome notCopied fuel count))
        (if 0 ≤ result.1 then (system.setDriver driver).setFPos file result.2.fPos
          else system.setDriver driver).abstraction ∧
      (0 ≤ result.1 → 0 ≤ result.2.fPos ∧ result.2.fPos < 2 ^ 63) := by
  have small := sound.writes.driver.liveSize_lt fits
  rw [← sound.writes.driver.length_content] at small
  obtain ⟨positive, bounded⟩ := sound.position file
  rw [event, returned]
  obtain ⟨rfl, returns⟩ := aesdRead_result sound.writes.driver
    (by rwa [← sound.writes.driver.length_content]) returned
  cases returns with
  | @stored call data position =>
      rw [toSizeT_fPos sound] at data
      have length := congrArg List.length data
      rw [List.length_take, List.length_drop] at length
      have isPosition : call.fPos.toNat = (system.fPos file).toNat + call.data.length := by omega
      refine ⟨?_, fun _ => by dsimp only; omega⟩
      dsimp only
      rw [if_pos (Int.natCast_nonneg _), if_pos (Int.natCast_nonneg _),
        abstraction_setFPos (Driver.log_dump _), Int.toNat_natCast, isPosition, data]
      exact LogDevice.Step.read file count
  | failed negative =>
      refine ⟨?_, fun nonnegative => absurd nonnegative (Int.not_le.mpr negative)⟩
      dsimp only
      rw [if_neg (Int.not_le.mpr negative), if_neg (Int.not_le.mpr negative),
        abstraction_setDriver (Driver.log_dump _)]
      exact .quiet

theorem step_refines (within : SeeksWithin fixedSizeLlseek) (sound : system.Sound)
    (taken : FittingStep fixedSizeLlseek system label system') :
    LogDevice.Step 10 newline system.abstraction (system.event fixedSizeLlseek label)
      system'.abstraction ∧ system'.Sound := by
  obtain ⟨fits, taken⟩ := taken
  have writes := (step_lock sound.writes taken).1
  have small := sound.writes.driver.liveSize_lt fits
  have length := sound.writes.driver.length_content
  -- a position that is set is the one before, or it is inside the content
  have positioned : ∀ {file fPos}, fPos = system.fPos file ∨
      0 ≤ fPos ∧ fPos ≤ system.writes.driver.content.length → 0 ≤ fPos ∧ fPos < 2 ^ 63 := by
    rintro file fPos (rfl | ⟨positive, bounded⟩)
    · exact sound.position file
    · omega
  unfold Step step at taken
  cases label with
  | write label =>
      obtain ⟨after, stepped, rfl⟩ := Option.map_eq_some_iff.mp taken
      refine ⟨?_, writes, sound.position⟩
      rcases sound.writes.step_cases stepped with
        ⟨task, buf, rfl, _, rfl⟩ | ⟨task, outcome, call, flow, driver', rfl, busy, effect, rfl⟩
      · exact .quiet
      · rw [event, busy]
        have sameLog : (system.writes.afterRound task flow driver').driver.log =
            system.writes.driver.log.feed 10 newline (call.consumed outcome) := by
          rw [WriteSystem.driver_afterRound]
          exact effect.log_eq
        unfold abstraction
        rw [sameLog]
        exact .feed _
  | read task file outcome notCopied fuel count =>
      dsimp only at taken
      split at taken
      · contradiction
      · obtain ⟨⟨result, driver⟩, returned, rfl⟩ := Option.map_eq_some_iff.mp taken
        obtain ⟨shown, inside⟩ := read_refines sound fits returned
        refine ⟨shown, ?_⟩
        by_cases positive : 0 ≤ result.1
        · rw [if_pos positive] at writes ⊢
          exact sound.setFPos writes (inside positive)
        · rw [if_neg positive] at writes ⊢
          exact ⟨writes, sound.position⟩
  | ioctl task file outcome cmd seekto =>
      dsimp only at taken
      split at taken
      · contradiction
      · obtain ⟨⟨result, driver⟩, returned, rfl⟩ := Option.map_eq_some_iff.mp taken
        have inside := aesdUnlockedIoctl_position sound.writes.driver small returned
        refine ⟨?_, sound.setFPos writes (positioned inside)⟩
        rw [event, returned]
        exact step_seekEvent (by rw [aesdUnlockedIoctl_driver returned]) inside
  | llseek task file outcome off whence =>
      dsimp only at taken
      split at taken
      · contradiction
      · obtain ⟨⟨result, driver⟩, returned, rfl⟩ := Option.map_eq_some_iff.mp taken
        have inside := aesdLlseek_position within sound.writes.driver small returned
        refine ⟨?_, sound.setFPos writes (positioned inside)⟩
        rw [event, returned]
        apply step_seekEvent _ inside
        have after := aesdLlseek_driver returned
        split at after
        · rw [after]
        · obtain ⟨_, rfl⟩ := Driver.mutexLock_eq_some_iff.mp after
          rfl

theorem run_refines (within : SeeksWithin fixedSizeLlseek)
    (run : Run (FittingStep fixedSizeLlseek) system labels system') (sound : system.Sound) :
    Run (LogDevice.Step 10 newline) system.abstraction (system.events fixedSizeLlseek labels)
      system'.abstraction ∧ system'.Sound := by
  have functional : ∀ system label system', FittingStep fixedSizeLlseek system label system' →
      step fixedSizeLlseek system label = some system' := fun _ _ _ taken => taken.2
  have simulated : ∀ system label system', Sound system →
      FittingStep fixedSizeLlseek system label system' →
      LogDevice.Step 10 newline system.abstraction (event fixedSizeLlseek system label)
        system'.abstraction ∧ Sound system' := fun _ _ _ sound taken =>
    step_refines within sound taken
  exact run.simulates functional simulated sound

theorem init_sound : init.Sound where
  writes := WriteSystem.init_valid
  position file := by
    change (0 : Int) ≤ 0 ∧ (0 : Int) < 2 ^ 63
    decide

/-- Whatever operations the tasks make, in whatever order their rounds interleave and
wherever they fail, the users of a new driver see what a log device of ten commands with
all positions at its beginning shows. -/
theorem reachable_refines (within : SeeksWithin fixedSizeLlseek)
    (run : Run (FittingStep fixedSizeLlseek) init labels system) :
    Run (LogDevice.Step 10 newline) ⟨.empty, fun _ => 0⟩ (init.events fixedSizeLlseek labels)
      system.abstraction :=
  (run_refines within run init_sound).1

section Readers

variable {earlier : List Label} {file : Nat}

/-- From any state that is reached on, a file that is not sought with delivers bytes of the
commands in the order in which they were written, each of them at most once and none from
behind its position, also if commands are overwritten and reads fail in between. -/
theorem delivered_in_order (within : SeeksWithin fixedSizeLlseek)
    (before : Run (FittingStep fixedSizeLlseek) init earlier system)
    (run : Run (FittingStep fixedSizeLlseek) system labels system')
    (still : ∀ event ∈ system.events fixedSizeLlseek labels, ¬ event.Seeks file) :
    (delivered file (system.events fixedSizeLlseek labels)).Sublist
      (((system.writes.driver.log.written newline
            (fed (system.events fixedSizeLlseek labels))).flatten.take
          (system.writes.driver.log.dropped 10 newline
            (fed (system.events fixedSizeLlseek labels)) + (system'.fPos file).toNat)).drop
        (system.fPos file).toNat) := by
  have sound := (run_refines within before init_sound).2
  have follows := LogDevice.follows_of_run (run_refines within run sound).1 sound.writes.log still
  exact follows.sublist

/-- As long as no command is overwritten, it delivers everything from its position on
without a gap, while other tasks go on writing. At the end of the content it has delivered
all of it. -/
theorem delivered_without_gap (within : SeeksWithin fixedSizeLlseek)
    (before : Run (FittingStep fixedSizeLlseek) init earlier system)
    (run : Run (FittingStep fixedSizeLlseek) system labels system')
    (still : ∀ event ∈ system.events fixedSizeLlseek labels, ¬ event.Seeks file)
    (room : (system.writes.driver.log.written newline
      (fed (system.events fixedSizeLlseek labels))).length ≤ 10) :
    system'.writes.driver.content = (system.writes.driver.log.written newline
        (fed (system.events fixedSizeLlseek labels))).flatten ∧
      delivered file (system.events fixedSizeLlseek labels) =
        (system'.writes.driver.content.drop (system.fPos file).toNat).take
          (delivered file (system.events fixedSizeLlseek labels)).length ∧
      system'.fPos file = system.fPos file +
        (delivered file (system.events fixedSizeLlseek labels)).length ∧
      (system'.writes.driver.content.length ≤ system'.fPos file →
        delivered file (system.events fixedSizeLlseek labels) =
          system'.writes.driver.content.drop (system.fPos file).toNat) := by
  have sound := (run_refines within before init_sound).2
  obtain ⟨shown, sound'⟩ := run_refines within run sound
  have tails := LogDevice.tails_of_run shown sound.writes.log room still
  have log := LogDevice.log_of_run shown
  have positive := (sound.position file).1
  have positive' := (sound'.position file).1
  have position : (system'.fPos file).toNat = (system.fPos file).toNat +
      (delivered file (system.events fixedSizeLlseek labels)).length := tails.position
  refine ⟨LogDevice.content_eq sound.writes.log log room, tails.got, by omega, ?_⟩
  intro atEnd
  apply tails.all
  apply List.drop_of_length_le
  change system'.writes.driver.content.length ≤ (system'.fPos file).toNat
  omega

end Readers

/-- A reader that follows a writer: it reads a part of the first command, all that there is
once the second one is written, and then the end. -/
def followingLabels : List Label :=
  [.write (.enter 0 [97, 98, 10]), .write (.round 0 {}), .write (.round 0 {}),
    .write (.round 0 {}), .read 1 0 {} (fun _ => 0) 9 2, .write (.round 0 {}),
    .write (.enter 2 [99, 10]), .write (.round 2 {}), .write (.round 2 {}),
    .read 1 0 {} (fun _ => 0) 9 8, .read 1 0 {} (fun _ => 0) 9 8]

def fittingStep (system : System) (label : Label) : Option System :=
  if system.writes.driver.FitsAddressSpace then step kernelFixedSizeLlseek system label else none

theorem run_of_fittingStep (followed : follow fittingStep system labels = some system') :
    Run (FittingStep kernelFixedSizeLlseek) system labels system' := by
  apply (run_of_follow followed).imp
  intro system label system' taken
  unfold fittingStep at taken
  by_cases fits : system.writes.driver.FitsAddressSpace
  · rw [if_pos fits] at taken
    exact ⟨fits, taken⟩
  · rw [if_neg fits] at taken
    cases taken

theorem following_still :
    ∀ event ∈ init.events kernelFixedSizeLlseek followingLabels, ¬ event.Seeks 0 := by
  decide +kernel

theorem reachable_refines_following : ∃ system,
    Run (FittingStep kernelFixedSizeLlseek) init followingLabels system ∧
      Run (LogDevice.Step 10 newline) ⟨.empty, fun _ => 0⟩
        (init.events kernelFixedSizeLlseek followingLabels) system.abstraction := by
  obtain ⟨system, followed⟩ : ∃ system, follow fittingStep init followingLabels = some system :=
    ⟨_, rfl⟩
  have run := run_of_fittingStep followed
  exact ⟨system, run, reachable_refines kernelFixedSizeLlseek_seeksWithin run⟩

theorem delivered_in_order_following : ∃ system,
    Run (FittingStep kernelFixedSizeLlseek) init followingLabels system ∧
      (delivered 0 (init.events kernelFixedSizeLlseek followingLabels)).Sublist
        [97, 98, 10, 99, 10] := by
  obtain ⟨system, followed, position⟩ : ∃ system,
      follow fittingStep init followingLabels = some system ∧ system.fPos 0 = 5 :=
    ⟨_, rfl, by decide +kernel⟩
  have run := run_of_fittingStep followed
  have sublist := delivered_in_order kernelFixedSizeLlseek_seeksWithin (.nil init) run
    following_still
  rw [position] at sublist
  exact ⟨system, run, sublist⟩

theorem delivered_without_gap_following : ∃ system,
    Run (FittingStep kernelFixedSizeLlseek) init followingLabels system ∧
      delivered 0 (init.events kernelFixedSizeLlseek followingLabels) =
        [97, 98, 10, 99, 10] := by
  obtain ⟨system, followed, content, position⟩ : ∃ system,
      follow fittingStep init followingLabels = some system ∧
        system.writes.driver.content = [97, 98, 10, 99, 10] ∧ system.fPos 0 = 5 :=
    ⟨_, rfl, by decide +kernel, by decide +kernel⟩
  have run := run_of_fittingStep followed
  have whole := (delivered_without_gap kernelFixedSizeLlseek_seeksWithin (.nil init) run
    following_still (by decide +kernel)).2.2.2
  rw [content, position] at whole
  exact ⟨system, run, whole (by decide)⟩

end System

end Aesd
