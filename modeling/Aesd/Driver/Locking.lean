import Aesd.Driver.FileOps

/-!
# Who releases the lock

Every return path of the file operations gives the lock back except one: an
`aesd_llseek` whose `whence` is not supported.  A lock that is not given back
stays taken, so a run is free of such calls exactly if the lock is free at its
end.
-/

namespace Aesd

open BlockHeap Concurrency Loop

section Operations

variable {fixedSizeLlseek : Int → Int → Int → Nat → Int × Int} {task : Nat} {outcome : Outcome}
  {driver driver' : Driver} {fPos : Int}

theorem aesdRead_driver {notCopied : Nat → Nat} {fuel count : Nat} {result : Int × ReadCall}
    (returned : aesdRead task outcome notCopied fuel driver fPos count = some (result, driver')) :
    driver' = driver.dump := by
  unfold aesdRead at returned
  split at returned
  · cases returned
    rfl
  · obtain ⟨locked, taken, body⟩ := Option.bind_eq_some_iff.mp returned
    obtain ⟨length, _, body⟩ := Option.bind_eq_some_iff.mp body
    obtain ⟨ended, _, result⟩ := Option.map_eq_some_iff.mp body
    cases result
    exact Driver.mutexUnlock_of_mutexLock taken

theorem aesdUnlockedIoctl_driver {cmd : UInt32} {seekto : AesdSeekto} {result : Int × Int}
    (returned : aesdUnlockedIoctl task outcome driver fPos cmd seekto = some (result, driver')) :
    driver' = driver := by
  unfold aesdUnlockedIoctl at returned
  split at returned
  · cases returned
    rfl
  split at returned
  · cases returned
    rfl
  split at returned
  · split at returned
    · cases returned
      rfl
    · obtain ⟨locked, taken, body⟩ := Option.bind_eq_some_iff.mp returned
      have unlocked := Driver.mutexUnlock_of_mutexLock taken
      split at body
      · obtain ⟨found, _, result⟩ := Option.map_eq_some_iff.mp body
        dsimp only at result
        split at result <;> cases result <;> exact unlocked
      · cases body
        exact unlocked
  · cases returned
    rfl

def SupportedWhence (whence : Int) : Prop :=
  whence = seekSet ∨ whence = seekEnd ∨ whence = seekCur

instance : DecidablePred SupportedWhence := fun _ => inferInstanceAs (Decidable (_ ∨ _))

theorem aesdLlseek_driver {off whence : Int} {result : Int × Int}
    (returned : aesdLlseek fixedSizeLlseek task outcome driver fPos off whence =
      some (result, driver')) :
    if outcome.interrupted = true ∨ SupportedWhence whence then driver' = driver
    else driver.mutexLock task = some driver' := by
  unfold aesdLlseek at returned
  cases interrupted : outcome.interrupted with
  | true =>
      rw [interrupted, if_pos rfl] at returned
      rw [if_pos (.inl rfl)]
      cases returned
      rfl
  | false =>
      simp only [interrupted, Bool.false_eq_true, if_false, false_or] at returned ⊢
      obtain ⟨locked, taken, body⟩ := Option.bind_eq_some_iff.mp returned
      obtain ⟨length, _, result⟩ := Option.map_eq_some_iff.mp body
      by_cases supported : SupportedWhence whence
      · rw [if_pos supported]
        have handled : whence = seekSet ∨ whence = seekEnd ∨ whence = seekCur := supported
        rw [if_pos handled] at result
        split at result <;> cases result <;> exact Driver.mutexUnlock_of_mutexLock taken
      · rw [if_neg supported]
        have unhandled : ¬ (whence = seekSet ∨ whence = seekEnd ∨ whence = seekCur) := supported
        rw [if_neg unhandled] at result
        cases result
        exact taken

end Operations

/-! ## Runs -/

/-- An `aesd_llseek` that gets the lock and does not support `whence`. -/
def Label.Leaks : Label → Prop
  | .llseek _ _ outcome _ whence => outcome.interrupted = false ∧ ¬ SupportedWhence whence
  | _ => False

instance : DecidablePred Label.Leaks
  | .llseek _ _ _ _ _ => inferInstanceAs (Decidable (_ ∧ _))
  | .write _ => inferInstanceAs (Decidable False)
  | .read _ _ _ _ _ _ => inferInstanceAs (Decidable False)
  | .ioctl _ _ _ _ _ => inferInstanceAs (Decidable False)

namespace System

variable {fixedSizeLlseek : Int → Int → Int → Nat → Int × Int} {system system' : System}
  {label : Label} {labels : List Label}

def lock (system : System) : Mutex := system.writes.driver.dev.lock

theorem valid_dump (valid : system.writes.Valid) :
    (system.setDriver system.writes.driver.dump).writes.Valid :=
  ⟨valid.driver.dump, valid.log, valid.located, valid.inside⟩

theorem valid_mutexLock {task : Nat} {driver : Driver} (valid : system.writes.Valid)
    (taken : system.writes.driver.mutexLock task = some driver) :
    (system.setDriver driver).writes.Valid := by
  have validDriver := valid.driver.mutexLock taken
  obtain ⟨_, rfl⟩ := Driver.mutexLock_eq_some_iff.mp taken
  exact ⟨validDriver, valid.log, valid.located, valid.inside⟩

/-- A step that leaks takes a free lock and keeps it; every other step leaves the
lock as it was. -/
theorem step_lock (valid : system.writes.Valid)
    (taken : system.Step fixedSizeLlseek label system') :
    system'.writes.Valid ∧
      (¬ label.Leaks → system'.lock = system.lock) ∧
      (label.Leaks → system.lock.owner = none ∧ system'.lock.owner ≠ none ∧
        system'.lock.stray = system.lock.stray) := by
  unfold Step System.step at taken
  cases label with
  | write label =>
      obtain ⟨writes, step, rfl⟩ := Option.map_eq_some_iff.mp taken
      have kept := valid.step step
      exact ⟨kept.1, fun _ => kept.2, False.elim⟩
  | read task file outcome notCopied fuel count =>
      dsimp only at taken
      split at taken
      · contradiction
      · obtain ⟨⟨result, driver⟩, returned, rfl⟩ := Option.map_eq_some_iff.mp taken
        obtain rfl := aesdRead_driver returned
        by_cases positive : 0 ≤ result.1
        · rw [if_pos positive]
          exact ⟨valid_dump valid, fun _ => rfl, False.elim⟩
        · rw [if_neg positive]
          exact ⟨valid_dump valid, fun _ => rfl, False.elim⟩
  | ioctl task file outcome cmd seekto =>
      dsimp only at taken
      split at taken
      · contradiction
      · obtain ⟨⟨result, driver⟩, returned, rfl⟩ := Option.map_eq_some_iff.mp taken
        obtain rfl := aesdUnlockedIoctl_driver returned
        exact ⟨valid, fun _ => rfl, False.elim⟩
  | llseek task file outcome off whence =>
      dsimp only at taken
      split at taken
      · contradiction
      · obtain ⟨⟨result, driver⟩, returned, rfl⟩ := Option.map_eq_some_iff.mp taken
        have after := aesdLlseek_driver returned
        by_cases leaks : outcome.interrupted = false ∧ ¬ SupportedWhence whence
        · have unlocked : ¬ (outcome.interrupted = true ∨ SupportedWhence whence) := by
            rintro (interrupted | supported)
            · rw [leaks.1] at interrupted
              contradiction
            · exact leaks.2 supported
          rw [if_neg unlocked] at after
          have validAfter := valid_mutexLock valid after
          obtain ⟨free, rfl⟩ := Driver.mutexLock_eq_some_iff.mp after
          refine ⟨validAfter, fun calm => absurd leaks calm, fun _ => ⟨free, ?_, rfl⟩⟩
          simp [lock, setDriver, setFPos]
        · have released : outcome.interrupted = true ∨ SupportedWhence whence := by
            rw [not_and_or, not_not, Bool.not_eq_false] at leaks
            exact leaks
          rw [if_pos released] at after
          subst after
          exact ⟨valid, fun _ => rfl, fun leaking => absurd leaking leaks⟩

/-- The lock at the end of a run: no call has released it without holding it, and
it is free exactly if no `aesd_llseek` has leaked it. -/
theorem run_lock (run : Run (Step fixedSizeLlseek) system labels system')
    (valid : system.writes.Valid) :
    system'.lock.stray = system.lock.stray ∧
      (system'.lock.owner = none ↔
        system.lock.owner = none ∧ ∀ label ∈ labels, ¬ label.Leaks) := by
  induction run with
  | nil => simp
  | @cons first middle last label labels taken _ inductionHypothesis =>
      obtain ⟨validMiddle, calm, leaking⟩ := step_lock valid taken
      obtain ⟨stray, free⟩ := inductionHypothesis validMiddle
      by_cases leaks : label.Leaks
      · obtain ⟨_, held, same⟩ := leaking leaks
        refine ⟨stray.trans same, ?_⟩
        rw [free, List.forall_mem_cons]
        exact ⟨fun both => absurd both.1 held, fun both => absurd leaks both.2.1⟩
      · rw [calm leaks] at stray free
        refine ⟨stray, ?_⟩
        rw [free, List.forall_mem_cons]
        exact and_congr_right fun _ => (and_iff_right leaks).symm

/-- In every run from initialisation, no call releases a lock that it does not hold,
and the lock is free, so that the next operation gets it, exactly if no
`aesd_llseek` with an unsupported `whence` has got it before. -/
theorem reachable_lock_free_iff (run : Run (Step fixedSizeLlseek) init labels system) :
    system.lock.stray = false ∧
      ((∀ label ∈ labels, ¬ label.Leaks) ↔ system.lock.owner = none) ∧
      ((∀ label ∈ labels, ¬ label.Leaks) ↔
        ∀ task, (system.writes.driver.mutexLock task).isSome) := by
  obtain ⟨stray, free⟩ := run_lock run WriteSystem.init_valid
  have owner : (∀ label ∈ labels, ¬ label.Leaks) ↔ system.lock.owner = none :=
    ⟨fun calm => free.mpr ⟨rfl, calm⟩, fun isFree => (free.mp isFree).2⟩
  refine ⟨stray, owner, owner.trans ?_⟩
  constructor
  · intro isFree task
    rw [Driver.mutexLock_eq_some_iff.mpr ⟨isFree, rfl⟩]
    rfl
  · intro available
    obtain ⟨driver, taken⟩ := Option.isSome_iff_exists.mp (available 0)
    exact (Driver.mutexLock_eq_some_iff.mp taken).1

end System

/-- What the kernel's `fixed_size_llseek` does for the values of `whence` that
`aesd_llseek` passes on. -/
def kernelFixedSizeLlseek (fPos off whence : Int) (size : Nat) : Int × Int :=
  let target :=
    if whence = seekEnd then size + off else if whence = seekCur then fPos + off else off
  if target < 0 ∨ (size : Int) < target then (-einval, fPos) else (target, target)

def calmLabels : List Label :=
  [.write (.enter 0 [97, 10]), .write (.round 0 {}), .write (.round 0 {}), .write (.round 0 {}),
    .llseek 1 0 {} (-1) seekEnd, .read 1 0 { interrupted := true } (fun _ => 0) 9 5,
    .ioctl 2 0 {} aesdcharIocseekto ⟨0, 1⟩]

namespace System

theorem reachable_lock_free_iff_calm : ∃ system,
    Run (Step kernelFixedSizeLlseek) init calmLabels system ∧
      system.lock.owner = none ∧ system.fPos 0 = 1 := by
  obtain ⟨system, taken, position⟩ : ∃ system,
      follow (step kernelFixedSizeLlseek) init calmLabels = some system ∧ system.fPos 0 = 1 :=
    ⟨_, rfl, by decide⟩
  have run : Run (Step kernelFixedSizeLlseek) init calmLabels system := run_of_follow taken
  exact ⟨system, run, (reachable_lock_free_iff run).2.1.mp (by decide), position⟩

/-- `SEEK_DATA` on a new device leaves the lock taken. -/
theorem reachable_lock_leaked : ∃ system,
    Run (Step kernelFixedSizeLlseek) init [.llseek 0 0 {} 0 3] system ∧
      system.lock.owner = some 0 := by
  obtain ⟨system, taken, held⟩ : ∃ system,
      follow (step kernelFixedSizeLlseek) init [.llseek 0 0 {} 0 3] = some system ∧
        system.lock.owner = some 0 := ⟨_, rfl, by decide⟩
  exact ⟨system, run_of_follow taken, held⟩

end System

end Aesd
