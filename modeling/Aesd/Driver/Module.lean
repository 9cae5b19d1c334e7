import Aesd.Driver.Reachable
import Aesd.Driver.Unload

/-!
# Loading and unloading the module

`aesd_init_module` and `aesd_cleanup_module` with what they take from the kernel and
give back: the device number, the `cdev` and the two structures.  All failures of the
initialisation but the first one jump to `failure`, which calls the cleanup.
-/

namespace Aesd

open BlockHeap Concurrency

def ebusy : Int := 16

structure DevT where
  major : Nat
  minor : Nat
  deriving DecidableEq, Repr

structure ModuleParameters where
  aesdCharMajor : Nat := 0
  aesdCharMinor : Nat := 0
  deriving DecidableEq, Repr

inductive KernelBlock where
  | aesdDevice
  | circularBuffer
  deriving DecidableEq, Repr

structure Kernel where
  /-- The device numbers that are registered. -/
  regions : List DevT := []
  /-- The device numbers with a `cdev`. -/
  cdevs : List DevT := []
  blocks : List KernelBlock := []
  /-- `cdev_del` was called for a `cdev` that was never initialised. -/
  warned : Bool := false
  deriving DecidableEq, Repr

/-- What the kernel answers while the module is loaded. -/
structure LoadAnswers where
  /-- The result for a device number that is free. -/
  region : Int := 0
  /-- The major number that `alloc_chrdev_region` chooses. -/
  major : Nat := 240
  kmallocDevice : Bool := true
  kmallocData : Bool := true
  cdevAdd : Int := 0
  deriving DecidableEq, Repr

inductive Cdev where
  | zero
  | initialized
  | added (dev : DevT)
  deriving DecidableEq, Repr

def cdevDel (kernel : Kernel) : Cdev → Kernel
  | .zero => { kernel with warned := true }
  | .initialized => kernel
  | .added dev => { kernel with cdevs := kernel.cdevs.erase dev }

/-- `*aesd_device`; whether `data` is set. -/
structure AesdDevice where
  cdev : Cdev := .zero
  data : Bool := false
  deriving DecidableEq, Repr

/-- `aesd_cleanup_module`, without the memory of the commands. A null pointer is dereferenced
without a device; the kernel at that moment is the error. -/
def cleanup (devno : DevT) (kernel : Kernel) : Option AesdDevice → Except Kernel Kernel
  | none => .error kernel
  | some aesdDevice =>
      let deleted := cdevDel kernel aesdDevice.cdev
      let withoutData :=
        if aesdDevice.data then { deleted with blocks := deleted.blocks.erase .circularBuffer }
        else deleted
      let withoutDevice :=
        { withoutData with blocks := withoutData.blocks.erase .aesdDevice }
      .ok { withoutDevice with regions := withoutDevice.regions.erase devno }

inductive LoadResult where
  | loaded (devno : DevT) (aesdDevice : AesdDevice) (kernel : Kernel)
  | failed (result : Int) (kernel : Kernel)
  | oops (kernel : Kernel)
  deriving DecidableEq, Repr

def failure (result : Int) (devno : DevT) (kernel : Kernel) (aesdDevice : Option AesdDevice) :
    LoadResult :=
  match cleanup devno kernel aesdDevice with
  | .error kernel => .oops kernel
  | .ok kernel => .failed result kernel

def requested (parameters : ModuleParameters) (answers : LoadAnswers) : DevT where
  major := if parameters.aesdCharMajor ≠ 0 then parameters.aesdCharMajor else answers.major
  minor := parameters.aesdCharMinor

def registerRegion (parameters : ModuleParameters) (answers : LoadAnswers) (kernel : Kernel) :
    Int :=
  if requested parameters answers ∈ kernel.regions then -ebusy else answers.region

def aesdInitModule (parameters : ModuleParameters) (answers : LoadAnswers) (kernel : Kernel) :
    LoadResult :=
  let dev := requested parameters answers
  let result := registerRegion parameters answers kernel
  if result < 0 then .failed result kernel
  else
    let registered := { kernel with regions := dev :: kernel.regions }
    if !answers.kmallocDevice then failure (-enomem) dev registered none
    else
      let withDevice := { registered with blocks := .aesdDevice :: registered.blocks }
      if !answers.kmallocData then failure (-enomem) dev withDevice (some {})
      else
        let withData := { withDevice with blocks := .circularBuffer :: withDevice.blocks }
        if answers.cdevAdd ≠ 0 then
          failure answers.cdevAdd dev withData (some ⟨.initialized, true⟩)
        else
          .loaded dev ⟨.added ⟨dev.major, 0⟩, true⟩
            { withData with cdevs := ⟨dev.major, 0⟩ :: withData.cdevs }

section Load

variable {parameters : ModuleParameters} {answers : LoadAnswers} {kernel : Kernel} {devno : DevT}

def Kernel.load (kernel : Kernel) (devno : DevT) : Kernel :=
  { kernel with
    regions := devno :: kernel.regions
    cdevs := ⟨devno.major, 0⟩ :: kernel.cdevs
    blocks := .circularBuffer :: .aesdDevice :: kernel.blocks }

def AesdDevice.loaded (devno : DevT) : AesdDevice := ⟨.added ⟨devno.major, 0⟩, true⟩

theorem cleanup_load (devno : DevT) (kernel : Kernel) :
    cleanup devno (kernel.load devno) (some (.loaded devno)) = .ok kernel := by
  simp [cleanup, Kernel.load, AesdDevice.loaded, cdevDel]

theorem aesdInitModule_cases (parameters : ModuleParameters) (answers : LoadAnswers)
    (kernel : Kernel) :
    (registerRegion parameters answers kernel < 0 ∧
      aesdInitModule parameters answers kernel =
        .failed (registerRegion parameters answers kernel) kernel) ∨
    (0 ≤ registerRegion parameters answers kernel ∧
      ((answers.kmallocDevice = false ∧ aesdInitModule parameters answers kernel =
          .oops { kernel with regions := requested parameters answers :: kernel.regions }) ∨
        (answers.kmallocDevice = true ∧ answers.kmallocData = false ∧
          aesdInitModule parameters answers kernel =
            .failed (-enomem) { kernel with warned := true }) ∨
        (answers.kmallocDevice = true ∧ answers.kmallocData = true ∧ answers.cdevAdd ≠ 0 ∧
          aesdInitModule parameters answers kernel = .failed answers.cdevAdd kernel) ∨
        (answers.kmallocDevice = true ∧ answers.kmallocData = true ∧ answers.cdevAdd = 0 ∧
          aesdInitModule parameters answers kernel =
            .loaded (requested parameters answers) (.loaded (requested parameters answers))
              (kernel.load (requested parameters answers))))) := by
  rcases Int.lt_or_le (registerRegion parameters answers kernel) 0 with refused | registered
  · exact .inl ⟨refused, by simp only [aesdInitModule, if_pos refused]⟩
  · have notRefused := Int.not_lt.mpr registered
    refine .inr ⟨registered, ?_⟩
    cases device : answers.kmallocDevice with
    | false =>
        refine .inl ⟨rfl, ?_⟩
        simp [aesdInitModule, notRefused, device, failure, cleanup]
    | true =>
        right
        cases data : answers.kmallocData with
        | false =>
            refine .inl ⟨rfl, rfl, ?_⟩
            simp [aesdInitModule, notRefused, device, data, failure, cleanup, cdevDel]
        | true =>
            right
            by_cases added : answers.cdevAdd = 0
            · refine .inr ⟨rfl, rfl, added, ?_⟩
              simp [aesdInitModule, notRefused, device, data, added, Kernel.load,
                AesdDevice.loaded]
            · refine .inl ⟨rfl, rfl, added, ?_⟩
              simp [aesdInitModule, notRefused, device, data, added, failure, cleanup, cdevDel]

end Load

/-! ## Loads, calls and unloads -/

/-- `heap` is what the last unload has left of the memory of the commands. After a null pointer
was dereferenced, the module can neither be used nor unloaded. -/
inductive ModuleState where
  | unloaded (kernel : Kernel) (heap : Heap UInt8)
  | loaded (devno : DevT) (aesdDevice : AesdDevice) (kernel : Kernel) (system : System)
  | oops (kernel : Kernel)

inductive ModuleLabel where
  | load (parameters : ModuleParameters) (answers : LoadAnswers)
  | call (label : Label)
  | unload

/-- `fixed_size_llseek` is a parameter of the calls. The module is unloaded only while no call
runs. -/
inductive ModuleStep (fixedSizeLlseek : Int → Int → Int → Nat → Int × Int) :
    ModuleState → ModuleLabel → ModuleState → Prop where
  | load {parameters : ModuleParameters} {answers : LoadAnswers} {kernel kernel' : Kernel}
      {heap : Heap UInt8} {devno : DevT} {aesdDevice : AesdDevice} :
      aesdInitModule parameters answers kernel = .loaded devno aesdDevice kernel' →
      ModuleStep fixedSizeLlseek (.unloaded kernel heap) (.load parameters answers)
        (.loaded devno aesdDevice kernel' .init)
  | loadFailed {parameters : ModuleParameters} {answers : LoadAnswers}
      {kernel kernel' : Kernel} {heap : Heap UInt8} {result : Int} :
      aesdInitModule parameters answers kernel = .failed result kernel' →
      ModuleStep fixedSizeLlseek (.unloaded kernel heap) (.load parameters answers)
        (.unloaded kernel' heap)
  | loadOops {parameters : ModuleParameters} {answers : LoadAnswers}
      {kernel kernel' : Kernel} {heap : Heap UInt8} :
      aesdInitModule parameters answers kernel = .oops kernel' →
      ModuleStep fixedSizeLlseek (.unloaded kernel heap) (.load parameters answers)
        (.oops kernel')
  | call {devno : DevT} {aesdDevice : AesdDevice} {kernel : Kernel} {system system' : System}
      {label : Label} :
      System.Step fixedSizeLlseek system label system' →
      ModuleStep fixedSizeLlseek (.loaded devno aesdDevice kernel system)
        (.call label) (.loaded devno aesdDevice kernel system')
  | unload {devno : DevT} {aesdDevice : AesdDevice} {kernel kernel' : Kernel} {system : System} :
      (∀ task, system.writes.running task = none) →
      cleanup devno kernel (some aesdDevice) = .ok kernel' →
      ModuleStep fixedSizeLlseek (.loaded devno aesdDevice kernel system) .unload
        (.unloaded kernel' (aesdCleanupModule system.writes.driver))

namespace ModuleState

def kernel : ModuleState → Kernel
  | unloaded kernel _ | loaded _ _ kernel _ | oops kernel => kernel

/-- What the module holds beside what the kernel held before. -/
def Balanced (base : Kernel) : ModuleState → Prop
  | unloaded kernel heap =>
      kernel = { base with warned := kernel.warned } ∧ (∀ pointer, heap.block pointer = none) ∧
        heap.retired.Nodup
  | loaded devno aesdDevice kernel system =>
      kernel = Kernel.load { base with warned := kernel.warned } devno ∧
        aesdDevice = .loaded devno ∧ system.writes.Valid
  | oops kernel =>
      ∃ devno, kernel =
        { base with regions := devno :: base.regions, warned := kernel.warned }

end ModuleState

section Runs

variable {fixedSizeLlseek : Int → Int → Int → Nat → Int × Int} {parameters : ModuleParameters}
  {base : Kernel} {state state' : ModuleState} {labels : List ModuleLabel} {label : ModuleLabel}

/-- A load that gets its device number and no memory for the device. -/
def NoDevice (base : Kernel) (label : ModuleLabel) : Prop :=
  ∃ parameters answers, label = .load parameters answers ∧
    0 ≤ registerRegion parameters answers base ∧
    answers.kmallocDevice = false

/-- A load that gets its device number, and no memory for the buffer. -/
def NoData (base : Kernel) (label : ModuleLabel) : Prop :=
  ∃ parameters answers, label = .load parameters answers ∧
    0 ≤ registerRegion parameters answers base ∧
    answers.kmallocDevice = true ∧ answers.kmallocData = false

theorem noDevice_load {answers : LoadAnswers} : NoDevice base (.load parameters answers) ↔
    0 ≤ registerRegion parameters answers base ∧ answers.kmallocDevice = false := by
  refine ⟨?_, fun noDevice => ⟨parameters, answers, rfl, noDevice⟩⟩
  rintro ⟨_, _, same, noDevice⟩
  obtain ⟨rfl, rfl⟩ := ModuleLabel.load.inj same
  exact noDevice

theorem noData_load {answers : LoadAnswers} : NoData base (.load parameters answers) ↔
    0 ≤ registerRegion parameters answers base ∧ answers.kmallocDevice = true ∧
      answers.kmallocData = false := by
  refine ⟨?_, fun noData => ⟨parameters, answers, rfl, noData⟩⟩
  rintro ⟨_, _, same, noData⟩
  obtain ⟨rfl, rfl⟩ := ModuleLabel.load.inj same
  exact noData

def LoadResult.moduleState (heap : Heap UInt8) : LoadResult → ModuleState
  | .loaded devno aesdDevice kernel => .loaded devno aesdDevice kernel .init
  | .failed _ kernel => .unloaded kernel heap
  | .oops kernel => .oops kernel

theorem ModuleStep.eq_moduleState {answers : LoadAnswers} {kernel : Kernel} {heap : Heap UInt8}
    (taken : ModuleStep fixedSizeLlseek (.unloaded kernel heap) (.load parameters answers) state') :
    state' = (aesdInitModule parameters answers kernel).moduleState heap := by
  cases taken with
  | load loaded => rw [loaded, LoadResult.moduleState]
  | loadFailed failed => rw [failed, LoadResult.moduleState]
  | loadOops oops => rw [oops, LoadResult.moduleState]

/-- What a load does to the balance, by what it meets. -/
theorem ModuleState.Balanced.load {answers : LoadAnswers} {kernel : Kernel} {heap : Heap UInt8}
    (balanced : (ModuleState.unloaded kernel heap).Balanced base)
    (taken : ModuleStep fixedSizeLlseek (.unloaded kernel heap) (.load parameters answers) state') :
    state'.Balanced base ∧
      ((∃ kernel, state' = .oops kernel) ↔ NoDevice base (.load parameters answers)) ∧
      (state'.kernel.warned ↔ kernel.warned ∨ NoData base (.load parameters answers)) := by
  have unloaded := balanced
  obtain ⟨same, freed, once⟩ := balanced
  have region :
      registerRegion parameters answers kernel = registerRegion parameters answers base := by
    rw [same]
    rfl
  have after := ModuleStep.eq_moduleState taken
  have cases := aesdInitModule_cases parameters answers kernel
  rw [region] at cases
  rw [noDevice_load, noData_load]
  rcases cases with ⟨refused, result⟩ | ⟨registered, ⟨device, result⟩ | ⟨device, data, result⟩ |
    ⟨device, data, _, result⟩ | ⟨device, data, _, result⟩⟩
  · rw [result] at after
    subst after
    refine ⟨unloaded, ?_, ?_⟩
    · simp [LoadResult.moduleState, Int.not_le.mpr refused]
    · simp [LoadResult.moduleState, ModuleState.kernel, Int.not_le.mpr refused]
  · rw [result] at after
    subst after
    refine ⟨⟨requested parameters answers, by rw [same]⟩, ?_, ?_⟩
    · simp [LoadResult.moduleState, registered, device]
    · simp [LoadResult.moduleState, ModuleState.kernel, device]
  · rw [result] at after
    subst after
    refine ⟨⟨by rw [same], freed, once⟩, ?_, ?_⟩
    · simp [LoadResult.moduleState, device]
    · simp [LoadResult.moduleState, ModuleState.kernel, registered, device, data]
  · rw [result] at after
    subst after
    refine ⟨unloaded, ?_, ?_⟩
    · simp [LoadResult.moduleState, device]
    · simp [LoadResult.moduleState, ModuleState.kernel, data]
  · rw [result] at after
    subst after
    refine ⟨⟨by rw [same]; rfl, rfl, WriteSystem.init_valid⟩, ?_, ?_⟩
    · simp [LoadResult.moduleState, device]
    · simp [LoadResult.moduleState, ModuleState.kernel, Kernel.load, data]

theorem ModuleState.Balanced.step (balanced : state.Balanced base)
    (taken : ModuleStep fixedSizeLlseek state label state') :
    (¬ ∃ kernel, state = .oops kernel) ∧ state'.Balanced base ∧
      ((∃ kernel, state' = .oops kernel) ↔ NoDevice base label) ∧
      (state'.kernel.warned ↔ state.kernel.warned ∨ NoData base label) := by
  have noLoad : (∀ parameters answers, label ≠ .load parameters answers) →
      ¬ NoDevice base label ∧ ¬ NoData base label := by
    intro other
    refine ⟨?_, ?_⟩
    · rintro ⟨parameters, answers, same, _⟩
      exact other parameters answers same
    · rintro ⟨parameters, answers, same, _⟩
      exact other parameters answers same
  cases state with
  | oops kernel => cases taken
  | unloaded kernel heap =>
      refine ⟨by simp, ?_⟩
      cases label with
      | load parameters answers => exact balanced.load taken
      | call _ => cases taken
      | unload => cases taken
  | loaded devno aesdDevice kernel system =>
      obtain ⟨same, isLoaded, valid⟩ := balanced
      refine ⟨by simp, ?_⟩
      cases taken with
      | call called =>
          obtain ⟨noDevice, noData⟩ := noLoad (by simp)
          refine ⟨⟨same, isLoaded, (System.step_lock valid called).1⟩, ?_, ?_⟩
          · simp [noDevice]
          · simp [noData, ModuleState.kernel]
      | @unload _ _ _ kernel' _ idle cleaned =>
          obtain ⟨noDevice, noData⟩ := noLoad (by simp)
          rw [same, isLoaded, cleanup_load] at cleaned
          obtain rfl := Except.ok.inj cleaned
          have owned : (aesdCleanupModule system.writes.driver).Owns [] := by
            rw [aesdCleanupModule_eq]
            apply Heap.Owns.freeAll
            rw [List.append_nil]
            exact valid.driver.owns_heldPointers
          refine ⟨⟨rfl, fun pointer => ?_, owned.retiredOnce⟩, ?_, ?_⟩
          · rw [← Option.not_isSome_iff_eq_none, owned.live]
            exact List.not_mem_nil
          · simp [noDevice]
          · simp [noData, ModuleState.kernel]

structure Recorded (base : Kernel) (past : List ModuleLabel)
    (state : ModuleState) : Prop where
  balanced : state.Balanced base
  oops : (∃ kernel, state = .oops kernel) ↔ ∃ label ∈ past, NoDevice base label
  warned : state.kernel.warned ↔ base.warned ∨ ∃ label ∈ past, NoData base label

theorem exists_mem_concat {property : ModuleLabel → Prop} {past : List ModuleLabel} :
    (∃ other ∈ past ++ [label], property other) ↔
      (∃ other ∈ past, property other) ∨ property label := by
  simp [or_and_right, exists_or]

theorem Recorded.step {past : List ModuleLabel} (recorded : Recorded base past state)
    (taken : ModuleStep fixedSizeLlseek state label state') :
    Recorded base (past ++ [label]) state' := by
  obtain ⟨going, balanced, oops, warned⟩ := recorded.balanced.step taken
  rw [recorded.oops] at going
  refine ⟨balanced, ?_, ?_⟩
  · rw [oops, exists_mem_concat, or_iff_right going]
  · rw [warned, recorded.warned, exists_mem_concat, or_assoc]

/-- However the module is loaded, used and unloaded: while it is not loaded the kernel holds
nothing of it, and no block of a command is left. The one exception is that there is no memory
for the device: exactly then a null pointer is dereferenced, and the device number stays
registered. If there is none for the buffer, `cdev_del` gets a `cdev` that was never initialised. -/
theorem reachable_balanced (run : Run (ModuleStep fixedSizeLlseek)
      (.unloaded base .empty) labels state) :
    state.Balanced base ∧
      ((∃ kernel, state = .oops kernel) ↔ ∃ label ∈ labels, NoDevice base label) ∧
      (state.kernel.warned ↔ base.warned ∨ ∃ label ∈ labels, NoData base label) := by
  have kept (past : List ModuleLabel) (state : ModuleState) (label : ModuleLabel)
      (state' : ModuleState) (recorded : Recorded base past state)
      (taken : ModuleStep fixedSizeLlseek state label state') :
      Recorded base (past ++ [label]) state' := recorded.step taken
  have first : Recorded base [] (.unloaded base .empty) :=
    ⟨⟨rfl, fun _ => rfl, List.nodup_nil⟩, by simp, by simp [ModuleState.kernel]⟩
  have recorded := run.history kept first
  exact ⟨recorded.balanced, recorded.oops, recorded.warned⟩

theorem run_call {devno : DevT} {aesdDevice : AesdDevice} {kernel : Kernel}
    {system system' : System} {calls : List Label}
    (run : Run (System.Step fixedSizeLlseek) system calls system') :
    Run (ModuleStep fixedSizeLlseek) (.loaded devno aesdDevice kernel system)
      (calls.map .call) (.loaded devno aesdDevice kernel system') := by
  induction run with
  | nil => exact .nil _
  | cons taken _ inductionHypothesis => exact .cons (.call taken) inductionHypothesis

def reloadLabels : List ModuleLabel :=
  .load {} {} ::
    ([Label.write (.enter 0 [97, 10]), .write (.round 0 {}), .write (.round 0 {}),
        .write (.round 0 {})].map .call ++ [.unload, .load {} { kmallocDevice := false }])

theorem reachable_balanced_reload : ∃ state,
    Run (ModuleStep kernelFixedSizeLlseek) (.unloaded {} .empty) reloadLabels state ∧
      ∃ kernel, state = .oops kernel := by
  obtain ⟨system, followed, idle⟩ : ∃ system,
      follow (System.step kernelFixedSizeLlseek) .init
          [.write (.enter 0 [97, 10]), .write (.round 0 {}), .write (.round 0 {}),
            .write (.round 0 {})] = some system ∧
        ∀ task, system.writes.running task = none := by
    refine ⟨_, rfl, fun task => ?_⟩
    cases task with
    | zero => rfl
    | succ task => rfl
  have calls : Run (System.Step kernelFixedSizeLlseek) .init _ system := run_of_follow followed
  have run : ∃ state, Run (ModuleStep kernelFixedSizeLlseek) (.unloaded {} .empty) reloadLabels
      state :=
    ⟨_, .cons (.load rfl) ((run_call calls).append
      (.cons (.unload idle rfl) (.cons (.loadOops rfl) (.nil _))))⟩
  obtain ⟨state, run⟩ := run
  refine ⟨state, run, (reachable_balanced run).2.1.mpr
    ⟨.load {} { kmallocDevice := false }, ?_, ?_⟩⟩
  · simp [reloadLabels]
  · exact ⟨_, _, rfl, by decide, rfl⟩

end Runs

end Aesd
