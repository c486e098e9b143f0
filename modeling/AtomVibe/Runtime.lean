import AtomVibe.Coordinator
import AtomVibe.PlannerInvariant
import AtomVibe.ScratchpadSeal
import AtomVibe.TurnStore

namespace AtomVibe.Runtime

open Bus BuildProtocol PlannerModel BuildPlanner PlannerSteps PlannerInvariant LedgerStore
open Coordinator ChainFiles Scratchpad ScratchpadStore ScratchpadAppend ScratchpadSeal
open ScratchpadOpen Provider RuntimeModel

structure RuntimeFiles where
  planners : LedgerRoot
  sessions : Files
  /-- By the directory of their scope. -/
  scratchpads : Catalog String ScratchpadFiles
  turns : TurnStore.TurnDirs
  /-- By their paths below the runtime root. -/
  outputs : Catalog String ByteArray

namespace RuntimeFiles

def pad (files : RuntimeFiles) (store : ScratchpadStore) : ScratchpadFiles :=
  (files.scratchpads.lookup store.scopeDir).getD freshFiles

def setPad (files : RuntimeFiles) (store : ScratchpadStore) (pad : ScratchpadFiles) :
    RuntimeFiles :=
  { files with scratchpads := files.scratchpads.insert store.scopeDir pad }

@[simp]
theorem pad_setPad (files : RuntimeFiles) (store : ScratchpadStore) (pad : ScratchpadFiles) :
    (files.setPad store pad).pad store = pad := by
  rw [RuntimeFiles.pad, setPad, Catalog.lookup_insert, if_pos rfl]
  rfl

@[simp]
theorem planners_setPad (files : RuntimeFiles) (store : ScratchpadStore) (pad : ScratchpadFiles) :
    (files.setPad store pad).planners = files.planners := rfl

end RuntimeFiles

def SoundPlanners (coordinator : BuildCoordinator) : Prop :=
  ∀ buildId planner, coordinator.planners.lookup buildId = some planner →
    planner.buildId = buildId ∧ planner.Valid

theorem sound_insert {coordinator changed : BuildCoordinator} (h : SoundPlanners coordinator)
    {planner : BuildLedger} (hvalid : planner.Valid)
    (hchanged : changed.planners = coordinator.planners.insert planner.buildId planner) :
    SoundPlanners changed := by
  intro buildId other hlookup
  rw [hchanged, Catalog.lookup_insert] at hlookup
  split_ifs at hlookup with hid
  · obtain rfl := Option.some.inj hlookup
    exact ⟨hid.symm, hvalid⟩
  · exact h buildId other hlookup

theorem evaluateAndHandle_ok {ledger changed : BuildLedger} {call : Call}
    {decision : BuildPlannerDecision} (h : evaluateAndHandle ledger call = (.ok decision, changed)) :
    changed.Valid ∧ changed.buildId = ledger.buildId ∧
      changed.revision = saturatingSucc ledger.revision := by
  have hkept := kept_evaluateAndHandle ledger call
  rw [h] at hkept
  rcases evaluateAndHandle_cases ledger call with ⟨-, error, he⟩ |
    ⟨-, evidence, decision', -, he⟩ | ⟨-, errorClass, evidence, -, he⟩
  · rw [h] at he
    exact absurd (Prod.ext_iff.mp he).1 (by simp)
  · rw [h] at he
    have hresult := Prod.ext_iff.mp he
    obtain rfl : changed = _ := hresult.2
    refine ⟨(conclude_eq_ok.mp hresult.1.symm).2, hkept.buildId, ?_⟩
    rw [conclude, stamp, revision_advance]
  · rw [h] at he
    have hresult := Prod.ext_iff.mp he
    obtain rfl : changed = _ := hresult.2
    refine ⟨(conclude_eq_ok.mp hresult.1.symm).2, hkept.buildId, ?_⟩
    rw [conclude, stamp, handleFail_eq]
    split_ifs <;> rfl

theorem sound_commit {coordinator : BuildCoordinator} (h : SoundPlanners coordinator)
    {candidate : BuildLedger} (hvalid : candidate.Valid) (decision : BuildPlannerDecision)
    (root : LedgerRoot) :
    SoundPlanners (coordinator.commit candidate.buildId decision candidate root).2.1 := by
  cases hsave : (coordinator.store.save candidate root).1 with
  | error error =>
    rw [BuildCoordinator.commit_error hsave]
    exact h
  | ok path =>
    obtain ⟨changed, hkeeps, hcommit⟩ :=
      @BuildCoordinator.commit_ok coordinator decision candidate root path hsave
    rw [hcommit]
    exact sound_insert h hvalid hkeeps.planners

theorem sound_evaluate {coordinator : BuildCoordinator} (h : SoundPlanners coordinator)
    (buildId : String) (call : Call) (root : LedgerRoot) :
    SoundPlanners (coordinator.evaluate buildId call root).2.1 := by
  unfold BuildCoordinator.evaluate
  cases hlookup : coordinator.planners.lookup buildId with
  | none => exact h
  | some planner =>
    cases he : evaluateAndHandle planner call with
    | mk result candidate =>
      cases result with
      | error error =>
        simp only [he]
        exact h
      | ok decision =>
        obtain ⟨hvalid, hid, -⟩ := evaluateAndHandle_ok he
        have hcommit := sound_commit h hvalid decision root
        rw [hid, (h buildId planner hlookup).1] at hcommit
        simp only [he]
        exact hcommit

theorem sound_startPlanner {coordinator : BuildCoordinator} (h : SoundPlanners coordinator)
    {planner : BuildLedger} (hvalid : planner.Valid) (root : LedgerRoot) :
    SoundPlanners (coordinator.startPlanner planner root).2.1 := by
  cases hsave : (coordinator.store.save planner root).1 with
  | error error =>
    rw [BuildCoordinator.startPlanner_error hsave]
    exact h
  | ok path =>
    obtain ⟨changed, hkeeps, hstart⟩ := @BuildCoordinator.startPlanner_ok coordinator planner root
      path hsave
    rw [hstart]
    exact sound_insert h hvalid hkeeps.planners

theorem sound_startBuild {coordinator : BuildCoordinator} (h : SoundPlanners coordinator)
    (projectId : String) (autonomousCorrection : Bool) (retryLimit : UInt8) (now : UInt64)
    (pid : UInt32) (sequence : UInt64) (root : LedgerRoot) :
    SoundPlanners (coordinator.startBuild projectId autonomousCorrection retryLimit now pid
      sequence root).2.1 := by
  unfold BuildCoordinator.startBuild
  cases hnew : new projectId autonomousCorrection retryLimit now pid sequence with
  | error error => exact h
  | ok planner => exact sound_startPlanner h (aligned_of_new hnew).valid root

structure ProviderResultRoute where
  terminal : EnvelopeId
  route : List EnvelopeId
  blocked : Bool
  deriving DecidableEq

structure AtomVibeRuntime where
  root : String
  coordinator : BuildCoordinator
  provider : ProviderAdapter
  contextBus : SpiderwebBus
  providerBus : SpiderwebBus
  providerRoutes : List ProviderResultRoute
  sound : SoundPlanners coordinator

/-- The times at which a call writes: of the entry, of the seal, and what the file system has for
the seal. -/
structure PadClock where
  appendedAt : UInt64
  sealedAt : UInt64
  sealModified : Option ℕ

def decisionKind : BuildPlannerDecision → ScratchpadEntryKind
  | .advance _ => .checkpoint
  | .autonomousRetry _ | .hardHalt _ => .gateFailure
  | .deferred _ => .decision

def decisionScratchpad (ledger : BuildLedger) (decision : BuildPlannerDecision) :
    ScratchpadEntryKind × String × List String :=
  let detail := (((ledger.retryLedger.getLast?).filter fun record =>
    record.step == ledger.currentStep).map (·.summary)).getD ""
  (decisionKind decision,
    "Deterministic gate decision: " ++ decision.label ++ ". Planner revision: " ++
      ledger.revision.toNat.repr ++ ". Current step: " ++ ledger.currentStep.asStr ++ ". " ++ detail,
    decisionEvidenceIds ledger decision)

def recordEntry (store : ScratchpadStore) (step : BuildStep) (ledger : BuildLedger)
    (decision : BuildPlannerDecision) (clock : PadClock) (pad : ScratchpadFiles) :
    Except ScratchpadError Unit × ScratchpadFiles :=
  let entry := decisionScratchpad ledger decision
  match store.append clock.appendedAt (some step) entry.1 entry.2.1 entry.2.2 pad with
  | (.error error, pad) => (.error error, pad)
  | (.ok _, pad) =>
    if ledger.status = .complete then sealPad store clock.sealedAt clock.sealModified pad
    else (.ok (), pad)

namespace AtomVibeRuntime

def config (runtime : AtomVibeRuntime) : ProviderConfig := runtime.provider.config

def padStore (runtime : AtomVibeRuntime) (buildId : String) :
    Except ScratchpadError ScratchpadStore := do
  let scope ← ScratchpadScope.new buildId (providerIdentity runtime.config)
  storeOf (runtime.root ++ "/scratchpads") scope

def scratchpad (runtime : AtomVibeRuntime) (buildId : String) (files : RuntimeFiles) :
    Except RuntimeError ScratchpadStore × RuntimeFiles :=
  match runtime.padStore buildId with
  | .error error => (.error (.scratchpad error.display), files)
  | .ok store =>
    let opened := openPad store (files.pad store)
    (opened.1.mapError fun error => .scratchpad error.display, files.setPad store opened.2)

def recordDecision (runtime : AtomVibeRuntime) (buildId : String) (step : BuildStep)
    (ledger : BuildLedger) (decision : BuildPlannerDecision) (clock : PadClock)
    (files : RuntimeFiles) : Except RuntimeError Unit × RuntimeFiles :=
  match runtime.scratchpad buildId files with
  | (.error error, files) => (.error error, files)
  | (.ok store, files) =>
    let recorded := recordEntry store step ledger decision clock (files.pad store)
    (recorded.1.mapError fun error => .scratchpad error.display, files.setPad store recorded.2)

def evaluated (runtime : AtomVibeRuntime) (buildId : String) (call : Call) (root : LedgerRoot) :
    AtomVibeRuntime :=
  { runtime with
    coordinator := (runtime.coordinator.evaluate buildId call root).2.1
    sound := sound_evaluate runtime.sound buildId call root }

def evaluateGate (runtime : AtomVibeRuntime) (buildId : String) (call : Call) (clock : PadClock)
    (files : RuntimeFiles) :
    Except RuntimeError BuildPlannerDecision × AtomVibeRuntime × RuntimeFiles :=
  match SessionStore.load buildId files.sessions with
  | .error error => (.error error, runtime, files)
  | .ok _ =>
    let done := runtime.coordinator.evaluate buildId call files.planners
    let changed := runtime.evaluated buildId call files.planners
    let files := { files with planners := done.2.2 }
    match done.1 with
    | .error error => (.error (.planner error.display), changed, files)
    | .ok decision =>
      match changed.coordinator.planners.lookup buildId with
      | none => (.error (.planner "evaluated build disappeared"), changed, files)
      | some ledger =>
        let recorded := changed.recordDecision buildId call.input.step ledger decision clock files
        (recorded.1.map fun _ => decision, changed, recorded.2)

end AtomVibeRuntime

end AtomVibe.Runtime
