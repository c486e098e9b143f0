import AtomVibe.Foundations.Transition
import AtomVibe.GateSpec
import AtomVibe.PlannerModel

namespace AtomVibe.BuildPlanner

open Checked Text Hash BuildProtocol GateModel SourceInspection GateEvaluation GateSpec PlannerModel

structure Call where
  input : GateInput
  fs : EvidenceFs
  checkedAt : UInt64
  recordedAt : ℕ → UInt64
  updatedAt : UInt64

def saturatingSucc (n : UInt64) : UInt64 := if n.toNat + 1 < UInt64.size then n + 1 else n

theorem toNat_saturatingSucc {n : UInt64} (h : n.toNat + 1 < UInt64.size) :
    (saturatingSucc n).toNat = n.toNat + 1 := by
  have hone : (1 : UInt64).toNat = 1 := rfl
  rw [saturatingSucc, if_pos h, UInt64.toNat_add, hone]
  exact Nat.mod_eq_of_lt h

def freshLedger (buildId projectId : String) (autonomousCorrection : Bool) (retryLimit : UInt8)
    (now : UInt64) : BuildLedger where
  schemaVersion := buildLedgerSchemaVersion
  revision := 1
  buildId := buildId
  projectId := projectId
  status := .active
  currentStep := .intake
  autonomousCorrection := autonomousCorrection
  retryLimit := retryLimit
  requirements := none
  blueprintVersions := []
  stepOutputs := []
  crateStatuses := []
  wiringStatuses := []
  deferredDebt := []
  coupleMarkers := []
  retryLedger := []
  launchProof := none
  createdAtUnixMs := now
  updatedAtUnixMs := now

def newBuildId (projectId : String) (now : UInt64) (pid : UInt32) (sequence : UInt64) : String :=
  let identity := projectId ++ "\x00" ++ now.toNat.repr ++ "\x00" ++ pid.toNat.repr ++ "\x00" ++
    sequence.toNat.repr
  "build-" ++ String.ofList ((sha256Hex (asBytes identity)).toList.take 24)

def new (projectId : String) (autonomousCorrection : Bool) (retryLimit : UInt8) (now : UInt64)
    (pid : UInt32) (sequence : UInt64) : Except BuildPlannerError BuildLedger := do
  let buildId := newBuildId projectId now pid sequence
  let ledger := freshLedger buildId projectId autonomousCorrection retryLimit now
  ledger.validate
  return ledger

def fromLedger (ledger : BuildLedger) : Except BuildPlannerError BuildLedger := do
  ledger.validate
  return ledger

def startEvent (ledger : BuildLedger) : BuildPlannerEvent :=
  .buildStarted ledger.buildId ledger.projectId ledger.currentSkill

def recordStepState (ledger : BuildLedger) (call : Call) : BuildLedger :=
  match call.input.step with
  | .intake => { ledger with requirements := call.input.requirements }
  | .blueprint =>
    { ledger with blueprintVersions := ledger.blueprintVersions ++ call.input.blueprint.toList }
  | .crateBuild =>
    { ledger with
      crateStatuses := call.input.crates.map (·.crateName)
      coupleMarkers := call.input.coupleMarkers }
  | .crateCouple =>
    { ledger with
      wiringStatuses := call.input.wirings.map fun item =>
        ⟨item.contractId, item.status, item.evidence⟩
      deferredDebt := call.input.deferredDebt.mapIdx fun i reason =>
        ⟨.crateCouple, reason, call.recordedAt i⟩
      coupleMarkers := [] }
  | .buildTest => { ledger with deferredDebt := [], coupleMarkers := [] }
  | .launchProof =>
    { ledger with launchProof := call.input.launch, deferredDebt := [], coupleMarkers := [] }

def passedOutput (step : BuildStep) (evidence : BuildGateEvidence) : StepOutput :=
  ⟨step, evidence.summary, evidence.details, evidence.artifacts, evidence.checkedAtUnixMs⟩

def advance (ledger : BuildLedger) (call : Call) (evidence : BuildGateEvidence) : BuildLedger :=
  let recorded := recordStepState ledger call
  let passed := { recorded with
    stepOutputs := recorded.stepOutputs ++ [passedOutput call.input.step evidence] }
  match call.input.step.next with
  | some next => { passed with currentStep := next }
  | none => { passed with status := .complete }

def handlePass (ledger : BuildLedger) (call : Call) (evidence : BuildGateEvidence) :
    Except BuildPlannerError BuildPlannerDecision × BuildLedger :=
  let step := call.input.step
  if (step = .buildTest ∨ step = .launchProof) ∧ call.input.deferredDebt ≠ [] then
    (.error .deferredDebtRemaining, ledger)
  else if (step = .crateCouple ∨ step = .buildTest ∨ step = .launchProof) ∧
      call.input.coupleMarkers ≠ [] then
    (.error .coupleMarkersRemaining, ledger)
  else
    (.ok (.advance (.stepAdvanced ledger.buildId ledger.projectId step step.next
      (step.next.map (·.skillId)))), advance ledger call evidence)

def retryEligible (ledger : BuildLedger) (step : BuildStep) (errorClass : BuildErrorClass) : Bool :=
  ledger.autonomousCorrection && errorClass.isBoundedCandidate &&
    ledger.retryAttempts step + 1 ≤ ledger.retryLimit.toNat

def retryRecord (ledger : BuildLedger) (step : BuildStep) (errorClass : BuildErrorClass)
    (evidence : BuildGateEvidence) (decision : String) : RetryRecord where
  step := step
  errorClass := errorClass
  attempt := UInt8.ofNat (min (ledger.retryAttempts step + 1) 255)
  summary := evidence.summary
  artifacts := evidence.artifacts
  decision := decision
  recordedAtUnixMs := evidence.checkedAtUnixMs

def handleFail (ledger : BuildLedger) (step : BuildStep) (errorClass : BuildErrorClass)
    (evidence : BuildGateEvidence) : BuildPlannerDecision × BuildLedger :=
  let attempt := ledger.retryAttempts step + 1
  if retryEligible ledger step errorClass then
    (.autonomousRetry (.autonomousRetryRequested ledger.buildId ledger.projectId step errorClass
        (UInt8.ofNat attempt) ledger.retryLimit evidence.summary),
      { ledger with
        retryLedger := ledger.retryLedger ++
          [retryRecord ledger step errorClass evidence "retry_requested"] })
  else
    let exhausted := ledger.autonomousCorrection && errorClass.isBoundedCandidate &&
      ledger.retryLimit.toNat < attempt
    let finalClass := if exhausted then .retryExhausted else errorClass
    let summary := if exhausted then evidence.summary ++ "; " ++ ledger.retryLimit.toNat.repr ++
        " autonomous corrections were exhausted"
      else evidence.summary
    (.hardHalt (.hardHalted ledger.buildId ledger.projectId step finalClass summary),
      { ledger with
        status := .halted
        retryLedger := ledger.retryLedger ++
          [retryRecord ledger step errorClass evidence "hard_halt"] })

def handleDeferred (ledger : BuildLedger) (step : BuildStep) (reason : String)
    (evidence : BuildGateEvidence) :
    Except BuildPlannerError BuildPlannerDecision × BuildLedger :=
  if step ≠ .crateCouple then (.error .deferredOutsideCouple, ledger)
  else
    (.ok (.deferred (.deferredDebtRecorded ledger.buildId ledger.projectId step reason)),
      { ledger with
        deferredDebt := ledger.deferredDebt ++ [⟨step, reason, evidence.checkedAtUnixMs⟩] })

def handleOutcome (ledger : BuildLedger) (call : Call) :
    GateOutcome → Except BuildPlannerError BuildPlannerDecision × BuildLedger
  | .pass evidence => handlePass ledger call evidence
  | .fail errorClass evidence =>
    let (decision, changed) := handleFail ledger call.input.step errorClass evidence
    (.ok decision, changed)
  | .deferred reason evidence => handleDeferred ledger call.input.step reason evidence

def stamp (ledger : BuildLedger) (call : Call) : BuildLedger :=
  { ledger with
    revision := saturatingSucc ledger.revision
    updatedAtUnixMs := call.updatedAt }

def conclude (decision : BuildPlannerDecision) (ledger : BuildLedger) :
    Except BuildPlannerError BuildPlannerDecision × BuildLedger :=
  (ledger.validate.map fun _ => decision, ledger)

def evaluateAndHandle (ledger : BuildLedger) (call : Call) :
    Except BuildPlannerError BuildPlannerDecision × BuildLedger :=
  if ledger.status ≠ .active then (.error .buildNotActive, ledger)
  else if call.input.step ≠ ledger.currentStep then
    (.error (.wrongStep ledger.currentStep call.input.step), ledger)
  else
    match handleOutcome ledger call (evaluateGate call.fs call.checkedAt call.input) with
    | (.error error, changed) => (.error error, changed)
    | (.ok decision, changed) => conclude decision (stamp changed call)

end AtomVibe.BuildPlanner
