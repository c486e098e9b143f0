import Mathlib.Tactic.IntervalCases
import AtomVibe.Foundations.Checked
import AtomVibe.GateModel

namespace AtomVibe.PlannerModel

open Checked Text BuildProtocol GateModel

def buildLedgerSchemaVersion : UInt32 := 1

inductive BuildRunStatus
  | active
  | halted
  | complete
  deriving DecidableEq, Repr

namespace BuildRunStatus

def asStr : BuildRunStatus → String
  | active => "active"
  | halted => "halted"
  | complete => "complete"

def parse (value : String) : Option BuildRunStatus :=
  [active, halted, complete].find? fun status => status.asStr == value

theorem parse_asStr (status : BuildRunStatus) : parse status.asStr = some status := by
  cases status <;> decide

end BuildRunStatus

structure StepOutput where
  step : BuildStep
  summary : String
  details : List String
  artifacts : List BuildArtifactRef
  recordedAtUnixMs : UInt64
  deriving DecidableEq

structure DeferredDebt where
  step : BuildStep
  reason : String
  recordedAtUnixMs : UInt64
  deriving DecidableEq

structure RetryRecord where
  step : BuildStep
  errorClass : BuildErrorClass
  attempt : UInt8
  summary : String
  artifacts : List BuildArtifactRef
  decision : String
  recordedAtUnixMs : UInt64
  deriving DecidableEq

structure WiringLedgerRecord where
  contractId : String
  status : WiringStatus
  evidence : List BuildArtifactRef
  deriving DecidableEq

structure BuildLedger where
  schemaVersion : UInt32
  revision : UInt64
  buildId : String
  projectId : String
  status : BuildRunStatus
  currentStep : BuildStep
  autonomousCorrection : Bool
  retryLimit : UInt8
  requirements : Option RequirementsRecord
  blueprintVersions : List BlueprintRecord
  stepOutputs : List StepOutput
  crateStatuses : List String
  wiringStatuses : List WiringLedgerRecord
  deferredDebt : List DeferredDebt
  coupleMarkers : List String
  retryLedger : List RetryRecord
  launchProof : Option LaunchEvidence
  createdAtUnixMs : UInt64
  updatedAtUnixMs : UInt64
  deriving DecidableEq

inductive BuildPlannerDecision
  | advance (event : BuildPlannerEvent)
  | hardHalt (event : BuildPlannerEvent)
  | deferred (event : BuildPlannerEvent)
  | autonomousRetry (event : BuildPlannerEvent)
  deriving DecidableEq

namespace BuildPlannerDecision

def event : BuildPlannerDecision → BuildPlannerEvent
  | advance event => event
  | hardHalt event => event
  | deferred event => event
  | autonomousRetry event => event

def label : BuildPlannerDecision → String
  | advance _ => "advance"
  | hardHalt _ => "hard_halt"
  | deferred _ => "deferred"
  | autonomousRetry _ => "autonomous_retry_requested"

end BuildPlannerDecision

inductive BuildPlannerError
  | invalidLedger (reason : String)
  | buildNotActive
  | wrongStep (expected actual : BuildStep)
  | deferredOutsideCouple
  | deferredDebtRemaining
  | coupleMarkersRemaining
  | buildNotFound (buildId : String)
  | store (reason : String)
  | incompleteSpiderwebRoute
  deriving DecidableEq

def BuildPlannerError.display : BuildPlannerError → String
  | invalidLedger reason => "invalid build ledger: " ++ reason
  | buildNotActive => "build is not active"
  | wrongStep expected actual =>
    "gate step " ++ actual.asStr ++ " does not match current step " ++ expected.asStr
  | deferredOutsideCouple => "deferred outcome is only valid during crate coupling"
  | deferredDebtRemaining => "deferred debt must be zero before this step can advance"
  | coupleMarkersRemaining => "COUPLE markers must be zero before this step can advance"
  | buildNotFound buildId => "build " ++ buildId ++ " was not found"
  | store reason => "build ledger store failed: " ++ reason
  | incompleteSpiderwebRoute => "planner event did not traverse every Spiderweb layer"

def isSafeBuildId (buildId : String) : Bool :=
  startsWith "build-" buildId && buildId.utf8ByteSize ≤ 160 &&
    buildId.toList.all fun c => isAsciiLowercase c || isAsciiDigit c || c == '-'

def isSafeProjectId (projectId : String) : Bool :=
  !isBlank projectId && projectId.utf8ByteSize ≤ 240 && !projectId.toList.any isControl

namespace BuildLedger

def currentSkill (ledger : BuildLedger) : String := ledger.currentStep.skillId

def isRetryOf (step : BuildStep) (record : RetryRecord) : Bool :=
  record.step == step && record.decision == "retry_requested"

def retryAttempts (ledger : BuildLedger) (step : BuildStep) : ℕ :=
  ledger.retryLedger.countP (isRetryOf step)

def passedSteps (ledger : BuildLedger) : List BuildStep := ledger.stepOutputs.map (·.step)

def validate (ledger : BuildLedger) : Except BuildPlannerError Unit := do
  refuseIf (ledger.schemaVersion ≠ buildLedgerSchemaVersion ∨ ledger.revision = 0)
    (.invalidLedger "schema version or revision is invalid")
  refuseIf (isSafeBuildId ledger.buildId = false) (.invalidLedger "build id is unsafe")
  refuseIf (isSafeProjectId ledger.projectId = false)
    (.invalidLedger "project id is empty or unsafe")
  refuseIf (ledger.retryLimit = 0 ∨ 32 < ledger.retryLimit)
    (.invalidLedger "retry limit must be between 1 and 32")
  refuseIf (ledger.status = .complete ∧ (ledger.currentStep ≠ .launchProof ∨
      ledger.launchProof = none ∨ ledger.passedSteps.getLast? ≠ some .launchProof))
    (.invalidLedger "complete ledger lacks launch proof")
  refuseIf (BuildStep.all.length < ledger.stepOutputs.length)
    (.invalidLedger "ledger contains too many passed step outputs")
  refuseIf (ledger.passedSteps.isPrefixOf BuildStep.all = false)
    (.invalidLedger "passed step outputs are not an exact prefix")

structure Valid (ledger : BuildLedger) : Prop where
  schema : ledger.schemaVersion = buildLedgerSchemaVersion
  revision : ledger.revision ≠ 0
  buildId : isSafeBuildId ledger.buildId = true
  projectId : isSafeProjectId ledger.projectId = true
  retryLimit : ledger.retryLimit ≠ 0 ∧ ledger.retryLimit ≤ 32
  complete : ledger.status = .complete → ledger.currentStep = .launchProof ∧
    ledger.launchProof.isSome ∧ ledger.passedSteps.getLast? = some .launchProof
  passed : ledger.passedSteps <+: BuildStep.all

theorem validate_eq_ok {ledger : BuildLedger} {u : Unit} :
    ledger.validate = .ok u ↔ ledger.Valid := by
  simp only [validate, bind_eq_ok, refuseIf_eq_ok, not_or, not_and, ne_eq, not_not,
    Bool.not_eq_false, UInt8.not_lt, ← Option.isSome_iff_ne_none, List.isPrefixOf_iff_prefix]
  constructor
  · rintro ⟨-, ⟨hschema, hrevision⟩, -, hbuild, -, hproject, -, hlimit, -, hcomplete, -, -, hpassed⟩
    exact ⟨hschema, hrevision, hbuild, hproject, hlimit, hcomplete, hpassed⟩
  · intro h
    have hlength : ¬BuildStep.all.length < ledger.stepOutputs.length := by
      have hle := h.passed.length_le
      rw [passedSteps, List.length_map] at hle
      omega
    exact ⟨(), ⟨h.schema, h.revision⟩, (), h.buildId, (), h.projectId, (), h.retryLimit, (),
      h.complete, (), hlength, h.passed⟩

theorem Valid.passedSteps_of_complete {ledger : BuildLedger} (h : ledger.Valid)
    (hcomplete : ledger.status = .complete) : ledger.passedSteps = BuildStep.all := by
  have hlast := (h.complete hcomplete).2.2
  obtain ⟨rest, hrest⟩ := h.passed
  generalize ledger.passedSteps = steps at hlast hrest
  rw [List.prefix_iff_eq_take.mp ⟨rest, hrest⟩] at hlast ⊢
  have hle : steps.length ≤ 6 := List.IsPrefix.length_le ⟨rest, hrest⟩
  generalize steps.length = n at hlast hle ⊢
  interval_cases n <;> first | rfl | exact absurd hlast (by decide)

end BuildLedger

end AtomVibe.PlannerModel
