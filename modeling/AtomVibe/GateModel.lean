import Mathlib.Data.List.Destutter
import AtomVibe.BuildProtocol
import AtomVibe.Bus

namespace AtomVibe.GateModel

open BuildProtocol Bus

structure RequirementsRecord where
  purpose : String
  userBehaviors : List String
  uiDecision : String
  persistenceDecision : String
  externalBoundaries : List String
  executionSiting : String
  outOfScope : List String
  definitionOfDone : List String
  artifact : BuildArtifactRef
  deriving DecidableEq

structure BlueprintCrate where
  name : String
  responsibility : String
  deriving DecidableEq

structure MessageContract where
  id : String
  messageType : String
  producer : String
  consumers : List String
  failureSemantics : String
  deriving DecidableEq

structure DependencyEdge where
  dependency : String
  consumer : String
  deriving DecidableEq

structure IndependentReview where
  authorIdentityHash : String
  reviewerIdentityHash : String
  passed : Bool
  findings : List String
  findingsResolved : Bool
  evidence : List BuildArtifactRef
  deriving DecidableEq

structure BlueprintRecord where
  version : UInt32
  crates : List BlueprintCrate
  messageContracts : List MessageContract
  dependencyEdges : List DependencyEdge
  topologicalOrder : List String
  couplingOrder : List String
  blueprintArtifact : BuildArtifactRef
  protocolArtifact : BuildArtifactRef
  independentReview : IndependentReview
  deriving DecidableEq

structure CommandEvidence where
  name : String
  exitCode : Int32
  timedOut : Bool
  warningsDenied : Bool
  warningCount : ℕ
  realExecution : Bool
  stdout : BuildArtifactRef
  stderr : BuildArtifactRef
  deriving DecidableEq

structure CrateEvidence where
  crateName : String
  sourceArtifacts : List BuildArtifactRef
  cargoCheck : CommandEvidence
  unitTest : CommandEvidence
  deriving DecidableEq

inductive WiringStatus
  | pass
  | fail
  | deferred
  deriving DecidableEq, Repr

structure WiringEvidence where
  contractId : String
  producer : String
  consumer : String
  messageType : String
  status : WiringStatus
  messageEmitted : Bool
  messageHandled : Bool
  directSideChannel : Bool
  deferredReason : String
  evidence : List BuildArtifactRef
  deriving DecidableEq

structure FunctionalCaseEvidence where
  requirement : String
  passed : Bool
  smokeOnly : Bool
  realWorkflow : Bool
  busRoundTrip : Bool
  evidence : List BuildArtifactRef
  deriving DecidableEq

structure RoundTripEvidence where
  inputEventId : String
  busLayers : List BusLayer
  runtimeResultId : String
  renderedBeforeHash : String
  renderedAfterHash : String
  evidence : List BuildArtifactRef
  deriving DecidableEq

structure LaunchEvidence where
  processStarted : Bool
  processStillRunning : Bool
  panicFree : Bool
  usableScreenObserved : Bool
  screenshot : BuildArtifactRef
  startupOutput : BuildArtifactRef
  roundTrip : RoundTripEvidence
  definitionOfDoneSatisfied : Bool
  definitionOfDoneEvidence : List BuildArtifactRef
  completionEnforcerClean : Bool
  deriving DecidableEq

structure GateInput where
  step : BuildStep
  evidenceRoot : String
  requirements : Option RequirementsRecord
  blueprint : Option BlueprintRecord
  crates : List CrateEvidence
  wirings : List WiringEvidence
  commands : List CommandEvidence
  functionalCases : List FunctionalCaseEvidence
  implementationReview : Option IndependentReview
  coupleMarkers : List String
  deferredDebt : List String
  launch : Option LaunchEvidence
  deriving DecidableEq

def GateInput.new (step : BuildStep) (evidenceRoot : String) : GateInput :=
  ⟨step, evidenceRoot, none, none, [], [], [], [], none, [], [], none⟩

def artifactLe (left right : BuildArtifactRef) : Prop :=
  left.path < right.path ∨ left.path = right.path ∧
    (left.sha256Hex < right.sha256Hex ∨ left.sha256Hex = right.sha256Hex ∧ left.role ≤ right.role)

instance : DecidableRel artifactLe := fun left right =>
  inferInstanceAs (Decidable (left.path < right.path ∨ left.path = right.path ∧
    (left.sha256Hex < right.sha256Hex ∨ left.sha256Hex = right.sha256Hex ∧ left.role ≤ right.role)))

def commandArtifacts (command : CommandEvidence) : List BuildArtifactRef :=
  [command.stdout, command.stderr]

def BlueprintRecord.artifacts (blueprint : BlueprintRecord) : List BuildArtifactRef :=
  blueprint.blueprintArtifact :: blueprint.protocolArtifact :: blueprint.independentReview.evidence

def CrateEvidence.artifacts (item : CrateEvidence) : List BuildArtifactRef :=
  item.sourceArtifacts ++ commandArtifacts item.cargoCheck ++ commandArtifacts item.unitTest

def LaunchEvidence.artifacts (launch : LaunchEvidence) : List BuildArtifactRef :=
  launch.screenshot :: launch.startupOutput :: launch.roundTrip.evidence ++
    launch.definitionOfDoneEvidence

def GateInput.collectArtifacts (input : GateInput) : List BuildArtifactRef :=
  (input.requirements.map (·.artifact)).toList ++
    (input.blueprint.map (·.artifacts)).getD [] ++
    input.crates.flatMap (·.artifacts) ++
    input.wirings.flatMap (·.evidence) ++
    input.commands.flatMap commandArtifacts ++
    input.functionalCases.flatMap (·.evidence) ++
    (input.implementationReview.map (·.evidence)).getD [] ++
    (input.launch.map (·.artifacts)).getD []

def GateInput.allArtifacts (input : GateInput) : List BuildArtifactRef :=
  (input.collectArtifacts.insertionSort artifactLe).destutter (· ≠ ·)

theorem mem_destutter_ne {α : Type} [DecidableEq α] (x : α) (xs : List α) :
    x ∈ xs.destutter (· ≠ ·) ↔ x ∈ xs := by
  have h' : ∀ (ys : List α) (y : α), x ∈ ys.destutter' (· ≠ ·) y ↔ x = y ∨ x ∈ ys := by
    intro ys
    induction ys with
    | nil => intro y; simp
    | cons z ys ih =>
      intro y
      by_cases hyz : y = z
      · subst hyz
        rw [List.destutter'_cons_neg _ (by simp), ih]
        simp
      · rw [List.destutter'_cons_pos _ hyz, List.mem_cons, ih, List.mem_cons]
  cases xs with
  | nil => simp
  | cons y ys =>
    rw [List.destutter_cons', h', List.mem_cons]

theorem mem_allArtifacts (input : GateInput) (artifact : BuildArtifactRef) :
    artifact ∈ input.allArtifacts ↔ artifact ∈ input.collectArtifacts := by
  rw [GateInput.allArtifacts, mem_destutter_ne, List.mem_insertionSort]

end AtomVibe.GateModel
