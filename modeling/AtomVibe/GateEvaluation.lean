import Mathlib.Data.Finset.Card
import AtomVibe.SourceInspection

namespace AtomVibe.GateEvaluation

open Checked Text BuildProtocol GateModel SourceInspection Bus

abbrev GateFailure := BuildErrorClass × String

def scalarFields (record : RequirementsRecord) : List (String × String) :=
  [("purpose", record.purpose), ("UI decision", record.uiDecision),
    ("persistence decision", record.persistenceDecision),
    ("execution siting", record.executionSiting)]

def listFields (record : RequirementsRecord) : List (String × List String) :=
  [("user behaviors", record.userBehaviors), ("external boundaries", record.externalBoundaries),
    ("out of scope", record.outOfScope), ("definition of done", record.definitionOfDone)]

def validateRequirements (record : RequirementsRecord) : Except GateFailure Unit := do
  checkAll (fun (name, value) => refuseIf (isBlank value)
    (.boundedMechanical, "requirements field " ++ name ++ " is blank"))
    (scalarFields record)
  checkAll (fun (name, values) => refuseIf (values.isEmpty || values.any isBlank)
    (.boundedMechanical, "requirements list " ++ name ++ " is incomplete"))
    (listFields record)

def validateReview (review : IndependentReview) : Except GateFailure Unit :=
  refuseIf (isBlank review.authorIdentityHash || isBlank review.reviewerIdentityHash ||
      review.authorIdentityHash == review.reviewerIdentityHash || !review.passed ||
      !review.findingsResolved || review.evidence.isEmpty || review.findings.any isBlank)
    (.adversarialFailure,
      "independent review identity, verdict, findings, resolution, or evidence is invalid")

def position (topo : List String) (name : String) : Option ℕ :=
  (topo.zipIdx.reverse.find? fun entry => entry.1 == name).map (·.2)

def validateEdge (topo : List String) (edge : DependencyEdge) : Except GateFailure Unit := do
  let dependency ← okOr (.architecturalViolation, "unknown dependency crate " ++ edge.dependency)
    (position topo edge.dependency)
  let consumer ← okOr (.architecturalViolation, "unknown consumer crate " ++ edge.consumer)
    (position topo edge.consumer)
  refuseIf (consumer ≤ dependency)
    (.architecturalViolation, "dependency DAG contradicts the topological order")

def isIncomplete (crateNames : Finset String) (contract : MessageContract) : Bool :=
  isBlank contract.id || isBlank contract.messageType || contract.producer ∉ crateNames ||
    contract.consumers.isEmpty || contract.consumers.any (· ∉ crateNames) ||
    isBlank contract.failureSemantics

def validateBlueprint (blueprint : BlueprintRecord) : Except GateFailure Unit := do
  refuseIf (blueprint.version == 0 || blueprint.crates.isEmpty)
    (.blueprintAmendment, "blueprint version or crate list is missing")
  let crateNames := (blueprint.crates.map (·.name)).toFinset
  refuseIf (crateNames.card ≠ blueprint.crates.length ∨
      blueprint.crates.any fun item => isBlank item.name || isBlank item.responsibility)
    (.unboundedOwnership, "crate names are duplicate or responsibilities are blank")
  let topo := blueprint.topologicalOrder
  refuseIf (topo.length ≠ crateNames.card ∨ topo.toFinset ≠ crateNames)
    (.architecturalViolation, "topological order does not contain every crate exactly once")
  checkAll (validateEdge topo) blueprint.dependencyEdges
  refuseIf blueprint.messageContracts.isEmpty
    (.blueprintAmendment, "blueprint has no frozen message contracts")
  let contractIds := (blueprint.messageContracts.map (·.id)).toFinset
  refuseIf (contractIds.card ≠ blueprint.messageContracts.length ∨
      blueprint.messageContracts.any (isIncomplete crateNames))
    (.architecturalViolation,
      "message contracts are duplicate, incomplete, or reference unknown crates")
  refuseIf (blueprint.couplingOrder.length ≠ contractIds.card ∨
      blueprint.couplingOrder.toFinset ≠ contractIds)
    (.architecturalViolation,
      "coupling order does not contain every message contract exactly once")
  validateReview blueprint.independentReview

def requiredBlueprint (input : GateInput) : Except GateFailure BlueprintRecord := do
  let blueprint ← okOr (.architecturalViolation, "frozen blueprint is missing") input.blueprint
  validateBlueprint blueprint
  return blueprint

def requireCommand (command : CommandEvidence) (label : String) : Except GateFailure Unit := do
  refuseIf (!command.realExecution)
    (.evidenceInvalid, label ++ " is narrative, not a real command execution")
  refuseIf (command.timedOut || command.exitCode != 0)
    (.compileErrors, label ++ " failed or timed out")
  refuseIf (!command.warningsDenied || command.warningCount != 0)
    (.compileWarnings, label ++ " did not prove a warning-free run")

def sourceFailure : SourceViolation → GateFailure
  | .stub path marker =>
    (.stubDetected, "source " ++ path ++ " contains forbidden stub marker " ++ marker)
  | .allow path line reason =>
    (.compileWarnings,
      "warning policy failed at " ++ path ++ ":" ++ line.repr ++ ": " ++ reason)

def evaluateIntake (input : GateInput) : Except GateFailure (List String) := do
  let requirements ← okOr (.boundedMechanical, "requirements record is missing")
    input.requirements
  validateRequirements requirements
  refuseIf (input.blueprint.isSome || !input.crates.isEmpty || !input.wirings.isEmpty)
    (.architecturalViolation, "intake contains architecture or implementation work")
  return [requirements.userBehaviors.length.repr ++ " user behaviors pinned",
    requirements.definitionOfDone.length.repr ++ " observable definition-of-done conditions pinned"]

def evaluateBlueprint (input : GateInput) : Except GateFailure (List String) := do
  let requirements ← okOr (.blueprintAmendment, "blueprint has no complete requirements record")
    input.requirements
  validateRequirements requirements
  let blueprint ← okOr (.blueprintAmendment, "blueprint record is missing") input.blueprint
  validateBlueprint blueprint
  return ["blueprint version " ++ blueprint.version.toNat.repr ++ " frozen",
    blueprint.crates.length.repr ++ " crate responsibilities sealed",
    blueprint.messageContracts.length.repr ++ " message contracts frozen",
    "independent blueprint review passed with findings resolved"]

def evaluateCrate (fs : EvidenceFs) (root : String) (item : CrateEvidence) :
    Except GateFailure (List String) := do
  refuseIf item.sourceArtifacts.isEmpty
    (.unboundedOwnership, "crate " ++ item.crateName ++ " has no source artifacts")
  let markers ← (inspectRustSources fs root item.sourceArtifacts true).mapError sourceFailure
  requireCommand item.cargoCheck (item.crateName ++ " cargo check")
  requireCommand item.unitTest (item.crateName ++ " unit test")
  return markers

def evaluateCrateBuild (fs : EvidenceFs) (root : String) (input : GateInput) :
    Except GateFailure (List String) := do
  let blueprint ← requiredBlueprint input
  refuseIf (input.crates.map (·.crateName) ≠ blueprint.topologicalOrder)
    (.architecturalViolation,
      "crates were not completed one at a time in frozen topological order")
  refuseIf (!input.wirings.isEmpty)
    (.architecturalViolation,
      "crate build contains coupling evidence before the phase boundary")
  let found ← input.crates.mapM (evaluateCrate fs root)
  let discoveredMarkers := sortDedup found.flatten
  let ledgerMarkers := sortDedup input.coupleMarkers
  refuseIf (discoveredMarkers ≠ ledgerMarkers)
    (.coupleDebt, "source COUPLE markers do not exactly match tracked ledger debt")
  return [input.crates.length.repr ++ " crates passed clean check and unit tests",
    ledgerMarkers.length.repr ++ " scoped COUPLE markers tracked",
    "no crate was coupled before all crates passed"]

def sourceArtifacts (input : GateInput) : List BuildArtifactRef :=
  input.crates.flatMap (·.sourceArtifacts)

def wiringDebt (wiring : WiringEvidence) : Except GateFailure (Option String) :=
  match wiring.status with
  | .pass =>
    if wiring.messageEmitted && wiring.messageHandled && !wiring.evidence.isEmpty then .ok none
    else .error (.functionalFailure, "wiring " ++ wiring.contractId ++
      " was marked pass without observed message handling")
  | .fail => .error (.functionalFailure,
      "wiring " ++ wiring.contractId ++ " has a demonstrated failure")
  | .deferred =>
    if !isBlank wiring.deferredReason then
      .ok (some (wiring.contractId ++ ":" ++ wiring.deferredReason))
    else .error (.coupleDebt, "wiring " ++ wiring.contractId ++ " was deferred without a reason")

def evaluateWiring (contracts : List MessageContract) (expectedId : String)
    (wiring : WiringEvidence) : Except GateFailure (Option String) := do
  refuseIf (wiring.contractId ≠ expectedId)
    (.architecturalViolation, "wirings were not verified one at a time in coupling order")
  let contract ← okOr
    (.architecturalViolation, "coupling order references unknown contract " ++ expectedId)
    (contracts.reverse.find? fun contract => contract.id == expectedId)
  refuseIf (wiring.producer ≠ contract.producer ∨ wiring.messageType ≠ contract.messageType ∨
      wiring.consumer ∉ contract.consumers)
    (.architecturalViolation, "wiring " ++ wiring.contractId ++ " violates its frozen contract")
  refuseIf wiring.directSideChannel
    (.architecturalViolation, "wiring " ++ wiring.contractId ++ " bypasses Spiderweb Bus")
  wiringDebt wiring

def sorted (values : List String) : List String := values.insertionSort (· ≤ ·)

def evaluateCrateCouple (fs : EvidenceFs) (root : String) (input : GateInput) :
    Except GateFailure (List String) := do
  let blueprint ← requiredBlueprint input
  refuseIf (!input.coupleMarkers.isEmpty) (.coupleDebt, "COUPLE marker list is not zero")
  let _ ← (inspectRustSources fs root (sourceArtifacts input) false).mapError sourceFailure
  refuseIf (input.wirings.length ≠ blueprint.couplingOrder.length)
    (.coupleDebt, "wiring evidence does not cover the frozen coupling order")
  let found ← (blueprint.couplingOrder.zip input.wirings).mapM fun (expectedId, wiring) =>
    evaluateWiring blueprint.messageContracts expectedId wiring
  let deferred := found.filterMap id
  refuseIf (sorted deferred ≠ sorted input.deferredDebt)
    (.coupleDebt, "deferred wiring evidence does not match tracked debt")
  return [input.wirings.length.repr ++ " bus wirings resolved",
    deferred.length.repr ++ " deferred wirings tracked", "COUPLE marker list is zero"]

def evaluateCommand (commands : List CommandEvidence) (name : String) :
    Except GateFailure Unit := do
  let command ← okOr (.compileErrors, "required command " ++ name ++ " has no captured evidence")
    (commands.find? fun command => command.name == name)
  requireCommand command name

def evaluateCase (case : FunctionalCaseEvidence) : Except GateFailure Unit :=
  refuseIf (!case.passed || case.smokeOnly || !case.realWorkflow || !case.busRoundTrip ||
      case.evidence.isEmpty)
    (.functionalFailure,
      "requirement " ++ case.requirement ++ " lacks real end-to-end bus evidence")

def evaluateBuildTest (fs : EvidenceFs) (root : String) (input : GateInput) :
    Except GateFailure (List String) := do
  let _ ← requiredBlueprint input
  refuseIf (!input.deferredDebt.isEmpty || !input.coupleMarkers.isEmpty)
    (.coupleDebt, "build test cannot start with deferred debt or COUPLE markers")
  let _ ← (inspectRustSources fs root (sourceArtifacts input) false).mapError sourceFailure
  checkAll (evaluateCommand input.commands) ["cargo-check", "cargo-test", "cargo-clippy"]
  let requirements ← okOr (.functionalFailure, "build test has no requirements record")
    input.requirements
  refuseIf (input.functionalCases.length < requirements.definitionOfDone.length ∨
      input.functionalCases = [])
    (.functionalFailure, "functional evidence does not cover every definition-of-done condition")
  checkAll evaluateCase input.functionalCases
  let review ← okOr (.adversarialFailure, "implementation independent review is missing")
    input.implementationReview
  validateReview review
  return ["cargo check, test, and clippy passed with warnings denied",
    input.functionalCases.length.repr ++ " real functional workflows passed over the bus",
    "independent implementation review passed with findings resolved"]

def requiredLayers : List BusLayer := [.l0Transport, .l1Message, .l2Flow, .l3Orchestration]

def evaluateRoundTrip (roundTrip : RoundTripEvidence) : Except GateFailure Unit :=
  refuseIf (isBlank roundTrip.inputEventId || isBlank roundTrip.runtimeResultId ||
      roundTrip.evidence.isEmpty || requiredLayers.any (· ∉ roundTrip.busLayers) ||
      roundTrip.renderedBeforeHash == roundTrip.renderedAfterHash ||
      isBlank roundTrip.renderedBeforeHash || isBlank roundTrip.renderedAfterHash)
    (.launchProofMissing,
      "launch proof lacks a real input, full bus route, runtime result, or rendered state change")

def evaluateLaunch (fs : EvidenceFs) (root : String) (input : GateInput) :
    Except GateFailure (List String) := do
  let _ ← requiredBlueprint input
  refuseIf (!input.deferredDebt.isEmpty || !input.coupleMarkers.isEmpty)
    (.coupleDebt, "launch proof has unresolved deferred debt or COUPLE markers")
  let _ ← (inspectRustSources fs root (sourceArtifacts input) false).mapError sourceFailure
  let launch ← okOr (.launchProofMissing, "launch evidence is missing") input.launch
  refuseIf (!launch.processStarted || !launch.processStillRunning || !launch.usableScreenObserved)
    (.launchProofMissing, "app was not observed alive at a usable screen")
  refuseIf (!launch.panicFree) (.runtimePanic, "app panicked during launch proof")
  refuseIf (launch.screenshot.role ≠ "screenshot" ∨ launch.startupOutput.role ≠ "startup-output")
    (.evidenceInvalid, "launch screenshot or startup output has the wrong evidence role")
  evaluateRoundTrip launch.roundTrip
  refuseIf (!launch.definitionOfDoneSatisfied || launch.definitionOfDoneEvidence.isEmpty ||
      !launch.completionEnforcerClean)
    (.launchProofMissing, "definition of done or completion enforcer is not proven")
  return ["app remained alive at a usable screen without panic",
    "screenshot and startup output captured",
    "real UI input traversed L0-L3 and changed rendered state",
    "definition of done and completion enforcer passed"]

def evaluateStep (fs : EvidenceFs) (root : String) (input : GateInput) :
    Except GateFailure (List String) :=
  match input.step with
  | .intake => evaluateIntake input
  | .blueprint => evaluateBlueprint input
  | .crateBuild => evaluateCrateBuild fs root input
  | .crateCouple => evaluateCrateCouple fs root input
  | .buildTest => evaluateBuildTest fs root input
  | .launchProof => evaluateLaunch fs root input

def fail (checkedAt : UInt64) (errorClass : BuildErrorClass) (summary : String)
    (artifacts : List BuildArtifactRef) : GateOutcome :=
  .fail errorClass ⟨summary, [], artifacts, checkedAt⟩

/-- `evaluate_gate`, with the time its evidence is stamped with. -/
def evaluateGate (fs : EvidenceFs) (checkedAt : UInt64) (input : GateInput) : GateOutcome :=
  match verifyArtifacts fs input.evidenceRoot input.allArtifacts with
  | .error reason => fail checkedAt .evidenceInvalid reason []
  | .ok root =>
    match evaluateStep fs root input with
    | .ok details =>
      .pass ⟨input.step.skillId ++ " gate passed", details, input.allArtifacts, checkedAt⟩
    | .error (errorClass, reason) => fail checkedAt errorClass reason input.allArtifacts

end AtomVibe.GateEvaluation
