import AtomVibe.JsonCodec
import AtomVibe.BuildPlanner
import AtomVibe.ChainFiles

/-!
The text of a ledger. Each `…_json` function of the store is given by the document it writes; a
ledger's text is that document rendered.
-/

namespace AtomVibe.LedgerCodec

open Checked Json JsonText JsonRoundTrip JsonCodec Bus BuildProtocol GateModel PlannerModel

inductive BuildLedgerStoreError
  | notFound (buildId : String)
  | conflict (reason : String)
  | invalid (reason : String)
  | io (reason : String)
  deriving DecidableEq

def BuildLedgerStoreError.display : BuildLedgerStoreError → String
  | notFound buildId => "build ledger " ++ buildId ++ " was not found"
  | conflict reason => "build ledger conflict: " ++ reason
  | invalid reason => "build ledger evidence is invalid: " ++ reason
  | io reason => "build ledger I/O failed: " ++ reason

open BuildLedgerStoreError (invalid)

abbrev Reader (α : Type) := JsonValue → Except BuildLedgerStoreError α

def wiringStatusText : WiringStatus → String
  | .pass => "pass"
  | .fail => "fail"
  | .deferred => "deferred"

def wiringStatusParse (value : String) : Except BuildLedgerStoreError WiringStatus :=
  if value = "pass" then .ok .pass
  else if value = "fail" then .ok .fail
  else if value = "deferred" then .ok .deferred
  else .error (invalid ("unknown wiring status " ++ value))

def busLayerText : BusLayer → String
  | .l0Transport => "l0_transport"
  | .l1Message => "l1_message"
  | .l2Flow => "l2_flow"
  | .l3Orchestration => "l3_orchestration"

def busLayerParse (value : String) : Except BuildLedgerStoreError BusLayer :=
  if value = "l0_transport" then .ok .l0Transport
  else if value = "l1_message" then .ok .l1Message
  else if value = "l2_flow" then .ok .l2Flow
  else if value = "l3_orchestration" then .ok .l3Orchestration
  else .error (invalid ("unknown bus layer " ++ value))

def artifactJson (item : BuildArtifactRef) : JsonValue :=
  .object
    [("path", .string item.path), ("sha256_hex", .string item.sha256Hex),
      ("role", .string item.role)]

def artifactFromJson : Reader BuildArtifactRef := fun root => do
  let path ← stringField invalid root "path"
  let sha256Hex ← stringField invalid root "sha256_hex"
  let role ← stringField invalid root "role"
  (BuildArtifactRef.new path sha256Hex role).mapError fun error => invalid error.display

def requirementsJson (item : RequirementsRecord) : JsonValue :=
  .object
    [("purpose", .string item.purpose),
      ("user_behaviors", stringArrayDoc item.userBehaviors),
      ("ui_decision", .string item.uiDecision),
      ("persistence_decision", .string item.persistenceDecision),
      ("external_boundaries", stringArrayDoc item.externalBoundaries),
      ("execution_siting", .string item.executionSiting),
      ("out_of_scope", stringArrayDoc item.outOfScope),
      ("definition_of_done", stringArrayDoc item.definitionOfDone),
      ("artifact", artifactJson item.artifact)]

def requirementsFromJson : Reader RequirementsRecord := fun root => do
  let purpose ← stringField invalid root "purpose"
  let userBehaviors ← stringArrayField invalid root "user_behaviors"
  let uiDecision ← stringField invalid root "ui_decision"
  let persistenceDecision ← stringField invalid root "persistence_decision"
  let externalBoundaries ← stringArrayField invalid root "external_boundaries"
  let executionSiting ← stringField invalid root "execution_siting"
  let outOfScope ← stringArrayField invalid root "out_of_scope"
  let definitionOfDone ← stringArrayField invalid root "definition_of_done"
  let artifact ← artifactFromJson (← objectField invalid root "artifact")
  return ⟨purpose, userBehaviors, uiDecision, persistenceDecision, externalBoundaries,
    executionSiting, outOfScope, definitionOfDone, artifact⟩

def crateJson (item : BlueprintCrate) : JsonValue :=
  .object [("name", .string item.name), ("responsibility", .string item.responsibility)]

def crateFromJson : Reader BlueprintCrate := fun value => do
  let name ← stringField invalid value "name"
  let responsibility ← stringField invalid value "responsibility"
  return ⟨name, responsibility⟩

def edgeJson (edge : DependencyEdge) : JsonValue :=
  .object [("dependency", .string edge.dependency), ("consumer", .string edge.consumer)]

def edgeFromJson : Reader DependencyEdge := fun value => do
  let dependency ← stringField invalid value "dependency"
  let consumer ← stringField invalid value "consumer"
  return ⟨dependency, consumer⟩

def contractJson (item : MessageContract) : JsonValue :=
  .object
    [("id", .string item.id), ("message_type", .string item.messageType),
      ("producer", .string item.producer), ("consumers", stringArrayDoc item.consumers),
      ("failure_semantics", .string item.failureSemantics)]

def contractFromJson : Reader MessageContract := fun root => do
  let id ← stringField invalid root "id"
  let messageType ← stringField invalid root "message_type"
  let producer ← stringField invalid root "producer"
  let consumers ← stringArrayField invalid root "consumers"
  let failureSemantics ← stringField invalid root "failure_semantics"
  return ⟨id, messageType, producer, consumers, failureSemantics⟩

def reviewJson (item : IndependentReview) : JsonValue :=
  .object
    [("author_identity_hash", .string item.authorIdentityHash),
      ("reviewer_identity_hash", .string item.reviewerIdentityHash),
      ("passed", .bool item.passed), ("findings", stringArrayDoc item.findings),
      ("findings_resolved", .bool item.findingsResolved),
      ("evidence", arrayDoc artifactJson item.evidence)]

def reviewFromJson : Reader IndependentReview := fun root => do
  let authorIdentityHash ← stringField invalid root "author_identity_hash"
  let reviewerIdentityHash ← stringField invalid root "reviewer_identity_hash"
  let passed ← boolField invalid root "passed"
  let findings ← stringArrayField invalid root "findings"
  let findingsResolved ← boolField invalid root "findings_resolved"
  let evidence ← objectArray invalid root "evidence" artifactFromJson
  return ⟨authorIdentityHash, reviewerIdentityHash, passed, findings, findingsResolved, evidence⟩

def blueprintJson (item : BlueprintRecord) : JsonValue :=
  .object
    [("version", numberDoc item.version.toNat), ("crates", arrayDoc crateJson item.crates),
      ("message_contracts", arrayDoc contractJson item.messageContracts),
      ("dependency_edges", arrayDoc edgeJson item.dependencyEdges),
      ("topological_order", stringArrayDoc item.topologicalOrder),
      ("coupling_order", stringArrayDoc item.couplingOrder),
      ("blueprint_artifact", artifactJson item.blueprintArtifact),
      ("protocol_artifact", artifactJson item.protocolArtifact),
      ("independent_review", reviewJson item.independentReview)]

def blueprintFromJson : Reader BlueprintRecord := fun root => do
  let version ← numberField invalid root "version"
  let crates ← objectArray invalid root "crates" crateFromJson
  let messageContracts ← objectArray invalid root "message_contracts" contractFromJson
  let dependencyEdges ← objectArray invalid root "dependency_edges" edgeFromJson
  let topologicalOrder ← stringArrayField invalid root "topological_order"
  let couplingOrder ← stringArrayField invalid root "coupling_order"
  let blueprintArtifact ← artifactFromJson (← objectField invalid root "blueprint_artifact")
  let protocolArtifact ← artifactFromJson (← objectField invalid root "protocol_artifact")
  let independentReview ← reviewFromJson (← objectField invalid root "independent_review")
  return ⟨version.toUInt32, crates, messageContracts, dependencyEdges, topologicalOrder,
    couplingOrder, blueprintArtifact, protocolArtifact, independentReview⟩

def stepOutputJson (item : StepOutput) : JsonValue :=
  .object
    [("step", .string item.step.asStr), ("summary", .string item.summary),
      ("details", stringArrayDoc item.details), ("artifacts", arrayDoc artifactJson item.artifacts),
      ("recorded_at_unix_ms", numberDoc item.recordedAtUnixMs.toNat)]

def stepOutputFromJson : Reader StepOutput := fun root => do
  let stepText ← stringField invalid root "step"
  let step ← okOr (invalid ("unknown step " ++ stepText)) (BuildStep.parse stepText)
  let summary ← stringField invalid root "summary"
  let details ← stringArrayField invalid root "details"
  let artifacts ← objectArray invalid root "artifacts" artifactFromJson
  let recordedAtUnixMs ← numberField invalid root "recorded_at_unix_ms"
  return ⟨step, summary, details, artifacts, recordedAtUnixMs⟩

def wiringJson (item : WiringLedgerRecord) : JsonValue :=
  .object
    [("contract_id", .string item.contractId), ("status", .string (wiringStatusText item.status)),
      ("evidence", arrayDoc artifactJson item.evidence)]

def wiringFromJson : Reader WiringLedgerRecord := fun root => do
  let statusText ← stringField invalid root "status"
  let contractId ← stringField invalid root "contract_id"
  let status ← wiringStatusParse statusText
  let evidence ← objectArray invalid root "evidence" artifactFromJson
  return ⟨contractId, status, evidence⟩

def debtJson (item : DeferredDebt) : JsonValue :=
  .object
    [("step", .string item.step.asStr), ("reason", .string item.reason),
      ("recorded_at_unix_ms", numberDoc item.recordedAtUnixMs.toNat)]

def debtFromJson : Reader DeferredDebt := fun root => do
  let stepText ← stringField invalid root "step"
  let step ← okOr (invalid ("unknown step " ++ stepText)) (BuildStep.parse stepText)
  let reason ← stringField invalid root "reason"
  let recordedAtUnixMs ← numberField invalid root "recorded_at_unix_ms"
  return ⟨step, reason, recordedAtUnixMs⟩

def retryJson (item : RetryRecord) : JsonValue :=
  .object
    [("step", .string item.step.asStr), ("error_class", .string item.errorClass.asStr),
      ("attempt", numberDoc item.attempt.toNat), ("summary", .string item.summary),
      ("artifacts", arrayDoc artifactJson item.artifacts), ("decision", .string item.decision),
      ("recorded_at_unix_ms", numberDoc item.recordedAtUnixMs.toNat)]

def retryFromJson : Reader RetryRecord := fun root => do
  let stepText ← stringField invalid root "step"
  let classText ← stringField invalid root "error_class"
  let step ← okOr (invalid ("unknown step " ++ stepText)) (BuildStep.parse stepText)
  let errorClass ← okOr (invalid ("unknown error class " ++ classText))
    (BuildErrorClass.parse classText)
  let attempt ← numberField invalid root "attempt"
  let summary ← stringField invalid root "summary"
  let artifacts ← objectArray invalid root "artifacts" artifactFromJson
  let decision ← stringField invalid root "decision"
  let recordedAtUnixMs ← numberField invalid root "recorded_at_unix_ms"
  return ⟨step, errorClass, attempt.toUInt8, summary, artifacts, decision, recordedAtUnixMs⟩

def roundTripJson (roundTrip : RoundTripEvidence) : JsonValue :=
  .object
    [("input_event_id", .string roundTrip.inputEventId),
      ("bus_layers", stringArrayDoc (roundTrip.busLayers.map busLayerText)),
      ("runtime_result_id", .string roundTrip.runtimeResultId),
      ("rendered_before_hash", .string roundTrip.renderedBeforeHash),
      ("rendered_after_hash", .string roundTrip.renderedAfterHash),
      ("evidence", arrayDoc artifactJson roundTrip.evidence)]

def launchJson (item : LaunchEvidence) : JsonValue :=
  .object
    [("process_started", .bool item.processStarted),
      ("process_still_running", .bool item.processStillRunning),
      ("panic_free", .bool item.panicFree),
      ("usable_screen_observed", .bool item.usableScreenObserved),
      ("screenshot", artifactJson item.screenshot),
      ("startup_output", artifactJson item.startupOutput),
      ("round_trip", roundTripJson item.roundTrip),
      ("definition_of_done_satisfied", .bool item.definitionOfDoneSatisfied),
      ("definition_of_done_evidence", arrayDoc artifactJson item.definitionOfDoneEvidence),
      ("completion_enforcer_clean", .bool item.completionEnforcerClean)]

def launchFromJson : Reader LaunchEvidence := fun root => do
  let roundTrip ← objectField invalid root "round_trip"
  let layers ← (← stringArrayField invalid roundTrip "bus_layers").mapM busLayerParse
  let processStarted ← boolField invalid root "process_started"
  let processStillRunning ← boolField invalid root "process_still_running"
  let panicFree ← boolField invalid root "panic_free"
  let usableScreenObserved ← boolField invalid root "usable_screen_observed"
  let screenshot ← artifactFromJson (← objectField invalid root "screenshot")
  let startupOutput ← artifactFromJson (← objectField invalid root "startup_output")
  let inputEventId ← stringField invalid roundTrip "input_event_id"
  let runtimeResultId ← stringField invalid roundTrip "runtime_result_id"
  let renderedBeforeHash ← stringField invalid roundTrip "rendered_before_hash"
  let renderedAfterHash ← stringField invalid roundTrip "rendered_after_hash"
  let evidence ← objectArray invalid roundTrip "evidence" artifactFromJson
  let definitionOfDoneSatisfied ← boolField invalid root "definition_of_done_satisfied"
  let definitionOfDoneEvidence ← objectArray invalid root "definition_of_done_evidence"
    artifactFromJson
  let completionEnforcerClean ← boolField invalid root "completion_enforcer_clean"
  return ⟨processStarted, processStillRunning, panicFree, usableScreenObserved, screenshot,
    startupOutput, ⟨inputEventId, layers, runtimeResultId, renderedBeforeHash, renderedAfterHash,
    evidence⟩, definitionOfDoneSatisfied, definitionOfDoneEvidence, completionEnforcerClean⟩

def ledgerDoc (ledger : BuildLedger) : JsonValue :=
  .object
    [("schema_version", numberDoc ledger.schemaVersion.toNat),
      ("revision", numberDoc ledger.revision.toNat),
      ("build_id", .string ledger.buildId),
      ("project_id", .string ledger.projectId),
      ("status", .string ledger.status.asStr),
      ("current_step", .string ledger.currentStep.asStr),
      ("autonomous_correction", .bool ledger.autonomousCorrection),
      ("retry_limit", numberDoc ledger.retryLimit.toNat),
      ("requirements", nullableDoc requirementsJson ledger.requirements),
      ("blueprint_versions", arrayDoc blueprintJson ledger.blueprintVersions),
      ("step_outputs", arrayDoc stepOutputJson ledger.stepOutputs),
      ("crate_statuses", stringArrayDoc ledger.crateStatuses),
      ("wiring_statuses", arrayDoc wiringJson ledger.wiringStatuses),
      ("deferred_debt", arrayDoc debtJson ledger.deferredDebt),
      ("couple_markers", stringArrayDoc ledger.coupleMarkers),
      ("retry_ledger", arrayDoc retryJson ledger.retryLedger),
      ("launch_proof", nullableDoc launchJson ledger.launchProof),
      ("created_at_unix_ms", numberDoc ledger.createdAtUnixMs.toNat),
      ("updated_at_unix_ms", numberDoc ledger.updatedAtUnixMs.toNat)]

def ledgerToJson (ledger : BuildLedger) : String := render (ledgerDoc ledger)

def ledgerFromJson : Reader BuildLedger := fun root => do
  let statusText ← stringField invalid root "status"
  let stepText ← stringField invalid root "current_step"
  let schemaVersion ← numberField invalid root "schema_version"
  let revision ← numberField invalid root "revision"
  let buildId ← stringField invalid root "build_id"
  let projectId ← stringField invalid root "project_id"
  let status ← okOr (invalid ("unknown build status " ++ statusText))
    (BuildRunStatus.parse statusText)
  let currentStep ← okOr (invalid ("unknown build step " ++ stepText)) (BuildStep.parse stepText)
  let autonomousCorrection ← boolField invalid root "autonomous_correction"
  let retryLimit ← numberField invalid root "retry_limit"
  let requirements ← (← optionalObject invalid root "requirements").mapM requirementsFromJson
  let blueprintVersions ← objectArray invalid root "blueprint_versions" blueprintFromJson
  let stepOutputs ← objectArray invalid root "step_outputs" stepOutputFromJson
  let crateStatuses ← stringArrayField invalid root "crate_statuses"
  let wiringStatuses ← objectArray invalid root "wiring_statuses" wiringFromJson
  let deferredDebt ← objectArray invalid root "deferred_debt" debtFromJson
  let coupleMarkers ← stringArrayField invalid root "couple_markers"
  let retryLedger ← objectArray invalid root "retry_ledger" retryFromJson
  let launchProof ← (← optionalObject invalid root "launch_proof").mapM launchFromJson
  let createdAtUnixMs ← numberField invalid root "created_at_unix_ms"
  let updatedAtUnixMs ← numberField invalid root "updated_at_unix_ms"
  return ⟨schemaVersion.toUInt32, revision, buildId, projectId, status, currentStep,
    autonomousCorrection, retryLimit.toUInt8, requirements, blueprintVersions, stepOutputs,
    crateStatuses, wiringStatuses, deferredDebt, coupleMarkers, retryLedger, launchProof,
    createdAtUnixMs, updatedAtUnixMs⟩

end AtomVibe.LedgerCodec

/-!
The ledger store: one directory for each build, and in it the chain of its ledger's snapshots.
File operations succeed here; what can fail is what the code itself refuses. A lease leaves
nothing behind except the directory it is taken in.
-/

namespace AtomVibe.LedgerStore

open Checked Json JsonText JsonCodec Hash ChainFiles PlannerModel BuildPlanner LedgerCodec
open BuildLedgerStoreError (invalid)

def snapshotSchemaVersion : UInt32 := 1

structure BuildDir where
  snapshots : Option Files

abbrev LedgerRoot := Catalog String BuildDir

structure Loaded where
  ledger : BuildLedger
  name : String
  bytes : ByteArray
  deriving DecidableEq

def snapshotHash (bytes : ByteArray) : String := sha256Tagged bytes.data.toList

structure BuildLedgerStore where
  root : String

def validateBuildId (value : String) : Except BuildLedgerStoreError Unit :=
  refuseIf (isSafeBuildId value = false) (invalid ("unsafe build id " ++ value))

/-- What `acquire` leaves: the directory its lock file is in. -/
def acquire (root : LedgerRoot) (buildId : String) : LedgerRoot :=
  match root.lookup buildId with
  | some _ => root
  | none => root.insert buildId ⟨none⟩

def snapshotDoc (ledger : BuildLedger) (previousHash : String) : JsonValue :=
  .object
    [("snapshot_schema_version", numberDoc snapshotSchemaVersion.toNat),
      ("revision", numberDoc ledger.revision.toNat),
      ("previous_snapshot_hash", .string previousHash),
      ("ledger_hash", .string (sha256Tagged (asBytes (ledgerToJson ledger)))),
      ("ledger", ledgerDoc ledger)]

structure Snapshot where
  schema : UInt32
  revision : UInt64
  previousHash : String
  ledgerHash : String
  ledger : BuildLedger

namespace BuildLedgerStore

variable (store : BuildLedgerStore)

def snapshotPath (buildId name : String) : String :=
  store.root ++ "/" ++ buildId ++ "/snapshots/" ++ name

def parseSnapshot (path : String) (bytes : ByteArray) : Except BuildLedgerStoreError Snapshot := do
  let text ← okOr (invalid ("snapshot " ++ path ++ " is not UTF-8")) (String.fromUTF8? bytes)
  let root ← (parse text).mapError fun error =>
    invalid ("snapshot " ++ path ++ " JSON failed: " ++ error.display)
  let schema ← numberField invalid root "snapshot_schema_version"
  let revision ← numberField invalid root "revision"
  let recordedPrevious ← stringField invalid root "previous_snapshot_hash"
  let ledgerHash ← stringField invalid root "ledger_hash"
  let ledgerValue ← okOr (invalid "snapshot ledger missing") (root.get "ledger")
  let ledger ← ledgerFromJson ledgerValue
  return ⟨schema.toUInt32, revision, recordedPrevious, ledgerHash, ledger⟩

def readSnapshot (buildId : String) (index : ℕ) (previousHash : String)
    (file : String × ByteArray) : Except BuildLedgerStoreError Loaded := do
  let path := store.snapshotPath buildId file.1
  let snapshot ← parseSnapshot path file.2
  refuseIf (snapshot.schema ≠ snapshotSchemaVersion ∨
      snapshot.revision ≠ UInt64.ofNat index + 1 ∨
      snapshot.ledger.revision ≠ snapshot.revision ∨
      snapshot.ledger.buildId ≠ buildId ∨
      snapshot.previousHash ≠ previousHash ∨
      snapshot.ledgerHash ≠ sha256Tagged (asBytes (ledgerToJson snapshot.ledger)) ∨
      file.1 ≠ numberedName snapshot.revision.toNat (snapshotHash file.2))
    (invalid ("snapshot chain failed at " ++ path))
  snapshot.ledger.validate.mapError fun error => invalid error.display
  return ⟨snapshot.ledger, file.1, file.2⟩

def loadSnapshots (buildId : String) : ℕ → String → Option Loaded →
    List (String × ByteArray) → Except BuildLedgerStoreError (Option Loaded)
  | _, _, latest, [] => .ok latest
  | index, previousHash, _, file :: paths => do
    let loaded ← store.readSnapshot buildId index previousHash file
    loadSnapshots buildId (index + 1) (snapshotHash loaded.bytes) (some loaded) paths

def snapshotFiles (root : LedgerRoot) (buildId : String) : Files :=
  ((root.lookup buildId).bind (·.snapshots)).getD Catalog.empty

def loadUnlockedOptional (root : LedgerRoot) (buildId : String) :
    Except BuildLedgerStoreError (Option Loaded) := do
  validateBuildId buildId
  store.loadSnapshots buildId 0 "" none (jsonFiles (snapshotFiles root buildId))

def load (buildId : String) (root : LedgerRoot) :
    Except BuildLedgerStoreError BuildLedger × LedgerRoot :=
  match validateBuildId buildId with
  | .error error => (.error error, root)
  | .ok () =>
    let root := acquire root buildId
    (do
      let latest ← store.loadUnlockedOptional root buildId
      okOr (.notFound buildId) (latest.map (·.ledger)), root)

def list (entries : List String) (root : LedgerRoot) :
    Except BuildLedgerStoreError (List BuildLedger) := do
  let ledgers ← (entries.filter isSafeBuildId).mapM fun buildId => (store.load buildId root).1
  return ledgers.mergeSort fun left right => right.updatedAtUnixMs ≤ left.updatedAtUnixMs

def follows (ledger : BuildLedger) : Option Loaded → Except BuildLedgerStoreError (Option Loaded)
  | some current =>
    if current.ledger = ledger then .ok (some current)
    else if ledger.revision ≠ saturatingSucc current.ledger.revision then
      .error (.conflict ("ledger revision " ++ ledger.revision.toNat.repr ++
        " does not follow persisted revision " ++ current.ledger.revision.toNat.repr))
    else .ok none
  | none =>
    if ledger.revision ≠ 1 then .error (.conflict "first ledger snapshot must have revision 1")
    else .ok none

def readBack (ledger : BuildLedger) (name : String) (root : LedgerRoot) :
    Except BuildLedgerStoreError String := do
  let readback ← okOr (invalid "saved ledger disappeared")
    (← store.loadUnlockedOptional root ledger.buildId)
  refuseIf (readback.ledger ≠ ledger ∨ readback.name ≠ name)
    (invalid "ledger snapshot readback changed")
  return store.snapshotPath ledger.buildId name

def writeSnapshot (ledger : BuildLedger) (current : Option Loaded) (root : LedgerRoot) :
    Except BuildLedgerStoreError String × LedgerRoot :=
  let previousHash := (current.map fun loaded => snapshotHash loaded.bytes).getD ""
  let bytes := (render (snapshotDoc ledger previousHash)).toByteArray
  let name := numberedName ledger.revision.toNat (snapshotHash bytes)
  let path := store.snapshotPath ledger.buildId name
  match writeNewAtomic (BuildLedgerStoreError.conflict ("immutable snapshot conflict at " ++ path))
      (snapshotFiles root ledger.buildId) name bytes with
  | (.error error, _) => (.error error, root)
  | (.ok (), files) =>
    let root := root.insert ledger.buildId ⟨some files⟩
    (store.readBack ledger name root, root)

def saveUnlocked (ledger : BuildLedger) (root : LedgerRoot) :
    Except BuildLedgerStoreError String × LedgerRoot :=
  match store.loadUnlockedOptional root ledger.buildId with
  | .error error => (.error error, root)
  | .ok current =>
    match follows ledger current with
    | .error error => (.error error, root)
    | .ok (some existing) => (.ok (store.snapshotPath ledger.buildId existing.name), root)
    | .ok none => store.writeSnapshot ledger current root

def save (ledger : BuildLedger) (root : LedgerRoot) :
    Except BuildLedgerStoreError String × LedgerRoot :=
  match ledger.validate with
  | .error error => (.error (invalid error.display), root)
  | .ok () =>
    match validateBuildId ledger.buildId with
    | .error error => (.error error, root)
    | .ok () => store.saveUnlocked ledger (acquire root ledger.buildId)

end BuildLedgerStore

end AtomVibe.LedgerStore
