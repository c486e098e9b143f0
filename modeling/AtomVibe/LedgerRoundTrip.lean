import AtomVibe.LedgerStore

namespace AtomVibe.LedgerRoundTrip

open Checked Text Json JsonText JsonRoundTrip JsonCodec Hash Bus BuildProtocol GateModel
open PlannerModel LedgerCodec
open BuildLedgerStoreError (invalid)

inductive StoredItem
  | text (value : String)
  | artifact (value : BuildArtifactRef)

namespace StoredItem

def Storable : StoredItem → Prop
  | text value => Lossless value
  | artifact value => value.Valid ∧ Lossless value.role

instance : DecidablePred Storable
  | text value => inferInstanceAs (Decidable (Lossless value))
  | artifact value => inferInstanceAs (Decidable (value.Valid ∧ Lossless value.role))

theorem storable_text {value : String} : (text value).Storable ↔ Lossless value := Iff.rfl

theorem storable_artifact {value : BuildArtifactRef} :
    (artifact value).Storable ↔ value.Valid ∧ Lossless value.role := Iff.rfl

end StoredItem

def texts (values : List String) : List StoredItem := values.map .text

def artifacts (values : List BuildArtifactRef) : List StoredItem := values.map .artifact

def requirementsItems (item : RequirementsRecord) : List StoredItem :=
  artifacts [item.artifact] ++ texts [item.purpose] ++ texts item.userBehaviors ++
    texts [item.uiDecision, item.persistenceDecision] ++ texts item.externalBoundaries ++
    texts [item.executionSiting] ++ texts item.outOfScope ++ texts item.definitionOfDone

def crateItems (item : BlueprintCrate) : List StoredItem := texts [item.name, item.responsibility]

def edgeItems (edge : DependencyEdge) : List StoredItem := texts [edge.dependency, edge.consumer]

def contractItems (item : MessageContract) : List StoredItem :=
  texts [item.id, item.messageType, item.producer] ++ texts item.consumers ++
    texts [item.failureSemantics]

def reviewItems (item : IndependentReview) : List StoredItem :=
  artifacts item.evidence ++ texts [item.authorIdentityHash, item.reviewerIdentityHash] ++
    texts item.findings

def blueprintItems (item : BlueprintRecord) : List StoredItem :=
  item.crates.flatMap crateItems ++ item.messageContracts.flatMap contractItems ++
    item.dependencyEdges.flatMap edgeItems ++
    artifacts [item.blueprintArtifact, item.protocolArtifact] ++
    reviewItems item.independentReview ++ texts item.topologicalOrder ++ texts item.couplingOrder

def stepOutputItems (item : StepOutput) : List StoredItem :=
  artifacts item.artifacts ++ texts [item.summary] ++ texts item.details

def wiringItems (item : WiringLedgerRecord) : List StoredItem :=
  artifacts item.evidence ++ texts [item.contractId]

def debtItems (item : DeferredDebt) : List StoredItem := texts [item.reason]

def retryItems (item : RetryRecord) : List StoredItem :=
  artifacts item.artifacts ++ texts [item.summary, item.decision]

def launchItems (item : LaunchEvidence) : List StoredItem :=
  artifacts [item.screenshot, item.startupOutput] ++ artifacts item.roundTrip.evidence ++
    artifacts item.definitionOfDoneEvidence ++
    texts [item.roundTrip.inputEventId, item.roundTrip.runtimeResultId,
      item.roundTrip.renderedBeforeHash, item.roundTrip.renderedAfterHash]

def ledgerItems (ledger : BuildLedger) : List StoredItem :=
  ledger.requirements.toList.flatMap requirementsItems ++
    ledger.blueprintVersions.flatMap blueprintItems ++
    ledger.stepOutputs.flatMap stepOutputItems ++ ledger.wiringStatuses.flatMap wiringItems ++
    ledger.deferredDebt.flatMap debtItems ++ ledger.retryLedger.flatMap retryItems ++
    ledger.launchProof.toList.flatMap launchItems ++ texts [ledger.buildId, ledger.projectId] ++
    texts ledger.crateStatuses ++ texts ledger.coupleMarkers

def Storable (ledger : BuildLedger) : Prop := ∀ item ∈ ledgerItems ledger, item.Storable

instance (ledger : BuildLedger) : Decidable (Storable ledger) :=
  inferInstanceAs (Decidable (∀ item ∈ ledgerItems ledger, item.Storable))

theorem forall_texts {values : List String} :
    (∀ item ∈ texts values, item.Storable) ↔ ∀ value ∈ values, Lossless value :=
  List.forall_mem_map

theorem forall_artifacts {values : List BuildArtifactRef} :
    (∀ item ∈ artifacts values, item.Storable) ↔
      ∀ value ∈ values, value.Valid ∧ Lossless value.role :=
  List.forall_mem_map

theorem Valid.lossless {artifact : BuildArtifactRef} (h : artifact.Valid) :
    Lossless artifact.path ∧ Lossless artifact.sha256Hex := by
  rw [BuildArtifactRef.Valid, BuildArtifactRef.validate] at h
  split_ifs at h with hpath hhash
  simp only [Bool.not_eq_true, Bool.not_eq_false', Bool.or_eq_true, not_or, decide_eq_true_eq,
    not_not] at hpath hhash
  refine ⟨fun c hc => ?_, fun c hc => lossy_of_isAsciiHexdigit (List.all_eq_true.mp hhash.2 c hc)⟩
  rw [isSafeEvidencePath] at hpath
  simp only [Bool.and_eq_true, Bool.not_eq_true', List.any_eq_false] at hpath
  refine lossy_of_not_control (Bool.eq_false_iff.mpr fun hcontrol => ?_)
  -- a backslash is no control character, so this one is still there after the normalization
  have hne : c ≠ '\\' := by
    rintro rfl
    exact absurd hcontrol (by decide)
  refine hpath.2 c ?_ hcontrol
  rw [replaceChar, String.toList_ofList]
  exact List.mem_map.mpr ⟨c, hc, if_neg hne⟩

theorem artifactFromJson_clean (item : BuildArtifactRef) :
    artifactFromJson (clean (artifactJson item)) = .ok item ↔
      item.Valid ∧ Lossless item.role := by
  let stored : BuildArtifactRef :=
    ⟨sanitize item.path, sanitize item.sha256Hex, sanitize item.role⟩
  have hread : artifactFromJson (clean (artifactJson item)) = .ok item ↔
      stored.Valid ∧ item = stored := by
    rw [artifactFromJson, stringField_clean (s := item.path) rfl,
      stringField_clean (s := item.sha256Hex) rfl, stringField_clean (s := item.role) rfl]
    simp only [ok_bind, mapError_eq_ok]
    exact BuildArtifactRef.new_eq_ok stored item
  rw [hread]
  constructor
  · rintro ⟨hv, heq⟩
    rw [← heq] at hv
    exact ⟨hv, (sanitize_eq_self_iff _).mp (congrArg BuildArtifactRef.role heq).symm⟩
  · rintro ⟨hv, hrole⟩
    have heq : item = stored := by
      obtain ⟨hpath, hhash⟩ := Valid.lossless hv
      simp only [stored, (sanitize_eq_self_iff _).mpr hpath, (sanitize_eq_self_iff _).mpr hhash,
        (sanitize_eq_self_iff _).mpr hrole]
    exact ⟨heq ▸ hv, heq⟩

theorem requirementsFromJson_clean (item : RequirementsRecord) :
    requirementsFromJson (clean (requirementsJson item)) = .ok item ↔
      ∀ i ∈ requirementsItems item, i.Storable := by
  have hs := fun key value => @stringField_clean _ invalid (requirementsJson item) key value
  have hl := fun key values => @stringArrayField_clean _ invalid (requirementsJson item) key values
  rw [requirementsFromJson, hs "purpose" _ rfl, hl "user_behaviors" _ rfl, hs "ui_decision" _ rfl,
    hs "persistence_decision" _ rfl, hl "external_boundaries" _ rfl, hs "execution_siting" _ rfl,
    hl "out_of_scope" _ rfl, hl "definition_of_done" _ rfl,
    objectField_clean (artifactJson item.artifact) ⟨_, rfl⟩ rfl]
  obtain ⟨purpose, behaviors, ui, persistence, boundaries, siting, scope, done, artifact⟩ := item
  simp only [ok_bind, bind_eq_ok, pure_eq_ok, RequirementsRecord.mk.injEq, ↓existsAndEq,
    artifactFromJson_clean, sanitize_eq_self_iff, map_sanitize_eq_self_iff, and_true,
    requirementsItems, List.forall_mem_append, forall_texts, forall_artifacts, List.forall_mem_cons,
    List.not_mem_nil, false_imp_iff, implies_true, and_assoc]

theorem crateFromJson_clean (item : BlueprintCrate) :
    crateFromJson (clean (crateJson item)) = .ok item ↔ ∀ i ∈ crateItems item, i.Storable := by
  have hs := fun key value => @stringField_clean _ invalid (crateJson item) key value
  rw [crateFromJson, hs "name" _ rfl, hs "responsibility" _ rfl]
  obtain ⟨name, responsibility⟩ := item
  simp only [ok_bind, pure_eq_ok, BlueprintCrate.mk.injEq, sanitize_eq_self_iff, and_true,
    crateItems, forall_texts, List.forall_mem_cons, List.not_mem_nil, false_imp_iff, implies_true]

theorem edgeFromJson_clean (edge : DependencyEdge) :
    edgeFromJson (clean (edgeJson edge)) = .ok edge ↔ ∀ i ∈ edgeItems edge, i.Storable := by
  have hs := fun key value => @stringField_clean _ invalid (edgeJson edge) key value
  rw [edgeFromJson, hs "dependency" _ rfl, hs "consumer" _ rfl]
  obtain ⟨dependency, consumer⟩ := edge
  simp only [ok_bind, pure_eq_ok, DependencyEdge.mk.injEq, sanitize_eq_self_iff, and_true,
    edgeItems, forall_texts, List.forall_mem_cons, List.not_mem_nil, false_imp_iff, implies_true]

theorem contractFromJson_clean (item : MessageContract) :
    contractFromJson (clean (contractJson item)) = .ok item ↔
      ∀ i ∈ contractItems item, i.Storable := by
  have hs := fun key value => @stringField_clean _ invalid (contractJson item) key value
  rw [contractFromJson, hs "id" _ rfl, hs "message_type" _ rfl, hs "producer" _ rfl,
    stringArrayField_clean (l := item.consumers) rfl, hs "failure_semantics" _ rfl]
  obtain ⟨id, messageType, producer, consumers, semantics⟩ := item
  simp only [ok_bind, pure_eq_ok, MessageContract.mk.injEq, sanitize_eq_self_iff,
    map_sanitize_eq_self_iff, and_true, contractItems, List.forall_mem_append, forall_texts,
    List.forall_mem_cons, List.not_mem_nil, false_imp_iff, implies_true, and_assoc]

theorem reviewFromJson_clean (item : IndependentReview) :
    reviewFromJson (clean (reviewJson item)) = .ok item ↔ ∀ i ∈ reviewItems item, i.Storable := by
  have hs := fun key value => @stringField_clean _ invalid (reviewJson item) key value
  have hb := fun key value => @boolField_clean _ invalid (reviewJson item) key value
  rw [reviewFromJson, hs "author_identity_hash" _ rfl, hs "reviewer_identity_hash" _ rfl,
    hb "passed" _ rfl, stringArrayField_clean (l := item.findings) rfl,
    hb "findings_resolved" _ rfl]
  have hevidence : objectArray invalid (clean (reviewJson item)) "evidence" artifactFromJson =
      .ok item.evidence ↔ _ := objectArray_clean artifactJson (fun _ => ⟨_, rfl⟩) rfl
  obtain ⟨author, reviewer, passed, findings, resolved, evidence⟩ := item
  simp only [ok_bind, bind_eq_ok, pure_eq_ok, IndependentReview.mk.injEq, ↓existsAndEq, hevidence,
    artifactFromJson_clean, sanitize_eq_self_iff, map_sanitize_eq_self_iff, and_true, true_and,
    reviewItems, List.forall_mem_append, forall_texts, forall_artifacts, List.forall_mem_cons,
    List.not_mem_nil, false_imp_iff, implies_true, and_assoc]

theorem blueprintFromJson_clean (item : BlueprintRecord) :
    blueprintFromJson (clean (blueprintJson item)) = .ok item ↔
      ∀ i ∈ blueprintItems item, i.Storable := by
  have hl := fun key values => @stringArrayField_clean _ invalid (blueprintJson item) key values
  have hcrates : objectArray invalid (clean (blueprintJson item)) "crates" crateFromJson =
      .ok item.crates ↔ _ := objectArray_clean crateJson (fun _ => ⟨_, rfl⟩) rfl
  have hcontracts : objectArray invalid (clean (blueprintJson item)) "message_contracts"
      contractFromJson = .ok item.messageContracts ↔ _ :=
    objectArray_clean contractJson (fun _ => ⟨_, rfl⟩) rfl
  have hedges : objectArray invalid (clean (blueprintJson item)) "dependency_edges" edgeFromJson =
      .ok item.dependencyEdges ↔ _ := objectArray_clean edgeJson (fun _ => ⟨_, rfl⟩) rfl
  rw [blueprintFromJson, numberField_clean (n := item.version.toUInt64) rfl,
    hl "topological_order" _ rfl, hl "coupling_order" _ rfl,
    objectField_clean (artifactJson item.blueprintArtifact) ⟨_, rfl⟩ rfl,
    objectField_clean (artifactJson item.protocolArtifact) ⟨_, rfl⟩ rfl,
    objectField_clean (reviewJson item.independentReview) ⟨_, rfl⟩ rfl]
  obtain ⟨version, crates, contracts, edges, order, coupling, blueprint, protocol, review⟩ := item
  simp only [ok_bind, bind_eq_ok, pure_eq_ok, BlueprintRecord.mk.injEq, ↓existsAndEq, hcrates,
    hcontracts, hedges, UInt32.toUInt32_toUInt64, crateFromJson_clean, contractFromJson_clean,
    edgeFromJson_clean, artifactFromJson_clean, reviewFromJson_clean, map_sanitize_eq_self_iff,
    and_true, true_and, blueprintItems, List.forall_mem_append, List.forall_mem_flatMap,
    forall_texts, forall_artifacts, List.forall_mem_cons, List.not_mem_nil, false_imp_iff,
    implies_true, and_assoc]

theorem sanitize_step (step : BuildStep) : sanitize step.asStr = step.asStr :=
  (sanitize_eq_self_iff _).mpr step.lossless_asStr

theorem sanitize_errorClass (c : BuildErrorClass) : sanitize c.asStr = c.asStr := by
  rw [sanitize_eq_self_iff]
  cases c <;> decide

theorem sanitize_status (status : BuildRunStatus) : sanitize status.asStr = status.asStr := by
  rw [sanitize_eq_self_iff]
  cases status <;> decide

theorem wiringStatusParse_text (status : WiringStatus) :
    wiringStatusParse (sanitize (wiringStatusText status)) = .ok status := by
  rw [(sanitize_eq_self_iff _).mpr (by cases status <;> decide)]
  cases status <;> rfl

theorem busLayerParse_text (layer : BusLayer) :
    busLayerParse (sanitize (busLayerText layer)) = .ok layer := by
  rw [(sanitize_eq_self_iff _).mpr (by cases layer <;> decide)]
  cases layer <;> rfl

theorem stepOutputFromJson_clean (item : StepOutput) :
    stepOutputFromJson (clean (stepOutputJson item)) = .ok item ↔
      ∀ i ∈ stepOutputItems item, i.Storable := by
  have hs := fun key value => @stringField_clean _ invalid (stepOutputJson item) key value
  have hartifacts : objectArray invalid (clean (stepOutputJson item)) "artifacts" artifactFromJson =
      .ok item.artifacts ↔ _ := objectArray_clean artifactJson (fun _ => ⟨_, rfl⟩) rfl
  rw [stepOutputFromJson, hs "step" _ rfl, hs "summary" _ rfl,
    stringArrayField_clean (l := item.details) rfl,
    numberField_clean (n := item.recordedAtUnixMs) rfl]
  obtain ⟨step, summary, details, artifacts, recorded⟩ := item
  simp only [ok_bind, bind_eq_ok, pure_eq_ok, StepOutput.mk.injEq, ↓existsAndEq, sanitize_step,
    BuildStep.parse_asStr, okOr_some, hartifacts, artifactFromJson_clean, sanitize_eq_self_iff,
    map_sanitize_eq_self_iff, and_true, true_and, stepOutputItems, List.forall_mem_append,
    forall_texts, forall_artifacts, List.forall_mem_cons, List.not_mem_nil, false_imp_iff,
    implies_true, and_assoc]

theorem wiringFromJson_clean (item : WiringLedgerRecord) :
    wiringFromJson (clean (wiringJson item)) = .ok item ↔ ∀ i ∈ wiringItems item, i.Storable := by
  have hs := fun key value => @stringField_clean _ invalid (wiringJson item) key value
  have hevidence : objectArray invalid (clean (wiringJson item)) "evidence" artifactFromJson =
      .ok item.evidence ↔ _ := objectArray_clean artifactJson (fun _ => ⟨_, rfl⟩) rfl
  rw [wiringFromJson, hs "status" _ rfl, hs "contract_id" _ rfl]
  obtain ⟨contractId, status, evidence⟩ := item
  simp only [ok_bind, bind_eq_ok, pure_eq_ok, WiringLedgerRecord.mk.injEq, ↓existsAndEq,
    wiringStatusParse_text, hevidence, artifactFromJson_clean, sanitize_eq_self_iff, and_true,
    true_and, wiringItems, List.forall_mem_append, forall_texts, forall_artifacts,
    List.forall_mem_cons, List.not_mem_nil, false_imp_iff, implies_true]

theorem debtFromJson_clean (item : DeferredDebt) :
    debtFromJson (clean (debtJson item)) = .ok item ↔ ∀ i ∈ debtItems item, i.Storable := by
  have hs := fun key value => @stringField_clean _ invalid (debtJson item) key value
  rw [debtFromJson, hs "step" _ rfl, hs "reason" _ rfl,
    numberField_clean (n := item.recordedAtUnixMs) rfl]
  obtain ⟨step, reason, recorded⟩ := item
  simp only [ok_bind, pure_eq_ok, DeferredDebt.mk.injEq, sanitize_step, BuildStep.parse_asStr,
    okOr_some, sanitize_eq_self_iff, and_true, true_and, debtItems, forall_texts,
    List.forall_mem_cons, List.not_mem_nil, false_imp_iff, implies_true]

theorem retryFromJson_clean (item : RetryRecord) :
    retryFromJson (clean (retryJson item)) = .ok item ↔ ∀ i ∈ retryItems item, i.Storable := by
  have hs := fun key value => @stringField_clean _ invalid (retryJson item) key value
  have hartifacts : objectArray invalid (clean (retryJson item)) "artifacts" artifactFromJson =
      .ok item.artifacts ↔ _ := objectArray_clean artifactJson (fun _ => ⟨_, rfl⟩) rfl
  rw [retryFromJson, hs "step" _ rfl, hs "error_class" _ rfl,
    numberField_clean (n := item.attempt.toUInt64) rfl, hs "summary" _ rfl, hs "decision" _ rfl,
    numberField_clean (n := item.recordedAtUnixMs) rfl]
  obtain ⟨step, errorClass, attempt, summary, artifacts, decision, recorded⟩ := item
  simp only [ok_bind, bind_eq_ok, pure_eq_ok, RetryRecord.mk.injEq, ↓existsAndEq, sanitize_step,
    sanitize_errorClass, BuildStep.parse_asStr, BuildErrorClass.parse_asStr, okOr_some,
    UInt8.toUInt8_toUInt64, hartifacts, artifactFromJson_clean, sanitize_eq_self_iff, and_true,
    true_and, retryItems, List.forall_mem_append, forall_texts, forall_artifacts,
    List.forall_mem_cons, List.not_mem_nil, false_imp_iff, implies_true]

theorem layers_clean (layers : List BusLayer) :
    ((layers.map busLayerText).map sanitize).mapM busLayerParse = .ok layers := by
  rw [List.map_map]
  exact (mapM_eq_ok layers).mpr fun layer _ => busLayerParse_text layer

theorem launchFromJson_clean (item : LaunchEvidence) :
    launchFromJson (clean (launchJson item)) = .ok item ↔ ∀ i ∈ launchItems item, i.Storable := by
  have hb := fun key value => @boolField_clean _ invalid (launchJson item) key value
  have hs := fun key value => @stringField_clean _ invalid (roundTripJson item.roundTrip) key value
  have hdone : objectArray invalid (clean (launchJson item)) "definition_of_done_evidence"
      artifactFromJson = .ok item.definitionOfDoneEvidence ↔ _ :=
    objectArray_clean artifactJson (fun _ => ⟨_, rfl⟩) rfl
  have hevidence : objectArray invalid (clean (roundTripJson item.roundTrip)) "evidence"
      artifactFromJson = .ok item.roundTrip.evidence ↔ _ :=
    objectArray_clean artifactJson (fun _ => ⟨_, rfl⟩) rfl
  rw [launchFromJson, objectField_clean (roundTripJson item.roundTrip) ⟨_, rfl⟩ rfl, ok_bind,
    stringArrayField_clean (l := item.roundTrip.busLayers.map busLayerText) rfl,
    hb "process_started" _ rfl, hb "process_still_running" _ rfl, hb "panic_free" _ rfl,
    hb "usable_screen_observed" _ rfl, hb "definition_of_done_satisfied" _ rfl,
    hb "completion_enforcer_clean" _ rfl, hs "input_event_id" _ rfl, hs "runtime_result_id" _ rfl,
    hs "rendered_before_hash" _ rfl, hs "rendered_after_hash" _ rfl,
    objectField_clean (artifactJson item.screenshot) ⟨_, rfl⟩ rfl,
    objectField_clean (artifactJson item.startupOutput) ⟨_, rfl⟩ rfl]
  obtain ⟨started, running, free, usable, screenshot, output, ⟨inputId, layers, resultId, before,
    after, evidence⟩, satisfied, done, enforced⟩ := item
  simp only [ok_bind, bind_eq_ok, pure_eq_ok, LaunchEvidence.mk.injEq, RoundTripEvidence.mk.injEq,
    ↓existsAndEq, layers_clean, hdone, hevidence, artifactFromJson_clean, sanitize_eq_self_iff,
    and_true, true_and, launchItems, List.forall_mem_append, forall_texts,
    forall_artifacts, List.forall_mem_cons, List.not_mem_nil, false_imp_iff, implies_true,
    and_assoc]

theorem ledgerFromJson_clean (ledger : BuildLedger) :
    ledgerFromJson (clean (ledgerDoc ledger)) = .ok ledger ↔ Storable ledger := by
  have hs := fun key value => @stringField_clean _ invalid (ledgerDoc ledger) key value
  have hn := fun key value => @numberField_clean _ invalid (ledgerDoc ledger) key value
  have hl := fun key values => @stringArrayField_clean _ invalid (ledgerDoc ledger) key values
  have hblueprints : objectArray invalid (clean (ledgerDoc ledger)) "blueprint_versions"
      blueprintFromJson = .ok ledger.blueprintVersions ↔ _ :=
    objectArray_clean blueprintJson (fun _ => ⟨_, rfl⟩) rfl
  have houtputs : objectArray invalid (clean (ledgerDoc ledger)) "step_outputs"
      stepOutputFromJson = .ok ledger.stepOutputs ↔ _ :=
    objectArray_clean stepOutputJson (fun _ => ⟨_, rfl⟩) rfl
  have hwirings : objectArray invalid (clean (ledgerDoc ledger)) "wiring_statuses"
      wiringFromJson = .ok ledger.wiringStatuses ↔ _ :=
    objectArray_clean wiringJson (fun _ => ⟨_, rfl⟩) rfl
  have hdebt : objectArray invalid (clean (ledgerDoc ledger)) "deferred_debt"
      debtFromJson = .ok ledger.deferredDebt ↔ _ :=
    objectArray_clean debtJson (fun _ => ⟨_, rfl⟩) rfl
  have hretries : objectArray invalid (clean (ledgerDoc ledger)) "retry_ledger"
      retryFromJson = .ok ledger.retryLedger ↔ _ :=
    objectArray_clean retryJson (fun _ => ⟨_, rfl⟩) rfl
  rw [ledgerFromJson, hs "status" _ rfl, hs "current_step" _ rfl,
    hn "schema_version" ledger.schemaVersion.toUInt64 rfl, hn "revision" _ rfl,
    hs "build_id" _ rfl, hs "project_id" _ rfl,
    boolField_clean (b := ledger.autonomousCorrection) rfl,
    hn "retry_limit" ledger.retryLimit.toUInt64 rfl,
    optionalObject_clean requirementsJson (o := ledger.requirements) (fun _ => ⟨_, rfl⟩) rfl,
    hl "crate_statuses" _ rfl, hl "couple_markers" _ rfl,
    optionalObject_clean launchJson (o := ledger.launchProof) (fun _ => ⟨_, rfl⟩) rfl,
    hn "created_at_unix_ms" _ rfl, hn "updated_at_unix_ms" _ rfl]
  rw [Storable]
  obtain ⟨schema, revision, buildId, projectId, status, step, correction, limit, requirements,
    blueprints, outputs, crates, wirings, debt, markers, retries, launch, created, updated⟩ := ledger
  simp only [ok_bind, bind_eq_ok, pure_eq_ok, BuildLedger.mk.injEq, ↓existsAndEq, sanitize_step,
    sanitize_status, BuildStep.parse_asStr, BuildRunStatus.parse_asStr, okOr_some,
    UInt8.toUInt8_toUInt64, UInt32.toUInt32_toUInt64, mapM_option_eq_ok, hblueprints, houtputs,
    hwirings, hdebt, hretries, requirementsFromJson_clean, blueprintFromJson_clean,
    stepOutputFromJson_clean, wiringFromJson_clean, debtFromJson_clean, retryFromJson_clean,
    launchFromJson_clean, sanitize_eq_self_iff, map_sanitize_eq_self_iff, and_true, true_and,
    ledgerItems, List.forall_mem_append, List.forall_mem_flatMap, forall_texts,
    List.forall_mem_cons, List.not_mem_nil, false_imp_iff, implies_true, and_assoc]

section Refusals

theorem refuses_artifactFromJson (root : JsonValue) : Refuses invalid (artifactFromJson root) := by
  simp [artifactFromJson, refusesWith_mapError]

theorem refuses_requirementsFromJson (root : JsonValue) :
    Refuses invalid (requirementsFromJson root) := by
  simp [requirementsFromJson, refuses_artifactFromJson]

theorem refuses_contractFromJson (root : JsonValue) : Refuses invalid (contractFromJson root) := by
  simp [contractFromJson]

theorem refuses_reviewFromJson (root : JsonValue) : Refuses invalid (reviewFromJson root) := by
  simp [reviewFromJson, refuses_objectArray, refuses_artifactFromJson]

theorem refuses_blueprintFromJson (root : JsonValue) :
    Refuses invalid (blueprintFromJson root) := by
  simp [blueprintFromJson, crateFromJson, edgeFromJson, refuses_objectArray,
    refuses_contractFromJson, refuses_artifactFromJson, refuses_reviewFromJson]

theorem refuses_stepOutputFromJson (root : JsonValue) :
    Refuses invalid (stepOutputFromJson root) := by
  simp [stepOutputFromJson, refuses_objectArray, refuses_artifactFromJson]

theorem refuses_wiringFromJson (root : JsonValue) : Refuses invalid (wiringFromJson root) := by
  have hparse : ∀ value, Refuses invalid (wiringStatusParse value) := by
    intro value
    unfold wiringStatusParse
    split_ifs <;> simp [RefusesWith]
  simp [wiringFromJson, hparse, refuses_objectArray, refuses_artifactFromJson]

theorem refuses_retryFromJson (root : JsonValue) : Refuses invalid (retryFromJson root) := by
  simp [retryFromJson, refuses_objectArray, refuses_artifactFromJson]

theorem refuses_launchFromJson (root : JsonValue) : Refuses invalid (launchFromJson root) := by
  have hparse : ∀ value, Refuses invalid (busLayerParse value) := by
    intro value
    unfold busLayerParse
    split_ifs <;> simp [RefusesWith]
  simp [launchFromJson, refusesWith_mapM hparse, refuses_objectArray, refuses_artifactFromJson]

theorem refuses_ledgerFromJson (root : JsonValue) : Refuses invalid (ledgerFromJson root) := by
  simp [ledgerFromJson, debtFromJson, refuses_objectArray,
    refusesWith_mapM_option refuses_requirementsFromJson,
    refusesWith_mapM_option refuses_launchFromJson, refuses_blueprintFromJson,
    refuses_stepOutputFromJson, refuses_wiringFromJson, refuses_retryFromJson]

end Refusals

section Fits

variable (k : ℕ)

theorem fits_artifactJson (item : BuildArtifactRef) : Fits (k + 2) (artifactJson item) := by
  refine fits_object ⟨by simp, by simp only [List.map]; decide⟩ ?_
  simp only [List.forall_mem_cons, List.not_mem_nil, false_imp_iff, implies_true, and_true]
  exact ⟨trivial, trivial, trivial⟩

theorem fits_requirementsJson (item : RequirementsRecord) :
    Fits (k + 3) (requirementsJson item) := by
  refine fits_object ⟨by simp, by simp only [List.map]; decide⟩ ?_
  simp only [List.forall_mem_cons, List.not_mem_nil, false_imp_iff, implies_true, and_true]
  exact ⟨trivial, fits_stringArrayDoc _ _, trivial, trivial, fits_stringArrayDoc _ _, trivial,
    fits_stringArrayDoc _ _, fits_stringArrayDoc _ _, fits_artifactJson k _⟩

theorem fits_crateJson (item : BlueprintCrate) : Fits (k + 2) (crateJson item) := by
  refine fits_object ⟨by simp, by simp only [List.map]; decide⟩ ?_
  simp only [List.forall_mem_cons, List.not_mem_nil, false_imp_iff, implies_true, and_true]
  exact ⟨trivial, trivial⟩

theorem fits_edgeJson (item : DependencyEdge) : Fits (k + 2) (edgeJson item) := by
  refine fits_object ⟨by simp, by simp only [List.map]; decide⟩ ?_
  simp only [List.forall_mem_cons, List.not_mem_nil, false_imp_iff, implies_true, and_true]
  exact ⟨trivial, trivial⟩

theorem fits_contractJson (item : MessageContract) : Fits (k + 3) (contractJson item) := by
  refine fits_object ⟨by simp, by simp only [List.map]; decide⟩ ?_
  simp only [List.forall_mem_cons, List.not_mem_nil, false_imp_iff, implies_true, and_true]
  exact ⟨trivial, trivial, trivial, fits_stringArrayDoc _ _, trivial⟩

theorem fits_reviewJson (item : IndependentReview) : Fits (k + 4) (reviewJson item) := by
  refine fits_object ⟨by simp, by simp only [List.map]; decide⟩ ?_
  simp only [List.forall_mem_cons, List.not_mem_nil, false_imp_iff, implies_true, and_true]
  exact ⟨trivial, trivial, trivial, fits_stringArrayDoc _ _, trivial,
    fits_arrayDoc (fits_artifactJson k) _⟩

theorem fits_blueprintJson (item : BlueprintRecord) : Fits (k + 5) (blueprintJson item) := by
  refine fits_object ⟨by simp, by simp only [List.map]; decide⟩ ?_
  simp only [List.forall_mem_cons, List.not_mem_nil, false_imp_iff, implies_true, and_true]
  exact ⟨fits_numberDoc _ _, fits_arrayDoc (fits_crateJson (k + 1)) _,
    fits_arrayDoc (fits_contractJson k) _, fits_arrayDoc (fits_edgeJson (k + 1)) _,
    fits_stringArrayDoc _ _, fits_stringArrayDoc _ _, fits_artifactJson (k + 2) _,
    fits_artifactJson (k + 2) _, fits_reviewJson k _⟩

theorem fits_stepOutputJson (item : StepOutput) : Fits (k + 4) (stepOutputJson item) := by
  refine fits_object ⟨by simp, by simp only [List.map]; decide⟩ ?_
  simp only [List.forall_mem_cons, List.not_mem_nil, false_imp_iff, implies_true, and_true]
  exact ⟨trivial, trivial, fits_stringArrayDoc _ _, fits_arrayDoc (fits_artifactJson k) _,
    fits_numberDoc _ _⟩

theorem fits_wiringJson (item : WiringLedgerRecord) : Fits (k + 4) (wiringJson item) := by
  refine fits_object ⟨by simp, by simp only [List.map]; decide⟩ ?_
  simp only [List.forall_mem_cons, List.not_mem_nil, false_imp_iff, implies_true, and_true]
  exact ⟨trivial, trivial, fits_arrayDoc (fits_artifactJson k) _⟩

theorem fits_debtJson (item : DeferredDebt) : Fits (k + 2) (debtJson item) := by
  refine fits_object ⟨by simp, by simp only [List.map]; decide⟩ ?_
  simp only [List.forall_mem_cons, List.not_mem_nil, false_imp_iff, implies_true, and_true]
  exact ⟨trivial, trivial, fits_numberDoc _ _⟩

theorem fits_retryJson (item : RetryRecord) : Fits (k + 4) (retryJson item) := by
  refine fits_object ⟨by simp, by simp only [List.map]; decide⟩ ?_
  simp only [List.forall_mem_cons, List.not_mem_nil, false_imp_iff, implies_true, and_true]
  exact ⟨trivial, trivial, fits_numberDoc _ _, trivial, fits_arrayDoc (fits_artifactJson k) _,
    trivial, fits_numberDoc _ _⟩

theorem fits_roundTripJson (item : RoundTripEvidence) : Fits (k + 4) (roundTripJson item) := by
  refine fits_object ⟨by simp, by simp only [List.map]; decide⟩ ?_
  simp only [List.forall_mem_cons, List.not_mem_nil, false_imp_iff, implies_true, and_true]
  exact ⟨trivial, fits_stringArrayDoc _ _, trivial, trivial, trivial,
    fits_arrayDoc (fits_artifactJson k) _⟩

theorem fits_launchJson (item : LaunchEvidence) : Fits (k + 5) (launchJson item) := by
  refine fits_object ⟨by simp, by simp only [List.map]; decide⟩ ?_
  simp only [List.forall_mem_cons, List.not_mem_nil, false_imp_iff, implies_true, and_true]
  exact ⟨trivial, trivial, trivial, trivial, fits_artifactJson (k + 2) _,
    fits_artifactJson (k + 2) _, fits_roundTripJson k _, trivial,
    fits_arrayDoc (fits_artifactJson (k + 1)) _, trivial⟩

theorem fits_ledgerDoc (item : BuildLedger) : Fits (k + 7) (ledgerDoc item) := by
  refine fits_object ⟨by simp, by simp only [List.map]; decide⟩ ?_
  simp only [List.forall_mem_cons, List.not_mem_nil, false_imp_iff, implies_true, and_true]
  exact ⟨fits_numberDoc _ _, fits_numberDoc _ _, trivial, trivial, trivial, trivial, trivial,
    fits_numberDoc _ _, fits_nullableDoc (fits_requirementsJson (k + 3)) _,
    fits_arrayDoc (fits_blueprintJson k) _, fits_arrayDoc (fits_stepOutputJson (k + 1)) _,
    fits_stringArrayDoc _ _, fits_arrayDoc (fits_wiringJson (k + 1)) _,
    fits_arrayDoc (fits_debtJson (k + 3)) _, fits_stringArrayDoc _ _,
    fits_arrayDoc (fits_retryJson (k + 1)) _, fits_nullableDoc (fits_launchJson (k + 1)) _,
    fits_numberDoc _ _, fits_numberDoc _ _⟩

end Fits

end AtomVibe.LedgerRoundTrip
