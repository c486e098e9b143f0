import AtomVibe.BoundedRetries
import AtomVibe.LedgerRoundTrip

namespace AtomVibe.RecordedEvidence

open Text JsonText BuildProtocol GateModel GateSpec PlannerModel BuildPlanner PlannerSteps
open LedgerRoundTrip PlannerInvariant

def stateItems (call : Call) : List StoredItem :=
  match call.input.step with
  | .intake => call.input.requirements.toList.flatMap requirementsItems
  | .blueprint => call.input.blueprint.toList.flatMap blueprintItems
  | .crateBuild => texts (call.input.crates.map (·.crateName)) ++ texts call.input.coupleMarkers
  | .crateCouple =>
    (call.input.wirings.flatMap fun item => artifacts item.evidence ++ texts [item.contractId]) ++
      texts call.input.deferredDebt
  | .buildTest => []
  | .launchProof => call.input.launch.toList.flatMap launchItems

def recordedItems (call : Call) : List StoredItem :=
  match gateOutcome call with
  | .pass evidence => stepOutputItems (passedOutput call.input.step evidence) ++ stateItems call
  | .fail _ evidence => artifacts evidence.artifacts ++ texts [evidence.summary]
  | .deferred _ _ => []

def freeText : StoredItem → String
  | .text value => value
  | .artifact value => value.role

def Recordable (call : Call) : Prop := ∀ item ∈ recordedItems call, Lossless (freeText item)

instance (call : Call) : Decidable (Recordable call) :=
  inferInstanceAs (Decidable (∀ item ∈ recordedItems call, Lossless (freeText item)))

section Artifacts

variable {artifact : BuildArtifactRef}

@[simp]
theorem artifact_mem_texts {values : List String} : .artifact artifact ∈ texts values ↔ False := by
  simp [texts]

@[simp]
theorem artifact_mem_artifacts {values : List BuildArtifactRef} :
    .artifact artifact ∈ artifacts values ↔ artifact ∈ values := by
  simp [artifacts]

theorem mem_requirementsItems {item : RequirementsRecord} :
    .artifact artifact ∈ requirementsItems item ↔ artifact = item.artifact := by
  simp [requirementsItems]

theorem mem_blueprintItems {item : BlueprintRecord} :
    .artifact artifact ∈ blueprintItems item ↔ artifact ∈ item.artifacts := by
  simp [blueprintItems, crateItems, contractItems, edgeItems, reviewItems,
    BlueprintRecord.artifacts, or_assoc]

theorem mem_launchItems {item : LaunchEvidence} :
    .artifact artifact ∈ launchItems item ↔ artifact ∈ item.artifacts := by
  simp [launchItems, LaunchEvidence.artifacts, or_assoc]

theorem collected_of_mem_stateItems {call : Call} (h : .artifact artifact ∈ stateItems call) :
    artifact ∈ call.input.collectArtifacts := by
  unfold stateItems at h
  unfold GateInput.collectArtifacts
  simp only [List.mem_append]
  cases hs : call.input.step <;> rw [hs] at h <;>
    simp only [List.mem_flatMap, Option.mem_toList, List.mem_append, artifact_mem_texts, or_false,
      artifact_mem_artifacts, List.not_mem_nil] at h
  · obtain ⟨record, hrecord, h⟩ := h
    simp [hrecord, mem_requirementsItems.mp h]
  · obtain ⟨record, hrecord, h⟩ := h
    simp [hrecord, mem_blueprintItems.mp h]
  · obtain ⟨wiring, hwiring, h⟩ := h
    simp only [List.mem_flatMap]
    exact .inl (.inl (.inl (.inl (.inr ⟨wiring, hwiring, h⟩))))
  · obtain ⟨record, hrecord, h⟩ := h
    simp [hrecord, mem_launchItems.mp h]

theorem valid_of_mem_recordedItems {call : Call} (h : .artifact artifact ∈ recordedItems call) :
    artifact.Valid := by
  have hevidence : ∀ artifact ∈ (GateOutcome.evidence (gateOutcome call)).artifacts,
      artifact.Valid := evaluateGate_artifacts_valid call.fs call.checkedAt call.input
  unfold recordedItems at h
  cases hgate : gateOutcome call with
  | pass evidence =>
    rw [hgate] at h hevidence
    rcases List.mem_append.mp h with h | h
    · rw [stepOutputItems] at h
      simp only [List.mem_append, artifact_mem_texts, or_false, artifact_mem_artifacts] at h
      exact hevidence artifact h
    · exact collectArtifacts_valid hgate artifact (collected_of_mem_stateItems h)
  | fail errorClass evidence =>
    rw [hgate] at h hevidence
    simp only [List.mem_append, artifact_mem_texts, or_false, artifact_mem_artifacts] at h
    exact hevidence artifact h
  | deferred reason evidence =>
    rw [hgate] at h
    simp at h

end Artifacts

variable {ledger : BuildLedger} {call : Call}

theorem storable_recordedItems (h : Recordable call) : ∀ item ∈ recordedItems call, item.Storable := by
  intro item hitem
  cases item with
  | text value => exact h _ hitem
  | artifact value => exact ⟨valid_of_mem_recordedItems hitem, h _ hitem⟩

theorem storable_advance {evidence : BuildGateEvidence} (h : Storable ledger)
    (hpass : gateOutcome call = .pass evidence) (hcall : Recordable call) :
    Storable (stamp (advance ledger call evidence) call) := by
  have hrecorded := storable_recordedItems hcall
  rw [recordedItems, hpass] at hrecorded
  obtain ⟨houtput, hstate⟩ := List.forall_mem_append.mp hrecorded
  simp only [Storable, ledgerItems, List.forall_mem_append, List.forall_mem_flatMap, and_assoc] at h
  obtain ⟨hrequirements, hblueprints, houtputs, hwirings, hdebt, hretries, hlaunch, hids, hcrates,
    hmarkers⟩ := h
  simp only [Storable, ledgerItems, List.forall_mem_append, List.forall_mem_flatMap, and_assoc]
  have hnone : ∀ item ∈ texts [], item.Storable := forall_texts.mpr (by simp)
  have hnodebt : ∀ debt ∈ ([] : List DeferredDebt), ∀ item ∈ debtItems debt, item.Storable := by simp
  have houtputs' : ∀ output ∈ ledger.stepOutputs ++ [passedOutput call.input.step evidence],
      ∀ item ∈ stepOutputItems output, item.Storable :=
    List.forall_mem_append.mpr ⟨houtputs, List.forall_mem_singleton.mpr houtput⟩
  unfold advance recordStepState
  rw [stateItems] at hstate
  cases hs : call.input.step <;> rw [hs] at hstate houtputs' <;>
    simp only [List.forall_mem_append, List.forall_mem_flatMap] at hstate
  · exact ⟨hstate, hblueprints, houtputs', hwirings, hdebt, hretries, hlaunch, hids, hcrates, hmarkers⟩
  · exact ⟨hrequirements, List.forall_mem_append.mpr ⟨hblueprints, hstate⟩, houtputs', hwirings, hdebt,
      hretries, hlaunch, hids, hcrates, hmarkers⟩
  · exact ⟨hrequirements, hblueprints, houtputs', hwirings, hdebt, hretries, hlaunch, hids, hstate.1,
      hstate.2⟩
  · refine ⟨hrequirements, hblueprints, houtputs', ?_, ?_, hretries, hlaunch, hids, hcrates, hnone⟩
    · exact List.forall_mem_map.mpr fun wiring hwiring =>
        List.forall_mem_append.mpr (hstate.1 wiring hwiring)
    · intro debt hmem
      obtain ⟨i, hi, rfl⟩ := List.mem_mapIdx.mp hmem
      exact forall_texts.mpr (List.forall_mem_singleton.mpr
        (forall_texts.mp hstate.2 _ (List.getElem_mem hi)))
  · exact ⟨hrequirements, hblueprints, houtputs', hwirings, hnodebt, hretries, hlaunch, hids, hcrates,
      hnone⟩
  · exact ⟨hrequirements, hblueprints, houtputs', hwirings, hnodebt, hretries, hstate, hids, hcrates,
      hnone⟩

theorem storable_handleFail {errorClass : BuildErrorClass} {evidence : BuildGateEvidence}
    (h : Storable ledger) (hfail : gateOutcome call = .fail errorClass evidence)
    (hcall : Recordable call) :
    Storable (stamp (handleFail ledger call.input.step errorClass evidence).2 call) := by
  have hrecorded := storable_recordedItems hcall
  rw [recordedItems, hfail] at hrecorded
  obtain ⟨hartifacts, hsummary⟩ := List.forall_mem_append.mp hrecorded
  have hretry : ∀ decision, Lossless decision → ∀ record ∈ ledger.retryLedger ++
      [retryRecord ledger call.input.step errorClass evidence decision],
      ∀ item ∈ retryItems record, item.Storable := by
    intro decision hdecision
    refine List.forall_mem_append.mpr ⟨?_, List.forall_mem_singleton.mpr ?_⟩
    · simp only [Storable, ledgerItems, List.forall_mem_append, List.forall_mem_flatMap] at h
      exact h.1.1.1.1.2
    · refine List.forall_mem_append.mpr ⟨hartifacts, forall_texts.mpr ?_⟩
      simp only [List.forall_mem_cons, List.not_mem_nil, false_imp_iff, implies_true, and_true]
      exact ⟨forall_texts.mp hsummary _ List.mem_cons_self, hdecision⟩
  simp only [Storable, ledgerItems, List.forall_mem_append, List.forall_mem_flatMap] at h
  obtain ⟨⟨⟨⟨⟨hbefore, -⟩, hlaunch⟩, hids⟩, hcrates⟩, hmarkers⟩ := h
  rw [handleFail_eq]
  simp only [Storable, ledgerItems, List.forall_mem_append, List.forall_mem_flatMap]
  split_ifs
  · exact ⟨⟨⟨⟨⟨hbefore, hretry _ (by decide)⟩, hlaunch⟩, hids⟩, hcrates⟩, hmarkers⟩
  · exact ⟨⟨⟨⟨⟨hbefore, hretry _ (by decide)⟩, hlaunch⟩, hids⟩, hcrates⟩, hmarkers⟩

theorem storable_evaluateAndHandle (h : Storable ledger) (hcall : Recordable call) :
    Storable (evaluateAndHandle ledger call).2 := by
  rcases evaluateAndHandle_cases ledger call with ⟨-, error, he⟩ |
    ⟨-, evidence, decision, hpass, he⟩ | ⟨-, errorClass, evidence, hfail, he⟩
  · rw [he]
    exact h
  · rw [he]
    exact storable_advance h hpass hcall
  · rw [he]
    exact storable_handleFail h hfail hcall

theorem lossless_ids (h : ledger.Valid) : Lossless ledger.buildId ∧ Lossless ledger.projectId := by
  have hbuild := h.buildId
  have hproject := h.projectId
  simp only [isSafeBuildId, Bool.and_eq_true] at hbuild
  simp only [isSafeProjectId, Bool.and_eq_true, Bool.not_eq_true', List.any_eq_false] at hproject
  exact ⟨lossless_of_idChars hbuild.2, fun c hc =>
    lossy_of_not_control (Bool.eq_false_iff.mpr (hproject.2 c hc))⟩

theorem storable_of_new {projectId : String} {autonomousCorrection : Bool} {retryLimit : UInt8}
    {now : UInt64} {pid : UInt32} {sequence : UInt64}
    (h : new projectId autonomousCorrection retryLimit now pid sequence = .ok ledger) :
    Storable ledger := by
  obtain ⟨hvalid, hfresh⟩ := new_eq_ok.mp h
  have hids := lossless_ids hvalid
  subst hfresh
  simp only [Storable, ledgerItems, List.forall_mem_append, List.forall_mem_flatMap, forall_texts]
  simpa [freshLedger] using hids

end AtomVibe.RecordedEvidence
