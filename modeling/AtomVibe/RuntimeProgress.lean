import AtomVibe.PhaseOrder
import AtomVibe.RuntimeRuns
import AtomVibe.ScratchpadRuns

namespace AtomVibe.RuntimeProgress

open Checked Transition JsonText Secrets BuildProtocol GateModel PlannerModel BuildPlanner
open PlannerSteps PlannerInvariant LedgerRoundTrip RecordedEvidence LedgerStore BuildLedgerStore
open LedgerChain LedgerSave LedgerAtomic Coordinator CoordinatorChain ChainFiles
open Scratchpad ScratchpadStore ScratchpadChain ScratchpadAppend ScratchpadSeal ScratchpadOpen
open Hash Provider RuntimeModel AtomVibe.Runtime AtomVibeRuntime RuntimeGate RuntimeRuns

section Gate

variable {state : RuntimeState} {store : ScratchpadStore} {ledger : BuildLedger} {call : Call}
  {evidence : BuildGateEvidence} {clock : PadClock}

structure Ready (store : ScratchpadStore) (ledger : BuildLedger) (state : RuntimeState) : Prop where
  session : ∃ manifest, SessionStore.load ledger.buildId state.files.sessions = .ok manifest
  planner : state.runtime.coordinator.planners.lookup ledger.buildId = some ledger
  stored : (state.runtime.coordinator.store.load ledger.buildId state.files.planners).1 = .ok ledger
  aligned : Aligned ledger
  storable : Storable ledger
  pad : state.runtime.padStore ledger.buildId = .ok store
  accepts : ∃ entries, Accepts store (state.files.pad store) entries

structure Elsewhere (store : ScratchpadStore) (files files' : RuntimeFiles) : Prop where
  sessions : files'.sessions = files.sessions
  pads : ∀ other : ScratchpadStore, other.scopeDir ≠ store.scopeDir →
    files'.pad other = files.pad other

theorem Elsewhere.trans {files files' files'' : RuntimeFiles} (h : Elsewhere store files files')
    (h' : Elsewhere store files' files'') : Elsewhere store files files'' :=
  ⟨h'.sessions.trans h.sessions,
    fun other hother => (h'.pads other hother).trans (h.pads other hother)⟩

theorem elsewhere_setPad (files : RuntimeFiles) (pad : ScratchpadFiles) :
    Elsewhere store files (files.setPad store pad) := by
  refine ⟨rfl, fun other hother => ?_⟩
  rcases pad_setPad_cases files store other pad with ⟨hsame, -⟩ | ⟨-, hpad⟩
  · exact absurd hsame hother
  · exact hpad

theorem recordEntry_unsealed {pad : ScratchpadFiles} {entries : List ScratchpadEntry}
    (haccepts : Accepts store pad entries) {step : BuildStep} {decision : BuildPlannerDecision}
    (hok : (recordEntry store step ledger decision clock pad).1 = .ok ())
    (hstatus : ledger.status ≠ .complete) :
    (recordEntry store step ledger decision clock pad).2.sealFile = none := by
  unfold recordEntry at hok ⊢
  cases happend : store.append clock.appendedAt (some step) (decisionScratchpad ledger decision).1
      (decisionScratchpad ledger decision).2.1 (decisionScratchpad ledger decision).2.2 pad with
  | mk result pad' =>
    cases result with
    | error error =>
      simp only [happend] at hok
      exact absurd hok (by simp)
    | ok entry =>
      have hopen := append_open haccepts (congrArg Prod.fst happend)
      rw [happend] at hopen
      simp only [happend, if_neg hstatus]
      exact hopen

variable {runtime : AtomVibeRuntime} {files : RuntimeFiles} {buildId : String}
  (hstore : runtime.padStore buildId = .ok store)

include hstore

theorem scratchpad_elsewhere : Elsewhere store files (runtime.scratchpad buildId files).2 := by
  unfold scratchpad
  rw [hstore]
  exact elsewhere_setPad files _

theorem recordDecision_elsewhere (step : BuildStep) (decision : BuildPlannerDecision) :
    Elsewhere store files
      (runtime.recordDecision buildId step ledger decision clock files).2 := by
  unfold recordDecision
  have hopened := @scratchpad_elsewhere store runtime files buildId hstore
  cases hscratchpad : runtime.scratchpad buildId files with
  | mk result opened =>
    rw [hscratchpad] at hopened
    cases result with
    | error error => exact hopened
    | ok found =>
      have hfound := (scratchpad_ok (congrArg Prod.fst hscratchpad)).1
      obtain rfl := Except.ok.inj (hstore.symm.trans hfound)
      exact hopened.trans (elsewhere_setPad opened _)

theorem recordDecision_unsealed {entries : List ScratchpadEntry}
    (haccepts : Accepts store (files.pad store) entries) {step : BuildStep}
    {decision : BuildPlannerDecision}
    (hok : (runtime.recordDecision buildId step ledger decision clock files).1 = .ok ())
    (hstatus : ledger.status ≠ .complete) :
    ((runtime.recordDecision buildId step ledger decision clock files).2.pad store).sealFile =
      none := by
  unfold recordDecision scratchpad at hok ⊢
  rw [hstore] at hok ⊢
  simp only [openPad_of_accepts haccepts, Except.mapError, RuntimeFiles.pad_setPad] at hok ⊢
  apply recordEntry_unsealed (accepts_withScope haccepts) ?_ hstatus
  cases hresult : (recordEntry store step ledger decision clock
      (withScope store (files.pad store))).1 with
  | error error =>
    rw [hresult] at hok
    exact absurd hok (by simp)
  | ok _ => rfl

omit hstore

structure Recorded (store : ScratchpadStore) (step : BuildStep) (candidate : BuildLedger)
    (decision : BuildPlannerDecision) (before after : RuntimeState) : Prop where
  planner : after.runtime.coordinator.planners.lookup candidate.buildId = some candidate
  stored : (after.runtime.coordinator.store.load candidate.buildId after.files.planners).1 =
    .ok candidate
  pad : after.runtime.padStore candidate.buildId = .ok store
  gained : Gained store step candidate decision (before.files.pad store) (after.files.pad store)
  unsealed : candidate.status ≠ .complete → (after.files.pad store).sealFile = none
  elsewhere : Elsewhere store before.files after.files

theorem evaluateGate_recorded (h : Ready store ledger state) (hreleased : Released ledger call)
    (hpass : gateOutcome call = .pass evidence) (hcall : Recordable call)
    (hroom : ledger.revision.toNat + 1 < 10 ^ 6)
    (htakes : ∀ event, PadTakes store (stamp (advance ledger call evidence) call) (.advance event)
      clock (state.files.pad store)) :
    ∃ event, (perform state (.evaluateGate ledger.buildId call clock)).1 =
        .evaluated (.ok (.advance event)) ∧
      Recorded store call.input.step (stamp (advance ledger call evidence) call) (.advance event)
        state (perform state (.evaluateGate ledger.buildId call clock)).2 := by
  obtain ⟨manifest, hsession⟩ := h.session
  obtain ⟨event, he⟩ := evaluateAndHandle_pass hreleased hpass
  obtain ⟨decision, hdecision⟩ := (accepted_iff h.aligned call).mpr hreleased
  rw [he] at hdecision
  obtain ⟨rfl, hvalid⟩ := conclude_eq_ok.mp hdecision
  have he' : evaluateAndHandle ledger call =
      (.ok (.advance event), stamp (advance ledger call evidence) call) :=
    he.trans (Prod.ext hdecision rfl)
  obtain ⟨-, hid, hrevision⟩ := evaluateAndHandle_ok he'
  set candidate := stamp (advance ledger call evidence) call with hcandidate
  have hnext : candidate.revision.toNat = ledger.revision.toNat + 1 := by
    rw [hrevision]
    exact toNat_saturatingSucc (lt_trans hroom (by decide))
  have hwrites : Writes state.runtime.coordinator.store state.files.planners candidate := by
    left
    refine ⟨ledger, by rw [hid]; exact h.stored, ?_, hrevision⟩
    intro hsame
    rw [← hsame] at hnext
    omega
  obtain ⟨_, -, hsave, -, -⟩ := @save_extends state.runtime.coordinator.store state.files.planners
    candidate hvalid hwrites ⟨storable_advance h.storable hpass hcall, by omega⟩
  obtain ⟨changed, hlookup, hpad, hgate⟩ := @evaluateGate_saved state.runtime state.files
    ledger.buildId call clock manifest ledger candidate (.advance event) hsession h.planner he' _
    hsave
  have hload := (load_of_saved hvalid hsave).1
  have hchangedPad : changed.padStore ledger.buildId = .ok store := hpad.trans h.pad
  refine ⟨event, ?_⟩
  simp only [perform, hgate]
  rcases @recordDecision_cases changed { state.files with planners :=
      (state.runtime.coordinator.store.save candidate state.files.planners).2 } ledger.buildId
    call.input.step candidate (.advance event) clock with ⟨-, hok, store', hstore', hgained⟩ |
    ⟨hrefused, -⟩
  · obtain rfl := Except.ok.inj (hchangedPad.symm.trans hstore')
    obtain ⟨entries, haccepts⟩ := h.accepts
    refine ⟨by rw [hok]; rfl, ⟨hid ▸ hlookup, ?_, hid ▸ hchangedPad, hgained, ?_, ?_⟩⟩
    · rw [LedgerChain.load_eq_ok] at hload ⊢
      simp only [planners_recordDecision]
      exact hload
    · exact @recordDecision_unsealed store candidate clock changed { state.files with planners :=
        (state.runtime.coordinator.store.save candidate state.files.planners).2 } ledger.buildId
        hchangedPad entries haccepts call.input.step (.advance event) hok
    · exact ⟨(recordDecision_elsewhere hchangedPad _ _).sessions,
        (recordDecision_elsewhere hchangedPad _ _).pads⟩
  · exact absurd ⟨store, hchangedPad, htakes event⟩ hrefused

theorem Recorded.ready (h : Ready store ledger state) {after : RuntimeState}
    {decision : BuildPlannerDecision} {step : BuildStep}
    (hrecorded : Recorded store step (stamp (advance ledger call evidence) call) decision state
      after)
    (hreleased : Released ledger call) (hpass : gateOutcome call = .pass evidence)
    (hcall : Recordable call) : Ready store (stamp (advance ledger call evidence) call) after := by
  have haligned := aligned_evaluateAndHandle h.aligned call
  obtain ⟨event, he⟩ := evaluateAndHandle_pass hreleased hpass
  have hid := (kept_evaluateAndHandle ledger call).buildId
  rw [he, conclude] at haligned hid
  obtain ⟨entries, entry, -, hload, -⟩ := hrecorded.gained
  refine ⟨?_, hrecorded.planner, hrecorded.stored, haligned,
    storable_advance h.storable hpass hcall, hrecorded.pad, _, ScratchpadChain.load_eq_ok.mp hload⟩
  rw [hid, hrecorded.elsewhere.sessions]
  exact h.session

end Gate

section Passing

open GateSpec GateEvaluation

variable {state : RuntimeState} {store : ScratchpadStore} {ledger : BuildLedger} {step : BuildStep}
  {evidence : BuildGateEvidence}

def passedText (step : BuildStep) : String :=
  "Deterministic gate decision: " ++ "advance" ++ ". Planner revision: " ++
    (step.ordinal.toNat + 1).repr ++ ". Current step: " ++ (step.next.getD step).asStr ++ ". " ++ ""

theorem passedText_clean (step : BuildStep) :
    redactSensitiveText (passedText step) = passedText step ∧
      validateContent (passedText step) = .ok () ∧ (passedText step).utf8ByteSize ≤ 200 ∧
      Lossless (passedText step) := by
  cases step <;> decide +kernel

theorem sampleEvidence (step : BuildStep) (h : gateOutcome (passingCall step) = .pass evidence) :
    evidence.artifacts = (sampleInput 1 step).allArtifacts ∧
      ∃ details, evaluateStep sampleFs "root" (sampleInput 1 step) = .ok details ∧
        evidence.details = details ∧ evidence.summary = step.skillId ++ " gate passed" := by
  have hroot : (sampleInput 1 step).evidenceRoot = "root" := by cases step <;> rfl
  have hstep : (sampleInput 1 step).step = step := by cases step <;> rfl
  obtain ⟨details, hdetails⟩ := evaluateStep_sample (show (1 : UInt32) ≠ 0 by decide) step
  have hpass := evaluateGate_sample hroot (collectArtifacts_sample 1 step) hdetails 0
  obtain rfl := GateOutcome.pass.inj (h.symm.trans hpass)
  exact ⟨rfl, details, hdetails, rfl, by rw [hstep]⟩

theorem recordable_passingCall (step : BuildStep) : Recordable (passingCall step) := by
  obtain ⟨evidence, hpass⟩ := gateOutcome_passingCall step
  obtain ⟨hartifacts, details, hdetails, hsame, hsummary⟩ := sampleEvidence step hpass
  have hlossless : ((evaluateStep sampleFs "root" (sampleInput 1 step)).toOption.all fun details =>
      details.all fun detail => decide (Lossless detail)) = true := by
    cases step <;> decide +kernel
  have hroles : ∀ artifact ∈ (sampleInput 1 step).collectArtifacts, Lossless artifact.role := by
    cases step <;> decide +kernel
  have hstate : ∀ item ∈ stateItems (passingCall step), Lossless (freeText item) := by
    cases step <;> decide +kernel
  have hskill : Lossless (step.skillId ++ " gate passed") := by cases step <;> decide +kernel
  rw [hdetails] at hlossless
  rw [Recordable, recordedItems, hpass]
  simp only [List.forall_mem_append, stepOutputItems, passedOutput, hartifacts, hsame, hsummary]
  refine ⟨⟨⟨?_, ?_⟩, ?_⟩, hstate⟩
  · refine List.forall_mem_map.mpr fun artifact hmem => ?_
    exact hroles artifact ((mem_allArtifacts _ artifact).mp hmem)
  · exact List.forall_mem_map.mpr (List.forall_mem_singleton.mpr hskill)
  · refine List.forall_mem_map.mpr fun detail hmem => ?_
    exact of_decide_eq_true (List.all_eq_true.mp hlossless detail hmem)

theorem sources_passed (step : BuildStep) (h : gateOutcome (passingCall step) = .pass evidence) :
    validateSourceIds (evidence.artifacts.map fun artifact => "artifact:" ++ artifact.path) =
      .ok () := by
  obtain ⟨hartifacts, -⟩ := sampleEvidence step h
  have hcount : (sampleInput 1 step).collectArtifacts.length ≤ maxSourceIds := by
    cases step <;> decide +kernel
  have hlength : (sampleInput 1 step).allArtifacts.length ≤ maxSourceIds := by
    refine le_trans (List.Sublist.length_le (List.destutter_sublist _ _)) ?_
    rw [List.length_insertionSort]
    exact hcount
  unfold validateSourceIds
  rw [if_neg]
  simp only [Bool.or_eq_true, decide_eq_true_eq, not_or, not_lt, List.length_map, hartifacts]
  refine ⟨hlength, ?_⟩
  rw [List.any_eq_true]
  rintro ⟨value, hmem, hbad⟩
  obtain ⟨artifact, hartifact, rfl⟩ := List.mem_map.mp hmem
  obtain ⟨role, -, -, rfl⟩ := collectArtifacts_sample 1 step artifact
    ((mem_allArtifacts _ artifact).mp hartifact)
  have hfree : ¬((Text.trim ("artifact:" ++ "state/src/lib.rs") != "artifact:" ++ "state/src/lib.rs" ||
      "artifact:" ++ "state/src/lib.rs" == "" ||
      decide (512 < ("artifact:" ++ "state/src/lib.rs").utf8ByteSize) ||
      ("artifact:" ++ "state/src/lib.rs").toList.any Text.isControl) = true) := by
    decide +kernel
  exact hfree hbad

structure Passing (store : ScratchpadStore) (step : BuildStep) (ledger : BuildLedger)
    (state : RuntimeState) : Prop extends Ready store ledger state where
  active : ledger.status = .active
  current : ledger.currentStep = step
  revision : ledger.revision.toNat = step.ordinal.toNat
  retries : ledger.retryLedger = []
  unsealed : (state.files.pad store).sealFile = none
  room : ∀ entries, Accepts store (state.files.pad store) entries →
    entries.length ≤ step.ordinal.toNat ∧ contentBytes entries ≤ 200 * step.ordinal.toNat

theorem ordinal_le (step : BuildStep) : step.ordinal.toNat ≤ 6 := by
  cases step <;> decide

section Step

variable (h : Passing store step ledger state)

include h

theorem Passing.decision (event : BuildPlannerEvent) :
    decisionScratchpad (stamp (advance ledger (passingCall step) evidence) (passingCall step))
        (.advance event) = (.checkpoint, passedText step,
      evidence.artifacts.map fun artifact => "artifact:" ++ artifact.path) := by
  have hcall := step_passingCall step
  generalize passingCall step = call at hcall ⊢
  have hrevision : (stamp (advance ledger call evidence) call).revision.toNat =
      step.ordinal.toNat + 1 := by
    have hle := ordinal_le step
    rw [stamp, revision_advance, ← h.revision]
    apply toNat_saturatingSucc
    rw [h.revision]
    exact lt_of_le_of_lt (Nat.add_le_add_right hle 1) (by decide)
  have hcurrent : (stamp (advance ledger call evidence) call).currentStep =
      step.next.getD step := by
    rw [stamp, currentStep_advance, hcall, h.current]
  have hretries : (stamp (advance ledger call evidence) call).retryLedger = [] := by
    rw [stamp, retryLedger_advance, h.retries]
  have houtputs : (stamp (advance ledger call evidence) call).stepOutputs =
      ledger.stepOutputs ++ [passedOutput step evidence] := by
    rw [stamp, stepOutputs_advance, hcall]
  simp only [decisionScratchpad, decisionKind, BuildPlannerDecision.label, decisionEvidenceIds,
    hrevision, hcurrent, hretries, houtputs, List.getLast?_concat, Option.map_some, Option.getD_some,
    List.getLast?_nil, Option.filter_none, Option.map_none, Option.getD_none, passedOutput]
  rfl

variable (hpass : gateOutcome (passingCall step) = .pass evidence)

include hpass

theorem Passing.takes {clock : PadClock} (hclock : clock.sealModified = none)
    (event : BuildPlannerEvent) : PadTakes store
      (stamp (advance ledger (passingCall step) evidence) (passingCall step)) (.advance event) clock
      (state.files.pad store) := by
  obtain ⟨entries, haccepts⟩ := h.accepts
  obtain ⟨hcount, hbytes⟩ := h.room entries haccepts
  obtain ⟨hredacted, hcontent, hsize, hlossless⟩ := passedText_clean step
  have hle := ordinal_le step
  refine ⟨entries, ScratchpadChain.load_eq_ok.mpr haccepts, ?_, ?_, ?_⟩
  · rw [h.decision event]
    refine ⟨h.unsealed, ?_, ?_, hredacted.symm ▸ hcontent, sources_passed step hpass⟩
    · exact lt_of_le_of_lt (hcount.trans hle) (by decide)
    · have hmax : maxScratchpadBytes = 4194304 := rfl
      rw [hredacted, hmax]
      omega
  · rw [h.decision event, hredacted]
    exact hlossless
  · rintro - ⟨ms, hms, -⟩
    rw [hclock] at hms
    exact absurd hms (by simp)

theorem Passing.passed {clock : PadClock} (hclock : clock.sealModified = none) :
    ∃ event candidate,
      (perform state (.evaluateGate ledger.buildId (passingCall step) clock)).1 =
        .evaluated (.ok (.advance event)) ∧
      candidate.buildId = ledger.buildId ∧
      Recorded store step candidate (.advance event) state
        (perform state (.evaluateGate ledger.buildId (passingCall step) clock)).2 ∧
      (∀ next, step.next = some next → Passing store next candidate
        (perform state (.evaluateGate ledger.buildId (passingCall step) clock)).2) ∧
      (step.next = none → candidate.status = .complete) := by
  have hle := ordinal_le step
  have hreleased : Released ledger (passingCall step) :=
    ⟨h.active, (step_passingCall step).trans h.current.symm⟩
  have hrecordable := recordable_passingCall step
  obtain ⟨event, hresult, hrecorded⟩ := evaluateGate_recorded h.toReady hreleased hpass hrecordable
    (by rw [h.revision]; omega) (h.takes hpass hclock)
  have hready := hrecorded.ready h.toReady hreleased hpass hrecordable
  have hdecision := @Passing.decision state store ledger step evidence h event
  obtain ⟨hredacted, -, hsize, -⟩ := passedText_clean step
  have hcall := step_passingCall step
  generalize passingCall step = call at *
  set candidate := stamp (advance ledger call evidence) call with hcandidate
  have hid : candidate.buildId = ledger.buildId := (kept_advance ledger call evidence).buildId
  have hstatus : candidate.status = if step = .launchProof then .complete else .active := by
    rw [hcandidate, stamp, status_advance, hcall, h.active]
  refine ⟨event, candidate, hresult, hid, hcall ▸ hrecorded, ?_, ?_⟩
  · intro next hnext
    have hne : step ≠ .launchProof := by
      rintro rfl
      cases hnext
    have hordinal : next.ordinal.toNat = step.ordinal.toNat + 1 := by
      cases step <;> cases hnext <;> rfl
    rw [if_neg hne] at hstatus
    refine ⟨hready, hstatus, ?_, ?_, ?_, hrecorded.unsealed (by rw [hstatus]; decide), ?_⟩
    · rw [hcandidate, stamp, currentStep_advance, hcall, hnext]
      rfl
    · rw [hcandidate, stamp, revision_advance, hordinal, ← h.revision]
      apply toNat_saturatingSucc
      rw [h.revision]
      exact lt_of_le_of_lt (Nat.add_le_add_right hle 1) (by decide)
    · rw [hcandidate, stamp, retryLedger_advance, h.retries]
    · intro entries haccepts
      obtain ⟨before, entry, hbefore, hafter, -, -, hcontent, -⟩ := hrecorded.gained
      obtain ⟨hcount, hbytes⟩ := h.room before (ScratchpadChain.load_eq_ok.mp hbefore)
      obtain rfl := Except.ok.inj (hafter.symm.trans (ScratchpadChain.load_eq_ok.mpr haccepts))
      rw [hdecision, hredacted] at hcontent
      rw [List.length_append, contentBytes, List.map_append, List.sum_append, ← contentBytes,
        List.length_singleton, List.map_singleton, List.sum_singleton, hcontent]
      omega
  · intro hnone
    have hlaunch : step = .launchProof := by
      cases step <;> first | rfl | exact absurd hnone (by decide)
    rw [hstatus, if_pos hlaunch]

end Step

def passingCalls (buildId : String) (clock : PadClock) (steps : List BuildStep) : List RuntimeCall :=
  steps.map fun step => .evaluateGate buildId (passingCall step) clock

theorem passing_run {clock : PadClock} (hclock : clock.sealModified = none) {last : BuildStep}
    (steps : List BuildStep) (h : Passing store step ledger state)
    (hsteps : steps ++ [last] <+: PassingRuns.stepsFrom step) :
    ∃ candidate, candidate.buildId = ledger.buildId ∧
      Passing store last candidate (final perform state (passingCalls ledger.buildId clock steps)) ∧
      Elsewhere store state.files
        (final perform state (passingCalls ledger.buildId clock steps)).files := by
  induction steps generalizing step ledger state with
  | nil =>
    rw [List.nil_append, PassingRuns.stepsFrom_eq, List.cons_prefix_cons] at hsteps
    exact ⟨ledger, rfl, hsteps.1 ▸ h, rfl, fun _ _ => rfl⟩
  | cons step' steps ih =>
    rw [List.cons_append, PassingRuns.stepsFrom_eq, List.cons_prefix_cons] at hsteps
    obtain ⟨rfl, hrest⟩ := hsteps
    obtain ⟨evidence, hpass⟩ := gateOutcome_passingCall step'
    obtain ⟨event, candidate, -, hid, hrecorded, hnext, -⟩ := h.passed hpass hclock
    cases hn : step'.next with
    | none =>
      rw [hn] at hrest
      exact absurd (List.prefix_nil.mp hrest) (by simp)
    | some next =>
      rw [hn] at hrest
      obtain ⟨reached, hreached, hpassing, helsewhere⟩ := ih (hnext next hn) hrest
      rw [hid] at hpassing helsewhere
      exact ⟨reached, hreached.trans hid, hpassing, hrecorded.elsewhere.trans helsewhere⟩

end Passing

theorem openAt_ok {root : String} {adapter : ProviderAdapter} {entries : List String}
    {files : RuntimeFiles} {coordinator : BuildCoordinator}
    (h : BuildCoordinator.openRoot ⟨root ++ "/planners"⟩ entries files.planners = .ok coordinator) :
    AtomVibeRuntime.openAt root adapter.config entries (.ok ()) files =
      .ok ⟨root, coordinator, adapter, .new, .new, [], sound_openRoot h⟩ := by
  unfold openAt
  split
  · rename_i error herror
    exact absurd (h.symm.trans herror) (by simp)
  · rename_i found hfound
    obtain rfl := Except.ok.inj (h.symm.trans hfound)
    rw [ProviderAdapter.new_eq_ok.mpr rfl]
    rfl

theorem padStore_eq {runtime : AtomVibeRuntime} {buildId : String}
    (hbuild : Scratchpad.validateBuildId buildId = .ok ())
    (hidentity : ¬(Text.isBlank (providerIdentity runtime.config) ∨
      8 * 1024 < (providerIdentity runtime.config).utf8ByteSize)) :
    ∃ store, runtime.padStore buildId = .ok store ∧ store.root = padRoot runtime ∧
      store.scope = ⟨buildId, sha256Tagged (asBytes (providerIdentity runtime.config))⟩ := by
  have hscope : ScratchpadScope.new buildId (providerIdentity runtime.config) =
      .ok ⟨buildId, sha256Tagged (asBytes (providerIdentity runtime.config))⟩ := by
    rw [ScratchpadScope.new, hbuild, ok_bind, (refuseIf_eq_ok (u := ())).mpr hidentity]
    rfl
  have hvalid := validate_of_new hscope
  refine ⟨⟨padRoot runtime, _, hvalid⟩, ?_, rfl, rfl⟩
  rw [padStore, hscope, ok_bind]
  exact storeOf_eq_ok.mpr ⟨rfl, rfl⟩

theorem create_new {buildId projectId operatorRequest : String} {provider : ProviderConfig}
    {now : UInt64} {sessions : Files}
    (hidentity : SessionStore.validateIdentity buildId projectId operatorRequest = .ok ())
    (hmodel : Text.isBlank provider.model = false)
    (hlossless : Lossless operatorRequest ∧ Lossless provider.model)
    (hfree : sessions.lookup (SessionStore.sessionName buildId) = none) :
    SessionStore.create buildId projectId operatorRequest provider now sessions =
      (.ok (SessionStore.newManifest buildId projectId operatorRequest provider now),
        sessions.insert (SessionStore.sessionName buildId) (SessionStore.manifestJson
          (SessionStore.newManifest buildId projectId operatorRequest provider now)).toByteArray) := by
  have hload := @SessionStore.load_new buildId projectId operatorRequest provider now sessions
    hidentity hmodel hlossless
  have hvalid := (@SessionStore.validateManifest_new buildId projectId operatorRequest provider
    now).mpr ⟨hidentity, hmodel⟩
  have hwrite : SessionStore.writeManifest
      (SessionStore.newManifest buildId projectId operatorRequest provider now) sessions =
      (.ok (SessionStore.newManifest buildId projectId operatorRequest provider now),
        sessions.insert (SessionStore.sessionName buildId) (SessionStore.manifestJson
          (SessionStore.newManifest buildId projectId operatorRequest provider now)).toByteArray) := by
    unfold SessionStore.writeManifest
    rw [show (SessionStore.newManifest buildId projectId operatorRequest provider now).buildId =
      buildId from rfl, hfree]
    simp only [hload, ok_bind, ne_eq, not_true_eq_false]
    rfl
  unfold SessionStore.create
  simp only [hidentity, hvalid, ok_bind]
  exact hwrite

section Start

variable {state : RuntimeState} {store : ScratchpadStore} {ledger : BuildLedger}
  {projectId operatorRequest : String} {clock : StartClock}

theorem observe_fresh {runtime : AtomVibeRuntime} {files : RuntimeFiles} {buildId : String}
    (hpad : runtime.padStore buildId = .ok store) (hfresh : files.pad store = freshFiles)
    (hadmitted : Admitted freshFiles [] operatorRequest ["operator:natural-language-request"])
    (hlossless : Lossless (redactSensitiveText operatorRequest)) (unixTimeMs : UInt64) :
    (∃ entry, Accepts store ((runtime.observe buildId operatorRequest unixTimeMs files).2.pad store)
        [entry] ∧ entry.content = redactSensitiveText operatorRequest) ∧
      ((runtime.observe buildId operatorRequest unixTimeMs files).2.pad store).sealFile = none ∧
      (runtime.observe buildId operatorRequest unixTimeMs files).2.planners = files.planners ∧
      Elsewhere store files (runtime.observe buildId operatorRequest unixTimeMs files).2 := by
  have haccepts := accepts_withScope (accepts_fresh store)
  have hopened : runtime.scratchpad buildId files =
      (.ok store, files.setPad store (withScope store freshFiles)) := by
    rw [scratchpad, hpad]
    simp only [hfresh, openPad_of_accepts (accepts_fresh store), Except.mapError]
  have hadmitted' : Admitted (withScope store freshFiles) [] operatorRequest
      ["operator:natural-language-request"] :=
    ⟨hadmitted.unsealed, hadmitted.count, hadmitted.bytes, hadmitted.content, hadmitted.sources⟩
  obtain ⟨entry, happend⟩ := (append_ok_iff haccepts unixTimeMs none .observation operatorRequest
    ["operator:natural-language-request"]).mpr ⟨hadmitted', hlossless⟩
  have hatomic : AppendAtomic store (withScope store freshFiles) [] unixTimeMs none .observation
      operatorRequest ["operator:natural-language-request"] :=
    appendAtomic_of_lossless haccepts unixTimeMs none .observation fun _ => hlossless
  obtain ⟨hload, hcontent⟩ := hatomic.accepted entry happend
  have hopen := append_open haccepts happend
  unfold observe
  simp only [hopened, RuntimeFiles.pad_setPad]
  refine ⟨⟨entry, ScratchpadChain.load_eq_ok.mp hload, hcontent⟩, hopen, rfl, ?_⟩
  exact (elsewhere_setPad files _).trans (elsewhere_setPad _ _)

theorem startBuild_passing
    (hnew : new projectId true 6 clock.now clock.pid clock.sequence = .ok ledger)
    (hfree : (state.runtime.coordinator.store.load ledger.buildId state.files.planners).1 =
      .error (.notFound ledger.buildId))
    (hsession : state.files.sessions.lookup (SessionStore.sessionName ledger.buildId) = none)
    (hidentity : SessionStore.validateIdentity ledger.buildId projectId operatorRequest = .ok ())
    (hmodel : Text.isBlank state.runtime.config.model = false)
    (hlossless : Lossless operatorRequest ∧ Lossless state.runtime.config.model)
    (hpad : state.runtime.padStore ledger.buildId = .ok store)
    (hfresh : state.files.pad store = freshFiles)
    (hadmitted : Admitted freshFiles [] operatorRequest ["operator:natural-language-request"])
    (hredacted : Lossless (redactSensitiveText operatorRequest))
    (hsize : (redactSensitiveText operatorRequest).utf8ByteSize ≤ 200) :
    Passing store .intake ledger (perform state (.startBuild projectId operatorRequest clock)).2 ∧
      ∀ other : ScratchpadStore, other.scopeDir ≠ store.scopeDir →
        (perform state (.startBuild projectId operatorRequest clock)).2.files.pad other =
          state.files.pad other := by
  have haligned := aligned_of_new hnew
  obtain ⟨-, hledger⟩ := new_eq_ok.mp hnew
  have hwrites : Writes state.runtime.coordinator.store state.files.planners ledger :=
    .inr ⟨hfree, by rw [hledger]; rfl⟩
  obtain ⟨_, -, hsave, -, -⟩ := @save_extends state.runtime.coordinator.store state.files.planners
    ledger haligned.valid hwrites ⟨storable_of_new hnew, by rw [hledger]; exact (by decide : (1 : UInt64).toNat < 10 ^ 6)⟩
  have hload := (load_of_saved haligned.valid hsave).1
  obtain ⟨changed, hkeeps, hstart⟩ := @BuildCoordinator.startPlanner_ok state.runtime.coordinator
    ledger state.files.planners _ hsave
  rw [← startBuild_of_new hnew] at hstart
  have hblank : Text.isBlank operatorRequest = false :=
    (SessionStore.validateIdentity_eq_ok.mp hidentity).2.2.1
  have hcreate := @create_new ledger.buildId projectId operatorRequest state.runtime.config
    clock.createdAt state.files.sessions hidentity hmodel hlossless hsession
  have hconfig : (state.runtime.started projectId clock state.files.planners).config =
      state.runtime.config := by rw [started, config, config]
  have hpad' : (state.runtime.started projectId clock state.files.planners).padStore ledger.buildId =
      .ok store := by
    have hroot : (state.runtime.started projectId clock state.files.planners).root =
      state.runtime.root := by rw [started]
    rw [padStore] at hpad ⊢
    rw [hconfig, hroot]
    exact hpad
  have hcoordinator : (state.runtime.started projectId clock state.files.planners).coordinator =
      changed := by
    dsimp only [started]
    rw [hstart]
  simp only [perform, AtomVibeRuntime.startBuild, hblank, Bool.false_eq_true, if_false, hstart,
    hconfig, hcreate]
  generalize hfiles : { state.files with
    planners := (state.runtime.coordinator.store.save ledger state.files.planners).2
    sessions := state.files.sessions.insert (SessionStore.sessionName ledger.buildId)
      (SessionStore.manifestJson (SessionStore.newManifest ledger.buildId projectId operatorRequest
        state.runtime.config clock.createdAt)).toByteArray : RuntimeFiles } = files
  have hfresh' : files.pad store = freshFiles := by
    rw [← hfiles]
    exact hfresh
  obtain ⟨⟨entry, haccepts, hcontent⟩, hopen, hplanners, helsewhere⟩ :=
    observe_fresh hpad' hfresh' hadmitted hredacted clock.appendedAt
  rw [hcontent.symm] at hsize
  refine ⟨⟨⟨?_, ?_, ?_, haligned, storable_of_new hnew, hpad', [entry], haccepts⟩, ?_, ?_, ?_, ?_, hopen,
    ?_⟩, ?_⟩
  · rw [helsewhere.sessions, ← hfiles]
    exact ⟨_, SessionStore.load_new hidentity hmodel hlossless⟩
  · simp only [hcoordinator]
    rw [hkeeps.planners, Catalog.lookup_insert, if_pos rfl]
  · have hsaved : files.planners =
        (state.runtime.coordinator.store.save ledger state.files.planners).2 := by rw [← hfiles]
    rw [LedgerChain.load_eq_ok] at hload ⊢
    rw [← hsaved, ← hplanners] at hload
    subst hfiles
    exact hload
  · rw [hledger]
    rfl
  · rw [hledger]
    rfl
  · rw [hledger]
    rfl
  · rw [hledger]
    rfl
  · intro entries hentries
    obtain rfl := ScratchpadRuns.Accepts.unique haccepts hentries
    refine ⟨le_rfl, ?_⟩
    rw [contentBytes, List.map_singleton, List.sum_singleton]
    exact hsize
  · intro other hother
    rw [helsewhere.pads other hother, ← hfiles]
    rfl

end Start

end AtomVibe.RuntimeProgress
