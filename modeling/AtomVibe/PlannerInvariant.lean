import AtomVibe.BuildPlanner

namespace AtomVibe.PlannerSteps

open Checked BuildProtocol GateModel GateEvaluation GateSpec PlannerModel BuildPlanner

variable {ledger : BuildLedger} {call : Call} {evidence : BuildGateEvidence}
  {errorClass : BuildErrorClass}

def Released (ledger : BuildLedger) (call : Call) : Prop :=
  ledger.status = .active ∧ call.input.step = ledger.currentStep

def gateOutcome (call : Call) : GateOutcome := evaluateGate call.fs call.checkedAt call.input

theorem gate_passed (h : gateOutcome call = .pass evidence) :
    ∃ root details, evaluateStep call.fs root call.input = .ok details := by
  obtain ⟨root, details, -, hstep, -⟩ := evaluateGate_pass.mp h
  exact ⟨root, details, hstep⟩

theorem launch_of_pass (h : gateOutcome call = .pass evidence)
    (hstep : call.input.step = .launchProof) : call.input.launch.isSome ∧
      call.input.deferredDebt = [] ∧ call.input.coupleMarkers = [] := by
  obtain ⟨root, details, h⟩ := gate_passed h
  rw [evaluateStep, hstep] at h
  exact (evaluateLaunch_ok h).2

theorem buildTest_of_pass (h : gateOutcome call = .pass evidence)
    (hstep : call.input.step = .buildTest) : call.input.requirements.isSome ∧
      call.input.deferredDebt = [] ∧ call.input.coupleMarkers = [] := by
  obtain ⟨root, details, h⟩ := gate_passed h
  rw [evaluateStep, hstep] at h
  exact (evaluateBuildTest_ok h).2

theorem crateCouple_of_pass (h : gateOutcome call = .pass evidence)
    (hstep : call.input.step = .crateCouple) : call.input.coupleMarkers = [] ∧
      (call.input.deferredDebt = [] ↔ ∀ wiring ∈ call.input.wirings, wiring.status = .pass) := by
  obtain ⟨root, details, h⟩ := gate_passed h
  rw [evaluateStep, hstep] at h
  exact (evaluateCrateCouple_ok h).2

theorem blueprint_of_pass (h : gateOutcome call = .pass evidence)
    (hstep : call.input.step ≠ .intake) : call.input.blueprint.isSome := by
  obtain ⟨root, details, h⟩ := gate_passed h
  rw [evaluateStep] at h
  cases hs : call.input.step with
  | intake => exact absurd hs hstep
  | blueprint => exact (evaluateBlueprint_ok (by simpa only [hs] using h)).2
  | crateBuild => exact evaluateCrateBuild_ok (by simpa only [hs] using h)
  | crateCouple => exact (evaluateCrateCouple_ok (by simpa only [hs] using h)).1
  | buildTest => exact (evaluateBuildTest_ok (by simpa only [hs] using h)).1
  | launchProof => exact (evaluateLaunch_ok (by simpa only [hs] using h)).1

theorem requirements_of_pass (h : gateOutcome call = .pass evidence)
    (hstep : call.input.step = .intake ∨ call.input.step = .blueprint) :
    call.input.requirements.isSome := by
  obtain ⟨root, details, h⟩ := gate_passed h
  rw [evaluateStep] at h
  rcases hstep with hs | hs
  · exact evaluateIntake_ok (by simpa only [hs] using h)
  · exact (evaluateBlueprint_ok (by simpa only [hs] using h)).1

theorem handlePass_of_pass (h : gateOutcome call = .pass evidence) (ledger : BuildLedger) :
    handlePass ledger call evidence =
      (.ok (.advance (.stepAdvanced ledger.buildId ledger.projectId call.input.step
        call.input.step.next (call.input.step.next.map (·.skillId)))),
        advance ledger call evidence) := by
  have hdebt : ¬((call.input.step = .buildTest ∨ call.input.step = .launchProof) ∧
      call.input.deferredDebt ≠ []) := by
    rintro ⟨hs | hs, hne⟩
    · exact hne (buildTest_of_pass h hs).2.1
    · exact hne (launch_of_pass h hs).2.1
  have hmarkers : ¬((call.input.step = .crateCouple ∨ call.input.step = .buildTest ∨
      call.input.step = .launchProof) ∧ call.input.coupleMarkers ≠ []) := by
    rintro ⟨hs | hs | hs, hne⟩
    · exact hne (crateCouple_of_pass h hs).1
    · exact hne (buildTest_of_pass h hs).2.2
    · exact hne (launch_of_pass h hs).2.2
  simp only [handlePass, hdebt, hmarkers, if_false]

theorem evaluateAndHandle_refused (h : ¬Released ledger call) :
    ∃ error, evaluateAndHandle ledger call = (.error error, ledger) := by
  unfold evaluateAndHandle
  split_ifs with hactive hstep
  · exact ⟨_, rfl⟩
  · exact ⟨_, rfl⟩
  · exact absurd ⟨not_not.mp hactive, not_not.mp hstep⟩ h

theorem evaluateAndHandle_released (h : Released ledger call) :
    evaluateAndHandle ledger call = match handleOutcome ledger call (gateOutcome call) with
      | (.error error, changed) => (.error error, changed)
      | (.ok decision, changed) => conclude decision (stamp changed call) := by
  unfold evaluateAndHandle
  rw [if_neg (not_not.mpr h.1), if_neg (not_not.mpr h.2)]
  rfl

theorem evaluateAndHandle_pass (h : Released ledger call)
    (hpass : gateOutcome call = .pass evidence) : ∃ event,
      evaluateAndHandle ledger call =
        conclude (.advance event) (stamp (advance ledger call evidence) call) := by
  rw [evaluateAndHandle_released h, hpass, handleOutcome, handlePass_of_pass hpass]
  exact ⟨_, rfl⟩

theorem evaluateAndHandle_fail (h : Released ledger call)
    (hfail : gateOutcome call = .fail errorClass evidence) :
    evaluateAndHandle ledger call =
      conclude (handleFail ledger call.input.step errorClass evidence).1
        (stamp (handleFail ledger call.input.step errorClass evidence).2 call) := by
  rw [evaluateAndHandle_released h, hfail]
  rfl

theorem evaluateAndHandle_cases (ledger : BuildLedger) (call : Call) :
    (¬Released ledger call ∧ ∃ error, evaluateAndHandle ledger call = (.error error, ledger)) ∨
      (Released ledger call ∧ ∃ evidence decision, gateOutcome call = .pass evidence ∧
        evaluateAndHandle ledger call =
          conclude decision (stamp (advance ledger call evidence) call)) ∨
      (Released ledger call ∧ ∃ errorClass evidence, gateOutcome call = .fail errorClass evidence ∧
        evaluateAndHandle ledger call =
          conclude (handleFail ledger call.input.step errorClass evidence).1
            (stamp (handleFail ledger call.input.step errorClass evidence).2 call)) := by
  by_cases h : Released ledger call
  · cases hgate : gateOutcome call with
    | pass evidence =>
      obtain ⟨event, hd⟩ := evaluateAndHandle_pass h hgate
      exact .inr (.inl ⟨h, evidence, .advance event, rfl, hd⟩)
    | fail errorClass evidence =>
      exact .inr (.inr ⟨h, errorClass, evidence, rfl, evaluateAndHandle_fail h hgate⟩)
    | deferred reason evidence => exact absurd hgate (evaluateGate_not_deferred _ _ _ _ _)
  · exact .inl ⟨h, evaluateAndHandle_refused h⟩

theorem conclude_eq_ok {decision decision' : BuildPlannerDecision} :
    (conclude decision ledger).1 = .ok decision' ↔ decision = decision' ∧ ledger.Valid := by
  rw [← BuildLedger.validate_eq_ok (u := ()), conclude]
  cases ledger.validate <;> simp [Except.map]

structure Kept (ledger changed : BuildLedger) : Prop where
  schemaVersion : changed.schemaVersion = ledger.schemaVersion
  buildId : changed.buildId = ledger.buildId
  projectId : changed.projectId = ledger.projectId
  autonomousCorrection : changed.autonomousCorrection = ledger.autonomousCorrection
  retryLimit : changed.retryLimit = ledger.retryLimit
  createdAt : changed.createdAtUnixMs = ledger.createdAtUnixMs

theorem Kept.trans {l l' l'' : BuildLedger} (h : Kept l l') (h' : Kept l' l'') : Kept l l'' :=
  ⟨h'.1.trans h.1, h'.2.trans h.2, h'.3.trans h.3, h'.4.trans h.4, h'.5.trans h.5, h'.6.trans h.6⟩

theorem kept_recordStepState (ledger : BuildLedger) (call : Call) :
    Kept ledger (recordStepState ledger call) := by
  unfold recordStepState
  cases call.input.step <;> exact ⟨rfl, rfl, rfl, rfl, rfl, rfl⟩

theorem kept_advance (ledger : BuildLedger) (call : Call) (evidence : BuildGateEvidence) :
    Kept ledger (advance ledger call evidence) := by
  refine (kept_recordStepState ledger call).trans ?_
  unfold advance
  cases call.input.step.next <;> exact ⟨rfl, rfl, rfl, rfl, rfl, rfl⟩

theorem kept_handleFail (ledger : BuildLedger) (step : BuildStep) (errorClass : BuildErrorClass)
    (evidence : BuildGateEvidence) : Kept ledger (handleFail ledger step errorClass evidence).2 := by
  unfold handleFail
  cases retryEligible ledger step errorClass <;> exact ⟨rfl, rfl, rfl, rfl, rfl, rfl⟩

theorem kept_stamp (ledger : BuildLedger) (call : Call) : Kept ledger (stamp ledger call) :=
  ⟨rfl, rfl, rfl, rfl, rfl, rfl⟩

theorem Kept.refl (ledger : BuildLedger) : Kept ledger ledger := ⟨rfl, rfl, rfl, rfl, rfl, rfl⟩

theorem kept_evaluateAndHandle (ledger : BuildLedger) (call : Call) :
    Kept ledger (evaluateAndHandle ledger call).2 := by
  rcases evaluateAndHandle_cases ledger call with ⟨-, error, he⟩ |
    ⟨-, evidence, decision, -, he⟩ | ⟨-, errorClass, evidence, -, he⟩
  · rw [he]
    exact .refl ledger
  · rw [he]
    exact (kept_advance ledger call evidence).trans (kept_stamp _ call)
  · rw [he]
    exact (kept_handleFail ledger _ errorClass evidence).trans (kept_stamp _ call)

section Advance

variable (ledger : BuildLedger) (call : Call) (evidence : BuildGateEvidence)

@[simp]
theorem stepOutputs_advance : (advance ledger call evidence).stepOutputs =
    ledger.stepOutputs ++ [passedOutput call.input.step evidence] := by
  unfold advance recordStepState
  cases call.input.step <;> rfl

@[simp]
theorem passedSteps_advance : (advance ledger call evidence).passedSteps =
    ledger.passedSteps ++ [call.input.step] := by
  simp [BuildLedger.passedSteps, passedOutput]

@[simp]
theorem status_advance : (advance ledger call evidence).status =
    if call.input.step = .launchProof then .complete else ledger.status := by
  unfold advance recordStepState
  cases call.input.step <;> rfl

@[simp]
theorem currentStep_advance : (advance ledger call evidence).currentStep =
    call.input.step.next.getD ledger.currentStep := by
  unfold advance recordStepState
  cases call.input.step <;> rfl

@[simp]
theorem retryLedger_advance : (advance ledger call evidence).retryLedger = ledger.retryLedger := by
  unfold advance recordStepState
  cases call.input.step <;> rfl

@[simp]
theorem revision_advance : (advance ledger call evidence).revision = ledger.revision := by
  unfold advance recordStepState
  cases call.input.step <;> rfl

theorem launchProof_advance (h : call.input.step = .launchProof) :
    (advance ledger call evidence).launchProof = call.input.launch := by
  unfold advance recordStepState
  rw [h]
  rfl

end Advance

section Fail

variable (ledger : BuildLedger) (step : BuildStep) (errorClass : BuildErrorClass)
  (evidence : BuildGateEvidence)

theorem handleFail_eq : (handleFail ledger step errorClass evidence).2 =
    if retryEligible ledger step errorClass then
      { ledger with
        retryLedger := ledger.retryLedger ++
          [retryRecord ledger step errorClass evidence "retry_requested"] }
    else
      { ledger with
        status := .halted
        retryLedger := ledger.retryLedger ++
          [retryRecord ledger step errorClass evidence "hard_halt"] } := by
  unfold handleFail
  split_ifs <;> rfl

end Fail

end AtomVibe.PlannerSteps

namespace AtomVibe.PlannerInvariant

open Checked Transition Text Hash BuildProtocol GateModel GateSpec PlannerModel BuildPlanner PlannerSteps

variable {ledger : BuildLedger} {call : Call}

structure Aligned (ledger : BuildLedger) : Prop where
  valid : ledger.Valid
  current : ledger.status = .active →
    BuildStep.all[ledger.stepOutputs.length]? = some ledger.currentStep

theorem new_eq_ok {projectId : String} {autonomousCorrection : Bool} {retryLimit : UInt8}
    {now : UInt64} {pid : UInt32} {sequence : UInt64} :
    new projectId autonomousCorrection retryLimit now pid sequence = .ok ledger ↔
      ledger.Valid ∧ ledger = freshLedger (newBuildId projectId now pid sequence) projectId
        autonomousCorrection retryLimit now := by
  simp only [new, bind_eq_ok, pure_eq_ok, BuildLedger.validate_eq_ok]
  constructor
  · rintro ⟨-, hvalid, rfl⟩
    exact ⟨hvalid, rfl⟩
  · rintro ⟨hvalid, rfl⟩
    exact ⟨(), hvalid, rfl⟩

theorem isSafeBuildId_newBuildId (projectId : String) (now : UInt64) (pid : UInt32)
    (sequence : UInt64) : isSafeBuildId (newBuildId projectId now pid sequence) = true := by
  rw [newBuildId]
  generalize asBytes _ = bytes
  have hhex : ∀ c ∈ (sha256Hex bytes).toList.take 24, isLowerHex c = true :=
    fun c hc => isLowerHex_sha256Hex (List.mem_of_mem_take hc)
  have hlength : ((sha256Hex bytes).toList.take 24).length ≤ 24 := List.length_take_le _ _
  generalize (sha256Hex bytes).toList.take 24 = short at hhex hlength
  have htext : ("build-" ++ String.ofList short).toList = "build-".toList ++ short := by simp
  have hsize : ("build-" ++ String.ofList short).utf8ByteSize ≤ 160 := by
    rw [String.utf8ByteSize_append, utf8ByteSize_eq (String.ofList short),
      String.toList_ofList (l := short), utf8Len_of_isLowerHex hhex]
    have h6 : "build-".utf8ByteSize = 6 := rfl
    omega
  have hsafe : ∀ c ∈ "build-".toList ++ short,
      (isAsciiLowercase c || isAsciiDigit c || c == '-') = true := by
    have hbuild : ∀ c ∈ "build-".toList,
        (isAsciiLowercase c || isAsciiDigit c || c == '-') = true :=
      List.all_eq_true.mp (by decide)
    intro c hc
    rcases List.mem_append.mp hc with hc | hc
    · exact hbuild c hc
    · have hlower := hhex c hc
      simp only [isLowerHex, Bool.or_eq_true, Bool.and_eq_true, decide_eq_true_eq] at hlower
      simp only [isAsciiLowercase, Bool.or_eq_true, Bool.and_eq_true, decide_eq_true_eq]
      rcases hlower with hdigit | ⟨ha, hf⟩
      · exact .inl (.inr hdigit)
      · exact .inl (.inl ⟨ha, hf.trans (by decide)⟩)
  have hinit : startsWith "build-" ("build-" ++ String.ofList short) = true := by
    rw [startsWith, htext]
    exact List.isPrefixOf_iff_prefix.mpr (List.prefix_append _ _)
  rw [isSafeBuildId, hinit, htext, List.all_eq_true.mpr hsafe, decide_eq_true hsize]
  rfl

theorem new_of_safe {projectId : String} {retryLimit : UInt8}
    (hproject : isSafeProjectId projectId = true) (hlimit : retryLimit ≠ 0 ∧ retryLimit ≤ 32)
    (autonomousCorrection : Bool) (now : UInt64) (pid : UInt32) (sequence : UInt64) :
    new projectId autonomousCorrection retryLimit now pid sequence =
      .ok (freshLedger (newBuildId projectId now pid sequence) projectId autonomousCorrection
        retryLimit now) :=
  new_eq_ok.mpr ⟨⟨rfl, by simp [freshLedger], isSafeBuildId_newBuildId _ _ _ _, hproject, hlimit,
    by simp [freshLedger], List.nil_prefix⟩, rfl⟩

theorem fromLedger_eq_ok {restored : BuildLedger} :
    fromLedger ledger = .ok restored ↔ ledger.Valid ∧ ledger = restored := by
  simp only [fromLedger, bind_eq_ok, pure_eq_ok, BuildLedger.validate_eq_ok, exists_const]

theorem all_next {n : ℕ} {step : BuildStep} (h : BuildStep.all[n]? = some step) :
    BuildStep.all[n + 1]? = step.next := by
  have hn : n < 6 := (List.getElem?_eq_some_iff.mp h).1
  interval_cases n <;> (obtain rfl := Option.some.inj h; rfl)

theorem ordinal_of_all {n : ℕ} {step : BuildStep} (h : BuildStep.all[n]? = some step) :
    step.ordinal.toNat = n + 1 := by
  have hn : n < 6 := (List.getElem?_eq_some_iff.mp h).1
  interval_cases n <;> (obtain rfl := Option.some.inj h; rfl)

theorem saturatingSucc_ne_zero (n : UInt64) (h : n ≠ 0) : saturatingSucc n ≠ 0 := by
  intro h0
  by_cases hn : n.toNat + 1 < UInt64.size
  · have hsucc := toNat_saturatingSucc hn
    rw [h0] at hsucc
    exact absurd hsucc (by simp)
  · rw [saturatingSucc, if_neg hn] at h0
    exact h h0

theorem Kept.valid {l l' : BuildLedger} (hkept : Kept l l') (h : l.Valid)
    (hrevision : l'.revision ≠ 0)
    (hcomplete : l'.status = .complete → l'.currentStep = .launchProof ∧ l'.launchProof.isSome ∧
      l'.passedSteps.getLast? = some .launchProof)
    (hpassed : l'.passedSteps <+: BuildStep.all) : l'.Valid where
  schema := hkept.schemaVersion.trans h.schema
  revision := hrevision
  buildId := hkept.buildId ▸ h.buildId
  projectId := hkept.projectId ▸ h.projectId
  retryLimit := hkept.retryLimit ▸ h.retryLimit
  complete := hcomplete
  passed := hpassed

theorem prefix_concat {α : Type} {xs ys : List α} {y : α} (h : xs <+: ys)
    (hy : ys[xs.length]? = some y) : xs ++ [y] <+: ys := by
  have hxs := List.prefix_iff_eq_take.mp h
  refine List.prefix_iff_eq_take.mpr ?_
  rw [List.length_append, List.length_singleton, List.take_add_one, hy, ← hxs]
  rfl

theorem aligned_advance {evidence : BuildGateEvidence} (h : Aligned ledger)
    (hreleased : Released ledger call) (hpass : gateOutcome call = .pass evidence) :
    Aligned (stamp (advance ledger call evidence) call) := by
  have hcurrent := h.current hreleased.1
  rw [← hreleased.2] at hcurrent
  have hlength : ledger.passedSteps.length = ledger.stepOutputs.length := List.length_map _
  refine ⟨Kept.valid ((kept_advance ledger call evidence).trans (kept_stamp _ call)) h.valid ?_ ?_ ?_,
    ?_⟩
  · simp only [stamp, revision_advance]
    exact saturatingSucc_ne_zero _ h.valid.revision
  · simp only [stamp, status_advance, currentStep_advance, hreleased.1]
    split_ifs with hlaunch
    · intro _
      refine ⟨?_, ?_, ?_⟩
      · rw [← hreleased.2, hlaunch]
        rfl
      · rw [launchProof_advance ledger call evidence hlaunch]
        exact (launch_of_pass hpass hlaunch).1
      · show (advance ledger call evidence).passedSteps.getLast? = _
        rw [passedSteps_advance, hlaunch, List.getLast?_concat]
    · simp
  · show (advance ledger call evidence).passedSteps <+: _
    rw [passedSteps_advance]
    exact prefix_concat h.valid.passed (hlength ▸ hcurrent)
  · simp only [stamp, status_advance, currentStep_advance, stepOutputs_advance, List.length_append,
      List.length_singleton, hreleased.1, all_next hcurrent]
    intro hactive
    cases hs : call.input.step <;> simp_all [BuildStep.next]

theorem aligned_handleFail {step : BuildStep} {errorClass : BuildErrorClass}
    {evidence : BuildGateEvidence} (h : Aligned ledger) (hactive : ledger.status = .active) :
    Aligned (stamp (handleFail ledger step errorClass evidence).2 call) := by
  have hnot : ledger.status ≠ .complete := by simp [hactive]
  refine ⟨Kept.valid ((kept_handleFail ledger step errorClass evidence).trans (kept_stamp _ call))
    h.valid (saturatingSucc_ne_zero _ ?_) ?_ ?_, ?_⟩
  all_goals simp only [handleFail_eq, stamp]
  all_goals split_ifs
  all_goals first
    | exact h.valid.revision
    | exact h.valid.passed
    | exact h.current
    | simp [hactive]

theorem aligned_evaluateAndHandle (h : Aligned ledger) (call : Call) :
    Aligned (evaluateAndHandle ledger call).2 := by
  rcases evaluateAndHandle_cases ledger call with ⟨-, error, he⟩ |
    ⟨hreleased, evidence, decision, hpass, he⟩ | ⟨hreleased, errorClass, evidence, -, he⟩
  · rw [he]
    exact h
  · rw [he]
    exact aligned_advance h hreleased hpass
  · rw [he]
    exact aligned_handleFail h hreleased.1

theorem accepted_iff (h : Aligned ledger) (call : Call) :
    (∃ decision, (evaluateAndHandle ledger call).1 = .ok decision) ↔ Released ledger call := by
  have halign := aligned_evaluateAndHandle h call
  rcases evaluateAndHandle_cases ledger call with ⟨hnot, error, he⟩ |
    ⟨hreleased, evidence, decision, -, he⟩ | ⟨hreleased, errorClass, evidence, -, he⟩
  · simp [he, hnot]
  · rw [he] at halign ⊢
    exact iff_of_true ⟨decision, conclude_eq_ok.mpr ⟨rfl, halign.valid⟩⟩ hreleased
  · rw [he] at halign ⊢
    exact iff_of_true ⟨_, conclude_eq_ok.mpr ⟨rfl, halign.valid⟩⟩ hreleased

abbrev Evaluation := Visit BuildLedger Call (Except BuildPlannerError BuildPlannerDecision)

def accepted (evaluation : Evaluation) : Bool := evaluation.output.isOk

theorem isOk_iff (h : Aligned ledger) (call : Call) :
    (evaluateAndHandle ledger call).1.isOk = true ↔ Released ledger call := by
  rw [← accepted_iff h call]
  cases (evaluateAndHandle ledger call).1 <;> simp [Except.isOk, Except.toBool]

theorem aligned_of_new {projectId : String} {autonomousCorrection : Bool} {retryLimit : UInt8}
    {now : UInt64} {pid : UInt32} {sequence : UInt64}
    (h : new projectId autonomousCorrection retryLimit now pid sequence = .ok ledger) :
    Aligned ledger := by
  obtain ⟨hvalid, rfl⟩ := new_eq_ok.mp h
  exact ⟨hvalid, fun _ => rfl⟩

def demoLedger : BuildLedger := freshLedger (newBuildId "demo" 0 1 1) "demo" true 2 0

theorem new_demoLedger : new "demo" true 2 0 1 1 = .ok demoLedger :=
  new_of_safe (by decide) (by decide) true 0 1 1

def sampleCall (input : GateInput) : Call := ⟨input, sampleFs, 0, fun _ => 0, 0⟩

def passingCall (step : BuildStep) : Call := sampleCall (sampleInput 1 step)

theorem step_passingCall (step : BuildStep) : (passingCall step).input.step = step := by
  cases step <;> rfl

theorem gateOutcome_passingCall (step : BuildStep) :
    ∃ evidence, gateOutcome (passingCall step) = .pass evidence :=
  evaluateGate_sampleInput (by decide) step 0

end AtomVibe.PlannerInvariant
