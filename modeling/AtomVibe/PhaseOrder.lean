import AtomVibe.BoundedRetries

namespace AtomVibe.PassingRuns

open Transition BuildProtocol GateModel PlannerModel BuildPlanner PlannerSteps PlannerInvariant

variable {ledger : BuildLedger} {call : Call} {past : List Evaluation}

instance (ledger : BuildLedger) (call : Call) : Decidable (Released ledger call) :=
  inferInstanceAs (Decidable (_ ∧ _))

def passes (evaluation : Evaluation) : Bool :=
  decide (Released evaluation.before evaluation.input) && (gateOutcome evaluation.input).isPass

def passedInputs (past : List Evaluation) : List GateInput :=
  (past.filter passes).map fun evaluation => evaluation.input.input

theorem passes_iff {evaluation : Evaluation} : passes evaluation = true ↔
    Released evaluation.before evaluation.input ∧
      ∃ evidence, gateOutcome evaluation.input = .pass evidence := by
  rw [passes, Bool.and_eq_true, decide_eq_true_eq]
  cases gateOutcome evaluation.input <;> simp [GateOutcome.isPass]

theorem passedInputs_concat (past : List Evaluation) (evaluation : Evaluation) :
    passedInputs (past ++ [evaluation]) =
      passedInputs past ++ if passes evaluation then [evaluation.input.input] else [] := by
  rw [passedInputs, List.filter_append, List.map_append, List.filter_cons, List.filter_nil]
  split_ifs <;> rfl

theorem mem_passedInputs {evaluation : Evaluation} (h : evaluation ∈ past)
    (hpasses : passes evaluation = true) : evaluation.input.input ∈ passedInputs past :=
  List.mem_map_of_mem (List.mem_filter.mpr ⟨h, hpasses⟩)

structure PassedInOrder (past : List Evaluation) (ledger : BuildLedger) : Prop where
  aligned : Aligned ledger
  steps : (passedInputs past).map (·.step) = ledger.passedSteps

namespace PassedInOrder

theorem length (h : PassedInOrder past ledger) :
    (passedInputs past).length = ledger.stepOutputs.length := by
  have hlength := congrArg List.length h.steps
  rwa [List.length_map, BuildLedger.passedSteps, List.length_map] at hlength

theorem step_at (h : PassedInOrder past ledger) {n : ℕ} {input : GateInput}
    (hn : (passedInputs past)[n]? = some input) : BuildStep.all[n]? = some input.step := by
  obtain ⟨rest, hrest⟩ := h.aligned.valid.passed
  have hlt := (List.getElem?_eq_some_iff.mp hn).1
  rw [← hrest, ← h.steps, List.getElem?_append_left (by simpa using hlt), List.getElem?_map, hn]
  rfl

theorem exists_at (h : PassedInOrder past ledger) {n : ℕ} (hn : n < (passedInputs past).length) :
    ∃ evaluation ∈ past, passes evaluation = true ∧
      (passedInputs past)[n]? = some evaluation.input.input ∧
        BuildStep.all[n]? = some evaluation.input.input.step := by
  have hget : (passedInputs past)[n]? = some (passedInputs past)[n] := List.getElem?_eq_getElem hn
  obtain ⟨evaluation, hmem, he⟩ := List.mem_map.mp (List.mem_of_getElem? hget)
  obtain ⟨hpast, hpasses⟩ := List.mem_filter.mp hmem
  rw [← he] at hget
  exact ⟨evaluation, hpast, hpasses, hget, h.step_at hget⟩

theorem input_at (h : PassedInOrder past ledger) {evaluation : Evaluation}
    (hmem : evaluation ∈ past) (hpasses : passes evaluation = true) :
    (passedInputs past)[evaluation.input.input.step.ordinal.toNat - 1]? =
      some evaluation.input.input := by
  obtain ⟨i, hi⟩ := List.mem_iff_getElem?.mp (mem_passedInputs hmem hpasses)
  have hstep := h.step_at hi
  rw [ordinal_of_all hstep, Nat.add_sub_cancel]
  exact hi

theorem ordinal_released (h : PassedInOrder past ledger) (hreleased : Released ledger call) :
    call.input.step.ordinal.toNat = (passedInputs past).length + 1 := by
  have hcurrent := h.aligned.current hreleased.1
  rw [← h.length, ← hreleased.2] at hcurrent
  exact ordinal_of_all hcurrent

end PassedInOrder

theorem evaluation_cases (ledger : BuildLedger) (call : Call) :
    (passes (visit evaluateAndHandle ledger call) = false ∧
        (evaluateAndHandle ledger call).2 = ledger) ∨
      (Released ledger call ∧ passes (visit evaluateAndHandle ledger call) = true ∧
        ∃ evidence, gateOutcome call = .pass evidence ∧ (evaluateAndHandle ledger call).2 =
          stamp (advance ledger call evidence) call) ∨
      (passes (visit evaluateAndHandle ledger call) = false ∧ ∃ errorClass evidence,
        (evaluateAndHandle ledger call).2 =
          stamp (handleFail ledger call.input.step errorClass evidence).2 call) := by
  have hpasses := @passes_iff (visit evaluateAndHandle ledger call)
  rcases evaluateAndHandle_cases ledger call with ⟨hnot, error, he⟩ |
    ⟨hreleased, evidence, decision, hpass, he⟩ | ⟨-, errorClass, evidence, hfail, he⟩
  · exact .inl ⟨Bool.eq_false_iff.mpr fun h => hnot (hpasses.mp h).1, by rw [he]⟩
  · exact .inr (.inl ⟨hreleased, hpasses.mpr ⟨hreleased, evidence, hpass⟩, evidence, hpass,
      by rw [he]; rfl⟩)
  · refine .inr (.inr ⟨Bool.eq_false_iff.mpr fun h => ?_, errorClass, evidence, by rw [he]; rfl⟩)
    obtain ⟨-, evidence', hpass⟩ := hpasses.mp h
    exact absurd (hfail.symm.trans hpass) (by simp)

theorem passedInOrder_step (h : PassedInOrder past ledger) (call : Call) :
    PassedInOrder (past ++ [visit evaluateAndHandle ledger call])
      (evaluateAndHandle ledger call).2 := by
  refine ⟨aligned_evaluateAndHandle h.aligned call, ?_⟩
  rw [passedInputs_concat, List.map_append, h.steps]
  rcases evaluation_cases ledger call with ⟨hp, he⟩ | ⟨-, hp, evidence, -, he⟩ |
    ⟨hp, errorClass, evidence, he⟩
  · simp [hp, he]
  · rw [he, hp]
    exact (passedSteps_advance ledger call evidence).symm
  · simp only [he, hp, Bool.false_eq_true, if_false, List.map_nil, List.append_nil, handleFail_eq]
    split_ifs <;> rfl

theorem passedInOrder_of_new {projectId : String} {autonomousCorrection : Bool}
    {retryLimit : UInt8} {now : UInt64} {pid : UInt32} {sequence : UInt64}
    (h : new projectId autonomousCorrection retryLimit now pid sequence = .ok ledger) :
    PassedInOrder [] ledger :=
  ⟨aligned_of_new h, by rw [(new_eq_ok.mp h).2]; rfl⟩

def stepsFrom (step : BuildStep) : List BuildStep := BuildStep.all.drop (step.ordinal.toNat - 1)

theorem stepsFrom_eq (step : BuildStep) :
    stepsFrom step = step :: (step.next.map stepsFrom).getD [] := by
  cases step <;> rfl

theorem passing_run {calls : List Call} (hactive : ledger.status = .active)
    (hsteps : calls.map (·.input.step) <+: stepsFrom ledger.currentStep)
    (hgates : ∀ call ∈ calls, ∃ evidence, gateOutcome call = .pass evidence) :
    (∀ evaluation ∈ trace evaluateAndHandle ledger calls, passes evaluation = true) ∧
      (final evaluateAndHandle ledger calls).passedSteps =
        ledger.passedSteps ++ calls.map (·.input.step) ∧
      (calls.map (·.input.step) = stepsFrom ledger.currentStep →
        (final evaluateAndHandle ledger calls).status = .complete) := by
  induction calls generalizing ledger with
  | nil => simp [trace, final, stepsFrom_eq]
  | cons call calls ih =>
    rw [List.map_cons, stepsFrom_eq, List.cons_prefix_cons] at hsteps
    obtain ⟨hcurrent, hrest⟩ := hsteps
    obtain ⟨evidence, hpass⟩ := hgates call List.mem_cons_self
    obtain ⟨decision, he⟩ := evaluateAndHandle_pass ⟨hactive, hcurrent⟩ hpass
    have hafter : (evaluateAndHandle ledger call).2 =
        stamp (advance ledger call evidence) call := by rw [he]; rfl
    have hpasses : passes (visit evaluateAndHandle ledger call) = true :=
      passes_iff.mpr ⟨⟨hactive, hcurrent⟩, evidence, hpass⟩
    have hpassed : (evaluateAndHandle ledger call).2.passedSteps =
        ledger.passedSteps ++ [call.input.step] := by
      rw [hafter]
      exact passedSteps_advance ledger call evidence
    have hstatus : (evaluateAndHandle ledger call).2.status =
        if call.input.step = .launchProof then .complete else .active := by
      rw [hafter]
      exact (status_advance ledger call evidence).trans (by rw [hactive])
    have hnext : (evaluateAndHandle ledger call).2.currentStep =
        call.input.step.next.getD ledger.currentStep := by
      rw [hafter]
      exact currentStep_advance ledger call evidence
    rw [← hcurrent] at hrest
    rw [List.map_cons, stepsFrom_eq, ← hcurrent, List.cons_inj_right, trace, final,
      List.forall_mem_cons]
    cases hn : call.input.step.next with
    | none =>
      rw [hn] at hrest
      obtain rfl : calls = [] := List.map_eq_nil_iff.mp (List.prefix_nil.mp hrest)
      have hlaunch : call.input.step = .launchProof := by
        cases hs : call.input.step <;> simp [hs, BuildStep.next] at hn ⊢
      rw [if_pos hlaunch] at hstatus
      exact ⟨⟨hpasses, by simp [trace]⟩, hpassed, fun _ => hstatus⟩
    | some next =>
      have hlaunch : call.input.step ≠ .launchProof := by
        intro hs
        rw [hs] at hn
        exact absurd hn (by simp [BuildStep.next])
      rw [if_neg hlaunch] at hstatus
      rw [hn] at hrest hnext
      obtain ⟨hall, hsteps, hcomplete⟩ := ih hstatus (by rw [hnext]; exact hrest)
        fun c hc => hgates c (List.mem_cons_of_mem _ hc)
      rw [hnext] at hcomplete
      rw [hpassed, List.append_assoc] at hsteps
      exact ⟨⟨hpasses, hall⟩, hsteps, hcomplete⟩

theorem passedInputs_of_passes (h : ∀ evaluation ∈ past, passes evaluation = true) :
    passedInputs past = (past.map (·.input)).map (·.input) := by
  rw [passedInputs, List.filter_eq_self.mpr h, List.map_map]
  rfl

end AtomVibe.PassingRuns

namespace AtomVibe.PhaseOrder

open Transition BuildProtocol PlannerModel PlannerModel.BuildLedger BuildPlanner PlannerSteps
  PlannerInvariant BoundedRetries PassingRuns

variable {ledger : BuildLedger} {call : Call}

structure InOrder (ledger : BuildLedger) : Prop where
  passed : ledger.passedSteps = BuildStep.all.take ledger.stepOutputs.length
  current : ledger.status = .active →
    BuildStep.all[ledger.stepOutputs.length]? = some ledger.currentStep
  complete : ledger.status = .complete ↔
    ledger.passedSteps = BuildStep.all ∧ ledger.launchProof.isSome

structure CountedOnce (evaluation : Evaluation) : Prop where
  revision : accepted evaluation = true →
    evaluation.after.revision.toNat = evaluation.before.revision.toNat + 1
  active : evaluation.before.status ≠ .active → accepted evaluation = false

theorem inOrder_of_invariants (haligned : Aligned ledger) (hbounded : Bounded ledger) :
    InOrder ledger where
  passed := by
    have h := List.prefix_iff_eq_take.mp haligned.valid.passed
    rwa [show ledger.passedSteps.length = ledger.stepOutputs.length from List.length_map _] at h
  current := haligned.current
  complete := by
    constructor
    · intro h
      exact ⟨haligned.valid.passedSteps_of_complete h, (haligned.valid.complete h).2.1⟩
    · rintro ⟨hall, -⟩
      by_contra hne
      have hlength := congrArg List.length hall
      rw [passedSteps, List.length_map] at hlength
      have hlt := hbounded.unfinished hne
      rw [hlength] at hlt
      exact absurd hlt (by decide)

theorem revision_of_released (haligned : Aligned ledger) (hbounded : Bounded ledger)
    (h : Released ledger call) :
    (evaluateAndHandle ledger call).2.revision.toNat = ledger.revision.toNat + 1 := by
  rw [← revision_stamp hbounded haligned]
  rcases evaluateAndHandle_cases ledger call with ⟨hnot, -⟩ |
    ⟨-, evidence, decision, -, he⟩ | ⟨-, errorClass, evidence, -, he⟩
  · exact absurd h hnot
  · rw [he]
    simp only [conclude, stamp, revision_advance]
  · rw [he]
    simp only [conclude, stamp, handleFail_eq]
    split_ifs <;> rfl

theorem countedOnce_visit (haligned : Aligned ledger) (hbounded : Bounded ledger) (call : Call) :
    CountedOnce (visit evaluateAndHandle ledger call) where
  revision h := revision_of_released haligned hbounded ((isOk_iff haligned call).mp h)
  active h := by
    refine Bool.eq_false_iff.mpr fun hok => ?_
    exact h ((isOk_iff haligned call).mp hok).1

theorem complete_of_active (hactive : ledger.status = .active) :
    let calls := (stepsFrom ledger.currentStep).map passingCall
    (final evaluateAndHandle ledger calls).status = .complete ∧
      (final evaluateAndHandle ledger calls).passedSteps =
        ledger.passedSteps ++ stepsFrom ledger.currentStep := by
  intro calls
  have hsteps : calls.map (·.input.step) = stepsFrom ledger.currentStep := by
    rw [List.map_map]
    exact (List.map_congr_left fun step _ => step_passingCall step).trans (List.map_id _)
  have hgates : ∀ call ∈ calls, ∃ evidence, gateOutcome call = .pass evidence := by
    intro call hcall
    obtain ⟨step, -, rfl⟩ := List.mem_map.mp hcall
    exact gateOutcome_passingCall step
  obtain ⟨-, hpassed, hcomplete⟩ := passing_run hactive (hsteps ▸ List.prefix_refl _) hgates
  exact ⟨hcomplete hsteps, by rw [hpassed, hsteps]⟩

theorem valid_of_accepted (h : (evaluateAndHandle ledger call).1.isOk = true) :
    (evaluateAndHandle ledger call).2.Valid := by
  have hconclude : ∀ {decision changed}, (conclude decision changed).1.isOk = true →
      changed.Valid := by
    intro decision changed hok
    cases hv : (conclude decision changed).1 with
    | error error => rw [hv] at hok; simp [Except.isOk, Except.toBool] at hok
    | ok decision' => exact (conclude_eq_ok.mp hv).2
  rcases evaluateAndHandle_cases ledger call with ⟨-, error, he⟩ |
    ⟨-, evidence, decision, -, he⟩ | ⟨-, errorClass, evidence, -, he⟩
  · rw [he] at h
    simp [Except.isOk, Except.toBool] at h
  · rw [he] at h ⊢
    exact hconclude h
  · rw [he] at h ⊢
    exact hconclude h

theorem complete_iff_current (hvalid : ledger.Valid) :
    (∀ calls, (final evaluateAndHandle ledger calls).status = .complete →
        (final evaluateAndHandle ledger calls).passedSteps = BuildStep.all) ↔
      (ledger.status = .active →
        BuildStep.all[ledger.stepOutputs.length]? = some ledger.currentStep) := by
  constructor
  · intro h hactive
    obtain ⟨hcomplete, hpassed⟩ := complete_of_active hactive
    have hall := h _ hcomplete
    have hlength : ledger.passedSteps.length = ledger.stepOutputs.length := List.length_map _
    rw [hpassed] at hall
    rw [← hall, List.getElem?_append_right hlength.le, hlength, Nat.sub_self, stepsFrom_eq]
    rfl
  · intro hcurrent calls hcomplete
    have haligned : Aligned (final evaluateAndHandle ledger calls) :=
      invariant Aligned ⟨hvalid, hcurrent⟩ (fun l c h => aligned_evaluateAndHandle h c) calls
    exact haligned.valid.passedSteps_of_complete hcomplete

theorem valid_of_all_accepted (hvalid : ledger.Valid) (calls : List Call)
    (h : ∀ evaluation ∈ trace evaluateAndHandle ledger calls, accepted evaluation = true) :
    (final evaluateAndHandle ledger calls).Valid := by
  induction calls using List.reverseRecOn with
  | nil => exact hvalid
  | append_singleton calls call ih =>
    rw [trace_concat] at h
    rw [final_concat]
    exact valid_of_accepted (h _ (List.mem_append_right _ List.mem_cons_self))

/-- A new planner keeps the order of the phases through every run. A restored one completes in
order exactly when its ledger, if active, releases the step after those passed; otherwise its
validation refuses every further pass, but only after the ledger has been changed. -/
theorem phases_in_order_iff (ledger : BuildLedger) :
    (∀ projectId autonomousCorrection retryLimit now pid sequence,
      new projectId autonomousCorrection retryLimit now pid sequence = .ok ledger →
      ∀ calls, InOrder (final evaluateAndHandle ledger calls) ∧
        ∀ evaluation ∈ trace evaluateAndHandle ledger calls, CountedOnce evaluation) ∧
    (∀ restored, fromLedger ledger = .ok restored →
      ((∀ calls, (final evaluateAndHandle restored calls).status = .complete →
          (final evaluateAndHandle restored calls).passedSteps = BuildStep.all) ↔
        (ledger.status = .active →
          BuildStep.all[ledger.stepOutputs.length]? = some ledger.currentStep)) ∧
      ∀ calls, (∀ evaluation ∈ trace evaluateAndHandle restored calls, accepted evaluation = true) →
        (final evaluateAndHandle restored calls).status = .complete →
          (final evaluateAndHandle restored calls).passedSteps = BuildStep.all) := by
  refine ⟨?_, ?_⟩
  · intro projectId autonomousCorrection retryLimit now pid sequence h calls
    have hrun := runBounded h calls
    refine ⟨inOrder_of_invariants hrun.aligned hrun.bounded, ?_⟩
    have hstart : Aligned ledger ∧ Bounded ledger :=
      ⟨(runBounded h []).aligned, (runBounded h []).bounded⟩
    have hvisits := visits (fun ledger => Aligned ledger ∧ Bounded ledger) hstart
      (fun ledger call h => ⟨aligned_evaluateAndHandle h.1 call,
        bounded_evaluateAndHandle h.2 h.1 call⟩) calls
    intro evaluation hevaluation
    obtain ⟨hvisit, hbefore, -⟩ := hvisits evaluation hevaluation
    rw [hvisit]
    exact countedOnce_visit hbefore.1 hbefore.2 evaluation.input
  · intro restored h
    obtain ⟨hvalid, rfl⟩ := fromLedger_eq_ok.mp h
    refine ⟨complete_iff_current hvalid, fun calls haccepted hcomplete => ?_⟩
    exact (valid_of_all_accepted hvalid calls haccepted).passedSteps_of_complete hcomplete

theorem phases_in_order_iff_demo :
    InOrder (final evaluateAndHandle demoLedger [passingCall .intake, passingCall .blueprint]) ∧
      ((∀ calls, (final evaluateAndHandle demoLedger calls).status = .complete →
          (final evaluateAndHandle demoLedger calls).passedSteps = BuildStep.all) ↔
        (demoLedger.status = .active →
          BuildStep.all[demoLedger.stepOutputs.length]? = some demoLedger.currentStep)) :=
  ⟨((phases_in_order_iff demoLedger).1 _ _ _ _ _ _ new_demoLedger _).1,
    ((phases_in_order_iff demoLedger).2 demoLedger
      (fromLedger_eq_ok.mpr ⟨(new_eq_ok.mp new_demoLedger).1, rfl⟩)).1⟩

def skippedLedger : BuildLedger := { demoLedger with currentStep := .launchProof }

theorem phases_out_of_order : fromLedger skippedLedger = .ok skippedLedger ∧
    (final evaluateAndHandle skippedLedger [passingCall .launchProof]).status = .complete ∧
    (final evaluateAndHandle skippedLedger [passingCall .launchProof]).passedSteps =
      [.launchProof] := by
  have hvalid := (new_eq_ok.mp new_demoLedger).1
  refine ⟨fromLedger_eq_ok.mpr ⟨⟨hvalid.schema, hvalid.revision, hvalid.buildId, hvalid.projectId,
    hvalid.retryLimit, by simp [skippedLedger, demoLedger, freshLedger], hvalid.passed⟩, rfl⟩, ?_⟩
  exact complete_of_active (show skippedLedger.status = .active from rfl)

end AtomVibe.PhaseOrder
