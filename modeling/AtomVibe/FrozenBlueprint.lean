import AtomVibe.PhaseOrder

namespace AtomVibe.FrozenBlueprint

open Transition BuildProtocol GateModel GateSpec PlannerModel BuildPlanner PlannerSteps
  PlannerInvariant PassingRuns

variable {ledger : BuildLedger} {call : Call} {past : List Evaluation}

def readsRequirements (step : BuildStep) : Prop :=
  step = .intake ∨ step = .blueprint ∨ step = .buildTest

def readsBlueprint (step : BuildStep) : Prop := step ≠ .intake

def AgainstFrozen (evaluation : Evaluation) : Prop :=
  let input := evaluation.input.input
  (input.step ≠ .intake → input.step ≠ .blueprint →
    input.blueprint.isSome ∧ input.blueprint = evaluation.before.blueprintVersions.getLast?) ∧
  (input.step = .blueprint ∨ input.step = .buildTest →
    input.requirements.isSome ∧ input.requirements = evaluation.before.requirements)

def SameRecords (first second : Evaluation) : Prop :=
  let left := first.input.input
  let right := second.input.input
  (readsRequirements left.step → readsRequirements right.step →
    left.requirements = right.requirements) ∧
  (readsBlueprint left.step → readsBlueprint right.step → left.blueprint = right.blueprint)

theorem requirements_advance (ledger : BuildLedger) (call : Call) (evidence : BuildGateEvidence) :
    (advance ledger call evidence).requirements =
      if call.input.step = .intake then call.input.requirements else ledger.requirements := by
  unfold advance recordStepState
  cases call.input.step <;> rfl

theorem blueprintVersions_advance (ledger : BuildLedger) (call : Call)
    (evidence : BuildGateEvidence) : (advance ledger call evidence).blueprintVersions =
      ledger.blueprintVersions ++
        if call.input.step = .blueprint then call.input.blueprint.toList else [] := by
  unfold advance recordStepState
  cases call.input.step <;> first | rfl | exact (List.append_nil _).symm

theorem frozen_handleFail (ledger : BuildLedger) (step : BuildStep) (errorClass : BuildErrorClass)
    (evidence : BuildGateEvidence) :
    (handleFail ledger step errorClass evidence).2.requirements = ledger.requirements ∧
      (handleFail ledger step errorClass evidence).2.blueprintVersions =
        ledger.blueprintVersions := by
  rw [handleFail_eq]
  split_ifs <;> exact ⟨rfl, rfl⟩

/-- The ledger holds the requirements of the first passing input and the blueprint of the second,
and it held them at every later passing evaluation. -/
structure Frozen (past : List Evaluation) (ledger : BuildLedger) : Prop where
  order : PassedInOrder past ledger
  requirements : ledger.requirements = (passedInputs past)[0]?.bind (·.requirements)
  blueprint : ledger.blueprintVersions = ((passedInputs past)[1]?.bind (·.blueprint)).toList
  seen : ∀ evaluation ∈ past, passes evaluation = true →
    (evaluation.input.input.step ≠ .intake → evaluation.before.requirements =
      (passedInputs past)[0]?.bind (·.requirements)) ∧
    (evaluation.input.input.step ≠ .intake → evaluation.input.input.step ≠ .blueprint →
      evaluation.before.blueprintVersions =
        ((passedInputs past)[1]?.bind (·.blueprint)).toList)

theorem ordinal_cases (step : BuildStep) :
    (step = .intake ↔ step.ordinal.toNat = 1) ∧ (step = .blueprint ↔ step.ordinal.toNat = 2) := by
  cases step <;> decide

theorem one_lt_ordinal {step : BuildStep} (h : step ≠ .intake) : 1 < step.ordinal.toNat := by
  cases step <;> first | exact absurd rfl h | decide

theorem two_lt_ordinal {step : BuildStep} (h1 : step ≠ .intake) (h2 : step ≠ .blueprint) :
    2 < step.ordinal.toNat := by
  cases step <;> first | exact absurd rfl h1 | exact absurd rfl h2 | decide

theorem frozen_pass {evidence : BuildGateEvidence} (h : Frozen past ledger)
    (hreleased : Released ledger call)
    (hpasses : passes (visit evaluateAndHandle ledger call) = true)
    (he : (evaluateAndHandle ledger call).2 = stamp (advance ledger call evidence) call) :
    Frozen (past ++ [visit evaluateAndHandle ledger call]) (evaluateAndHandle ledger call).2 := by
  have hordinal := h.order.ordinal_released hreleased
  have hcases := ordinal_cases call.input.step
  rw [hordinal] at hcases
  have hinputs : passedInputs (past ++ [visit evaluateAndHandle ledger call]) =
      passedInputs past ++ [call.input] := by
    rw [passedInputs_concat, if_pos hpasses]
    rfl
  refine ⟨passedInOrder_step h.order call, ?_, ?_, ?_⟩
  · rw [hinputs, he]
    refine (requirements_advance ledger call evidence).trans ?_
    by_cases hfirst : call.input.step = .intake
    · have hlength := hcases.1.mp hfirst
      rw [if_pos hfirst, List.getElem?_append_right (by omega),
        show 0 - (passedInputs past).length = 0 by omega]
      rfl
    · have hlength : (passedInputs past).length + 1 ≠ 1 := fun hl => hfirst (hcases.1.mpr hl)
      rw [if_neg hfirst, h.requirements, List.getElem?_append_left (by omega)]
  · rw [hinputs, he]
    refine (blueprintVersions_advance ledger call evidence).trans ?_
    rw [h.blueprint]
    by_cases hsecond : call.input.step = .blueprint
    · have hlength := hcases.2.mp hsecond
      rw [if_pos hsecond, List.getElem?_append_right (by omega),
        List.getElem?_eq_none (by omega), show 1 - (passedInputs past).length = 0 by omega]
      rfl
    · have hlength : (passedInputs past).length + 1 ≠ 2 := fun hl => hsecond (hcases.2.mpr hl)
      rw [if_neg hsecond, List.append_nil]
      rcases Nat.lt_or_ge 1 (passedInputs past).length with hlt | hge
      · rw [List.getElem?_append_left hlt]
      · have hnone : (passedInputs past ++ [call.input]).length ≤ 1 := by
          rw [List.length_append, List.length_singleton]
          omega
        rw [List.getElem?_eq_none hge, List.getElem?_eq_none hnone]
  · intro evaluation hmem hp
    rw [hinputs]
    rcases List.mem_append.mp hmem with hmem | hmem
    · have hat := (List.getElem?_eq_some_iff.mp (h.order.input_at hmem hp)).1
      obtain ⟨hrequirements, hblueprint⟩ := h.seen evaluation hmem hp
      refine ⟨fun h1 => ?_, fun h1 h2 => ?_⟩
      · have hlt := one_lt_ordinal h1
        rw [List.getElem?_append_left (by omega)]
        exact hrequirements h1
      · have hlt := two_lt_ordinal h1 h2
        rw [List.getElem?_append_left (by omega)]
        exact hblueprint h1 h2
    · rw [List.mem_singleton.mp hmem]
      refine ⟨fun h1 => ?_, fun h1 h2 => ?_⟩
      · have hlt : 1 < call.input.step.ordinal.toNat := one_lt_ordinal h1
        rw [List.getElem?_append_left (by omega)]
        exact h.requirements
      · have hlt : 2 < call.input.step.ordinal.toNat := two_lt_ordinal h1 h2
        rw [List.getElem?_append_left (by omega)]
        exact h.blueprint

theorem frozen_step (h : Frozen past ledger) (call : Call) :
    Frozen (past ++ [visit evaluateAndHandle ledger call]) (evaluateAndHandle ledger call).2 := by
  have hunchanged : passes (visit evaluateAndHandle ledger call) = false →
      (evaluateAndHandle ledger call).2.requirements = ledger.requirements →
      (evaluateAndHandle ledger call).2.blueprintVersions = ledger.blueprintVersions →
      Frozen (past ++ [visit evaluateAndHandle ledger call]) (evaluateAndHandle ledger call).2 := by
    intro hp hrequirements hblueprint
    have hinputs : passedInputs (past ++ [visit evaluateAndHandle ledger call]) =
        passedInputs past := by
      rw [passedInputs_concat, hp]
      exact List.append_nil _
    refine ⟨passedInOrder_step h.order call, ?_, ?_, fun evaluation hmem hpasses => ?_⟩
    · rw [hinputs, hrequirements, h.requirements]
    · rw [hinputs, hblueprint, h.blueprint]
    · rw [hinputs]
      rcases List.mem_append.mp hmem with hmem | hmem
      · exact h.seen evaluation hmem hpasses
      · rw [List.mem_singleton.mp hmem, hp] at hpasses
        exact absurd hpasses (by simp)
  rcases evaluation_cases ledger call with ⟨hp, he⟩ | ⟨hreleased, hp, evidence, -, he⟩ |
    ⟨hp, errorClass, evidence, he⟩
  · exact hunchanged hp (by rw [he]) (by rw [he])
  · exact frozen_pass h hreleased hp he
  · have hfail := frozen_handleFail ledger call.input.step errorClass evidence
    exact hunchanged hp (by rw [he]; exact hfail.1) (by rw [he]; exact hfail.2)

theorem frozen_run {projectId : String} {autonomousCorrection : Bool} {retryLimit : UInt8}
    {now : UInt64} {pid : UInt32} {sequence : UInt64} {start : BuildLedger}
    (h : new projectId autonomousCorrection retryLimit now pid sequence = .ok start)
    (calls : List Call) :
    Frozen (trace evaluateAndHandle start calls) (final evaluateAndHandle start calls) := by
  refine run_induction Frozen ?_ (fun past ledger call hfrozen => frozen_step hfrozen call) calls
  have hfresh := (new_eq_ok.mp h).2
  exact ⟨passedInOrder_of_new h, by rw [hfresh]; rfl, by rw [hfresh]; rfl, by simp⟩

def frozenRequirements (past : List Evaluation) : Option RequirementsRecord :=
  (passedInputs past)[0]?.bind (·.requirements)

def frozenBlueprint (past : List Evaluation) : Option BlueprintRecord :=
  (passedInputs past)[1]?.bind (·.blueprint)

theorem Frozen.requirements_of_intake (h : Frozen past ledger) {evaluation : Evaluation}
    (hmem : evaluation ∈ past) (hpasses : passes evaluation = true)
    (hstep : evaluation.input.input.step = .intake) :
    evaluation.input.input.requirements = frozenRequirements past := by
  have hat := h.order.input_at hmem hpasses
  rw [(ordinal_cases _).1.mp hstep] at hat
  rw [frozenRequirements, hat]
  rfl

theorem Frozen.blueprint_of_blueprint (h : Frozen past ledger) {evaluation : Evaluation}
    (hmem : evaluation ∈ past) (hpasses : passes evaluation = true)
    (hstep : evaluation.input.input.step = .blueprint) :
    evaluation.input.input.blueprint = frozenBlueprint past := by
  have hat := h.order.input_at hmem hpasses
  rw [(ordinal_cases _).2.mp hstep] at hat
  rw [frozenBlueprint, hat]
  rfl

theorem Frozen.againstFrozen_iff (h : Frozen past ledger) {evaluation : Evaluation}
    (hmem : evaluation ∈ past) (hpasses : passes evaluation = true) :
    AgainstFrozen evaluation ↔
      (readsRequirements evaluation.input.input.step →
        evaluation.input.input.requirements = frozenRequirements past) ∧
      (readsBlueprint evaluation.input.input.step →
        evaluation.input.input.blueprint = frozenBlueprint past) := by
  obtain ⟨hreleased, evidence, hpass⟩ := passes_iff.mp hpasses
  obtain ⟨hrequirements, hblueprint⟩ := h.seen evaluation hmem hpasses
  have hlast : ∀ x : Option BlueprintRecord, x.toList.getLast? = x := by
    intro x
    cases x <;> rfl
  have hintake := h.requirements_of_intake hmem hpasses
  have hfirst := h.blueprint_of_blueprint hmem hpasses
  have hsome : evaluation.input.input.step = .blueprint ∨
      evaluation.input.input.step = .buildTest → evaluation.input.input.requirements.isSome := by
    rintro (hs | hs)
    · exact requirements_of_pass hpass (.inr hs)
    · exact (buildTest_of_pass hpass hs).1
  have hplanned := blueprint_of_pass hpass
  rw [← frozenBlueprint] at hblueprint
  rw [← frozenRequirements] at hrequirements
  unfold AgainstFrozen readsRequirements readsBlueprint
  constructor
  · rintro ⟨hb, hr⟩
    refine ⟨?_, fun h1 => ?_⟩
    · rintro (hs | hs)
      · exact hintake hs
      · exact (hr hs).2.trans (hrequirements (by rcases hs with hs | hs <;> simp [hs]))
    · by_cases h2 : evaluation.input.input.step = .blueprint
      · exact hfirst h2
      · rw [(hb h1 h2).2, hblueprint h1 h2, hlast]
  · rintro ⟨hr, hb⟩
    refine ⟨fun h1 h2 => ⟨hplanned h1, ?_⟩, fun hs => ⟨hsome hs, ?_⟩⟩
    · rw [hb h1, hblueprint h1 h2, hlast]
    · rw [hr (.inr hs), hrequirements (by rcases hs with hs | hs <;> simp [hs])]

theorem againstFrozen_iff_sameRecords (h : Frozen past ledger) :
    (∀ evaluation ∈ past, passes evaluation = true → AgainstFrozen evaluation) ↔
      ∀ first ∈ past, ∀ second ∈ past, passes first = true → passes second = true →
        SameRecords first second := by
  constructor
  · intro hall first hfirst second hsecond hp hq
    obtain ⟨hr, hb⟩ := (h.againstFrozen_iff hfirst hp).mp (hall first hfirst hp)
    obtain ⟨hr', hb'⟩ := (h.againstFrozen_iff hsecond hq).mp (hall second hsecond hq)
    exact ⟨fun h1 h2 => (hr h1).trans (hr' h2).symm, fun h1 h2 => (hb h1).trans (hb' h2).symm⟩
  · intro hsame evaluation hmem hp
    rw [h.againstFrozen_iff hmem hp]
    have hlength := (List.getElem?_eq_some_iff.mp (h.order.input_at hmem hp)).1
    refine ⟨fun hreads => ?_, fun hreads => ?_⟩
    · obtain ⟨first, hfirst, hq, -, hstep⟩ := h.order.exists_at (n := 0) (by omega)
      have hintake : first.input.input.step = .intake := (Option.some.inj hstep).symm
      rw [← h.requirements_of_intake hfirst hq hintake]
      exact (hsame evaluation hmem first hfirst hp hq).1 hreads (.inl hintake)
    · have hlt := one_lt_ordinal hreads
      obtain ⟨first, hfirst, hq, -, hstep⟩ := h.order.exists_at (n := 1) (by omega)
      have hblueprint : first.input.input.step = .blueprint := (Option.some.inj hstep).symm
      rw [← h.blueprint_of_blueprint hfirst hq hblueprint]
      exact (hsame evaluation hmem first hfirst hp hq).2 hreads
        (by rw [hblueprint]; simp [readsBlueprint])

/-- The gates take the requirements and the blueprint from their inputs and the planner compares
them with nothing: a run is one against its frozen records exactly when the inputs that passed
agree among themselves. -/
theorem gates_against_frozen_iff {projectId : String} {autonomousCorrection : Bool}
    {retryLimit : UInt8} {now : UInt64} {pid : UInt32} {sequence : UInt64} {start : BuildLedger}
    (h : new projectId autonomousCorrection retryLimit now pid sequence = .ok start)
    (calls : List Call) :
    let run := trace evaluateAndHandle start calls
    let agree := ∀ first ∈ run, ∀ second ∈ run, passes first = true → passes second = true →
      SameRecords first second
    (∀ evaluation ∈ run, passes evaluation = true → AgainstFrozen evaluation) ∧
        ((final evaluateAndHandle start calls).status = .complete → agree) ↔ agree := by
  intro run agree
  have hiff := againstFrozen_iff_sameRecords (frozen_run h calls)
  exact ⟨fun hrun => hiff.mp hrun.1, fun hagree => ⟨hiff.mpr hagree, fun _ => hagree⟩⟩

theorem gates_against_frozen_iff_demo :
    let run := trace evaluateAndHandle demoLedger [passingCall .intake, passingCall .blueprint]
    let agree := ∀ first ∈ run, ∀ second ∈ run, passes first = true → passes second = true →
      SameRecords first second
    (∀ evaluation ∈ run, passes evaluation = true → AgainstFrozen evaluation) ∧
        ((final evaluateAndHandle demoLedger [passingCall .intake, passingCall .blueprint]).status =
          .complete → agree) ↔ agree :=
  gates_against_frozen_iff new_demoLedger _

def strayCall : Call := sampleCall (sampleInput 2 .crateBuild)

def strayRun : List Call := [passingCall .intake, passingCall .blueprint, strayCall]

theorem gates_strayRun : ∀ call ∈ strayRun, ∃ evidence, gateOutcome call = .pass evidence := by
  intro call hcall
  simp only [strayRun, List.mem_cons, List.not_mem_nil, or_false] at hcall
  rcases hcall with rfl | rfl | rfl
  · exact gateOutcome_passingCall .intake
  · exact gateOutcome_passingCall .blueprint
  · exact evaluateGate_sampleInput (by decide) .crateBuild 0

theorem gate_passed_off_blueprint :
    ∃ evaluation ∈ trace evaluateAndHandle demoLedger strayRun,
      passes evaluation = true ∧ evaluation.input = strayCall ∧
        evaluation.before.blueprintVersions = [sampleBlueprint 1] ∧
          strayCall.input.blueprint = some (sampleBlueprint 2) ∧ ¬AgainstFrozen evaluation := by
  have hsteps : strayRun.map (·.input.step) <+: stepsFrom demoLedger.currentStep := by decide
  obtain ⟨hpasses, -⟩ := passing_run rfl hsteps gates_strayRun
  have hfrozen := frozen_run new_demoLedger strayRun
  have hinputs := passedInputs_of_passes hpasses
  rw [map_input_trace] at hinputs
  have hmem : strayCall ∈ (trace evaluateAndHandle demoLedger strayRun).map (·.input) := by
    rw [map_input_trace]
    simp [strayRun]
  obtain ⟨evaluation, hevaluation, hinput⟩ := List.mem_map.mp hmem
  have hstep : evaluation.input.input.step = .crateBuild := by rw [hinput]; rfl
  have hbefore : evaluation.before.blueprintVersions = [sampleBlueprint 1] := by
    rw [(hfrozen.seen evaluation hevaluation (hpasses _ hevaluation)).2 (by simp [hstep])
      (by simp [hstep]), hinputs]
    rfl
  refine ⟨evaluation, hevaluation, hpasses _ hevaluation, hinput, hbefore, rfl, fun hagainst => ?_⟩
  have hsame := (hagainst.1 (by simp [hstep]) (by simp [hstep])).2
  rw [hbefore, hinput] at hsame
  have hblueprint : some (sampleBlueprint 2) = some (sampleBlueprint 1) := hsame
  have hversion := congrArg BlueprintRecord.version (Option.some.inj hblueprint)
  exact absurd hversion (by decide)

end AtomVibe.FrozenBlueprint
