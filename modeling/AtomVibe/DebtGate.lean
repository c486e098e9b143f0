import AtomVibe.PhaseOrder

namespace AtomVibe.DebtGate

open Transition BuildProtocol GateModel GateSpec PlannerModel BuildPlanner PlannerSteps
  PlannerInvariant PassingRuns

variable {ledger : BuildLedger} {call : Call} {past : List Evaluation}

def couplingDebt (past : List Evaluation) : List String :=
  ((passedInputs past)[3]?.map (·.deferredDebt)).getD []

def couplingStatuses (past : List Evaluation) : List WiringStatus :=
  ((passedInputs past)[3]?.map fun input => input.wirings.map (·.status)).getD []

def debtReasons (ledger : BuildLedger) : List String := ledger.deferredDebt.map (·.reason)

def debtFree (step : BuildStep) : Prop := step = .buildTest ∨ step = .launchProof

structure Tracked (past : List Evaluation) (ledger : BuildLedger) : Prop where
  order : PassedInOrder past ledger
  debt : debtReasons ledger = if (passedInputs past).length = 4 then couplingDebt past else []
  markers : (passedInputs past).length ≠ 3 → ledger.coupleMarkers = []
  wirings : 4 ≤ (passedInputs past).length →
    ledger.wiringStatuses.map (·.status) = couplingStatuses past
  seen : ∀ evaluation ∈ past, passes evaluation = true → debtFree evaluation.input.input.step →
    debtReasons evaluation.before =
      (if evaluation.input.input.step = .buildTest then couplingDebt past else []) ∧
        evaluation.before.coupleMarkers = []

section Fields

variable (ledger : BuildLedger) (call : Call) (evidence : BuildGateEvidence)

theorem debtReasons_advance : debtReasons (advance ledger call evidence) =
    if call.input.step = .crateCouple then call.input.deferredDebt
    else if call.input.step = .buildTest ∨ call.input.step = .launchProof then []
    else debtReasons ledger := by
  have hreasons : (call.input.deferredDebt.mapIdx fun i reason =>
      (⟨.crateCouple, reason, call.recordedAt i⟩ : DeferredDebt)).map (·.reason) =
        call.input.deferredDebt := by
    refine List.ext_getElem? fun i => ?_
    simp [List.getElem?_mapIdx, Function.comp_def]
  unfold debtReasons advance recordStepState
  cases call.input.step <;> first | rfl | exact hreasons

theorem coupleMarkers_advance : (advance ledger call evidence).coupleMarkers =
    if call.input.step = .intake ∨ call.input.step = .blueprint then ledger.coupleMarkers
    else if call.input.step = .crateBuild then call.input.coupleMarkers else [] := by
  unfold advance recordStepState
  cases call.input.step <;> rfl

theorem wiringStatuses_advance :
    (advance ledger call evidence).wiringStatuses.map (·.status) =
      if call.input.step = .crateCouple then call.input.wirings.map (·.status)
      else ledger.wiringStatuses.map (·.status) := by
  unfold advance recordStepState
  cases call.input.step <;> first | rfl | simp [BuildStep.next]

theorem tracked_handleFail (step : BuildStep) (errorClass : BuildErrorClass) :
    debtReasons (handleFail ledger step errorClass evidence).2 = debtReasons ledger ∧
      (handleFail ledger step errorClass evidence).2.coupleMarkers = ledger.coupleMarkers ∧
        (handleFail ledger step errorClass evidence).2.wiringStatuses = ledger.wiringStatuses := by
  rw [handleFail_eq]
  split_ifs <;> exact ⟨rfl, rfl, rfl⟩

end Fields

theorem coupling_concat {input : GateInput} {call : Call}
    (hinputs : passedInputs (past ++ [visit evaluateAndHandle ledger call]) =
      passedInputs past ++ [input]) (hlength : 4 ≤ (passedInputs past).length) :
    couplingDebt (past ++ [visit evaluateAndHandle ledger call]) = couplingDebt past ∧
      couplingStatuses (past ++ [visit evaluateAndHandle ledger call]) = couplingStatuses past := by
  unfold couplingDebt couplingStatuses
  rw [hinputs, List.getElem?_append_left (by omega)]
  exact ⟨rfl, rfl⟩

theorem tracked_pass {evidence : BuildGateEvidence} (h : Tracked past ledger)
    (hreleased : Released ledger call)
    (hpasses : passes (visit evaluateAndHandle ledger call) = true)
    (he : (evaluateAndHandle ledger call).2 = stamp (advance ledger call evidence) call) :
    Tracked (past ++ [visit evaluateAndHandle ledger call]) (evaluateAndHandle ledger call).2 := by
  have hordinal := h.order.ordinal_released hreleased
  have hinputs : passedInputs (past ++ [visit evaluateAndHandle ledger call]) =
      passedInputs past ++ [call.input] := by
    rw [passedInputs_concat, if_pos hpasses]
    rfl
  have hcount : (passedInputs (past ++ [visit evaluateAndHandle ledger call])).length =
      (passedInputs past).length + 1 := by
    rw [hinputs, List.length_append, List.length_singleton]
  have hcouple : call.input.step = .crateCouple →
      couplingDebt (past ++ [visit evaluateAndHandle ledger call]) = call.input.deferredDebt ∧
        couplingStatuses (past ++ [visit evaluateAndHandle ledger call]) =
          call.input.wirings.map (·.status) := by
    intro hs
    rw [hs] at hordinal
    have hthree : (passedInputs past).length = 3 := Nat.succ.inj hordinal.symm
    unfold couplingDebt couplingStatuses
    rw [hinputs, List.getElem?_append_right hthree.le, hthree]
    exact ⟨rfl, rfl⟩
  have hdebt : debtReasons (stamp (advance ledger call evidence) call) = _ :=
    debtReasons_advance ledger call evidence
  have hmarkers : (stamp (advance ledger call evidence) call).coupleMarkers = _ :=
    coupleMarkers_advance ledger call evidence
  have hwirings : (stamp (advance ledger call evidence) call).wiringStatuses.map (·.status) = _ :=
    wiringStatuses_advance ledger call evidence
  refine ⟨passedInOrder_step h.order call, ?_, fun hne => ?_, fun hge => ?_, ?_⟩
  · rw [he, hdebt, hcount, h.debt]
    cases hs : call.input.step <;> rw [hs] at hordinal
    case crateCouple =>
      have hthree : (passedInputs past).length = 3 := Nat.succ.inj hordinal.symm
      rw [if_pos rfl, if_pos (by omega), (hcouple hs).1]
    all_goals
      have hn := Nat.succ.inj hordinal.symm
      simp [hn]
  · rw [he, hmarkers]
    rw [hcount] at hne
    cases hs : call.input.step <;> rw [hs] at hordinal
    case intake | blueprint =>
      exact h.markers (by have hn := Nat.succ.inj hordinal.symm; omega)
    case crateBuild => exact absurd hordinal.symm hne
    all_goals rfl
  · rw [he, hwirings]
    rw [hcount] at hge
    by_cases hs : call.input.step = .crateCouple
    · rw [if_pos hs, (hcouple hs).2]
    · have hfour : 4 ≤ (passedInputs past).length := by
        by_contra hlt
        have hthree : call.input.step.ordinal.toNat = 4 := by omega
        cases hstep : call.input.step <;> rw [hstep] at hthree <;> first
          | exact hs hstep
          | exact absurd hthree (by decide)
      rw [if_neg hs, h.wirings hfour, (coupling_concat hinputs hfour).2]
  · intro evaluation hmem hp hfree
    rcases List.mem_append.mp hmem with hmem | hmem
    · have hat := (List.getElem?_eq_some_iff.mp (h.order.input_at hmem hp)).1
      have hfour : 4 ≤ (passedInputs past).length := by
        rcases hfree with hs | hs <;> rw [hs] at hat <;> exact le_trans (by decide) hat
      rw [(coupling_concat hinputs hfour).1]
      exact h.seen evaluation hmem hp hfree
    · rw [List.mem_singleton.mp hmem] at hfree ⊢
      have hfour : 4 ≤ (passedInputs past).length := by
        rcases hfree with hs | hs
        · rw [show call.input.step = _ from hs] at hordinal
          exact (Nat.succ.inj hordinal).le
        · rw [show call.input.step = _ from hs] at hordinal
          exact le_trans (by decide) (Nat.succ.inj hordinal).le
      rw [(coupling_concat hinputs hfour).1]
      refine ⟨?_, h.markers (by omega)⟩
      refine h.debt.trans ?_
      rcases hfree with hs | hs <;> rw [show call.input.step = _ from hs] at hordinal
      · rw [if_pos (Nat.succ.inj hordinal).symm]
        exact (if_pos hs).symm
      · rw [if_neg (by have hn := Nat.succ.inj hordinal; omega)]
        exact (if_neg (by rw [hs]; simp)).symm

theorem tracked_step (h : Tracked past ledger) (call : Call) :
    Tracked (past ++ [visit evaluateAndHandle ledger call]) (evaluateAndHandle ledger call).2 := by
  have hunchanged : passes (visit evaluateAndHandle ledger call) = false →
      debtReasons (evaluateAndHandle ledger call).2 = debtReasons ledger →
      (evaluateAndHandle ledger call).2.coupleMarkers = ledger.coupleMarkers →
      (evaluateAndHandle ledger call).2.wiringStatuses = ledger.wiringStatuses →
      Tracked (past ++ [visit evaluateAndHandle ledger call]) (evaluateAndHandle ledger call).2 := by
    intro hp hdebt hmarkers hwirings
    have hinputs : passedInputs (past ++ [visit evaluateAndHandle ledger call]) =
        passedInputs past := by
      rw [passedInputs_concat, hp]
      exact List.append_nil _
    have hcoupling : couplingDebt (past ++ [visit evaluateAndHandle ledger call]) =
        couplingDebt past := by rw [couplingDebt, hinputs, couplingDebt]
    have hstatuses : couplingStatuses (past ++ [visit evaluateAndHandle ledger call]) =
        couplingStatuses past := by rw [couplingStatuses, hinputs, couplingStatuses]
    refine ⟨passedInOrder_step h.order call, ?_, ?_, ?_, fun evaluation hmem hpasses hfree => ?_⟩
    · rw [hinputs, hdebt, hcoupling, h.debt]
    · rw [hinputs, hmarkers]
      exact h.markers
    · rw [hinputs, hwirings, hstatuses]
      exact h.wirings
    · rcases List.mem_append.mp hmem with hmem | hmem
      · rw [hcoupling]
        exact h.seen evaluation hmem hpasses hfree
      · rw [List.mem_singleton.mp hmem, hp] at hpasses
        exact absurd hpasses (by simp)
  rcases evaluation_cases ledger call with ⟨hp, he⟩ | ⟨hreleased, hp, evidence, -, he⟩ |
    ⟨hp, errorClass, evidence, he⟩
  · exact hunchanged hp (by rw [he]) (by rw [he]) (by rw [he])
  · exact tracked_pass h hreleased hp he
  · obtain ⟨hdebt, hmarkers, hwirings⟩ :=
      tracked_handleFail ledger evidence call.input.step errorClass
    exact hunchanged hp (by rw [he]; exact hdebt) (by rw [he]; exact hmarkers)
      (by rw [he]; exact hwirings)

theorem tracked_run {projectId : String} {autonomousCorrection : Bool} {retryLimit : UInt8}
    {now : UInt64} {pid : UInt32} {sequence : UInt64} {start : BuildLedger}
    (h : new projectId autonomousCorrection retryLimit now pid sequence = .ok start)
    (calls : List Call) :
    Tracked (trace evaluateAndHandle start calls) (final evaluateAndHandle start calls) := by
  refine run_induction Tracked ?_ (fun past ledger call ht => tracked_step ht call) calls
  have hfresh := (new_eq_ok.mp h).2
  exact ⟨passedInOrder_of_new h, by rw [hfresh]; rfl, fun _ => by rw [hfresh]; rfl,
    fun hge => absurd hge (by simp [passedInputs]), by simp⟩

def StartsDebtFree (past : List Evaluation) : Prop :=
  ∀ evaluation ∈ past, passes evaluation = true → debtFree evaluation.input.input.step →
    evaluation.before.deferredDebt = [] ∧ evaluation.before.coupleMarkers = []

def CoupledWithoutDebt (past : List Evaluation) : Prop :=
  ∀ coupling ∈ past, ∀ test ∈ past, passes coupling = true → passes test = true →
    coupling.input.input.step = .crateCouple → test.input.input.step = .buildTest →
      coupling.input.input.deferredDebt = []

theorem Tracked.couplingDebt_eq (h : Tracked past ledger) {coupling : Evaluation}
    (hmem : coupling ∈ past) (hpasses : passes coupling = true)
    (hstep : coupling.input.input.step = .crateCouple) :
    couplingDebt past = coupling.input.input.deferredDebt ∧
      couplingStatuses past = coupling.input.input.wirings.map (·.status) := by
  have hat := h.order.input_at hmem hpasses
  rw [hstep] at hat
  rw [couplingDebt, couplingStatuses, show (passedInputs past)[3]? = _ from hat]
  exact ⟨rfl, rfl⟩

theorem Tracked.exists_coupling (h : Tracked past ledger) (hlength : 3 < (passedInputs past).length) :
    ∃ coupling ∈ past, passes coupling = true ∧ coupling.input.input.step = .crateCouple := by
  obtain ⟨coupling, hmem, hpasses, -, hstep⟩ := h.order.exists_at hlength
  exact ⟨coupling, hmem, hpasses, (Option.some.inj hstep).symm⟩

theorem Tracked.startsDebtFree_iff (h : Tracked past ledger) :
    StartsDebtFree past ↔ CoupledWithoutDebt past := by
  constructor
  · intro hfree coupling hcoupling test htest hp hq hcouple htested
    obtain ⟨hdebt, -⟩ := h.seen test htest hq (.inl htested)
    rw [if_pos htested, (h.couplingDebt_eq hcoupling hp hcouple).1] at hdebt
    rw [← hdebt, debtReasons, (hfree test htest hq (.inl htested)).1, List.map_nil]
  · intro hcoupled evaluation hmem hp hfree
    obtain ⟨hdebt, hmarkers⟩ := h.seen evaluation hmem hp hfree
    refine ⟨?_, hmarkers⟩
    rw [← List.map_eq_nil_iff (f := (·.reason))]
    refine hdebt.trans ?_
    by_cases htested : evaluation.input.input.step = .buildTest
    · have hat := (List.getElem?_eq_some_iff.mp (h.order.input_at hmem hp)).1
      rw [htested] at hat
      obtain ⟨coupling, hcoupling, hq, hcouple⟩ := h.exists_coupling (lt_trans (by decide) hat)
      rw [if_pos htested, (h.couplingDebt_eq hcoupling hq hcouple).1]
      exact hcoupled coupling hcoupling evaluation hmem hq hp hcouple htested
    · rw [if_neg htested]

theorem Tracked.wirings_of_complete (h : Tracked past ledger) (hcoupled : CoupledWithoutDebt past)
    (hcomplete : ledger.status = .complete) :
    ∀ wiring ∈ ledger.wiringStatuses, wiring.status = .pass := by
  have hsix : (passedInputs past).length = 6 := by
    have hall := h.order.aligned.valid.passedSteps_of_complete hcomplete
    have hlength := congrArg List.length (h.order.steps.trans hall)
    rwa [List.length_map] at hlength
  obtain ⟨coupling, hcoupling, hp, hcouple⟩ := h.exists_coupling (by omega)
  obtain ⟨test, htest, hq, -, hstep⟩ := h.order.exists_at (n := 4) (by omega)
  have hdebt := hcoupled coupling hcoupling test htest hp hq hcouple (Option.some.inj hstep).symm
  obtain ⟨-, evidence, hpass⟩ := passes_iff.mp hp
  have hall := (crateCouple_of_pass hpass hcouple).2.mp hdebt
  intro wiring hwiring
  have hstatus : wiring.status ∈ ledger.wiringStatuses.map (·.status) :=
    List.mem_map_of_mem hwiring
  rw [h.wirings (by omega), (h.couplingDebt_eq hcoupling hp hcouple).2] at hstatus
  obtain ⟨found, hfound, heq⟩ := List.mem_map.mp hstatus
  exact heq ▸ hall found hfound

/-- The gates and the planner look at the debt their input reports, not at the debt the ledger
holds: a run keeps debt out of its last two phases exactly when the coupling it tested had none. -/
theorem debt_free_phases_iff {projectId : String} {autonomousCorrection : Bool}
    {retryLimit : UInt8} {now : UInt64} {pid : UInt32} {sequence : UInt64} {start : BuildLedger}
    (h : new projectId autonomousCorrection retryLimit now pid sequence = .ok start)
    (calls : List Call) :
    let reached := final evaluateAndHandle start calls
    (StartsDebtFree (trace evaluateAndHandle start calls) ∧
        (reached.status = .complete → ∀ wiring ∈ reached.wiringStatuses, wiring.status = .pass)) ↔
      CoupledWithoutDebt (trace evaluateAndHandle start calls) := by
  have htracked := tracked_run h calls
  have hiff := htracked.startsDebtFree_iff
  exact ⟨fun hrun => hiff.mp hrun.1,
    fun hcoupled => ⟨hiff.mpr hcoupled, htracked.wirings_of_complete hcoupled⟩⟩

theorem debt_free_phases_iff_demo :
    let reached := final evaluateAndHandle demoLedger (BuildStep.all.map passingCall)
    (StartsDebtFree (trace evaluateAndHandle demoLedger (BuildStep.all.map passingCall)) ∧
        (reached.status = .complete → ∀ wiring ∈ reached.wiringStatuses, wiring.status = .pass)) ↔
      CoupledWithoutDebt (trace evaluateAndHandle demoLedger (BuildStep.all.map passingCall)) :=
  debt_free_phases_iff new_demoLedger _

def deferringCall : Call := sampleCall (deferredInput 1)

def deferringRun : List Call :=
  [passingCall .intake, passingCall .blueprint, passingCall .crateBuild, deferringCall,
    passingCall .buildTest, passingCall .launchProof]

theorem gates_deferringRun :
    ∀ call ∈ deferringRun, ∃ evidence, gateOutcome call = .pass evidence := by
  intro call hcall
  simp only [deferringRun, List.mem_cons, List.not_mem_nil, or_false] at hcall
  rcases hcall with rfl | rfl | rfl | rfl | rfl | rfl
  case inr.inr.inr.inl => exact evaluateGate_deferredInput (by decide) 0
  all_goals exact gateOutcome_passingCall _

theorem build_test_passed_in_debt :
    (∃ evaluation ∈ trace evaluateAndHandle demoLedger deferringRun,
      passes evaluation = true ∧ evaluation.input = passingCall .buildTest ∧
        debtReasons evaluation.before = ["state-to-app:awaiting round trip"]) ∧
      (final evaluateAndHandle demoLedger deferringRun).status = .complete ∧
      (final evaluateAndHandle demoLedger deferringRun).wiringStatuses.map (·.status) =
        [.deferred] := by
  have hsteps : deferringRun.map (·.input.step) = stepsFrom demoLedger.currentStep := rfl
  have hinit : deferringRun.map (·.input.step) <+: stepsFrom demoLedger.currentStep :=
    hsteps ▸ List.prefix_refl _
  obtain ⟨hpasses, -, hcomplete⟩ := passing_run rfl hinit gates_deferringRun
  have htracked := tracked_run new_demoLedger deferringRun
  have hinputs := passedInputs_of_passes hpasses
  rw [map_input_trace] at hinputs
  have hcoupling : couplingDebt (trace evaluateAndHandle demoLedger deferringRun) =
      ["state-to-app:awaiting round trip"] := by
    rw [couplingDebt, hinputs]
    rfl
  have hstatuses : couplingStatuses (trace evaluateAndHandle demoLedger deferringRun) =
      [.deferred] := by
    rw [couplingStatuses, hinputs]
    rfl
  have hmem : passingCall .buildTest ∈
      (trace evaluateAndHandle demoLedger deferringRun).map (·.input) := by
    rw [map_input_trace]
    simp [deferringRun]
  obtain ⟨evaluation, hevaluation, hinput⟩ := List.mem_map.mp hmem
  have htest : evaluation.input.input.step = .buildTest := by rw [hinput]; rfl
  obtain ⟨hdebt, -⟩ := htracked.seen evaluation hevaluation (hpasses _ hevaluation) (.inl htest)
  rw [if_pos htest, hcoupling] at hdebt
  refine ⟨⟨evaluation, hevaluation, hpasses _ hevaluation, hinput, hdebt⟩, hcomplete hsteps, ?_⟩
  rw [htracked.wirings (by rw [hinputs]; decide), hstatuses]

end AtomVibe.DebtGate
