import AtomVibe.PlannerInvariant

namespace AtomVibe.BoundedRetries

open Transition BuildProtocol PlannerModel PlannerModel.BuildLedger BuildPlanner PlannerSteps
  PlannerInvariant

variable {ledger : BuildLedger} {call : Call}

def retriesOf (ledger : BuildLedger) (step : BuildStep) : List RetryRecord :=
  ledger.retryLedger.filter (isRetryOf step)

structure Bounded (ledger : BuildLedger) : Prop where
  attempts : ∀ step, (retriesOf ledger step).map (fun record => record.attempt.toNat) =
    List.range' 1 (ledger.retryAttempts step)
  limit : ∀ step, ledger.retryAttempts step ≤ ledger.retryLimit.toNat
  halt : ∃ retries halts, ledger.retryLedger = retries ++ halts ∧
    (∀ record ∈ retries, record.decision = "retry_requested") ∧
    (ledger.status ≠ .halted ∧ halts = [] ∨
      ledger.status = .halted ∧ ∃ record, halts = [record] ∧ record.decision = "hard_halt")
  unfinished : ledger.status ≠ .complete → ledger.stepOutputs.length < 6
  revision : ledger.revision.toNat = 1 + ledger.stepOutputs.length + ledger.retryLedger.length

theorem length_eq_sum_countP {records : List RetryRecord}
    (h : ∀ record ∈ records, record.decision = "retry_requested") :
    records.length = (BuildStep.all.map fun step => records.countP (isRetryOf step)).sum := by
  induction records with
  | nil => rfl
  | cons record records ih =>
    have hone : isRetryOf record.step record = true := by
      simp [isRetryOf, h record List.mem_cons_self]
    have hother : ∀ step, record.step ≠ step → isRetryOf step record = false := by
      intro step hne
      simp [isRetryOf, hne]
    rw [List.length_cons, ih fun r hr => h r (List.mem_cons_of_mem _ hr)]
    cases hs : record.step <;> rw [hs] at hone hother <;>
      simp [BuildStep.all, List.countP_cons, hone, hother] <;> omega

theorem Bounded.length_le (hbounded : Bounded ledger) (haligned : Aligned ledger) :
    ledger.stepOutputs.length + ledger.retryLedger.length ≤ 6 * (ledger.retryLimit.toNat + 1) := by
  obtain ⟨retries, halts, hsplit, hretries, hhalt⟩ := hbounded.halt
  have hcount : ∀ step, retries.countP (isRetryOf step) ≤ ledger.retryLimit.toNat := by
    intro step
    refine le_trans ?_ (hbounded.limit step)
    rw [retryAttempts, hsplit, List.countP_append]
    exact Nat.le_add_right _ _
  have hsum : retries.length ≤ 6 * ledger.retryLimit.toNat := by
    rw [length_eq_sum_countP hretries]
    have h1 := hcount .intake
    have h2 := hcount .blueprint
    have h3 := hcount .crateBuild
    have h4 := hcount .crateCouple
    have h5 := hcount .buildTest
    have h6 := hcount .launchProof
    simp only [BuildStep.all, List.map_cons, List.map_nil, List.sum_cons, List.sum_nil]
    omega
  have hpassed : ledger.stepOutputs.length ≤ 6 := by
    have h := haligned.valid.passed.length_le
    rw [passedSteps, List.length_map] at h
    exact h
  have hlength : ledger.retryLedger.length = retries.length + halts.length := by
    rw [hsplit, List.length_append]
  rcases hhalt with ⟨-, rfl⟩ | ⟨hhalted, record, rfl, -⟩
  · simp only [List.length_nil] at hlength
    omega
  · have hopen := hbounded.unfinished (by simp [hhalted])
    simp only [List.length_singleton] at hlength
    omega

theorem revision_stamp (hbounded : Bounded ledger) (haligned : Aligned ledger) :
    (saturatingSucc ledger.revision).toNat = ledger.revision.toNat + 1 := by
  have hle := hbounded.length_le haligned
  have hlimit := UInt8.le_iff_toNat_le.mp haligned.valid.retryLimit.2
  have hrevision := hbounded.revision
  have h32 : (32 : UInt8).toNat = 32 := rfl
  have hroom : ledger.revision.toNat + 1 < UInt64.size := by
    simp only [UInt64.size]
    omega
  exact toNat_saturatingSucc hroom

theorem bounded_advance {evidence : BuildGateEvidence} (hbounded : Bounded ledger)
    (haligned : Aligned ledger) (hreleased : Released ledger call) :
    Bounded (stamp (advance ledger call evidence) call) := by
  have hkept := (kept_advance ledger call evidence).trans (kept_stamp _ call)
  have hretry : (stamp (advance ledger call evidence) call).retryLedger = ledger.retryLedger :=
    retryLedger_advance ledger call evidence
  have hcurrent := haligned.current hreleased.1
  obtain ⟨retries, halts, hsplit, hretries, hhalt⟩ := hbounded.halt
  refine ⟨?_, ?_, ⟨retries, halts, hretry.trans hsplit, hretries, ?_⟩, ?_, ?_⟩
  · intro step
    rw [retriesOf, retryAttempts, hretry]
    exact hbounded.attempts step
  · intro step
    rw [retryAttempts, hretry, hkept.retryLimit]
    exact hbounded.limit step
  · rcases hhalt with ⟨-, rfl⟩ | ⟨hhalted, -⟩
    · left
      simp only [stamp, status_advance, hreleased.1]
      split_ifs <;> simp
    · exact absurd (hreleased.1.symm.trans hhalted) (by simp)
  · simp only [stamp, status_advance, stepOutputs_advance, List.length_append,
      List.length_singleton]
    intro hopen
    have hnext := all_next hcurrent
    rw [← hreleased.2] at hnext
    by_contra hge
    rw [List.getElem?_eq_none (by simpa [BuildStep.all] using hge)] at hnext
    cases hs : call.input.step <;> simp_all [BuildStep.next]
  · rw [hretry]
    simp only [stamp, revision_advance, stepOutputs_advance, List.length_append,
      List.length_singleton, revision_stamp hbounded haligned, hbounded.revision]
    omega

theorem isRetryOf_retryRecord (ledger : BuildLedger) (tried : BuildStep)
    (errorClass : BuildErrorClass) (evidence : BuildGateEvidence) (step : BuildStep) :
    isRetryOf step (retryRecord ledger tried errorClass evidence "retry_requested") =
        decide (tried = step) ∧
      isRetryOf step (retryRecord ledger tried errorClass evidence "hard_halt") = false :=
  ⟨by simp [isRetryOf, retryRecord, beq_eq_decide], by simp [isRetryOf, retryRecord]⟩

theorem bounded_retry {step : BuildStep} {errorClass : BuildErrorClass}
    {evidence : BuildGateEvidence} (hbounded : Bounded ledger) (haligned : Aligned ledger)
    (hactive : ledger.status = .active) (heligible : retryEligible ledger step errorClass = true) :
    Bounded (stamp { ledger with
      retryLedger := ledger.retryLedger ++
        [retryRecord ledger step errorClass evidence "retry_requested"] } call) := by
  have hlimit := UInt8.le_iff_toNat_le.mp haligned.valid.retryLimit.2
  have h32 : (32 : UInt8).toNat = 32 := rfl
  have hnext : ledger.retryAttempts step + 1 ≤ ledger.retryLimit.toNat := by
    simp only [retryEligible, Bool.and_eq_true, decide_eq_true_eq] at heligible
    exact heligible.2
  have hattempt : (retryRecord ledger step errorClass evidence "retry_requested").attempt.toNat =
      1 + ledger.retryAttempts step := by
    simp only [retryRecord, UInt8.toNat_ofNat']
    omega
  have hself := fun s => (isRetryOf_retryRecord ledger step errorClass evidence s).1
  obtain ⟨retries, halts, hsplit, hretries, hhalt⟩ := hbounded.halt
  obtain rfl : halts = [] := by
    rcases hhalt with ⟨-, h⟩ | ⟨h, -⟩
    · exact h
    · exact absurd (hactive.symm.trans h) (by simp)
  refine ⟨fun s => ?_, fun s => ?_, ⟨retries ++
    [retryRecord ledger step errorClass evidence "retry_requested"], [], ?_, ?_, ?_⟩, ?_, ?_⟩
  · simp only [retriesOf, retryAttempts, stamp, List.filter_append, List.countP_append,
      List.filter_cons, List.filter_nil, List.countP_cons, List.countP_nil, hself]
    have hprevious := hbounded.attempts s
    rw [retriesOf, retryAttempts] at hprevious
    by_cases hs : step = s
    · subst hs
      simp only [decide_true, if_true, List.map_append, List.map_cons, List.map_nil, hattempt,
        hprevious, Nat.zero_add, List.range'_1_concat]
      rfl
    · simp only [decide_eq_false hs, Bool.false_eq_true, if_false, List.append_nil, Nat.add_zero,
        hprevious]
  · simp only [retryAttempts, stamp, List.countP_append, List.countP_cons, List.countP_nil, hself]
    have hprevious := hbounded.limit s
    rw [retryAttempts] at hprevious hnext
    by_cases hs : step = s
    · subst hs
      simpa using hnext
    · simpa [hs] using hprevious
  · simp [stamp, hsplit]
  · intro record hrecord
    rcases List.mem_append.mp hrecord with hrecord | hrecord
    · exact hretries record hrecord
    · rw [List.mem_singleton.mp hrecord]
      rfl
  · exact .inl ⟨by simp [stamp, hactive], rfl⟩
  · exact hbounded.unfinished
  · simp only [stamp, revision_stamp hbounded haligned, hbounded.revision, List.length_append,
      List.length_singleton]
    omega

theorem bounded_halt {step : BuildStep} {errorClass : BuildErrorClass}
    {evidence : BuildGateEvidence} (hbounded : Bounded ledger) (haligned : Aligned ledger)
    (hactive : ledger.status = .active) :
    Bounded (stamp { ledger with
      status := .halted
      retryLedger := ledger.retryLedger ++
        [retryRecord ledger step errorClass evidence "hard_halt"] } call) := by
  have hnone := fun s => (isRetryOf_retryRecord ledger step errorClass evidence s).2
  obtain ⟨retries, halts, hsplit, hretries, hhalt⟩ := hbounded.halt
  obtain rfl : halts = [] := by
    rcases hhalt with ⟨-, h⟩ | ⟨h, -⟩
    · exact h
    · exact absurd (hactive.symm.trans h) (by simp)
  refine ⟨fun s => ?_, fun s => ?_, ⟨retries,
    [retryRecord ledger step errorClass evidence "hard_halt"], ?_, hretries, ?_⟩, ?_, ?_⟩
  · simp only [retriesOf, retryAttempts, stamp, List.filter_append, List.countP_append,
      List.filter_cons, List.filter_nil, List.countP_cons, List.countP_nil, hnone,
      Bool.false_eq_true, if_false, List.append_nil, Nat.add_zero]
    exact hbounded.attempts s
  · simp only [retryAttempts, stamp, List.countP_append, List.countP_cons, List.countP_nil, hnone,
      Bool.false_eq_true, if_false, Nat.add_zero]
    exact hbounded.limit s
  · simp [stamp, hsplit]
  · exact .inr ⟨rfl, _, rfl, rfl⟩
  · exact fun _ => hbounded.unfinished (by simp [hactive])
  · simp only [stamp, revision_stamp hbounded haligned, hbounded.revision, List.length_append,
      List.length_singleton]
    omega

theorem bounded_evaluateAndHandle (hbounded : Bounded ledger) (haligned : Aligned ledger)
    (call : Call) : Bounded (evaluateAndHandle ledger call).2 := by
  rcases evaluateAndHandle_cases ledger call with ⟨-, error, he⟩ |
    ⟨hreleased, evidence, decision, -, he⟩ | ⟨hreleased, errorClass, evidence, -, he⟩
  · rw [he]
    exact hbounded
  · rw [he]
    exact bounded_advance hbounded haligned hreleased
  · rw [he, handleFail_eq]
    by_cases heligible : retryEligible ledger call.input.step errorClass = true
    · rw [if_pos heligible]
      exact bounded_retry hbounded haligned hreleased.1 heligible
    · rw [if_neg heligible]
      exact bounded_halt hbounded haligned hreleased.1

theorem bounded_freshLedger (buildId projectId : String) (autonomousCorrection : Bool)
    (retryLimit : UInt8) (now : UInt64) :
    Bounded (freshLedger buildId projectId autonomousCorrection retryLimit now) where
  attempts _ := rfl
  limit _ := Nat.zero_le _
  halt := ⟨[], [], rfl, by simp, .inl ⟨by simp [freshLedger], rfl⟩⟩
  unfinished _ := by simp [freshLedger]
  revision := rfl

def recorded (ledger : BuildLedger) : ℕ := ledger.stepOutputs.length + ledger.retryLedger.length

theorem recorded_evaluateAndHandle (haligned : Aligned ledger) (call : Call) :
    recorded (evaluateAndHandle ledger call).2 =
      recorded ledger + if (evaluateAndHandle ledger call).1.isOk then 1 else 0 := by
  have hok := isOk_iff haligned call
  rcases evaluateAndHandle_cases ledger call with ⟨-, error, he⟩ |
    ⟨hreleased, evidence, decision, -, he⟩ | ⟨hreleased, errorClass, evidence, -, he⟩
  · rw [he]
    rfl
  · rw [if_pos (hok.mpr hreleased), he]
    simp only [recorded, conclude, stamp, stepOutputs_advance, retryLedger_advance,
      List.length_append, List.length_singleton]
    omega
  · rw [if_pos (hok.mpr hreleased), he]
    simp only [recorded, conclude, stamp, handleFail_eq]
    split_ifs <;> simp only [List.length_append, List.length_singleton] <;> omega

structure RunBounded (start : BuildLedger) (past : List Evaluation) (ledger : BuildLedger) :
    Prop where
  aligned : Aligned ledger
  bounded : Bounded ledger
  kept : Kept start ledger
  accepts : past.countP accepted = recorded ledger

theorem runBounded {projectId : String} {autonomousCorrection : Bool} {retryLimit : UInt8}
    {now : UInt64} {pid : UInt32} {sequence : UInt64} {start : BuildLedger}
    (h : new projectId autonomousCorrection retryLimit now pid sequence = .ok start)
    (calls : List Call) :
    RunBounded start (trace evaluateAndHandle start calls) (final evaluateAndHandle start calls) := by
  refine run_induction (RunBounded start) ?_ ?_ calls
  · obtain ⟨-, rfl⟩ := new_eq_ok.mp h
    exact ⟨aligned_of_new h, bounded_freshLedger _ _ _ _ _, .refl _, rfl⟩
  · intro past ledger call hrun
    refine ⟨aligned_evaluateAndHandle hrun.aligned call,
      bounded_evaluateAndHandle hrun.bounded hrun.aligned call,
      hrun.kept.trans (kept_evaluateAndHandle ledger call), ?_⟩
    rw [List.countP_append, hrun.accepts, recorded_evaluateAndHandle hrun.aligned call,
      List.countP_singleton]
    rfl

/-- Autonomous correction ends: each step is retried at most `retryLimit` times, in numbered
attempts, and the run accepts at most `6 * (retryLimit + 1)` evaluations. -/
theorem autonomous_correction_bounded {projectId : String} {autonomousCorrection : Bool}
    {retryLimit : UInt8} {now : UInt64} {pid : UInt32} {sequence : UInt64} {start : BuildLedger}
    (h : new projectId autonomousCorrection retryLimit now pid sequence = .ok start)
    (calls : List Call) :
    let reached := final evaluateAndHandle start calls
    let halts := reached.retryLedger.filter fun record => record.decision == "hard_halt"
    (∀ step, (retriesOf reached step).length ≤ retryLimit.toNat ∧
      (retriesOf reached step).map (fun record => record.attempt.toNat) =
        List.range' 1 (retriesOf reached step).length) ∧
    halts.length ≤ 1 ∧ (∀ record ∈ halts, reached.retryLedger.getLast? = some record) ∧
    (reached.status = .halted ↔ halts ≠ []) ∧
    (trace evaluateAndHandle start calls).countP accepted ≤ 6 * (retryLimit.toNat + 1) := by
  have hrun := runBounded h calls
  have hlimit : (final evaluateAndHandle start calls).retryLimit = retryLimit := by
    rw [hrun.kept.retryLimit, (new_eq_ok.mp h).2]
    rfl
  have hattempts : ∀ step, (retriesOf (final evaluateAndHandle start calls) step).length =
      (final evaluateAndHandle start calls).retryAttempts step :=
    fun step => List.countP_eq_length_filter.symm
  intro reached halts
  obtain ⟨retries, last, hsplit, hretries, hhalt⟩ := hrun.bounded.halt
  have hhalts : halts = last.filter fun record => record.decision == "hard_halt" := by
    have hnone : retries.filter (fun record => record.decision == "hard_halt") = [] := by
      rw [List.filter_eq_nil_iff]
      intro record hrecord
      simp [hretries record hrecord]
    simp only [halts, reached, hsplit, List.filter_append, hnone, List.nil_append]
  refine ⟨fun step => ⟨?_, ?_⟩, ?_⟩
  · rw [hattempts, ← hlimit]
    exact hrun.bounded.limit step
  · rw [hattempts]
    exact hrun.bounded.attempts step
  have haccepts : (trace evaluateAndHandle start calls).countP accepted ≤
      6 * (retryLimit.toNat + 1) := by
    rw [hrun.accepts, ← hlimit]
    exact hrun.bounded.length_le hrun.aligned
  rcases hhalt with ⟨hstatus, rfl⟩ | ⟨hstatus, record, rfl, hdecision⟩
  · rw [hhalts]
    exact ⟨by simp, by simp, by simp [reached, hstatus], haccepts⟩
  · have hone : halts = [record] := by simp [hhalts, hdecision]
    rw [hone]
    refine ⟨le_rfl, fun r hr => ?_, by simp [reached, hstatus], haccepts⟩
    rw [List.mem_singleton.mp hr]
    exact hsplit ▸ List.getLast?_concat

theorem autonomous_correction_bounded_demo :
    let calls := [passingCall .intake, passingCall .intake, passingCall .blueprint]
    (trace evaluateAndHandle demoLedger calls).countP accepted ≤ 18 :=
  (autonomous_correction_bounded new_demoLedger
    [passingCall .intake, passingCall .intake, passingCall .blueprint]).2.2.2.2

end AtomVibe.BoundedRetries
