import AtomVibe.CoreRuntime
import AtomVibe.Foundations.Transition

namespace AtomVibe.CoreRuntime

open Checked Text Hash Bus Context Doctrine Provider Work EvidenceDisk Verification Secrets
open Transition PartialRun

variable {Graph : Type}

inductive RuntimeCall
  | runIntent (intent : String)
  | runCoderIntent (intent : String)
  | scheduleProviderExecution
  | markProviderExecutionReport (disk : Disk) (report : ProviderReport)
  | markProviderBlocked (reason : String)
  | markStoreBlocked (reason : String)
  | markDrift (reason : String)
  | setProvider (provider : CoreProviderConfig)

inductive RuntimeAnswer
  | ran (run : ProofRun)
  | scheduled (task : Option ProviderExecutionTask)
  | reported (accepted : Bool)
  | done

/-- `none` where the call does not return. -/
def perform (host : Host Graph) (runtime : MathAtomsRuntime Graph) :
    RuntimeCall → Option (RuntimeAnswer × MathAtomsRuntime Graph)
  | .runIntent intent => (runtime.runIntent host intent).map fun (run, next) => (.ran run, next)
  | .runCoderIntent intent =>
    (runtime.runCoderIntent host intent).map fun (run, next) => (.ran run, next)
  | .scheduleProviderExecution =>
    runtime.scheduleProviderExecution.map fun (task, next) => (.scheduled task, next)
  | .markProviderExecutionReport disk report =>
    (runtime.markProviderExecutionReport host disk report).map fun (accepted, next) =>
      (.reported accepted, next)
  | .markProviderBlocked reason => (runtime.markProviderBlocked reason).map fun next => (.done, next)
  | .markStoreBlocked reason => some (.done, runtime.markStoreBlocked reason)
  | .markDrift reason => some (.done, runtime.markDrift reason)
  | .setProvider provider => some (.done, runtime.setProvider provider)

abbrev Event (Graph : Type) := Visit (MathAtomsRuntime Graph) RuntimeCall RuntimeAnswer

def Fresh (runtime : MathAtomsRuntime Graph) : Prop :=
  ∃ provider graph, runtime = .withGraph provider graph

structure IntentRun where
  intent : String
  coderMode : Bool
  run : ProofRun

def intentRun (event : Event Graph) : Option IntentRun :=
  match event.input, event.output with
  | .runIntent intent, .ran run => some ⟨intent, false, run⟩
  | .runCoderIntent intent, .ran run => some ⟨intent, true, run⟩
  | _, _ => none

def reportOf (event : Event Graph) : Option (Disk × ProviderReport) :=
  match event.input with
  | .markProviderExecutionReport disk report => some (disk, report)
  | _ => none

def latestRun (past : List (Event Graph)) : Option IntentRun := (past.filterMap intentRun).getLast?

def latestReport (past : List (Event Graph)) : Option (Disk × ProviderReport) :=
  (past.filterMap reportOf).getLast?

def provenRuns (past : List (Event Graph)) : ℕ :=
  (past.filterMap intentRun).countP fun made => made.run.status = .proven

structure ReportVerified (host : Host Graph) (disk : Disk) (report : ProviderReport)
    (call : PreparedProviderCall) (plan : WorkPlan) : Prop where
  planId : report.output.workPlanId = plan.id
  workPlan : ∃ verified, verifyWorkPlanEvidence host.rust host.fuel disk
      report.output.workPlanManifest plan.id report.output.packetIds.length = some (.ok verified) ∧
    verified.packetIds = report.output.packetIds ∧ verified.model = call.model
  candidate : ∃ candidate verified, report.output.candidateVerification = some candidate ∧
    candidate.bundleHash = report.outputHash ∧
    verifyCandidateEvidence host.debugText disk candidate.manifestPath candidate.manifestHash
      plan.id candidate.bundleHash = .ok verified ∧
    verified.attempts = candidate.attempts ∧ verified.repairs = candidate.repairs
  text : report.output.text.utf8ByteSize = report.outputLen ∧
    sha256Tagged (asBytes report.output.text) = report.outputHash
  artifact : ∃ path bytes, disk.canonicalize report.outputArtifact = .ok path ∧
    disk.read path = .ok bytes ∧ bytes.size = report.outputLen ∧
    sha256Tagged bytes.data.toList = report.outputHash

structure HoldsReport (state : RuntimeState) (report : ProviderReport) : Prop where
  artifact : state.lastProviderOutputArtifact = report.outputArtifact
  hash : state.lastProviderOutputHash = report.outputHash
  len : state.lastProviderOutputLen = report.outputLen
  planId : state.lastWorkPlanId = report.output.workPlanId
  manifest : state.lastWorkPlanManifest = report.output.workPlanManifest
  packets : state.lastWorkPacketCount = report.output.packetIds.length
  candidate : state.lastCandidateVerification = report.output.candidateVerification

def NeedsNoProvider (made : IntentRun) : Prop :=
  made.coderMode = false ∧ providerRouteRequired made.intent = false ∧
    ∃ recipe ∈ recipes, recipe.id = made.run.recipeId ∧ recipe.requiresProvider = false

structure FailsClosed (host : Host Graph) (past : List (Event Graph)) (state : RuntimeState) : Prop where
  proven : state.status = .proven → state.blockers = [] ∧ state.lastProviderCall = none ∧
    ∃ made, latestRun past = some made ∧ NeedsNoProvider made
  providerPending : state.status = .providerPending → state.blockers = [] ∧
    ∃ call plan, state.lastProviderCall = some call ∧ call.workPlan = some plan
  verificationPending : state.status = .verificationPending →
    ∃ made call plan disk report, latestRun past = some made ∧ made.run.providerCall = some call ∧
      call.workPlan = some plan ∧ latestReport past = some (disk, report) ∧
      ReportVerified host disk report call plan ∧ HoldsReport state report
  proofCount : state.proofCount = provenRuns past

structure Held (past : List (Event Graph)) (state : RuntimeState) : Prop where
  fromRun : ∀ call, state.lastProviderCall = some call →
    ∃ made, latestRun past = some made ∧ made.run.providerCall = some call
  planned : ∀ call, state.lastProviderCall = some call → ∃ plan, call.workPlan = some plan

theorem append_ne_empty {front middle back : String} (h : middle ≠ "") :
    front ++ middle ++ back ≠ "" := by
  intro hempty
  rw [String.append_eq_empty_iff, String.append_eq_empty_iff] at hempty
  exact h hempty.1.2

theorem instructions_ne_empty (plan : WorkPlan) (packet : WorkPacket) :
    plan.instructions packet ≠ "" := by
  unfold WorkPlan.instructions
  apply append_ne_empty
  decide

theorem promptData_ne_empty (plan : WorkPlan) (packet : WorkPacket) (evidence : String)
    (dependencies : List (String × String)) :
    plan.promptData packet evidence dependencies ≠ "" := by
  unfold WorkPlan.promptData
  exact objectText_ne_empty _

theorem prepareCall_spec {config : CoreProviderConfig} {intent recipe : String}
    {atoms : List String} {evidence : List Evidence} {call : PreparedProviderCall}
    (h : config.prepareCallWithAtoms intent recipe atoms evidence = .ok call) :
    call.body ≠ "" ∧ ∃ plan, call.workPlan = some plan := by
  simp only [CoreProviderConfig.prepareCallWithAtoms, bind_eq_ok, refuseIf_eq_ok,
    exists_const] at h
  obtain ⟨-, -, hmodel, -, thinking, -, -, plan, -, first, -, prompt, hprompt, hcall⟩ := h
  obtain rfl := Except.ok.inj hcall
  refine ⟨?_, plan, rfl⟩
  rw [workError, mapError_eq_ok, WorkPlan.prompt] at hprompt
  obtain ⟨dependencies, -, hmade⟩ := bind_eq_ok.mp hprompt
  obtain rfl := Except.ok.inj hmade
  apply providerBody_ne_empty
  exact ⟨ne_empty_of_not_blank (Bool.eq_false_iff.mpr hmodel), instructions_ne_empty plan first,
    promptData_ne_empty plan first _ dependencies⟩

theorem providerResult_spec {runtime : MathAtomsRuntime Graph} {intent : String} {recipe : Recipe}
    {providerRoute : Bool} {evidence : List Evidence} {call : PreparedProviderCall}
    (h : runtime.providerResult intent recipe providerRoute evidence = .ok call) :
    (call.body ≠ "" ∧ ∃ plan, call.workPlan = some plan) ∨
      (call = emptyCall ∧ recipe.requiresProvider = false ∧ providerRoute = false) := by
  rw [MathAtomsRuntime.providerResult] at h
  split at h
  · exact .inl (prepareCall_spec h)
  · rename_i hneeds
    simp only [Bool.or_eq_true, not_or, Bool.not_eq_true] at hneeds
    exact .inr ⟨(Except.ok.inj h).symm, hneeds⟩

section Calls

variable {debug : ProviderError → String} {bus : SpiderwebBus} {l2 : EnvelopeId}
  {ids : List String} {result : Except ProviderError PreparedProviderCall}

theorem announceCall_some {call : PreparedProviderCall}
    (h : (announceCall debug bus l2 ids result).call = some call) :
    result = .ok call ∧ call.body ≠ "" := by
  cases result with
  | error error => cases error <;> cases h
  | ok prepared =>
    simp only [announceCall] at h
    split at h
    · cases h
    · rename_i hbody
      split at h <;> cases h <;> exact ⟨rfl, hbody⟩

theorem announceCall_none (h : (announceCall debug bus l2 ids result).call = none)
    (hblockers : (announceCall debug bus l2 ids result).blockers = []) :
    ∃ call, result = .ok call ∧ call.body = "" := by
  cases result with
  | error error => cases error <;> cases hblockers
  | ok prepared =>
    simp only [announceCall] at h
    split at h
    · rename_i hbody
      exact ⟨prepared, rfl, hbody⟩
    · split at h <;> cases h

end Calls

structure RunMade (runtime : MathAtomsRuntime Graph) (intent : String) (coderMode : Bool)
    (run : ProofRun) (next : MathAtomsRuntime Graph) : Prop where
  status : next.state.status = run.status
  blockers : next.state.blockers = run.blockers
  call : next.state.lastProviderCall = run.providerCall
  proofCount : next.state.proofCount =
    runtime.state.proofCount + if run.status = .proven then 1 else 0
  settled : run.status = runStatus run.blockers run.providerCall
  planned : ∀ call, run.providerCall = some call → ∃ plan, call.workPlan = some plan
  unneeded : run.blockers = [] → run.providerCall = none → NeedsNoProvider ⟨intent, coderMode, run⟩

theorem selectRecipe_mem {intent : String} {atoms : List String} {evidence : List Evidence}
    {ready route : Bool} {recipe : Recipe}
    (h : selectRecipe intent atoms evidence ready route = some recipe) : recipe ∈ recipes := by
  have hmem := List.mem_of_mem_head? h
  exact (List.mem_insertionSort _).mp hmem

theorem runIntentInMode_spec {host : Host Graph} {runtime next : MathAtomsRuntime Graph}
    {intent : String} {coderMode : Bool} {run : ProofRun}
    (h : runtime.runIntentInMode host intent coderMode = some (run, next)) :
    RunMade runtime intent coderMode run next := by
  simp only [MathAtomsRuntime.runIntentInMode, Option.bind_eq_bind, Option.bind_eq_some_iff] at h
  obtain ⟨recipe, hrecipe, allLayers, -, route, -, hmade⟩ := h
  cases hmade
  refine ⟨rfl, rfl, rfl, rfl, rfl, fun call hcall => ?_, fun hblockers hcall => ?_⟩
  · obtain ⟨hresult, hbody⟩ := announceCall_some hcall
    rcases providerResult_spec hresult with ⟨-, hplan⟩ | ⟨rfl, -⟩
    · exact hplan
    · exact absurd rfl hbody
  · simp only [List.append_eq_nil_iff] at hblockers
    obtain ⟨call, hresult, hbody⟩ := announceCall_none hcall hblockers.1.1
    rcases providerResult_spec hresult with ⟨hsome, -⟩ | ⟨-, hrequires, hroute⟩
    · exact absurd hbody hsome
    · rw [Bool.or_eq_false_iff] at hroute
      exact ⟨hroute.1, hroute.2, recipe, selectRecipe_mem hrecipe, rfl, hrequires⟩

variable {host : Host Graph} {runtime next : MathAtomsRuntime Graph}

theorem markProviderBlocked_spec {reason : String}
    (h : runtime.markProviderBlocked reason = some next) : ∃ route, next.state =
      { runtime.blockedState (redactSensitiveText reason) with lastRoute := route } := by
  simp only [MathAtomsRuntime.markProviderBlocked, Option.bind_eq_bind, Option.bind_eq_some_iff] at h
  obtain ⟨route, -, hmade⟩ := h
  exact ⟨route, (congrArg MathAtomsRuntime.state (Option.some.inj hmade)).symm⟩

theorem markStoreBlocked_state (reason : String) : (runtime.markStoreBlocked reason).state =
    runtime.blockedState (redactSensitiveText reason) := rfl

theorem markDrift_state (reason : String) : (runtime.markDrift reason).state =
    { runtime.state with
      driftCount := runtime.state.driftCount + 1
      status := .driftFlagged } := rfl

theorem scheduleProviderExecution_spec {task : Option ProviderExecutionTask}
    (h : runtime.scheduleProviderExecution = some (task, next)) :
    (∃ route, next.state = { runtime.state with lastRoute := route }) ∨
      ∃ reason route, next.state = { runtime.blockedState reason with lastRoute := route } := by
  rw [MathAtomsRuntime.scheduleProviderExecution] at h
  split at h
  · obtain ⟨blocked, hblocked, hmade⟩ := Option.map_eq_some_iff.mp h
    cases hmade
    exact .inr ⟨_, markProviderBlocked_spec hblocked⟩
  · split at h
    · obtain ⟨blocked, hblocked, hmade⟩ := Option.map_eq_some_iff.mp h
      cases hmade
      exact .inr ⟨_, markProviderBlocked_spec hblocked⟩
    · obtain ⟨⟨task, scheduled⟩, hscheduled, hmade⟩ := Option.map_eq_some_iff.mp h
      cases hmade
      simp only [MathAtomsRuntime.scheduleCall, Option.bind_eq_bind, Option.bind_eq_some_iff]
        at hscheduled
      obtain ⟨route, -, hmade⟩ := hscheduled
      cases hmade
      exact .inl ⟨route, rfl⟩

theorem preparedPlan_spec {output : ProviderExecutionOutput} {call : PreparedProviderCall}
    {plan : WorkPlan} (h : runtime.preparedPlan output = .ok (call, plan)) :
    runtime.state.status = .providerPending ∧ runtime.state.lastProviderCall = some call ∧
      call.workPlan = some plan ∧ output.workPlanId = plan.id := by
  simp only [MathAtomsRuntime.preparedPlan, bind_eq_ok, refuseIf_eq_ok, okOr_eq_ok, exists_const,
    not_not, not_or] at h
  obtain ⟨hstatus, prepared, hcall, made, hplan, ⟨hid, -⟩, hmade⟩ := h
  cases hmade
  exact ⟨hstatus, hcall, hplan, hid⟩

theorem verifyReport_spec {disk : Disk} {report : ProviderReport}
    (h : runtime.verifyProviderExecutionReport host disk report = some (.ok ())) :
    runtime.state.status = .providerPending ∧ ∃ call plan,
      runtime.state.lastProviderCall = some call ∧ call.workPlan = some plan ∧
        ReportVerified host disk report call plan := by
  rw [MathAtomsRuntime.verifyProviderExecutionReport] at h
  split at h
  · cases h
  · rename_i call plan hprepared
    obtain ⟨hstatus, hcall, hplan, hid⟩ := preparedPlan_spec hprepared
    refine ⟨hstatus, call, plan, hcall, hplan, ?_⟩
    obtain ⟨evidence, hevidence, hchecks⟩ := Option.map_eq_some_iff.mp h
    obtain ⟨verified, hverified, hchecks⟩ := bind_eq_ok.mp hchecks
    obtain ⟨_, haccounting, hchecks⟩ := bind_eq_ok.mp hchecks
    obtain ⟨_, houtput, hchecks⟩ := bind_eq_ok.mp hchecks
    obtain ⟨_, hcandidate, hartifact⟩ := bind_eq_ok.mp hchecks
    rw [mapError_eq_ok] at hverified
    simp only [ProviderReport.checkAccounting, bind_eq_ok, refuseIf_eq_ok, exists_const, not_or,
      not_not] at haccounting
    rw [ProviderReport.checkOutput, refuseIf_eq_ok] at houtput
    simp only [not_or, not_not] at houtput
    simp only [ProviderReport.checkCandidate, bind_eq_ok, okOr_eq_ok, refuseIf_eq_ok,
      mapError_eq_ok, exists_const, not_or, not_not] at hcandidate
    simp only [ProviderReport.checkArtifact, bind_eq_ok, refuseIf_eq_ok, not_or, not_not]
      at hartifact
    obtain ⟨candidate, hsome, hbundle, found, hfound, hattempts, hrepairs⟩ := hcandidate
    obtain ⟨path, hpath, bytes, hbytes, hsize, hhash⟩ := hartifact
    rw [hid, hverified] at hevidence
    rw [hid] at hfound
    exact {
      planId := hid
      workPlan := ⟨verified, hevidence, haccounting.2.2.2.1.symm, haccounting.2.2.2.2⟩
      candidate := ⟨candidate, found, hsome, hbundle, hfound, hattempts, hrepairs⟩
      text := ⟨houtput.2.2.1, houtput.2.2.2⟩
      artifact := ⟨path, bytes, hpath, hbytes, hsize, hhash⟩ }

theorem markProviderExecutionReport_spec {disk : Disk} {report : ProviderReport} {accepted : Bool}
    (h : runtime.markProviderExecutionReport host disk report = some (accepted, next)) :
    (runtime.verifyProviderExecutionReport host disk report = some (.ok ()) ∧
        ∃ route, next.state = { runtime.reportedState report with lastRoute := route }) ∨
      ∃ reason route, next.state = { runtime.blockedState reason with lastRoute := route } := by
  rw [MathAtomsRuntime.markProviderExecutionReport, Option.bind_eq_bind,
    Option.bind_eq_some_iff] at h
  obtain ⟨verdict, hverdict, h⟩ := h
  cases verdict with
  | error reason =>
    obtain ⟨blocked, hblocked, hmade⟩ := Option.bind_eq_some_iff.mp h
    cases hmade
    exact .inr ⟨_, markProviderBlocked_spec hblocked⟩
  | ok _ =>
    obtain ⟨route, -, hmade⟩ := Option.bind_eq_some_iff.mp h
    cases hmade
    exact .inl ⟨hverdict, route, rfl⟩

theorem latestRun_concat (past : List (Event Graph)) (event : Event Graph) : latestRun (past ++ [event]) =
    (intentRun event).or (latestRun past) := by
  rw [latestRun, List.filterMap_append, List.getLast?_append]
  cases h : intentRun event <;> simp [h, latestRun]

theorem latestReport_concat (past : List (Event Graph)) (event : Event Graph) : latestReport (past ++ [event]) =
    (reportOf event).or (latestReport past) := by
  rw [latestReport, List.filterMap_append, List.getLast?_append]
  cases h : reportOf event <;> simp [h, latestReport]

theorem provenRuns_concat (past : List (Event Graph)) (event : Event Graph) : provenRuns (past ++ [event]) =
    provenRuns past + if (intentRun event).any (·.run.status = .proven) then 1 else 0 := by
  rw [provenRuns, List.filterMap_append, List.countP_append, provenRuns]
  cases h : intentRun event <;> simp [h, List.countP_cons]

section Steps

variable {past : List (Event Graph)} {event : Event Graph} {state state' : RuntimeState}

theorem latestRun_aside (h : intentRun event = none) :
    latestRun (past ++ [event]) = latestRun past := by
  rw [latestRun_concat, h, Option.none_or]

theorem provenRuns_aside (h : intentRun event = none) :
    provenRuns (past ++ [event]) = provenRuns past := by
  rw [provenRuns_concat, h]
  rfl

theorem Held.aside (h : Held past state) (hevent : intentRun event = none)
    (hcall : state'.lastProviderCall = state.lastProviderCall) : Held (past ++ [event]) state' where
  fromRun call hsome := by
    rw [latestRun_aside hevent]
    apply h.fromRun
    rw [← hcall, hsome]
  planned call hsome := by
    apply h.planned
    rw [← hcall, hsome]

def Idle (status : RuntimeStatus) : Prop :=
  status = .draft ∨ status = .blocked ∨ status = .driftFlagged

theorem failsClosed_of_idle (hidle : Idle state.status) (hcount : state.proofCount = provenRuns past) :
    FailsClosed host past state := by
  refine ⟨fun h => ?_, fun h => ?_, fun h => ?_, hcount⟩ <;>
    rcases hidle with hidle | hidle | hidle <;> rw [h] at hidle <;> cases hidle

theorem FailsClosed.idle (h : FailsClosed host past state) (hevent : intentRun event = none)
    (hidle : Idle state'.status) (hcount : state'.proofCount = state.proofCount) :
    FailsClosed host (past ++ [event]) state' := by
  apply failsClosed_of_idle hidle
  rw [provenRuns_aside hevent, hcount]
  exact h.proofCount

theorem FailsClosed.rerouted (h : FailsClosed host past state) (hevent : intentRun event = none)
    (hreport : reportOf event = none) (route : List EnvelopeId) :
    FailsClosed host (past ++ [event]) { state with lastRoute := route } := by
  have hrun : latestRun (past ++ [event]) = latestRun past := latestRun_aside hevent
  have hlatest : latestReport (past ++ [event]) = latestReport past := by
    rw [latestReport_concat, hreport, Option.none_or]
  refine ⟨?_, h.providerPending, ?_, ?_⟩
  · rw [hrun]
    exact h.proven
  · rw [hrun, hlatest]
    intro hstatus
    obtain ⟨made, call, plan, disk, report, hmade, hcall, hplan, hsome, hverified, hholds⟩ :=
      h.verificationPending hstatus
    exact ⟨made, call, plan, disk, report, hmade, hcall, hplan, hsome, hverified,
      ⟨hholds.artifact, hholds.hash, hholds.len, hholds.planId, hholds.manifest, hholds.packets,
        hholds.candidate⟩⟩
  · rw [provenRuns_aside hevent]
    exact h.proofCount

end Steps

theorem runStatus_proven {blockers : List String} {call : Option PreparedProviderCall}
    (h : runStatus blockers call = .proven) : blockers = [] ∧ call = none := by
  unfold runStatus at h
  split at h
  · cases h
  · rename_i hblockers
    split at h
    · cases h
    · rename_i hcall
      exact ⟨not_not.mp hblockers, Option.not_isSome_iff_eq_none.mp hcall⟩

theorem runStatus_pending {blockers : List String} {call : Option PreparedProviderCall}
    (h : runStatus blockers call = .providerPending) : blockers = [] ∧ ∃ made, call = some made := by
  unfold runStatus at h
  split at h
  · cases h
  · rename_i hblockers
    split at h
    · rename_i hcall
      exact ⟨not_not.mp hblockers, Option.isSome_iff_exists.mp hcall⟩
    · cases h

theorem runStatus_ne_verification (blockers : List String) (call : Option PreparedProviderCall) :
    runStatus blockers call ≠ .verificationPending := by
  unfold runStatus
  split
  · exact RuntimeStatus.noConfusion
  · split <;> exact RuntimeStatus.noConfusion

theorem RunMade.sound {past : List (Event Graph)} {event : Event Graph} {intent : String} {coderMode : Bool}
    {run : ProofRun} (h : RunMade runtime intent coderMode run next)
    (hevent : intentRun event = some ⟨intent, coderMode, run⟩)
    (hcount : runtime.state.proofCount = provenRuns past) :
    FailsClosed host (past ++ [event]) next.state ∧ Held (past ++ [event]) next.state := by
  have hlatest : latestRun (past ++ [event]) = some ⟨intent, coderMode, run⟩ := by
    rw [latestRun_concat, hevent, Option.some_or]
  refine ⟨⟨fun hstatus => ?_, fun hstatus => ?_, fun hstatus => ?_, ?_⟩, fun call hcall => ?_,
    fun call hcall => ?_⟩
  · rw [h.status, h.settled] at hstatus
    obtain ⟨hblockers, hcall⟩ := runStatus_proven hstatus
    rw [h.blockers, h.call]
    exact ⟨hblockers, hcall, _, hlatest, h.unneeded hblockers hcall⟩
  · rw [h.status, h.settled] at hstatus
    obtain ⟨hblockers, call, hcall⟩ := runStatus_pending hstatus
    obtain ⟨plan, hplan⟩ := h.planned call hcall
    rw [h.blockers, h.call]
    exact ⟨hblockers, call, plan, hcall, hplan⟩
  · rw [h.status, h.settled] at hstatus
    exact absurd hstatus (runStatus_ne_verification _ _)
  · rw [h.proofCount, provenRuns_concat, hevent, hcount]
    simp only [Option.any_some, decide_eq_true_eq]
  · rw [h.call] at hcall
    exact ⟨_, hlatest, hcall⟩
  · rw [h.call] at hcall
    exact h.planned call hcall

theorem reported_sound {past : List (Event Graph)} {disk : Disk} {report : ProviderReport}
    {answer : RuntimeAnswer} {route : List EnvelopeId} (h : FailsClosed host past runtime.state)
    (hheld : Held past runtime.state)
    (hverified : runtime.verifyProviderExecutionReport host disk report = some (.ok ())) :
    FailsClosed host (past ++ [⟨runtime, .markProviderExecutionReport disk report, answer, next⟩])
      { runtime.reportedState report with lastRoute := route } := by
  obtain ⟨-, call, plan, hcall, hplan, hchecked⟩ := verifyReport_spec hverified
  obtain ⟨made, hmade, hprepared⟩ := hheld.fromRun call hcall
  refine ⟨fun hstatus => RuntimeStatus.noConfusion hstatus,
    fun hstatus => RuntimeStatus.noConfusion hstatus, fun _ => ?_, ?_⟩
  · refine ⟨made, call, plan, disk, report, ?_, hprepared, hplan, ?_, hchecked,
      ⟨rfl, rfl, rfl, rfl, rfl, rfl, rfl⟩⟩
    · exact (latestRun_aside rfl).trans hmade
    · exact latestReport_concat _ _
  · exact h.proofCount.trans (provenRuns_aside rfl).symm

theorem perform_sound {past : List (Event Graph)} {call : RuntimeCall} {answer : RuntimeAnswer}
    (hsafe : FailsClosed host past runtime.state) (hheld : Held past runtime.state)
    (made : perform host runtime call = some (answer, next)) :
    FailsClosed host (past ++ [⟨runtime, call, answer, next⟩]) next.state ∧
      Held (past ++ [⟨runtime, call, answer, next⟩]) next.state := by
  have hblocked : ∀ {reason : String} {route : List EnvelopeId},
      next.state = { runtime.blockedState reason with lastRoute := route } →
      intentRun ⟨runtime, call, answer, next⟩ = none →
      FailsClosed host (past ++ [⟨runtime, call, answer, next⟩]) next.state ∧
        Held (past ++ [⟨runtime, call, answer, next⟩]) next.state := by
    intro reason route hstate hevent
    rw [hstate]
    exact ⟨hsafe.idle hevent (.inr (.inl rfl)) rfl, hheld.aside hevent rfl⟩
  cases call with
  | runIntent intent =>
    rw [perform, Option.map_eq_some_iff] at made
    obtain ⟨⟨run, next⟩, hrun, hmade⟩ := made
    rw [MathAtomsRuntime.runIntent] at hrun
    cases hmade
    exact (runIntentInMode_spec hrun).sound rfl hsafe.proofCount
  | runCoderIntent intent =>
    rw [perform, Option.map_eq_some_iff] at made
    obtain ⟨⟨run, next⟩, hrun, hmade⟩ := made
    rw [MathAtomsRuntime.runCoderIntent] at hrun
    cases hmade
    exact (runIntentInMode_spec hrun).sound rfl hsafe.proofCount
  | scheduleProviderExecution =>
    rw [perform, Option.map_eq_some_iff] at made
    obtain ⟨⟨task, next⟩, hscheduled, hmade⟩ := made
    cases hmade
    rcases scheduleProviderExecution_spec hscheduled with ⟨route, hstate⟩ | ⟨_, _, hstate⟩
    · rw [hstate]
      exact ⟨hsafe.rerouted rfl rfl route, hheld.aside rfl rfl⟩
    · exact hblocked hstate rfl
  | markProviderExecutionReport disk report =>
    rw [perform, Option.map_eq_some_iff] at made
    obtain ⟨⟨accepted, next⟩, hreported, hmade⟩ := made
    cases hmade
    rcases markProviderExecutionReport_spec hreported with ⟨hverified, _, hstate⟩ | ⟨_, _, hstate⟩
    · rw [hstate]
      exact ⟨reported_sound hsafe hheld hverified, hheld.aside rfl rfl⟩
    · exact hblocked hstate rfl
  | markProviderBlocked reason =>
    rw [perform, Option.map_eq_some_iff] at made
    obtain ⟨next, hmarked, hmade⟩ := made
    cases hmade
    obtain ⟨route, hstate⟩ := markProviderBlocked_spec hmarked
    exact hblocked hstate rfl
  | markStoreBlocked reason =>
    rw [perform, Option.some_inj, Prod.mk.injEq] at made
    obtain ⟨-, rfl⟩ := made
    rw [markStoreBlocked_state]
    exact ⟨hsafe.idle rfl (.inr (.inl rfl)) rfl, hheld.aside rfl rfl⟩
  | markDrift reason =>
    rw [perform, Option.some_inj, Prod.mk.injEq] at made
    obtain ⟨-, rfl⟩ := made
    rw [markDrift_state]
    exact ⟨hsafe.idle rfl (.inr (.inr rfl)) rfl, hheld.aside rfl rfl⟩
  | setProvider provider =>
    cases made
    exact ⟨hsafe.idle rfl (.inl rfl) rfl, nofun, nofun⟩

theorem run_sound {past : List (Event Graph)} (h : Run (perform host) Fresh past runtime) :
    FailsClosed host past runtime.state ∧ Held past runtime.state := by
  apply h.induction fun past runtime => FailsClosed host past runtime.state ∧ Held past runtime.state
  · rintro _ ⟨provider, graph, rfl⟩
    exact ⟨failsClosed_of_idle (.inl rfl) rfl, nofun, nofun⟩
  · intro past event ⟨hsafe, hheld⟩ hmade
    exact perform_sound hsafe hheld hmade

/-- However the runtime is called, its states promise no more than what happened. -/
theorem runtime_fails_closed {past : List (Event Graph)}
    (h : Run (perform host) Fresh past runtime) : FailsClosed host past runtime.state :=
  (run_sound h).1

def sampleHost : Host Unit where
  retrieve _ _ _ _ := []
  hasRelationshipPath _ _ _ _ := true
  addProofRecord graph _ := graph
  addLearningRecord graph _ := graph
  debugError _ := ""
  debugText text := text
  rust := ⟨id, fun c => isAsciiAlphanumeric c, fun texts => ",".intercalate texts⟩
  fuel := 0

def sampleProvider : CoreProviderConfig :=
  { sampleConfig with
    planTimeoutSeconds := 11520
    verificationAttemptLimit := 8
    verificationTimeoutSeconds := 180 }

theorem runtime_fails_closed_sample : ∃ past runtime,
    Run (perform sampleHost) Fresh past runtime ∧ runtime.state.status = .proven ∧ FailsClosed sampleHost past runtime.state := by
  have hreturns : ((perform sampleHost (.withGraph sampleProvider ())
      (.runIntent "render the native surface")).any fun made =>
        made.2.state.status = .proven) = true := by
    decide +kernel
  rw [Option.any_eq_true] at hreturns
  obtain ⟨⟨answer, next⟩, hmade, hproven⟩ := hreturns
  have hfresh : Fresh (.withGraph sampleProvider ()) := ⟨sampleProvider, (), rfl⟩
  have hrun := Run.call (.start hfresh) hmade
  exact ⟨_, next, hrun, of_decide_eq_true hproven, runtime_fails_closed hrun⟩

end AtomVibe.CoreRuntime
