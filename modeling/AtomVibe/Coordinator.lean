import AtomVibe.LedgerStore

namespace AtomVibe.Coordinator

open Bus BuildProtocol PlannerModel BuildPlanner LedgerCodec LedgerStore

structure PlannerBusRoute where
  buildId : String
  event : String
  terminal : EnvelopeId
  route : List EnvelopeId

structure BuildCoordinator where
  store : BuildLedgerStore
  planners : Catalog String BuildLedger
  bus : SpiderwebBus
  routes : List PlannerBusRoute
  fresh : bus.Fresh

def decisionEvidenceIds (ledger : BuildLedger) (decision : BuildPlannerDecision) : List String :=
  let artifacts : Option (List BuildArtifactRef) := match decision with
    | .advance _ => ledger.stepOutputs.getLast?.map (·.artifacts)
    | .hardHalt _ | .autonomousRetry _ => ledger.retryLedger.getLast?.map (·.artifacts)
    | .deferred _ => none
  (artifacts.getD []).map fun artifact => "artifact:" ++ artifact.path

def plannerEventBody : BuildPlannerEvent → String
  | .buildStarted _ projectId releasedSkill =>
    "build started for " ++ projectId ++ "; released " ++ releasedSkill
  | .stepAdvanced _ _ completedStep _ releasedSkill =>
    completedStep.asStr ++ " passed; released " ++ releasedSkill.getD "build-complete"
  | .deferredDebtRecorded _ _ step reason => step.asStr ++ " deferred debt recorded: " ++ reason
  | .hardHalted _ _ step errorClass summary =>
    step.asStr ++ " hard halted for " ++ errorClass.asStr ++ ": " ++ summary
  | .autonomousRetryRequested _ _ step _ attempt attemptLimit summary =>
    step.asStr ++ " correction " ++ attempt.toNat.repr ++ "/" ++ attemptLimit.toNat.repr ++
      " requested: " ++ summary

def emitRoute (bus : SpiderwebBus) (start : Bool) (label body : String)
    (evidenceIds : List String) : EnvelopeId × SpiderwebBus :=
  let blocked := label == "hard_halt" || label == "autonomous_retry_requested"
  let (ingress, bus) := bus.l0Transport (if start then .intentIngress else .workPacketExecuted)
    (if start then "operator" else "build-gate") "atom-build-planner" body
  let (message, bus) := bus.l1Message ingress
    (if blocked then .proofBlocked else if start then .workPlanCreated else .proofCaptured)
    "atom-build-planner" "build-ledger-store" label
  let (flow, bus) := bus.l2Flow message (if blocked then .storeBlocked else .storeObserved)
    "build-ledger-store" "build-skill-router" body evidenceIds
  bus.l3Orchestrate flow
    (if blocked then .proofBlocked else if label == "advance" then .workPlanCompleted
      else .workPlanCreated)
    "build-skill-router" "atom-vibe-runtime" body evidenceIds

theorem fresh_emitRoute {bus : SpiderwebBus} (h : bus.Fresh) (start : Bool) (label body : String)
    (evidenceIds : List String) : (emitRoute bus start label body evidenceIds).2.Fresh :=
  SpiderwebBus.fresh_emit (SpiderwebBus.fresh_emit (SpiderwebBus.fresh_emit
    (SpiderwebBus.fresh_emit h _) _) _) _

theorem emitRoute_complete {bus : SpiderwebBus} (h : bus.Fresh) (start : Bool)
    (label body : String) (evidenceIds : List String) :
    (emitRoute bus start label body evidenceIds).2.routeContainsAllLayers
      (emitRoute bus start label body evidenceIds).1 = some true :=
  SpiderwebBus.route_of_emissions h rfl ⟨rfl, rfl, rfl, rfl⟩ rfl rfl rfl

namespace BuildCoordinator

def restorePlanners (planners : Catalog String BuildLedger) :
    List BuildLedger → Except BuildPlannerError (Catalog String BuildLedger)
  | [] => .ok planners
  | ledger :: ledgers => do
    let planner ← fromLedger ledger
    restorePlanners (planners.insert ledger.buildId planner) ledgers

def openRoot (store : BuildLedgerStore) (entries : List String) (root : LedgerRoot) :
    Except BuildPlannerError BuildCoordinator := do
  let ledgers ← (store.list entries root).mapError fun error => .store error.display
  let planners ← restorePlanners Catalog.empty ledgers
  return ⟨store, planners, .new, [], SpiderwebBus.fresh_new⟩

def emit (coordinator : BuildCoordinator) (buildId : String) (event : BuildPlannerEvent)
    (evidenceIds : List String) (decision : Option String) :
    Except BuildPlannerError Unit × BuildCoordinator :=
  let start := match event with
    | .buildStarted .. => true
    | _ => false
  let label := decision.getD "build_started"
  let body := plannerEventBody event
  let sent := emitRoute coordinator.bus start label body evidenceIds
  let emitted := { coordinator with
    bus := sent.2
    fresh := fresh_emitRoute coordinator.fresh start label body evidenceIds }
  if sent.2.routeContainsAllLayers sent.1 ≠ some true then
    (.error .incompleteSpiderwebRoute, emitted)
  else
    (.ok (), { emitted with
      routes := coordinator.routes ++
        [⟨buildId, label, sent.1, ((sent.2.routeFor sent.1).getD []).map (·.id)⟩] })

theorem emit_eq (coordinator : BuildCoordinator) (buildId : String) (event : BuildPlannerEvent)
    (evidenceIds : List String) (decision : Option String) : ∃ sent : BuildCoordinator,
      coordinator.emit buildId event evidenceIds decision = (.ok (), sent) ∧
        sent.store = coordinator.store ∧ sent.planners = coordinator.planners := by
  unfold emit
  dsimp only
  rw [if_neg (not_not.mpr (emitRoute_complete coordinator.fresh _ _ _ _))]
  exact ⟨_, rfl, rfl, rfl⟩

def startPlanner (coordinator : BuildCoordinator) (planner : BuildLedger) (root : LedgerRoot) :
    Except BuildPlannerError String × BuildCoordinator × LedgerRoot :=
  match coordinator.store.save planner root with
  | (.error error, root) => (.error (.store error.display), coordinator, root)
  | (.ok _, root) =>
    match coordinator.emit planner.buildId (startEvent planner) [] none with
    | (.error error, coordinator) => (.error error, coordinator, root)
    | (.ok (), coordinator) =>
      (.ok planner.buildId,
        { coordinator with planners := coordinator.planners.insert planner.buildId planner }, root)

def startBuild (coordinator : BuildCoordinator) (projectId : String) (autonomousCorrection : Bool)
    (retryLimit : UInt8) (now : UInt64) (pid : UInt32) (sequence : UInt64) (root : LedgerRoot) :
    Except BuildPlannerError String × BuildCoordinator × LedgerRoot :=
  match new projectId autonomousCorrection retryLimit now pid sequence with
  | .error error => (.error error, coordinator, root)
  | .ok planner => coordinator.startPlanner planner root

def commit (coordinator : BuildCoordinator) (buildId : String) (decision : BuildPlannerDecision)
    (candidate : BuildLedger) (root : LedgerRoot) :
    Except BuildPlannerError BuildPlannerDecision × BuildCoordinator × LedgerRoot :=
  match coordinator.store.save candidate root with
  | (.error error, root) => (.error (.store error.display), coordinator, root)
  | (.ok _, root) =>
    match coordinator.emit buildId decision.event (decisionEvidenceIds candidate decision)
        (some decision.label) with
    | (.error error, coordinator) => (.error error, coordinator, root)
    | (.ok (), coordinator) =>
      (.ok decision,
        { coordinator with planners := coordinator.planners.insert buildId candidate }, root)

def evaluate (coordinator : BuildCoordinator) (buildId : String) (call : Call)
    (root : LedgerRoot) :
    Except BuildPlannerError BuildPlannerDecision × BuildCoordinator × LedgerRoot :=
  match coordinator.planners.lookup buildId with
  | none => (.error (.buildNotFound buildId), coordinator, root)
  | some planner =>
    match evaluateAndHandle planner call with
    | (.error error, _) => (.error error, coordinator, root)
    | (.ok decision, candidate) => coordinator.commit buildId decision candidate root

structure Keeps (coordinator : BuildCoordinator) (planner : BuildLedger)
    (changed : BuildCoordinator) : Prop where
  store : changed.store = coordinator.store
  planners : changed.planners = coordinator.planners.insert planner.buildId planner

theorem startPlanner_error {coordinator : BuildCoordinator} {planner : BuildLedger}
    {root : LedgerRoot} {error : BuildLedgerStoreError}
    (h : (coordinator.store.save planner root).1 = .error error) :
    coordinator.startPlanner planner root =
      (.error (.store error.display), coordinator, (coordinator.store.save planner root).2) := by
  unfold startPlanner
  rw [show coordinator.store.save planner root =
      (.error error, (coordinator.store.save planner root).2) from Prod.ext h rfl]

theorem startPlanner_ok {coordinator : BuildCoordinator} {planner : BuildLedger}
    {root : LedgerRoot} {path : String} (h : (coordinator.store.save planner root).1 = .ok path) :
    ∃ changed, Keeps coordinator planner changed ∧ coordinator.startPlanner planner root =
      (.ok planner.buildId, changed, (coordinator.store.save planner root).2) := by
  obtain ⟨sent, hsent, hstore, hplanners⟩ :=
    emit_eq coordinator planner.buildId (startEvent planner) [] none
  refine ⟨{ sent with planners := sent.planners.insert planner.buildId planner },
    ⟨hstore, congrArg (·.insert planner.buildId planner) hplanners⟩, ?_⟩
  unfold startPlanner
  rw [show coordinator.store.save planner root =
      (.ok path, (coordinator.store.save planner root).2) from Prod.ext h rfl]
  simp only [hsent]

theorem commit_error {coordinator : BuildCoordinator} {buildId : String}
    {decision : BuildPlannerDecision} {candidate : BuildLedger} {root : LedgerRoot}
    {error : BuildLedgerStoreError}
    (h : (coordinator.store.save candidate root).1 = .error error) :
    coordinator.commit buildId decision candidate root =
      (.error (.store error.display), coordinator, (coordinator.store.save candidate root).2) := by
  unfold commit
  rw [show coordinator.store.save candidate root =
      (.error error, (coordinator.store.save candidate root).2) from Prod.ext h rfl]

theorem commit_ok {coordinator : BuildCoordinator} {decision : BuildPlannerDecision}
    {candidate : BuildLedger} {root : LedgerRoot} {path : String}
    (h : (coordinator.store.save candidate root).1 = .ok path) :
    ∃ changed, Keeps coordinator candidate changed ∧
      coordinator.commit candidate.buildId decision candidate root =
        (.ok decision, changed, (coordinator.store.save candidate root).2) := by
  obtain ⟨sent, hsent, hstore, hplanners⟩ := emit_eq coordinator candidate.buildId decision.event
    (decisionEvidenceIds candidate decision) (some decision.label)
  refine ⟨{ sent with planners := sent.planners.insert candidate.buildId candidate },
    ⟨hstore, congrArg (·.insert candidate.buildId candidate) hplanners⟩, ?_⟩
  unfold commit
  rw [show coordinator.store.save candidate root =
      (.ok path, (coordinator.store.save candidate root).2) from Prod.ext h rfl]
  simp only [hsent]

end BuildCoordinator

end AtomVibe.Coordinator
