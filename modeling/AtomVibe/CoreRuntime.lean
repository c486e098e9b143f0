import AtomVibe.CandidateStore
import AtomVibe.CoreIntent
import AtomVibe.LearningLedger
import AtomVibe.ProofLedger
import AtomVibe.WorkRoundTrip

namespace AtomVibe.CoreRuntime

open Checked Text Hash Bus Context Doctrine Provider Work EvidenceDisk Verification Secrets
open Proof Learning

inductive RuntimeStatus
  | draft
  | providerPending
  | verificationPending
  | proven
  | blocked
  | driftFlagged
  deriving DecidableEq

def RuntimeStatus.asStr : RuntimeStatus → String
  | draft => "draft"
  | providerPending => "provider pending"
  | verificationPending => "verification pending"
  | proven => "proven"
  | blocked => "blocked"
  | driftFlagged => "drift flagged"

structure ProviderExecutionOutput where
  text : String
  workPlanId : String
  workPlanManifest : String
  packetIds : List String
  executedPackets : UInt64
  resumedPackets : UInt64
  candidateVerification : Option CandidateVerificationEvidence

/-- The counts are natural numbers: the bus keeps every envelope of a run, so that memory ends
before the source's `u32` do. -/
structure RuntimeState where
  selectedRecipe : String
  selectedAtoms : List String
  status : RuntimeStatus
  proofCount : ℕ
  driftCount : ℕ
  evidence : List Evidence
  blockers : List String
  lastProviderCall : Option PreparedProviderCall
  lastProviderOutputArtifact : String
  lastProviderOutputHash : String
  lastProviderOutputLen : ℕ
  lastWorkPlanId : String
  lastWorkPlanManifest : String
  lastWorkPacketCount : ℕ
  lastCandidateVerification : Option CandidateVerificationEvidence
  lastRoute : List EnvelopeId

structure ProofRun where
  recipeId : String
  atomKeys : List String
  evidence : List Evidence
  providerCall : Option PreparedProviderCall
  blockers : List String
  proofEnvelope : EnvelopeId
  status : RuntimeStatus

structure ProviderExecutionTask where
  call : PreparedProviderCall
  route : List EnvelopeId

/-- What the runtime asks of its graph, and what of the checks is not its own: how errors and texts
are written for debugging, the checks of Rust texts, and how long the schedule check may loop. -/
structure Host (Graph : Type) where
  retrieve : Graph → String → List String → ℕ → List Evidence
  hasRelationshipPath : Graph → String → String → ℕ → Bool
  addProofRecord : Graph → ProofRecord → Graph
  addLearningRecord : Graph → LearningRecord → Graph
  debugError : ProviderError → String
  debugText : String → String
  rust : RustText
  fuel : ℕ

structure MathAtomsRuntime (Graph : Type) where
  bus : SpiderwebBus
  graph : Graph
  provider : CoreProviderConfig
  state : RuntimeState

def draftState (proofCount driftCount : ℕ) : RuntimeState where
  selectedRecipe := "native-atom-renderer"
  selectedAtoms := []
  status := .draft
  proofCount
  driftCount
  evidence := []
  blockers := []
  lastProviderCall := none
  lastProviderOutputArtifact := ""
  lastProviderOutputHash := ""
  lastProviderOutputLen := 0
  lastWorkPlanId := ""
  lastWorkPlanManifest := ""
  lastWorkPacketCount := 0
  lastCandidateVerification := none
  lastRoute := []

def nodeIds (evidence : List Evidence) : List String := evidence.map (·.nodeId)

def announceIntent (bus : SpiderwebBus) (intent : String) (atoms : List String)
    (evidence : List Evidence) : EnvelopeId × SpiderwebBus :=
  let l0 := bus.l0Transport .intentIngress "operator" "math-atoms-runtime" intent
  let l1 := l0.2.l1Message l0.1 .intentClassified "classifier" "wiki-graph"
    (",".intercalate atoms)
  let learningHits := (evidence.filter fun item => startsWith "learning:" item.nodeId).length
  l1.2.l2Flow l1.1 .evidenceRetrieved "wiki-graph" "recipe-selector"
    ("graph evidence ranked from atom and recipe relationships; " ++ learningHits.repr ++
      " durable learning records preloaded") (nodeIds evidence)

structure CallOutcome where
  call : Option PreparedProviderCall
  blockers : List String
  recipeParent : EnvelopeId
  bus : SpiderwebBus

def announceCall (debug : ProviderError → String) (bus : SpiderwebBus) (l2 : EnvelopeId)
    (evidenceIds : List String) : Except ProviderError PreparedProviderCall → CallOutcome
  | .ok call =>
    if call.body = "" then ⟨none, [], l2, bus⟩
    else
      let prepared := bus.l2Flow l2 .providerPrepared "provider-adapter" "model"
        "provider request prepared from graph evidence" evidenceIds
      match call.workPlan with
      | some plan =>
        let planned := prepared.2.l2Flow prepared.1 .workPlanCreated "work-planner"
          "provider-worker" (plan.packets.length.repr ++
            " base packets prepared; file packets expand from the strict manifest") evidenceIds
        ⟨some call, [], planned.1, planned.2⟩
      | none => ⟨some call, [], prepared.1, prepared.2⟩
  | .error (.missingApiKey env) =>
    let blocked := bus.l2Flow l2 .providerBlocked "provider-adapter" "operator"
      "provider credential missing; route failed closed" evidenceIds
    ⟨none, ["Missing provider credential in " ++ env], blocked.1, blocked.2⟩
  | .error error => ⟨none, ["Provider setup failed: " ++ debug error], l2, bus⟩

def recipeBlockers (linked : Bool) (recipe : Recipe) : List String :=
  (if linked then [] else [recipe.id ++ " is not graph-linked to the production app mission"]) ++
    if stackQuality recipe.atoms recipe.atoms < 0 then
      [recipe.id ++ " has an invalid canonical atom stack"] else []

def routeBlockers (allLayers : Bool) : List String :=
  if allLayers then [] else ["Spiderweb Bus route did not touch all L0-L3 layers"]

def runStatus (blockers : List String) (call : Option PreparedProviderCall) : RuntimeStatus :=
  if blockers ≠ [] then .blocked else if call.isSome then .providerPending else .proven

def proofKind (blockers : List String) (call : Option PreparedProviderCall) : BusMessageKind :=
  if blockers ≠ [] then .proofBlocked else if call.isSome then .proofPending else .proofCaptured

def proofBody (recipe : Recipe) (evidence : List Evidence) (blockers : List String)
    (call : Option PreparedProviderCall) : String :=
  if blockers ≠ [] then "; ".intercalate blockers
  else if call.isSome then
    recipe.name ++ " selected for " ++ mission.readinessFloor ++
      "; provider execution required before proof can pass"
  else
    recipe.name ++ " selected for " ++ mission.readinessFloor ++ " with " ++
      evidence.length.repr ++ " evidence nodes"

def routeIds (bus : SpiderwebBus) (id : EnvelopeId) : Option (List EnvelopeId) :=
  (bus.routeFor id).map fun route => route.map (·.id)

namespace MathAtomsRuntime

variable {Graph : Type} (host : Host Graph) (runtime : MathAtomsRuntime Graph)

def withGraph (provider : CoreProviderConfig) (graph : Graph) : MathAtomsRuntime Graph :=
  ⟨SpiderwebBus.new, graph, provider, draftState 0 0⟩

def setProvider (provider : CoreProviderConfig) : MathAtomsRuntime Graph :=
  { runtime with
    provider
    state := draftState runtime.state.proofCount runtime.state.driftCount }

def providerResult (intent : String) (recipe : Recipe) (providerRoute : Bool)
    (evidence : List Evidence) : Except ProviderError PreparedProviderCall :=
  if recipe.requiresProvider || providerRoute then
    runtime.provider.prepareCallWithAtoms intent recipe.id recipe.atoms evidence
  else .ok emptyCall

/-- `none` where a route of the bus has no end. -/
def runIntentInMode (intent : String) (coderMode : Bool) :
    Option (ProofRun × MathAtomsRuntime Graph) := do
  let providerRoute := coderMode || providerRouteRequired intent
  let atoms := classifyIntent intent
  let evidence := host.retrieve runtime.graph intent atoms 8
  let l2 := announceIntent runtime.bus intent atoms evidence
  let recipe ← selectRecipe intent atoms evidence runtime.provider.isReady providerRoute
  let outcome := announceCall host.debugError l2.2 l2.1 (nodeIds evidence)
    (runtime.providerResult intent recipe providerRoute evidence)
  let linked := host.hasRelationshipPath runtime.graph recipe.id "mission:production-app-build" 6
  let l3 := outcome.bus.l3Orchestrate outcome.recipeParent .recipeSelected
    "recipe-selector" "proof-loop" recipe.id (nodeIds evidence)
  let allLayers ← l3.2.routeContainsAllLayers l3.1
  let blockers := outcome.blockers ++ recipeBlockers linked recipe ++ routeBlockers allLayers
  let status := runStatus blockers outcome.call
  let proof := l3.2.l3Orchestrate l3.1 (proofKind blockers outcome.call) "proof-loop"
    "artifact-state" (proofBody recipe evidence blockers outcome.call) (nodeIds evidence)
  let route ← routeIds proof.2 proof.1
  let state : RuntimeState := {
    selectedRecipe := recipe.id
    selectedAtoms := recipe.atoms
    status
    proofCount := runtime.state.proofCount + if status = .proven then 1 else 0
    driftCount := runtime.state.driftCount
    evidence
    blockers
    lastProviderCall := outcome.call
    lastProviderOutputArtifact := ""
    lastProviderOutputHash := ""
    lastProviderOutputLen := 0
    lastWorkPlanId := ((outcome.call.bind (·.workPlan)).map (·.id)).getD ""
    lastWorkPlanManifest := ""
    lastWorkPacketCount := 0
    lastCandidateVerification := none
    lastRoute := route }
  return (⟨recipe.id, recipe.atoms, evidence, outcome.call, blockers, proof.1, status⟩,
    { runtime with
      bus := proof.2
      state })

def runIntent (intent : String) : Option (ProofRun × MathAtomsRuntime Graph) :=
  runtime.runIntentInMode host intent false

def runCoderIntent (intent : String) : Option (ProofRun × MathAtomsRuntime Graph) :=
  runtime.runIntentInMode host intent true

def markDrift (reason : String) : MathAtomsRuntime Graph :=
  let l3 := runtime.bus.l3Orchestrate (runtime.state.lastRoute.getLast?.getD 0) .driftFlagged
    "operator" "proof-loop" reason []
  { runtime with
    bus := l3.2
    state := { runtime.state with
      driftCount := runtime.state.driftCount + 1
      status := .driftFlagged } }

def blockedState (reason : String) : RuntimeState :=
  { runtime.state with
    status := .blocked
    blockers := pushUnique runtime.state.blockers reason }

def announceBlocked (reason : String) : EnvelopeId × SpiderwebBus :=
  let evidenceIds := nodeIds runtime.state.evidence
  let l0 := runtime.bus.l0TransportFrom runtime.state.lastRoute.getLast? .providerBlocked
    "model-worker" "provider-adapter" reason
  let l1 := l0.2.l1Message l0.1 .providerBlocked "provider-adapter" "proof-loop" reason
  let l2 := l1.2.l2Flow l1.1 .providerBlocked "provider-adapter" "proof-loop" reason evidenceIds
  l2.2.l3Orchestrate l2.1 .providerBlocked "proof-loop" "artifact-state" reason evidenceIds

def markProviderBlocked (reason : String) : Option (MathAtomsRuntime Graph) := do
  let reason := redactSensitiveText reason
  let l3 := runtime.announceBlocked reason
  let route ← routeIds l3.2 l3.1
  return { runtime with
    bus := l3.2
    state := { runtime.blockedState reason with lastRoute := route } }

def markStoreBlocked (reason : String) : MathAtomsRuntime Graph :=
  let reason := redactSensitiveText reason
  let l3 := runtime.bus.l3Orchestrate (runtime.state.lastRoute.getLast?.getD 0) .storeBlocked
    "proof-store" "proof-loop" reason (nodeIds runtime.state.evidence)
  { runtime with
    bus := l3.2
    state := runtime.blockedState reason }

def announceSchedule (call : PreparedProviderCall) : EnvelopeId × SpiderwebBus :=
  let evidenceIds := nodeIds runtime.state.evidence
  let l0 := runtime.bus.l0TransportFrom runtime.state.lastRoute.getLast?
    .providerExecutionRequested "proof-loop" "provider-adapter"
    "provider execution requested from pending proof route"
  let l1 := l0.2.l1Message l0.1 .providerExecutionRequested "provider-adapter" "model-worker"
    (call.model ++ " via " ++ call.endpoint)
  let l2 := l1.2.l2Flow l1.1 .providerExecutionScheduled "provider-adapter" "model-worker"
    "provider worker scheduled with graph evidence payload" evidenceIds
  l2.2.l3Orchestrate l2.1 .providerExecutionScheduled "proof-loop" "provider-worker"
    "provider execution lifted onto Spiderweb orchestration route" evidenceIds

def scheduleCall (call : PreparedProviderCall) :
    Option (ProviderExecutionTask × MathAtomsRuntime Graph) := do
  let l3 := runtime.announceSchedule call
  let route ← routeIds l3.2 l3.1
  return (⟨call, route⟩, { runtime with
    bus := l3.2
    state := { runtime.state with lastRoute := route } })

def scheduleProviderExecution :
    Option (Option ProviderExecutionTask × MathAtomsRuntime Graph) :=
  match runtime.state.lastProviderCall with
  | none => (runtime.markProviderBlocked ("No prepared provider call. Run an intent that " ++
      "requests provider/model work first.")).map fun blocked => (none, blocked)
  | some call =>
    if runtime.state.status ≠ .providerPending then
      (runtime.markProviderBlocked "Provider execution requires a provider pending Spiderweb route").map
        fun blocked => (none, blocked)
    else (runtime.scheduleCall call).map fun (task, scheduled) => (some task, scheduled)

end MathAtomsRuntime

structure ProviderReport where
  outputArtifact : String
  outputHash : String
  outputLen : ℕ
  output : ProviderExecutionOutput

namespace ProviderReport

variable (report : ProviderReport)

def checkAccounting (call : PreparedProviderCall) (verified : VerifiedWorkPlan) :
    Except String Unit := do
  let total := report.output.executedPackets.toNat + report.output.resumedPackets.toNat
  refuseIf (2 ^ 64 ≤ total) "packet accounting overflowed"
  refuseIf (total ≠ report.output.packetIds.length ∨ ¬report.output.packetIds.Nodup ∨
      report.output.packetIds ≠ verified.packetIds ∨ verified.model ≠ call.model)
    "packet IDs, accounting, or model do not match evidence"

def checkOutput : Except String Unit :=
  refuseIf (isBlank report.outputArtifact = true ∨ report.outputLen = 0 ∨
      report.output.text.utf8ByteSize ≠ report.outputLen ∨
      sha256Tagged (asBytes report.output.text) ≠ report.outputHash)
    "provider output claim is empty or inconsistent"

def checkCandidate (debug : String → String) (disk : Disk) : Except String Unit := do
  let candidate ← okOr "real candidate verification evidence is missing"
    report.output.candidateVerification
  refuseIf (candidate.bundleHash ≠ report.outputHash)
    "candidate bundle does not match provider output"
  let verified ← (verifyCandidateEvidence debug disk candidate.manifestPath candidate.manifestHash
    report.output.workPlanId candidate.bundleHash).mapError VerificationError.display
  refuseIf (verified.attempts ≠ candidate.attempts ∨ verified.repairs ≠ candidate.repairs)
    "candidate verification accounting does not match evidence"

def checkArtifact (disk : Disk) : Except String Unit := do
  let path ← disk.canonicalize report.outputArtifact
  let bytes ← disk.read path
  refuseIf (bytes.size ≠ report.outputLen ∨ sha256Tagged bytes.data.toList ≠ report.outputHash)
    "provider output artifact does not recompute"

end ProviderReport

namespace MathAtomsRuntime

variable {Graph : Type} (host : Host Graph) (runtime : MathAtomsRuntime Graph)

def preparedPlan (output : ProviderExecutionOutput) :
    Except String (PreparedProviderCall × WorkPlan) := do
  refuseIf (runtime.state.status ≠ .providerPending) "runtime is not provider pending"
  let call ← okOr "prepared provider call is missing" runtime.state.lastProviderCall
  let plan ← okOr "prepared meticulous work plan is missing" call.workPlan
  refuseIf (output.workPlanId ≠ plan.id ∨ isBlank output.workPlanManifest = true)
    "reported work plan does not match the prepared plan"
  return (call, plan)

/-- `none` where the check of the work plan's evidence does not return. -/
def verifyProviderExecutionReport (disk : Disk) (report : ProviderReport) :
    Option (Except String Unit) :=
  match runtime.preparedPlan report.output with
  | .error reason => some (.error reason)
  | .ok (call, _) =>
    (verifyWorkPlanEvidence host.rust host.fuel disk report.output.workPlanManifest
      report.output.workPlanId report.output.packetIds.length).map fun evidence => do
        let verified ← evidence.mapError workErrorText
        report.checkAccounting call verified
        report.checkOutput
        report.checkCandidate host.debugText disk
        report.checkArtifact disk

def reportedState (report : ProviderReport) : RuntimeState :=
  { runtime.state with
    status := .verificationPending
    lastProviderOutputArtifact := report.outputArtifact
    lastProviderOutputHash := report.outputHash
    lastProviderOutputLen := report.outputLen
    lastWorkPlanId := report.output.workPlanId
    lastWorkPlanManifest := report.output.workPlanManifest
    lastWorkPacketCount := report.output.packetIds.length
    lastCandidateVerification := report.output.candidateVerification }

def announcePackets (evidenceIds : List String) (count : ℕ) :
    ℕ → List String → EnvelopeId → SpiderwebBus → EnvelopeId × SpiderwebBus
  | _, [], parent, bus => (parent, bus)
  | index, packetId :: packetIds, parent, bus =>
    let made := bus.l2Flow parent .workPacketExecuted "provider-worker" "work-proof"
      ("packet " ++ (index + 1).repr ++ "/" ++ count.repr ++ " completed: " ++ packetId) evidenceIds
    announcePackets evidenceIds count (index + 1) packetIds made.1 made.2

def announceReport (report : ProviderReport) : EnvelopeId × SpiderwebBus :=
  let evidenceIds := nodeIds runtime.state.evidence
  let model := (runtime.state.lastProviderCall.map (·.model)).getD "provider"
  let body := model ++ " executed output " ++ report.outputHash ++ " (" ++
    report.outputLen.repr ++ " bytes)"
  let packetIds := report.output.packetIds
  let l0 := runtime.bus.l0TransportFrom runtime.state.lastRoute.getLast? .providerExecuted
    "model-worker" "provider-adapter" body
  let l1 := l0.2.l1Message l0.1 .providerExecuted "provider-adapter" "proof-loop" body
  let l2 := l1.2.l2Flow l1.1 .providerExecuted "provider-adapter" "proof-loop" body evidenceIds
  let packets := announcePackets evidenceIds packetIds.length 0 packetIds l2.1 l2.2
  let completion :=
    if packetIds = [] then packets
    else packets.2.l3Orchestrate packets.1 .workPlanCompleted "work-proof" "proof-loop"
      (packetIds.length.repr ++ " packets complete; " ++
        report.output.executedPackets.toNat.repr ++ " executed, " ++
        report.output.resumedPackets.toNat.repr ++ " resumed") evidenceIds
  let l3 := completion.2.l3Orchestrate completion.1 .providerExecuted "proof-loop"
    "artifact-state" "provider worker completed through Spiderweb route" evidenceIds
  l3.2.l3Orchestrate l3.1 .proofPending "proof-loop" "artifact-state"
    "provider work evidence verified; executable product harness is still required" evidenceIds

def markProviderExecutionReport (disk : Disk) (report : ProviderReport) :
    Option (Bool × MathAtomsRuntime Graph) := do
  match ← runtime.verifyProviderExecutionReport host disk report with
  | .error reason =>
    let blocked ← runtime.markProviderBlocked ("provider report verification failed: " ++ reason)
    return (false, blocked)
  | .ok () =>
    let proof := runtime.announceReport report
    let route ← routeIds proof.2 proof.1
    return (true, { runtime with
      bus := proof.2
      state := { runtime.reportedState report with lastRoute := route } })

def announceUnread (reason : String) : EnvelopeId × SpiderwebBus :=
  let l0 := runtime.bus.l0Transport .storeBlocked "proof-store" "math-atoms-runtime" reason
  let l1 := l0.2.l1Message l0.1 .storeBlocked "math-atoms-runtime" "wiki-graph"
    "persistent proof records rejected"
  let l2 := l1.2.l2Flow l1.1 .storeBlocked "wiki-graph" "proof-loop"
    "startup proof evidence blocked before retrieval" []
  l2.2.l3Orchestrate l2.1 .storeBlocked "proof-loop" "artifact-state" reason []

def markStartupStoreBlocked (reason : String) : Option (MathAtomsRuntime Graph) := do
  let l3 := runtime.announceUnread reason
  let route ← routeIds l3.2 l3.1
  return { runtime with
    bus := l3.2
    state := { runtime.blockedState reason with lastRoute := route } }

def afterRead {α : Type} (ledger path : String) : Except String α → Option (MathAtomsRuntime Graph)
  | .ok _ => some runtime
  | .error error =>
    runtime.markStartupStoreBlocked (ledger ++ " store read failed at " ++ path ++ ": " ++ error)

def withStores (provider : CoreProviderConfig) (graph : Graph) (proofs : ProofStore)
    (learning : LearningStore) (disk : LedgerFields.Disk) : Option (MathAtomsRuntime Graph) := do
  let proofRead := proofs.readRecords disk
  let learningRead := learning.readRecords disk
  let graph := (proofRead.toOption.getD []).foldl host.addProofRecord graph
  let lessons := effectiveRecords (learningRead.toOption.getD []) defaultGraphMemoryLimit
  let runtime : MathAtomsRuntime Graph :=
    withGraph provider (lessons.foldl host.addLearningRecord graph)
  let runtime ← runtime.afterRead "Proof" proofs.path proofRead
  runtime.afterRead "Learning" learning.path learningRead

def learnProofRecord (record : ProofRecord) : MathAtomsRuntime Graph :=
  let parent := runtime.state.lastRoute.getLast?.getD 0
  if record.status = RuntimeStatus.proven.asStr then
    let l3 := runtime.bus.l3Orchestrate parent .storeLearned "proof-store" "wiki-graph"
      "stored proof record loaded into graph evidence" []
    { runtime with
      bus := l3.2
      graph := host.addProofRecord runtime.graph record }
  else
    let l3 := runtime.bus.l3Orchestrate parent .storeObserved "proof-store" "proof-loop"
      "stored non-proven run observed but not promoted to graph evidence" []
    { runtime with bus := l3.2 }

def announceLesson (record : LearningRecord) : EnvelopeId × SpiderwebBus :=
  let body := match record.outcome with
    | .succeeded => "gate-passing result promoted as reusable graph evidence"
    | .failed => "failure joined as correction evidence without proof promotion"
  let l0 := runtime.bus.l0TransportFrom runtime.state.lastRoute.getLast? .learningObserved
    record.source "learning-store" record.title
  let l1 := l0.2.l1Message l0.1 .learningPersisted "learning-store" "wiki-graph"
    "validated learning event persisted and read back"
  let l2 := l1.2.l2Flow l1.1 .learningApplied "wiki-graph" "recipe-selector" body
    [record.nodeId]
  l2.2.l3Orchestrate l2.1 .learningApplied "proof-loop" "artifact-state" body [record.nodeId]

def learnLearningRecord (record : LearningRecord) : Option (MathAtomsRuntime Graph) := do
  let l3 := runtime.announceLesson record
  let route ← routeIds l3.2 l3.1
  return { runtime with
    bus := l3.2
    graph := host.addLearningRecord runtime.graph record
    state := { runtime.state with lastRoute := route } }

end MathAtomsRuntime

end AtomVibe.CoreRuntime
