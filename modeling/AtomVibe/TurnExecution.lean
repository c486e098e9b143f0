import AtomVibe.Runtime
import AtomVibe.ProviderCall

namespace AtomVibe.Runtime

open Checked Text Hash Bus BuildProtocol PlannerModel BuildPlanner PlannerSteps PlannerInvariant
open LedgerStore Coordinator Scratchpad ScratchpadStore ScratchpadAppend ScratchpadOpen Provider
open RuntimeModel

structure CoderTurnContext where
  evidence : List Context.Evidence
  scratchpad : Context.ScratchpadProjection
  systemInstructions : String
  data : String
  route : List EnvelopeId

structure PreparedTurn where
  buildId : String
  step : BuildStep
  plannerRevision : UInt64
  providerIdentityHash : String
  context : CoderTurnContext
  request : ProviderRequest

/-- What a turn is put together from: the assembler of contexts with its wiki, the prompt of a mode
and the contract of a step's output. -/
structure Guide where
  prepare : Context.CoderContextRequest → ScratchpadStore → ScratchpadFiles → SpiderwebBus →
    Except String CoderTurnContext × SpiderwebBus × ScratchpadFiles
  systemPrompt : BuildStep → Except String String
  outputContract : BuildStep → String

structure StartClock where
  now : UInt64
  pid : UInt32
  sequence : UInt64
  createdAt : UInt64
  appendedAt : UInt64

theorem sound_restorePlanners {ledgers : List BuildLedger} {planners restored : Catalog String BuildLedger}
    (hplanners : ∀ buildId planner, planners.lookup buildId = some planner →
      planner.buildId = buildId ∧ planner.Valid)
    (h : BuildCoordinator.restorePlanners planners ledgers = .ok restored) :
    ∀ buildId planner, restored.lookup buildId = some planner →
      planner.buildId = buildId ∧ planner.Valid := by
  induction ledgers generalizing planners with
  | nil =>
    obtain rfl := Except.ok.inj h
    exact hplanners
  | cons ledger ledgers ih =>
    obtain ⟨planner, hplanner, hrest⟩ := bind_eq_ok.mp h
    obtain ⟨hvalid, rfl⟩ := fromLedger_eq_ok.mp hplanner
    refine ih ?_ hrest
    intro buildId other hlookup
    rw [Catalog.lookup_insert] at hlookup
    split_ifs at hlookup with hid
    · obtain rfl := Option.some.inj hlookup
      exact ⟨hid.symm, hvalid⟩
    · exact hplanners buildId other hlookup

theorem sound_openRoot {store : BuildLedgerStore} {entries : List String} {root : LedgerRoot}
    {coordinator : BuildCoordinator}
    (h : BuildCoordinator.openRoot store entries root = .ok coordinator) :
    SoundPlanners coordinator := by
  obtain ⟨ledgers, -, h⟩ := bind_eq_ok.mp h
  obtain ⟨planners, hplanners, h⟩ := bind_eq_ok.mp h
  obtain rfl := Except.ok.inj h
  exact sound_restorePlanners (by simp [Catalog.lookup, Catalog.empty]) hplanners

namespace AtomVibeRuntime

/-- `open`, below a root whose directories are there; `entries` is the order in which the ledgers
are listed, `wiki` what the assembler makes of the wiki it finds. -/
def openAt (root : String) (config : ProviderConfig) (entries : List String)
    (wiki : Except String Unit) (files : RuntimeFiles) : Except RuntimeError AtomVibeRuntime :=
  match h : BuildCoordinator.openRoot ⟨root ++ "/planners"⟩ entries files.planners with
  | .error error => .error (.planner error.display)
  | .ok coordinator => do
    wiki.mapError RuntimeError.context
    let provider ← (ProviderAdapter.new config).mapError RuntimeError.provider
    return ⟨root, coordinator, provider, .new, .new, [], sound_openRoot h⟩

def setProvider (runtime : AtomVibeRuntime) (config : ProviderConfig) :
    Except RuntimeError Unit × AtomVibeRuntime :=
  match ProviderAdapter.new config with
  | .error error => (.error (.provider error), runtime)
  | .ok provider => (.ok (), { runtime with provider })

def providerIdentityHash (runtime : AtomVibeRuntime) : String :=
  sha256Tagged (asBytes (providerIdentity runtime.config))

def observe (runtime : AtomVibeRuntime) (buildId operatorRequest : String) (unixTimeMs : UInt64)
    (files : RuntimeFiles) : Except RuntimeError Unit × RuntimeFiles :=
  match runtime.scratchpad buildId files with
  | (.error error, files) => (.error error, files)
  | (.ok store, files) =>
    let appended := store.append unixTimeMs none .observation operatorRequest
      ["operator:natural-language-request"] (files.pad store)
    ((appended.1.map fun _ => ()).mapError fun error => .scratchpad error.display,
      files.setPad store appended.2)

def started (runtime : AtomVibeRuntime) (projectId : String) (clock : StartClock)
    (root : LedgerRoot) : AtomVibeRuntime :=
  { runtime with
    coordinator := (runtime.coordinator.startBuild projectId true 6 clock.now clock.pid
      clock.sequence root).2.1
    sound := sound_startBuild runtime.sound projectId true 6 clock.now clock.pid clock.sequence root }

def startBuild (runtime : AtomVibeRuntime) (projectId operatorRequest : String)
    (clock : StartClock) (files : RuntimeFiles) :
    Except RuntimeError SessionManifest × AtomVibeRuntime × RuntimeFiles :=
  if isBlank operatorRequest then
    (.error (.invalidRequest "natural-language request is empty"), runtime, files)
  else
    let done := runtime.coordinator.startBuild projectId true 6 clock.now clock.pid clock.sequence
      files.planners
    let changed := runtime.started projectId clock files.planners
    let files := { files with planners := done.2.2 }
    match done.1 with
    | .error error => (.error (.planner error.display), changed, files)
    | .ok buildId =>
      match SessionStore.create buildId projectId operatorRequest changed.config clock.createdAt
        files.sessions with
      | (.error error, sessions) => (.error error, changed, { files with sessions })
      | (.ok manifest, sessions) =>
        let observed := changed.observe buildId operatorRequest clock.appendedAt
          { files with sessions }
        (observed.1.map fun _ => manifest, changed, observed.2)

def activeLedger (runtime : AtomVibeRuntime) (buildId : String) :
    Except RuntimeError BuildLedger := do
  let ledger ← okOr (.planner ("build " ++ buildId ++ " was not found"))
    (runtime.coordinator.planners.lookup buildId)
  refuseIf (ledger.status ≠ .active) (.buildNotActive buildId)
  return ledger

def turnFor (runtime : AtomVibeRuntime) (guide : Guide) (buildId : String) (ledger : BuildLedger)
    (context : CoderTurnContext) : Except RuntimeError PreparedTurn := do
  let mode ← (guide.systemPrompt ledger.currentStep).mapError RuntimeError.mode
  let systemInstructions := mode ++ "\n\n# Context controller\n\n" ++ context.systemInstructions ++
    "\n\n# Required output contract\n\n" ++ guide.outputContract ledger.currentStep
  let requestId := buildId ++ ":" ++ ledger.currentStep.asStr ++ ":" ++
    ledger.revision.toNat.repr ++ ":" ++ (context.scratchpad.entryCount + 1).repr
  let request := ProviderRequest.new requestId systemInstructions
    (Context.turnData context.data ledger)
  request.validate.mapError RuntimeError.provider
  return ⟨buildId, ledger.currentStep, ledger.revision, runtime.providerIdentityHash, context,
    request⟩

def prepareTurn (runtime : AtomVibeRuntime) (guide : Guide) (buildId : String)
    (files : RuntimeFiles) : Except RuntimeError PreparedTurn × AtomVibeRuntime × RuntimeFiles :=
  match (do
    let session ← SessionStore.load buildId files.sessions
    let ledger ← runtime.activeLedger buildId
    return (session, ledger)) with
  | .error error => (.error error, runtime, files)
  | .ok (session, ledger) =>
    match runtime.scratchpad buildId files with
    | (.error error, files) => (.error error, runtime, files)
    | (.ok store, files) =>
      let (context, bus, pad) := guide.prepare ⟨buildId, session.operatorRequest,
        ledger.currentStep, [], Context.latestFailure ledger⟩ store (files.pad store)
        runtime.contextBus
      (do
        let context ← context.mapError RuntimeError.context
        runtime.turnFor guide buildId ledger context,
        { runtime with contextBus := bus }, files.setPad store pad)

theorem turnFor_ok {runtime : AtomVibeRuntime} {guide : Guide} {buildId : String}
    {ledger : BuildLedger} {context : CoderTurnContext} {turn : PreparedTurn}
    (h : runtime.turnFor guide buildId ledger context = .ok turn) :
    turn.buildId = buildId ∧ turn.step = ledger.currentStep ∧
      turn.plannerRevision = ledger.revision ∧
      turn.providerIdentityHash = runtime.providerIdentityHash := by
  obtain ⟨mode, -, h⟩ := bind_eq_ok.mp h
  obtain ⟨-, -, h⟩ := bind_eq_ok.mp h
  obtain rfl := Except.ok.inj h
  exact ⟨rfl, rfl, rfl, rfl⟩

theorem prepareTurn_ok {runtime : AtomVibeRuntime} {guide : Guide} {buildId : String}
    {files : RuntimeFiles} {turn : PreparedTurn}
    (h : (runtime.prepareTurn guide buildId files).1 = .ok turn) :
    ∃ ledger, runtime.activeLedger buildId = .ok ledger ∧ turn.buildId = buildId ∧
      turn.step = ledger.currentStep ∧ turn.plannerRevision = ledger.revision ∧
      turn.providerIdentityHash = runtime.providerIdentityHash := by
  unfold prepareTurn at h
  split at h
  · simp at h
  · rename_i session ledger hloaded
    obtain ⟨_, -, hloaded⟩ := bind_eq_ok.mp hloaded
    obtain ⟨ledger', hledger, hloaded⟩ := bind_eq_ok.mp hloaded
    obtain ⟨rfl, rfl⟩ := Prod.ext_iff.mp (Except.ok.inj hloaded)
    split at h
    · simp at h
    · obtain ⟨context, -, h⟩ := bind_eq_ok.mp h
      exact ⟨ledger', hledger, turnFor_ok h⟩

end AtomVibeRuntime

end AtomVibe.Runtime

namespace AtomVibe.TurnStore

open Checked Hash BuildProtocol ChainFiles Provider RuntimeModel

structure NewTurnRecord where
  buildId : String
  step : BuildStep
  plannerRevision : UInt64
  receipt : ProviderTurnReceipt
  outputArtifact : String
  evidenceIds : List String
  contextRoute : List ℕ
  resultRoute : List ℕ
  scratchpadEntryHash : String

def unhashedRecord (input : NewTurnRecord) (records : List TurnRecord) (unixTimeMs : UInt64) :
    TurnRecord where
  schemaVersion := turnRecordSchemaVersion
  ordinal := UInt64.ofNat records.length + 1
  buildId := input.buildId
  step := input.step
  plannerRevision := input.plannerRevision
  provider := input.receipt.provider
  model := input.receipt.model
  requestBodyHash := input.receipt.requestBodyHash
  rawResponseHash := input.receipt.rawResponseHash
  outputHash := input.receipt.outputHash
  outputArtifact := input.outputArtifact
  elapsedMs := UInt64.ofNat (min input.receipt.elapsedMs (UInt64.size - 1))
  inputTokens := input.receipt.usage.inputTokens
  outputTokens := input.receipt.usage.outputTokens
  reasoningTokens := input.receipt.usage.reasoningTokens
  thinkingSource := input.receipt.thinking.source
  evidenceIds := input.evidenceIds
  contextRoute := input.contextRoute.map UInt64.ofNat
  resultRoute := input.resultRoute.map UInt64.ofNat
  scratchpadEntryHash := input.scratchpadEntryHash
  previousHash := (records.getLast?.map (·.recordHash)).getD ""
  recordHash := ""
  createdAtUnixMs := unixTimeMs

def writeRecord (readFile : ReadFile) (previous : Option TurnRecord) (record : TurnRecord)
    (turns : TurnDirs) : Except RuntimeError TurnRecord × TurnDirs :=
  let bytes := (recordJson record).toByteArray
  let turns := turns.insert record.buildId
    ((recordFiles turns record.buildId).insert (recordName record) bytes)
  (do
    let readback ← readRecord bytes
    validateRecord readback readFile previous
    refuseIf (readback ≠ record) (.turnStore "turn record changed on readback")
    return record, turns)

def append (readFile : ReadFile) (input : NewTurnRecord) (unixTimeMs : UInt64) (turns : TurnDirs) :
    Except RuntimeError TurnRecord × TurnDirs :=
  match (do
    let records ← load readFile input.buildId turns
    refuseIf (maxTurnsPerBuild ≤ records.length)
      (.turnStore ("turn limit is " ++ maxTurnsPerBuild.repr ++ " per build"))
    let unhashed := unhashedRecord input records unixTimeMs
    let record := { unhashed with recordHash := unhashed.computedHash }
    validateRecord record readFile records.getLast?
    return (records.getLast?, record)) with
  | .error error => (.error error, turns)
  | .ok (previous, record) => writeRecord readFile previous record turns

end AtomVibe.TurnStore

namespace AtomVibe.Runtime

open Checked Text Hash Bus BuildProtocol PlannerModel BuildPlanner Scratchpad ScratchpadStore
open Provider RuntimeModel

structure ExecutedTurn where
  receipt : ProviderTurnReceipt
  outputArtifact : String
  resultRoute : ProviderResultRoute
  record : TurnStore.TurnRecord

structure TurnClock where
  elapsedMs : ℕ
  appendedAt : UInt64
  createdAt : UInt64

def floorBoundary (cs : List Char) : ℕ → ℕ
  | 0 => 0
  | stop + 1 => if isCharBoundary (stop + 1) cs then stop + 1 else floorBoundary cs stop

def scratchpadOutput (text artifact hash : String) : String :=
  let header := "Provider output artifact: " ++ artifact ++ "\nOutput hash: " ++ hash ++ "\n"
  let available := maxEntryBytes - (header.utf8ByteSize + 64)
  let stop := floorBoundary text.toList (min text.utf8ByteSize available)
  if stop = text.utf8ByteSize then header ++ "Output:\n" ++ text
  else header ++ "Output projection (full output remains in artifact):\n" ++
    String.ofList (takeBytes stop text.toList) ++ "\n[projection truncated]"

def outputPath (buildId hash : String) : String :=
  "outputs/" ++ buildId ++ "/" ++ trimStartMatches "sha256:" hash ++ ".txt"

def persistProviderOutput (text path : String) (outputs : Catalog String ByteArray) :
    Except String Unit × Catalog String ByteArray :=
  if isBlank text ∨ maxProviderOutputBytes < text.utf8ByteSize then
    (.error "provider output is empty or exceeds the evidence limit", outputs)
  else
    match outputs.lookup path with
    | some bytes =>
      if sha256Tagged bytes.data.toList = sha256Tagged (asBytes text) then (.ok (), outputs)
      else (.error "content-addressed provider artifact hash mismatch", outputs)
    | none => (.ok (), outputs.insert path text.toByteArray)

namespace AtomVibeRuntime

def validatePrepared (runtime : AtomVibeRuntime) (prepared : PreparedTurn) :
    Except RuntimeError Unit := do
  let ledger ← runtime.activeLedger prepared.buildId
  refuseIf (ledger.currentStep ≠ prepared.step ∨ ledger.revision ≠ prepared.plannerRevision ∨
      runtime.providerIdentityHash ≠ prepared.providerIdentityHash)
    .stalePreparedTurn

def emitProviderRoute (runtime : AtomVibeRuntime) (blocked : Bool) (buildId body : String)
    (evidenceIds : List String) : ProviderResultRoute × AtomVibeRuntime :=
  let kind := if blocked then BusMessageKind.providerBlocked else .providerExecuted
  let (ingress, bus) := runtime.providerBus.l0Transport kind "provider-model" "provider-off-ramp" body
  let (message, bus) := bus.l1Message ingress kind "provider-off-ramp" "provider-receipt" buildId
  let (flow, bus) := bus.l2Flow message kind "provider-receipt" "coder-turn-store" body evidenceIds
  let (terminal, bus) := bus.l3Orchestrate flow kind "coder-turn-store" "atom-vibe-runtime" buildId
    evidenceIds
  let route := ⟨terminal, ((bus.routeFor terminal).getD []).map (·.id), blocked⟩
  (route, { runtime with
    providerBus := bus
    providerRoutes := runtime.providerRoutes ++ [route] })

def note (runtime : AtomVibeRuntime) (buildId : String) (unixTimeMs : UInt64)
    (step : Option BuildStep) (kind : ScratchpadEntryKind) (content : String)
    (sourceIds : List String) (files : RuntimeFiles) :
    Except RuntimeError ScratchpadEntry × RuntimeFiles :=
  match runtime.scratchpad buildId files with
  | (.error error, files) => (.error error, files)
  | (.ok store, files) =>
    let appended := store.append unixTimeMs step kind content sourceIds (files.pad store)
    (appended.1.mapError fun error => .scratchpad error.display, files.setPad store appended.2)

def appendScratchpadNote (runtime : AtomVibeRuntime) (buildId : String)
    (kind : ScratchpadEntryKind) (content : String) (sourceIds : List String) (unixTimeMs : UInt64)
    (files : RuntimeFiles) : Except RuntimeError Unit × RuntimeFiles :=
  let noted := runtime.note buildId unixTimeMs none kind content sourceIds files
  (noted.1.map fun _ => (), noted.2)

def recordFailure (runtime : AtomVibeRuntime) (prepared : PreparedTurn)
    (error : ProviderAdapterError) (evidenceIds : List String) (clock : TurnClock)
    (files : RuntimeFiles) : Except RuntimeError ExecutedTurn × AtomVibeRuntime × RuntimeFiles :=
  let (route, changed) := runtime.emitProviderRoute true prepared.buildId error.display evidenceIds
  let failure := "Provider turn " ++ prepared.request.requestId ++
    " blocked after Spiderweb route [" ++ String.intercalate ", " (route.route.map (·.repr)) ++
    "]: " ++ error.display
  match changed.scratchpad prepared.buildId files with
  | (.error error, files) => (.error error, changed, files)
  | (.ok store, files) =>
    let appended := store.append clock.appendedAt (some prepared.step) .gateFailure failure
      evidenceIds (files.pad store)
    (match appended.1 with
      | .error scratchpad => .error (.scratchpad (scratchpad.display ++
          "; original provider failure: " ++ error.display))
      | .ok _ => .error (.provider error), changed, files.setPad store appended.2)

def recordTurn (runtime : AtomVibeRuntime) (prepared : PreparedTurn)
    (receipt : ProviderTurnReceipt) (path : String) (evidenceIds : List String) (clock : TurnClock)
    (files : RuntimeFiles) : Except RuntimeError ExecutedTurn × AtomVibeRuntime × RuntimeFiles :=
  let (route, changed) := runtime.emitProviderRoute false prepared.buildId receipt.outputHash
    evidenceIds
  match changed.note prepared.buildId clock.appendedAt (some prepared.step) .packetOutput
      (scratchpadOutput receipt.text path receipt.outputHash) (evidenceIds ++ [receipt.outputHash])
      files with
  | (.error error, files) => (.error error, changed, files)
  | (.ok entry, files) =>
    let appended := TurnStore.append (fun path => files.outputs.lookup path)
      { buildId := prepared.buildId
        step := prepared.step
        plannerRevision := prepared.plannerRevision
        receipt
        outputArtifact := path
        evidenceIds
        contextRoute := prepared.context.route
        resultRoute := route.route
        scratchpadEntryHash := entry.entryHash } clock.createdAt files.turns
    (appended.1.map fun record => ⟨receipt, runtime.root ++ "/" ++ path, route, record⟩, changed,
      { files with turns := appended.2 })

def keepReceipt (runtime : AtomVibeRuntime) (prepared : PreparedTurn)
    (receipt : ProviderTurnReceipt) (evidenceIds : List String) (clock : TurnClock)
    (files : RuntimeFiles) : Except RuntimeError ExecutedTurn × AtomVibeRuntime × RuntimeFiles :=
  let hash := sha256Tagged (asBytes receipt.text)
  let path := outputPath prepared.buildId hash
  match persistProviderOutput receipt.text path files.outputs with
  | (.error error, outputs) => (.error (.turnStore error), runtime, { files with outputs })
  | (.ok (), outputs) =>
    if hash ≠ receipt.outputHash then
      (.error (.turnStore "persisted provider output hash differs from receipt"), runtime,
        { files with outputs })
    else
      match TurnStore.safeRelative path with
      | none => (.error (.turnStore "provider output was not stored below the runtime root"),
          runtime, { files with outputs })
      | some relative =>
        runtime.recordTurn prepared receipt relative evidenceIds clock { files with outputs }

def executeTurnWith (runtime : AtomVibeRuntime) (prepared : PreparedTurn)
    (load : String → Except ProviderAdapterError String)
    (http : ProviderHttpRequest → Except ProviderTransportError String) (clock : TurnClock)
    (files : RuntimeFiles) : List ProviderHttpRequest ×
      Except RuntimeError ExecutedTurn × AtomVibeRuntime × RuntimeFiles :=
  match runtime.validatePrepared prepared with
  | .error error => ([], .error error, runtime, files)
  | .ok () =>
    let evidenceIds := prepared.context.evidence.map (·.nodeId)
    let called := runtime.provider.executeWith load http clock.elapsedMs prepared.request
    (called.1, match called.2 with
      | .error error => runtime.recordFailure prepared error evidenceIds clock files
      | .ok receipt => runtime.keepReceipt prepared receipt evidenceIds clock files)

end AtomVibeRuntime

end AtomVibe.Runtime
