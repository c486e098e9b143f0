import AtomVibe.NativeRecords

namespace AtomVibe.Native

open Text Proof Learning LedgerFields CoreRuntime

structure AppendFault where
  error : String
  written : ℕ

def AppendFault.leave (fault : AppendFault) (path line : String) (disk : Disk) : Disk :=
  if fault.written = 0 then disk
  else disk.insert path ((disk.lookup path).getD ByteArray.empty ++
    (line ++ "\n").toByteArray.extract 0 fault.written)

/-- What the machine answers while records are kept: the faults of the two ledgers, how the evidence
of a lesson is verified, and the stamp of a new record. -/
structure Machine where
  proofFault : Option AppendFault
  learningFault : Option AppendFault
  verifiers : Verifiers
  stamp : RecordStamp

structure NativeApp (Graph : Type) where
  runtime : MathAtomsRuntime Graph
  store : Option ProofStore
  learningStore : Option LearningStore
  learningRecords : List LearningRecord
  learningSummary : LearningSummary
  learningAttempts : LearningAttempts
  lastProviderOutput : String
  providerRunning : Bool
  fastBuildRunning : Bool
  lastIntent : String

structure AppState (Graph : Type) where
  app : NativeApp Graph
  disk : Disk

inductive StoreOutcome
  | memory
  | written
  | blocked (reason : String)

structure FastBuild where
  name : String
  sourcePath : String
  bytes : ℕ
  preview : String
  verified : Bool
  compiled : Bool
  repairAttempts : ℕ
  compileErrors : String

structure PersistedProviderOutput where
  path : String
  hash : String
  len : ℕ

def defaultIntent : String :=
  "Build a native Atom Vibe Coder app on the Spiderweb Bus with provider API, wiki graph RAG, " ++
    "proof capture, and side artifact preview."

def currentIntent (input : String) : String := if isBlank input then defaultIntent else trim input

def initialProviderOutput (provider : CoreProviderConfig) : String :=
  if provider.isReady then "Provider has not been executed."
  else if provider.apiKeyPresent = false then
    "Provider blocked: Missing credential in " ++ provider.apiKeyEnv
  else if isBlank provider.endpoint then "Provider blocked: Missing provider endpoint"
  else if isBlank provider.model then "Provider blocked: Missing provider model"
  else if provider.thinkingLevel = none then
    "Provider blocked: Thinking must be low, medium, or high"
  else "Provider blocked: Provider configuration is incomplete"

def warnIfMemoryLost (label : String) : Except String Bool → String
  | .ok true => ""
  | .ok false => "\nWARNING: scratchpad memory backend unavailable; " ++ label ++ " not persisted."
  | .error error => "\nWARNING: scratchpad append failed for " ++ label ++ ": " ++ error

namespace FastBuild

variable (build : FastBuild)

def verdict : String :=
  if build.verified = false then "unverified (no rustc)"
  else if build.compiled then
    if build.repairAttempts = 0 then "typechecks"
    else "typechecks after " ++ build.repairAttempts.repr ++ " repair(s)"
  else "still failing after " ++ build.repairAttempts.repr ++ " repair(s)"

def output : String :=
  "Built " ++ build.name ++ " (" ++ build.bytes.repr ++ " bytes, " ++ build.verdict ++ ") -> " ++
    build.sourcePath ++ "\n\n" ++ build.preview ++
    if build.verified ∧ build.compiled = false ∧ build.compileErrors ≠ "" then
      "\n\n--- remaining rustc errors ---\n" ++ build.compileErrors
    else ""

end FastBuild

def besidePath (path : String) : String :=
  let name := path.toList.reverse.takeWhile (· != '/')
  let fileName := String.ofList name.reverse
  String.ofList (path.toList.take (path.toList.length - name.length)) ++
    if toAsciiLowercase fileName = "proofs.jsonl" then "learning.jsonl"
    else fileName ++ ".learning.jsonl"

def attemptsOf (records : List LearningRecord) : LearningAttempts :=
  records.foldl (fun attempts record =>
    let key := (record.intent, record.gate)
    attempts.insert key (match attempts key with
      | some attempt => max attempt record.attempt
      | none => record.attempt)) fun _ => none

namespace NativeApp

variable {Graph : Type} (host : Host Graph)

def newWithStores (provider : CoreProviderConfig) (store : Option ProofStore)
    (learningStore : Option LearningStore) (graph : Graph) (disk : Disk) :
    Option (NativeApp Graph) := do
  let archived := (learningStore.bind fun ledger => (ledger.readRecords disk).toOption).getD []
  let runtime ← match store, learningStore with
    | some proofs, some learning => MathAtomsRuntime.withStores host provider graph proofs learning disk
    | some proofs, none =>
      MathAtomsRuntime.withStores host provider graph proofs ⟨besidePath proofs.path⟩ disk
    | none, _ => some (.withGraph provider graph)
  return {
    runtime
    store
    learningStore
    learningRecords := effectiveRecords archived defaultGraphMemoryLimit
    learningSummary := .fromRecords archived
    learningAttempts := attemptsOf archived
    lastProviderOutput := initialProviderOutput provider
    providerRunning := false
    fastBuildRunning := false
    lastIntent := "" }

variable (app : NativeApp Graph)

def providerTitleState : String :=
  if app.providerRunning || app.fastBuildRunning then "provider:running"
  else if startsWith "Provider blocked:" app.lastProviderOutput then "provider:blocked"
  else if app.lastProviderOutput = "Provider has not been executed." then "provider:idle"
  else "provider:ran"

def appendProof (machine : Machine) (disk : Disk) : Except String Unit × Disk :=
  match app.store with
  | none => (.ok (), disk)
  | some store =>
    let record := proofRecordFromState app.runtime.state app.providerTitleState
    match machine.proofFault with
    | some fault =>
      (.error ("Persistent proof store write failed at " ++ store.path ++ ": " ++ fault.error),
        fault.leave store.path record.toJson disk)
    | none => (.ok (), store.append record disk)

def appendLesson (machine : Machine) (record : LearningRecord) (disk : Disk) :
    Except String Unit × Disk :=
  match app.learningStore with
  | none => (.ok (), disk)
  | some store =>
    let failed (error : String) : Except String Unit :=
      .error ("Persistent learning store write failed at " ++ store.path ++ ": " ++ error)
    match record.validate machine.verifiers, machine.learningFault with
    | .error error, _ => (failed error, disk)
    | .ok (), some fault => (failed fault.error, fault.leave store.path record.toJson disk)
    | .ok (), none => (.ok (), (store.append machine.verifiers record disk).2)

def keepLesson (runtime : MathAtomsRuntime Graph) (record : LearningRecord)
    (key : String × String) : NativeApp Graph :=
  { app with
    runtime
    learningRecords := effectiveRecords (app.learningRecords ++ [record]) defaultGraphMemoryLimit
    learningSummary := app.learningSummary.add record.outcome
    learningAttempts := app.learningAttempts.insert key record.attempt }

def currentLearningRecord (machine : Machine) : Option LearningRecord :=
  learningRecordFromState machine.stamp app.runtime.state app.lastIntent app.learningAttempts
    app.learningRecords app.lastProviderOutput

def blockStore (reason : String) : NativeApp Graph :=
  { app with runtime := app.runtime.markStoreBlocked reason }

end NativeApp

namespace AppState

variable {Graph : Type} (host : Host Graph) (state : AppState Graph)

/-- `none`, here and below, where the runtime does not return. -/
def appendLearningRecord (machine : Machine) : Option (Except String Unit × AppState Graph) :=
  match state.app.currentLearningRecord machine with
  | none => some (.ok (), state)
  | some record =>
    let appended := state.app.appendLesson machine record state.disk
    match appended.1 with
    | .error reason => some (.error reason, ⟨state.app, appended.2⟩)
    | .ok () => do
      let runtime ← state.app.runtime.learnLearningRecord host record
      return (.ok (), ⟨state.app.keepLesson runtime record (record.intent, record.gate), appended.2⟩)

def appendProofRecord (machine : Machine) (learn : Bool) :
    Option (StoreOutcome × AppState Graph) :=
  let appended := state.app.appendProof machine state.disk
  match appended.1 with
  | .error reason => some (.blocked reason, ⟨state.app.blockStore reason, appended.2⟩)
  | .ok () =>
    let record := proofRecordFromState state.app.runtime.state state.app.providerTitleState
    let app := { state.app with runtime := state.app.runtime.learnProofRecord host record }
    let outcome := if app.store.isSome then StoreOutcome.written else .memory
    if learn then do
      let (result, state) ← (AppState.mk app appended.2).appendLearningRecord host machine
      match result with
      | .ok () => return (outcome, state)
      | .error reason => return (.blocked reason, ⟨state.app.blockStore reason, state.disk⟩)
    else some (outcome, ⟨app, appended.2⟩)

def runCurrentIntent (input : String) (machine : Machine) : Option (AppState Graph) := do
  let intent := currentIntent input
  let (_, runtime) ← state.app.runtime.runCoderIntent host intent
  let app := { state.app with
    lastIntent := intent
    runtime }
  let (_, state) ← (AppState.mk app state.disk).appendProofRecord host machine true
  return state

def markDrift : AppState Graph :=
  let runtime := state.app.runtime.markDrift "Operator flagged drift from the native PMRE shell."
  ⟨{ state.app with runtime }, state.disk⟩

def applyProviderConfig (config : CoreProviderConfig) : AppState Graph :=
  ⟨{ state.app with
      runtime := state.app.runtime.setProvider config
      lastProviderOutput := initialProviderOutput config
      providerRunning := false }, state.disk⟩

def captureCurrentProof (machine : Machine) : Option (AppState Graph) :=
  if state.app.runtime.state.lastRoute = [] then some state
  else if state.app.runtime.state.status = .providerPending then some state
  else (state.appendProofRecord host machine false).map Prod.snd

def beginProviderExecution : Option (Option PreparedProviderCall × AppState Graph) :=
  if state.app.providerRunning then
    some (none, ⟨{ state.app with
      lastProviderOutput := "Provider request already running." }, state.disk⟩)
  else do
    let (task, runtime) ← state.app.runtime.scheduleProviderExecution
    match task with
    | none =>
      let reason := runtime.state.blockers.getLast?.getD "Provider execution was not scheduled."
      return (none, ⟨{ state.app with
        runtime
        lastProviderOutput := "Provider blocked: " ++ reason }, state.disk⟩)
    | some task =>
      return (some task.call, ⟨{ state.app with
        runtime
        providerRunning := true
        lastProviderOutput := "Provider request running through " ++ task.route.length.repr ++
          " Spiderweb route envelopes." }, state.disk⟩)

/-- What a worker of the provider delivers: its result, and what came of persisting its output, with
the disk its evidence is on. -/
structure Delivery where
  result : Except ProviderError ProviderExecutionOutput
  persisted : Except String PersistedProviderOutput
  evidence : EvidenceDisk.Disk

def deliver (delivery : Delivery) : Option (String × MathAtomsRuntime Graph) :=
  let runtime := state.app.runtime
  match delivery.result, delivery.persisted with
  | .ok output, .ok persisted => do
    let (accepted, runtime) ← runtime.markProviderExecutionReport host delivery.evidence
      ⟨persisted.path, persisted.hash, persisted.len, output⟩
    if accepted then return (output.text, runtime)
    else return ("Provider blocked: " ++
      runtime.state.blockers.getLast?.getD "provider report verification failed", runtime)
  | .ok _, .error error => do
    let reason := "provider output evidence persistence failed: " ++ error
    let runtime ← runtime.markProviderBlocked reason
    return ("Provider blocked: " ++ reason, runtime)
  | .error error, _ => do
    let reason := host.debugError error
    let runtime ← runtime.markProviderBlocked reason
    return ("Provider blocked: " ++ reason, runtime)

def completeProviderExecutionReport (delivery : Delivery) (machine : Machine) :
    Option (AppState Graph) := do
  let (lastProviderOutput, runtime) ← state.deliver host delivery
  let app := { state.app with
    runtime
    lastProviderOutput
    providerRunning := false }
  let (_, state) ← (AppState.mk app state.disk).appendProofRecord host machine true
  return state

def beginFastBuild (input : String) (ready : Except String Unit) :
    Option String × AppState Graph :=
  if state.app.fastBuildRunning then
    (none, ⟨{ state.app with lastProviderOutput := "Fast build already running." }, state.disk⟩)
  else
    let intent := currentIntent input
    match ready with
    | .error error => (none, ⟨{ state.app with
        lastIntent := intent
        lastProviderOutput := "Provider blocked: " ++ error }, state.disk⟩)
    | .ok () => (some intent, ⟨{ state.app with
        lastIntent := intent
        fastBuildRunning := true
        lastProviderOutput := "Fast build running through a single provider call." }, state.disk⟩)

def fastBuildLesson (build : FastBuild) (machine : Machine) : Option LearningRecord :=
  let app := state.app
  let attempt := app.learningAttempts.next (app.lastIntent, fastBuildGate)
  let fallbackModel := app.runtime.provider.model
  if build.verified = false then none
  else if build.compiled then
    some (fastBuildSuccessRecord machine.stamp app.runtime.state app.lastIntent fallbackModel attempt
      app.learningRecords build.sourcePath)
  else if build.compileErrors = "" then none
  else some (fastBuildFailureRecord machine.stamp app.runtime.state app.lastIntent fallbackModel
    attempt build.compileErrors build.sourcePath)

def recordFastBuildLearning (build : FastBuild) (machine : Machine) : Option (AppState Graph) :=
  match state.fastBuildLesson build machine with
  | none => some state
  | some record =>
    let appended := state.app.appendLesson machine record state.disk
    match appended.1 with
    | .error _ => some ⟨state.app, appended.2⟩
    | .ok () => do
      let runtime ← state.app.runtime.learnLearningRecord host record
      return ⟨state.app.keepLesson runtime record (state.app.lastIntent, fastBuildGate), appended.2⟩

def completeFastBuild (result : Except String FastBuild) (memory : Except String Bool)
    (machine : Machine) : Option (AppState Graph) :=
  let app := { state.app with fastBuildRunning := false }
  match result with
  | .ok build =>
    (AppState.mk { app with
      lastProviderOutput := build.output ++ warnIfMemoryLost "outcome" memory } state.disk
      ).recordFastBuildLearning host build machine
  | .error reason => some ⟨{ app with
      lastProviderOutput := "Provider blocked: " ++ reason ++ warnIfMemoryLost "block" memory },
      state.disk⟩

end AppState

inductive AppCall
  | runCurrentIntent (input : String) (machine : Machine)
  | markDrift
  | applyProviderConfig (config : CoreProviderConfig)
  | captureCurrentProof (machine : Machine)
  | beginProviderExecution
  | completeProviderExecutionReport (delivery : AppState.Delivery) (machine : Machine)
  | beginFastBuild (input : String) (ready : Except String Unit)
  | completeFastBuild (result : Except String FastBuild) (memory : Except String Bool)
      (machine : Machine)

inductive AppAnswer
  | done
  | provider (worker : Option PreparedProviderCall)
  | fastBuild (worker : Option String)

variable {Graph : Type}

def act (host : Host Graph) (state : AppState Graph) :
    AppCall → Option (AppAnswer × AppState Graph)
  | .runCurrentIntent input machine =>
    (state.runCurrentIntent host input machine).map fun next => (.done, next)
  | .markDrift => some (.done, state.markDrift)
  | .applyProviderConfig config => some (.done, state.applyProviderConfig config)
  | .captureCurrentProof machine =>
    (state.captureCurrentProof host machine).map fun next => (.done, next)
  | .beginProviderExecution =>
    state.beginProviderExecution.map fun (worker, next) => (.provider worker, next)
  | .completeProviderExecutionReport delivery machine =>
    (state.completeProviderExecutionReport host delivery machine).map fun next => (.done, next)
  | .beginFastBuild input ready =>
    let (worker, next) := state.beginFastBuild input ready
    some (.fastBuild worker, next)
  | .completeFastBuild result memory machine =>
    (state.completeFastBuild host result memory machine).map fun next => (.done, next)

end AtomVibe.Native
