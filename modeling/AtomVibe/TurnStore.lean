import AtomVibe.BuildProtocol
import AtomVibe.SessionStore

/-!
The turn store: for each build a chain of records of the provider turns that were executed. File
operations succeed here; what can fail is what the code itself refuses. `readFile` reads the
files below the runtime root, by their paths from there.
-/

namespace AtomVibe.TurnStore

open Checked Text Json JsonText JsonRoundTrip JsonCodec Hash BuildProtocol ChainFiles Provider
open RuntimeModel

def turnRecordSchemaVersion : UInt32 := 1

def maxTurnsPerBuild : ℕ := 4096

structure TurnRecord where
  schemaVersion : UInt32
  ordinal : UInt64
  buildId : String
  step : BuildStep
  plannerRevision : UInt64
  provider : String
  model : String
  requestBodyHash : String
  rawResponseHash : String
  outputHash : String
  outputArtifact : String
  elapsedMs : UInt64
  inputTokens : Option UInt64
  outputTokens : Option UInt64
  reasoningTokens : Option UInt64
  thinkingSource : String
  evidenceIds : List String
  contextRoute : List UInt64
  resultRoute : List UInt64
  scratchpadEntryHash : String
  previousHash : String
  recordHash : String
  createdAtUnixMs : UInt64
  deriving DecidableEq

abbrev ReadFile := String → Option ByteArray

def pathComponents (path : String) : List (List Char) :=
  (splitOn '/' path.toList).filter (· ≠ [])

def safeRelative (path : String) : Option String :=
  let components := pathComponents path
  if startsWith "/" path || components.head? == some ['.'] then none
  else
    let parts := components.filter (· ≠ ['.'])
    if parts.isEmpty || parts.any (fun part => part == ['.', '.'] || part.any isControl) then none
    else some (String.intercalate "/" (parts.map String.ofList))

def routeText (route : List UInt64) : String :=
  String.intercalate "," (route.map fun id => id.toNat.repr)

def evidenceText (evidenceIds : List String) : String := String.intercalate "\x1f" evidenceIds

def tokensText (tokens : Option UInt64) : String := debugOption (fun n => n.toNat.repr) tokens

namespace TurnRecord

def hashedFields (record : TurnRecord) : List String :=
  [record.schemaVersion.toNat.repr, record.ordinal.toNat.repr, record.buildId, record.step.asStr,
    record.plannerRevision.toNat.repr, record.provider, record.model, record.requestBodyHash,
    record.rawResponseHash, record.outputHash, record.outputArtifact, record.elapsedMs.toNat.repr,
    tokensText record.inputTokens, tokensText record.outputTokens,
    tokensText record.reasoningTokens, record.thinkingSource, evidenceText record.evidenceIds,
    routeText record.contextRoute, routeText record.resultRoute, record.scratchpadEntryHash,
    record.previousHash, record.createdAtUnixMs.toNat.repr]

def hashPreimage (record : TurnRecord) : List UInt8 :=
  asBytes (String.intercalate "\x00" record.hashedFields)

def computedHash (record : TurnRecord) : String := sha256Tagged record.hashPreimage

end TurnRecord

def validateRecord (record : TurnRecord) (readFile : ReadFile) (previous : Option TurnRecord) :
    Except RuntimeError Unit := do
  refuseIf (record.schemaVersion ≠ turnRecordSchemaVersion ∨ record.ordinal = 0 ∨
      isBlank record.buildId ∨ isBlank record.provider ∨ isBlank record.model ∨
      isBlank record.thinkingSource ∨
      record.previousHash ≠ (previous.map (·.recordHash)).getD "" ∨
      validSha256Tag record.requestBodyHash = false ∨
      validSha256Tag record.rawResponseHash = false ∨ validSha256Tag record.outputHash = false ∨
      validSha256Tag record.scratchpadEntryHash = false ∨
      validSha256Tag record.recordHash = false ∨ record.recordHash ≠ record.computedHash ∨
      record.contextRoute.length ≠ 4 ∨ record.resultRoute.length ≠ 4)
    (.turnStore "turn record failed structural or hash validation")
  let relative ← okOr (.turnStore "turn output artifact path is unsafe")
    (safeRelative record.outputArtifact)
  let bytes ← okOr (.turnStore "turn output artifact is missing or changed") (readFile relative)
  refuseIf (sha256Tagged bytes.data.toList ≠ record.outputHash)
    (.turnStore "turn output artifact is missing or changed")

def optionalDoc (tokens : Option UInt64) : JsonValue :=
  match tokens with
  | some n => numberDoc n.toNat
  | none => .null

def recordDoc (record : TurnRecord) : JsonValue :=
  .object
    [("schema_version", numberDoc record.schemaVersion.toNat),
      ("ordinal", numberDoc record.ordinal.toNat),
      ("build_id", .string record.buildId),
      ("step", .string record.step.asStr),
      ("planner_revision", numberDoc record.plannerRevision.toNat),
      ("provider", .string record.provider),
      ("model", .string record.model),
      ("request_body_hash", .string record.requestBodyHash),
      ("raw_response_hash", .string record.rawResponseHash),
      ("output_hash", .string record.outputHash),
      ("output_artifact", .string record.outputArtifact),
      ("elapsed_ms", numberDoc record.elapsedMs.toNat),
      ("input_tokens", optionalDoc record.inputTokens),
      ("output_tokens", optionalDoc record.outputTokens),
      ("reasoning_tokens", optionalDoc record.reasoningTokens),
      ("thinking_source", .string record.thinkingSource),
      ("evidence_ids", stringArrayDoc record.evidenceIds),
      ("context_route", arrayDoc (fun n : UInt64 => numberDoc n.toNat) record.contextRoute),
      ("result_route", arrayDoc (fun n : UInt64 => numberDoc n.toNat) record.resultRoute),
      ("scratchpad_entry_hash", .string record.scratchpadEntryHash),
      ("previous_hash", .string record.previousHash),
      ("record_hash", .string record.recordHash),
      ("created_at_unix_ms", numberDoc record.createdAtUnixMs.toNat)]

def recordJson (record : TurnRecord) : String := render (recordDoc record)

def invalidField (key : String) : RuntimeError :=
  .turnStore ("turn field " ++ key ++ " is invalid")

def requiredString (root : JsonValue) (key : String) : Except RuntimeError String :=
  okOr (invalidField key) ((root.get key).bind JsonValue.asStr)

def requiredU64 (root : JsonValue) (key : String) : Except RuntimeError UInt64 :=
  okOr (invalidField key) ((root.get key).bind JsonValue.asU64)

def optionalNumber (root : JsonValue) (key : String) : Except RuntimeError (Option UInt64) :=
  match root.get key with
  | some .null => .ok none
  | some value => okOr (invalidField key) (value.asU64.map some)
  | none => .error (.turnStore ("turn field " ++ key ++ " is missing"))

def requiredArray {α : Type} (read : JsonValue → Option α) (root : JsonValue) (key : String) :
    Except RuntimeError (List α) := do
  let values ← okOr (invalidField key) ((root.get key).bind JsonValue.asArray)
  values.mapM fun value => okOr (invalidField key) (read value)

def stringArray : JsonValue → String → Except RuntimeError (List String) :=
  requiredArray JsonValue.asStr

def u64Array : JsonValue → String → Except RuntimeError (List UInt64) :=
  requiredArray JsonValue.asU64

def recordFromJson (root : JsonValue) : Except RuntimeError TurnRecord := do
  let schemaVersion ← requiredU64 root "schema_version"
  let ordinal ← requiredU64 root "ordinal"
  let buildId ← requiredString root "build_id"
  let stepText ← requiredString root "step"
  let step ← okOr (.turnStore "turn step is invalid") (BuildStep.parse stepText)
  let plannerRevision ← requiredU64 root "planner_revision"
  let provider ← requiredString root "provider"
  let model ← requiredString root "model"
  let requestBodyHash ← requiredString root "request_body_hash"
  let rawResponseHash ← requiredString root "raw_response_hash"
  let outputHash ← requiredString root "output_hash"
  let outputArtifact ← requiredString root "output_artifact"
  let elapsedMs ← requiredU64 root "elapsed_ms"
  let inputTokens ← optionalNumber root "input_tokens"
  let outputTokens ← optionalNumber root "output_tokens"
  let reasoningTokens ← optionalNumber root "reasoning_tokens"
  let thinkingSource ← requiredString root "thinking_source"
  let evidenceIds ← stringArray root "evidence_ids"
  let contextRoute ← u64Array root "context_route"
  let resultRoute ← u64Array root "result_route"
  let scratchpadEntryHash ← requiredString root "scratchpad_entry_hash"
  let previousHash ← requiredString root "previous_hash"
  let recordHash ← requiredString root "record_hash"
  let createdAtUnixMs ← requiredU64 root "created_at_unix_ms"
  return ⟨schemaVersion.toUInt32, ordinal, buildId, step, plannerRevision, provider, model,
    requestBodyHash, rawResponseHash, outputHash, outputArtifact, elapsedMs, inputTokens,
    outputTokens, reasoningTokens, thinkingSource, evidenceIds, contextRoute, resultRoute,
    scratchpadEntryHash, previousHash, recordHash, createdAtUnixMs⟩

def parseRecord (text : String) : Except RuntimeError TurnRecord := do
  let root ← (parse text).mapError fun error => RuntimeError.turnStore error.display
  recordFromJson root

def readRecord (bytes : ByteArray) : Except RuntimeError TurnRecord := do
  let text ← okOr (.turnStore "stream did not contain valid UTF-8") (String.fromUTF8? bytes)
  parseRecord text

def recordName (record : TurnRecord) : String :=
  padded 8 record.ordinal.toNat ++ "-" ++ trimStartMatches "sha256:" record.recordHash ++ ".json"

def loadRecords (readFile : ReadFile) (buildId : String) :
    ℕ → Option TurnRecord → List (String × ByteArray) → Except RuntimeError (List TurnRecord)
  | _, _, [] => .ok []
  | index, previous, (name, bytes) :: paths => do
    let record ← readRecord bytes
    refuseIf (record.buildId ≠ buildId ∨ record.ordinal ≠ UInt64.ofNat index + 1)
      (.turnStore "turn record order or build identity is invalid")
    validateRecord record readFile previous
    refuseIf (recordName record ≠ name) (.turnStore "turn filename does not match record hash")
    let records ← loadRecords readFile buildId (index + 1) (some record) paths
    return record :: records

abbrev TurnDirs := Catalog String Files

def recordFiles (turns : TurnDirs) (buildId : String) : Files :=
  (turns.lookup buildId).getD Catalog.empty

def load (readFile : ReadFile) (buildId : String) (turns : TurnDirs) :
    Except RuntimeError (List TurnRecord) := do
  let paths := jsonFiles (recordFiles turns buildId)
  refuseIf (maxTurnsPerBuild < paths.length) (.turnStore "turn store exceeds its record limit")
  loadRecords readFile buildId 0 none paths

end AtomVibe.TurnStore
