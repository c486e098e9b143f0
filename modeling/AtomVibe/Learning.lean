import Mathlib.Data.List.Destutter
import Mathlib.Data.List.Sort
import AtomVibe.CandidateModel

namespace AtomVibe.Learning

open Checked Text Hash Verification

def learningSchemaVersion : UInt32 := 5

def legacyLearningSchemaVersion : UInt32 := 1

def legacyShaSchemaVersion : UInt32 := 2

def legacyWorkSchemaVersion : UInt32 := 3

def legacyHarnessSchemaVersion : UInt32 := 4

def defaultGraphMemoryLimit : ℕ := 256

inductive LearningOutcome
  | failed
  | succeeded
  deriving DecidableEq

def LearningOutcome.asStr : LearningOutcome → String
  | failed => "failed"
  | succeeded => "succeeded"

def LearningOutcome.parse (value : String) : Option LearningOutcome :=
  let value := toAsciiLowercase (trim value)
  if ["failed", "failure", "blocked"].contains value then some failed
  else if ["succeeded", "success", "proven", "passed"].contains value then some succeeded
  else none

structure LearningRecord where
  schemaVersion : UInt32
  id : String
  timestampMs : UInt64
  source : String
  intent : String
  recipeId : String
  atomStack : List String
  gate : String
  attempt : UInt32
  outcome : LearningOutcome
  failure : String
  correction : String
  artifactPath : String
  artifactHash : String
  providerModel : String
  workPlanId : String
  workPlanManifest : String
  workPacketCount : UInt64
  candidateVerification : Option CandidateVerificationEvidence
  harnessAttestationPath : String
  harnessAttestationHash : String
  routeLen : UInt64
  deriving DecidableEq

structure HarnessExpectation where
  gate : String
  workPlanId : String
  providerModel : String
  artifactPath : String

/-- The verifiers of the evidence a record names, as they find the files it is in: of a work plan,
of a harness attestation, of a candidate, and the hash and the length of an artifact. -/
structure Verifiers where
  workPlanModel : String → String → UInt64 → Except String String
  harness : String → String → HarnessExpectation → Except String Unit
  candidate : String → String → String → String → Except String (UInt32 × UInt32)
  sha256File : String → Option String
  fileLen : String → Option UInt64

def validLegacyFnvHash (value : String) : Bool :=
  value.utf8ByteSize == 20 && startsWith "fnv:" value &&
    (value.toList.drop 4).all isAsciiHexdigit

def tokenize (value : String) : List String :=
  ((value.toList.splitOnP fun c => !isAsciiAlphanumeric c && c != '-').filter
    fun part => 1 < part.length).map fun part => String.ofList (part.map Char.toLower)

def brief (value : String) (limit : ℕ) : String :=
  String.ofList (value.toList.take limit) ++ if limit < value.toList.length then "..." else ""

def emptyAs (value fallback : String) : String := if isBlank value then fallback else value

def sortDedup (values : List String) : List String :=
  (values.insertionSort (· ≤ ·)).destutter (· ≠ ·)

namespace LearningRecord

def nativeRouteSuccess (record : LearningRecord) : Bool :=
  record.source == "native-app" && 4 ≤ record.routeLen

def fastBuild (record : LearningRecord) : Bool :=
  record.outcome == .succeeded && record.gate == "native-fast-build"

def requiresWorkEvidence (record : LearningRecord) : Bool :=
  !isBlank record.providerModel || startsWith "provider-" record.source ||
    startsWith "deepseek-" record.source

def requiresHarnessEvidence (record : LearningRecord) : Bool :=
  !(record.source == "native-app" && isBlank record.providerModel && 4 ≤ record.routeLen)

def validateSuccess (record : LearningRecord) : Except String Unit :=
  if record.schemaVersion = legacyLearningSchemaVersion then
    refuseIf (record.nativeRouteSuccess = false ∧ isBlank record.artifactHash)
      "legacy successful learning requires a full route or checksum"
  else do
    refuseIf ((record.nativeRouteSuccess && isBlank record.providerModel) = false ∧
        (isBlank record.artifactPath || isBlank record.artifactHash))
      "successful provider or harness learning requires an artifact path and hash"
    refuseIf (legacyWorkSchemaVersion ≤ record.schemaVersion ∧ record.requiresWorkEvidence ∧
        (isBlank record.workPlanId ∨ isBlank record.workPlanManifest ∨ record.workPacketCount <
          if legacyHarnessSchemaVersion ≤ record.schemaVersion then 19 else 13))
      "successful provider learning requires a verified meticulous work plan"
    refuseIf (legacyHarnessSchemaVersion ≤ record.schemaVersion ∧ record.requiresHarnessEvidence ∧
        (isBlank record.harnessAttestationPath ∨
          validSha256Tag record.harnessAttestationHash = false))
      "successful harness learning requires a typed harness attestation"
    if record.schemaVersion = learningSchemaVersion ∧ record.requiresWorkEvidence then
      match record.candidateVerification with
      | none => throw "successful provider learning requires candidate verification"
      | some candidate =>
        refuseIf (isBlank candidate.manifestPath ∨ validSha256Tag candidate.manifestHash = false ∨
            validSha256Tag candidate.bundleHash = false ∨ candidate.attempts = 0 ∨
            candidate.repairs ≠ candidate.attempts - 1)
          "successful provider learning candidate evidence is invalid"

def validateStructure (record : LearningRecord) : Except String Unit := do
  refuseIf ([legacyLearningSchemaVersion, legacyShaSchemaVersion, legacyWorkSchemaVersion,
      legacyHarnessSchemaVersion, learningSchemaVersion].contains record.schemaVersion = false)
    ("unsupported learning schema version " ++ record.schemaVersion.toNat.repr)
  [("id", record.id), ("source", record.source), ("intent", record.intent),
    ("gate", record.gate)].forM fun field =>
      refuseIf (isBlank field.2) ("learning " ++ field.1 ++ " must not be empty")
  refuseIf (record.timestampMs = 0 ∨ record.attempt = 0)
    "learning timestamp and attempt must be positive"
  refuseIf (record.atomStack.any isBlank) "learning atom stack contains an empty atom"
  refuseIf (record.outcome = .failed ∧ isBlank record.failure)
    "failed learning record requires failure evidence"
  if record.fastBuild then
    return ()
  else do
    if record.outcome = .succeeded then record.validateSuccess
    refuseIf (record.artifactHash ≠ "" ∧
        (if record.schemaVersion = legacyLearningSchemaVersion then
          validLegacyFnvHash record.artifactHash
        else validSha256Tag record.artifactHash) = false)
      "learning artifact hash does not match its schema"

def harnessExpectation (record : LearningRecord) : HarnessExpectation :=
  ⟨record.gate, record.workPlanId, record.providerModel, record.artifactPath⟩

def validateWork (v : Verifiers) (record : LearningRecord) : Except String Unit := do
  let model ← (v.workPlanModel record.workPlanManifest record.workPlanId
    record.workPacketCount).mapError ("work plan evidence failed: " ++ ·)
  refuseIf (isBlank record.providerModel = false ∧ model ≠ record.providerModel)
    "learning provider model does not match work packet evidence"

def validateCandidate (v : Verifiers) (record : LearningRecord) : Except String Unit := do
  let candidate ← okOr "successful provider learning is missing candidate verification"
    record.candidateVerification
  let verified ← (v.candidate candidate.manifestPath candidate.manifestHash record.workPlanId
    candidate.bundleHash).mapError ("candidate verification failed: " ++ ·)
  refuseIf (verified ≠ (candidate.attempts, candidate.repairs))
    "candidate verification accounting does not match evidence"

def validate (v : Verifiers) (record : LearningRecord) : Except String Unit := do
  record.validateStructure
  if record.fastBuild ∨ record.outcome = .failed then
    return ()
  else do
    if legacyWorkSchemaVersion ≤ record.schemaVersion ∧ record.requiresWorkEvidence then
      record.validateWork v
    if legacyHarnessSchemaVersion ≤ record.schemaVersion ∧ record.requiresHarnessEvidence then
      (v.harness record.harnessAttestationPath record.harnessAttestationHash
        record.harnessExpectation).mapError ("harness attestation failed: " ++ ·)
    if record.schemaVersion = learningSchemaVersion ∧ record.requiresWorkEvidence then
      record.validateCandidate v

def candidateVerified (v : Verifiers) (record : LearningRecord) : Bool :=
  record.candidateVerification.any fun candidate =>
    match v.candidate candidate.manifestPath candidate.manifestHash record.workPlanId
      candidate.bundleHash with
    | .ok verified => verified == (candidate.attempts, candidate.repairs)
    | .error _ => false

def isPromotableSuccess (v : Verifiers) (record : LearningRecord) : Bool :=
  if (record.validate v).isOk = false ∨ record.outcome = .failed then false
  else if record.gate = "native-fast-build" then true
  else if record.source = "native-app" ∧ isBlank record.providerModel ∧ 4 ≤ record.routeLen then
    true
  else
    record.schemaVersion == learningSchemaVersion && validSha256Tag record.artifactHash &&
      v.sha256File record.artifactPath == some record.artifactHash &&
      (!record.requiresHarnessEvidence ||
        (v.harness record.harnessAttestationPath record.harnessAttestationHash
          record.harnessExpectation).isOk) &&
      (!record.requiresWorkEvidence || (record.validateWork v).isOk) &&
      (!record.requiresWorkEvidence || record.candidateVerified v)

def nodeId (record : LearningRecord) : String :=
  "learning:" ++ record.outcome.asStr ++ ":" ++ record.id

def title (record : LearningRecord) : String :=
  match record.outcome with
  | .failed => "Learned failure: " ++ record.gate
  | .succeeded => "Reusable success: " ++ record.gate

def excerpt (record : LearningRecord) : String :=
  match record.outcome with
  | .failed => "Attempt " ++ record.attempt.toNat.repr ++ " for '" ++ brief record.intent 240 ++
      "' failed gate " ++ record.gate ++ ": " ++ brief record.failure 360 ++
      ". Correct this failure and rerun the real gate before claiming success."
  | .succeeded =>
    let correction := if isBlank record.correction then "No prior failure was required."
      else "Correction applied: " ++ record.correction ++ "."
    "Attempt " ++ record.attempt.toNat.repr ++ " for '" ++ brief record.intent 240 ++
      "' passed gate " ++ record.gate ++ " with recipe " ++ emptyAs record.recipeId "unspecified" ++
      " and artifact hash " ++ emptyAs record.artifactHash "route-audited" ++ ". " ++
      brief correction 360

def tags (record : LearningRecord) : List String :=
  sortDedup (((["learning", record.outcome.asStr] ++
    [record.source, record.gate, record.recipeId, record.providerModel].map toAsciiLowercase ++
    record.atomStack.map toAsciiLowercase ++ (tokenize record.intent).take 24)).filter
      fun value => !isBlank value)

def memoryKey (record : LearningRecord) : String :=
  record.source ++ "|" ++ record.gate ++ "|" ++ record.recipeId ++ "|" ++ record.outcome.asStr ++
    "|" ++ String.intercalate "-" (tokenize record.intent) ++ "|" ++
    String.intercalate "-" ((tokenize record.failure).take 24)

theorem nodeId_injective {record record' : LearningRecord} (h : record.nodeId = record'.nodeId) :
    record.outcome = record'.outcome ∧ record.id = record'.id := by
  have hlist := congrArg String.toList h
  simp only [nodeId, String.toList_append, List.append_assoc, List.append_cancel_left_eq] at hlist
  cases houtcome : record.outcome <;> cases houtcome' : record'.outcome <;>
    rw [houtcome, houtcome'] at hlist <;>
    simp [LearningOutcome.asStr] at hlist
  all_goals exact ⟨rfl, String.toList_injective hlist⟩

theorem validate_structure {v : Verifiers} {record : LearningRecord}
    (h : record.validate v = .ok ()) : record.validateStructure = .ok () := by
  obtain ⟨u, hstructure, -⟩ := bind_eq_ok.mp h
  exact hstructure

end LearningRecord

def selectLatest (limit : ℕ) : List LearningRecord → List String → List LearningRecord →
    List LearningRecord
  | [], _, selected => selected
  | record :: records, seen, selected =>
    if record.memoryKey ∈ seen then selectLatest limit records seen selected
    else if selected.length + 1 = limit then record :: selected
    else selectLatest limit records (record.memoryKey :: seen) (record :: selected)

/-- `effective_records`; what is selected is put in front, which reverses it. -/
def effectiveRecords (records : List LearningRecord) (limit : ℕ) : List LearningRecord :=
  if limit = 0 then [] else selectLatest limit records.reverse [] []

def noEvidence : Verifiers where
  workPlanModel _ _ _ := .error "work plan manifest is missing"
  harness _ _ _ := .error "harness attestation is missing"
  candidate _ _ _ _ := .error "candidate manifest is missing"
  sha256File _ := none
  fileLen _ := none

def sampleLesson (id : String) : LearningRecord where
  schemaVersion := 5
  id := id
  timestampMs := 1
  source := "native-app"
  intent := "make a notebook"
  recipeId := "provider-model-loop"
  atomStack := ["measure"]
  gate := "native-fast-build"
  attempt := 1
  outcome := .failed
  failure := "error[E0596]"
  correction := ""
  artifactPath := ""
  artifactHash := ""
  providerModel := ""
  workPlanId := ""
  workPlanManifest := ""
  workPacketCount := 0
  candidateVerification := none
  harnessAttestationPath := ""
  harnessAttestationHash := ""
  routeLen := 0

end AtomVibe.Learning
