import Mathlib.Logic.Function.Basic
import AtomVibe.CoreRuntime

namespace AtomVibe.Native

open Text Hash JsonText Secrets Proof Learning Verification CoreRuntime

def maxShortField : ℕ := 512

def maxLongField : ℕ := 4096

def fnv1a (bytes : List UInt8) : UInt64 :=
  bytes.foldl (fun hash byte => (hash ^^^ byte.toUInt64) * 0x100000001b3) 0xcbf29ce484222325

def hex16 (value : UInt64) : String :=
  String.ofList (([56, 48, 40, 32, 24, 16, 8, 0] : List UInt64).flatMap fun shift =>
    hexByte (value >>> shift).toUInt8)

def sanitizeText (value : String) (limit : ℕ) : String :=
  redactSensitiveText (String.ofList ((value.toList.map sanitizeChar).take limit))

structure RecordStamp where
  nowMs : UInt64
  processId : UInt32
  sequence : UInt64

structure LearningRecordInput where
  source : String
  intent : String
  recipeId : String
  atomStack : List String
  gate : String
  attempt : UInt32
  outcome : LearningOutcome
  failure : String
  correction : String
  artifactPath : String
  artifactHash : String
  providerModel : String
  workPlanId : String
  workPlanManifest : String
  workPacketCount : ℕ
  candidateVerification : Option CandidateVerificationEvidence
  harnessAttestationPath : String
  harnessAttestationHash : String
  routeLen : ℕ

def newLearningRecord (stamp : RecordStamp) (input : LearningRecordInput) : LearningRecord where
  schemaVersion := learningSchemaVersion
  id := hex16 (fnv1a (asBytes (stamp.nowMs.toNat.repr ++ ":" ++ stamp.processId.toNat.repr ++ ":" ++
    stamp.sequence.toNat.repr ++ ":" ++ input.source ++ ":" ++ input.gate ++ ":" ++
    input.attempt.toNat.repr)))
  timestampMs := stamp.nowMs
  source := sanitizeText input.source maxShortField
  intent := sanitizeText input.intent maxLongField
  recipeId := sanitizeText input.recipeId maxShortField
  atomStack := input.atomStack.map fun value => sanitizeText value maxShortField
  gate := sanitizeText input.gate maxShortField
  attempt := input.attempt
  outcome := input.outcome
  failure := sanitizeText input.failure maxLongField
  correction := sanitizeText input.correction maxLongField
  artifactPath := sanitizeText input.artifactPath maxLongField
  artifactHash := sanitizeText input.artifactHash maxShortField
  providerModel := sanitizeText input.providerModel maxShortField
  workPlanId := sanitizeText input.workPlanId maxShortField
  workPlanManifest := sanitizeText input.workPlanManifest maxLongField
  workPacketCount := .ofNat input.workPacketCount
  candidateVerification := input.candidateVerification.map fun evidence =>
    { evidence with
      manifestPath := sanitizeText evidence.manifestPath maxLongField
      manifestHash := sanitizeText evidence.manifestHash maxShortField
      bundleHash := sanitizeText evidence.bundleHash maxShortField }
  harnessAttestationPath := sanitizeText input.harnessAttestationPath maxLongField
  harnessAttestationHash := sanitizeText input.harnessAttestationHash maxShortField
  routeLen := .ofNat input.routeLen

structure LearningSummary where
  total : ℕ
  failed : ℕ
  succeeded : ℕ
  deriving DecidableEq

namespace LearningSummary

def add (summary : LearningSummary) (outcome : LearningOutcome) : LearningSummary :=
  match outcome with
  | .failed => { summary with total := summary.total + 1, failed := summary.failed + 1 }
  | .succeeded => { summary with total := summary.total + 1, succeeded := summary.succeeded + 1 }

def fromRecords (records : List LearningRecord) : LearningSummary where
  total := records.length
  failed := records.countP fun record => record.outcome = .failed
  succeeded := records.countP fun record => record.outcome = .succeeded

end LearningSummary

abbrev LearningAttempts := String × String → Option UInt32

def LearningAttempts.insert (attempts : LearningAttempts) (key : String × String)
    (attempt : UInt32) : LearningAttempts :=
  Function.update attempts key (some attempt)

def LearningAttempts.next (attempts : LearningAttempts) (key : String × String) : UInt32 :=
  (attempts key).getD 0 + 1

def fastBuildGate : String := "native-fast-build"

def priorFailure (records : List LearningRecord) (intent gate : String) : String :=
  ((records.reverse.find? fun record =>
    record.intent == intent && record.gate == gate && record.outcome == .failed).map
      (·.failure)).getD ""

def runGate (state : RuntimeState) : String :=
  if state.lastProviderCall.isSome || state.blockers.any fun blocker =>
      contains "provider".toList (toAsciiLowercase blocker).toList then
    "native-provider-execution"
  else "native-proof-route"

def runOutcome : RuntimeStatus → Option LearningOutcome
  | .proven => some .succeeded
  | .blocked => some .failed
  | _ => none

def learningRecordFromState (stamp : RecordStamp) (state : RuntimeState) (lastIntent : String)
    (attempts : LearningAttempts) (prior : List LearningRecord) (lastProviderOutput : String) :
    Option LearningRecord :=
  (runOutcome state.status).map fun outcome =>
    let blockers := "; ".intercalate state.blockers
    newLearningRecord stamp {
      source := "native-app"
      intent := lastIntent
      recipeId := state.selectedRecipe
      atomStack := state.selectedAtoms
      gate := runGate state
      attempt := attempts.next (lastIntent, runGate state)
      outcome
      failure :=
        if outcome = .failed then (if blockers = "" then lastProviderOutput else blockers) else ""
      correction :=
        if outcome = .succeeded then priorFailure prior lastIntent (runGate state) else ""
      artifactPath := state.lastProviderOutputArtifact
      artifactHash := state.lastProviderOutputHash
      providerModel := (state.lastProviderCall.map (·.model)).getD ""
      workPlanId := state.lastWorkPlanId
      workPlanManifest := state.lastWorkPlanManifest
      workPacketCount := state.lastWorkPacketCount
      candidateVerification := state.lastCandidateVerification
      harnessAttestationPath := ""
      harnessAttestationHash := ""
      routeLen := state.lastRoute.length }

def fastBuildModel (state : RuntimeState) (fallbackModel : String) : String :=
  ((state.lastProviderCall.map (·.model)).filter fun model => model != "").getD fallbackModel

def fastBuildRecord (stamp : RecordStamp) (state : RuntimeState) (lastIntent fallbackModel : String)
    (attempt : UInt32) (outcome : LearningOutcome) (failure correction artifactPath : String) :
    LearningRecord :=
  newLearningRecord stamp {
    source := "native-app"
    intent := lastIntent
    recipeId := state.selectedRecipe
    atomStack := state.selectedAtoms
    gate := fastBuildGate
    attempt
    outcome
    failure
    correction
    artifactPath
    artifactHash := ""
    providerModel := fastBuildModel state fallbackModel
    workPlanId := ""
    workPlanManifest := ""
    workPacketCount := 0
    candidateVerification := none
    harnessAttestationPath := ""
    harnessAttestationHash := ""
    routeLen := state.lastRoute.length }

def fastBuildSuccessRecord (stamp : RecordStamp) (state : RuntimeState)
    (lastIntent fallbackModel : String) (attempt : UInt32) (prior : List LearningRecord)
    (artifactPath : String) : LearningRecord :=
  fastBuildRecord stamp state lastIntent fallbackModel attempt .succeeded ""
    (priorFailure prior lastIntent fastBuildGate) artifactPath

def fastBuildFailureRecord (stamp : RecordStamp) (state : RuntimeState)
    (lastIntent fallbackModel : String) (attempt : UInt32) (compileErrors artifactPath : String) :
    LearningRecord :=
  fastBuildRecord stamp state lastIntent fallbackModel attempt .failed compileErrors "" artifactPath

def proofRecordFromState (state : RuntimeState) (providerState : String) : ProofRecord :=
  let ran := providerState = "provider:ran"
  { recipeId := state.selectedRecipe
    status := state.status.asStr
    atoms := state.selectedAtoms
    evidenceCount := .ofNat state.evidence.length
    blockers := state.blockers
    providerState
    providerModel := (state.lastProviderCall.map (·.model)).getD ""
    providerEndpoint := (state.lastProviderCall.map (·.endpoint)).getD ""
    providerOutputArtifact := if ran then state.lastProviderOutputArtifact else ""
    providerOutputHash := if ran then state.lastProviderOutputHash else ""
    providerOutputLen := if ran then .ofNat state.lastProviderOutputLen else 0
    workPlanId := if ran then state.lastWorkPlanId else ""
    workPlanManifest := if ran then state.lastWorkPlanManifest else ""
    workPacketCount := if ran then .ofNat state.lastWorkPacketCount else 0
    candidateVerification := if ran then state.lastCandidateVerification else none
    routeLen := .ofNat state.lastRoute.length }

end AtomVibe.Native
