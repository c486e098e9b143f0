import AtomVibe.Hash

namespace AtomVibe.BuildProtocol

open Text JsonText

inductive BuildStep
  | intake
  | blueprint
  | crateBuild
  | crateCouple
  | buildTest
  | launchProof
  deriving DecidableEq, Repr

namespace BuildStep

def all : List BuildStep := [intake, blueprint, crateBuild, crateCouple, buildTest, launchProof]

def ordinal : BuildStep → UInt8
  | intake => 1
  | blueprint => 2
  | crateBuild => 3
  | crateCouple => 4
  | buildTest => 5
  | launchProof => 6

def asStr : BuildStep → String
  | intake => "intake"
  | blueprint => "blueprint"
  | crateBuild => "crate_build"
  | crateCouple => "crate_couple"
  | buildTest => "build_test"
  | launchProof => "launch_proof"

def skillId : BuildStep → String
  | intake => "atom-build-intake"
  | blueprint => "atom-build-blueprint"
  | crateBuild => "atom-crate-build"
  | crateCouple => "atom-crate-couple"
  | buildTest => "atom-build-test"
  | launchProof => "atom-launch-proof"

def next : BuildStep → Option BuildStep
  | intake => some blueprint
  | blueprint => some crateBuild
  | crateBuild => some crateCouple
  | crateCouple => some buildTest
  | buildTest => some launchProof
  | launchProof => none

def parse (value : String) : Option BuildStep := all.find? fun step => step.asStr == value

theorem parse_asStr (step : BuildStep) : parse step.asStr = some step := by
  cases step <;> decide

theorem lossless_asStr (step : BuildStep) : Lossless step.asStr := by
  cases step <;> decide

theorem mem_all (step : BuildStep) : step ∈ all := by
  cases step <;> decide

theorem next_eq (step : BuildStep) : step.next = all[step.ordinal.toNat]? := by
  cases step <;> rfl

theorem all_ordinal (step : BuildStep) : all[step.ordinal.toNat - 1]? = some step := by
  cases step <;> rfl

end BuildStep

inductive ProtocolError
  | invalidIdentifier (field value : String)
  | invalidArtifactPath (path : String)
  | invalidArtifactHash (path : String)
  | invalidArtifactRole (path : String)
  | invalidEvidence (reason : String)
  | deferredOutsideCouple
  deriving DecidableEq

def ProtocolError.display : ProtocolError → String
  | invalidIdentifier field value => "invalid " ++ field ++ ": " ++ value
  | invalidArtifactPath path => "unsafe artifact path: " ++ path
  | invalidArtifactHash path => "artifact hash is not SHA-256 hex: " ++ path
  | invalidArtifactRole path => "invalid artifact role: " ++ path
  | invalidEvidence reason => "invalid gate evidence: " ++ reason
  | deferredOutsideCouple => "deferred gate outcome is only valid for crate coupling"

structure BuildArtifactRef where
  path : String
  sha256Hex : String
  role : String
  deriving DecidableEq, Repr

def isSafeEvidencePath (value : String) : Bool :=
  let normalized := replaceChar '\\' '/' value
  normalized != "" && normalized.utf8ByteSize ≤ 1024 && !startsWith "/" normalized &&
    !normalized.toList.contains ':' &&
    (splitOn '/' normalized.toList).all
      (fun part => part != [] && part != ['.'] && part != ['.', '.']) &&
    !normalized.toList.any isControl

def BuildArtifactRef.validate (artifact : BuildArtifactRef) : Except ProtocolError Unit :=
  if !isSafeEvidencePath artifact.path then .error (.invalidArtifactPath artifact.path)
  else if artifact.sha256Hex.utf8ByteSize ≠ 64 || !artifact.sha256Hex.toList.all isAsciiHexdigit then
    .error (.invalidArtifactHash artifact.path)
  else if isBlank artifact.role || 96 < artifact.role.utf8ByteSize then
    .error (.invalidArtifactRole artifact.path)
  else .ok ()

def BuildArtifactRef.new (path sha256Hex role : String) : Except ProtocolError BuildArtifactRef := do
  let artifact := ⟨path, sha256Hex, role⟩
  artifact.validate
  return artifact

def BuildArtifactRef.Valid (artifact : BuildArtifactRef) : Prop := artifact.validate = .ok ()

instance (artifact : BuildArtifactRef) : Decidable artifact.Valid :=
  match h : artifact.validate with
  | .ok () => isTrue h
  | .error _ => isFalse (by rw [BuildArtifactRef.Valid, h]; simp)

theorem BuildArtifactRef.new_eq_ok (a b : BuildArtifactRef) :
    new a.path a.sha256Hex a.role = .ok b ↔ a.Valid ∧ b = a := by
  unfold new Valid
  cases h : BuildArtifactRef.validate a with
  | error e => simp [h, bind, Except.bind]
  | ok u =>
    simp only [h, bind, Except.bind, pure, Except.pure, Except.ok.injEq, true_and]
    exact ⟨fun hb => hb.symm, fun hb => hb.symm⟩

structure BuildGateEvidence where
  summary : String
  details : List String
  artifacts : List BuildArtifactRef
  checkedAtUnixMs : UInt64
  deriving DecidableEq

inductive BuildErrorClass
  | boundedMechanical
  | blueprintAmendment
  | compileErrors
  | compileWarnings
  | architecturalViolation
  | stubDetected
  | coupleDebt
  | functionalFailure
  | adversarialFailure
  | launchProofMissing
  | runtimePanic
  | unboundedOwnership
  | retryExhausted
  | evidenceInvalid
  | unknown
  deriving DecidableEq, Repr

namespace BuildErrorClass

def all : List BuildErrorClass :=
  [boundedMechanical, blueprintAmendment, compileErrors, compileWarnings, architecturalViolation,
    stubDetected, coupleDebt, functionalFailure, adversarialFailure, launchProofMissing,
    runtimePanic, unboundedOwnership, retryExhausted, evidenceInvalid, unknown]

def asStr : BuildErrorClass → String
  | boundedMechanical => "bounded_mechanical"
  | blueprintAmendment => "blueprint_amendment"
  | compileErrors => "compile_errors"
  | compileWarnings => "compile_warnings"
  | architecturalViolation => "architectural_violation"
  | stubDetected => "stub_detected"
  | coupleDebt => "couple_debt"
  | functionalFailure => "functional_failure"
  | adversarialFailure => "adversarial_failure"
  | launchProofMissing => "launch_proof_missing"
  | runtimePanic => "runtime_panic"
  | unboundedOwnership => "unbounded_ownership"
  | retryExhausted => "retry_exhausted"
  | evidenceInvalid => "evidence_invalid"
  | unknown => "unknown"

def parse (value : String) : Option BuildErrorClass := all.find? fun c => c.asStr == value

def isBoundedCandidate : BuildErrorClass → Bool
  | boundedMechanical | blueprintAmendment | compileErrors | compileWarnings | stubDetected
  | coupleDebt | functionalFailure | adversarialFailure | launchProofMissing => true
  | _ => false

theorem parse_asStr (c : BuildErrorClass) : parse c.asStr = some c := by
  cases c <;> decide

end BuildErrorClass

inductive GateOutcome
  | pass (evidence : BuildGateEvidence)
  | fail (errorClass : BuildErrorClass) (evidence : BuildGateEvidence)
  | deferred (reason : String) (evidence : BuildGateEvidence)
  deriving DecidableEq

def GateOutcome.isPass : GateOutcome → Bool
  | pass _ => true
  | _ => false

inductive BuildPlannerEvent
  | buildStarted (buildId projectId releasedSkill : String)
  | stepAdvanced (buildId projectId : String) (completedStep : BuildStep)
      (nextStep : Option BuildStep) (releasedSkill : Option String)
  | deferredDebtRecorded (buildId projectId : String) (step : BuildStep) (reason : String)
  | hardHalted (buildId projectId : String) (step : BuildStep) (errorClass : BuildErrorClass)
      (summary : String)
  | autonomousRetryRequested (buildId projectId : String) (step : BuildStep)
      (errorClass : BuildErrorClass) (attempt attemptLimit : UInt8) (summary : String)
  deriving DecidableEq

end AtomVibe.BuildProtocol
