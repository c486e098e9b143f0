import AtomVibe.Hash
import AtomVibe.JsonCodec

/-!
Harness attestations: the run of an allowlisted harness, the document it leaves behind and the
check of that document. Paths are the byte strings of a Unix system.
-/

namespace AtomVibe.Attestation

open Checked Text Hash Json JsonText JsonRoundTrip JsonCodec

def harnessSchemaVersion : UInt32 := 1

def maxCaptureBytes : ℕ := 1024 * 1024

def assertions : List String :=
  ["allowlisted-harness", "exit-code-zero", "stdout-exact", "artifact-hash-recomputed",
    "executable-hash-recomputed"]

abbrev OsPath := List UInt8

def sequenceOf (first : UInt8) : Option (UInt8 × UInt8 × ℕ) :=
  if 0xc2 ≤ first && first ≤ 0xdf then some (0x80, 0xbf, 0)
  else if first = 0xe0 then some (0xa0, 0xbf, 1)
  else if first = 0xed then some (0x80, 0x9f, 1)
  else if 0xe1 ≤ first && first ≤ 0xef then some (0x80, 0xbf, 1)
  else if first = 0xf0 then some (0x90, 0xbf, 2)
  else if 0xf1 ≤ first && first ≤ 0xf3 then some (0x80, 0xbf, 2)
  else if first = 0xf4 then some (0x80, 0x8f, 2)
  else none

def frontLength : List UInt8 → ℕ
  | first :: second :: rest =>
    match sequenceOf first with
    | some (low, high, more) =>
      if low ≤ second && second ≤ high then
        2 + ((rest.take more).takeWhile fun byte => 0x80 ≤ byte && byte ≤ 0xbf).length
      else 1
    | none => 1
  | _ => 1

def fromUtf8 (bytes : List UInt8) : Option String := String.fromUTF8? ⟨bytes.toArray⟩

def lossyChars : ℕ → List UInt8 → List Char
  | 0, _ => []
  | fuel + 1, bytes =>
    if bytes = [] then []
    else
      ((fromUtf8 (bytes.take (frontLength bytes))).getD "\ufffd").toList ++
        lossyChars fuel (bytes.drop (frontLength bytes))

def toStringLossy (path : OsPath) : String :=
  (fromUtf8 path).getD (String.ofList (lossyChars path.length path))

example : toStringLossy [0x2f, 0x61, 0xe2, 0x82, 0x62] = "/a\ufffdb" := by decide +kernel

structure HarnessRunSpec where
  harnessId : String
  gate : String
  workPlanId : String
  providerModel : String
  artifactPath : OsPath
  executablePath : OsPath
  workingDirectory : OsPath
  expectedStdout : String
  artifactEnv : Option String
  timeoutSeconds : UInt64
  attestationPath : OsPath

structure HarnessExpectation where
  gate : String
  workPlanId : String
  providerModel : String
  artifactPath : String

structure HarnessAttestation where
  schemaVersion : UInt32
  harnessId : String
  timestampMs : UInt64
  gate : String
  workPlanId : String
  providerModel : String
  artifactPath : String
  artifactHash : String
  executablePath : String
  executableHash : String
  workingDirectory : String
  command : String
  artifactEnv : String
  exitCode : Int32
  expectedStdoutHash : String
  actualStdoutHash : String
  stderrHash : String
  assertions : List String
  deriving DecidableEq

structure WrittenAttestation where
  path : OsPath
  hash : String

inductive AttestationError
  | invalid (reason : String)
  | execution (reason : String)
  | io (reason : String)

def allowlistedHarness (value : String) : Bool :=
  ["rust-console-exact-v1", "native-pmre-functional-v1", "design-upload-functional-v1",
    "provider-transport-functional-v1", "self-learning-restart-v1"].contains value

def expectedArtifactEnv (harnessId : String) : Option String :=
  if harnessId = "native-pmre-functional-v1" then some "MATH_ATOMS_REAL_APP_BMP"
  else if harnessId = "design-upload-functional-v1" then some "MATH_ATOMS_DESIGN_APP_BMP"
  else if harnessId = "provider-transport-functional-v1" then some "MATH_ATOMS_PROVIDER_OUTPUT"
  else none

namespace HarnessAttestation

def hashes (attestation : HarnessAttestation) : List String :=
  [attestation.artifactHash, attestation.executableHash, attestation.expectedStdoutHash,
    attestation.actualStdoutHash, attestation.stderrHash]

def validate (attestation : HarnessAttestation) : Except AttestationError Unit :=
  refuseIf
    (attestation.schemaVersion ≠ harnessSchemaVersion ∨
      allowlistedHarness attestation.harnessId = false ∨ attestation.timestampMs = 0 ∨
      isBlank attestation.gate ∨ isBlank attestation.artifactPath ∨
      isBlank attestation.executablePath ∨ attestation.command ≠ attestation.executablePath ∨
      attestation.artifactEnv ≠ (expectedArtifactEnv attestation.harnessId).getD "" ∨
      attestation.exitCode ≠ 0 ∨
      attestation.expectedStdoutHash ≠ attestation.actualStdoutHash ∨
      attestation.assertions ≠ Attestation.assertions ∨
      attestation.hashes.any fun hash => !validSha256Tag hash)
    (.invalid "attestation fields do not satisfy the strict schema")

def document (attestation : HarnessAttestation) : JsonValue :=
  .object
    [("schema_version", numberDoc attestation.schemaVersion.toNat),
      ("harness_id", .string attestation.harnessId),
      ("timestamp_ms", numberDoc attestation.timestampMs.toNat),
      ("gate", .string attestation.gate),
      ("work_plan_id", .string attestation.workPlanId),
      ("provider_model", .string attestation.providerModel),
      ("artifact_path", .string attestation.artifactPath),
      ("artifact_hash", .string attestation.artifactHash),
      ("executable_path", .string attestation.executablePath),
      ("executable_hash", .string attestation.executableHash),
      ("working_directory", .string attestation.workingDirectory),
      ("command", .string attestation.command),
      ("artifact_env", .string attestation.artifactEnv),
      ("exit_code", .number attestation.exitCode.toInt.repr),
      ("expected_stdout_hash", .string attestation.expectedStdoutHash),
      ("actual_stdout_hash", .string attestation.actualStdoutHash),
      ("stderr_hash", .string attestation.stderrHash),
      ("assertions", stringArrayDoc attestation.assertions)]

def toJson (attestation : HarnessAttestation) : String := render attestation.document

end HarnessAttestation

def fields : List String :=
  ["schema_version", "harness_id", "timestamp_ms", "gate", "work_plan_id", "provider_model",
    "artifact_path", "artifact_hash", "executable_path", "executable_hash", "working_directory",
    "command", "artifact_env", "exit_code", "expected_stdout_hash", "actual_stdout_hash",
    "stderr_hash", "assertions"]

def string (root : JsonValue) (key : String) : Except AttestationError String :=
  okOr (.invalid (key ++ " is not a string")) ((root.get key).bind JsonValue.asStr)

def strings (root : JsonValue) (key : String) : Except AttestationError (List String) := do
  let values ← okOr (.invalid (key ++ " is not an array")) ((root.get key).bind JsonValue.asArray)
  values.mapM fun value => okOr (.invalid (key ++ " entry is invalid")) value.asStr

def number (root : JsonValue) (key : String) : Except AttestationError UInt64 :=
  okOr (.invalid (key ++ " is not an unsigned integer")) ((root.get key).bind JsonValue.asU64)

def tryI32 (value : UInt64) : Option Int32 :=
  if value.toNat < 2 ^ 31 then some (Int32.ofNat value.toNat) else none

def readFields (root : JsonValue) : Except AttestationError HarnessAttestation := do
  let schemaVersion ← number root "schema_version"
  let harnessId ← string root "harness_id"
  let timestampMs ← number root "timestamp_ms"
  let gate ← string root "gate"
  let workPlanId ← string root "work_plan_id"
  let providerModel ← string root "provider_model"
  let artifactPath ← string root "artifact_path"
  let artifactHash ← string root "artifact_hash"
  let executablePath ← string root "executable_path"
  let executableHash ← string root "executable_hash"
  let workingDirectory ← string root "working_directory"
  let command ← string root "command"
  let artifactEnv ← string root "artifact_env"
  let exitCode ← okOr (.invalid "exit_code is invalid")
    (((root.get "exit_code").bind JsonValue.asU64).bind tryI32)
  let expectedStdoutHash ← string root "expected_stdout_hash"
  let actualStdoutHash ← string root "actual_stdout_hash"
  let stderrHash ← string root "stderr_hash"
  let assertions ← strings root "assertions"
  return ⟨schemaVersion.toUInt32, harnessId, timestampMs, gate, workPlanId, providerModel,
    artifactPath, artifactHash, executablePath, executableHash, workingDirectory, command,
    artifactEnv, exitCode, expectedStdoutHash, actualStdoutHash, stderrHash, assertions⟩

def fromJson (input : String) : Except AttestationError HarnessAttestation := do
  let root ← (parse input).mapError fun error => AttestationError.invalid ("JSON: " ++ error.display)
  let object ← okOr (.invalid "root is not an object") root.asObject
  refuseIf (¬(∀ field ∈ object, field.1 ∈ fields) ∨ ¬(∀ key ∈ fields, key ∈ object.map Prod.fst))
    (.invalid "fields are not the exact schema")
  readFields root

/-- A file system at one moment. An error is the text of the I/O error. -/
structure Disk where
  canonicalize : OsPath → Except String OsPath
  read : OsPath → Except String (List UInt8)
  exists_ : OsPath → Bool

def sha256File (disk : Disk) (path : OsPath) : Except AttestationError String :=
  (disk.read path).mapError AttestationError.io |>.map sha256Tagged

inductive ChildEnd
  | waitFailed (reason : String)
  | timedOut
  | exited (code : Option Int32) (stdout stderr : Except String (List UInt8))

/-- What a run finds outside the program: the file system before and after the process, and the one
that writing the attestation leaves behind. -/
structure Machine where
  start : Disk
  spawn : OsPath → OsPath → Option (String × OsPath) → Except String ChildEnd
  ended : Disk
  nowMs : UInt64
  store : List UInt8 → Except String Disk

def readBounded (pipe : Except String (List UInt8)) : Except AttestationError (List UInt8) := do
  let bytes ← pipe.mapError AttestationError.io
  refuseIf (maxCaptureBytes < bytes.length) (.io "harness output exceeded the byte limit")
  return bytes

def canonicalStdout (value : String) : String :=
  String.ofList (value.toList.reverse.dropWhile fun c => c == '\r' || c == '\n').reverse

def attest (spec : HarnessRunSpec) (machine : Machine) :
    Except AttestationError HarnessAttestation := do
  refuseIf (allowlistedHarness spec.harnessId = false)
    (.invalid ("harness is not allowlisted: " ++ spec.harnessId))
  refuseIf (isBlank spec.gate ∨ isBlank spec.expectedStdout ∨
      ¬(1 ≤ spec.timeoutSeconds ∧ spec.timeoutSeconds ≤ 600))
    (.invalid "gate, expected stdout, or timeout is invalid")
  let executable ← (machine.start.canonicalize spec.executablePath).mapError AttestationError.io
  let workingDirectory ←
    (machine.start.canonicalize spec.workingDirectory).mapError AttestationError.io
  let artifactEnv := expectedArtifactEnv spec.harnessId
  refuseIf (spec.artifactEnv ≠ artifactEnv)
    (.invalid "artifact environment does not match the allowlisted harness")
  let ended ← (machine.spawn executable workingDirectory
    (artifactEnv.map fun name => (name, spec.artifactPath))).mapError AttestationError.io
  match ended with
  | .waitFailed reason => .error (.io reason)
  | .timedOut => .error (.execution ("harness exceeded " ++ spec.timeoutSeconds.toNat.repr ++
      " seconds"))
  | .exited code stdout stderr => do
    let stdout ← readBounded stdout
    let stderr ← readBounded stderr
    let actual ← okOr (.execution "harness stdout is not UTF-8") (fromUtf8 stdout)
    let expected := canonicalStdout spec.expectedStdout
    let actual := canonicalStdout actual
    let exitCode := code.getD (-1)
    refuseIf (exitCode ≠ 0 ∨ actual ≠ expected)
      (.execution ("exit=" ++ exitCode.toInt.repr ++
        ", stdout did not match the exact functional contract"))
    let artifact ← (machine.ended.canonicalize spec.artifactPath).mapError AttestationError.io
    let artifactHash ← sha256File machine.ended artifact
    let executableHash ← sha256File machine.ended executable
    let attestation : HarnessAttestation :=
      { schemaVersion := harnessSchemaVersion
        harnessId := spec.harnessId
        timestampMs := machine.nowMs
        gate := spec.gate
        workPlanId := spec.workPlanId
        providerModel := spec.providerModel
        artifactPath := toStringLossy artifact
        artifactHash := artifactHash
        executablePath := toStringLossy executable
        executableHash := executableHash
        workingDirectory := toStringLossy workingDirectory
        command := toStringLossy executable
        artifactEnv := artifactEnv.getD ""
        exitCode := exitCode
        expectedStdoutHash := sha256Tagged (asBytes expected)
        actualStdoutHash := sha256Tagged (asBytes actual)
        stderrHash := sha256Tagged stderr
        assertions := assertions }
    attestation.validate
    return attestation

def hasParent (path : OsPath) : Bool :=
  path != [] && !(path.head? == some 0x2f &&
    (path.splitOn 0x2f).all fun part => part == [] || part == [0x2e])

def writeImmutable (path : OsPath) (bytes : List UInt8) (machine : Machine) :
    Except AttestationError Disk := do
  refuseIf (machine.ended.exists_ path = true)
    (.io ("attestation path already exists: " ++ toStringLossy path))
  refuseIf (hasParent path = false) (.io "attestation has no parent")
  let written ← (machine.store bytes).mapError AttestationError.io
  let readback ← (written.read path).mapError AttestationError.io
  refuseIf (readback ≠ bytes) (.io "attestation readback mismatch")
  return written

def runHarness (spec : HarnessRunSpec) (machine : Machine) :
    Except AttestationError (WrittenAttestation × Disk) := do
  let attestation ← attest spec machine
  let written ← writeImmutable spec.attestationPath (asBytes attestation.toJson) machine
  let path ← (written.canonicalize spec.attestationPath).mapError AttestationError.io
  let hash ← sha256File written spec.attestationPath
  return (⟨path, hash⟩, written)

def readToString (disk : Disk) (path : OsPath) : Except AttestationError String := do
  let bytes ← (disk.read path).mapError AttestationError.io
  okOr (.io "stream did not contain valid UTF-8") (fromUtf8 bytes)

def compareLive (disk : Disk) (attestation : HarnessAttestation) (expectation : HarnessExpectation)
    (attestedArtifact expectedArtifact : OsPath) : Except AttestationError Unit := do
  let mismatch := AttestationError.invalid
    "attestation does not match the learning record or live artifacts"
  refuseIf (attestation.gate ≠ expectation.gate ∨
      attestation.workPlanId ≠ expectation.workPlanId ∨
      attestation.providerModel ≠ expectation.providerModel ∨
      attestedArtifact ≠ expectedArtifact) mismatch
  let artifactHash ← sha256File disk attestedArtifact
  refuseIf (artifactHash ≠ attestation.artifactHash) mismatch
  let executableHash ← sha256File disk (asBytes attestation.executablePath)
  refuseIf (executableHash ≠ attestation.executableHash) mismatch

def verifyHarnessAttestation (disk : Disk) (path : OsPath) (expectedHash : String)
    (expectation : HarnessExpectation) : Except AttestationError HarnessAttestation := do
  refuseIf (validSha256Tag expectedHash = false) (.invalid "attestation hash is invalid")
  let path ← (disk.canonicalize path).mapError AttestationError.io
  let hash ← sha256File disk path
  refuseIf (hash ≠ expectedHash) (.invalid "attestation hash does not recompute")
  let input ← readToString disk path
  let attestation ← fromJson input
  attestation.validate
  let expectedArtifact ←
    (disk.canonicalize (asBytes expectation.artifactPath)).mapError AttestationError.io
  let attestedArtifact ←
    (disk.canonicalize (asBytes attestation.artifactPath)).mapError AttestationError.io
  compareLive disk attestation expectation attestedArtifact expectedArtifact
  return attestation

end AtomVibe.Attestation
