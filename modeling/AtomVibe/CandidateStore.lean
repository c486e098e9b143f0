import AtomVibe.CandidateModel
import AtomVibe.EvidenceDisk
import AtomVibe.Secrets

/-!
The durable evidence of a candidate's verification, as it is read back: the attempts, the repairs
between them, and the final manifest that closes their chain. The length of a file is that of what
is read of it.
-/

namespace AtomVibe.Verification

open Checked Text Hash Json Secrets EvidenceDisk

def verificationSchemaVersion : UInt32 := 1

def maxFailureBytes : ℕ := 24 * 1024

inductive CandidateProfile
  | rust
  | json
  deriving DecidableEq

structure CommandEvidence where
  name : String
  program : String
  args : List String
  exitCode : Int32
  timedOut : Bool
  stdoutPath : String
  stdoutHash : String
  stdoutLen : ℕ
  stderrPath : String
  stderrHash : String
  stderrLen : ℕ
  deriving DecidableEq

def CommandEvidence.passed (command : CommandEvidence) : Bool :=
  !command.timedOut && command.exitCode == 0

structure FileEvidence where
  path : String
  hash : String
  len : ℕ
  controllerOwned : Bool
  deriving DecidableEq

structure VerificationAttempt where
  planId : String
  attempt : UInt32
  passed : Bool
  candidateDir : String
  bundleHash : String
  files : List FileEvidence
  commands : List CommandEvidence
  failure : String
  manifestPath : Path
  manifestHash : String
  deriving DecidableEq

structure RepairEvidence where
  planId : String
  afterAttempt : UInt32
  sourceBundleHash : String
  repairedBundleHash : String
  model : String
  files : List CandidateFile
  manifestPath : Path
  manifestHash : String
  deriving DecidableEq

structure VerifiedCandidate where
  planId : String
  attempts : UInt32
  repairs : UInt32
  bundleHash : String
  candidateDir : Path
  deriving DecidableEq

def VerificationError.display : VerificationError → String
  | .invalidPolicy reason => "invalid verification policy: " ++ reason
  | .invalidCandidate reason => "invalid candidate: " ++ reason
  | .unsupportedCandidate reason => "unsupported candidate: " ++ reason
  | .command reason => "candidate command failed: " ++ reason
  | .evidence reason => "candidate evidence failed: " ++ reason
  | .io reason => "candidate verification I/O failed: " ++ reason

def validatePlanId (value : String) : Except VerificationError Unit :=
  refuseIf (value = "" ∨ 160 < value.utf8ByteSize ∨
      ¬value.toList.all fun c => isAsciiLowercase c || isAsciiDigit c || c == '-')
    (.invalidCandidate ("unsafe plan id: " ++ value))

/-! What the controller adds to a candidate. `debug` is how a string is printed as a literal. -/

def isCargoManifest (file : CandidateFile) : Bool :=
  toAsciiLowercase (normalizePath file.path) == toAsciiLowercase "Cargo.toml"

def hasExtension (extension : String) (file : CandidateFile) : Bool :=
  endsWith extension (toAsciiLowercase file.path)

def candidateProfile (files : List CandidateFile) : Except VerificationError CandidateProfile := do
  validateFiles files
  if files.any isCargoManifest || 0 < files.countP (hasExtension ".rs") then return .rust
  else if files.all (hasExtension ".json") then return .json
  else .error (.unsupportedCandidate
    "candidate must be a Rust crate/source bundle or a JSON artifact bundle")

def boundaryBelow (cs : List Char) : ℕ → ℕ
  | 0 => 0
  | stop + 1 => if isCharBoundary (stop + 1) cs then stop + 1 else boundaryBelow cs stop

def cleanFailure (value : String) : String :=
  let redacted := redactSensitiveText value
  if redacted.utf8ByteSize ≤ maxFailureBytes then redacted
  else String.ofList (takeBytes (boundaryBelow redacted.toList maxFailureBytes) redacted.toList) ++
    "\n[verification output truncated]"

def firstJsonFailure : List CandidateFile → Option String
  | [] => none
  | file :: files =>
    match parse file.content with
    | .error error => some (cleanFailure ("JSON file " ++ file.path ++ " failed strict parsing: " ++
        error.display))
    | .ok _ => firstJsonFailure files

def jsonValidationFailure (files : List CandidateFile) :
    Except VerificationError (Option String) := do
  let profile ← candidateProfile files
  if profile = .json then return firstJsonFailure files else return none

def controllerJsonHarness (debug : String → String) (files : List CandidateFile) :
    Except VerificationError String := do
  match (← jsonValidationFailure files) with
  | some failure =>
    return "#![forbid(unsafe_code)]\ncompile_error!(" ++ debug failure ++ ");\n"
  | none =>
    return "#![forbid(unsafe_code)]\npub const VERIFIED_JSON_FILES: usize = " ++
      files.length.repr ++ ";\npub const VERIFIED_JSON_BYTES: usize = " ++
      (files.map fun file : CandidateFile => file.content.utf8ByteSize).sum.repr ++
      ";\n#[cfg(test)]\nmod tests \x7b\n    use super::*;\n    #[test]\n    " ++
      "fn controller_validated_nonempty_json_bundle() \x7b\n        " ++
      "assert!(std::hint::black_box(VERIFIED_JSON_FILES) > 0);\n        " ++
      "assert!(std::hint::black_box(VERIFIED_JSON_BYTES) > 0);\n    \x7d\n\x7d\n"

def controllerManifest (extra : String) : String :=
  "[package]\nname = \"atom-verified-candidate\"\nversion = \"0.1.0\"\nedition = \"2021\"\n" ++
    "publish = false\n\n[workspace]\n" ++ extra

def CandidateFile.new (path content : String) : Except VerificationError CandidateFile := do
  let item : CandidateFile := ⟨path, content⟩
  item.validate
  return item

def tomlEscape (value : String) : String :=
  String.ofList (value.toList.flatMap fun c =>
    if c = '\\' then ['\\', '\\'] else if c = '"' then ['\\', '"'] else [c])

def expectedControllerFiles (debug : String → String) (profile : CandidateProfile)
    (files : List CandidateFile) : Except VerificationError (List CandidateFile) := do
  if files.any isCargoManifest then return []
  else if profile = .json then
    let manifest ← CandidateFile.new "Cargo.toml" (controllerManifest "")
    let harness ← CandidateFile.new "src/lib.rs" (← controllerJsonHarness debug files)
    return [manifest, harness]
  else
    let hasStandardTarget := files.any fun file =>
      normalizePath file.path == "src/main.rs" || normalizePath file.path == "src/lib.rs"
    if hasStandardTarget then
      let manifest ← CandidateFile.new "Cargo.toml" (controllerManifest "")
      return [manifest]
    else
      match files.filter (hasExtension ".rs") with
      | [file] =>
        let manifest ← CandidateFile.new "Cargo.toml" (controllerManifest
          ("\n[[bin]]\nname = \"candidate\"\npath = \"" ++ tomlEscape (normalizePath file.path) ++
            "\"\n"))
        return [manifest]
      | _ => .error (.unsupportedCandidate
          "candidate must provide Cargo.toml, src/main.rs, src/lib.rs, or one Rust source file")

section Fields

variable (value : JsonValue) (key : String)

def string : Except VerificationError String :=
  okOr (.evidence (key ++ " is not a string")) ((value.get key).bind JsonValue.asStr)

def number : Except VerificationError UInt64 :=
  okOr (.evidence (key ++ " is not an integer")) ((value.get key).bind JsonValue.asU64)

def parseI64 (text : String) : Option ℤ :=
  match text.toList with
  | '-' :: digits =>
    if digits ≠ [] ∧ digits.all isAsciiDigit ∧ Nat.ofDigitChars 10 digits 0 ≤ 2 ^ 63 then
      some (-(Nat.ofDigitChars 10 digits 0 : ℤ))
    else none
  | digits =>
    if digits ≠ [] ∧ digits.all isAsciiDigit ∧ Nat.ofDigitChars 10 digits 0 < 2 ^ 63 then
      some (Nat.ofDigitChars 10 digits 0 : ℤ)
    else none

def signedNumber : Except VerificationError ℤ := do
  match (← okOr (.evidence (key ++ " is missing")) (value.get key)) with
  | .number text => okOr (.evidence (key ++ " is not a signed integer")) (parseI64 text)
  | _ => .error (.evidence (key ++ " is not a signed integer"))

def boolean : Except VerificationError Bool :=
  match value.get key with
  | some (.bool b) => .ok b
  | _ => .error (.evidence (key ++ " is not a boolean"))

def array : Except VerificationError (List JsonValue) :=
  okOr (.evidence (key ++ " is not an array")) ((value.get key).bind JsonValue.asArray)

def stringArray : Except VerificationError (List String) := do
  let items ← array value key
  items.mapM fun item => okOr (.evidence (key ++ " entry is not a string")) item.asStr

end Fields

def tryU32 (reason : String) (value : UInt64) : Except VerificationError UInt32 :=
  if value.toNat < 2 ^ 32 then .ok value.toUInt32 else .error (.evidence reason)

def exactValueObject (value : JsonValue) (fields : List String) (label : String) :
    Except VerificationError Unit := do
  let object ← okOr (.evidence (label ++ " is not an object")) value.asObject
  refuseIf (¬(∀ field ∈ object, field.1 ∈ fields) ∨ ¬(∀ key ∈ fields, key ∈ object.map Prod.fst))
    (.evidence (label ++ " fields are invalid"))

def parseExactObject (text : String) (fields : List String) (label : String) :
    Except VerificationError JsonValue := do
  let value ← (parse text).mapError fun error =>
    VerificationError.evidence (label ++ " JSON: " ++ error.display)
  exactValueObject value fields label
  return value

def ioError {α : Type} (x : Except String α) : Except VerificationError α :=
  x.mapError fun reason => .io (redactSensitiveText reason)

def componentsOf (text : String) : Option Path :=
  if startsWith "/" text then
    some (((splitOn '/' text.toList).map String.ofList).filter fun part => part != "" && part != ".")
  else none

def fileNameOf (text : String) : Option String :=
  match (((splitOn '/' text.toList).map String.ofList).filter fun part =>
      part != "" && part != ".").getLast? with
  | some name => if name = ".." then none else some name
  | none => none

def joinText (dir : Path) (relative : String) : String :=
  if startsWith "/" relative then relative else pathText dir ++ "/" ++ relative

section Reading

variable (debug : String → String) (disk : Disk)

def sha256File (path : Path) : Except VerificationError String :=
  (ioError (disk.read path)).map fun bytes => sha256Tagged bytes.data.toList

def fileLen (path : Path) : Except VerificationError ℕ := (ioError (disk.read path)).map ByteArray.size

def readText (path : Path) : Except VerificationError String := ioError (disk.readToString path)

def readTextAt (text : String) : Except VerificationError String := do
  let path ← ioError (disk.canonicalize text)
  readText disk path

def verificationAttemptDir (root : Path) (planId : String) (attempt : UInt32) : Path :=
  root ++ [planId, "candidate-verification", "attempt-" ++ padded 3 attempt.toNat]

def parseFile (value : JsonValue) : Except VerificationError FileEvidence := do
  exactValueObject value ["path", "hash", "len", "controller_owned"] "file evidence"
  let path ← string value "path"
  let hash ← string value "hash"
  let len ← number value "len"
  let controllerOwned ← boolean value "controller_owned"
  return ⟨path, hash, len.toNat, controllerOwned⟩

def commandFields : List String :=
  ["name", "program", "args", "exit_code", "timed_out", "stdout_path", "stdout_hash", "stdout_len",
    "stderr_path", "stderr_hash", "stderr_len"]

def parseCommand (value : JsonValue) : Except VerificationError CommandEvidence := do
  exactValueObject value commandFields "command evidence"
  let name ← string value "name"
  let program ← string value "program"
  let args ← stringArray value "args"
  let exitCode ← signedNumber value "exit_code"
  refuseIf (¬(-(2 ^ 31) ≤ exitCode ∧ exitCode < 2 ^ 31)) (.evidence "candidate exit code is invalid")
  let timedOut ← boolean value "timed_out"
  let stdoutPath ← string value "stdout_path"
  let stdoutHash ← string value "stdout_hash"
  let stdoutLen ← number value "stdout_len"
  let stderrPath ← string value "stderr_path"
  let stderrHash ← string value "stderr_hash"
  let stderrLen ← number value "stderr_len"
  return ⟨name, program, args, Int32.ofInt exitCode, timedOut, stdoutPath, stdoutHash,
    stdoutLen.toNat, stderrPath, stderrHash, stderrLen.toNat⟩

def attemptFields : List String :=
  ["schema_version", "plan_id", "attempt", "passed", "candidate_dir", "bundle_hash", "files",
    "commands", "failure"]

def parseAttempt (path : Path) : Except VerificationError VerificationAttempt := do
  let text ← readText disk path
  let value ← parseExactObject text attemptFields "attempt manifest"
  let schema ← number value "schema_version"
  refuseIf (schema ≠ verificationSchemaVersion.toUInt64)
    (.evidence "candidate attempt schema is invalid")
  let fileValues ← array value "files"
  let files ← fileValues.mapM parseFile
  let commandValues ← array value "commands"
  let commands ← commandValues.mapM parseCommand
  let planId ← string value "plan_id"
  let number ← number value "attempt"
  let attempt ← tryU32 "candidate attempt number is invalid" number
  let passed ← boolean value "passed"
  let candidateDir ← string value "candidate_dir"
  let bundleHash ← string value "bundle_hash"
  let failure ← string value "failure"
  return ⟨planId, attempt, passed, candidateDir, bundleHash, files, commands, failure, path, ""⟩

def verifyFile (root : Path) (file : FileEvidence) : Except VerificationError Unit := do
  validateRelativePath file.path
  let path ← ioError (disk.canonicalize (joinText root file.path))
  let len ← fileLen disk path
  let mismatch := VerificationError.evidence
    ("candidate file evidence does not recompute: " ++ file.path)
  refuseIf (isUnder root path = false ∨ len ≠ file.len ∨ validSha256Tag file.hash = false) mismatch
  let hash ← sha256File disk path
  refuseIf (hash ≠ file.hash) mismatch

def expectedArgs : List (List String) :=
  [["check", "--all-targets", "--offline"], ["test", "--all-targets", "--offline"],
    ["clippy", "--all-targets", "--offline", "--", "-D", "warnings"]]

def verifyCommand (attemptDir : Path) (command : CommandEvidence) (index : ℕ) :
    Except VerificationError Unit := do
  let args ← okOr (.evidence "candidate command ordinal is invalid") expectedArgs[index]?
  let programName := toAsciiLowercase ((fileNameOf command.program).getD "")
  refuseIf (command.name = "" ∨ command.program = "" ∨
      (programName ≠ "cargo" ∧ programName ≠ "cargo.exe") ∨ command.args ≠ args ∨
      validSha256Tag command.stdoutHash = false ∨ validSha256Tag command.stderrHash = false)
    (.evidence "candidate command evidence fields are invalid")
  let stdout ← ioError (disk.canonicalize command.stdoutPath)
  let stderr ← ioError (disk.canonicalize command.stderrPath)
  let mismatch := VerificationError.evidence
    ("candidate command logs do not recompute: " ++ command.name)
  refuseIf (isUnder attemptDir stdout = false ∨ isUnder attemptDir stderr = false) mismatch
  let stdoutLen ← fileLen disk stdout
  refuseIf (stdoutLen ≠ command.stdoutLen) mismatch
  let stderrLen ← fileLen disk stderr
  refuseIf (stderrLen ≠ command.stderrLen) mismatch
  let stdoutHash ← sha256File disk stdout
  refuseIf (stdoutHash ≠ command.stdoutHash) mismatch
  let stderrHash ← sha256File disk stderr
  refuseIf (stderrHash ≠ command.stderrHash) mismatch

def verifyCommands (attemptDir : Path) : ℕ → List CommandEvidence → Except VerificationError Unit
  | _, [] => .ok ()
  | index, command :: commands => do
    verifyCommand disk attemptDir command index
    verifyCommands attemptDir (index + 1) commands

def readAttemptFiles (candidateDir : Path) : List FileEvidence →
    Except VerificationError (List CandidateFile × List CandidateFile)
  | [] => .ok ([], [])
  | file :: files => do
    verifyFile disk candidateDir file
    let content ← readTextAt disk (joinText candidateDir file.path)
    let read ← CandidateFile.new file.path content
    let (candidates, controllers) ← readAttemptFiles candidateDir files
    return if file.controllerOwned then (candidates, read :: controllers)
      else (read :: candidates, controllers)

def strictCommands : List String := ["cargo-check", "cargo-test", "cargo-clippy"]

def verifyResult (attempt : VerificationAttempt) : Except VerificationError Unit :=
  if attempt.passed then
    refuseIf (attempt.commands.length ≠ strictCommands.length ∨
        (attempt.commands.any fun command => !command.passed) ∨ attempt.failure ≠ "")
      (.evidence "passing candidate did not pass every strict command")
  else
    refuseIf (attempt.failure = "" ∨ (attempt.commands.getLast?.all (·.passed)) ∨
        attempt.commands.dropLast.any fun command => !command.passed)
      (.evidence "failed candidate does not contain a closed strict-command failure")

def verifyAttempt (attempt : VerificationAttempt) : Except VerificationError Unit := do
  validatePlanId attempt.planId
  let identity := VerificationError.evidence "candidate attempt identity is invalid"
  refuseIf (attempt.attempt = 0 ∨ maxVerificationAttempts < attempt.attempt.toNat ∨
    validSha256Tag attempt.bundleHash = false ∨ validSha256Tag attempt.manifestHash = false) identity
  let hash ← sha256File disk attempt.manifestPath
  refuseIf (hash ≠ attempt.manifestHash) identity
  let manifestPath ← ioError (disk.canonicalize (pathText attempt.manifestPath))
  let candidateDir ← ioError (disk.canonicalize attempt.candidateDir)
  refuseIf (manifestPath = []) (.evidence "candidate attempt manifest has no parent")
  let attemptDir := manifestPath.dropLast
  refuseIf (manifestPath.getLast? ≠ some "attempt.json" ∨
      ¬(candidateDir ≠ [] ∧ candidateDir.dropLast = attemptDir) ∨
      candidateDir.getLast? ≠ some "candidate" ∨
      attemptDir.getLast? ≠ some ("attempt-" ++ padded 3 attempt.attempt.toNat))
    (.evidence "candidate attempt paths are invalid")
  let (candidateFiles, controllerFiles) ← readAttemptFiles disk candidateDir attempt.files
  let profile ← candidateProfile candidateFiles
  let expected ← expectedControllerFiles debug profile candidateFiles
  let bundle := VerificationError.evidence
    "candidate bundle does not recompute from attempt files"
  refuseIf (controllerFiles ≠ expected) bundle
  let recomputed ← Verification.bundleHash candidateFiles
  refuseIf (recomputed ≠ attempt.bundleHash) bundle
  let failure ← if attempt.passed then jsonValidationFailure candidateFiles else .ok none
  refuseIf (failure.isSome = true) (.evidence "passing JSON candidate does not parse")
  refuseIf (attempt.commands = [] ∨ strictCommands.length < attempt.commands.length ∨
      ¬(attempt.commands.map (·.name)) <+: strictCommands)
    (.evidence "candidate strict command sequence is invalid")
  verifyCommands disk attemptDir 0 attempt.commands
  verifyResult attempt

def loadAttempt (root : Path) (planId : String) (attempt : UInt32) :
    Except VerificationError (Option VerificationAttempt) := do
  let path := verificationAttemptDir root planId attempt ++ ["attempt.json"]
  if disk.exists_ path = false then return none
  else
    let hash ← sha256File disk path
    let parsed ← parseAttempt disk path
    let manifestPath ← ioError (disk.canonicalize (pathText path))
    let parsed := { parsed with manifestPath, manifestHash := hash }
    verifyAttempt debug disk parsed
    return some parsed

def validateModel (model : String) : Except VerificationError Unit :=
  refuseIf (trim model ≠ model ∨ model = "" ∨ 240 < model.utf8ByteSize ∨
      model.toList.any isControl = true)
    (.evidence "candidate repair model is invalid")

def validateRepairFields (repair : RepairEvidence) : Except VerificationError Unit := do
  validatePlanId repair.planId
  validateModel repair.model
  validateFiles repair.files
  let identity := VerificationError.evidence "candidate repair identity is invalid"
  refuseIf (repair.afterAttempt = 0 ∨ maxVerificationAttempts ≤ repair.afterAttempt.toNat ∨
    validSha256Tag repair.sourceBundleHash = false ∨
    validSha256Tag repair.repairedBundleHash = false ∨
    repair.sourceBundleHash = repair.repairedBundleHash) identity
  let recomputed ← bundleHash repair.files
  refuseIf (recomputed ≠ repair.repairedBundleHash) identity

def repairFields : List String :=
  ["schema_version", "plan_id", "after_attempt", "source_bundle_hash", "repaired_bundle_hash",
    "model", "files"]

def parseRepairFile (filesDir : Path) (item : JsonValue) : Except VerificationError CandidateFile := do
  exactValueObject item ["path", "hash", "len"] "repair file"
  let relative ← string item "path"
  validateRelativePath relative
  let claimedHash ← string item "hash"
  let claimedLen ← number item "len"
  let path ← ioError (disk.canonicalize (joinText filesDir relative))
  let len ← fileLen disk path
  let mismatch := VerificationError.evidence
    ("candidate repair file does not recompute: " ++ relative)
  refuseIf (isUnder filesDir path = false ∨ validSha256Tag claimedHash = false ∨
    len ≠ claimedLen.toNat) mismatch
  let hash ← sha256File disk path
  refuseIf (hash ≠ claimedHash) mismatch
  let content ← readText disk path
  CandidateFile.new relative content

def parseRepair (path : Path) : Except VerificationError RepairEvidence := do
  let path ← ioError (disk.canonicalize (pathText path))
  refuseIf (path.getLast? ≠ some "repair.json")
    (.evidence "candidate repair manifest name is invalid")
  let text ← readText disk path
  let value ← parseExactObject text repairFields "repair manifest"
  let schema ← number value "schema_version"
  refuseIf (schema ≠ verificationSchemaVersion.toUInt64)
    (.evidence "candidate repair schema is invalid")
  let filesDir ← ioError (disk.canonicalize (pathText (path.dropLast ++ ["files"])))
  let items ← array value "files"
  let files ← items.mapM (parseRepairFile disk filesDir)
  let planId ← string value "plan_id"
  let after ← number value "after_attempt"
  let afterAttempt ← tryU32 "candidate repair attempt is invalid" after
  let sourceBundleHash ← string value "source_bundle_hash"
  let repairedBundleHash ← string value "repaired_bundle_hash"
  let model ← string value "model"
  let manifestHash ← sha256File disk path
  let repair : RepairEvidence :=
    ⟨planId, afterAttempt, sourceBundleHash, repairedBundleHash, model, files, path, manifestHash⟩
  validateRepairFields repair
  return repair

def verifyRepair (repair : RepairEvidence) : Except VerificationError Unit := do
  validateRepairFields repair
  let manifest := VerificationError.evidence "candidate repair manifest does not recompute"
  refuseIf (validSha256Tag repair.manifestHash = false) manifest
  let hash ← sha256File disk repair.manifestPath
  refuseIf (hash ≠ repair.manifestHash) manifest
  let parsed ← parseRepair disk repair.manifestPath
  refuseIf (parsed ≠ repair) (.evidence "candidate repair differs from its durable manifest")

def loadRepair (root : Path) (planId : String) (afterAttempt : UInt32) :
    Except VerificationError (Option RepairEvidence) := do
  validatePlanId planId
  refuseIf (afterAttempt = 0) (.evidence "repair attempt number is invalid")
  let path := verificationAttemptDir root planId afterAttempt ++ ["repair", "repair.json"]
  if disk.exists_ path = false then return none
  else
    let repair ← parseRepair disk path
    verifyRepair disk repair
    return some repair

structure Chain where
  attempts : List VerificationAttempt
  repairs : List RepairEvidence
  history : String

def missing (what : String) (ordinal : UInt32) : VerificationError :=
  .evidence ("candidate " ++ what ++ " " ++ ordinal.toNat.repr ++ " is missing")

def checkAttempt (planId : String) (ordinal finalAttempt : UInt32)
    (priorRepair : Option RepairEvidence) (attempt : VerificationAttempt) :
    Except VerificationError Unit := do
  refuseIf (attempt.planId ≠ planId ∨ attempt.attempt ≠ ordinal)
    (.evidence ("candidate verification attempt " ++ ordinal.toNat.repr ++
      " has the wrong identity"))
  refuseIf (ordinal < finalAttempt ∧ attempt.passed = true)
    (.evidence ("candidate verification attempt " ++ ordinal.toNat.repr ++
      " passed before the claimed final attempt"))
  refuseIf (ordinal = finalAttempt ∧ attempt.passed = false)
    (.evidence "candidate verification chain does not end in a pass")
  refuseIf (priorRepair.any fun repair => repair.repairedBundleHash != attempt.bundleHash)
    (.evidence ("repair after attempt " ++ (ordinal - 1).toNat.repr ++ " does not bind attempt " ++
      ordinal.toNat.repr))

def attemptLine (ordinal : UInt32) (attempt : VerificationAttempt) : String :=
  "attempt:" ++ ordinal.toNat.repr ++ ":" ++ attempt.bundleHash ++ ":" ++ attempt.manifestHash ++
    "\n"

def repairLine (ordinal : UInt32) (repair : RepairEvidence) : String :=
  "repair:" ++ ordinal.toNat.repr ++ ":" ++ repair.sourceBundleHash ++ ":" ++
    repair.repairedBundleHash ++ ":" ++ repair.manifestHash ++ "\n"

def loadChainFrom (root : Path) (planId : String) (finalAttempt : UInt32) :
    ℕ → UInt32 → Option RepairEvidence → Chain → Except VerificationError Chain
  | 0, _, _, chain => .ok chain
  | remaining + 1, ordinal, priorRepair, chain => do
    let loaded ← loadAttempt debug disk root planId ordinal
    let attempt ← okOr (missing "verification attempt" ordinal) loaded
    checkAttempt planId ordinal finalAttempt priorRepair attempt
    let chain := { chain with
      attempts := chain.attempts ++ [attempt]
      history := chain.history ++ attemptLine ordinal attempt }
    if ordinal < finalAttempt then
      let stored ← loadRepair disk root planId ordinal
      let repair ← okOr (missing "repair after attempt" ordinal) stored
      refuseIf (repair.sourceBundleHash ≠ attempt.bundleHash ∨ repair.afterAttempt ≠ ordinal ∨
          repair.planId ≠ planId)
        (.evidence ("candidate repair after attempt " ++ ordinal.toNat.repr ++
          " is not bound to its failure"))
      loadChainFrom root planId finalAttempt remaining (ordinal + 1) (some repair)
        { chain with
          repairs := chain.repairs ++ [repair]
          history := chain.history ++ repairLine ordinal repair }
    else loadChainFrom root planId finalAttempt remaining (ordinal + 1) none chain

def loadChain (root : Path) (planId : String) (finalAttempt : UInt32) :
    Except VerificationError Chain := do
  validatePlanId planId
  refuseIf (finalAttempt = 0 ∨ maxVerificationAttempts < finalAttempt.toNat)
    (.evidence "candidate verification chain length is invalid")
  let chain ← loadChainFrom debug disk root planId finalAttempt finalAttempt.toNat 1 none
    ⟨[], [], "schema:" ++ verificationSchemaVersion.toNat.repr ++ "\nplan:" ++ planId ++ "\n"⟩
  let trailing ← loadRepair disk root planId finalAttempt
  refuseIf (trailing.isSome = true) (.evidence "passing candidate has a trailing repair")
  let later ← if finalAttempt.toNat < maxVerificationAttempts then
      loadAttempt debug disk root planId (finalAttempt + 1)
    else .ok none
  refuseIf (later.isSome = true)
    (.evidence "candidate verification has an attempt after its claimed final pass")
  return chain

def finalFields : List String :=
  ["schema_version", "plan_id", "passed", "attempts", "repairs", "bundle_hash", "history_hash",
    "candidate_dir", "attempt_manifest", "attempt_manifest_hash"]

def evidenceRoot (path : Path) (expectedPlanId : String) : Except VerificationError Path := do
  let verificationDir := path.dropLast
  refuseIf (verificationDir.getLast? ≠ some "candidate-verification")
    (.evidence "candidate final manifest is outside its verification directory")
  let planDir := verificationDir.dropLast
  refuseIf (planDir.getLast? ≠ some expectedPlanId)
    (.evidence "candidate verification directory does not match its plan")
  return planDir.dropLast

def verifyCandidateEvidence (manifestPath manifestHash expectedPlanId expectedBundleHash : String) :
    Except VerificationError VerifiedCandidate := do
  validatePlanId expectedPlanId
  refuseIf (validSha256Tag manifestHash = false ∨ validSha256Tag expectedBundleHash = false)
    (.evidence "candidate verification hashes are invalid")
  let path ← ioError (disk.canonicalize manifestPath)
  let recompute := VerificationError.evidence "candidate final manifest does not recompute"
  refuseIf (path.getLast? ≠ some "verification-final.json") recompute
  let hash ← sha256File disk path
  refuseIf (hash ≠ manifestHash) recompute
  let text ← readText disk path
  let value ← parseExactObject text finalFields "final manifest"
  let claim := VerificationError.evidence
    "candidate final manifest does not match the provider claim"
  let schema ← number value "schema_version"
  refuseIf (schema ≠ verificationSchemaVersion.toUInt64) claim
  let planId ← string value "plan_id"
  refuseIf (planId ≠ expectedPlanId) claim
  refuseIf (((value.get "passed").any fun passed => passed matches .bool true) = false) claim
  let bundle ← string value "bundle_hash"
  refuseIf (bundle ≠ expectedBundleHash) claim
  let attemptNumber ← number value "attempts"
  let attempts ← tryU32 "candidate attempt count is invalid" attemptNumber
  refuseIf (attempts = 0 ∨ maxVerificationAttempts < attempts.toNat)
    (.evidence "candidate attempt count is invalid")
  let repairNumber ← number value "repairs"
  let repairs ← tryU32 "candidate repair count is invalid" repairNumber
  refuseIf (repairs ≠ attempts - 1)
    (.evidence "candidate repair count does not close the attempt chain")
  let claimedHistory ← string value "history_hash"
  refuseIf (validSha256Tag claimedHistory = false) (.evidence "candidate history hash is invalid")
  let root ← evidenceRoot path expectedPlanId
  let chain ← loadChain debug disk root expectedPlanId attempts
  refuseIf (chain.repairs.length ≠ repairs.toNat ∨
      sha256Tagged (asBytes chain.history) ≠ claimedHistory)
    (.evidence "candidate verification history does not recompute")
  let attempt ← okOr (.evidence "candidate verification chain is empty") chain.attempts.getLast?
  let attemptText ← string value "attempt_manifest"
  let attemptPath ← ioError (disk.canonicalize attemptText)
  let attemptHash ← string value "attempt_manifest_hash"
  let manifest := VerificationError.evidence "candidate attempt manifest does not recompute"
  refuseIf (validSha256Tag attemptHash = false) manifest
  let recomputed ← sha256File disk attemptPath
  refuseIf (recomputed ≠ attemptHash ∨ attemptPath ≠ attempt.manifestPath ∨
    attemptHash ≠ attempt.manifestHash) manifest
  let dirText ← string value "candidate_dir"
  let candidateDir ← ioError (disk.canonicalize dirText)
  refuseIf (attempt.passed = false ∨ attempt.attempt ≠ attempts ∨ attempt.planId ≠ expectedPlanId ∨
      attempt.bundleHash ≠ expectedBundleHash ∨
      componentsOf attempt.candidateDir ≠ some candidateDir)
    (.evidence "candidate attempt does not match final evidence")
  return ⟨expectedPlanId, attempts, repairs, expectedBundleHash, candidateDir⟩

end Reading

end AtomVibe.Verification
