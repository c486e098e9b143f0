import AtomVibe.Foundations.Checked
import AtomVibe.Hash

namespace AtomVibe.Work

open Checked Text Hash

def workSchemaVersion : UInt32 := 3

def maxIntentBytes : ℕ := 16 * 1024

def maxFilesPerPlan : ℕ := 32

def maxPacketOutputBytes : ℕ := 64 * 1024

def maxFileOutputBytes : ℕ := 12 * 1024

inductive WorkStage
  | intent
  | functionalRequirements
  | qualityRequirements
  | architecture
  | fileManifest
  | fileContract
  | fileImplementation
  | fileReview
  | fileCorrection
  | integrationGroup
  | integration
  | integrationCorrection
  | closureGroup
  | integrationClosure
  | verification
  | adversarialReview
  | finalCorrection
  | releaseGroup
  | releaseVerification
  | finalization
  deriving DecidableEq

namespace WorkStage

def asStr : WorkStage → String
  | .intent => "intent"
  | .functionalRequirements => "functional-requirements"
  | .qualityRequirements => "quality-requirements"
  | .architecture => "architecture"
  | .fileManifest => "file-manifest"
  | .fileContract => "file-contract"
  | .fileImplementation => "file-implementation"
  | .fileReview => "file-review"
  | .fileCorrection => "file-correction"
  | .integrationGroup => "integration-group"
  | .integration => "integration"
  | .integrationCorrection => "integration-correction"
  | .closureGroup => "closure-group"
  | .integrationClosure => "integration-closure"
  | .verification => "verification"
  | .adversarialReview => "adversarial-review"
  | .finalCorrection => "final-correction"
  | .releaseGroup => "release-group"
  | .releaseVerification => "release-verification"
  | .finalization => "finalization"

def all : List WorkStage :=
  [.intent, .functionalRequirements, .qualityRequirements, .architecture, .fileManifest,
    .fileContract, .fileImplementation, .fileReview, .fileCorrection, .integrationGroup,
    .integration, .integrationCorrection, .closureGroup, .integrationClosure, .verification,
    .adversarialReview, .finalCorrection, .releaseGroup, .releaseVerification, .finalization]

def parse (value : String) : Option WorkStage := all.find? fun stage => stage.asStr == value

theorem parse_asStr (stage : WorkStage) : parse stage.asStr = some stage := by
  cases stage <;> decide

end WorkStage

inductive PacketContract
  | envelope
  | fileManifest
  | fileArtifact
  deriving DecidableEq

namespace PacketContract

def asStr : PacketContract → String
  | .envelope => "envelope"
  | .fileManifest => "file-manifest"
  | .fileArtifact => "file-artifact"

def parse (value : String) : Option PacketContract :=
  [envelope, fileManifest, fileArtifact].find? fun contract => contract.asStr == value

theorem parse_asStr (contract : PacketContract) : parse contract.asStr = some contract := by
  cases contract <;> decide

end PacketContract

structure WorkFile where
  path : String
  purpose : String
  acceptance : List String
  deriving DecidableEq

structure WorkPacket where
  id : String
  ordinal : UInt64
  stage : WorkStage
  contract : PacketContract
  objective : String
  acceptance : List String
  dependencies : List String
  file : Option WorkFile
  maxOutputBytes : ℕ
  deriving DecidableEq

structure WorkPlan where
  schemaVersion : UInt32
  id : String
  intent : String
  recipeId : String
  atomStack : List String
  fingerprint : String
  packets : List WorkPacket
  expanded : Bool
  deriving DecidableEq

structure PacketSpec where
  stage : WorkStage
  contract : PacketContract
  objective : String
  acceptance : List String
  dependencies : List String
  file : Option WorkFile
  maxOutputBytes : ℕ

inductive WorkError
  | emptyIntent
  | intentTooLarge
  | invalidPlan (reason : String)
  | invalidManifest (reason : String)
  | invalidOutput (reason : String)
  | missingDependency (id : String)
  | outputTooLarge (packetId : String) (limit : ℕ)
  | io (reason : String)
  deriving DecidableEq

def WorkPacket.filePath (packet : WorkPacket) : String := (packet.file.map (·.path)).getD ""

def packetId (planId : String) (ordinal : ℕ) (stage : WorkStage) (file : Option WorkFile) :
    String :=
  let fileKey := (file.map (·.path)).getD ""
  let digest := sha256Hex
    (asBytes (planId ++ "\x00" ++ ordinal.repr ++ "\x00" ++ stage.asStr ++ "\x00" ++ fileKey))
  padded 3 (ordinal + 1) ++ "-" ++ stage.asStr ++ "-" ++ String.ofList (digest.toList.take 10)

def encodeSequence (values : List String) : String :=
  values.foldl (fun encoded value => encoded ++ value.utf8ByteSize.repr ++ ":" ++ value) ""

def planSeed (intentHash recipeId : String) (atomStack : List String) (fingerprintHash : String) :
    String :=
  "work-v" ++ workSchemaVersion.toNat.repr ++ "\x00" ++ intentHash ++ "\x00" ++ recipeId ++
    "\x00" ++ encodeSequence atomStack ++ "\x00" ++ fingerprintHash

def planId (seed : String) : String :=
  "work-" ++ String.ofList ((sha256Hex (asBytes seed)).toList.take 24)

def baseDefinitions : List (WorkStage × String × List String) :=
  [(.intent,
      "Normalize the operator request without adding features or implementation assumptions.",
      ["Preserve every explicit operator requirement.", "Separate ambiguity from fact."]),
    (.functionalRequirements,
      "Derive individually testable functional requirements from the normalized request.",
      ["Each requirement is observable.", "No implementation details are invented."]),
    (.qualityRequirements,
      "Define production quality, security, accessibility, failure, and evidence gates.",
      ["Unsupported paths fail closed.", "Every quality claim names verification evidence."]),
    (.architecture,
      "Design the smallest complete architecture that satisfies the functional and quality contracts.",
      ["Ownership boundaries are explicit.", "Data flow and failure propagation are explicit."]),
    (.fileManifest,
      "Choose focused files for the implementation and define acceptance criteria for each file.",
      ["Every required behavior has an owning file.",
        "No file path is absolute or traverses upward."])]

def basePacket (planId : String) (previous : Option WorkPacket)
    (entry : (WorkStage × String × List String) × ℕ) : WorkPacket :=
  let ((stage, objective, acceptance), ordinal) := entry
  { id := packetId planId ordinal stage none
    ordinal := .ofNat ordinal
    stage
    contract := if stage = .fileManifest then .fileManifest else .envelope
    objective
    acceptance
    dependencies := (previous.map fun packet => [packet.id]).getD []
    file := none
    maxOutputBytes := if stage = .fileManifest then 32 * 1024 else 8 * 1024 }

def pushBasePacket (planId : String) (packets : List WorkPacket)
    (entry : (WorkStage × String × List String) × ℕ) : List WorkPacket :=
  packets ++ [basePacket planId packets.getLast? entry]

def basePackets (planId : String) : List WorkPacket :=
  baseDefinitions.zipIdx.foldl (pushBasePacket planId) []

def validatePackets : List String → ℕ → List WorkPacket → Except WorkError Unit
  | _, _, [] => .ok ()
  | ids, ordinal, packet :: packets => do
    refuseIf (packet.ordinal.toNat ≠ ordinal ∨ packet.id ∈ ids)
      (.invalidPlan "packet order or id is invalid")
    refuseIf (packet.maxOutputBytes = 0 ∨ maxPacketOutputBytes < packet.maxOutputBytes)
      (.invalidPlan ("packet " ++ packet.id ++ " output bound is invalid"))
    checkAll (fun dependency => refuseIf (dependency ∉ packet.id :: ids)
      (.invalidPlan ("packet " ++ packet.id ++ " has a forward or missing dependency " ++
        dependency))) packet.dependencies
    validatePackets (packet.id :: ids) (ordinal + 1) packets

def WorkPlan.validate (plan : WorkPlan) : Except WorkError Unit := do
  refuseIf (plan.schemaVersion ≠ workSchemaVersion ∨ isBlank plan.id = true)
    (.invalidPlan "schema or id is invalid")
  refuseIf (plan.packets = []) (.invalidPlan "plan has no packets")
  validatePackets [] 0 plan.packets

def basePlan (intent recipeId : String) (atomStack : List String) (fingerprint intentHash
    fingerprintHash : String) : WorkPlan :=
  let id := planId (planSeed intentHash recipeId atomStack fingerprintHash)
  { schemaVersion := workSchemaVersion
    id
    intent
    recipeId
    atomStack
    fingerprint
    packets := basePackets id
    expanded := false }

def fromIdentity (intent recipeId : String) (atomStack : List String) (fingerprint intentHash
    fingerprintHash : String) : Except WorkError WorkPlan := do
  let plan := basePlan intent recipeId atomStack fingerprint intentHash fingerprintHash
  plan.validate
  return plan

def meticulous (intent recipeId : String) (atomStack : List String) (fingerprint : String) :
    Except WorkError WorkPlan := do
  let intent := trim intent
  refuseIf (intent = "") .emptyIntent
  refuseIf (maxIntentBytes < intent.utf8ByteSize) .intentTooLarge
  let intentHash := sha256Tagged (asBytes intent)
  let fingerprintHash := sha256Tagged (asBytes fingerprint)
  fromIdentity intent recipeId atomStack fingerprint intentHash fingerprintHash

end AtomVibe.Work
