import AtomVibe.EvidenceDisk
import AtomVibe.WorkOutput
import AtomVibe.WorkSchedule

/-!
The durable side of a work plan: the packet records, the outputs they name and the plan's own
manifest. File operations succeed here; what can fail is what the code itself refuses.
-/

namespace AtomVibe.Work

open Checked Text Json JsonText JsonCodec Hash EvidenceDisk

def string (value : JsonValue) (key : String) : Except WorkError String :=
  okOr (.invalidPlan ("stored packet " ++ key ++ " is not a string"))
    ((value.get key).bind JsonValue.asStr)

def number (value : JsonValue) (key : String) : Except WorkError UInt64 :=
  okOr (.invalidPlan ("stored packet " ++ key ++ " is not an integer"))
    ((value.get key).bind JsonValue.asU64)

def strings (value : JsonValue) (key : String) : Except WorkError (List String) := do
  let values ← okOr (.invalidPlan ("stored packet " ++ key ++ " is not an array"))
    ((value.get key).bind JsonValue.asArray)
  values.mapM fun item =>
    okOr (.invalidPlan ("stored packet " ++ key ++ " entry is not a string")) item.asStr

def exactFields (value : JsonValue) (expected : List String) (notObject mismatch : WorkError) :
    Except WorkError Unit := do
  let object ← okOr notObject value.asObject
  refuseIf (sameFields object expected = false) mismatch

def ioError {α : Type} (x : Except String α) : Except WorkError α := x.mapError .io

structure StoredPacket where
  schemaVersion : UInt32
  planId : String
  packetId : String
  ordinal : UInt64
  stage : String
  contract : String
  model : String
  outputPath : String
  outputHash : String
  outputLen : ℕ
  deriving DecidableEq

namespace StoredPacket

def doc (record : StoredPacket) : JsonValue :=
  .object
    [("schema_version", numberDoc record.schemaVersion.toNat),
      ("plan_id", .string record.planId),
      ("packet_id", .string record.packetId),
      ("ordinal", numberDoc record.ordinal.toNat),
      ("stage", .string record.stage),
      ("contract", .string record.contract),
      ("model", .string record.model),
      ("output_path", .string record.outputPath),
      ("output_hash", .string record.outputHash),
      ("output_len", numberDoc record.outputLen)]

def toJson (record : StoredPacket) : String := render record.doc

def fields : List String :=
  ["schema_version", "plan_id", "packet_id", "ordinal", "stage", "contract", "model",
    "output_path", "output_hash", "output_len"]

def ofValue (value : JsonValue) : Except WorkError StoredPacket := do
  exactFields value fields (.invalidPlan "stored packet is not an object")
    (.invalidPlan "stored packet fields are not the exact schema")
  return {
    schemaVersion := (← number value "schema_version").toUInt32
    planId := ← string value "plan_id"
    packetId := ← string value "packet_id"
    ordinal := ← number value "ordinal"
    stage := ← string value "stage"
    contract := ← string value "contract"
    model := ← string value "model"
    outputPath := ← string value "output_path"
    outputHash := ← string value "output_hash"
    outputLen := (← number value "output_len").toNat }

def fromJson (input : String) : Except WorkError StoredPacket := do
  let value ← (parse input).mapError fun error =>
    .invalidPlan ("stored packet JSON: " ++ error.display)
  ofValue value

end StoredPacket

def descriptorDoc (packet : WorkPacket) : JsonValue :=
  .object
    [("id", .string packet.id),
      ("ordinal", numberDoc packet.ordinal.toNat),
      ("stage", .string packet.stage.asStr),
      ("contract", .string packet.contract.asStr),
      ("file_path", .string packet.filePath),
      ("dependencies", stringArrayDoc packet.dependencies),
      ("max_output_bytes", numberDoc packet.maxOutputBytes)]

def manifestDoc (plan : WorkPlan) : JsonValue :=
  .object
    [("schema_version", numberDoc workSchemaVersion.toNat),
      ("plan_id", .string plan.id),
      ("intent_hash", .string (sha256Tagged (asBytes plan.intent))),
      ("recipe_id", .string plan.recipeId),
      ("atom_stack", stringArrayDoc plan.atomStack),
      ("fingerprint_hash", .string (sha256Tagged (asBytes plan.fingerprint))),
      ("packet_count", numberDoc plan.packets.length),
      ("expanded", .bool plan.expanded),
      ("packets", arrayDoc descriptorDoc plan.packets)]

def manifestText (plan : WorkPlan) : String := render (manifestDoc plan)

structure CompletedPacket where
  packetId : String
  output : String
  deriving DecidableEq

structure WorkPlanStore where
  root : Path
  canonical : IsCanonical root

def writeImmutableVerified (files : Files) (path : Path) (bytes : ByteArray) :
    Except WorkError Unit × Files :=
  match files.lookup path with
  | some existing =>
    if existing = bytes then (.ok (), files)
    else (.error (.io ("immutable work evidence conflict at " ++ pathText path)), files)
  | none => (.ok (), files.insert path bytes)

def diskOf (files : Files) : Disk := ofFiles id files

def acceptOutput (rust : RustText) (plan : WorkPlan) (packet : WorkPacket) (output : String) :
    Except WorkError String := do
  plan.validate
  refuseIf (packet ∉ plan.packets)
    (.invalidPlan ("packet " ++ packet.id ++ " does not belong to plan " ++ plan.id))
  let validated ← validateSecurePacketOutput rust packet output
  return validated.context

def recordOf (plan : WorkPlan) (packet : WorkPacket) (model : String) (artifact : Path)
    (safeOutput : String) : StoredPacket :=
  { schemaVersion := workSchemaVersion
    planId := plan.id
    packetId := packet.id
    ordinal := packet.ordinal
    stage := packet.stage.asStr
    contract := packet.contract.asStr
    model
    outputPath := pathText artifact
    outputHash := sha256Tagged (asBytes safeOutput)
    outputLen := safeOutput.utf8ByteSize }

def manifestName (plan : WorkPlan) : String :=
  "plan-" ++ (if plan.expanded then "expanded" else "base") ++ ".json"

def metadataName (packet : WorkPacket) : String :=
  padded 3 (packet.ordinal.toNat + 1) ++ "-" ++ packet.stage.asStr ++ ".json"

def artifactName (safeOutput : String) : String := sha256Hex (asBytes safeOutput) ++ ".txt"

namespace WorkPlanStore

variable (store : WorkPlanStore)

def planDir (planId : String) : Except WorkError Path := do
  validateId planId
  return store.root ++ [planId]

def metadataPath (plan : WorkPlan) (packet : WorkPacket) : Except WorkError Path := do
  validateId plan.id
  validateId packet.id
  let dir ← store.planDir plan.id
  return dir ++ [metadataName packet]

def verifyRecord (files : Files) (plan : WorkPlan) (packet : WorkPacket) (record : StoredPacket)
    (model : String) : Except WorkError Unit := do
  refuseIf (record.schemaVersion ≠ workSchemaVersion ∨ record.planId ≠ plan.id ∨
      record.packetId ≠ packet.id ∨ record.ordinal ≠ packet.ordinal ∨
      record.stage ≠ packet.stage.asStr ∨ record.contract ≠ packet.contract.asStr ∨
      record.model ≠ model ∨ validSha256Tag record.outputHash = false ∨ record.outputLen = 0)
    (.invalidPlan ("stored packet " ++ packet.id ++ " metadata does not match its plan"))
  let dir ← store.planDir plan.id
  let planDir ← ioError ((diskOf files).canonicalize (pathText dir))
  let outputPath ← ioError ((diskOf files).canonicalize record.outputPath)
  refuseIf (isUnder planDir outputPath = false)
    (.invalidPlan ("stored packet " ++ packet.id ++ " artifact escapes its plan directory"))
  let bytes ← ioError ((diskOf files).read outputPath)
  refuseIf (bytes.size ≠ record.outputLen ∨ sha256Tagged bytes.data.toList ≠ record.outputHash)
    (.invalidPlan ("stored packet " ++ packet.id ++ " artifact evidence does not recompute"))

def writePlanManifest (plan : WorkPlan) (files : Files) : Except WorkError Path × Files :=
  match (do plan.validate; store.planDir plan.id) with
  | .error error => (.error error, files)
  | .ok dir =>
    let path := dir ++ [manifestName plan]
    let (result, files) := writeImmutableVerified files path (manifestText plan).toByteArray
    (result.map fun _ => path, files)

def storePacket (rust : RustText) (plan : WorkPlan) (packet : WorkPacket) (output model : String)
    (files : Files) : Except WorkError StoredPacket × Files :=
  match (do return (← acceptOutput rust plan packet output, ← store.planDir plan.id)) with
  | .error error => (.error error, files)
  | .ok (safeOutput, dir) =>
    let artifact := dir ++ ["outputs", artifactName safeOutput]
    match writeImmutableVerified files artifact safeOutput.toByteArray with
    | (.error error, files) => (.error error, files)
    | (.ok (), files) =>
      let record := recordOf plan packet model artifact safeOutput
      match store.metadataPath plan packet with
      | .error error => (.error error, files)
      | .ok metadata =>
        match writeImmutableVerified files metadata record.toJson.toByteArray with
        | (.error error, files) => (.error error, files)
        | (.ok (), files) =>
          ((store.verifyRecord files plan packet record model).map fun _ => record, files)

def loadPacket (plan : WorkPlan) (packet : WorkPacket) (model : String) (files : Files) :
    Except WorkError (Option CompletedPacket) := do
  let metadata ← store.metadataPath plan packet
  if (files.lookup metadata).isNone then return none
  let text ← ioError ((diskOf files).readToString metadata)
  let record ← StoredPacket.fromJson text
  store.verifyRecord files plan packet record model
  let outputPath ← ioError ((diskOf files).canonicalize record.outputPath)
  let output ← ioError ((diskOf files).readToString outputPath)
  return some { packetId := packet.id, output }

def loadFrom (plan : WorkPlan) (model : String) (files : Files) :
    List WorkPacket → Except WorkError (List CompletedPacket)
  | [] => return []
  | packet :: packets => do
    match ← store.loadPacket plan packet model files with
    | none => return []
    | some item => return item :: (← loadFrom plan model files packets)

def loadContiguous (plan : WorkPlan) (model : String) (files : Files) :
    Except WorkError (List CompletedPacket) :=
  store.loadFrom plan model files plan.packets

end WorkPlanStore

end AtomVibe.Work
