import AtomVibe.WorkExpanded
import AtomVibe.WorkStore

namespace AtomVibe.Work

open Checked Text Json JsonText JsonCodec Hash EvidenceDisk

structure VerifiedWorkPlan where
  planId : String
  packetCount : ℕ
  model : String
  packetIds : List String
  deriving DecidableEq

def manifestFields : List String :=
  ["schema_version", "plan_id", "intent_hash", "recipe_id", "atom_stack", "fingerprint_hash",
    "packet_count", "expanded", "packets"]

def descriptorFields : List String :=
  ["id", "ordinal", "stage", "contract", "file_path", "dependencies", "max_output_bytes"]

def evidenceFile (path : String) : Option WorkFile :=
  if path = "" then none
  else some ⟨path, "manifest evidence", ["manifest evidence"]⟩

def readDescriptor (value : JsonValue) : Except WorkError WorkPacket := do
  exactFields value descriptorFields
    (.invalidPlan "manifest packet descriptor is not an object")
    (.invalidPlan "manifest packet descriptor fields are invalid")
  let stageText ← string value "stage"
  let contractText ← string value "contract"
  let maxOutputBytes ← number value "max_output_bytes"
  let id ← string value "id"
  let ordinal ← number value "ordinal"
  let stage ← okOr (.invalidPlan ("unknown manifest stage " ++ stageText))
    (WorkStage.parse stageText)
  let contract ← okOr (.invalidPlan ("unknown manifest contract " ++ contractText))
    (PacketContract.parse contractText)
  let dependencies ← strings value "dependencies"
  let filePath ← string value "file_path"
  refuseIf (id = "" ∨ maxOutputBytes = 0 ∨ maxPacketOutputBytes < maxOutputBytes.toNat)
    (.invalidPlan "manifest packet descriptor bounds are invalid")
  return {
    id
    ordinal
    stage
    contract
    objective := ""
    acceptance := []
    dependencies
    file := evidenceFile filePath
    maxOutputBytes := maxOutputBytes.toNat }

structure ReadManifest where
  planDir : Path
  value : JsonValue
  descriptors : List WorkPacket

def isExpanded (manifest : JsonValue) : Bool :=
  match manifest.get "expanded" with
  | some (.bool true) => true
  | _ => false

def checkManifest (manifest : JsonValue) (expectedPlanId : String) (expectedPacketCount : ℕ) :
    Except WorkError Unit := do
  let mismatch : WorkError :=
    .invalidPlan "expanded work manifest does not match claimed plan evidence"
  exactFields manifest manifestFields (.invalidPlan "work manifest is not an object") mismatch
  let schemaVersion ← number manifest "schema_version"
  refuseIf (schemaVersion ≠ 3) mismatch
  let planId ← string manifest "plan_id"
  refuseIf (planId ≠ expectedPlanId) mismatch
  let packetCount ← number manifest "packet_count"
  refuseIf (packetCount.toNat ≠ expectedPacketCount ∨ isExpanded manifest = false) mismatch

def readManifest (disk : Disk) (manifestPath expectedPlanId : String)
    (expectedPacketCount : ℕ) : Except WorkError ReadManifest := do
  validateId expectedPlanId
  refuseIf (expectedPacketCount = 0) (.invalidPlan "expected packet count must be positive")
  let manifestPath ← ioError (disk.canonicalize manifestPath)
  refuseIf (manifestPath.getLast? ≠ some "plan-expanded.json")
    (.invalidPlan "work evidence must reference plan-expanded.json")
  let planDir ← ioError (disk.canonicalize (pathText manifestPath.dropLast))
  let manifestText ← ioError (disk.readToString manifestPath)
  let manifest ← (parse manifestText).mapError fun error =>
    .invalidPlan ("work manifest JSON: " ++ error.display)
  checkManifest manifest expectedPlanId expectedPacketCount
  let packetValues ← okOr (.invalidPlan "manifest packets must be an array")
    ((manifest.get "packets").bind JsonValue.asArray)
  refuseIf (packetValues.length ≠ expectedPacketCount)
    (.invalidPlan "manifest packet descriptor count does not match")
  let descriptors ← packetValues.mapM readDescriptor
  return { planDir, value := manifest, descriptors }

def isRecordName (name : String) : Bool :=
  ChainFiles.hasJsonExtension name && !startsWith "plan-" name

def readRecords (disk : Disk) (planDir : Path) (expectedPacketCount : ℕ) :
    Except WorkError (List StoredPacket) := do
  let names ← ioError (disk.readDir planDir)
  let records ← (names.filter isRecordName).mapM fun name => do
    StoredPacket.fromJson (← ioError (disk.readToString (planDir ++ [name])))
  refuseIf (records.length ≠ expectedPacketCount)
    (.invalidPlan ("work packet evidence count mismatch: expected " ++
      expectedPacketCount.repr ++ ", got " ++ records.length.repr))
  return records.mergeSort fun left right => left.ordinal ≤ right.ordinal

def recordsModel (records : List StoredPacket) : Except WorkError String :=
  okOr (.invalidPlan "work packet model is empty")
    ((records.head?.map (·.model)).filter fun value => !isBlank value)

def recordOutput (disk : Disk) (planDir : Path) (record : StoredPacket) :
    Except WorkError String := do
  let mismatch : WorkError :=
    .invalidPlan ("packet " ++ record.packetId ++ " output evidence does not recompute")
  let outputPath ← ioError (disk.canonicalize record.outputPath)
  let output ← ioError (disk.readToString outputPath)
  refuseIf (isUnder planDir outputPath = false) mismatch
  let bytes ← ioError (disk.read outputPath)
  refuseIf (bytes.size ≠ record.outputLen ∨ sha256Tagged bytes.data.toList ≠ record.outputHash)
    mismatch
  return output

def RecordMatches (planId model : String) (ordinal : ℕ) (ids : List String)
    (descriptor : WorkPacket) (record : StoredPacket) : Prop :=
  record.schemaVersion = workSchemaVersion ∧ record.planId = planId ∧
    record.ordinal.toNat = ordinal ∧ descriptor.ordinal.toNat = ordinal ∧
    record.packetId = descriptor.id ∧ record.stage = descriptor.stage.asStr ∧
    record.contract = descriptor.contract.asStr ∧ record.model = model ∧ record.packetId ∉ ids ∧
    validSha256Tag record.outputHash = true ∧ record.outputLen ≠ 0

instance (planId model : String) (ordinal : ℕ) (ids : List String) (descriptor : WorkPacket)
    (record : StoredPacket) : Decidable (RecordMatches planId model ordinal ids descriptor record) :=
  inferInstanceAs (Decidable (_ ∧ _))

section Records

variable (rust : RustText) (disk : Disk) (planDir : Path) (planId model : String)

def manifestFilesAfter (descriptor : WorkPacket) (validated : ValidatedPacketOutput)
    (files : List WorkFile) : Except WorkError (List WorkFile) :=
  if descriptor.contract = .fileManifest then do
    validateFiles validated.files
    return validated.files
  else return files

def checkRecords (descriptors : List WorkPacket) : ℕ → List String → List WorkFile →
    List StoredPacket → Except WorkError (List String × List WorkFile)
  | _, ids, files, [] => return (ids, files)
  | ordinal, ids, files, record :: records => do
    let descriptor ← okOr
      (.invalidPlan ("missing descriptor for packet ordinal " ++ ordinal.repr))
      descriptors[ordinal]?
    refuseIf (¬RecordMatches planId model ordinal ids descriptor record)
      (.invalidPlan ("packet evidence at ordinal " ++ ordinal.repr ++
        " does not match the expanded plan"))
    let output ← recordOutput disk planDir record
    let validated ← validatePacketOutput rust descriptor output
    let files ← manifestFilesAfter descriptor validated files
    checkRecords descriptors (ordinal + 1) (ids ++ [record.packetId]) files records

end Records

structure WorkEvidence where
  manifest : ReadManifest
  records : List StoredPacket
  model : String
  packetIds : List String
  files : List WorkFile

def readEvidence (rust : RustText) (disk : Disk) (manifestPath expectedPlanId : String)
    (expectedPacketCount : ℕ) : Except WorkError WorkEvidence := do
  let manifest ← readManifest disk manifestPath expectedPlanId expectedPacketCount
  let records ← readRecords disk manifest.planDir expectedPacketCount
  let model ← recordsModel records
  let (packetIds, files) ← checkRecords rust disk manifest.planDir expectedPlanId model
    manifest.descriptors 0 [] [] records
  return { manifest, records, model, packetIds, files }

structure PlanIdentity where
  intentHash : String
  fingerprintHash : String
  atomStack : List String
  recipeId : String

def PlanIdentity.planId (identity : PlanIdentity) : String :=
  Work.planId (planSeed identity.intentHash identity.recipeId identity.atomStack
    identity.fingerprintHash)

def readIdentity (manifest : JsonValue) : Except WorkError PlanIdentity := do
  let intentHash ← string manifest "intent_hash"
  let fingerprintHash ← string manifest "fingerprint_hash"
  refuseIf (validSha256Tag intentHash = false ∨ validSha256Tag fingerprintHash = false)
    (.invalidPlan "work manifest identity hashes are invalid")
  let atomStack ← strings manifest "atom_stack"
  let recipeId ← string manifest "recipe_id"
  return { intentHash, fingerprintHash, atomStack, recipeId }

def PlanIdentity.canonical (identity : PlanIdentity) (files : List WorkFile) :
    Option (Except WorkError WorkPlan) :=
  canonicalFromManifest identity.intentHash identity.recipeId identity.atomStack
    identity.fingerprintHash files

def SameDescriptor (actual expected : WorkPacket) : Prop :=
  actual.id = expected.id ∧ actual.ordinal = expected.ordinal ∧ actual.stage = expected.stage ∧
    actual.contract = expected.contract ∧ actual.dependencies = expected.dependencies ∧
    actual.maxOutputBytes = expected.maxOutputBytes ∧
    actual.file.map (·.path) = expected.file.map (·.path)

instance (actual expected : WorkPacket) : Decidable (SameDescriptor actual expected) :=
  inferInstanceAs (Decidable (_ ∧ _))

def compareCanonical (expectedPlanId : String) (descriptors : List WorkPacket)
    (canonical : WorkPlan) : Except WorkError Unit := do
  refuseIf (canonical.id ≠ expectedPlanId ∨ canonical.packets.length ≠ descriptors.length)
    (.invalidPlan "work manifest identity or packet count is not canonical")
  checkAll (fun (actual, expected) => refuseIf (¬SameDescriptor actual expected)
    (.invalidPlan ("work packet " ++ actual.id ++ " does not match the canonical packet DAG")))
    (descriptors.zip canonical.packets)

/-- `none` where the source does not return within `fuel` turns of the loop in its schedule
check, or panics. -/
def verifyWorkPlanEvidence (rust : RustText) (fuel : ℕ) (disk : Disk)
    (manifestPath expectedPlanId : String) (expectedPacketCount : ℕ) :
    Option (Except WorkError VerifiedWorkPlan) :=
  match readEvidence rust disk manifestPath expectedPlanId expectedPacketCount with
  | .error error => some (.error error)
  | .ok evidence =>
    match validatePacketSchedule fuel evidence.manifest.descriptors evidence.files with
    | none => none
    | some (.error error) => some (.error error)
    | some (.ok ()) =>
      match readIdentity evidence.manifest.value with
      | .error error => some (.error error)
      | .ok identity =>
        match identity.canonical evidence.files with
        | none => none
        | some (.error error) => some (.error error)
        | some (.ok canonical) =>
          some ((compareCanonical expectedPlanId evidence.manifest.descriptors canonical).map
            fun _ => {
              planId := expectedPlanId
              packetCount := expectedPacketCount
              model := evidence.model
              packetIds := evidence.packetIds })

end AtomVibe.Work

namespace AtomVibe.Work

open Checked Text Json JsonText JsonRoundTrip JsonCodec Hash

section Fields

variable {root : JsonValue} (key : String)

theorem string_clean (s : String) (h : root.get key = some (.string s)) :
    string (clean root) key = .ok (sanitize s) := by
  rw [string, get_clean h, clean]
  rfl

theorem number_clean (n : UInt64) (h : root.get key = some (numberDoc n.toNat)) :
    number (clean root) key = .ok n := by
  rw [number, get_clean h, clean_numberDoc, Option.bind_some, asU64_numberDoc, okOr_some]

theorem number_clean_nat {n : ℕ} (hn : n < 2 ^ 64) (h : root.get key = some (numberDoc n)) :
    number (clean root) key = .ok (.ofNat n) := by
  apply number_clean
  rw [h, UInt64.toNat_ofNat_of_lt' hn]

theorem strings_clean (l : List String) (h : root.get key = some (stringArrayDoc l)) :
    strings (clean root) key = .ok (l.map sanitize) := by
  simp only [strings, get_clean h, stringArrayDoc, clean, Option.bind_some, JsonValue.asArray,
    okOr_some, List.map_map, ok_bind]
  exact mapM_ok l fun value _ => by simp [clean, JsonValue.asStr]

theorem exactFields_clean {fields : List (String × JsonValue)} {expected : List String}
    (h : fields.map Prod.fst = expected) (notObject mismatch : WorkError) :
    exactFields (clean (.object fields)) expected notObject mismatch = .ok () := by
  rw [exactFields, clean]
  apply refuseIf_eq_ok.mpr
  rw [Bool.not_eq_false]
  subst h
  simp only [sameFields, Bool.and_eq_true, List.all_eq_true, List.mem_map, decide_eq_true_eq]
  constructor
  · rintro _ ⟨field, hfield, rfl⟩
    exact ⟨field, hfield, rfl⟩
  · rintro _ ⟨field, hfield, rfl⟩
    exact ⟨_, ⟨field, hfield, rfl⟩, rfl⟩

end Fields

def StoredPacket.sanitized (record : StoredPacket) : StoredPacket :=
  { record with
    planId := sanitize record.planId
    packetId := sanitize record.packetId
    stage := sanitize record.stage
    contract := sanitize record.contract
    model := sanitize record.model
    outputPath := sanitize record.outputPath
    outputHash := sanitize record.outputHash }

theorem fits_recordDoc (record : StoredPacket) : Fits (maxDepth + 1) record.doc := by
  apply fits_object ⟨by simp, by simp only [List.map]; decide⟩
  simp only [List.forall_mem_cons, List.not_mem_nil, false_imp_iff, implies_true, and_true]
  exact ⟨fits_numberDoc _ _, trivial, trivial, fits_numberDoc _ _, trivial, trivial, trivial,
    trivial, trivial, fits_numberDoc _ _⟩

theorem fromJson_toJson {record : StoredPacket} (h : record.outputLen < 2 ^ 64) :
    StoredPacket.fromJson record.toJson = .ok record.sanitized := by
  have hschema : record.schemaVersion.toNat < 2 ^ 64 :=
    lt_trans record.schemaVersion.toNat_lt (by decide)
  have hs : ∀ key value, record.doc.get key = some (.string value) →
      string (clean record.doc) key = .ok (sanitize value) := fun _ _ => string_clean _ _
  have hexact : ∀ notObject mismatch,
      exactFields (clean record.doc) StoredPacket.fields notObject mismatch = .ok () :=
    fun _ _ => exactFields_clean rfl _ _
  rw [StoredPacket.fromJson, StoredPacket.toJson, parse_render (fits_recordDoc record)]
  simp only [Except.mapError, ok_bind, StoredPacket.ofValue]
  rw [hexact, ok_bind, number_clean_nat _ hschema rfl, hs "plan_id" _ rfl,
    hs "packet_id" _ rfl, number_clean _ record.ordinal rfl, hs "stage" _ rfl,
    hs "contract" _ rfl, hs "model" _ rfl, hs "output_path" _ rfl, hs "output_hash" _ rfl,
    number_clean_nat _ h rfl]
  have hversion : (UInt64.ofNat record.schemaVersion.toNat).toUInt32 = record.schemaVersion := by
    simp
  have hlength : (UInt64.ofNat record.outputLen).toNat = record.outputLen :=
    UInt64.toNat_ofNat_of_lt' h
  simp [ok_bind, StoredPacket.sanitized, pure, Except.pure, hlength]

def WorkPacket.descriptor (packet : WorkPacket) : WorkPacket :=
  { packet with
    id := sanitize packet.id
    objective := ""
    acceptance := []
    dependencies := packet.dependencies.map sanitize
    file := evidenceFile (sanitize packet.filePath) }

theorem sanitize_eq_empty_iff {s : String} : sanitize s = "" ↔ s = "" := by
  rw [← String.toList_inj, ← @String.toList_inj s, sanitize, String.toList_ofList]
  simp

theorem fits_descriptorDoc (packet : WorkPacket) : Fits (maxDepth - 1) (descriptorDoc packet) := by
  apply fits_object ⟨by simp, by simp only [List.map]; decide⟩
  simp only [List.forall_mem_cons, List.not_mem_nil, false_imp_iff, implies_true, and_true]
  exact ⟨trivial, fits_numberDoc _ _, trivial, trivial, trivial, fits_stringArrayDoc _ _,
    fits_numberDoc _ _⟩

theorem readDescriptor_clean {packet : WorkPacket} (hid : packet.id ≠ "")
    (hbound : 0 < packet.maxOutputBytes ∧ packet.maxOutputBytes ≤ maxPacketOutputBytes) :
    readDescriptor (clean (descriptorDoc packet)) = .ok packet.descriptor := by
  have hexact : ∀ notObject mismatch,
      exactFields (clean (descriptorDoc packet)) descriptorFields notObject mismatch = .ok () :=
    fun _ _ => exactFields_clean rfl _ _
  have hs : ∀ key value, (descriptorDoc packet).get key = some (.string value) →
      string (clean (descriptorDoc packet)) key = .ok (sanitize value) := fun _ _ => string_clean _ _
  have hmax : packet.maxOutputBytes < 2 ^ 64 :=
    lt_of_le_of_lt hbound.2 (by decide)
  have hmaxNat : (UInt64.ofNat packet.maxOutputBytes).toNat = packet.maxOutputBytes :=
    UInt64.toNat_ofNat_of_lt' hmax
  have hzero : UInt64.ofNat packet.maxOutputBytes ≠ 0 := by
    intro h
    rw [← UInt64.toNat_inj, hmaxNat] at h
    exact hbound.1.ne' h
  have hstage : sanitize packet.stage.asStr = packet.stage.asStr := by
    cases packet.stage <;> decide
  have hcontract : sanitize packet.contract.asStr = packet.contract.asStr := by
    cases packet.contract <;> decide
  simp only [readDescriptor, hexact, ok_bind]
  rw [hs "stage" _ rfl, ok_bind, hs "contract" _ rfl, ok_bind,
    number_clean_nat "max_output_bytes" hmax rfl, ok_bind, hs "id" _ rfl, ok_bind,
    number_clean "ordinal" packet.ordinal rfl, ok_bind, hstage, hcontract,
    WorkStage.parse_asStr, PacketContract.parse_asStr, okOr_some, ok_bind, okOr_some, ok_bind,
    strings_clean "dependencies" packet.dependencies rfl, ok_bind,
    hs "file_path" _ rfl, ok_bind, hmaxNat]
  have hbounds : ¬(sanitize packet.id = "" ∨ UInt64.ofNat packet.maxOutputBytes = 0 ∨
      maxPacketOutputBytes < packet.maxOutputBytes) := by
    rw [sanitize_eq_empty_iff]
    simp only [not_or, not_lt]
    exact ⟨hid, hzero, hbound.2⟩
  rw [refuseIf, if_neg hbounds]
  rfl

theorem fits_manifestDoc (plan : WorkPlan) : Fits (maxDepth + 1) (manifestDoc plan) := by
  apply fits_object ⟨by simp, by simp only [List.map]; decide⟩
  simp only [List.forall_mem_cons, List.not_mem_nil, false_imp_iff, implies_true, and_true]
  exact ⟨fits_numberDoc _ _, trivial, trivial, trivial, fits_stringArrayDoc _ _, trivial,
    fits_numberDoc _ _, trivial, fits_arrayDoc fits_descriptorDoc _⟩

theorem parse_manifestText (plan : WorkPlan) :
    parse (manifestText plan) = .ok (clean (manifestDoc plan)) :=
  parse_render (fits_manifestDoc plan)

theorem checkManifest_clean (plan : WorkPlan) (hexpanded : plan.expanded = true)
    (hlength : plan.packets.length < 2 ^ 64) :
    checkManifest (clean (manifestDoc plan)) (sanitize plan.id) plan.packets.length = .ok () := by
  have hexact : ∀ notObject mismatch,
      exactFields (clean (manifestDoc plan)) manifestFields notObject mismatch = .ok () :=
    fun _ _ => exactFields_clean rfl _ _
  have hpackets : (UInt64.ofNat plan.packets.length).toNat = plan.packets.length :=
    UInt64.toNat_ofNat_of_lt' hlength
  have hflag : isExpanded (clean (manifestDoc plan)) = true := by
    have hget : (manifestDoc plan).get "expanded" = some (.bool plan.expanded) := rfl
    rw [isExpanded, get_clean hget, clean, hexpanded]
  simp only [checkManifest, hexact, ok_bind]
  rw [number_clean_nat (n := workSchemaVersion.toNat) "schema_version" (by decide) rfl,
    ok_bind, string_clean "plan_id" plan.id rfl,
    number_clean_nat "packet_count" hlength rfl]
  simp [ok_bind, refuseIf, hpackets, hflag, workSchemaVersion]

theorem readIdentity_clean (plan : WorkPlan) : readIdentity (clean (manifestDoc plan)) = .ok
    { intentHash := sha256Tagged (asBytes plan.intent)
      fingerprintHash := sha256Tagged (asBytes plan.fingerprint)
      atomStack := plan.atomStack.map sanitize
      recipeId := sanitize plan.recipeId } := by
  have hhash : ∀ bytes, sanitize (sha256Tagged bytes) = sha256Tagged bytes :=
    fun bytes => (sanitize_eq_self_iff _).mpr (lossless_sha256Tagged bytes)
  simp only [readIdentity]
  rw [string_clean "intent_hash" (sha256Tagged (asBytes plan.intent)) rfl, ok_bind,
    string_clean "fingerprint_hash" (sha256Tagged (asBytes plan.fingerprint)) rfl,
    ok_bind, hhash, hhash, strings_clean "atom_stack" plan.atomStack rfl,
    string_clean "recipe_id" plan.recipeId rfl]
  simp [refuseIf, validSha256Tag_sha256Tagged, ok_bind, pure, Except.pure]

end AtomVibe.Work
