import AtomVibe.LedgerFields
import AtomVibe.Secrets

namespace AtomVibe.Proof

open Checked Text Json JsonText JsonRoundTrip JsonCodec LineLog LedgerFields Secrets Verification

structure ProofRecord where
  recipeId : String
  status : String
  atoms : List String
  evidenceCount : UInt64
  blockers : List String
  providerState : String
  providerModel : String
  providerEndpoint : String
  providerOutputArtifact : String
  providerOutputHash : String
  providerOutputLen : UInt64
  workPlanId : String
  workPlanManifest : String
  workPacketCount : UInt64
  candidateVerification : Option CandidateVerificationEvidence
  routeLen : UInt64
  deriving DecidableEq

def fieldNames : List String :=
  ["recipe_id", "status", "atoms", "evidence_count", "blockers", "provider_state",
    "provider_model", "provider_endpoint", "provider_output_artifact", "provider_output_hash",
    "provider_output_len", "work_plan_id", "work_plan_manifest", "work_packet_count",
    "candidate_verification", "route_len"]

namespace ProofRecord

def toDoc (record : ProofRecord) : JsonValue :=
  .object [("recipe_id", .string (redactSensitiveText record.recipeId)),
    ("status", .string (redactSensitiveText record.status)),
    ("atoms", stringArrayDoc (record.atoms.map redactSensitiveText)),
    ("evidence_count", numberDoc record.evidenceCount.toNat),
    ("blockers", stringArrayDoc (record.blockers.map redactSensitiveText)),
    ("provider_state", .string (redactSensitiveText record.providerState)),
    ("provider_model", .string (redactSensitiveText record.providerModel)),
    ("provider_endpoint", .string (redactSensitiveText record.providerEndpoint)),
    ("provider_output_artifact", .string (redactSensitiveText record.providerOutputArtifact)),
    ("provider_output_hash", .string (redactSensitiveText record.providerOutputHash)),
    ("provider_output_len", numberDoc record.providerOutputLen.toNat),
    ("work_plan_id", .string (redactSensitiveText record.workPlanId)),
    ("work_plan_manifest", .string (redactSensitiveText record.workPlanManifest)),
    ("work_packet_count", numberDoc record.workPacketCount.toNat),
    ("candidate_verification",
      nullableDoc (candidateDoc redactSensitiveText) record.candidateVerification),
    ("route_len", numberDoc record.routeLen.toNat)]

def toJson (record : ProofRecord) : String := render record.toDoc

def fromDoc (root : JsonValue) : Option ProofRecord := do
  let recipeId ← jsonString root "recipe_id"
  let status ← jsonString root "status"
  let atoms ← jsonStringArray root "atoms"
  let evidenceCount ← jsonU64 root "evidence_count"
  let blockers ← jsonStringArray root "blockers"
  let providerState ← jsonString root "provider_state"
  let candidateVerification ← match root.get "candidate_verification" with
    | none => some none
    | some value => jsonCandidate value
  let routeLen ← jsonU64 root "route_len"
  return ⟨recipeId, status, atoms, evidenceCount, blockers, providerState,
    (jsonString root "provider_model").getD "", (jsonString root "provider_endpoint").getD "",
    (jsonString root "provider_output_artifact").getD "",
    (jsonString root "provider_output_hash").getD "",
    (jsonU64 root "provider_output_len").getD 0, (jsonString root "work_plan_id").getD "",
    (jsonString root "work_plan_manifest").getD "", (jsonU64 root "work_packet_count").getD 0,
    candidateVerification, routeLen⟩

def fromJson (line : String) : Option ProofRecord := do
  let root ← (parse line).toOption
  let object ← root.asObject
  if onlyFields object fieldNames = false then none else fromDoc root

def storedText (value : String) : String := sanitize (redactSensitiveText value)

def stored (record : ProofRecord) : ProofRecord where
  recipeId := storedText record.recipeId
  status := storedText record.status
  atoms := record.atoms.map storedText
  evidenceCount := record.evidenceCount
  blockers := record.blockers.map storedText
  providerState := storedText record.providerState
  providerModel := storedText record.providerModel
  providerEndpoint := storedText record.providerEndpoint
  providerOutputArtifact := storedText record.providerOutputArtifact
  providerOutputHash := storedText record.providerOutputHash
  providerOutputLen := record.providerOutputLen
  workPlanId := storedText record.workPlanId
  workPlanManifest := storedText record.workPlanManifest
  workPacketCount := record.workPacketCount
  candidateVerification := record.candidateVerification.map fun evidence =>
    { evidence with
      manifestPath := storedText evidence.manifestPath
      manifestHash := storedText evidence.manifestHash
      bundleHash := storedText evidence.bundleHash }
  routeLen := record.routeLen

theorem fits_toDoc (record : ProofRecord) : Fits (maxDepth + 1) record.toDoc := by
  apply fits_object ⟨by simp, by simp only [List.map]; decide⟩
  simp only [List.forall_mem_cons, List.not_mem_nil, false_imp_iff, implies_true, and_true]
  exact ⟨trivial, trivial, fits_stringArrayDoc _ _, fits_numberDoc _ _, fits_stringArrayDoc _ _,
    trivial, trivial, trivial, trivial, trivial, fits_numberDoc _ _, trivial, trivial,
    fits_numberDoc _ _, fits_nullable_candidateDoc _ _ _, fits_numberDoc _ _⟩

theorem fromDoc_toDoc (record : ProofRecord) : fromDoc (clean record.toDoc) = some record.stored := by
  have hs : ∀ key value, record.toDoc.get key = some (.string value) →
      jsonString (clean record.toDoc) key = some (sanitize value) := fun key value => jsonString_clean
  have ha : ∀ key values, record.toDoc.get key = some (stringArrayDoc values) →
      jsonStringArray (clean record.toDoc) key = some (values.map sanitize) :=
    fun key values => jsonStringArray_clean
  have hn : ∀ key (n : UInt64), record.toDoc.get key = some (numberDoc n.toNat) →
      jsonU64 (clean record.toDoc) key = some n := fun key n => jsonU64_clean
  have hcandidate : (clean record.toDoc).get "candidate_verification" = some (clean
      (nullableDoc (candidateDoc redactSensitiveText) record.candidateVerification)) :=
    get_clean rfl
  rw [fromDoc, hs "recipe_id" _ rfl, hs "status" _ rfl, ha "atoms" _ rfl,
    hn "evidence_count" _ rfl, ha "blockers" _ rfl, hs "provider_state" _ rfl, hcandidate,
    hn "route_len" _ rfl, hs "provider_model" _ rfl, hs "provider_endpoint" _ rfl,
    hs "provider_output_artifact" _ rfl, hs "provider_output_hash" _ rfl,
    hn "provider_output_len" _ rfl, hs "work_plan_id" _ rfl, hs "work_plan_manifest" _ rfl,
    hn "work_packet_count" _ rfl]
  simp only [Option.bind_eq_bind, Option.bind_some, jsonCandidate_clean, List.map_map,
    Option.getD_some, Option.pure_def]
  rfl

theorem fromJson_toJson (record : ProofRecord) : fromJson record.toJson = some record.stored := by
  have hobject : ∃ fields, (clean record.toDoc).asObject = some fields ∧
      fields.map Prod.fst = fieldNames := by
    rw [toDoc, clean]
    exact ⟨_, rfl, rfl⟩
  obtain ⟨fields, hfields, hnames⟩ := hobject
  have honly : onlyFields fields fieldNames = true := by
    rw [onlyFields, List.all_eq_true]
    intro field hfield
    rw [List.contains_iff_mem, ← hnames]
    exact List.mem_map_of_mem hfield
  rw [fromJson, toJson, parse_render record.fits_toDoc]
  simp only [Except.toOption, Option.bind_eq_bind, Option.bind_some, hfields, honly,
    Bool.true_eq_false, if_false]
  exact record.fromDoc_toDoc

theorem solid_toJson (record : ProofRecord) : Solid record.toJson.toList :=
  solid_render record.fits_toDoc

end ProofRecord

structure ProofStore where
  path : String

namespace ProofStore

/-- `append`, which its lease makes one step; what is read back is what was written. -/
def append (store : ProofStore) (record : ProofRecord) (disk : Disk) : Disk :=
  disk.insert store.path (LineLog.append record.toJson (disk.lookup store.path))

def readRecords (store : ProofStore) (disk : Disk) : Except String (List ProofRecord) :=
  (LineLog.read ProofRecord.fromJson (disk.lookup store.path)).mapError (logErrorText "proof")

end ProofStore

open ProofStore

/-- Handles on any paths append one after the other, in whatever order they come to it. -/
def appendAll (appends : List (ProofStore × ProofRecord)) (disk : Disk) : Disk :=
  appends.foldl (fun disk call => call.1.append call.2 disk) disk

def appendedTo (path : String) (appends : List (ProofStore × ProofRecord)) : List ProofRecord :=
  (appends.filter fun call => call.1.path = path).map fun call => call.2.stored

theorem holds_append {disk : Disk} {path : String} {old : List ProofRecord}
    (h : Holds ProofRecord.fromJson (disk.lookup path) old) (store : ProofStore)
    (record : ProofRecord) :
    Holds ProofRecord.fromJson ((store.append record disk).lookup path)
      (old ++ appendedTo path [(store, record)]) := by
  rw [ProofStore.append, Catalog.lookup_insert]
  by_cases hpath : store.path = path
  · have hdecode : ProofRecord.fromJson (String.ofList record.toJson.toList) =
        some record.stored := by
      rw [String.ofList_toList]
      exact record.fromJson_toJson
    have hline := h.append record.solid_toJson hdecode
    rw [String.ofList_toList] at hline
    simpa [appendedTo, hpath] using hline
  · have hne : path ≠ store.path := Ne.symm hpath
    simpa [appendedTo, hpath, hne] using h

theorem holds_appendAll {disk : Disk} {path : String} {old : List ProofRecord}
    (h : Holds ProofRecord.fromJson (disk.lookup path) old)
    (appends : List (ProofStore × ProofRecord)) :
    Holds ProofRecord.fromJson ((appendAll appends disk).lookup path)
      (old ++ appendedTo path appends) := by
  induction appends generalizing disk old with
  | nil => simpa [appendAll, appendedTo] using h
  | cons call appends ih =>
    have hcall := ih (holds_append h call.1 call.2)
    rw [List.append_assoc] at hcall
    have hsplit : appendedTo path (call :: appends) =
        appendedTo path [call] ++ appendedTo path appends := by
      simp only [appendedTo, List.filter_cons, List.filter_nil]
      split_ifs <;> rfl
    rw [hsplit]
    exact hcall

/-- A ledger that is not there, or that is read and ends with a whole line, has after any appends
the records it had and those appended to its path, in their order and as they are stored. -/
theorem proof_ledger_reads (disk : Disk) (reader : ProofStore) (old : List ProofRecord)
    (h : Holds ProofRecord.fromJson (disk.lookup reader.path) old)
    (appends : List (ProofStore × ProofRecord)) :
    reader.readRecords (appendAll appends disk) =
      .ok (old ++ appendedTo reader.path appends) := by
  rw [readRecords, (holds_appendAll h appends).reads]
  rfl

def sampleRecord (status : String) : ProofRecord where
  recipeId := "wiki-graph-rag"
  status := status
  atoms := ["scan", "hash"]
  evidenceCount := 3
  blockers := []
  providerState := "provider:none"
  providerModel := ""
  providerEndpoint := ""
  providerOutputArtifact := ""
  providerOutputHash := ""
  providerOutputLen := 0
  workPlanId := ""
  workPlanManifest := ""
  workPacketCount := 0
  candidateVerification := none
  routeLen := 4

theorem proof_ledger_reads_two :
    (ProofStore.mk "proofs.jsonl").readRecords (appendAll
        [(⟨"proofs.jsonl"⟩, sampleRecord "proven"), (⟨"other.jsonl"⟩, sampleRecord "draft"),
          (⟨"proofs.jsonl"⟩, sampleRecord "blocked")] Catalog.empty) =
      .ok [(sampleRecord "proven").stored, (sampleRecord "blocked").stored] :=
  proof_ledger_reads Catalog.empty ⟨"proofs.jsonl"⟩ [] holds_none _

end AtomVibe.Proof
