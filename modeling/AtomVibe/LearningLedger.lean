import AtomVibe.JsonComplete
import AtomVibe.Learning
import AtomVibe.LedgerFields

namespace AtomVibe.Learning

open Checked Text Json JsonText JsonRoundTrip JsonCodec JsonGrammar LineLog LedgerFields
open Verification

def baseFieldNames : List String :=
  ["schema_version", "id", "timestamp_ms", "source", "intent", "recipe_id", "atom_stack", "gate",
    "attempt", "outcome", "failure", "correction", "artifact_path", "artifact_hash",
    "provider_model", "route_len"]

def workFieldNames : List String := ["work_plan_id", "work_plan_manifest", "work_packet_count"]

def harnessFieldNames : List String := ["harness_attestation_path", "harness_attestation_hash"]

def usesWork (schemaVersion : UInt32) : Bool := legacyWorkSchemaVersion ≤ schemaVersion

def usesHarness (schemaVersion : UInt32) : Bool := legacyHarnessSchemaVersion ≤ schemaVersion

def expectedFields (schemaVersion : UInt32) : List String :=
  baseFieldNames ++ ((if usesWork schemaVersion then workFieldNames else []) ++
    ((if usesHarness schemaVersion then harnessFieldNames else []) ++
      if schemaVersion = learningSchemaVersion then ["candidate_verification"] else []))

namespace LearningRecord

def baseFields (record : LearningRecord) : List (String × JsonValue) :=
  [("schema_version", numberDoc record.schemaVersion.toNat),
    ("id", .string record.id),
    ("timestamp_ms", numberDoc record.timestampMs.toNat),
    ("source", .string record.source),
    ("intent", .string record.intent),
    ("recipe_id", .string record.recipeId),
    ("atom_stack", stringArrayDoc record.atomStack),
    ("gate", .string record.gate),
    ("attempt", numberDoc record.attempt.toNat),
    ("outcome", .string record.outcome.asStr),
    ("failure", .string record.failure),
    ("correction", .string record.correction),
    ("artifact_path", .string record.artifactPath),
    ("artifact_hash", .string record.artifactHash),
    ("provider_model", .string record.providerModel)]

def workFields (record : LearningRecord) : List (String × JsonValue) :=
  if usesWork record.schemaVersion then
    [("work_plan_id", .string record.workPlanId),
      ("work_plan_manifest", .string record.workPlanManifest),
      ("work_packet_count", numberDoc record.workPacketCount.toNat)]
  else []

def harnessFields (record : LearningRecord) : List (String × JsonValue) :=
  if usesHarness record.schemaVersion then
    [("harness_attestation_path", .string record.harnessAttestationPath),
      ("harness_attestation_hash", .string record.harnessAttestationHash)]
  else []

def candidateFields (record : LearningRecord) : List (String × JsonValue) :=
  if legacyHarnessSchemaVersion < record.schemaVersion then
    [("candidate_verification", nullableDoc (candidateDoc fun text => text) record.candidateVerification)]
  else []

def fields (record : LearningRecord) : List (String × JsonValue) :=
  record.baseFields ++ (record.workFields ++ (record.harnessFields ++ (record.candidateFields ++
    [("route_len", numberDoc record.routeLen.toNat)])))

def toJson (record : LearningRecord) : String := render (.object record.fields)

def candidateField (root : JsonValue) (schemaVersion : UInt32) :
    Option (Option CandidateVerificationEvidence) :=
  if schemaVersion = learningSchemaVersion then
    (root.get "candidate_verification").bind jsonCandidate
  else some none

def fromDoc (root : JsonValue) (schemaVersion : UInt32) : Option LearningRecord := do
  let id ← jsonString root "id"
  let timestampMs ← jsonU64 root "timestamp_ms"
  let source ← jsonString root "source"
  let intent ← jsonString root "intent"
  let recipeId ← jsonString root "recipe_id"
  let atomStack ← jsonStringArray root "atom_stack"
  let gate ← jsonString root "gate"
  let attempt ← jsonU32 root "attempt"
  let outcome ← (jsonString root "outcome").bind LearningOutcome.parse
  let failure ← jsonString root "failure"
  let correction ← jsonString root "correction"
  let artifactPath ← jsonString root "artifact_path"
  let artifactHash ← jsonString root "artifact_hash"
  let providerModel ← jsonString root "provider_model"
  let candidateVerification ← candidateField root schemaVersion
  let routeLen ← jsonU64 root "route_len"
  return ⟨schemaVersion, id, timestampMs, source, intent, recipeId, atomStack, gate, attempt,
    outcome, failure, correction, artifactPath, artifactHash, providerModel,
    (jsonString root "work_plan_id").getD "", (jsonString root "work_plan_manifest").getD "",
    (jsonU64 root "work_packet_count").getD 0, candidateVerification,
    (jsonString root "harness_attestation_path").getD "",
    (jsonString root "harness_attestation_hash").getD "", routeLen⟩

def ofValue (root : JsonValue) : Option LearningRecord := do
  let object ← root.asObject
  let schemaVersion ← jsonU32 root "schema_version"
  if object.length ≠ (expectedFields schemaVersion).length ∨
      onlyFields object (expectedFields schemaVersion) = false then
    none
  else
    let record ← fromDoc root schemaVersion
    if record.validateStructure.isOk then some record else none

def fromJson (line : String) : Option LearningRecord := (parse line).toOption.bind ofValue

def stored (record : LearningRecord) : LearningRecord :=
  { record with
    id := sanitize record.id
    source := sanitize record.source
    intent := sanitize record.intent
    recipeId := sanitize record.recipeId
    atomStack := record.atomStack.map sanitize
    gate := sanitize record.gate
    failure := sanitize record.failure
    correction := sanitize record.correction
    artifactPath := sanitize record.artifactPath
    artifactHash := sanitize record.artifactHash
    providerModel := sanitize record.providerModel
    workPlanId := if usesWork record.schemaVersion then sanitize record.workPlanId else ""
    workPlanManifest :=
      if usesWork record.schemaVersion then sanitize record.workPlanManifest else ""
    workPacketCount := if usesWork record.schemaVersion then record.workPacketCount else 0
    candidateVerification := if record.schemaVersion = learningSchemaVersion then
      record.candidateVerification.map (cleanCandidate fun text => text) else none
    harnessAttestationPath :=
      if usesHarness record.schemaVersion then sanitize record.harnessAttestationPath else ""
    harnessAttestationHash :=
      if usesHarness record.schemaVersion then sanitize record.harnessAttestationHash else "" }

section RoundTrip

variable {record : LearningRecord}

def Supported (schemaVersion : UInt32) : Prop :=
  schemaVersion = legacyLearningSchemaVersion ∨ schemaVersion = legacyShaSchemaVersion ∨
    schemaVersion = legacyWorkSchemaVersion ∨ schemaVersion = legacyHarnessSchemaVersion ∨
    schemaVersion = learningSchemaVersion

theorem supported_of_valid (h : record.validateStructure = .ok ()) :
    Supported record.schemaVersion := by
  obtain ⟨u, hschema, -⟩ := bind_eq_ok.mp h
  have hsupported := refuseIf_eq_ok.mp hschema
  rw [Bool.not_eq_false, List.contains_iff_mem] at hsupported
  simp only [List.mem_cons, List.not_mem_nil, or_false] at hsupported
  exact hsupported

def writtenNames (schemaVersion : UInt32) : List String :=
  ["schema_version", "id", "timestamp_ms", "source", "intent", "recipe_id", "atom_stack", "gate",
    "attempt", "outcome", "failure", "correction", "artifact_path", "artifact_hash",
    "provider_model"] ++ ((if usesWork schemaVersion then workFieldNames else []) ++
      ((if usesHarness schemaVersion then harnessFieldNames else []) ++
        ((if legacyHarnessSchemaVersion < schemaVersion then ["candidate_verification"] else []) ++
          ["route_len"])))

theorem names_fields (record : LearningRecord) :
    record.fields.map Prod.fst = writtenNames record.schemaVersion := by
  unfold fields workFields harnessFields candidateFields writtenNames
  split_ifs <;> rfl

theorem fits_fields (record : LearningRecord) : Fits (maxDepth + 1) (.object record.fields) := by
  apply fits_object
  · rw [names_fields, writtenNames]
    split_ifs <;> decide
  · simp only [fields, List.forall_mem_append]
    refine ⟨?_, ?_, ?_, ?_, ?_⟩
    · simp only [baseFields, List.forall_mem_cons, List.not_mem_nil, false_imp_iff, implies_true,
        and_true]
      exact ⟨fits_numberDoc _ _, trivial, fits_numberDoc _ _, trivial, trivial, trivial,
        fits_stringArrayDoc _ _, trivial, fits_numberDoc _ _, trivial, trivial, trivial, trivial,
        trivial, trivial⟩
    · unfold workFields
      split_ifs
      · simp only [List.forall_mem_cons, List.not_mem_nil, false_imp_iff, implies_true, and_true]
        exact ⟨trivial, trivial, fits_numberDoc _ _⟩
      · simp
    · unfold harnessFields
      split_ifs
      · simp only [List.forall_mem_cons, List.not_mem_nil, false_imp_iff, implies_true, and_true]
        exact ⟨trivial, trivial⟩
      · simp
    · unfold candidateFields
      split_ifs
      · simp only [List.forall_mem_cons, List.not_mem_nil, false_imp_iff, implies_true, and_true]
        exact fits_nullable_candidateDoc _ _ _
      · simp
    · simp only [List.forall_mem_cons, List.not_mem_nil, false_imp_iff, implies_true, and_true]
      exact fits_numberDoc _ _

theorem get_base {key : String} {value : JsonValue}
    (h : (JsonValue.object record.baseFields).get key = some value) :
    (JsonValue.object record.fields).get key = some value := by
  simp only [JsonValue.get, JsonValue.asObject, fields, List.find?_append] at h ⊢
  obtain ⟨field, hfield, rfl⟩ := Option.map_eq_some_iff.mp h
  rw [hfield]
  rfl

theorem get_route :
    (JsonValue.object record.fields).get "route_len" = some (numberDoc record.routeLen.toNat) := by
  unfold fields workFields harnessFields candidateFields
  split_ifs <;> rfl

theorem get_work {key : String} (h : key ∈ workFieldNames) :
    (JsonValue.object record.fields).get key = (JsonValue.object record.workFields).get key := by
  simp only [workFieldNames, List.mem_cons, List.not_mem_nil, or_false] at h
  unfold fields workFields harnessFields candidateFields
  rcases h with rfl | rfl | rfl <;> split_ifs <;> rfl

theorem get_harness {key : String} (h : key ∈ harnessFieldNames) :
    (JsonValue.object record.fields).get key = (JsonValue.object record.harnessFields).get key := by
  simp only [harnessFieldNames, List.mem_cons, List.not_mem_nil, or_false] at h
  unfold fields workFields harnessFields candidateFields
  rcases h with rfl | rfl <;> split_ifs <;> rfl

theorem getString (key : String) (value : String)
    (h : (JsonValue.object record.baseFields).get key = some (.string value)) :
    jsonString (clean (.object record.fields)) key = some (sanitize value) :=
  jsonString_clean (get_base h)

theorem work_stored (hwork : usesWork record.schemaVersion = true) :
    jsonString (clean (.object record.fields)) "work_plan_id" =
        some (sanitize record.workPlanId) ∧
      jsonString (clean (.object record.fields)) "work_plan_manifest" =
        some (sanitize record.workPlanManifest) ∧
      jsonU64 (clean (.object record.fields)) "work_packet_count" =
        some record.workPacketCount := by
  have hfields : record.workFields = _ := if_pos hwork
  refine ⟨jsonString_clean ?_, jsonString_clean ?_, jsonU64_clean ?_⟩ <;>
    rw [get_work (by decide), hfields] <;> rfl

theorem get_clean_none {root : JsonValue} {key : String} (h : root.get key = none) :
    (clean root).get key = none := by
  cases root with
  | object fs =>
    rw [clean]
    induction fs with
    | nil => rfl
    | cons f fs ih =>
      rw [get_object_cons] at h
      rw [List.map_cons, get_object_cons]
      split_ifs at h ⊢ with hk
      exact ih h
  | _ => rw [clean]; rfl

theorem work_absent (hwork : usesWork record.schemaVersion = false) {key : String}
    (hkey : key ∈ workFieldNames) : (clean (.object record.fields)).get key = none := by
  apply get_clean_none
  rw [get_work hkey, workFields, if_neg (by simp [hwork])]
  rfl

theorem harness_stored (hharness : usesHarness record.schemaVersion = true) :
    jsonString (clean (.object record.fields)) "harness_attestation_path" =
        some (sanitize record.harnessAttestationPath) ∧
      jsonString (clean (.object record.fields)) "harness_attestation_hash" =
        some (sanitize record.harnessAttestationHash) := by
  have hfields : record.harnessFields = _ := if_pos hharness
  refine ⟨jsonString_clean ?_, jsonString_clean ?_⟩ <;>
    rw [get_harness (by decide), hfields] <;> rfl

theorem harness_absent (hharness : usesHarness record.schemaVersion = false) {key : String}
    (hkey : key ∈ harnessFieldNames) : (clean (.object record.fields)).get key = none := by
  apply get_clean_none
  rw [get_harness hkey, harnessFields, if_neg (by simp [hharness])]
  rfl

theorem candidate_stored (h : record.schemaVersion = learningSchemaVersion) :
    ((clean (.object record.fields)).get "candidate_verification").bind jsonCandidate =
      some (record.candidateVerification.map (cleanCandidate fun text => text)) := by
  have hget : (JsonValue.object record.fields).get "candidate_verification" = some
      (nullableDoc (candidateDoc fun text => text) record.candidateVerification) := by
    have hlater : legacyHarnessSchemaVersion < record.schemaVersion := by
      rw [h]
      decide
    unfold fields workFields harnessFields candidateFields
    rw [if_pos hlater]
    split_ifs <;> rfl
  rw [get_clean hget, Option.bind_some, jsonCandidate_clean]

theorem fromDoc_fields (record : LearningRecord) :
    fromDoc (clean (.object record.fields)) record.schemaVersion = some record.stored := by
  have ht : jsonU64 (clean (.object record.fields)) "timestamp_ms" = some record.timestampMs :=
    jsonU64_clean (get_base rfl)
  have ha : jsonStringArray (clean (.object record.fields)) "atom_stack" =
      some (record.atomStack.map sanitize) := jsonStringArray_clean (get_base rfl)
  have hattempt : jsonU32 (clean (.object record.fields)) "attempt" = some record.attempt :=
    jsonU32_clean (get_base rfl)
  have hroute : jsonU64 (clean (.object record.fields)) "route_len" = some record.routeLen :=
    jsonU64_clean get_route
  have houtcome : (jsonString (clean (.object record.fields)) "outcome").bind
      LearningOutcome.parse = some record.outcome := by
    rw [getString "outcome" record.outcome.asStr rfl, Option.bind_some]
    cases record.outcome <;> decide
  have hcandidate : candidateField (clean (.object record.fields)) record.schemaVersion =
      some record.stored.candidateVerification := by
    unfold candidateField
    split_ifs with h
    · rw [candidate_stored h, stored, if_pos h]
    · rw [stored, if_neg h]
  have hwork : (jsonString (clean (.object record.fields)) "work_plan_id").getD "" =
        record.stored.workPlanId ∧
      (jsonString (clean (.object record.fields)) "work_plan_manifest").getD "" =
        record.stored.workPlanManifest ∧
      (jsonU64 (clean (.object record.fields)) "work_packet_count").getD 0 =
        record.stored.workPacketCount := by
    cases h : usesWork record.schemaVersion with
    | true =>
      obtain ⟨hid, hmanifest, hcount⟩ := work_stored h
      simp [hid, hmanifest, hcount, stored, h]
    | false =>
      simp [jsonString, jsonU64, work_absent h (show "work_plan_id" ∈ _ by decide),
        work_absent h (show "work_plan_manifest" ∈ _ by decide),
        work_absent h (show "work_packet_count" ∈ _ by decide), stored, h]
  have hharness : (jsonString (clean (.object record.fields)) "harness_attestation_path").getD "" =
        record.stored.harnessAttestationPath ∧
      (jsonString (clean (.object record.fields)) "harness_attestation_hash").getD "" =
        record.stored.harnessAttestationHash := by
    cases h : usesHarness record.schemaVersion with
    | true =>
      obtain ⟨hpath, hhash⟩ := harness_stored h
      simp [hpath, hhash, stored, h]
    | false =>
      simp [jsonString, harness_absent h (show "harness_attestation_path" ∈ _ by decide),
        harness_absent h (show "harness_attestation_hash" ∈ _ by decide), stored, h]
  rw [fromDoc, getString "id" _ rfl, ht, getString "source" _ rfl, getString "intent" _ rfl,
    getString "recipe_id" _ rfl, ha, getString "gate" _ rfl, hattempt, houtcome,
    getString "failure" _ rfl, getString "correction" _ rfl, getString "artifact_path" _ rfl,
    getString "artifact_hash" _ rfl, getString "provider_model" _ rfl, hcandidate, hroute,
    hwork.1, hwork.2.1, hwork.2.2, hharness.1, hharness.2]
  rfl

theorem expected_written {schemaVersion : UInt32} (h : Supported schemaVersion) :
    (writtenNames schemaVersion).length = (expectedFields schemaVersion).length ∧
      ∀ name ∈ writtenNames schemaVersion, (expectedFields schemaVersion).contains name = true := by
  rcases h with rfl | rfl | rfl | rfl | rfl <;> decide

theorem ofValue_fields (h : Supported record.schemaVersion) :
    ofValue (clean (.object record.fields)) =
      if record.stored.validateStructure.isOk then some record.stored else none := by
  have hobject : ∃ fields, (clean (.object record.fields)).asObject = some fields ∧
      fields.map Prod.fst = writtenNames record.schemaVersion := by
    rw [clean]
    refine ⟨_, rfl, ?_⟩
    rw [List.map_map, ← names_fields]
    rfl
  obtain ⟨fields, hfields, hnames⟩ := hobject
  obtain ⟨hlength, hcontains⟩ := expected_written h
  have honly : onlyFields fields (expectedFields record.schemaVersion) = true := by
    rw [onlyFields, List.all_eq_true]
    intro field hfield
    exact hcontains field.1 (hnames ▸ List.mem_map_of_mem hfield)
  have hsame : fields.length = (expectedFields record.schemaVersion).length := by
    rw [← hlength, ← hnames, List.length_map]
  have hschema : jsonU32 (clean (.object record.fields)) "schema_version" =
      some record.schemaVersion := jsonU32_clean (get_base rfl)
  rw [ofValue, hfields, hschema]
  simp only [Option.bind_eq_bind, Option.bind_some]
  rw [if_neg (by simp [hsame, honly]), fromDoc_fields]
  rfl

theorem fromJson_toJson (h : Supported record.schemaVersion) :
    fromJson record.toJson =
      if record.stored.validateStructure.isOk then some record.stored else none := by
  rw [fromJson, toJson, parse_render (fits_fields record)]
  exact ofValue_fields h

def texts (record : LearningRecord) : List String :=
  [record.id, record.source, record.intent, record.recipeId, record.gate, record.failure,
    record.correction, record.artifactPath, record.artifactHash, record.providerModel,
    record.workPlanId, record.workPlanManifest, record.harnessAttestationPath,
    record.harnessAttestationHash] ++ record.atomStack ++
    (record.candidateVerification.map fun candidate =>
      [candidate.manifestPath, candidate.manifestHash, candidate.bundleHash]).getD []

/-- No text of the record has a control character that its escape replaces, and the record has
nothing its schema has no field for. -/
structure Faithful (record : LearningRecord) : Prop where
  lossless : ∀ text ∈ record.texts, Lossless text
  work : usesWork record.schemaVersion = false →
    record.workPlanId = "" ∧ record.workPlanManifest = "" ∧ record.workPacketCount = 0
  harness : usesHarness record.schemaVersion = false →
    record.harnessAttestationPath = "" ∧ record.harnessAttestationHash = ""
  candidate : record.schemaVersion ≠ learningSchemaVersion → record.candidateVerification = none

theorem kept_iff {uses : Bool} {text : String} :
    (if uses then sanitize text else "") = text ↔ Lossless text ∧ (uses = false → text = "") := by
  cases uses with
  | true => simp [sanitize_eq_self_iff]
  | false =>
    simp only [Bool.false_eq_true, if_false, true_imp_iff]
    constructor
    · rintro rfl
      exact ⟨by decide, rfl⟩
    · exact fun h => h.2.symm

theorem cleanCandidate_eq_self_iff (candidate : CandidateVerificationEvidence) :
    cleanCandidate (fun text => text) candidate = candidate ↔ Lossless candidate.manifestPath ∧
      Lossless candidate.manifestHash ∧ Lossless candidate.bundleHash := by
  obtain ⟨path, hash, bundle, attempts, repairs⟩ := candidate
  simp [cleanCandidate, sanitize_eq_self_iff]

theorem stored_eq_self_iff (record : LearningRecord) :
    record.stored = record ↔ record.Faithful := by
  constructor
  · intro h
    have hfield : ∀ {α : Type} (f : LearningRecord → α), f record.stored = f record :=
      fun f => congrArg f h
    have hplan := kept_iff.mp (hfield (·.workPlanId))
    have hmanifest := kept_iff.mp (hfield (·.workPlanManifest))
    have hpath := kept_iff.mp (hfield (·.harnessAttestationPath))
    have hhash := kept_iff.mp (hfield (·.harnessAttestationHash))
    have hcandidate := hfield (·.candidateVerification)
    have hlossless : ∀ f : LearningRecord → String, f record.stored = sanitize (f record) →
        Lossless (f record) :=
      fun f hf => (sanitize_eq_self_iff _).mp (hf.symm.trans (hfield f))
    constructor
    · simp only [texts, List.forall_mem_append, List.forall_mem_cons, List.not_mem_nil,
        false_imp_iff, implies_true, and_true]
      refine ⟨⟨⟨hlossless (·.id) rfl, hlossless (·.source) rfl, hlossless (·.intent) rfl,
        hlossless (·.recipeId) rfl, hlossless (·.gate) rfl, hlossless (·.failure) rfl,
        hlossless (·.correction) rfl, hlossless (·.artifactPath) rfl,
        hlossless (·.artifactHash) rfl, hlossless (·.providerModel) rfl, hplan.1, hmanifest.1,
        hpath.1, hhash.1⟩, (map_sanitize_eq_self_iff _).mp (hfield (·.atomStack))⟩, ?_⟩
      simp only [stored] at hcandidate
      split_ifs at hcandidate with hschema
      · cases hcase : record.candidateVerification with
        | none => simp
        | some candidate =>
          rw [hcase, Option.map_some, Option.some.injEq, cleanCandidate_eq_self_iff] at hcandidate
          simpa using hcandidate
      · rw [← hcandidate]
        simp
    · intro hwork
      have hcount := hfield (·.workPacketCount)
      simp only [stored, hwork] at hcount
      exact ⟨hplan.2 hwork, hmanifest.2 hwork, hcount.symm⟩
    · exact fun hharness => ⟨hpath.2 hharness, hhash.2 hharness⟩
    · intro hschema
      simp only [stored, if_neg hschema] at hcandidate
      exact hcandidate.symm
  · rintro ⟨hlossless, hwork, hharness, hcandidate⟩
    simp only [texts, List.forall_mem_append, List.forall_mem_cons, List.not_mem_nil,
      false_imp_iff, implies_true, and_true] at hlossless
    obtain ⟨⟨⟨h1, h2, h3, h4, h5, h6, h7, h8, h9, h10, h11, h12, h13, h14⟩, hatoms⟩, htexts⟩ :=
      hlossless
    have hkept : (if record.schemaVersion = learningSchemaVersion then
        record.candidateVerification.map (cleanCandidate fun text => text) else none) =
        record.candidateVerification := by
      split_ifs with hschema
      · cases hcase : record.candidateVerification with
        | none => rfl
        | some candidate =>
          rw [hcase] at htexts
          rw [Option.map_some, Option.some.injEq, cleanCandidate_eq_self_iff]
          simpa using htexts
      · exact (hcandidate hschema).symm
    have hcount : (if usesWork record.schemaVersion then record.workPacketCount else 0) =
        record.workPacketCount := by
      split_ifs with huses
      · rfl
      · exact (hwork (by simpa using huses)).2.2.symm
    rw [stored, (sanitize_eq_self_iff _).mpr h1, (sanitize_eq_self_iff _).mpr h2,
      (sanitize_eq_self_iff _).mpr h3, (sanitize_eq_self_iff _).mpr h4,
      (sanitize_eq_self_iff _).mpr h5, (sanitize_eq_self_iff _).mpr h6,
      (sanitize_eq_self_iff _).mpr h7, (sanitize_eq_self_iff _).mpr h8,
      (sanitize_eq_self_iff _).mpr h9, (sanitize_eq_self_iff _).mpr h10,
      kept_iff.mpr ⟨h11, fun h => (hwork h).1⟩, kept_iff.mpr ⟨h12, fun h => (hwork h).2.1⟩,
      kept_iff.mpr ⟨h13, fun h => (hharness h).1⟩, kept_iff.mpr ⟨h14, fun h => (hharness h).2⟩,
      (map_sanitize_eq_self_iff _).mpr hatoms, hkept, hcount]

theorem fromJson_toJson_iff (h : record.validateStructure = .ok ()) :
    fromJson record.toJson = some record ↔ record.Faithful := by
  rw [fromJson_toJson (supported_of_valid h), ← stored_eq_self_iff]
  constructor
  · intro heq
    split_ifs at heq
    exact Option.some.inj heq
  · intro heq
    rw [heq, h]
    rfl

end RoundTrip

end LearningRecord

section Behind

variable {gap cs : List Char}

theorem head_valueText {levels : ℕ} {v : JsonValue} (h : ValueText literalChar levels cs v) :
    ∃ c rest, cs = c :: rest ∧ isWhitespace c = false := by
  have hdigit : ∀ c : Char, isAsciiDigit c = true → isWhitespace c = false := by
    intro c hc
    simp only [isAsciiDigit, Bool.and_eq_true, decide_eq_true_eq, Char.le_def, UInt32.le_iff_toNat_le]
      at hc
    have h0 : 48 ≤ c.toNat := hc.1
    have h9 : c.toNat ≤ 57 := hc.2
    unfold isWhitespace
    simp
    omega
  cases levels with
  | zero => exact h.elim
  | succ levels =>
    cases h with
    | null => exact ⟨'n', _, rfl, by decide⟩
    | true => exact ⟨'t', _, rfl, by decide⟩
    | false => exact ⟨'f', _, rfl, by decide⟩
    | number number =>
      obtain ⟨c, rest, rfl, hc⟩ := number.head
      refine ⟨c, rest, rfl, ?_⟩
      rcases hc with rfl | hc
      · decide
      · exact hdigit c hc
    | string string =>
      obtain ⟨rest, rfl⟩ := string.head
      exact ⟨'"', rest, rfl, by decide⟩
    | emptyArray | array => exact ⟨'[', _, rfl, by decide⟩
    | emptyObject | object => exact ⟨'\x7b', _, rfl, by decide⟩

theorem parse_behind (hspace : gap.all isWhitespace = true) (v : JsonValue) :
    parse (String.ofList (gap ++ cs)) = .ok v ↔ Blanks gap ∧ parse (String.ofList cs) = .ok v := by
  constructor
  · intro h
    have htext := parse_sound h
    rw [String.toList_ofList] at htext
    generalize hwhole : gap ++ cs = whole at htext
    cases htext with
    | @mk before text after v left value right =>
      obtain ⟨c, rest, rfl, hc⟩ := head_valueText value
      rcases List.append_eq_append_iff.mp hwhole with ⟨more, rfl, hcs⟩ | ⟨more, rfl, hrest⟩
      · refine ⟨fun d hd => left d (List.mem_append_left _ hd), parse_complete ?_⟩
        rw [String.toList_ofList, hcs]
        exact .mk (fun d hd => left d (List.mem_append_right _ hd)) value right
      · cases more with
        | nil =>
          rw [List.append_nil]
          refine ⟨left, parse_complete ?_⟩
          rw [String.toList_ofList, ← List.nil_append cs, ← hrest]
          exact .mk blanks_nil value right
        | cons d more =>
          obtain rfl : c = d := (List.cons.inj hrest).1
          rw [List.all_eq_true] at hspace
          rw [hspace c (by simp)] at hc
          exact absurd hc (by simp)
  · rintro ⟨hblanks, h⟩
    have htext := parse_sound h
    rw [String.toList_ofList] at htext
    apply parse_complete
    rw [String.toList_ofList]
    cases htext with
    | mk left value right =>
      rw [← List.append_assoc]
      exact .mk (blanks_append hblanks left) value right

theorem whitespace_of_blanks (h : Blanks gap) : gap.all isWhitespace = true := by
  rw [List.all_eq_true]
  intro c hc
  have hblank := h c hc
  simp only [isBlankChar, Bool.or_eq_true, beq_iff_eq] at hblank
  rcases hblank with ((rfl | rfl) | rfl) | rfl <;> decide

theorem fromJson_behind (hspace : gap.all isWhitespace = true) (record : LearningRecord) :
    LearningRecord.fromJson (String.ofList (gap ++ cs)) = some record ↔
      Blanks gap ∧ LearningRecord.fromJson (String.ofList cs) = some record := by
  have hok : ∀ text, LearningRecord.fromJson text = some record ↔
      ∃ v, parse text = .ok v ∧ LearningRecord.ofValue v = some record := by
    intro text
    rw [LearningRecord.fromJson]
    cases parse text <;> simp [Except.toOption]
  simp only [hok, parse_behind hspace]
  constructor
  · rintro ⟨v, ⟨hblanks, hv⟩, hrecord⟩
    exact ⟨hblanks, v, hv, hrecord⟩
  · rintro ⟨hblanks, v, hv, hrecord⟩
    exact ⟨v, ⟨hblanks, hv⟩, hrecord⟩

end Behind

structure LearningStore where
  path : String

namespace LearningStore

/-- `append`, which its lease makes one step; what is read back is what was written. -/
def append (store : LearningStore) (v : Verifiers) (record : LearningRecord) (disk : Disk) :
    Except String Unit × Disk :=
  match record.validate v with
  | .error reason => (.error reason, disk)
  | .ok () =>
    (.ok (), disk.insert store.path (LineLog.append record.toJson (disk.lookup store.path)))

def readRecords (store : LearningStore) (disk : Disk) : Except String (List LearningRecord) :=
  (LineLog.read LearningRecord.fromJson (disk.lookup store.path)).mapError
    (logErrorText "learning")

def tail (store : LearningStore) (disk : Disk) : List Char :=
  match readToString (disk.lookup store.path) with
  | .ok text => openLine text.toList
  | .error _ => []

def Keeps (store : LearningStore) (v : Verifiers) (record : LearningRecord) (disk : Disk)
    (old : List LearningRecord) : Prop :=
  (store.append v record disk).1 = .ok () ∧
    store.readRecords (store.append v record disk).2 = .ok (old ++ [record]) ∧
    LearningRecord.fromJson record.toJson = some record

/-- A record that is valid is read back after those of a readable ledger exactly if it is faithful
and the ledger has ended its last line, up to the white space of the grammar. -/
theorem keeps_iff (store : LearningStore) (v : Verifiers) (record : LearningRecord) (disk : Disk)
    (old : List LearningRecord) (hvalid : record.validate v = .ok ())
    (hold : store.readRecords disk = .ok old) :
    store.Keeps v record disk old ↔ record.Faithful ∧ Blanks (store.tail disk) := by
  have hiff := LearningRecord.fromJson_toJson_iff (LearningRecord.validate_structure hvalid)
  have hread := mapError_eq_ok.mp hold
  obtain ⟨text, htext, -⟩ := bind_eq_ok.mp hread
  have hsolid : Solid record.toJson.toList := solid_render (LearningRecord.fits_fields record)
  have happend : store.append v record disk = (.ok (),
      disk.insert store.path (LineLog.append record.toJson (disk.lookup store.path))) := by
    rw [LearningStore.append, hvalid]
  have hlog := @read_append_iff _ _ _ _ _ _ record hsolid htext hread
  rw [String.ofList_toList] at hlog
  rw [Keeps, happend, readRecords, Catalog.lookup_insert, if_pos rfl, mapError_eq_ok, hlog, hiff,
    tail, htext]
  constructor
  · rintro ⟨-, ⟨hspace, hdecode⟩, hfaithful⟩
    exact ⟨hfaithful, ((fromJson_behind hspace record).mp hdecode).1⟩
  · rintro ⟨hfaithful, hblanks⟩
    have hspace := whitespace_of_blanks hblanks
    refine ⟨rfl, ⟨hspace, (fromJson_behind hspace record).mpr ⟨hblanks, ?_⟩⟩, hfaithful⟩
    rw [String.ofList_toList]
    exact hiff.mpr hfaithful

theorem keeps_iff_sample : (LearningStore.mk "learning.jsonl").Keeps noEvidence
    (sampleLesson "a1") Catalog.empty [] :=
  (keeps_iff ⟨"learning.jsonl"⟩ noEvidence (sampleLesson "a1") Catalog.empty [] rfl rfl).mpr
    ⟨⟨by decide, by decide, by decide, by decide⟩, by
      rw [show (LearningStore.mk "learning.jsonl").tail Catalog.empty = [] from rfl]
      exact blanks_nil⟩

theorem append_spoils_ledger :
    (LearningStore.mk "learning.jsonl").readRecords Catalog.empty = .ok [] ∧
      ((LearningStore.mk "learning.jsonl").append noEvidence (sampleLesson "\x01")
        Catalog.empty).1 = .ok () ∧
      (LearningStore.mk "learning.jsonl").readRecords
        ((LearningStore.mk "learning.jsonl").append noEvidence (sampleLesson "\x01")
          Catalog.empty).2 = .error "invalid learning store record at line 1" := by
  have hdecode : LearningRecord.fromJson (sampleLesson "\x01").toJson = none := by
    rw [LearningRecord.fromJson_toJson (by simp [LearningRecord.Supported, sampleLesson,
      learningSchemaVersion])]
    rfl
  have hsolid : Solid (sampleLesson "\x01").toJson.toList :=
    solid_render (LearningRecord.fits_fields _)
  have hread : LineLog.read LearningRecord.fromJson
      (some (LineLog.append (sampleLesson "\x01").toJson none)) = .error (.invalidLine 1) := by
    have hsingle := @read_single _ LearningRecord.fromJson _ hsolid
    rw [String.ofList_toList, hdecode] at hsingle
    exact hsingle
  have hvalid : (sampleLesson "\x01").validate noEvidence = .ok () := rfl
  refine ⟨rfl, by rw [LearningStore.append, hvalid], ?_⟩
  rw [LearningStore.append, hvalid, readRecords, Catalog.lookup_insert, if_pos rfl,
    show Catalog.empty.lookup "learning.jsonl" = none from rfl, hread]
  rfl

end LearningStore

end AtomVibe.Learning
