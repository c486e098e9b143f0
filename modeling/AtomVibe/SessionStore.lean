import AtomVibe.ChainFiles
import AtomVibe.JsonCodec
import AtomVibe.Provider

namespace AtomVibe.RuntimeModel

open Checked Text Provider

structure SessionManifest where
  schemaVersion : UInt32
  buildId : String
  projectId : String
  operatorRequest : String
  initialProvider : String
  initialModel : String
  initialProviderIdentityHash : String
  createdAtUnixMs : UInt64
  manifestHash : String
  deriving DecidableEq

inductive RuntimeError
  | invalidConfiguration (reason : String)
  | invalidRequest (reason : String)
  | session (reason : String)
  | planner (reason : String)
  | context (reason : String)
  | mode (reason : String)
  | scratchpad (reason : String)
  | provider (error : ProviderAdapterError)
  | turnStore (reason : String)
  | buildNotActive (buildId : String)
  | stalePreparedTurn
  deriving DecidableEq

def RuntimeError.display : RuntimeError → String
  | invalidConfiguration reason => "invalid Atom Vibe runtime configuration: " ++ reason
  | invalidRequest reason => "invalid build request: " ++ reason
  | session reason => "build session failed: " ++ reason
  | planner reason => "build planner failed: " ++ reason
  | context reason => "coder context failed: " ++ reason
  | mode reason => "coder mode failed: " ++ reason
  | scratchpad reason => "model scratchpad failed: " ++ reason
  | provider error => "provider turn failed: " ++ error.display
  | turnStore reason => "provider turn store failed: " ++ reason
  | buildNotActive buildId => "build " ++ buildId ++ " is not active"
  | stalePreparedTurn => "prepared provider turn is stale and cannot execute"

end AtomVibe.RuntimeModel

/-!
The session store: one file for each build, written once and never changed. File operations
succeed here; what can fail is what the code itself refuses.
-/

namespace AtomVibe.SessionStore

open Checked Text Json JsonText JsonRoundTrip JsonCodec Hash ChainFiles Provider RuntimeModel

def sessionSchemaVersion : UInt32 := 1

def maxOperatorRequestBytes : ℕ := 64 * 1024

def isSafeSessionId (buildId : String) : Bool :=
  startsWith "build-" buildId && buildId.utf8ByteSize ≤ 160 &&
    buildId.toList.all fun c => isAsciiLowercase c || isAsciiDigit c || c == '-'

def validateIdentity (buildId projectId operatorRequest : String) : Except RuntimeError Unit := do
  refuseIf (isSafeSessionId buildId = false) (.session "build id is unsafe")
  refuseIf (isBlank projectId || 240 < projectId.utf8ByteSize || projectId.toList.any isControl)
    (.invalidRequest "project id is empty, unsafe, or exceeds 240 bytes")
  refuseIf (isBlank operatorRequest || maxOperatorRequestBytes < operatorRequest.utf8ByteSize ||
      operatorRequest.toList.contains '\x00')
    (.invalidRequest ("operator request must be nonempty and no larger than " ++
      maxOperatorRequestBytes.repr ++ " bytes"))

theorem validateIdentity_eq_ok {buildId projectId operatorRequest : String} {u : Unit} :
    validateIdentity buildId projectId operatorRequest = .ok u ↔
      isSafeSessionId buildId = true ∧
      (isBlank projectId = false ∧ projectId.utf8ByteSize ≤ 240 ∧
        projectId.toList.any isControl = false) ∧
      (isBlank operatorRequest = false ∧
        operatorRequest.utf8ByteSize ≤ maxOperatorRequestBytes ∧ '\x00' ∉ operatorRequest.toList) := by
  simp only [validateIdentity, bind_eq_ok, refuseIf_eq_ok, exists_const, Bool.or_eq_true, not_or,
    Bool.not_eq_true, Bool.not_eq_false, decide_eq_true_eq, not_lt, List.contains_eq_mem,
    and_assoc]

def manifestHash (manifest : SessionManifest) : String :=
  sha256Tagged (asBytes (manifest.schemaVersion.toNat.repr ++ "\x00" ++ manifest.buildId ++
    "\x00" ++ manifest.projectId ++ "\x00" ++ manifest.operatorRequest ++ "\x00" ++
    manifest.initialProvider ++ "\x00" ++ manifest.initialModel ++ "\x00" ++
    manifest.initialProviderIdentityHash ++ "\x00" ++ manifest.createdAtUnixMs.toNat.repr))

def validateManifest (manifest : SessionManifest) : Except RuntimeError Unit := do
  validateIdentity manifest.buildId manifest.projectId manifest.operatorRequest
  refuseIf (manifest.schemaVersion ≠ sessionSchemaVersion ∨ isBlank manifest.initialProvider ∨
      isBlank manifest.initialModel ∨
      validSha256Tag manifest.initialProviderIdentityHash = false ∨
      validSha256Tag manifest.manifestHash = false ∨
      manifest.manifestHash ≠ SessionStore.manifestHash manifest)
    (.session "session manifest failed integrity validation")

def manifestDoc (manifest : SessionManifest) : JsonValue :=
  .object
    [("schema_version", numberDoc manifest.schemaVersion.toNat),
      ("build_id", .string manifest.buildId),
      ("project_id", .string manifest.projectId),
      ("operator_request", .string manifest.operatorRequest),
      ("initial_provider", .string manifest.initialProvider),
      ("initial_model", .string manifest.initialModel),
      ("initial_provider_identity_hash", .string manifest.initialProviderIdentityHash),
      ("created_at_unix_ms", numberDoc manifest.createdAtUnixMs.toNat),
      ("manifest_hash", .string manifest.manifestHash)]

def manifestJson (manifest : SessionManifest) : String := render (manifestDoc manifest)

def requiredString (root : JsonValue) (key : String) : Except RuntimeError String :=
  okOr (.session ("session field " ++ key ++ " is invalid")) ((root.get key).bind JsonValue.asStr)

def requiredU64 (root : JsonValue) (key : String) : Except RuntimeError UInt64 :=
  okOr (.session ("session field " ++ key ++ " is invalid")) ((root.get key).bind JsonValue.asU64)

def manifestFromJson (root : JsonValue) : Except RuntimeError SessionManifest := do
  let schemaVersion ← requiredU64 root "schema_version"
  let buildId ← requiredString root "build_id"
  let projectId ← requiredString root "project_id"
  let operatorRequest ← requiredString root "operator_request"
  let initialProvider ← requiredString root "initial_provider"
  let initialModel ← requiredString root "initial_model"
  let initialProviderIdentityHash ← requiredString root "initial_provider_identity_hash"
  let createdAtUnixMs ← requiredU64 root "created_at_unix_ms"
  let manifestHash ← requiredString root "manifest_hash"
  return ⟨schemaVersion.toUInt32, buildId, projectId, operatorRequest, initialProvider,
    initialModel, initialProviderIdentityHash, createdAtUnixMs, manifestHash⟩

def parseManifest (text : String) : Except RuntimeError SessionManifest := do
  let root ← (parse text).mapError fun error => RuntimeError.session error.display
  manifestFromJson root

def sessionName (buildId : String) : String := buildId ++ ".json"

def load (buildId : String) (sessions : Files) : Except RuntimeError SessionManifest := do
  let bytes ← okOr (.session "No such file or directory (os error 2)")
    (sessions.lookup (sessionName buildId))
  let text ← okOr (.session "stream did not contain valid UTF-8") (String.fromUTF8? bytes)
  let manifest ← parseManifest text
  refuseIf (manifest.buildId ≠ buildId) (.session "session filename and build id differ")
  validateManifest manifest
  return manifest

def newManifest (buildId projectId operatorRequest : String) (provider : ProviderConfig)
    (unixTimeMs : UInt64) : SessionManifest :=
  let manifest : SessionManifest :=
    ⟨sessionSchemaVersion, buildId, projectId, operatorRequest, provider.kind.asStr, provider.model,
      sha256Tagged (asBytes (providerIdentity provider)), unixTimeMs, ""⟩
  { manifest with manifestHash := SessionStore.manifestHash manifest }

def writeManifest (manifest : SessionManifest) (sessions : Files) :
    Except RuntimeError SessionManifest × Files :=
  match sessions.lookup (sessionName manifest.buildId) with
  | some _ => (.error (.session "session already exists"), sessions)
  | none =>
    let sessions := sessions.insert (sessionName manifest.buildId)
      (manifestJson manifest).toByteArray
    (do
      let readback ← load manifest.buildId sessions
      refuseIf (readback ≠ manifest) (.session "session readback changed after creation")
      return manifest, sessions)

def create (buildId projectId operatorRequest : String) (provider : ProviderConfig)
    (unixTimeMs : UInt64) (sessions : Files) : Except RuntimeError SessionManifest × Files :=
  let manifest := newManifest buildId projectId operatorRequest provider unixTimeMs
  match (do
    validateIdentity buildId projectId operatorRequest
    validateManifest manifest) with
  | .error error => (.error error, sessions)
  | .ok () => writeManifest manifest sessions

section RoundTrip

variable {manifest : SessionManifest}

def sanitizeManifest (manifest : SessionManifest) : SessionManifest :=
  { manifest with
    buildId := sanitize manifest.buildId
    projectId := sanitize manifest.projectId
    operatorRequest := sanitize manifest.operatorRequest
    initialProvider := sanitize manifest.initialProvider
    initialModel := sanitize manifest.initialModel
    initialProviderIdentityHash := sanitize manifest.initialProviderIdentityHash
    manifestHash := sanitize manifest.manifestHash }

theorem fits_manifestDoc (manifest : SessionManifest) :
    Fits (maxDepth + 1) (manifestDoc manifest) := by
  apply fits_object ⟨by simp, by simp only [List.map]; decide⟩
  simp only [List.forall_mem_cons, List.not_mem_nil, false_imp_iff, implies_true, and_true]
  exact ⟨fits_numberDoc _ _, trivial, trivial, trivial, trivial, trivial, trivial,
    fits_numberDoc _ _, trivial⟩

theorem parseManifest_manifestJson (manifest : SessionManifest) :
    parseManifest (manifestJson manifest) = .ok (sanitizeManifest manifest) := by
  have hs : ∀ key value, (manifestDoc manifest).get key = some (.string value) →
      requiredString (clean (manifestDoc manifest)) key = .ok (sanitize value) := by
    intro key value h
    rw [requiredString, get_clean h, clean]
    rfl
  have hn : ∀ key (n : UInt64), (manifestDoc manifest).get key = some (numberDoc n.toNat) →
      requiredU64 (clean (manifestDoc manifest)) key = .ok n := by
    intro key n h
    rw [requiredU64, get_clean h, clean_numberDoc, Option.bind_some, asU64_numberDoc, okOr_some]
  rw [parseManifest, manifestJson, parse_render (fits_manifestDoc manifest)]
  simp only [Except.mapError, ok_bind, manifestFromJson]
  rw [hn "schema_version" manifest.schemaVersion.toUInt64 rfl, hs "build_id" _ rfl,
    hs "project_id" _ rfl, hs "operator_request" _ rfl, hs "initial_provider" _ rfl,
    hs "initial_model" _ rfl, hs "initial_provider_identity_hash" _ rfl,
    hn "created_at_unix_ms" _ rfl, hs "manifest_hash" _ rfl]
  simp [ok_bind, sanitizeManifest, pure, Except.pure]

theorem fromUTF8?_manifestJson (manifest : SessionManifest) :
    String.fromUTF8? (manifestJson manifest).toByteArray = some (manifestJson manifest) :=
  fromUTF8?_toByteArray _

theorem load_written {sessions : Files}
    (hlookup : sessions.lookup (sessionName manifest.buildId) =
      some (manifestJson manifest).toByteArray)
    (hvalid : validateManifest manifest = .ok ()) (hclean : sanitizeManifest manifest = manifest) :
    load manifest.buildId sessions = .ok manifest := by
  rw [load, hlookup, okOr_some, ok_bind, fromUTF8?_manifestJson, okOr_some, ok_bind,
    parseManifest_manifestJson, hclean, ok_bind,
    (refuseIf_eq_ok (u := ())).mpr (not_not.mpr rfl), ok_bind, hvalid]
  rfl

end RoundTrip

section New

variable {buildId projectId operatorRequest : String} {provider : ProviderConfig} {now : UInt64}

theorem validateManifest_new :
    validateManifest (newManifest buildId projectId operatorRequest provider now) = .ok () ↔
      validateIdentity buildId projectId operatorRequest = .ok () ∧
        isBlank provider.model = false := by
  have hkind : isBlank provider.kind.asStr = false := by
    cases provider.kind <;> decide +kernel
  simp only [validateManifest, bind_eq_ok, refuseIf_eq_ok, newManifest, hkind, not_or, ne_eq,
    validSha256Tag_sha256Tagged, not_not, Bool.false_eq_true, not_false_eq_true, true_and,
    reduceCtorEq, Bool.not_eq_true]
  constructor
  · rintro ⟨_, hidentity, hmodel, -⟩
    exact ⟨hidentity, hmodel⟩
  · rintro ⟨hidentity, hmodel⟩
    refine ⟨(), hidentity, hmodel, ?_, rfl⟩
    simp [SessionStore.manifestHash, validSha256Tag_sha256Tagged]

theorem sanitizeManifest_new
    (hidentity : validateIdentity buildId projectId operatorRequest = .ok ()) :
    sanitizeManifest (newManifest buildId projectId operatorRequest provider now) =
        newManifest buildId projectId operatorRequest provider now ↔
      Lossless operatorRequest ∧ Lossless provider.model := by
  obtain ⟨hbuild, ⟨-, -, hproject⟩, -⟩ := validateIdentity_eq_ok.mp hidentity
  simp only [isSafeSessionId, Bool.and_eq_true] at hbuild
  have hbuildId : sanitize buildId = buildId := by
    rw [sanitize_eq_self_iff]
    exact lossless_of_idChars hbuild.2
  have hprojectId : sanitize projectId = projectId := by
    rw [sanitize_eq_self_iff]
    intro c hc
    apply lossy_of_not_control
    simpa using List.any_eq_false.mp hproject c hc
  have hkind : sanitize provider.kind.asStr = provider.kind.asStr := by
    rw [sanitize_eq_self_iff]
    cases provider.kind <;> decide +kernel
  have htag : ∀ bytes, sanitize (sha256Tagged bytes) = sha256Tagged bytes := fun bytes =>
    (sanitize_eq_self_iff _).mpr (lossless_sha256Tagged bytes)
  rw [← sanitize_eq_self_iff, ← sanitize_eq_self_iff]
  simp only [sanitizeManifest, newManifest, hbuildId, hprojectId, hkind, htag,
    SessionStore.manifestHash, SessionManifest.mk.injEq, true_and, and_true]

theorem load_new {sessions : Files}
    (hidentity : validateIdentity buildId projectId operatorRequest = .ok ())
    (hmodel : isBlank provider.model = false)
    (hlossless : Lossless operatorRequest ∧ Lossless provider.model) :
    load buildId (sessions.insert (sessionName buildId)
      (manifestJson (newManifest buildId projectId operatorRequest provider now)).toByteArray) =
      .ok (newManifest buildId projectId operatorRequest provider now) := by
  refine @load_written (newManifest buildId projectId operatorRequest provider now) _ ?_
    (validateManifest_new.mpr ⟨hidentity, hmodel⟩) ((sanitizeManifest_new hidentity).mpr hlossless)
  rw [Catalog.lookup_insert]
  exact if_pos rfl

end New

end AtomVibe.SessionStore
