import AtomVibe.BuildProtocol
import AtomVibe.ChainFiles
import AtomVibe.JsonCodec
import AtomVibe.Secrets

/-!
The scratchpad store: one chain of entry files for each build and provider-model identity. File
operations succeed here; what can fail is what the code itself refuses.
-/

namespace AtomVibe.Scratchpad

open Checked Text Json JsonText JsonCodec Hash Secrets BuildProtocol ChainFiles

def schemaVersion : UInt32 := 1

def maxScratchpadEntries : ℕ := 512

def maxEntryBytes : ℕ := 64 * 1024

def maxScratchpadBytes : ℕ := 4 * 1024 * 1024

def maxSourceIds : ℕ := 64

inductive ScratchpadError
  | invalidScope (reason : String)
  | invalidEntry (reason : String)
  | limitExceeded (reason : String)
  | evidence (reason : String)
  | sealed
  | json (reason : String)
  | io (reason : String)
  deriving DecidableEq

def ScratchpadError.display : ScratchpadError → String
  | .invalidScope reason => "invalid scratchpad scope: " ++ reason
  | .invalidEntry reason => "invalid scratchpad entry: " ++ reason
  | .limitExceeded reason => "scratchpad limit exceeded: " ++ reason
  | .evidence reason => "scratchpad evidence failed: " ++ reason
  | .sealed => "scratchpad is sealed"
  | .json reason => "scratchpad JSON failed: " ++ reason
  | .io reason => "scratchpad I/O failed: " ++ reason

structure ScratchpadScope where
  buildId : String
  modelScopeHash : String
  deriving DecidableEq

inductive ScratchpadEntryKind
  | observation
  | decision
  | packetOutput
  | gateFailure
  | correction
  | checkpoint
  deriving DecidableEq, Repr

namespace ScratchpadEntryKind

def all : List ScratchpadEntryKind :=
  [observation, decision, packetOutput, gateFailure, correction, checkpoint]

def asStr : ScratchpadEntryKind → String
  | observation => "observation"
  | decision => "decision"
  | packetOutput => "packet_output"
  | gateFailure => "gate_failure"
  | correction => "correction"
  | checkpoint => "checkpoint"

def parse (value : String) : Option ScratchpadEntryKind := all.find? fun kind => kind.asStr == value

theorem parse_asStr (kind : ScratchpadEntryKind) : parse kind.asStr = some kind := by
  cases kind <;> decide

end ScratchpadEntryKind

structure ScratchpadEntry where
  schemaVersion : UInt32
  ordinal : UInt64
  buildId : String
  modelScopeHash : String
  step : Option BuildStep
  kind : ScratchpadEntryKind
  content : String
  contentHash : String
  previousHash : String
  entryHash : String
  sourceIds : List String
  createdAtUnixMs : UInt64
  deriving DecidableEq

def isBuildIdChar (c : Char) : Bool := isAsciiLowercase c || isAsciiDigit c || c == '-'

def validateBuildId (value : String) : Except ScratchpadError Unit :=
  if value = "" || 160 < value.utf8ByteSize || !value.toList.all isBuildIdChar then
    .error (.invalidScope ("unsafe build id: " ++ value))
  else .ok ()

def ScratchpadScope.validate (scope : ScratchpadScope) : Except ScratchpadError Unit := do
  validateBuildId scope.buildId
  if validSha256Tag scope.modelScopeHash then .ok ()
  else .error (.invalidScope "model scope is not a SHA-256 identity")

def validateContent (value : String) : Except ScratchpadError Unit :=
  if isBlank value || maxEntryBytes < value.utf8ByteSize then
    .error (.invalidEntry ("content must be nonempty and no larger than " ++ maxEntryBytes.repr ++
      " bytes"))
  else .ok ()

def validateSourceIds (values : List String) : Except ScratchpadError Unit :=
  if maxSourceIds < values.length || values.any (fun value =>
      trim value != value || value == "" || 512 < value.utf8ByteSize || value.toList.any isControl)
  then .error (.invalidEntry ("source ids must contain at most " ++ maxSourceIds.repr ++
    " bounded values"))
  else .ok ()

def encodeValue (value : String) : List Char :=
  value.utf8ByteSize.repr.toList ++ ':' :: value.toList

def encodeSequence (values : List String) : String := String.ofList (values.flatMap encodeValue)

structure EntryHashInput where
  ordinal : UInt64
  previousHash : String
  step : Option BuildStep
  kind : ScratchpadEntryKind
  contentHash : String
  sourceIds : List String
  createdAtUnixMs : UInt64
  deriving DecidableEq

def hashFields (scope : ScratchpadScope) (input : EntryHashInput) : List String :=
  [schemaVersion.toNat.repr, scope.buildId, scope.modelScopeHash, input.ordinal.toNat.repr,
    input.previousHash, (input.step.map BuildStep.asStr).getD "", input.kind.asStr,
    input.contentHash, encodeSequence input.sourceIds, input.createdAtUnixMs.toNat.repr]

def hashPreimage (scope : ScratchpadScope) (input : EntryHashInput) : List UInt8 :=
  asBytes (encodeSequence (hashFields scope input))

def computeEntryHash (scope : ScratchpadScope) (input : EntryHashInput) : String :=
  sha256Tagged (hashPreimage scope input)

def ScratchpadEntry.hashInput (entry : ScratchpadEntry) : EntryHashInput :=
  ⟨entry.ordinal, entry.previousHash, entry.step, entry.kind, entry.contentHash, entry.sourceIds,
    entry.createdAtUnixMs⟩

def ScratchpadEntry.create (scope : ScratchpadScope) (ordinal : UInt64) (previousHash : String)
    (step : Option BuildStep) (kind : ScratchpadEntryKind) (content : String)
    (sourceIds : List String) (unixTimeMs : UInt64) : Except ScratchpadError ScratchpadEntry := do
  validateContent content
  validateSourceIds sourceIds
  let contentHash := sha256Tagged (asBytes content)
  let entryHash := computeEntryHash scope
    ⟨ordinal, previousHash, step, kind, contentHash, sourceIds, unixTimeMs⟩
  return ⟨Scratchpad.schemaVersion, ordinal, scope.buildId, scope.modelScopeHash, step, kind,
    content, contentHash, previousHash, entryHash, sourceIds, unixTimeMs⟩

def ScratchpadEntry.validate (entry : ScratchpadEntry) (scope : ScratchpadScope)
    (expectedOrdinal : UInt64) (expectedPreviousHash : String) : Except ScratchpadError Unit := do
  if entry.schemaVersion ≠ Scratchpad.schemaVersion || entry.ordinal ≠ expectedOrdinal ||
      entry.buildId ≠ scope.buildId || entry.modelScopeHash ≠ scope.modelScopeHash ||
      entry.previousHash ≠ expectedPreviousHash then
    .error (.evidence ("scratchpad chain header is invalid at entry " ++ entry.ordinal.toNat.repr))
  else
    validateContent entry.content
    validateSourceIds entry.sourceIds
    if entry.contentHash ≠ sha256Tagged (asBytes entry.content) then
      .error (.evidence ("scratchpad content hash failed at entry " ++ entry.ordinal.toNat.repr))
    else if entry.entryHash ≠ computeEntryHash scope entry.hashInput then
      .error (.evidence ("scratchpad entry hash failed at entry " ++ entry.ordinal.toNat.repr))
    else .ok ()

def entryToJson (entry : ScratchpadEntry) : String :=
  objectText
    [("schema_version", entry.schemaVersion.toNat.repr),
      ("ordinal", entry.ordinal.toNat.repr),
      ("build_id", quote entry.buildId),
      ("model_scope_hash", quote entry.modelScopeHash),
      ("step", (entry.step.map fun step => "\"" ++ step.asStr ++ "\"").getD "null"),
      ("kind", "\"" ++ entry.kind.asStr ++ "\""),
      ("content", quote entry.content),
      ("content_hash", quote entry.contentHash),
      ("previous_hash", quote entry.previousHash),
      ("entry_hash", quote entry.entryHash),
      ("source_ids", arrayText (entry.sourceIds.map quote)),
      ("created_at_unix_ms", entry.createdAtUnixMs.toNat.repr)]

def stringField : JsonValue → String → Except ScratchpadError String :=
  JsonCodec.stringField ScratchpadError.invalidEntry

def numberField : JsonValue → String → Except ScratchpadError UInt64 :=
  JsonCodec.numberField ScratchpadError.invalidEntry

def parseStep (root : JsonValue) : Except ScratchpadError (Option BuildStep) :=
  match root.get "step" with
  | some .null => .ok none
  | some (.string value) =>
    (okOr (.invalidEntry ("unknown build step: " ++ value)) (BuildStep.parse value)).map some
  | _ => .error (.invalidEntry "entry step must be a string or null")

def parseSourceIds (root : JsonValue) : Except ScratchpadError (List String) := do
  let values ← okOr (.invalidEntry "source_ids must be an array")
    ((root.get "source_ids").bind JsonValue.asArray)
  values.mapM fun value => okOr (.invalidEntry "source id must be a string") value.asStr

def entryFromJson (root : JsonValue) : Except ScratchpadError ScratchpadEntry := do
  let step ← parseStep root
  let kindText ← stringField root "kind"
  let kind ← okOr (.invalidEntry ("unknown scratchpad kind: " ++ kindText))
    (ScratchpadEntryKind.parse kindText)
  let sourceIds ← parseSourceIds root
  let schemaVersion ← numberField root "schema_version"
  let ordinal ← numberField root "ordinal"
  let buildId ← stringField root "build_id"
  let modelScopeHash ← stringField root "model_scope_hash"
  let content ← stringField root "content"
  let contentHash ← stringField root "content_hash"
  let previousHash ← stringField root "previous_hash"
  let entryHash ← stringField root "entry_hash"
  let createdAtUnixMs ← numberField root "created_at_unix_ms"
  return ⟨schemaVersion.toUInt32, ordinal, buildId, modelScopeHash, step, kind, content,
    contentHash, previousHash, entryHash, sourceIds, createdAtUnixMs⟩

def parseEntry (input : String) : Except ScratchpadError ScratchpadEntry :=
  match parse input with
  | .error error => .error (.json error.display)
  | .ok root => entryFromJson root

structure SealFile where
  bytes : ByteArray
  modifiedUnixMs : Option ℕ

structure ScratchpadFiles where
  scope : Option ByteArray
  sealFile : Option SealFile
  entries : Files

/-- An opened store; `open` validates the scope. -/
structure ScratchpadStore where
  root : String
  scope : ScratchpadScope
  valid : scope.validate = .ok ()

namespace ScratchpadStore

variable (store : ScratchpadStore)

def scopeDir : String :=
  store.root ++ "/" ++ store.scope.buildId ++ "/" ++
    trimStartMatches "sha256:" store.scope.modelScopeHash

/-- `fs::read_to_string` on a file that exists. -/
def readToString (bytes : ByteArray) : Except ScratchpadError String :=
  okOr (.io (redactSensitiveText "stream did not contain valid UTF-8")) (String.fromUTF8? bytes)

def scopeBody : String :=
  objectText
    [("schema_version", schemaVersion.toNat.repr), ("build_id", quote store.scope.buildId),
      ("model_scope_hash", quote store.scope.modelScopeHash)]

def writeOrVerifyScope (files : ScratchpadFiles) : Except ScratchpadError Unit × ScratchpadFiles :=
  match files.scope with
  | some bytes =>
    (do
      let text ← readToString bytes
      if text ≠ store.scopeBody then .error (.evidence "scratchpad scope manifest changed")
      else .ok (), files)
  | none => (.ok (), { files with scope := some store.scopeBody.toByteArray })

def sealClockToleranceMs : ℕ := 60000

def lastEntryHash (entries : List ScratchpadEntry) : String :=
  (entries.getLast?.map (·.entryHash)).getD ""

def verifySeal (file : SealFile) (entries : List ScratchpadEntry) :
    Except ScratchpadError Unit := do
  let text ← readToString file.bytes
  let root ← (parse text).mapError fun error => ScratchpadError.json error.display
  let count ← numberField root "entry_count"
  let buildId ← stringField root "build_id"
  let modelScopeHash ← stringField root "model_scope_hash"
  let lastHash ← stringField root "last_entry_hash"
  let sealedAtUnixMs ← numberField root "sealed_at_unix_ms"
  if count.toNat ≠ entries.length || buildId ≠ store.scope.buildId ||
      modelScopeHash ≠ store.scope.modelScopeHash || lastHash ≠ lastEntryHash entries then
    .error (.evidence "scratchpad seal does not match the entry chain")
  else if file.modifiedUnixMs.any fun modified =>
      sealedAtUnixMs.toNat + sealClockToleranceMs < modified then
    .error (.evidence
      "scratchpad seal file's on-disk write time does not match its recorded seal time")
  else .ok ()

/-- `if self.seal_path().exists() { self.verify_seal(&entries)?; }` -/
def verifySealFile (sealFile : Option SealFile) (entries : List ScratchpadEntry) :
    Except ScratchpadError Unit :=
  match sealFile with
  | some file => store.verifySeal file entries
  | none => .ok ()

def entryName (entry : ScratchpadEntry) : String :=
  numberedName entry.ordinal.toNat entry.entryHash

def loadEntries : ℕ → String → ℕ → List (String × ByteArray) →
    Except ScratchpadError (List ScratchpadEntry)
  | _, _, _, [] => .ok []
  | index, previousHash, totalBytes, (name, bytes) :: paths => do
    let text ← readToString bytes
    let entry ← parseEntry text
    entry.validate store.scope (UInt64.ofNat index + 1) previousHash
    if name ≠ entryName entry then
      .error (.evidence ("scratchpad filename does not match entry " ++ entry.ordinal.toNat.repr))
    else
      let totalBytes := totalBytes + entry.content.utf8ByteSize
      if maxScratchpadBytes < totalBytes then
        .error (.limitExceeded ("scratchpad content exceeds " ++ maxScratchpadBytes.repr ++
          " bytes"))
      else
        let entries ← loadEntries (index + 1) entry.entryHash totalBytes paths
        return entry :: entries

def loadChain (files : ScratchpadFiles) : Except ScratchpadError (List ScratchpadEntry) := do
  let paths := jsonFiles files.entries
  if maxScratchpadEntries < paths.length then
    .error (.limitExceeded ("scratchpad contains more than " ++ maxScratchpadEntries.repr ++
      " entries"))
  else
    let entries ← store.loadEntries 0 "" 0 paths
    store.verifySealFile files.sealFile entries
    return entries

def loadUnlocked (files : ScratchpadFiles) :
    Except ScratchpadError (List ScratchpadEntry) × ScratchpadFiles :=
  match store.writeOrVerifyScope files with
  | (.error error, files) => (.error error, files)
  | (.ok (), files) => (store.loadChain files, files)

def load (files : ScratchpadFiles) :
    Except ScratchpadError (List ScratchpadEntry) × ScratchpadFiles :=
  store.loadUnlocked files

def contentBytes (entries : List ScratchpadEntry) : ℕ :=
  (entries.map fun entry => entry.content.utf8ByteSize).sum

def readBack (entry : ScratchpadEntry) (bytes : ByteArray) :
    Except ScratchpadError ScratchpadEntry := do
  let text ← readToString bytes
  let readback ← parseEntry text
  readback.validate store.scope entry.ordinal entry.previousHash
  if readback ≠ entry then .error (.evidence "scratchpad entry readback changed") else .ok entry

def writeEntry (entry : ScratchpadEntry) (files : ScratchpadFiles) :
    Except ScratchpadError ScratchpadEntry × ScratchpadFiles :=
  let name := entryName entry
  let bytes := (entryToJson entry).toByteArray
  let path := store.scopeDir ++ "/entries/" ++ name
  match writeNewAtomic (ScratchpadError.evidence ("immutable scratchpad conflict at " ++ path))
      files.entries name bytes with
  | (.error error, entryFiles) => (.error error, { files with entries := entryFiles })
  | (.ok (), entryFiles) =>
    (store.readBack entry ((entryFiles.lookup name).getD bytes), { files with entries := entryFiles })

def appendEntry (unixTimeMs : UInt64) (step : Option BuildStep) (kind : ScratchpadEntryKind)
    (redacted : String) (sourceIds : List String) (entries : List ScratchpadEntry)
    (files : ScratchpadFiles) : Except ScratchpadError ScratchpadEntry × ScratchpadFiles :=
  if maxScratchpadBytes < contentBytes entries + redacted.utf8ByteSize then
    (.error (.limitExceeded ("scratchpad content limit is " ++ maxScratchpadBytes.repr ++
      " bytes")), files)
  else
    match ScratchpadEntry.create store.scope (UInt64.ofNat entries.length + 1)
        (lastEntryHash entries) step kind redacted sourceIds unixTimeMs with
    | .error error => (.error error, files)
    | .ok entry => store.writeEntry entry files

def append (unixTimeMs : UInt64) (step : Option BuildStep) (kind : ScratchpadEntryKind)
    (content : String) (sourceIds : List String) (files : ScratchpadFiles) :
    Except ScratchpadError ScratchpadEntry × ScratchpadFiles :=
  if files.sealFile.isSome then (.error .sealed, files)
  else
    match store.loadUnlocked files with
    | (.error error, files) => (.error error, files)
    | (.ok entries, files) =>
      if maxScratchpadEntries ≤ entries.length then
        (.error (.limitExceeded ("scratchpad entry limit is " ++ maxScratchpadEntries.repr)), files)
      else
        store.appendEntry unixTimeMs step kind (redactSensitiveText content) sourceIds entries files

end ScratchpadStore

end AtomVibe.Scratchpad
