import AtomVibe.JsonCodec
import AtomVibe.Secrets
import AtomVibe.WorkExpansion

/-!
What a provider may answer to a packet. `RustText` is what the checks use of the standard
library's tables: Unicode lower case and alphanumerics, and the text of a printed `HashSet`.
-/

namespace AtomVibe.Work

open Checked Text Json Secrets

structure RustText where
  toLowercase : List Char → List Char
  isAlphanumeric : Char → Bool
  debugSet : List String → String

structure ValidatedPacketOutput where
  context : String
  files : List WorkFile
  deriving DecidableEq

def extractJsonPayload (output : String) : Except WorkError String := do
  let trimmed := trim output
  refuseIf (startsWith "\x7b" trimmed = false ∨ endsWith "\x7d" trimmed = false)
    (.invalidOutput "JSON packet must contain one raw object without a fence or prose")
  return trimmed

def sameFields (fields : List (String × JsonValue)) (expected : List String) : Bool :=
  fields.all (fun field => field.1 ∈ expected) && expected.all fun key => key ∈ fields.map Prod.fst

def requireExactFields (rust : RustText) (value : JsonValue) (expected : List String) :
    Except WorkError Unit := do
  let fields ← okOr (.invalidOutput "packet output must be an object") value.asObject
  refuseIf (sameFields fields expected = false)
    (.invalidOutput ("packet fields differ: expected " ++ rust.debugSet expected ++ ", got " ++
      rust.debugSet (fields.map Prod.fst)))

def requiredString (value : JsonValue) (key : String) : Except WorkError String :=
  okOr (.invalidOutput (key ++ " must be a string")) ((value.get key).bind JsonValue.asStr)

def requiredStrings (value : JsonValue) (key : String) (nonEmpty : Bool) :
    Except WorkError (List String) := do
  let values ← okOr (.invalidOutput (key ++ " must be an array"))
    ((value.get key).bind JsonValue.asArray)
  refuseIf (nonEmpty = true ∧ values = []) (.invalidOutput (key ++ " must not be empty"))
  values.mapM fun value => do
    let item ← okOr (.invalidOutput (key ++ " entries must be strings")) value.asStr
    let item := trim item
    refuseIf (item = "") (.invalidOutput (key ++ " contains an empty entry"))
    return item

def requireIdentity (packet : WorkPacket) (value : JsonValue) : Except WorkError Unit := do
  let packetId ← requiredString value "packet_id"
  refuseIf (packetId ≠ packet.id)
    (.invalidOutput ("packet id mismatch: expected " ++ packet.id ++ ", got " ++ packetId))
  let status ← requiredString value "status"
  refuseIf (status ≠ "complete")
    (.invalidOutput ("packet " ++ packet.id ++ " status must be complete"))

def stageRequiresClosedRisks : WorkStage → Bool
  | .closureGroup | .integrationClosure | .releaseGroup | .releaseVerification | .finalization =>
    true
  | _ => false

def parsePayload (output : String) : Except WorkError JsonValue := do
  let payload ← extractJsonPayload output
  (parse payload).mapError fun error => .invalidOutput error.display

def validateEnvelope (rust : RustText) (packet : WorkPacket) (output : String) :
    Except WorkError ValidatedPacketOutput := do
  let value ← parsePayload output
  requireExactFields rust value ["packet_id", "status", "result", "checks", "risks"]
  requireIdentity packet value
  let result ← requiredString value "result"
  refuseIf (isBlank result = true) (.invalidOutput "packet result is empty")
  let _ ← requiredStrings value "checks" true
  let risks ← requiredStrings value "risks" false
  refuseIf (stageRequiresClosedRisks packet.stage = true ∧ risks ≠ [])
    (.invalidOutput ("packet " ++ packet.id ++ " cannot close with unresolved risks"))
  return { context := trim output, files := [] }

def parseManifestFile (rust : RustText) (entry : JsonValue) : Except WorkError WorkFile := do
  requireExactFields rust entry ["path", "purpose", "acceptance"]
  let path ← requiredString entry "path"
  let purpose ← requiredString entry "purpose"
  let acceptance ← requiredStrings entry "acceptance" true
  return { path, purpose := trim purpose, acceptance }

def validateManifest (rust : RustText) (packet : WorkPacket) (output : String) :
    Except WorkError ValidatedPacketOutput := do
  let value ← parsePayload output
  requireExactFields rust value ["packet_id", "status", "files", "checks", "risks"]
  requireIdentity packet value
  let _ ← requiredStrings value "checks" true
  let _ ← requiredStrings value "risks" false
  let entries ← okOr (.invalidManifest "files must be an array")
    ((value.get "files").bind JsonValue.asArray)
  let files ← entries.mapM (parseManifestFile rust)
  return { context := trim output, files }

def isWordChar (rust : RustText) (c : Char) : Bool := rust.isAlphanumeric c || c == '_'

def containsWordFrom (rust : RustText) (word : List Char) : Option Char → List Char → Bool
  | _, [] => false
  | before, c :: cs =>
    (word.isPrefixOf (c :: cs) && !before.any (isWordChar rust) &&
        !((c :: cs).drop word.length).head?.any (isWordChar rust)) ||
      containsWordFrom rust word (some c) cs

def forbiddenNeedles : List (String × String) :=
  [("todo!", "todo macro"), ("unimplemented!", "unimplemented macro"),
    ("panic!(\"todo\")", "todo panic"), ("panic!('todo')", "todo panic"),
    ("[placeholder]", "placeholder sentinel")]

def deferredPhrases : List String :=
  ["not implemented", "not yet implemented", "implementation omitted", "code omitted",
    "rest omitted", "insert code here", "same as above"]

def incompleteWords : List String := ["todo", "fixme", "stub", "placeholder"]

def lineMarker (rust : RustText) (line : List Char) : Option String :=
  let line := trimChars line
  let comment := ["//", "#", "/*", "*", "<!--"].any fun opening => opening.toList.isPrefixOf line
  if line = "...".toList then some "omitted-content ellipsis"
  else if deferredPhrases.any (fun marker => contains marker.toList line) then
    some "deferred implementation phrase"
  else if comment && incompleteWords.any (fun word => containsWordFrom rust word.toList none line)
    then some "incomplete-code comment"
  else none

def incompleteCodeMarker (rust : RustText) (content : List Char) : Option String :=
  let lower := rust.toLowercase content
  let compact := lower.filter fun c => !isWhitespace c
  match forbiddenNeedles.find? fun needle => contains needle.1.toList compact with
  | some needle => some needle.2
  | none => (linesFrom [] lower).findSome? (lineMarker rust)

def fence : List Char := "```".toList

def fileArtifactContent (rust : RustText) (packet : WorkPacket) (output : String) :
    Except WorkError (List Char) := do
  let trimmed := (trim output).toList
  refuseIf (fence.isPrefixOf trimmed = false ∨ fence.isSuffixOf trimmed = false)
    (.invalidOutput ("packet " ++ packet.id ++ " must return exactly one fenced file"))
  let firstNewline ← okOr
    (.invalidOutput ("packet " ++ packet.id ++ " file fence has no content"))
    (trimmed.findIdx? (· == '\n'))
  let contentEnd := trimmed.length - 3
  let content := (trimmed.take contentEnd).drop (firstNewline + 1)
  refuseIf (contentEnd ≤ firstNewline + 1 ∨ content.all isWhitespace = true ∨
      contains fence content = true)
    (.invalidOutput ("packet " ++ packet.id ++ " contains an empty or multiple file fence"))
  match incompleteCodeMarker rust content with
  | some marker => .error (.invalidOutput ("packet " ++ packet.id ++
      " contains forbidden incomplete-code marker " ++ marker))
  | none => return content

def validateFileArtifact (rust : RustText) (packet : WorkPacket) (output : String) :
    Except WorkError ValidatedPacketOutput := do
  let _ ← fileArtifactContent rust packet output
  return { context := trim output, files := [] }

def validatePacketOutput (rust : RustText) (packet : WorkPacket) (output : String) :
    Except WorkError ValidatedPacketOutput := do
  refuseIf (packet.maxOutputBytes < output.utf8ByteSize ∨
      maxPacketOutputBytes < output.utf8ByteSize)
    (.outputTooLarge packet.id (min packet.maxOutputBytes maxPacketOutputBytes))
  refuseIf (isBlank output = true)
    (.invalidOutput ("packet " ++ packet.id ++ " returned empty output"))
  match packet.contract with
  | .envelope => validateEnvelope rust packet output
  | .fileManifest => validateManifest rust packet output
  | .fileArtifact => validateFileArtifact rust packet output

def validateSecurePacketOutput (rust : RustText) (packet : WorkPacket) (output : String) :
    Except WorkError ValidatedPacketOutput :=
  match packet.contract with
  | .fileArtifact => do
    refuseIf (containsCredentialMaterial output = true)
      (.invalidOutput ("packet " ++ packet.id ++ " file artifact contains credential material"))
    validatePacketOutput rust packet output
  | .envelope | .fileManifest => validatePacketOutput rust packet (redactSensitiveText output)

end AtomVibe.Work
