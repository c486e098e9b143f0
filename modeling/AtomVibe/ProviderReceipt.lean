import AtomVibe.Provider

namespace AtomVibe.Provider

open Checked Text Hash Json

structure TokenUsage where
  inputTokens : Option UInt64
  outputTokens : Option UInt64
  reasoningTokens : Option UInt64
  deriving DecidableEq

structure ThinkingEvidence where
  source : String
  reasoningTokens : Option UInt64
  deriving DecidableEq

structure ProviderTurnReceipt where
  requestId : String
  provider : String
  model : String
  text : String
  requestBodyHash : String
  rawResponseHash : String
  outputHash : String
  elapsedMs : ℕ
  usage : TokenUsage
  thinking : ThinkingEvidence
  deriving DecidableEq

structure ReceiptInput where
  requestId : String
  requestBody : String
  rawResponse : String
  elapsedMs : ℕ
  outputLimit : ℕ

def maxProviderResponseBytes : ℕ := 16 * 1024 * 1024

def isPathSegment (segment : List Char) : Bool :=
  segment ≠ [] && segment.all fun c => isAsciiAlphanumeric c || c == '_' || c == '-'

def jsonPath (root : JsonValue) (path : String) : Option JsonValue :=
  (splitOn '.' path.toList).foldlM (fun (current : JsonValue) segment =>
    if isPathSegment segment then current.get (String.ofList segment) else none) root

def textAt (value : JsonValue) (key : String) : Option String := (value.get key).bind (·.asStr)

def countAt (value : Option JsonValue) (key : String) : Option UInt64 :=
  (value.bind (·.get key)).bind (·.asU64)

def hasType (types : List String) (block : JsonValue) : Bool :=
  types.any fun type => textAt block "type" == some type

def outputTypes : List String := ["output_text", "text"]

def thinkingTypes : List String := ["reasoning", "thinking"]

def blockText (block : JsonValue) : Option String :=
  if hasType outputTypes block then textAt block "text" else none

def responsesText (root : JsonValue) : Option String :=
  match textAt root "output_text" with
  | some text => some text
  | none => do
    let items ← (← root.get "output").asArray
    items.findSome? fun item =>
      (((item.get "content").bind (·.asArray)).getD []).findSome? blockText

def chatText (root : JsonValue) : Option String := do
  let choices ← (← root.get "choices").asArray
  let content ← (← (← choices.head?).get "message").get "content"
  match content.asStr with
  | some text => some text
  | none => do
    let output := String.join ((← content.asArray).filterMap blockText)
    if output = "" then none else some output

def responseText (root : JsonValue) (config : ProviderConfig) :
    Except ProviderAdapterError String :=
  let preferred := trim config.responseKey
  let chosen := if preferred ≠ "" ∧ preferred ≠ "output_text" then
      (jsonPath root preferred).bind (·.asStr) else none
  match chosen with
  | some text => .ok text
  | none =>
    okOr (.invalidResponse "provider text field was not found")
      (match config.wireFormat with
        | .openAiResponses => responsesText root
        | .chatCompletions => chatText root
        | .ollamaChat => (root.get "message").bind (textAt · "content"))

def tokenUsage (root : JsonValue) (wireFormat : ProviderWireFormat) : TokenUsage :=
  let usage := root.get "usage"
  match wireFormat with
  | .openAiResponses => ⟨countAt usage "input_tokens", countAt usage "output_tokens",
      countAt (usage.bind (·.get "output_tokens_details")) "reasoning_tokens"⟩
  | .chatCompletions => ⟨countAt usage "prompt_tokens", countAt usage "completion_tokens",
      countAt (usage.bind (·.get "completion_tokens_details")) "reasoning_tokens"⟩
  | .ollamaChat => ⟨countAt (some root) "prompt_eval_count", countAt (some root) "eval_count", none⟩

def saysSomething (text : Option String) : Bool := text.any fun text => !isBlank text

def chatThinkingSource (message : JsonValue) : Option String :=
  if saysSomething (textAt message "reasoning_content") then some "message.reasoning_content"
  else if (((message.get "content").bind (·.asArray)).getD []).any (hasType thinkingTypes) then
    some "message.reasoning_block"
  else none

def thinkingSource (root : JsonValue) (wireFormat : ProviderWireFormat) : Option String :=
  match wireFormat with
  | .openAiResponses =>
    if (((root.get "output").bind (·.asArray)).getD []).any (hasType thinkingTypes) then
      some "response.reasoning_block"
    else none
  | .chatCompletions => do
    let choices ← (← root.get "choices").asArray
    chatThinkingSource (← (← choices.head?).get "message")
  | .ollamaChat =>
    if saysSomething ((root.get "message").bind (textAt · "thinking")) then
      some "message.thinking"
    else none

def thinkingEvidence (root : JsonValue) (wireFormat : ProviderWireFormat) (usage : TokenUsage) :
    Option ThinkingEvidence :=
  if usage.reasoningTokens.any (0 < ·) then
    some ⟨"usage.reasoning_tokens", usage.reasoningTokens⟩
  else (thinkingSource root wireFormat).map fun source => ⟨source, usage.reasoningTokens⟩

def isErrorEnvelope (root : JsonValue) : Bool :=
  match root.get "error" with
  | none | some .null => false
  | some _ => true

def parseReceipt (config : ProviderConfig) (input : ReceiptInput) :
    Except ProviderAdapterError ProviderTurnReceipt := do
  refuseIf (maxProviderResponseBytes < input.rawResponse.utf8ByteSize)
    (.invalidResponse "response exceeded the transport byte limit")
  let root ← (parse input.rawResponse).mapError fun error => .invalidResponse error.display
  refuseIf (isErrorEnvelope root = true)
    (.invalidResponse "provider returned an error envelope")
  let usage := tokenUsage root config.wireFormat
  let thinking ← okOr .thinkingEvidenceMissing (thinkingEvidence root config.wireFormat usage)
  let text ← responseText root config
  refuseIf (isBlank text) (.invalidResponse "provider returned empty text")
  refuseIf (input.outputLimit < text.utf8ByteSize)
    (.outputTooLarge text.utf8ByteSize input.outputLimit)
  return {
    requestId := input.requestId
    provider := config.kind.asStr
    model := config.model
    text
    requestBodyHash := sha256Tagged (asBytes input.requestBody)
    rawResponseHash := sha256Tagged (asBytes input.rawResponse)
    outputHash := sha256Tagged (asBytes text)
    elapsedMs := input.elapsedMs
    usage
    thinking }

end AtomVibe.Provider
