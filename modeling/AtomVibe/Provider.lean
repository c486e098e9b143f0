import AtomVibe.Foundations.Checked
import AtomVibe.Hash

namespace AtomVibe.Provider

open Checked Text Hash

inductive ProviderKind
  | openAiResponses
  | ollamaCloudChat
  | mistralChat
  | deepSeekChat
  | custom
  deriving DecidableEq

def ProviderKind.asStr : ProviderKind → String
  | openAiResponses => "openai"
  | ollamaCloudChat => "ollama"
  | mistralChat => "mistral"
  | deepSeekChat => "deepseek"
  | custom => "custom"

inductive ProviderWireFormat
  | openAiResponses
  | chatCompletions
  | ollamaChat
  deriving DecidableEq

def ProviderWireFormat.asStr : ProviderWireFormat → String
  | openAiResponses => "responses"
  | chatCompletions => "chat"
  | ollamaChat => "ollama-chat"

inductive ProviderThinkingLevel
  | low
  | medium
  | high
  deriving DecidableEq

def ProviderThinkingLevel.asStr : ProviderThinkingLevel → String
  | low => "low"
  | medium => "medium"
  | high => "high"

structure ProviderConfig where
  kind : ProviderKind
  wireFormat : ProviderWireFormat
  endpoint : String
  model : String
  apiKeyEnv : String
  authHeader : String
  authScheme : String
  bodyTemplate : String
  responseKey : String
  thinkingLevel : Option ProviderThinkingLevel
  apiKeyPresent : Bool
  credentialScopeHash : String
  requestTimeoutSeconds : UInt64
  deriving DecidableEq

inductive ProviderTransportError
  | io (reason : String)
  | curlFailed (code : Option Int32) (httpStatus : Option UInt16) (stderr body : String)
  | responseTooLarge
  deriving DecidableEq

inductive ProviderAdapterError
  | invalidRequest (reason : String)
  | invalidConfiguration (reason : String)
  | credentialUnavailable (name : String)
  | credentialScopeChanged
  | transport (error : ProviderTransportError)
  | invalidResponse (reason : String)
  | thinkingEvidenceMissing
  | outputTooLarge (actual limit : ℕ)
  deriving DecidableEq

def debugOption {α : Type} (text : α → String) : Option α → String
  | some value => "Some(" ++ text value ++ ")"
  | none => "None"

def intText (n : ℤ) : String := if n < 0 then "-" ++ n.natAbs.repr else n.natAbs.repr

def ProviderTransportError.display : ProviderTransportError → String
  | io reason => "provider transport I/O failed: " ++ reason
  | curlFailed code httpStatus stderr body =>
    "provider HTTP failed code=" ++ debugOption (fun n : Int32 => intText n.toInt) code ++
      " status=" ++ debugOption (fun n : UInt16 => n.toNat.repr) httpStatus ++ " stderr=" ++
      stderr ++ " body=" ++ body
  | responseTooLarge => "provider response exceeded the byte limit"

def ProviderAdapterError.display : ProviderAdapterError → String
  | invalidRequest reason => "invalid provider request: " ++ reason
  | invalidConfiguration reason => "invalid provider configuration: " ++ reason
  | credentialUnavailable name => "provider credential " ++ name ++ " is unavailable"
  | credentialScopeChanged => "provider credential scope changed after configuration"
  | transport error => "provider transport failed: " ++ error.display
  | invalidResponse reason => "invalid provider response: " ++ reason
  | thinkingEvidenceMissing => "provider response did not contain thinking evidence"
  | outputTooLarge actual limit =>
    "provider output is " ++ actual.repr ++ " bytes; limit is " ++ limit.repr

def allowedEndpoints : List String :=
  ["https://", "http://localhost", "http://127.0.0.1", "http://[::1]"]

def validateConfig (config : ProviderConfig) : Except ProviderAdapterError Unit := do
  refuseIf (config.apiKeyPresent = false) (.credentialUnavailable config.apiKeyEnv)
  refuseIf (isBlank config.endpoint || !allowedEndpoints.any (startsWith · config.endpoint))
    (.invalidConfiguration "endpoint must use HTTPS or an explicit loopback HTTP address")
  refuseIf (isBlank config.model || isBlank config.apiKeyEnv || isBlank config.authHeader)
    (.invalidConfiguration "model, credential environment name, and auth header are required")
  refuseIf (config.thinkingLevel = none) (.invalidConfiguration "thinking must be enabled")
  refuseIf (config.requestTimeoutSeconds < 10 ∨ 1800 < config.requestTimeoutSeconds)
    (.invalidConfiguration "request timeout must be between 10 and 1800 seconds")

structure ProviderAdapter where
  config : ProviderConfig
  valid : validateConfig config = .ok ()

def ProviderAdapter.new (config : ProviderConfig) : Except ProviderAdapterError ProviderAdapter :=
  match h : validateConfig config with
  | .error error => .error error
  | .ok () => .ok ⟨config, h⟩

theorem ProviderAdapter.new_eq_ok {config : ProviderConfig} {adapter : ProviderAdapter} :
    new config = .ok adapter ↔ adapter.config = config := by
  obtain ⟨config', valid⟩ := adapter
  unfold new
  split
  · rename_i error h
    simp only [reduceCtorEq, false_iff]
    rintro rfl
    rw [valid] at h
    exact absurd h (by simp)
  · simp only [Except.ok.injEq, ProviderAdapter.mk.injEq]
    exact eq_comm

def providerIdentity (config : ProviderConfig) : String :=
  config.kind.asStr ++ "\x00" ++ config.wireFormat.asStr ++ "\x00" ++ config.endpoint ++ "\x00" ++
    config.model ++ "\x00" ++ (config.thinkingLevel.map (·.asStr)).getD "invalid"

def maxProviderInstructionsBytes : ℕ := 512 * 1024

def maxProviderDataBytes : ℕ := 4 * 1024 * 1024

def maxProviderOutputBytes : ℕ := 8 * 1024 * 1024

structure ProviderRequest where
  requestId : String
  systemInstructions : String
  data : String
  maxOutputBytes : ℕ
  deriving DecidableEq

def isRequestIdChar (c : Char) : Bool :=
  !isControl c && (isAsciiAlphanumeric c || "-_.:".toList.contains c)

namespace ProviderRequest

def new (requestId systemInstructions data : String) : ProviderRequest :=
  ⟨requestId, systemInstructions, data, maxProviderOutputBytes⟩

def validate (request : ProviderRequest) : Except ProviderAdapterError Unit := do
  refuseIf (trim request.requestId ≠ request.requestId ∨ request.requestId = "" ∨
      160 < request.requestId.utf8ByteSize ∨
      request.requestId.toList.all isRequestIdChar = false)
    (.invalidRequest "request id is empty, unsafe, or exceeds 160 bytes")
  refuseIf (isBlank request.systemInstructions ∨
      maxProviderInstructionsBytes < request.systemInstructions.utf8ByteSize)
    (.invalidRequest ("system instructions must be nonempty and no larger than " ++
      maxProviderInstructionsBytes.repr ++ " bytes"))
  refuseIf (isBlank request.data ∨ maxProviderDataBytes < request.data.utf8ByteSize)
    (.invalidRequest ("provider data must be nonempty and no larger than " ++
      maxProviderDataBytes.repr ++ " bytes"))
  refuseIf (request.maxOutputBytes < 1 ∨ maxProviderOutputBytes < request.maxOutputBytes)
    (.invalidRequest "provider output limit is outside the transport bounds")

end ProviderRequest

def sampleConfig : ProviderConfig where
  kind := .custom
  wireFormat := .chatCompletions
  endpoint := "https://models.example/v1/chat/completions"
  model := "local-coder"
  apiKeyEnv := "CODER_API_KEY"
  authHeader := "authorization"
  authScheme := "Bearer"
  bodyTemplate := ""
  responseKey := ""
  thinkingLevel := some .high
  apiKeyPresent := true
  credentialScopeHash := ""
  requestTimeoutSeconds := 120

def sampleAdapter : ProviderAdapter := ⟨sampleConfig, by decide +kernel⟩

end AtomVibe.Provider
