import Mathlib.Data.List.DropRight
import AtomVibe.CoreIntent
import AtomVibe.TransportDelivery

namespace AtomVibe.ProviderConversion

open Text Hash Provider CoreRuntime ProviderTransport

def nonEmptyValue (value : String) : Option String :=
  if trim value = "" then none else some (trim value)

def defaultAuthHeader : String := "Authorization"

def defaultAuthScheme : String := "Bearer"

def defaultResponseKey : String := "output_text"

def noPrefixNames : List String := ["raw", "none", "no-prefix", "no_prefix"]

def normalizeAuthScheme (value : String) : String :=
  if noPrefixNames.contains (toAsciiLowercase (trim value)) then "" else trim value

def readAuthScheme (value : String) : String :=
  let authScheme := trim value
  if authScheme = "" then defaultAuthScheme else normalizeAuthScheme authScheme

def isKeyChar (ch : Char) : Bool := isAsciiAlphanumeric ch || ch = '_' || ch = '-'

def normalizeResponseKey (value : String) : String := String.ofList (value.toList.filter isKeyChar)

def providerWireFormatFrom (value : String) : ProviderWireFormat :=
  let name := toAsciiLowercase value
  if ["ollama", "ollama-chat", "ollama_chat"].contains name then .ollamaChat
  else if ["chat", "chat-completions", "chat_completions", "openai-chat", "mistral"].contains name then
    .chatCompletions
  else .openAiResponses

def defaultWireFormat : ProviderKind → ProviderWireFormat
  | .openAiResponses => .openAiResponses
  | .ollamaCloudChat => .ollamaChat
  | .mistralChat | .deepSeekChat | .custom => .chatCompletions

def defaultEndpoint : ProviderKind → String
  | .openAiResponses => "https://api.openai.com/v1/responses"
  | .ollamaCloudChat => "https://ollama.com/api/chat"
  | .mistralChat => "https://api.mistral.ai/v1/chat/completions"
  | .deepSeekChat => "https://api.deepseek.com/chat/completions"
  | .custom => ""

def defaultKeyEnv : ProviderKind → String
  | .openAiResponses => "OPENAI_API_KEY"
  | .ollamaCloudChat => "OLLAMA_API_KEY"
  | .mistralChat => "MISTRAL_API_KEY"
  | .deepSeekChat => "DEEPSEEK_API_KEY"
  | .custom => "MATH_ATOMS_PROVIDER_API_KEY"

def kindOfName (deepseekNames : List String) (value : String) : ProviderKind :=
  let name := toAsciiLowercase value
  if ["ollama", "ollama-cloud", "ollama_cloud"].contains name then .ollamaCloudChat
  else if ["mistral", "mistral-ai", "mistral_ai", "vibe", "mistral-vibe"].contains name then .mistralChat
  else if deepseekNames.contains name then .deepSeekChat
  else if ["custom", "generic", "compatible", "openai-compatible", "openai_chat",
      "openai-chat"].contains name then .custom
  else .openAiResponses

def headerOfChars (allowed : Char → Bool) (value : String) : String :=
  let cleaned := value.toList.filter allowed
  if cleaned.isEmpty then defaultAuthHeader else String.ofList cleaned

structure ProviderConfigInput where
  kindRaw : String
  formatRaw : String
  model : String
  endpoint : String
  apiKeyEnv : String
  authHeader : String
  authScheme : String
  bodyTemplate : String
  responseKey : String
  deriving DecidableEq

namespace Core

def providerKindFrom (value : String) : ProviderKind :=
  kindOfName ["deepseek", "deepseek-pro", "deepseek_pro", "deepseek-v4-pro", "deepseek-flash",
    "deepseek_flash", "deepseek-v4-flash"] value

def defaultModel : ProviderKind → String
  | .openAiResponses => "gpt-5.5"
  | .ollamaCloudChat => "gpt-oss:120b"
  | .mistralChat => "mistral-medium-3-5"
  | .deepSeekChat => "deepseek-v4-pro"
  | .custom => ""

def normalizeHeaderName (value : String) : String :=
  headerOfChars (fun ch => isAsciiAlphanumeric ch || ch = '-') value

def providerThinkingLevel (value : Option String) : Option ProviderThinkingLevel :=
  let name := toAsciiLowercase (trim (value.getD "low"))
  if name = "" ∨ name = "low" then some .low
  else if name = "medium" then some .medium
  else if name = "high" then some .high
  else none

def credentialScope (endpoint apiKey : String) : String :=
  if isBlank apiKey then "" else credentialScopeHash endpoint apiKey

def configuredNumber (configured : Option String) (low high fallback : UInt64) : UInt64 :=
  ((configured.bind fun value => parseU64 (trim value)).filter fun value =>
    low ≤ value && value ≤ high).getD fallback

def providerTimeoutSeconds (kind : ProviderKind) (model : String) (configured : Option String) :
    UInt64 :=
  configuredNumber configured 10 1800 (if kind = .deepSeekChat ∧
    contains "pro".toList (toAsciiLowercase model).toList = true then 900 else 120)

def providerPlanTimeoutSeconds (requestTimeout : UInt64) (configured : Option String) : UInt64 :=
  configuredNumber configured 60 86400
    (.ofNat (min (max (min (requestTimeout.toNat * 96) (UInt64.size - 1)) 600) 86400))

def maxVerificationAttempts : UInt64 := 32

/-- A value that is too large for `u32` is out of bounds too. -/
def verificationAttemptLimit (configured : Option String) : UInt32 :=
  (configuredNumber configured 1 maxVerificationAttempts 8).toUInt32

def verificationTimeoutSeconds (configured : Option String) : UInt64 :=
  configuredNumber configured 10 1800 180

section Environment

variable (env : String → Option String)

def nonEmptyEnv (key : String) : Option String := (env key).filter fun value => !isBlank value

def fromValuesFull (input : ProviderConfigInput) (thinkingLevel : String) : CoreProviderConfig :=
  let kind := providerKindFrom input.kindRaw
  let wireFormat := ((nonEmptyValue input.formatRaw).map providerWireFormatFrom).getD
    (defaultWireFormat kind)
  let model := (nonEmptyValue input.model).getD (defaultModel kind)
  let endpoint := (nonEmptyValue input.endpoint).getD (defaultEndpoint kind)
  let apiKeyEnv := (nonEmptyValue input.apiKeyEnv).getD (defaultKeyEnv kind)
  let authHeader := (nonEmptyValue input.authHeader).getD defaultAuthHeader
  let responseKey := (nonEmptyValue input.responseKey).getD defaultResponseKey
  let apiKey := (env apiKeyEnv).getD ""
  let requestTimeoutSeconds :=
    providerTimeoutSeconds kind model (nonEmptyEnv env "MATH_ATOMS_PROVIDER_TIMEOUT_SECONDS")
  { kind
    wireFormat
    endpoint
    model
    apiKeyEnv
    authHeader := normalizeHeaderName authHeader
    authScheme := readAuthScheme input.authScheme
    bodyTemplate := trim input.bodyTemplate
    responseKey := normalizeResponseKey responseKey
    thinkingLevel := providerThinkingLevel (some thinkingLevel)
    apiKeyPresent := !isBlank apiKey
    credentialScopeHash := credentialScope endpoint apiKey
    requestTimeoutSeconds
    planTimeoutSeconds := providerPlanTimeoutSeconds requestTimeoutSeconds
      (nonEmptyEnv env "MATH_ATOMS_PROVIDER_PLAN_TIMEOUT_SECONDS")
    verificationAttemptLimit :=
      verificationAttemptLimit (nonEmptyEnv env "MATH_ATOMS_VERIFICATION_MAX_ATTEMPTS")
    verificationTimeoutSeconds :=
      verificationTimeoutSeconds (nonEmptyEnv env "MATH_ATOMS_VERIFICATION_TIMEOUT_SECONDS") }

end Environment

end Core

namespace Avc

structure ProviderConfig where
  kind : ProviderKind
  wireFormat : ProviderWireFormat
  endpoint : String
  model : String
  apiKeyEnv : String
  authHeader : String
  authScheme : String
  bodyTemplate : String
  responseKey : String
  apiKeyPresent : Bool
  deriving DecidableEq

def providerKindFrom (value : String) : ProviderKind :=
  kindOfName ["deepseek", "deepseek-flash", "deepseek_flash", "deepseek-v4-flash"] value

def defaultModel : ProviderKind → String
  | .openAiResponses => "gpt-5.5"
  | .ollamaCloudChat => "gpt-oss:120b"
  | .mistralChat => "mistral-large-latest"
  | .deepSeekChat => "deepseek-v4-flash"
  | .custom => ""

def normalizeHeaderName (value : String) : String :=
  headerOfChars (fun ch => isAsciiAlphanumeric ch || ch = '-' || ch = '_') value

section Environment

variable (env : String → Option String)

def fromValuesFull (input : ProviderConfigInput) : ProviderConfig :=
  let kind := providerKindFrom input.kindRaw
  let wireFormat := ((nonEmptyValue input.formatRaw).map providerWireFormatFrom).getD
    (defaultWireFormat kind)
  let model := (nonEmptyValue input.model).getD (defaultModel kind)
  let endpoint := (nonEmptyValue input.endpoint).getD (defaultEndpoint kind)
  let apiKeyEnv := (nonEmptyValue input.apiKeyEnv).getD (defaultKeyEnv kind)
  let authHeader := (nonEmptyValue input.authHeader).getD defaultAuthHeader
  let responseKey := (nonEmptyValue input.responseKey).getD defaultResponseKey
  { kind
    wireFormat
    endpoint
    model
    apiKeyEnv
    authHeader := normalizeHeaderName authHeader
    authScheme := readAuthScheme input.authScheme
    bodyTemplate := trim input.bodyTemplate
    responseKey := normalizeResponseKey responseKey
    apiKeyPresent := ((env apiKeyEnv).map fun value => !isBlank value).getD false }

end Environment

end Avc

def avcInput (cfg : CoreProviderConfig) : ProviderConfigInput where
  kindRaw := cfg.kind.asStr
  formatRaw := cfg.wireFormat.asStr
  model := cfg.model
  endpoint := cfg.endpoint
  apiKeyEnv := cfg.apiKeyEnv
  authHeader := cfg.authHeader
  authScheme := cfg.authScheme
  bodyTemplate := cfg.bodyTemplate
  responseKey := cfg.responseKey

def providerConfigToAvc (env : String → Option String) (cfg : CoreProviderConfig) :
    Avc.ProviderConfig :=
  let converted := Avc.fromValuesFull env (avcInput cfg)
  if cfg.apiKeyPresent && !converted.apiKeyPresent then { converted with apiKeyPresent := true }
  else converted

section Again

variable {value : String}

theorem trim_trim (value : String) : trim (trim value) = trim value := by
  let front := value.toList.dropWhile isWhitespace
  have htrim : trim value = String.ofList (front.rdropWhile isWhitespace) := rfl
  have hfront : (front.rdropWhile isWhitespace).dropWhile isWhitespace =
      front.rdropWhile isWhitespace := by
    rw [List.dropWhile_eq_self_iff]
    intro hlen hblank
    have hkept := List.rdropWhile_prefix isWhitespace front
    have hne : 0 < front.length := Nat.lt_of_lt_of_le hlen hkept.length_le
    apply List.dropWhile_get_zero_not isWhitespace value.toList hne
    rw [List.get_eq_getElem]
    rw [hkept.getElem hlen] at hblank
    exact hblank
  rw [htrim, trim, String.toList_ofList, hfront]
  exact congrArg String.ofList (List.rdropWhile_idempotent isWhitespace front)

theorem nonEmptyValue_of_trimmed (htrim : trim value = value) (hne : value ≠ "") :
    nonEmptyValue value = some value := by
  rw [nonEmptyValue, htrim, if_neg hne]

theorem nonEmptyValue_again {read : String} (h : nonEmptyValue value = some read) :
    nonEmptyValue read = some read := by
  rw [nonEmptyValue] at h
  split at h
  · cases h
  · rename_i hne
    cases h
    exact nonEmptyValue_of_trimmed (trim_trim value) hne

theorem read_again {first second : String}
    (h : nonEmptyValue first = some first ∨ (first = "" ∧ second = "")) :
    (nonEmptyValue ((nonEmptyValue value).getD first)).getD second =
      (nonEmptyValue value).getD first := by
  cases hvalue : nonEmptyValue value with
  | some read => rw [Option.getD_some, nonEmptyValue_again hvalue, Option.getD_some]
  | none =>
    rw [Option.getD_none]
    obtain hfirst | ⟨rfl, rfl⟩ := h
    · rw [hfirst, Option.getD_some]
    · decide

theorem kind_again (kind : ProviderKind) : Avc.providerKindFrom kind.asStr = kind := by
  cases kind <;> decide

theorem wireFormat_again (format default : ProviderWireFormat) :
    ((nonEmptyValue format.asStr).map providerWireFormatFrom).getD default = format := by
  cases format <;> rfl

theorem model_again (kind : ProviderKind) :
    nonEmptyValue (Core.defaultModel kind) = some (Core.defaultModel kind) ∨
      (Core.defaultModel kind = "" ∧ Avc.defaultModel kind = "") := by
  cases kind <;> decide

theorem endpoint_again (kind : ProviderKind) :
    nonEmptyValue (defaultEndpoint kind) = some (defaultEndpoint kind) ∨
      (defaultEndpoint kind = "" ∧ defaultEndpoint kind = "") := by
  cases kind <;> decide

theorem keyEnv_again (kind : ProviderKind) :
    nonEmptyValue (defaultKeyEnv kind) = some (defaultKeyEnv kind) ∨
      (defaultKeyEnv kind = "" ∧ defaultKeyEnv kind = "") := by
  cases kind <;> decide

theorem visible_again {p : Char → Bool} (hp : ∀ c, p c = true → isWhitespace c = false)
    {chars : List Char} (hchars : ∀ c ∈ chars, p c = true) (hne : chars ≠ []) :
    nonEmptyValue (String.ofList chars) = some (String.ofList chars) := by
  apply nonEmptyValue_of_trimmed
  · apply TransportDelivery.trim_of_visible
    intro c hc
    rw [String.toList_ofList] at hc
    exact hp c (hchars c hc)
  · intro hempty
    apply hne
    rw [← String.toList_ofList (l := chars), hempty]
    rfl

theorem isWhitespace_of_keyChar {c : Char} (h : isKeyChar c = true) : isWhitespace c = false := by
  simp only [isKeyChar, isAsciiAlphanumeric, isAsciiDigit, isAsciiLowercase, isAsciiUppercase,
    Bool.or_eq_true, Bool.and_eq_true, decide_eq_true_eq, Char.le_def] at h
  have hrange : (48 ≤ c.toNat ∧ c.toNat ≤ 57 ∨ 97 ≤ c.toNat ∧ c.toNat ≤ 122 ∨
      65 ≤ c.toNat ∧ c.toNat ≤ 90) ∨ c = '_' ∨ c = '-' := by
    obtain ((((h | h) | h) | h) | h) := h
    · exact .inl (.inl h)
    · exact .inl (.inr (.inl h))
    · exact .inl (.inr (.inr h))
    · exact .inr (.inl h)
    · exact .inr (.inr h)
  obtain hrange | rfl | rfl := hrange
  · simp only [isWhitespace]
    simp
    omega
  · decide
  · decide

theorem header_again (header : String) :
    Avc.normalizeHeaderName ((nonEmptyValue (Core.normalizeHeaderName header)).getD
      defaultAuthHeader) = Core.normalizeHeaderName header := by
  let allowed : Char → Bool := fun ch => isAsciiAlphanumeric ch || ch = '-'
  rw [Core.normalizeHeaderName, headerOfChars]
  by_cases hempty : (header.toList.filter allowed).isEmpty = true
  · rw [if_pos hempty]
    decide
  · have hne : header.toList.filter allowed ≠ [] := fun h => hempty (by rw [h]; rfl)
    have hkey : ∀ c, allowed c = true → isKeyChar c = true := by
      intro c hc
      rw [Bool.or_eq_true] at hc
      rw [isKeyChar]
      obtain hc | hc := hc <;> simp_all
    have hchars : ∀ c ∈ header.toList.filter allowed, allowed c = true :=
      fun c hc => List.of_mem_filter hc
    have hkept : (header.toList.filter allowed).filter
        (fun ch => isAsciiAlphanumeric ch || ch = '-' || ch = '_') = header.toList.filter allowed := by
      rw [List.filter_eq_self]
      intro c hc
      rw [Bool.or_eq_true]
      exact .inl (hchars c hc)
    rw [if_neg hempty, visible_again (fun c hc => isWhitespace_of_keyChar (hkey c hc)) hchars hne,
      Option.getD_some, Avc.normalizeHeaderName, headerOfChars, String.toList_ofList, hkept,
      if_neg hempty]

theorem scheme_again_iff (value : String) :
    readAuthScheme (readAuthScheme value) = readAuthScheme value ↔
      noPrefixNames.contains (toAsciiLowercase (trim value)) = false := by
  by_cases hblank : trim value = ""
  · have hread : readAuthScheme value = defaultAuthScheme := by rw [readAuthScheme, hblank, if_pos rfl]
    rw [hread, hblank]
    decide
  · have hread : readAuthScheme value = normalizeAuthScheme (trim value) := by
      rw [readAuthScheme, if_neg hblank]
    rw [hread, normalizeAuthScheme, trim_trim]
    cases hnone : noPrefixNames.contains (toAsciiLowercase (trim value)) with
    | true =>
      rw [if_pos rfl]
      decide
    | false =>
      rw [if_neg Bool.false_ne_true, readAuthScheme, trim_trim, if_neg hblank, normalizeAuthScheme,
        trim_trim, hnone, if_neg Bool.false_ne_true]
      exact ⟨fun _ => rfl, fun _ => rfl⟩

theorem key_again_iff (value : String) :
    normalizeResponseKey ((nonEmptyValue (normalizeResponseKey ((nonEmptyValue value).getD
        defaultResponseKey))).getD defaultResponseKey) =
      normalizeResponseKey ((nonEmptyValue value).getD defaultResponseKey) ↔
      trim value = "" ∨ ∃ c ∈ (trim value).toList, isKeyChar c = true := by
  by_cases hblank : trim value = ""
  · have hread : nonEmptyValue value = none := by rw [nonEmptyValue, if_pos hblank]
    have hagain : normalizeResponseKey ((nonEmptyValue (normalizeResponseKey
        defaultResponseKey)).getD defaultResponseKey) = normalizeResponseKey defaultResponseKey := by
      decide
    rw [hread, Option.getD_none]
    exact ⟨fun _ => .inl hblank, fun _ => hagain⟩
  · have hread : nonEmptyValue value = some (trim value) := by rw [nonEmptyValue, if_neg hblank]
    rw [hread, Option.getD_some]
    by_cases hnone : (trim value).toList.filter isKeyChar = []
    · have hkey : normalizeResponseKey (trim value) = "" := by rw [normalizeResponseKey, hnone]
      rw [hkey]
      constructor
      · intro h
        exact absurd h (by decide)
      · rintro (h | ⟨c, hc, hkept⟩)
        · exact absurd h hblank
        · exact absurd hkept (List.filter_eq_nil_iff.mp hnone c hc)
    · obtain ⟨c, hc⟩ := List.exists_mem_of_ne_nil _ hnone
      have hread := visible_again (fun c hc => isWhitespace_of_keyChar hc)
        (fun c hc => List.of_mem_filter hc) hnone
      have hkey : normalizeResponseKey (trim value) =
          String.ofList ((trim value).toList.filter isKeyChar) := rfl
      rw [hkey, hread, Option.getD_some, normalizeResponseKey, String.toList_ofList,
        List.filter_filter]
      simp only [Bool.and_self, true_iff]
      exact .inr ⟨c, List.mem_of_mem_filter hc, List.of_mem_filter hc⟩

end Again

theorem providerConfigToAvc_eq (env : String → Option String) (cfg : CoreProviderConfig) :
    ∃ present, providerConfigToAvc env cfg =
      { Avc.fromValuesFull env (avcInput cfg) with apiKeyPresent := present } := by
  rw [providerConfigToAvc]
  generalize Avc.fromValuesFull env (avcInput cfg) = converted
  by_cases hmarked : (cfg.apiKeyPresent && !converted.apiKeyPresent) = true
  · exact ⟨true, if_pos hmarked⟩
  · exact ⟨converted.apiKeyPresent, if_neg hmarked⟩

structure Carried (cfg : CoreProviderConfig) (converted : Avc.ProviderConfig) : Prop where
  kind : converted.kind = cfg.kind
  wireFormat : converted.wireFormat = cfg.wireFormat
  endpoint : converted.endpoint = cfg.endpoint
  model : converted.model = cfg.model
  apiKeyEnv : converted.apiKeyEnv = cfg.apiKeyEnv
  authHeader : converted.authHeader = cfg.authHeader
  authScheme : converted.authScheme = cfg.authScheme
  bodyTemplate : converted.bodyTemplate = cfg.bodyTemplate
  responseKey : converted.responseKey = cfg.responseKey
  request : ∀ apiKey body body' timeout timeout',
    curlConfig ⟨converted.endpoint, converted.authHeader, converted.authScheme, apiKey, body, timeout⟩ =
      curlConfig ⟨cfg.endpoint, cfg.authHeader, cfg.authScheme, apiKey, body', timeout'⟩

theorem carried_of_fields {cfg : CoreProviderConfig} {converted : Avc.ProviderConfig}
    (hkind : converted.kind = cfg.kind) (hformat : converted.wireFormat = cfg.wireFormat)
    (hendpoint : converted.endpoint = cfg.endpoint) (hmodel : converted.model = cfg.model)
    (henv : converted.apiKeyEnv = cfg.apiKeyEnv) (hheader : converted.authHeader = cfg.authHeader)
    (hscheme : converted.authScheme = cfg.authScheme)
    (htemplate : converted.bodyTemplate = cfg.bodyTemplate)
    (hkey : converted.responseKey = cfg.responseKey) : Carried cfg converted := by
  refine ⟨hkind, hformat, hendpoint, hmodel, henv, hheader, hscheme, htemplate, hkey, ?_⟩
  intro apiKey body body' timeout timeout'
  rw [hendpoint, hheader, hscheme]
  rfl

/-- The fast path has the operator's provider unless the operator has asked for no prefix of the
key, or has named a response key of which nothing is kept. -/
theorem carried_iff (env env' : String → Option String) (input : ProviderConfigInput)
    (thinkingLevel : String) :
    Carried (Core.fromValuesFull env input thinkingLevel)
        (providerConfigToAvc env' (Core.fromValuesFull env input thinkingLevel)) ↔
      noPrefixNames.contains (toAsciiLowercase (trim input.authScheme)) = false ∧
        (trim input.responseKey = "" ∨ ∃ c ∈ (trim input.responseKey).toList, isKeyChar c = true) := by
  obtain ⟨present, hconverted⟩ :=
    providerConfigToAvc_eq env' (Core.fromValuesFull env input thinkingLevel)
  rw [← scheme_again_iff, ← key_again_iff, hconverted]
  constructor
  · intro h
    have hscheme := h.authScheme
    have hkey := h.responseKey
    simp only [Avc.fromValuesFull, Core.fromValuesFull, avcInput] at hscheme hkey
    exact ⟨hscheme, hkey⟩
  · rintro ⟨hscheme, hkey⟩
    apply carried_of_fields
    all_goals simp only [Avc.fromValuesFull, Core.fromValuesFull, avcInput, kind_again]
    · exact wireFormat_again _ _
    · exact read_again (endpoint_again _)
    · exact read_again (model_again _)
    · exact read_again (keyEnv_again _)
    · exact header_again _
    · exact hscheme
    · exact trim_trim _
    · exact hkey

def bareKeyInput : ProviderConfigInput where
  kindRaw := "custom"
  formatRaw := "chat"
  model := "model-x"
  endpoint := "https://models.example.com/v1/chat"
  apiKeyEnv := "MODEL_KEY"
  authHeader := "x-api-key"
  authScheme := "none"
  bodyTemplate := ""
  responseKey := "content"

theorem bare_key_prefixed :
    ¬Carried (Core.fromValuesFull (fun _ => none) bareKeyInput "low")
      (providerConfigToAvc (fun _ => none) (Core.fromValuesFull (fun _ => none) bareKeyInput "low")) := by
  intro h
  obtain ⟨present, hconverted⟩ :=
    providerConfigToAvc_eq (fun _ => none) (Core.fromValuesFull (fun _ => none) bareKeyInput "low")
  have hscheme := h.authScheme
  rw [hconverted] at hscheme
  simp only [Avc.fromValuesFull, Core.fromValuesFull, avcInput] at hscheme
  exact absurd ((scheme_again_iff bareKeyInput.authScheme).mp hscheme) (by decide)

end AtomVibe.ProviderConversion
