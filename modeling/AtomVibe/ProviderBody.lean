import AtomVibe.Foundations.Replacement
import AtomVibe.Provider
import AtomVibe.WorkPrompt

namespace AtomVibe.Provider

open Checked Text Json JsonText JsonRoundTrip JsonCodec JsonGrammar Context Replacement

def replaceTexts (rules : List (String × String)) (text : String) : String :=
  String.ofList (replaceAllBy id (rules.map fun rule => (rule.1.toList, rule.2.toList)) text.toList)

def replaceTextsOnce (rules : List (String × String)) (text : String) : String :=
  String.ofList (onceBy id (rules.map fun rule => (rule.1.toList, rule.2.toList)) 0 text.toList)

def placeholder (name : String) : String := "\x7b\x7b" ++ name ++ "\x7d\x7d"

/-- What the placeholders stand for, in the order they are replaced in. -/
def templateRules (model instructions data : String) (thinking : ProviderThinkingLevel) :
    List (String × String) :=
  [(placeholder "model", escape model), (placeholder "instructions", escape instructions),
    (placeholder "data", escape data), (placeholder "model_json", quote model),
    (placeholder "instructions_json", quote instructions), (placeholder "data_json", quote data),
    (placeholder "thinking", thinking.asStr), (placeholder "thinking_json", bare thinking.asStr)]

def renderTemplate (template model instructions data : String) (thinking : ProviderThinkingLevel) :
    String :=
  replaceTexts (templateRules model instructions data thinking) template

def templateHasValue (template name : String) : Bool :=
  contains (placeholder name).toList template.toList ||
    contains (placeholder (name ++ "_json")).toList template.toList

section Formats

variable (model instructions data : String) (thinking : ProviderThinkingLevel)

def responsesBody : String :=
  objectText
    [("model", quote model), ("instructions", quote instructions),
      ("input", arrayText [objectText
        [("role", bare "user"), ("content", arrayText [objectText
          [("type", bare "input_text"), ("text", quote data)]])]]),
      ("reasoning", objectText [("effort", bare thinking.asStr)]), ("temperature", "0.1")]

def messagesText : String :=
  arrayText
    [objectText [("role", bare "system"), ("content", quote instructions)],
      objectText [("role", bare "user"), ("content", quote data)]]

def ollamaChatBody : String :=
  objectText
    [("model", quote model), ("messages", messagesText instructions data),
      ("think", bare thinking.asStr), ("stream", boolText false)]

def chatCompletionsBody : String :=
  objectText
    [("model", quote model), ("messages", messagesText instructions data),
      ("reasoning_effort", bare thinking.asStr), ("temperature", "0.1"), ("stream", boolText false)]

def deepseekProBody : String :=
  objectText
    [("model", quote model), ("messages", messagesText instructions data),
      ("thinking", objectText [("type", bare "enabled")]), ("stream", boolText false)]

end Formats

inductive BodyFormat where
  | responses
  | ollamaChat
  | chatCompletions
  | deepseekPro

namespace BodyFormat

def ofConfig (config : ProviderConfig) : BodyFormat :=
  match config.wireFormat with
  | .openAiResponses => .responses
  | .ollamaChat => .ollamaChat
  | .chatCompletions =>
    if config.kind = .deepSeekChat ∧
        contains "pro".toList (toAsciiLowercase config.model).toList = true then .deepseekPro
    else .chatCompletions

def ofModel (format : ProviderWireFormat) (model : String) : BodyFormat :=
  match format with
  | .openAiResponses => .responses
  | .chatCompletions =>
    if toAsciiLowercase model = toAsciiLowercase "deepseek-v4-pro" then .deepseekPro
    else .chatCompletions
  | .ollamaChat => .ollamaChat

def text (format : BodyFormat) (model instructions data : String)
    (thinking : ProviderThinkingLevel) : String :=
  match format with
  | responses => responsesBody model instructions data thinking
  | ollamaChat => ollamaChatBody model instructions data thinking
  | chatCompletions => chatCompletionsBody model instructions data thinking
  | deepseekPro => deepseekProBody model instructions data

end BodyFormat

def templateFields : List String := ["instructions", "data", "thinking"]

def requestBody (config : ProviderConfig) (request : ProviderRequest) :
    Except ProviderAdapterError String := do
  let thinking ← okOr (.invalidConfiguration "thinking must be enabled") config.thinkingLevel
  if isBlank config.bodyTemplate = true then
    return (BodyFormat.ofConfig config).text config.model request.systemInstructions request.data
      thinking
  else
    checkAll (fun field => refuseIf (templateHasValue config.bodyTemplate field = false)
      (.invalidConfiguration ("custom body template is missing " ++ field))) templateFields
    return renderTemplate config.bodyTemplate config.model request.systemInstructions request.data
      thinking

def providerBody (format : ProviderWireFormat) (model : String) (prompt : Work.WorkPrompt)
    (bodyTemplate : String) (thinking : ProviderThinkingLevel) : String :=
  if isBlank bodyTemplate = true then
    (BodyFormat.ofModel format model).text model prompt.instructions prompt.data thinking
  else renderTemplate bodyTemplate model prompt.instructions prompt.data thinking

section Values

variable (model instructions data : String) (thinking : ProviderThinkingLevel)

def messagesValue : JsonValue :=
  .array
    [.object [("role", .string "system"), ("content", textValue instructions)],
      .object [("role", .string "user"), ("content", textValue data)]]

def BodyFormat.value : BodyFormat → JsonValue
  | responses => .object
      [("model", textValue model), ("instructions", textValue instructions),
        ("input", .array [.object
          [("role", .string "user"), ("content", .array [.object
            [("type", .string "input_text"), ("text", textValue data)]])]]),
        ("reasoning", .object [("effort", .string thinking.asStr)]), ("temperature", .number "0.1")]
  | ollamaChat => .object
      [("model", textValue model), ("messages", messagesValue instructions data),
        ("think", .string thinking.asStr), ("stream", .bool false)]
  | chatCompletions => .object
      [("model", textValue model), ("messages", messagesValue instructions data),
        ("reasoning_effort", .string thinking.asStr), ("temperature", .number "0.1"),
        ("stream", .bool false)]
  | deepseekPro => .object
      [("model", textValue model), ("messages", messagesValue instructions data),
        ("thinking", .object [("type", .string "enabled")]), ("stream", .bool false)]

theorem bare_thinking : bare thinking.asStr = quote thinking.asStr := by
  cases thinking <;> rfl

theorem bare_words : bare "user" = quote "user" ∧ bare "system" = quote "system" ∧
    bare "input_text" = quote "input_text" ∧ bare "enabled" = quote "enabled" :=
  ⟨rfl, rfl, rfl, rfl⟩

theorem render_value (format : BodyFormat) :
    render (format.value model instructions data thinking) =
      format.text model instructions data thinking := by
  obtain ⟨huser, hsystem, hinput, henabled⟩ := bare_words
  cases format <;>
    simp only [BodyFormat.value, BodyFormat.text, responsesBody, ollamaChatBody,
      chatCompletionsBody, deepseekProBody, messagesValue, messagesText, render, List.map_cons,
      List.map_nil, render_textValue, bare_thinking, huser, hsystem, hinput, henabled]

theorem lossless_thinking : Lossless thinking.asStr := by
  cases thinking <;> decide

theorem clean_value (format : BodyFormat) :
    clean (format.value model instructions data thinking) =
      format.value model instructions data thinking := by
  have huser : clean (.string "user") = .string "user" := clean_lossless (by decide)
  have hsystem : clean (.string "system") = .string "system" := clean_lossless (by decide)
  have hinput : clean (.string "input_text") = .string "input_text" := clean_lossless (by decide)
  have henabled : clean (.string "enabled") = .string "enabled" := clean_lossless (by decide)
  have hthinking := clean_lossless (lossless_thinking thinking)
  cases format <;>
    simp only [BodyFormat.value, messagesValue, clean, List.map_cons, List.map_nil,
      clean_textValue, huser, hsystem, hinput, henabled, hthinking]

theorem numberText_temperature : NumberText "0.1".toList := by
  have hdigits : Digits ['1'] := ⟨by simp, by simp [isAsciiDigit]⟩
  exact .mk (.inl rfl) .zero (.some hdigits) .none

theorem renders_messages (k : ℕ) : Renders (k + 3) (messagesValue instructions data) := by
  apply renders_array
  simp only [List.forall_mem_cons, List.not_mem_nil, false_imp_iff, implies_true, and_true]
  constructor <;> apply renders_fields (by simp only [List.map]; decide)
  · simp only [List.forall_mem_cons, List.not_mem_nil, false_imp_iff, implies_true, and_true]
    exact ⟨renders_string _, renders_textValue _⟩
  · simp only [List.forall_mem_cons, List.not_mem_nil, false_imp_iff, implies_true, and_true]
    exact ⟨renders_string _, renders_textValue _⟩

theorem renders_single (key : String) (hkey : key.toList.all isKeyChar = true) {k : ℕ}
    {v : JsonValue} (h : Renders k v) : Renders (k + 1) (.object [(key, v)]) := by
  apply renders_fields
  · exact ⟨by simp, by simpa using hkey⟩
  · simpa using h

theorem renders_value (format : BodyFormat) (k : ℕ) :
    Renders (k + 6) (format.value model instructions data thinking) := by
  cases format with
  | responses =>
    apply renders_fields (by simp only [List.map]; decide)
    simp only [List.forall_mem_cons, List.not_mem_nil, false_imp_iff, implies_true, and_true]
    refine ⟨renders_textValue _, renders_textValue _, ?_,
      renders_single _ (by decide) (renders_string _), renders_numberText numberText_temperature⟩
    apply renders_array
    simp only [List.mem_singleton, forall_eq]
    apply renders_fields (by simp only [List.map]; decide)
    simp only [List.forall_mem_cons, List.not_mem_nil, false_imp_iff, implies_true, and_true]
    refine ⟨renders_string _, ?_⟩
    apply renders_array
    simp only [List.mem_singleton, forall_eq]
    apply renders_fields (by simp only [List.map]; decide)
    simp only [List.forall_mem_cons, List.not_mem_nil, false_imp_iff, implies_true, and_true]
    exact ⟨renders_string _, renders_textValue _⟩
  | ollamaChat =>
    apply renders_fields (by simp only [List.map]; decide)
    simp only [List.forall_mem_cons, List.not_mem_nil, false_imp_iff, implies_true, and_true]
    exact ⟨renders_textValue _, renders_messages _ _ _, renders_string _, renders_bool _⟩
  | chatCompletions =>
    apply renders_fields (by simp only [List.map]; decide)
    simp only [List.forall_mem_cons, List.not_mem_nil, false_imp_iff, implies_true, and_true]
    exact ⟨renders_textValue _, renders_messages _ _ _, renders_string _,
      renders_numberText numberText_temperature, renders_bool _⟩
  | deepseekPro =>
    apply renders_fields (by simp only [List.map]; decide)
    simp only [List.forall_mem_cons, List.not_mem_nil, false_imp_iff, implies_true, and_true]
    exact ⟨renders_textValue _, renders_messages _ _ _,
      renders_single _ (by decide) (renders_string _), renders_bool _⟩

theorem parse_text (format : BodyFormat) : parse (format.text model instructions data thinking) =
    .ok (format.value model instructions data thinking) := by
  have h := (renders_value model instructions data thinking format 59).parse
  rwa [render_value, clean_value] at h

def BodyFormat.instructionSlot (body : JsonValue) : BodyFormat → Option JsonValue
  | responses => body.get "instructions"
  | ollamaChat | chatCompletions | deepseekPro => do
    let messages ← (← body.get "messages").asArray
    (← messages[0]?).get "content"

def BodyFormat.dataSlot (body : JsonValue) : BodyFormat → Option JsonValue
  | responses => do
    let input ← (← body.get "input").asArray
    let content ← (← (← input[0]?).get "content").asArray
    (← content[0]?).get "text"
  | ollamaChat | chatCompletions | deepseekPro => do
    let messages ← (← body.get "messages").asArray
    (← messages[1]?).get "content"

theorem slots (format : BodyFormat) :
    format.instructionSlot (format.value model instructions data thinking) =
        some (textValue instructions) ∧
      format.dataSlot (format.value model instructions data thinking) = some (textValue data) := by
  cases format <;> exact ⟨rfl, rfl⟩

end Values

section Templates

def placeholderNames : List String :=
  ["model", "instructions", "data", "model_json", "instructions_json", "data_json", "thinking",
    "thinking_json"]

def apartAt (word other : List Char) (k : ℕ) : Bool :=
  !(other.isPrefixOf (word.drop k) || (word.drop k).isPrefixOf other) || (k == 0 && other == word)

theorem separate_of_apartAt {words : List (List Char)} (hne : ∀ word ∈ words, word ≠ [])
    (hnodup : words.Nodup)
    (h : words.all (fun word => words.all fun other =>
      (List.range word.length).all fun k => apartAt word other k) = true) : Separate words where
  nonempty := hne
  nodup := hnodup
  apart := by
    intro word hword other hother front back text hsplit hback hprefix
    have hlt : front.length < word.length := by
      have hpos := List.length_pos_iff.mpr hback
      rw [hsplit, List.length_append]
      omega
    have hall := List.all_eq_true.mp (List.all_eq_true.mp (List.all_eq_true.mp h word hword) other
      hother) front.length (List.mem_range.mpr hlt)
    have hdrop : word.drop front.length = back := by rw [hsplit, List.drop_left]
    have hcompare : other.isPrefixOf back = true ∨ back.isPrefixOf other = true := by
      rcases List.prefix_or_prefix_of_prefix hprefix (List.prefix_append back text) with h | h
      · exact .inl (List.isPrefixOf_iff_prefix.mpr h)
      · exact .inr (List.isPrefixOf_iff_prefix.mpr h)
    have hfalse : (other.isPrefixOf back || back.isPrefixOf other) = true := by
      simpa [Bool.or_eq_true] using hcompare
    rw [apartAt, hdrop, hfalse, Bool.not_true, Bool.false_or, Bool.and_eq_true, beq_iff_eq,
      beq_iff_eq] at hall
    exact ⟨List.length_eq_zero_iff.mp hall.1, hall.2⟩

theorem separate_placeholders :
    Separate (placeholderNames.map fun name => (placeholder name).toList) :=
  separate_of_apartAt (by decide +kernel) (by decide +kernel) (by decide +kernel)

def KeepsTexts (template model instructions data : String) (thinking : ProviderThinkingLevel) :
    Prop :=
  Uncaptured ((templateRules model instructions data thinking).map fun rule =>
    (rule.1.toList, rule.2.toList)) (original template.toList)

theorem ne_nil_of_ne_empty {text : String} (h : text ≠ "") : text.toList ≠ [] :=
  fun hnil => h (String.toList_inj.mp hnil)

theorem escape_ne_empty {text : String} (h : text ≠ "") : (escape text).toList ≠ [] := by
  rw [escape, String.toList_ofList]
  intro hnil
  rw [List.flatMap_eq_nil_iff] at hnil
  obtain ⟨c, cs, hcs⟩ := List.exists_cons_of_ne_nil (ne_nil_of_ne_empty h)
  have hc := hnil c (by rw [hcs]; exact List.mem_cons_self)
  unfold escapeChar at hc
  split_ifs at hc

theorem templateRules_ne_nil {model instructions data : String} (thinking : ProviderThinkingLevel)
    (hne : model ≠ "" ∧ instructions ≠ "" ∧ data ≠ "") :
    ∀ rule ∈ (templateRules model instructions data thinking).map fun rule =>
      (rule.1.toList, rule.2.toList), rule.2 ≠ [] := by
  have hquote : ∀ text, (quote text).toList ≠ [] := by
    intro text
    simp [quote]
  simp only [templateRules, List.map_cons, List.map_nil, List.forall_mem_cons, List.not_mem_nil,
    false_imp_iff, implies_true, and_true]
  refine ⟨escape_ne_empty hne.1, escape_ne_empty hne.2.1, escape_ne_empty hne.2.2, hquote _,
    hquote _, hquote _, ?_, by simp [bare]⟩
  cases thinking <;> decide

theorem renderTemplate_eq_once {template model instructions data : String}
    {thinking : ProviderThinkingLevel}
    (hne : model ≠ "" ∧ instructions ≠ "" ∧ data ≠ "")
    (h : KeepsTexts template model instructions data thinking) :
    renderTemplate template model instructions data thinking =
      replaceTextsOnce (templateRules model instructions data thinking) template := by
  rw [renderTemplate, replaceTexts, replaceTextsOnce, replaceAllBy_eq_onceBy _ _ _ h]
  · have hsep := separate_placeholders
    simp only [placeholderNames, templateRules, List.map_cons, List.map_nil] at hsep ⊢
    exact hsep
  · exact templateRules_ne_nil thinking hne

end Templates

theorem requestBody_plain {config : ProviderConfig} {request : ProviderRequest}
    {thinking : ProviderThinkingLevel} (hthinking : config.thinkingLevel = some thinking)
    (hblank : isBlank config.bodyTemplate = true) : requestBody config request =
      .ok ((BodyFormat.ofConfig config).text config.model request.systemInstructions request.data
        thinking) := by
  rw [requestBody, hthinking, okOr_some, ok_bind, if_pos hblank]
  rfl

theorem requestBody_template {config : ProviderConfig} {request : ProviderRequest} {body : String}
    {thinking : ProviderThinkingLevel} (hthinking : config.thinkingLevel = some thinking)
    (hblank : isBlank config.bodyTemplate = false) (h : requestBody config request = .ok body) :
    body = renderTemplate config.bodyTemplate config.model request.systemInstructions request.data
      thinking := by
  rw [requestBody, hthinking, okOr_some, ok_bind, if_neg (by simp [hblank])] at h
  obtain ⟨u, -, hbody⟩ := bind_eq_ok.mp h
  exact (Except.ok.inj hbody).symm

theorem ne_empty_of_not_blank {text : String} (h : isBlank text = false) : text ≠ "" := by
  rintro rfl
  exact absurd h (by decide)

theorem objectText_ne_empty (fields : List (String × String)) : objectText fields ≠ "" := by
  intro h
  have hlist := congrArg String.toList h
  simp [objectText] at hlist

theorem text_ne_empty (format : BodyFormat) (model instructions data : String)
    (thinking : ProviderThinkingLevel) : format.text model instructions data thinking ≠ "" := by
  cases format <;> exact objectText_ne_empty _

theorem providerBody_ne_empty (format : ProviderWireFormat) {model : String}
    {prompt : Work.WorkPrompt} (bodyTemplate : String) (thinking : ProviderThinkingLevel)
    (hne : model ≠ "" ∧ prompt.instructions ≠ "" ∧ prompt.data ≠ "") :
    providerBody format model prompt bodyTemplate thinking ≠ "" := by
  rw [providerBody]
  split
  · exact text_ne_empty _ _ _ _ _
  · rename_i hblank
    have htemplate := ne_empty_of_not_blank (Bool.eq_false_iff.mpr hblank)
    intro hempty
    have hlist := congrArg String.toList hempty
    rw [renderTemplate, replaceTexts, String.toList_ofList] at hlist
    exact replaceAllBy_ne_nil (templateRules_ne_nil thinking hne) (ne_nil_of_ne_empty htemplate)
      hlist

theorem accepted_texts {config : ProviderConfig} {request : ProviderRequest}
    (hconfig : validateConfig config = .ok ()) (hrequest : request.validate = .ok ()) :
    config.model ≠ "" ∧ request.systemInstructions ≠ "" ∧ request.data ≠ "" := by
  simp only [validateConfig, ProviderRequest.validate, bind_eq_ok, refuseIf_eq_ok, not_or,
    exists_const, Bool.or_eq_true, Bool.not_eq_true] at hconfig hrequest
  exact ⟨ne_empty_of_not_blank hconfig.2.2.1.1.1, ne_empty_of_not_blank hrequest.2.1.1,
    ne_empty_of_not_blank hrequest.2.2.1.1⟩

/-- A body made without a template has its instructions and its data in their places, and nothing
else; a template's placeholders are replaced once each, as long as none is completed by the texts
that are put in. -/
theorem provider_bodies_keep_apart (config : ProviderConfig) (request : ProviderRequest)
    (wire : ProviderWireFormat) (model template : String) (prompt : Work.WorkPrompt)
    (thinking : ProviderThinkingLevel) :
    (∀ body, validateConfig config = .ok () → request.validate = .ok () →
      config.thinkingLevel = some thinking → requestBody config request = .ok body →
      let format := BodyFormat.ofConfig config
      let value := format.value config.model request.systemInstructions request.data thinking
      (isBlank config.bodyTemplate = true → parse body = .ok value ∧
        format.instructionSlot value = some (textValue request.systemInstructions) ∧
          format.dataSlot value = some (textValue request.data)) ∧
      (isBlank config.bodyTemplate = false → KeepsTexts config.bodyTemplate config.model
          request.systemInstructions request.data thinking →
        body = replaceTextsOnce (templateRules config.model request.systemInstructions request.data
          thinking) config.bodyTemplate)) ∧
      let format := BodyFormat.ofModel wire model
      let value := format.value model prompt.instructions prompt.data thinking
      (isBlank template = true → parse (providerBody wire model prompt template thinking) =
          .ok value ∧
        format.instructionSlot value = some (textValue prompt.instructions) ∧
          format.dataSlot value = some (textValue prompt.data)) ∧
      (isBlank template = false → model ≠ "" ∧ prompt.instructions ≠ "" ∧ prompt.data ≠ "" →
        KeepsTexts template model prompt.instructions prompt.data thinking →
        providerBody wire model prompt template thinking = replaceTextsOnce
          (templateRules model prompt.instructions prompt.data thinking) template) := by
  constructor
  · intro body hconfig hrequest hthinking hbody
    refine ⟨fun hblank => ?_, fun hblank hkeeps => ?_⟩
    · rw [requestBody_plain hthinking hblank] at hbody
      rw [← Except.ok.inj hbody]
      exact ⟨parse_text _ _ _ _ _, slots _ _ _ _ _⟩
    · rw [requestBody_template hthinking hblank hbody]
      exact renderTemplate_eq_once (accepted_texts hconfig hrequest) hkeeps
  · refine ⟨fun hblank => ?_, fun hblank hne hkeeps => ?_⟩
    · rw [providerBody, if_pos hblank]
      exact ⟨parse_text _ _ _ _ _, slots _ _ _ _ _⟩
    · rw [providerBody, if_neg (by simp [hblank])]
      exact renderTemplate_eq_once hne hkeeps

def slotTemplate : String :=
  "\x7b\"i\":\"" ++ placeholder "instructions" ++ "\",\"d\":" ++ placeholder "data_json" ++
    ",\"t\":\"" ++ placeholder "thinking" ++ "\"\x7d"

def slotConfig : ProviderConfig := { sampleConfig with bodyTemplate := slotTemplate }

def slotRequest : ProviderRequest := .new "turn" "\x7b\x7bdata_json\x7d\x7d" "x\",\"d\":\"y"

theorem template_mixes_texts : validateConfig slotConfig = .ok () ∧ slotRequest.validate = .ok () ∧
    requestBody slotConfig slotRequest =
        .ok ("\x7b\"i\":\"\"x\\\",\\\"d\\\":\\\"y\"\"," ++
          "\"d\":\"x\\\",\\\"d\\\":\\\"y\",\"t\":\"high\"\x7d") ∧
      replaceTextsOnce (templateRules slotConfig.model slotRequest.systemInstructions
          slotRequest.data .high) slotTemplate =
        "\x7b\"i\":\"\x7b\x7bdata_json\x7d\x7d\"," ++
          "\"d\":\"x\\\",\\\"d\\\":\\\"y\",\"t\":\"high\"\x7d" := by
  refine ⟨by decide +kernel, by decide +kernel, by decide +kernel, by decide +kernel⟩

end AtomVibe.Provider
