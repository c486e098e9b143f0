import AtomVibe.ProviderReceipt

namespace AtomVibe.Core

open Checked Text Json Provider

inductive ProviderError
  | missingApiKey (env : String)
  | missingEndpoint
  | missingModel
  | emptyPrompt
  | invalidBodyTemplate
  | thinkingRequired
  | thinkingEvidenceMissing
  | credentialScopeChanged
  | io (reason : String)
  | curlFailed (code : Option Int32) (httpStatus : Option UInt16) (stderr body : String)
  | responseTextMissing
  | responseEnvelopeInvalid
  | responseTooLarge
  | workPacketFailed (reason : String)
  deriving DecidableEq

def defaultResponseKey : String := "output_text"

def normalizeResponseKey (value : String) : String :=
  String.ofList (value.toList.filter fun c => isAsciiAlphanumeric c || c == '_' || c == '-')

def itemsText : List JsonValue → Option String
  | [] => none
  | item :: items => do
    let blocks ← (← item.get "content").asArray
    match blocks.findSome? blockText with
    | some text => some text
    | none => itemsText items

def responsesOutputText (root : JsonValue) : Option String :=
  match textAt root "output_text" with
  | some text => some text
  | none => do itemsText (← (← root.get "output").asArray)

def chatCompletionText (root : JsonValue) : Option String := do
  let choices ← (← root.get "choices").asArray
  let content ← (← (← choices.head?).get "message").get "content"
  match content.asStr with
  | some text => some text
  | none => do
    let output := String.join ((← content.asArray).filterMap blockText)
    if output = "" then none else some output

def ollamaChatText (root : JsonValue) : Option String := do
  (← (← root.get "message").get "content").asStr

def validatedProviderText (text : String) : Except ProviderError String := do
  refuseIf (isBlank text) .responseTextMissing
  refuseIf (maxProviderOutputBytes < text.utf8ByteSize) .responseTooLarge
  return text

def parseProviderText (body : String) (wireFormat : ProviderWireFormat) (preferredKey : String) :
    Except ProviderError String := do
  refuseIf (maxProviderResponseBytes < body.utf8ByteSize) .responseTooLarge
  let root ← (parse body).mapError fun _ => .responseEnvelopeInvalid
  let object ← okOr .responseEnvelopeInvalid root.asObject
  refuseIf (isErrorEnvelope root = true) .responseEnvelopeInvalid
  let preferred := normalizeResponseKey preferredKey
  let chosen := if preferred ≠ "" ∧ preferred ≠ defaultResponseKey then textAt root preferred
    else none
  match chosen with
  | some text => validatedProviderText text
  | none => do
    let text := match wireFormat with
      | .openAiResponses => responsesOutputText root
      | .chatCompletions => chatCompletionText root
      | .ollamaChat => ollamaChatText root
    refuseIf (object = []) .responseEnvelopeInvalid
    validatedProviderText (← okOr .responseTextMissing text)

def chatMessageHasThinking (message : JsonValue) : Bool :=
  saysSomething (textAt message "reasoning_content") ||
    (((message.get "content").bind (·.asArray)).getD []).any (hasType thinkingTypes)

def thinkingTokens (root : JsonValue) : ProviderWireFormat → Option UInt64
  | .openAiResponses =>
    countAt ((root.get "usage").bind (·.get "output_tokens_details")) "reasoning_tokens"
  | .chatCompletions =>
    countAt ((root.get "usage").bind (·.get "completion_tokens_details")) "reasoning_tokens"
  | .ollamaChat => none

def visibleThinking (root : JsonValue) : ProviderWireFormat → Bool
  | .openAiResponses =>
    (((root.get "output").bind (·.asArray)).getD []).any (hasType thinkingTypes)
  | .chatCompletions =>
    ((((root.get "choices").bind (·.asArray)).bind (·.head?)).bind (·.get "message")).any
      chatMessageHasThinking
  | .ollamaChat => saysSomething ((root.get "message").bind (textAt · "thinking"))

def validateThinkingEvidence (body : String) (wireFormat : ProviderWireFormat) :
    Except ProviderError Unit := do
  let root ← (parse body).mapError fun _ => .responseEnvelopeInvalid
  if (thinkingTokens root wireFormat).any (0 < ·) then return ()
  refuseIf (visibleThinking root wireFormat = false) .thinkingEvidenceMissing

def readResponse (body : String) (wireFormat : ProviderWireFormat) (responseKey : String) :
    Except ProviderError String := do
  validateThinkingEvidence body wireFormat
  parseProviderText body wireFormat responseKey

section Agreement

variable {root : JsonValue} {wireFormat : ProviderWireFormat} {body text : String}

def showsThinking (root : JsonValue) (wireFormat : ProviderWireFormat) : Bool :=
  (thinkingEvidence root wireFormat (tokenUsage root wireFormat)).isSome

theorem chatMessageHasThinking_eq (message : JsonValue) :
    chatMessageHasThinking message = (chatThinkingSource message).isSome := by
  rw [chatMessageHasThinking, chatThinkingSource]
  split
  · rename_i htold
    rw [htold]
    rfl
  · rename_i hsilent
    rw [Bool.not_eq_true] at hsilent
    rw [hsilent, Bool.false_or]
    split <;> simp_all

theorem visibleThinking_eq : visibleThinking root wireFormat =
    (thinkingSource root wireFormat).isSome := by
  cases wireFormat with
  | openAiResponses =>
    rw [visibleThinking, thinkingSource]
    split <;> simp_all
  | chatCompletions =>
    rw [visibleThinking, thinkingSource]
    cases root.get "choices" with
    | none => rfl
    | some choices =>
      cases hitems : choices.asArray with
      | none => simp [hitems]
      | some items =>
        cases hfirst : items.head? with
        | none => simp [hitems, hfirst]
        | some choice =>
          cases hmessage : choice.get "message" with
          | none => simp [hitems, hfirst, hmessage]
          | some message => simp [hitems, hfirst, hmessage, chatMessageHasThinking_eq]
  | ollamaChat =>
    rw [visibleThinking, thinkingSource]
    split <;> simp_all

theorem validateThinkingEvidence_eq_ok : validateThinkingEvidence body wireFormat = .ok () ↔
    ∃ root, parse body = .ok root ∧ showsThinking root wireFormat = true := by
  simp only [validateThinkingEvidence, bind_eq_ok, mapError_eq_ok]
  apply exists_congr
  intro root
  apply and_congr_right
  intro _
  have htokens : thinkingTokens root wireFormat = (tokenUsage root wireFormat).reasoningTokens := by
    cases wireFormat <;> rfl
  rw [showsThinking, thinkingEvidence, htokens]
  split
  · simp [pure, Except.pure]
  · rw [refuseIf_eq_ok, visibleThinking_eq, Option.isSome_map, Bool.not_eq_false]

theorem asObject_of_get {key : String} {v : JsonValue} (h : root.get key = some v) :
    ∃ f fields, root.asObject = some (f :: fields) := by
  rw [JsonValue.get] at h
  split at h
  · exact absurd h (by simp)
  · rename_i fields hfields
    cases fields with
    | nil => simp at h
    | cons f fields => exact ⟨f, fields, hfields⟩

def coreText (root : JsonValue) : ProviderWireFormat → Option String
  | .openAiResponses => responsesOutputText root
  | .chatCompletions => chatCompletionText root
  | .ollamaChat => ollamaChatText root

def vibeText (root : JsonValue) : ProviderWireFormat → Option String
  | .openAiResponses => responsesText root
  | .chatCompletions => chatText root
  | .ollamaChat => (root.get "message").bind (textAt · "content")

theorem asObject_of_coreText (h : coreText root wireFormat = some text) :
    ∃ f fields, root.asObject = some (f :: fields) := by
  cases wireFormat with
  | openAiResponses =>
    rw [coreText, responsesOutputText] at h
    cases hown : textAt root "output_text" with
    | some own =>
      obtain ⟨v, hv, -⟩ := Option.bind_eq_some_iff.mp hown
      exact asObject_of_get hv
    | none =>
      rw [hown] at h
      obtain ⟨v, hv, -⟩ := Option.bind_eq_some_iff.mp h
      exact asObject_of_get hv
  | chatCompletions =>
    obtain ⟨v, hv, -⟩ := Option.bind_eq_some_iff.mp h
    exact asObject_of_get hv
  | ollamaChat =>
    obtain ⟨v, hv, -⟩ := Option.bind_eq_some_iff.mp h
    exact asObject_of_get hv

theorem validatedProviderText_eq_ok {given : String} : validatedProviderText given = .ok text ↔
    given = text ∧ isBlank text = false ∧ text.utf8ByteSize ≤ maxProviderOutputBytes := by
  simp only [validatedProviderText, bind_eq_ok, refuseIf_eq_ok, pure_eq_ok, exists_const, not_lt,
    Bool.not_eq_true]
  constructor
  · rintro ⟨hblank, hsize, rfl⟩
    exact ⟨rfl, hblank, hsize⟩
  · rintro ⟨rfl, hblank, hsize⟩
    exact ⟨hblank, hsize, rfl⟩

theorem readResponse_eq_ok (hbody : body.utf8ByteSize ≤ maxProviderResponseBytes) :
    readResponse body wireFormat defaultResponseKey = .ok text ↔
      ∃ root, parse body = .ok root ∧ isErrorEnvelope root = false ∧
        showsThinking root wireFormat = true ∧ coreText root wireFormat = some text ∧
        isBlank text = false ∧ text.utf8ByteSize ≤ maxProviderOutputBytes := by
  have hkey : ¬(normalizeResponseKey defaultResponseKey ≠ "" ∧
      normalizeResponseKey defaultResponseKey ≠ defaultResponseKey) := by decide
  have hcore (root : JsonValue) : (match wireFormat with
      | .openAiResponses => responsesOutputText root
      | .chatCompletions => chatCompletionText root
      | .ollamaChat => ollamaChatText root) = coreText root wireFormat := by
    cases wireFormat <;> rfl
  simp only [readResponse, parseProviderText, bind_eq_ok, if_neg hkey, hcore, refuseIf_eq_ok,
    mapError_eq_ok, okOr_eq_ok, exists_const, not_lt, validatedProviderText_eq_ok,
    Bool.not_eq_true, hbody, true_and]
  constructor
  · rintro ⟨⟨⟩, hthinking, root, hroot, object, hobject, herror, -, given, hgiven, rfl, htext⟩
    obtain ⟨root', hroot', hshows⟩ := validateThinkingEvidence_eq_ok.mp hthinking
    obtain rfl := Except.ok.inj (hroot.symm.trans hroot')
    exact ⟨root, hroot, herror, hshows, hgiven, htext⟩
  · rintro ⟨root, hroot, herror, hshows, htext, hvalid⟩
    obtain ⟨f, fields, hobject⟩ := asObject_of_coreText htext
    exact ⟨(), validateThinkingEvidence_eq_ok.mpr ⟨root, hroot, hshows⟩, root, hroot, f :: fields,
      hobject, herror, by simp, text, htext, rfl, hvalid⟩

theorem receipt_eq_ok {config : ProviderConfig} {input : ReceiptInput}
    (hkey : config.responseKey = defaultResponseKey)
    (hbody : input.rawResponse.utf8ByteSize ≤ maxProviderResponseBytes) :
    (∃ receipt, parseReceipt config input = .ok receipt ∧ receipt.text = text) ↔
      ∃ root, parse input.rawResponse = .ok root ∧ isErrorEnvelope root = false ∧
        showsThinking root config.wireFormat = true ∧
        vibeText root config.wireFormat = some text ∧
        isBlank text = false ∧ text.utf8ByteSize ≤ input.outputLimit := by
  have hplain : ¬(trim config.responseKey ≠ "" ∧ trim config.responseKey ≠ "output_text") := by
    rw [hkey]
    decide
  have hvibe (root : JsonValue) : responseText root config =
      okOr (.invalidResponse "provider text field was not found")
        (vibeText root config.wireFormat) := by
    rw [responseText]
    simp only [if_neg hplain]
    cases config.wireFormat <;> rfl
  simp only [parseReceipt, bind_eq_ok, refuseIf_eq_ok, mapError_eq_ok, okOr_eq_ok, hvibe,
    pure_eq_ok, exists_const, not_lt, Bool.not_eq_true, hbody, true_and, showsThinking,
    Option.isSome_iff_exists]
  constructor
  · rintro ⟨receipt, ⟨root, hroot, herror, thinking, hthinking, given, hgiven, hblank, hsize, rfl⟩,
      rfl⟩
    exact ⟨root, hroot, herror, ⟨thinking, hthinking⟩, hgiven, hblank, hsize⟩
  · rintro ⟨root, hroot, herror, ⟨thinking, hthinking⟩, htext, hblank, hsize⟩
    exact ⟨_, ⟨root, hroot, herror, thinking, hthinking, text, htext, hblank, hsize, rfl⟩, rfl⟩

def itemBlocks (item : JsonValue) : Option (List JsonValue) := (item.get "content").bind (·.asArray)

def itemText (item : JsonValue) : Option String := ((itemBlocks item).getD []).findSome? blockText

def outputItems (root : JsonValue) : List JsonValue :=
  ((root.get "output").bind (·.asArray)).getD []

def firstOutputText (root : JsonValue) : Option String := (outputItems root).findSome? itemText

def blocksBeforeText (items : List JsonValue) : Bool :=
  (items.takeWhile fun item => (itemText item).isNone).all fun item => (itemBlocks item).isSome

theorem itemsText_eq (items : List JsonValue) :
    itemsText items = if blocksBeforeText items then items.findSome? itemText else none := by
  induction items with
  | nil => rfl
  | cons item items ih =>
    have hstep : itemsText (item :: items) = (itemBlocks item).bind fun blocks =>
        match blocks.findSome? blockText with
        | some text => some text
        | none => itemsText items := by
      rw [itemsText, itemBlocks]
      cases item.get "content" <;> rfl
    rw [hstep, blocksBeforeText, List.takeWhile_cons, List.findSome?_cons]
    cases hblocks : itemBlocks item with
    | none =>
      have hnone : itemText item = none := by
        rw [itemText, hblocks]
        rfl
      simp [hnone, hblocks]
    | some blocks =>
      have htext : itemText item = blocks.findSome? blockText := by
        rw [itemText, hblocks]
        rfl
      rw [Option.bind_some, htext]
      cases hfirst : blocks.findSome? blockText with
      | some text => simp
      | none =>
        rw [ih, blocksBeforeText]
        simp [hblocks]

theorem responsesOutputText_eq (h : textAt root "output_text" = none) :
    responsesOutputText root =
      if blocksBeforeText (outputItems root) then firstOutputText root else none := by
  rw [responsesOutputText, h, firstOutputText, outputItems]
  cases hget : root.get "output" with
  | none => rfl
  | some output =>
    cases hitems : output.asArray with
    | none => simp [hitems, blocksBeforeText]
    | some items => simp [hitems, itemsText_eq]

theorem responsesText_eq (h : textAt root "output_text" = none) :
    responsesText root = firstOutputText root := by
  rw [responsesText, h, firstOutputText, outputItems]
  cases hget : root.get "output" with
  | none => rfl
  | some output =>
    cases hitems : output.asArray with
    | none => simp [hitems]
    | some items =>
      simp [hitems]
      rfl

theorem vibeText_of_coreText (h : coreText root wireFormat = some text) :
    vibeText root wireFormat = some text := by
  cases wireFormat with
  | openAiResponses =>
    rw [coreText] at h
    rw [vibeText]
    cases hown : textAt root "output_text" with
    | some own =>
      rw [responsesOutputText, hown] at h
      rw [responsesText, hown]
      exact h
    | none =>
      rw [responsesOutputText_eq hown] at h
      rw [responsesText_eq hown]
      split at h
      · exact h
      · exact absurd h (by simp)
  | chatCompletions => exact h
  | ollamaChat =>
    rw [coreText, ollamaChatText] at h
    rw [vibeText]
    cases hmessage : root.get "message" with
    | none =>
      rw [hmessage] at h
      exact absurd h (by simp)
    | some message =>
      rw [hmessage] at h
      exact h

theorem coreText_of_vibeText (h : vibeText root wireFormat = some text)
    (hformat : wireFormat = .openAiResponses → textAt root "output_text" = none →
      blocksBeforeText (outputItems root) = true) : coreText root wireFormat = some text := by
  cases wireFormat with
  | openAiResponses =>
    rw [vibeText] at h
    rw [coreText]
    cases hown : textAt root "output_text" with
    | some own =>
      rw [responsesText, hown] at h
      rw [responsesOutputText, hown]
      exact h
    | none =>
      rw [responsesText_eq hown] at h
      rw [responsesOutputText_eq hown, if_pos (hformat rfl hown), h]
  | chatCompletions => exact h
  | ollamaChat =>
    rw [vibeText] at h
    rw [coreText, ollamaChatText]
    cases hmessage : root.get "message" with
    | none =>
      rw [hmessage] at h
      exact absurd h (by simp)
    | some message =>
      rw [hmessage] at h
      exact h

def Fits (input : ReceiptInput) (text : String) : Prop :=
  text.utf8ByteSize ≤ input.outputLimit ∧ text.utf8ByteSize ≤ maxProviderOutputBytes

structure ReadAlike (config : ProviderConfig) (input : ReceiptInput) : Prop where
  agree : ∀ text, Fits input text →
    (readResponse input.rawResponse config.wireFormat config.responseKey = .ok text ↔
      ∃ receipt, parseReceipt config input = .ok receipt ∧ receipt.text = text)
  firstBlock : config.wireFormat = .openAiResponses → ∀ root text,
    parse input.rawResponse = .ok root → showsThinking root config.wireFormat = true →
    firstOutputText root = some text → Fits input text →
      readResponse input.rawResponse config.wireFormat config.responseKey = .ok text ∧
        ∃ receipt, parseReceipt config input = .ok receipt ∧ receipt.text = text

/-- A text among the blocks of an answer says something, comes with no error and no other text of
the whole answer, and no item without blocks precedes it. -/
def ReachesText (config : ProviderConfig) (input : ReceiptInput) : Prop :=
  config.wireFormat = .openAiResponses → ∀ root text, parse input.rawResponse = .ok root →
    showsThinking root config.wireFormat = true → firstOutputText root = some text →
    Fits input text → isErrorEnvelope root = false ∧ isBlank text = false ∧
      (textAt root "output_text" = some text ∨
        textAt root "output_text" = none ∧ blocksBeforeText (outputItems root) = true)

theorem readers_agree_iff {config : ProviderConfig} {input : ReceiptInput}
    (hkey : config.responseKey = defaultResponseKey)
    (hbody : input.rawResponse.utf8ByteSize ≤ maxProviderResponseBytes) :
    ReadAlike config input ↔ ReachesText config input := by
  constructor
  · intro h hformat root text hroot hshows htext hfits
    have hcore := (h.firstBlock hformat root text hroot hshows htext hfits).1
    rw [hkey, readResponse_eq_ok hbody] at hcore
    obtain ⟨root', hroot', herror, -, hcore, hblank, -⟩ := hcore
    obtain rfl := Except.ok.inj (hroot.symm.trans hroot')
    refine ⟨herror, hblank, ?_⟩
    rw [hformat, coreText] at hcore
    cases hown : textAt root "output_text" with
    | some own =>
      rw [responsesOutputText, hown] at hcore
      exact .inl hcore
    | none =>
      rw [responsesOutputText_eq hown] at hcore
      right
      refine ⟨rfl, ?_⟩
      by_contra hstops
      rw [if_neg hstops] at hcore
      exact absurd hcore (by simp)
  · intro h
    have hagree : ∀ text, Fits input text →
        (readResponse input.rawResponse config.wireFormat config.responseKey = .ok text ↔
          ∃ receipt, parseReceipt config input = .ok receipt ∧ receipt.text = text) := by
      intro text hfits
      rw [receipt_eq_ok hkey hbody, hkey, readResponse_eq_ok hbody]
      apply exists_congr
      intro root
      constructor
      · rintro ⟨hroot, herror, hshows, htext, hblank, -⟩
        exact ⟨hroot, herror, hshows, vibeText_of_coreText htext, hblank, hfits.1⟩
      · rintro ⟨hroot, herror, hshows, htext, hblank, -⟩
        refine ⟨hroot, herror, hshows, coreText_of_vibeText htext ?_, hblank, hfits.2⟩
        intro hformat hown
        rw [hformat, vibeText, responsesText_eq hown] at htext
        rcases (h hformat root text hroot hshows htext hfits).2.2 with hother | ⟨-, hreaches⟩
        · rw [hown] at hother
          exact absurd hother (by simp)
        · exact hreaches
    refine ⟨hagree, ?_⟩
    intro hformat root text hroot hshows htext hfits
    obtain ⟨herror, hblank, hreaches⟩ := h hformat root text hroot hshows htext hfits
    have hvibe : vibeText root config.wireFormat = some text := by
      rw [hformat, vibeText]
      rcases hreaches with hown | ⟨hown, -⟩
      · rw [responsesText, hown]
      · rw [responsesText_eq hown]
        exact htext
    have hreceipt := (receipt_eq_ok hkey hbody).mpr
      ⟨root, hroot, herror, hshows, hvibe, hblank, hfits.1⟩
    exact ⟨(hagree text hfits).mpr hreceipt, hreceipt⟩

end Agreement

section Samples

def responsesConfig : ProviderConfig :=
  { sampleConfig with
    wireFormat := .openAiResponses
    responseKey := defaultResponseKey }

def answer (rawResponse : String) : ReceiptInput :=
  { requestId := "turn-1"
    requestBody := "\x7b\x7d"
    rawResponse
    elapsedMs := 1
    outputLimit := 100 }

def messageItem : String :=
  "\x7b\"type\":\"message\",\"content\":[\x7b\"type\":\"output_text\",\"text\":\"ok\"\x7d]\x7d"

def reasoningItem : String := "\x7b\"type\":\"reasoning\",\"summary\":[]\x7d"

def messageFirst : String :=
  "\x7b\"output\":[" ++ messageItem ++ "," ++ reasoningItem ++ "]\x7d"

def reasoningFirst : String :=
  "\x7b\"output\":[" ++ reasoningItem ++ "," ++ messageItem ++ "]\x7d"

theorem readers_agree_messageFirst : ReadAlike responsesConfig (answer messageFirst) := by
  apply (readers_agree_iff rfl (by decide)).mpr
  intro _ root text hroot _ htext _
  have hfacts : (parse messageFirst).toOption.any (fun root => !isErrorEnvelope root &&
      (firstOutputText root == some "ok" && ((textAt root "output_text").isNone &&
        blocksBeforeText (outputItems root)))) = true := by decide +kernel
  obtain ⟨root', hroot', hfacts⟩ := exists_ok_of_any hfacts
  obtain rfl := Except.ok.inj (hroot'.symm.trans hroot)
  simp only [Bool.and_eq_true, Bool.not_eq_true', beq_iff_eq, Option.isNone_iff_eq_none] at hfacts
  obtain ⟨herror, hfirst, hown, hreaches⟩ := hfacts
  obtain rfl := Option.some.inj (hfirst.symm.trans htext)
  exact ⟨herror, by decide, .inr ⟨hown, hreaches⟩⟩

theorem readers_differ_reasoningFirst : ¬ReadAlike responsesConfig (answer reasoningFirst) := by
  intro h
  have hcore : readResponse reasoningFirst .openAiResponses defaultResponseKey =
      .error .responseTextMissing := by decide +kernel
  have hvibe : (parseReceipt responsesConfig (answer reasoningFirst)).toOption.any
      (fun receipt => receipt.text == "ok") = true := by decide +kernel
  obtain ⟨receipt, hreceipt, htext⟩ := exists_ok_of_any hvibe
  have hread := (h.agree "ok" ⟨by decide, by decide⟩).mpr ⟨receipt, hreceipt, beq_iff_eq.mp htext⟩
  exact absurd (hcore.symm.trans hread) (by simp)

end Samples

end AtomVibe.Core
