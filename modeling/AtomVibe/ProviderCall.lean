import AtomVibe.Foundations.Url
import AtomVibe.ProviderBody
import AtomVibe.ProviderReceipt

namespace AtomVibe.Provider

open Checked Text Hash Json JsonText JsonRoundTrip JsonCodec JsonGrammar Context Url

structure ProviderHttpRequest where
  endpoint : String
  authHeader : String
  authScheme : String
  apiKey : String
  bodyJson : String
  timeoutSeconds : UInt64
  deriving DecidableEq

def credentialScopeHash (endpoint apiKey : String) : String :=
  sha256Tagged (asBytes (trim endpoint ++ "\x00" ++ trim apiKey))

section Calls

variable (load : String → Except ProviderAdapterError String)

def ProviderAdapter.prepare (adapter : ProviderAdapter) (request : ProviderRequest) :
    Except ProviderAdapterError ProviderHttpRequest := do
  request.validate
  validateConfig adapter.config
  let apiKey ← load adapter.config.apiKeyEnv
  refuseIf (credentialScopeHash adapter.config.endpoint apiKey ≠ adapter.config.credentialScopeHash)
    .credentialScopeChanged
  let body ← requestBody adapter.config request
  refuseIf (contains apiKey.toList body.toList = true)
    (.invalidConfiguration "credential appeared in provider request body")
  return {
    endpoint := adapter.config.endpoint
    authHeader := adapter.config.authHeader
    authScheme := adapter.config.authScheme
    apiKey
    bodyJson := body
    timeoutSeconds := adapter.config.requestTimeoutSeconds }

def ProviderAdapter.executeWith (adapter : ProviderAdapter)
    (http : ProviderHttpRequest → Except ProviderTransportError String) (elapsedMs : ℕ)
    (request : ProviderRequest) :
    List ProviderHttpRequest × Except ProviderAdapterError ProviderTurnReceipt :=
  match adapter.prepare load request with
  | .error error => ([], .error error)
  | .ok call =>
    ([call], do
      let raw ← (http call).mapError .transport
      parseReceipt adapter.config
        ⟨request.requestId, call.bodyJson, raw, elapsedMs, request.maxOutputBytes⟩)

variable {load} {adapter : ProviderAdapter} {request : ProviderRequest} {call : ProviderHttpRequest}

theorem mem_executeWith {http : ProviderHttpRequest → Except ProviderTransportError String}
    {elapsedMs : ℕ} : call ∈ (adapter.executeWith load http elapsedMs request).1 ↔
      adapter.prepare load request = .ok call := by
  unfold ProviderAdapter.executeWith
  split
  · rename_i error h
    simp [h]
  · rename_i posted h
    simp [h, eq_comm]

theorem prepare_eq_ok : adapter.prepare load request = .ok call ↔
    request.validate = .ok () ∧ load adapter.config.apiKeyEnv = .ok call.apiKey ∧
      credentialScopeHash adapter.config.endpoint call.apiKey =
        adapter.config.credentialScopeHash ∧
      requestBody adapter.config request = .ok call.bodyJson ∧
      contains call.apiKey.toList call.bodyJson.toList = false ∧
      call.endpoint = adapter.config.endpoint ∧ call.authHeader = adapter.config.authHeader ∧
      call.authScheme = adapter.config.authScheme ∧
      call.timeoutSeconds = adapter.config.requestTimeoutSeconds := by
  obtain ⟨endpoint, authHeader, authScheme, apiKey, bodyJson, timeoutSeconds⟩ := call
  simp only [ProviderAdapter.prepare, bind_eq_ok, refuseIf_eq_ok, exists_const, adapter.valid,
    pure_eq_ok, not_not, ProviderHttpRequest.mk.injEq, Bool.not_eq_true]
  constructor
  · rintro ⟨⟨⟩, hvalid, -, key, hkey, hhash, body, hbody, habsent, rfl, rfl, rfl, rfl, rfl, rfl⟩
    exact ⟨hvalid, hkey, hhash, hbody, habsent, rfl, rfl, rfl, rfl⟩
  · rintro ⟨hvalid, hkey, hhash, hbody, habsent, rfl, rfl, rfl, rfl⟩
    exact ⟨(), hvalid, trivial, apiKey, hkey, hhash, bodyJson, hbody, habsent, rfl, rfl, rfl, rfl,
      rfl, rfl⟩

end Calls

section Endpoints

def loopbackNames : List String := ["localhost", "127.0.0.1", "[::1]"]

def Sheltered (endpoint : String) : Prop :=
  Url.scheme endpoint.toList = "https".toList ∨
    ∃ name ∈ loopbackNames, Url.host endpoint.toList = name.toList

def FollowsHost (rest : List Char) : Prop :=
  let behind := rest.takeWhile insideAuthority
  ('@' ∉ behind ∧ Port behind) ∨
    ∃ user name port, name ∈ loopbackNames ∧ Port port ∧ '@' ∉ port ∧
      behind = user ++ '@' :: (name.toList ++ port)

def EndpointKept (endpoint : String) : Prop :=
  startsWith "https://" endpoint = true ∨ ∃ name ∈ loopbackNames, ∃ rest,
    endpoint.toList = "http://".toList ++ (name.toList ++ rest) ∧ FollowsHost rest

theorem hostText_loopback {name : String} (h : name ∈ loopbackNames) : HostText name.toList := by
  simp only [loopbackNames, List.mem_cons, List.not_mem_nil, or_false] at h
  rcases h with rfl | rfl | rfl
  · exact .inl ⟨by decide, by decide, by decide⟩
  · exact .inl ⟨by decide, by decide, by decide⟩
  · exact .inr ⟨"::1".toList, by decide, rfl⟩

theorem loopback_chars {name : String} (h : name ∈ loopbackNames) : '@' ∉ name.toList ∧
    ∀ c ∈ name.toList, insideAuthority c = true := by
  have hall : loopbackNames.all (fun name => !name.toList.contains '@' &&
      name.toList.all insideAuthority) = true := by decide +kernel
  have hname := List.all_eq_true.mp hall name h
  simpa using hname

theorem loopback_append {name other : String} {rest : List Char} (h : name ∈ loopbackNames)
    (hother : other ∈ loopbackNames) (heq : name.toList ++ rest = other.toList) : rest = [] := by
  have hprefix : ∀ name ∈ loopbackNames, ∀ other ∈ loopbackNames,
      name.toList <+: other.toList → name.toList.length = other.toList.length := by
    decide
  have hlength := hprefix name h other hother ⟨rest, heq⟩
  rw [← heq, List.length_append] at hlength
  exact List.length_eq_zero_iff.mp (by omega)

theorem sheltered_http {endpoint : String} {name : String} {rest : List Char}
    (hname : name ∈ loopbackNames)
    (h : endpoint.toList = "http://".toList ++ (name.toList ++ rest)) :
    Sheltered endpoint ↔ FollowsHost rest := by
  obtain ⟨hat, hinside⟩ := loopback_chars hname
  have htext : endpoint.toList = "http".toList ++ ':' :: '/' :: '/' :: (name.toList ++ rest) := h
  have hscheme : Url.scheme endpoint.toList ≠ "https".toList := by
    rw [htext, Url.scheme_append (by decide)]
    decide
  have hauthority : Url.authority endpoint.toList =
      name.toList ++ rest.takeWhile insideAuthority := by
    rw [htext, Url.authority_append (by decide) hinside]
  simp only [Sheltered, hscheme, false_or, Url.host, hauthority, FollowsHost]
  generalize rest.takeWhile insideAuthority = behind
  rcases Url.authority_cases behind with hnone | ⟨user, server, hserver, rfl⟩
  · rw [Url.afterUserinfo_of_not_mem (by simp [hat, hnone]),
      Url.withoutPort_append (hostText_loopback hname)]
    constructor
    · rintro ⟨other, hother, heq⟩
      exact .inl ⟨hnone, Url.takeWhile_port.mp (loopback_append hname hother heq)⟩
    · rintro (⟨-, hport⟩ | ⟨user, other, port, -, -, -, rfl⟩)
      · exact ⟨name, hname, by rw [Url.takeWhile_port.mpr hport, List.append_nil]⟩
      · exact absurd (by simp) hnone
  · rw [← List.append_assoc, Url.afterUserinfo_append hserver]
    constructor
    · rintro ⟨other, hother, heq⟩
      obtain ⟨port, hport, rfl⟩ := (Url.withoutPort_eq_iff (hostText_loopback hother)).mp heq
      exact .inr ⟨user, other, port, hother, hport, fun hmem => hserver (by simp [hmem]), rfl⟩
    · rintro (⟨habsent, -⟩ | ⟨user', other, port, hother, hport, hnot, heq⟩)
      · exact absurd (by simp) habsent
      · have hsame : server = other.toList ++ port := by
          have h := congrArg Url.afterUserinfo heq
          rwa [Url.afterUserinfo_append hserver, Url.afterUserinfo_append
            (by simp [(loopback_chars hother).1, hnot])] at h
        exact ⟨other, hother, (Url.withoutPort_eq_iff (hostText_loopback hother)).mpr
          ⟨port, hport, hsame⟩⟩

theorem sheltered_iff {config : ProviderConfig} (h : validateConfig config = .ok ()) :
    Sheltered config.endpoint ↔ EndpointKept config.endpoint := by
  have hstart : startsWith "https://" config.endpoint = true ∨
      ∃ name ∈ loopbackNames, ∃ rest,
        config.endpoint.toList = "http://".toList ++ (name.toList ++ rest) := by
    simp only [validateConfig, bind_eq_ok, refuseIf_eq_ok, exists_const] at h
    have hany := h.2.1
    simp only [Bool.or_eq_true, not_or, Bool.not_eq_true', allowedEndpoints,
      List.any_cons, List.any_nil, Bool.or_false, Bool.not_eq_false, Bool.not_eq_true] at hany
    have hloop : ∀ name, startsWith ("http://" ++ name) config.endpoint = true →
        ∃ rest, config.endpoint.toList = "http://".toList ++ (name.toList ++ rest) := by
      intro name hstarts
      obtain ⟨rest, hrest⟩ := List.isPrefixOf_iff_prefix.mp hstarts
      exact ⟨rest, by rw [← hrest, String.toList_append, List.append_assoc]⟩
    rcases hany.2 with h | h | h | h
    · exact .inl h
    · exact .inr ⟨"localhost", by decide, hloop "localhost" h⟩
    · exact .inr ⟨"127.0.0.1", by decide, hloop "127.0.0.1" h⟩
    · exact .inr ⟨"[::1]", by decide, hloop "[::1]" h⟩
  constructor
  · intro hsheltered
    rcases hstart with hhttps | ⟨name, hname, rest, hrest⟩
    · exact .inl hhttps
    · exact .inr ⟨name, hname, rest, hrest, (sheltered_http hname hrest).mp hsheltered⟩
  · rintro (hhttps | ⟨name, hname, rest, hrest, hfollows⟩)
    · obtain ⟨rest, hrest⟩ := List.isPrefixOf_iff_prefix.mp hhttps
      refine .inl ?_
      have htext : config.endpoint.toList = "https".toList ++ ':' :: '/' :: '/' :: rest :=
        hrest.symm
      rw [htext, Url.scheme_append (by decide)]
      decide
    · exact (sheltered_http hname hrest).mpr hfollows

end Endpoints

section Keys

inductive StringIn (text : String) : JsonValue → Prop
  | here : StringIn text (.string text)
  | item {values : List JsonValue} {v : JsonValue} (mem : v ∈ values) (inside : StringIn text v) :
      StringIn text (.array values)
  | field {fields : List (String × JsonValue)} {f : String × JsonValue} (mem : f ∈ fields)
      (inside : StringIn text f.2) : StringIn text (.object fields)

def HidesKey (body apiKey : String) : Prop :=
  ∀ value text, parse body = .ok value → StringIn text value → ¬apiKey.toList <:+: text.toList

theorem infix_commaJoin {text : String} {values : List String} (h : text ∈ values) :
    text.toList <:+: (commaJoin values).toList := by
  induction values with
  | nil => simp at h
  | cons value values ih =>
    cases values with
    | nil =>
      obtain rfl : text = value := by simpa using h
      exact List.infix_rfl
    | cons next values =>
      rw [commaJoin, String.toList_append, String.toList_append]
      · rcases List.mem_cons.mp h with rfl | h
        · exact ⟨[], ",".toList ++ (commaJoin (next :: values)).toList, by simp⟩
        · exact (ih h).trans (List.suffix_append _ _).isInfix
      · simp

theorem stringIn_string {text s : String} : StringIn text (.string s) ↔ text = s := by
  constructor
  · rintro ⟨⟩
    rfl
  · rintro rfl
    exact .here

theorem stringIn_array {text : String} {values : List JsonValue} :
    StringIn text (.array values) ↔ ∃ v ∈ values, StringIn text v := by
  constructor
  · intro h
    cases h with
    | item mem inside => exact ⟨_, mem, inside⟩
  · rintro ⟨v, mem, inside⟩
    exact .item mem inside

theorem stringIn_object {text : String} {fields : List (String × JsonValue)} :
    StringIn text (.object fields) ↔ ∃ f ∈ fields, StringIn text f.2 := by
  constructor
  · intro h
    cases h with
    | field mem inside => exact ⟨_, mem, inside⟩
  · rintro ⟨f, mem, inside⟩
    exact .field mem inside

theorem not_stringIn_number {text s : String} : ¬StringIn text (.number s) := by
  rintro ⟨⟩

theorem not_stringIn_bool {text : String} {b : Bool} : ¬StringIn text (.bool b) := by
  rintro ⟨⟩

theorem StringIn.render {text : String} {v : JsonValue} (h : StringIn text v) :
    (escape text).toList <:+: (JsonText.render v).toList := by
  induction h with
  | here =>
    rw [JsonText.render, quote, String.toList_append, String.toList_append]
    exact ⟨_, _, rfl⟩
  | @item values v mem inside ih =>
    rw [JsonText.render, arrayText, String.toList_append, String.toList_append]
    exact (ih.trans (infix_commaJoin (List.mem_map_of_mem mem))).trans ⟨_, _, rfl⟩
  | @field fields f mem inside ih =>
    rw [JsonText.render, objectText, String.toList_append, String.toList_append, List.map_map]
    have hfield : (JsonText.render f.2).toList <:+:
        ("\"" ++ f.1 ++ "\":" ++ JsonText.render f.2).toList := by
      rw [String.toList_append]
      exact (List.suffix_append _ _).isInfix
    exact ((ih.trans hfield).trans (infix_commaJoin (List.mem_map.mpr ⟨f, mem, rfl⟩))).trans
      ⟨_, _, rfl⟩

def PlainText (text : String) : Prop := ∀ c ∈ text.toList, escapeChar c = [c]

instance (text : String) : Decidable (PlainText text) :=
  List.decidableBAll (fun c => escapeChar c = [c]) text.toList

theorem escape_plain {text : String} (h : PlainText text) : escape text = text := by
  rw [escape, List.flatMap_congr h, List.flatMap_singleton', String.ofList_toList]

theorem infix_escape {key text : String} (hplain : PlainText key)
    (h : key.toList <:+: text.toList) : key.toList <:+: (escape text).toList := by
  obtain ⟨before, after, htext⟩ := h
  have hkey : key.toList.flatMap escapeChar = key.toList := by
    rw [List.flatMap_congr hplain, List.flatMap_singleton']
  rw [escape, String.toList_ofList, ← htext, List.flatMap_append, List.flatMap_append, hkey]
  exact ⟨_, _, rfl⟩

section Formats

variable {model instructions data : String} {thinking : ProviderThinkingLevel} {text : String}

theorem plainText_words : ∀ word ∈ ["user", "system", "input_text", "enabled", "low", "medium",
    "high"], PlainText word := by
  decide

theorem plainText_thinking (thinking : ProviderThinkingLevel) : PlainText thinking.asStr := by
  cases thinking <;> exact plainText_words _ (by decide)

theorem stringIn_messages (h : StringIn text (messagesValue instructions data)) :
    text ∈ [sanitize instructions, sanitize data] ∨ PlainText text := by
  simp only [messagesValue, textValue, stringIn_object, stringIn_array, stringIn_string,
    List.exists_mem_cons_iff, List.not_mem_nil, false_and, exists_false, or_false] at h
  rcases h with (rfl | rfl) | rfl | rfl
  · exact .inr (plainText_words _ (by decide))
  · exact .inl (by simp)
  · exact .inr (plainText_words _ (by decide))
  · exact .inl (by simp)

theorem stringIn_value (format : BodyFormat)
    (h : StringIn text (format.value model instructions data thinking)) :
    text ∈ [sanitize model, sanitize instructions, sanitize data] ∨ PlainText text := by
  have hmessages : StringIn text (messagesValue instructions data) →
      text ∈ [sanitize model, sanitize instructions, sanitize data] ∨ PlainText text :=
    fun h => (stringIn_messages h).imp_left (List.mem_cons_of_mem _)
  cases format <;>
    simp only [BodyFormat.value, textValue, stringIn_object, stringIn_array, stringIn_string,
      not_stringIn_number, not_stringIn_bool, List.exists_mem_cons_iff, List.not_mem_nil,
      false_and, exists_false, or_false] at h
  · rcases h with rfl | rfl | (rfl | rfl | rfl) | rfl
    · exact .inl (by simp)
    · exact .inl (by simp)
    · exact .inr (plainText_words _ (by decide))
    · exact .inr (plainText_words _ (by decide))
    · exact .inl (by simp)
    · exact .inr (plainText_thinking thinking)
  · rcases h with rfl | h | rfl
    · exact .inl (by simp)
    · exact hmessages h
    · exact .inr (plainText_thinking thinking)
  · rcases h with rfl | h | rfl
    · exact .inl (by simp)
    · exact hmessages h
    · exact .inr (plainText_thinking thinking)
  · rcases h with rfl | h | rfl
    · exact .inl (by simp)
    · exact hmessages h
    · exact .inr (plainText_words _ (by decide))

theorem texts_in_value (format : BodyFormat) :
    ∀ t ∈ [sanitize model, sanitize instructions, sanitize data],
      StringIn t (format.value model instructions data thinking) := by
  simp only [List.forall_mem_cons, List.not_mem_nil, false_imp_iff, implies_true, and_true]
  cases format <;>
    simp only [BodyFormat.value, messagesValue, textValue, stringIn_object, stringIn_array,
      stringIn_string, List.exists_mem_cons_iff, true_or, or_true, and_self]

theorem hidesKey_text {apiKey : String} (format : BodyFormat)
    (habsent : contains apiKey.toList
      (format.text model instructions data thinking).toList = false) :
    HidesKey (format.text model instructions data thinking) apiKey ↔
      PlainText apiKey ∨ ∀ t ∈ [model, instructions, data],
        ¬apiKey.toList <:+: (sanitize t).toList := by
  have hplain : ∀ t, StringIn t (format.value model instructions data thinking) →
      apiKey.toList <:+: t.toList → ¬apiKey.toList <:+: (escape t).toList := by
    intro t ht hkey hescape
    have hbody := hescape.trans ht.render
    rw [render_value, ← contains_iff_infix, habsent] at hbody
    exact absurd hbody (by simp)
  constructor
  · intro hhides
    refine .inr fun t ht => hhides _ _ (parse_text _ _ _ _ _) (texts_in_value format _ ?_)
    exact List.mem_map_of_mem (f := sanitize) ht
  · rintro hkept value t hparse ht hkey
    obtain rfl := Except.ok.inj ((parse_text _ _ _ _ _).symm.trans hparse)
    rcases hkept with hkept | hkept
    · exact hplain t ht hkey (infix_escape hkept hkey)
    · rcases stringIn_value format ht with hmem | hword
      · obtain ⟨s, hs, rfl⟩ := List.mem_map.mp (show t ∈ [model, instructions, data].map sanitize
          from hmem)
        exact hkept s hs hkey
      · rw [← escape_plain hword] at hkey
        exact hplain t ht (by rwa [escape_plain hword] at hkey) hkey

end Formats

section Spellings

variable {plain : Char → Bool} {value : List Char → JsonValue → Prop} {cs : List Char}
  {text : String}

theorem Elements.item {vs : List JsonValue} (h : Elements value cs vs) {v : JsonValue}
    (hv : v ∈ vs) : ∃ part, value part v ∧ part <:+: cs := by
  induction h with
  | one left item right =>
    obtain rfl := List.mem_singleton.mp hv
    exact ⟨_, item, List.infix_append' _ _ _⟩
  | @more before part after rest v' vs left item right others ih =>
    rcases List.mem_cons.mp hv with rfl | hv
    · exact ⟨part, item, List.infix_append' _ _ _⟩
    · obtain ⟨found, hfound, hinfix⟩ := ih hv
      exact ⟨found, hfound, hinfix.trans ⟨before ++ (part ++ (after ++ [','])), [], by simp⟩⟩

theorem Member.item {f : String × JsonValue} (h : Member plain value cs f) :
    ∃ part, value part f.2 ∧ part <:+: cs := by
  obtain @⟨before, key, colon, gap, part, after, k, v, left, name, middle, space, item, right⟩ := h
  exact ⟨part, item, before ++ (key ++ (colon ++ ':' :: gap)), after, by simp⟩

theorem Members.field {fs : List (String × JsonValue)} (h : Members plain value cs fs)
    {f : String × JsonValue} (hf : f ∈ fs) : ∃ part, value part f.2 ∧ part <:+: cs := by
  induction h with
  | one member =>
    obtain rfl := List.mem_singleton.mp hf
    exact Member.item member
  | @more first rest g gs member others ih =>
    rcases List.mem_cons.mp hf with rfl | hf
    · obtain ⟨part, hpart, hinfix⟩ := Member.item member
      exact ⟨part, hpart, hinfix.trans (List.prefix_append _ _).isInfix⟩
    · obtain ⟨part, hpart, hinfix⟩ := ih hf
      exact ⟨part, hpart, hinfix.trans ⟨first ++ [','], [], by simp⟩⟩

theorem stringText_of_stringIn {levels : ℕ} {v : JsonValue} (h : ValueText plain levels cs v)
    (hin : StringIn text v) : ∃ literal, StringText plain literal text ∧ literal <:+: cs := by
  induction levels generalizing cs v with
  | zero => exact h.elim
  | succ levels ih =>
    cases hin with
    | here =>
      cases h with
      | string string => exact ⟨cs, string, List.infix_rfl⟩
    | item mem inside =>
      cases h with
      | emptyArray => simp at mem
      | array elements =>
        obtain ⟨part, hpart, hinfix⟩ := Elements.item elements mem
        obtain ⟨literal, hliteral, hinside⟩ := ih hpart inside
        exact ⟨literal, hliteral, (hinside.trans hinfix).trans ⟨['['], [']'], by simp⟩⟩
    | field mem inside =>
      cases h with
      | emptyObject => simp at mem
      | object members =>
        obtain ⟨part, hpart, hinfix⟩ := Members.field members mem
        obtain ⟨literal, hliteral, hinside⟩ := ih hpart inside
        exact ⟨literal, hliteral, (hinside.trans hinfix).trans ⟨['\x7b'], ['\x7d'], by simp⟩⟩

theorem CharsText.split {front back : List Char} (h : CharsText plain cs (front ++ back)) :
    ∃ as bs, cs = as ++ bs ∧ CharsText plain as front ∧ CharsText plain bs back := by
  induction front generalizing cs with
  | nil => exact ⟨[], cs, rfl, .nil, h⟩
  | cons c front ih =>
    cases h with
    | cons head tail =>
      obtain ⟨as, bs, rfl, hfront, hback⟩ := ih tail
      exact ⟨_ ++ as, bs, (List.append_assoc _ _ _).symm, .cons head hfront, hback⟩

def SpelledPlainly (body apiKey : String) : Prop :=
  ∀ cs, cs <:+: body.toList → CharsText literalChar cs apiKey.toList → cs = apiKey.toList

theorem hidesKey_of_spelling {body apiKey : String}
    (habsent : contains apiKey.toList body.toList = false) (h : SpelledPlainly body apiKey) :
    HidesKey body apiKey := by
  rintro value text hparse hin ⟨before, after, htext⟩
  obtain ⟨literal, hliteral, hinfix⟩ : ∃ literal, StringText literalChar literal text ∧
      literal <:+: body.toList := by
    have hjson := parse_sound hparse
    generalize body.toList = cs at hjson ⊢
    obtain ⟨left, hvalue, right⟩ := hjson
    obtain ⟨literal, hliteral, hinside⟩ := stringText_of_stringIn hvalue hin
    exact ⟨literal, hliteral, hinside.trans (List.infix_append' _ _ _)⟩
  obtain @⟨cs, out, hchars⟩ := hliteral
  rw [String.toList_ofList, List.append_assoc] at htext
  rw [← htext] at hchars
  obtain ⟨front, tail, rfl, -, htail⟩ := CharsText.split hchars
  obtain ⟨middle, back, rfl, hkey, -⟩ := CharsText.split htail
  have hmiddle : middle <:+: body.toList := by
    refine List.IsInfix.trans ?_ hinfix
    exact ⟨'"' :: front, back ++ ['"'], by simp⟩
  have hsame := h middle hmiddle hkey
  rw [hsame, ← contains_iff_infix, habsent] at hmiddle
  exact absurd hmiddle (by simp)

end Spellings

end Keys

/-- A call that keeps the credential: it goes to a place it may go to, with the key the
configuration is for, and its body does not hold the key. -/
structure Kept (adapter : ProviderAdapter) (load : String → Except ProviderAdapterError String)
    (call : ProviderHttpRequest) : Prop where
  sheltered : Sheltered call.endpoint
  loaded : load adapter.config.apiKeyEnv = .ok call.apiKey
  scope : credentialScopeHash call.endpoint call.apiKey = adapter.config.credentialScopeHash
  hidden : HidesKey call.bodyJson call.apiKey

/-- No text of a request has the key in it, or the key needs no escape. -/
def KeyKept (config : ProviderConfig) (request : ProviderRequest) (apiKey : String) : Prop :=
  PlainText apiKey ∨ ∀ text ∈ [config.model, request.systemInstructions, request.data],
    ¬apiKey.toList <:+: (sanitize text).toList

/-- The calls that keep the credential. Without a template they are known from the endpoint, the
key and the texts; with one, from the endpoint as long as the body does not spell the key with
escapes. -/
theorem call_keeps_credential (adapter : ProviderAdapter)
    (load : String → Except ProviderAdapterError String)
    (http : ProviderHttpRequest → Except ProviderTransportError String) (elapsedMs : ℕ)
    (request : ProviderRequest) (call : ProviderHttpRequest)
    (h : call ∈ (adapter.executeWith load http elapsedMs request).1) :
    (isBlank adapter.config.bodyTemplate = true →
      (Kept adapter load call ↔
        EndpointKept call.endpoint ∧ KeyKept adapter.config request call.apiKey)) ∧
    (isBlank adapter.config.bodyTemplate = false →
      (Kept adapter load call → EndpointKept call.endpoint) ∧
      (SpelledPlainly call.bodyJson call.apiKey →
        (Kept adapter load call ↔ EndpointKept call.endpoint))) := by
  obtain ⟨-, hload, hscope, hbody, habsent, hendpoint, -⟩ := prepare_eq_ok.mp (mem_executeWith.mp h)
  have hsheltered : Sheltered call.endpoint ↔ EndpointKept call.endpoint := by
    rw [hendpoint]
    exact sheltered_iff adapter.valid
  have hkept : Kept adapter load call ↔
      EndpointKept call.endpoint ∧ HidesKey call.bodyJson call.apiKey := by
    rw [← hsheltered]
    exact ⟨fun hkept => ⟨hkept.sheltered, hkept.hidden⟩,
      fun hkept => ⟨hkept.1, hload, by rw [hendpoint]; exact hscope, hkept.2⟩⟩
  refine ⟨fun hblank => ?_, fun _ => ⟨fun h => (hkept.mp h).1, fun hspelled => ?_⟩⟩
  · obtain ⟨thinking, hthinking⟩ : ∃ thinking, adapter.config.thinkingLevel = some thinking := by
      rw [requestBody, bind_eq_ok] at hbody
      obtain ⟨thinking, hthinking, -⟩ := hbody
      exact ⟨thinking, okOr_eq_ok.mp hthinking⟩
    rw [requestBody_plain hthinking hblank] at hbody
    have htext := Except.ok.inj hbody
    rw [hkept, ← htext, hidesKey_text _ (by rw [htext]; exact habsent)]
    rfl
  · rw [hkept]
    exact and_iff_left (hidesKey_of_spelling habsent hspelled)

section Samples

def keyConfig (endpoint apiKey : String) : ProviderConfig :=
  { sampleConfig with
    endpoint
    credentialScopeHash := credentialScopeHash endpoint apiKey }

def postingCall (endpoint apiKey data : String) : ProviderHttpRequest where
  endpoint := endpoint
  authHeader := "authorization"
  authScheme := "Bearer"
  apiKey := apiKey
  bodyJson := BodyFormat.chatCompletions.text "local-coder" "Plan the step." data .high
  timeoutSeconds := 120

theorem posts_call {endpoint apiKey data : String}
    (hvalid : validateConfig (keyConfig endpoint apiKey) = .ok ())
    (hrequest : (ProviderRequest.new "turn" "Plan the step." data).validate = .ok ())
    (habsent : contains apiKey.toList (postingCall endpoint apiKey data).bodyJson.toList = false) :
    postingCall endpoint apiKey data ∈
      ((⟨keyConfig endpoint apiKey, hvalid⟩ : ProviderAdapter).executeWith (fun _ => .ok apiKey)
        (fun _ => .ok "") 0 (.new "turn" "Plan the step." data)).1 := by
  rw [mem_executeWith, prepare_eq_ok]
  refine ⟨hrequest, rfl, rfl, ?_, habsent, rfl, rfl, rfl, rfl⟩
  exact requestBody_plain (show (keyConfig endpoint apiKey).thinkingLevel = some .high from rfl)
    (show isBlank "" = true from rfl)

theorem call_keeps_credential_local : ∃ hvalid, Kept
    ⟨keyConfig "http://127.0.0.1:8080/v1" "key-1", hvalid⟩ (fun _ => .ok "key-1")
    (postingCall "http://127.0.0.1:8080/v1" "key-1" "{}") := by
  have hvalid : validateConfig (keyConfig "http://127.0.0.1:8080/v1" "key-1") = .ok () := by
    decide +kernel
  refine ⟨hvalid, ((call_keeps_credential _ _ _ _ _ _
    (posts_call hvalid (by decide +kernel) (by decide +kernel))).1 rfl).mpr ⟨?_, ?_⟩⟩
  · exact .inr ⟨"127.0.0.1", by decide, ":8080/v1".toList, rfl, .inl ⟨by decide, by decide⟩⟩
  · exact .inl (by decide)

theorem call_leaks_credential :
    (∃ hvalid call, call ∈ ((⟨keyConfig "http://localhost.example/v1" "key-1", hvalid⟩ :
        ProviderAdapter).executeWith (fun _ => .ok "key-1") (fun _ => .ok "") 0
        (.new "turn" "Plan the step." "none")).1 ∧
      Url.scheme call.endpoint.toList = "http".toList ∧
        Url.host call.endpoint.toList = "localhost.example".toList) ∧
    ∃ hvalid call, call ∈ ((⟨keyConfig "https://models.example/v1" "k\"1", hvalid⟩ :
        ProviderAdapter).executeWith (fun _ => .ok "k\"1") (fun _ => .ok "") 0
        (.new "turn" "Plan the step." "say k\"1")).1 ∧
      ∃ value, parse call.bodyJson = .ok value ∧ StringIn "say k\"1" value ∧
        call.apiKey.toList <:+: "say k\"1".toList := by
  constructor
  · exact ⟨by decide +kernel, _, posts_call _ (by decide +kernel) (by decide +kernel),
      by decide, by decide⟩
  · refine ⟨by decide +kernel, _, posts_call _ (by decide +kernel) (by decide +kernel), _,
      parse_text _ _ _ _ _, ?_, ⟨"say ".toList, [], rfl⟩⟩
    exact texts_in_value _ _ (by decide)

end Samples

end AtomVibe.Provider
