import AtomVibe.ProviderCall
import AtomVibe.SecretsWithin
import AtomVibe.HtmlTokens

namespace AtomVibe.Work

open Checked Text Json JsonGrammar Provider Secrets

section Keys

variable {plain : Char → Bool} {cs : List Char}

inductive KeyIn (key : String) : JsonValue → Prop
  | here {fields : List (String × JsonValue)} {f : String × JsonValue} (mem : f ∈ fields)
      (named : f.1 = key) : KeyIn key (.object fields)
  | item {values : List JsonValue} {v : JsonValue} (mem : v ∈ values) (inside : KeyIn key v) :
      KeyIn key (.array values)
  | field {fields : List (String × JsonValue)} {f : String × JsonValue} (mem : f ∈ fields)
      (inside : KeyIn key f.2) : KeyIn key (.object fields)

variable {value : List Char → JsonValue → Prop}

theorem Member.key {f : String × JsonValue} (h : Member plain value cs f) :
    ∃ literal, StringText plain literal f.1 ∧ literal <:+: cs := by
  obtain @⟨before, name, colon, gap, part, after, k, v, left, hname, middle, space, item, right⟩ := h
  exact ⟨name, hname, before, colon ++ ':' :: (gap ++ (part ++ after)), by simp⟩

theorem Members.key {fs : List (String × JsonValue)} (h : Members plain value cs fs)
    {f : String × JsonValue} (hf : f ∈ fs) :
    ∃ literal, StringText plain literal f.1 ∧ literal <:+: cs := by
  induction h with
  | one member =>
    obtain rfl := List.mem_singleton.mp hf
    exact Member.key member
  | @more first rest g gs member others ih =>
    rcases List.mem_cons.mp hf with rfl | hf
    · obtain ⟨literal, hliteral, hinfix⟩ := Member.key member
      exact ⟨literal, hliteral, hinfix.trans (List.prefix_append _ _).isInfix⟩
    · obtain ⟨literal, hliteral, hinfix⟩ := ih hf
      exact ⟨literal, hliteral, hinfix.trans ⟨first ++ [','], [], by simp⟩⟩

theorem stringText_of_keyIn {levels : ℕ} {key : String} {v : JsonValue}
    (h : ValueText plain levels cs v)
    (hin : KeyIn key v) : ∃ literal, StringText plain literal key ∧ literal <:+: cs := by
  induction levels generalizing cs v with
  | zero => exact h.elim
  | succ levels ih =>
    cases hin with
    | here mem named =>
      cases h with
      | emptyObject => simp at mem
      | object members =>
        obtain ⟨literal, hliteral, hinfix⟩ := Members.key members mem
        exact ⟨literal, named ▸ hliteral, hinfix.trans ⟨['\x7b'], ['\x7d'], by simp⟩⟩
    | item mem inside =>
      cases h with
      | emptyArray => simp at mem
      | array elements =>
        obtain ⟨part, hpart, hinfix⟩ := Elements.item elements mem
        obtain ⟨literal, hliteral, hinside⟩ := ih hpart inside
        exact ⟨literal, hliteral, (hinside.trans hinfix).trans ⟨['['], [']'], by simp⟩⟩
    | field mem inside =>
      cases h with
      | emptyObject => simp at mem
      | object members =>
        obtain ⟨part, hpart, hinfix⟩ := Members.field members mem
        obtain ⟨literal, hliteral, hinside⟩ := ih hpart inside
        exact ⟨literal, hliteral, (hinside.trans hinfix).trans ⟨['\x7b'], ['\x7d'], by simp⟩⟩

end Keys

def DecodedIn (text : String) (v : JsonValue) : Prop := StringIn text v ∨ KeyIn text v

theorem literal_of_decodedIn {input text : String} {v : JsonValue} (h : parse input = .ok v)
    (hin : DecodedIn text v) :
    ∃ literal, StringText literalChar literal text ∧ literal <:+: input.toList := by
  have hjson := parse_sound h
  generalize input.toList = cs at hjson ⊢
  obtain ⟨left, hvalue, right⟩ := hjson
  rcases hin with hin | hin
  · obtain ⟨literal, hliteral, hinside⟩ := stringText_of_stringIn hvalue hin
    exact ⟨literal, hliteral, hinside.trans (List.infix_append' _ _ _)⟩
  · obtain ⟨literal, hliteral, hinside⟩ := stringText_of_keyIn hvalue hin
    exact ⟨literal, hliteral, hinside.trans (List.infix_append' _ _ _)⟩

theorem CharsText.plainly {plain : Char → Bool} {cs out : List Char} (h : CharsText plain cs out)
    (hplain : '\\' ∉ cs) : cs = out := by
  induction h with
  | nil => rfl
  | cons head tail ih =>
    rw [List.mem_append, not_or] at hplain
    rw [← ih hplain.2]
    cases head with
    | plain => rfl
    | escape => exact absurd List.mem_cons_self hplain.1
    | unit => exact absurd List.mem_cons_self hplain.1
    | pair => exact absurd List.mem_cons_self hplain.1

theorem escaped_of_contains {input text : String} {v : JsonValue} (h : parse input = .ok v)
    (hclean : containsCredentialMaterial input = false) (hin : DecodedIn text v)
    (hsecret : containsCredentialMaterial text = true) :
    ∃ literal, StringText literalChar literal text ∧ literal <:+: input.toList ∧ '\\' ∈ literal := by
  obtain ⟨literal, hliteral, front, rest, hinput⟩ := literal_of_decodedIn h hin
  refine ⟨literal, hliteral, ⟨front, rest, hinput⟩, ?_⟩
  obtain @⟨cs, out, hchars⟩ := hliteral
  by_contra hplain
  have hplainly : '\\' ∉ cs := fun hmem =>
    hplain (List.mem_cons_of_mem _ (List.mem_append_left _ hmem))
  obtain rfl := CharsText.plainly hchars hplainly
  have hquoted := @contains_of_quoted front cs rest hsecret
  have hsame : input = String.ofList (quoted front cs rest) := by
    rw [← String.ofList_toList (s := input), ← hinput, quoted]
    simp
  rw [← hsame, hclean] at hquoted
  exact absurd hquoted (by decide)

theorem parse_of_payload {output : String} {v : JsonValue} (h : parsePayload output = .ok v) :
    parse (trim output) = .ok v := by
  simp only [parsePayload, extractJsonPayload, bind_eq_ok, pure_eq_ok, mapError_eq_ok] at h
  obtain ⟨payload, ⟨-, -, rfl⟩, h⟩ := h
  exact h

theorem parse_of_validate {rust : RustText} {packet : WorkPacket} {output : String}
    {result : ValidatedPacketOutput} (hcontract : packet.contract ≠ .fileArtifact)
    (h : validatePacketOutput rust packet output = .ok result) :
    ∃ value, parse result.context = .ok value := by
  simp only [validatePacketOutput, bind_eq_ok] at h
  obtain ⟨-, -, -, -, h⟩ := h
  cases hkind : packet.contract with
  | envelope =>
    rw [hkind] at h
    simp only [validateEnvelope, bind_eq_ok, pure_eq_ok] at h
    obtain ⟨value, hvalue, -, -, -, -, -, -, -, -, -, -, -, -, -, -, rfl⟩ := h
    exact ⟨value, parse_of_payload hvalue⟩
  | fileManifest =>
    rw [hkind] at h
    simp only [validateManifest, bind_eq_ok, pure_eq_ok] at h
    obtain ⟨value, hvalue, -, -, -, -, -, -, -, -, -, -, -, -, rfl⟩ := h
    exact ⟨value, parse_of_payload hvalue⟩
  | fileArtifact => exact absurd hkind hcontract

/-- An answer with a file in it is accepted when it is valid and has no credential material; a
document without credential material is accepted when it is valid; and the credential material of
an accepted document that has none as a text is spelled with an escape. -/
theorem secure_output (rust : RustText) (packet : WorkPacket) (output : String)
    (result : ValidatedPacketOutput) :
    (packet.contract = .fileArtifact →
      (validateSecurePacketOutput rust packet output = .ok result ↔
        containsCredentialMaterial output = false ∧
          validatePacketOutput rust packet output = .ok result)) ∧
    (packet.contract ≠ .fileArtifact →
      (containsCredentialMaterial output = false →
        validateSecurePacketOutput rust packet output = validatePacketOutput rust packet output) ∧
      (validateSecurePacketOutput rust packet output = .ok result →
        containsCredentialMaterial result.context = false →
        ∃ value, parse result.context = .ok value ∧
          ∀ text, DecodedIn text value → containsCredentialMaterial text = true →
            ∃ literal, StringText literalChar literal text ∧
              literal <:+: result.context.toList ∧ '\\' ∈ literal)) := by
  constructor
  · intro hcontract
    rw [validateSecurePacketOutput, hcontract]
    simp only [bind_eq_ok, refuseIf_eq_ok, Bool.not_eq_true]
    constructor
    · rintro ⟨-, hclean, hvalid⟩
      exact ⟨hclean, hvalid⟩
    · rintro ⟨hclean, hvalid⟩
      exact ⟨(), hclean, hvalid⟩
  · intro hcontract
    have hredacts : validateSecurePacketOutput rust packet output =
        validatePacketOutput rust packet (redactSensitiveText output) := by
      rw [validateSecurePacketOutput]
      cases hkind : packet.contract with
      | envelope => rfl
      | fileManifest => rfl
      | fileArtifact => exact absurd hkind hcontract
    constructor
    · intro hclean
      rw [hredacts, redactSensitiveText_of_clean hclean]
    · intro haccepted hclean
      rw [hredacts] at haccepted
      obtain ⟨value, hvalue⟩ := parse_of_validate hcontract haccepted
      exact ⟨value, hvalue, fun text hin hsecret => escaped_of_contains hvalue hclean hin hsecret⟩

section Samples

theorem stringIn_of_get {v : JsonValue} {key text : String}
    (h : (v.get key).bind JsonValue.asStr = some text) : StringIn text v := by
  cases v with
  | object fields =>
    simp only [JsonValue.get, JsonValue.asObject, Option.bind_map, Option.bind_eq_some_iff] at h
    obtain ⟨f, hfind, hstring⟩ := h
    have hvalue : f.2 = .string text := by
      cases hv : f.2 <;> simp [hv, JsonValue.asStr] at hstring
      rw [hstring]
    exact .field (List.mem_of_find?_eq_some hfind) (hvalue ▸ .here)
  | _ => simp [JsonValue.get, JsonValue.asObject] at h

def asciiText : RustText where
  toLowercase := List.map Char.toLower
  isAlphanumeric := isAsciiAlphanumeric
  debugSet keys := "\x7b" ++ ", ".intercalate keys ++ "\x7d"

def packetOf (contract : PacketContract) : WorkPacket :=
  { id := "p"
    ordinal := 0
    stage := .intent
    contract
    objective := ""
    acceptance := []
    dependencies := []
    file := none
    maxOutputBytes := 1024 }

def escapedKey : String :=
  "\x7b\"packet_id\":\"p\",\"status\":\"complete\",\"result\":" ++
    "\"\\u0073k-abcdefghijklmnop\",\"checks\":[\"c\"],\"risks\":[]\x7d"

def keyFile : String := "```\nlet key = \"sk-abcdefghijklmnop\";\n```"

theorem secure_output_leaks :
    (∃ result value, validateSecurePacketOutput asciiText (packetOf .envelope) escapedKey =
        .ok result ∧ parse result.context = .ok value ∧
      DecodedIn "sk-abcdefghijklmnop" value ∧
      containsCredentialMaterial "sk-abcdefghijklmnop" = true) ∧
    ∃ result, validatePacketOutput asciiText (packetOf .fileArtifact) keyFile = .ok result ∧
      ∀ result, validateSecurePacketOutput asciiText (packetOf .fileArtifact) keyFile ≠
        .ok result := by
  have haccepted : validateSecurePacketOutput asciiText (packetOf .envelope) escapedKey =
      .ok { context := escapedKey, files := [] } := by decide +kernel
  have hresult : (parse escapedKey).toOption.bind
      (fun value => (value.get "result").bind JsonValue.asStr) = some "sk-abcdefghijklmnop" := by
    decide +kernel
  have hvalid : validatePacketOutput asciiText (packetOf .fileArtifact) keyFile =
      .ok { context := keyFile, files := [] } := by decide +kernel
  have hsecret : containsCredentialMaterial keyFile = true := by decide +kernel
  refine ⟨?_, _, hvalid, ?_⟩
  · obtain ⟨value, hvalue, hget⟩ := Option.bind_eq_some_iff.mp hresult
    refine ⟨_, value, haccepted, ?_, .inl (stringIn_of_get hget), by decide +kernel⟩
    cases hparse : parse escapedKey with
    | error error => rw [hparse] at hvalue; exact absurd hvalue (by simp [Except.toOption])
    | ok parsed =>
      rw [hparse] at hvalue
      rw [Option.some.inj hvalue]
  · intro result h
    simp only [validateSecurePacketOutput, packetOf, bind_eq_ok, refuseIf_eq_ok] at h
    obtain ⟨-, hclean, -⟩ := h
    exact hclean hsecret

end Samples

end AtomVibe.Work

namespace AtomVibe.Work

open Checked Text Html

section Fence

variable {rust : RustText} {packet : WorkPacket} {output : String} {text info content : List Char}

/-- The steps of `file_artifact_content` at byte offsets; a panic is `none`. -/
def checkedFileContent (rust : RustText) (packet : WorkPacket) (output : String) :
    Option (Except WorkError (List Char)) :=
  let trimmed := (trim output).toList
  if fence.isPrefixOf trimmed = false ∨ fence.isSuffixOf trimmed = false then
    some (.error (.invalidOutput ("packet " ++ packet.id ++ " must return exactly one fenced file")))
  else
    match findChar '\n' trimmed with
    | none =>
      some (.error (.invalidOutput ("packet " ++ packet.id ++ " file fence has no content")))
    | some firstNewline => do
      -- `trimmed.len() - 3`
      guard (3 ≤ utf8Len trimmed)
      let contentEnd := utf8Len trimmed - 3
      let empty := some (.error (.invalidOutput
        ("packet " ++ packet.id ++ " contains an empty or multiple file fence")))
      if contentEnd ≤ firstNewline + 1 then empty
      else
        let content ← checkedSlice trimmed (firstNewline + 1) contentEnd
        if content.all isWhitespace = true ∨ contains fence content = true then empty
        else
          match incompleteCodeMarker rust content with
          | some marker => some (.error (.invalidOutput ("packet " ++ packet.id ++
              " contains forbidden incomplete-code marker " ++ marker)))
          | none => some (.ok content)

def fencedContent (rust : RustText) (packet : WorkPacket) (content : List Char) :
    Except WorkError (List Char) :=
  if content.all isWhitespace = true ∨ contains fence content = true then
    .error (.invalidOutput ("packet " ++ packet.id ++ " contains an empty or multiple file fence"))
  else
    match incompleteCodeMarker rust content with
    | some marker => .error (.invalidOutput ("packet " ++ packet.id ++
        " contains forbidden incomplete-code marker " ++ marker))
    | none => .ok content

def Fenced (info content text : List Char) : Prop :=
  '\n' ∉ info ∧ text = fence ++ info ++ '\n' :: content ++ fence

theorem newline_not_mem_fence : '\n' ∉ fence := by decide

theorem exists_fenced (hstart : fence <+: text) (hend : fence <:+ text) (hbreak : '\n' ∈ text) :
    ∃ info content, Fenced info content text := by
  obtain ⟨front, rest, rfl, hfront⟩ := List.eq_append_cons_of_mem hbreak
  have hopen : ∃ info, front = fence ++ info := by
    obtain ⟨tail, htail⟩ := hstart
    rcases List.append_eq_append_iff.mp htail with ⟨info, hinfo, -⟩ | ⟨others, hothers, hrest⟩
    · exact ⟨info, hinfo⟩
    · cases others with
      | nil => exact ⟨[], by rw [hothers, List.append_nil, List.append_nil]⟩
      | cons c others =>
        obtain ⟨rfl, -⟩ := List.cons.inj hrest
        exact absurd (hothers ▸ List.mem_append_right _ List.mem_cons_self) newline_not_mem_fence
  have hclose : ∃ content, rest = content ++ fence := by
    obtain ⟨body, hbody⟩ := hend
    rcases List.append_eq_append_iff.mp hbody with ⟨others, -, hfence⟩ | ⟨others, -, hrest⟩
    · exact absurd (hfence ▸ List.mem_append_right _ List.mem_cons_self) newline_not_mem_fence
    · cases others with
      | nil =>
        have hmem : '\n' ∈ '\n' :: rest := List.mem_cons_self
        rw [hrest] at hmem
        exact absurd hmem newline_not_mem_fence
      | cons c content => exact ⟨content, (List.cons.inj hrest).2⟩
  obtain ⟨info, rfl⟩ := hopen
  obtain ⟨content, rfl⟩ := hclose
  exact ⟨info, content, fun h => hfront (List.mem_append_right _ h), by simp⟩

theorem Fenced.ends (h : Fenced info content text) : fence <+: text ∧ fence <:+ text := by
  obtain ⟨-, rfl⟩ := h
  refine ⟨⟨info ++ '\n' :: content ++ fence, by simp⟩, fence ++ info ++ '\n' :: content, by simp⟩

theorem Fenced.not_mem (h : Fenced info content text) : '\n' ∉ fence ++ info := by
  rw [List.mem_append, not_or]
  exact ⟨newline_not_mem_fence, h.1⟩

theorem Fenced.firstNewline (h : Fenced info content text) :
    text.findIdx? (· == '\n') = some (fence ++ info).length ∧
      findChar '\n' text = some (utf8Len (fence ++ info)) := by
  have hbreak := h.not_mem
  obtain ⟨-, rfl⟩ := h
  rw [List.append_assoc (fence ++ info)]
  refine ⟨?_, findChar_front hbreak _⟩
  have hnone : (fence ++ info).findIdx? (· == '\n') = none := by
    rw [List.findIdx?_eq_none_iff]
    intro c hc
    rw [beq_eq_false_iff_ne]
    exact fun heq => hbreak (heq ▸ hc)
  rw [List.findIdx?_append, hnone, List.cons_append, List.findIdx?_cons]
  simp

theorem fileArtifactContent_fenced (h : Fenced info content (trim output).toList) :
    fileArtifactContent rust packet output = fencedContent rust packet content := by
  obtain ⟨hstart, hend⟩ := h.ends
  have hnewline := h.firstNewline.1
  obtain ⟨-, htext⟩ := h
  have hlength : (trim output).toList.length - 3 = (fence ++ info).length + 1 + content.length := by
    rw [htext]
    simp only [List.length_append, List.length_cons, show fence.length = 3 from rfl]
    omega
  have hcontent : ((trim output).toList.take ((fence ++ info).length + 1 + content.length)).drop
      ((fence ++ info).length + 1) = content := by
    have hfront : (fence ++ info).length + 1 = (fence ++ info ++ ['\n']).length := by
      rw [@List.length_append _ _ ['\n']]
      rfl
    have htake : (fence ++ info).length + 1 + content.length =
        (fence ++ info ++ '\n' :: content).length := by
      simp only [List.length_append, List.length_cons]
      omega
    rw [htake, htext, List.take_left, hfront, List.append_cons _ '\n' content, List.drop_left]
  have hrefused : (fence ++ info).length + 1 + content.length ≤ (fence ++ info).length + 1 ∨
      content.all isWhitespace = true ∨ contains fence content = true ↔
      content.all isWhitespace = true ∨ contains fence content = true := by
    refine ⟨fun h => h.elim (fun hle => .inl ?_) id, .inr⟩
    have hnil : content = [] := List.length_eq_zero_iff.mp (by omega)
    rw [hnil]
    rfl
  have hends : refuseIf (true = false ∨ true = false) (WorkError.invalidOutput
      ("packet " ++ packet.id ++ " must return exactly one fenced file")) = .ok () :=
    if_neg (by decide)
  simp only [fileArtifactContent, List.isPrefixOf_iff_prefix.mpr hstart,
    List.isSuffixOf_iff_suffix.mpr hend, hnewline, okOr_some, hlength, hends, ok_bind, hcontent,
    hrefused]
  rw [fencedContent, refuseIf]
  split
  · rfl
  · rfl

theorem checkedFileContent_fenced (h : Fenced info content (trim output).toList) :
    checkedFileContent rust packet output = some (fencedContent rust packet content) := by
  obtain ⟨hstart, hend⟩ := h.ends
  have hnewline := h.firstNewline.2
  obtain ⟨-, htext⟩ := h
  have hsize : utf8Len (fence ++ info) + 1 = utf8Len (fence ++ info ++ ['\n']) := by
    rw [utf8Len_append _ ['\n']]
    rfl
  have hcontentEnd : utf8Len (trim output).toList - 3 =
      utf8Len (fence ++ info ++ ['\n'] ++ content) := by
    rw [htext, utf8Len_append _ fence, List.append_cons]
    exact Nat.add_sub_cancel _ 3
  have hslice : checkedSlice (trim output).toList (utf8Len (fence ++ info ++ ['\n']))
      (utf8Len (fence ++ info ++ ['\n'] ++ content)) = some content := by
    rw [htext, List.append_cons]
    exact checkedSlice_middle _ content fence
  have hroom : 3 ≤ utf8Len (trim output).toList := by
    rw [htext, utf8Len_append _ fence]
    exact Nat.le_add_left 3 _
  simp only [checkedFileContent, List.isPrefixOf_iff_prefix.mpr hstart,
    List.isSuffixOf_iff_suffix.mpr hend, hnewline, hsize, hcontentEnd, hslice, guard, if_pos hroom]
  rw [if_neg (by decide)]
  simp only [Option.pure_def, Option.bind_eq_bind, Option.bind_some]
  cases content with
  | nil =>
    rw [if_pos (by rw [List.append_nil]), fencedContent, if_pos (.inl rfl)]
  | cons c content =>
    have hpos := c.utf8Size_pos
    rw [if_neg (by rw [utf8Len_append _ (c :: content), utf8Len_cons]; omega), fencedContent]
    split
    · rfl
    · cases incompleteCodeMarker rust (c :: content) with
      | some marker => rfl
      | none => rfl

theorem checkedFileContent_eq (rust : RustText) (packet : WorkPacket) (output : String) :
    checkedFileContent rust packet output = some (fileArtifactContent rust packet output) := by
  by_cases hends : fence.isPrefixOf (trim output).toList = false ∨
      fence.isSuffixOf (trim output).toList = false
  · rw [checkedFileContent, fileArtifactContent, refuseIf]
    simp only [if_pos hends]
    rfl
  · have hboth := hends
    rw [not_or, Bool.not_eq_false, Bool.not_eq_false] at hboth
    by_cases hbreak : '\n' ∈ (trim output).toList
    · obtain ⟨info, content, hfenced⟩ := exists_fenced (List.isPrefixOf_iff_prefix.mp hboth.1)
        (List.isSuffixOf_iff_suffix.mp hboth.2) hbreak
      rw [checkedFileContent_fenced hfenced, fileArtifactContent_fenced hfenced]
    · have hplace : (trim output).toList.findIdx? (· == '\n') = none := by
        rw [List.findIdx?_eq_none_iff]
        intro c hc
        rw [beq_eq_false_iff_ne]
        exact fun heq => hbreak (heq ▸ hc)
      have hoffset := findChar_eq_none.mpr hbreak
      rw [checkedFileContent, fileArtifactContent, refuseIf, hplace]
      simp only [if_neg hends, hoffset]
      rfl

theorem fencedContent_eq_ok {made : List Char} : fencedContent rust packet content = .ok made ↔
    made = content ∧ content.all isWhitespace = false ∧ contains fence content = false ∧
      incompleteCodeMarker rust content = none := by
  rw [fencedContent]
  split
  · rename_i hrefused
    refine iff_of_false (by simp) ?_
    rintro ⟨-, hblank, hfence, -⟩
    rcases hrefused with h | h
    · exact absurd (h.symm.trans hblank) (by decide)
    · exact absurd (h.symm.trans hfence) (by decide)
  · rename_i hrefused
    rw [not_or, Bool.not_eq_true, Bool.not_eq_true] at hrefused
    cases hmarker : incompleteCodeMarker rust content with
    | some marker => simp
    | none =>
      constructor
      · intro h
        exact ⟨(Except.ok.inj h).symm, hrefused.1, hrefused.2, rfl⟩
      · rintro ⟨rfl, -⟩
        rfl

theorem fileArtifactContent_eq_ok : fileArtifactContent rust packet output = .ok content ↔
    (∃ info, Fenced info content (trim output).toList) ∧ content.all isWhitespace = false ∧
      contains fence content = false ∧ incompleteCodeMarker rust content = none := by
  constructor
  · intro h
    have hok := h
    simp only [fileArtifactContent, bind_eq_ok, refuseIf_eq_ok, not_or, Bool.not_eq_false] at hok
    obtain ⟨-, ⟨hstart, hend⟩, firstNewline, hnewline, -⟩ := hok
    have hbreak : '\n' ∈ (trim output).toList := by
      cases hplace : (trim output).toList.findIdx? (· == '\n') with
      | none =>
        rw [hplace] at hnewline
        cases hnewline
      | some place =>
        obtain ⟨hlt, hchar, -⟩ := List.findIdx?_eq_some_iff_getElem.mp hplace
        rw [← beq_iff_eq.mp hchar]
        exact List.getElem_mem hlt
    obtain ⟨info, between, hfenced⟩ := exists_fenced (List.isPrefixOf_iff_prefix.mp hstart)
      (List.isSuffixOf_iff_suffix.mp hend) hbreak
    rw [fileArtifactContent_fenced hfenced] at h
    obtain ⟨rfl, hkept⟩ := fencedContent_eq_ok.mp h
    exact ⟨⟨info, hfenced⟩, hkept⟩
  · rintro ⟨⟨info, hfenced⟩, hkept⟩
    rw [fileArtifactContent_fenced hfenced]
    exact fencedContent_eq_ok.mpr ⟨rfl, hkept⟩

end Fence

/-- The accepted outputs are those that begin with a fence and its info line and end with a fence,
whatever else the info line says and wherever on its line the last fence stands. The file is the
text between, and to find it no slice panics. -/
theorem accepted_files_are_fenced (rust : RustText) (packet : WorkPacket) (output : String) :
    checkedFileContent rust packet output = some (fileArtifactContent rust packet output) ∧
      ∀ content, fileArtifactContent rust packet output = .ok content ↔
        (∃ info, Fenced info content (trim output).toList) ∧
          content.all isWhitespace = false ∧ contains fence content = false ∧
          incompleteCodeMarker rust content = none :=
  ⟨checkedFileContent_eq rust packet output, fun _ => fileArtifactContent_eq_ok⟩

/-- One block: the info line has no fence, and the closing fence has a line of its own. -/
def OneBlock (info content text : List Char) : Prop :=
  Fenced info content text ∧ contains fence info = false ∧ content.getLast? = some '\n'

theorem closed_within_a_line : ¬∀ (rust : RustText) (packet : WorkPacket) (output : String)
    (content : List Char), fileArtifactContent rust packet output = .ok content ↔
      (∃ info, OneBlock info content (trim output).toList) ∧
        content.all isWhitespace = false ∧ contains fence content = false ∧
        incompleteCodeMarker rust content = none := by
  intro h
  have htaken : fileArtifactContent asciiText (packetOf .fileArtifact) "```rust\nfn main() \x7b\x7d```" =
      .ok "fn main() \x7b\x7d".toList := by decide +kernel
  obtain ⟨⟨info, -, -, hlast⟩, -⟩ := (h _ _ _ _).mp htaken
  exact absurd hlast (by decide +kernel)

end AtomVibe.Work
