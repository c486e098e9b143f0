import AtomVibe.JsonCodec
import AtomVibe.JsonComplete
import AtomVibe.PlannerModel

namespace AtomVibe.Context

open Text Json JsonText JsonRoundTrip JsonCodec JsonGrammar BuildProtocol PlannerModel

structure Evidence where
  nodeId : String
  title : String
  excerpt : String
  score : Int32

structure CoderContextRequest where
  buildId : String
  intent : String
  step : BuildStep
  atomStack : List String
  failureContext : String

structure ScratchpadProjection where
  modelScopeHash : String
  entryCount : ℕ
  lastEntryHash : String
  text : String

def bare (text : String) : String := "\"" ++ text ++ "\""

def evidenceJson (item : Evidence) : String :=
  objectText
    [("node_id", quote item.nodeId), ("title", quote item.title), ("excerpt", quote item.excerpt),
      ("score", item.score.toInt.repr)]

def contextDataJson (request : CoderContextRequest) (evidence : List Evidence)
    (scratchpad : ScratchpadProjection) : String :=
  objectText
    [("operator_request", quote request.intent),
      ("build_id", quote request.buildId),
      ("build_step", bare request.step.asStr),
      ("current_skill", bare request.step.skillId),
      ("atom_stack", arrayText (request.atomStack.map quote)),
      ("verified_failure", quote request.failureContext),
      ("wiki_graph_evidence", arrayText (evidence.map evidenceJson)),
      ("scratchpad", objectText
        [("model_scope_hash", quote scratchpad.modelScopeHash),
          ("entry_count", scratchpad.entryCount.repr),
          ("last_entry_hash", quote scratchpad.lastEntryHash),
          ("projection", quote scratchpad.text)])]

def latestFailure (ledger : BuildLedger) : String :=
  ((ledger.retryLedger.reverse.find? fun record => record.step = ledger.currentStep).map
    (·.summary)).getD ""

def turnData (contextJson : String) (ledger : BuildLedger) : String :=
  objectText
    [("coder_context", contextJson),
      ("planner_state", objectText
        [("build_id", quote ledger.buildId),
          ("project_id", quote ledger.projectId),
          ("revision", ledger.revision.toNat.repr),
          ("status", bare ledger.status.asStr),
          ("current_step", bare ledger.currentStep.asStr),
          ("current_skill", bare ledger.currentSkill),
          ("retry_attempts", (ledger.retryAttempts ledger.currentStep).repr),
          ("deferred_debt_count", ledger.deferredDebt.length.repr),
          ("couple_marker_count", ledger.coupleMarkers.length.repr),
          ("latest_verified_failure", quote (latestFailure ledger))])]

def textValue (text : String) : JsonValue := .string (sanitize text)

def evidenceValue (item : Evidence) : JsonValue :=
  .object
    [("node_id", textValue item.nodeId), ("title", textValue item.title),
      ("excerpt", textValue item.excerpt), ("score", .number item.score.toInt.repr)]

def contextValue (request : CoderContextRequest) (evidence : List Evidence)
    (scratchpad : ScratchpadProjection) : JsonValue :=
  .object
    [("operator_request", textValue request.intent),
      ("build_id", textValue request.buildId),
      ("build_step", .string request.step.asStr),
      ("current_skill", .string request.step.skillId),
      ("atom_stack", .array (request.atomStack.map textValue)),
      ("verified_failure", textValue request.failureContext),
      ("wiki_graph_evidence", .array (evidence.map evidenceValue)),
      ("scratchpad", .object
        [("model_scope_hash", textValue scratchpad.modelScopeHash),
          ("entry_count", .number scratchpad.entryCount.repr),
          ("last_entry_hash", textValue scratchpad.lastEntryHash),
          ("projection", textValue scratchpad.text)])]

def turnValue (context : JsonValue) (ledger : BuildLedger) : JsonValue :=
  .object
    [("coder_context", context),
      ("planner_state", .object
        [("build_id", textValue ledger.buildId),
          ("project_id", textValue ledger.projectId),
          ("revision", .number ledger.revision.toNat.repr),
          ("status", .string ledger.status.asStr),
          ("current_step", .string ledger.currentStep.asStr),
          ("current_skill", .string ledger.currentSkill),
          ("retry_attempts", .number (ledger.retryAttempts ledger.currentStep).repr),
          ("deferred_debt_count", .number ledger.deferredDebt.length.repr),
          ("couple_marker_count", .number ledger.coupleMarkers.length.repr),
          ("latest_verified_failure", textValue (latestFailure ledger))])]

section Renders

variable {k : ℕ}

theorem intText_digits (m : ℕ) : IntText (Nat.toDigits 10 m) := by
  obtain ⟨c, cs, hcs⟩ := List.exists_cons_of_ne_nil (Nat.toDigits_ne_nil (n := m) (b := 10))
  have hdigits : ∀ d ∈ c :: cs, isAsciiDigit d = true :=
    fun d hd => toDigits_isAsciiDigit (by rw [hcs]; exact hd)
  obtain ⟨hc, hrest⟩ := List.forall_mem_cons.mp hdigits
  by_cases hzero : c = '0'
  · subst hzero
    obtain rfl := toDigits_head_zero hcs
    exact .zero
  · rw [hcs]
    exact .digits ⟨hc, hzero⟩ hrest

theorem numberText_repr (i : ℤ) : NumberText i.repr.toList := by
  cases i with
  | ofNat m =>
    have h := NumberText.mk (.inl rfl) (intText_digits m) .none .none
    simpa [Int.repr, Nat.toList_repr] using h
  | negSucc m =>
    have h := NumberText.mk (.inr rfl) (intText_digits (m + 1)) .none .none
    simpa [Int.repr, Nat.toList_repr] using h

theorem renders_numberText {text : String} (hnumber : NumberText text.toList) :
    Renders (k + 1) (.number text) := by
  rw [Renders, render, clean]
  constructor
  · obtain ⟨c, cs, htext, hc⟩ := hnumber.head
    refine ⟨c, cs, htext, ?_, ?_⟩
    · rcases hc with rfl | hc
      · decide
      · exact solid_of_digit hc
    · rcases hc with rfl | hc
      · decide
      · rintro rfl
        exact absurd hc (by decide)
  · intro n tail htail
    have hstops : Stops tail := by
      intro c hc
      rcases htail with h | h | h | h
      · simp [h] at hc
      · exact .inr (.inl (Option.some.inj (hc.symm.trans h)))
      · exact .inr (.inr (.inl (Option.some.inj (hc.symm.trans h))))
      · exact .inr (.inr (.inr (Option.some.inj (hc.symm.trans h))))
    have hread := parseValue_complete (k + 1) (n := n) blanks_nil
      (.number hnumber) hstops
    simpa using hread

theorem renders_int (i : ℤ) : Renders (k + 1) (.number i.repr) :=
  renders_numberText (numberText_repr i)

theorem renders_textValue (text : String) : Renders (k + 1) (textValue text) := renders_string _

theorem render_textValue (text : String) : render (textValue text) = quote text := by
  rw [textValue, render, quote, escape_sanitize, quote]

theorem clean_textValue (text : String) : clean (textValue text) = textValue text := by
  rw [textValue, clean, (sanitize_eq_self_iff _).mpr (lossless_sanitize text)]

theorem bare_asStr (step : BuildStep) : bare step.asStr = quote step.asStr := by
  cases step <;> rfl

theorem bare_skillId (step : BuildStep) : bare step.skillId = quote step.skillId := by
  cases step <;> rfl

theorem bare_status (status : BuildRunStatus) : bare status.asStr = quote status.asStr := by
  cases status <;> rfl

theorem renders_fields {fields : List (String × JsonValue)}
    (hkeys : (fields.map Prod.fst).Nodup ∧
      ∀ key ∈ fields.map Prod.fst, key.toList.all isKeyChar = true)
    (hvalues : ∀ f ∈ fields, Renders k f.2) : Renders (k + 1) (.object fields) :=
  renders_object hkeys.1 fun f hf =>
    ⟨plainKey_of_chars (hkeys.2 f.1 (List.mem_map_of_mem hf)), hvalues f hf⟩

theorem renders_map {α : Type} {value : α → JsonValue} (h : ∀ x, Renders k (value x))
    (xs : List α) : Renders (k + 1) (.array (xs.map value)) := by
  apply renders_array
  intro v hv
  obtain ⟨x, -, rfl⟩ := List.mem_map.mp hv
  exact h x

theorem render_map {α : Type} {value : α → JsonValue} {text : α → String}
    (h : ∀ x, render (value x) = text x) (xs : List α) :
    render (.array (xs.map value)) = arrayText (xs.map text) := by
  rw [render, List.map_map]
  exact congrArg arrayText (List.map_congr_left fun x _ => h x)

theorem clean_map {α : Type} {value : α → JsonValue} (h : ∀ x, clean (value x) = value x)
    (xs : List α) : clean (.array (xs.map value)) = .array (xs.map value) := by
  rw [clean, List.map_map]
  exact congrArg JsonValue.array (List.map_congr_left fun x _ => h x)

theorem clean_lossless {text : String} (h : Lossless text) :
    clean (.string text) = .string text := by
  rw [clean, (sanitize_eq_self_iff text).mpr h]

theorem renders_evidence (item : Evidence) : Renders (k + 2) (evidenceValue item) := by
  apply renders_fields (by simp only [List.map]; decide)
  simp only [List.forall_mem_cons, List.not_mem_nil, false_imp_iff, implies_true, and_true]
  exact ⟨renders_textValue _, renders_textValue _, renders_textValue _, renders_int _⟩

theorem render_evidence (item : Evidence) : render (evidenceValue item) = evidenceJson item := by
  rw [evidenceValue, render]
  simp only [List.map_cons, List.map_nil, render_textValue, render, evidenceJson]

theorem clean_evidence (item : Evidence) : clean (evidenceValue item) = evidenceValue item := by
  rw [evidenceValue, clean]
  simp only [List.map_cons, List.map_nil, clean_textValue, clean]

end Renders

section Documents

variable (request : CoderContextRequest) (evidence : List Evidence)
  (scratchpad : ScratchpadProjection) (ledger : BuildLedger)

theorem lossless_skillId (step : BuildStep) : Lossless step.skillId := by
  cases step <;> decide

theorem lossless_status (status : BuildRunStatus) : Lossless status.asStr := by
  cases status <;> decide

theorem renders_context (k : ℕ) : Renders (k + 4) (contextValue request evidence scratchpad) := by
  apply renders_fields (by simp only [List.map]; decide)
  simp only [List.forall_mem_cons, List.not_mem_nil, false_imp_iff, implies_true, and_true]
  refine ⟨renders_textValue _, renders_textValue _, renders_string _, renders_string _,
    renders_map renders_textValue _, renders_textValue _, renders_map renders_evidence _, ?_⟩
  apply renders_fields (by simp only [List.map]; decide)
  simp only [List.forall_mem_cons, List.not_mem_nil, false_imp_iff, implies_true, and_true]
  exact ⟨renders_textValue _, renders_number _, renders_textValue _, renders_textValue _⟩

theorem render_context : render (contextValue request evidence scratchpad) =
    contextDataJson request evidence scratchpad := by
  rw [contextValue, render, contextDataJson]
  simp only [List.map_cons, List.map_nil, render_textValue, render_map render_textValue,
    render_map render_evidence, bare_asStr, bare_skillId]
  simp only [render, List.map_cons, List.map_nil, render_textValue]

theorem clean_context : clean (contextValue request evidence scratchpad) =
    contextValue request evidence scratchpad := by
  rw [contextValue, clean]
  simp only [List.map_cons, List.map_nil, clean_textValue, clean_map clean_textValue,
    clean_map clean_evidence, clean_lossless request.step.lossless_asStr,
    clean_lossless (lossless_skillId request.step)]
  simp only [clean, List.map_cons, List.map_nil, clean_textValue]

theorem parse_contextDataJson : parse (contextDataJson request evidence scratchpad) =
    .ok (contextValue request evidence scratchpad) := by
  have h := (renders_context request evidence scratchpad 61).parse
  rwa [render_context, clean_context] at h

theorem parse_turnData : parse (turnData (contextDataJson request evidence scratchpad) ledger) =
    .ok (turnValue (contextValue request evidence scratchpad) ledger) := by
  have hrenders : Renders (maxDepth + 1)
      (turnValue (contextValue request evidence scratchpad) ledger) := by
    apply renders_fields (by simp only [List.map]; decide)
    simp only [List.forall_mem_cons, List.not_mem_nil, false_imp_iff, implies_true, and_true]
    refine ⟨renders_context request evidence scratchpad 60, ?_⟩
    apply renders_fields (by simp only [List.map]; decide)
    simp only [List.forall_mem_cons, List.not_mem_nil, false_imp_iff, implies_true, and_true]
    exact ⟨renders_textValue _, renders_textValue _, renders_number _, renders_string _,
      renders_string _, renders_string _, renders_number _, renders_number _, renders_number _,
      renders_textValue _⟩
  have hrender : render (turnValue (contextValue request evidence scratchpad) ledger) =
      turnData (contextDataJson request evidence scratchpad) ledger := by
    rw [turnValue, render, turnData]
    simp only [List.map_cons, List.map_nil, render_context, render, render_textValue, bare_asStr,
      bare_status, BuildLedger.currentSkill, bare_skillId]
  have hclean : clean (turnValue (contextValue request evidence scratchpad) ledger) =
      turnValue (contextValue request evidence scratchpad) ledger := by
    rw [turnValue, clean]
    simp only [List.map_cons, List.map_nil, clean_context]
    rw [clean]
    simp only [List.map_cons, List.map_nil, clean_textValue, BuildLedger.currentSkill,
      clean_lossless (lossless_status ledger.status),
      clean_lossless ledger.currentStep.lossless_asStr,
      clean_lossless (lossless_skillId ledger.currentStep)]
    simp only [clean]
  have h := hrenders.parse
  rwa [hrender, hclean] at h

end Documents

end AtomVibe.Context
