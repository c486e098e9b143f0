import AtomVibe.WikiRecall

namespace AtomVibe.Learning

open Text PrefixCode Recency

def isSeparator (c : Char) : Bool := !isAsciiAlphanumeric c && c != '-'

def letters (value : String) : List Char :=
  (value.toList.filter isAsciiAlphanumeric).map Char.toLower

def WholeWords (value : String) : Prop :=
  ∀ part ∈ value.toList.splitOnP isSeparator, part.length ≠ 1

def joinedTokens (value : String) : String := String.intercalate "-" (tokenize value)

structure SameLesson (a b : LearningRecord) : Prop where
  outcome : a.outcome = b.outcome
  place : a.source ++ "|" ++ a.gate ++ "|" ++ a.recipeId =
    b.source ++ "|" ++ b.gate ++ "|" ++ b.recipeId
  fields : (∀ text ∈ [a.source, b.source, a.gate, b.gate], '|' ∉ text.toList) →
    a.source = b.source ∧ a.gate = b.gate ∧ a.recipeId = b.recipeId
  words : joinedTokens a.intent = joinedTokens b.intent
  intent : WholeWords a.intent → WholeWords b.intent → letters a.intent = letters b.intent

section Tokens

variable {α : Type}

theorem flatMap_splitOnP {p q : α → Bool} (hpq : ∀ a, p a = true → q a = false) (xs : List α) :
    (xs.splitOnP p).flatMap (List.filter q) = xs.filter q := by
  induction xs with
  | nil => simp
  | cons a xs ih =>
    rw [List.splitOnP_cons_eq_if_modifyHead]
    split_ifs with ha
    · rw [List.flatMap_cons, ih, List.filter_nil, List.nil_append,
        List.filter_cons_of_neg (by simp [hpq a ha])]
    · obtain ⟨first, parts, hparts⟩ := List.exists_cons_of_ne_nil (List.splitOnP_ne_nil p xs)
      rw [hparts] at ih ⊢
      rw [List.modifyHead_cons, List.flatMap_cons, List.filter_cons, List.filter_cons, ← ih,
        List.flatMap_cons]
      split_ifs <;> rfl

theorem filter_intercalate {q : α → Bool} {sep : List α} (hsep : sep.filter q = [])
    (xs : List (List α)) : (sep.intercalate xs).filter q = xs.flatMap (List.filter q) := by
  induction xs with
  | nil => simp
  | cons x xs ih =>
    cases xs with
    | nil => simp
    | cons y xs =>
      rw [List.intercalate_cons_cons, List.filter_append, List.filter_append, hsep, ih,
        List.append_nil, ← List.flatMap_cons]

theorem isAsciiAlphanumeric_toLower (c : Char) :
    isAsciiAlphanumeric c.toLower = isAsciiAlphanumeric c := by
  by_cases hc : c.toNat < 128
  · have hall : ∀ n < 128, isAsciiAlphanumeric (Char.ofNat n).toLower =
        isAsciiAlphanumeric (Char.ofNat n) := by decide +kernel
    have h := hall c.toNat hc
    rwa [Char.ofNat_toNat] at h
  · have hsame : c.toLower = c := by
      unfold Char.toLower
      rw [dif_neg]
      intro hupper
      have hle : c.toNat ≤ 90 := UInt32.le_iff_toNat_le.mp hupper.2
      omega
    rw [hsame]

theorem letters_of_joinedTokens {value : String} (h : WholeWords value) :
    (joinedTokens value).toList.filter isAsciiAlphanumeric = letters value := by
  have hpart : ∀ part : List Char, (part.map Char.toLower).filter isAsciiAlphanumeric =
      (part.filter isAsciiAlphanumeric).map Char.toLower := by
    intro part
    rw [List.filter_map]
    congr 2
    exact funext isAsciiAlphanumeric_toLower
  have hkept : ∀ parts : List (List Char), (∀ part ∈ parts, part.length ≠ 1) →
      (parts.filter fun part => 1 < part.length).flatMap (List.filter isAsciiAlphanumeric) =
        parts.flatMap (List.filter isAsciiAlphanumeric) := by
    intro parts hparts
    induction parts with
    | nil => rfl
    | cons part parts ih =>
      rw [List.forall_mem_cons] at hparts
      rw [List.filter_cons]
      split_ifs with hlong
      · rw [List.flatMap_cons, List.flatMap_cons, ih hparts.2]
      · have hnil : part = [] := by
          rw [decide_eq_true_eq] at hlong
          exact List.length_eq_zero_iff.mp (by omega)
        rw [List.flatMap_cons, hnil, List.filter_nil, List.nil_append, ih hparts.2]
  have hseparator : ∀ c, isSeparator c = true → isAsciiAlphanumeric c = false := by
    intro c hc
    rw [isSeparator, Bool.and_eq_true] at hc
    simpa using hc.1
  rw [joinedTokens, String.toList_intercalate, filter_intercalate (by decide), tokenize,
    List.map_map, letters, ← flatMap_splitOnP hseparator, ← hkept _ h, List.map_flatMap,
    List.flatMap_map]
  congr 1
  funext part
  simp only [Function.comp_apply, String.toList_ofList]
  exact hpart part

end Tokens

section Keys

variable {a b : LearningRecord}

theorem not_of_mem_splitOnP {p : Char → Bool} {text part : List Char}
    (hpart : part ∈ text.splitOnP p) : ∀ c ∈ part, p c = false := by
  induction text generalizing part with
  | nil =>
    rw [List.splitOnP_nil, List.mem_singleton] at hpart
    simp [hpart]
  | cons d text ih =>
    rw [List.splitOnP_cons_eq_if_modifyHead] at hpart
    split_ifs at hpart with hd
    · rcases List.mem_cons.mp hpart with rfl | hpart
      · simp
      · exact ih hpart
    · obtain ⟨first, parts, hparts⟩ := List.exists_cons_of_ne_nil (List.splitOnP_ne_nil p text)
      rw [hparts, List.modifyHead_cons] at hpart
      rcases List.mem_cons.mp hpart with rfl | hpart
      · rw [List.forall_mem_cons]
        exact ⟨by simpa using hd, ih (hparts ▸ List.mem_cons_self)⟩
      · exact ih (hparts ▸ List.mem_cons_of_mem _ hpart)

theorem bar_notMem_tokenize {value token : String} (h : token ∈ tokenize value) :
    '|' ∉ token.toList := by
  obtain ⟨part, hpart, rfl⟩ := List.mem_map.mp h
  rw [String.toList_ofList]
  intro hbar
  obtain ⟨c, hc, hlower⟩ := List.mem_map.mp hbar
  have hseparator : isSeparator c = false :=
    not_of_mem_splitOnP (List.mem_of_mem_filter hpart) c hc
  refine toLower_ne (d := '|') (.inr (by decide)) ?_ hlower
  rintro rfl
  exact absurd hseparator (by decide)

theorem bar_notMem_intercalate {tokens : List String} (h : ∀ token ∈ tokens, '|' ∉ token.toList) :
    '|' ∉ (String.intercalate "-" tokens).toList := by
  have hnone : ∀ cs : List Char, '|' ∉ cs ↔ cs.filter (· == '|') = [] := by
    intro cs
    rw [List.filter_eq_nil_iff]
    exact ⟨fun hcs c hc heq => hcs (beq_iff_eq.mp heq ▸ hc), fun hcs hmem => hcs '|' hmem rfl⟩
  rw [hnone, String.toList_intercalate, filter_intercalate (by decide), List.flatMap_map,
    List.flatMap_eq_nil_iff]
  exact fun token htoken => (hnone _).mp (h token htoken)

theorem toList_memoryKey (record : LearningRecord) : record.memoryKey.toList =
    (((record.source ++ "|" ++ record.gate ++ "|" ++ record.recipeId).toList ++
      '|' :: record.outcome.asStr.toList) ++ '|' :: (joinedTokens record.intent).toList) ++
        '|' :: (String.intercalate "-" ((tokenize record.failure).take 24)).toList := by
  simp [LearningRecord.memoryKey, joinedTokens]

theorem sameLesson_of_key (h : a.memoryKey = b.memoryKey) : SameLesson a b := by
  have hlist := congrArg String.toList h
  rw [toList_memoryKey, toList_memoryKey] at hlist
  have hfailure : ∀ record : LearningRecord,
      '|' ∉ (String.intercalate "-" ((tokenize record.failure).take 24)).toList := fun record =>
    bar_notMem_intercalate fun token htoken => bar_notMem_tokenize (List.mem_of_mem_take htoken)
  have hintent : ∀ record : LearningRecord, '|' ∉ (joinedTokens record.intent).toList :=
    fun record => bar_notMem_intercalate fun token htoken => bar_notMem_tokenize htoken
  have houtcome : ∀ record : LearningRecord, '|' ∉ record.outcome.asStr.toList := by
    intro record
    cases record.outcome <;> decide
  obtain ⟨hlist, -⟩ := append_last_separator (hfailure a) (hfailure b) hlist
  obtain ⟨hlist, hwords⟩ := append_last_separator (hintent a) (hintent b) hlist
  obtain ⟨hplace, hstr⟩ := append_last_separator (houtcome a) (houtcome b) hlist
  refine ⟨?_, String.toList_injective hplace, ?_, String.toList_injective hwords, ?_⟩
  · cases hoa : a.outcome <;> cases hob : b.outcome <;> rw [hoa, hob] at hstr <;>
      first | rfl | exact absurd hstr (by decide)
  · intro hbars
    simp only [List.forall_mem_cons, List.not_mem_nil, false_imp_iff, implies_true,
      and_true] at hbars
    obtain ⟨hsa, hsb, hga, hgb⟩ := hbars
    simp only [String.toList_append, List.append_assoc] at hplace
    obtain ⟨hsource, hplace⟩ := append_terminator hsa hsb hplace
    obtain ⟨hgate, hrecipe⟩ := append_terminator hga hgb hplace
    exact ⟨String.toList_injective hsource, String.toList_injective hgate,
      String.toList_injective hrecipe⟩
  · intro ha hb
    rw [← letters_of_joinedTokens ha, ← letters_of_joinedTokens hb, hwords]

end Keys

section Records

variable {records after : List LearningRecord} {record : LearningRecord} {limit : ℕ}

theorem mem_rtake_append {α : Type} {front back : List α} {n : ℕ} (h : back.length ≤ n) {a : α}
    (ha : a ∈ back) : a ∈ (front ++ back).rtake n := by
  rw [List.rtake, List.drop_append_of_le_length (by rw [List.length_append]; omega)]
  exact List.mem_append_right _ ha

theorem mem_of_mem_latest {α κ : Type} [DecidableEq κ] {key : α → κ} {items : List α} {a : α}
    (h : a ∈ latest key items) : a ∈ items :=
  (List.pwFilter_sublist items).subset h

theorem mem_effectiveRecords (before : List LearningRecord) (record : LearningRecord)
    (after : List LearningRecord) (limit : ℕ) :
    record ∈ effectiveRecords (before ++ record :: after) limit ∨
      (∃ later ∈ after, record.memoryKey = later.memoryKey) ∨
        limit ≤ (effectiveRecords after limit).length := by
  simp only [Wiki.effectiveRecords_eq]
  by_cases hkey : ∀ other ∈ latest LearningRecord.memoryKey after,
      record.memoryKey ≠ other.memoryKey
  · by_cases hlimit : limit ≤ (latest LearningRecord.memoryKey after).length
    · right
      right
      rw [List.rtake, List.length_drop]
      omega
    · left
      obtain ⟨front, hfront⟩ := @exists_latest_append _ _ _ LearningRecord.memoryKey before
        (record :: after)
      rw [hfront, latest_cons, if_pos hkey]
      exact mem_rtake_append (by rw [List.length_cons]; omega) List.mem_cons_self
  · simp only [ne_eq, not_forall, not_not, exists_prop] at hkey
    obtain ⟨later, hlater, hsame⟩ := hkey
    exact .inr (.inl ⟨later, mem_of_mem_latest hlater, hsame⟩)

end Records

end AtomVibe.Learning

namespace AtomVibe.Wiki

open Learning WikiGraph

theorem mem_queue_addLearningRecord (v : Verifiers) (record : LearningRecord) (graph : WikiGraph)
    {entry : String × String} (h : entry ∈ graph.learningNodes) :
    entry ∈ (graph.addLearningRecord v record).learningNodes ∨ entry.2 = record.memoryKey ∨
      defaultGraphMemoryLimit ≤ graph.learningNodes.length := by
  by_cases hadded : record.validate v = .ok () ∧ record.nodeId ∉ graph.ids
  · rw [addLearningRecord_eq hadded.1 hadded.2, evict_eq]
    by_cases hkey : entry.2 = record.memoryKey
    · exact .inr (.inl hkey)
    have hkept : entry ∈ (graph.enlist v record).learningNodes := by
      simp only [enlist, supersede_eq]
      apply List.mem_append_left
      exact (List.mem_eraseP_of_neg (by simpa using hkey)).mpr h
    have hlength : (graph.enlist v record).learningNodes.length ≤
        graph.learningNodes.length + 1 := by
      simp only [enlist, supersede_eq, List.length_append, List.length_singleton]
      have herase := graph.learningNodes.length_eraseP_le (p := (·.2 == record.memoryKey))
      omega
    by_cases hfull : defaultGraphMemoryLimit ≤ graph.learningNodes.length
    · exact .inr (.inr hfull)
    left
    have hnone : (graph.enlist v record).overflow = 0 := by
      rw [overflow]
      omega
    rw [hnone, List.drop_zero]
    exact hkept
  · rw [addLearningRecord_refused hadded]
    exact .inl h

/-- Lessons with one key are about requests with the same tokens, and only such a lesson, or the
limit, takes the place of another. -/
theorem memory_keys_keep_lessons :
    (∀ a b : LearningRecord, a.memoryKey = b.memoryKey → SameLesson a b) ∧
      (∀ (before : List LearningRecord) (record : LearningRecord) (after : List LearningRecord)
        (limit : ℕ), record ∈ effectiveRecords (before ++ record :: after) limit ∨
          (∃ later ∈ after, SameLesson record later) ∨
            limit ≤ (effectiveRecords after limit).length) ∧
      ∀ (v : Verifiers) (record old : LearningRecord) (graph : WikiGraph),
        queueEntry old ∈ graph.learningNodes →
          queueEntry old ∈ (graph.addLearningRecord v record).learningNodes ∨
            SameLesson old record ∨ defaultGraphMemoryLimit ≤ graph.learningNodes.length := by
  refine ⟨fun a b => sameLesson_of_key, fun before record after limit => ?_,
    fun v record old graph h => ?_⟩
  · rcases mem_effectiveRecords before record after limit with h | ⟨later, hlater, hkey⟩ | h
    · exact .inl h
    · exact .inr (.inl ⟨later, hlater, sameLesson_of_key hkey⟩)
    · exact .inr (.inr h)
  · rcases mem_queue_addLearningRecord v record graph h with h | hkey | h
    · exact .inl h
    · exact .inr (.inl (sameLesson_of_key hkey))
    · exact .inr (.inr h)

theorem vitamins_share_a_key :
    let c : LearningRecord := { sampleLesson "1" with intent := "Plot vitamin C" }
    let d : LearningRecord := { sampleLesson "2" with intent := "Plot vitamin D" }
    c.validate noEvidence = .ok () ∧ d.validate noEvidence = .ok () ∧
      c.memoryKey = d.memoryKey ∧ letters c.intent ≠ letters d.intent ∧
        effectiveRecords [c, d] defaultGraphMemoryLimit = [d] := by
  decide +kernel

end AtomVibe.Wiki
