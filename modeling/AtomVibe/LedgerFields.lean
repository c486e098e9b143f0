import AtomVibe.CandidateModel
import AtomVibe.Foundations.Catalog
import AtomVibe.Foundations.LineLog
import AtomVibe.JsonCodec

namespace AtomVibe.LedgerFields

open Text Json JsonText JsonRoundTrip JsonCodec LineLog Verification

def jsonString (root : JsonValue) (key : String) : Option String :=
  (root.get key).bind JsonValue.asStr

def jsonStringArray (root : JsonValue) (key : String) : Option (List String) := do
  let value ← root.get key
  let values ← value.asArray
  values.mapM JsonValue.asStr

def jsonU64 (root : JsonValue) (key : String) : Option UInt64 := (root.get key).bind JsonValue.asU64

def jsonU32 (root : JsonValue) (key : String) : Option UInt32 := do
  let value ← jsonU64 root key
  if value.toNat < UInt32.size then some value.toUInt32 else none

/-- The files there are, by their paths. -/
abbrev Disk := Catalog String ByteArray

def logErrorText (ledger : String) : LogError → String
  | .invalidUtf8 => "stream did not contain valid UTF-8"
  | .invalidLine number => "invalid " ++ ledger ++ " store record at line " ++ number.repr

def onlyFields (fields : List (String × JsonValue)) (known : List String) : Bool :=
  fields.all fun field => known.contains field.1

def candidateFieldNames : List String :=
  ["manifest_path", "manifest_hash", "bundle_hash", "attempts", "repairs"]

def candidateDoc (write : String → String) (evidence : CandidateVerificationEvidence) : JsonValue :=
  .object [("manifest_path", .string (write evidence.manifestPath)),
    ("manifest_hash", .string (write evidence.manifestHash)),
    ("bundle_hash", .string (write evidence.bundleHash)),
    ("attempts", numberDoc evidence.attempts.toNat), ("repairs", numberDoc evidence.repairs.toNat)]

def candidateOf (value : JsonValue) : Option CandidateVerificationEvidence := do
  let object ← value.asObject
  if object.length ≠ candidateFieldNames.length ∨ onlyFields object candidateFieldNames = false then
    none
  else
    let manifestPath ← jsonString value "manifest_path"
    let manifestHash ← jsonString value "manifest_hash"
    let bundleHash ← jsonString value "bundle_hash"
    let attempts ← jsonU32 value "attempts"
    let repairs ← jsonU32 value "repairs"
    return ⟨manifestPath, manifestHash, bundleHash, attempts, repairs⟩

def jsonCandidate : JsonValue → Option (Option CandidateVerificationEvidence)
  | .null => some none
  | value => (candidateOf value).map some

section Clean

variable {root : JsonValue} {key : String}

theorem jsonString_clean {s : String} (h : root.get key = some (.string s)) :
    jsonString (clean root) key = some (sanitize s) := by
  rw [jsonString, get_clean h, clean]
  rfl

theorem jsonU64_clean {n : UInt64} (h : root.get key = some (numberDoc n.toNat)) :
    jsonU64 (clean root) key = some n := by
  rw [jsonU64, get_clean h, clean_numberDoc, Option.bind_some, asU64_numberDoc]

theorem jsonU32_clean {n : UInt32} (h : root.get key = some (numberDoc n.toNat)) :
    jsonU32 (clean root) key = some n := by
  have hsize : n.toUInt64.toNat < UInt32.size := by
    rw [UInt32.toNat_toUInt64]
    exact n.toNat_lt
  rw [jsonU32, jsonU64_clean (show root.get key = some (numberDoc n.toUInt64.toNat) by
    rw [UInt32.toNat_toUInt64, h])]
  simp only [Option.bind_eq_bind, Option.bind_some, if_pos hsize, UInt32.toUInt32_toUInt64]

theorem jsonStringArray_clean {values : List String}
    (h : root.get key = some (stringArrayDoc values)) :
    jsonStringArray (clean root) key = some (values.map sanitize) := by
  have hmap : ∀ values : List String, ((values.map JsonValue.string).map clean).mapM
      JsonValue.asStr = some (values.map sanitize) := by
    intro values
    induction values with
    | nil => rfl
    | cons value values ih =>
      rw [List.map_cons, List.map_cons, List.mapM_cons, ih, clean]
      rfl
  rw [jsonStringArray, get_clean h, stringArrayDoc, clean]
  exact hmap values

end Clean

def cleanCandidate (write : String → String) (evidence : CandidateVerificationEvidence) :
    CandidateVerificationEvidence :=
  { evidence with
    manifestPath := sanitize (write evidence.manifestPath)
    manifestHash := sanitize (write evidence.manifestHash)
    bundleHash := sanitize (write evidence.bundleHash) }

theorem fits_candidateDoc (k : ℕ) (write : String → String)
    (evidence : CandidateVerificationEvidence) : Fits (k + 2) (candidateDoc write evidence) := by
  apply fits_object ⟨by simp, by simp only [List.map]; decide⟩
  simp only [List.forall_mem_cons, List.not_mem_nil, false_imp_iff, implies_true, and_true]
  exact ⟨trivial, trivial, trivial, fits_numberDoc _ _, fits_numberDoc _ _⟩

theorem fits_nullable_candidateDoc (k : ℕ) (write : String → String)
    (evidence : Option CandidateVerificationEvidence) :
    Fits (k + 2) (nullableDoc (candidateDoc write) evidence) := by
  cases evidence with
  | none => trivial
  | some evidence => exact fits_candidateDoc k write evidence

theorem candidateOf_clean (write : String → String) (evidence : CandidateVerificationEvidence) :
    candidateOf (clean (candidateDoc write evidence)) = some (cleanCandidate write evidence) := by
  have hobject : ∃ fields, (clean (candidateDoc write evidence)).asObject = some fields ∧
      fields.map Prod.fst = candidateFieldNames := by
    rw [candidateDoc, clean]
    exact ⟨_, rfl, rfl⟩
  obtain ⟨fields, hfields, hnames⟩ := hobject
  have hlength : fields.length = candidateFieldNames.length := by
    rw [← hnames, List.length_map]
  have honly : onlyFields fields candidateFieldNames = true := by
    rw [onlyFields, List.all_eq_true]
    intro field hfield
    rw [List.contains_iff_mem, ← hnames]
    exact List.mem_map_of_mem hfield
  have hs : ∀ key value, (candidateDoc write evidence).get key = some (.string value) →
      jsonString (clean (candidateDoc write evidence)) key = some (sanitize value) :=
    fun key value h => jsonString_clean h
  have hn : ∀ key (n : UInt32), (candidateDoc write evidence).get key =
      some (numberDoc n.toNat) → jsonU32 (clean (candidateDoc write evidence)) key = some n :=
    fun key n h => jsonU32_clean h
  rw [candidateOf, hfields, Option.bind_eq_bind, Option.bind_some, if_neg (by simp [hlength, honly]),
    hs "manifest_path" _ rfl, hs "manifest_hash" _ rfl, hs "bundle_hash" _ rfl,
    hn "attempts" _ rfl, hn "repairs" _ rfl]
  rfl

theorem jsonCandidate_clean (write : String → String)
    (evidence : Option CandidateVerificationEvidence) :
    jsonCandidate (clean (nullableDoc (candidateDoc write) evidence)) =
      some (evidence.map (cleanCandidate write)) := by
  cases evidence with
  | none =>
    rw [nullableDoc, Option.map_none, Option.getD_none, clean]
    rfl
  | some evidence =>
    have hobject : ∀ value : JsonValue, (∃ fields, value = .object fields) →
        jsonCandidate value = (candidateOf value).map some := by
      rintro _ ⟨fields, rfl⟩
      rfl
    rw [nullableDoc, Option.map_some, Option.getD_some, hobject, candidateOf_clean]
    · rfl
    · rw [candidateDoc, clean]
      exact ⟨_, rfl⟩

section OneLine

def Printed (text : String) : Prop := ∀ c ∈ text.toList, isControl c = false

instance (text : String) : Decidable (Printed text) :=
  List.decidableBAll (fun c => isControl c = false) text.toList

theorem printed_append {s t : String} (hs : Printed s) (ht : Printed t) : Printed (s ++ t) := by
  intro c hc
  rw [String.toList_append, List.mem_append] at hc
  exact hc.elim (hs c) (ht c)

theorem printed_escape (value : String) : Printed (escape value) := by
  intro c hc
  rw [escape, String.toList_ofList, List.mem_flatMap] at hc
  obtain ⟨d, -, hc⟩ := hc
  unfold escapeChar at hc
  split_ifs at hc with _ _ _ _ _ hcontrol
  all_goals
    simp only [List.mem_cons, List.not_mem_nil, or_false] at hc
  · rcases hc with rfl | rfl <;> decide
  · rcases hc with rfl | rfl <;> decide
  · rcases hc with rfl | rfl <;> decide
  · rcases hc with rfl | rfl <;> decide
  · rcases hc with rfl | rfl <;> decide
  · rw [hc]
    decide
  · rw [hc]
    simpa using hcontrol

theorem printed_commaJoin {values : List String} (h : ∀ value ∈ values, Printed value) :
    Printed (commaJoin values) := by
  have hcomma : Printed "," := by decide
  induction values with
  | nil => exact fun c hc => absurd hc (by simp [commaJoin])
  | cons value values ih =>
    obtain ⟨hvalue, hvalues⟩ := List.forall_mem_cons.mp h
    cases values with
    | nil => exact hvalue
    | cons next values => exact printed_append (printed_append hvalue hcomma) (ih hvalues)

theorem printed_quote (value : String) : Printed (quote value) :=
  printed_append (printed_append (by decide) (printed_escape value)) (by decide)

theorem printed_render {k : ℕ} {v : JsonValue} (h : Fits k v) : Printed (render v) := by
  induction k generalizing v with
  | zero => exact absurd h (by simp [Fits])
  | succ k ih =>
    cases v with
    | null =>
      rw [render]
      decide
    | bool b =>
      rw [render]
      cases b <;> decide
    | number text =>
      obtain ⟨m, rfl⟩ := h
      rw [render]
      intro c hc
      rw [Nat.toList_repr] at hc
      have hd := toDigits_isAsciiDigit hc
      simp only [isAsciiDigit, Bool.and_eq_true, decide_eq_true_eq] at hd
      exact isControl_of_between hd.1 hd.2 (by decide)
    | string value =>
      rw [render]
      exact printed_quote value
    | array values =>
      rw [render]
      refine printed_append (printed_append (by decide) (printed_commaJoin ?_)) (by decide)
      intro text htext
      obtain ⟨value, hvalue, rfl⟩ := List.mem_map.mp htext
      exact ih (h value hvalue)
    | object fields =>
      rw [render]
      refine printed_append (printed_append (by decide) (printed_commaJoin ?_)) (by decide)
      intro text htext
      rw [List.map_map] at htext
      obtain ⟨field, hfield, rfl⟩ := List.mem_map.mp htext
      obtain ⟨⟨hescape, -⟩, hvalue⟩ := h.2 field hfield
      have hkey : Printed field.1 := by
        rw [← hescape]
        exact printed_escape field.1
      exact printed_append (printed_append (printed_append (by decide) hkey) (by decide))
        (ih hvalue)

theorem solid_render {k : ℕ} {fields : List (String × JsonValue)} (h : Fits k (.object fields)) :
    Solid (render (.object fields)).toList := by
  constructor
  · intro hnewline
    exact absurd (printed_render h '\n' hnewline) (by decide)
  · rw [render, toList_objectText]
    exact ⟨_, '\x7d', (List.cons_append ..).symm, by decide⟩

end OneLine

end AtomVibe.LedgerFields
