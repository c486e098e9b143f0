import AtomVibe.Foundations.Checked
import AtomVibe.JsonRoundTrip

/-!
The field readers the JSON-storing crates each carry a copy of. A copy differs from the others
only in the error it raises; `invalid` builds that error from its reason.
-/

namespace AtomVibe.JsonCodec

open Checked Text Json JsonText JsonRoundTrip

section Readers

variable {ε α : Type} (invalid : String → ε)

def stringField (root : JsonValue) (key : String) : Except ε String :=
  okOr (invalid ("missing string field " ++ key)) ((root.get key).bind JsonValue.asStr)

def numberField (root : JsonValue) (key : String) : Except ε UInt64 :=
  okOr (invalid ("missing number field " ++ key)) ((root.get key).bind JsonValue.asU64)

def boolField (root : JsonValue) (key : String) : Except ε Bool :=
  match root.get key with
  | some (.bool value) => .ok value
  | _ => .error (invalid ("missing boolean field " ++ key))

def objectField (root : JsonValue) (key : String) : Except ε JsonValue := do
  let value ← okOr (invalid ("missing object field " ++ key)) (root.get key)
  let _ ← okOr (invalid ("field " ++ key ++ " is not an object")) value.asObject
  return value

def optionalObject (root : JsonValue) (key : String) : Except ε (Option JsonValue) :=
  match root.get key with
  | some .null => .ok none
  | some (.object fields) => .ok (some (.object fields))
  | _ => .error (invalid ("field " ++ key ++ " is not an object or null"))

def arrayField (root : JsonValue) (key : String) : Except ε (List JsonValue) :=
  okOr (invalid ("field " ++ key ++ " is not an array")) ((root.get key).bind JsonValue.asArray)

def stringArrayField (root : JsonValue) (key : String) : Except ε (List String) := do
  let values ← arrayField invalid root key
  values.mapM fun value => okOr (invalid ("field " ++ key ++ " contains a non-string")) value.asStr

def objectArray (root : JsonValue) (key : String) (parser : JsonValue → Except ε α) :
    Except ε (List α) := do
  let values ← arrayField invalid root key
  values.mapM fun value => do
    let _ ← okOr (invalid ("field " ++ key ++ " contains a non-object")) value.asObject
    parser value

end Readers

theorem get_object_cons (field : String) (v : JsonValue) (fs : List (String × JsonValue))
    (key : String) :
    (JsonValue.object ((field, v) :: fs)).get key =
      if field = key then some v else (JsonValue.object fs).get key := by
  simp only [JsonValue.get, JsonValue.asObject, List.find?_cons]
  by_cases h : field = key
  · simp [h]
  · simp [beq_eq_false_iff_ne.mpr h, h]

def numberDoc (n : ℕ) : JsonValue := .number n.repr

theorem asU64_numberDoc (n : UInt64) : (numberDoc n.toNat).asU64 = some n := by
  have hd : ∀ c ∈ n.toNat.repr.toList, isAsciiDigit c = true := by
    intro c hc
    rw [Nat.toList_repr] at hc
    exact toDigits_isAsciiDigit hc
  have hno : ∀ c, isAsciiDigit c = false → c ∉ n.toNat.repr.toList := by
    intro c hc hm
    rw [hd c hm] at hc
    exact absurd hc (by decide)
  have hminus : startsWith "-" n.toNat.repr = false := by
    obtain ⟨c, cs, hcs⟩ := List.exists_cons_of_ne_nil
      (show n.toNat.repr.toList ≠ [] by rw [Nat.toList_repr]; exact Nat.toDigits_ne_nil)
    have hne : '-' ≠ c := by
      rintro rfl
      exact hno '-' (by decide) (by rw [hcs]; exact List.mem_cons_self)
    simp [startsWith, hcs, List.isPrefixOf, hne]
  have hdot : n.toNat.repr.toList.contains '.' = false := by
    simpa using hno '.' (by decide)
  have hexp : n.toNat.repr.toList.any (fun c => c == 'e' || c == 'E') = false := by
    rw [List.any_eq_false]
    intro c hc h
    simp only [Bool.or_eq_true, beq_iff_eq] at h
    rcases h with rfl | rfl
    · exact hno 'e' (by decide) hc
    · exact hno 'E' (by decide) hc
  simp only [numberDoc, JsonValue.asU64, hminus, hdot, hexp, Bool.not_false, Bool.and_self,
    if_true, parseU64_repr]

def stringArrayDoc (values : List String) : JsonValue := .array (values.map .string)

def arrayDoc {α : Type} (doc : α → JsonValue) (values : List α) : JsonValue :=
  .array (values.map doc)

@[simp]
theorem render_numberDoc (n : ℕ) : render (numberDoc n) = n.repr := by
  rw [numberDoc, render]

@[simp]
theorem render_stringArrayDoc (values : List String) :
    render (stringArrayDoc values) = arrayText (values.map quote) := by
  rw [stringArrayDoc, render, List.map_map]
  congr 1
  exact List.map_congr_left fun value _ => by rw [Function.comp_apply, render]

@[simp]
theorem clean_numberDoc (n : ℕ) : clean (numberDoc n) = numberDoc n := by
  rw [numberDoc, clean]

theorem map_sanitize_eq_self_iff (values : List String) :
    values.map sanitize = values ↔ ∀ value ∈ values, Lossless value := by
  simp only [← sanitize_eq_self_iff]
  exact ⟨fun h => List.map_inj_left.mp (h.trans (List.map_id values).symm), fun h =>
    (List.map_inj_left.mpr h).trans (List.map_id values)⟩

section Fields

variable {ε α : Type} {invalid : String → ε} {root : JsonValue} {key : String}

theorem stringField_of_get {value : String} (h : root.get key = some (.string value)) :
    stringField invalid root key = .ok value := by
  simp [stringField, h, JsonValue.asStr]

theorem numberField_of_get {n : UInt64} (h : root.get key = some (numberDoc n.toNat)) :
    numberField invalid root key = .ok n := by
  simp [numberField, h, asU64_numberDoc]

theorem boolField_of_get {b : Bool} (h : root.get key = some (.bool b)) :
    boolField invalid root key = .ok b := by
  simp [boolField, h]

theorem objectField_of_get {fields : List (String × JsonValue)}
    (h : root.get key = some (.object fields)) :
    objectField invalid root key = .ok (.object fields) := by
  simp [objectField, h, JsonValue.asObject, bind, Except.bind, pure, Except.pure]

theorem stringArrayField_of_get {values : List String}
    (h : root.get key = some (clean (stringArrayDoc values))) :
    stringArrayField invalid root key = .ok (values.map sanitize) := by
  simp only [stringArrayField, arrayField, h, stringArrayDoc, clean, Option.bind_some,
    JsonValue.asArray, okOr_some, bind, Except.bind, List.map_map]
  exact mapM_ok values fun value _ => by simp [clean, JsonValue.asStr]

theorem objectArray_of_get {parser : JsonValue → Except ε α} {doc : α → JsonValue} {xs : List α}
    (hdoc : ∀ x, ∃ fields, doc x = .object fields)
    (h : root.get key = some (clean (arrayDoc doc xs))) :
    objectArray invalid root key parser = .ok xs ↔ ∀ x ∈ xs, parser (clean (doc x)) = .ok x := by
  have hparse : ∀ x, (do
      let _ ← okOr (invalid ("field " ++ key ++ " contains a non-object")) (clean (doc x)).asObject
      parser (clean (doc x))) = parser (clean (doc x)) := by
    intro x
    obtain ⟨fields, hf⟩ := hdoc x
    simp [hf, clean, JsonValue.asObject, bind, Except.bind]
  simp only [objectArray, arrayField, h, arrayDoc, clean, Option.bind_some, JsonValue.asArray,
    okOr_some, List.map_map]
  refine (mapM_eq_ok xs).trans ?_
  simp only [Function.comp_apply, hparse]

end Fields

theorem get_clean {root : JsonValue} {key : String} {v : JsonValue} (h : root.get key = some v) :
    (clean root).get key = some (clean v) := by
  cases root with
  | object fs =>
    rw [clean]
    induction fs with
    | nil => simp [JsonValue.get, JsonValue.asObject] at h
    | cons f fs ih =>
      obtain ⟨field, w⟩ := f
      rw [get_object_cons] at h
      rw [List.map_cons, get_object_cons]
      split_ifs at h ⊢ with hk
      · rw [Option.some.inj h]
      · exact ih h
  | _ => simp [JsonValue.get, JsonValue.asObject] at h

abbrev Refuses {ε α : Type} (invalid : String → ε) (x : Except ε α) : Prop :=
  RefusesWith (fun error => ∃ reason, error = invalid reason) x

section Refuses

variable {ε α : Type} {invalid : String → ε} {root : JsonValue} {key : String}

@[simp]
theorem refuses_okOr {reason : String} (x : Option α) : Refuses invalid (okOr (invalid reason) x) :=
  refusesWith_okOr ⟨reason, rfl⟩ x

@[simp]
theorem refuses_stringField : Refuses invalid (stringField invalid root key) := refuses_okOr _

@[simp]
theorem refuses_numberField : Refuses invalid (numberField invalid root key) := refuses_okOr _

@[simp]
theorem refuses_boolField : Refuses invalid (boolField invalid root key) := by
  unfold boolField
  split <;> simp [RefusesWith]

@[simp]
theorem refuses_objectField : Refuses invalid (objectField invalid root key) := by
  simp [objectField]

@[simp]
theorem refuses_optionalObject : Refuses invalid (optionalObject invalid root key) := by
  unfold optionalObject
  split <;> simp [RefusesWith]

@[simp]
theorem refuses_stringArrayField : Refuses invalid (stringArrayField invalid root key) := by
  simp only [stringArrayField, arrayField, refusesWith_bind, refuses_okOr, true_and]
  exact fun values _ => refusesWith_mapM (fun _ => refuses_okOr _) values

theorem refuses_objectArray {parser : JsonValue → Except ε α}
    (h : ∀ value, Refuses invalid (parser value)) :
    Refuses invalid (objectArray invalid root key parser) := by
  simp only [objectArray, arrayField, refusesWith_bind, refuses_okOr, true_and]
  exact fun values _ => refusesWith_mapM (fun value => by simp [h value]) values

end Refuses

section Clean

variable {ε α : Type} {invalid : String → ε} {root : JsonValue} {key : String}

theorem stringField_clean {s : String} (h : root.get key = some (.string s)) :
    stringField invalid (clean root) key = .ok (sanitize s) :=
  stringField_of_get ((get_clean h).trans (by rw [clean]))

theorem numberField_clean {n : UInt64} (h : root.get key = some (numberDoc n.toNat)) :
    numberField invalid (clean root) key = .ok n :=
  numberField_of_get ((get_clean h).trans (by rw [clean_numberDoc]))

theorem boolField_clean {b : Bool} (h : root.get key = some (.bool b)) :
    boolField invalid (clean root) key = .ok b :=
  boolField_of_get ((get_clean h).trans (by rw [clean]))

theorem objectField_clean (value : JsonValue) (hobject : ∃ fields, value = .object fields)
    (h : root.get key = some value) : objectField invalid (clean root) key = .ok (clean value) := by
  obtain ⟨fields, rfl⟩ := hobject
  have hget := get_clean h
  rw [clean] at hget ⊢
  exact objectField_of_get hget

theorem stringArrayField_clean {l : List String}
    (h : root.get key = some (stringArrayDoc l)) :
    stringArrayField invalid (clean root) key = .ok (l.map sanitize) :=
  stringArrayField_of_get (get_clean h)

theorem objectArray_clean {parser : JsonValue → Except ε α} (doc : α → JsonValue) {xs : List α}
    (hdoc : ∀ x, ∃ fields, doc x = .object fields) (h : root.get key = some (arrayDoc doc xs)) :
    objectArray invalid (clean root) key parser = .ok xs ↔
      ∀ x ∈ xs, parser (clean (doc x)) = .ok x :=
  objectArray_of_get hdoc (get_clean h)

def nullableDoc (doc : α → JsonValue) (value : Option α) : JsonValue := (value.map doc).getD .null

theorem optionalObject_clean (doc : α → JsonValue) {o : Option α}
    (hdoc : ∀ x, ∃ fields, doc x = .object fields)
    (h : root.get key = some (nullableDoc doc o)) :
    optionalObject invalid (clean root) key = .ok (o.map fun x => clean (doc x)) := by
  have hget := get_clean h
  cases o with
  | none =>
    rw [nullableDoc, Option.map_none, Option.getD_none, clean] at hget
    simp [optionalObject, hget]
  | some x =>
    obtain ⟨fields, hf⟩ := hdoc x
    rw [nullableDoc, Option.map_some, Option.getD_some, hf, clean] at hget
    simp [optionalObject, hget, hf, clean]

end Clean

theorem fits_stringArrayDoc (k : ℕ) (values : List String) :
    Fits (k + 2) (stringArrayDoc values) := by
  intro v hv
  obtain ⟨value, -, rfl⟩ := List.mem_map.mp hv
  trivial

theorem fits_numberDoc (k n : ℕ) : Fits (k + 1) (numberDoc n) := ⟨n, rfl⟩

theorem fits_arrayDoc {α : Type} {k : ℕ} {doc : α → JsonValue} (h : ∀ x, Fits k (doc x))
    (xs : List α) : Fits (k + 1) (arrayDoc doc xs) := by
  intro v hv
  obtain ⟨x, -, rfl⟩ := List.mem_map.mp hv
  exact h x

def isKeyChar (c : Char) : Bool := isAsciiLowercase c || isAsciiDigit c || c == '_'

theorem plainKey_of_chars {key : String} (h : key.toList.all isKeyChar = true) : PlainKey key := by
  have hchar : ∀ c, isKeyChar c = true → escapeChar c = [c] ∧ lossy c = false := by
    intro c hc
    have hquote : c ≠ '"' := by
      rintro rfl
      exact absurd hc (by decide)
    have hslash : c ≠ '\\' := by
      rintro rfl
      exact absurd hc (by decide)
    have hcontrol : isControl c = false := by
      simp only [isKeyChar, isAsciiLowercase, isAsciiDigit, Bool.or_eq_true, Bool.and_eq_true,
        decide_eq_true_eq, beq_iff_eq] at hc
      rcases hc with (⟨ha, hz⟩ | ⟨ha, hz⟩) | rfl
      · exact isControl_of_between ha hz (by decide)
      · exact isControl_of_between ha hz (by decide)
      · decide
    exact ⟨escapeChar_of_plain hcontrol hquote hslash, lossy_of_not_control hcontrol⟩
  have hall := List.all_eq_true.mp h
  refine ⟨?_, fun c hc => (hchar c (hall c hc)).2⟩
  have hescape : key.toList.flatMap escapeChar = key.toList := by
    rw [List.flatMap_congr fun c hc => (hchar c (hall c hc)).1]
    simp
  rw [escape, hescape, String.ofList_toList]

theorem fits_object {k : ℕ} {fields : List (String × JsonValue)}
    (hkeys : (fields.map Prod.fst).Nodup ∧
      ∀ key ∈ fields.map Prod.fst, key.toList.all isKeyChar = true)
    (hvalues : ∀ f ∈ fields, Fits k f.2) : Fits (k + 1) (.object fields) :=
  ⟨hkeys.1, fun f hf =>
    ⟨plainKey_of_chars (hkeys.2 f.1 (List.mem_map_of_mem hf)), hvalues f hf⟩⟩

theorem fits_nullableDoc {α : Type} {k : ℕ} {doc : α → JsonValue} (h : ∀ x, Fits (k + 1) (doc x))
    (value : Option α) : Fits (k + 1) (nullableDoc doc value) := by
  cases value with
  | none => trivial
  | some x => exact h x

end AtomVibe.JsonCodec
