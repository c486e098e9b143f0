import Mathlib.Data.List.Basic

namespace AtomVibe.LineEditor

@[ext]
structure Editor (γ : Type*) where
  text : List γ
  caret : ℕ
  anchor : Option ℕ
  caret_le : caret ≤ text.length
  anchor_le : ∀ a, anchor = some a → a ≤ text.length
  anchor_ne : anchor ≠ some caret

inductive Key (γ : Type*)
  | type (new : List γ)
  | backspace
  | delete
  | left (shift : Bool)
  | right (shift : Bool)
  | selectAll
  | copy
  | cut

namespace Editor

variable {γ : Type*} (e : Editor γ)

def selection : Option (ℕ × ℕ) := e.anchor.map fun a => (min a e.caret, max a e.caret)

def selected : Option (List γ) := e.selection.map fun (start, stop) => (e.text.take stop).drop start

def place (caret : ℕ) : Editor γ where
  text := e.text
  caret := min caret e.text.length
  anchor := none
  caret_le := Nat.min_le_right _ _
  anchor_le := by simp
  anchor_ne := by simp

def select (anchor caret : ℕ) : Editor γ where
  text := e.text
  caret := min caret e.text.length
  anchor :=
    if min anchor e.text.length = min caret e.text.length then none
    else some (min anchor e.text.length)
  caret_le := Nat.min_le_right _ _
  anchor_le := by
    intro a h
    split at h
    · cases h
    · rw [← Option.some.inj h]
      exact Nat.min_le_right _ _
  anchor_ne := by
    split
    · simp
    · rename_i hne
      exact fun h => hne (Option.some.inj h)

def replace (start stop : ℕ) (new : List γ) : Editor γ where
  text := e.text.take start ++ new ++ e.text.drop stop
  caret := (e.text.take start ++ new).length
  anchor := none
  caret_le := by
    rw [@List.length_append _ (e.text.take start ++ new) (e.text.drop stop)]
    exact Nat.le_add_right _ _
  anchor_le := by simp
  anchor_ne := by simp

def type (new : List γ) : Editor γ :=
  if new.isEmpty then e
  else match e.selection with
    | some (start, stop) => e.replace start stop new
    | none => e.replace e.caret e.caret new

def backspace : Editor γ :=
  match e.selection with
  | some (start, stop) => e.replace start stop []
  | none => e.replace (e.caret - 1) e.caret []

def delete : Editor γ :=
  match e.selection with
  | some (start, stop) => e.replace start stop []
  | none => e.replace e.caret (e.caret + 1) []

def left (shift : Bool) : Editor γ :=
  if shift then e.select (e.anchor.getD e.caret) (e.caret - 1)
  else match e.selection with
    | some (start, _) => e.place start
    | none => e.place (e.caret - 1)

def right (shift : Bool) : Editor γ :=
  if shift then e.select (e.anchor.getD e.caret) (e.caret + 1)
  else match e.selection with
    | some (_, stop) => e.place stop
    | none => e.place (e.caret + 1)

def selectAll : Editor γ := e.select 0 e.text.length

def cut : Editor γ :=
  match e.selection with
  | some (start, stop) => e.replace start stop []
  | none => e

end Editor

def press {γ : Type*} : Editor γ × Option (List γ) → Key γ → Editor γ × Option (List γ)
  | (e, clipboard), .type new => (e.type new, clipboard)
  | (e, clipboard), .backspace => (e.backspace, clipboard)
  | (e, clipboard), .delete => (e.delete, clipboard)
  | (e, clipboard), .left shift => (e.left shift, clipboard)
  | (e, clipboard), .right shift => (e.right shift, clipboard)
  | (e, clipboard), .selectAll => (e.selectAll, clipboard)
  | (e, _), .copy => (e, e.selected)
  | (e, _), .cut => (e.cut, e.selected)

section Replace

variable {γ : Type*} (e : Editor γ)

theorem replace_eq_self {e : Editor γ} {start stop : ℕ} (hanchor : e.anchor = none)
    (htext : e.text.take start ++ e.text.drop stop = e.text)
    (hcaret : min start e.text.length = e.caret) : e.replace start stop [] = e := by
  apply Editor.ext
  · change e.text.take start ++ [] ++ e.text.drop stop = e.text
    rw [List.append_nil, htext]
  · change (e.text.take start ++ []).length = e.caret
    rw [List.append_nil, List.length_take, hcaret]
  · exact hanchor.symm

theorem replace_replace (start stop : ℕ) (new : List γ) :
    (e.replace start stop []).replace (e.replace start stop []).caret
      (e.replace start stop []).caret new = e.replace start stop new := by
  simp only [Editor.replace, List.append_nil, List.take_left, List.drop_left]

theorem place_min (caret : ℕ) : e.place (min caret e.text.length) = e.place caret := by
  simp only [Editor.place, Nat.min_assoc, Nat.min_self]

theorem select_min (anchor caret : ℕ) :
    e.select anchor (min caret e.text.length) = e.select anchor caret := by
  simp only [Editor.select, Nat.min_assoc, Nat.min_self]

end Replace

section Selection

variable {γ : Type*} {e : Editor γ} {start stop : ℕ}

theorem selection_within (h : e.selection = some (start, stop)) :
    start < stop ∧ stop ≤ e.text.length := by
  obtain ⟨a, ha, hends⟩ := Option.map_eq_some_iff.mp h
  obtain ⟨rfl, rfl⟩ := Prod.mk.inj hends
  have hcaret := e.caret_le
  have hanchor := e.anchor_le a ha
  have hne : a ≠ e.caret := by
    rintro rfl
    exact e.anchor_ne ha
  omega

theorem selected_ne_nil {letters : List γ} (h : e.selected = some letters) : letters ≠ [] := by
  obtain ⟨⟨start, stop⟩, hends, hletters⟩ := Option.map_eq_some_iff.mp h
  have hwithin := selection_within hends
  apply List.ne_nil_of_length_pos
  rw [← hletters, List.length_drop, List.length_take]
  omega

theorem mem_of_mem_selected {letters : List γ} (h : e.selected = some letters) {c : γ}
    (hc : c ∈ letters) : c ∈ e.text := by
  obtain ⟨⟨start, stop⟩, -, rfl⟩ := Option.map_eq_some_iff.mp h
  exact List.mem_of_mem_take (List.mem_of_mem_drop hc)

theorem text_cut_type {letters : List γ} (h : e.selected = some letters) :
    (e.cut.type letters).text = e.text := by
  have hne := selected_ne_nil h
  obtain ⟨⟨start, stop⟩, hends, hletters⟩ := Option.map_eq_some_iff.mp h
  have hwithin := selection_within hends
  have hlength : (e.text.take start).length = start := by
    rw [List.length_take]
    omega
  have hfront : e.text.take start ++ letters = e.text.take stop := by
    have htake : (e.text.take stop).take start = e.text.take start := by
      rw [List.take_take, Nat.min_eq_left (by omega)]
    rw [← hletters, ← htake, List.take_append_drop]
  have hcut : e.cut = e.replace start stop [] := by rw [Editor.cut, hends]
  have hnone : (e.replace start stop []).selection = none := rfl
  rw [hcut, Editor.type, if_neg (by simpa using hne), hnone]
  simp only [Editor.replace, List.append_nil, hlength]
  rw [List.take_left' hlength, List.drop_left' hlength, hfront, List.take_append_drop]

theorem text_cut_of_none (h : e.selected = none) : e.cut = e := by
  rw [Editor.cut, Option.map_eq_none_iff.mp h]

end Selection

end AtomVibe.LineEditor
