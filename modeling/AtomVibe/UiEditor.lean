import AtomVibe.Foundations.Editor
import AtomVibe.UiEvents

namespace AtomVibe.Ui

open Text TextWrap Ux LineEditor

def keyOf : UiEvent → Option (Key Char)
  | .char c => some (.type (if isControl c then [] else sanitizeInputText [c]))
  | .backspace => some .backspace
  | .delete => some .delete
  | .moveLeft shift => some (.left shift)
  | .moveRight shift => some (.right shift)
  | .selectAll => some .selectAll
  | .copy => some .copy
  | .cut => some .cut
  | .paste text => some (.type (sanitizeInputText text))
  | _ => none

def Accepted (text : List Char) : Prop := ∀ c ∈ text, sanitizeInputText [c] = [c]

def Tidy (id : UInt32) (state : UiState) : Prop :=
  ∀ caret, state.inputCarets id = some caret → caret ≤ (state.inputText id).length

/-- An input shows the editor. Where the editing began with a tidy input, the caret that is kept is
the editor's own. -/
structure Shows (tidy : Prop) (id : UInt32) (state : UiState)
    (e : Editor Char × Option (List Char)) : Prop where
  text : state.inputText id = e.1.text
  caret : state.inputCaret id = e.1.caret
  stored : tidy → ∀ caret, state.inputCarets id = some caret → caret = e.1.caret
  selection : state.inputSelections id = e.1.anchor.map fun a => (a, e.1.caret)
  clipboard : state.clipboardOut = e.2

structure Elsewhere (id : UInt32) (s t : UiState) : Prop where
  focused : t.focused = s.focused
  inputs : ∀ other ≠ id, t.inputs other = s.inputs other
  carets : ∀ other ≠ id, t.inputCarets other = s.inputCarets other
  selections : ∀ other ≠ id, t.inputSelections other = s.inputSelections other

theorem Elsewhere.refl (id : UInt32) (s : UiState) : Elsewhere id s s :=
  ⟨rfl, fun _ _ => rfl, fun _ _ => rfl, fun _ _ => rfl⟩

theorem Elsewhere.trans {id : UInt32} {s t u : UiState} (h : Elsewhere id s t)
    (h' : Elsewhere id t u) : Elsewhere id s u where
  focused := h'.focused.trans h.focused
  inputs other hne := (h'.inputs other hne).trans (h.inputs other hne)
  carets other hne := (h'.carets other hne).trans (h.carets other hne)
  selections other hne := (h'.selections other hne).trans (h.selections other hne)

theorem sanitizeInputText_append (xs ys : List Char) :
    sanitizeInputText (xs ++ ys) = sanitizeInputText xs ++ sanitizeInputText ys :=
  List.filterMap_append

theorem sanitizeInputText_of_accepted {text : List Char} (h : Accepted text) :
    sanitizeInputText text = text := by
  induction text with
  | nil => rfl
  | cons c cs ih =>
    rw [Accepted, List.forall_mem_cons] at h
    rw [← List.singleton_append, sanitizeInputText_append, h.1, ih h.2]

theorem accepted_sanitizeInputText (text : List Char) : Accepted (sanitizeInputText text) := by
  intro c hc
  obtain ⟨d, -, hd⟩ := List.mem_filterMap.mp hc
  have hc : sanitizeInputText [d] = [c] := by
    rw [sanitizeInputText, List.filterMap_cons, hd]
    rfl
  split_ifs at hd with hnul hreturn hline hcontrol
  · rw [← Option.some.inj hd]
    rfl
  · obtain rfl := Option.some.inj hd
    exact hc
  · obtain rfl := Option.some.inj hd
    exact hc

section Steps

variable {tidy : Prop} {id : UInt32} {s t : UiState} {e : Editor Char} {clip : Option (List Char)}

theorem Shows.inputSelection (h : Shows tidy id s (e, clip)) : s.inputSelection id = e.selection := by
  rw [UiState.inputSelection, h.selection, h.text, Editor.selection]
  cases ha : e.anchor with
  | none => rfl
  | some a =>
    have hcaret := e.caret_le
    have hanchor := e.anchor_le a ha
    have hne : a ≠ e.caret := by
      rintro rfl
      exact e.anchor_ne ha
    have hstart : min (min a e.caret) e.text.length = min a e.caret := by omega
    have hstop : min (max a e.caret) e.text.length = max a e.caret := by omega
    simp only [Option.map_some, hstart, hstop]
    rw [if_pos (by omega)]

theorem clampInputCaret_eq (h : Shows tidy id s (e, clip)) (caret : ℕ) :
    clampInputCaret s id caret = min caret e.text.length := by
  rw [clampInputCaret, h.text]

theorem inputText_of_stored {text : List Char} (h : t.inputs id = some text) :
    t.inputText id = text := by
  rw [UiState.inputText, h]
  rfl

theorem shows_stored {e' : Editor Char} (htext : t.inputText id = e'.text)
    (hcaret : t.inputCarets id = some e'.caret)
    (hselection : t.inputSelections id = e'.anchor.map fun a => (a, e'.caret))
    (hclip : t.clipboardOut = clip) : Shows tidy id t (e', clip) where
  text := htext
  caret := by
    rw [UiState.inputCaret, htext, hcaret]
    exact Nat.min_eq_left e'.caret_le
  stored _ caret h := Option.some.inj (h.symm.trans hcaret)
  selection := hselection
  clipboard := hclip

theorem shows_setInputCaret (h : Shows tidy id s (e, clip)) (caret : ℕ) :
    Shows tidy id (setInputCaret s id caret false) (e.place caret, clip) := by
  apply shows_stored
  · exact h.text
  · have hclamp := clampInputCaret_eq h caret
    simp only [setInputCaret, hclamp]
    exact Function.update_self ..
  · exact Function.update_self ..
  · exact h.clipboard

theorem shows_setInputSelection (h : Shows tidy id s (e, clip)) (anchor caret : ℕ) :
    Shows tidy id (setInputSelection s id anchor caret) (e.select anchor caret, clip) := by
  apply shows_stored
  · exact h.text
  · have hclamp := clampInputCaret_eq h caret
    simp only [setInputSelection, hclamp]
    exact Function.update_self ..
  · simp only [setInputSelection, clampInputCaret_eq h, Editor.select]
    split
    · exact Function.update_self ..
    · exact Function.update_self ..
  · exact h.clipboard

theorem elsewhere_setInputCaret (s : UiState) (id : UInt32) (caret : ℕ) :
    Elsewhere id s (setInputCaret s id caret false) :=
  ⟨rfl, fun _ _ => rfl, fun _ h => Function.update_of_ne h .., fun _ h => Function.update_of_ne h ..⟩

theorem elsewhere_setInputSelection (s : UiState) (id : UInt32) (anchor caret : ℕ) :
    Elsewhere id s (setInputSelection s id anchor caret) where
  focused := rfl
  inputs _ _ := rfl
  carets _ h := Function.update_of_ne h ..
  selections other h := by
    simp only [setInputSelection]
    split
    · exact Function.update_of_ne h ..
    · exact Function.update_of_ne h ..

theorem deleteInputSelection_of_none (h : Shows tidy id s (e, clip)) (hnone : e.selection = none) :
    deleteInputSelection s id = some (false, s) := by
  rw [deleteInputSelection, h.inputSelection, hnone]

theorem deleteInputSelection_of_some (h : Shows tidy id s (e, clip)) {start stop : ℕ}
    (hsome : e.selection = some (start, stop)) :
    ∃ t, deleteInputSelection s id = some (true, t) ∧ Shows tidy id t (e.replace start stop [], clip) ∧
      Elsewhere id s t := by
  have hwithin := selection_within hsome
  rw [deleteInputSelection, h.inputSelection, hsome]
  simp only [h.text, replaceRange_charBoundary e.text [] (Nat.le_of_lt hwithin.1),
    Option.bind_eq_bind, Option.bind_some, Option.pure_def]
  refine ⟨_, rfl, ?_, ?_⟩
  · apply shows_stored
    · exact inputText_of_stored (Function.update_self ..)
    · have hlength : (e.text.take start ++ []).length = start := by
        rw [List.append_nil, List.length_take]
        omega
      simp only [Editor.replace, hlength]
      exact Function.update_self ..
    · exact Function.update_self ..
    · exact h.clipboard
  · exact ⟨rfl, fun _ h => Function.update_of_ne h .., fun _ h => Function.update_of_ne h ..,
      fun _ h => Function.update_of_ne h ..⟩

theorem shows_replaced (h : Shows tidy id s (e, clip)) (hnone : e.selection = none) {start : ℕ}
    (hstart : start ≤ e.text.length) (stop : ℕ) (new : List Char) :
    Shows tidy id { s with
      inputs := IdMap.insert s.inputs id (e.text.take start ++ new ++ e.text.drop stop)
      inputCarets := IdMap.insert s.inputCarets id (start + new.length) }
      (e.replace start stop new, clip) := by
  have hanchor : e.anchor = none := Option.map_eq_none_iff.mp hnone
  apply shows_stored
  · exact inputText_of_stored (Function.update_self ..)
  · have hlength : (e.text.take start ++ new).length = start + new.length := by
      rw [List.length_append, List.length_take]
      omega
    simp only [Editor.replace, hlength]
    exact Function.update_self ..
  · rw [h.selection, hanchor]
    rfl
  · exact h.clipboard

theorem elsewhere_written (s : UiState) (id : UInt32) (text : List Char) (caret : ℕ) :
    Elsewhere id s { s with
      inputs := IdMap.insert s.inputs id text
      inputCarets := IdMap.insert s.inputCarets id caret } :=
  ⟨rfl, fun _ h => Function.update_of_ne h .., fun _ h => Function.update_of_ne h .., fun _ _ => rfl⟩

theorem insert_at_caret (h : Shows tidy id s (e, clip)) (hnone : e.selection = none)
    (new : List Char) :
    let caret := clampInputCaret s id (s.inputCaret id)
    ∃ grown, insertStr (s.inputText id) (charBoundary (s.inputText id) caret) new = some grown ∧
      Shows tidy id { s with
        inputs := IdMap.insert s.inputs id grown
        inputCarets := IdMap.insert s.inputCarets id (caret + new.length) }
        (e.replace e.caret e.caret new, clip) := by
  have hcaret : clampInputCaret s id (s.inputCaret id) = e.caret := by
    rw [clampInputCaret_eq h, h.caret]
    exact Nat.min_eq_left e.caret_le
  simp only [hcaret, h.text, insertStr_charBoundary]
  exact ⟨_, rfl, shows_replaced h hnone e.caret_le e.caret new⟩

theorem shows_insertInputText (h : Shows tidy id s (e, clip)) (incoming : List Char) :
    ∃ t, insertInputText s id incoming = some t ∧
      Shows tidy id t (e.type (sanitizeInputText incoming), clip) ∧ Elsewhere id s t := by
  rw [insertInputText, Editor.type]
  split_ifs with hempty
  · exact ⟨s, rfl, h, Elsewhere.refl id s⟩
  · cases hsel : e.selection with
    | none =>
      obtain ⟨grown, hgrown, hshows⟩ := insert_at_caret h hsel (sanitizeInputText incoming)
      simp only [deleteInputSelection_of_none h hsel, Option.bind_eq_bind, Option.bind_some, hgrown]
      exact ⟨_, rfl, hshows, elsewhere_written ..⟩
    | some ends =>
      obtain ⟨start, stop⟩ := ends
      obtain ⟨t, ht, hshown, helsewhere⟩ := deleteInputSelection_of_some h hsel
      obtain ⟨grown, hgrown, hshows⟩ := insert_at_caret hshown rfl (sanitizeInputText incoming)
      simp only [ht, Option.bind_eq_bind, Option.bind_some, hgrown]
      rw [replace_replace] at hshows
      exact ⟨_, rfl, hshows, helsewhere.trans (elsewhere_written ..)⟩

theorem shows_backspaceInput (h : Shows tidy id s (e, clip)) :
    ∃ t, backspaceInput s id = some t ∧ Shows tidy id t (e.backspace, clip) ∧ Elsewhere id s t := by
  rw [backspaceInput, Editor.backspace]
  cases hsel : e.selection with
  | some ends =>
    obtain ⟨start, stop⟩ := ends
    obtain ⟨t, ht, hshows, helsewhere⟩ := deleteInputSelection_of_some h hsel
    exact ⟨t, by simp [ht], hshows, helsewhere⟩
  | none =>
    have hcaret := e.caret_le
    simp only [deleteInputSelection_of_none h hsel, Option.bind_eq_bind, Option.bind_some, h.caret,
      h.text, Bool.false_eq_true, ↓reduceIte]
    split_ifs with hzero
    · refine ⟨s, rfl, ?_, Elsewhere.refl id s⟩
      rw [replace_eq_self (Option.map_eq_none_iff.mp hsel) (by simp [hzero]) (by omega)]
      exact h
    · rw [replaceRange_charBoundary e.text [] (Nat.sub_le _ _)]
      exact ⟨_, rfl, shows_replaced h hsel (by omega) e.caret [], elsewhere_written ..⟩

theorem shows_deleteForwardInput (h : Shows tidy id s (e, clip)) :
    ∃ t, deleteForwardInput s id = some t ∧ Shows tidy id t (e.delete, clip) ∧
      Elsewhere id s t := by
  rw [deleteForwardInput, Editor.delete]
  cases hsel : e.selection with
  | some ends =>
    obtain ⟨start, stop⟩ := ends
    obtain ⟨t, ht, hshows, helsewhere⟩ := deleteInputSelection_of_some h hsel
    exact ⟨t, by simp [ht], hshows, helsewhere⟩
  | none =>
    have hcaret := e.caret_le
    simp only [deleteInputSelection_of_none h hsel, Option.bind_eq_bind, Option.bind_some, h.caret,
      h.text, Bool.false_eq_true, ↓reduceIte]
    split_ifs with hend
    · refine ⟨s, rfl, ?_, Elsewhere.refl id s⟩
      have hsame : e.text.take e.caret ++ e.text.drop (e.caret + 1) = e.text := by
        rw [List.take_of_length_le hend, List.drop_of_length_le (by omega), List.append_nil]
      rw [replace_eq_self (Option.map_eq_none_iff.mp hsel) hsame (by omega)]
      exact h
    · rw [replaceRange_charBoundary e.text [] (Nat.le_succ _)]
      exact ⟨_, rfl, shows_replaced h hsel e.caret_le (e.caret + 1) [], elsewhere_written ..⟩

theorem shows_moveInputCaret (h : Shows tidy id s (e, clip)) (right shift : Bool) :
    Shows tidy id (moveInputCaret s id right shift)
      (if right then e.right shift else e.left shift, clip) := by
  have hanchor : ((s.inputSelections id).map Prod.fst).getD (s.inputCaret id) =
      e.anchor.getD e.caret := by
    rw [h.selection, h.caret, Option.map_map]
    cases e.anchor <;> rfl
  rw [moveInputCaret, hanchor, h.inputSelection, h.caret, h.text]
  cases shift with
  | true =>
    cases right with
    | false => exact shows_setInputSelection h _ _
    | true =>
      have hshows := shows_setInputSelection h (e.anchor.getD e.caret)
        (min (e.caret + 1) e.text.length)
      rw [select_min] at hshows
      exact hshows
  | false =>
    cases hsel : e.selection with
    | some ends =>
      have hshows := fun caret => shows_setInputCaret h caret
      cases right with
      | false => simpa [Editor.left, hsel] using hshows ends.1
      | true => simpa [Editor.right, hsel] using hshows ends.2
    | none =>
      cases right with
      | false => simpa [Editor.left, hsel] using shows_setInputCaret h (e.caret - 1)
      | true =>
        have hshows := shows_setInputCaret h (min (e.caret + 1) e.text.length)
        rw [place_min] at hshows
        simpa [Editor.right, hsel] using hshows

theorem elsewhere_moveInputCaret (s : UiState) (id : UInt32) (right shift : Bool) :
    Elsewhere id s (moveInputCaret s id right shift) := by
  rw [moveInputCaret]
  split
  · exact elsewhere_setInputSelection ..
  · split
    · exact elsewhere_setInputCaret ..
    · exact elsewhere_setInputCaret ..

theorem selectedInputText_eq (h : Shows tidy id s (e, clip)) :
    selectedInputText s id = some e.selected := by
  rw [selectedInputText, h.inputSelection, Editor.selected]
  cases hsel : e.selection with
  | none => rfl
  | some ends =>
    have hwithin := @selection_within _ _ ends.1 ends.2 hsel
    have hmax : max ends.2 ends.1 = ends.2 := by omega
    simp only [sliceChars, h.text, hmax, Option.map_some]
    rw [checkedSlice_charBoundary e.text (by omega)]
    rfl

theorem shows_deleteInputSelection (h : Shows tidy id s (e, clip)) :
    ∃ deleted t, deleteInputSelection s id = some (deleted, t) ∧ Shows tidy id t (e.cut, clip) ∧
      Elsewhere id s t := by
  rw [Editor.cut]
  cases hsel : e.selection with
  | none => exact ⟨false, s, deleteInputSelection_of_none h hsel, h, Elsewhere.refl id s⟩
  | some ends =>
    obtain ⟨t, ht⟩ := deleteInputSelection_of_some h (show e.selection = some (ends.1, ends.2) from hsel)
    exact ⟨true, t, ht⟩

end Steps

section Runs

variable (fonts : Fonts) (solveFor : UiState → List LaidBox) {tidy : Prop} {id : UInt32}
  {s : UiState} {event : UiEvent} {key : Key Char}

theorem handleEvent_copy (hfocus : s.focused = some id) :
    handleEvent fonts solveFor s .copy =
      (selectedInputText s id).map fun selected => { s with clipboardOut := selected } := by
  rw [handleEvent]
  split
  · rename_i other hother
    obtain rfl := Option.some.inj (hother.symm.trans hfocus)
    cases selectedInputText s other <;> rfl
  · rename_i hnone
    exact absurd (hnone.symm.trans hfocus) (by simp)

theorem handleEvent_cut (hfocus : s.focused = some id) :
    handleEvent fonts solveFor s .cut = (selectedInputText s id).bind fun selected =>
      (deleteInputSelection { s with clipboardOut := selected } id).map Prod.snd := by
  rw [handleEvent]
  split
  · rename_i other hother
    obtain rfl := Option.some.inj (hother.symm.trans hfocus)
    cases selectedInputText s other with
    | none => rfl
    | some selected =>
      simp only [Option.bind_eq_bind, Option.bind_some]
      cases deleteInputSelection { s with clipboardOut := selected } other <;> rfl
  · rename_i hnone
    exact absurd (hnone.symm.trans hfocus) (by simp)

theorem shows_handleEvent {e : Editor Char × Option (List Char)} (h : Shows tidy id s e)
    (hfocus : s.focused = some id) (hkey : keyOf event = some key) :
    ∃ t, handleEvent fonts solveFor s event = some t ∧ Shows tidy id t (press e key) ∧
      Elsewhere id s t := by
  obtain ⟨e, clip⟩ := e
  cases event with
  | char c =>
    obtain rfl := Option.some.inj hkey
    simp only [handleEvent, hfocus]
    cases hcontrol : isControl c with
    | true => exact ⟨s, rfl, h, Elsewhere.refl id s⟩
    | false => exact shows_insertInputText h [c]
  | backspace =>
    obtain rfl := Option.some.inj hkey
    simp only [handleEvent, hfocus]
    exact shows_backspaceInput h
  | delete =>
    obtain rfl := Option.some.inj hkey
    simp only [handleEvent, hfocus]
    exact shows_deleteForwardInput h
  | moveLeft shift =>
    obtain rfl := Option.some.inj hkey
    simp only [handleEvent, hfocus]
    exact ⟨_, rfl, shows_moveInputCaret h false shift, elsewhere_moveInputCaret ..⟩
  | moveRight shift =>
    obtain rfl := Option.some.inj hkey
    simp only [handleEvent, hfocus]
    exact ⟨_, rfl, shows_moveInputCaret h true shift, elsewhere_moveInputCaret ..⟩
  | selectAll =>
    obtain rfl := Option.some.inj hkey
    simp only [handleEvent, hfocus]
    refine ⟨_, rfl, ?_, elsewhere_setInputSelection ..⟩
    rw [selectAllInput, h.text]
    exact shows_setInputSelection h _ _
  | copy =>
    obtain rfl := Option.some.inj hkey
    rw [handleEvent_copy fonts solveFor hfocus, selectedInputText_eq h, Option.map_some]
    exact ⟨_, rfl, ⟨h.text, h.caret, h.stored, h.selection, rfl⟩,
      ⟨rfl, fun _ _ => rfl, fun _ _ => rfl, fun _ _ => rfl⟩⟩
  | cut =>
    obtain rfl := Option.some.inj hkey
    have hcopied : Shows tidy id { s with clipboardOut := e.selected } (e, e.selected) :=
      ⟨h.text, h.caret, h.stored, h.selection, rfl⟩
    obtain ⟨deleted, t, ht, hshows, helsewhere⟩ := shows_deleteInputSelection hcopied
    rw [handleEvent_cut fonts solveFor hfocus, selectedInputText_eq h, Option.bind_some, ht,
      Option.map_some]
    exact ⟨t, rfl, hshows, helsewhere.focused, helsewhere.inputs, helsewhere.carets,
      helsewhere.selections⟩
  | paste text =>
    obtain rfl := Option.some.inj hkey
    simp only [handleEvent, hfocus]
    exact shows_insertInputText h text
  | resize => cases hkey
  | pointerMove => cases hkey
  | pointerDown => cases hkey
  | pointerUp => cases hkey
  | wheel => cases hkey
  | enter => cases hkey
  | tick => cases hkey

theorem shows_events {events : List UiEvent} {keys : List (Key Char)}
    (hkeys : events.map keyOf = keys.map some) {e : Editor Char × Option (List Char)}
    (h : Shows tidy id s e) (hfocus : s.focused = some id) :
    ∃ final, events.foldlM (handleEvent fonts solveFor) s = some final ∧
      Shows tidy id final (keys.foldl press e) ∧ Elsewhere id s final := by
  induction events generalizing keys s e with
  | nil =>
    obtain rfl := List.map_eq_nil_iff.mp hkeys.symm
    exact ⟨s, rfl, h, Elsewhere.refl id s⟩
  | cons event events ih =>
    obtain ⟨key, keys, rfl, hkey, hkeys⟩ := List.map_eq_cons_iff.mp hkeys.symm
    obtain ⟨t, ht, hshows, helsewhere⟩ := shows_handleEvent fonts solveFor h hfocus hkey.symm
    have hfocus' : t.focused = some id := helsewhere.focused.trans hfocus
    obtain ⟨final, hfinal, hshown, hkept⟩ := ih hkeys.symm hshows hfocus'
    refine ⟨final, ?_, hshown, helsewhere.trans hkept⟩
    rw [List.foldlM_cons, ht]
    exact hfinal

end Runs

theorem accepted_replace {e : Editor Char} {new : List Char} (h : Accepted e.text)
    (hnew : Accepted new) (start stop : ℕ) : Accepted (e.replace start stop new).text := by
  intro c hc
  rw [Editor.replace, List.mem_append, List.mem_append] at hc
  obtain (hc | hc) | hc := hc
  · exact h c (List.mem_of_mem_take hc)
  · exact hnew c hc
  · exact h c (List.mem_of_mem_drop hc)

theorem accepted_nil : Accepted [] := fun _ h => absurd h List.not_mem_nil

theorem accepted_type {e : Editor Char} {new : List Char} (h : Accepted e.text)
    (hnew : Accepted new) : Accepted (e.type new).text := by
  rw [Editor.type]
  split
  · exact h
  · split
    · exact accepted_replace h hnew _ _
    · exact accepted_replace h hnew _ _

theorem accepted_press {event : UiEvent} {key : Key Char} (hkey : keyOf event = some key)
    {e : Editor Char × Option (List Char)} (h : Accepted e.1.text) :
    Accepted (press e key).1.text := by
  obtain ⟨e, clip⟩ := e
  cases key with
  | type new =>
    apply accepted_type h
    cases event <;> cases hkey
    · split
      · exact accepted_nil
      · exact accepted_sanitizeInputText _
    · exact accepted_sanitizeInputText _
  | backspace =>
    simp only [press, Editor.backspace]
    split <;> exact accepted_replace h accepted_nil _ _
  | delete =>
    simp only [press, Editor.delete]
    split <;> exact accepted_replace h accepted_nil _ _
  | left shift =>
    simp only [press, Editor.left]
    split
    · exact h
    · split <;> exact h
  | right shift =>
    simp only [press, Editor.right]
    split
    · exact h
    · split <;> exact h
  | selectAll => exact h
  | copy => exact h
  | cut =>
    simp only [press, Editor.cut]
    split
    · exact accepted_replace h accepted_nil _ _
    · exact h

theorem accepted_presses {events : List UiEvent} {keys : List (Key Char)}
    (hkeys : events.map keyOf = keys.map some) {e : Editor Char × Option (List Char)}
    (h : Accepted e.1.text) : Accepted (keys.foldl press e).1.text := by
  induction events generalizing keys e with
  | nil =>
    obtain rfl := List.map_eq_nil_iff.mp hkeys.symm
    exact h
  | cons event events ih =>
    obtain ⟨key, keys, rfl, hkey, hkeys⟩ := List.map_eq_cons_iff.mp hkeys.symm
    exact ih hkeys.symm (accepted_press hkey.symm h)

def opened (state : UiState) (id : UInt32) : Editor Char where
  text := state.inputText id
  caret := state.inputCaret id
  anchor := none
  caret_le := Nat.min_le_right _ _
  anchor_le := by simp
  anchor_ne := by simp

theorem shows_opened {s : UiState} {id : UInt32} (hnone : s.inputSelections id = none) :
    Shows (Tidy id s) id s (opened s id, s.clipboardOut) where
  text := rfl
  caret := rfl
  stored htidy caret h := by
    change caret = min ((s.inputCarets id).getD _) _
    rw [h]
    exact (Nat.min_eq_left (htidy caret h)).symm
  selection := hnone
  clipboard := rfl

theorem cut_paste (fonts : Fonts) (solveFor : UiState → List LaidBox) {tidy : Prop} {id : UInt32}
    {s : UiState} {e : Editor Char × Option (List Char)} (h : Shows tidy id s e)
    (hfocus : s.focused = some id) (haccepted : Accepted e.1.text) :
    ∃ cut back, handleEvent fonts solveFor s .cut = some cut ∧
      handleEvent fonts solveFor cut (.paste (cut.clipboardOut.getD [])) = some back ∧
      back.inputText id = s.inputText id := by
  obtain ⟨e, clip⟩ := e
  obtain ⟨cut, hcut, hshows, helsewhere⟩ :=
    @shows_handleEvent fonts solveFor tidy id s .cut .cut _ h hfocus rfl
  obtain ⟨back, hback, hshown, -⟩ :=
    @shows_handleEvent fonts solveFor tidy id cut (.paste (cut.clipboardOut.getD [])) _ _ hshows
      (helsewhere.focused.trans hfocus) rfl
  refine ⟨cut, back, hcut, hback, ?_⟩
  have hclip : cut.clipboardOut = e.selected := hshows.clipboard
  rw [hshown.text, h.text, hclip]
  change (e.cut.type (sanitizeInputText (e.selected.getD []))).text = e.text
  cases hselected : e.selected with
  | none => rw [text_cut_of_none hselected]; rfl
  | some letters =>
    have hletters : Accepted letters := by
      intro c hc
      exact haccepted c (mem_of_mem_selected hselected hc)
    rw [Option.getD_some, sanitizeInputText_of_accepted hletters, text_cut_type hselected]

section Editing

variable (fonts : Fonts) (solveFor : UiState → List LaidBox) {s : UiState} {id : UInt32}
  {events : List UiEvent} {keys : List (Key Char)}

/-- Whatever is done to the focused input, it shows the editor to which the same keys were pressed. -/
theorem input_edits_as_editor (hfocus : s.focused = some id) (hnone : s.inputSelections id = none)
    (haccepted : Accepted (s.inputText id)) (hkeys : events.map keyOf = keys.map some) :
    ∃ final, events.foldlM (handleEvent fonts solveFor) s = some final ∧
      Shows (Tidy id s) id final (keys.foldl press (opened s id, s.clipboardOut)) ∧
      (∀ anchor caret, final.inputSelections id = some (anchor, caret) →
        anchor ≠ caret ∧ anchor ≤ (final.inputText id).length ∧
          caret ≤ (final.inputText id).length) ∧
      (Tidy id s → Tidy id final) ∧
      Elsewhere id s final ∧
      ∃ cut back, handleEvent fonts solveFor final .cut = some cut ∧
        handleEvent fonts solveFor cut (.paste (cut.clipboardOut.getD [])) = some back ∧
        back.inputText id = final.inputText id := by
  obtain ⟨final, hfinal, hshows, helsewhere⟩ :=
    shows_events fonts solveFor hkeys (shows_opened hnone) hfocus
  have hkept : Accepted (keys.foldl press (opened s id, s.clipboardOut)).1.text :=
    accepted_presses hkeys haccepted
  refine ⟨final, hfinal, hshows, ?_, ?_, helsewhere,
    cut_paste fonts solveFor hshows (helsewhere.focused.trans hfocus) hkept⟩
  · intro anchor caret h
    rw [hshows.selection] at h
    obtain ⟨a, ha, hends⟩ := Option.map_eq_some_iff.mp h
    obtain ⟨rfl, rfl⟩ := Prod.mk.inj hends
    rw [hshows.text]
    refine ⟨?_, Editor.anchor_le _ a ha, Editor.caret_le _⟩
    rintro rfl
    exact Editor.anchor_ne _ ha
  · intro htidy caret h
    rw [hshows.text, hshows.stored htidy caret h]
    exact Editor.caret_le _

end Editing

theorem accepted_of_all {text : List Char}
    (h : text.all (fun c => sanitizeInputText [c] == [c]) = true) :
    Accepted text :=
  fun c hc => beq_iff_eq.mp (List.all_eq_true.mp h c hc)

theorem input_edits_as_editor_x :
    let s : UiState := { UiState.new 320 80 with
      focused := some 7
      inputs := fun _ => some ['a', 'b']
      inputCarets := fun _ => some 1 }
    let events : List UiEvent :=
      [.char 'é', .moveLeft true, .moveLeft true, .cut, .paste ['x', '\x00', 'y']]
    ∃ final, events.foldlM (handleEvent ⟨none, none⟩ fun _ => []) s = some final ∧
      final.inputText 7 = ['x', 'y', 'b'] := by
  intro s events
  obtain ⟨final, hfinal, hshows, -⟩ :=
    @input_edits_as_editor ⟨none, none⟩ (fun _ => []) s 7 events
      [.type ['é'], .left true, .left true, .cut, .type ['x', 'y']] rfl rfl
      (accepted_of_all (by decide)) rfl
  have htext : ([.type ['é'], .left true, .left true, .cut, .type ['x', 'y']].foldl press
      (opened s 7, s.clipboardOut)).1.text = ['x', 'y', 'b'] := by decide +kernel
  exact ⟨final, hfinal, hshows.text.trans htext⟩

end AtomVibe.Ui
