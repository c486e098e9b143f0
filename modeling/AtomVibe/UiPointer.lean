import AtomVibe.Foundations.Transition
import AtomVibe.UiEvents
import AtomVibe.WrapLines

namespace AtomVibe.Ui

open Text TextWrap Ux Transition PartialRun

structure Aside (s t : UiState) : Prop where
  pressed : t.pressed = s.pressed
  toggles : t.toggles = s.toggles
  selects : t.selects = s.selects

theorem Aside.refl (s : UiState) : Aside s s := ⟨rfl, rfl, rfl⟩

theorem Aside.trans {s t u : UiState} (h : Aside s t) (h' : Aside t u) : Aside s u :=
  ⟨h'.pressed.trans h.pressed, h'.toggles.trans h.toggles, h'.selects.trans h.selects⟩

section Inputs

theorem inputSelection_lt {s : UiState} {id : UInt32} {start stop : ℕ}
    (h : s.inputSelection id = some (start, stop)) : start < stop := by
  rw [UiState.inputSelection] at h
  split at h
  · cases h
  · simp only at h
    split_ifs at h with hlt
    obtain ⟨rfl, rfl⟩ := Prod.mk.inj (Option.some.inj h)
    exact hlt

theorem sliceChars_eq (text : List Char) (start stop : ℕ) :
    sliceChars text start stop = some ((text.take (max stop start)).drop start) :=
  checkedSlice_charBoundary text (Nat.le_max_right _ _)

variable (s : UiState) (id : UInt32)

theorem deleteInputSelection_returns :
    ∃ deleted t, deleteInputSelection s id = some (deleted, t) ∧ Aside s t := by
  rw [deleteInputSelection]
  split
  · exact ⟨false, s, rfl, Aside.refl s⟩
  · rename_i start stop h
    simp only [replaceRange_charBoundary _ _ (Nat.le_of_lt (inputSelection_lt h))]
    exact ⟨true, _, rfl, rfl, rfl, rfl⟩

theorem insertInputText_returns (incoming : List Char) :
    ∃ t, insertInputText s id incoming = some t ∧ Aside s t := by
  rw [insertInputText]
  split_ifs
  · exact ⟨s, rfl, Aside.refl s⟩
  · obtain ⟨deleted, t, ht, haside⟩ := deleteInputSelection_returns s id
    simp only [ht, Option.bind_eq_bind, Option.bind_some, insertStr_charBoundary]
    exact ⟨_, rfl, haside.trans ⟨rfl, rfl, rfl⟩⟩

theorem backspaceInput_returns : ∃ t, backspaceInput s id = some t ∧ Aside s t := by
  obtain ⟨deleted, t, ht, haside⟩ := deleteInputSelection_returns s id
  rw [backspaceInput]
  simp only [ht, Option.bind_eq_bind, Option.bind_some, replaceRange_charBoundary _ _ (Nat.sub_le _ _)]
  split_ifs
  · exact ⟨t, rfl, haside⟩
  · exact ⟨t, rfl, haside⟩
  · exact ⟨_, rfl, haside.trans ⟨rfl, rfl, rfl⟩⟩

theorem deleteForwardInput_returns : ∃ t, deleteForwardInput s id = some t ∧ Aside s t := by
  obtain ⟨deleted, t, ht, haside⟩ := deleteInputSelection_returns s id
  rw [deleteForwardInput]
  simp only [ht, Option.bind_eq_bind, Option.bind_some, replaceRange_charBoundary _ _ (Nat.le_succ _)]
  split_ifs
  · exact ⟨t, rfl, haside⟩
  · exact ⟨t, rfl, haside⟩
  · exact ⟨_, rfl, haside.trans ⟨rfl, rfl, rfl⟩⟩

theorem selectedInputText_returns : ∃ selected, selectedInputText s id = some selected := by
  rw [selectedInputText]
  split
  · exact ⟨none, rfl⟩
  · rw [sliceChars_eq]
    exact ⟨_, rfl⟩

theorem aside_moveInputCaret (right shift : Bool) : Aside s (moveInputCaret s id right shift) := by
  rw [moveInputCaret]
  split
  · exact ⟨rfl, rfl, rfl⟩
  · split
    · exact ⟨rfl, rfl, rfl⟩
    · exact ⟨rfl, rfl, rfl⟩

end Inputs

section Pointer

variable (fonts : Fonts)

theorem foldlM_returns {α β : Type} {step : β → α → Option β} (h : ∀ b a, ∃ c, step b a = some c)
    (l : List α) (b : β) : ∃ c, l.foldlM step b = some c := by
  induction l generalizing b with
  | nil => exact ⟨b, rfl⟩
  | cons a l ih =>
    obtain ⟨c, hc⟩ := h b a
    obtain ⟨d, hd⟩ := ih c
    exact ⟨d, by rw [List.foldlM_cons, hc]; exact hd⟩

theorem wrapRanges_ne_nil (content : List Char) (size maxWidth : ℚ) :
    wrapRanges fonts content size maxWidth ≠ [] := by
  rw [wrapRanges]
  split_ifs with hwidth
  · exact List.cons_ne_nil _ _
  · simp only
    split_ifs with hempty
    · exact List.cons_ne_nil _ _
    · simpa using hempty

theorem inputCaretFromPointer_returns (s : UiState) (boxes : List LaidBox) (id : UInt32) (x y : ℚ) :
    ∃ caret, inputCaretFromPointer fonts s boxes id x y = some caret := by
  rw [inputCaretFromPointer]
  split
  · exact ⟨_, rfl⟩
  · simp only
    split_ifs
    · exact ⟨_, rfl⟩
    · generalize hranges : wrapRanges fonts _ _ _ = ranges
      have hne : ranges ≠ [] := by
        rw [← hranges]
        exact wrapRanges_ne_nil fonts _ _ _
      have hlength := List.length_pos_iff.mpr hne
      generalize hline : min _ (ranges.length - 1) = line
      have hlt : line < ranges.length := by omega
      rw [List.getElem?_eq_getElem hlt]
      simp only [Option.bind_eq_bind, Option.bind_some, sliceChars_eq]
      have hfirst : ∀ m : Option (ℕ × Option ℚ), (∃ best, m = some best) →
          ∃ caret, (m.bind fun best => pure best.1) = some caret := by
        rintro m ⟨best, rfl⟩
        exact ⟨best.1, rfl⟩
      apply hfirst
      apply foldlM_returns
      intro best idx
      exact ⟨_, rfl⟩

variable (solveFor : UiState → List LaidBox) (s : UiState) (x y : ℚ)

theorem aside_updateSliderFromX (boxes : List LaidBox) (id : UInt32) :
    Aside s (updateSliderFromX s boxes id x) := by
  rw [updateSliderFromX]
  split
  · exact ⟨rfl, rfl, rfl⟩
  · exact Aside.refl s

theorem aside_grabScrollbar (b : LaidBox) (dragged : Bool) :
    Aside s (grabScrollbar x y (s, dragged) b).1 := by
  rw [grabScrollbar]
  split
  · exact Aside.refl s
  · split
    · exact Aside.refl s
    · split
      · exact Aside.refl s
      · simp only
        split_ifs
        · exact ⟨rfl, rfl, rfl⟩
        · exact Aside.refl s
        · exact Aside.refl s

theorem aside_grabScrollbars (boxes : List LaidBox) (dragged : Bool) :
    Aside s (boxes.foldl (grabScrollbar x y) (s, dragged)).1 := by
  induction boxes generalizing s dragged with
  | nil => exact Aside.refl s
  | cons b boxes ih => exact (aside_grabScrollbar s x y b dragged).trans (ih _ _)

theorem handlePointerMove_returns :
    ∃ t, handlePointerMove fonts solveFor s x y = some t ∧ Aside s t := by
  rw [handlePointerMove]
  split
  · exact ⟨_, rfl, aside_updateSliderFromX s x _ _⟩
  · split
    · split
      · exact ⟨s, rfl, Aside.refl s⟩
      · split
        · exact ⟨s, rfl, Aside.refl s⟩
        · exact ⟨_, rfl, rfl, rfl, rfl⟩
    · simp only
      split
      · rename_i id anchor _
        obtain ⟨focus, hfocus⟩ := inputCaretFromPointer_returns fonts s (solveFor s) id x y
        rw [hfocus]
        exact ⟨_, rfl, rfl, rfl, rfl⟩
      · exact ⟨_, rfl, rfl, rfl, rfl⟩

def armSlider (hit : Option (UInt32 × Role)) (boxes : List LaidBox) (x : ℚ) (u : UiState) :
    UiState :=
  match hit with
  | some (id, .slider) => updateSliderFromX { u with sliderDrag := some id } boxes id x
  | _ => u

theorem aside_armSlider (hit : Option (UInt32 × Role)) (boxes : List LaidBox) (x : ℚ)
    (u : UiState) : Aside u (armSlider hit boxes x u) := by
  unfold armSlider
  split
  · rename_i id
    have haside := aside_updateSliderFromX { u with sliderDrag := some id } x boxes id
    exact ⟨haside.pressed, haside.toggles, haside.selects⟩
  · exact Aside.refl u

theorem handlePointerDown_returns :
    ∃ t, handlePointerDown fonts solveFor s x y = some t ∧ t.toggles = s.toggles ∧
      t.selects = s.selects ∧
      ∀ id, t.pressed = some id → (hitTest (solveFor s) x y).map Prod.fst = some id := by
  have hgrab := aside_grabScrollbars { s with drag := none, sliderDrag := none, inputDragAnchor := none }
    x y (solveFor s) false
  have hrest : ∀ u : UiState, u.toggles = s.toggles → u.selects = s.selects →
      ∃ t, (let u := armSlider (hitTest (solveFor s) x y) (solveFor s) x u
        some { u with
          pressed := if u.drag.isSome then none else (hitTest (solveFor s) x y).map Prod.fst }) =
          some t ∧ t.toggles = s.toggles ∧ t.selects = s.selects ∧
        ∀ id, t.pressed = some id → (hitTest (solveFor s) x y).map Prod.fst = some id := by
    intro u htoggles hselects
    have haside := aside_armSlider (hitTest (solveFor s) x y) (solveFor s) x u
    refine ⟨_, rfl, haside.toggles.trans htoggles, haside.selects.trans hselects, ?_⟩
    intro id hpressed
    exact (Option.ite_none_left_eq_some.mp hpressed).2
  simp only [handlePointerDown]
  generalize (solveFor s).foldl (grabScrollbar x y) _ = grabbed at hgrab ⊢
  obtain ⟨t, dragged⟩ := grabbed
  generalize Option.bind _ _ = inputHit
  cases inputHit with
  | none => exact hrest _ hgrab.toggles hgrab.selects
  | some id =>
    dsimp only
    split
    · obtain ⟨caret, hcaret⟩ :=
        inputCaretFromPointer_returns fonts { t with focused := some id } (solveFor s) id x y
      rw [hcaret]
      exact hrest _ hgrab.toggles hgrab.selects
    · exact hrest _ hgrab.toggles hgrab.selects

theorem handleEvent_returns {event : UiEvent} (hdown : ∀ x y, event ≠ .pointerDown x y)
    (hup : ∀ x y, event ≠ .pointerUp x y) :
    ∃ t, handleEvent fonts solveFor s event = some t ∧ Aside s t := by
  cases event with
  | resize => exact ⟨_, rfl, rfl, rfl, rfl⟩
  | pointerMove x y => exact handlePointerMove_returns fonts solveFor s x y
  | pointerDown x y => exact absurd rfl (hdown x y)
  | pointerUp x y => exact absurd rfl (hup x y)
  | wheel x y delta =>
    refine ⟨_, rfl, ?_⟩
    rw [handleWheel]
    split
    · exact Aside.refl s
    · exact ⟨rfl, rfl, rfl⟩
  | enter => exact ⟨_, rfl, rfl, rfl, rfl⟩
  | tick => exact ⟨_, rfl, rfl, rfl, rfl⟩
  | char c =>
    rw [handleEvent]
    split
    · split
      · exact insertInputText_returns s _ _
      · exact ⟨s, rfl, Aside.refl s⟩
    · exact ⟨s, rfl, Aside.refl s⟩
  | backspace =>
    rw [handleEvent]
    split
    · exact backspaceInput_returns s _
    · exact ⟨s, rfl, Aside.refl s⟩
  | delete =>
    rw [handleEvent]
    split
    · exact deleteForwardInput_returns s _
    · exact ⟨s, rfl, Aside.refl s⟩
  | moveLeft shift =>
    rw [handleEvent]
    split
    · exact ⟨_, rfl, aside_moveInputCaret s _ _ _⟩
    · exact ⟨s, rfl, Aside.refl s⟩
  | moveRight shift =>
    rw [handleEvent]
    split
    · exact ⟨_, rfl, aside_moveInputCaret s _ _ _⟩
    · exact ⟨s, rfl, Aside.refl s⟩
  | selectAll =>
    rw [handleEvent]
    split
    · exact ⟨_, rfl, rfl, rfl, rfl⟩
    · exact ⟨s, rfl, Aside.refl s⟩
  | copy =>
    rw [handleEvent]
    split
    · rename_i id _
      obtain ⟨selected, hselected⟩ := selectedInputText_returns s id
      rw [hselected]
      exact ⟨_, rfl, rfl, rfl, rfl⟩
    · exact ⟨s, rfl, Aside.refl s⟩
  | cut =>
    rw [handleEvent]
    split
    · rename_i id _
      obtain ⟨selected, hselected⟩ := selectedInputText_returns s id
      obtain ⟨deleted, t, ht, haside⟩ :=
        deleteInputSelection_returns { s with clipboardOut := selected } id
      simp only [hselected, ht, Option.bind_eq_bind, Option.bind_some]
      exact ⟨t, rfl, haside.pressed, haside.toggles, haside.selects⟩
    · exact ⟨s, rfl, Aside.refl s⟩
  | paste text =>
    rw [handleEvent]
    split
    · exact insertInputText_returns s _ _
    · exact ⟨s, rfl, Aside.refl s⟩

end Pointer

structure AtRest (s : UiState) : Prop where
  drag : s.drag = none
  sliderDrag : s.sliderDrag = none
  inputDragAnchor : s.inputDragAnchor = none
  pressed : s.pressed = none

section Turns

variable (hit : Option (UInt32 × Role)) (s : UiState) (id : UInt32)

def turnedToggle : Option Bool :=
  if hit = some (id, .toggle) then some (!s.toggleOn id) else s.toggles id

def turnedSelect : Option ℕ :=
  if hit = some (id, .select) ∧ 0 < selectCycleLen id then
    some ((s.selectIndex id + 1) % selectCycleLen id)
  else if hit = some (designMaterialPreviousButton, .button) ∧ id = designMaterialPresetSelect then
    some ((s.selectIndex id + materialOptions.length - 1) % materialOptions.length)
  else s.selects id

theorem turnedToggle_none : turnedToggle none s id = s.toggles id := rfl

theorem turnedSelect_none : turnedSelect none s id = s.selects id := by simp [turnedSelect]

theorem insert_eq {V : Type} (map : IdMap V) (key : UInt32) (value : V) :
    IdMap.insert map key value id = if id = key then some value else map id := by
  rw [IdMap.insert, Function.update_apply]

theorem clickWidget_keeps (role : Role) :
    (clickWidget s id role).clicked = some id ∧ (clickWidget s id role).drag = s.drag ∧
      (clickWidget s id role).sliderDrag = s.sliderDrag ∧
      (clickWidget s id role).inputDragAnchor = s.inputDragAnchor := by
  simp only [clickWidget]
  split_ifs <;> exact ⟨rfl, rfl, rfl, rfl⟩

theorem clickWidget_toggles (hitId : UInt32) (role : Role) :
    (clickWidget s hitId role).toggles id = turnedToggle (some (hitId, role)) s id := by
  by_cases hrole : role = .toggle
  · subst hrole
    change IdMap.insert s.toggles hitId (!s.toggleOn hitId) id = _
    rw [insert_eq, turnedToggle]
    by_cases hid : id = hitId
    · rw [if_pos hid, if_pos (by rw [hid]), hid]
    · rw [if_neg hid, if_neg fun h => hid (Prod.mk.inj (Option.some.inj h)).1.symm]
  · have hkept : (clickWidget s hitId role).toggles = s.toggles := by
      simp only [clickWidget, if_neg hrole]
      split_ifs <;> rfl
    rw [hkept, turnedToggle, if_neg fun h => hrole (Prod.mk.inj (Option.some.inj h)).2]

theorem selects_of_select (hitId : UInt32) : (clickWidget s hitId .select).selects =
    if 0 < selectCycleLen hitId then
      IdMap.insert s.selects hitId ((s.selectIndex hitId + 1) % selectCycleLen hitId)
    else s.selects := by
  have hselect : clickWidget s hitId .select =
      (let state := { s with clicked := some hitId }
      if 0 < selectCycleLen hitId then
        let next := (state.selectIndex hitId + 1) % selectCycleLen hitId
        if hitId = designMaterialPresetSelect then
          clearMaterialOverrides (state.setSelectIndex hitId next)
        else state.setSelectIndex hitId next
      else state) := rfl
  rw [hselect]
  dsimp only
  split_ifs <;> rfl

theorem clickWidget_selects (hitId : UInt32) (role : Role) :
    (clickWidget s hitId role).selects id = turnedSelect (some (hitId, role)) s id := by
  have hother : role ≠ .select → role ≠ .button →
      (clickWidget s hitId role).selects id = turnedSelect (some (hitId, role)) s id := by
    intro hselect hbutton
    rw [turnedSelect, if_neg fun h => hselect (Prod.mk.inj (Option.some.inj h.1)).2,
      if_neg fun h => hbutton (Prod.mk.inj (Option.some.inj h.1)).2]
    simp only [clickWidget, decide_eq_false hbutton, if_neg hselect, Bool.false_and,
      Bool.false_eq_true, if_false]
    split_ifs <;> rfl
  cases role with
  | none => exact hother (by simp) (by simp)
  | toggle => exact hother (by simp) (by simp)
  | scroll => exact hother (by simp) (by simp)
  | input => exact hother (by simp) (by simp)
  | slider => exact hother (by simp) (by simp)
  | select =>
    rw [turnedSelect, selects_of_select]
    by_cases hlen : 0 < selectCycleLen hitId
    · rw [if_pos hlen, insert_eq]
      by_cases hid : id = hitId
      · subst hid
        rw [if_pos rfl, if_pos ⟨rfl, hlen⟩]
      · rw [if_neg hid, if_neg fun h => hid (Prod.mk.inj (Option.some.inj h.1)).1.symm,
          if_neg (by simp)]
    · have hnot : ¬ (some (hitId, Role.select) = some (id, .select) ∧ 0 < selectCycleLen id) := by
        rintro ⟨hid, hpos⟩
        obtain ⟨rfl, -⟩ := Prod.mk.inj (Option.some.inj hid)
        exact hlen hpos
      rw [if_neg hlen, if_neg hnot, if_neg (by simp)]
  | button =>
    rw [turnedSelect, if_neg (by simp)]
    by_cases hprevious : hitId = designMaterialPreviousButton
    · subst hprevious
      have hcycled : (clickWidget s designMaterialPreviousButton .button).selects id =
          IdMap.insert s.selects designMaterialPresetSelect
            ((s.selectIndex designMaterialPresetSelect + materialOptions.length - 1) %
              materialOptions.length) id := rfl
      rw [hcycled, insert_eq]
      by_cases hid : id = designMaterialPresetSelect
      · rw [if_pos hid, if_pos ⟨rfl, hid⟩, hid]
      · rw [if_neg hid, if_neg fun h => hid h.2]
    · have hkept : (clickWidget s hitId .button).selects id = s.selects id := by
        simp [clickWidget, hprevious]
        split_ifs <;> rfl
      rw [hkept, if_neg fun h => hprevious (Prod.mk.inj (Option.some.inj h.1)).1]

end Turns

inductive Call
  | event (solveFor : UiState → List LaidBox) (event : UiEvent)
  | takeClick

def callUi (fonts : Fonts) (state : UiState) : Call → Option (Option UInt32 × UiState)
  | .event solveFor event => (handleEvent fonts solveFor state event).map fun next => (none, next)
  | .takeClick => some state.takeClick

abbrev Moment := Visit UiState Call (Option UInt32)

def isDown : Call → Bool
  | .event _ (.pointerDown _ _) => true
  | _ => false

def isUp : Call → Bool
  | .event _ (.pointerUp _ _) => true
  | _ => false

def struck (v : Moment) : Option (UInt32 × Role) :=
  match v.input with
  | .event solveFor (.pointerDown x y) => hitTest (solveFor v.before) x y
  | .event solveFor (.pointerUp x y) =>
    hitTest (solveFor { v.before with inputDragAnchor := none }) x y
  | _ => none

def lastDown (past : List Moment) : Option Moment := past.reverse.find? fun v => isDown v.input

def Clicks (past : List Moment) (v : Moment) (id : UInt32) : Prop :=
  (struck v).map Prod.fst = some id ∧
    ∃ down, lastDown past = some down ∧ (struck down).map Prod.fst = some id

def click (v : Moment) : Option (UInt32 × Role) :=
  if isUp v.input && v.before.drag.isNone && v.before.sliderDrag.isNone then
    (struck v).filter fun hit => v.before.pressed = some hit.1
  else none

section Runs

variable {fonts : Fonts} {past : List Moment} {s t : UiState}

theorem lastDown_concat (past : List Moment) (v : Moment) :
    lastDown (past ++ [v]) = if isDown v.input then some v else lastDown past := by
  rw [lastDown, List.reverse_append, List.reverse_singleton, List.singleton_append, List.find?_cons]
  cases isDown v.input <;> rfl

def PressHit (past : List Moment) (s : UiState) : Prop :=
  ∀ id, s.pressed = some id →
    ∃ down, lastDown past = some down ∧ (struck down).map Prod.fst = some id

theorem handlePointerUp_pressed (solveFor : UiState → List LaidBox) (s : UiState) (x y : ℚ) :
    (handlePointerUp solveFor s x y).pressed = none := by
  simp only [handlePointerUp]
  split_ifs <;> rfl

theorem callUi_returns (fonts : Fonts) (s : UiState) (call : Call) :
    ∃ output t, callUi fonts s call = some (output, t) := by
  cases call with
  | takeClick => exact ⟨_, _, rfl⟩
  | event solveFor event =>
    have hreturns : ∃ t, handleEvent fonts solveFor s event = some t := by
      by_cases hdown : ∃ x y, event = .pointerDown x y
      · obtain ⟨x, y, rfl⟩ := hdown
        obtain ⟨t, ht, -⟩ := handlePointerDown_returns fonts solveFor s x y
        exact ⟨t, ht⟩
      · by_cases hup : ∃ x y, event = .pointerUp x y
        · obtain ⟨x, y, rfl⟩ := hup
          exact ⟨_, rfl⟩
        · obtain ⟨t, ht, -⟩ := handleEvent_returns fonts solveFor s
            (fun x y h => hdown ⟨x, y, h⟩) fun x y h => hup ⟨x, y, h⟩
          exact ⟨t, ht⟩
    obtain ⟨t, ht⟩ := hreturns
    exact ⟨none, t, by rw [callUi, ht]; rfl⟩

theorem callUi_aside {call : Call} {output : Option UInt32} (hdown : isDown call = false)
    (hup : isUp call = false) (h : callUi fonts s call = some (output, t)) : Aside s t := by
  cases call with
  | takeClick =>
    obtain ⟨-, rfl⟩ := Prod.mk.inj (Option.some.inj h)
    exact ⟨rfl, rfl, rfl⟩
  | event solveFor event =>
    have hnotDown : ∀ x y, event ≠ .pointerDown x y := by
      rintro x y rfl
      cases hdown
    have hnotUp : ∀ x y, event ≠ .pointerUp x y := by
      rintro x y rfl
      cases hup
    obtain ⟨u, hu, haside⟩ := handleEvent_returns fonts solveFor s hnotDown hnotUp
    rw [callUi, hu] at h
    obtain ⟨-, rfl⟩ := Prod.mk.inj (Option.some.inj h)
    exact haside

theorem callUi_down {call : Call} {output : Option UInt32} (hdown : isDown call = true)
    (h : callUi fonts s call = some (output, t)) :
    t.toggles = s.toggles ∧ t.selects = s.selects ∧
      ∀ id, t.pressed = some id → (struck ⟨s, call, output, t⟩).map Prod.fst = some id := by
  obtain ⟨solveFor, x, y, rfl⟩ : ∃ solveFor x y, call = .event solveFor (.pointerDown x y) := by
    cases call with
    | takeClick => cases hdown
    | event solveFor event =>
      cases event with
      | pointerDown x y => exact ⟨solveFor, x, y, rfl⟩
      | _ => cases hdown
  obtain ⟨u, hu, hkept⟩ := handlePointerDown_returns fonts solveFor s x y
  rw [callUi, handleEvent, hu] at h
  obtain ⟨-, rfl⟩ := Prod.mk.inj (Option.some.inj h)
  exact hkept

theorem callUi_up {call : Call} {output : Option UInt32} (hup : isUp call = true)
    (h : callUi fonts s call = some (output, t)) :
    ∃ solveFor x y, call = .event solveFor (.pointerUp x y) ∧ t = handlePointerUp solveFor s x y := by
  cases call with
  | takeClick => cases hup
  | event solveFor event =>
    cases event with
    | pointerUp x y =>
      obtain ⟨-, rfl⟩ := Prod.mk.inj (Option.some.inj h)
      exact ⟨solveFor, x, y, rfl, rfl⟩
    | _ => cases hup

theorem pressHit_run (h : Run (callUi fonts) AtRest past s) : PressHit past s := by
  apply h.induction PressHit
  · intro s hrest id hpressed
    rw [hrest.pressed] at hpressed
    cases hpressed
  · intro past v hinv hmade id hpressed
    rw [lastDown_concat]
    cases hdown : isDown v.input with
    | true =>
      refine ⟨v, if_pos rfl, ?_⟩
      exact (callUi_down hdown hmade).2.2 id hpressed
    | false =>
      rw [if_neg Bool.false_ne_true]
      cases hup : isUp v.input with
      | true =>
        obtain ⟨solveFor, x, y, -, hafter⟩ := callUi_up hup hmade
        rw [hafter, handlePointerUp_pressed] at hpressed
        cases hpressed
      | false =>
        apply hinv id
        rw [← (callUi_aside hdown hup hmade).pressed, hpressed]

section Release

variable {solveFor : UiState → List LaidBox} {x y : ℚ}

theorem release_of_drag (h : s.drag ≠ none) : handlePointerUp solveFor s x y =
    { s with inputDragAnchor := none, drag := none, pressed := none } := by
  have hsome : s.drag.isSome = true := Option.isSome_iff_ne_none.mpr h
  simp only [handlePointerUp]
  rw [if_pos hsome]

theorem release_of_sliderDrag (hdrag : s.drag = none) (h : s.sliderDrag ≠ none) :
    handlePointerUp solveFor s x y =
      { s with inputDragAnchor := none, sliderDrag := none, pressed := none, clicked := none } := by
  have hnone : ¬ s.drag.isSome = true := by simp [hdrag]
  have hsome : s.sliderDrag.isSome = true := Option.isSome_iff_ne_none.mpr h
  simp only [handlePointerUp]
  rw [if_neg hnone, if_pos hsome]

theorem release_of_click (hdrag : s.drag = none) (hslider : s.sliderDrag = none) :
    let hit := (hitTest (solveFor { s with inputDragAnchor := none }) x y).filter
      fun hit => s.pressed = some hit.1
    let unclicked := { s with inputDragAnchor := none, clicked := none }
    handlePointerUp solveFor s x y =
      { hit.elim unclicked fun hit => clickWidget unclicked hit.1 hit.2 with pressed := none } := by
  have hnone : ¬ s.drag.isSome = true := by simp [hdrag]
  have hstill : ¬ s.sliderDrag.isSome = true := by simp [hslider]
  simp only [handlePointerUp]
  rw [if_neg hnone, if_neg hstill]
  cases hitTest (solveFor { s with inputDragAnchor := none }) x y with
  | none => rfl
  | some hit =>
    cases hpressed : s.pressed with
    | none => simp
    | some pressed =>
      by_cases hsame : hit.1 = pressed
      · simp [Option.filter, hsame]
      · have hother : ¬ pressed = hit.1 := fun h => hsame h.symm
        simp [Option.filter, hsame, hother]

end Release

section Contract

variable {past before after : List Moment} {v : Moment}

theorem clicks_of_click (hpress : PressHit before v.before) {id : UInt32} {role : Role}
    (h : click v = some (id, role)) : isUp v.input = true ∧ Clicks before v id := by
  rw [click] at h
  split_ifs at h with hopen
  simp only [Bool.and_eq_true] at hopen
  obtain ⟨hstruck, hpressed⟩ := Option.filter_eq_some_iff.mp h
  refine ⟨hopen.1.1, ?_, hpress id (of_decide_eq_true hpressed)⟩
  rw [hstruck]
  rfl

theorem click_of_drag (h : v.before.drag ≠ none) : click v = none := by
  rw [click, if_neg]
  simp [Option.isNone_iff_eq_none, h]

theorem click_of_sliderDrag (h : v.before.sliderDrag ≠ none) : click v = none := by
  rw [click, if_neg]
  simp [Option.isNone_iff_eq_none, h]

theorem click_of_not_up (h : isUp v.input = false) : click v = none := by
  rw [click, if_neg]
  simp [h]

variable (hmade : callUi fonts v.before v.input = some (v.output, v.after))
include hmade

theorem release_of_open (hup : isUp v.input = true) (hdrag : v.before.drag = none)
    (hslider : v.before.sliderDrag = none) :
    let unclicked := { v.before with inputDragAnchor := none, clicked := none }
    v.after = { (click v).elim unclicked fun hit => clickWidget unclicked hit.1 hit.2 with
      pressed := none } := by
  obtain ⟨solveFor, x, y, hinput, hafter⟩ := callUi_up hup hmade
  rw [hafter, release_of_click hdrag hslider, click, if_pos (by simp [hup, hdrag, hslider]), struck,
    hinput]

theorem turned_of_step (id : UInt32) :
    v.after.toggles id = turnedToggle (click v) v.before id ∧
      v.after.selects id = turnedSelect (click v) v.before id := by
  cases hup : isUp v.input with
  | false =>
    have hkept : v.after.toggles = v.before.toggles ∧ v.after.selects = v.before.selects := by
      cases hdown : isDown v.input with
      | true => exact ⟨(callUi_down hdown hmade).1, (callUi_down hdown hmade).2.1⟩
      | false =>
        have haside := callUi_aside hdown hup hmade
        exact ⟨haside.toggles, haside.selects⟩
    rw [click_of_not_up hup, turnedToggle_none, turnedSelect_none, hkept.1, hkept.2]
    exact ⟨rfl, rfl⟩
  | true =>
    by_cases hdrag : v.before.drag = none
    · by_cases hslider : v.before.sliderDrag = none
      · have hafter := release_of_open hmade hup hdrag hslider
        rw [hafter]
        cases click v with
        | none => exact ⟨rfl, (turnedSelect_none v.before id).symm⟩
        | some hit => exact ⟨clickWidget_toggles _ id hit.1 hit.2, clickWidget_selects _ id hit.1 hit.2⟩
      · obtain ⟨solveFor, x, y, -, hafter⟩ := callUi_up hup hmade
        rw [click_of_sliderDrag hslider, turnedToggle_none, turnedSelect_none, hafter,
          release_of_sliderDrag hdrag hslider]
        exact ⟨rfl, rfl⟩
    · obtain ⟨solveFor, x, y, -, hafter⟩ := callUi_up hup hmade
      rw [click_of_drag hdrag, turnedToggle_none, turnedSelect_none, hafter, release_of_drag hdrag]
      exact ⟨rfl, rfl⟩

theorem released (hup : isUp v.input = true) (hdrag : v.before.drag = none) :
    AtRest v.after ∧ v.after.clicked = (click v).map Prod.fst := by
  by_cases hslider : v.before.sliderDrag = none
  · have hafter := release_of_open hmade hup hdrag hslider
    cases hclick : click v with
    | none =>
      rw [hclick] at hafter
      rw [hafter]
      exact ⟨⟨hdrag, hslider, rfl, rfl⟩, rfl⟩
    | some hit =>
      rw [hclick] at hafter
      have hkept := clickWidget_keeps { v.before with inputDragAnchor := none, clicked := none } hit.1 hit.2
      rw [hafter]
      exact ⟨⟨hkept.2.1.trans hdrag, hkept.2.2.1.trans hslider, hkept.2.2.2, rfl⟩, hkept.1⟩
  · obtain ⟨solveFor, x, y, -, hafter⟩ := callUi_up hup hmade
    rw [click_of_sliderDrag hslider, hafter, release_of_sliderDrag hdrag hslider]
    exact ⟨⟨hdrag, rfl, rfl, rfl⟩, rfl⟩

theorem released_of_drag (hup : isUp v.input = true) (hdrag : v.before.drag ≠ none) :
    (AtRest v.after ↔ v.before.sliderDrag = none) ∧ v.after.clicked = v.before.clicked := by
  obtain ⟨solveFor, x, y, -, hafter⟩ := callUi_up hup hmade
  rw [hafter, release_of_drag hdrag]
  exact ⟨⟨fun h => h.sliderDrag, fun h => ⟨rfl, h, rfl, rfl⟩⟩, rfl⟩

end Contract

/-- Every moment of a run: a release leaves nothing armed, and a widget clicked that it and the last
press hit, unless it ends a scrollbar drag with a slider drag armed as well or with another click
not taken yet; and the values are turned by clicks alone, each by one step. -/
theorem release_leaves_nothing_armed (h : Run (callUi fonts) AtRest past s)
    {before after : List Moment} {v : Moment} (hpast : past = before ++ v :: after) :
    (isUp v.input = true →
      ((AtRest v.after ∧ ∀ id, v.after.clicked = some id → Clicks before v id) ↔
        ¬ (v.before.drag ≠ none ∧ (v.before.sliderDrag ≠ none ∨
          ∃ id, v.before.clicked = some id ∧ ¬ Clicks before v id)))) ∧
    (∀ id, v.after.toggles id = turnedToggle (click v) v.before id ∧
      v.after.selects id = turnedSelect (click v) v.before id) ∧
    (∀ id role, click v = some (id, role) →
      isUp v.input = true ∧ Clicks before v id ∧ v.after.clicked = some id) ∧
    (isUp v.input = true → v.before.drag = none →
      ∀ id, v.after.clicked = some id → ∃ role, click v = some (id, role)) := by
  obtain ⟨hrun, hmade⟩ := h.split hpast
  have hpress := pressHit_run hrun
  have hclicks {id : UInt32} {role : Role} (hclick : click v = some (id, role)) :
      isUp v.input = true ∧ Clicks before v id := clicks_of_click hpress hclick
  refine ⟨fun hup => ?_, turned_of_step hmade, fun id role hclick => ?_, fun hup hdrag id hid => ?_⟩
  · by_cases hdrag : v.before.drag = none
    · obtain ⟨hrest, hclicked⟩ := released hmade hup hdrag
      refine ⟨fun _ h => h.1 hdrag, fun _ => ⟨hrest, fun id hid => ?_⟩⟩
      rw [hclicked] at hid
      obtain ⟨⟨_, role⟩, hclick, rfl⟩ := Option.map_eq_some_iff.mp hid
      exact (hclicks hclick).2
    · obtain ⟨hrest, hclicked⟩ := released_of_drag hmade hup hdrag
      rw [hrest, hclicked]
      constructor
      · rintro ⟨hslider, hall⟩ ⟨-, hbad⟩
        obtain hbad | ⟨id, hid, hnot⟩ := hbad
        · exact hbad hslider
        · exact hnot (hall id hid)
      · intro hgood
        refine ⟨by_contra fun hslider => hgood ⟨hdrag, .inl hslider⟩, fun id hid => ?_⟩
        exact by_contra fun hnot => hgood ⟨hdrag, .inr ⟨id, hid, hnot⟩⟩
  · obtain ⟨hup, hboth⟩ := hclicks hclick
    have hdrag : v.before.drag = none := by
      by_contra hdrag
      rw [click_of_drag hdrag] at hclick
      cases hclick
    refine ⟨hup, hboth, ?_⟩
    rw [(released hmade hup hdrag).2, hclick]
    rfl
  · rw [(released hmade hup hdrag).2] at hid
    obtain ⟨⟨_, role⟩, hclick, rfl⟩ := Option.map_eq_some_iff.mp hid
    exact ⟨role, hclick⟩

end Runs

def toggleTree : List LaidBox :=
  [⟨⟨⟨0, 0⟩, ⟨20, 10⟩⟩, .box none 0 none none none, some 1, .toggle, none, 0⟩]

def scrolledSlider : List LaidBox :=
  let view : Bounds := ⟨⟨0, 0⟩, ⟨200, 100⟩⟩
  [⟨view, .box none 0 none none none, some 1, .scroll, none, 300⟩,
    ⟨⟨⟨0, 0⟩, ⟨200, 300⟩⟩, .box none 0 none none none, some 2, .slider, some view, 0⟩]

theorem atRest_new (width height : UInt32) : AtRest (.new width height) := ⟨rfl, rfl, rfl, rfl⟩

theorem release_leaves_nothing_armed_x :
    ∃ past v s, Run (callUi ⟨none, none⟩) AtRest (past ++ [v]) s ∧ AtRest v.after ∧
      v.before.toggles 1 = none ∧ v.after.toggles 1 = some true := by
  have hdown : (handleEvent ⟨none, none⟩ (fun _ => toggleTree) (.new 200 100)
      (.pointerDown 5 5)).map (fun s => (s.drag, s.sliderDrag, s.pressed, s.toggles 1)) =
      some (none, none, some 1, none) := by decide +kernel
  obtain ⟨t, ht, hfields⟩ := Option.map_eq_some_iff.mp hdown
  simp only [Prod.mk.injEq] at hfields
  obtain ⟨hdrag, hslider, hpressed, htoggle⟩ := hfields
  let up : Moment := ⟨t, .event (fun _ => toggleTree) (.pointerUp 5 5), none,
    handlePointerUp (fun _ => toggleTree) t 5 5⟩
  have hrun : Run (callUi ⟨none, none⟩) AtRest _ up.after :=
    .call (.call (i := .event (fun _ => toggleTree) (.pointerDown 5 5)) (o := none)
      (.start (atRest_new 200 100)) (by rw [callUi, ht]; rfl)) (show callUi _ t up.input = _ from rfl)
  have hstruck : struck up = some (1, .toggle) := by
    change hitTest toggleTree 5 5 = _
    decide +kernel
  have hclick : click up = some (1, .toggle) := by
    have hopen : (isUp up.input && up.before.drag.isNone && up.before.sliderDrag.isNone) = true := by
      change (true && t.drag.isNone && t.sliderDrag.isNone) = true
      rw [hdrag, hslider]
      rfl
    have hheld : up.before.pressed = some 1 := hpressed
    rw [click, if_pos hopen, hstruck, hheld]
    rfl
  obtain ⟨hreleased, hturned, -⟩ := release_leaves_nothing_armed hrun rfl
  refine ⟨_, up, up.after, hrun, ((hreleased rfl).mpr fun h => h.1 hdrag).1, htoggle, ?_⟩
  rw [(hturned 1).1, hclick]
  change (if _ then some (!(t.toggles 1).getD false) else _) = _
  rw [htoggle]
  rfl

theorem slider_stays_armed :
    ∃ past v s, Run (callUi ⟨none, none⟩) AtRest (past ++ [v]) s ∧ isUp v.input = true ∧
      v.after.sliderDrag = some 2 := by
  have hdown : (handleEvent ⟨none, none⟩ (fun _ => scrolledSlider) (.new 200 100)
      (.pointerDown 195 10)).map (fun s => (s.drag, s.sliderDrag)) = some (some 1, some 2) := by
    decide +kernel
  obtain ⟨t, ht, hfields⟩ := Option.map_eq_some_iff.mp hdown
  obtain ⟨hdrag, hslider⟩ := Prod.mk.inj hfields
  let up : Moment := ⟨t, .event (fun _ => scrolledSlider) (.pointerUp 195 10), none,
    handlePointerUp (fun _ => scrolledSlider) t 195 10⟩
  have hrun : Run (callUi ⟨none, none⟩) AtRest _ up.after :=
    .call (.call (i := .event (fun _ => scrolledSlider) (.pointerDown 195 10)) (o := none)
      (.start (atRest_new 200 100)) (by rw [callUi, ht]; rfl)) (show callUi _ t up.input = _ from rfl)
  refine ⟨_, up, up.after, hrun, rfl, ?_⟩
  change (handlePointerUp (fun _ => scrolledSlider) t 195 10).sliderDrag = some 2
  rw [release_of_drag (by rw [hdrag]; simp)]
  exact hslider

end AtomVibe.Ui
