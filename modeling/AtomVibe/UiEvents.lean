import AtomVibe.UxModel
import AtomVibe.TextWrap
import Mathlib.Data.Rat.Floor

namespace AtomVibe.Ui

open Text TextWrap Ux

abbrev IdMap (V : Type) := UInt32 → Option V

namespace IdMap

variable {V : Type} (map : IdMap V) (id : UInt32)

def insert (value : V) : IdMap V := Function.update map id (some value)

def remove : IdMap V := Function.update map id none

end IdMap

structure UiState where
  width : UInt32
  height : UInt32
  scale : ℚ
  hover : Option UInt32
  pressed : Option UInt32
  clicked : Option UInt32
  toggles : IdMap Bool
  scrolls : IdMap ℚ
  sliders : IdMap ℚ
  selects : IdMap ℕ
  drag : Option UInt32
  sliderDrag : Option UInt32
  dragGrab : ℚ
  focused : Option UInt32
  inputs : IdMap (List Char)
  inputCarets : IdMap ℕ
  inputSelections : IdMap (ℕ × ℕ)
  inputDragAnchor : Option (UInt32 × ℕ)
  clipboardOut : Option (List Char)
  submit : Option UInt32
  animationTime : ℚ

namespace UiState

def new (width height : UInt32) : UiState where
  width := width
  height := height
  scale := 1
  hover := none
  pressed := none
  clicked := none
  toggles := fun _ => none
  scrolls := fun _ => none
  sliders := fun _ => none
  selects := fun _ => none
  drag := none
  sliderDrag := none
  dragGrab := 0
  focused := none
  inputs := fun _ => none
  inputCarets := fun _ => none
  inputSelections := fun _ => none
  inputDragAnchor := none
  clipboardOut := none
  submit := none
  animationTime := 0

variable (state : UiState) (id : UInt32)

def toggleOn : Bool := (state.toggles id).getD false

def scrollOf : ℚ := (state.scrolls id).getD 0

def setSlider (value : ℚ) : UiState :=
  { state with sliders := IdMap.insert state.sliders id (clamp value 0 1) }

def selectIndex : ℕ := (state.selects id).getD 0

def setSelectIndex (index : ℕ) : UiState :=
  { state with selects := IdMap.insert state.selects id index }

def takeClick : Option UInt32 × UiState := (state.clicked, { state with clicked := none })

def inputText : List Char := (state.inputs id).getD []

def inputCaret : ℕ :=
  min ((state.inputCarets id).getD (state.inputText id).length) (state.inputText id).length

def inputSelection : Option (ℕ × ℕ) :=
  let len := (state.inputText id).length
  match state.inputSelections id with
  | none => none
  | some (a, b) =>
    let start := min (min a b) len
    let stop := min (max a b) len
    if start < stop then some (start, stop) else none

end UiState

inductive UiEvent
  | resize (width height : UInt32)
  | pointerMove (x y : ℚ)
  | pointerDown (x y : ℚ)
  | pointerUp (x y : ℚ)
  | wheel (x y delta : ℚ)
  | char (c : Char)
  | backspace
  | delete
  | moveLeft (shift : Bool)
  | moveRight (shift : Bool)
  | selectAll
  | copy
  | cut
  | paste (text : List Char)
  | enter
  | tick (dt : ℚ)

def sliceChars (text : List Char) (start stop : ℕ) : Option (List Char) :=
  checkedSlice text (charBoundary text start) (charBoundary text (max stop start))

def sanitizeInputText (text : List Char) : List Char :=
  text.filterMap fun ch =>
    if ch = '\x00' then none
    else if ch = '\r' then some '\n'
    else if ch = '\n' ∨ ch = '\t' then some ch
    else if isControl ch then none
    else some ch

def clampInputCaret (state : UiState) (id : UInt32) (caret : ℕ) : ℕ :=
  min caret (state.inputText id).length

def setInputCaret (state : UiState) (id : UInt32) (caret : ℕ) (keepSelection : Bool) : UiState :=
  { state with
    inputCarets := IdMap.insert state.inputCarets id (clampInputCaret state id caret)
    inputSelections :=
      if keepSelection then state.inputSelections else IdMap.remove state.inputSelections id }

def setInputSelection (state : UiState) (id : UInt32) (anchor focus : ℕ) : UiState :=
  let anchor := clampInputCaret state id anchor
  let focus := clampInputCaret state id focus
  { state with
    inputCarets := IdMap.insert state.inputCarets id focus
    inputSelections :=
      if anchor = focus then IdMap.remove state.inputSelections id
      else IdMap.insert state.inputSelections id (anchor, focus) }

def deleteInputSelection (state : UiState) (id : UInt32) : Option (Bool × UiState) :=
  match state.inputSelection id with
  | none => some (false, state)
  | some (start, stop) => do
    let text := state.inputText id
    let left ← replaceRange text (charBoundary text start) (charBoundary text stop) []
    return (true, { state with
      inputs := IdMap.insert state.inputs id left
      inputCarets := IdMap.insert state.inputCarets id start
      inputSelections := IdMap.remove state.inputSelections id })

def insertInputText (state : UiState) (id : UInt32) (incoming : List Char) : Option UiState :=
  let incoming := sanitizeInputText incoming
  if incoming.isEmpty then some state
  else do
    let (_, state) ← deleteInputSelection state id
    let caret := clampInputCaret state id (state.inputCaret id)
    let text := state.inputText id
    let grown ← insertStr text (charBoundary text caret) incoming
    return { state with
      inputs := IdMap.insert state.inputs id grown
      inputCarets := IdMap.insert state.inputCarets id (caret + incoming.length) }

def backspaceInput (state : UiState) (id : UInt32) : Option UiState := do
  let (deleted, state) ← deleteInputSelection state id
  if deleted then return state
  let caret := state.inputCaret id
  if caret = 0 then return state
  let text := state.inputText id
  let left ← replaceRange text (charBoundary text (caret - 1)) (charBoundary text caret) []
  return { state with
    inputs := IdMap.insert state.inputs id left
    inputCarets := IdMap.insert state.inputCarets id (caret - 1) }

def deleteForwardInput (state : UiState) (id : UInt32) : Option UiState := do
  let (deleted, state) ← deleteInputSelection state id
  if deleted then return state
  let caret := state.inputCaret id
  let text := state.inputText id
  if text.length ≤ caret then return state
  let left ← replaceRange text (charBoundary text caret) (charBoundary text (caret + 1)) []
  return { state with
    inputs := IdMap.insert state.inputs id left
    inputCarets := IdMap.insert state.inputCarets id caret }

def moveInputCaret (state : UiState) (id : UInt32) (right shift : Bool) : UiState :=
  let current := state.inputCaret id
  let next := if right then min (current + 1) (state.inputText id).length else current - 1
  if shift then
    let anchor := ((state.inputSelections id).map Prod.fst).getD current
    setInputSelection state id anchor next
  else
    match state.inputSelection id with
    | some (start, stop) => setInputCaret state id (if right then stop else start) false
    | none => setInputCaret state id next false

def selectAllInput (state : UiState) (id : UInt32) : UiState :=
  setInputSelection state id 0 (state.inputText id).length

def selectedInputText (state : UiState) (id : UInt32) : Option (Option (List Char)) :=
  match state.inputSelection id with
  | none => some none
  | some (start, stop) => (sliceChars (state.inputText id) start stop).map some

section Pointer

variable (fonts : Fonts)

def inputCaretFromPointer (state : UiState) (boxes : List LaidBox) (id : UInt32) (x y : ℚ) :
    Option ℕ :=
  match boxes.dropWhile fun b => b.id ≠ some id with
  | [] => some (state.inputCaret id)
  | b :: rest =>
    let owner := b.rect
    let text := state.inputText id
    if text.length = 0 then some 0
    else
      let child := rest.find? fun b =>
        (match b.kind with
          | .text .. => true
          | .rich .. => true
          | .box .. => false) &&
        owner.min.x - 1 / 2 ≤ b.rect.min.x && b.rect.max.x ≤ owner.max.x + 1 / 2 &&
        b.rect.min.y < owner.max.y && owner.min.y < b.rect.max.y
      let (origin, size, width) : Vec2 × ℚ × ℚ := match child with
        | some c =>
          (c.rect.min, (match c.kind with
            | .text _ size _ => size
            | .rich spans _ => (spans.head?.map (·.size)).getD 14
            | .box .. => 14), c.rect.max.x - c.rect.min.x)
        | none => (⟨owner.min.x + 10, owner.min.y⟩, 14, owner.max.x - owner.min.x - 20)
      let ranges := wrapRanges fonts text size (max width 1)
      let line := min ⌊(y - origin.y) / (size * (13 / 10))⌋.toNat (ranges.length - 1)
      do
        let (start, stop) ← ranges[line]?
        let target := max (x - origin.x) 0
        let best ← (List.range' start (stop + 1 - start)).foldlM (fun (best : ℕ × Option ℚ) idx => do
          let before ← sliceChars text start idx
          let dist := |advance fonts before size - target|
          return if best.2.all fun bestDist => dist < bestDist then (idx, some dist) else best)
          (start, none)
        return best.1

end Pointer

end AtomVibe.Ui

namespace AtomVibe.Ui

open Text TextWrap Ux

def designTypographySelect : UInt32 := 3900000008
def designShapeSelect : UInt32 := 3900000009
def designMaterialPresetSelect : UInt32 := 3900000016
def designMaterialBlurSlider : UInt32 := 3900000018
def designMaterialRefractionSlider : UInt32 := 3900000019
def designMaterialDispersionSlider : UInt32 := 3900000020
def designMaterialRimSlider : UInt32 := 3900000021
def designMaterialPreviousButton : UInt32 := 3900000022
def designMaterialResetButton : UInt32 := 3900000023

def typographyOptions : List String :=
  ["Clean", "Display", "Code", "Editorial", "Dense", "Rounded", "Readable", "Poster"]

def shapeOptions : List String := ["Soft", "Square", "Round", "Pill", "Circle", "Sharp"]

def materialOptions : List String :=
  ["Legacy", "Clear glass", "Frosted glass", "Water", "Crystal", "Soap film", "Wax", "Smoke",
    "Stained glass", "Heat haze"]

def selectCycleLen (id : UInt32) : ℕ :=
  if id = designTypographySelect then typographyOptions.length
  else if id = designShapeSelect then shapeOptions.length
  else if id = designMaterialPresetSelect then materialOptions.length
  else 0

def clearMaterialOverrides (state : UiState) : UiState :=
  { state with
    sliders := [designMaterialBlurSlider, designMaterialRefractionSlider,
      designMaterialDispersionSlider, designMaterialRimSlider].foldl IdMap.remove state.sliders }

def updateSliderFromX (state : UiState) (boxes : List LaidBox) (id : UInt32) (x : ℚ) : UiState :=
  match boxes.find? fun b => b.id = some id with
  | some b =>
    let w := max (b.rect.max.x - b.rect.min.x) 1
    state.setSlider id ((x - b.rect.min.x) / w)
  | none => state

structure ScrollbarGeom where
  barX : ℚ
  trackTop : ℚ
  trackH : ℚ
  thumbY : ℚ
  thumbH : ℚ
  max : ℚ

def scrollbarGeom (b : LaidBox) (scroll s : ℚ) : Option ScrollbarGeom :=
  if b.role ≠ .scroll then none
  else
    let viewH := b.rect.max.y - b.rect.min.y
    let limit := max (b.contentLen - viewH) 0
    if limit ≤ 0 then none
    else
      let trackTop := b.rect.min.y + 4 * s
      let trackH := max (viewH - 8 * s) 1
      let barX := b.rect.max.x - 7 * s
      let thumbH := clamp (viewH / b.contentLen * trackH) (min (24 * s) trackH) trackH
      let t := clamp (scroll / limit) 0 1
      let thumbY := trackTop + t * (trackH - thumbH)
      some ⟨barX, trackTop, trackH, thumbY, thumbH, limit⟩

def grabScrollbar (x y : ℚ) (s : UiState × Bool) (b : LaidBox) : UiState × Bool :=
  match b.id with
  | none => s
  | some id =>
    if b.clip.any fun c => !contains c x y then s
    else match scrollbarGeom b (s.1.scrollOf id) 1 with
      | none => s
      | some geom =>
        if geom.barX - 4 ≤ x && x ≤ geom.barX + 8 && contains b.rect x y then
          if geom.thumbY ≤ y && y ≤ geom.thumbY + geom.thumbH then
            ({ s.1 with drag := some id, dragGrab := y - geom.thumbY }, true)
          else (s.1, true)
        else s

def wheelTarget (x y : ℚ) (target : Option (UInt32 × ℚ × ℚ)) (b : LaidBox) :
    Option (UInt32 × ℚ × ℚ) :=
  if b.role = .scroll && contains b.rect x y && b.clip.all fun c => contains c x y then
    let viewH := b.rect.max.y - b.rect.min.y
    if viewH + 1 / 2 < b.contentLen then
      match b.id with
      | some id => some (id, viewH, b.contentLen)
      | none => target
    else target
  else target

section Handlers

-- `solveFor` solves the tree that the application builds for a state.
variable (fonts : Fonts) (solveFor : UiState → List LaidBox) (state : UiState)

def handlePointerMove (x y : ℚ) : Option UiState :=
  match state.sliderDrag with
  | some id => some (updateSliderFromX state (solveFor state) id x)
  | none => match state.drag with
    | some id =>
      match (solveFor state).find? fun b => b.id = some id with
      | none => some state
      | some b => match scrollbarGeom b (state.scrollOf id) 1 with
        | none => some state
        | some geom =>
          let denom := max (geom.trackH - geom.thumbH) (1 / 1000)
          let t := clamp ((y - geom.trackTop - state.dragGrab) / denom) 0 1
          some { state with scrolls := IdMap.insert state.scrolls id (t * geom.max) }
    | none =>
      let boxes := solveFor state
      match state.inputDragAnchor with
      | some (id, anchor) => do
        let focus ← inputCaretFromPointer fonts state boxes id x y
        return { setInputSelection state id anchor focus with
          hover := (hitTest boxes x y).map Prod.fst }
      | none => some { state with hover := (hitTest boxes x y).map Prod.fst }

def handlePointerDown (x y : ℚ) : Option UiState := do
  let boxes := solveFor state
  let start := { state with drag := none, sliderDrag := none, inputDragAnchor := none }
  let (state, overScrollbar) := boxes.foldl (grabScrollbar x y) (start, false)
  let hit := hitTest boxes x y
  let inputHit := (boxes.reverse.find? fun b =>
    b.role = .input && b.id.isSome && contains b.rect x y &&
      b.clip.all fun c => contains c x y).bind (·.id)
  let state := { state with focused := inputHit }
  let state ← match inputHit with
    | some id =>
      if state.drag.isNone && !overScrollbar then do
        let caret ← inputCaretFromPointer fonts state boxes id x y
        pure { setInputCaret state id caret false with inputDragAnchor := some (id, caret) }
      else pure state
    | none => pure state
  let state := match hit with
    | some (id, .slider) => updateSliderFromX { state with sliderDrag := some id } boxes id x
    | _ => state
  return { state with pressed := if state.drag.isSome then none else hit.map Prod.fst }

def clickWidget (id : UInt32) (role : Role) : UiState :=
  let state := { state with clicked := some id }
  if role = .toggle then
    { state with toggles := IdMap.insert state.toggles id (!state.toggleOn id) }
  else if role = .button && id = designMaterialPreviousButton then
    let len := materialOptions.length
    let previous := (state.selectIndex designMaterialPresetSelect + len - 1) % len
    clearMaterialOverrides (state.setSelectIndex designMaterialPresetSelect previous)
  else if role = .button && id = designMaterialResetButton then clearMaterialOverrides state
  else if role = .select then
    let len := selectCycleLen id
    if 0 < len then
      let next := (state.selectIndex id + 1) % len
      let state := state.setSelectIndex id next
      if id = designMaterialPresetSelect then clearMaterialOverrides state else state
    else state
  else state

def handlePointerUp (x y : ℚ) : UiState :=
  let state := { state with inputDragAnchor := none }
  if state.drag.isSome then { state with drag := none, pressed := none }
  else if state.sliderDrag.isSome then
    { state with sliderDrag := none, pressed := none, clicked := none }
  else
    let boxes := solveFor state
    let state := { state with clicked := none }
    let state := match hitTest boxes x y, state.pressed with
      | some (upId, role), some pressed =>
        if upId = pressed then clickWidget state upId role else state
      | _, _ => state
    { state with pressed := none }

def handleWheel (x y delta : ℚ) : UiState :=
  match (solveFor state).foldl (wheelTarget x y) none with
  | none => state
  | some (id, viewH, contentLen) =>
    let limit := max (contentLen - viewH) 0
    let next := clamp (clamp (state.scrollOf id) 0 limit + delta) 0 limit
    { state with scrolls := IdMap.insert state.scrolls id next }

def handleEvent : UiEvent → Option UiState
  | .resize width height => some { state with width, height }
  | .pointerMove x y => handlePointerMove fonts solveFor state x y
  | .pointerDown x y => handlePointerDown fonts solveFor state x y
  | .pointerUp x y => some (handlePointerUp solveFor state x y)
  | .wheel x y delta => some (handleWheel solveFor state x y delta)
  | .char c =>
    match state.focused with
    | some id => if !isControl c then insertInputText state id [c] else some state
    | none => some state
  | .backspace =>
    match state.focused with
    | some id => backspaceInput state id
    | none => some state
  | .delete =>
    match state.focused with
    | some id => deleteForwardInput state id
    | none => some state
  | .moveLeft shift =>
    match state.focused with
    | some id => some (moveInputCaret state id false shift)
    | none => some state
  | .moveRight shift =>
    match state.focused with
    | some id => some (moveInputCaret state id true shift)
    | none => some state
  | .selectAll =>
    match state.focused with
    | some id => some (selectAllInput state id)
    | none => some state
  | .copy =>
    match state.focused with
    | some id => do
      let selected ← selectedInputText state id
      return { state with clipboardOut := selected }
    | none => some state
  | .cut =>
    match state.focused with
    | some id => do
      let selected ← selectedInputText state id
      let (_, state) ← deleteInputSelection { state with clipboardOut := selected } id
      return state
    | none => some state
  | .paste text =>
    match state.focused with
    | some id => insertInputText state id text
    | none => some state
  | .enter => some { state with submit := state.focused }
  | .tick dt =>
    let time := state.animationTime + max dt 0
    some { state with animationTime := time - 3600 * ⌊time / 3600⌋ }

end Handlers

end AtomVibe.Ui
