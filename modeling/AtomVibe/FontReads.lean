import AtomVibe.FontCmap
import AtomVibe.Foundations.Checked

namespace AtomVibe.CheckedFont

open Checked
open FontCmap (Font getRange tagBytes cmapScore Subtable)

/-- How a function ends early: it returns, or it panics. -/
inductive Halt
  | returned
  | panicked
deriving DecidableEq

abbrev Run (α : Type) := Except Halt α

def index {α : Type} (xs : List α) (i : ℕ) : Run α := okOr .panicked xs[i]?

def setIndex {α : Type} (xs : List α) (i : ℕ) (value : α) : Run (List α) :=
  if i < xs.length then .ok (xs.set i value) else .error .panicked

def usize (n : ℕ) : Run ℕ := if n < 2 ^ 64 then .ok n else .error .panicked

def subUsize (a b : ℕ) : Run ℕ := if b ≤ a then .ok (a - b) else .error .panicked

def addI32 (a b : ℤ) : Run ℤ :=
  if -2 ^ 31 ≤ a + b ∧ a + b < 2 ^ 31 then .ok (a + b) else .error .panicked

def orKeep {α β : Type} (kept : β) (x : Run α) (f : α → Run β) : Run β :=
  match x with
  | .ok a => f a
  | .error .returned => .ok kept
  | .error .panicked => .error .panicked

def unwrapOr {α : Type} (default : α) (x : Run α) : Run α := orKeep default x .ok

def rdU8 (d : List UInt8) (o : ℕ) : Run UInt8 := do
  let o ← usize o
  okOr .returned d[o]?

def rdU16 (d : List UInt8) (o : ℕ) : Run UInt16 := do
  let high ← rdU8 d o
  let low ← rdU8 d (o + 1)
  return UInt16.ofNat (high.toNat * 2 ^ 8 + low.toNat)

def rdI16 (d : List UInt8) (o : ℕ) : Run Int16 := do
  let value ← rdU16 d o
  return value.toInt16

def rdU32 (d : List UInt8) (o : ℕ) : Run UInt32 := do
  let b0 ← rdU8 d o
  let b1 ← rdU8 d (o + 1)
  let b2 ← rdU8 d (o + 2)
  let b3 ← rdU8 d (o + 3)
  return UInt32.ofNat (b0.toNat * 2 ^ 24 + b1.toNat * 2 ^ 16 + b2.toNat * 2 ^ 8 + b3.toNat)

def faceBase (d : List UInt8) : Run ℕ := do
  let magic ← rdU32 d 0
  if magic = 0x74746366 then return (← rdU32 d 12).toNat else return 0

def find (d : List UInt8) (base : ℕ) (tag : String) : ℕ → ℕ → Run (ℕ × ℕ)
  | 0, _ => .error .returned
  | count + 1, i => do
    let record ← usize (base + 12 + i * 16)
    let stop ← usize (record + 4)
    let name ← okOr .returned (getRange d record stop)
    if name = tagBytes tag then
      return ((← rdU32 d (record + 8)).toNat, (← rdU32 d (record + 12)).toNat)
    else find d base tag count (i + 1)

def pickCmapFrom (d : List UInt8) (cmap : ℕ) : ℕ → ℕ → Option Subtable → Run (Option Subtable)
  | 0, _, best => return best
  | count + 1, i, best => do
    let record ← usize (cmap + 4 + i * 8)
    let plat ← rdU16 d record
    let enc ← rdU16 d (record + 2)
    let start ← rdU32 d (record + 4)
    let offset ← usize (cmap + start.toNat)
    let format ← rdU16 d offset
    let score := cmapScore plat.toNat enc.toNat format.toNat
    let better := 0 < score ∧ ((best.map fun b => decide (b.score < score)).getD true) = true
    pickCmapFrom d cmap count (i + 1) (if better then some ⟨offset, format, score⟩ else best)

def pickCmap (d : List UInt8) (cmap : ℕ) : Run (ℕ × UInt16) := do
  let n ← rdU16 d (cmap + 2)
  let best ← pickCmapFrom d cmap n.toNat 0 none
  let best ← okOr .returned best
  return (best.offset, best.format)

def parse (d : List UInt8) : Run Font := do
  let base ← faceBase d
  let version ← rdU32 d base
  refuseIf (¬(version = 0x00010000 ∨ version = 0x74727565)) .returned
  let numTables := (← rdU16 d (base + 4)).toNat
  let table := fun tag => find d base tag numTables 0
  let head ← table "head"
  let maxp ← table "maxp"
  let cmap ← table "cmap"
  let loca ← table "loca"
  let glyf ← table "glyf"
  let hhea ← table "hhea"
  let hmtx ← table "hmtx"
  let upem ← rdU16 d (head.1 + 18)
  let locaLong ← rdI16 d (head.1 + 50)
  let numGlyphs ← rdU16 d (maxp.1 + 4)
  let ascent ← rdI16 d (hhea.1 + 4)
  let descent ← rdI16 d (hhea.1 + 6)
  let lineGap ← rdI16 d (hhea.1 + 8)
  let numHMetrics ← rdU16 d (hhea.1 + 34)
  let sub ← pickCmap d cmap.1
  refuseIf (¬(16 ≤ upem.toNat)) .returned
  return {
    data := d
    upem := upem.toNat
    locaLong := locaLong ≠ 0
    numGlyphs
    glyf := glyf.1
    glyfLen := glyf.2
    loca := loca.1
    cmapSub := sub.1
    cmapFormat := sub.2
    hmtx := hmtx.1
    numHMetrics
    ascentUnits := ascent.toInt
    descentUnits := -descent.toInt
    lineGapUnits := lineGap.toInt
    gids := [] }

def search (below : ℕ → Run Bool) (lo hi : ℕ) : Run ℕ :=
  if lo < hi then do
    let sum ← usize (lo + hi)
    if ← below (sum / 2) then do
      let next ← usize ((lo + hi) / 2 + 1)
      search below ((lo + hi) / 2 + 1) hi
    else search below lo ((lo + hi) / 2)
  else return lo
termination_by hi - lo

section Lookup

variable (font : Font)

def lookupFormat4 (c : ℕ) : Run UInt16 :=
  let d := font.data
  if 0xFFFF < c then return 0
  else do
    let segX2 := (← rdU16 d (font.cmapSub + 6)).toNat
    let ends ← usize (font.cmapSub + 14)
    let starts ← usize (ends + segX2 + 2)
    let deltas ← usize (starts + segX2)
    let ranges ← usize (deltas + segX2)
    let segs := segX2 / 2
    let lo ← search (fun mid => do
      let last ← rdU16 d (ends + mid * 2)
      return decide (last.toNat < c)) 0 segs
    if segs ≤ lo then return 0
    let start := (← rdU16 d (starts + lo * 2)).toNat
    if c < start then return 0
    let delta ← rdU16 d (deltas + lo * 2)
    let rangeOff := (← rdU16 d (ranges + lo * 2)).toNat
    if rangeOff = 0 then return UInt16.ofNat c + delta
    let g ← rdU16 d (ranges + lo * 2 + rangeOff + 2 * (c - start))
    return if g = 0 then 0 else g + delta

def lookupFormat12 (c : ℕ) : Run UInt16 := do
  let d := font.data
  let n := (← rdU32 d (font.cmapSub + 12)).toNat
  let lo ← search (fun mid => do
    let last ← rdU32 d (font.cmapSub + 16 + mid * 12 + 4)
    return decide (last.toNat < c)) 0 n
  if n ≤ lo then return 0
  let record ← usize (font.cmapSub + 16 + lo * 12)
  let start := (← rdU32 d record).toNat
  if c < start then return 0
  let g := (← rdU32 d (record + 8)).toNat + (c - start)
  refuseIf (¬(g < UInt32.size)) .returned
  return if 0xFFFF < g then 0 else UInt16.ofNat g

def lookupGid (c : ℕ) : Run UInt16 :=
  if font.cmapFormat = 4 then lookupFormat4 font c
  else if font.cmapFormat = 12 then lookupFormat12 font c
  else return 0

def locaBounds (gid : UInt16) : Run (ℕ × ℕ) :=
  if font.locaLong then do
    let a ← rdU32 font.data (font.loca + gid.toNat * 4)
    let b ← rdU32 font.data (font.loca + gid.toNat * 4 + 4)
    return (a.toNat, b.toNat)
  else do
    let a ← rdU16 font.data (font.loca + gid.toNat * 2)
    let b ← rdU16 font.data (font.loca + gid.toNat * 2 + 2)
    return (a.toNat * 2, b.toNat * 2)

def glyphRange (gid : UInt16) : Run (ℕ × ℕ) := do
  refuseIf (font.numGlyphs ≤ gid) .returned
  let bounds ← locaBounds font gid
  -- an empty glyph, such as a space
  refuseIf (bounds.2 ≤ bounds.1 ∨ font.glyfLen < bounds.2) .returned
  let first ← usize (font.glyf + bounds.1)
  let last ← usize (font.glyf + bounds.2)
  return (first, last)

end Lookup

section Reads

variable {d : List UInt8}

theorem usize_ok {n : ℕ} (h : n < 2 ^ 64) : usize n = .ok n := if_pos h

theorem rdU8_eq {o : ℕ} (ho : o < 2 ^ 64) : rdU8 d o = okOr .returned d[o]? := by
  rw [rdU8, usize_ok ho, ok_bind]

variable (hd : d.length < 2 ^ 63)

include hd

theorem rdU8_next {o k : ℕ} {b : UInt8} (hk : k < 2 ^ 63) (h : d[o]? = some b) :
    rdU8 d (o + k) = okOr .returned d[o + k]? := by
  have ho := (List.getElem?_eq_some_iff.mp h).1
  exact rdU8_eq (by omega)

theorem rdU16_eq {o : ℕ} (ho : o < 2 ^ 64) :
    rdU16 d o = okOr .returned (FontCmap.rdU16 d o) := by
  rw [rdU16, rdU8_eq ho]
  apply okOr_bind
  intro high hhigh
  rw [rdU8_next hd (by omega) hhigh]
  apply okOr_bind
  intro low hlow
  rfl

theorem rdI16_eq {o : ℕ} (ho : o < 2 ^ 64) :
    rdI16 d o = okOr .returned (FontCmap.rdI16 d o) := by
  rw [rdI16, rdU16_eq hd ho, FontCmap.rdI16]
  cases FontCmap.rdU16 d o <;> rfl

theorem rdU32_eq {o : ℕ} (ho : o < 2 ^ 64) :
    rdU32 d o = okOr .returned (FontCmap.rdU32 d o) := by
  rw [rdU32, rdU8_eq ho]
  apply okOr_bind
  intro b0 hb0
  rw [rdU8_next hd (by omega) hb0]
  apply okOr_bind
  intro b1 hb1
  rw [rdU8_next hd (by omega) hb0]
  apply okOr_bind
  intro b2 hb2
  rw [rdU8_next hd (by omega) hb0]
  apply okOr_bind
  intro b3 hb3
  rfl

theorem faceBase_eq : faceBase d = okOr .returned (FontCmap.faceBase d) := by
  rw [faceBase, rdU32_eq hd (by omega)]
  apply okOr_bind
  intro magic hmagic
  split
  · rw [rdU32_eq hd (by omega)]
    cases FontCmap.rdU32 d 12 <;> rfl
  · rfl

theorem find_eq {base count i : ℕ} (tag : String) (hbase : base < 2 ^ 32)
    (hi : i + count < 2 ^ 32) :
    find d base tag count i = okOr .returned (FontCmap.find d base tag count i) := by
  induction count generalizing i with
  | zero => rfl
  | succ count ih =>
    rw [find, usize_ok (by omega), ok_bind, usize_ok (by omega), ok_bind, FontCmap.find]
    apply okOr_bind
    intro name hname
    split
    · rw [rdU32_eq hd (by omega)]
      apply okOr_bind
      intro start hstart
      rw [rdU32_eq hd (by omega)]
      apply okOr_bind
      intro length hlength
      rfl
    · exact ih (by omega)

theorem pickCmapFrom_eq {cmap count i : ℕ} {best : Option Subtable} (hcmap : cmap < 2 ^ 32)
    (hi : i + count < 2 ^ 32) :
    pickCmapFrom d cmap count i best =
      okOr .returned (FontCmap.pickCmapFrom d cmap count i best) := by
  induction count generalizing i best with
  | zero => rfl
  | succ count ih =>
    rw [pickCmapFrom, usize_ok (by omega), ok_bind, rdU16_eq hd (by omega), FontCmap.pickCmapFrom]
    apply okOr_bind
    intro plat hplat
    rw [rdU16_eq hd (by omega)]
    apply okOr_bind
    intro enc henc
    rw [rdU32_eq hd (by omega)]
    apply okOr_bind
    intro start hstart
    have hlt := start.toNat_lt
    rw [usize_ok (by omega), ok_bind, rdU16_eq hd (by omega)]
    apply okOr_bind
    intro format hformat
    exact ih (by omega)

theorem pickCmap_eq {cmap : ℕ} (hcmap : cmap < 2 ^ 32) :
    pickCmap d cmap = okOr .returned (FontCmap.pickCmap d cmap) := by
  rw [pickCmap, rdU16_eq hd (by omega)]
  apply okOr_bind
  intro n hn
  have hlt := n.toNat_lt
  rw [pickCmapFrom_eq hd hcmap (by omega)]
  apply okOr_bind
  intro best hbest
  apply okOr_bind
  intro picked hpicked
  rfl

theorem parse_eq : parse d = okOr .returned (Font.parse d) := by
  rw [parse, faceBase_eq hd, Font.parse]
  apply okOr_bind
  intro base hbase
  have hlt := FontCmap.faceBase_lt hbase
  rw [rdU32_eq hd (by omega)]
  apply okOr_bind
  intro version hversion
  rw [refuseIf_not]
  apply okOr_bind
  intro _ _
  rw [rdU16_eq hd (by omega)]
  apply okOr_bind
  intro numTables hnumTables
  have htables := numTables.toNat_lt
  have hfind := fun tag => @find_eq d hd base numTables.toNat 0 tag hlt (by omega)
  dsimp only
  rw [hfind]
  apply okOr_bind
  intro head hhead
  rw [hfind]
  apply okOr_bind
  intro maxp hmaxp
  rw [hfind]
  apply okOr_bind
  intro cmap hcmap
  rw [hfind]
  apply okOr_bind
  intro loca hloca
  rw [hfind]
  apply okOr_bind
  intro glyf hglyf
  rw [hfind]
  apply okOr_bind
  intro hhea hhhea
  rw [hfind]
  apply okOr_bind
  intro hmtx hhmtx
  have hhead := (FontCmap.find_lt hhead).1
  have hmaxp := (FontCmap.find_lt hmaxp).1
  have hhhea := (FontCmap.find_lt hhhea).1
  rw [rdU16_eq hd (by omega)]
  apply okOr_bind
  intro upem hupem
  rw [rdI16_eq hd (by omega)]
  apply okOr_bind
  intro locaLong hlocaLong
  rw [rdU16_eq hd (by omega)]
  apply okOr_bind
  intro numGlyphs hnumGlyphs
  rw [rdI16_eq hd (by omega)]
  apply okOr_bind
  intro ascent hascent
  rw [rdI16_eq hd (by omega)]
  apply okOr_bind
  intro descent hdescent
  rw [rdI16_eq hd (by omega)]
  apply okOr_bind
  intro lineGap hlineGap
  rw [rdU16_eq hd (by omega)]
  apply okOr_bind
  intro numHMetrics hnumHMetrics
  rw [pickCmap_eq hd (FontCmap.find_lt hcmap).1]
  apply okOr_bind
  intro sub hsub
  rw [refuseIf_not]
  apply okOr_bind
  intro _ _
  rfl

end Reads

theorem search_eq {below : ℕ → Run Bool} {plain : ℕ → Option Bool} {lo hi : ℕ} (hhi : hi < 2 ^ 63)
    (h : ∀ i < hi, below i = okOr .returned (plain i)) :
    search below lo hi = okOr .returned (BinarySearch.search plain lo hi) := by
  induction hwidth : hi - lo using Nat.strongRecOn generalizing lo hi with
  | ind width ih =>
    subst hwidth
    rw [search, BinarySearch.search]
    by_cases hlt : lo < hi
    · rw [if_pos hlt, if_pos hlt, usize_ok (by omega), ok_bind, h _ (by omega)]
      cases hmid : plain ((lo + hi) / 2) with
      | none => rfl
      | some b =>
        rw [okOr_some, ok_bind]
        cases b with
        | true =>
          rw [if_pos rfl, usize_ok (by omega), ok_bind]
          exact ih _ (by omega) hhi h rfl
        | false =>
          rw [if_neg Bool.false_ne_true]
          exact ih _ (by omega) (by omega) (fun i hi' => h i (by omega)) rfl
    · rw [if_neg hlt, if_neg hlt]
      rfl

section Lookup

variable {font : Font}

theorem lookupFormat4_eq (hd : font.data.length < 2 ^ 63) (hsub : font.cmapSub < 2 ^ 33) (c : ℕ) :
    lookupFormat4 font c = okOr .returned (font.lookupFormat4 c) := by
  rw [lookupFormat4, Font.lookupFormat4]
  dsimp only
  by_cases hplane : 0xFFFF < c
  · rw [if_pos hplane, if_pos hplane]
    rfl
  rw [if_neg hplane, if_neg hplane, rdU16_eq hd (by omega)]
  apply okOr_bind
  intro segX2 hsegX2
  have hlt := segX2.toNat_lt
  have hprobe : ∀ i < segX2.toNat / 2, (do
      let last ← rdU16 font.data (font.cmapSub + 14 + i * 2)
      return decide (last.toNat < c) : Run Bool) = okOr .returned
        ((FontCmap.rdU16 font.data (font.cmapSub + 14 + i * 2)).map fun last =>
          decide (last.toNat < c)) := by
    intro i hi
    rw [rdU16_eq hd (by omega)]
    cases FontCmap.rdU16 font.data (font.cmapSub + 14 + i * 2) <;> rfl
  rw [usize_ok (by omega), ok_bind, usize_ok (by omega), ok_bind, usize_ok (by omega), ok_bind,
    usize_ok (by omega), ok_bind, search_eq (by omega) hprobe]
  apply okOr_bind
  intro lo hlo
  by_cases hend : segX2.toNat / 2 ≤ lo
  · rw [if_pos hend, if_pos hend]
    rfl
  rw [if_neg hend, if_neg hend, rdU16_eq hd (by omega)]
  apply okOr_bind
  intro start hstart
  by_cases hfirst : c < start.toNat
  · rw [if_pos hfirst, if_pos hfirst]
    rfl
  rw [if_neg hfirst, if_neg hfirst, rdU16_eq hd (by omega)]
  apply okOr_bind
  intro delta hdelta
  rw [rdU16_eq hd (by omega)]
  apply okOr_bind
  intro rangeOff hrange
  have hrangelt := rangeOff.toNat_lt
  by_cases hzero : rangeOff.toNat = 0
  · rw [if_pos hzero, if_pos hzero]
    rfl
  rw [if_neg hzero, if_neg hzero, rdU16_eq hd (by omega)]
  apply okOr_bind
  intro g hg
  rfl

theorem lookupFormat12_eq (hd : font.data.length < 2 ^ 63) (hsub : font.cmapSub < 2 ^ 33) (c : ℕ) :
    lookupFormat12 font c = okOr .returned (font.lookupFormat12 c) := by
  rw [lookupFormat12, Font.lookupFormat12]
  dsimp only
  rw [rdU32_eq hd (by omega)]
  apply okOr_bind
  intro n hn
  have hlt := n.toNat_lt
  have hprobe : ∀ i < n.toNat, (do
      let last ← rdU32 font.data (font.cmapSub + 16 + i * 12 + 4)
      return decide (last.toNat < c) : Run Bool) = okOr .returned
        ((FontCmap.rdU32 font.data (font.cmapSub + 16 + i * 12 + 4)).map fun last =>
          decide (last.toNat < c)) := by
    intro i hi
    rw [rdU32_eq hd (by omega)]
    cases FontCmap.rdU32 font.data (font.cmapSub + 16 + i * 12 + 4) <;> rfl
  rw [search_eq (by omega) hprobe]
  apply okOr_bind
  intro lo hlo
  by_cases hend : n.toNat ≤ lo
  · rw [if_pos hend, if_pos hend]
    rfl
  rw [if_neg hend, if_neg hend, usize_ok (by omega), ok_bind, rdU32_eq hd (by omega)]
  apply okOr_bind
  intro start hstart
  by_cases hfirst : c < start.toNat
  · rw [if_pos hfirst, if_pos hfirst]
    rfl
  rw [if_neg hfirst, if_neg hfirst, rdU32_eq hd (by omega)]
  apply okOr_bind
  intro g hg
  rw [refuseIf_not]
  apply okOr_bind
  intro _ _
  rfl

theorem lookupGid_eq (hd : font.data.length < 2 ^ 63) (hsub : font.cmapSub < 2 ^ 33) (c : ℕ) :
    lookupGid font c = okOr .returned (font.lookupGid c) := by
  rw [lookupGid, Font.lookupGid]
  split
  · exact lookupFormat4_eq hd hsub c
  · split
    · exact lookupFormat12_eq hd hsub c
    · rfl

end Lookup

/-- There is no panic, and what is returned has the property. -/
abbrev Safe {α : Type} (q : α → Prop) (x : Run α) : Prop := Meets (· = Halt.returned) q x

abbrev Total {α : Type} (q : α → Prop) (x : Run α) : Prop := Meets (fun _ => False) q x

section Rules

variable {α β : Type} {q : α → Prop} {r : β → Prop}

theorem okOr_safe {x : Option α} (hx : ∀ a, x = some a → q a) : Safe q (okOr .returned x) :=
  Meets.okOr (p := (· = Halt.returned)) rfl hx

theorem refuseIf_safe (bad : Prop) [Decidable bad] :
    Safe (fun _ => ¬bad) (refuseIf bad Halt.returned) := Meets.refuseIf rfl

theorem orKeep_total {x : Run α} {f : α → Run β} {kept : β} (hx : Safe q x) (hkept : r kept)
    (hf : ∀ a, q a → Total r (f a)) : Total r (orKeep kept x f) := by
  cases x with
  | ok a => exact hf a (hx.returns a rfl)
  | error e =>
    cases hx.refuses e rfl
    exact .ok hkept

theorem unwrapOr_total {x : Run α} {default : α} (hx : Safe q x) :
    Total (fun _ => True) (unwrapOr default x) :=
  orKeep_total hx trivial fun _ _ => .ok trivial

theorem usize_total {p : Halt → Prop} {n : ℕ} (h : n < 2 ^ 64) :
    Meets p (· = n) (usize n) := by
  rw [usize_ok h]
  exact .ok rfl

theorem index_total {p : Halt → Prop} {xs : List α} {i : ℕ} (h : i < xs.length) :
    Meets p (fun _ => True) (index xs i) := by
  rw [index, List.getElem?_eq_getElem h]
  exact .ok trivial

theorem setIndex_total {p : Halt → Prop} {xs : List α} {i : ℕ} (h : i < xs.length) (value : α) :
    Meets p (fun ys => ys.length = xs.length) (setIndex xs i value) := by
  rw [setIndex, if_pos h]
  exact .ok List.length_set

end Rules

section Reads

variable {d : List UInt8} (hd : d.length < 2 ^ 63)

theorem rdU8_safe {o : ℕ} (ho : o < 2 ^ 64) : Safe (fun _ => o < d.length) (rdU8 d o) := by
  rw [rdU8_eq ho]
  apply okOr_safe
  intro b hb
  exact (List.getElem?_eq_some_iff.mp hb).1

include hd

theorem rdU16_safe {o : ℕ} (ho : o < 2 ^ 64) : Safe (fun _ => o + 1 < d.length) (rdU16 d o) := by
  rw [rdU16_eq hd ho]
  apply okOr_safe
  intro value hvalue
  obtain ⟨high, -, hvalue⟩ := Option.bind_eq_some_iff.mp hvalue
  obtain ⟨low, hlow, -⟩ := Option.bind_eq_some_iff.mp hvalue
  exact (List.getElem?_eq_some_iff.mp hlow).1

theorem rdI16_safe {o : ℕ} (ho : o < 2 ^ 64) : Safe (fun _ => o + 1 < d.length) (rdI16 d o) :=
  (rdU16_safe hd ho).bind fun _ hlt => .ok hlt

theorem rdU32_safe {o : ℕ} (ho : o < 2 ^ 64) : Safe (fun _ => True) (rdU32 d o) := by
  rw [rdU32_eq hd ho]
  exact okOr_safe fun _ _ => trivial

theorem locaBounds_safe {font : Font} (hfont : FontCmap.Parsed d font) (gid : UInt16) :
    Safe (fun _ => True) (locaBounds font gid) := by
  have hloca := hfont.loca_lt
  have hgid := gid.toNat_lt
  rw [locaBounds, hfont.data]
  split
  · refine (rdU32_safe hd (by omega)).bind fun a _ => ?_
    exact (rdU32_safe hd (by omega)).bind fun b _ => .ok trivial
  · refine (rdU16_safe hd (by omega)).bind fun a _ => ?_
    exact (rdU16_safe hd (by omega)).bind fun b _ => .ok trivial

theorem glyphRange_safe {font : Font} (hfont : FontCmap.Parsed d font) (gid : UInt16) :
    Safe (fun range => range.1 < 2 ^ 33) (glyphRange font gid) := by
  have hglyf := hfont.glyf_lt
  have hlen := hfont.glyfLen_lt
  rw [glyphRange]
  refine (refuseIf_safe _).bind fun _ _ => ?_
  refine (locaBounds_safe hd hfont gid).bind fun bounds _ => ?_
  refine (refuseIf_safe _).bind fun _ hinside => ?_
  refine (usize_total (by omega)).bind fun first hfirst => ?_
  refine (usize_total (by omega)).bind fun last hlast => .ok ?_
  omega

end Reads

end AtomVibe.CheckedFont
