import Mathlib.Algebra.Group.Int.Defs
import Mathlib.Algebra.Group.Nat.Defs
import Mathlib.Data.Option.Basic
import Mathlib.Data.Rat.Defs
import AtomVibe.Foundations.Searches
import AtomVibe.Foundations.Transition

namespace AtomVibe.FontCmap

open BinarySearch

/-! Reads that stay inside the file. Numbers have their most significant byte first. -/

def rdU16 (d : List UInt8) (o : ℕ) : Option UInt16 := do
  let high ← d[o]?
  let low ← d[o + 1]?
  return UInt16.ofNat (high.toNat * 2 ^ 8 + low.toNat)

def rdI16 (d : List UInt8) (o : ℕ) : Option Int16 := (rdU16 d o).map UInt16.toInt16

def rdU32 (d : List UInt8) (o : ℕ) : Option UInt32 := do
  let b0 ← d[o]?
  let b1 ← d[o + 1]?
  let b2 ← d[o + 2]?
  let b3 ← d[o + 3]?
  return UInt32.ofNat (b0.toNat * 2 ^ 24 + b1.toNat * 2 ^ 16 + b2.toNat * 2 ^ 8 + b3.toNat)

def getRange (d : List UInt8) (start stop : ℕ) : Option (List UInt8) :=
  if start ≤ stop ∧ stop ≤ d.length then some ((d.drop start).take (stop - start)) else none

def tagBytes (tag : String) : List UInt8 := tag.toList.map fun c => UInt8.ofNat c.toNat

/-- A parsed font. The cache of rasters is left out: no lookup reads it. -/
structure Font where
  data : List UInt8
  upem : ℚ
  locaLong : Bool
  numGlyphs : UInt16
  glyf : ℕ
  glyfLen : ℕ
  loca : ℕ
  cmapSub : ℕ
  cmapFormat : UInt16
  hmtx : ℕ
  numHMetrics : UInt16
  ascentUnits : ℚ
  descentUnits : ℚ
  lineGapUnits : ℚ
  gids : List (Char × UInt16)

def find (d : List UInt8) (base : ℕ) (tag : String) : ℕ → ℕ → Option (ℕ × ℕ)
  | 0, _ => none
  | count + 1, i => do
    let record := base + 12 + i * 16
    let name ← getRange d record (record + 4)
    if name = tagBytes tag then
      return ((← rdU32 d (record + 8)).toNat, (← rdU32 d (record + 12)).toNat)
    else find d base tag count (i + 1)

def cmapScore (plat enc format : ℕ) : ℕ :=
  if (plat = 3 ∧ enc = 10 ∧ format = 12) ∨ (plat = 0 ∧ 4 ≤ enc ∧ enc ≤ 6 ∧ format = 12) then 3
  else if (plat = 3 ∧ enc = 1 ∧ format = 4) ∨ (plat = 0 ∧ enc ≤ 3 ∧ format = 4) then 2
  else if format = 4 then 1
  else if format = 12 then 1
  else 0

structure Subtable where
  offset : ℕ
  format : UInt16
  score : ℕ

def pickCmapFrom (d : List UInt8) (cmap : ℕ) : ℕ → ℕ → Option Subtable → Option (Option Subtable)
  | 0, _, best => some best
  | count + 1, i, best => do
    let record := cmap + 4 + i * 8
    let plat ← rdU16 d record
    let enc ← rdU16 d (record + 2)
    let offset := cmap + (← rdU32 d (record + 4)).toNat
    let format ← rdU16 d offset
    let score := cmapScore plat.toNat enc.toNat format.toNat
    let better := 0 < score ∧ ((best.map fun b => decide (b.score < score)).getD true) = true
    pickCmapFrom d cmap count (i + 1) (if better then some ⟨offset, format, score⟩ else best)

def pickCmap (d : List UInt8) (cmap : ℕ) : Option (ℕ × UInt16) := do
  let n ← rdU16 d (cmap + 2)
  let best ← (← pickCmapFrom d cmap n.toNat 0 none)
  return (best.offset, best.format)

def faceBase (d : List UInt8) : Option ℕ := do
  let magic ← rdU32 d 0
  if magic = 0x74746366 then (rdU32 d 12).map UInt32.toNat else some 0

namespace Font

def parse (d : List UInt8) : Option Font := do
  let base ← faceBase d
  let version ← rdU32 d base
  guard (version = 0x00010000 ∨ version = 0x74727565)
  let numTables := (← rdU16 d (base + 4)).toNat
  let table := fun tag => find d base tag numTables 0
  let head ← table "head"
  let maxp ← table "maxp"
  let cmap ← table "cmap"
  let loca ← table "loca"
  let glyf ← table "glyf"
  let hhea ← table "hhea"
  let hmtx ← table "hmtx"
  let upem ← rdU16 d (head.1 + 18)
  let locaLong ← rdI16 d (head.1 + 50)
  let numGlyphs ← rdU16 d (maxp.1 + 4)
  let ascent ← rdI16 d (hhea.1 + 4)
  let descent ← rdI16 d (hhea.1 + 6)
  let lineGap ← rdI16 d (hhea.1 + 8)
  let numHMetrics ← rdU16 d (hhea.1 + 34)
  let sub ← pickCmap d cmap.1
  guard (16 ≤ upem.toNat)
  return {
    data := d
    upem := upem.toNat
    locaLong := locaLong ≠ 0
    numGlyphs
    glyf := glyf.1
    glyfLen := glyf.2
    loca := loca.1
    cmapSub := sub.1
    cmapFormat := sub.2
    hmtx := hmtx.1
    numHMetrics
    ascentUnits := ascent.toInt
    descentUnits := -descent.toInt
    lineGapUnits := lineGap.toInt
    gids := [] }

section Lookup

variable (font : Font)

def lookupFormat4 (c : ℕ) : Option UInt16 :=
  let d := font.data
  if 0xFFFF < c then some 0
  else do
    let segX2 := (← rdU16 d (font.cmapSub + 6)).toNat
    let ends := font.cmapSub + 14
    let starts := ends + segX2 + 2
    let deltas := starts + segX2
    let ranges := deltas + segX2
    let segs := segX2 / 2
    let lo ← search (fun mid => (rdU16 d (ends + mid * 2)).map fun last => last.toNat < c) 0 segs
    if segs ≤ lo then return 0
    let start := (← rdU16 d (starts + lo * 2)).toNat
    if c < start then return 0
    let delta ← rdU16 d (deltas + lo * 2)
    let rangeOff := (← rdU16 d (ranges + lo * 2)).toNat
    if rangeOff = 0 then return UInt16.ofNat c + delta
    let g ← rdU16 d (ranges + lo * 2 + rangeOff + 2 * (c - start))
    return if g = 0 then 0 else g + delta

def lookupFormat12 (c : ℕ) : Option UInt16 := do
  let d := font.data
  let n := (← rdU32 d (font.cmapSub + 12)).toNat
  let lo ← search (fun mid =>
    (rdU32 d (font.cmapSub + 16 + mid * 12 + 4)).map fun last => last.toNat < c) 0 n
  if n ≤ lo then return 0
  let record := font.cmapSub + 16 + lo * 12
  let start := (← rdU32 d record).toNat
  if c < start then return 0
  let g := (← rdU32 d (record + 8)).toNat + (c - start)
  -- a sum that is no `u32` is no glyph
  guard (g < UInt32.size)
  return if 0xFFFF < g then 0 else UInt16.ofNat g

def lookupGid (c : ℕ) : Option UInt16 :=
  if font.cmapFormat = 4 then font.lookupFormat4 c
  else if font.cmapFormat = 12 then font.lookupFormat12 c
  else some 0

def glyphId (ch : Char) : UInt16 × Font :=
  match font.gids.lookup ch with
  | some g => (g, font)
  | none =>
    let g := (font.lookupGid ch.toNat).getD 0
    (g, { font with gids := (ch, g) :: font.gids })

def advanceUnits (gid : UInt16) : ℚ :=
  let idx := min gid.toNat (font.numHMetrics.toNat - 1)
  ((rdU16 font.data (font.hmtx + idx * 4)).getD 0).toNat

def advance (ch : Char) (size : ℚ) : ℚ × Font :=
  let gid := font.glyphId ch
  (gid.2.advanceUnits gid.1 / gid.2.upem * size, gid.2)

end Lookup

end Font

structure Segment where
  first : ℕ
  last : ℕ
  /-- The glyph of a character of the segment, if the file has it. -/
  glyph : ℕ → Option UInt16

namespace Segment

def Has (segment : Segment) (c : ℕ) : Prop := segment.first ≤ c ∧ c ≤ segment.last

instance (segment : Segment) (c : ℕ) : Decidable (segment.Has c) :=
  inferInstanceAs (Decidable (_ ∧ _))

structure Ordered (segments : List Segment) : Prop where
  sorted : segments.Pairwise fun a b => a.last ≤ b.last
  disjoint : segments.Pairwise fun a b => a.last < b.first

def scan (segments : List Segment) (c : ℕ) : Option UInt16 :=
  ((segments.find? fun segment => segment.Has c).map fun segment => segment.glyph c).getD (some 0)

theorem scan_of_not_has {segments : List Segment} {c : ℕ} (h : ∀ segment ∈ segments, ¬segment.Has c) :
    scan segments c = some 0 := by
  have hnone : segments.find? (fun segment => segment.Has c) = none := by
    rw [List.find?_eq_none]
    intro segment hsegment
    rw [decide_eq_true_iff]
    exact h segment hsegment
  rw [scan, hnone, Option.map_none, Option.getD_none]

theorem scan_boundary {before after : List Segment} {segment : Segment} {c : ℕ}
    (hordered : Ordered (before ++ segment :: after)) (hbefore : ∀ other ∈ before, other.last < c)
    (hlast : c ≤ segment.last) :
    scan (before ++ segment :: after) c =
      if c < segment.first then some 0 else segment.glyph c := by
  have hskip : ∀ other ∈ before, ¬other.Has c := fun other hother hhas =>
    absurd hhas.2 (Nat.not_le.mpr (hbefore other hother))
  by_cases hfirst : c < segment.first
  · rw [if_pos hfirst]
    apply scan_of_not_has
    intro other hother hhas
    rw [List.mem_append, List.mem_cons] at hother
    obtain hother | rfl | hother := hother
    · exact hskip other hother hhas
    · exact absurd hhas.1 (Nat.not_le.mpr hfirst)
    · have hdisjoint := (List.pairwise_append.mp hordered.disjoint).2.1
      have hbehind := (List.pairwise_cons.mp hdisjoint).1 other hother
      have hhas1 := hhas.1
      omega
  · have hhas : segment.Has c := ⟨Nat.not_lt.mp hfirst, hlast⟩
    have hnone : before.find? (fun segment => segment.Has c) = none := by
      rw [List.find?_eq_none]
      intro other hother
      rw [decide_eq_true_iff]
      exact hskip other hother
    rw [if_neg hfirst, scan, List.find?_append, hnone, Option.none_or,
      List.find?_cons_of_pos (by rw [decide_eq_true_iff]; exact hhas), Option.map_some,
      Option.getD_some]

end Segment

section Segments

variable (d : List UInt8) (sub : ℕ)

def glyph4 (delta rangeOff place first c : ℕ) : Option UInt16 :=
  if rangeOff = 0 then some (UInt16.ofNat ((c + delta) % 65536))
  else (rdU16 d (place + rangeOff + 2 * (c - first))).map fun g =>
    if g = 0 then 0 else UInt16.ofNat ((g.toNat + delta) % 65536)

def segment4 (segX2 i : ℕ) : Option Segment := do
  let ends := sub + 14
  let starts := ends + segX2 + 2
  let deltas := starts + segX2
  let ranges := deltas + segX2
  let last ← rdU16 d (ends + i * 2)
  let first ← rdU16 d (starts + i * 2)
  let delta ← rdU16 d (deltas + i * 2)
  let rangeOff ← rdU16 d (ranges + i * 2)
  return ⟨first.toNat, last.toNat,
    glyph4 d delta.toNat rangeOff.toNat (ranges + i * 2) first.toNat⟩

def segments4 : Option (List Segment) := do
  let segX2 ← rdU16 d (sub + 6)
  (List.range (segX2.toNat / 2)).mapM (segment4 d sub segX2.toNat)

def glyph12 (start first c : ℕ) : Option UInt16 :=
  if UInt32.size ≤ start + (c - first) then none
  else if 0xFFFF < start + (c - first) then some 0
  else some (UInt16.ofNat (start + (c - first)))

def segment12 (i : ℕ) : Option Segment := do
  let first ← rdU32 d (sub + 16 + i * 12)
  let last ← rdU32 d (sub + 16 + i * 12 + 4)
  let start ← rdU32 d (sub + 16 + i * 12 + 8)
  return ⟨first.toNat, last.toNat, glyph12 start.toNat first.toNat⟩

def segments12 : Option (List Segment) := do
  let n ← rdU32 d (sub + 12)
  (List.range n.toNat).mapM (segment12 d sub)

end Segments

def Font.segments (font : Font) : Option (List Segment) :=
  if font.cmapFormat = 4 then segments4 font.data font.cmapSub
  else segments12 font.data font.cmapSub

section Search

variable {d : List UInt8} {sub c : ℕ} {segments : List Segment}

theorem map_of_mapM {α β : Type} {f : α → Option β} {xs : List α} {ys : List β}
    (h : xs.mapM f = some ys) : xs.map f = ys.map some := by
  induction xs generalizing ys with
  | nil =>
    cases h
    rfl
  | cons x xs ih =>
    rw [List.mapM_cons] at h
    obtain ⟨y, hy, h⟩ := Option.bind_eq_some_iff.mp h
    obtain ⟨rest, hrest, h⟩ := Option.bind_eq_some_iff.mp h
    cases h
    rw [List.map_cons, List.map_cons, hy, ih hrest]

theorem read_of_mapM {read : ℕ → Option Segment} {n : ℕ}
    (h : (List.range n).mapM read = some segments) : segments.length = n ∧
      ∀ i segment, segments[i]? = some segment → read i = some segment := by
  have hmap := map_of_mapM h
  have hlength : segments.length = n := by
    have hlengths := congrArg List.length hmap
    rw [List.length_map, List.length_map, List.length_range] at hlengths
    exact hlengths.symm
  refine ⟨hlength, ?_⟩
  intro i segment hsegment
  obtain ⟨hi, -⟩ := List.getElem?_eq_some_iff.mp hsegment
  have hget := congrArg (fun xs => xs[i]?) hmap
  simp only [List.getElem?_map, hsegment, Option.map_some] at hget
  rw [List.getElem?_range (by omega), Option.map_some] at hget
  exact Option.some.inj hget

theorem search_scan {below : ℕ → Option Bool} (hordered : Segment.Ordered segments)
    (hprobe : ∀ i segment, segments[i]? = some segment → below i = some (decide (segment.last < c))) :
    ∃ k, search below 0 segments.length = some k ∧
      ((segments.length ≤ k ∧ Segment.scan segments c = some 0) ∨
        ∃ segment, k < segments.length ∧ segments[k]? = some segment ∧
          Segment.scan segments c = if c < segment.first then some 0 else segment.glyph c) := by
  let lastOf : ℕ → ℕ := fun i => (segments[i]?.map (·.last)).getD 0
  have hlast : ∀ i segment, segments[i]? = some segment → lastOf i = segment.last := by
    intro i segment hsegment
    simp only [lastOf, hsegment, Option.map_some, Option.getD_some]
  obtain ⟨k, hk, -, hle, hbefore, hafter⟩ :=
    @search_spec below (fun i => decide (lastOf i < c)) 0 segments.length (Nat.zero_le _)
      (by
        intro i _ hi
        rw [hprobe i _ (List.getElem?_eq_getElem hi), hlast i _ (List.getElem?_eq_getElem hi)])
      (by
        intro i j _ hij hj hlt
        rw [decide_eq_true_iff] at hlt ⊢
        have hi : i < segments.length := by omega
        rw [hlast j _ (List.getElem?_eq_getElem hj)] at hlt
        rw [hlast i _ (List.getElem?_eq_getElem hi)]
        rcases Nat.eq_or_lt_of_le hij with rfl | hij
        · exact hlt
        · have hsorted := List.pairwise_iff_getElem.mp hordered.sorted i j hi hj hij
          omega)
  have hskipped : ∀ other ∈ segments.take k, other.last < c := by
    intro other hother
    obtain ⟨i, hi, rfl⟩ := List.mem_iff_getElem.mp hother
    rw [List.length_take] at hi
    have hlt := hbefore i (Nat.zero_le i) (by omega)
    rw [decide_eq_true_iff, hlast i _ (List.getElem?_eq_getElem (by omega))] at hlt
    rw [List.getElem_take]
    exact hlt
  refine ⟨k, hk, ?_⟩
  rcases Nat.eq_or_lt_of_le hle with rfl | hlt
  · refine .inl ⟨Nat.le_refl _, ?_⟩
    apply Segment.scan_of_not_has
    intro segment hsegment hhas
    rw [List.take_length] at hskipped
    exact absurd hhas.2 (Nat.not_le.mpr (hskipped segment hsegment))
  · refine .inr ⟨segments[k], hlt, List.getElem?_eq_getElem hlt, ?_⟩
    have hreached := hafter k (Nat.le_refl k) hlt
    rw [decide_eq_false_iff_not, hlast k _ (List.getElem?_eq_getElem hlt), Nat.not_lt] at hreached
    have hsplit : segments.take k ++ segments[k] :: segments.drop (k + 1) = segments := by
      rw [List.getElem_cons_drop, List.take_append_drop]
    have hscan := Segment.scan_boundary (hsplit.symm ▸ hordered) hskipped hreached
    rw [hsplit] at hscan
    exact hscan

theorem ofNat_add_eq (c : ℕ) (delta : UInt16) :
    UInt16.ofNat c + delta = UInt16.ofNat ((c + delta.toNat) % 65536) := by
  apply UInt16.toNat_inj.mp
  simp [UInt16.toNat_add]

theorem add_eq_ofNat (g delta : UInt16) :
    g + delta = UInt16.ofNat ((g.toNat + delta.toNat) % 65536) := by
  apply UInt16.toNat_inj.mp
  simp [UInt16.toNat_add]

theorem segment4_reads {segX2 i : ℕ} {segment : Segment} (h : segment4 d sub segX2 i = some segment) :
    ∃ last first delta rangeOff, rdU16 d (sub + 14 + i * 2) = some last ∧
      rdU16 d (sub + 14 + segX2 + 2 + i * 2) = some first ∧
      rdU16 d (sub + 14 + segX2 + 2 + segX2 + i * 2) = some delta ∧
      rdU16 d (sub + 14 + segX2 + 2 + segX2 + segX2 + i * 2) = some rangeOff ∧
      segment = ⟨first.toNat, last.toNat, glyph4 d delta.toNat rangeOff.toNat
        (sub + 14 + segX2 + 2 + segX2 + segX2 + i * 2) first.toNat⟩ := by
  obtain ⟨last, hlast, h⟩ := Option.bind_eq_some_iff.mp h
  obtain ⟨first, hfirst, h⟩ := Option.bind_eq_some_iff.mp h
  obtain ⟨delta, hdelta, h⟩ := Option.bind_eq_some_iff.mp h
  obtain ⟨rangeOff, hrange, h⟩ := Option.bind_eq_some_iff.mp h
  cases h
  exact ⟨last, first, delta, rangeOff, hlast, hfirst, hdelta, hrange, rfl⟩

theorem lookupFormat4_eq {font : Font} (h : segments4 font.data font.cmapSub = some segments)
    (hordered : Segment.Ordered segments) (c : ℕ) :
    font.lookupFormat4 c = Segment.scan segments c := by
  obtain ⟨segX2, hsegX2, h⟩ := Option.bind_eq_some_iff.mp h
  obtain ⟨hlength, hread⟩ := read_of_mapM h
  rw [Font.lookupFormat4]
  by_cases hplane : 0xFFFF < c
  · rw [if_pos hplane]
    symm
    apply Segment.scan_of_not_has
    intro segment hsegment hhas
    obtain ⟨i, hi⟩ := List.mem_iff_getElem?.mp hsegment
    obtain ⟨last, first, delta, rangeOff, -, -, -, -, rfl⟩ := segment4_reads (hread i segment hi)
    have hlast := last.toNat_lt
    have hend : c ≤ last.toNat := hhas.2
    omega
  · obtain ⟨k, hk, hcases⟩ := @search_scan c segments
      (fun mid => (rdU16 font.data (font.cmapSub + 14 + mid * 2)).map fun last => decide (last.toNat < c))
      hordered (by
        intro i segment hsegment
        obtain ⟨last, first, delta, rangeOff, hlast, -, -, -, rfl⟩ :=
          segment4_reads (hread i segment hsegment)
        rw [hlast, Option.map_some])
    rw [hlength] at hk hcases
    rw [if_neg hplane]
    simp only [hsegX2, hk, Option.bind_eq_bind, Option.bind_some]
    obtain ⟨hend, hscan⟩ | ⟨segment, hlt, hsegment, hscan⟩ := hcases
    · rw [if_pos hend, hscan]
      rfl
    · obtain ⟨last, first, delta, rangeOff, -, hfirst, hdelta, hrange, rfl⟩ :=
        segment4_reads (hread k segment hsegment)
      rw [if_neg (Nat.not_le.mpr hlt), hscan, hfirst, Option.bind_some, hdelta, hrange]
      simp only [Option.bind_some]
      split
      · rfl
      · rw [glyph4]
        split
        · rw [ofNat_add_eq]
          rfl
        · cases rdU16 font.data _ with
          | none => rfl
          | some g =>
            rw [Option.bind_some, Option.map_some]
            split
            · rfl
            · rw [add_eq_ofNat]
              rfl

theorem segment12_reads {i : ℕ} {segment : Segment} (h : segment12 d sub i = some segment) :
    ∃ first last start, rdU32 d (sub + 16 + i * 12) = some first ∧
      rdU32 d (sub + 16 + i * 12 + 4) = some last ∧
      rdU32 d (sub + 16 + i * 12 + 8) = some start ∧
      segment = ⟨first.toNat, last.toNat, glyph12 start.toNat first.toNat⟩ := by
  obtain ⟨first, hfirst, h⟩ := Option.bind_eq_some_iff.mp h
  obtain ⟨last, hlast, h⟩ := Option.bind_eq_some_iff.mp h
  obtain ⟨start, hstart, h⟩ := Option.bind_eq_some_iff.mp h
  cases h
  exact ⟨first, last, start, hfirst, hlast, hstart, rfl⟩

theorem lookupFormat12_eq {font : Font} (h : segments12 font.data font.cmapSub = some segments)
    (hordered : Segment.Ordered segments) (c : ℕ) :
    font.lookupFormat12 c = Segment.scan segments c := by
  obtain ⟨n, hn, h⟩ := Option.bind_eq_some_iff.mp h
  obtain ⟨hlength, hread⟩ := read_of_mapM h
  obtain ⟨k, hk, hcases⟩ := @search_scan c segments
    (fun mid => (rdU32 font.data (font.cmapSub + 16 + mid * 12 + 4)).map fun last =>
      decide (last.toNat < c))
    hordered (by
      intro i segment hsegment
      obtain ⟨first, last, start, -, hlast, -, rfl⟩ := segment12_reads (hread i segment hsegment)
      rw [hlast, Option.map_some])
  rw [hlength] at hk hcases
  rw [Font.lookupFormat12]
  simp only [hn, hk, Option.bind_eq_bind, Option.bind_some]
  obtain ⟨hend, hscan⟩ | ⟨segment, hlt, hsegment, hscan⟩ := hcases
  · rw [if_pos hend, hscan]
    rfl
  · obtain ⟨first, last, start, hfirst, -, hstart, rfl⟩ := segment12_reads (hread k segment hsegment)
    rw [if_neg (Nat.not_le.mpr hlt), hscan, hfirst, Option.bind_some]
    split
    · rfl
    · rw [hstart, Option.bind_some]
      change _ = glyph12 start.toNat first.toNat c
      rw [glyph12]
      by_cases hfits : start.toNat + (c - first.toNat) < UInt32.size
      · rw [if_neg (Nat.not_le.mpr hfits), guard, if_pos hfits]
        simp only [Option.pure_def, Option.bind_some]
        split <;> rfl
      · rw [if_pos (Nat.not_lt.mp hfits), guard, if_neg hfits]
        rfl

end Search

section Calls

variable {font : Font} {segments : List Segment}

theorem faceBase_lt {d : List UInt8} {base : ℕ} (h : faceBase d = some base) : base < 2 ^ 32 := by
  obtain ⟨magic, -, h⟩ := Option.bind_eq_some_iff.mp h
  split at h
  · obtain ⟨start, -, rfl⟩ := Option.map_eq_some_iff.mp h
    exact start.toNat_lt
  · cases h
    omega

theorem find_lt {d : List UInt8} {base count i : ℕ} {tag : String} {table : ℕ × ℕ}
    (h : find d base tag count i = some table) : table.1 < 2 ^ 32 ∧ table.2 < 2 ^ 32 := by
  induction count generalizing i with
  | zero => cases h
  | succ count ih =>
    obtain ⟨name, -, h⟩ := Option.bind_eq_some_iff.mp h
    split at h
    · obtain ⟨start, -, h⟩ := Option.bind_eq_some_iff.mp h
      obtain ⟨length, -, h⟩ := Option.bind_eq_some_iff.mp h
      cases h
      exact ⟨start.toNat_lt, length.toNat_lt⟩
    · exact ih h

theorem pickCmapFrom_spec {d : List UInt8} {cmap count i : ℕ} {best result : Option Subtable}
    (hbest : ∀ sub ∈ best, (sub.format = 4 ∨ sub.format = 12) ∧ sub.offset < cmap + 2 ^ 32)
    (h : pickCmapFrom d cmap count i best = some result) :
    ∀ sub ∈ result, (sub.format = 4 ∨ sub.format = 12) ∧ sub.offset < cmap + 2 ^ 32 := by
  induction count generalizing i best with
  | zero =>
    cases h
    exact hbest
  | succ count ih =>
    obtain ⟨plat, -, h⟩ := Option.bind_eq_some_iff.mp h
    obtain ⟨enc, -, h⟩ := Option.bind_eq_some_iff.mp h
    obtain ⟨offset, -, h⟩ := Option.bind_eq_some_iff.mp h
    obtain ⟨format, -, h⟩ := Option.bind_eq_some_iff.mp h
    apply ih _ h
    intro sub hsub
    split at hsub
    · rename_i hbetter
      cases hsub
      have hscore := hbetter.1
      have hformat : format.toNat = 4 ∨ format.toNat = 12 := by
        rw [cmapScore] at hscore
        split_ifs at hscore <;> omega
      constructor
      · rw [← UInt16.toNat_inj, ← UInt16.toNat_inj]
        exact hformat
      · exact Nat.add_lt_add_left offset.toNat_lt cmap
    · exact hbest sub hsub

structure Parsed (d : List UInt8) (font : Font) : Prop where
  data : font.data = d
  gids : font.gids = []
  format : font.cmapFormat = 4 ∨ font.cmapFormat = 12
  glyf_lt : font.glyf < 2 ^ 32
  glyfLen_lt : font.glyfLen < 2 ^ 32
  loca_lt : font.loca < 2 ^ 32
  cmapSub_lt : font.cmapSub < 2 ^ 33

theorem parse_spec {d : List UInt8} (h : Font.parse d = some font) : Parsed d font := by
  obtain ⟨base, -, h⟩ := Option.bind_eq_some_iff.mp h
  obtain ⟨version, -, h⟩ := Option.bind_eq_some_iff.mp h
  obtain ⟨_, -, h⟩ := Option.bind_eq_some_iff.mp h
  obtain ⟨numTables, -, h⟩ := Option.bind_eq_some_iff.mp h
  obtain ⟨head, -, h⟩ := Option.bind_eq_some_iff.mp h
  obtain ⟨maxp, -, h⟩ := Option.bind_eq_some_iff.mp h
  obtain ⟨cmap, hcmap, h⟩ := Option.bind_eq_some_iff.mp h
  obtain ⟨loca, hloca, h⟩ := Option.bind_eq_some_iff.mp h
  obtain ⟨glyf, hglyf, h⟩ := Option.bind_eq_some_iff.mp h
  obtain ⟨hhea, -, h⟩ := Option.bind_eq_some_iff.mp h
  obtain ⟨hmtx, -, h⟩ := Option.bind_eq_some_iff.mp h
  obtain ⟨upem, -, h⟩ := Option.bind_eq_some_iff.mp h
  obtain ⟨locaLong, -, h⟩ := Option.bind_eq_some_iff.mp h
  obtain ⟨numGlyphs, -, h⟩ := Option.bind_eq_some_iff.mp h
  obtain ⟨ascent, -, h⟩ := Option.bind_eq_some_iff.mp h
  obtain ⟨descent, -, h⟩ := Option.bind_eq_some_iff.mp h
  obtain ⟨lineGap, -, h⟩ := Option.bind_eq_some_iff.mp h
  obtain ⟨numHMetrics, -, h⟩ := Option.bind_eq_some_iff.mp h
  obtain ⟨sub, hsub, h⟩ := Option.bind_eq_some_iff.mp h
  obtain ⟨_, -, h⟩ := Option.bind_eq_some_iff.mp h
  cases h
  obtain ⟨n, -, hsub⟩ := Option.bind_eq_some_iff.mp hsub
  obtain ⟨best, hbest, hsub⟩ := Option.bind_eq_some_iff.mp hsub
  obtain ⟨picked, hpicked, hsub⟩ := Option.bind_eq_some_iff.mp hsub
  cases hsub
  obtain ⟨hformat, hoffset⟩ := pickCmapFrom_spec (fun sub hsub => by cases hsub) hbest picked hpicked
  have hlt := (find_lt hcmap).1
  exact ⟨rfl, rfl, hformat, (find_lt hglyf).1, (find_lt hglyf).2, (find_lt hloca).1,
    by change picked.offset < _; omega⟩

theorem lookupGid_eq (hformat : font.cmapFormat = 4 ∨ font.cmapFormat = 12)
    (h : font.segments = some segments) (hordered : Segment.Ordered segments) (c : ℕ) :
    font.lookupGid c = Segment.scan segments c := by
  rw [Font.segments] at h
  rw [Font.lookupGid]
  by_cases hbasic : font.cmapFormat = 4
  · rw [if_pos hbasic] at h ⊢
    exact lookupFormat4_eq h hordered c
  · rw [if_neg hbasic] at h ⊢
    rw [if_pos (hformat.resolve_left hbasic)]
    exact lookupFormat12_eq h hordered c

inductive GlyphCall
  | glyphId (ch : Char)
  | advance (ch : Char) (size : ℚ)
  /-- The raster is drawn of the glyph alone. -/
  | raster (ch : Char) (size : ℚ)

def GlyphCall.ch : GlyphCall → Char
  | glyphId ch => ch
  | advance ch _ => ch
  | raster ch _ => ch

def Font.call (font : Font) : GlyphCall → UInt16 × Font
  | .glyphId ch => font.glyphId ch
  | .advance ch size => ((font.glyphId ch).1, (font.advance ch size).2)
  | .raster ch _ => font.glyphId ch

def Cached (font : Font) (data : List UInt8) (sub : ℕ) (format : UInt16) : Prop :=
  font.data = data ∧ font.cmapSub = sub ∧ font.cmapFormat = format ∧
    ∀ ch g, font.gids.lookup ch = some g → g = (font.lookupGid ch.toNat).getD 0

theorem glyphId_spec {data : List UInt8} {sub : ℕ} {format : UInt16}
    (h : Cached font data sub format) (ch : Char) :
    (font.glyphId ch).1 = (font.lookupGid ch.toNat).getD 0 ∧
      Cached (font.glyphId ch).2 data sub format := by
  rw [Font.glyphId]
  cases hcached : font.gids.lookup ch with
  | some g => exact ⟨h.2.2.2 ch g hcached, h⟩
  | none =>
    refine ⟨rfl, h.1, h.2.1, h.2.2.1, ?_⟩
    intro other g hother
    rw [List.lookup_cons] at hother
    split at hother
    · rename_i heq
      cases hother
      rw [beq_iff_eq.mp heq]
      rfl
    · exact h.2.2.2 other g hother

theorem call_spec {data : List UInt8} {sub : ℕ} {format : UInt16}
    (h : Cached font data sub format) (call : GlyphCall) :
    (font.call call).1 = (font.lookupGid call.ch.toNat).getD 0 ∧
      Cached (font.call call).2 data sub format := by
  cases call with
  | glyphId ch => exact glyphId_spec h ch
  | advance ch size => exact glyphId_spec h ch
  | raster ch size => exact glyphId_spec h ch

end Calls

/-- The lookup of a font whose map is in order is the scan of its segments, at every call. -/
theorem glyph_lookup {data : List UInt8} {font : Font} {segments : List Segment}
    (hparse : Font.parse data = some font) (hsegments : font.segments = some segments)
    (hordered : Segment.Ordered segments) :
    (∀ ch : Char, font.lookupGid ch.toNat = Segment.scan segments ch.toNat) ∧
      ∀ calls : List GlyphCall, ∀ visit ∈ Transition.trace Font.call font calls,
        visit.output = (Segment.scan segments visit.input.ch.toNat).getD 0 := by
  have hparsed := parse_spec hparse
  have hlookup := lookupGid_eq hparsed.format hsegments hordered
  refine ⟨fun ch => hlookup ch.toNat, ?_⟩
  intro calls visit hvisit
  let Same : Font → Prop := fun other => Cached other font.data font.cmapSub font.cmapFormat
  have hstart : Same font := ⟨rfl, rfl, rfl, by intro ch g hg; rw [hparsed.gids] at hg; cases hg⟩
  obtain ⟨heq, hbefore, -⟩ := Transition.visits Same hstart (fun _ call h => (call_spec h call).2)
    calls visit hvisit
  have hsame : visit.before.lookupGid = font.lookupGid := by
    obtain ⟨hdata, hsub, hbeforeFormat, -⟩ := hbefore
    funext c
    simp only [Font.lookupGid, Font.lookupFormat4, Font.lookupFormat12, hdata, hsub, hbeforeFormat]
  have houtput : visit.output = (visit.before.call visit.input).1 :=
    congrArg Transition.Visit.output heq
  rw [houtput, (call_spec hbefore visit.input).1, hsame, hlookup]

def bytes16 (n : ℕ) : List UInt8 := [.ofNat (n / 2 ^ 8), .ofNat n]

def bytes32 (n : ℕ) : List UInt8 := bytes16 (n / 2 ^ 16) ++ bytes16 n

def tableRecord (tag : String) (offset : ℕ) : List UInt8 :=
  tagBytes tag ++ bytes32 0 ++ bytes32 offset ++ bytes32 52

def lettersFile : List UInt8 :=
  bytes32 0x10000 ++ bytes16 7 ++ List.replicate 6 0 ++
    ["head", "maxp", "loca", "glyf", "hhea", "hmtx"].flatMap (tableRecord · 124) ++
    tableRecord "cmap" 176 ++
    (List.replicate 18 0 ++ bytes16 1024 ++ List.replicate 32 0) ++
    (bytes16 0 ++ bytes16 1 ++ bytes16 3 ++ bytes16 1 ++ bytes32 12) ++
    (bytes16 4 ++ bytes32 0 ++ bytes16 4 ++ List.replicate 6 0 ++ bytes16 0x5A ++ bytes16 0xFFFF ++
      bytes16 0 ++ bytes16 0x41 ++ bytes16 0xFFFF ++ bytes16 0xFFC0 ++ bytes16 1 ++ bytes32 0)

theorem letters_parse : (Font.parse lettersFile).isSome = true := by decide +kernel

def lettersFont : Font := (Font.parse lettersFile).get letters_parse

theorem letters_segments : lettersFont.segments.isSome = true := by decide +kernel

def lettersSegments : List Segment := lettersFont.segments.get letters_segments

theorem glyph_lookup_letters :
    (∀ ch : Char, lettersFont.lookupGid ch.toNat = Segment.scan lettersSegments ch.toNat) ∧
      ∀ calls : List GlyphCall, ∀ visit ∈ Transition.trace Font.call lettersFont calls,
        visit.output = (Segment.scan lettersSegments visit.input.ch.toNat).getD 0 :=
  glyph_lookup (Option.some_get letters_parse).symm (Option.some_get letters_segments).symm
    ⟨by decide +kernel, by decide +kernel⟩

end AtomVibe.FontCmap
