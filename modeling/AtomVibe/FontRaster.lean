import Mathlib.Data.Rat.Sqrt
import AtomVibe.FontOutline

namespace AtomVibe.CheckedFont

open Checked F32
open FontCmap (Font)

structure RasterGlyph where
  w : ℤ
  h : ℤ
  left : ℤ
  top : ℤ
  cov : List UInt8

structure Extent (F : Type) where
  minX : F
  minY : F
  maxX : F
  maxY : F

section Raster

variable {F : Type} [F32 F]

def bump (acc : List F) (i : ℕ) (v : F) : List F := acc.modify i (· + v)

def bumpAt (acc : List F) (i : ℕ) (v : F) : Run (List F) := do
  let i ← usize i
  return bump acc i v

def crossInner (row x0i x1i : ℕ) (d inv aFirst aLast a1 : F) (acc : List F) : Run (List F) :=
  if x1i = x0i + 2 then bumpAt acc (row + x0i + 1) (d * (ofRat 1 - aFirst - aLast))
  else if x0i + 2 < x1i then do
    let acc ← bumpAt acc (row + x0i + 1) (d * (a1 - aFirst))
    let stop ← subUsize x1i 1
    let acc ← (List.range' (x0i + 2) (stop - (x0i + 2))).foldlM (fun acc xi =>
      bumpAt acc (row + xi) (d * inv)) acc
    let count ← subUsize x1i (x0i + 3)
    let a2 := a1 + ofRat count * inv
    bumpAt acc (row + stop) (d * (ofRat 1 - a2 - aLast))
  else return acc

def crossRow (bw row : ℕ) (d sx0 sx1 : F) (acc : List F) : Run (List F) := do
  let x0f := floor sx0
  let x0i := asUsize x0f
  let span := sx1 - sx0
  if le span (ofRat (1 / 1000000)) ∨ le sx1 (x0f + ofRat 1) then do
    -- the crossing stays inside one pixel column
    let xm := ofRat (1 / 2) * (sx0 + sx1) - x0f
    let acc ← bumpAt acc (row + x0i) (d * (ofRat 1 - xm))
    bumpAt acc (row + x0i + 1) (d * xm)
  else do
    -- spread across columns proportionally to horizontal overlap
    let inv := ofRat 1 / span
    let x1c := ceil sx1
    let limit ← subUsize bw 1
    let x1i := min (asUsize x1c) limit
    let first := x0f + ofRat 1 - sx0
    let aFirst := ofRat (1 / 2) * first * first * inv
    let last := sx1 - (x1c - ofRat 1)
    let aLast := ofRat (1 / 2) * last * last * inv
    let acc ← bumpAt acc (row + x0i) (d * aFirst)
    let a1 := (ofRat (3 / 2) - (sx0 - x0f)) * inv
    let acc ← crossInner row x0i x1i d inv aFirst aLast a1 acc
    bumpAt acc (row + x1i) (d * aLast)

def edgeRow (bw : ℕ) (dir dxdy : F) (top bot : F × F) (maxX : F) (state : List F × F) (y : ℕ) :
    Run (List F × F) := do
  let row ← usize (y * bw)
  let next ← usize (y + 1)
  let dy := min (ofRat next) bot.2 - max (ofRat y) top.2
  let xnext := state.2 + dxdy * dy
  if le dy (ofRat 0) then return (state.1, xnext)
  else do
    let sx := if lt state.2 xnext then (state.2, xnext) else (xnext, state.2)
    let sx0 ← clamp sx.1 (ofRat 0) maxX
    let sx1 ← clamp sx.2 (ofRat 0) maxX
    let acc ← crossRow bw row (dy * dir) sx0 sx1 state.1
    return (acc, xnext)

def accumulateLine (bw h : ℕ) (p0 p1 : F × F) (acc : List F) : Run (List F) :=
  if eq p0.2 p1.2 then return acc
  else do
    let down := lt p0.2 p1.2
    let dir : F := if down then ofRat 1 else ofRat (-1)
    let top := if down then p0 else p1
    let bot := if down then p1 else p0
    let dxdy := (bot.1 - top.1) / (bot.2 - top.2)
    let y0 := asUsize (max top.2 (ofRat 0))
    let y1 := asUsize (min (ceil bot.2) (ofRat h))
    let x := top.1 + max (ofRat y0 - top.2) (ofRat 0) * dxdy
    let last ← subUsize bw 1
    let result ← (List.range' y0 (y1 - y0)).foldlM
      (edgeRow bw dir dxdy top bot (ofRat last)) (acc, x)
    return result.1

def extent (contours : List (Poly F)) : Extent F :=
  contours.flatten.foldl (fun box p =>
    ⟨min box.minX p.1, min box.minY p.2, max box.maxX p.1, max box.maxY p.2⟩)
    ⟨infinity, infinity, -infinity, -infinity⟩

def Extent.Rejected (box : Extent F) : Prop :=
  isFinite box.minX = false ∨ isFinite box.minY = false ∨ isFinite box.maxX = false ∨
    isFinite box.maxY = false ∨ lt (ofRat 4096) (box.maxX - box.minX) = true ∨
    lt (ofRat 4096) (box.maxY - box.minY) = true ∨
    lt (ofRat 10000000) (max (abs box.minX) (abs box.maxX)) = true ∨
    lt (ofRat 10000000) (max (abs box.minY) (abs box.maxY)) = true

instance (box : Extent F) : Decidable box.Rejected := inferInstanceAs (Decidable (_ ∨ _))

def side (least greatest : F) : Run (ℤ × ℤ) := do
  let first ← addI32 (asI32 (floor least)) (-1)
  let size ← addI32 (asI32 (ceil greatest)) (-first)
  let size ← addI32 size 2
  return (first, max size 1)

def drawContour (bw h : ℕ) (left top : ℤ) (c : Poly F) (acc : List F) : Run (List F) :=
  (List.range c.length).foldlM (fun acc i => do
    let p0 ← index c i
    let p1 ← index c ((i + 1) % c.length)
    accumulateLine bw h (p0.1 - ofRat left, p0.2 - ofRat top) (p1.1 - ofRat left, p1.2 - ofRat top)
      acc) acc

def coverPixel (acc : List F) (bw wu row : ℕ) (state : F × List UInt8) (col : ℕ) :
    Run (F × List UInt8) := do
  let i ← usize (row * bw + col)
  let value ← index acc i
  let sum := state.1 + value
  let o ← usize (row * wu + col)
  let cov ← setIndex state.2 o (asU8 (min (abs sum) (ofRat 1) * ofRat 255 + ofRat (1 / 2)))
  return (sum, cov)

def coverRow (acc : List F) (bw wu row : ℕ) (cov : List UInt8) : Run (List UInt8) := do
  let result ← (List.range wu).foldlM (coverPixel acc bw wu row) (ofRat 0, cov)
  return result.2

def rasterize (font : Font) (gid : UInt16) (size : F) : Run RasterGlyph := do
  let scale := size / ofRat font.upem
  let outline ← contours font scale 0 gid ⟨ofRat 1, ofRat 0, ofRat 0, ofRat 1, ofRat 0, ofRat 0⟩ []
  let box := extent outline
  if box.Rejected then return ⟨0, 0, 0, 0, []⟩
  else do
    let xs ← side box.minX box.maxX
    let ys ← side box.minY box.maxY
    let wu := xs.2.toNat
    let hu := ys.2.toNat
    let bw ← usize (wu + 1)
    let cells ← usize (bw * hu)
    let acc ← outline.foldlM (fun acc c => drawContour bw hu xs.1 ys.1 c acc)
      (List.replicate cells (ofRat 0))
    let pixels ← usize (wu * hu)
    let cov ← (List.range hu).foldlM (fun cov row => coverRow acc bw wu row cov)
      (List.replicate pixels 0)
    return ⟨xs.2, ys.2, xs.1, ys.1, cov⟩

end Raster

section Raster

variable {F : Type} [F32 F]

theorem bumpAt_total (acc : List F) {i : ℕ} (hi : i < 2 ^ 64) (v : F) :
    Total (fun acc' => acc'.length = acc.length) (bumpAt acc i v) := by
  rw [bumpAt]
  exact (usize_total hi).bind fun i _ => .ok (List.length_modify _ _ _)

theorem subUsize_total {a b : ℕ} (h : b ≤ a) : Total (· = a - b) (subUsize a b) := by
  rw [subUsize, if_pos h]
  exact .ok rfl

theorem crossInner_total {row x0i x1i : ℕ} (hrow : row < 2 ^ 32) (hx0 : x0i < 2 ^ 32)
    (hx1 : x1i < 2 ^ 32) (d inv aFirst aLast a1 : F) (acc : List F) :
    Total (fun acc' => acc'.length = acc.length)
      (crossInner row x0i x1i d inv aFirst aLast a1 acc) := by
  rw [crossInner]
  split
  · exact bumpAt_total acc (by omega) _
  split
  · refine (bumpAt_total acc (by omega) _).bind fun acc₁ hacc₁ => ?_
    refine (subUsize_total (by omega)).bind fun stop hstop => ?_
    have hloop : Total (fun acc₂ => acc₂.length = acc.length)
        ((List.range' (x0i + 2) (stop - (x0i + 2))).foldlM (fun acc xi =>
          bumpAt acc (row + xi) (d * inv)) acc₁) := by
      apply Meets.foldlM
      · exact hacc₁
      · intro xi hxi acc₂ hacc₂
        rw [List.mem_range'_1] at hxi
        exact (bumpAt_total acc₂ (by omega) _).imp fun r hr => hr.trans hacc₂
    refine hloop.bind fun acc₂ hacc₂ => ?_
    refine (subUsize_total (by omega)).bind fun count _ => ?_
    exact (bumpAt_total acc₂ (by omega) _).imp fun r hr => hr.trans hacc₂
  · exact .ok rfl

theorem crossRow_total {bw row : ℕ} {sx0 : F} (hbw : bw ≤ 2 ^ 13) (hpos : 0 < bw)
    (hrow : row < 2 ^ 32) (hx : asUsize (floor sx0) ≤ bw) (d sx1 : F) (acc : List F) :
    Total (fun acc' => acc'.length = acc.length) (crossRow bw row d sx0 sx1 acc) := by
  rw [crossRow]
  dsimp only
  split
  · refine (bumpAt_total acc (by omega) _).bind fun acc₁ hacc₁ => ?_
    exact (bumpAt_total acc₁ (by omega) _).imp fun r hr => hr.trans hacc₁
  · refine (subUsize_total hpos).bind fun limit hlimit => ?_
    refine (bumpAt_total acc (by omega) _).bind fun acc₁ hacc₁ => ?_
    refine (crossInner_total hrow (by omega) (by omega) d _ _ _ _ acc₁).bind fun acc₂ hacc₂ => ?_
    exact (bumpAt_total acc₂ (by omega) _).imp fun r hr => hr.trans (hacc₂.trans hacc₁)

theorem edgeRow_total {bw y : ℕ} (hbw : bw ≤ 2 ^ 13) (hpos : 0 < bw) (hy : y < 2 ^ 13)
    (dir dxdy : F) (top bot : F × F) (state : List F × F) :
    Total (fun next => next.1.length = state.1.length)
      (edgeRow bw dir dxdy top bot (ofRat ((bw - 1 : ℕ) : ℚ)) state y) := by
  have hrow : y * bw ≤ 2 ^ 13 * 2 ^ 13 := Nat.mul_le_mul (by omega) hbw
  have hzero : val (ofRat 0 : F) = some 0 := val_nat (n := 0) (by omega)
  have hmax : val (ofRat ((bw - 1 : ℕ) : ℚ) : F) = some ((bw - 1 : ℕ) : ℚ) := val_nat (by omega)
  rw [edgeRow]
  refine (usize_total (by omega)).bind fun row hrow' => ?_
  refine (usize_total (by omega)).bind fun next _ => ?_
  dsimp only
  split
  · exact .ok rfl
  · refine (clamp_total hzero hmax (Nat.cast_nonneg _)).bind fun sx0 hsx0 => ?_
    refine (clamp_total hzero hmax (Nat.cast_nonneg _)).bind fun sx1 _ => ?_
    have hx := asUsize_le _ _ _ hmax (not_lt_floor _ _ _ hmax hsx0)
    refine (crossRow_total hbw hpos (by omega) (by omega) _ sx1 state.1).bind fun acc hacc => ?_
    exact .ok hacc

theorem accumulateLine_total {bw h : ℕ} (hbw : bw ≤ 2 ^ 13) (hpos : 0 < bw) (hh : h ≤ 2 ^ 13)
    (p0 p1 : F × F) (acc : List F) :
    Total (fun acc' => acc'.length = acc.length) (accumulateLine bw h p0 p1 acc) := by
  have hval : val (ofRat (h : ℚ) : F) = some (h : ℚ) := val_nat (by omega)
  rw [accumulateLine]
  split
  · exact .ok rfl
  · dsimp only
    refine (subUsize_total hpos).bind fun last hlast => ?_
    subst hlast
    have hloop : ∀ (dir dxdy : F) (top bot : F × F) (y0 : ℕ) (x : F),
        Total (fun state : List F × F => state.1.length = acc.length)
          ((List.range' y0 (asUsize (min (ceil bot.2) (ofRat (h : ℚ))) - y0)).foldlM
            (edgeRow bw dir dxdy top bot (ofRat ((bw - 1 : ℕ) : ℚ))) (acc, x)) := by
      intro dir dxdy top bot y0 x
      have hy1 := asUsize_le _ _ _ hval (not_lt_min (ceil bot.2) _ _ hval)
      apply Meets.foldlM
      · rfl
      · intro y hy state hstate
        rw [List.mem_range'_1] at hy
        exact (edgeRow_total hbw hpos (by omega) dir dxdy top bot state).imp
          fun next hnext => hnext.trans hstate
    exact (hloop _ _ _ _ _ _).bind fun result hresult => .ok hresult

theorem drawContour_total {bw h : ℕ} (hbw : bw ≤ 2 ^ 13) (hpos : 0 < bw) (hh : h ≤ 2 ^ 13)
    (left top : ℤ) (c : Poly F) (acc : List F) :
    Total (fun acc' => acc'.length = acc.length) (drawContour bw h left top c acc) := by
  rw [drawContour]
  apply Meets.foldlM
  · rfl
  · intro i hi acc' hacc'
    rw [List.mem_range] at hi
    refine (index_total hi).bind fun p0 _ => ?_
    refine (index_total (Nat.mod_lt _ (by omega))).bind fun p1 _ => ?_
    exact (accumulateLine_total hbw hpos hh _ _ acc').imp fun r hr => hr.trans hacc'

theorem side_total {least greatest : F} (hleast : isFinite least = true)
    (hgreatest : isFinite greatest = true) (hspan : ¬lt (ofRat 4096) (greatest - least) = true)
    (hfar : ¬lt (ofRat 10000000) (max (abs least) (abs greatest)) = true) :
    Total (fun s => 1 ≤ s.2 ∧ s.2 ≤ 4102) (side least greatest) := by
  obtain ⟨p, hp⟩ := val_of_isFinite least hleast
  obtain ⟨q, hq⟩ := val_of_isFinite greatest hgreatest
  have hlimit : val (ofRat 10000000 : F) = some 10000000 := val_nat (n := 10000000) (by omega)
  have hmax := max_val _ _ _ _ (abs_val _ _ hp) (abs_val _ _ hq)
  have hwithin : max |p| |q| ≤ 10000000 := by
    rw [← not_lt]
    exact fun hlt => hfar ((lt_val _ _ _ _ hlimit hmax).mpr hlt)
  obtain ⟨hp', hq'⟩ := max_le_iff.mp hwithin
  rw [abs_le] at hp' hq'
  have hlt : q - p < 4097 := by
    rw [← not_le]
    intro hle
    exact hspan (lt_sub greatest least q p 4096 hq hp (by norm_num) (by norm_num)
      (by push_cast; linarith))
  have hfloor : -10000000 ≤ ⌊p⌋ ∧ ⌊p⌋ ≤ 10000000 := by
    constructor
    · exact Int.le_floor.mpr (by push_cast; exact hp'.1)
    · have hle := (Int.floor_le p).trans hp'.2
      exact_mod_cast hle
  have hceil : -10000000 ≤ ⌈q⌉ ∧ ⌈q⌉ ≤ 10000000 := by
    constructor
    · have hle := hq'.1.trans (Int.le_ceil q)
      exact_mod_cast hle
    · exact Int.ceil_le.mpr (by push_cast; exact hq'.2)
  have hsize : ⌈q⌉ - ⌊p⌋ ≤ 4098 := by
    have hup := Int.ceil_lt_add_one q
    have hdown := Int.lt_floor_add_one p
    have hreal : ((⌈q⌉ - ⌊p⌋ : ℤ) : ℚ) < 4099 := by
      push_cast
      linarith
    have hint : ⌈q⌉ - ⌊p⌋ < 4099 := by exact_mod_cast hreal
    omega
  rw [side, asI32_val _ _ (floor_val _ _ hp) (by omega) (by omega),
    asI32_val _ _ (ceil_val _ _ hq) (by omega) (by omega), addI32, if_pos (by omega), ok_bind, addI32,
    if_pos (by omega), ok_bind, addI32, if_pos (by omega), ok_bind]
  apply Meets.ok
  dsimp only
  omega

theorem coverRow_total {acc : List F} {bw wu hu row : ℕ} {cov : List UInt8} (hbw : bw = wu + 1)
    (hwu : wu ≤ 4102) (hhu : hu ≤ 4102) (hacc : acc.length = bw * hu)
    (hcov : cov.length = wu * hu) (hrow : row < hu) :
    Total (fun cov' => cov'.length = wu * hu) (coverRow acc bw wu row cov) := by
  have hplace : ∀ width ≤ 4103, ∀ col < width, row * width + col < width * hu ∧
      row * width + col < 2 ^ 64 := by
    intro width hwidth col hcol
    have hnext := Nat.mul_le_mul_right width (Nat.succ_le_of_lt hrow)
    have hall := Nat.mul_le_mul hwidth hhu
    rw [Nat.succ_mul, Nat.mul_comm hu] at hnext
    omega
  have hloop : Total (fun state : F × List UInt8 => state.2.length = wu * hu)
      ((List.range wu).foldlM (coverPixel acc bw wu row) (ofRat 0, cov)) := by
    apply Meets.foldlM
    · exact hcov
    · intro col hcol state hstate
      rw [List.mem_range] at hcol
      obtain ⟨hi, hi'⟩ := hplace bw (by omega) col (by omega)
      obtain ⟨ho, ho'⟩ := hplace wu (by omega) col hcol
      rw [coverPixel]
      refine (usize_total hi').bind fun i heq => ?_
      subst heq
      refine (index_total (hacc ▸ hi)).bind fun value _ => ?_
      refine (usize_total ho').bind fun o heq => ?_
      subst heq
      refine (setIndex_total (hstate ▸ ho) _).bind fun cov' hcov' => .ok ?_
      exact hcov'.trans hstate
  rw [coverRow]
  exact hloop.bind fun result hresult => .ok hresult

theorem rasterize_total {d : List UInt8} (hd : d.length < 2 ^ 63) {font : Font}
    (hfont : FontCmap.Parsed d font) (gid : UInt16) (size : F) :
    Total (fun glyph => glyph.cov.length = glyph.w.toNat * glyph.h.toNat)
      (rasterize font gid size) := by
  rw [rasterize]
  refine (contours_total hd hfont _ 0 gid _ []).bind fun outline _ => ?_
  dsimp only
  split
  · exact .ok rfl
  rename_i hkept
  simp only [Extent.Rejected, not_or, Bool.not_eq_false] at hkept
  obtain ⟨hminX, hminY, hmaxX, hmaxY, hspanX, hspanY, hfarX, hfarY⟩ := hkept
  refine (side_total hminX hmaxX hspanX hfarX).bind fun xs hxs => ?_
  refine (side_total hminY hmaxY hspanY hfarY).bind fun ys hys => ?_
  have hall := Nat.mul_le_mul (show xs.2.toNat + 1 ≤ 4103 by omega) (show ys.2.toNat ≤ 4102 by omega)
  have hless : xs.2.toNat * ys.2.toNat ≤ (xs.2.toNat + 1) * ys.2.toNat :=
    Nat.mul_le_mul_right _ (Nat.le_succ _)
  refine (usize_total (by omega)).bind fun bw hbw => ?_
  subst hbw
  refine (usize_total (by omega)).bind fun cells hcells => ?_
  have hacc : Total (fun acc : List F => acc.length = (xs.2.toNat + 1) * ys.2.toNat)
      (outline.foldlM (fun acc c => drawContour (xs.2.toNat + 1) ys.2.toNat xs.1 ys.1 c acc)
        (List.replicate cells (ofRat 0))) := by
    apply Meets.foldlM
    · exact List.length_replicate.trans hcells
    · intro c _ acc hacc
      exact (drawContour_total (by omega) (Nat.succ_pos _) (by omega) xs.1 ys.1 c acc).imp
        fun acc' hacc' => hacc'.trans hacc
  refine hacc.bind fun acc hacc => ?_
  refine (usize_total (by omega)).bind fun pixels hpixels => ?_
  have hcov : Total (fun cov : List UInt8 => cov.length = xs.2.toNat * ys.2.toNat)
      ((List.range ys.2.toNat).foldlM (fun cov row =>
        coverRow acc (xs.2.toNat + 1) xs.2.toNat row cov) (List.replicate pixels 0)) := by
    apply Meets.foldlM
    · exact List.length_replicate.trans hpixels
    · intro row hrow cov hcov
      rw [List.mem_range] at hrow
      exact coverRow_total rfl (by omega) (by omega) hacc hcov hrow
  exact hcov.bind fun cov hcov => .ok hcov

end Raster

/-- The bytes of a file: the length of a `Vec` is an `isize`. -/
abbrev Bytes := { d : List UInt8 // d.length < 2 ^ 63 }

def OutlineAt (font : Font) (gid : UInt16) (go : ℕ) (n : ℤ) : Prop :=
  ∃ stop nContours, glyphRange font gid = .ok (go, stop) ∧ rdI16 font.data go = .ok nContours ∧
    n = nContours.toInt

structure NeverPanics (F : Type) [F32 F] (font : Font) : Prop where
  lookup_eq : ∀ ch : Char, lookupGid font ch.toNat = okOr .returned (font.lookupGid ch.toNat)
  range : ∀ gid, glyphRange font gid ≠ .error .panicked
  decode : ∀ gid go, ∀ nc : ℕ, OutlineAt font gid go nc →
    Safe Decoded.Exact (decodeSimple font.data go nc)
  simple : ∀ gid go, ∀ nc : ℕ, OutlineAt font gid go nc → ∀ (scale : F) (xf : Xf F)
    (out : List (Poly F)), ∃ out', simpleContours font.data go nc scale xf out = .ok out'
  composite : ∀ gid go n, OutlineAt font gid go n → n < 0 → ∀ (scale : F) (depth : ℕ) (xf : Xf F)
    (out : List (Poly F)), ∃ out', compositeContours (contours font scale (depth + 1)) font.data go
      xf out = .ok out'
  /-- A glyph that is its own component ends at the fifth level. -/
  nested : ∀ (scale : F) (depth : ℕ) (gid : UInt16) (xf : Xf F) (out : List (Poly F)),
    ∃ out', contours font scale depth gid xf out = .ok out' ∧ (4 < depth → out' = out)
  raster : ∀ (gid : UInt16) (size : F), ∃ glyph, rasterize font gid size = .ok glyph ∧
    glyph.cov.length = glyph.w.toNat * glyph.h.toNat

theorem neverPanics (F : Type) [F32 F] {d : List UInt8} (hd : d.length < 2 ^ 63) {font : Font}
    (hfont : FontCmap.Parsed d font) : NeverPanics F font := by
  have hcontours := fun (scale : F) depth gid xf out =>
    contours_total hd hfont scale depth gid xf out
  have hgo : ∀ {gid go n}, OutlineAt font gid go n → go < 2 ^ 33 ∧ n < 2 ^ 15 := by
    rintro gid go n ⟨stop, nContours, hrange, -, rfl⟩
    exact ⟨(glyphRange_safe hd hfont gid).returns _ hrange, nContours.toInt_lt⟩
  have hdata := hfont.data
  constructor
  · intro ch
    exact lookupGid_eq (hdata.symm ▸ hd) hfont.cmapSub_lt ch.toNat
  · intro gid hpanic
    exact absurd ((glyphRange_safe hd hfont gid).refuses _ hpanic) (by decide)
  · intro gid go nc hat
    obtain ⟨hlt, hnc⟩ := hgo hat
    rw [hdata]
    exact decodeSimple_safe hd hlt (by exact_mod_cast hnc)
  · intro gid go nc hat scale xf out
    obtain ⟨hlt, hnc⟩ := hgo hat
    rw [hdata]
    obtain ⟨out', hout, -⟩ := (simpleContours_total hd hlt (by exact_mod_cast hnc) scale xf out).exists_ok
    exact ⟨out', hout⟩
  · intro gid go n hat _ scale depth xf out
    rw [hdata]
    obtain ⟨out', hout, -⟩ :=
      (compositeContours_total hd (hcontours scale (depth + 1)) (hgo hat).1 xf out).exists_ok
    exact ⟨out', hout⟩
  · intro scale depth gid xf out
    obtain ⟨out', hout, -⟩ := (hcontours scale depth gid xf out).exists_ok
    refine ⟨out', hout, ?_⟩
    intro hdepth
    rw [contours, if_pos hdepth] at hout
    cases hout
    rfl
  · intro gid size
    exact (rasterize_total hd hfont gid size).exists_ok

/-- Malformed fonts degrade, never panic. -/
theorem malformed_font_degrades (F : Type) [F32 F] (data : Bytes) :
    parse data.1 = .error .returned ∨
      ∃ font, parse data.1 = .ok font ∧ Font.parse data.1 = some font ∧ NeverPanics F font := by
  rw [parse_eq data.2]
  cases hparse : Font.parse data.1 with
  | none => exact .inl rfl
  | some font => exact .inr ⟨font, rfl, rfl, neverPanics F data.2 (FontCmap.parse_spec hparse)⟩

/-! Exact arithmetic is one of the arithmetics meant: a fraction, or no number. -/

def truncWithin (lo hi : ℤ) : Option ℚ → ℤ
  | none => 0
  | some q => Max.max lo (Min.min (if 0 ≤ q then ⌊q⌋ else ⌈q⌉) hi)

instance : F32 (Option ℚ) where
  add a b := do return (← a) + (← b)
  sub a b := do return (← a) - (← b)
  mul a b := do return (← a) * (← b)
  div a b := do return (← a) / (← b)
  neg a := a.map (- ·)
  min
    | some p, some q => some (Min.min p q)
    | none, b => b
    | a, none => a
  max
    | some p, some q => some (Max.max p q)
    | none, b => b
    | a, none => a
  ofRat := some
  infinity := none
  abs a := a.map (|·|)
  sqrt a := a.map Rat.sqrt
  floor a := a.map fun q => ⌊q⌋
  ceil a := a.map fun q => ⌈q⌉
  eq a b := decide (a = b ∧ a.isSome)
  lt a b := decide (∃ p ∈ a, ∃ q ∈ b, p < q)
  le a b := decide (∃ p ∈ a, ∃ q ∈ b, p ≤ q)
  isFinite := Option.isSome
  asI32 := truncWithin (-2 ^ 31) (2 ^ 31 - 1)
  asUsize a := (truncWithin 0 (2 ^ 64 - 1) a).toNat
  asU8 a := UInt8.ofNat (truncWithin 0 255 a).toNat
  val := id
  val_ofRat n _ _ := rfl
  val_of_isFinite a h := Option.isSome_iff_exists.mp h
  lt_val a b p q ha hb := by
    cases ha
    cases hb
    simp
  le_val a b p q ha hb := by
    cases ha
    cases hb
    simp
  abs_val a p ha := by
    cases ha
    rfl
  max_val a b p q ha hb := by
    cases ha
    cases hb
    rfl
  floor_val a p ha := by
    cases ha
    rfl
  ceil_val a p ha := by
    cases ha
    rfl
  asI32_val a n ha hlo hhi := by
    cases ha
    simp only [truncWithin, Int.floor_intCast, Int.ceil_intCast, ite_self]
    omega
  asUsize_le a b n hb hlt := by
    cases hb
    cases a with
    | none => exact Nat.zero_le _
    | some q =>
      have hle : q ≤ n := by simpa using hlt
      have hfloor : ⌊q⌋ ≤ n := by exact_mod_cast (Int.floor_le q).trans hle
      have hceil : ⌈q⌉ ≤ n := Int.ceil_le.mpr (by exact_mod_cast hle)
      simp only [truncWithin]
      split <;> omega
  not_lt_min a b q hb := by
    cases hb
    cases a <;> simp
  not_lt_floor a b q hb hlt := by
    cases hb
    cases a with
    | none => simp
    | some p =>
      have hle : p ≤ q := by simpa using hlt
      simpa using (Int.floor_le p).trans hle
  lt_sub a b p q n ha hb _ _ hle := by
    cases ha
    cases hb
    have hlt : (n : ℚ) < p - q := by linarith
    change decide (∃ r ∈ some (n : ℚ), ∃ s ∈ some (p - q), r < s) = true
    simpa using hlt

end AtomVibe.CheckedFont
