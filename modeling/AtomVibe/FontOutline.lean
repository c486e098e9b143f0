import Mathlib.Data.Rat.Floor
import AtomVibe.FontReads

namespace AtomVibe.CheckedFont

open Checked
open FontCmap (Font)

def pushRun (nPts : ℕ) (f : UInt8) : ℕ → List UInt8 → List UInt8
  | 0, flags => flags
  | rep + 1, flags => pushRun nPts f rep (if flags.length < nPts then flags ++ [f] else flags)

theorem le_length_pushRun (nPts : ℕ) (f : UInt8) (rep : ℕ) (flags : List UInt8) :
    flags.length ≤ (pushRun nPts f rep flags).length := by
  induction rep generalizing flags with
  | zero => exact Nat.le_refl _
  | succ rep ih =>
    rw [pushRun]
    apply Nat.le_trans _ (ih _)
    split
    · rw [List.length_append]
      exact Nat.le_add_right _ _
    · exact Nat.le_refl _

theorem length_pushRun_le {nPts : ℕ} (f : UInt8) (rep : ℕ) {flags : List UInt8}
    (h : flags.length ≤ nPts) : (pushRun nPts f rep flags).length ≤ nPts := by
  induction rep generalizing flags with
  | zero => exact h
  | succ rep ih =>
    rw [pushRun]
    apply ih
    split
    · rw [List.length_append, List.length_singleton]
      omega
    · exact h

def decodeFlags (d : List UInt8) (nPts p : ℕ) (flags : List UInt8) : Run (List UInt8 × ℕ) :=
  if flags.length < nPts then do
    let f ← rdU8 d p
    let p ← usize (p + 1)
    if f &&& 0x08 ≠ 0 then do
      let rep ← rdU8 d p
      let p ← usize (p + 1)
      decodeFlags d nPts p (pushRun nPts f rep.toNat (flags ++ [f]))
    else decodeFlags d nPts p (flags ++ [f])
  else return (flags, p)
termination_by nPts - flags.length
decreasing_by
  · have hle := le_length_pushRun nPts f rep.toNat (flags ++ [f])
    rw [List.length_append, List.length_singleton] at hle
    omega
  · rw [List.length_append, List.length_singleton]
    omega

def stepCoord (short same : UInt8) (d : List UInt8) (f : UInt8) (p : ℕ) (x : ℤ) : Run (ℤ × ℕ) :=
  if f &&& short ≠ 0 then do
    let v ← rdU8 d p
    let p ← usize (p + 1)
    let x ← addI32 x (if f &&& same ≠ 0 then (v.toNat : ℤ) else -(v.toNat : ℤ))
    return (x, p)
  else if f &&& same = 0 then do
    let v ← rdI16 d p
    let p ← usize (p + 2)
    let x ← addI32 x v.toInt
    return (x, p)
  else return (x, p)

def decodeCoords (short same : UInt8) (d : List UInt8) :
    List UInt8 → ℕ → ℤ → Run (List ℤ × ℕ)
  | [], p, _ => return ([], p)
  | f :: flags, p, x => do
    let next ← stepCoord short same d f p x
    let rest ← decodeCoords short same d flags next.2 next.1
    return (next.1 :: rest.1, rest.2)

structure Decoded where
  ends : List ℕ
  nPts : ℕ
  flags : List UInt8
  xs : List ℤ
  ys : List ℤ

def decodeSimple (d : List UInt8) (go nc : ℕ) : Run Decoded := do
  let ends ← (List.range nc).mapM fun i => do
    let e ← rdU16 d (go + 10 + i * 2)
    return e.toNat
  let last ← okOr .returned ends.getLast?
  let nPts ← usize (last + 1)
  let insLen ← rdU16 d (go + 10 + nc * 2)
  let p ← usize (go + 12 + nc * 2 + insLen.toNat)
  let flags ← decodeFlags d nPts p []
  let xs ← decodeCoords 0x02 0x10 d flags.1 flags.2 0
  let ys ← decodeCoords 0x04 0x20 d flags.1 xs.2 0
  return ⟨ends, nPts, flags.1, xs.1, ys.1⟩

structure Decoded.Exact (dec : Decoded) : Prop where
  flags : dec.flags.length = dec.nPts
  xs : dec.xs.length = dec.nPts
  ys : dec.ys.length = dec.nPts
  nPts_le : dec.nPts ≤ 65536

def Within (k : ℕ) (x : ℤ) : Prop := -32768 * (k : ℤ) ≤ x ∧ x ≤ 32767 * (k : ℤ)

section Points

variable {d : List UInt8} (hd : d.length < 2 ^ 63)

include hd

theorem decodeFlags_safe {nPts p : ℕ} {flags : List UInt8} (hp : p < 2 ^ 63 + 2)
    (hlen : flags.length ≤ nPts) :
    Safe (fun r => r.1.length = nPts ∧ r.2 < 2 ^ 63 + 2) (decodeFlags d nPts p flags) := by
  induction hleft : nPts - flags.length using Nat.strongRecOn generalizing p flags with
  | ind left ih =>
    subst hleft
    rw [decodeFlags]
    by_cases hmore : flags.length < nPts
    · rw [if_pos hmore]
      refine (rdU8_safe (by omega)).bind fun f hf => ?_
      refine (usize_total (by omega)).bind fun p' hp' => ?_
      subst hp'
      have hone : (flags ++ [f]).length = flags.length + 1 := List.length_append
      split
      · refine (rdU8_safe (by omega)).bind fun rep hrep => ?_
        refine (usize_total (by omega)).bind fun p' hp' => ?_
        subst hp'
        have hge := le_length_pushRun nPts f rep.toNat (flags ++ [f])
        have hle := length_pushRun_le f rep.toNat (show (flags ++ [f]).length ≤ nPts by omega)
        exact ih _ (by omega) (by omega) hle rfl
      · exact ih _ (by omega) (by omega) (by omega) rfl
    · rw [if_neg hmore]
      refine .ok ⟨?_, hp⟩
      change flags.length = nPts
      omega

theorem stepCoord_safe {short same f : UInt8} {p k : ℕ} {x : ℤ} (hp : p < 2 ^ 63 + 2)
    (hk : k < 65536) (hx : Within k x) :
    Safe (fun next => Within (k + 1) next.1 ∧ next.2 < 2 ^ 63 + 2)
      (stepCoord short same d f p x) := by
  obtain ⟨hlo, hhi⟩ := hx
  have hadd : ∀ v : ℤ, -32768 ≤ v → v ≤ 32767 → Safe (Within (k + 1)) (addI32 x v) := by
    intro v hv hv'
    rw [addI32, if_pos (by omega)]
    apply Meets.ok
    constructor <;> push_cast <;> omega
  rw [stepCoord]
  split
  · refine (rdU8_safe (by omega)).bind fun v hv => ?_
    refine (usize_total (by omega)).bind fun p' hp' => ?_
    have hbyte := v.toNat_lt
    refine (hadd _ ?_ ?_).bind fun y hy => .ok ⟨hy, ?_⟩
    · split <;> omega
    · split <;> omega
    · dsimp only
      omega
  · split
    · refine (rdI16_safe hd (by omega)).bind fun v hv => ?_
      refine (usize_total (by omega)).bind fun p' hp' => ?_
      have hlt := v.toInt_lt
      refine (hadd _ v.le_toInt (by omega)).bind fun y hy => .ok ⟨hy, ?_⟩
      dsimp only
      omega
    · refine .ok ⟨⟨?_, ?_⟩, hp⟩ <;> push_cast <;> omega

theorem decodeCoords_safe {short same : UInt8} {flags : List UInt8} {p k : ℕ} {x : ℤ}
    (hp : p < 2 ^ 63 + 2) (hk : k + flags.length ≤ 65536) (hx : Within k x) :
    Safe (fun r => r.1.length = flags.length ∧ r.2 < 2 ^ 63 + 2)
      (decodeCoords short same d flags p x) := by
  induction flags generalizing p k x with
  | nil => exact .ok ⟨rfl, hp⟩
  | cons f flags ih =>
    rw [List.length_cons] at hk
    rw [decodeCoords]
    refine (stepCoord_safe hd hp (by omega) hx).bind fun next hnext => ?_
    refine (ih hnext.2 (by omega) hnext.1).bind fun rest hrest => .ok ?_
    exact ⟨congrArg (· + 1) hrest.1, hrest.2⟩

theorem decodeSimple_safe {go nc : ℕ} (hgo : go < 2 ^ 33) (hnc : nc < 2 ^ 15) :
    Safe Decoded.Exact (decodeSimple d go nc) := by
  rw [decodeSimple]
  have hends : Safe (fun ends : List ℕ => ends.length = (List.range nc).length ∧ ∀ e ∈ ends, e < 65536)
      ((List.range nc).mapM fun i => do
      let e ← rdU16 d (go + 10 + i * 2)
      return e.toNat) := by
    apply Meets.mapM
    intro i hi
    rw [List.mem_range] at hi
    exact (rdU16_safe hd (by omega)).bind fun e _ => .ok e.toNat_lt
  refine hends.bind fun ends hlast => ?_
  refine (okOr_safe fun last h => hlast.2 last (List.mem_of_getLast? h)).bind
    fun last hlt => ?_
  refine (usize_total (by omega)).bind fun nPts hn => ?_
  subst hn
  refine (rdU16_safe hd (by omega)).bind fun insLen _ => ?_
  have hins := insLen.toNat_lt
  refine (usize_total (by omega)).bind fun p hp => ?_
  subst hp
  refine (decodeFlags_safe hd (by omega) (Nat.zero_le _)).bind fun flags hflags => ?_
  have hzero : Within 0 0 := ⟨Int.le_refl _, Int.le_refl _⟩
  have hcount : 0 + flags.1.length ≤ 65536 := by omega
  refine (decodeCoords_safe hd hflags.2 hcount hzero).bind fun xs hxs => ?_
  refine (decodeCoords_safe hd hxs.2 hcount hzero).bind fun ys hys => .ok ?_
  exact ⟨hflags.1, hxs.1.trans hflags.1, hys.1.trans hflags.1, hlt⟩

end Points

/-- The operations of `f32`. Where there are numbers, comparisons, casts and roundings to whole
numbers are exact; of the arithmetic nothing is said but how a difference is rounded. -/
class F32 (F : Type) extends Add F, Sub F, Mul F, Div F, Neg F, Min F, Max F where
  /-- A literal, or the cast of an integer. -/
  ofRat : ℚ → F
  infinity : F
  abs : F → F
  sqrt : F → F
  floor : F → F
  ceil : F → F
  eq : F → F → Bool
  lt : F → F → Bool
  le : F → F → Bool
  isFinite : F → Bool
  asI32 : F → ℤ
  asUsize : F → ℕ
  asU8 : F → UInt8
  /-- The number a finite float is. -/
  val : F → Option ℚ
  val_ofRat : ∀ n : ℤ, -2 ^ 24 ≤ n → n ≤ 2 ^ 24 → val (ofRat n) = some (n : ℚ)
  val_of_isFinite : ∀ a, isFinite a = true → ∃ p, val a = some p
  lt_val : ∀ a b p q, val a = some p → val b = some q → (lt a b = true ↔ p < q)
  le_val : ∀ a b p q, val a = some p → val b = some q → (le a b = true ↔ p ≤ q)
  abs_val : ∀ a p, val a = some p → val (abs a) = some |p|
  max_val : ∀ a b p q, val a = some p → val b = some q → val (max a b) = some (Max.max p q)
  floor_val : ∀ a p, val a = some p → val (floor a) = some (⌊p⌋ : ℚ)
  ceil_val : ∀ a p, val a = some p → val (ceil a) = some (⌈p⌉ : ℚ)
  asI32_val : ∀ a (n : ℤ), val a = some (n : ℚ) → -2 ^ 31 ≤ n → n < 2 ^ 31 → asI32 a = n
  /-- What is not above a whole number is cast to none above it; what is no number, to zero. -/
  asUsize_le : ∀ a b (n : ℕ), val b = some (n : ℚ) → lt b a = false → asUsize a ≤ n
  /-- The smaller of two is not above the second, also where the first is no number. -/
  not_lt_min : ∀ a b q, val b = some q → lt b (min a b) = false
  not_lt_floor : ∀ a b q, val b = some q → lt b a = false → lt b (floor a) = false
  /-- A difference is rounded to a neighbour: one above `n + 1` is not rounded to `n`. -/
  lt_sub : ∀ a b p q (n : ℤ), val a = some p → val b = some q → 0 ≤ n → n < 2 ^ 23 →
    n + 1 ≤ p - q → lt (ofRat n) (a - b) = true

open F32

structure Xf (F : Type) where
  m0 : F
  m1 : F
  m2 : F
  m3 : F
  m4 : F
  m5 : F

abbrev Poly (F : Type) := List (F × F)

section Outline

variable {F : Type} [F32 F]

def clamp (v lo hi : F) : Run F :=
  if le lo hi then .ok (if lt v lo then lo else if lt hi v then hi else v) else .error .panicked

def mid (a b : F × F) : F × F :=
  ((a.1 + b.1) * ofRat (1 / 2), (a.2 + b.2) * ofRat (1 / 2))

def flattenQuad (p0 c p1 : F × F) : Run (Poly F) := do
  let dev := sqrt (abs (c.1 - (p0.1 + p1.1) * ofRat (1 / 2)) +
    abs (c.2 - (p0.2 + p1.2) * ofRat (1 / 2)))
  let n ← clamp (ceil (dev * ofRat 2)) (ofRat 2) (ofRat 16)
  return (List.range' 1 (asUsize n)).map fun i =>
    let t := ofRat i / ofRat (asUsize n)
    let u := ofRat 1 - t
    (u * u * p0.1 + ofRat 2 * u * t * c.1 + t * t * p1.1,
      u * u * p0.2 + ofRat 2 * u * t * c.2 + t * t * p1.2)

def toPx (dec : Decoded) (scale : F) (xf : Xf F) (i : ℕ) : Run (F × F) := do
  let ux : F := ofRat (← index dec.xs i)
  let uy : F := ofRat (← index dec.ys i)
  let tx := xf.m0 * ux + xf.m2 * uy + xf.m4
  let ty := xf.m1 * ux + xf.m3 * uy + xf.m5
  return (tx * scale, -ty * scale)

def onCurve (dec : Decoded) (i : ℕ) : Run Bool := do
  let f ← index dec.flags i
  return decide (f &&& 0x01 ≠ 0)

structure Pen (F : Type) where
  poly : Poly F
  prev : F × F
  pendingCtrl : Option (F × F)

def penStep (pen : Pen F) (pt : F × F) (on : Bool) : Run (Pen F) :=
  match on, pen.pendingCtrl with
  | true, some c => do
    let curve ← flattenQuad pen.prev c pt
    return ⟨pen.poly ++ curve, pt, none⟩
  | true, none => return ⟨pen.poly ++ [pt], pt, none⟩
  | false, some c => do
    let m := mid c pt
    let curve ← flattenQuad pen.prev c m
    return ⟨pen.poly ++ curve, m, some pt⟩
  | false, none => return ⟨pen.poly, pen.prev, some pt⟩

def firstOn (dec : Decoded) (start count : ℕ) : ℕ → ℕ → Run (Option ℕ)
  | 0, _ => return none
  | left + 1, k => do
    if ← onCurve dec (start + k % count) then return some k
    else firstOn dec start count left (k + 1)

def originOf (dec : Decoded) (scale : F) (xf : Xf F) (start count : ℕ) :
    Option ℕ → Run ((F × F) × ℕ)
  | some k => do
    let pt ← toPx dec scale xf (start + k % count)
    return (pt, k)
  | none => do
    let a ← toPx dec scale xf (start + 0 % count)
    let b ← toPx dec scale xf (start + 1 % count)
    return (mid a b, 0)

def contour (dec : Decoded) (scale : F) (xf : Xf F) (start count : ℕ) : Run (Poly F) := do
  let first ← firstOn dec start count count 0
  let origin ← originOf dec scale xf start count first
  let pen ← (List.range' 1 count).foldlM (fun pen step => do
    let k ← usize (origin.2 + step)
    let pt ← toPx dec scale xf (start + k % count)
    let on ← onCurve dec (start + k % count)
    penStep pen pt on) (⟨[origin.1], origin.1, none⟩ : Pen F)
  match pen.pendingCtrl with
  | some c => do
    let curve ← flattenQuad pen.prev c origin.1
    return pen.poly ++ curve
  | none => return pen.poly

def contourLoop (dec : Decoded) (scale : F) (xf : Xf F) :
    List ℕ → ℕ → List (Poly F) → Run (List (Poly F))
  | [], _, out => return out
  | stop :: ends, start, out =>
    -- what is there of the outline stays
    if dec.nPts ≤ stop ∨ stop < start then return out
    else if stop - start + 1 < 2 then contourLoop dec scale xf ends (stop + 1) out
    else do
      let poly ← contour dec scale xf start (stop - start + 1)
      contourLoop dec scale xf ends (stop + 1) (out ++ [poly])

def simpleContours (d : List UInt8) (go nc : ℕ) (scale : F) (xf : Xf F) (out : List (Poly F)) :
    Run (List (Poly F)) :=
  orKeep out (decodeSimple d go nc) fun dec => contourLoop dec scale xf dec.ends 0 out

def offsetBytes (flags : UInt16) : ℕ := if flags &&& 0x0001 ≠ 0 then 4 else 2

def scaleBytes (flags : UInt16) : ℕ :=
  if flags &&& 0x0008 ≠ 0 then 2
  else if flags &&& 0x0040 ≠ 0 then 4
  else if flags &&& 0x0080 ≠ 0 then 8
  else 0

def readArgs (d : List UInt8) (flags : UInt16) (p : ℕ) : Run (F × F) :=
  if flags &&& 0x0001 ≠ 0 then do
    let a ← unwrapOr 0 (rdI16 d p)
    let b ← unwrapOr 0 (rdI16 d (p + 2))
    return (ofRat a.toInt, ofRat b.toInt)
  else do
    let a ← unwrapOr 0 (rdU8 d p)
    let b ← unwrapOr 0 (rdU8 d (p + 1))
    return (ofRat a.toInt8.toInt, ofRat b.toInt8.toInt)

def readOffset (d : List UInt8) (flags : UInt16) (p : ℕ) : Run (F × F) := do
  let args ← readArgs d flags p
  return if flags &&& 0x0002 ≠ 0 then args else (ofRat 0, ofRat 0)

def f2 (d : List UInt8) (o : ℕ) : Run F := do
  let value ← unwrapOr 0 (rdI16 d o)
  return ofRat value.toInt / ofRat 16384

def readScale (d : List UInt8) (flags : UInt16) (p : ℕ) : Run (F × F × F × F) :=
  if flags &&& 0x0008 ≠ 0 then do
    let s ← f2 d p
    return (s, ofRat 0, ofRat 0, s)
  else if flags &&& 0x0040 ≠ 0 then do
    let sx ← f2 d p
    let sy ← f2 d (p + 2)
    return (sx, ofRat 0, ofRat 0, sy)
  else if flags &&& 0x0080 ≠ 0 then do
    let a ← f2 d p
    let b ← f2 d (p + 2)
    let c ← f2 d (p + 4)
    let dd ← f2 d (p + 6)
    return (a, b, c, dd)
  else return (ofRat 1, ofRat 0, ofRat 0, ofRat 1)

def childXf (xf : Xf F) (m : F × F × F × F) (offset : F × F) : Xf F where
  m0 := xf.m0 * m.1 + xf.m2 * m.2.1
  m1 := xf.m1 * m.1 + xf.m3 * m.2.1
  m2 := xf.m0 * m.2.2.1 + xf.m2 * m.2.2.2
  m3 := xf.m1 * m.2.2.1 + xf.m3 * m.2.2.2
  m4 := xf.m0 * offset.1 + xf.m2 * offset.2 + xf.m4
  m5 := xf.m1 * offset.1 + xf.m3 * offset.2 + xf.m5

def readHead (d : List UInt8) (p : ℕ) : Run (UInt16 × UInt16) := do
  let flags ← rdU16 d p
  let child ← rdU16 d (p + 2)
  return (flags, child)

theorem lt_of_readHead {d : List UInt8} {p : ℕ} {head : UInt16 × UInt16}
    (h : readHead d p = .ok head) : p < d.length := by
  obtain ⟨flags, hflags, -⟩ := bind_eq_ok.mp h
  obtain ⟨high, hhigh, -⟩ := bind_eq_ok.mp hflags
  obtain ⟨o, ho, hbyte⟩ := bind_eq_ok.mp hhigh
  rw [usize] at ho
  split at ho
  · cases ho
    exact (List.getElem?_eq_some_iff.mp (okOr_eq_ok.mp hbyte)).1
  · cases ho

def compositeLoop (contours : UInt16 → Xf F → List (Poly F) → Run (List (Poly F)))
    (d : List UInt8) (xf : Xf F) (p : ℕ) (out : List (Poly F)) : Run (List (Poly F)) :=
  match hhead : readHead d p with
  | .error .returned => .ok out
  | .error .panicked => .error .panicked
  | .ok head => do
    let offset ← readOffset d head.1 (p + 4)
    let m ← readScale d head.1 (p + 4 + offsetBytes head.1)
    let next ← usize (p + 4 + offsetBytes head.1 + scaleBytes head.1)
    let out ← contours head.2 (childXf xf m offset) out
    if head.1 &&& 0x0020 = 0 then return out
    else compositeLoop contours d xf (p + 4 + offsetBytes head.1 + scaleBytes head.1) out
termination_by d.length - p
decreasing_by
  have hlt := lt_of_readHead hhead
  omega

def compositeContours (contours : UInt16 → Xf F → List (Poly F) → Run (List (Poly F)))
    (d : List UInt8) (go : ℕ) (xf : Xf F) (out : List (Poly F)) : Run (List (Poly F)) := do
  let p ← usize (go + 10)
  compositeLoop contours d xf p out

def contours (font : Font) (scale : F) (depth : ℕ) (gid : UInt16) (xf : Xf F)
    (out : List (Poly F)) : Run (List (Poly F)) :=
  if 4 < depth then return out
  else orKeep out (glyphRange font gid) fun range =>
    orKeep out (rdI16 font.data range.1) fun nContours =>
      if 0 ≤ nContours.toInt then
        simpleContours font.data range.1 nContours.toInt.toNat scale xf out
      else compositeContours (fun child xf out => contours font scale (depth + 1) child xf out)
        font.data range.1 xf out
termination_by 5 - depth

end Outline

section Floats

variable {F : Type} [F32 F]

theorem val_nat {n : ℕ} (h : n ≤ 2 ^ 24) : val (ofRat (n : ℚ) : F) = some (n : ℚ) := by
  have hval := val_ofRat (F := F) n (by omega) (by omega)
  rw [Int.cast_natCast] at hval
  exact hval

theorem clamp_total {v lo hi : F} {p q : ℚ} (hlo : val lo = some p) (hhi : val hi = some q)
    (hle : p ≤ q) : Total (fun r => lt hi r = false) (clamp v lo hi) := by
  rw [clamp, if_pos ((le_val lo hi p q hlo hhi).mpr hle)]
  apply Meets.ok
  split
  · apply Bool.eq_false_iff.mpr
    intro hlt
    exact absurd ((lt_val hi lo q p hhi hlo).mp hlt) (not_lt.mpr hle)
  · split
    · apply Bool.eq_false_iff.mpr
      intro hlt
      exact lt_irrefl q ((lt_val hi hi q q hhi hhi).mp hlt)
    · rename_i hnot
      exact Bool.eq_false_iff.mpr hnot

theorem flattenQuad_total (p0 c p1 : F × F) : Total (fun _ => True) (flattenQuad p0 c p1) := by
  have htwo : val (ofRat 2 : F) = some 2 := val_nat (n := 2) (by omega)
  have hsixteen : val (ofRat 16 : F) = some 16 := val_nat (n := 16) (by omega)
  rw [flattenQuad]
  exact (clamp_total htwo hsixteen (by norm_num)).bind fun n _ => .ok trivial

theorem penStep_total (pen : Pen F) (pt : F × F) (on : Bool) :
    Total (fun _ => True) (penStep pen pt on) := by
  unfold penStep
  split
  · exact (flattenQuad_total _ _ _).bind fun _ _ => .ok trivial
  · exact .ok trivial
  · exact (flattenQuad_total _ _ _).bind fun _ _ => .ok trivial
  · exact .ok trivial

end Floats

section Contours

variable {F : Type} [F32 F] {dec : Decoded} (hdec : dec.Exact)

include hdec

theorem toPx_total (scale : F) (xf : Xf F) {i : ℕ} (hi : i < dec.nPts) :
    Total (fun _ => True) (toPx dec scale xf i) := by
  rw [toPx]
  refine (index_total (hdec.xs.symm ▸ hi)).bind fun x _ => ?_
  exact (index_total (hdec.ys.symm ▸ hi)).bind fun y _ => .ok trivial

theorem onCurve_total {i : ℕ} (hi : i < dec.nPts) : Total (fun _ => True) (onCurve dec i) := by
  rw [onCurve]
  exact (index_total (hdec.flags.symm ▸ hi)).bind fun f _ => .ok trivial

theorem firstOn_total {start count : ℕ} (hcount : 0 < count) (hin : start + count ≤ dec.nPts)
    (left k : ℕ) : Total (fun r => ∀ first ∈ r, first < k + left) (firstOn dec start count left k) := by
  induction left generalizing k with
  | zero => exact .ok fun first hfirst => by cases hfirst
  | succ left ih =>
    have hk := Nat.mod_lt k hcount
    rw [firstOn]
    refine (onCurve_total hdec (by omega)).bind fun on _ => ?_
    split
    · apply Meets.ok
      intro first hfirst
      cases hfirst
      omega
    · refine (ih (k + 1)).imp fun r hr first hfirst => ?_
      have hlt := hr first hfirst
      omega

theorem originOf_total (scale : F) (xf : Xf F) {start count : ℕ} (hcount : 0 < count)
    (hin : start + count ≤ dec.nPts) {first : Option ℕ} (hfirst : ∀ k ∈ first, k < 0 + count) :
    Total (fun origin => origin.2 < count) (originOf dec scale xf start count first) := by
  have hpoint : ∀ k, start + k % count < dec.nPts := by
    intro k
    have hk := Nat.mod_lt k hcount
    omega
  cases first with
  | some k =>
    rw [originOf]
    refine (toPx_total hdec scale xf (hpoint k)).bind fun pt _ => .ok ?_
    have hk := hfirst k rfl
    omega
  | none =>
    rw [originOf]
    refine (toPx_total hdec scale xf (hpoint 0)).bind fun a _ => ?_
    exact (toPx_total hdec scale xf (hpoint 1)).bind fun b _ => .ok hcount

theorem contour_total (scale : F) (xf : Xf F) {start count : ℕ} (hcount : 0 < count)
    (hin : start + count ≤ dec.nPts) : Total (fun _ => True) (contour dec scale xf start count) := by
  have hpoint : ∀ k, start + k % count < dec.nPts := by
    intro k
    have hk := Nat.mod_lt k hcount
    omega
  have hn := hdec.nPts_le
  rw [contour]
  refine (firstOn_total hdec hcount hin count 0).bind fun first hfirst => ?_
  refine (originOf_total hdec scale xf hcount hin hfirst).bind fun origin hk => ?_
  have hpen : Total (fun _ : Pen F => True) ((List.range' 1 count).foldlM (fun pen step => do
      let k ← usize (origin.2 + step)
      let pt ← toPx dec scale xf (start + k % count)
      let on ← onCurve dec (start + k % count)
      penStep pen pt on) ⟨[origin.1], origin.1, none⟩) := by
    apply Meets.foldlM
    · trivial
    · intro step hstep pen _
      rw [List.mem_range'_1] at hstep
      refine (usize_total (by omega)).bind fun k _ => ?_
      refine (toPx_total hdec scale xf (hpoint k)).bind fun pt _ => ?_
      refine (onCurve_total hdec (hpoint k)).bind fun on _ => ?_
      exact penStep_total pen pt on
  refine hpen.bind fun pen _ => ?_
  split
  · exact (flattenQuad_total _ _ _).bind fun _ _ => .ok trivial
  · exact .ok trivial

theorem contourLoop_total (scale : F) (xf : Xf F) (ends : List ℕ) (start : ℕ)
    (out : List (Poly F)) : Total (fun _ => True) (contourLoop dec scale xf ends start out) := by
  induction ends generalizing start out with
  | nil => exact .ok trivial
  | cons stop ends ih =>
    rw [contourLoop]
    split
    · exact .ok trivial
    · split
      · exact ih _ _
      · refine (contour_total hdec scale xf (by omega) (by omega)).bind fun poly _ => ?_
        exact ih _ _

end Contours

section Outline

variable {F : Type} [F32 F] {d : List UInt8} (hd : d.length < 2 ^ 63)

include hd

theorem simpleContours_total {go nc : ℕ} (hgo : go < 2 ^ 33) (hnc : nc < 2 ^ 15) (scale : F)
    (xf : Xf F) (out : List (Poly F)) :
    Total (fun _ => True) (simpleContours d go nc scale xf out) :=
  orKeep_total (decodeSimple_safe hd hgo hnc) trivial fun _ hdec =>
    contourLoop_total hdec scale xf _ 0 out

theorem readArgs_total (flags : UInt16) {p : ℕ} (hp : p + 2 < 2 ^ 64) :
    Total (fun _ : F × F => True) (readArgs d flags p) := by
  rw [readArgs]
  split
  · refine (unwrapOr_total (rdI16_safe hd (by omega))).bind fun a _ => ?_
    exact (unwrapOr_total (rdI16_safe hd (by omega))).bind fun b _ => .ok trivial
  · refine (unwrapOr_total (rdU8_safe (by omega))).bind fun a _ => ?_
    exact (unwrapOr_total (rdU8_safe (by omega))).bind fun b _ => .ok trivial

theorem readOffset_total (flags : UInt16) {p : ℕ} (hp : p + 2 < 2 ^ 64) :
    Total (fun _ : F × F => True) (readOffset d flags p) := by
  rw [readOffset]
  exact (readArgs_total hd flags hp).bind fun args _ => .ok trivial

theorem f2_total {o : ℕ} (ho : o < 2 ^ 64) : Total (fun _ : F => True) (f2 d o) :=
  (unwrapOr_total (rdI16_safe hd ho)).bind fun _ _ => .ok trivial

theorem readScale_total (flags : UInt16) {p : ℕ} (hp : p + 6 < 2 ^ 64) :
    Total (fun _ : F × F × F × F => True) (readScale d flags p) := by
  have hf2 : ∀ o < 2 ^ 64, Total (fun _ : F => True) (f2 d o) := fun o ho => f2_total hd ho
  rw [readScale]
  split
  · exact (hf2 p (by omega)).bind fun s _ => .ok trivial
  split
  · refine (hf2 p (by omega)).bind fun sx _ => ?_
    exact (hf2 (p + 2) (by omega)).bind fun sy _ => .ok trivial
  split
  · refine (hf2 p (by omega)).bind fun a _ => ?_
    refine (hf2 (p + 2) (by omega)).bind fun b _ => ?_
    refine (hf2 (p + 4) (by omega)).bind fun c _ => ?_
    exact (hf2 (p + 6) (by omega)).bind fun dd _ => .ok trivial
  · exact .ok trivial

theorem readHead_safe {p : ℕ} (hp : p + 2 < 2 ^ 64) :
    Safe (fun _ => p + 1 < d.length) (readHead d p) := by
  rw [readHead]
  refine (rdU16_safe hd (by omega)).bind fun flags hlt => ?_
  exact (rdU16_safe hd (by omega)).bind fun child _ => .ok hlt

theorem compositeLoop_total {contours : UInt16 → Xf F → List (Poly F) → Run (List (Poly F))}
    (hchild : ∀ gid xf out, Total (fun _ => True) (contours gid xf out)) (xf : Xf F) {p : ℕ}
    (hp : p + 2 < 2 ^ 64) (out : List (Poly F)) :
    Total (fun _ => True) (compositeLoop contours d xf p out) := by
  induction hleft : d.length - p using Nat.strongRecOn generalizing p out with
  | ind left ih =>
    subst hleft
    have hhead := readHead_safe hd hp
    rw [compositeLoop]
    split
    · exact .ok trivial
    · rename_i herror
      exact absurd (hhead.refuses _ herror) (by decide)
    · rename_i head hok
      have hlt := hhead.returns _ hok
      have hoffset : offsetBytes head.1 ≤ 4 := by
        rw [offsetBytes]
        split <;> omega
      have hscale : scaleBytes head.1 ≤ 8 := by
        rw [scaleBytes]
        split_ifs <;> omega
      refine (readOffset_total hd head.1 (by omega)).bind fun offset _ => ?_
      refine (readScale_total hd head.1 (by omega)).bind fun m _ => ?_
      refine (usize_total (by omega)).bind fun next _ => ?_
      refine (hchild head.2 _ out).bind fun out _ => ?_
      split
      · exact .ok trivial
      · exact ih _ (by omega) (by omega) out rfl

theorem compositeContours_total {contours : UInt16 → Xf F → List (Poly F) → Run (List (Poly F))}
    (hchild : ∀ gid xf out, Total (fun _ => True) (contours gid xf out)) {go : ℕ}
    (hgo : go < 2 ^ 33) (xf : Xf F) (out : List (Poly F)) :
    Total (fun _ => True) (compositeContours contours d go xf out) := by
  rw [compositeContours]
  refine (usize_total (by omega)).bind fun p hp => ?_
  subst hp
  exact compositeLoop_total hd hchild xf (by omega) out

theorem contours_total {font : Font} (hfont : FontCmap.Parsed d font) (scale : F) (depth : ℕ)
    (gid : UInt16) (xf : Xf F) (out : List (Poly F)) :
    Total (fun _ => True) (contours font scale depth gid xf out) := by
  induction hlevels : 5 - depth using Nat.strongRecOn generalizing depth gid xf out with
  | ind levels ih =>
    subst hlevels
    rw [contours]
    split
    · exact .ok trivial
    · rename_i hdepth
      refine orKeep_total (glyphRange_safe hd hfont gid) trivial fun range hrange => ?_
      rw [hfont.data]
      refine orKeep_total (rdI16_safe hd (by omega)) trivial fun nContours _ => ?_
      have hlt := nContours.toInt_lt
      split
      · exact simpleContours_total hd hrange (by omega) scale xf out
      · apply compositeContours_total hd _ hrange
        intro child xf out
        exact ih (5 - (depth + 1)) (by omega) (depth + 1) child xf out rfl

end Outline

end AtomVibe.CheckedFont
