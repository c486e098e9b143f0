import AtomVibe.FairQueue
import AtomVibe.Foundations.WorkPool
import AtomVibe.Raster
import Mathlib.Algebra.BigOperators.Fin
import Mathlib.Analysis.SpecialFunctions.Exp
import Mathlib.Tactic.Linarith
import Mathlib.Tactic.Positivity
import Mathlib.Tactic.Ring

/-! The bloom of a frame, with its rows or tiles handed to one thread or to many. -/

namespace AtomVibe.Bloom

open Raster (Rgba)
open scoped Raster
open WorkPool CellGrid

section Dispatch

variable {ι τ σ : Type} [DecidableEq ι]

inductive Popped (cells : ℕ → List τ) (i : ι) (s : FairQueue.State ι ℕ) :
    Option (List τ) → FairQueue.State ι ℕ → Prop
  | got {t : ℕ} {s' : FairQueue.State ι ℕ} (pop : FairQueue.pop s i = some (.got t, s')) :
      Popped cells i s (some (cells t)) s'
  | drained {s' : FairQueue.State ι ℕ} (pop : FairQueue.pop s i = some (.drained, s')) :
      Popped cells i s none s'

/-- `cursor.fetch_add(chunk)`, and the rows from there on. -/
def Claimed (cells : ℕ → List τ) (count chunk : ℕ) (_ : ι) (start : ℕ) (given : Option (List τ))
    (next : ℕ) : Prop :=
  next = (start + chunk) % 2 ^ 64 ∧ given =
    if start < count then some ((List.range' start (min (start + chunk) count - start)).flatMap cells)
    else none

def Spent (_ : ι) (_ : Unit) (given : Option (List τ)) (_ : Unit) : Prop := given = none

/-- The queue once `count` tasks are pushed and it is sealed. -/
def filled (count : ℕ) : FairQueue.State ι ℕ := ⟨⟨List.range count, true⟩, false, ∅, ∅, 0⟩

def bandOf (cells : ℕ → List τ) (count per i : ℕ) : List τ :=
  (List.range' (i * per) (min ((i + 1) * per) count - i * per)).flatMap cells

inductive Dispatch
  | serial
  | fairQueue
  | atomic
  | band
  | atomicPool
  deriving DecidableEq

structure Crew where
  dispatch : Dispatch
  threads : ℕ
  chunk : ℕ
  bands : ℕ
  per : ℕ

/-- The memories that the tasks of `count` rows or tiles can leave. The barrier of `atomicPool` lets
no thread go on to the next pass before all are through with this one. -/
def Crew.Leaves (crew : Crew) (cells : ℕ → List τ) (count : ℕ) (act : τ → σ → σ)
    (memory memory' : σ) : Prop :=
  match crew.dispatch with
  | .serial => memory' = ((List.range count).flatMap cells).foldl (fun m task => act task m) memory
  | .fairQueue => Finished (Popped cells) act
      (⟨filled count, fun _ => [], ∅, memory⟩ : Pool (Fin crew.threads) _ τ σ) memory'
  | .atomic | .atomicPool => Finished (Claimed cells count crew.chunk) act
      (⟨0, fun _ => [], ∅, memory⟩ : Pool (Fin crew.threads) ℕ τ σ) memory'
  | .band => Finished Spent act
      (⟨(), fun i => bandOf cells count crew.per i, ∅, memory⟩ : Pool (Fin crew.bands) Unit τ σ) memory'

def Crew.counts (crew : Crew) : Prop := crew.dispatch = .atomic ∨ crew.dispatch = .atomicPool

structure Crew.Able (crew : Crew) (count : ℕ) : Prop where
  threads : 0 < crew.threads
  cursor : crew.counts → 0 < crew.chunk ∧ count + (crew.threads + 1) * crew.chunk < 2 ^ 64
  cover : crew.dispatch = .band → 0 < crew.bands ∧ count ≤ crew.bands * crew.per

variable (cells : ℕ → List τ) (count chunk : ℕ)

theorem queue_serves : Serves (Popped (ι := ι) cells) (fun s => s.inner.items.flatMap cells)
    (fun s => s.inner.items.length)
    fun _ s => s.inner.isSealed = true ∧ s.poisoned = false ∧ s.asleep = ∅ where
  hands := by
    rintro n i s s' tasks ⟨hsealed, hsound, hawake⟩ (⟨hpop⟩ | _)
    obtain ⟨-, -, -, hpoisoned, hsame, ⟨hne, -⟩ | ⟨item, hgot, hasleep, hitems⟩ |
      ⟨-, -, ⟨hne, -⟩ | ⟨hne, -⟩⟩⟩ := FairQueue.pop_spec hpop
    · exact absurd hne (by simp)
    · cases hgot
      rw [hitems, List.flatMap_cons, List.length_cons]
      exact ⟨rfl, Nat.lt_succ_self _, hsame.trans hsealed, hpoisoned.trans hsound, hasleep.trans hawake⟩
    · exact absurd hne (by simp)
    · exact absurd hne (by simp)
  sends := by
    rintro n i s s' ⟨hsealed, hsound, hawake⟩ (_ | ⟨hpop⟩)
    obtain ⟨-, -, -, hpoisoned, hsame, ⟨hne, -⟩ | ⟨item, hne, -⟩ |
      ⟨hitems, hitems', ⟨-, -, hasleep⟩ | ⟨hne, -⟩⟩⟩ := FairQueue.pop_spec hpop
    · exact absurd hne (by simp)
    · exact absurd hne (by simp)
    · rw [hitems, hitems']
      exact ⟨rfl, rfl, le_rfl, hsame.trans hsealed, hpoisoned.trans hsound, hasleep.trans hawake⟩
    · exact absurd hne (by simp)
  answers := by
    rintro n s i ⟨hsealed, hsound, hawake⟩
    cases hitems : s.inner.items with
    | nil => exact ⟨none, _, .drained (by simp [FairQueue.pop, hawake, hsound, hitems, hsealed]; rfl)⟩
    | cons t rest => exact ⟨_, _, .got (by simp [FairQueue.pop, hawake, hsound, hitems]; exact ⟨rfl, rfl⟩)⟩

theorem range'_split {start : ℕ} (h : start < count) : List.range' start (count - start) =
    List.range' start (min (start + chunk) count - start) ++
      List.range' (start + chunk) (count - (start + chunk)) := by
  have hlen : count - start = (min (start + chunk) count - start) + (count - (start + chunk)) := by
    omega
  rw [hlen, ← List.range'_append_1]
  by_cases hmin : start + chunk ≤ count
  · rw [min_eq_left hmin, Nat.add_sub_cancel_left]
  · rw [Nat.sub_eq_zero_of_le (not_le.mp hmin).le]
    rfl

omit [DecidableEq ι] in
theorem cursor_serves : Serves (Claimed (ι := ι) cells count chunk)
    (fun s => (List.range' s (count - s)).flatMap cells) (fun s => count - s)
    fun n s => 0 < chunk ∧ count + (n + 1) * chunk < 2 ^ 64 ∧
      (count ≤ s → s + n * chunk < 2 ^ 64) where
  hands := by
    rintro n i s s' tasks ⟨hchunk, hroom, -⟩ ⟨rfl, hgiven⟩
    by_cases hs : s < count
    · rw [if_pos hs, Option.some.injEq] at hgiven
      have hlarge : (n + 1 + 1) * chunk = (n + 1) * chunk + chunk := Nat.succ_mul _ _
      rw [Nat.mod_eq_of_lt (by omega), hgiven, range'_split count chunk hs, List.flatMap_append]
      exact ⟨rfl, by omega, hchunk, hroom, fun _ => by omega⟩
    · rw [if_neg hs] at hgiven
      exact absurd hgiven (by simp)
  sends := by
    rintro n i s s' ⟨hchunk, hroom, hlast⟩ ⟨rfl, hgiven⟩
    have hs : count ≤ s := by
      by_contra hs
      rw [if_pos (not_le.mp hs)] at hgiven
      exact absurd hgiven (by simp)
    have hnext := hlast hs
    rw [Nat.succ_mul] at hnext
    rw [Nat.succ_mul] at hroom
    rw [Nat.mod_eq_of_lt (by omega), Nat.sub_eq_zero_of_le hs, Nat.sub_eq_zero_of_le (by omega)]
    exact ⟨rfl, rfl, le_rfl, hchunk, by omega, fun _ => by omega⟩
  answers := fun i _ => ⟨_, _, rfl, rfl⟩

omit [DecidableEq ι] in
theorem spent_serves : Serves (Spent (ι := ι) (τ := τ)) (fun _ => []) (fun _ => 0)
    fun _ _ => True where
  hands _ given := absurd given (by simp [Spent])
  sends _ _ := ⟨rfl, rfl, le_rfl, trivial⟩
  answers _ _ := ⟨none, (), rfl⟩

theorem sum_bands (per bands : ℕ) : ∑ i : Fin bands, (bandOf cells count per i : Multiset τ) =
    (List.range (min (bands * per) count)).flatMap cells := by
  induction bands with
  | zero => simp
  | succ bands ih =>
    rw [Fin.sum_univ_castSucc]
    simp only [Fin.val_castSucc, Fin.val_last]
    rw [ih, bandOf, Multiset.coe_add, ← List.flatMap_append]
    congr 2
    have hlast : (bands + 1) * per = bands * per + per := Nat.succ_mul _ _
    rcases le_or_gt (bands * per) count with hmin | hmin
    · have hjoined : List.range' 0 (bands * per) ++ List.range' (0 + bands * per)
          (min ((bands + 1) * per) count - bands * per) = _ := List.range'_append_1
      rw [Nat.zero_add, Nat.add_sub_cancel' (by omega)] at hjoined
      rw [min_eq_left hmin, List.range_eq_range', List.range_eq_range', hjoined]
    · rw [min_eq_right hmin.le, min_eq_right (by omega), Nat.sub_eq_zero_of_le hmin.le]
      exact List.append_nil _

/-- However the work is shared out and interleaved, it leaves what one thread leaves. -/
theorem Crew.leaves_iff {crew : Crew} (hcrew : crew.Able count) {act : τ → σ → σ}
    (hcomm : ∀ s ∈ (List.range count).flatMap cells, ∀ t ∈ (List.range count).flatMap cells, s ≠ t →
      ∀ m, act s (act t m) = act t (act s m)) {memory memory' : σ} :
    crew.Leaves cells count act memory memory' ↔
      memory' = ((List.range count).flatMap cells).foldl (fun m task => act task m) memory := by
  obtain ⟨hthreads, hcursor, hcover⟩ := hcrew
  have : Nonempty (Fin crew.threads) := ⟨⟨0, hthreads⟩⟩
  have hatomic : crew.counts → (Finished (Claimed cells count crew.chunk) act
      (⟨0, fun _ => [], ∅, memory⟩ : Pool (Fin crew.threads) ℕ τ σ) memory' ↔ memory' =
        ((List.range count).flatMap cells).foldl (fun m task => act task m) memory) := by
    intro hcounts
    obtain ⟨hchunk, hroom⟩ := hcursor hcounts
    refine finished_iff (cursor_serves cells count crew.chunk) ⟨by simp, by simp, ?_⟩ ?_ hcomm
    · simp only [Finset.sdiff_empty, Finset.card_univ, Fintype.card_fin]
      exact ⟨hchunk, hroom, fun h => by rw [Nat.succ_mul] at hroom; omega⟩
    · simp [Pool.pending, List.range_eq_range']
  unfold Leaves
  cases hdispatch : crew.dispatch with
  | serial => exact Iff.rfl
  | fairQueue =>
    refine finished_iff (queue_serves cells) ⟨by simp, by simp, rfl, rfl, rfl⟩ ?_ hcomm
    simp [Pool.pending, filled]
  | atomic => exact hatomic (.inl hdispatch)
  | atomicPool => exact hatomic (.inr hdispatch)
  | band =>
    obtain ⟨hbands, hroom⟩ := hcover hdispatch
    have : Nonempty (Fin crew.bands) := ⟨⟨0, hbands⟩⟩
    refine finished_iff spent_serves ⟨by simp, fun _ => rfl, trivial⟩ ?_ hcomm
    rw [Pool.pending, sum_bands, min_eq_right hroom]
    simp

end Dispatch

section Passes

variable {K : Type} [Field K] [LinearOrder K]

def luminance (c : Rgba K) : K := 299 / 1000 * c.r + 587 / 1000 * c.g + 114 / 1000 * c.b

def bright (threshold : K) (c : Rgba K) : Rgba K :=
  let l := luminance c
  if threshold < l then
    let s := (l - threshold) / l
    ⟨c.r * s, c.g * s, c.b * s, 1⟩
  else .transparent

def scaled (c : Rgba K) (wt : K) : Rgba K := ⟨c.r * wt, c.g * wt, c.b * wt, 1⟩

def addPair (sum : Rgba K) (pair : Rgba K × Rgba K) (wt : K) : Rgba K :=
  ⟨sum.r + (pair.1.r + pair.2.r) * wt, sum.g + (pair.1.g + pair.2.g) * wt,
    sum.b + (pair.1.b + pair.2.b) * wt, sum.a⟩

def weigh (kernel : List K) (center : Option (Rgba K)) (pair : ℕ → Option (Rgba K × Rgba K)) :
    Option (Rgba K) := do
  let k0 ← kernel[0]?
  let c ← center
  (kernel.tail.zipIdx 1).foldlM (fun sum (wt, k) => do return addPair sum (← pair k) wt) (scaled c k0)

def lanes (c : Rgba K) (wt : K) : Rgba K := ⟨c.r * wt, c.g * wt, c.b * wt, c.a * wt⟩

def addLanes (acc : Rgba K) (pair : Rgba K × Rgba K) (wt : K) : Rgba K :=
  ⟨acc.r + (pair.1.r + pair.2.r) * wt, acc.g + (pair.1.g + pair.2.g) * wt,
    acc.b + (pair.1.b + pair.2.b) * wt, acc.a + (pair.1.a + pair.2.a) * wt⟩

def weighSimd (kernel : List K) (center : Option (Rgba K)) (pair : ℕ → Option (Rgba K × Rgba K)) :
    Option (Rgba K) := do
  let c ← center
  let k0 ← kernel[0]?
  let acc ← (List.range' 1 (kernel.length - 1)).foldlM
    (fun acc k => do return addLanes acc (← pair k) (← kernel[k]?)) (lanes c k0)
  return { acc with a := 1 }

inductive Arith
  | scalar
  | simd
  deriving DecidableEq

def Arith.weigh (arith : Arith) (kernel : List K) (center : Option (Rgba K))
    (pair : ℕ → Option (Rgba K × Rgba K)) : Option (Rgba K) :=
  match arith with
  | .scalar => Bloom.weigh kernel center pair
  | .simd => weighSimd kernel center pair

def isBlack (c : Rgba K) : Prop := c.r = 0 ∧ c.g = 0 ∧ c.b = 0

instance (c : Rgba K) : Decidable (isBlack c) := inferInstanceAs (Decidable (_ ∧ _))

def added (base v : Rgba K) : Rgba K :=
  ⟨min (base.r + v.r) 1, min (base.g + v.g) 1, min (base.b + v.b) 1, base.a⟩

def composite (base v : Rgba K) : Rgba K := if 0 < v.r ∨ 0 < v.g ∨ 0 < v.b then added base v else base

abbrev Buffer (K : Type) := Option (List (Rgba K))

def flat (w : ℕ) (cell : ℕ × ℕ) : Option ℕ := some (cell.2 * w + cell.1)

def read (buffer : Buffer K) (w x y : ℕ) : Option (Rgba K) := do (← buffer)[y * w + x]?

def rowCells (w row : ℕ) : List (ℕ × ℕ) := (List.range w).map fun x => (x, row)

def blank (size : ℕ) : Buffer K := some (List.replicate size .transparent)

/-! `bloom`: the indices are of 32 bits with a sign. -/

def i32 (n : ℤ) : Option ℤ := if -2147483648 ≤ n ∧ n < 2147483648 then some n else none

def asI32 (n : ℕ) : ℤ := (n : ℤ).bmod (4294967296)

/-- `(y * w + x) as usize`; a negative number is no index of a buffer. -/
def index32 (w x y : ℤ) : Option ℕ := do
  let row ← i32 (y * w)
  let i ← i32 (row + x)
  if 0 ≤ i then some i.toNat else none

def pair32 (look : ℤ → Option (Rgba K)) (size n : ℤ) (k : ℕ) : Option (Rgba K × Rgba K) := do
  let before ← i32 (n - asI32 k)
  let behind ← i32 (n + asI32 k)
  return (← look (max before 0), ← look (min behind (size - 1)))

def look32 (src : List (Rgba K)) (w x y : ℤ) : Option (Rgba K) := do src[← index32 w x y]?

def everyCell (w h : ℕ) : List (ℕ × ℕ) := (List.range h).flatMap (rowCells w)

def run (w h : ℕ) (act : ℕ × ℕ → Buffer K → Buffer K) (start : Buffer K) : Buffer K :=
  (everyCell w h).foldl (fun b cell => act cell b) start

def blurH (src : List (Rgba K)) (w h : ℕ) (kernel : List K) :
    Option (List (Rgba K)) :=
  let w' := asI32 w
  run w h (change (fun cell => index32 w' cell.1 cell.2) fun cell _ =>
    weigh kernel (look32 src w' cell.1 cell.2)
      (pair32 (fun x => look32 src w' x cell.2) w' cell.1)) (blank (w * h))

def blurV (src : List (Rgba K)) (w h : ℕ) (kernel : List K) :
    Option (List (Rgba K)) :=
  let w' := asI32 w
  run w h (change (fun cell => index32 w' cell.1 cell.2) fun cell _ =>
    weigh kernel (look32 src w' cell.1 cell.2)
      (pair32 (fun y => look32 src w' cell.1 y) (asI32 h) cell.2)) (blank (w * h))

/-- The weights of `gaussian_kernel`, for any function in the place of `exp`. -/
def gaussianKernel (exp : K → K) (sigma : K) (radius : ℕ) : List K :=
  let k := (List.range (radius + 1)).map fun i => exp (-(i * i) / (2 * sigma * sigma))
  let total := k.headD 0 + 2 * k.tail.sum
  k.map (· / total)

def bloom (exp : K → K) (w h : ℕ) (pixels : List (Rgba K)) (threshold sigma : K) (radius : ℕ) :
    Option (List (Rgba K)) := do
  let kernel := gaussianKernel exp sigma radius
  let hBlur ← blurH (pixels.map (bright threshold)) w h kernel
  let vBlur ← blurV hBlur w h kernel
  run w h (change (flat w) fun cell base => do
    let b ← vBlur[cell.2 * w + cell.1]?
    return if isBlack b then base else added base b) (some pixels)

def pairOf (look : ℕ → Option (Rgba K)) (size n k : ℕ) : Option (Rgba K × Rgba K) := do
  return (← look (n - k), ← look (min (n + k) (size - 1)))

def hblurAt (arith : Arith) (kernel : List K) (src : Buffer K) (w : ℕ) (cell : ℕ × ℕ) :
    Option (Rgba K) :=
  arith.weigh kernel (read src w cell.1 cell.2) (pairOf (fun x => read src w x cell.2) w cell.1)

def vblurAt (arith : Arith) (kernel : List K) (src : Buffer K) (w h : ℕ) (cell : ℕ × ℕ) :
    Option (Rgba K) :=
  arith.weigh kernel (read src w cell.1 cell.2) (pairOf (fun y => read src w cell.1 y) h cell.2)

def Separable (crew : Crew) (arith : Arith) (w h : ℕ) (orig : List (Rgba K)) (kernel : List K)
    (first : ℕ × ℕ → Rgba K → Option (Rgba K)) (result : Buffer K) : Prop :=
  ∃ brightened hblur : Buffer K,
    crew.Leaves (rowCells w) h (change (flat w) first) (blank (w * h)) brightened ∧
    crew.Leaves (rowCells w) h (change (flat w) fun cell _ => hblurAt arith kernel brightened w cell)
      (blank (w * h)) hblur ∧
    crew.Leaves (rowCells w) h (change (flat w) fun cell _ => do
      let v ← vblurAt arith kernel hblur w h cell
      return composite (← read (some orig) w cell.1 cell.2) v) (some orig) result

/-- The first pass of `bloom_parallel` leaves the other pixels as they are. -/
def brightIn (orig : List (Rgba K)) (w : ℕ) (threshold : K) (cell : ℕ × ℕ) (old : Rgba K) :
    Option (Rgba K) := do
  let c ← read (some orig) w cell.1 cell.2
  return if threshold < luminance c then bright threshold c else old

def brightRow (orig : List (Rgba K)) (w : ℕ) (threshold : K) (cell : ℕ × ℕ) (_ : Rgba K) :
    Option (Rgba K) := do
  return bright threshold (← read (some orig) w cell.1 cell.2)

structure Tile where
  tx : ℕ
  ty : ℕ
  tw : ℕ
  th : ℕ

def divCeil (a b : ℕ) : ℕ := (a + b - 1) / b

def runTile (w h tile t : ℕ) : Tile :=
  let ntx := divCeil w tile
  let tx := t % ntx * tile
  let ty := t / ntx * tile
  ⟨tx, ty, min tile (w - tx), min tile (h - ty)⟩

def halo (ty r j : ℕ) : Option ℤ := do
  let edge ← i32 (asI32 ty - asI32 r)
  i32 (edge + asI32 j)

def clampIdx (v : ℤ) (n : ℕ) : Option ℕ := do
  let last ← i32 (asI32 n - 1)
  if 0 ≤ last then some (max 0 (min v last)).toNat else none

def edge (ty r j n : ℕ) : Option ℕ := do clampIdx (← halo ty r j) n

/-- What the tiles before have left in it is written over. -/
structure Scratch (K : Type) where
  bright : List (Rgba K)
  hblur : List (Rgba K)

/-- The scratch buffers of a thread are made for a whole tile, if their sizes do not run over. -/
structure Scratch.Fits (tile radius : ℕ) (scratch : Scratch K) : Prop where
  bright : scratch.bright.length = (tile + 2 * radius) * (tile + 2 * radius) % 2 ^ 64
  hblur : scratch.hblur.length = (tile + 2 * radius) * tile % 2 ^ 64

section Tiles

variable (orig : List (Rgba K)) (w h : ℕ) (threshold : K) (kernel : List K) (radius : ℕ)

def tileBright (tile : Tile) (scratch : List (Rgba K)) : Buffer K :=
  let rw := tile.tw + 2 * radius
  run rw (tile.th + 2 * radius) (change (flat rw) fun cell _ => do
    let gy ← edge tile.ty radius cell.2 h
    let gx ← edge tile.tx radius cell.1 w
    return bright threshold (← orig[gy * w + gx]?)) (some scratch)

def around (look : ℕ → Option (Rgba K)) (n k : ℕ) : Option (Rgba K × Rgba K) := do
  return (← look (n - k), ← look (n + k))

def tileHblur (tile : Tile) (bright : Buffer K) (scratch : List (Rgba K)) : Buffer K :=
  let rw := tile.tw + 2 * radius
  run tile.tw (tile.th + 2 * radius) (change (flat tile.tw) fun cell _ =>
    weigh kernel (read bright rw (cell.1 + radius) cell.2)
      (around (fun x => read bright rw x cell.2) (cell.1 + radius))) (some scratch)

def tileOut (tile : Tile) (hblur : Buffer K) (cell : ℕ × ℕ) : Option (Rgba K) := do
  let v ← weigh kernel (read hblur tile.tw cell.1 (cell.2 + radius))
    (around (fun y => read hblur tile.tw cell.1 y) (cell.2 + radius))
  let base ← orig[(tile.ty + cell.2) * w + tile.tx + cell.1]?
  return composite base v

/-- The output pixels of a tile. The first two passes are over before the thread comes to them, and
all they write is its own. -/
def tileCompute (scratch : Scratch K) (tile : Tile) (cell : ℕ × ℕ) : Option (Rgba K) :=
  tileOut orig w kernel radius tile (tileHblur kernel radius tile
    (tileBright orig w h threshold radius tile scratch.bright) scratch.hblur) cell

def tileCells (tile t : ℕ) : List (ℕ × ℕ × ℕ) :=
  let block := runTile w h tile t
  (everyCell block.tw block.th).map fun cell => (t, cell)

def place (tile : ℕ) (task : ℕ × ℕ × ℕ) : ℕ × ℕ :=
  let block := runTile w h tile task.1
  (block.tx + task.2.1, block.ty + task.2.2)

/-- One pass over the tiles, whatever each of them finds in its scratch buffers. -/
def Tiled (crew : Crew) (tile : ℕ) (result : Buffer K) : Prop :=
  ∃ scratch : ℕ → Scratch K, (∀ t, (scratch t).Fits tile radius) ∧
    crew.Leaves (tileCells w h tile) (divCeil w tile * divCeil h tile)
      (change (fun task => flat w (place w h tile task)) fun task _ =>
        tileCompute orig w h threshold kernel radius (scratch task.1) (runTile w h tile task.1) task.2)
      (some orig) result

end Tiles

inductive Structure
  | separable
  | tiledFused
  deriving DecidableEq

structure Strategy where
  dispatch : Dispatch
  «structure» : Structure
  arith : Arith
  chunk : ℕ
  tile : ℕ

def Strategy.new (dispatch : Dispatch) («structure» : Structure) (arith : Arith) : Strategy :=
  ⟨dispatch, «structure», arith, 16, 64⟩

namespace Strategy

variable (strat : Strategy) (n w h : ℕ)

/-- `chunks_mut` cuts the buffer into bands of that many rows. -/
def rowCrew : Crew :=
  let band := max (divCeil h n) 1
  ⟨strat.dispatch, n, max strat.chunk 1, divCeil h band, band⟩

def tileCount : ℕ := divCeil w (max strat.tile 1) * divCeil h (max strat.tile 1)

def tileCrew : Crew :=
  ⟨strat.dispatch, n, max strat.chunk 1, n, max (divCeil (strat.tileCount w h) n) 1⟩

/-- No `usize` runs over: not the cursor, whatever the threads add to it, nor the size of a scratch
buffer. -/
structure Roomy (radius : ℕ) : Prop where
  rows : strat.structure = .separable → h + (n + 1) * max strat.chunk 1 < 2 ^ 64
  tiles : strat.structure = .tiledFused →
    strat.tileCount w h + (n + 1) * max strat.chunk 1 < 2 ^ 64 ∧
      (max strat.tile 1 + 2 * radius) * (max strat.tile 1 + 2 * radius) < 2 ^ 64

end Strategy

def BloomParallel (exp : K → K) (n w h : ℕ) (orig : List (Rgba K)) (threshold sigma : K) (radius : ℕ)
    (result : Buffer K) : Prop :=
  Separable ⟨.fairQueue, n, 1, 1, h⟩ .scalar w h orig (gaussianKernel exp sigma radius)
    (brightIn orig w threshold) result

def BloomWith (exp : K → K) (strat : Strategy) (n w h : ℕ) (orig : List (Rgba K)) (threshold sigma : K)
    (radius : ℕ) (result : Buffer K) : Prop :=
  if w = 0 ∨ h = 0 then result = some orig
  else
    let kernel := gaussianKernel exp sigma radius
    match strat.structure with
    | .separable => Separable (strat.rowCrew n h) strat.arith w h orig kernel
        (brightRow orig w threshold) result
    | .tiledFused => Tiled orig w h threshold kernel radius (strat.tileCrew n w h) (max strat.tile 1) result

def weighed (kernel : List K) (c : Rgba K) (pair : ℕ → Rgba K × Rgba K) : Rgba K :=
  (kernel.tail.zipIdx 1).foldl (fun sum p => addPair sum (pair p.2) p.1) (scaled c (kernel.headD 0))

def across (kernel : List K) (w : ℕ) (f : ℕ → ℕ → Rgba K) (x y : ℕ) : Rgba K :=
  weighed kernel (f x y) fun k => (f (x - k) y, f (min (x + k) (w - 1)) y)

def down (kernel : List K) (h : ℕ) (f : ℕ → ℕ → Rgba K) (x y : ℕ) : Rgba K :=
  weighed kernel (f x y) fun k => (f x (y - k), f x (min (y + k) (h - 1)))

def blurred (kernel : List K) (w h : ℕ) (threshold : K) (f : ℕ → ℕ → Rgba K) : ℕ → ℕ → Rgba K :=
  down kernel h (across kernel w fun x y => bright threshold (f x y))

end Passes

section Shows

variable {K : Type} {w h : ℕ} {b : List (Rgba K)} {f g : ℕ → ℕ → Rgba K}

theorem mem_everyCell {w h : ℕ} {cell : ℕ × ℕ} :
    cell ∈ everyCell w h ↔ cell.1 < w ∧ cell.2 < h := by
  simp only [everyCell, rowCells, List.mem_flatMap, List.mem_map, List.mem_range]
  constructor
  · rintro ⟨y, hy, x, hx, rfl⟩
    exact ⟨hx, hy⟩
  · rintro ⟨hx, hy⟩
    exact ⟨cell.2, hy, cell.1, hx, rfl⟩

theorem nodup_everyCell (w h : ℕ) : (everyCell w h).Nodup := by
  rw [everyCell, List.nodup_flatMap]
  refine ⟨fun y _ => List.nodup_range.map fun x x' hx => (Prod.mk.inj hx).1, ?_⟩
  refine List.nodup_range.imp fun hne cell hcell hcell' => ?_
  simp only [rowCells, List.mem_map] at hcell hcell'
  obtain ⟨x, -, rfl⟩ := hcell
  obtain ⟨x', -, hx'⟩ := hcell'
  exact hne (Prod.mk.inj hx').2.symm

theorem run_shows (index : ℕ × ℕ → Option ℕ) (value : ℕ × ℕ → Rgba K → Option (Rgba K))
    (hb : Shows w h f b) (hindex : ∀ x y, x < w → y < h → index (x, y) = some (y * w + x))
    (hvalue : ∀ x y, x < w → y < h → value (x, y) (f x y) = some (g x y)) :
    ∃ b', run w h (change index value) (some b) = some b' ∧ b'.length = b.length ∧ Shows w h g b' := by
  have hmem : ∀ cell ∈ everyCell w h, cell.1 < w ∧ cell.2 < h := fun _ => mem_everyCell.mp
  obtain ⟨b', hb', hlength, hshows⟩ := foldl_change (g := g) index value id
    (by simpa using nodup_everyCell w h) hmem
    (fun cell hcell => hindex _ _ (hmem cell hcell).1 (hmem cell hcell).2)
    (fun cell hcell => hvalue _ _ (hmem cell hcell).1 (hmem cell hcell).2) hb
  refine ⟨b', hb', hlength, hshows.congr fun x y hx hy => ?_⟩
  rw [List.map_id, if_pos (mem_everyCell.mpr ⟨hx, hy⟩)]

theorem leaves_run {crew : Crew} (hcrew : crew.Able h)
    {value : ℕ × ℕ → Rgba K → Option (Rgba K)} {m m' : Buffer K} :
    crew.Leaves (rowCells w) h (change (flat w) value) m m' ↔
      m' = run w h (change (flat w) value) m := by
  refine Crew.leaves_iff (rowCells w) h hcrew fun s hs t ht hne m => change_comm ?_ m
  intro i hi hi'
  have hs' := mem_everyCell.mp hs
  have ht' := mem_everyCell.mp ht
  rw [flat, Option.some.injEq] at hi hi'
  exact hne (cell_inj hs'.1 ht'.1 (hi.trans hi'.symm))

theorem read_eq (hb : Shows w h f b) {x y : ℕ} (hx : x < w) (hy : y < h) :
    read (some b) w x y = some (f x y) := hb.cell x y hx hy

theorem shows_map (F : Rgba K → Rgba K) (hb : Shows w h f b) :
    Shows w h (fun x y => F (f x y)) (b.map F) :=
  ⟨by rw [List.length_map]; exact hb.room, fun x y hx hy => by rw [List.getElem?_map, hb.cell x y hx hy]; rfl⟩

theorem shows_pixels [Zero K] (hroom : b.length = w * h) : ∃ f, Shows w h f b :=
  have : Nonempty (Rgba K) := ⟨⟨0, 0, 0, 0⟩⟩
  exists_shows hroom.ge

theorem i32_eq {n : ℤ} (hlow : -2147483648 ≤ n) (hhigh : n < 2147483648) : i32 n = some n := if_pos ⟨hlow, hhigh⟩

theorem asI32_eq {n : ℕ} (h : n < 2147483648) : asI32 n = n := by
  unfold asI32
  rw [Int.bmod_eq_of_le] <;> omega

theorem index32_of {w x y : ℤ} (hrow : 0 ≤ y * w) (hx : 0 ≤ x) (hlt : y * w + x < 2147483648) :
    index32 w x y = some (y * w + x).toNat := by
  have hlow : (-2147483648 : ℤ) ≤ 0 := by norm_num
  rw [index32, i32_eq (hlow.trans hrow) (lt_of_le_of_lt (le_add_of_nonneg_right hx) hlt)]
  simp only [Option.bind_eq_bind, Option.bind_some]
  rw [i32_eq (hlow.trans (add_nonneg hrow hx)) hlt, Option.bind_some, if_pos (add_nonneg hrow hx)]

theorem index32_eq (hsize : w * h ≤ 2147483648) {x y : ℕ} (hx : x < w) (hy : y < h) :
    index32 w x y = some (y * w + x) := by
  have hlt : ((y * w + x : ℕ) : ℤ) < 2147483648 := by
    exact_mod_cast (cell_lt hx hy).trans_le hsize
  have hcast : ((y * w + x : ℕ) : ℤ) = (y : ℤ) * w + x := by push_cast; rfl
  rw [index32_of (mul_nonneg (Int.natCast_nonneg y) (Int.natCast_nonneg w)) (Int.natCast_nonneg x)
    (hcast ▸ hlt), ← hcast, Int.toNat_natCast]

theorem look32_eq (hsize : w * h ≤ 2147483648) (hb : Shows w h f b) {x y : ℕ} (hx : x < w) (hy : y < h) :
    look32 b w x y = some (f x y) := by
  rw [look32, index32_eq hsize hx hy]
  exact hb.cell x y hx hy

theorem pair32_eq {look : ℤ → Option (Rgba K)} {p : ℕ → Rgba K} {size n k : ℕ}
    (hlook : ∀ m < size, look m = some (p m)) (hn : n < size) (hroom : size + k ≤ 2147483648) :
    pair32 look size n k = some (p (n - k), p (min (n + k) (size - 1))) := by
  have hbefore : max ((n : ℤ) - k) 0 = (n - k : ℕ) := by omega
  have hbehind : min ((n : ℤ) + k) (size - 1) = (min (n + k) (size - 1) : ℕ) := by omega
  rw [pair32, asI32_eq (by omega), i32_eq (by omega) (by omega), i32_eq (by omega) (by omega)]
  simp only [Option.bind_eq_bind, Option.bind_some, hbefore, hbehind, hlook _ (show n - k < size by omega),
    hlook _ (show min (n + k) (size - 1) < size by omega)]
  rfl

theorem halo_eq {ty r j : ℕ} (h : ty + j < 2147483648) (hr : r < 2147483648) :
    halo ty r j = some ((ty : ℤ) - r + j) := by
  rw [halo, asI32_eq (by omega), asI32_eq hr, asI32_eq (by omega), i32_eq (by omega) (by omega)]
  exact i32_eq (by omega) (by omega)

theorem edge_eq {ty r j n : ℕ} (hn : 0 < n) (hsmall : n < 2147483648) (h : ty + j < 2147483648)
    (hr : r < 2147483648) : edge ty r j n = some (min (ty + j - r) (n - 1)) := by
  rw [edge, halo_eq h hr, Option.bind_eq_bind, Option.bind_some, clampIdx, asI32_eq hsmall, i32_eq (by omega) (by omega), Option.bind_eq_bind, Option.bind_some,
    if_pos (by omega)]
  congr 1
  omega

/-- The frame and the kernel are small enough for indices of 32 bits. -/
structure InReach (w h radius : ℕ) : Prop where
  size : w * h ≤ 2147483648
  width : w + 2 * (radius + 1) ≤ 2147483648
  height : h + 2 * (radius + 1) ≤ 2147483648

structure Tile.Inside (tile : Tile) (w h : ℕ) : Prop where
  right : tile.tx + tile.tw ≤ w
  low : tile.ty + tile.th ≤ h

theorem runTile_inside {tile t i j : ℕ} (hi : i < (runTile w h tile t).tw)
    (hj : j < (runTile w h tile t).th) : (runTile w h tile t).Inside w h := by
  simp only [runTile] at hi hj
  constructor <;> simp only [runTile] <;> omega

theorem mem_tileCells {tile count : ℕ} {task : ℕ × ℕ × ℕ} :
    task ∈ (List.range count).flatMap (tileCells w h tile) ↔ task.1 < count ∧
      task.2.1 < (runTile w h tile task.1).tw ∧ task.2.2 < (runTile w h tile task.1).th := by
  simp only [tileCells, List.mem_flatMap, List.mem_map, List.mem_range, mem_everyCell]
  constructor
  · rintro ⟨t, ht, cell, hcell, rfl⟩
    exact ⟨ht, hcell⟩
  · rintro ⟨ht, hcell⟩
    exact ⟨task.1, ht, task.2, hcell, rfl⟩

theorem nodup_tileCells (tile count : ℕ) :
    ((List.range count).flatMap (tileCells w h tile)).Nodup := by
  rw [List.nodup_flatMap]
  refine ⟨fun t _ => (nodup_everyCell _ _).map fun cell cell' h => (Prod.mk.inj h).2, ?_⟩
  refine List.nodup_range.imp fun hne task htask htask' => ?_
  simp only [tileCells, List.mem_map] at htask htask'
  obtain ⟨cell, -, rfl⟩ := htask
  obtain ⟨cell', -, hcell⟩ := htask'
  exact hne (Prod.mk.inj hcell).1.symm

theorem place_inj {tile : ℕ} {task task' : ℕ × ℕ × ℕ}
    (hx : task.2.1 < tile) (hy : task.2.2 < tile) (hx' : task'.2.1 < tile) (hy' : task'.2.2 < tile)
    (hplace : place w h tile task = place w h tile task') : task = task' := by
  obtain ⟨t, i, j⟩ := task
  obtain ⟨t', i', j'⟩ := task'
  simp only [place, runTile, Prod.mk.injEq] at hplace
  obtain ⟨rfl, hcol⟩ := Prod.mk.inj (cell_inj hx hx' hplace.1)
  obtain ⟨rfl, hrow⟩ := Prod.mk.inj (cell_inj hy hy' hplace.2)
  rw [← Nat.div_add_mod t (divCeil w tile), hcol, hrow, Nat.div_add_mod]

theorem div_lt_divCeil {x n tile : ℕ} (htile : 0 < tile) (hx : x < n) : x / tile < divCeil n tile := by
  have hle := Nat.div_mul_le_self x tile
  rw [divCeil, Nat.lt_iff_add_one_le, Nat.le_div_iff_mul_le htile, Nat.add_one_mul]
  omega

theorem le_divCeil_mul {per : ℕ} (hper : 0 < per) (n : ℕ) : n ≤ divCeil n per * per := by
  have hdiv := Nat.div_add_mod' (n + per - 1) per
  have hmod := Nat.mod_lt (n + per - 1) hper
  rw [divCeil]
  omega

theorem place_surj {tile x y : ℕ} (htile : 0 < tile) (hx : x < w) (hy : y < h) :
    ∃ task ∈ (List.range (divCeil w tile * divCeil h tile)).flatMap (tileCells w h tile),
      place w h tile task = (x, y) := by
  have hcol := div_lt_divCeil htile hx
  have hrow := div_lt_divCeil htile hy
  have hx' := Nat.div_add_mod' x tile
  have hy' := Nat.div_add_mod' y tile
  have hxmod := Nat.mod_lt x htile
  have hymod := Nat.mod_lt y htile
  have hmod : (y / tile * divCeil w tile + x / tile) % divCeil w tile = x / tile :=
    Nat.mul_add_mod_of_lt hcol
  have hdiv : (y / tile * divCeil w tile + x / tile) / divCeil w tile = y / tile := by
    rw [Nat.mul_comm, Nat.mul_add_div (Nat.zero_lt_of_lt hcol), Nat.div_eq_of_lt hcol, Nat.add_zero]
  refine ⟨(y / tile * divCeil w tile + x / tile, x % tile, y % tile), mem_tileCells.mpr ⟨?_, ?_, ?_⟩, ?_⟩
  · exact cell_lt hcol hrow
  · simp only [runTile, hmod]
    omega
  · simp only [runTile, hdiv]
    omega
  · simp only [place, runTile, hmod, hdiv, hx', hy']

variable [Field K]

theorem weigh_eq {kernel : List K} (hkernel : kernel ≠ []) {center : Option (Rgba K)} {c : Rgba K}
    (hc : center = some c) {look : ℕ → Option (Rgba K × Rgba K)} {pair : ℕ → Rgba K × Rgba K}
    (hpair : ∀ k, 0 < k → k < kernel.length → look k = some (pair k)) :
    weigh kernel center look = some (weighed kernel c pair) := by
  have hsum : ∀ (terms : List (K × ℕ)) (sum : Rgba K), (∀ p ∈ terms, look p.2 = some (pair p.2)) →
      terms.foldlM (fun sum p => do return addPair sum (← look p.2) p.1) sum =
        some (terms.foldl (fun sum p => addPair sum (pair p.2) p.1) sum) := by
    intro terms
    induction terms with
    | nil => exact fun _ _ => rfl
    | cons p terms ih =>
      intro sum hterms
      rw [List.foldlM_cons, hterms p (by simp)]
      exact ih _ fun q hq => hterms q (by simp [hq])
  cases kernel with
  | nil => exact absurd rfl hkernel
  | cons k0 weights =>
    rw [weigh, hc]
    refine hsum _ _ fun p hp => ?_
    obtain ⟨hlow, hhigh, -⟩ := List.mem_zipIdx hp
    exact hpair p.2 hlow (by simpa [Nat.add_comm] using hhigh)

theorem weighSimd_eq (kernel : List K) (center : Option (Rgba K))
    (pair : ℕ → Option (Rgba K × Rgba K)) : weighSimd kernel center pair = weigh kernel center pair := by
  have hsum : ∀ (weights : List K) (k : ℕ) (acc : Rgba K), (∀ i, kernel[k + i]? = weights[i]?) →
      ((List.range' k weights.length).foldlM
        (fun acc k => do return addLanes acc (← pair k) (← kernel[k]?)) acc).map
          (fun acc : Rgba K => { acc with a := 1 }) =
        (weights.zipIdx k).foldlM (fun sum p => do return addPair sum (← pair p.2) p.1)
          { acc with a := 1 } := by
    intro weights
    induction weights with
    | nil => exact fun _ _ _ => rfl
    | cons wt weights ih =>
      intro k acc hweights
      have hwt : kernel[k]? = some wt := hweights 0
      rw [List.length_cons, List.range'_succ, List.zipIdx_cons, List.foldlM_cons, List.foldlM_cons, hwt]
      cases hpair : pair k with
      | none => rfl
      | some p =>
        refine ih (k + 1) (addLanes acc p wt) fun i => ?_
        rw [Nat.add_assoc, Nat.add_comm 1 i]
        exact hweights (i + 1)
  cases kernel with
  | nil => cases center <;> rfl
  | cons k0 weights =>
    cases center with
    | none => rfl
    | some c =>
      refine Eq.trans ?_ (hsum weights 1 (lanes c k0) fun i => ?_)
      · rw [Option.map_eq_bind]
        rfl
      · rw [Nat.add_comm]
        rfl

theorem Arith.weigh_eq (arith : Arith) {kernel : List K} (hkernel : kernel ≠ [])
    {center : Option (Rgba K)} {c : Rgba K} (hc : center = some c)
    {look : ℕ → Option (Rgba K × Rgba K)} {pair : ℕ → Rgba K × Rgba K}
    (hpair : ∀ k, 0 < k → k < kernel.length → look k = some (pair k)) :
    arith.weigh kernel center look = some (weighed kernel c pair) := by
  cases arith with
  | scalar => exact Bloom.weigh_eq hkernel hc hpair
  | simd => exact (weighSimd_eq kernel center look).trans (Bloom.weigh_eq hkernel hc hpair)

theorem hblurAt_eq (arith : Arith) {kernel : List K} (hkernel : kernel ≠ []) (hb : Shows w h f b) {x y : ℕ}
    (hx : x < w) (hy : y < h) : hblurAt arith kernel (some b) w (x, y) = some (across kernel w f x y) := by
  refine arith.weigh_eq hkernel (read_eq hb hx hy) fun k _ _ => ?_
  simp only [pairOf, read_eq hb (show x - k < w by omega) hy,
    read_eq hb (show min (x + k) (w - 1) < w by omega) hy]
  rfl

theorem vblurAt_eq (arith : Arith) {kernel : List K} (hkernel : kernel ≠ []) (hb : Shows w h f b) {x y : ℕ}
    (hx : x < w) (hy : y < h) : vblurAt arith kernel (some b) w h (x, y) = some (down kernel h f x y) := by
  refine arith.weigh_eq hkernel (read_eq hb hx hy) fun k _ _ => ?_
  simp only [pairOf, read_eq hb hx (show y - k < h by omega),
    read_eq hb hx (show min (y + k) (h - 1) < h by omega)]
  rfl

theorem shows_blank : Shows w h (fun _ _ => (.transparent : Rgba K))
    (List.replicate (w * h) .transparent) :=
  ⟨List.length_replicate.ge, fun x y hx hy => by rw [List.getElem?_replicate, if_pos (cell_lt hx hy)]⟩

theorem run_blank (index : ℕ × ℕ → Option ℕ) (value : ℕ × ℕ → Rgba K → Option (Rgba K))
    (hindex : ∀ x y, x < w → y < h → index (x, y) = some (y * w + x))
    (hvalue : ∀ x y, x < w → y < h → value (x, y) .transparent = some (g x y)) :
    ∃ b', run w h (change index value) (blank (w * h)) = some b' ∧ b'.length = w * h ∧ Shows w h g b' := by
  obtain ⟨b', hb', hlength, hshows⟩ := run_shows index value shows_blank hindex hvalue
  exact ⟨b', hb', hlength.trans List.length_replicate, hshows⟩

theorem blurH_shows {kernel : List K} {radius : ℕ} (hreach : InReach w h radius)
    (hlength : kernel.length = radius + 1) (hb : Shows w h f b) :
    ∃ b', blurH b w h kernel = some b' ∧ b'.length = w * h ∧ Shows w h (across kernel w f) b' := by
  obtain ⟨hsize, hwidth, -⟩ := hreach
  have hkernel : kernel ≠ [] := List.ne_nil_of_length_eq_add_one hlength
  have hw := asI32_eq (n := w) (by omega)
  simp only [blurH, hw]
  refine run_blank _ _ ?_ ?_
  · intro x y hx hy
    exact index32_eq hsize hx hy
  · intro x y hx hy
    exact weigh_eq hkernel (look32_eq hsize hb hx hy) fun k _ hk =>
      pair32_eq (p := fun m => f m y) (fun m hm => look32_eq hsize hb hm hy) hx (by omega)

theorem blurV_shows {kernel : List K} {radius : ℕ} (hreach : InReach w h radius)
    (hlength : kernel.length = radius + 1) (hb : Shows w h f b) :
    ∃ b', blurV b w h kernel = some b' ∧ b'.length = w * h ∧ Shows w h (down kernel h f) b' := by
  obtain ⟨hsize, hwidth, hheight⟩ := hreach
  have hkernel : kernel ≠ [] := List.ne_nil_of_length_eq_add_one hlength
  have hw := asI32_eq (n := w) (by omega)
  have hh := asI32_eq (n := h) (by omega)
  simp only [blurV, hw, hh]
  refine run_blank _ _ ?_ ?_
  · intro x y hx hy
    exact index32_eq hsize hx hy
  · intro x y hx hy
    exact weigh_eq hkernel (look32_eq hsize hb hx hy) fun k _ hk =>
      pair32_eq (p := fun m => f x m) (fun m hm => look32_eq hsize hb hx hm) hy (by omega)

theorem length_gaussianKernel (exp : K → K) (sigma : K) (radius : ℕ) :
    (gaussianKernel exp sigma radius).length = radius + 1 := by
  simp [gaussianKernel]

theorem gaussianKernel_ne_nil (exp : K → K) (sigma : K) (radius : ℕ) :
    gaussianKernel exp sigma radius ≠ [] :=
  List.ne_nil_of_length_eq_add_one (length_gaussianKernel exp sigma radius)

theorem tileHblur_shows {tile : Tile} {kernel : List K} {radius : ℕ}
    (hlength : kernel.length = radius + 1) (hright : tile.tx + tile.tw ≤ w)
    {bright : List (Rgba K)} {y : ℕ → ℕ}
    (hb : Shows (tile.tw + 2 * radius) (tile.th + 2 * radius)
      (fun i j => f (min (tile.tx + i - radius) (w - 1)) (y j)) bright) {scratch : List (Rgba K)}
    (hroom : tile.tw * (tile.th + 2 * radius) ≤ scratch.length) :
    ∃ b', tileHblur kernel radius tile (some bright) scratch = some b' ∧ b'.length = scratch.length ∧
      Shows tile.tw (tile.th + 2 * radius) (fun i j => across kernel w f (tile.tx + i) (y j)) b' := by
  have : Nonempty (Rgba K) := ⟨.transparent⟩
  have hkernel : kernel ≠ [] := List.ne_nil_of_length_eq_add_one hlength
  obtain ⟨old, hold⟩ := exists_shows hroom
  refine run_shows _ _ hold (fun _ _ _ _ => rfl) fun i j hi hj => weigh_eq hkernel ?_ fun k hk hlt => ?_
  · rw [read_eq hb (by omega) hj]
    congr 2
    omega
  · simp only [around, read_eq hb (show i + radius - k < _ by omega) hj,
      read_eq hb (show i + radius + k < _ by omega) hj, Option.bind_eq_bind, Option.bind_some,
      Option.pure_def, Option.some.injEq]
    congr 2 <;> omega

variable [LinearOrder K]

theorem separable_shows {crew : Crew} (hcrew : crew.Able h) (arith : Arith) {kernel : List K} (hkernel : kernel ≠ [])
    (hb : Shows w h f b) (threshold : K) (first : ℕ × ℕ → Rgba K → Option (Rgba K))
    (hfirst : ∀ x y, x < w → y < h → first (x, y) .transparent = some (bright threshold (f x y))) :
    ∃ b', b'.length = b.length ∧
      Shows w h (fun x y => composite (f x y) (blurred kernel w h threshold f x y)) b' ∧
      ∀ result, Separable crew arith w h b kernel first result ↔ result = some b' := by
  obtain ⟨bright', hbright, -, hB⟩ := run_blank (flat w) first (fun _ _ _ _ => rfl) hfirst
  obtain ⟨hblur, hhblur, -, hH⟩ := run_blank (flat w)
    (fun cell _ => hblurAt arith kernel (some bright') w cell) (fun _ _ _ _ => rfl)
    fun x y hx hy => hblurAt_eq arith hkernel hB hx hy
  obtain ⟨b', hb', hlength, hshows⟩ := run_shows (flat w) (fun cell _ => do
      let v ← vblurAt arith kernel (some hblur) w h cell
      return composite (← read (some b) w cell.1 cell.2) v)
    (g := fun x y => composite (f x y) (blurred kernel w h threshold f x y)) hb (fun _ _ _ _ => rfl)
    fun x y hx hy => by
      simp only [vblurAt_eq arith hkernel hH hx hy, read_eq hb hx hy]
      rfl
  refine ⟨b', hlength, hshows, fun result => ?_⟩
  simp only [Separable, leaves_run hcrew]
  constructor
  · rintro ⟨_, _, rfl, rfl, rfl⟩
    rw [hbright, hhblur, hb']
  · rintro rfl
    exact ⟨_, _, hbright.symm, hhblur.symm, hb'.symm⟩

theorem bloom_shows (exp : K → K) (sigma : K) {radius : ℕ} (hreach : InReach w h radius)
    (hb : Shows w h f b) (threshold : K) :
    ∃ b', bloom exp w h b threshold sigma radius = some b' ∧ b'.length = b.length ∧
      Shows w h (fun x y =>
        let v := blurred (gaussianKernel exp sigma radius) w h threshold f x y
        if isBlack v then f x y else added (f x y) v) b' := by
  have hlength := length_gaussianKernel exp sigma radius
  obtain ⟨hBlur, hH, -, hshowsH⟩ := blurH_shows hreach hlength (shows_map (bright threshold) hb)
  obtain ⟨vBlur, hV, -, hshowsV⟩ := blurV_shows hreach hlength hshowsH
  rw [bloom, hH, Option.bind_eq_bind, Option.bind_some, hV]
  refine run_shows _ _ hb (fun _ _ _ _ => rfl) fun x y hx hy => ?_
  simp only [hshowsV.cell x y hx hy]
  rfl

section Tile

variable {tile : Tile} {kernel : List K} {radius size : ℕ} (threshold : K)

theorem tileBright_shows (hreach : InReach w h radius) (hinside : tile.Inside w h) (hw : 0 < w)
    (hh : 0 < h) (hb : Shows w h f b) {scratch : List (Rgba K)}
    (hroom : (tile.tw + 2 * radius) * (tile.th + 2 * radius) ≤ scratch.length) :
    ∃ b', tileBright b w h threshold radius tile scratch = some b' ∧ b'.length = scratch.length ∧
      Shows (tile.tw + 2 * radius) (tile.th + 2 * radius) (fun i j => bright threshold
        (f (min (tile.tx + i - radius) (w - 1)) (min (tile.ty + j - radius) (h - 1)))) b' := by
  obtain ⟨-, hwidth, hheight⟩ := hreach
  obtain ⟨hright, hlow⟩ := hinside
  have : Nonempty (Rgba K) := ⟨.transparent⟩
  obtain ⟨old, hold⟩ := exists_shows hroom
  refine run_shows _ _ hold (fun _ _ _ _ => rfl) fun i j hi hj => ?_
  have hcell := hb.cell (min (tile.tx + i - radius) (w - 1)) (min (tile.ty + j - radius) (h - 1))
    (by omega) (by omega)
  have hgy : edge tile.ty radius j h = some (min (tile.ty + j - radius) (h - 1)) :=
    edge_eq hh (by omega) (by omega) (by omega)
  have hgx : edge tile.tx radius i w = some (min (tile.tx + i - radius) (w - 1)) :=
    edge_eq hw (by omega) (by omega) (by omega)
  simp only [hgy, hgx, Option.bind_eq_bind, Option.bind_some, hcell, Option.pure_def]

theorem tileOut_eq (hlength : kernel.length = radius + 1) (hinside : tile.Inside w h)
    (hb : Shows w h f b) {hblur : List (Rgba K)}
    (hblurred : Shows tile.tw (tile.th + 2 * radius)
      (fun i j => g (tile.tx + i) (min (tile.ty + j - radius) (h - 1))) hblur) {i j : ℕ}
    (hi : i < tile.tw) (hj : j < tile.th) :
    tileOut b w kernel radius tile (some hblur) (i, j) =
      some (composite (f (tile.tx + i) (tile.ty + j)) (down kernel h g (tile.tx + i) (tile.ty + j))) := by
  obtain ⟨hright, hlow⟩ := hinside
  have hkernel : kernel ≠ [] := List.ne_nil_of_length_eq_add_one hlength
  have hcell := hb.cell (tile.tx + i) (tile.ty + j) (by omega) (by omega)
  have hdown : weigh kernel (read (some hblur) tile.tw i (j + radius))
      (around (fun y => read (some hblur) tile.tw i y) (j + radius)) =
        some (down kernel h g (tile.tx + i) (tile.ty + j)) := by
    refine weigh_eq hkernel ?_ fun k hk hlt => ?_
    · rw [read_eq hblurred hi (by omega)]
      congr 2
      omega
    · simp only [around, read_eq hblurred hi (show j + radius - k < _ by omega),
        read_eq hblurred hi (show j + radius + k < _ by omega), Option.bind_eq_bind, Option.bind_some,
        Option.pure_def, Option.some.injEq]
      congr 2 <;> omega
  rw [← Nat.add_assoc] at hcell
  simp only [tileOut, hdown, hcell, Option.bind_eq_bind, Option.bind_some, Option.pure_def]

theorem tileCompute_eq (hreach : InReach w h radius) (hlength : kernel.length = radius + 1)
    (hscratch : (size + 2 * radius) * (size + 2 * radius) < 2 ^ 64) {scratch : Scratch K}
    (hfits : scratch.Fits size radius) (hb : Shows w h f b) {t i j : ℕ}
    (hi : i < (runTile w h size t).tw) (hj : j < (runTile w h size t).th) :
    tileCompute b w h threshold kernel radius scratch (runTile w h size t) (i, j) =
      some (composite (f (place w h size (t, i, j)).1 (place w h size (t, i, j)).2)
        (blurred kernel w h threshold f (place w h size (t, i, j)).1 (place w h size (t, i, j)).2)) := by
  have hinside := runTile_inside hi hj
  have hwide : (runTile w h size t).tw + 2 * radius ≤ size + 2 * radius :=
    Nat.add_le_add_right (Nat.min_le_left _ _) _
  have hhigh : (runTile w h size t).th + 2 * radius ≤ size + 2 * radius :=
    Nat.add_le_add_right (Nat.min_le_left _ _) _
  have hsmaller : (size + 2 * radius) * size ≤ (size + 2 * radius) * (size + 2 * radius) :=
    Nat.mul_le_mul_left _ (Nat.le_add_right _ _)
  have hroom : ((runTile w h size t).tw + 2 * radius) * ((runTile w h size t).th + 2 * radius) ≤
      scratch.bright.length := by
    rw [hfits.bright, Nat.mod_eq_of_lt hscratch]
    exact Nat.mul_le_mul hwide hhigh
  have hroom' : (runTile w h size t).tw * ((runTile w h size t).th + 2 * radius) ≤
      scratch.hblur.length := by
    rw [hfits.hblur, Nat.mod_eq_of_lt (hsmaller.trans_lt hscratch), Nat.mul_comm]
    exact Nat.mul_le_mul hhigh (Nat.min_le_left _ _)
  obtain ⟨bright', hbright, -, hB⟩ := tileBright_shows threshold hreach hinside
    (show 0 < w by have := hinside.right; omega) (show 0 < h by have := hinside.low; omega) hb hroom
  obtain ⟨hblur, hhblur, -, hH⟩ := tileHblur_shows (f := fun x y => bright threshold (f x y)) hlength
    hinside.right hB hroom'
  rw [tileCompute, hbright, hhblur]
  exact tileOut_eq hlength hinside hb hH hi hj

theorem tiles_show (hreach : InReach w h radius) (hlength : kernel.length = radius + 1)
    (hsize : 0 < size) (hscratch : (size + 2 * radius) * (size + 2 * radius) < 2 ^ 64) {crew : Crew}
    (hcrew : crew.Able (divCeil w size * divCeil h size)) {scratch : ℕ → Scratch K}
    (hfits : ∀ t, (scratch t).Fits size radius) (hb : Shows w h f b) : ∃ b', b'.length = b.length ∧
      Shows w h (fun x y => composite (f x y) (blurred kernel w h threshold f x y)) b' ∧
      ∀ result, crew.Leaves (tileCells w h size) (divCeil w size * divCeil h size)
        (change (fun task => flat w (place w h size task)) fun task _ =>
          tileCompute b w h threshold kernel radius (scratch task.1) (runTile w h size task.1) task.2)
        (some b) result ↔ result = some b' := by
  set tasks := (List.range (divCeil w size * divCeil h size)).flatMap (tileCells w h size) with htasks
  have hin : ∀ task ∈ tasks, task.2.1 < size ∧ task.2.2 < size ∧
      (place w h size task).1 < w ∧ (place w h size task).2 < h := by
    intro task htask
    obtain ⟨-, hi, hj⟩ := mem_tileCells.mp htask
    simp only [runTile] at hi hj
    simp only [place, runTile]
    omega
  have hinj : ∀ task ∈ tasks, ∀ task' ∈ tasks, place w h size task = place w h size task' → task = task' :=
    fun task htask task' htask' => place_inj (hin task htask).1 (hin task htask).2.1
      (hin task' htask').1 (hin task' htask').2.1
  obtain ⟨b', hb', hroom, hshows⟩ := foldl_change (fun task => flat w (place w h size task))
    (fun task _ =>
      tileCompute b w h threshold kernel radius (scratch task.1) (runTile w h size task.1) task.2)
    (place w h size)
    (g := fun x y => composite (f x y) (blurred kernel w h threshold f x y))
    ((nodup_tileCells _ _).map_on hinj) (fun task htask => (hin task htask).2.2)
    (fun _ _ => rfl) (fun task htask => by
      obtain ⟨-, hi, hj⟩ := mem_tileCells.mp htask
      exact tileCompute_eq threshold hreach hlength hscratch (hfits _) hb hi hj) hb
  refine ⟨b', hroom, hshows.congr fun x y hx hy => ?_, fun result => ?_⟩
  · obtain ⟨task, htask, hplace⟩ := place_surj hsize hx hy
    rw [if_pos (List.mem_map.mpr ⟨task, htask, hplace⟩)]
  · rw [Crew.leaves_iff _ _ hcrew, hb']
    intro task htask task' htask' hne m
    refine change_comm (fun i hi hi' => hne (hinj task htask task' htask' ?_)) m
    rw [flat, Option.some.injEq] at hi hi'
    exact cell_inj (hin task htask).2.2.1 (hin task' htask').2.2.1 (hi.trans hi'.symm)

theorem tiled_shows (hreach : InReach w h radius) (hlength : kernel.length = radius + 1)
    (hsize : 0 < size) (hscratch : (size + 2 * radius) * (size + 2 * radius) < 2 ^ 64) {crew : Crew}
    (hcrew : crew.Able (divCeil w size * divCeil h size)) (hb : Shows w h f b)
    (hroom : b.length = w * h) : ∃ b', b'.length = b.length ∧
      Shows w h (fun x y => composite (f x y) (blurred kernel w h threshold f x y)) b' ∧
      ∀ result, Tiled b w h threshold kernel radius crew size result ↔ result = some b' := by
  have hblank : (⟨List.replicate ((size + 2 * radius) * (size + 2 * radius) % 2 ^ 64) .transparent,
      List.replicate ((size + 2 * radius) * size % 2 ^ 64) .transparent⟩ : Scratch K).Fits size radius :=
    ⟨List.length_replicate, List.length_replicate⟩
  obtain ⟨b', hlength', hshows, hiff⟩ := tiles_show threshold hreach hlength hsize
    hscratch hcrew (fun _ => hblank) hb
  refine ⟨b', hlength', hshows, fun result => ⟨?_, fun h => ⟨_, fun _ => hblank, (hiff result).mpr h⟩⟩⟩
  rintro ⟨scratch, hfits, hleaves⟩
  obtain ⟨b'', hlength'', hshows', hiff'⟩ := tiles_show threshold hreach hlength hsize
    hscratch hcrew hfits hb
  rw [(hiff' result).mp hleaves,
    hshows'.unique hshows (hlength''.trans hroom) (hlength'.trans hroom)]

end Tile

def Lit (c : Rgba K) : Prop := isBlack c ∨ 0 < luminance c

theorem luminance_nonneg {c : Rgba K} (h : Lit c) : 0 ≤ luminance c := by
  rcases h with ⟨hr, hg, hb⟩ | h
  · simp [luminance, hr, hg, hb]
  · exact h.le

variable [IsStrictOrderedRing K]

theorem lit_bright {threshold : K} (h : 0 ≤ threshold) (c : Rgba K) : Lit (bright threshold c) := by
  simp only [bright]
  split_ifs with hl
  · right
    have hpos : 0 < luminance c := h.trans_lt hl
    have hscaled : luminance (⟨c.r * ((luminance c - threshold) / luminance c),
        c.g * ((luminance c - threshold) / luminance c),
        c.b * ((luminance c - threshold) / luminance c), 1⟩ : Rgba K) =
          luminance c * ((luminance c - threshold) / luminance c) := by
      simp only [luminance]
      ring
    rw [hscaled, mul_div_cancel₀ _ hpos.ne']
    exact sub_pos.mpr hl
  · exact .inl ⟨rfl, rfl, rfl⟩

theorem lit_scaled {c : Rgba K} (h : Lit c) {wt : K} (hwt : 0 ≤ wt) : Lit (scaled c wt) := by
  rcases hwt.eq_or_lt with rfl | hwt
  · exact .inl ⟨mul_zero _, mul_zero _, mul_zero _⟩
  rcases h with ⟨hr, hg, hb⟩ | h
  · exact .inl ⟨by simp [scaled, hr], by simp [scaled, hg], by simp [scaled, hb]⟩
  · right
    have hscaled : luminance (scaled c wt) = luminance c * wt := by
      simp only [luminance, scaled]
      ring
    rw [hscaled]
    exact mul_pos h hwt

theorem lit_addPair {sum : Rgba K} {pair : Rgba K × Rgba K} (hsum : Lit sum) (hfst : Lit pair.1)
    (hsnd : Lit pair.2) {wt : K} (hwt : 0 ≤ wt) : Lit (addPair sum pair wt) := by
  rcases hwt.eq_or_lt with rfl | hwt
  · simpa only [addPair, mul_zero, add_zero] using hsum
  have hadded : luminance (addPair sum pair wt) =
      luminance sum + (luminance pair.1 + luminance pair.2) * wt := by
    simp only [luminance, addPair]
    ring
  have hs := luminance_nonneg hsum
  have h1 := luminance_nonneg hfst
  have h2 := luminance_nonneg hsnd
  rcases hsum with ⟨hr, hg, hb⟩ | hpos
  · rcases hfst with ⟨hr1, hg1, hb1⟩ | hpos
    · rcases hsnd with ⟨hr2, hg2, hb2⟩ | hpos
      · exact .inl ⟨by simp [addPair, hr, hr1, hr2], by simp [addPair, hg, hg1, hg2],
          by simp [addPair, hb, hb1, hb2]⟩
      · exact .inr (by rw [hadded]; positivity)
    · exact .inr (by rw [hadded]; positivity)
  · exact .inr (by rw [hadded]; positivity)

theorem lit_weighed {kernel : List K} (hkernel : kernel ≠ []) (hpos : ∀ wt ∈ kernel, 0 ≤ wt)
    {c : Rgba K} (hc : Lit c) {pair : ℕ → Rgba K × Rgba K}
    (hpair : ∀ k, Lit (pair k).1 ∧ Lit (pair k).2) : Lit (weighed kernel c pair) := by
  cases kernel with
  | nil => exact absurd rfl hkernel
  | cons k0 weights =>
    have hterms : ∀ (terms : List (K × ℕ)) (sum : Rgba K), Lit sum → (∀ p ∈ terms, 0 ≤ p.1) →
        Lit (terms.foldl (fun sum p => addPair sum (pair p.2) p.1) sum) := by
      intro terms
      induction terms with
      | nil => exact fun _ h _ => h
      | cons p terms ih =>
        intro sum hsum hterms
        exact ih _ (lit_addPair hsum (hpair _).1 (hpair _).2 (hterms p (by simp)))
          fun q hq => hterms q (by simp [hq])
    refine hterms _ _ (lit_scaled hc (hpos k0 (by simp))) fun p hp => hpos p.1 ?_
    exact List.mem_cons_of_mem _ (List.fst_mem_of_mem_zipIdx hp)

/-- Both ways to tell whether the blur leaves a pixel as it is come to the same. -/
theorem composite_eq {v : Rgba K} (h : Lit v) (base : Rgba K) :
    (if isBlack v then base else added base v) = composite base v := by
  rw [composite]
  by_cases hblack : isBlack v
  · obtain ⟨hr, hg, hb⟩ := id hblack
    rw [if_pos hblack, if_neg (by simp [hr, hg, hb])]
  · have hpos := h.resolve_left hblack
    rw [if_neg hblack, if_pos]
    by_contra! hnone
    obtain ⟨hr, hg, hb⟩ := hnone
    simp only [luminance] at hpos
    linarith

theorem lit_blurred {kernel : List K} (hkernel : kernel ≠ []) (hpos : ∀ wt ∈ kernel, 0 ≤ wt)
    {threshold : K} (hthreshold : 0 ≤ threshold) (f : ℕ → ℕ → Rgba K) (x y : ℕ) :
    Lit (blurred kernel w h threshold f x y) := by
  have hacross : ∀ x y, Lit (across kernel w (fun x y => bright threshold (f x y)) x y) := fun x y =>
    lit_weighed hkernel hpos (lit_bright hthreshold _) fun k =>
      ⟨lit_bright hthreshold _, lit_bright hthreshold _⟩
  exact lit_weighed hkernel hpos (hacross x y) fun k => ⟨hacross _ _, hacross _ _⟩

theorem gaussianKernel_nonneg {exp : K → K} (hexp : ∀ x, 0 ≤ exp x) (sigma : K) (radius : ℕ) :
    ∀ wt ∈ gaussianKernel exp sigma radius, 0 ≤ wt := by
  intro wt hwt
  simp only [gaussianKernel, List.mem_map] at hwt
  obtain ⟨_, ⟨i, -, rfl⟩, rfl⟩ := hwt
  refine div_nonneg (hexp _) (add_nonneg ?_ (mul_nonneg zero_le_two (List.sum_nonneg ?_)))
  · rw [List.range_succ_eq_map]
    exact hexp _
  · intro x hx
    obtain ⟨j, -, rfl⟩ := List.mem_map.mp (List.mem_of_mem_tail hx)
    exact hexp _

structure Tuned (threshold sigma : K) : Prop where
  threshold : 0 ≤ threshold
  sigma : sigma ≠ 0

variable {exp : K → K} {threshold sigma : K} {radius n : ℕ}

theorem bloom_of_shows (hexp : ∀ x, 0 ≤ exp x) (hreach : InReach w h radius)
    (htuned : Tuned threshold sigma) (hb : Shows w h f b) (hroom : b.length = w * h) {b' : List (Rgba K)}
    (hroom' : b'.length = b.length) (hshows : Shows w h (fun x y => composite (f x y)
      (blurred (gaussianKernel exp sigma radius) w h threshold f x y)) b') :
    bloom exp w h b threshold sigma radius = some b' := by
  obtain ⟨image, himage, hlength, hsame⟩ := bloom_shows exp sigma hreach hb threshold
  rw [himage, hshows.unique (hsame.congr fun x y _ _ => ?_) (hroom'.trans hroom) (hlength.trans hroom)]
  exact composite_eq (lit_blurred (gaussianKernel_ne_nil exp sigma radius)
    (gaussianKernel_nonneg hexp sigma radius) htuned.threshold f x y) (f x y)

/-- On any number of threads, in any interleaving, `bloom_parallel` makes the picture that `bloom`
makes. -/
theorem bloomParallel_iff (hexp : ∀ x, 0 ≤ exp x) (hreach : InReach w h radius)
    (htuned : Tuned threshold sigma) {pixels : List (Rgba K)} (hpixels : pixels.length = w * h)
    (hn : 0 < n) : ∃ image, bloom exp w h pixels threshold sigma radius = some image ∧
      ∀ result, BloomParallel exp n w h pixels threshold sigma radius result ↔ result = some image := by
  obtain ⟨f, hb⟩ := shows_pixels hpixels
  have hcrew : Crew.Able ⟨.fairQueue, n, 1, 1, h⟩ h := ⟨hn, by simp [Crew.counts], by simp⟩
  obtain ⟨image, hlength, hshows, hiff⟩ := separable_shows hcrew .scalar
    (gaussianKernel_ne_nil exp sigma radius) hb threshold (brightIn pixels w threshold)
    (fun x y hx hy => by
      simp only [brightIn, read_eq hb hx hy, bright, Option.bind_eq_bind, Option.bind_some]
      split_ifs <;> rfl)
  exact ⟨image, bloom_of_shows hexp hreach htuned hb hpixels hlength hshows, hiff⟩

theorem bloomParallel_two : ∃ image,
    bloom Real.exp 2 1 [⟨1, 1, 1, 1⟩, ⟨0, 0, 0, 1⟩] (1 / 2) 1 1 = some image ∧
      ∀ result, BloomParallel Real.exp 2 2 1 [⟨1, 1, 1, 1⟩, ⟨0, 0, 0, 1⟩] (1 / 2) 1 1 result ↔
        result = some image :=
  bloomParallel_iff (fun x => (Real.exp_pos x).le) ⟨by norm_num, by norm_num, by norm_num⟩
    ⟨by norm_num, one_ne_zero⟩ rfl two_pos

theorem Strategy.able_rowCrew {strat : Strategy} (hroomy : strat.Roomy n w h radius)
    (hstructure : strat.structure = .separable) (hn : 0 < n) (hh : 0 < h) : (strat.rowCrew n h).Able h := by
  have hband : 0 < max (divCeil h n) 1 := lt_max_of_lt_right zero_lt_one
  refine ⟨hn, fun _ => ⟨lt_max_of_lt_right zero_lt_one, hroomy.rows hstructure⟩, fun _ => ⟨?_, ?_⟩⟩
  · exact (Nat.zero_le _).trans_lt (div_lt_divCeil hband hh)
  · exact le_divCeil_mul hband h

theorem Strategy.able_tileCrew {strat : Strategy} (hroomy : strat.Roomy n w h radius)
    (hstructure : strat.structure = .tiledFused) (hn : 0 < n) :
    (strat.tileCrew n w h).Able (strat.tileCount w h) := by
  refine ⟨hn, fun _ => ⟨lt_max_of_lt_right zero_lt_one, (hroomy.tiles hstructure).1⟩, fun _ => ⟨hn, ?_⟩⟩
  calc strat.tileCount w h ≤ divCeil (strat.tileCount w h) n * n := le_divCeil_mul hn _
    _ ≤ max (divCeil (strat.tileCount w h) n) 1 * n := Nat.mul_le_mul_right n (le_max_left _ _)
    _ = n * max (divCeil (strat.tileCount w h) n) 1 := Nat.mul_comm _ _

end Shows

end AtomVibe.Bloom
