import AtomVibe.MaterialColor
import AtomVibe.Foundations.Rows
import Mathlib.Tactic.Linarith
import Mathlib.Tactic.Positivity

namespace AtomVibe.Material

open SlidingWindow

structure ChannelSum where
  r : ℚ
  g : ℚ
  b : ℚ
  a : ℚ
  deriving DecidableEq

namespace ChannelSum

def zero : ChannelSum := ⟨0, 0, 0, 0⟩

def add (sum : ChannelSum) (value : PremulRgba) : ChannelSum :=
  ⟨sum.r + value.rgb.r, sum.g + value.rgb.g, sum.b + value.rgb.b, sum.a + value.a⟩

def remove (sum : ChannelSum) (value : PremulRgba) : ChannelSum :=
  ⟨sum.r - value.rgb.r, sum.g - value.rgb.g, sum.b - value.rgb.b, sum.a - value.a⟩

def average (sum : ChannelSum) (count : ℕ) : PremulRgba :=
  let scale : ℚ := 1 / (max count 1 : ℕ)
  PremulRgba.sanitized ⟨Rgb.scale ⟨sum.r, sum.g, sum.b⟩ scale, sum.a * scale⟩

end ChannelSum

def clampIndex (value : ℤ) (count : ℕ) : ℕ := (max 0 (min value (count - 1))).toNat

/-- Without a result the source would panic. -/
def atClampedSlice (pixels : List PremulRgba) (width height : ℕ) (x y : ℤ) : Option PremulRgba :=
  if width = 0 ∨ height = 0 then some .transparent
  else pixels[clampIndex y height * width + clampIndex x width]?

def setAt {α : Type} (out : List α) (i : ℕ) (value : α) : Option (List α) :=
  if i < out.length then some (out.set i value) else none

structure Snapshot where
  x0 : ℕ
  y0 : ℕ
  width : ℕ
  height : ℕ
  pixels : List PremulRgba
  deriving DecidableEq

namespace Snapshot

def atClamped (s : Snapshot) (x y : ℤ) : Option PremulRgba :=
  atClampedSlice s.pixels s.width s.height x y

end Snapshot

def offsets (radius : ℕ) : List ℤ := (List.range (2 * radius + 1)).map fun (k : ℕ) => k - radius

def sumTaps (tap : ℤ → Option PremulRgba) : List ℤ → ChannelSum → Option ChannelSum
  | [], sum => some sum
  | offset :: rest, sum => do sumTaps tap rest (sum.add (← tap offset))

def blurSteps (tap : ℤ → Option PremulRgba) (radius : ℕ) (index : ℕ → ℕ) :
    ℕ → ℕ → ChannelSum → List PremulRgba → Option (List PremulRgba)
  | 0, _, _, out => some out
  | steps + 1, i, sum, out => do
    let out ← setAt out (index i) (sum.average (radius * 2 + 1))
    let sum := sum.remove (← tap (i - radius))
    let sum := sum.add (← tap (i + radius + 1))
    blurSteps tap radius index steps (i + 1) sum out

def blurLines (tap : ℕ → ℤ → Option PremulRgba) (radius length : ℕ) (index : ℕ → ℕ → ℕ) :
    ℕ → ℕ → List PremulRgba → Option (List PremulRgba)
  | 0, _, out => some out
  | lines + 1, line, out => do
    let sum ← sumTaps (tap line) (offsets radius) .zero
    let out ← blurSteps (tap line) radius (index line) length 0 sum out
    blurLines tap radius length index lines (line + 1) out

namespace Snapshot

def blur (s : Snapshot) (radius : ℕ) : Option Snapshot :=
  let radius := min radius 96
  if s.width = 0 ∨ s.height = 0 then some { s with pixels := [] }
  else do
    let blank := List.replicate s.pixels.length PremulRgba.transparent
    let horizontal ← blurLines (fun y x => s.atClamped x y) radius s.width
      (fun y x => y * s.width + x) s.height 0 blank
    let pixels ← blurLines (fun x y => atClampedSlice horizontal s.width s.height x y) radius s.height
      (fun x y => y * s.width + x) s.width 0 blank
    return { s with pixels }

/-- As `capture` makes them. -/
def WellFormed (s : Snapshot) : Prop := s.pixels.length = s.width * s.height

end Snapshot

inductive Channel
  | r
  | g
  | b
  | a

def PremulRgba.channel (c : PremulRgba) : Channel → ℚ
  | .r => c.rgb.r
  | .g => c.rgb.g
  | .b => c.rgb.b
  | .a => c.a

def ChannelSum.channel (sum : ChannelSum) : Channel → ℚ
  | .r => sum.r
  | .g => sum.g
  | .b => sum.b
  | .a => sum.a

section Channels

theorem ChannelSum.ext_channel {sum other : ChannelSum}
    (h : ∀ channel, sum.channel channel = other.channel channel) : sum = other := by
  obtain ⟨r, g, b, a⟩ := sum
  obtain ⟨r', g', b', a'⟩ := other
  have hr : r = r' := h .r
  have hg : g = g' := h .g
  have hb : b = b' := h .b
  have ha : a = a' := h .a
  rw [hr, hg, hb, ha]

theorem ChannelSum.channel_add (sum : ChannelSum) (value : PremulRgba) (channel : Channel) :
    (sum.add value).channel channel = sum.channel channel + value.channel channel := by
  cases channel <;> rfl

theorem ChannelSum.channel_remove (sum : ChannelSum) (value : PremulRgba) (channel : Channel) :
    (sum.remove value).channel channel = sum.channel channel - value.channel channel := by
  cases channel <;> rfl

end Channels

def tapSum (f : ℤ → PremulRgba) (radius : ℕ) (i : ℤ) : ChannelSum where
  r := window (fun k => (f k).rgb.r) radius i
  g := window (fun k => (f k).rgb.g) radius i
  b := window (fun k => (f k).rgb.b) radius i
  a := window (fun k => (f k).a) radius i

def boxAverage (f : ℤ → PremulRgba) (radius : ℕ) (i : ℤ) : PremulRgba where
  rgb := ⟨window (fun k => (f k).rgb.r) radius i / (2 * radius + 1),
    window (fun k => (f k).rgb.g) radius i / (2 * radius + 1),
    window (fun k => (f k).rgb.b) radius i / (2 * radius + 1)⟩
  a := window (fun k => (f k).a) radius i / (2 * radius + 1)

section Lines

variable {tap : ℤ → Option PremulRgba} {f : ℤ → PremulRgba} {radius : ℕ} {index : ℕ → ℕ}

theorem channel_tapSum (f : ℤ → PremulRgba) (radius : ℕ) (i : ℤ) (channel : Channel) :
    (tapSum f radius i).channel channel = window (fun k => (f k).channel channel) radius i := by
  cases channel <;> rfl

theorem tapSum_succ (f : ℤ → PremulRgba) (radius : ℕ) (i : ℤ) :
    ((tapSum f radius i).remove (f (i - radius))).add (f (i + radius + 1)) =
      tapSum f radius (i + 1) := by
  apply ChannelSum.ext_channel
  intro channel
  rw [ChannelSum.channel_add, ChannelSum.channel_remove, channel_tapSum, channel_tapSum,
    window_succ]

theorem average_tapSum (f : ℤ → PremulRgba) (radius : ℕ) (i : ℤ) :
    (tapSum f radius i).average (radius * 2 + 1) = (boxAverage f radius i).sanitized := by
  have hcount : ((max (radius * 2 + 1) 1 : ℕ) : ℚ) = 2 * radius + 1 := by
    rw [max_eq_left (Nat.le_add_left 1 _)]
    push_cast
    ring
  rw [ChannelSum.average, hcount]
  simp only [Rgb.scale, tapSum, boxAverage, mul_one_div]

theorem sumTaps_returns (htap : ∀ x, tap x = some (f x)) (rest : List ℤ) (sum : ChannelSum) :
    ∃ total, sumTaps tap rest sum = some total ∧ ∀ channel, total.channel channel =
      sum.channel channel + (rest.map fun offset => (f offset).channel channel).sum := by
  induction rest generalizing sum with
  | nil => exact ⟨sum, rfl, fun channel => (add_zero _).symm⟩
  | cons offset rest ih =>
    obtain ⟨total, htotal, hchannel⟩ := ih (sum.add (f offset))
    refine ⟨total, ?_, fun channel => ?_⟩
    · rw [sumTaps, htap]
      exact htotal
    · rw [hchannel, ChannelSum.channel_add, List.map_cons, List.sum_cons, add_assoc]

theorem sumTaps_offsets (htap : ∀ x, tap x = some (f x)) (radius : ℕ) :
    sumTaps tap (offsets radius) .zero = some (tapSum f radius 0) := by
  obtain ⟨total, htotal, hchannel⟩ := sumTaps_returns htap (offsets radius) .zero
  rw [htotal, Option.some.injEq]
  apply ChannelSum.ext_channel
  intro channel
  have hzero : ChannelSum.zero.channel channel = 0 := by cases channel <;> rfl
  rw [hchannel, channel_tapSum, hzero, zero_add, offsets, List.map_map, window]
  simp only [zero_add]
  rfl

theorem setAt_eq {α : Type} {out : List α} {i : ℕ} (h : i < out.length) (value : α) :
    setAt out i value = some (out.set i value) := if_pos h

theorem blurSteps_returns (htap : ∀ x, tap x = some (f x)) {steps i : ℕ} {out : List PremulRgba}
    (hinj : ∀ m n, m < i + steps → n < i + steps → index m = index n → m = n)
    (hindex : ∀ m < i + steps, index m < out.length) :
    ∃ blurred, blurSteps tap radius index steps i (tapSum f radius i) out = some blurred ∧
      blurred.length = out.length ∧
      (∀ m, i ≤ m → m < i + steps →
        blurred[index m]? = some (boxAverage f radius m).sanitized) ∧
      ∀ k, (∀ m, i ≤ m → m < i + steps → index m ≠ k) → blurred[k]? = out[k]? := by
  induction steps generalizing i out with
  | zero => exact ⟨out, rfl, rfl, fun m hm hlt => by omega, fun _ _ => rfl⟩
  | succ steps ih =>
    have hhere := hindex i (by omega)
    have hnext : i + 1 + steps = i + (steps + 1) := by omega
    obtain ⟨blurred, hblurred, hlength, hline, hother⟩ :=
      @ih (i + 1) (out.set (index i) (boxAverage f radius i).sanitized)
        (by rwa [hnext]) (by rwa [hnext, List.length_set])
    rw [List.length_set] at hlength
    rw [hnext] at hline hother
    refine ⟨blurred, ?_, hlength, fun m hm hlt => ?_, fun k hk => ?_⟩
    · rw [blurSteps, average_tapSum, setAt_eq hhere]
      simp only [htap, Option.bind_eq_bind, Option.bind_some]
      rw [tapSum_succ]
      exact hblurred
    · rcases Nat.eq_or_lt_of_le hm with rfl | hlater
      · rw [hother _ fun n hn hnlt heq => by
          have hsame := hinj n i hnlt hlt heq
          omega, List.getElem?_set_self hhere]
      · exact hline m hlater hlt
    · rw [hother k fun m hm => hk m (by omega), List.getElem?_set_ne (hk i le_rfl (by omega))]

end Lines

section Blur

variable {tap : ℕ → ℤ → Option PremulRgba} {f : ℕ → ℤ → PremulRgba} {radius length : ℕ}
  {index : ℕ → ℕ → ℕ}

theorem blurLines_returns (htap : ∀ line x, tap line x = some (f line x)) {lines line : ℕ}
    {out : List PremulRgba}
    (hinj : ∀ l m l' m', l < line + lines → m < length → l' < line + lines → m' < length →
      index l m = index l' m' → l = l' ∧ m = m')
    (hindex : ∀ l m, l < line + lines → m < length → index l m < out.length) :
    ∃ blurred, blurLines tap radius length index lines line out = some blurred ∧
      blurred.length = out.length ∧
      (∀ l m, line ≤ l → l < line + lines → m < length →
        blurred[index l m]? = some (boxAverage (f l) radius m).sanitized) ∧
      ∀ k, (∀ l m, line ≤ l → l < line + lines → m < length → index l m ≠ k) →
        blurred[k]? = out[k]? := by
  induction lines generalizing line out with
  | zero => exact ⟨out, rfl, rfl, fun l m hl hlt => by omega, fun _ _ => rfl⟩
  | succ lines ih =>
    have hnext : line + 1 + lines = line + (lines + 1) := by omega
    obtain ⟨first, hfirst, hfirstLength, hfirstLine, hfirstOther⟩ :=
      @blurSteps_returns (tap line) (f line) radius (index line) (htap line) length 0 out
        (fun m n hm hn heq => (hinj line m line n (by omega) (by omega) (by omega) (by omega) heq).2)
        (fun m hm => hindex line m (by omega) (by omega))
    obtain ⟨blurred, hblurred, hlength, hline, hother⟩ := @ih (line + 1) first (by rwa [hnext])
      (by rwa [hnext, hfirstLength])
    rw [hnext] at hline hother
    refine ⟨blurred, ?_, hlength.trans hfirstLength, fun l m hl hlt hm => ?_, fun k hk => ?_⟩
    · rw [blurLines, sumTaps_offsets (htap line), Option.bind_eq_bind, Option.bind_some]
      rw [Nat.cast_zero] at hfirst
      rw [hfirst, Option.bind_eq_bind, Option.bind_some]
      exact hblurred
    · rcases Nat.eq_or_lt_of_le hl with rfl | hlater
      · rw [hother _ fun l' m' hl' hlt' hm' heq => by
          have hsame := (hinj l' m' line m hlt' hm' hlt hm heq).1
          omega]
        exact hfirstLine m (Nat.zero_le m) (by omega)
      · exact hline l m hlater hlt hm
    · rw [hother k fun l m hl => hk l m (by omega),
        hfirstOther k fun m _ hm => hk line m le_rfl (by omega) (by omega)]

end Blur

section Places

variable {width height : ℕ}

theorem place_lt {x y : ℕ} (hx : x < width) (hy : y < height) : y * width + x < width * height := by
  have hrow : (y + 1) * width ≤ height * width := Nat.mul_le_mul_right width hy
  rw [Nat.add_mul, Nat.one_mul] at hrow
  rw [Nat.mul_comm width height]
  omega

theorem place_inj {x y x' y' : ℕ} (hx : x < width) (hx' : x' < width)
    (h : y * width + x = y' * width + x') : y = y' ∧ x = x' := by
  have hrow : ∀ x y, x < width → (y * width + x) / width = y := by
    intro x y hx
    rw [Nat.mul_comm, Nat.mul_add_div (Nat.zero_lt_of_lt hx), Nat.div_eq_of_lt hx, Nat.add_zero]
  have hy : y = y' := by rw [← hrow x y hx, h, hrow x' y' hx']
  subst hy
  exact ⟨rfl, Nat.add_left_cancel h⟩

theorem clampIndex_lt {count : ℕ} (hcount : 0 < count) (value : ℤ) : clampIndex value count < count := by
  rw [clampIndex]
  omega

theorem clampIndex_self {count m : ℕ} (h : m < count) : clampIndex m count = m := by
  rw [clampIndex]
  omega

def tapOf (pixels : List PremulRgba) (width height : ℕ) (x y : ℤ) : PremulRgba :=
  pixels.getD (clampIndex y height * width + clampIndex x width) .transparent

theorem atClampedSlice_eq {pixels : List PremulRgba} (hwidth : 0 < width) (hheight : 0 < height)
    (hpixels : pixels.length = width * height) (x y : ℤ) :
    atClampedSlice pixels width height x y = some (tapOf pixels width height x y) := by
  have hlt : clampIndex y height * width + clampIndex x width < pixels.length := by
    rw [hpixels]
    exact place_lt (clampIndex_lt hwidth x) (clampIndex_lt hheight y)
  rw [atClampedSlice, if_neg (by omega), tapOf, List.getD_eq_getElem?_getD,
    List.getElem?_eq_getElem hlt, Option.getD_some]

end Places

namespace Snapshot

variable {s : Snapshot}

def tap (s : Snapshot) (x y : ℤ) : PremulRgba := tapOf s.pixels s.width s.height x y

def across (s : Snapshot) (radius : ℕ) (x y : ℤ) : PremulRgba :=
  boxAverage (fun x => s.tap x y) radius x

def boxed (s : Snapshot) (radius : ℕ) (x y : ℤ) : PremulRgba :=
  boxAverage (fun y => s.across radius x (clampIndex y s.height)) radius y

theorem blur_returns (hs : s.WellFormed) (radius : ℕ) : ∃ blurred, s.blur radius = some blurred ∧
    blurred.WellFormed ∧ (blurred.x0 = s.x0 ∧ blurred.y0 = s.y0) ∧
    (blurred.width = s.width ∧ blurred.height = s.height) ∧
    ∀ x y, x < s.width → y < s.height → blurred.pixels[y * s.width + x]? =
      some (boxAverage (fun y => (s.across (min radius 96) x (clampIndex y s.height)).sanitized)
        (min radius 96) y).sanitized := by
  by_cases hempty : s.width = 0 ∨ s.height = 0
  · refine ⟨{ s with pixels := [] }, by rw [blur, if_pos hempty], ?_, ⟨rfl, rfl⟩, ⟨rfl, rfl⟩,
      fun x y hx hy => by omega⟩
    exact (Nat.mul_eq_zero.mpr hempty).symm
  · have hwidth : 0 < s.width := by omega
    have hheight : 0 < s.height := by omega
    have hblank : (List.replicate s.pixels.length PremulRgba.transparent).length =
        s.width * s.height := by
      rw [List.length_replicate]
      exact hs
    obtain ⟨horizontal, hhorizontal, hlength, hrows, -⟩ := @blurLines_returns
      (fun y x => s.atClamped x y) (fun y x => s.tap x y) (min radius 96) s.width
      (fun y x => y * s.width + x) (fun y x => atClampedSlice_eq hwidth hheight hs x y)
      s.height 0 (List.replicate s.pixels.length .transparent)
      (fun l m l' m' _ hm _ hm' heq => place_inj hm hm' heq)
      (fun l m hl hm => by
        rw [hblank]
        exact place_lt hm (by omega))
    rw [hblank] at hlength
    have htap : ∀ (x : ℕ) (y : ℤ), x < s.width →
        tapOf horizontal s.width s.height x y =
          (s.across (min radius 96) x (clampIndex y s.height)).sanitized := by
      intro x y hx
      have hrow := hrows (clampIndex y s.height) x (Nat.zero_le _)
        (by rw [Nat.zero_add]; exact clampIndex_lt hheight y) hx
      rw [tapOf, clampIndex_self hx, List.getD_eq_getElem?_getD, hrow]
      rfl
    obtain ⟨pixels, hpixels, hpixelsLength, hcolumns, -⟩ := @blurLines_returns
      (fun x y => atClampedSlice horizontal s.width s.height x y)
      (fun x y => tapOf horizontal s.width s.height x y) (min radius 96) s.height
      (fun x y => y * s.width + x) (fun x y => atClampedSlice_eq hwidth hheight hlength x y)
      s.width 0 (List.replicate s.pixels.length .transparent)
      (fun l m l' m' hl _ hl' _ heq => (place_inj (by omega) (by omega) heq).symm)
      (fun l m hl hm => by
        rw [hblank]
        exact place_lt (by omega) hm)
    refine ⟨{ s with pixels }, ?_, hpixelsLength.trans hblank, ⟨rfl, rfl⟩, ⟨rfl, rfl⟩,
      fun x y hx hy => ?_⟩
    · rw [blur, if_neg hempty]
      dsimp only
      rw [hhorizontal, Option.bind_eq_bind, Option.bind_some, hpixels]
      rfl
    · have hcolumn : (fun y => tapOf horizontal s.width s.height x y) =
          fun y => (s.across (min radius 96) x (clampIndex y s.height)).sanitized :=
        funext fun y => htap x y hx
      rw [hcolumns x y (Nat.zero_le _) (by omega) hy, hcolumn]

end Snapshot

section Averages

variable {f : ℤ → PremulRgba}

theorem average_mono {g h : ℤ → ℚ} (hle : ∀ i, g i ≤ h i) (radius : ℕ) (i : ℤ) :
    window g radius i / (2 * radius + 1) ≤ window h radius i / (2 * radius + 1) := by
  have hcount : (0 : ℚ) ≤ 2 * radius + 1 := by positivity
  exact div_le_div_of_nonneg_right (window_mono hle radius i) hcount

theorem average_const (c : ℚ) (radius : ℕ) (i : ℤ) :
    window (fun _ => c) radius i / (2 * radius + 1) = c := by
  have hcount : (2 * radius + 1 : ℚ) ≠ 0 := by positivity
  rw [window_const, nsmul_eq_mul]
  push_cast
  rw [mul_div_cancel_left₀ _ hcount]

theorem premultiplied_boxAverage (h : ∀ i, (f i).Premultiplied) (radius : ℕ) (i : ℤ) :
    (boxAverage f radius i).Premultiplied where
  nonneg := by
    have hzero : ∀ g : ℤ → ℚ, (∀ i, 0 ≤ g i) → 0 ≤ window g radius i / (2 * radius + 1) := by
      intro g hg
      have hle := average_mono hg radius i
      rwa [average_const] at hle
    exact ⟨hzero _ fun i => (h i).nonneg.1, hzero _ fun i => (h i).nonneg.2.1,
      hzero _ fun i => (h i).nonneg.2.2⟩
  le_alpha := ⟨average_mono (fun i => (h i).le_alpha.1) radius i,
    average_mono (fun i => (h i).le_alpha.2.1) radius i,
    average_mono (fun i => (h i).le_alpha.2.2) radius i⟩
  alpha_le := by
    have hle := average_mono (fun i => (h i).alpha_le) radius i
    rwa [average_const] at hle

end Averages

namespace Snapshot

variable {s : Snapshot}

theorem premultiplied_tap (h : ∀ p ∈ s.pixels, p.Premultiplied) (x y : ℤ) :
    (s.tap x y).Premultiplied := by
  rw [tap, tapOf, List.getD_eq_getElem?_getD]
  cases hpixel : s.pixels[clampIndex y s.height * s.width + clampIndex x s.width]? with
  | none => exact premultiplied_transparent
  | some p => exact h p (List.mem_of_getElem? hpixel)

theorem premultiplied_across (h : ∀ p ∈ s.pixels, p.Premultiplied) (radius : ℕ) (x y : ℤ) :
    (s.across radius x y).Premultiplied :=
  premultiplied_boxAverage (fun x => premultiplied_tap h x y) radius x

theorem premultiplied_boxed (h : ∀ p ∈ s.pixels, p.Premultiplied) (radius : ℕ) (x y : ℤ) :
    (s.boxed radius x y).Premultiplied :=
  premultiplied_boxAverage (fun y => premultiplied_across h radius x (clampIndex y s.height)) radius y

/-- The blur of premultiplied pixels is the average along the columns of the averages along the
rows, and none of these averages is changed by being sanitized. -/
theorem blur_box (hs : s.WellFormed) (h : ∀ p ∈ s.pixels, p.Premultiplied) (radius : ℕ) :
    (∃ blurred, s.blur radius = some blurred ∧ blurred.WellFormed ∧
      (blurred.x0 = s.x0 ∧ blurred.y0 = s.y0) ∧
      (blurred.width = s.width ∧ blurred.height = s.height) ∧
      ∀ x y, x < s.width → y < s.height →
        blurred.pixels[y * s.width + x]? = some (s.boxed (min radius 96) x y)) ∧
    ∀ x y : ℤ, (s.across (min radius 96) x y).sanitized = s.across (min radius 96) x y ∧
      (s.boxed (min radius 96) x y).sanitized = s.boxed (min radius 96) x y := by
  have hacross : ∀ x y, (s.across (min radius 96) x y).sanitized = s.across (min radius 96) x y :=
    fun x y => (premultiplied_across h _ x y).sanitized_eq
  have hboxed : ∀ x y, (s.boxed (min radius 96) x y).sanitized = s.boxed (min radius 96) x y :=
    fun x y => (premultiplied_boxed h _ x y).sanitized_eq
  obtain ⟨blurred, hblurred, hformed, hplace, hsize, hpixels⟩ := blur_returns hs radius
  refine ⟨⟨blurred, hblurred, hformed, hplace, hsize, fun x y hx hy => ?_⟩,
    fun x y => ⟨hacross x y, hboxed x y⟩⟩
  rw [hpixels x y hx hy]
  simp only [hacross]
  rw [← boxed, hboxed]

def redRow : Snapshot where
  x0 := 0
  y0 := 0
  width := 3
  height := 1
  pixels := [.transparent, ⟨⟨1 / 2, 0, 0⟩, 1 / 2⟩, .transparent]

theorem blur_box_red : ∃ blurred, redRow.blur 1 = some blurred ∧ blurred.WellFormed := by
  have hmiddle : PremulRgba.Premultiplied ⟨⟨1 / 2, 0, 0⟩, 1 / 2⟩ :=
    ⟨by norm_num, by norm_num, by norm_num⟩
  have hpixels : ∀ p ∈ redRow.pixels, p.Premultiplied := by
    rw [redRow, List.forall_mem_cons, List.forall_mem_cons, List.forall_mem_singleton]
    exact ⟨premultiplied_transparent, hmiddle, premultiplied_transparent⟩
  have hsize : redRow.WellFormed := rfl
  obtain ⟨⟨blurred, hblurred, hformed, -⟩, -⟩ := blur_box hsize hpixels 1
  exact ⟨blurred, hblurred, hformed⟩

end Snapshot

end AtomVibe.Material
