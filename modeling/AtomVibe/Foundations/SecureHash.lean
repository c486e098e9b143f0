import Mathlib.Data.Nat.Bitwise
import Mathlib.Data.Nat.NthRoot.Defs
import Mathlib.Tactic.Ring

/-!
The hash SHA-256 of the secure hash standard, on bit strings: the padding and the parsing of a
message, the schedule of a block, its 64 rounds and the digest. The constants are the first bits of
the roots of the first primes.
-/

namespace AtomVibe.SecureHash

def bits (width n : ℕ) : List Bool := (List.range width).reverse.map n.testBit

def number (bs : List Bool) : ℕ := bs.foldl (fun n b => 2 * n + b.toNat) 0

@[simp]
theorem length_bits (width n : ℕ) : (bits width n).length = width := by
  simp [bits]

theorem bits_succ (width n : ℕ) : bits (width + 1) n = n.testBit width :: bits width n := by
  simp [bits, List.range_succ]

theorem bits_add (front width n : ℕ) :
    bits (front + width) n = bits front (n / 2 ^ width) ++ bits width n := by
  induction front with
  | zero => rw [Nat.zero_add, bits.eq_1 0, List.range_zero, List.reverse_nil, List.map_nil,
      List.nil_append]
  | succ front ih =>
    rw [Nat.succ_add, bits_succ, bits_succ, ih, List.cons_append, Nat.testBit_div_two_pow]

theorem number_append (bs cs : List Bool) :
    number (bs ++ cs) = number bs * 2 ^ cs.length + number cs := by
  have hfold : ∀ (cs : List Bool) (n : ℕ), cs.foldl (fun n b => 2 * n + b.toNat) n =
      n * 2 ^ cs.length + number cs := by
    intro cs
    induction cs with
    | nil => simp [number]
    | cons c cs ih =>
      intro n
      rw [number, List.foldl_cons, List.foldl_cons, ih, ih (2 * 0 + c.toNat), List.length_cons]
      ring
  rw [number, List.foldl_append, hfold]
  rfl

theorem number_bits (width n : ℕ) : number (bits width n) = n % 2 ^ width := by
  induction width with
  | zero => rw [Nat.pow_zero, Nat.mod_one]; rfl
  | succ width ih =>
    have hbit : number [n.testBit width] = n / 2 ^ width % 2 := by
      rw [number, List.foldl_cons, List.foldl_nil, Nat.mul_zero, Nat.zero_add, Nat.toNat_testBit]
    rw [bits_succ, ← List.singleton_append, number_append, ih, length_bits, hbit, Nat.pow_succ,
      Nat.mod_mul]
    ring

theorem bits_inj {width m n : ℕ} (hm : m < 2 ^ width) (hn : n < 2 ^ width)
    (h : bits width m = bits width n) : m = n := by
  have hnumber := congrArg number h
  rwa [number_bits, number_bits, Nat.mod_eq_of_lt hm, Nat.mod_eq_of_lt hn] at hnumber

abbrev Word := BitVec 32

def wordOf (bs : List Bool) : Word := .ofNat 32 (number bs)

def wordBits (x : Word) : List Bool := bits 32 x.toNat

def ch (x y z : Word) : Word := (x &&& y) ^^^ (~~~x &&& z)

def maj (x y z : Word) : Word := (x &&& y) ^^^ (x &&& z) ^^^ (y &&& z)

def bigSigma0 (x : Word) : Word := x.rotateRight 2 ^^^ x.rotateRight 13 ^^^ x.rotateRight 22

def bigSigma1 (x : Word) : Word := x.rotateRight 6 ^^^ x.rotateRight 11 ^^^ x.rotateRight 25

def smallSigma0 (x : Word) : Word := x.rotateRight 7 ^^^ x.rotateRight 18 ^^^ (x >>> 3)

def smallSigma1 (x : Word) : Word := x.rotateRight 17 ^^^ x.rotateRight 19 ^^^ (x >>> 10)

def primes : List ℕ :=
  (List.range 312).filter fun n => 2 ≤ n ∧ ∀ d ∈ List.range n, 2 ≤ d → n % d ≠ 0

def rootBits (degree n : ℕ) : Word := .ofNat 32 (Nat.nthRoot degree (n * 2 ^ (32 * degree)))

def initialWord (i : ℕ) : Word := rootBits 2 (primes.getD i 0)

def roundWord (t : ℕ) : Word := rootBits 3 (primes.getD t 0)

def zeroBits (length : ℕ) : ℕ := (959 - length % 512) % 512

theorem zeroBits_fits (length : ℕ) : (length + 1 + zeroBits length) % 512 = 448 := by
  unfold zeroBits
  omega

theorem zeroBits_least {length zeros : ℕ} (h : (length + 1 + zeros) % 512 = 448) :
    zeroBits length ≤ zeros := by
  unfold zeroBits
  omega

def padded (message : List Bool) : List Bool :=
  message ++ true :: List.replicate (zeroBits message.length) false ++ bits 64 message.length

def part {α : Type*} (size i : ℕ) (xs : List α) : List α := (xs.drop (size * i)).take size

def blockWord (block : List Bool) (t : ℕ) : Word := wordOf (part 32 t block)

def scheduled (block : List Bool) (t : ℕ) : Word :=
  if t < 16 then blockWord block t
  else
    smallSigma1 (scheduled block (t - 2)) + scheduled block (t - 7) +
      smallSigma0 (scheduled block (t - 15)) + scheduled block (t - 16)

structure Working where
  a : Word
  b : Word
  c : Word
  d : Word
  e : Word
  f : Word
  g : Word
  h : Word

def Working.step (v : Working) (constant word : Word) : Working :=
  let temporary1 := v.h + bigSigma1 v.e + ch v.e v.f v.g + constant + word
  let temporary2 := bigSigma0 v.a + maj v.a v.b v.c
  { h := v.g
    g := v.f
    f := v.e
    e := v.d + temporary1
    d := v.c
    c := v.b
    b := v.a
    a := temporary1 + temporary2 }

def rounds (block : List Bool) (v : Working) : ℕ → Working
  | 0 => v
  | t + 1 => (rounds block v t).step (roundWord t) (scheduled block t)

def Working.add (v w : Working) : Working :=
  ⟨v.a + w.a, v.b + w.b, v.c + w.c, v.d + w.d, v.e + w.e, v.f + w.f, v.g + w.g, v.h + w.h⟩

def nextHash (v : Working) (block : List Bool) : Working := (rounds block v 64).add v

def initialHash : Working :=
  ⟨initialWord 0, initialWord 1, initialWord 2, initialWord 3, initialWord 4, initialWord 5,
    initialWord 6, initialWord 7⟩

def hashValue (message : List Bool) : ℕ → Working
  | 0 => initialHash
  | i + 1 => nextHash (hashValue message i) (part 512 i (padded message))

def Working.words (v : Working) : List Word := [v.a, v.b, v.c, v.d, v.e, v.f, v.g, v.h]

def digest (message : List Bool) : List Bool :=
  (hashValue message ((padded message).length / 512)).words.flatMap wordBits

end AtomVibe.SecureHash
