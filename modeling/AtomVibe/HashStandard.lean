import AtomVibe.Foundations.SecureHash
import AtomVibe.Hash

namespace AtomVibe.Hash

open SecureHash

def byteBits (byte : UInt8) : List Bool := bits 8 byte.toNat

def bitsOf (bytes : List UInt8) : List Bool := bytes.flatMap byteBits

section Bits

variable {bytes front rest : List UInt8} {width n : ℕ}

theorem bitsOf_cons (byte : UInt8) (bytes : List UInt8) :
    bitsOf (byte :: bytes) = byteBits byte ++ bitsOf bytes := rfl

theorem bitsOf_append (front rest : List UInt8) : bitsOf (front ++ rest) = bitsOf front ++ bitsOf rest :=
  List.flatMap_append

@[simp]
theorem length_bitsOf (bytes : List UInt8) : (bitsOf bytes).length = 8 * bytes.length := by
  induction bytes with
  | nil => rfl
  | cons byte bytes ih =>
    rw [bitsOf_cons, List.length_append, ih, byteBits, length_bits, List.length_cons]
    omega

theorem drop_bitsOf (n : ℕ) (bytes : List UInt8) :
    (bitsOf bytes).drop (8 * n) = bitsOf (bytes.drop n) := by
  rcases Nat.le_total n bytes.length with hle | hle
  · have hlength : (bitsOf (bytes.take n)).length = 8 * n := by
      rw [length_bitsOf, List.length_take, Nat.min_eq_left hle]
    conv_lhs => rw [← List.take_append_drop n bytes, bitsOf_append]
    exact List.drop_left' hlength
  · rw [List.drop_of_length_le hle, List.drop_of_length_le]
    · rfl
    · rw [length_bitsOf]
      omega

theorem take_bitsOf (n : ℕ) (bytes : List UInt8) :
    (bitsOf bytes).take (8 * n) = bitsOf (bytes.take n) := by
  rcases Nat.le_total n bytes.length with hle | hle
  · have hlength : (bitsOf (bytes.take n)).length = 8 * n := by
      rw [length_bitsOf, List.length_take, Nat.min_eq_left hle]
    conv_lhs => rw [← List.take_append_drop n bytes, bitsOf_append]
    exact List.take_left' hlength
  · rw [List.take_of_length_le hle, List.take_of_length_le]
    rw [length_bitsOf]
    omega

theorem part_bitsOf (size i : ℕ) (bytes : List UInt8) :
    part (8 * size) i (bitsOf bytes) = bitsOf (part size i bytes) := by
  rw [part, Nat.mul_assoc, drop_bitsOf, take_bitsOf, part]

theorem bits_mod (width n : ℕ) : bits width (n % 2 ^ width) = bits width n := by
  rw [bits, bits]
  apply List.map_congr_left
  intro i hi
  rw [List.mem_reverse, List.mem_range] at hi
  rw [Nat.testBit_mod_two_pow, decide_eq_true hi, Bool.true_and]

theorem byteBits_ofNat (n : ℕ) : byteBits (.ofNat n) = bits 8 n := by
  rw [byteBits, UInt8.toNat_ofNat', bits_mod]

theorem bitsOf_toBeBytes (width n : ℕ) : bitsOf (toBeBytes width n) = bits (8 * width) n := by
  induction width with
  | zero => rfl
  | succ width ih =>
    have hpow : 256 ^ width = 2 ^ (8 * width) := by
      rw [Nat.pow_mul]
    have hbytes : toBeBytes (width + 1) n = .ofNat (n / 256 ^ width) :: toBeBytes width n := by
      simp [toBeBytes, List.range_succ]
    rw [hbytes, bitsOf_cons, ih, byteBits_ofNat, hpow, Nat.mul_succ, Nat.add_comm, bits_add]

theorem byteBits_injective : Function.Injective byteBits := by
  intro x y h
  exact UInt8.toNat_inj.mp (bits_inj x.toNat_lt y.toNat_lt h)

theorem bitsOf_injective : Function.Injective bitsOf := by
  intro xs
  induction xs with
  | nil =>
    intro ys h
    have hlength := congrArg List.length h
    rw [length_bitsOf, length_bitsOf, List.length_nil] at hlength
    exact (List.length_eq_zero_iff.mp (by omega)).symm
  | cons x xs ih =>
    intro ys h
    cases ys with
    | nil =>
      have hlength := congrArg List.length h
      rw [length_bitsOf, length_bitsOf, List.length_cons, List.length_nil] at hlength
      omega
    | cons y ys =>
      rw [bitsOf_cons, bitsOf_cons] at h
      obtain ⟨hhead, htail⟩ := List.append_inj h (by rw [byteBits, byteBits, length_bits, length_bits])
      rw [byteBits_injective hhead, ih htail]

end Bits

theorem toNat_pushByte (word : UInt32) (byte : UInt8) :
    (word <<< 8 ||| byte.toUInt32).toNat = (word.toNat * 2 ^ 8 + byte.toNat) % 2 ^ 32 := by
  have hbyte : byte.toNat < 2 ^ 8 := byte.toNat_lt
  have hhigh : word.toNat * 2 ^ 8 % 2 ^ 32 = word.toNat % 2 ^ 24 * 2 ^ 8 := by omega
  rw [UInt32.toNat_or, UInt32.toNat_shiftLeft, UInt8.toNat_toUInt32]
  change word.toNat <<< 8 % 2 ^ 32 ||| byte.toNat = _
  rw [Nat.shiftLeft_eq, hhigh, ← Nat.shiftLeft_eq, ← Nat.shiftLeft_add_eq_or_of_lt hbyte,
    Nat.shiftLeft_eq]
  omega

theorem toNat_fromBeBytes (bytes : List UInt8) :
    (fromBeBytes bytes).toNat = number (bitsOf bytes) % 2 ^ 32 := by
  have hfold : ∀ (bytes : List UInt8) (word : UInt32),
      (bytes.foldl (fun (word : UInt32) byte => word <<< 8 ||| byte.toUInt32) word).toNat =
        (word.toNat * 2 ^ (8 * bytes.length) + number (bitsOf bytes)) % 2 ^ 32 := by
    intro bytes
    induction bytes with
    | nil =>
      intro word
      rw [List.foldl_nil, List.length_nil, Nat.mul_zero, Nat.pow_zero, Nat.mul_one]
      exact (Nat.mod_eq_of_lt word.toNat_lt).symm
    | cons byte bytes ih =>
      intro word
      have hbyte : number (byteBits byte) = byte.toNat := by
        rw [byteBits, number_bits]
        exact Nat.mod_eq_of_lt byte.toNat_lt
      have hsplit : (word.toNat * 2 ^ 8 + byte.toNat) * 2 ^ (8 * bytes.length) =
          word.toNat * 2 ^ (8 * (byte :: bytes).length) + byte.toNat * 2 ^ (8 * bytes.length) := by
        rw [List.length_cons]
        ring
      rw [List.foldl_cons, ih, toNat_pushByte, bitsOf_cons, number_append, hbyte, length_bitsOf,
        ← Nat.add_assoc, ← hsplit, Nat.add_mod, Nat.mod_mul_mod, ← Nat.add_mod]
  rw [fromBeBytes, hfold]
  simp

theorem toBitVec_fromBeBytes (bytes : List UInt8) :
    (fromBeBytes bytes).toBitVec = wordOf (bitsOf bytes) := by
  apply BitVec.eq_of_toNat_eq
  rw [wordOf, BitVec.toNat_ofNat]
  exact toNat_fromBeBytes bytes

theorem chunksExact_eq {α : Type} (size count : ℕ) (xs : List α) :
    chunksExact size count xs = (List.range count).map fun i => part size i xs := by
  induction count generalizing xs with
  | zero => rfl
  | succ count ih =>
    rw [chunksExact, ih, List.range_succ_eq_map, List.map_cons, List.map_map, part, Nat.mul_zero,
      List.drop_zero]
    congr 1
    apply List.map_congr_left
    intro i _
    rw [Function.comp_apply, part, part, List.drop_drop, Nat.mul_succ, Nat.add_comm]

theorem toBitVec_rotateRight (x : UInt32) {n : ℕ} (hpos : 0 < n) (hlt : n < 32) :
    (rotateRight x (.ofNat n)).toBitVec = x.toBitVec.rotateRight n := by
  have hright : ((UInt32.ofNat n).toBitVec % 32).toNat = n := by
    rw [BitVec.toNat_umod, UInt32.toNat_toBitVec, UInt32.toNat_ofNat']
    change n % 2 ^ 32 % 32 = n
    omega
  have hleft : ((32 - UInt32.ofNat n).toBitVec % 32).toNat = 32 - n := by
    rw [BitVec.toNat_umod, UInt32.toNat_toBitVec, UInt32.toNat_sub, UInt32.toNat_ofNat']
    change (2 ^ 32 - n % 2 ^ 32 + 32) % 2 ^ 32 % 32 = 32 - n
    omega
  rw [rotateRight, UInt32.toBitVec_or, UInt32.toBitVec_shiftRight, UInt32.toBitVec_shiftLeft,
    BitVec.shiftLeft_eq', BitVec.ushiftRight_eq', hright, hleft, BitVec.rotateRight_def,
    Nat.mod_eq_of_lt hlt]

theorem toBitVec_shiftRight (x : UInt32) {n : ℕ} (hlt : n < 32) :
    (x >>> UInt32.ofNat n).toBitVec = x.toBitVec >>> n := by
  have hright : ((UInt32.ofNat n).toBitVec % 32).toNat = n := by
    rw [BitVec.toNat_umod, UInt32.toNat_toBitVec, UInt32.toNat_ofNat']
    change n % 2 ^ 32 % 32 = n
    omega
  rw [UInt32.toBitVec_shiftRight, BitVec.ushiftRight_eq', hright]

theorem toBitVec_rotations (x y : UInt32) {i j : ℕ} (hi : 0 < i ∧ i < 32) (hj : 0 < j ∧ j < 32) :
    (rotateRight x (.ofNat i) ^^^ rotateRight x (.ofNat j) ^^^ y).toBitVec =
      x.toBitVec.rotateRight i ^^^ x.toBitVec.rotateRight j ^^^ y.toBitVec := by
  rw [UInt32.toBitVec_xor, UInt32.toBitVec_xor, toBitVec_rotateRight x hi.1 hi.2,
    toBitVec_rotateRight x hj.1 hj.2]

theorem toBitVec_bigSigma0 (x : UInt32) :
    (rotateRight x 2 ^^^ rotateRight x 13 ^^^ rotateRight x 22).toBitVec =
      bigSigma0 x.toBitVec := by
  have h := toBitVec_rotations x (rotateRight x (.ofNat 22)) (show 0 < 2 ∧ 2 < 32 by decide)
    (show 0 < 13 ∧ 13 < 32 by decide)
  rwa [toBitVec_rotateRight x (show 0 < 22 by decide) (by decide)] at h

theorem toBitVec_bigSigma1 (x : UInt32) :
    (rotateRight x 6 ^^^ rotateRight x 11 ^^^ rotateRight x 25).toBitVec =
      bigSigma1 x.toBitVec := by
  have h := toBitVec_rotations x (rotateRight x (.ofNat 25)) (show 0 < 6 ∧ 6 < 32 by decide)
    (show 0 < 11 ∧ 11 < 32 by decide)
  rwa [toBitVec_rotateRight x (show 0 < 25 by decide) (by decide)] at h

theorem toBitVec_smallSigma0 (x : UInt32) :
    (rotateRight x 7 ^^^ rotateRight x 18 ^^^ (x >>> 3)).toBitVec = smallSigma0 x.toBitVec := by
  have h := toBitVec_rotations x (x >>> .ofNat 3) (show 0 < 7 ∧ 7 < 32 by decide)
    (show 0 < 18 ∧ 18 < 32 by decide)
  rwa [toBitVec_shiftRight x (show 3 < 32 by decide)] at h

theorem toBitVec_smallSigma1 (x : UInt32) :
    (rotateRight x 17 ^^^ rotateRight x 19 ^^^ (x >>> 10)).toBitVec = smallSigma1 x.toBitVec := by
  have h := toBitVec_rotations x (x >>> .ofNat 10) (show 0 < 17 ∧ 17 < 32 by decide)
    (show 0 < 19 ∧ 19 < 32 by decide)
  rwa [toBitVec_shiftRight x (show 10 < 32 by decide)] at h

section Schedule

variable {block : List UInt8} {words : List UInt32}

def Scheduled (block : List UInt8) (words : List UInt32) : Prop :=
  16 ≤ words.length ∧
    ∀ t < words.length, (words.getD t 0).toBitVec = scheduled (bitsOf block) t

theorem scheduled_input (block : List UInt8) :
    Scheduled block ((chunksExact 4 16 block).map fromBeBytes) := by
  have hlength : ((chunksExact 4 16 block).map fromBeBytes).length = 16 := by
    rw [chunksExact_eq, List.length_map, List.length_map, List.length_range]
  refine ⟨hlength.ge, fun t ht => ?_⟩
  rw [hlength] at ht
  rw [scheduled, if_pos ht, blockWord, chunksExact_eq, List.map_map, List.getD_eq_getElem?_getD,
    List.getElem?_map, List.getElem?_range ht, Option.map_some, Option.getD_some,
    Function.comp_apply, toBitVec_fromBeBytes, ← part_bitsOf]

theorem Scheduled.next (h : Scheduled block words) :
    let word := fun back => words.getD (words.length - back) 0
    let s0 := rotateRight (word 15) 7 ^^^ rotateRight (word 15) 18 ^^^ (word 15 >>> 3)
    let s1 := rotateRight (word 2) 17 ^^^ rotateRight (word 2) 19 ^^^ (word 2 >>> 10)
    Scheduled block (words ++ [word 16 + s0 + word 7 + s1]) := by
  intro word s0 s1
  obtain ⟨hroom, hwords⟩ := h
  have hback : ∀ back, 0 < back → (word back).toBitVec =
      scheduled (bitsOf block) (words.length - back) :=
    fun back hpos => hwords _ (by omega)
  refine ⟨?_, fun t ht => ?_⟩
  · rw [List.length_append]
    omega
  · rw [List.length_append, List.length_singleton] at ht
    rcases Nat.lt_succ_iff_lt_or_eq.mp ht with hlt | rfl
    · rw [List.getD_append _ _ _ _ hlt]
      exact hwords t hlt
    · rw [List.getD_append_right _ _ _ _ le_rfl, Nat.sub_self, List.getD_cons_zero, scheduled,
        if_neg (by omega), ← hback 2 (by decide), ← hback 7 (by decide), ← hback 15 (by decide),
        ← hback 16 (by decide), ← toBitVec_smallSigma0, ← toBitVec_smallSigma1]
      simp only [UInt32.toBitVec_add, s0, s1]
      ac_rfl

theorem Scheduled.fill (turns : ℕ) (h : Scheduled block words) :
    Scheduled block (fillSchedule turns words) ∧
      (fillSchedule turns words).length = words.length + turns := by
  induction turns generalizing words with
  | zero => exact ⟨h, rfl⟩
  | succ turns ih =>
    obtain ⟨hfilled, hlength⟩ := ih h.next
    refine ⟨hfilled, ?_⟩
    rw [fillSchedule, hlength, List.length_append, List.length_singleton]
    omega

theorem scheduled_schedule (block : List UInt8) :
    (schedule block).length = 64 ∧
      ∀ t < 64, ((schedule block).getD t 0).toBitVec = scheduled (bitsOf block) t := by
  obtain ⟨hfilled, hlength⟩ := (scheduled_input block).fill 48
  rw [chunksExact_eq, List.length_map, List.length_map, List.length_range] at hlength
  rw [← chunksExact_eq] at hlength
  exact ⟨hlength, fun t ht => hfilled.2 t (by rw [hlength]; exact ht)⟩

end Schedule

def State.working (s : State) : Working :=
  ⟨s.a.toBitVec, s.b.toBitVec, s.c.toBitVec, s.d.toBitVec, s.e.toBitVec, s.f.toBitVec,
    s.g.toBitVec, s.h.toBitVec⟩

theorem working_compressRound (s : State) (constant word : UInt32) :
    (compressRound s constant word).working = s.working.step constant.toBitVec word.toBitVec := by
  simp only [compressRound, State.working, Working.step, ← toBitVec_bigSigma0,
    ← toBitVec_bigSigma1, ch, maj, UInt32.toBitVec_add, UInt32.toBitVec_xor, UInt32.toBitVec_and,
    UInt32.toBitVec_not]

theorem round_eq : round.map UInt32.toBitVec = (List.range 64).map roundWord := by decide +kernel

theorem working_initial : initial.working = initialHash := by
  have h : initial.words.map UInt32.toBitVec = initialHash.words := by decide +kernel
  simp only [State.words, Working.words, List.map_cons, List.map_nil, List.cons.injEq,
    and_true] at h
  obtain ⟨ha, hb, hc, hd, he, hf, hg, hh⟩ := h
  rw [State.working, ha, hb, hc, hd, he, hf, hg, hh]

theorem working_rounds (s : State) (block : List UInt8) {n : ℕ} (hn : n ≤ 64) :
    (((round.zip (schedule block)).take n).foldl (fun t kw => compressRound t kw.1 kw.2)
      s).working = rounds (bitsOf block) s.working n := by
  induction n with
  | zero => rfl
  | succ n ih =>
    have hlt : n < 64 := hn
    obtain ⟨word, hword, hvalue⟩ : ∃ word, (schedule block)[n]? = some word ∧
        word.toBitVec = scheduled (bitsOf block) n := by
      obtain ⟨hlength, hwords⟩ := scheduled_schedule block
      have hget := List.getElem?_eq_getElem (show n < (schedule block).length by rwa [hlength])
      refine ⟨_, hget, ?_⟩
      rw [← hwords n hlt, List.getD_eq_getElem?_getD, hget, Option.getD_some]
    obtain ⟨constant, hconstant, hbits⟩ : ∃ constant, round[n]? = some constant ∧
        constant.toBitVec = roundWord n := by
      have hmap := congrArg (·[n]?) round_eq
      simp only [List.getElem?_map, List.getElem?_range hlt, Option.map_some] at hmap
      exact Option.map_eq_some_iff.mp hmap
    have hpair : (round.zip (schedule block))[n]? = some (constant, word) := by
      rw [List.getElem?_zip_eq_some]
      exact ⟨hconstant, hword⟩
    rw [List.take_add_one, hpair, List.foldl_append, Option.toList_some, List.foldl_cons,
      List.foldl_nil, working_compressRound, ih hlt.le, hbits, hvalue, rounds]

theorem working_compress (s : State) (block : List UInt8) :
    (compress s block).working = nextHash s.working (bitsOf block) := by
  have hlength : (round.zip (schedule block)).length ≤ 64 := by
    rw [List.length_zip, (scheduled_schedule block).1]
    exact Nat.min_le_right _ _
  have hrounds := working_rounds s block (Nat.le_refl 64)
  rw [List.take_of_length_le hlength] at hrounds
  rw [nextHash, ← hrounds, compress]
  generalize (round.zip (schedule block)).foldl (fun t kw => compressRound t kw.1 kw.2) s = t
  simp only [State.working, Working.add, UInt32.toBitVec_add, BitVec.add_comm]

theorem bitsOf_padMessage (bytes : List UInt8) : bitsOf (padMessage bytes) = padded (bitsOf bytes) := by
  have hmark : byteBits 0x80 = true :: List.replicate 7 false := by decide
  have hzeros : ∀ n, bitsOf (List.replicate n 0) = List.replicate (8 * n) false := by
    intro n
    induction n with
    | zero => rfl
    | succ n ih =>
      rw [List.replicate_succ, bitsOf_cons, ih, show byteBits 0 = List.replicate 8 false by decide,
        List.replicate_append_replicate, Nat.mul_succ, Nat.add_comm]
  have hcount : 7 + 8 * ((119 - bytes.length % 64) % 64) = zeroBits (8 * bytes.length) := by
    unfold zeroBits
    omega
  rw [padMessage, bitsOf_append, bitsOf_append, bitsOf_cons, hmark, hzeros, bitsOf_toBeBytes,
    bits_mod, List.cons_append, List.replicate_append_replicate, hcount, padded, length_bitsOf,
    Nat.mul_comm]

theorem bitsOf_sha256 (bytes : List UInt8) :
    bitsOf (sha256 bytes) = digest (bitsOf bytes) := by
  have hblocks : ∀ n, (((List.range n).map fun i => part 64 i (padMessage bytes)).foldl compress
      initial).working = hashValue (bitsOf bytes) n := by
    intro n
    induction n with
    | zero => exact working_initial
    | succ n ih =>
      rw [List.range_succ, List.map_append, List.foldl_append, List.map_singleton, List.foldl_cons,
        List.foldl_nil, working_compress, ih, hashValue, ← bitsOf_padMessage]
      rw [← part_bitsOf]
  have hcount : (padMessage bytes).length / 64 = (padded (bitsOf bytes)).length / 512 := by
    rw [← bitsOf_padMessage, length_bitsOf]
    omega
  have hwords : ∀ s : State, bitsOf (s.words.flatMap fun word => toBeBytes 4 word.toNat) =
      s.working.words.flatMap wordBits := by
    intro s
    simp only [State.words, State.working, Working.words, List.flatMap_cons, List.flatMap_nil,
      bitsOf_append, bitsOf_toBeBytes]
    rfl
  rw [sha256]
  simp only [chunksExact_eq]
  rw [hwords, hblocks, hcount]
  rfl

/-- The hash is the digest of the standard, as bytes, and its tag is a valid one that tells digests
apart. -/
theorem sha256_is_standard (bytes : List UInt8) :
    (∀ output, output = sha256 bytes ↔ bitsOf output = digest (bitsOf bytes)) ∧
      validSha256Tag (sha256Tagged bytes) = true ∧
      ∀ others, sha256Tagged others = sha256Tagged bytes ↔ sha256 others = sha256 bytes := by
  refine ⟨fun output => ?_, validSha256Tag_sha256Tagged bytes, fun others => sha256Tagged_inj⟩
  rw [← bitsOf_sha256]
  exact bitsOf_injective.eq_iff.symm

end AtomVibe.Hash
