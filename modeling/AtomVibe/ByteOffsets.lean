import AtomVibe.Text

namespace AtomVibe.Text

@[simp]
theorem utf8Len_nil : utf8Len [] = 0 := rfl

@[simp]
theorem utf8Len_cons (c : Char) (cs : List Char) : utf8Len (c :: cs) = c.utf8Size + utf8Len cs := by
  simp [utf8Len]

@[simp]
theorem utf8Len_append (xs ys : List Char) : utf8Len (xs ++ ys) = utf8Len xs + utf8Len ys := by
  simp [utf8Len]

theorem dropBytes_zero (cs : List Char) : dropBytes 0 cs = cs := by
  cases cs <;> simp [dropBytes]

theorem takeBytes_zero (cs : List Char) : takeBytes 0 cs = [] := by
  cases cs <;> simp [takeBytes]

theorem isCharBoundary_zero (cs : List Char) : isCharBoundary 0 cs = true := by
  cases cs <;> rfl

theorem dropBytes_front (front cs : List Char) (n : ℕ) :
    dropBytes (utf8Len front + n) (front ++ cs) = dropBytes n cs := by
  induction front with
  | nil => rw [utf8Len_nil, Nat.zero_add, List.nil_append]
  | cons c front ih =>
    have hsize := c.utf8Size_pos
    have hrest : c.utf8Size + utf8Len front + n - c.utf8Size = utf8Len front + n := by omega
    rw [utf8Len_cons, List.cons_append, dropBytes, if_neg (by omega), hrest, ih]

theorem takeBytes_front (front cs : List Char) (n : ℕ) :
    takeBytes (utf8Len front + n) (front ++ cs) = front ++ takeBytes n cs := by
  induction front with
  | nil => rw [utf8Len_nil, Nat.zero_add, List.nil_append, List.nil_append]
  | cons c front ih =>
    have hsize := c.utf8Size_pos
    have hrest : c.utf8Size + utf8Len front + n - c.utf8Size = utf8Len front + n := by omega
    rw [utf8Len_cons, List.cons_append, takeBytes, if_neg (by omega), hrest, ih, List.cons_append]

theorem isCharBoundary_front (front cs : List Char) (n : ℕ) :
    isCharBoundary (utf8Len front + n) (front ++ cs) = isCharBoundary n cs := by
  induction front with
  | nil => rw [utf8Len_nil, Nat.zero_add, List.nil_append]
  | cons c front ih =>
    have hsize := c.utf8Size_pos
    have hrest : c.utf8Size + utf8Len front + n - c.utf8Size = utf8Len front + n := by omega
    have hne : (c.utf8Size + utf8Len front + n == 0) = false := by
      rw [beq_eq_false_iff_ne]
      omega
    have hle : c.utf8Size ≤ c.utf8Size + utf8Len front + n := by omega
    rw [utf8Len_cons, List.cons_append, isCharBoundary, hne, decide_eq_true hle, hrest, ih,
      Bool.true_and, Bool.false_or]

def charIndices (offset : ℕ) : List Char → List (ℕ × Char)
  | [] => []
  | c :: cs => (offset, c) :: charIndices (offset + c.utf8Size) cs

def charBoundary (text : List Char) (chars : ℕ) : ℕ :=
  ((charIndices 0 text)[chars]?.map Prod.fst).getD (utf8Len text)

theorem getElem?_charIndices (offset n : ℕ) (cs : List Char) :
    ((charIndices offset cs)[n]?.map Prod.fst).getD (offset + utf8Len cs) =
      offset + utf8Len (cs.take n) := by
  induction cs generalizing offset n with
  | nil => simp [charIndices]
  | cons c cs ih =>
    cases n with
    | zero => simp [charIndices]
    | succ n =>
      rw [charIndices, List.getElem?_cons_succ, utf8Len_cons, ← Nat.add_assoc, ih,
        List.take_succ_cons, utf8Len_cons, Nat.add_assoc]

theorem charBoundary_eq (cs : List Char) (n : ℕ) : charBoundary cs n = utf8Len (cs.take n) := by
  have h := getElem?_charIndices 0 n cs
  rw [Nat.zero_add, Nat.zero_add] at h
  exact h

theorem takeBytes_charBoundary (cs : List Char) (n : ℕ) :
    takeBytes (charBoundary cs n) cs = cs.take n := by
  have h := takeBytes_front (cs.take n) (cs.drop n) 0
  rw [List.take_append_drop, Nat.add_zero, takeBytes_zero, List.append_nil] at h
  rw [charBoundary_eq, h]

theorem dropBytes_charBoundary (cs : List Char) (n : ℕ) :
    dropBytes (charBoundary cs n) cs = cs.drop n := by
  have h := dropBytes_front (cs.take n) (cs.drop n) 0
  rw [List.take_append_drop, Nat.add_zero, dropBytes_zero] at h
  rw [charBoundary_eq, h]

theorem isCharBoundary_charBoundary (cs : List Char) (n : ℕ) :
    isCharBoundary (charBoundary cs n) cs = true := by
  have h := isCharBoundary_front (cs.take n) (cs.drop n) 0
  rw [List.take_append_drop, Nat.add_zero, isCharBoundary_zero] at h
  rw [charBoundary_eq, h]

def checkedSlice (text : List Char) (start stop : ℕ) : Option (List Char) :=
  if start ≤ stop ∧ isCharBoundary start text = true ∧ isCharBoundary stop text = true then
    some (slice start stop text)
  else none

def replaceRange (text : List Char) (start stop : ℕ) (inner : List Char) : Option (List Char) :=
  if start ≤ stop ∧ isCharBoundary start text = true ∧ isCharBoundary stop text = true then
    some (takeBytes start text ++ inner ++ dropBytes stop text)
  else none

def insertStr (text : List Char) (offset : ℕ) (s : List Char) : Option (List Char) :=
  if isCharBoundary offset text = true then
    some (takeBytes offset text ++ s ++ dropBytes offset text)
  else none

theorem utf8Len_eq_zero {cs : List Char} : utf8Len cs = 0 ↔ cs = [] := by
  cases cs with
  | nil => simp
  | cons c cs =>
    have hsize := c.utf8Size_pos
    rw [utf8Len_cons]
    constructor
    · intro h
      omega
    · intro h
      cases h

theorem utf8Len_le_charBoundary {cs : List Char} {n : ℕ} :
    utf8Len cs ≤ charBoundary cs n ↔ cs.length ≤ n := by
  have hsplit : utf8Len (cs.take n) + utf8Len (cs.drop n) = utf8Len cs := by
    rw [← utf8Len_append, List.take_append_drop]
  rw [charBoundary_eq, ← List.drop_eq_nil_iff, ← utf8Len_eq_zero]
  omega

theorem charBoundary_mono (cs : List Char) {m n : ℕ} (h : m ≤ n) :
    charBoundary cs m ≤ charBoundary cs n := by
  have hsplit : cs.take n = cs.take m ++ (cs.take n).drop m := by
    have htake : (cs.take n).take m = cs.take m := by rw [List.take_take, Nat.min_eq_left h]
    rw [← htake, List.take_append_drop]
  rw [charBoundary_eq, charBoundary_eq, hsplit, utf8Len_append]
  omega

theorem replaceRange_charBoundary (cs inner : List Char) {m n : ℕ} (h : m ≤ n) :
    replaceRange cs (charBoundary cs m) (charBoundary cs n) inner =
      some (cs.take m ++ inner ++ cs.drop n) := by
  rw [replaceRange, if_pos ⟨charBoundary_mono cs h, isCharBoundary_charBoundary cs m,
    isCharBoundary_charBoundary cs n⟩, takeBytes_charBoundary, dropBytes_charBoundary]

theorem insertStr_charBoundary (cs s : List Char) (n : ℕ) :
    insertStr cs (charBoundary cs n) s = some (cs.take n ++ s ++ cs.drop n) := by
  rw [insertStr, if_pos (isCharBoundary_charBoundary cs n), takeBytes_charBoundary,
    dropBytes_charBoundary]

theorem drop_split (cs : List Char) {m n : ℕ} (h : m ≤ n) :
    cs.drop m = (cs.take n).drop m ++ cs.drop n := by
  by_cases hn : n ≤ cs.length
  · have hm : m ≤ (cs.take n).length := by
      rw [List.length_take]
      omega
    rw [← List.drop_append_of_le_length hm, List.take_append_drop]
  · have hlength : cs.length ≤ n := by omega
    rw [List.take_of_length_le hlength, List.drop_of_length_le hlength, List.append_nil]

theorem checkedSlice_charBoundary (cs : List Char) {m n : ℕ} (h : m ≤ n) :
    checkedSlice cs (charBoundary cs m) (charBoundary cs n) = some ((cs.take n).drop m) := by
  have hlen : charBoundary cs n - charBoundary cs m = utf8Len ((cs.take n).drop m) := by
    have hm : (cs.take n).take m = cs.take m := by rw [List.take_take, Nat.min_eq_left h]
    have hparts : utf8Len ((cs.take n).take m) + utf8Len ((cs.take n).drop m) = utf8Len (cs.take n) := by
      rw [← utf8Len_append, List.take_append_drop]
    rw [charBoundary_eq, charBoundary_eq, ← hm]
    omega
  have hfront := takeBytes_front ((cs.take n).drop m) (cs.drop n) 0
  rw [Nat.add_zero, takeBytes_zero, List.append_nil, ← drop_split cs h] at hfront
  rw [checkedSlice, if_pos ⟨charBoundary_mono cs h, isCharBoundary_charBoundary cs m,
    isCharBoundary_charBoundary cs n⟩, slice, hlen, dropBytes_charBoundary, hfront]

theorem checkedSlice_middle (front middle back : List Char) :
    checkedSlice (front ++ middle ++ back) (utf8Len front) (utf8Len (front ++ middle)) =
      some middle := by
  have h := checkedSlice_charBoundary (front ++ middle ++ back)
    (Nat.le_add_right front.length middle.length)
  rw [charBoundary_eq, charBoundary_eq, ← List.length_append, List.take_left, List.drop_left,
    List.append_assoc, List.take_left] at h
  rw [List.append_assoc]
  exact h

section Bytes

variable {cs rest : List Char} {n : ℕ}

def bytesOf (cs : List Char) : List UInt8 := cs.flatMap String.utf8EncodeChar

theorem length_bytesOf (cs : List Char) : (bytesOf cs).length = utf8Len cs := by
  induction cs with
  | nil => rfl
  | cons c cs ih =>
    rw [bytesOf, List.flatMap_cons, List.length_append, ← bytesOf, ih, utf8Len_cons,
      String.length_utf8EncodeChar]

theorem dropBytes_append (h : n ≤ utf8Len cs) :
    dropBytes n (cs ++ rest) = dropBytes n cs ++ rest := by
  induction cs generalizing n with
  | nil =>
    obtain rfl := Nat.le_zero.mp h
    rw [List.nil_append, dropBytes_zero, dropBytes_zero, List.nil_append]
  | cons c cs ih =>
    rw [utf8Len_cons] at h
    rw [List.cons_append, dropBytes, dropBytes]
    split
    · rfl
    · exact ih (by omega)

theorem takeBytes_append (h : n ≤ utf8Len cs) : takeBytes n (cs ++ rest) = takeBytes n cs := by
  induction cs generalizing n with
  | nil =>
    obtain rfl := Nat.le_zero.mp h
    rw [takeBytes_zero, takeBytes_zero]
  | cons c cs ih =>
    rw [utf8Len_cons] at h
    rw [List.cons_append, takeBytes, takeBytes]
    split
    · rfl
    · rw [ih (by omega)]

theorem isCharBoundary_append (h : n ≤ utf8Len cs) :
    isCharBoundary n (cs ++ rest) = isCharBoundary n cs := by
  induction cs generalizing n with
  | nil =>
    obtain rfl := Nat.le_zero.mp h
    cases rest <;> simp [isCharBoundary]
  | cons c cs ih =>
    rw [utf8Len_cons] at h
    rw [List.cons_append, isCharBoundary, isCharBoundary]
    by_cases hsize : c.utf8Size ≤ n
    · rw [ih (by omega)]
    · simp [hsize]

theorem utf8Len_dropBytes (h : isCharBoundary n cs = true) :
    utf8Len (dropBytes n cs) = utf8Len cs - n := by
  induction cs generalizing n with
  | nil => simp [dropBytes]
  | cons c cs ih =>
    rw [isCharBoundary, Bool.or_eq_true, Bool.and_eq_true, decide_eq_true_eq, beq_iff_eq] at h
    rw [dropBytes]
    split
    · rename_i hzero
      rw [hzero, Nat.sub_zero]
    · rename_i hpos
      obtain ⟨hsize, hrest⟩ := h.resolve_left hpos
      rw [ih hrest, utf8Len_cons]
      omega

theorem isCharBoundary_end (cs : List Char) : isCharBoundary (utf8Len cs) cs = true := by
  have h := isCharBoundary_front cs [] 0
  rw [List.append_nil, Nat.add_zero] at h
  rw [h]
  rfl

theorem length_of_ascii {c : Char} {byte : UInt8} (h : byte ∈ String.utf8EncodeChar c)
    (hascii : byte < 0x80) : (String.utf8EncodeChar c).length = 1 := by
  have hsmall : byte.toNat < 128 := UInt8.lt_iff_toNat_lt.mp hascii
  rw [String.utf8EncodeChar] at h ⊢
  split at h
  · rename_i hone
    rw [if_pos hone]
    rfl
  · exfalso
    split at h
    · simp only [List.mem_cons, List.not_mem_nil, or_false] at h
      rcases h with rfl | rfl <;> rw [UInt8.toNat_ofNat'] at hsmall <;> omega
    · split at h
      · simp only [List.mem_cons, List.not_mem_nil, or_false] at h
        rcases h with rfl | rfl | rfl <;> rw [UInt8.toNat_ofNat'] at hsmall <;> omega
      · simp only [List.mem_cons, List.not_mem_nil, or_false] at h
        rcases h with rfl | rfl | rfl | rfl <;> rw [UInt8.toNat_ofNat'] at hsmall <;> omega

theorem isCharBoundary_of_ascii {byte : UInt8} (h : (bytesOf cs)[n]? = some byte)
    (hascii : byte < 0x80) : isCharBoundary n cs = true := by
  induction cs generalizing n with
  | nil => simp [bytesOf] at h
  | cons c cs ih =>
    rw [isCharBoundary, Bool.or_eq_true, Bool.and_eq_true, decide_eq_true_eq, beq_iff_eq]
    rw [bytesOf, List.flatMap_cons, ← bytesOf] at h
    by_cases hsize : c.utf8Size ≤ n
    · right
      rw [List.getElem?_append_right (by rw [String.length_utf8EncodeChar]; exact hsize),
        String.length_utf8EncodeChar] at h
      exact ⟨hsize, ih h⟩
    · left
      rw [List.getElem?_append_left (by rw [String.length_utf8EncodeChar]; omega)] at h
      have hone := length_of_ascii (List.mem_of_getElem? h) hascii
      rw [String.length_utf8EncodeChar] at hone
      omega

theorem le_of_isCharBoundary (h : isCharBoundary n cs = true) : n ≤ utf8Len cs := by
  induction cs generalizing n with
  | nil =>
    have hzero : n = 0 := by simpa [isCharBoundary] using h
    omega
  | cons c cs ih =>
    rw [isCharBoundary, Bool.or_eq_true, Bool.and_eq_true, decide_eq_true_eq, beq_iff_eq] at h
    rw [utf8Len_cons]
    rcases h with h | ⟨hsize, h⟩
    · omega
    · have hrest := ih h
      omega

theorem utf8Len_dropBytes_le (n : ℕ) (cs : List Char) :
    utf8Len (dropBytes n cs) ≤ utf8Len cs - n := by
  induction cs generalizing n with
  | nil => simp [dropBytes]
  | cons c cs ih =>
    rw [dropBytes]
    split
    · omega
    · have hrest := ih (n - c.utf8Size)
      rw [utf8Len_cons]
      omega

theorem utf8Len_takeBytes (h : isCharBoundary n cs = true) : utf8Len (takeBytes n cs) = n := by
  induction cs generalizing n with
  | nil =>
    have hzero : n = 0 := by simpa [isCharBoundary] using h
    rw [hzero]
    rfl
  | cons c cs ih =>
    rw [isCharBoundary, Bool.or_eq_true, Bool.and_eq_true, decide_eq_true_eq, beq_iff_eq] at h
    rw [takeBytes]
    split
    · rename_i hzero
      rw [hzero, utf8Len_nil]
    · rename_i hpos
      obtain ⟨hsize, hrest⟩ := h.resolve_left hpos
      rw [utf8Len_cons, ih hrest]
      omega

theorem utf8Len_mono {xs ys : List Char} (h : xs <+: ys) : utf8Len xs ≤ utf8Len ys := by
  obtain ⟨more, rfl⟩ := h
  rw [utf8Len_append]
  omega

theorem takeBytes_all {n : ℕ} (h : utf8Len cs ≤ n) : takeBytes n cs = cs := by
  induction cs generalizing n with
  | nil => rfl
  | cons c cs ih =>
    have hpos := c.utf8Size_pos
    rw [utf8Len_cons] at h
    rw [takeBytes, if_neg (by omega), ih (by omega)]

end Bytes

end AtomVibe.Text

namespace AtomVibe.Text

def floorCharBoundary (cs : List Char) : ℕ → ℕ
  | 0 => 0
  | stop + 1 => if isCharBoundary (stop + 1) cs then stop + 1 else floorCharBoundary cs stop

variable {cs : List Char} {n : ℕ}

theorem floorCharBoundary_le (cs : List Char) (n : ℕ) : floorCharBoundary cs n ≤ n := by
  induction n with
  | zero => exact le_rfl
  | succ n ih =>
    rw [floorCharBoundary]
    split
    · exact le_rfl
    · omega

theorem isCharBoundary_floor (cs : List Char) (n : ℕ) :
    isCharBoundary (floorCharBoundary cs n) cs = true := by
  induction n with
  | zero => exact isCharBoundary_zero cs
  | succ n ih =>
    rw [floorCharBoundary]
    split
    · assumption
    · exact ih

theorem le_floorCharBoundary {b : ℕ} (hb : isCharBoundary b cs = true) (hn : b ≤ n) :
    b ≤ floorCharBoundary cs n := by
  induction n with
  | zero => exact hn
  | succ n ih =>
    rw [floorCharBoundary]
    split
    · exact hn
    · rename_i hnot
      apply ih
      have hne : b ≠ n + 1 := by
        rintro rfl
        exact hnot hb
      omega

theorem floorCharBoundary_of_boundary (h : isCharBoundary n cs = true) :
    floorCharBoundary cs n = n :=
  (floorCharBoundary_le cs n).antisymm (le_floorCharBoundary h le_rfl)

theorem exists_boundary_near (h : n ≤ utf8Len cs) :
    ∃ b, isCharBoundary b cs = true ∧ b ≤ n ∧ n ≤ b + 3 := by
  induction cs generalizing n with
  | nil => exact ⟨0, rfl, Nat.zero_le _, h.trans (Nat.zero_le _)⟩
  | cons c cs ih =>
    rw [utf8Len_cons] at h
    by_cases hsize : c.utf8Size ≤ n
    · obtain ⟨b, hb, hle, hnear⟩ := @ih (n - c.utf8Size) (by omega)
      refine ⟨b + c.utf8Size, ?_, by omega, by omega⟩
      rw [isCharBoundary, Nat.add_sub_cancel, hb, Bool.and_true, Bool.or_eq_true, decide_eq_true_eq]
      right
      omega
    · have hfour := c.utf8Size_le_four
      exact ⟨0, isCharBoundary_zero _, Nat.zero_le _, by omega⟩

theorem le_floorCharBoundary_add_three (h : n ≤ utf8Len cs) : n ≤ floorCharBoundary cs n + 3 := by
  obtain ⟨b, hb, hle, hnear⟩ := exists_boundary_near h
  have hfloor := le_floorCharBoundary hb hle
  omega

theorem takeBytes_isFront (n : ℕ) (cs : List Char) : takeBytes n cs <+: cs := by
  induction cs generalizing n with
  | nil => exact List.prefix_rfl
  | cons c cs ih =>
    rw [takeBytes]
    split
    · exact List.nil_prefix
    · exact (List.prefix_cons_inj c).mpr (ih _)

theorem utf8Len_takeBytes_floor (cs : List Char) (n : ℕ) :
    utf8Len (takeBytes (floorCharBoundary cs n) cs) = floorCharBoundary cs n :=
  utf8Len_takeBytes (isCharBoundary_floor cs n)

end AtomVibe.Text
