import AtomVibe.HtmlScan
import Mathlib.Data.Nat.Find

namespace AtomVibe.Html

open Text

def styleOpen : List UInt8 := bytesOf "<style".toList

def styleClose : List UInt8 := bytesOf "</style".toList

section Elements

variable (src : List Char)

def Piece.body? (piece : Piece) : Option Block :=
  match piece.read with
  | .skipped tag tagEnd close =>
    if tag = "style".toList ∧ tagEnd < utf8Len src then
      let stop := close.getD (utf8Len src)
      some ⟨tagEnd + 1, stop, slice (tagEnd + 1) stop src⟩
    else none
  | _ => none

def styleBodies : Option (List Block) :=
  (pieces src).map fun pieces => pieces.filterMap (Piece.body? src)

def Completed (q : ℕ) : Prop :=
  ∃ o c, q ≤ o ∧ (bytesOf src)[o]? = some (asciiByte '>') ∧ o < c ∧
    matchesAt (bytesOf src) styleClose c = true

def Opens (i o : ℕ) : Prop :=
  ∃ q, i ≤ q ∧ matchesAt (bytesOf src) styleOpen q = true ∧
    (∀ m, i ≤ m → m < q → matchesAt (bytesOf src) styleOpen m = false) ∧
    q ≤ o ∧ (bytesOf src)[o]? = some (asciiByte '>') ∧
    ∀ m, q ≤ m → m < o → (bytesOf src)[m]? ≠ some (asciiByte '>')

/-- A style element is closed, and its tag ends where the first look-alike in it does; everywhere
else no look-alike is ended and closed. -/
def Plain (piece : Piece) : Prop :=
  match piece.body? src with
  | some body => (∃ c, c = body.stop ∧ matchesAt (bytesOf src) styleClose c = true) ∧
      ∃ o, Opens src piece.start o ∧ o + 1 = body.start
  | none => ∀ q, piece.start ≤ q → q < piece.next →
      matchesAt (bytesOf src) styleOpen q = true → ¬ Completed src q

def afterClose (c : ℕ) : ℕ :=
  match findChar '>' (dropBytes c src) with
  | some offset => c + offset + 1
  | none => utf8Len src

def Closes (i c : ℕ) : Prop :=
  i ≤ c ∧ matchesAt (bytesOf src) styleClose c = true ∧
    ∀ m, i ≤ m → m < c → matchesAt (bytesOf src) styleClose m = false

inductive BlocksFrom : ℕ → List Block → Prop
  | done {i : ℕ} (h : ∀ o c, Opens src i o → ¬ Closes src (o + 1) c) : BlocksFrom i []
  | block {i o c : ℕ} {more : List Block} (hopen : Opens src i o) (hclose : Closes src (o + 1) c)
    (hmore : BlocksFrom (afterClose src c) more) :
    BlocksFrom i (⟨o + 1, c, slice (o + 1) c src⟩ :: more)

end Elements

section Places

variable {src : List Char} {i o o' c c' q : ℕ}

theorem Opens.unique (h : Opens src i o) (h' : Opens src i o') : o = o' := by
  obtain ⟨q, hq, hmatch, hfirst, hle, hgt, hnone⟩ := h
  obtain ⟨q', hq', hmatch', hfirst', hle', hgt', hnone'⟩ := h'
  have hsame : q = q' := by
    obtain hlt | heq | hlt := Nat.lt_trichotomy q q'
    · rw [hfirst' q hq hlt] at hmatch
      cases hmatch
    · exact heq
    · rw [hfirst q' hq' hlt] at hmatch'
      cases hmatch'
  subst hsame
  obtain hlt | heq | hlt := Nat.lt_trichotomy o o'
  · exact absurd hgt (hnone' o hle hlt)
  · exact heq
  · exact absurd hgt' (hnone o' hle' hlt)

theorem Closes.unique (h : Closes src i c) (h' : Closes src i c') : c = c' := by
  obtain ⟨hle, hmatch, hfirst⟩ := h
  obtain ⟨hle', hmatch', hfirst'⟩ := h'
  obtain hlt | heq | hlt := Nat.lt_trichotomy c c'
  · rw [hfirst' c hle hlt] at hmatch
    cases hmatch
  · exact heq
  · rw [hfirst c' hle' hlt] at hmatch'
    cases hmatch'

theorem exists_first {p : ℕ → Prop} {n : ℕ} (hi : i ≤ n) (h : p n) :
    ∃ m, i ≤ m ∧ m ≤ n ∧ p m ∧ ∀ k, i ≤ k → k < m → ¬ p k := by
  classical
  have hex : ∃ m, i ≤ m ∧ p m := ⟨n, hi, h⟩
  obtain ⟨hle, hp⟩ := Nat.find_spec hex
  exact ⟨Nat.find hex, hle, Nat.find_min' hex ⟨hi, h⟩, hp,
    fun k hk hlt hpk => Nat.find_min hex hlt ⟨hk, hpk⟩⟩

theorem Completed.exists_block (h : Completed src q) (hi : i ≤ q)
    (hmatch : matchesAt (bytesOf src) styleOpen q = true) :
    ∃ q' o c, q' ≤ q ∧ Opens src i o ∧ Closes src (o + 1) c ∧
      matchesAt (bytesOf src) styleOpen q' = true ∧ i ≤ q' ∧ q' ≤ o ∧
      ∀ g, q' ≤ g → (bytesOf src)[g]? = some (asciiByte '>') → o ≤ g := by
  obtain ⟨g, k, hq, hgt, hgk, hclose⟩ := h
  obtain ⟨q', hi', hq', hmatch', hfirst⟩ :=
    exists_first (p := fun m => matchesAt (bytesOf src) styleOpen m = true) hi hmatch
  obtain ⟨o, ho, hog, hends, hnone⟩ :=
    exists_first (p := fun m => (bytesOf src)[m]? = some (asciiByte '>')) (hq'.trans hq) hgt
  obtain ⟨c, hc, -, hcloses, hbefore⟩ :=
    exists_first (p := fun m => matchesAt (bytesOf src) styleClose m = true)
      (Nat.succ_le_of_lt (hog.trans_lt hgk)) hclose
  refine ⟨q', o, c, hq', ⟨q', hi', hmatch', fun m hm hlt => Bool.eq_false_iff.mpr (hfirst m hm hlt),
    ho, hends, hnone⟩, ⟨hc, hcloses, fun m hm hlt => Bool.eq_false_iff.mpr (hbefore m hm hlt)⟩,
    hmatch', hi', ho, fun g hg hgt => ?_⟩
  by_contra hlt
  exact hnone g hg (by omega) hgt

theorem Opens.later {j : ℕ} (h : Opens src i o) (hij : i ≤ j)
    (hnone : ∀ m, i ≤ m → m < j → matchesAt (bytesOf src) styleOpen m = false) : Opens src j o := by
  obtain ⟨q, hq, hmatch, hfirst, hrest⟩ := h
  refine ⟨q, ?_, hmatch, fun m hm hlt => hfirst m (hij.trans hm) hlt, hrest⟩
  by_contra hlt
  rw [hnone q hq (by omega)] at hmatch
  cases hmatch

theorem Opens.earlier {j : ℕ} (h : Opens src j o) (hij : i ≤ j)
    (hnone : ∀ m, i ≤ m → m < j → matchesAt (bytesOf src) styleOpen m = false) : Opens src i o := by
  obtain ⟨q, hq, hmatch, hfirst, hrest⟩ := h
  refine ⟨q, hij.trans hq, hmatch, fun m hm hlt => ?_, hrest⟩
  by_cases hj : m < j
  · exact hnone m hm hj
  · exact hfirst m (Nat.le_of_not_lt hj) hlt

end Places

section Found

variable {src : List Char} {i start n c : ℕ}

def Ending (src : List Char) (start next : ℕ) : Option ℕ → Prop
  | none => ∀ m, start ≤ m → matchesAt (bytesOf src) styleClose m = false
  | some c => Closes src start c ∧ next = afterClose src c

theorem skipContent_style {next : ℕ} {close : Option ℕ}
    (h : skipContent src start "style".toList = some (close, next)) : Ending src start next close := by
  rw [skipContent] at h
  split at h
  · rename_i hnone
    obtain ⟨rfl, -⟩ := Prod.mk.inj (Option.some.inj h)
    exact fun m hm => findAsciiCi_none (by decide) hnone m hm
  · rename_i c hc
    have hboundary := isCharBoundary_of_match (show findAsciiCi (bytesOf src) start
      (asciiByte '<' :: bytesOf "/style".toList) = some c from hc)
    simp only [sliceFrom_eq hboundary, Option.bind_eq_bind, Option.bind_some] at h
    obtain ⟨rfl, hnext⟩ := Prod.mk.inj (Option.some.inj h)
    refine ⟨findAsciiCi_some hc, ?_⟩
    rw [length_bytesOf] at hnext
    exact hnext.symm

theorem lt_of_matchesAt {needle : List UInt8}
    (h : matchesAt (bytesOf src) (asciiByte '<' :: needle) n = true) : n < utf8Len src := by
  rw [← length_bytesOf]
  exact (List.getElem?_eq_some_iff.mp (getElem?_of_matchesAt h)).1

theorem findChar_gt (hi : isCharBoundary i src = true) :
    match findChar '>' (dropBytes i src) with
    | some offset => (bytesOf src)[i + offset]? = some (asciiByte '>') ∧
        ∀ m, i ≤ m → m < i + offset → (bytesOf src)[m]? ≠ some (asciiByte '>')
    | none => ∀ m, i ≤ m → (bytesOf src)[m]? ≠ some (asciiByte '>') := by
  rw [findChar_eq (by decide), bytesOf_dropBytes hi]
  split
  · rename_i offset h
    obtain ⟨hlt, hbyte, hfirst⟩ := List.findIdx?_eq_some_iff_getElem.mp h
    refine ⟨?_, fun m hm hlt heq => ?_⟩
    · rw [← List.getElem?_drop, List.getElem?_eq_getElem hlt, of_decide_eq_true hbyte]
    · have hnot := hfirst (m - i) (by omega)
      have hat : ((bytesOf src).drop i)[m - i]? = some (asciiByte '>') := by
        rw [List.getElem?_drop, Nat.add_sub_cancel' hm, heq]
      rw [List.getElem?_eq_getElem (by omega)] at hat
      rw [Option.some.inj hat] at hnot
      exact absurd hnot (by simp)
  · rename_i h
    intro m hm heq
    rw [List.findIdx?_eq_none_iff] at h
    have hmem : asciiByte '>' ∈ (bytesOf src).drop i := by
      apply List.mem_of_getElem? (i := m - i)
      rw [List.getElem?_drop, Nat.add_sub_cancel' hm, heq]
    exact absurd (h _ hmem) (by simp)

theorem isCharBoundary_afterClose (h : Closes src i c) :
    isCharBoundary (afterClose src c) src = true ∧ c < afterClose src c := by
  have hbyte := getElem?_of_matchesAt (show matchesAt (bytesOf src)
    (asciiByte '<' :: bytesOf "/style".toList) c = true from h.2.1)
  have hboundary := isCharBoundary_of_ascii hbyte (by decide)
  rw [afterClose]
  cases hgt : findChar '>' (dropBytes c src) with
  | none =>
    have hlt := (List.getElem?_eq_some_iff.mp hbyte).1
    rw [length_bytesOf] at hlt
    exact ⟨isCharBoundary_end src, hlt⟩
  | some offset =>
    refine ⟨stands_afterGt hboundary hgt, ?_⟩
    dsimp only
    omega

theorem styleBlocksFrom_returns {fuel : ℕ} (hfuel : utf8Len src < fuel + i) (hpos : 0 < fuel)
    (out : List Block) :
    ∃ more, styleBlocksFrom src fuel i out = some (out ++ more) ∧ BlocksFrom src i more := by
  induction fuel generalizing i out with
  | zero => omega
  | succ fuel ih =>
    rw [styleBlocksFrom]
    split
    · rename_i hend
      refine ⟨[], by rw [List.append_nil], .done ?_⟩
      rintro o c ⟨q, hq, hmatch, -⟩
      have hlt := lt_of_matchesAt (show matchesAt (bytesOf src)
        (asciiByte '<' :: bytesOf "style".toList) q = true from hmatch)
      omega
    · split
      · rename_i hnone
        refine ⟨[], by rw [List.append_nil], .done ?_⟩
        rintro o c ⟨q, hq, hmatch, -⟩
        rw [styleOpen, findAsciiCi_none (by decide) hnone q hq] at hmatch
        cases hmatch
      · rename_i start hstart
        have hboundary := isCharBoundary_of_match (show findAsciiCi (bytesOf src) i
          (asciiByte '<' :: bytesOf "style".toList) = some start from hstart)
        obtain ⟨hle, hmatch, hfirst⟩ := findAsciiCi_some hstart
        have hgt := findChar_gt hboundary
        simp only [sliceFrom_eq hboundary, Option.bind_eq_bind, Option.bind_some]
        cases hoffset : findChar '>' (dropBytes start src) with
        | none =>
          rw [hoffset] at hgt
          refine ⟨[], by rw [List.append_nil]; rfl, .done ?_⟩
          rintro o c ⟨q, hq, hlike, -, hqo, hend, -⟩
          have hqstart : start ≤ q := by
            by_contra hlt
            rw [styleOpen, hfirst q hq (by omega)] at hlike
            cases hlike
          exact absurd hend (hgt o (hqstart.trans hqo))
        | some offset =>
          rw [hoffset] at hgt
          have hopen : Opens src i (start + offset) :=
            ⟨start, hle, hmatch, hfirst, Nat.le_add_right _ _, hgt.1, hgt.2⟩
          dsimp only
          cases hclose : findAsciiCi (bytesOf src) (start + offset + 1) (bytesOf "</style".toList) with
          | none =>
            refine ⟨[], by rw [List.append_nil]; rfl, .done ?_⟩
            intro o c hother hcloses
            obtain rfl := hopen.unique hother
            rw [Closes, styleClose, findAsciiCi_none (by decide) hclose c hcloses.1] at hcloses
            cases hcloses.2.1
          | some close =>
            have hcloses : Closes src (start + offset + 1) close := findAsciiCi_some hclose
            have hclosed := isCharBoundary_of_match (show findAsciiCi (bytesOf src)
              (start + offset + 1) (asciiByte '<' :: bytesOf "/style".toList) = some close from hclose)
            have hafter := isCharBoundary_afterClose hcloses
            have hcut := checkedSlice_eq (stands_afterGt hboundary hoffset) hclosed hcloses.1
            have hwhere := hcloses.1
            obtain ⟨more, hmore, hblocks⟩ := @ih (afterClose src close) (by omega) (by omega)
              (out ++ [⟨start + offset + 1, close, slice (start + offset + 1) close src⟩])
            refine ⟨_ :: more, ?_, .block hopen hcloses hblocks⟩
            simp only [hcut, sliceFrom_eq hclosed, Option.bind_some]
            rw [afterClose, List.append_assoc, List.singleton_append] at hmore
            rw [length_bytesOf]
            exact hmore

theorem styleBlocks_returns (src : List Char) :
    ∃ blocks, styleBlocks src = some blocks ∧ BlocksFrom src 0 blocks :=
  styleBlocksFrom_returns (by omega) (by omega) []

end Found

section Agreement

variable {src : List Char} {i s o c : ℕ} {piece : Piece} {body : Block} {all : List Piece}
  {blocks : List Block}

theorem BlocksFrom.of_open (h : BlocksFrom src i blocks) (hopen : Opens src i o)
    (hclose : Closes src (o + 1) c) :
    ∃ more, blocks = ⟨o + 1, c, slice (o + 1) c src⟩ :: more ∧
      BlocksFrom src (afterClose src c) more := by
  cases h with
  | done hnone => exact absurd hclose (hnone o c hopen)
  | block hopen' hclose' hmore =>
    obtain rfl := hopen.unique hopen'
    obtain rfl := hclose.unique hclose'
    exact ⟨_, rfl, hmore⟩

theorem BlocksFrom.opened (h : BlocksFrom src i (body :: blocks)) :
    ∃ o c, Opens src i o ∧ Closes src (o + 1) c ∧ body = ⟨o + 1, c, slice (o + 1) c src⟩ ∧
      BlocksFrom src (afterClose src c) blocks := by
  cases h with
  | block hopen hclose hmore => exact ⟨_, _, hopen, hclose, rfl, hmore⟩

theorem element_of_body (hpiece : Reads src i piece) (h : piece.body? src = some body) :
    ∃ tagEnd close, i < tagEnd ∧ (bytesOf src)[tagEnd]? = some (asciiByte '>') ∧
      body = ⟨tagEnd + 1, close.getD (utf8Len src), slice (tagEnd + 1) (close.getD (utf8Len src)) src⟩ ∧
      Ending src (tagEnd + 1) piece.next close := by
  rw [Piece.body?] at h
  split at h
  · rename_i tag tagEnd close hread
    split_ifs at h with hstyle
    obtain ⟨rfl, hended⟩ := hstyle
    obtain ⟨hstart, hgt, hskip⟩ := hpiece.skips _ _ _ hread
    exact ⟨tagEnd, close, hstart, hgt.resolve_left (by omega), (Option.some.inj h).symm,
      skipContent_style hskip⟩
  · cases h

theorem not_completed_of_closed (hnone : ∀ m, o + 1 ≤ m → matchesAt (bytesOf src) styleClose m = false) :
    ¬ Closes src (o + 1) c := by
  intro h
  rw [Closes, hnone c h.1] at h
  cases h.2.1

def Quiet (src : List Char) (s i : ℕ) : Prop :=
  ∀ q, s ≤ q → q < i → matchesAt (bytesOf src) styleOpen q = true → ¬ Completed src q

theorem Quiet.next {j : ℕ} (h : Quiet src s i)
    (hmore : ∀ q, i ≤ q → q < j → matchesAt (bytesOf src) styleOpen q = true → ¬ Completed src q) :
    Quiet src s j := by
  intro q hs hq
  by_cases hi : q < i
  · exact h q hs hi
  · exact hmore q (Nat.le_of_not_lt hi) hq

theorem quiet_refl (src : List Char) (i : ℕ) : Quiet src i i := fun q hs hq => by omega

theorem Quiet.no_match (h : Quiet src s i) (hgt : (bytesOf src)[o]? = some (asciiByte '>'))
    (hio : i ≤ o) (hclose : Closes src (o + 1) c) (m : ℕ) (hs : s ≤ m) (hm : m < i) :
    matchesAt (bytesOf src) styleOpen m = false := by
  by_contra hmatch
  rw [Bool.not_eq_false] at hmatch
  have hle := hclose.1
  exact h m hs hm hmatch ⟨o, c, by omega, hgt, by omega, hclose.2.1⟩

theorem blocks_of_plain (h : PiecesFrom src i all) (hplain : ∀ piece ∈ all, Plain src piece)
    (hs : s ≤ i) (hquiet : Quiet src s i) (hblocks : BlocksFrom src s blocks) :
    blocks = all.filterMap (Piece.body? src) := by
  induction h generalizing s blocks with
  | @done i hend =>
    cases hblocks with
    | done _ => rfl
    | @block _ o c more hopen hclose hmore =>
      exfalso
      obtain ⟨q, hq, hmatch, -, hqo, hgt, -⟩ := hopen
      have hlt := lt_of_matchesAt (show matchesAt (bytesOf src)
        (asciiByte '<' :: bytesOf "style".toList) q = true from hmatch)
      have hle := hclose.1
      exact hquiet q hq (by omega) hmatch ⟨o, c, hqo, hgt, by omega, hclose.2.1⟩
  | @piece i piece more hlt hpiece hmore ih =>
    rw [List.forall_mem_cons] at hplain
    obtain ⟨hthis, hrest⟩ := hplain
    have hnext := hpiece.lt_next
    rw [Plain, hpiece.start] at hthis
    cases hbody : piece.body? src with
    | none =>
      rw [hbody] at hthis
      rw [List.filterMap_cons_none hbody]
      exact ih hrest (by omega) (hquiet.next hthis) hblocks
    | some body =>
      rw [hbody] at hthis
      obtain ⟨tagEnd, close, hstart, hgt, rfl, hclose⟩ := element_of_body hpiece hbody
      obtain ⟨⟨c, hc, hmatch⟩, o, hopen, ho⟩ := hthis
      obtain rfl : o = tagEnd := Nat.succ.inj ho
      cases close with
      | none =>
        exfalso
        dsimp only [Option.getD_none] at hc
        have hltc := lt_of_matchesAt (show matchesAt (bytesOf src)
          (asciiByte '<' :: bytesOf "/style".toList) c = true from hmatch)
        omega
      | some c' =>
        obtain ⟨hcloses, hafter⟩ := hclose
        have hopens := hopen.earlier hs (hquiet.no_match hgt (by omega) hcloses)
        obtain ⟨rest, rfl, hlater⟩ := hblocks.of_open hopens hcloses
        rw [← hafter] at hlater
        rw [List.filterMap_cons_some hbody, ih hrest le_rfl (quiet_refl src _) hlater]
        rfl

theorem PiecesFrom.start_le (h : PiecesFrom src i all) (hmem : piece ∈ all) :
    i ≤ piece.start ∧ Reads src piece.start piece ∧ i < utf8Len src := by
  induction h with
  | done hend => cases hmem
  | @piece i first more hlt hpiece hmore ih =>
    obtain rfl | hmem := List.mem_cons.mp hmem
    · rw [hpiece.start]
      exact ⟨le_rfl, hpiece, hlt⟩
    · have hlater := ih hmem
      have hnext := hpiece.lt_next
      exact ⟨by omega, hlater.2.1, hlt⟩

theorem not_completed_of_blocks (hpiece : Reads src i piece) (hmore : PiecesFrom src piece.next all)
    (hs : s ≤ i) (hblocks : BlocksFrom src s (all.filterMap (Piece.body? src))) (q : ℕ) (hq : i ≤ q)
    (hlt : q < piece.next) (hmatch : matchesAt (bytesOf src) styleOpen q = true) :
    ¬ Completed src q := by
  intro hcompleted
  obtain ⟨q', o, c, hq', hopen, hclose, hmatch', hsq, hqo, hfirst⟩ :=
    hcompleted.exists_block (hs.trans hq) hmatch
  obtain ⟨more, hbodies, -⟩ := hblocks.of_open hopen hclose
  obtain ⟨later, hlater, hbody⟩ := List.mem_filterMap.mp
    (show (⟨o + 1, c, slice (o + 1) c src⟩ : Block) ∈ all.filterMap (Piece.body? src) by
      rw [hbodies]
      exact List.mem_cons_self)
  obtain ⟨hstart, hreads, hinside⟩ := hmore.start_le hlater
  obtain ⟨tagEnd, close, htag, -, hplace, -⟩ := element_of_body hreads hbody
  obtain rfl : o = tagEnd := Nat.succ.inj (congrArg Block.start hplace)
  -- The piece has an end of its own, before the tag of the later one.
  obtain hplain | hend | hend := hpiece.ends
  · have hbyte := getElem?_of_matchesAt (show matchesAt (bytesOf src)
      (asciiByte '<' :: bytesOf "style".toList) q = true from hmatch)
    exact hplain q hq hlt hbyte
  · omega
  · have hle := hfirst (piece.next - 1) (by omega) hend
    omega

theorem plain_of_blocks (h : PiecesFrom src i all) (hs : s ≤ i) (hquiet : Quiet src s i)
    (hblocks : BlocksFrom src s (all.filterMap (Piece.body? src))) :
    ∀ piece ∈ all, Plain src piece := by
  induction h generalizing s with
  | done hend => simp
  | @piece i piece more hlt hpiece hmore ih =>
    have hnext := hpiece.lt_next
    rw [List.forall_mem_cons, Plain, hpiece.start]
    cases hbody : piece.body? src with
    | none =>
      rw [List.filterMap_cons_none hbody] at hblocks
      have hthis := not_completed_of_blocks hpiece hmore hs hblocks
      exact ⟨hthis, ih (by omega) (hquiet.next hthis) hblocks⟩
    | some body =>
      rw [List.filterMap_cons_some hbody] at hblocks
      obtain ⟨o, c, hopen, hcloses, hplace, hlater⟩ := hblocks.opened
      obtain ⟨tagEnd, close, hstart, hgt, rfl, hending⟩ := element_of_body hpiece hbody
      obtain rfl : tagEnd = o := Nat.succ.inj (congrArg Block.start hplace)
      cases close with
      | none => exact absurd hcloses (not_completed_of_closed hending)
      | some c' =>
        obtain ⟨hcloses', hafter⟩ := hending
        obtain rfl := hcloses.unique hcloses'
        rw [← hafter] at hlater
        have hnone := hquiet.no_match hgt (by omega) hcloses
        exact ⟨⟨⟨c, rfl, hcloses.2.1⟩, tagEnd, hopen.later hs hnone, rfl⟩,
          ih le_rfl (quiet_refl src _) hlater⟩

/-- The blocks are the contents of the style elements if and only if every piece of the document is
plain. -/
theorem styleBlocks_eq_styleBodies (src : List Char) :
    ∃ all, pieces src = some all ∧
      (styleBlocks src = styleBodies src ↔ ∀ piece ∈ all, Plain src piece) := by
  obtain ⟨all, hall, hpieces⟩ := pieces_returns src
  obtain ⟨blocks, hfound, hblocks⟩ := styleBlocks_returns src
  refine ⟨all, hall, ?_⟩
  rw [hfound, styleBodies, hall, Option.map_some, Option.some.injEq]
  constructor
  · intro hsame
    rw [hsame] at hblocks
    exact plain_of_blocks hpieces le_rfl (quiet_refl src 0) hblocks
  · intro hplain
    exact blocks_of_plain hpieces hplain le_rfl (quiet_refl src 0) hblocks

end Agreement

theorem styleBlocks_of_comment :
    styleBlocks "<!-- <style>p\x7bcolor:red\x7d</style> --><p>text</p>".toList ≠
      styleBodies "<!-- <style>p\x7bcolor:red\x7d</style> --><p>text</p>".toList := by
  decide +kernel

end AtomVibe.Html
