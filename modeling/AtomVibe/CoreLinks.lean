import Mathlib.Data.List.Basic
import AtomVibe.AllowPolicy
import AtomVibe.Foundations.Searches

namespace AtomVibe.Core

open Text
open AllowPolicy (findSub_eq)

def visibleLabel (link : List Char) : List Char :=
  let raw := match LastMarker.splitLast [':'] link with
    | some (_, tail) => tail
    | none => link
  trimChars (raw.map fun ch => if ch = '-' ∨ ch = '_' then ' ' else ch)

def stripWikilinksFrom : ℕ → List Char → List Char → Option (List Char)
  | 0, _, _ => none
  | fuel + 1, out, rest =>
    match findSub "[[".toList rest with
    | none => some (out ++ rest)
    | some (front, behind) =>
      match findSub "]]".toList behind with
      | some (link, rest) => stripWikilinksFrom fuel (out ++ front ++ visibleLabel link) rest
      -- The loop is left, and the rest is written behind it once more.
      | none => some (out ++ front ++ ("[[".toList ++ behind) ++ rest)

/-- Without a result the loop would never end. -/
def stripWikilinks (text : List Char) : Option (List Char) :=
  stripWikilinksFrom (text.length + 1) [] text

inductive Shows : List Char → List Char → Prop
  | plain {text : List Char} (hnone : ¬"[[".toList <:+: text) : Shows text text
  | unclosed {front behind : List Char} (hfirst : ¬"[[".toList <:+: front ++ ['['])
    (hnone : ¬"]]".toList <:+: behind) :
    Shows (front ++ "[[".toList ++ behind) (front ++ "[[".toList ++ behind)
  | link {front link rest shown : List Char} (hfirst : ¬"[[".toList <:+: front ++ ['['])
    (hclose : ¬"]]".toList <:+: link ++ [']']) (hrest : Shows rest shown) :
    Shows (front ++ "[[".toList ++ (link ++ "]]".toList ++ rest))
      (front ++ visibleLabel link ++ shown)

/-- Behind every `[[` there is a `]]`. -/
def AllClosed (text : List Char) : Prop :=
  ∀ front behind, text = front ++ "[[".toList ++ behind → "]]".toList <:+: behind

section First

variable {pattern cs front rest front' rest' : List Char}

theorem findSub_eq_none : findSub pattern cs = none ↔ ¬pattern <:+: cs := by
  rw [← contains_iff_infix, contains, Bool.not_eq_true, Option.isSome_eq_false_iff,
    Option.isNone_iff_eq_none]

theorem infix_of_earlier (hcs : cs = front ++ pattern ++ rest) (hcs' : cs = front' ++ pattern ++ rest')
    (hlt : front.length < front'.length) : pattern <:+: front' ++ pattern.dropLast := by
  have hfirst : front ++ pattern <+: cs := ⟨rest, hcs.symm⟩
  have hsecond : front' ++ pattern.dropLast <+: cs := by
    have hwhole : front' ++ pattern <+: cs := ⟨rest', hcs'.symm⟩
    exact ((List.prefix_append_right_inj front').mpr (List.dropLast_prefix pattern)).trans hwhole
  have hwithin : front ++ pattern <+: front' ++ pattern.dropLast := by
    apply List.prefix_of_prefix_length_le hfirst hsecond
    rw [List.length_append, List.length_append, List.length_dropLast]
    omega
  exact (List.suffix_append front pattern).isInfix.trans hwithin.isInfix

theorem findSub_dropLast (h : findSub pattern cs = some (front, rest)) (hne : pattern ≠ []) :
    ¬pattern <:+: front ++ pattern.dropLast := by
  induction cs generalizing front with
  | nil =>
    rw [findSub, if_neg hne] at h
    cases h
  | cons c cs ih =>
    rw [findSub] at h
    split_ifs at h with hprefix
    · obtain ⟨rfl, rfl⟩ := Prod.mk.inj (Option.some.inj h)
      intro hinfix
      have hle := hinfix.length_le
      have hpos := List.length_pos_of_ne_nil hne
      rw [List.nil_append, List.length_dropLast] at hle
      omega
    · obtain ⟨⟨front', rest'⟩, hfound, heq⟩ := Option.map_eq_some_iff.mp h
      obtain ⟨rfl, rfl⟩ := Prod.mk.inj heq
      rw [List.cons_append, List.infix_cons_iff, not_or]
      refine ⟨fun hfirst => hprefix ?_, ih hfound⟩
      have hwhole : front' ++ pattern.dropLast <+: cs := by
        rw [findSub_eq hfound, List.append_assoc, List.prefix_append_right_inj]
        exact (List.dropLast_prefix pattern).trans (List.prefix_append _ _)
      exact List.isPrefixOf_iff_prefix.mpr (hfirst.trans (List.cons_prefix_cons.mpr ⟨rfl, hwhole⟩))

theorem findSub_of_first (hne : pattern ≠ []) (hfirst : ¬pattern <:+: front ++ pattern.dropLast) :
    findSub pattern (front ++ pattern ++ rest) = some (front, rest) := by
  cases hfound : findSub pattern (front ++ pattern ++ rest) with
  | none =>
    rw [findSub_eq_none] at hfound
    exact absurd ⟨front, rest, rfl⟩ hfound
  | some found =>
    obtain ⟨front', rest'⟩ := found
    have hcs := findSub_eq hfound
    have hlater : ¬front.length < front'.length := fun hlt =>
      findSub_dropLast hfound hne (infix_of_earlier rfl hcs hlt)
    have hearlier : ¬front'.length < front.length := fun hlt =>
      hfirst (infix_of_earlier hcs rfl hlt)
    rw [List.append_assoc, List.append_assoc] at hcs
    obtain ⟨rfl, hbehind⟩ := List.append_inj hcs (by omega)
    rw [List.append_cancel_left hbehind]

end First

section Loop

variable {text shown front link rest out : List Char} {fuel : ℕ}

theorem findSub_open (hfirst : ¬"[[".toList <:+: front ++ ['[']) :
    findSub "[[".toList (front ++ "[[".toList ++ rest) = some (front, rest) :=
  findSub_of_first (by decide) hfirst

theorem findSub_close (hclose : ¬"]]".toList <:+: link ++ [']']) :
    findSub "]]".toList (link ++ "]]".toList ++ rest) = some (link, rest) :=
  findSub_of_first (by decide) hclose

theorem exists_shows (text : List Char) : ∃ shown, Shows text shown := by
  induction hlength : text.length using Nat.strong_induction_on generalizing text with
  | _ n ih =>
    cases hopen : findSub "[[".toList text with
    | none => exact ⟨text, .plain (findSub_eq_none.mp hopen)⟩
    | some opened =>
      obtain ⟨front, behind⟩ := opened
      have hfirst := findSub_dropLast hopen (by decide)
      rw [findSub_eq hopen] at hlength ⊢
      cases hclose : findSub "]]".toList behind with
      | none => exact ⟨_, .unclosed hfirst (findSub_eq_none.mp hclose)⟩
      | some closed =>
        obtain ⟨link, rest⟩ := closed
        have hlink := findSub_dropLast hclose (by decide)
        rw [findSub_eq hclose] at hlength ⊢
        obtain ⟨shown, hshown⟩ := ih rest.length (by
          rw [← hlength]
          simp only [List.length_append]
          have htwo : "[[".toList.length = 2 := rfl
          omega) rest rfl
        exact ⟨_, .link hfirst hlink hshown⟩

theorem close_behind {head before within behind : List Char} (h : AllClosed rest)
    (hfront : head ++ [']', ']'] = before ++ within)
    (hbehind : '[' :: '[' :: behind = within ++ rest) : "]]".toList <:+: behind := by
  rcases within with _ | ⟨a, _ | ⟨b, inner⟩⟩
  · exact h [] behind hbehind.symm
  · have hwhole : (head ++ [']']) ++ [']'] = before ++ [a] := by
      rw [List.append_assoc]
      exact hfront
    have hlast := List.append_inj_right' hwhole rfl
    rw [← hlast] at hbehind
    exact absurd (List.cons.inj hbehind).1 (by decide)
  · simp only [List.cons_append, List.cons.injEq] at hbehind
    obtain ⟨rfl, rfl, rfl⟩ := hbehind
    have hclose : [']', ']'] <:+ (before ++ ['[', '[']) ++ inner := by
      rw [List.append_assoc]
      exact ⟨head, hfront⟩
    rcases List.suffix_or_suffix_of_suffix hclose (List.suffix_append _ inner) with hin | hout
    · exact hin.isInfix.trans (List.prefix_append inner rest).isInfix
    · rw [List.suffix_cons_iff, List.suffix_cons_iff, List.suffix_nil] at hout
      rcases hout with rfl | rfl | rfl
      · exact ⟨[], rest, rfl⟩
      · have hwhole : head ++ [']', ']'] = (before ++ ['[']) ++ ['[', ']'] := by
          rw [List.append_assoc]
          exact hfront
        exact absurd (List.append_inj_right' hwhole rfl) (by decide)
      · exact absurd (List.append_inj_right' hfront rfl) (by decide)

theorem allClosed_link : AllClosed (front ++ "[[".toList ++ (link ++ "]]".toList ++ rest)) ↔
    AllClosed rest := by
  constructor
  · intro h before behind hrest
    apply h (front ++ "[[".toList ++ (link ++ "]]".toList ++ before)) behind
    rw [hrest]
    simp only [List.append_assoc]
  · intro h before behind heq
    have hsplit : before ++ ("[[".toList ++ behind) =
        front ++ "[[".toList ++ link ++ "]]".toList ++ rest := by
      rw [← List.append_assoc, ← heq]
      simp only [List.append_assoc]
    rw [List.append_eq_append_iff] at hsplit
    rcases hsplit with ⟨within, hfront, hbehind⟩ | ⟨more, hbefore, hrest⟩
    · exact close_behind h hfront hbehind
    · exact h more behind (by rw [hrest, List.append_assoc])

theorem stripWikilinksFrom_shows (h : Shows text shown) (hfuel : text.length < fuel) :
    ∃ extra, stripWikilinksFrom fuel out text = some (out ++ shown ++ extra) ∧
      (extra = [] ↔ AllClosed text) := by
  induction h generalizing fuel out with
  | @plain text hnone =>
    cases fuel with
    | zero => cases hfuel
    | succ fuel =>
      refine ⟨[], ?_, fun _ front behind htext => ?_, fun _ => rfl⟩
      · rw [stripWikilinksFrom, findSub_eq_none.mpr hnone, List.append_nil]
      · exact absurd ⟨front, behind, htext.symm⟩ hnone
  | @unclosed front behind hfirst hnone =>
    cases fuel with
    | zero => cases hfuel
    | succ fuel =>
      refine ⟨front ++ "[[".toList ++ behind, ?_, fun hnil => ?_, fun hclosed => ?_⟩
      · rw [stripWikilinksFrom, findSub_open hfirst]
        dsimp only
        rw [findSub_eq_none.mpr hnone]
        simp only [List.append_assoc]
      · simp at hnil
      · exact absurd (hclosed front behind rfl) hnone
  | @link front link rest shown hfirst hclose hrest ih =>
    cases fuel with
    | zero => cases hfuel
    | succ fuel =>
      simp only [List.length_append] at hfuel
      obtain ⟨extra, hextra, hclosed⟩ := @ih (out ++ front ++ visibleLabel link) fuel (by
        have htwo : "[[".toList.length = 2 := rfl
        omega)
      refine ⟨extra, ?_, hclosed.trans allClosed_link.symm⟩
      rw [stripWikilinksFrom, findSub_open hfirst]
      dsimp only
      rw [findSub_close hclose]
      dsimp only
      rw [hextra]
      simp only [List.append_assoc]

/-- The loop always ends, and what it has written is what the text is to show exactly if all of its
links are closed. -/
theorem strip_wikilinks_iff (text : List Char) :
    ∃ out, stripWikilinks text = some out ∧ (Shows text out ↔ AllClosed text) := by
  obtain ⟨shown, hshown⟩ := exists_shows text
  obtain ⟨extra, hstrip, hextra⟩ := @stripWikilinksFrom_shows text shown [] _ hshown
    (Nat.lt_succ_self text.length)
  refine ⟨_, hstrip, fun hout => ?_, fun hclosed => ?_⟩
  · obtain ⟨more, hagain, hmore⟩ := @stripWikilinksFrom_shows text _ [] _ hout
      (Nat.lt_succ_self text.length)
    rw [hstrip, Option.some.injEq, List.nil_append, List.nil_append] at hagain
    exact hmore.mp (List.self_eq_append_right.mp hagain)
  · rw [hextra.mpr hclosed, List.append_nil, List.nil_append]
    exact hshown

theorem unclosed_link_twice : ¬∀ text, ∃ out, stripWikilinks text = some out ∧ Shows text out := by
  intro hshows
  obtain ⟨out, hstrip, hout⟩ := hshows "a[[b".toList
  obtain ⟨extra, hagain, hextra⟩ := @stripWikilinksFrom_shows _ _ [] 5 hout (by decide)
  have hopen : ¬AllClosed "a[[b".toList := fun hclosed =>
    absurd (hclosed ['a'] ['b'] rfl) (by decide)
  rw [stripWikilinks] at hstrip
  have hsame := hstrip.symm.trans hagain
  rw [Option.some.injEq, List.nil_append] at hsame
  exact hopen (hextra.mp (List.self_eq_append_right.mp hsame))

end Loop

end AtomVibe.Core
