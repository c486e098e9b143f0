import AtomVibe.Foundations.Checked
import AtomVibe.JsonGrammar

namespace AtomVibe.JsonGrammar

open Checked Text Json Json.Parser

def literalChar (c : Char) : Bool := !isControl c && c != '"' && c != '\\'

structure Read (p q : Parser) (cs : List Char) : Prop where
  rest : p.rest = cs ++ q.rest
  inputLen : q.inputLen = p.inputLen

theorem Read.refl (p : Parser) : Read p p [] := ⟨rfl, rfl⟩

theorem Read.trans {p q r : Parser} {cs ds : List Char} (h : Read p q cs) (h' : Read q r ds) :
    Read p r (cs ++ ds) :=
  ⟨by rw [h.rest, h'.rest, List.append_assoc], h'.inputLen.trans h.inputLen⟩

theorem read_advance {p : Parser} {c : Char} (h : p.peekChar = some c) : Read p p.advance [c] := by
  obtain ⟨n, text⟩ := p
  cases text with
  | nil => simp [peekChar] at h
  | cons d text =>
    obtain rfl : d = c := by simpa [peekChar] using h
    exact ⟨rfl, rfl⟩

theorem read_consumeChar {p q : Parser} {c : Char} (h : p.consumeChar c = some q) :
    Read p q [c] := by
  unfold consumeChar at h
  split_ifs at h with hc
  obtain rfl := Option.some.inj h
  exact read_advance hc

theorem read_expectChar {p q : Parser} {c : Char} (h : p.expectChar c = .ok q) : Read p q [c] := by
  unfold expectChar at h
  split at h
  · rename_i q' hq
    obtain rfl := Except.ok.inj h
    exact read_consumeChar hq
  · simp [error] at h

theorem read_skipWhitespace (p : Parser) : ∃ cs, Read p p.skipWhitespace cs ∧ Blanks cs :=
  ⟨p.rest.takeWhile isBlankChar, ⟨List.takeWhile_append_dropWhile.symm, rfl⟩,
    fun c hc => List.all_eq_true.mp List.all_takeWhile c hc⟩

theorem read_consumeDigits {p : Parser} (h : p.atDigit = true) :
    ∃ cs, Read p p.consumeDigits cs ∧ Digits cs := by
  refine ⟨p.rest.takeWhile isAsciiDigit, ⟨List.takeWhile_append_dropWhile.symm, rfl⟩, ?_,
    fun c hc => List.all_eq_true.mp List.all_takeWhile c hc⟩
  obtain ⟨n, text⟩ := p
  cases text with
  | nil => simp [atDigit, peekChar] at h
  | cons c text =>
    have hc : isAsciiDigit c = true := by simpa [atDigit, peekChar] using h
    simp [hc]

section Numbers

variable {p q : Parser}

theorem parseInteger_sound (h : p.parseInteger = .ok q) : ∃ cs, Read p q cs ∧ IntText cs := by
  unfold parseInteger at h
  split at h
  · rename_i hzero
    split_ifs at h
    · simp [error] at h
    · obtain rfl := Except.ok.inj h
      exact ⟨['0'], read_advance hzero, .zero⟩
  · rename_i hzero
    split_ifs at h with hdigit
    · obtain rfl := Except.ok.inj h
      obtain ⟨cs, hread, hcs⟩ := read_consumeDigits hdigit
      refine ⟨cs, hread, ?_⟩
      obtain ⟨c, rest, rfl⟩ := List.exists_cons_of_ne_nil hcs.nonempty
      obtain ⟨hc, hrest⟩ := List.forall_mem_cons.mp hcs.digits
      refine .digits ⟨hc, ?_⟩ hrest
      rintro rfl
      exact hzero (by rw [peekChar, hread.rest]; rfl)
    · simp [error] at h

theorem parseFraction_sound (h : p.parseFraction = .ok q) :
    ∃ cs, Read p q cs ∧ FractionText cs := by
  unfold parseFraction at h
  split at h
  · obtain rfl := Except.ok.inj h
    exact ⟨[], .refl p, .none⟩
  · rename_i r hr
    split_ifs at h with hdigit
    · obtain rfl := Except.ok.inj h
      obtain ⟨cs, hread, hcs⟩ := read_consumeDigits hdigit
      exact ⟨'.' :: cs, (read_consumeChar hr).trans hread, .some hcs⟩
    · simp [error] at h

theorem parseExponent_sound (h : p.parseExponent = .ok q) :
    ∃ cs, Read p q cs ∧ ExponentText cs := by
  unfold parseExponent at h
  by_cases hletter : p.peekChar = some 'e' ∨ p.peekChar = some 'E'
  · obtain ⟨e, he, hpeek⟩ : ∃ e, (e = 'e' ∨ e = 'E') ∧ p.peekChar = some e :=
      hletter.elim (fun h => ⟨'e', .inl rfl, h⟩) fun h => ⟨'E', .inr rfl, h⟩
    obtain ⟨sign, hsign, hread⟩ : ∃ sign, (sign = [] ∨ sign = ['+'] ∨ sign = ['-']) ∧
        Read p.advance (if p.advance.peekChar = some '+' ∨ p.advance.peekChar = some '-' then
          p.advance.advance else p.advance) sign := by
      split_ifs with hsign
      · rcases hsign with hplus | hminus
        · exact ⟨['+'], by simp, read_advance hplus⟩
        · exact ⟨['-'], by simp, read_advance hminus⟩
      · exact ⟨[], by simp, .refl _⟩
    simp only [if_pos hletter] at h
    generalize (if p.advance.peekChar = some '+' ∨ p.advance.peekChar = some '-' then
      p.advance.advance else p.advance) = r at h hread
    by_cases hdigit : r.atDigit = true
    · rw [if_pos hdigit] at h
      obtain rfl := Except.ok.inj h
      obtain ⟨cs, hread', hcs⟩ := read_consumeDigits hdigit
      exact ⟨e :: (sign ++ cs), (read_advance hpeek).trans (hread.trans hread'),
        .some he hsign hcs⟩
    · simp [hdigit, error] at h
  · rw [if_neg hletter] at h
    obtain rfl := Except.ok.inj h
    exact ⟨[], .refl p, .none⟩

theorem parseNumber_sound {text : String} (h : p.parseNumber = .ok (text, q)) :
    ∃ cs, Read p q cs ∧ NumberText cs ∧ text = String.ofList cs := by
  simp only [parseNumber, bind_eq_ok, Except.ok.injEq, Prod.mk.injEq] at h
  obtain ⟨q₁, hint, q₂, hfraction, q₃, hexponent, rfl, rfl⟩ := h
  obtain ⟨int, hint, hintText⟩ := parseInteger_sound hint
  obtain ⟨fraction, hfraction, hfractionText⟩ := parseFraction_sound hfraction
  obtain ⟨exponent, hexponent, hexponentText⟩ := parseExponent_sound hexponent
  obtain ⟨minus, hminus, hsign⟩ : ∃ minus, Read p ((p.consumeChar '-').getD p) minus ∧
      (minus = [] ∨ minus = ['-']) := by
    cases hconsume : p.consumeChar '-' with
    | none => exact ⟨[], .refl p, .inl rfl⟩
    | some r => exact ⟨['-'], read_consumeChar hconsume, .inr rfl⟩
  have hread := hminus.trans (hint.trans (hfraction.trans hexponent))
  refine ⟨_, hread, .mk hsign hintText hfractionText hexponentText, ?_⟩
  rw [hread.rest, List.length_append, Nat.add_sub_cancel, List.take_left]

end Numbers

section Strings

variable {p q : Parser}

theorem parseHexUnit_sound {n : ℕ} (h : p.parseHexUnit = .ok (n, q)) :
    ∃ cs, Read p q cs ∧ HexText cs n := by
  have hdigit : ∀ {p : Parser} {d : ℕ}, p.peekChar.bind toDigit16 = some d →
      ∃ c, toDigit16 c = some d ∧ Read p p.advance [c] := by
    intro p d h
    obtain ⟨c, hc, hd⟩ := Option.bind_eq_some_iff.mp h
    exact ⟨c, hd, read_advance hc⟩
  simp only [parseHexUnit, parseHexDigits] at h
  split at h
  · rename_i w hw
    split at h
    · rename_i x hx
      split at h
      · rename_i y hy
        split at h
        · rename_i z hz
          obtain ⟨a, ha, hreada⟩ := hdigit hw
          obtain ⟨b, hb, hreadb⟩ := hdigit hx
          obtain ⟨c, hc, hreadc⟩ := hdigit hy
          obtain ⟨d, hd, hreadd⟩ := hdigit hz
          simp only [Except.ok.injEq, Prod.mk.injEq] at h
          obtain ⟨rfl, rfl⟩ := h
          refine ⟨[a, b, c, d], hreada.trans (hreadb.trans (hreadc.trans hreadd)), ?_⟩
          rw [Nat.zero_mul, Nat.zero_add]
          exact .mk ha hb hc hd
        · simp [error] at h
      · simp [error] at h
    · simp [error] at h
  · simp [error] at h

theorem fromU32_sound {n : ℕ} {c : Char} (h : fromU32 n p = .ok (c, q)) :
    c = Char.ofNat n ∧ q = p := by
  unfold fromU32 at h
  split_ifs at h
  · simpa [eq_comm] using h
  · simp [error] at h

theorem parseUnicodeScalar_sound {c : Char} (h : p.parseUnicodeScalar = .ok (c, q)) :
    ∃ cs, Read p q cs ∧ CharText literalChar ('\\' :: 'u' :: cs) c := by
  simp only [parseUnicodeScalar, bind_eq_ok] at h
  obtain ⟨⟨high, p₁⟩, hhigh, h⟩ := h
  obtain ⟨digits, hread, hdigits⟩ := parseHexUnit_sound hhigh
  split_ifs at h with hfirst hslash hu hlow
  · simp [error] at h
  · simp [error] at h
  · simp only [bind_eq_ok] at h
    obtain ⟨⟨low, p₂⟩, hlowUnit, h⟩ := h
    obtain ⟨digits', hread', hdigits'⟩ := parseHexUnit_sound hlowUnit
    split_ifs at h with hsecond
    · obtain ⟨hc, hq⟩ := fromU32_sound h
      have hslash := read_advance (not_not.mp hslash)
      have hu := read_advance (not_not.mp hu)
      rw [hc, hq]
      exact ⟨_, hread.trans (hslash.trans (hu.trans hread')),
        .pair hdigits hdigits' hfirst hsecond⟩
    · simp [error] at h
  · simp [error] at h
  · obtain ⟨rfl, rfl⟩ := fromU32_sound h
    exact ⟨digits, hread, .unit hdigits ⟨hfirst, hlow⟩⟩

theorem mem_escapes {letter c : Char} : (letter, c) ∈ escapes ↔ simpleEscape letter = some c := by
  constructor
  · intro h
    simp only [escapes, List.mem_cons, Prod.mk.injEq, List.not_mem_nil, or_false] at h
    rcases h with ⟨rfl, rfl⟩ | ⟨rfl, rfl⟩ | ⟨rfl, rfl⟩ | ⟨rfl, rfl⟩ | ⟨rfl, rfl⟩ | ⟨rfl, rfl⟩ |
      ⟨rfl, rfl⟩ | ⟨rfl, rfl⟩ <;> rfl
  · intro h
    unfold simpleEscape at h
    split at h <;> cases h <;> decide

theorem parseStringLoop_sound {fuel : ℕ} {output : List Char} {s : String}
    (h : parseStringLoop fuel output p = .ok (s, q)) : ∃ cs out, Read p q (cs ++ ['"']) ∧
      CharsText literalChar cs out ∧ s = String.ofList (output.reverse ++ out) := by
  induction fuel generalizing output p with
  | zero => simp [parseStringLoop, error] at h
  | succ fuel ih =>
    -- the characters after `head`, once the loop goes on with them
    have hnext : ∀ {r : Parser} {head : List Char} {c : Char}, Read p r head →
        CharText literalChar head c → parseStringLoop fuel (c :: output) r = .ok (s, q) →
        ∃ cs out, Read p q (cs ++ ['"']) ∧ CharsText literalChar cs out ∧
          s = String.ofList (output.reverse ++ out) := by
      intro r head c hread hchar hrest
      obtain ⟨cs, out, hcs, hchars, rfl⟩ := ih hrest
      refine ⟨head ++ cs, c :: out, ?_, .cons hchar hchars, by simp⟩
      rw [List.append_assoc]
      exact hread.trans hcs
    simp only [parseStringLoop] at h
    split at h
    · simp [error] at h
    · rename_i c hc
      have hread := read_advance hc
      split_ifs at h with hquote hslash hcontrol
      · simp only [Except.ok.injEq, Prod.mk.injEq] at h
        obtain ⟨rfl, rfl⟩ := h
        exact ⟨[], [], hquote ▸ hread, .nil, by simp⟩
      · subst hslash
        split at h
        · simp [error] at h
        · rename_i e he
          have hread' := hread.trans (read_advance he)
          split_ifs at h with hu
          · subst hu
            simp only [bind_eq_ok] at h
            obtain ⟨⟨scalar, r⟩, hscalar, h⟩ := h
            obtain ⟨cs, hcs, hchar⟩ := parseUnicodeScalar_sound hscalar
            exact hnext (hread'.trans hcs) hchar h
          · split at h
            · rename_i decoded hdecoded
              exact hnext hread' (.escape (mem_escapes.mpr hdecoded)) h
            · simp [error] at h
      · simp [error] at h
      · have hplain : literalChar c = true := by
          simp [literalChar, hcontrol, hquote, hslash]
        exact hnext hread (.plain hplain) h

theorem parseString_sound {s : String} (h : p.parseString = .ok (s, q)) :
    ∃ cs, Read p q cs ∧ StringText literalChar cs s := by
  simp only [parseString, bind_eq_ok] at h
  obtain ⟨r, hr, h⟩ := h
  obtain ⟨cs, out, hread, hchars, rfl⟩ := parseStringLoop_sound h
  exact ⟨_, (read_expectChar hr).trans hread, .mk hchars⟩

end Strings

section Nested

variable {plain : Char → Bool} {value : List Char → JsonValue → Prop} {gap cs : List Char}

theorem blanks_append {ds : List Char} (h : Blanks cs) (h' : Blanks ds) : Blanks (cs ++ ds) := by
  intro c hc
  rcases List.mem_append.mp hc with hc | hc
  · exact h c hc
  · exact h' c hc

theorem Elements.blanks (hgap : Blanks gap) {vs : List JsonValue} (h : Elements value cs vs) :
    Elements value (gap ++ cs) vs := by
  cases h with
  | one left item right =>
    rw [← List.append_assoc]
    exact .one (blanks_append hgap left) item right
  | more left item right others =>
    rw [← List.append_assoc]
    exact .more (blanks_append hgap left) item right others

theorem Member.blanks (hgap : Blanks gap) {f : String × JsonValue} (h : Member plain value cs f) :
    Member plain value (gap ++ cs) f := by
  cases h with
  | mk left name middle space item right =>
    rw [← List.append_assoc]
    exact .mk (blanks_append hgap left) name middle space item right

theorem Members.blanks (hgap : Blanks gap) {fs : List (String × JsonValue)}
    (h : Members plain value cs fs) : Members plain value (gap ++ cs) fs := by
  cases h with
  | one member => exact .one (member.blanks hgap)
  | more member others =>
    rw [← List.append_assoc]
    exact .more (member.blanks hgap) others

def SoundStep (value : List Char → JsonValue → Prop)
    (step : Parser → Except JsonError (JsonValue × Parser)) : Prop :=
  ∀ {p q : Parser} {v : JsonValue}, step p = .ok (v, q) →
    ∃ gap cs, Read p q (gap ++ cs) ∧ Blanks gap ∧ value cs v

variable {parseValue : Parser → Except JsonError (JsonValue × Parser)} {p q : Parser}
  {v : JsonValue} {fuel : ℕ}

theorem parseFields_sound (hvalue : SoundStep value parseValue)
    {fields : List (String × JsonValue)} (hnodup : (fields.map Prod.fst).Nodup)
    (h : parseFields parseValue fuel fields p = .ok (v, q)) :
    ∃ cs fs, Read p q (cs ++ ['\x7d']) ∧ Members literalChar value cs fs ∧
      v = .object (fields ++ fs) ∧ ((fields ++ fs).map Prod.fst).Nodup := by
  induction fuel generalizing fields p with
  | zero => simp [parseFields, error] at h
  | succ fuel ih =>
    simp only [parseFields] at h
    obtain ⟨before, hbefore, hleft⟩ := read_skipWhitespace p
    split_ifs at h with hquote
    · simp [error] at h
    simp only [bind_eq_ok] at h
    obtain ⟨⟨key, p₁⟩, hkey, h⟩ := h
    obtain ⟨keyText, hkeyRead, hname⟩ := parseString_sound hkey
    split_ifs at h with hduplicate
    · simp [error] at h
    simp only [bind_eq_ok] at h
    obtain ⟨p₂, hcolon, ⟨item, p₃⟩, hitem, h⟩ := h
    obtain ⟨colon, hcolonRead, hmiddle⟩ := read_skipWhitespace p₁
    obtain ⟨gap, itemText, hitemRead, hgap, hitemText⟩ := hvalue hitem
    obtain ⟨after, hafter, hright⟩ := read_skipWhitespace p₃
    have hmember : Member literalChar value
        (before ++ (keyText ++ (colon ++ ':' :: (gap ++ (itemText ++ after))))) (key, item) :=
      .mk hleft hname hmiddle hgap hitemText hright
    have hread : Read p p₃.skipWhitespace
        (before ++ (keyText ++ (colon ++ ':' :: (gap ++ (itemText ++ after))))) := by
      have hrest := hitemRead.trans hafter
      rw [List.append_assoc] at hrest
      exact hbefore.trans (hkeyRead.trans (hcolonRead.trans
        ((read_expectChar hcolon).trans hrest)))
    have hfresh : ((fields ++ [(key, item)]).map Prod.fst).Nodup := by
      rw [List.map_append, List.nodup_append]
      refine ⟨hnodup, by simp, ?_⟩
      rintro name hname _ hsame rfl
      obtain ⟨field, hfield, rfl⟩ := List.mem_map.mp hname
      apply hduplicate
      rw [List.any_eq_true]
      exact ⟨field, hfield, by simpa using hsame⟩
    split at h
    · rename_i last hlast
      simp only [Except.ok.injEq, Prod.mk.injEq] at h
      obtain ⟨rfl, rfl⟩ := h
      exact ⟨_, [(key, item)], hread.trans (read_consumeChar hlast), .one hmember, rfl, hfresh⟩
    · simp only [bind_eq_ok] at h
      obtain ⟨next, hnext, h⟩ := h
      obtain ⟨cs, fs, hcs, hmembers, rfl, hall⟩ := ih hfresh h
      rw [List.append_assoc, List.singleton_append] at hall
      refine ⟨_, (key, item) :: fs, ?_, .more hmember hmembers, by simp, hall⟩
      have hcomma := hread.trans ((read_expectChar hnext).trans hcs)
      simpa using hcomma

theorem parseElements_sound (hvalue : SoundStep value parseValue) {values : List JsonValue}
    (h : parseElements parseValue fuel values p = .ok (v, q)) :
    ∃ cs vs, Read p q (cs ++ [']']) ∧ Elements value cs vs ∧ v = .array (values ++ vs) := by
  induction fuel generalizing values p with
  | zero => simp [parseElements, error] at h
  | succ fuel ih =>
    simp only [parseElements, bind_eq_ok] at h
    obtain ⟨⟨item, p₁⟩, hitem, h⟩ := h
    obtain ⟨gap, itemText, hitemRead, hgap, hitemText⟩ := hvalue hitem
    obtain ⟨after, hafter, hright⟩ := read_skipWhitespace p₁
    have hread : Read p p₁.skipWhitespace (gap ++ (itemText ++ after)) := by
      rw [← List.append_assoc]
      exact hitemRead.trans hafter
    split at h
    · rename_i last hlast
      simp only [Except.ok.injEq, Prod.mk.injEq] at h
      obtain ⟨rfl, rfl⟩ := h
      exact ⟨_, [item], hread.trans (read_consumeChar hlast), .one hgap hitemText hright, rfl⟩
    · simp only [bind_eq_ok] at h
      obtain ⟨next, hnext, h⟩ := h
      obtain ⟨cs, vs, hcs, helements, rfl⟩ := ih h
      refine ⟨_, item :: vs, ?_, .more hgap hitemText hright helements, by simp⟩
      have hcomma := hread.trans ((read_expectChar hnext).trans hcs)
      simpa using hcomma

theorem parseObject_sound (hvalue : SoundStep value parseValue)
    (h : parseObject parseValue p = .ok (v, q)) :
    ∃ cs, Read p q cs ∧ NodeText literalChar value cs v := by
  simp only [parseObject, bind_eq_ok] at h
  obtain ⟨p₁, hopen, h⟩ := h
  have hopen := read_expectChar hopen
  obtain ⟨gap, hgapRead, hgap⟩ := read_skipWhitespace p₁
  split at h
  · rename_i last hlast
    simp only [Except.ok.injEq, Prod.mk.injEq] at h
    obtain ⟨rfl, rfl⟩ := h
    exact ⟨_, hopen.trans (hgapRead.trans (read_consumeChar hlast)), .emptyObject hgap⟩
  · obtain ⟨cs, fs, hread, hmembers, rfl, hnodup⟩ := parseFields_sound hvalue (by simp) h
    have hall := hopen.trans (hgapRead.trans hread)
    exact ⟨'\x7b' :: (gap ++ cs ++ ['\x7d']), by simpa using hall,
      .object (hmembers.blanks hgap) hnodup⟩

theorem parseArray_sound (hvalue : SoundStep value parseValue)
    (h : parseArray parseValue p = .ok (v, q)) :
    ∃ cs, Read p q cs ∧ NodeText literalChar value cs v := by
  simp only [parseArray, bind_eq_ok] at h
  obtain ⟨p₁, hopen, h⟩ := h
  have hopen := read_expectChar hopen
  obtain ⟨gap, hgapRead, hgap⟩ := read_skipWhitespace p₁
  split at h
  · rename_i last hlast
    simp only [Except.ok.injEq, Prod.mk.injEq] at h
    obtain ⟨rfl, rfl⟩ := h
    exact ⟨_, hopen.trans (hgapRead.trans (read_consumeChar hlast)), .emptyArray hgap⟩
  · obtain ⟨cs, vs, hread, helements, rfl⟩ := parseElements_sound hvalue h
    have hall := hopen.trans (hgapRead.trans hread)
    exact ⟨'[' :: (gap ++ cs ++ [']']), by simpa using hall, .array (helements.blanks hgap)⟩

end Nested

theorem parseLiteral_sound {p q : Parser} {literal : String} {v value : JsonValue}
    (h : p.parseLiteral literal value = .ok (v, q)) : Read p q literal.toList ∧ v = value := by
  unfold parseLiteral at h
  split_ifs at h with hprefix
  · simp only [Except.ok.injEq, Prod.mk.injEq] at h
    obtain ⟨rfl, rfl⟩ := h
    exact ⟨⟨(List.prefix_iff_eq_append.mp (List.isPrefixOf_iff_prefix.mp hprefix)).symm, rfl⟩, rfl⟩
  · simp [error] at h

theorem parseValue_sound (levels : ℕ) :
    SoundStep (ValueText literalChar levels) (Parser.parseValue levels) := by
  induction levels with
  | zero =>
    intro p q v h
    simp [Parser.parseValue, error] at h
  | succ levels ih =>
    intro p q v h
    obtain ⟨gap, hgapRead, hgap⟩ := read_skipWhitespace p
    suffices hnode : ∃ cs, Read p.skipWhitespace q cs ∧
        NodeText literalChar (ValueText literalChar levels) cs v by
      obtain ⟨cs, hread, hnode⟩ := hnode
      exact ⟨gap, cs, hgapRead.trans hread, hgap, hnode⟩
    simp only [Parser.parseValue] at h
    split at h
    · simp [error] at h
    split_ifs at h
    · exact parseObject_sound ih h
    · exact parseArray_sound ih h
    · simp only [bind_eq_ok, Except.ok.injEq, Prod.mk.injEq] at h
      obtain ⟨⟨s, r⟩, hs, rfl, rfl⟩ := h
      obtain ⟨cs, hread, hstring⟩ := parseString_sound hs
      exact ⟨cs, hread, .string hstring⟩
    · obtain ⟨hread, rfl⟩ := parseLiteral_sound h
      exact ⟨_, hread, .true⟩
    · obtain ⟨hread, rfl⟩ := parseLiteral_sound h
      exact ⟨_, hread, .false⟩
    · obtain ⟨hread, rfl⟩ := parseLiteral_sound h
      exact ⟨_, hread, .null⟩
    · simp only [bind_eq_ok, Except.ok.injEq, Prod.mk.injEq] at h
      obtain ⟨⟨text, r⟩, hs, rfl, rfl⟩ := h
      obtain ⟨cs, hread, hnumber, rfl⟩ := parseNumber_sound hs
      exact ⟨cs, hread, .number hnumber⟩
    · simp [error] at h

theorem parse_sound {input : String} {v : JsonValue} (h : parse input = .ok v) :
    JsonText literalChar (maxDepth + 1) input.toList v := by
  simp only [parse, bind_eq_ok] at h
  obtain ⟨⟨v', q⟩, hvalue, h⟩ := h
  obtain ⟨before, hbeforeRead, hbefore⟩ :=
    read_skipWhitespace ⟨input.utf8ByteSize, input.toList⟩
  obtain ⟨gap, cs, hread, hgap, hcs⟩ := parseValue_sound _ hvalue
  obtain ⟨after, hafterRead, hafter⟩ := read_skipWhitespace q
  split_ifs at h with hrest
  · simp [error] at h
  obtain rfl := Except.ok.inj h
  have hall := (hbeforeRead.trans (hread.trans hafterRead)).rest
  rw [not_not.mp hrest, List.append_nil] at hall
  have htext : input.toList = (before ++ gap) ++ (cs ++ after) := by simpa using hall
  rw [htext]
  exact .mk (blanks_append hbefore hgap) hcs hafter

end AtomVibe.JsonGrammar
