import AtomVibe.DomStructure

namespace AtomVibe.Html

open Text

def escapeChar (c : Char) : List Char :=
  if c = '&' then "&amp;".toList
  else if c = '<' then "&lt;".toList
  else if c = '>' then "&gt;".toList
  else [c]

def escape (t : List Char) : List Char := t.flatMap escapeChar

section Entities

variable {c : Char} {t front name rest : List Char}

theorem escape_cons (c : Char) (t : List Char) : escape (c :: t) = escapeChar c ++ escape t :=
  List.flatMap_cons

theorem forall_of_all {p : Char → Prop} [DecidablePred p] {cs : List Char}
    (h : cs.all (fun c => decide (p c)) = true) : ∀ c ∈ cs, p c := by
  intro c hc
  exact of_decide_eq_true (List.all_eq_true.mp h c hc)

theorem escapeChar_cases (c : Char) : escapeChar c = [c] ∧ c ≠ '&' ∧ c ≠ '<' ∨
    ∃ name, escapeChar c = '&' :: (name ++ [';']) ∧ ';' ∉ name ∧ name.length < 32 ∧
      decodeEntity name = some c ∧ isWhitespace c = false ∧ ∀ d ∈ escapeChar c, isWhitespace d = false ∧ d ≠ '<' := by
  by_cases hamp : c = '&'
  · subst hamp
    exact .inr ⟨"amp".toList, rfl, by decide, by decide, by decide, by decide,
      forall_of_all (by decide)⟩
  by_cases hlt : c = '<'
  · subst hlt
    exact .inr ⟨"lt".toList, rfl, by decide, by decide, by decide, by decide,
      forall_of_all (by decide)⟩
  by_cases hgt : c = '>'
  · subst hgt
    exact .inr ⟨"gt".toList, rfl, by decide, by decide, by decide, by decide,
      forall_of_all (by decide)⟩
  · left
    rw [escapeChar, if_neg hamp, if_neg hlt, if_neg hgt]
    exact ⟨rfl, hamp, hlt⟩

theorem collapseFrom_letters {letters : List Char} (h : ∀ d ∈ letters, isWhitespace d = false)
    (hne : letters ≠ []) (prev : Bool) (rest : List Char) :
    collapseFrom prev (letters ++ rest) = letters ++ collapseFrom false rest := by
  induction letters generalizing prev with
  | nil => exact absurd rfl hne
  | cons d letters ih =>
    rw [List.forall_mem_cons] at h
    rw [List.cons_append, collapseFrom, if_neg (by rw [h.1]; exact Bool.false_ne_true),
      List.cons_append]
    by_cases hnil : letters = []
    · rw [hnil]
      rfl
    · rw [ih h.2 hnil]

theorem collapseFrom_escape (t : List Char) (prev : Bool) :
    collapseFrom prev (escape t) = escape (collapseFrom prev t) := by
  induction t generalizing prev with
  | nil => rfl
  | cons c t ih =>
    rw [escape_cons]
    rcases escapeChar_cases c with ⟨hplain, -, -⟩ | ⟨name, hname, -, -, -, hletter, hletters⟩
    · rw [hplain, List.singleton_append, collapseFrom, collapseFrom]
      split
      · split
        · exact ih true
        · rw [escape_cons, ih]
          rfl
      · rw [escape_cons, ih, hplain]
        rfl
    · have hne : escapeChar c ≠ [] := by
        rw [hname]
        exact List.cons_ne_nil _ _
      rw [collapseFrom_letters (fun d hd => (hletters d hd).1) hne, collapseFrom,
        if_neg (by rw [hletter]; exact Bool.false_ne_true), escape_cons, ih]

theorem entityAt_name (hsemi : ';' ∉ name) (hlength : name.length < 32) :
    entityAt (front ++ '&' :: (name ++ ';' :: rest)) front.length =
      some ((decodeEntity name).map fun c => (c, front.length + name.length + 2)) := by
  have hlen : (front ++ '&' :: (name ++ ';' :: rest)).length =
      front.length + name.length + rest.length + 2 := by
    simp only [List.length_append, List.length_cons]
    omega
  have hdrop : (front ++ '&' :: (name ++ ';' :: rest)).drop (front.length + 1) =
      name ++ ';' :: rest := by
    rw [List.append_cons, List.drop_left' (by simp)]
  have hbetween : ∀ k, k ≤ name.length + rest.length + 1 →
      between (front ++ '&' :: (name ++ ';' :: rest)) (front.length + 1) (front.length + 1 + k) =
        some ((name ++ ';' :: rest).take k) := by
    intro k hk
    rw [between_eq (by omega) (by omega), List.drop_take, hdrop, Nat.add_sub_cancel_left]
  rw [entityAt, hlen]
  have hstop : min (front.length + 33) (front.length + name.length + rest.length + 2) =
      front.length + 1 + min 32 (name.length + rest.length + 1) := by omega
  rw [hstop, hbetween _ (Nat.min_le_right _ _), Option.bind_eq_bind, Option.bind_some]
  have hfind : ((name ++ ';' :: rest).take (min 32 (name.length + rest.length + 1))).findIdx?
      (· = ';') = some name.length := by
    have hmore : min 32 (name.length + rest.length + 1) =
        name.length + (min 31 (name.length + rest.length) - name.length + 1) := by omega
    have hnone : name.findIdx? (· = ';') = none := by
      rw [List.findIdx?_eq_none_iff]
      intro d hd
      rw [decide_eq_false_iff_not]
      rintro rfl
      exact hsemi hd
    rw [hmore, List.take_length_add_append, List.take_succ_cons, List.findIdx?_append, hnone,
      List.findIdx?_cons]
    simp
  rw [hfind]
  dsimp only
  rw [hbetween name.length (by omega), List.take_left' rfl]
  rfl

theorem decodeFrom_escape (t front out : List Char) {fuel : ℕ} (hfuel : (escape t).length < fuel) :
    decodeFrom (front ++ escape t) fuel front.length out = some (out ++ t) := by
  induction t generalizing front out fuel with
  | nil =>
    cases fuel with
    | zero => cases hfuel
    | succ fuel =>
      rw [decodeFrom, escape, List.flatMap_nil, List.append_nil, List.getElem?_eq_none le_rfl,
        List.append_nil]
  | cons c t ih =>
    rw [escape_cons] at hfuel ⊢
    rw [List.length_append] at hfuel
    cases fuel with
    | zero => omega
    | succ fuel =>
      rcases escapeChar_cases c with ⟨hplain, hamp, -⟩ | ⟨name, hname, hsemi, hlength, hdecode, -, -⟩
      · rw [hplain, List.length_singleton] at hfuel
        rw [hplain, List.singleton_append, decodeFrom, List.getElem?_append_right le_rfl,
          Nat.sub_self, List.getElem?_cons_zero]
        dsimp only
        rw [if_neg hamp]
        have hnext := @ih (front ++ [c]) (out ++ [c]) fuel (by omega)
        rw [List.append_assoc, List.append_assoc, List.length_append, List.length_singleton]
          at hnext
        exact hnext
      · rw [hname, List.length_cons, List.length_append, List.length_singleton] at hfuel
        have hsplit : escapeChar c ++ escape t = '&' :: (name ++ ';' :: escape t) := by
          rw [hname, List.cons_append, List.append_assoc, List.singleton_append]
        rw [hsplit, decodeFrom, List.getElem?_append_right le_rfl, Nat.sub_self,
          List.getElem?_cons_zero]
        dsimp only
        rw [if_pos rfl, entityAt_name hsemi hlength, hdecode]
        have hnext := @ih (front ++ escapeChar c) (out ++ [c]) fuel (by omega)
        rw [List.append_assoc, hsplit, List.append_assoc, List.length_append, hname] at hnext
        rw [List.length_cons, List.length_append, List.length_singleton, ← Nat.add_assoc] at hnext
        exact hnext

theorem escape_of_not_mem (h : '&' ∉ escape t) : escape t = t := by
  induction t with
  | nil => rfl
  | cons c t ih =>
    rw [escape_cons, List.mem_append, not_or] at h
    rcases escapeChar_cases c with ⟨hplain, -, -⟩ | ⟨name, hname, -⟩
    · rw [escape_cons, hplain, ih h.2]
      rfl
    · rw [hname] at h
      exact absurd List.mem_cons_self h.1

theorem decodeEntities_escape (t : List Char) : decodeEntities (escape t) = some t := by
  rw [decodeEntities]
  split
  · rename_i hnone
    rw [Bool.not_eq_true', List.contains_eq_mem, decide_eq_false_iff_not] at hnone
    rw [escape_of_not_mem hnone]
  · exact decodeFrom_escape t [] [] (Nat.lt_succ_self _)

end Entities

def pairText (pair : String × List Char) : List Char :=
  ' ' :: (pair.1.toList ++ '=' :: '"' :: (pair.2 ++ ['"']))

def attrPairs (attrs : Attrs) : List (String × List Char) :=
  (attrs.idAttr.map fun value => ("id", value)).toList ++
    ((attrs.classAttr.map fun value => ("class", value)).toList ++
      (attrs.styleAttr.map fun value => ("style", value)).toList)

def attrsText (attrs : Attrs) : List Char := (attrPairs attrs).flatMap pairText

structure PlainPair (pair : String × List Char) : Prop where
  name : pair.1.toList ≠ [] ∧ ∀ c ∈ pair.1.toList, c ∉ ['=', '"', '\'', '>'] ∧ isWhitespace c = false
  lower : lower pair.1.toList = pair.1.toList
  value : '"' ∉ pair.2

section Attributes

variable {b front run rest : List Char} {p : Char → Bool}

theorem skipWhile_run (hb : b = front ++ (run ++ rest)) (hrun : ∀ c ∈ run, p c = true)
    (hrest : ∀ c ∈ rest.head?, p c = false) : skipWhile p b front.length = (front ++ run).length := by
  have htake : (run ++ rest).takeWhile p = run := by
    rw [List.takeWhile_append_of_pos hrun]
    cases rest with
    | nil => exact List.append_nil run
    | cons c rest =>
      rw [List.takeWhile_cons_of_neg (by rw [hrest c rfl]; exact Bool.false_ne_true),
        List.append_nil]
  rw [skipWhile, hb, List.drop_left, htake, List.length_append]

theorem between_run (hb : b = front ++ (run ++ rest)) :
    between b front.length (front ++ run).length = some run := by
  have hlength : b.length = front.length + run.length + rest.length := by
    rw [hb, List.length_append, List.length_append, Nat.add_assoc]
  rw [List.length_append, between_eq (Nat.le_add_right _ _) (by omega), hb, ← List.append_assoc,
    List.take_left' (List.length_append), List.drop_left]

theorem attrValue_quoted {value : List Char} (hvalue : '"' ∉ value)
    (hb : b = front ++ '=' :: '"' :: (value ++ '"' :: rest)) :
    attrValue b front.length = (value, (front ++ '=' :: '"' :: (value ++ ['"'])).length) := by
  have hopen : b = front ++ ['='] ++ ([] ++ '"' :: (value ++ '"' :: rest)) := by
    rw [hb, List.nil_append, List.append_assoc, List.singleton_append]
  have hfirst : b[front.length]? = some '=' := by
    rw [hb, List.getElem?_append_right le_rfl, Nat.sub_self, List.getElem?_cons_zero]
  have hskip : skipWhile isWhitespace b (front.length + 1) = front.length + 1 := by
    have hrun := @skipWhile_run b (front ++ ['=']) [] ('"' :: (value ++ '"' :: rest)) isWhitespace
      hopen (by simp) (by simp; decide)
    rw [List.append_nil, List.length_append, List.length_singleton] at hrun
    exact hrun
  have hquote : b[front.length + 1]? = some '"' := by
    rw [hb, List.getElem?_append_right (Nat.le_add_right _ _), Nat.add_sub_cancel_left]
    rfl
  have hdrop : b.drop (front.length + 1 + 1) = value ++ '"' :: rest := by
    have hlength : (front ++ ['=', '"']).length = front.length + 1 + 1 := by
      rw [List.length_append]
      rfl
    have hsplit : b = (front ++ ['=', '"']) ++ (value ++ '"' :: rest) := by
      rw [hb, List.append_assoc]
      rfl
    rw [← hlength, hsplit, List.drop_left]
  have htake : (value ++ '"' :: rest).takeWhile (· ≠ '"') = value := by
    have hinside : ∀ c ∈ value, decide (c ≠ '"') = true := by
      intro c hc
      rw [decide_eq_true_eq]
      rintro rfl
      exact hvalue hc
    rw [List.takeWhile_append_of_pos hinside]
    simp
  rw [attrValue, if_pos hfirst, hskip]
  dsimp only
  rw [hquote]
  dsimp only
  rw [if_pos (.inl rfl), hdrop, htake]
  congr 1
  simp only [List.length_append, List.length_cons, List.length_nil]
  omega

theorem findAttrFrom_pair {gap : List Char} {pair : String × List Char} {want : String} {fuel : ℕ}
    (hgap : ∀ c ∈ gap, isWhitespace c = true) (hplain : PlainPair pair)
    (hb : b = front ++ (gap ++ (pair.1.toList ++ '=' :: '"' :: (pair.2 ++ '"' :: rest)))) :
    findAttrFrom b want (fuel + 1) front.length =
      if pair.1 = want then some (some pair.2)
      else findAttrFrom b want fuel
        (front ++ (gap ++ (pair.1.toList ++ '=' :: '"' :: (pair.2 ++ ['"'])))).length := by
  obtain ⟨hne, hletters⟩ := hplain.name
  have hstart := skipWhile_run hb hgap (fun c hc => by
    rw [List.head?_append_of_ne_nil _ hne] at hc
    exact (hletters c (List.mem_of_mem_head? hc)).2)
  rw [← List.append_assoc] at hb
  have hstop := @skipWhile_run b (front ++ gap) pair.1.toList _
    (fun c => c ≠ '=' && !isWhitespace c) hb (fun c hc => by
      obtain ⟨hsign, hblank⟩ := hletters c hc
      rw [hblank, Bool.not_false, Bool.and_true, decide_eq_true_eq]
      rintro rfl
      exact hsign List.mem_cons_self) (by simp)
  have hname := between_run hb
  rw [← List.append_assoc] at hb
  have hblank := @skipWhile_run b (front ++ gap ++ pair.1.toList) [] _ isWhitespace hb (by simp)
    (by simp; decide)
  rw [List.append_nil] at hblank
  have hlt : ¬b.length ≤ front.length := by
    rw [hb]
    simp only [List.length_append, List.length_cons]
    omega
  rw [findAttrFrom, if_neg hlt]
  dsimp only
  rw [hstart, hstop, hname, Option.bind_eq_bind, Option.bind_some, hblank,
    attrValue_quoted hplain.value hb, hplain.lower]
  dsimp only
  by_cases hwant : pair.1 = want
  · rw [if_pos hwant, if_pos (congrArg String.toList hwant)]
    rfl
  · rw [if_neg hwant, if_neg (fun heq => hwant (String.toList_inj.mp heq)), if_neg]
    · rw [List.append_assoc, List.append_assoc]
    · rw [List.isEmpty_iff]
      exact hne

theorem findAttrFrom_pairs {pairs : List (String × List Char)} {want : String} {fuel : ℕ}
    (hplain : ∀ pair ∈ pairs, PlainPair pair) (hb : b = front ++ pairs.flatMap pairText)
    (hfuel : b.length < fuel + front.length) (hpos : 0 < fuel) :
    findAttrFrom b want fuel front.length =
      some ((pairs.find? fun pair => pair.1 = want).map (·.2)) := by
  induction pairs generalizing front fuel with
  | nil =>
    cases fuel with
    | zero => cases hpos
    | succ fuel =>
      rw [List.flatMap_nil, List.append_nil] at hb
      rw [findAttrFrom, if_pos (by rw [hb])]
      rfl
  | cons pair pairs ih =>
    rw [List.forall_mem_cons] at hplain
    cases fuel with
    | zero => cases hpos
    | succ fuel =>
      have hfirst : b = front ++ ([' '] ++ (pair.1.toList ++ '=' :: '"' :: (pair.2 ++ '"' ::
          pairs.flatMap pairText))) := by
        rw [hb, List.flatMap_cons, pairText]
        simp only [List.append_assoc, List.cons_append, List.nil_append]
      have hsplit : b = (front ++ ([' '] ++ (pair.1.toList ++ '=' :: '"' :: (pair.2 ++ ['"'])))) ++
          pairs.flatMap pairText := by
        rw [hfirst]
        simp only [List.append_assoc, List.cons_append, List.nil_append]
      rw [findAttrFrom_pair (forall_of_all (by decide)) hplain.1 hfirst, List.find?_cons]
      by_cases hwant : pair.1 = want
      · rw [if_pos hwant, decide_eq_true hwant]
        rfl
      · have hgrown : front.length < (front ++ ([' '] ++ (pair.1.toList ++ '=' :: '"' ::
            (pair.2 ++ ['"'])))).length := by
          simp only [List.length_append, List.length_cons]
          omega
        have hwithin := congrArg List.length hsplit
        rw [List.length_append] at hwithin
        rw [if_neg hwant, decide_eq_false hwant]
        apply ih hplain.2 hsplit
        · omega
        · omega

theorem findAttr_pairs {pairs : List (String × List Char)} (hplain : ∀ pair ∈ pairs, PlainPair pair)
    (want : String) : findAttr ((pairs.flatMap pairText).drop 1) want =
      some ((pairs.find? fun pair => pair.1 = want).map (·.2)) := by
  cases pairs with
  | nil => rfl
  | cons pair pairs =>
    rw [List.forall_mem_cons] at hplain
    have hfirst : ((pair :: pairs).flatMap pairText).drop 1 = [] ++ ([] ++ (pair.1.toList ++ '=' ::
        '"' :: (pair.2 ++ '"' :: pairs.flatMap pairText))) := by
      rw [List.flatMap_cons, pairText]
      simp only [List.append_assoc, List.cons_append, List.nil_append, List.drop_succ_cons,
        List.drop_zero]
    have hsplit : ((pair :: pairs).flatMap pairText).drop 1 =
        ([] ++ ([] ++ (pair.1.toList ++ '=' :: '"' :: (pair.2 ++ ['"'])))) ++
          pairs.flatMap pairText := by
      rw [hfirst]
      simp only [List.append_assoc, List.cons_append, List.nil_append]
    have hpair := @findAttrFrom_pair _ [] _ [] pair want
      (((pair :: pairs).flatMap pairText).drop 1).length (by simp) hplain.1 hfirst
    rw [List.length_nil] at hpair
    rw [findAttr, hpair, List.find?_cons]
    by_cases hwant : pair.1 = want
    · rw [if_pos hwant, decide_eq_true hwant]
      rfl
    · have hwithin := congrArg List.length hsplit
      rw [List.length_append] at hwithin
      have hgrown : 0 < ([] ++ ([] ++ (pair.1.toList ++ '=' :: '"' ::
          (pair.2 ++ ['"'])))).length := by
        simp only [List.length_append, List.length_cons]
        omega
      rw [if_neg hwant, decide_eq_false hwant]
      apply findAttrFrom_pairs hplain.2 hsplit
      · omega
      · omega

def PlainAttrs (attrs : Attrs) : Prop := ∀ pair ∈ attrPairs attrs, '"' ∉ pair.2

theorem plainPair_of_mem {attrs : Attrs} (h : PlainAttrs attrs) {pair : String × List Char}
    (hpair : pair ∈ attrPairs attrs) : PlainPair pair := by
  have hname : pair.1 = "id" ∨ pair.1 = "class" ∨ pair.1 = "style" := by
    rw [attrPairs, List.mem_append, List.mem_append] at hpair
    rcases hpair with hpair | hpair | hpair
    · obtain ⟨value, -, rfl⟩ := Option.map_eq_some_iff.mp (Option.mem_toList.mp hpair)
      exact .inl rfl
    · obtain ⟨value, -, rfl⟩ := Option.map_eq_some_iff.mp (Option.mem_toList.mp hpair)
      exact .inr (.inl rfl)
    · obtain ⟨value, -, rfl⟩ := Option.map_eq_some_iff.mp (Option.mem_toList.mp hpair)
      exact .inr (.inr rfl)
  have hvalue := h pair hpair
  rcases hname with hname | hname | hname
  · exact ⟨hname ▸ ⟨by decide, forall_of_all (by decide)⟩, by rw [hname]; decide, hvalue⟩
  · exact ⟨hname ▸ ⟨by decide, forall_of_all (by decide)⟩, by rw [hname]; decide, hvalue⟩
  · exact ⟨hname ▸ ⟨by decide, forall_of_all (by decide)⟩, by rw [hname]; decide, hvalue⟩

theorem find_attrPairs (attrs : Attrs) :
    ((attrPairs attrs).find? fun pair => pair.1 = "id").map (·.2) = attrs.idAttr ∧
      ((attrPairs attrs).find? fun pair => pair.1 = "class").map (·.2) = attrs.classAttr ∧
      ((attrPairs attrs).find? fun pair => pair.1 = "style").map (·.2) = attrs.styleAttr := by
  obtain ⟨idAttr, classAttr, styleAttr⟩ := attrs
  cases idAttr <;> cases classAttr <;> cases styleAttr <;> simp [attrPairs]

end Attributes

structure PlainTag (tag : List Char) : Prop where
  ne_nil : tag ≠ []
  letters : ∀ c ∈ tag, isWhitespace c = false ∧ c ∉ "<>/\"'!?".toList
  lower : lower tag = tag
  void : isVoid tag = false
  raw : tag ≠ "script".toList ∧ tag ≠ "style".toList

section Tags

variable {tag : List Char} {attrs : Attrs}

theorem parseOpen_plain (htag : PlainTag tag) (hattrs : PlainAttrs attrs) :
    parseOpen (tag ++ attrsText attrs) = some (tag, attrs) := by
  have hletters : ∀ c ∈ tag, (!isWhitespace c) = true := by
    intro c hc
    rw [(htag.letters c hc).1, Bool.not_false]
  have hsplit : splitFirst isWhitespace (tag ++ attrsText attrs) =
      (tag, if attrsText attrs = [] then none else some ((attrsText attrs).drop 1)) := by
    rw [splitFirst, List.takeWhile_append_of_pos hletters, List.dropWhile_append_of_pos hletters,
      attrsText]
    cases attrPairs attrs with
    | nil => simp
    | cons pair pairs =>
      rw [List.flatMap_cons, pairText]
      have hblank : (!isWhitespace ' ') = false := by decide
      simp [hblank]
  have hrest : (if attrsText attrs = [] then none else some ((attrsText attrs).drop 1)).getD [] =
      (attrsText attrs).drop 1 := by
    split
    · rename_i hnil
      rw [hnil]
      rfl
    · rfl
  have hfind := fun want => findAttr_pairs (fun pair hpair => plainPair_of_mem hattrs hpair) want
  obtain ⟨hid, hclass, hstyle⟩ := find_attrPairs attrs
  rw [parseOpen, hsplit]
  dsimp only
  rw [hrest, attrsText, hfind, hfind, hfind, hid, hclass, hstyle, htag.lower]
  rfl

end Tags

end AtomVibe.Html
