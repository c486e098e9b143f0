import AtomVibe.CandidateModel

namespace AtomVibe.Verification

open Checked Text Hash Separated

def header : List Char := "FILE: ".toList

def HeaderFree (content : String) : Prop :=
  ∀ line ∈ splitOn '\n' content.toList, ¬header <+: line

instance (content : String) : Decidable (HeaderFree content) := by
  unfold HeaderFree
  infer_instance

def withFinalNewline (content : String) : String :=
  content ++ if endsWith "\n" content then "" else "\n"

structure SameFile (a b : CandidateFile) : Prop where
  path : normalizePath a.path = normalizePath b.path
  content : withFinalNewline a.content = withFinalNewline b.content

/-- Bundles that hold the same product: one file of the same content, or several files that agree
one by one, up to a missing line break at the end. -/
inductive SameDeliverable : List CandidateFile → List CandidateFile → Prop
  | single {a b : CandidateFile} (content : a.content = b.content) : SameDeliverable [a] [b]
  | several {as bs : List CandidateFile} (files : List.Forall₂ SameFile as bs)
      (length : 2 ≤ as.length) : SameDeliverable as bs

def outputText : List CandidateFile → String
  | [file] => file.content
  | files => String.join (files.map fileText)

theorem candidateOutput_of_valid {files : List CandidateFile} (h : ValidFiles files) :
    candidateOutput files = .ok (outputText files) := by
  have hvalid : validateFiles files = .ok () := validateFiles_eq_ok.mpr h
  unfold candidateOutput
  rw [hvalid, ok_bind]
  match files with
  | [] | [_] | _ :: _ :: _ => rfl

theorem outputText_several {files : List CandidateFile} (h : files.length ≠ 1) :
    outputText files = String.join (files.map fileText) := by
  match files, h with
  | [], _ | _ :: _ :: _, _ => rfl

theorem fileText_eq (file : CandidateFile) : fileText file =
    "FILE: " ++ normalizePath file.path ++ "\n" ++ withFinalNewline file.content := by
  simp only [fileText, withFinalNewline, String.append_assoc]

def body (content : String) : List Char :=
  if endsWith "\n" content then content.toList.dropLast else content.toList

theorem toList_withFinalNewline (content : String) :
    (withFinalNewline content).toList = body content ++ ['\n'] := by
  rw [withFinalNewline, body, String.toList_append]
  by_cases h : endsWith "\n" content = true
  · rw [if_pos h, if_pos h]
    obtain ⟨front, hfront⟩ := List.isSuffixOf_iff_suffix.mp h
    have hcontent : content.toList = front ++ ['\n'] := hfront.symm
    rw [hcontent, List.dropLast_concat]
    simp
  · rw [if_neg h, if_neg h]
    rfl

theorem body_headerFree {content : String} (h : HeaderFree content) :
    ∀ line ∈ splitOn '\n' (body content), ¬header <+: line := by
  intro line hline
  apply h
  rw [body] at hline
  by_cases hend : endsWith "\n" content = true
  · rw [if_pos hend] at hline
    obtain ⟨front, hfront⟩ := List.isSuffixOf_iff_suffix.mp hend
    have hcontent : content.toList = front ++ ['\n'] := hfront.symm
    rw [hcontent, List.dropLast_concat] at hline
    rw [hcontent, splitOn_concat]
    exact List.mem_append_left _ hline
  · rwa [if_neg hend] at hline

def fileBlock (file : CandidateFile) : List Char × List (List Char) :=
  (header ++ (normalizePath file.path).toList, splitOn '\n' (body file.content))

def lineText (line : List Char) : List Char := line ++ ['\n']

theorem toList_fileText (file : CandidateFile) :
    (fileText file).toList = ((fileBlock file).1 :: (fileBlock file).2).flatMap lineText := by
  have hlines : (splitOn '\n' (body file.content)).flatMap lineText = body file.content ++ ['\n'] :=
    flatMap_splitOn _
  rw [List.flatMap_cons, fileBlock, hlines, fileText_eq]
  simp only [String.toList_append, toList_withFinalNewline, lineText, header, List.append_assoc]
  rfl

theorem toList_outputText {files : List CandidateFile} (h : files.length ≠ 1) :
    (outputText files).toList = (blockWords (files.map fileBlock)).flatMap lineText := by
  rw [outputText_several h, String.toList_join, blockWords, List.flatMap_map, List.flatMap_map,
    List.flatMap_assoc]
  simp only [toList_fileText]

theorem lineText_flatMap_inj {xs ys : List (List Char)} (hxs : ∀ line ∈ xs, '\n' ∉ line)
    (hys : ∀ line ∈ ys, '\n' ∉ line) (h : xs.flatMap lineText = ys.flatMap lineText) : xs = ys := by
  induction xs generalizing ys with
  | nil =>
    cases ys with
    | nil => rfl
    | cons y ys => simp [lineText] at h
  | cons x xs ih =>
    cases ys with
    | nil => simp [lineText] at h
    | cons y ys =>
      obtain ⟨hx, hxs⟩ := List.forall_mem_cons.mp hxs
      obtain ⟨hy, hys⟩ := List.forall_mem_cons.mp hys
      simp only [List.flatMap_cons, lineText, List.append_assoc, List.singleton_append] at h
      obtain ⟨hline, hrest⟩ := PrefixCode.append_terminator hx hy h
      rw [hline, ih hxs hys hrest]

theorem isBlock_fileBlock {file : CandidateFile} (h : HeaderFree file.content) :
    IsBlock (header <+: ·) (fileBlock file) :=
  ⟨List.prefix_append _ _, body_headerFree h⟩

theorem newline_not_mem {files : List CandidateFile} (h : ∀ file ∈ files, ValidFile file) :
    ∀ line ∈ blockWords (files.map fileBlock), '\n' ∉ line := by
  intro line hline
  rw [blockWords, List.flatMap_map, List.mem_flatMap] at hline
  obtain ⟨file, hfile, hline⟩ := hline
  rcases List.mem_cons.mp hline with rfl | hline
  · intro hmem
    rcases List.mem_append.mp hmem with hmem | hmem
    · exact absurd hmem (by decide)
    · exact (h file hfile).path.newline hmem
  · exact not_mem_part hline

theorem sameFile_iff (a b : CandidateFile) : SameFile a b ↔ fileBlock a = fileBlock b := by
  constructor
  · rintro ⟨hpath, hcontent⟩
    have hbody : body a.content = body b.content := by
      have h := congrArg String.toList hcontent
      rw [toList_withFinalNewline, toList_withFinalNewline] at h
      exact List.append_cancel_right h
    rw [fileBlock, fileBlock, hpath, hbody]
  · intro h
    obtain ⟨hhead, hlines⟩ := Prod.ext_iff.mp h
    refine ⟨String.toList_inj.mp (List.append_cancel_left hhead), String.toList_inj.mp ?_⟩
    rw [toList_withFinalNewline, toList_withFinalNewline, ← flatMap_splitOn (body a.content),
      ← flatMap_splitOn (body b.content)]
    exact congrArg (List.flatMap fun line => line ++ ['\n']) hlines

theorem map_fileBlock_eq_iff (as bs : List CandidateFile) :
    as.map fileBlock = bs.map fileBlock ↔ List.Forall₂ SameFile as bs := by
  have hsame : SameFile = fun a b => fileBlock a = fileBlock b := by
    funext a b
    exact propext (sameFile_iff a b)
  rw [hsame, ← List.forall₂_eq_eq_eq, List.forall₂_map_left_iff, List.forall₂_map_right_iff]

theorem outputText_headed {files : List CandidateFile} (hne : files ≠ []) (h : files.length ≠ 1) :
    ¬HeaderFree (outputText files) := by
  cases files with
  | nil => exact absurd rfl hne
  | cons file files =>
    intro hfree
    have htext : ∃ rest, (outputText (file :: files)).toList = header ++ rest := by
      rw [toList_outputText h]
      simp [blockWords, fileBlock, lineText]
    obtain ⟨rest, htext⟩ := htext
    obtain ⟨part, parts, hparts⟩ := List.exists_cons_of_ne_nil (splitOn_ne_nil '\n' rest)
    apply hfree (header ++ part)
    · rw [htext]
      simp [header, splitOn, hparts]
    · exact List.prefix_append _ _

theorem outputText_eq_iff {as bs : List CandidateFile} (has : ValidFiles as) (hbs : ValidFiles bs)
    (hfreeA : ∀ file ∈ as, HeaderFree file.content)
    (hfreeB : ∀ file ∈ bs, HeaderFree file.content) :
    outputText as = outputText bs ↔ SameDeliverable as bs := by
  by_cases ha : as.length = 1
  · obtain ⟨a, rfl⟩ := List.length_eq_one_iff.mp ha
    by_cases hb : bs.length = 1
    · obtain ⟨b, rfl⟩ := List.length_eq_one_iff.mp hb
      constructor
      · exact .single
      · rintro (hcontent | ⟨-, hlength⟩)
        · exact hcontent
        · simp at hlength
    · constructor
      · intro h
        have hfree : HeaderFree (outputText bs) := h ▸ hfreeA a List.mem_cons_self
        exact absurd hfree (outputText_headed hbs.nonempty hb)
      · rintro (_ | ⟨-, hlength⟩)
        · exact absurd rfl hb
        · simp at hlength
  · by_cases hb : bs.length = 1
    · obtain ⟨b, rfl⟩ := List.length_eq_one_iff.mp hb
      constructor
      · intro h
        have hfree : HeaderFree (outputText as) := h ▸ hfreeB b List.mem_cons_self
        exact absurd hfree (outputText_headed has.nonempty ha)
      · rintro (_ | ⟨hfiles, hlength⟩)
        · exact absurd rfl ha
        · exact absurd hfiles.length_eq ha
    · have hpos := List.length_pos_iff.mpr has.nonempty
      have hblocks : ∀ files : List CandidateFile, (∀ file ∈ files, HeaderFree file.content) →
          ∀ block ∈ files.map fileBlock, IsBlock (header <+: ·) block := by
        intro files hfree block hblock
        obtain ⟨file, hfile, rfl⟩ := List.mem_map.mp hblock
        exact isBlock_fileBlock (hfree file hfile)
      rw [← String.toList_inj, toList_outputText ha, toList_outputText hb]
      constructor
      · intro h
        have hlines := lineText_flatMap_inj (newline_not_mem has.valid) (newline_not_mem hbs.valid) h
        have hsame := blockWords_inj (hblocks as hfreeA) (hblocks bs hfreeB) hlines
        exact .several ((map_fileBlock_eq_iff as bs).mp hsame) (by omega)
      · rintro (_ | ⟨hfiles, -⟩)
        · exact absurd rfl ha
        · rw [(map_fileBlock_eq_iff as bs).mpr hfiles]

/-- Bundles whose contents hold no line like the one that names a file have the same text, and
the same hash, exactly when they hold the same product. -/
theorem candidate_bundles_identified {as bs : List CandidateFile} (has : validateFiles as = .ok ())
    (hbs : validateFiles bs = .ok ()) (hfreeA : ∀ file ∈ as, HeaderFree file.content)
    (hfreeB : ∀ file ∈ bs, HeaderFree file.content) :
    (candidateOutput as = candidateOutput bs ↔ SameDeliverable as bs) ∧
      ((∀ x y, candidateOutput as = .ok x → candidateOutput bs = .ok y →
          sha256 (asBytes x) = sha256 (asBytes y) → x = y) →
        (bundleHash as = bundleHash bs ↔ SameDeliverable as bs)) := by
  have ha := validateFiles_eq_ok.mp has
  have hb := validateFiles_eq_ok.mp hbs
  have hiff := outputText_eq_iff ha hb hfreeA hfreeB
  have houtput : candidateOutput as = candidateOutput bs ↔ SameDeliverable as bs := by
    rw [candidateOutput_of_valid ha, candidateOutput_of_valid hb, Except.ok.injEq, hiff]
  refine ⟨houtput, fun hcollision => ?_⟩
  have hx := candidateOutput_of_valid ha
  have hy := candidateOutput_of_valid hb
  rw [← hiff]
  simp only [bundleHash, hx, hy, ok_bind, pure, Except.pure, Except.ok.injEq, sha256Tagged_inj]
  constructor
  · exact hcollision _ _ hx hy
  · intro h
    rw [h]

theorem candidate_bundles_identified_rewritten :
    candidateOutput [⟨"src\\a.rs", "x"⟩, ⟨"b.rs", "y\n"⟩] =
        candidateOutput [⟨"src/a.rs", "x\n"⟩, ⟨"b.rs", "y"⟩] ∧
      bundleHash [⟨"src\\a.rs", "x"⟩, ⟨"b.rs", "y\n"⟩] =
        bundleHash [⟨"src/a.rs", "x\n"⟩, ⟨"b.rs", "y"⟩] := by
  have hsame : SameDeliverable [⟨"src\\a.rs", "x"⟩, ⟨"b.rs", "y\n"⟩]
      [⟨"src/a.rs", "x\n"⟩, ⟨"b.rs", "y"⟩] :=
    .several (.cons ⟨by decide, by decide⟩ (.cons ⟨by decide, by decide⟩ .nil)) (by decide)
  have hfirst : validateFiles [⟨"src\\a.rs", "x"⟩, ⟨"b.rs", "y\n"⟩] = .ok () := by decide
  have hsecond : validateFiles [⟨"src/a.rs", "x\n"⟩, ⟨"b.rs", "y"⟩] = .ok () := by decide
  obtain ⟨houtput, hhash⟩ := candidate_bundles_identified hfirst hsecond (by decide) (by decide)
  refine ⟨houtput.mpr hsame, (hhash fun x y hx hy _ => ?_).mpr hsame⟩
  exact Except.ok.inj (hx.symm.trans ((houtput.mpr hsame).trans hy))

theorem candidate_bundles_share_texts :
    (candidateOutput [⟨"a.rs", "x"⟩] = .ok "x" ∧ candidateOutput [⟨"b.rs", "x"⟩] = .ok "x") ∧
      (∃ text, candidateOutput [⟨"a.rs", "x\nFILE: b.rs\ny\n"⟩, ⟨"c.rs", "z\n"⟩] = .ok text ∧
        candidateOutput [⟨"a.rs", "x\n"⟩, ⟨"b.rs", "y\n"⟩, ⟨"c.rs", "z\n"⟩] = .ok text) ∧
      ∃ text, candidateOutput [⟨"a.rs", "x"⟩, ⟨"c.rs", "z\n"⟩] = .ok text ∧
        candidateOutput [⟨"a.rs", "x\n"⟩, ⟨"c.rs", "z\n"⟩] = .ok text := by
  refine ⟨⟨by decide, by decide⟩, ⟨_, rfl, by decide⟩, ⟨_, rfl, by decide⟩⟩

end AtomVibe.Verification
