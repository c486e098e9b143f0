import AtomVibe.WikiRetrieve

namespace AtomVibe.Wiki

open Checked Text Hash PrefixCode

section Slugs

variable (unicode : RustUnicode)

theorem colon_not_mem_slugFrom (cs : List Char) (separator : Bool) {output : List Char}
    (h : ':' ∉ output) : ':' ∉ slugFrom unicode separator output cs := by
  induction cs generalizing separator output with
  | nil => simpa [slugFrom] using h
  | cons c cs ih =>
    rw [slugFrom]
    split
    · rename_i halphanumeric
      apply ih
      have hlower : ':' ∉ unicode.charLowercase c := by
        intro hcolon
        rw [unicode.colon_not_lowercase c hcolon, unicode.colon_not_alphanumeric] at halphanumeric
        exact absurd halphanumeric (by decide)
      split <;> simp [h, hlower]
    · exact ih _ h

theorem colon_not_mem_slug (value : String) : ':' ∉ (slug unicode value).toList := by
  rw [slug]
  split
  · rw [String.toList_append, List.mem_append]
    rintro (hcolon | hcolon)
    · exact absurd hcolon (by decide)
    · rw [String.toList_ofList] at hcolon
      have hhex : isLowerHex ':' = true := isLowerHex_sha256Hex (List.mem_of_mem_take hcolon)
      exact absurd hhex (by decide)
  · rw [String.toList_ofList]
    exact colon_not_mem_slugFrom unicode _ _ (by simp)

end Slugs

namespace Document

variable {unicode : RustUnicode} {document document' : Document}

def sectionName (unicode : RustUnicode) (index : ℕ) (title : String) : List Char :=
  (padded 2 (index + 1)).toList ++ '-' :: (slug unicode title).toList

theorem toList_sectionId (index : ℕ) (title : String) :
    (document.sectionId unicode index title).toList =
      document.id.toList ++ ':' :: sectionName unicode index title := by
  simp [sectionId, sectionName, String.toList_append]

theorem colon_not_mem_sectionName (index : ℕ) (title : String) :
    ':' ∉ sectionName unicode index title := by
  rw [sectionName, List.mem_append, List.mem_cons]
  rintro (hcolon | hcolon | hcolon)
  · exact absurd (padded_isAsciiDigit hcolon) (by decide)
  · exact absurd hcolon (by decide)
  · exact colon_not_mem_slug unicode title hcolon

theorem sectionId_inj {index index' : ℕ} {title title' : String}
    (h : document.sectionId unicode index title = document'.sectionId unicode index' title') :
    document.id = document'.id ∧ index = index' := by
  have hlist := congrArg String.toList h
  rw [toList_sectionId, toList_sectionId] at hlist
  obtain ⟨hid, hname⟩ := append_last_separator (colon_not_mem_sectionName index title)
    (colon_not_mem_sectionName index' title') hlist
  have hdash : ∀ n, '-' ∉ (padded 2 n).toList :=
    fun n hmem => absurd (padded_isAsciiDigit hmem) (by decide)
  obtain ⟨hnumber, -⟩ := append_terminator (hdash _) (hdash _) hname
  have hindex := padded_injective 2 (String.toList_injective hnumber)
  exact ⟨String.toList_injective hid, by omega⟩

theorem mem_sectionIds {id : String} (h : id ∈ document.sectionIds unicode) :
    ∃ index title, id = document.sectionId unicode index title := by
  obtain ⟨index, hindex, rfl⟩ := List.mem_mapIdx.mp h
  exact ⟨index, _, rfl⟩

theorem id_not_mem_sectionIds : document.id ∉ document.sectionIds unicode := by
  intro h
  obtain ⟨index, title, hid⟩ := mem_sectionIds h
  have hlength := congrArg (fun id => id.toList.length) hid
  simp only [toList_sectionId, List.length_append, List.length_cons] at hlength
  omega

theorem nodup_sectionIds : (document.sectionIds unicode).Nodup := by
  rw [List.Nodup, List.pairwise_iff_getElem]
  intro i j hi hj hij heq
  simp only [sectionIds, List.getElem_mapIdx] at heq
  have hindex := (sectionId_inj heq).2
  omega

def ids (unicode : RustUnicode) (document : Document) : List String :=
  document.id :: document.sectionIds unicode

theorem map_id_nodes : (document.nodes unicode).map WikiNode.id = document.ids unicode := by
  rw [nodes, List.map_cons, ids, sectionIds, documentNode]
  congr 1
  apply List.ext_getElem (by simp)
  intro index hindex hindex'
  simp [sectionNode]

theorem nodup_ids : (document.ids unicode).Nodup :=
  List.nodup_cons.mpr ⟨id_not_mem_sectionIds, nodup_sectionIds⟩

end Document

section Loading

variable {unicode : RustUnicode}

theorem markdownId_start {dir : List OsString} {name : OsString} {id : String}
    (h : markdownId unicode dir name = .ok id) : "wiki:".toList.isPrefixOf id.toList = true := by
  obtain ⟨parts, -, h⟩ := bind_eq_ok.mp h
  obtain ⟨u, -, h⟩ := bind_eq_ok.mp h
  obtain rfl := pure_eq_ok.mp h
  rw [String.toList_append]
  simp

theorem readDocument_start {dir : List OsString} {name : OsString} {bytes : ByteArray}
    {document : Document} (h : readDocument unicode dir name bytes = .ok document) :
    "wiki:".toList.isPrefixOf document.id.toList = true := by
  obtain ⟨text, -, h⟩ := bind_eq_ok.mp h
  obtain ⟨id, hid, h⟩ := bind_eq_ok.mp h
  obtain rfl := pure_eq_ok.mp h
  exact markdownId_start hid

theorem start_sectionId {document : Document}
    (h : "wiki:".toList.isPrefixOf document.id.toList = true) {id : String}
    (hid : id ∈ document.ids unicode) : "wiki:".toList.isPrefixOf id.toList = true := by
  rcases List.mem_cons.mp hid with rfl | hid
  · exact h
  · obtain ⟨index, title, rfl⟩ := Document.mem_sectionIds hid
    rw [Document.toList_sectionId]
    rw [List.isPrefixOf_iff_prefix] at h ⊢
    exact h.trans (List.prefix_append _ _)

theorem ids_addDocument (graph : WikiGraph) (document : Document) :
    (graph.addDocument unicode document).ids = graph.ids ++ document.ids unicode := by
  rw [WikiGraph.ids, WikiGraph.addDocument, List.map_append, Document.map_id_nodes]
  rfl

end Loading

structure MarkdownFile where
  dir : List OsString
  name : OsString
  bytes : ByteArray

def MarkdownFile.read (unicode : RustUnicode) (file : MarkdownFile) : Except String Document :=
  readDocument unicode file.dir file.name file.bytes

def WikiDir.markdownFiles (dir : List OsString) : WikiDir → List MarkdownFile
  | .empty => []
  | .file name bytes rest =>
    (if name.extension = some (asBytes "md") then [⟨dir, name, bytes⟩] else []) ++
      rest.markdownFiles dir
  | .dir name entries rest => entries.markdownFiles (dir ++ [name]) ++ rest.markdownFiles dir
  | .other _ rest => rest.markdownFiles dir

inductive Loaded (unicode : RustUnicode) : WikiGraph → List Document → WikiGraph → Prop
  | nil (graph : WikiGraph) : Loaded unicode graph [] graph
  | cons {graph graph' : WikiGraph} {document : Document} {documents : List Document}
      (start : "wiki:".toList.isPrefixOf document.id.toList = true)
      (fresh : document.id ∉ graph.ids)
      (others : Loaded unicode (graph.addDocument unicode document) documents graph') :
      Loaded unicode graph (document :: documents) graph'

section Loading

variable {unicode : RustUnicode} {graph graph' graph'' : WikiGraph}

theorem Loaded.append {documents documents' : List Document}
    (h : Loaded unicode graph documents graph') (h' : Loaded unicode graph' documents' graph'') :
    Loaded unicode graph (documents ++ documents') graph'' := by
  induction h with
  | nil => exact h'
  | cons start fresh _ ih => exact .cons start fresh (ih h')

def LoadsFiles (unicode : RustUnicode) (graph : WikiGraph) (files : List MarkdownFile)
    (graph' : WikiGraph) : Prop :=
  ∃ documents, List.Forall₂ (fun file document => MarkdownFile.read unicode file = .ok document)
    files documents ∧ Loaded unicode graph documents graph'

theorem LoadsFiles.append {files files' : List MarkdownFile}
    (h : LoadsFiles unicode graph files graph') (h' : LoadsFiles unicode graph' files' graph'') :
    LoadsFiles unicode graph (files ++ files') graph'' := by
  obtain ⟨documents, hread, hloaded⟩ := h
  obtain ⟨documents', hread', hloaded'⟩ := h'
  exact ⟨_, List.rel_append hread hread', hloaded.append hloaded'⟩

theorem addMarkdownFile_ok {dir : List OsString} {name : OsString} {bytes : ByteArray}
    (h : addMarkdownFile unicode dir name bytes graph = .ok graph') :
    LoadsFiles unicode graph [⟨dir, name, bytes⟩] graph' := by
  obtain ⟨document, hread, h⟩ := bind_eq_ok.mp h
  obtain ⟨u, hfresh, h⟩ := bind_eq_ok.mp h
  obtain rfl := pure_eq_ok.mp h
  have hnode : graph.hasNode document.id = false := by
    simpa using refuseIf_eq_ok.mp hfresh
  exact ⟨[document], .cons hread .nil,
    .cons (readDocument_start hread) (WikiGraph.hasNode_eq_false_iff.mp hnode) (.nil _)⟩

theorem loadMarkdownDir_ok {entries : WikiDir} {dir : List OsString}
    (h : loadMarkdownDir unicode dir entries graph = .ok graph') :
    LoadsFiles unicode graph (entries.markdownFiles dir) graph' := by
  induction entries generalizing dir graph graph' with
  | empty =>
    obtain rfl := Except.ok.inj h
    exact ⟨[], .nil, .nil _⟩
  | file name bytes rest ih =>
    rw [loadMarkdownDir] at h
    rw [WikiDir.markdownFiles]
    split at h
    · rename_i hextension
      obtain ⟨added, hadd, hrest⟩ := bind_eq_ok.mp h
      rw [if_pos hextension]
      exact (addMarkdownFile_ok hadd).append (ih hrest)
    · rename_i hextension
      rw [if_neg hextension]
      exact ih h
  | dir name entries rest ihentries ihrest =>
    obtain ⟨added, hadd, hrest⟩ := bind_eq_ok.mp h
    exact (ihentries hadd).append (ihrest hrest)
  | other name rest ih => exact ih h

theorem nodup_addDocument {before : List Document} {document : Document}
    (hids : graph.ids = WikiGraph.seeded.ids ++ before.flatMap (Document.ids unicode))
    (start : "wiki:".toList.isPrefixOf document.id.toList = true)
    (fresh : document.id ∉ graph.ids) : (graph.addDocument unicode document).ids.Nodup ↔
      graph.ids.Nodup ∧ ∀ earlier ∈ before, earlier.id ∉ document.sectionIds unicode := by
  have hmem : ∀ earlier ∈ before, ∀ id ∈ earlier.ids unicode, id ∈ graph.ids := by
    intro earlier hearlier id hid
    rw [hids, List.mem_append]
    exact .inr (List.mem_flatMap.mpr ⟨earlier, hearlier, hid⟩)
  rw [ids_addDocument, List.nodup_append]
  constructor
  · rintro ⟨hgraph, -, hapart⟩
    refine ⟨hgraph, fun earlier hearlier hsection => ?_⟩
    exact hapart earlier.id (hmem earlier hearlier _ List.mem_cons_self) earlier.id
      (List.mem_cons_of_mem _ hsection) rfl
  · rintro ⟨hgraph, hsections⟩
    refine ⟨hgraph, Document.nodup_ids, ?_⟩
    intro id hold other hnew heq
    obtain rfl := heq
    have holder := hold
    rw [hids, List.mem_append, List.mem_flatMap] at holder
    rcases List.mem_cons.mp hnew with rfl | hnew'
    · exact fresh hold
    · rcases holder with hseeded | ⟨earlier, hearlier, hid⟩
      · have hapart := WikiGraph.seeded_apart id hseeded "wiki:" (by decide)
        rw [start_sectionId start hnew] at hapart
        exact absurd hapart (by decide)
      · rcases List.mem_cons.mp hid with rfl | hid
        · exact hsections earlier hearlier hnew'
        · obtain ⟨index, title, rfl⟩ := Document.mem_sectionIds hid
          obtain ⟨index', title', hsame⟩ := Document.mem_sectionIds hnew'
          have hdocument := (Document.sectionId_inj hsame).1
          exact fresh (hdocument ▸ hmem earlier hearlier _ List.mem_cons_self)

def DocumentsApart (unicode : RustUnicode) (documents : List Document) : Prop :=
  documents.Pairwise fun earlier later => earlier.id ∉ later.sectionIds unicode

theorem Loaded.nodup_iff {before documents : List Document}
    (h : Loaded unicode graph documents graph')
    (hids : graph.ids = WikiGraph.seeded.ids ++ before.flatMap (Document.ids unicode)) :
    graph'.ids.Nodup ↔ graph.ids.Nodup ∧ DocumentsApart unicode documents ∧
      ∀ earlier ∈ before, ∀ later ∈ documents, earlier.id ∉ later.sectionIds unicode := by
  induction h generalizing before with
  | nil graph => simp [DocumentsApart]
  | @cons graph graph' document documents start fresh others ih =>
    have hafter : (graph.addDocument unicode document).ids =
        WikiGraph.seeded.ids ++ (before ++ [document]).flatMap (Document.ids unicode) := by
      rw [ids_addDocument, hids, List.flatMap_append, List.append_assoc]
      simp
    rw [ih hafter, nodup_addDocument hids start fresh, DocumentsApart, DocumentsApart,
      List.pairwise_cons]
    constructor
    · rintro ⟨⟨hgraph, hdocument⟩, hothers, hbefore⟩
      refine ⟨hgraph, ⟨hbefore document (by simp), hothers⟩, ?_⟩
      intro earlier hearlier later hlater
      rcases List.mem_cons.mp hlater with rfl | hlater
      · exact hdocument earlier hearlier
      · exact hbefore earlier (by simp [hearlier]) later hlater
    · rintro ⟨hgraph, ⟨hdocument, hothers⟩, hbefore⟩
      refine ⟨⟨hgraph, fun earlier hearlier => hbefore earlier hearlier document (by simp)⟩,
        hothers, fun earlier hearlier later hlater => ?_⟩
      rcases List.mem_append.mp hearlier with hearlier | hearlier
      · exact hbefore earlier hearlier later (List.mem_cons_of_mem _ hlater)
      · rw [List.mem_singleton.mp hearlier]
        exact hdocument later hlater

end Loading

def Apart (unicode : RustUnicode) (root : WikiDir) : Prop :=
  (root.sorted.markdownFiles []).Pairwise fun earlier later => ∀ document document',
    earlier.read unicode = .ok document → later.read unicode = .ok document' →
      document.id ∉ document'.sectionIds unicode

theorem forall_read {unicode : RustUnicode} {files : List MarkdownFile} {documents : List Document}
    {p : Document → Prop}
    (h : List.Forall₂ (fun file document => MarkdownFile.read unicode file = .ok document)
      files documents) : (∀ file ∈ files, ∀ document, file.read unicode = .ok document →
        p document) ↔ ∀ document ∈ documents, p document := by
  induction h with
  | nil => simp
  | cons hread _ ih =>
    rw [List.forall_mem_cons, List.forall_mem_cons, ih, hread]
    simp

theorem pairwise_read {unicode : RustUnicode} {files : List MarkdownFile}
    {documents : List Document}
    (h : List.Forall₂ (fun file document => MarkdownFile.read unicode file = .ok document)
      files documents) :
    (files.Pairwise fun earlier later => ∀ document document',
      earlier.read unicode = .ok document → later.read unicode = .ok document' →
        document.id ∉ document'.sectionIds unicode) ↔ DocumentsApart unicode documents := by
  induction h with
  | nil => simp [DocumentsApart]
  | @cons file document files documents hread hothers ih =>
    rw [DocumentsApart, List.pairwise_cons, List.pairwise_cons, ih, DocumentsApart]
    refine and_congr_left fun _ => ?_
    rw [← forall_read hothers]
    constructor
    · intro h later hlater document' hread'
      exact h later hlater document document' hread hread'
    · intro h later hlater document₁ document' hread₁ hread'
      obtain rfl := Except.ok.inj (hread.symm.trans hread₁)
      exact h later hlater document' hread'

/-- The nodes of a loaded graph have different ids exactly if no note's path gives it the id of a
section of a note that is loaded after it; then each body is found under its node's id. -/
theorem node_ids_nodup_iff (unicode : RustUnicode) (root : WikiDir) (graph : WikiGraph)
    (h : fromMarkdownDir unicode root = .ok graph) :
    (graph.ids.Nodup ↔ Apart unicode root) ∧
      (Apart unicode root → ∀ node ∈ graph.nodes, graph.bodyOf node.id = some node.body) := by
  obtain ⟨documents, hread, hloaded⟩ := loadMarkdownDir_ok h
  have hiff : graph.ids.Nodup ↔ Apart unicode root := by
    have hids : WikiGraph.seeded.ids =
        WikiGraph.seeded.ids ++ ([] : List Document).flatMap (Document.ids unicode) := by simp
    rw [hloaded.nodup_iff hids, Apart, pairwise_read hread]
    simp [WikiGraph.nodup_ids_seeded]
  exact ⟨hiff, fun hapart node hnode => WikiGraph.bodyOf_node (hiff.mpr hapart) hnode⟩

def asciiUnicode : RustUnicode where
  isAlphanumeric := isAsciiAlphanumeric
  charLowercase c := [c.toLower]
  lowercase := toAsciiLowercase
  display _ := "notes"
  colon_not_alphanumeric := rfl
  colon_not_lowercase := by
    intro c h
    by_contra hc
    exact toLower_ne (by decide) hc (List.mem_singleton.mp h).symm

def sampleNotes (heading : String) : WikiDir :=
  .file (asBytes "a.md") ("# Index\n## " ++ heading ++ "\nsteps\n").toByteArray
    (.dir (asBytes "a") (.file (asBytes "01-b.md") "# Release\n".toByteArray .empty) .empty)

theorem node_ids_nodup_sample : ∃ graph,
    fromMarkdownDir asciiUnicode (sampleNotes "rules") = .ok graph ∧
      ∀ node ∈ graph.nodes, graph.bodyOf node.id = some node.body := by
  obtain ⟨graph, hload, hnodup⟩ : ∃ graph,
      fromMarkdownDir asciiUnicode (sampleNotes "rules") = .ok graph ∧
        decide graph.ids.Nodup = true := exists_ok_of_any (by decide +kernel)
  have h := node_ids_nodup_iff asciiUnicode (sampleNotes "rules") graph hload
  exact ⟨graph, hload, h.2 (h.1.mp (of_decide_eq_true hnodup))⟩

theorem section_takes_note_id : ∃ graph,
    fromMarkdownDir asciiUnicode (sampleNotes "b") = .ok graph ∧ ¬graph.ids.Nodup := by
  obtain ⟨graph, hload, hclash⟩ : ∃ graph,
      fromMarkdownDir asciiUnicode (sampleNotes "b") = .ok graph ∧
        decide (¬graph.ids.Nodup) = true := exists_ok_of_any (by decide +kernel)
  exact ⟨graph, hload, of_decide_eq_true hclash⟩

end AtomVibe.Wiki
