import AtomVibe.Learning
import AtomVibe.WikiGraph
import Mathlib.Algebra.Ring.Int.Defs

namespace AtomVibe.Wiki

open Checked Text Hash Learning

abbrev OsString := List UInt8

structure RustUnicode where
  isAlphanumeric : Char → Bool
  charLowercase : Char → List Char
  lowercase : String → String
  display : List OsString → String
  colon_not_alphanumeric : isAlphanumeric ':' = false
  colon_not_lowercase : ∀ c, ':' ∈ charLowercase c → c = ':'

namespace OsString

def toStr (name : OsString) : Option String := String.fromUTF8? ⟨name.toArray⟩

def dot : UInt8 := 0x2e

def splitAtDot (name : OsString) : OsString × Option OsString :=
  let front := (name.reverse.dropWhile (· != dot)).reverse
  if front.length ≤ 1 then (name, none) else (front.dropLast, some (name.drop front.length))

def fileStem (name : OsString) : OsString := name.splitAtDot.1

def extension (name : OsString) : Option OsString := name.splitAtDot.2

end OsString

def slugFrom (unicode : RustUnicode) : Bool → List Char → List Char → List Char
  | _, output, [] => output
  | separator, output, c :: cs =>
    if unicode.isAlphanumeric c then
      slugFrom unicode false ((if separator ∧ output ≠ [] then output ++ ['-'] else output) ++
        unicode.charLowercase c) cs
    else slugFrom unicode true output cs

def slug (unicode : RustUnicode) (value : String) : String :=
  let output := slugFrom unicode false [] value.toList
  if output = [] then "node-" ++ String.ofList ((sha256Hex (asBytes value)).toList.take 12)
  else String.ofList output

def isNormal (part : OsString) : Bool :=
  part != [OsString.dot] && part != [OsString.dot, OsString.dot]

def markdownId (unicode : RustUnicode) (dir : List OsString) (name : OsString) :
    Except String String := do
  let path := unicode.display (dir ++ [name])
  let parts ← (dir ++ [name.fileStem]).mapM fun part => do
    refuseIf (isNormal part = false) ("wiki path has a non-normal component: " ++ path)
    let value ← okOr ("wiki path is not valid Unicode: " ++ path) part.toStr
    return slug unicode value
  refuseIf (parts = []) "wiki path has no identity components"
  return "wiki:" ++ String.intercalate ":" parts

def wikiLinksFrom : ℕ → List Char → List String
  | 0, _ => []
  | fuel + 1, cs =>
    match findSub "[[".toList cs with
    | none => []
    | some (_, after) =>
      match findSub "]]".toList after with
      | none => []
      | some (link, rest) =>
        let link := trimChars link
        (if link ≠ [] then [String.ofList link] else []) ++ wikiLinksFrom fuel rest

def wikiLinks (text : String) : List String := wikiLinksFrom text.length text.toList

def heading (line : List Char) : Option (List Char) :=
  ("## ".toList.isPrefixOf? line).or ("### ".toList.isPrefixOf? line)

def sectionBody (body : List (List Char)) : String :=
  String.ofList (trimChars (['\n'].intercalate body))

def sectionsFrom : Option String → List (List Char) → List (List Char) → List (String × String)
  | none, _, [] => []
  | some title, body, [] => [(title, sectionBody body)]
  | title, body, line :: lines =>
    match heading line, title with
    | some next, none => sectionsFrom (some (String.ofList (trimChars next))) body lines
    | some next, some title =>
      (title, sectionBody body) :: sectionsFrom (some (String.ofList (trimChars next))) [] lines
    | none, none => sectionsFrom none body lines
    | none, some title =>
      sectionsFrom (some title) (if trimChars line = [] then body else body ++ [trimChars line])
        lines

def markdownSections (text : String) : List (String × String) := sectionsFrom none [] (lines text)

def markdownStatus (text : String) : Option String :=
  (lines text).findSome? fun line =>
    let line := trimChars line
    if (line.take 7).map Char.toLower = "status:".toList ∧ trimChars (line.drop 7) ≠ [] then
      some (String.ofList (trimChars (line.drop 7)))
    else none

def floorBytes : ℕ → List Char → List Char
  | _, [] => []
  | n, c :: cs => if c.utf8Size ≤ n then c :: floorBytes (n - c.utf8Size) cs else []

def boundedExcerpt (value : String) (maxBytes : ℕ) : String :=
  if value.utf8ByteSize ≤ maxBytes then value
  else String.ofList (floorBytes maxBytes value.toList) ++ "\n[section truncated]"

def tokenize (unicode : RustUnicode) (query : String) : List String :=
  ((query.toList.splitOnP fun c => !unicode.isAlphanumeric c && c != '-').filter
    (· ≠ [])).map fun part => unicode.lowercase (String.ofList part)

def documentTags (unicode : RustUnicode) (text : String) : List String :=
  "wiki" :: (lines text).flatMap fun line =>
    match "tags:".toList.isPrefixOf? line with
    | none => []
    | some raw => (((splitOn ',' raw).map trimChars).filter (· ≠ [])).map fun tag =>
      unicode.lowercase (String.ofList tag)

def documentExcerpt (text : String) : String :=
  String.ofList ((((lines text).map trimChars).find? fun line =>
    line != [] && line.head? != some '#' && !"tags:".toList.isPrefixOf line).getD [])

structure Document where
  id : String
  stem : String
  text : String

namespace Document

variable (unicode : RustUnicode) (document : Document)

def title : String :=
  (((lines document.text).findSome? fun line => "# ".toList.isPrefixOf? line).map
    fun line => String.ofList (trimChars line)).getD document.stem

def sections : List (String × String) := markdownSections document.text

def sectionId (index : ℕ) (title : String) : String :=
  document.id ++ ":" ++ padded 2 (index + 1) ++ "-" ++ slug unicode title

def sectionIds : List String :=
  document.sections.mapIdx fun index part => document.sectionId unicode index part.1

def documentNode : WikiNode where
  id := document.id
  title := document.title
  excerpt := documentExcerpt document.text
  body := document.text
  tags := documentTags unicode document.text

def sectionNode (index : ℕ) (part : String × String) : WikiNode :=
  let body := match markdownStatus document.text with
    | some status => "Document status: " ++ status ++ "\n" ++ part.2
    | none => part.2
  { id := document.sectionId unicode index part.1
    title := part.1
    excerpt := boundedExcerpt body 1400
    body
    tags := sortDedup (documentTags unicode document.text ++ tokenize unicode part.1) }

def nodes : List WikiNode :=
  document.documentNode unicode :: document.sections.mapIdx (document.sectionNode unicode)

def sectionEdges (id : String) : Option String → List (String × String) → List WikiEdge
  | _, [] => []
  | prior, (sectionId, body) :: rest =>
    [⟨id, sectionId, 7⟩] ++ (prior.toList.map fun before => ⟨before, sectionId, 5⟩) ++
      (wikiLinks body).map (fun link => ⟨sectionId, link, 6⟩) ++
      sectionEdges id (some sectionId) rest

def edges : List WikiEdge :=
  (wikiLinks document.text).map (fun link => ⟨document.id, link, 6⟩) ++
    sectionEdges document.id none
      ((document.sectionIds unicode).zip (document.sections.map Prod.snd))

end Document

def readDocument (unicode : RustUnicode) (dir : List OsString) (name : OsString)
    (bytes : ByteArray) : Except String Document := do
  let text ← okOr "stream did not contain valid UTF-8" (String.fromUTF8? bytes)
  let id ← markdownId unicode dir name
  return { id, stem := (name.fileStem.toStr).getD "wiki-node", text }

def WikiGraph.addDocument (unicode : RustUnicode) (graph : WikiGraph) (document : Document) :
    WikiGraph :=
  { graph with
    nodes := graph.nodes ++ document.nodes unicode
    edges := graph.edges ++ document.edges unicode }

def addMarkdownFile (unicode : RustUnicode) (dir : List OsString) (name : OsString)
    (bytes : ByteArray) (graph : WikiGraph) : Except String WikiGraph := do
  let document ← readDocument unicode dir name bytes
  refuseIf (graph.hasNode document.id) ("wiki node id collision at " ++
    unicode.display (dir ++ [name]) ++ ": " ++ document.id)
  return graph.addDocument unicode document

inductive WikiDir
  | empty
  | file (name : OsString) (bytes : ByteArray) (rest : WikiDir)
  | dir (name : OsString) (entries : WikiDir) (rest : WikiDir)
  | other (name : OsString) (rest : WikiDir)

namespace WikiDir

def place (name : OsString) (entry : WikiDir → WikiDir) : WikiDir → WikiDir
  | .empty => entry .empty
  | .file next bytes rest =>
    if name ≤ next then entry (.file next bytes rest) else .file next bytes (place name entry rest)
  | .dir next entries rest =>
    if name ≤ next then entry (.dir next entries rest)
    else .dir next entries (place name entry rest)
  | .other next rest =>
    if name ≤ next then entry (.other next rest) else .other next (place name entry rest)

def sorted : WikiDir → WikiDir
  | .empty => .empty
  | .file name bytes rest => place name (.file name bytes) rest.sorted
  | .dir name entries rest => place name (.dir name entries.sorted) rest.sorted
  | .other name rest => place name (.other name) rest.sorted

end WikiDir

def loadMarkdownDir (unicode : RustUnicode) (dir : List OsString) :
    WikiDir → WikiGraph → Except String WikiGraph
  | .empty, graph => .ok graph
  | .file name bytes rest, graph =>
    if name.extension = some (asBytes "md") then do
      let graph ← addMarkdownFile unicode dir name bytes graph
      loadMarkdownDir unicode dir rest graph
    else loadMarkdownDir unicode dir rest graph
  | .dir name entries rest, graph => do
    let graph ← loadMarkdownDir unicode (dir ++ [name]) entries graph
    loadMarkdownDir unicode dir rest graph
  | .other _ rest, graph => loadMarkdownDir unicode dir rest graph

def fromMarkdownDir (unicode : RustUnicode) (root : WikiDir) : Except String WikiGraph :=
  loadMarkdownDir unicode [] root.sorted .seeded

end AtomVibe.Wiki

namespace AtomVibe.Wiki

open Text

/-- A score is an `i32` in the program; see `nodeScore_le` for how far it can grow. -/
structure Evidence where
  nodeId : String
  title : String
  excerpt : String
  score : ℤ
  deriving DecidableEq

def missionId : String := "mission:production-app-build"

def eqIgnoreAsciiCase (left right : String) : Bool :=
  toAsciiLowercase left == toAsciiLowercase right

def termScore (node : WikiNode) (title excerpt term : String) : ℤ :=
  (if eqIgnoreAsciiCase node.id term then 8 else 0) +
    (if contains term.toList title.toList then 5 else 0) +
    (if contains term.toList excerpt.toList then 2 else 0) +
    if node.tags.any (eqIgnoreAsciiCase · term) then 6 else 0

def atomScore (node : WikiNode) (atom : String) : ℤ :=
  if node.id == atom || node.tags.any (eqIgnoreAsciiCase · atom) then 4 else 0

def directScore (unicode : RustUnicode) (node : WikiNode) (terms atomKeys : List String) : ℤ :=
  let title := unicode.lowercase node.title
  let excerpt := unicode.lowercase node.excerpt
  (terms.map (termScore node title excerpt)).sum + (atomKeys.map (atomScore node)).sum

def evidenceLe (left right : Evidence) : Bool :=
  right.score < left.score || left.score == right.score && left.nodeId ≤ right.nodeId

def sortEvidence (evidence : List Evidence) : List Evidence := evidence.mergeSort evidenceLe

def WikiNode.evidence (node : WikiNode) (score : ℤ) : Evidence :=
  ⟨node.id, node.title, node.excerpt, score⟩

namespace WikiGraph

def position (graph : WikiGraph) (id : String) : Option ℕ := graph.nodes.findIdx? (·.id == id)

def addScore (graph : WikiGraph) (id : String) (amount : ℤ) (scored : List ℤ) : List ℤ :=
  match graph.position id with
  | some idx => scored.modify idx (· + amount)
  | none => scored

def directScores (unicode : RustUnicode) (graph : WikiGraph) (terms atomKeys : List String) :
    List ℤ :=
  (graph.addScore missionId 50 (List.replicate graph.nodes.length 0)).zipWith (· + ·)
    (graph.nodes.map fun node => directScore unicode node terms atomKeys)

def scoreAt (graph : WikiGraph) (before : List ℤ) (id : String) : ℤ :=
  ((graph.position id).map fun idx => before.getD idx 0).getD 0

def propagate (graph : WikiGraph) (before scored : List ℤ) (edge : WikiEdge) : List ℤ :=
  let fromScore := graph.scoreAt before edge.fromId
  if 0 < fromScore then graph.addScore edge.toId (min fromScore 10 + edge.weight) scored
  else scored

def scores (unicode : RustUnicode) (graph : WikiGraph) (terms atomKeys : List String) : List ℤ :=
  let before := graph.directScores unicode terms atomKeys
  graph.edges.foldl (graph.propagate before) before

def pinMissionEvidence (graph : WikiGraph) (limit : ℕ) (evidence : List Evidence) :
    List Evidence :=
  if limit = 0 ∨ evidence.any (·.nodeId == missionId) then evidence
  else match graph.nodes.find? (·.id == missionId) with
    | none => evidence
    | some node =>
      (if limit ≤ evidence.length then evidence.dropLast else evidence) ++ [node.evidence 50]

def retrieve (unicode : RustUnicode) (graph : WikiGraph) (query : String) (atomKeys : List String)
    (limit : ℕ) : List Evidence :=
  let scored := graph.scores unicode (tokenize unicode query) atomKeys
  let evidence := ((graph.nodes.zip scored).filter fun entry => 0 < entry.2).map
    fun entry => entry.1.evidence entry.2
  graph.pinMissionEvidence limit ((sortEvidence evidence).take limit)

end WikiGraph

def ownScore (unicode : RustUnicode) (terms atomKeys : List String) (node : WikiNode) : ℤ :=
  (if node.id = missionId then 50 else 0) + directScore unicode node terms atomKeys

def passedOn (unicode : RustUnicode) (graph : WikiGraph) (terms atomKeys : List String)
    (edge : WikiEdge) : ℤ :=
  let source := ((graph.nodes.find? (·.id == edge.fromId)).map
    (ownScore unicode terms atomKeys)).getD 0
  if 0 < source then min source 10 + edge.weight else 0

def nodeScore (unicode : RustUnicode) (graph : WikiGraph) (terms atomKeys : List String)
    (node : WikiNode) : ℤ :=
  ownScore unicode terms atomKeys node +
    ((graph.edges.filter (·.toId = node.id)).map (passedOn unicode graph terms atomKeys)).sum

section Scores

variable {unicode : RustUnicode} {graph : WikiGraph} {terms atomKeys : List String}

theorem modify_findIdx {nodes : List WikiNode} (hids : (nodes.map WikiNode.id).Nodup)
    (score : WikiNode → ℤ) (id : String) (amount : ℤ) :
    (match nodes.findIdx? (·.id == id) with
      | some idx => (nodes.map score).modify idx (· + amount)
      | none => nodes.map score) =
      nodes.map fun node => if node.id = id then score node + amount else score node := by
  induction nodes with
  | nil => rfl
  | cons node nodes ih =>
    rw [List.map_cons, List.nodup_cons] at hids
    rw [List.findIdx?_cons]
    by_cases hid : node.id = id
    · have hothers : ∀ other ∈ nodes, other.id ≠ id := fun other hother hsame =>
        hids.1 (hid ▸ hsame ▸ List.mem_map_of_mem hother)
      rw [if_pos (by simpa using hid), List.map_cons, List.map_cons, if_pos hid]
      dsimp only
      rw [List.modify_zero_cons]
      congr 1
      exact List.map_congr_left fun other hother => (if_neg (hothers other hother)).symm
    · rw [if_neg (by simpa using hid), List.map_cons, List.map_cons, if_neg hid, ← ih hids.2]
      cases nodes.findIdx? (·.id == id) with
      | none => rfl
      | some idx => rfl

theorem addScore_map (hids : graph.ids.Nodup) (score : WikiNode → ℤ) (id : String) (amount : ℤ) :
    graph.addScore id amount (graph.nodes.map score) =
      graph.nodes.map fun node => if node.id = id then score node + amount else score node :=
  modify_findIdx hids score id amount

theorem scoreAt_map (score : WikiNode → ℤ) (id : String) :
    graph.scoreAt (graph.nodes.map score) id =
      ((graph.nodes.find? (·.id == id)).map score).getD 0 := by
  rw [WikiGraph.scoreAt, WikiGraph.position]
  induction graph.nodes with
  | nil => rfl
  | cons node nodes ih =>
    rw [List.findIdx?_cons, List.find?_cons]
    cases hid : node.id == id with
    | true => rfl
    | false =>
      rw [if_neg Bool.false_ne_true]
      dsimp only
      rw [← ih]
      cases nodes.findIdx? (·.id == id) with
      | none => rfl
      | some idx => rfl

theorem directScores_eq (hids : graph.ids.Nodup) :
    graph.directScores unicode terms atomKeys =
      graph.nodes.map (ownScore unicode terms atomKeys) := by
  have hzero : List.replicate graph.nodes.length (0 : ℤ) = graph.nodes.map fun _ => 0 := by
    rw [List.map_const']
  rw [WikiGraph.directScores, hzero, addScore_map hids, List.zipWith_map]
  rw [List.zipWith_self]
  apply List.map_congr_left
  intro node _
  rw [ownScore, zero_add]

theorem propagate_map (hids : graph.ids.Nodup) (score : WikiNode → ℤ) (edge : WikiEdge) :
    graph.propagate (graph.nodes.map (ownScore unicode terms atomKeys)) (graph.nodes.map score)
        edge =
      graph.nodes.map fun node => score node +
        (if edge.toId = node.id then passedOn unicode graph terms atomKeys edge else 0) := by
  rw [WikiGraph.propagate, scoreAt_map, passedOn]
  split
  · rw [addScore_map hids]
    apply List.map_congr_left
    intro node _
    by_cases hid : node.id = edge.toId
    · rw [if_pos hid, if_pos hid.symm]
    · rw [if_neg hid, if_neg fun h => hid h.symm, add_zero]
  · apply List.map_congr_left
    intro node _
    rw [ite_self, add_zero]

theorem foldl_propagate (hids : graph.ids.Nodup) (edges : List WikiEdge) (score : WikiNode → ℤ) :
    edges.foldl (graph.propagate (graph.nodes.map (ownScore unicode terms atomKeys)))
        (graph.nodes.map score) =
      graph.nodes.map fun node => score node +
        ((edges.filter (·.toId = node.id)).map (passedOn unicode graph terms atomKeys)).sum := by
  induction edges generalizing score with
  | nil => simp
  | cons edge edges ih =>
    rw [List.foldl_cons, propagate_map hids, ih]
    apply List.map_congr_left
    intro node _
    by_cases hid : edge.toId = node.id
    · rw [if_pos hid, List.filter_cons_of_pos (by simpa using hid), List.map_cons, List.sum_cons,
        add_assoc]
    · rw [if_neg hid, List.filter_cons_of_neg (by simpa using hid), add_zero]

theorem scores_eq (hids : graph.ids.Nodup) :
    graph.scores unicode terms atomKeys =
      graph.nodes.map (nodeScore unicode graph terms atomKeys) := by
  rw [WikiGraph.scores, directScores_eq hids, foldl_propagate hids]
  rfl

end Scores

end AtomVibe.Wiki
