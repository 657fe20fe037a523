import Mathlib.Data.List.Basic
import Mathlib.Data.List.TakeDrop
import Workflow.Graph.Render
import Workflow.Proofs.Graph.Basic
import Workflow.Proofs.Graph.QuotedToken

/-!
# What drawings show

A drawing is read statement by statement, by the rules of its language: a node with its label, or an
edge. It depicts a graph if its statements are the nodes and edges of the graph, in their order,
under names that tell the nodes apart.
-/
namespace Workflow.Drawing
open TaskGraph (mermaidId)

inductive Statement
  | node (name label : String)
  | edge (source target : String)
  deriving DecidableEq, Repr

/-- The statements of a graph whose nodes are shown with the given names and labels. -/
def statements (g : TaskGraph) (name label : String → String) : List Statement :=
  (g.nodes.map fun id => .node (name id) (label id)) ++
    g.edges.map fun e => .edge (name e.1) (name e.2)

/-- Statements that are the nodes and edges of a graph, one for one. -/
def Depicts (g : TaskGraph) (label : String → String) (drawn : List Statement) : Prop :=
  ∃ name : String → String, (∀ a ∈ g.nodes, ∀ b ∈ g.nodes, name a = name b → a = b) ∧
    drawn = statements g name label

theorem statements_congr {g : TaskGraph} {name label label' : String → String}
    (h : ∀ id ∈ g.nodes, label id = label' id) :
    statements g name label = statements g name label' := by
  rw [statements, statements, List.map_congr_left fun id hid => by rw [h id hid]]

/-- Statements under given names depict a graph exactly if the names tell the nodes apart. -/
theorem depicts_statements_iff {g : TaskGraph} {name label : String → String} :
    Depicts g label (statements g name label) ↔
      ∀ a ∈ g.nodes, ∀ b ∈ g.nodes, name a = name b → a = b := by
  constructor
  · rintro ⟨name', hinj, hstatements⟩ a ha b hb hab
    obtain ⟨hnodes, -⟩ := List.append_inj hstatements (by simp)
    have hname : ∀ id ∈ g.nodes, name id = name' id := fun id hid =>
      (Statement.node.inj (List.map_inj_left.mp hnodes id hid)).1
    exact hinj a ha b hb (by rw [← hname a ha, ← hname b hb, hab])
  · exact fun h => ⟨name, h, rfl⟩

/-! ## Readers -/

/-- A reader of one statement, which leaves the rest of the text. -/
abbrev Reader := List Char → Option (Statement × List Char)

/-- All statements of a text up to its ending. -/
def readAll (read : Reader) (ending text : List Char) : Option (List Statement) :=
  match read text with
  | none => if text = ending then some [] else none
  | some (s, rest) =>
    if rest.length < text.length then (readAll read ending rest).map (s :: ·) else none
termination_by text.length

/-- A node is `"name" [label="label"];` on a line of its own, an edge `"source" -> "target";`. -/
def readDotStatement : Reader := fun text => do
  let (name, text) ← readQuoted (← text.dropPrefix? "    \"".toList)
  match text.dropPrefix? " [label=\"".toList with
  | some text =>
    let (label, text) ← readQuoted text
    return (.node (.ofList name) (.ofList label), ← text.dropPrefix? "];\n".toList)
  | none =>
    let (target, text) ← readQuoted (← text.dropPrefix? " -> \"".toList)
    return (.edge (.ofList name) (.ofList target), ← text.dropPrefix? ";\n".toList)

def dotHeader : String :=
  "digraph pipeline \x7b\n    rankdir=TB;\n    node [shape=box, style=rounded];\n\n"

def readDot (text : String) : Option (List Statement) := do
  readAll readDotStatement "\x7d\n".toList (← text.toList.dropPrefix? dotHeader.toList)

/-- Is this a character of an identifier? -/
def isWord (c : Char) : Bool := c.isAlphanum || c = '_'

/-- A node is `name["label"]` on a line of its own, an edge `source --> target`. Names are
identifiers, and a label goes up to the next quote. -/
def readMermaidStatement : Reader := fun text => do
  let (name, text) := (← text.dropPrefix? "    ".toList).span isWord
  match text.dropPrefix? "[\"".toList with
  | some text =>
    let (label, text) := text.span (· ≠ '"')
    return (.node (.ofList name) (.ofList label), ← text.dropPrefix? "\"]\n".toList)
  | none =>
    let (target, text) := (← text.dropPrefix? " --> ".toList).span isWord
    return (.edge (.ofList name) (.ofList target), ← text.dropPrefix? "\n".toList)

def readMermaid (text : String) : Option (List Statement) := do
  readAll readMermaidStatement [] (← text.toList.dropPrefix? "graph TD\n".toList)

/-! ## Texts of many statements -/

section Statements
variable {read : Reader} {ending : List Char}

theorem readAll_ending (h : read ending = none) : readAll read ending ending = some [] := by
  rw [readAll, h]
  exact if_pos rfl

theorem readAll_append {written text : List Char} {s : Statement} (hwritten : written ≠ [])
    (h : read (written ++ text) = some (s, text)) :
    readAll read ending (written ++ text) = (readAll read ending text).map (s :: ·) := by
  have hlength : text.length < (written ++ text).length := by
    rw [List.length_append]
    exact Nat.lt_add_of_pos_left (List.length_pos_iff.mpr hwritten)
  conv_lhs => rw [readAll, h]
  exact if_pos hlength

theorem readAll_flatMap {α : Type} (ending : List Char) (items : List α) {written : α → List Char}
    {meaning : α → Statement} (hwritten : ∀ x ∈ items, written x ≠ [])
    (h : ∀ x ∈ items, ∀ rest, read (written x ++ rest) = some (meaning x, rest))
    (text : List Char) :
    readAll read ending (items.flatMap written ++ text) =
      (readAll read ending text).map (items.map meaning ++ ·) := by
  induction items with
  | nil => simp
  | cons x items ih =>
    rw [List.forall_mem_cons] at hwritten h
    rw [List.flatMap_cons, List.append_assoc, readAll_append hwritten.1 (h.1 _), ih hwritten.2 h.2,
      Option.map_map]
    rfl

end Statements

theorem dropPrefix?_append (start rest : List Char) :
    (start ++ rest).dropPrefix? start = some rest :=
  List.dropPrefix?_append_of_beq rest BEq.rfl

/-! ## DOT -/

/-- What is read of a text between quotes. -/
def shown (s : String) : String := .ofList (unescaped s.toList)

def dotNode (id label : String) : List Char :=
  "    \"".toList ++ (id.toList ++ '"' :: (" [label=\"".toList ++
    (label.toList ++ '"' :: "];\n".toList)))

def dotEdge (source target : String) : List Char :=
  "    \"".toList ++ (source.toList ++ '"' :: (" -> \"".toList ++
    (target.toList ++ '"' :: ";\n".toList)))

theorem readDotStatement_node {id label : String} (hid : Escaped id) (hlabel : Escaped label)
    (rest : List Char) :
    readDotStatement (dotNode id label ++ rest) = some (.node (shown id) (shown label), rest) := by
  simp only [readDotStatement, dotNode, List.append_assoc, List.cons_append, dropPrefix?_append,
    Option.bind_eq_bind, Option.bind_some, readQuoted_of_escaped hid, readQuoted_of_escaped hlabel]
  rfl

theorem dropPrefix?_label (rest : List Char) :
    (" -> \"".toList ++ rest).dropPrefix? " [label=\"".toList = none := by
  simp [List.dropPrefix?]

theorem readDotStatement_edge {source target : String} (hsource : Escaped source)
    (htarget : Escaped target) (rest : List Char) :
    readDotStatement (dotEdge source target ++ rest) =
      some (.edge (shown source) (shown target), rest) := by
  simp only [readDotStatement, dotEdge, List.append_assoc, List.cons_append, dropPrefix?_append,
    Option.bind_eq_bind, Option.bind_some, readQuoted_of_escaped hsource,
    readQuoted_of_escaped htarget, dropPrefix?_label]
  rfl

theorem toList_toDot (g : TaskGraph) (label : String → String) : (g.toDot label).toList =
    dotHeader.toList ++ ((g.nodes.flatMap fun id => dotNode id (label id)) ++
      ((g.edges.flatMap fun e => dotEdge e.1 e.2) ++ "\x7d\n".toList)) := by
  have htext : g.toDot label = dotHeader ++
      String.join (g.nodes.map fun id =>
        "    \"" ++ id ++ "\" [label=\"" ++ label id ++ "\"];\n") ++
      String.join (g.edges.map fun e => "    \"" ++ e.1 ++ "\" -> \"" ++ e.2 ++ "\";\n") ++
      "\x7d\n" :=
    rfl
  rw [htext]
  simp [String.toList_join, List.flatMap_map, dotNode, dotEdge]

theorem readDotStatement_ending : readDotStatement "\x7d\n".toList = none := by
  simp [readDotStatement, List.dropPrefix?]

theorem dotNode_ne_nil (id label : String) : dotNode id label ≠ [] := by
  simp [dotNode]

theorem dotEdge_ne_nil (source target : String) : dotEdge source target ≠ [] := by
  simp [dotEdge]

variable {g : TaskGraph} {label : String → String}

/-- A drawing of a graph is read back if every id and label in it ends where it was closed. -/
theorem readDot_toDot (hg : g.WellFormed) (hids : ∀ id ∈ g.nodes, Escaped id)
    (hlabels : ∀ id ∈ g.nodes, Escaped (label id)) :
    readDot (g.toDot label) = some (statements g shown fun id => shown (label id)) := by
  have hnodes := readAll_flatMap "\x7d\n".toList g.nodes
    (fun id _ => dotNode_ne_nil id (label id))
    (fun id hid => readDotStatement_node (hids id hid) (hlabels id hid))
  have hedges := readAll_flatMap "\x7d\n".toList g.edges
    (fun e _ => dotEdge_ne_nil e.1 e.2)
    (fun e he => readDotStatement_edge (hids e.1 (hg.source_mem he)) (hids e.2 (hg.target_mem he)))
  rw [readDot, toList_toDot, dropPrefix?_append, Option.bind_eq_bind, Option.bind_some, hnodes,
    hedges, readAll_ending readDotStatement_ending, Option.map_some, Option.map_some,
    List.append_nil]
  rfl

theorem depicts_dot (hids : ∀ id ∈ g.nodes, Escaped id) :
    Depicts g label (statements g shown label) :=
  depicts_statements_iff.mpr fun a ha b hb hab =>
    eq_of_unescaped_eq (hids a ha) (hids b hb) (String.ofList_injective hab)

/-! ## Mermaid -/

def mermaidNode (name label : String) : List Char :=
  "    ".toList ++ (name.toList ++ '[' :: '"' :: (label.toList ++ '"' :: "]\n".toList))

def mermaidEdge (source target : String) : List Char :=
  "    ".toList ++ (source.toList ++ ' ' :: ("--> ".toList ++ (target.toList ++ ['\n'])))

theorem span_append {p : Char → Bool} {s rest : List Char} {c : Char} (h : ∀ x ∈ s, p x = true)
    (hc : p c = false) : (s ++ c :: rest).span p = (s, c :: rest) := by
  rw [List.span_eq_takeWhile_dropWhile, List.takeWhile_append_of_pos h,
    List.dropWhile_append_of_pos h]
  simp [hc]

theorem isWord_mermaidId {id : String} {c : Char} (h : c ∈ (mermaidId id).toList) :
    isWord c = true := by
  rw [mermaidId, String.toList_map, List.mem_map] at h
  obtain ⟨d, -, rfl⟩ := h
  split_ifs with hd
  · simpa [isWord] using hd
  · rfl

theorem span_mermaidId (id : String) {c : Char} (hc : isWord c = false) (rest : List Char) :
    ((mermaidId id).toList ++ c :: rest).span isWord = ((mermaidId id).toList, c :: rest) :=
  span_append (fun _ => isWord_mermaidId) hc

theorem readMermaidStatement_node {id label : String} (hlabel : '"' ∉ label.toList)
    (rest : List Char) :
    readMermaidStatement (mermaidNode (mermaidId id) label ++ rest) =
      some (.node (mermaidId id) label, rest) := by
  have hbracket : isWord '[' = false := rfl
  have htext (text : List Char) : (label.toList ++ '"' :: text).span (· ≠ '"') =
      (label.toList, '"' :: text) :=
    span_append (fun c hc => decide_eq_true fun h => hlabel (h ▸ hc)) rfl
  have hopen (text : List Char) : ('[' :: '"' :: text).dropPrefix? "[\"".toList = some text := by
    simp [List.dropPrefix?]
  have hclose (text : List Char) :
      ('"' :: ("]\n".toList ++ text)).dropPrefix? "\"]\n".toList = some text := by
    simp [List.dropPrefix?]
  simp only [readMermaidStatement, mermaidNode, List.append_assoc, List.cons_append,
    dropPrefix?_append, Option.bind_eq_bind, Option.bind_some, span_mermaidId id hbracket,
    hopen, htext, hclose,
    String.ofList_toList]
  rfl

theorem readMermaidStatement_edge {a b : String} (rest : List Char) :
    readMermaidStatement (mermaidEdge (mermaidId a) (mermaidId b) ++ rest) =
      some (.edge (mermaidId a) (mermaidId b), rest) := by
  have hblank : isWord ' ' = false := rfl
  have hbreak : isWord '\n' = false := rfl
  have hnode (text : List Char) : (' ' :: text).dropPrefix? "[\"".toList = none := by
    simp [List.dropPrefix?]
  have harrow (text : List Char) :
      (' ' :: ("--> ".toList ++ text)).dropPrefix? " --> ".toList = some text := by
    simp [List.dropPrefix?]
  have hclose (text : List Char) : ('\n' :: text).dropPrefix? "\n".toList = some text := by
    simp [List.dropPrefix?]
  simp only [readMermaidStatement, mermaidEdge, List.append_assoc, List.cons_append,
    List.nil_append, dropPrefix?_append, Option.bind_eq_bind, Option.bind_some,
    span_mermaidId a hblank, hnode, harrow, span_mermaidId b hbreak, hclose, String.ofList_toList]
  rfl

theorem toList_toMermaid (g : TaskGraph) (label : String → String) : (g.toMermaid label).toList =
    "graph TD\n".toList ++
      ((g.nodes.flatMap fun id => mermaidNode (mermaidId id) (label id)) ++
        g.edges.flatMap fun e => mermaidEdge (mermaidId e.1) (mermaidId e.2)) := by
  have htext : g.toMermaid label = "graph TD\n" ++
      String.join (g.nodes.map fun id =>
        "    " ++ mermaidId id ++ "[\"" ++ label id ++ "\"]\n") ++
      String.join (g.edges.map fun e =>
        "    " ++ mermaidId e.1 ++ " --> " ++ mermaidId e.2 ++ "\n") :=
    rfl
  rw [htext]
  simp [String.toList_join, List.flatMap_map, mermaidNode, mermaidEdge]

theorem readMermaidStatement_ending : readMermaidStatement [] = none := by
  simp [readMermaidStatement, List.dropPrefix?]

theorem mermaidNode_ne_nil (name label : String) : mermaidNode name label ≠ [] := by
  simp [mermaidNode]

theorem mermaidEdge_ne_nil (source target : String) : mermaidEdge source target ≠ [] := by
  simp [mermaidEdge]

/-- A drawing of a graph is read back if no label has a quote in it. -/
theorem readMermaid_toMermaid (hlabels : ∀ id ∈ g.nodes, '"' ∉ (label id).toList) :
    readMermaid (g.toMermaid label) = some (statements g mermaidId label) := by
  have hnodes := readAll_flatMap [] g.nodes
    (fun id _ => mermaidNode_ne_nil (mermaidId id) (label id))
    (fun id hid => readMermaidStatement_node (hlabels id hid))
  have hedges := readAll_flatMap [] g.edges
    (fun e _ => mermaidEdge_ne_nil (mermaidId e.1) (mermaidId e.2))
    (fun e _ => readMermaidStatement_edge) []
  rw [List.append_nil, readAll_ending readMermaidStatement_ending] at hedges
  rw [readMermaid, toList_toMermaid, dropPrefix?_append, Option.bind_eq_bind, Option.bind_some,
    hnodes, hedges, Option.map_some, Option.map_some, List.append_nil]
  rfl

/-- Two ids are equal but for characters that are neither letters nor digits. -/
def Alike (a b : String) : Prop :=
  List.Forall₂ (fun c d : Char => c = d ∨ c.isAlphanum = false ∧ d.isAlphanum = false)
    a.toList b.toList

instance (a b : String) : Decidable (Alike a b) :=
  inferInstanceAs (Decidable (List.Forall₂ _ _ _))

theorem mermaidChar_eq (c : Char) :
    (if c.isAlphanum || c = '_' then c else '_') = if c.isAlphanum then c else '_' := by
  by_cases hc : c = '_'
  · rw [hc]
    rfl
  · simp [hc]

theorem mermaidChar_eq_iff (c d : Char) :
    ((if c.isAlphanum then c else '_') = if d.isAlphanum then d else '_') ↔
      c = d ∨ c.isAlphanum = false ∧ d.isAlphanum = false := by
  have hne {x : Char} (hx : x.isAlphanum = true) : x ≠ '_' := by
    rintro rfl
    exact absurd hx (by decide)
  split_ifs with hc hd hd
  · simp [hc]
  · simp only [hne hc, hc, Bool.true_eq_false, false_and, or_false, false_iff]
    exact fun h => hd (h ▸ hc)
  · simp only [(hne hd).symm, hd, Bool.true_eq_false, and_false, or_false, false_iff]
    exact fun h => hc (h ▸ hd)
  · simp [hc, hd]

theorem mermaidId_eq_iff {a b : String} : mermaidId a = mermaidId b ↔ Alike a b := by
  rw [← String.toList_inj, mermaidId, mermaidId, String.toList_map, String.toList_map,
    ← List.forall₂_eq_eq_eq, List.forall₂_map_left_iff, List.forall₂_map_right_iff]
  simp only [mermaidChar_eq, mermaidChar_eq_iff, Alike]

/-- The nodes are told apart exactly if no two ids are alike. -/
theorem depicts_mermaid_iff : Depicts g label (statements g mermaidId label) ↔
    ∀ a ∈ g.nodes, ∀ b ∈ g.nodes, Alike a b → a = b := by
  simp only [depicts_statements_iff, mermaidId_eq_iff]

end Workflow.Drawing
