import Workflow.Manifest.Render
import Workflow.Proofs.Digest.Framing
import Workflow.Proofs.Graph.Drawing
import Workflow.Proofs.Json.Scalars
import Workflow.Proofs.Manifest.Basic
import Workflow.Proofs.Manifest.Checked

/-!
# What drawings of manifests show

In a Mermaid diagram two nodes are taken for one exactly if their ids are alike. A DOT diagram shows
the graph if every id and label in it ends where it was closed: ids stand there as they are, and in
labels the quotes get a backslash while the backslashes before them stay. A label is made of names
and of the values that a condition compares with. Numbers and truth values have no quotes in them; a
text stands between quotes, in which its own quotes have a backslash already.
-/
namespace Workflow

namespace Drawing

/-! ## Values -/

theorem plain_of_numberChar {s : String} (h : ∀ c ∈ s.toList, Json.isNumberChar c = true) :
    Plain s := by
  intro c hc
  have hnumber := h c hc
  constructor
  · rintro rfl
    exact absurd hnumber (by decide)
  · rintro rfl
    exact absurd hnumber (by decide)

theorem plain_int (n : Int) : Plain (toString n) := by
  refine plain_of_numberChar fun c hc => ?_
  rcases Json.isNumberChar_of_mem_int hc with rfl | hdigit
  · rfl
  · simp [Json.isNumberChar, hdigit]

theorem plain_float (x : Binary64) : Plain (Layout.plain.write x) := by
  cases x with
  | nan => decide
  | infinite negative => cases negative <;> decide
  | finite negative m e => exact plain_of_numberChar fun c => Json.isNumberChar_of_mem_write

theorem plain_hexText (n : Nat) : Plain (hexText n) := by
  intro c hc
  rw [hexText, String.toList_ofList] at hc
  obtain ⟨d, hd, rfl⟩ := toDigits_mem_cases hc
  have hdigit : ∀ d < 16, Nat.digitChar d ≠ '"' ∧ Nat.digitChar d ≠ '\\' := by decide
  exact hdigit d hd

theorem paired_escape {s : String} {c : Char} {rest : List Char} (h : s.toList = '\\' :: c :: rest)
    (hc : c ≠ '"') (hrest : Stands Even 0 rest) : Paired s := by
  rw [Paired, h, stands_even_pair]
  exact ⟨hc, hrest⟩

theorem paired_quotedChar {c : Char} (h : c ≠ '"') : Paired (quotedChar c) := by
  unfold quotedChar
  split
  · decide
  · decide
  · decide
  · exact absurd rfl h
  · decide
  · decide
  · rename_i hslash _
    have hcode : Paired ("\\u\x7b" ++ hexText c.toNat ++ "\x7d") := by
      have hplain : Plain ("\x7b" ++ hexText c.toNat ++ "\x7d") :=
        (Plain.append (by decide) (plain_hexText _)).append (by decide)
      exact paired_escape (c := 'u') (by simp) (by decide) hplain.stands
    have hitself : Paired (String.singleton c) := by
      have hplain : Plain (String.singleton c) := by
        intro x hx
        obtain rfl := List.mem_singleton.mp (String.toList_singleton c ▸ hx)
        exact ⟨h, hslash⟩
      exact hplain.stands
    have heither (hidden : Bool) : Paired
        (if hidden then "\\u\x7b" ++ hexText c.toNat ++ "\x7d" else String.singleton c) := by
      cases hidden
      · exact hitself
      · exact hcode
    exact heither _

theorem not_paired_quote (s : String) : ¬ Paired ("\\\"" ++ s) := by
  rw [Paired, String.toList_append]
  exact fun h => (stands_even_pair.mp h).1 rfl

/-- Between its quotes a text has escaped ones exactly if it has quotes at all. -/
theorem paired_quotedBody_append {s rest : String} :
    Paired (quotedBody s ++ rest) ↔ '"' ∉ s.toList ∧ Paired rest := by
  unfold quotedBody
  induction s.toList with
  | nil => simp [Paired]
  | cons c s ih =>
    rw [List.map_cons, String.join_cons, String.append_assoc, List.mem_cons, not_or, and_assoc]
    by_cases hc : c = '"'
    · subst hc
      exact iff_of_false (not_paired_quote _) fun h => h.1 rfl
    · rw [paired_append (paired_quotedChar hc), ih]
      exact (and_iff_right (Ne.symm hc)).symm

theorem paired_quoted_append {s rest : String} :
    Paired (quoted s ++ rest) ↔ '"' ∉ s.toList ∧ Paired rest := by
  rw [quoted, String.append_assoc, String.append_assoc, paired_append (by decide),
    paired_quotedBody_append, paired_append (by decide)]

/-- A value is no text with a quote in it. -/
def Quoteless : Scalar → Prop
  | .text s => '"' ∉ s.toList
  | .bool _ | .int _ | .float _ => True

theorem paired_scalar_append {v : Scalar} {rest : String} :
    Paired (v.display ++ rest) ↔ Quoteless v ∧ Paired rest := by
  cases v with
  | bool b =>
    have hplain : Plain (Scalar.bool b).display := by cases b <;> decide
    rw [paired_append hplain.stands, Quoteless, true_and]
  | int n => rw [Scalar.display, paired_append (plain_int _).stands, Quoteless, true_and]
  | float x => rw [Scalar.display, paired_append (plain_float x).stands, Quoteless, true_and]
  | text s => exact paired_quoted_append

/-! ## Conditions -/

theorem paired_clause_append {c : ConditionClause} {rest : String} (h : Plain c.gate.display) :
    Paired (c.display ++ rest) ↔ Quoteless c.equals ∧ Paired rest := by
  rw [ConditionClause.display, String.append_assoc, String.append_assoc, paired_append h.stands,
    paired_append (by decide), paired_scalar_append]

theorem paired_clauses {cs : List ConditionClause} (h : ∀ c ∈ cs, Plain c.gate.display) :
    Paired (" && ".intercalate (cs.map (·.display))) ↔ ∀ c ∈ cs, Quoteless c.equals := by
  induction cs with
  | nil => exact iff_of_true (by decide) (by simp)
  | cons c cs ih =>
    obtain ⟨hc, hcs⟩ := List.forall_mem_cons.mp h
    cases cs with
    | nil =>
      rw [List.map_singleton, String.intercalate_singleton, ← String.append_empty (s := c.display),
        paired_clause_append hc]
      simp [Paired, stands_nil]
    | cons c' cs =>
      have hrest := ih hcs
      rw [List.map_cons] at hrest
      rw [List.map_cons, List.map_cons, String.intercalate_cons_cons, String.append_assoc,
        paired_clause_append hc, paired_append (by decide), hrest]
      simp only [List.forall_mem_cons]

/-! ## Labels -/

/-- No name that stands in the label of a node has a quote or a backslash in it. -/
structure PlainNames (n : ManifestNode) : Prop where
  id : Plain n.id
  component : Plain n.component
  gate : ∀ c ∈ n.condition.clauses, Plain c.gate.display

theorem paired_label {m : Manifest} {n : ManifestNode} (hnode : m.node? n.id = some n)
    (h : PlainNames n) : Paired (m.label n.id) ↔ ∀ c ∈ n.condition.clauses, Quoteless c.equals := by
  have hplain : Plain (n.id ++ " (" ++ n.component ++ ")") :=
    ((h.id.append (by decide)).append h.component).append (by decide)
  rw [Manifest.label, hnode]
  dsimp only
  split_ifs with hgated
  · rw [String.append_assoc, paired_append hplain.stands, paired_append (by decide),
      Condition.display, paired_clauses h.gate]
  · have hempty : n.condition.clauses = [] := by
      simpa [ManifestNode.isGated, Condition.isEmpty] using hgated
    exact iff_of_true hplain.stands (by simp [hempty])

end Drawing

/-! ## Drawings -/

namespace Manifest
open Drawing
variable {m : Manifest} {n : ManifestNode}

/-- A label as it stands in a DOT diagram. -/
def dotLabel (m : Manifest) (id : String) : String := replaceQuotes "\\\"" (m.label id)

/-- A label as it stands in a Mermaid diagram. -/
def mermaidLabel (m : Manifest) (id : String) : String := replaceQuotes "#quot;" (m.label id)

theorem toList_replaceQuotes (replacement s : String) : (replaceQuotes replacement s).toList =
    s.toList.flatMap fun c => if c = '"' then replacement.toList else [c] := by
  rw [replaceQuotes, String.toList_join, List.flatMap_map]
  congr 1
  funext c
  split_ifs
  · rfl
  · exact String.toList_singleton c

theorem toList_dotLabel (id : String) : (m.dotLabel id).toList = escaped (m.label id).toList :=
  toList_replaceQuotes _ _

theorem quote_notMem_mermaidLabel (id : String) : '"' ∉ (m.mermaidLabel id).toList := by
  rw [mermaidLabel, toList_replaceQuotes, List.mem_flatMap]
  rintro ⟨c, -, hc⟩
  split_ifs at hc with hquote
  · exact absurd hc (by decide)
  · exact hquote (List.mem_singleton.mp hc).symm

/-- The quotes of a label get a backslash each, so that they must not have been escaped before. -/
theorem escaped_dotLabel_iff {id : String} : Escaped (m.dotLabel id) ↔ Paired (m.label id) := by
  rw [Escaped, toList_dotLabel, stands_odd_escaped]

theorem shown_dotLabel {id : String} (h : Paired (m.label id)) :
    shown (m.dotLabel id) = m.label id := by
  rw [shown, toList_dotLabel, unescaped_escaped h, String.ofList_toList]

theorem forall_mem_graph {p : String → Prop} :
    (∀ id ∈ m.graph.nodes, p id) ↔ ∀ n ∈ m.nodes, p n.id := by
  simp only [graph, TaskGraph.mem_nodes_ofEdges, List.forall_mem_map]

theorem Checked.id_eq_iff (h : m.Checked) {n k : ManifestNode} (hn : n ∈ m.nodes)
    (hk : k ∈ m.nodes) : n.id = k.id ↔ n = k :=
  ⟨List.inj_on_of_nodup_map h.ids_nodup hn hk, congrArg _⟩

theorem readMermaid_renderMermaid :
    readMermaid m.renderMermaid = some (statements m.graph TaskGraph.mermaidId m.mermaidLabel) :=
  readMermaid_toMermaid fun id _ => quote_notMem_mermaidLabel id

theorem Checked.depicts_mermaid (h : m.Checked) :
    Depicts m.graph m.mermaidLabel (statements m.graph TaskGraph.mermaidId m.mermaidLabel) ↔
      ∀ n ∈ m.nodes, ∀ k ∈ m.nodes, Alike n.id k.id → n = k := by
  rw [depicts_mermaid_iff, forall_mem_graph]
  refine forall₂_congr fun n hn => ?_
  rw [forall_mem_graph]
  exact forall₂_congr fun k hk => imp_congr_right fun _ => h.id_eq_iff hn hk

/-- Every id and every label ends where it was closed. -/
def Closed (m : Manifest) : Prop :=
  ∀ n ∈ m.nodes, EndsWhereClosed n.id ∧ EndsWhereClosed (m.dotLabel n.id)

theorem endsWhereClosed_dotLabel_iff {id : String} :
    EndsWhereClosed (m.dotLabel id) ↔ Paired (m.label id) :=
  endsWhereClosed_iff.trans escaped_dotLabel_iff

theorem Closed.exists_drawn (h : m.Closed) :
    ∃ drawn, readDot m.renderDot = some drawn ∧ Depicts m.graph m.label drawn := by
  have hids : ∀ id ∈ m.graph.nodes, Escaped id :=
    forall_mem_graph.mpr fun n hn => endsWhereClosed_iff.mp (h n hn).1
  have hlabels : ∀ id ∈ m.graph.nodes, Paired (m.label id) :=
    forall_mem_graph.mpr fun n hn => endsWhereClosed_dotLabel_iff.mp (h n hn).2
  have hread := readDot_toDot (TaskGraph.ofEdges_wellFormed _ _) hids
    fun id hid => escaped_dotLabel_iff.mpr (hlabels id hid)
  refine ⟨_, hread, ?_⟩
  have hshown : statements m.graph shown (fun id => shown (m.dotLabel id)) =
      statements m.graph shown m.label :=
    statements_congr fun id hid => shown_dotLabel (hlabels id hid)
  exact hshown ▸ depicts_dot hids

theorem endsWhereClosed_label_iff (h : m.Checked) (hn : n ∈ m.nodes) (hnames : PlainNames n) :
    EndsWhereClosed (m.dotLabel n.id) ↔ ∀ c ∈ n.condition.clauses, Quoteless c.equals :=
  endsWhereClosed_dotLabel_iff.trans (paired_label (node?_of_mem h.ids_nodup hn) hnames)

/-- A Mermaid diagram of a checked manifest always shows its nodes and edges, and tells the nodes
apart exactly if no two ids are alike. A DOT diagram shows them one for one if all tokens in it end
where they were closed. An id does exactly if all its quotes are escaped, a label exactly if none
is; with plain names these are the labels of conditions that compare with no text that has a quote
in it. -/
theorem drawings_faithful (hvalid : m.validate = .ok ()) :
    (∃ drawn, readMermaid m.renderMermaid = some drawn ∧ (Depicts m.graph m.mermaidLabel drawn ↔
      ∀ n ∈ m.nodes, ∀ k ∈ m.nodes, Alike n.id k.id → n = k)) ∧
    (m.Closed → ∃ drawn, readDot m.renderDot = some drawn ∧ Depicts m.graph m.label drawn) ∧
    ∀ n ∈ m.nodes, (EndsWhereClosed n.id ↔ Escaped n.id) ∧
      (EndsWhereClosed (m.dotLabel n.id) ↔ Paired (m.label n.id)) ∧
      (PlainNames n → EndsWhereClosed n.id ∧ (EndsWhereClosed (m.dotLabel n.id) ↔
        ∀ c ∈ n.condition.clauses, Quoteless c.equals)) := by
  have h := validate_eq_ok_iff.mp hvalid
  refine ⟨⟨_, readMermaid_renderMermaid, h.depicts_mermaid⟩, Closed.exists_drawn, fun n hn =>
    ⟨endsWhereClosed_iff, endsWhereClosed_dotLabel_iff, fun hnames => ?_⟩⟩
  exact ⟨endsWhereClosed_iff.mpr hnames.id.stands, endsWhereClosed_label_iff h hn hnames⟩

/-- A task without inputs that runs under a condition. -/
def taskOf (id : String) (clauses : List ConditionClause) : ManifestNode :=
  ⟨id, id, "fit", [], [⟨"done", .bool, .output id "done"⟩], .empty, ⟨clauses⟩, .registered "fit"⟩

def drawnOf (nodes : List ManifestNode) (edges : List (String × String)) : Manifest :=
  ⟨manifestVersion, ⟨"p", none⟩, [⟨"mode", .string, none⟩], nodes, edges⟩

/-- The second task runs only in a mode that has a backslash in it. -/
def gatedPair : Manifest :=
  drawnOf [taskOf "load" [], taskOf "train-2" [⟨.output "load" "done", .bool true⟩,
    ⟨.param "mode", .text "a\\b"⟩]] [("load", "train-2")]

theorem drawings_faithful_gatedPair : gatedPair.validate = .ok () ∧ gatedPair.Closed ∧
    (∃ drawn, readDot gatedPair.renderDot = some drawn ∧
      Depicts gatedPair.graph gatedPair.label drawn) ∧
    ∃ drawn, readMermaid gatedPair.renderMermaid = some drawn ∧
      Depicts gatedPair.graph gatedPair.mermaidLabel drawn := by
  have hvalid : gatedPair.validate = .ok () := by decide +kernel
  obtain ⟨⟨drawn, hread, hdepicts⟩, hdot, hnodes⟩ := drawings_faithful hvalid
  have hquotes : ∀ n ∈ gatedPair.nodes, Escaped n.id ∧ Paired (gatedPair.label n.id) := by
    decide +kernel
  have hclosed : gatedPair.Closed := fun n hn =>
    ⟨(hnodes n hn).1.mpr (hquotes n hn).1, (hnodes n hn).2.1.mpr (hquotes n hn).2⟩
  exact ⟨hvalid, hclosed, hdot hclosed, drawn, hread, hdepicts.mpr (by decide +kernel)⟩

/-- Two ids that are alike, and a task whose id and condition have quotes in them. -/
def confusing : Manifest :=
  drawnOf [taskOf "train-2" [], taskOf "train_2" [],
    taskOf "say \"hi\"" [⟨.param "mode", .text "\""⟩]] []

/-- A Mermaid diagram of a checked manifest can show two nodes as one, and a DOT diagram can end the
ids and labels of its nodes at quotes in them. -/
theorem drawings_confusing : confusing.validate = .ok () ∧
    (∀ drawn, readMermaid confusing.renderMermaid = some drawn →
      ¬ Depicts confusing.graph confusing.mermaidLabel drawn) ∧
    ¬ EndsWhereClosed "say \"hi\"" ∧ ¬ EndsWhereClosed (confusing.dotLabel "say \"hi\"") := by
  have hvalid : confusing.validate = .ok () := by decide +kernel
  refine ⟨hvalid, fun drawn hread hdepicts => ?_, ?_, ?_⟩
  · obtain rfl := Option.some.inj (readMermaid_renderMermaid.symm.trans hread)
    have happart := (validate_eq_ok_iff.mp hvalid).depicts_mermaid.mp hdepicts
    exact absurd happart (by decide +kernel)
  · rw [endsWhereClosed_iff]
    decide +kernel
  · rw [endsWhereClosed_dotLabel_iff]
    decide +kernel

end Manifest
end Workflow
