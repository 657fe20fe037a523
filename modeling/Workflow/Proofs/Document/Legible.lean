import Workflow.Proofs.Document.Manifests
import Workflow.Proofs.Json.Documents

/-!
# Documents that JSON can hold

The documents of manifests and runs are within the limits of the reader of JSON texts, if their
doubles are read as they were written and the metadata of artifacts are within the limits. So they
are read as they were written.
-/
namespace Workflow

namespace Document

variable {α : Type} {depth : Nat}

theorem legible_text (s : String) : (text s).Legible depth := ⟨rfl, trivial⟩

theorem legible_bool (b : Bool) : (bool b).Legible depth := ⟨rfl, trivial⟩

theorem legible_list {write : α → Document} {as : List α} (hdepth : 1 < depth)
    (h : ∀ a ∈ as, (write a).Legible (depth - 1)) :
    (sequence (as.map write)).Legible depth := by
  refine ⟨hdepth, ?_⟩
  clear hdepth
  induction as with
  | nil => trivial
  | cons a as ih =>
    obtain ⟨ha, has⟩ := List.forall_mem_cons.mp h
    exact ⟨ha, ih has⟩

theorem legible_fields {fields : List (String × Document)} (hdepth : 1 < depth)
    (h : ∀ f ∈ fields, f.2.Legible (depth - 1)) : (record fields).Legible depth := by
  refine ⟨hdepth, ?_⟩
  clear hdepth
  induction fields with
  | nil => trivial
  | cons f fields ih =>
    obtain ⟨hf, hfields⟩ := List.forall_mem_cons.mp h
    exact ⟨⟨⟨f.1, rfl⟩, hf⟩, ih hfields⟩

theorem legible_dict {write : α → Document} {dict : Dict α} (hdepth : 1 < depth)
    (h : ∀ k v, dict.get? k = some v → (write v).Legible (depth - 1)) :
    (ofDict write dict).Legible depth := by
  refine legible_fields hdepth fun f hf => ?_
  obtain ⟨e, he, rfl⟩ := List.mem_map.mp hf
  exact h e.1 e.2 (Dict.mem_entries_iff.mp he)

/-- The field is left out, or JSON can hold it. -/
def LegibleSlot (depth : Nat) (slot : Option Document) : Prop := ∀ d, slot = some d → d.Legible depth

def LegibleSlots (depth : Nat) : List (String × Option Document) → Prop
  | [] => True
  | (_, slot) :: slots => LegibleSlot depth slot ∧ LegibleSlots depth slots

theorem legible_some {d : Document} (h : d.Legible depth) : LegibleSlot depth (some d) := by
  rintro _ ⟨⟩
  exact h

theorem legible_unless {empty : Bool} {d : Document} (h : d.Legible depth) :
    LegibleSlot depth (if empty then none else some d) := by
  cases empty with
  | true => nofun
  | false => exact legible_some h

theorem legible_map {write : α → Document} {o : Option α}
    (h : ∀ a, o = some a → (write a).Legible depth) : LegibleSlot depth (o.map write) := by
  intro d hd
  obtain ⟨a, ha, rfl⟩ := Option.map_eq_some_iff.mp hd
  exact h a ha

theorem legible_record {slots : List (String × Option Document)} (hdepth : 1 < depth)
    (h : LegibleSlots (depth - 1) slots) : (record (present slots)).Legible depth := by
  refine legible_fields hdepth fun f hf => ?_
  induction slots with
  | nil => cases hf
  | cons slot slots ih =>
    obtain ⟨name, slot⟩ := slot
    obtain ⟨hslot, hslots⟩ := h
    rcases List.mem_append.mp (show f ∈ optionalField name id slot ++ present slots from hf) with
      hf | hf
    · cases slot with
      | none => cases hf
      | some d =>
        obtain rfl : f = (name, d) := List.mem_singleton.mp hf
        exact hslot d rfl
    · exact ih hslots hf

end Document

open Document

/-- A double among the scalars is read as it was written. -/
def Scalar.Legible : Scalar → Prop
  | .float x => Json.ReadsBack x
  | _ => True

variable {depth : Nat}

theorem Scalar.legible {s : Scalar} (h : s.Legible) : s.encode.Legible depth := by
  refine ⟨rfl, ?_⟩
  cases s with
  | bool _ | text _ => trivial
  | float x => exact h
  | int n =>
    have hlt := n.toInt_lt
    have hge := n.le_toInt
    exact ⟨hge, by simp only [greatestNat64]; omega⟩

/-! ## Manifests -/

theorem GateRef.legible (g : GateRef) (h : 1 < depth) : g.encode.Legible depth := by
  cases g with
  | param name =>
    exact legible_fields h (List.forall_mem_singleton.mpr (legible_text name))
  | output task result =>
    exact legible_fields h (List.forall_mem_cons.mpr
      ⟨legible_text task, List.forall_mem_singleton.mpr (legible_text result)⟩)

namespace Binding

def scalar? : Binding → Option Scalar
  | literal s => some s
  | _ => none

theorem legible {b : Binding} (hdepth : 1 < depth) (h : ∀ s, b.scalar? = some s → s.Legible) :
    b.encode.Legible depth := by
  cases b with
  | param name => exact (GateRef.param name).legible hdepth
  | output task result => exact (GateRef.output task result).legible hdepth
  | literal s => exact Scalar.legible (h s rfl)

end Binding

theorem ConditionClause.legible {c : ConditionClause} (hdepth : 2 < depth) (h : c.equals.Legible) :
    c.encode.Legible depth :=
  legible_fields (by omega) (List.forall_mem_cons.mpr ⟨c.gate.legible (by omega),
    List.forall_mem_singleton.mpr (Scalar.legible h)⟩)

theorem Condition.legible {c : Condition} (hdepth : 4 < depth)
    (h : ∀ clause ∈ c.clauses, clause.equals.Legible) : c.encode.Legible depth :=
  legible_fields (by omega) (List.forall_mem_singleton.mpr
    (legible_list (by omega) fun clause hc => ConditionClause.legible (by omega) (h clause hc)))

theorem ResourceProfile.legible (p : ResourceProfile) (hdepth : 2 < depth) :
    p.encode.Legible depth := by
  rw [encode_eq]
  exact legible_record (by omega) ⟨legible_map fun q _ => legible_text q.text,
    legible_map fun q _ => legible_text q.text, legible_map fun q _ => legible_text q.text,
    legible_map fun q _ => legible_text q.text,
    legible_unless (legible_dict (by omega) fun _ s _ => legible_text s), trivial⟩

theorem BodyRef.legible (b : BodyRef) (hdepth : 2 < depth) : b.encode.Legible depth := by
  cases b with
  | registered name =>
    exact legible_fields (by omega) (List.forall_mem_cons.mpr
      ⟨legible_text "registered", List.forall_mem_singleton.mpr (legible_text name)⟩)
  | shell command interpreter env =>
    have hslots : LegibleSlots (depth - 1)
        (("type", some (.text "shell")) :: shellSlots command interpreter env) :=
      ⟨legible_some (legible_text _), legible_some (legible_text _), legible_some (legible_text _),
        legible_unless (legible_dict (by omega) fun _ s _ => legible_text s), trivial⟩
    rw [encode_shell]
    exact legible_record (by omega) hslots

theorem ParameterSpec.legible {p : ParameterSpec} (hdepth : 1 < depth)
    (h : ∀ s, p.defaultValue = some s → s.Legible) : p.encode.Legible depth := by
  rw [encode_eq]
  exact legible_record hdepth ⟨legible_some (legible_text _), legible_some (legible_text _),
    legible_map fun s hs => Scalar.legible (h s hs), trivial⟩

namespace NodeInput

def scalars (i : NodeInput) : List Scalar :=
  (i.binding.bind Binding.scalar?).toList ++ i.defaultValue.toList

theorem legible {i : NodeInput} (hdepth : 2 < depth) (h : ∀ s ∈ i.scalars, s.Legible) :
    i.encode.Legible depth := by
  have hbinding : ∀ b, i.binding = some b → b.encode.Legible (depth - 1) := fun b hb =>
    Binding.legible (by omega) fun s hs => h s (List.mem_append_left _
      (Option.mem_toList.mpr (Option.bind_eq_some_iff.mpr ⟨b, hb, hs⟩)))
  have hdefault : ∀ s, i.defaultValue = some s → s.encode.Legible (depth - 1) := fun s hs =>
    Scalar.legible (h s (List.mem_append_right _ (Option.mem_toList.mpr hs)))
  rw [encode_eq]
  exact legible_record (by omega) ⟨legible_some (legible_text _), legible_some (legible_text _),
    legible_map hbinding, legible_map hdefault, trivial⟩

end NodeInput

theorem NodeOutput.legible (o : NodeOutput) (hdepth : 1 < depth) : o.encode.Legible depth :=
  legible_fields hdepth (List.forall_mem_cons.mpr ⟨legible_text _,
    List.forall_mem_cons.mpr ⟨legible_text _, List.forall_mem_singleton.mpr (legible_text _)⟩⟩)

namespace ManifestNode

def scalars (n : ManifestNode) : List Scalar :=
  n.inputs.flatMap (·.scalars) ++ n.condition.clauses.map (·.equals)

theorem legible {n : ManifestNode} (hdepth : 5 < depth) (h : ∀ s ∈ n.scalars, s.Legible) :
    n.encode.Legible depth := by
  have hinputs : ∀ i ∈ n.inputs, i.encode.Legible (depth - 1 - 1) := fun i hi =>
    NodeInput.legible (by omega) fun s hs =>
      h s (List.mem_append_left _ (List.mem_flatMap.mpr ⟨i, hi, hs⟩))
  have hclauses : ∀ c ∈ n.condition.clauses, c.equals.Legible := fun c hc =>
    h _ (List.mem_append_right _ (List.mem_map_of_mem hc))
  rw [encode_eq]
  exact legible_record (by omega) ⟨legible_some (legible_text _), legible_some (legible_text _),
    legible_some (legible_text _), legible_some (legible_list (by omega) hinputs),
    legible_some (legible_list (by omega) fun o _ => o.legible (by omega)),
    legible_unless (n.resources.legible (by omega)),
    legible_unless (Condition.legible (by omega) hclauses),
    legible_some (n.body.legible (by omega)), trivial⟩

end ManifestNode

namespace Manifest

def scalars (m : Manifest) : List Scalar :=
  m.parameters.filterMap (·.defaultValue) ++ m.nodes.flatMap (·.scalars)

theorem legible {m : Manifest} (hdepth : 7 < depth) (h : ∀ s ∈ m.scalars, s.Legible) :
    m.encode.Legible depth := by
  have hparameters : ∀ p ∈ m.parameters, p.encode.Legible (depth - 1 - 1) := fun p hp =>
    ParameterSpec.legible (by omega) fun s hs =>
      h s (List.mem_append_left _ (List.mem_filterMap.mpr ⟨p, hp, hs⟩))
  have hnodes : ∀ n ∈ m.nodes, n.encode.Legible (depth - 1 - 1) := fun n hn =>
    ManifestNode.legible (by omega) fun s hs =>
      h s (List.mem_append_right _ (List.mem_flatMap.mpr ⟨n, hn, hs⟩))
  have hpipeline : m.pipeline.encode.Legible (depth - 1) := by
    rw [PipelineInfo.encode_eq]
    exact legible_record (by omega)
      ⟨legible_some (legible_text _), legible_map fun s _ => legible_text s, trivial⟩
  have hedges : ∀ e ∈ m.edges, (encodeEdge e).Legible (depth - 1 - 1) := fun e _ =>
    legible_fields (by omega) (List.forall_mem_cons.mpr
      ⟨legible_text _, List.forall_mem_singleton.mpr (legible_text _)⟩)
  rw [encode_eq]
  exact legible_record (by omega) ⟨legible_some (legible_text _), legible_some hpipeline,
    legible_some (legible_list (by omega) hparameters),
    legible_some (legible_list (by omega) hnodes), legible_some (legible_list (by omega) hedges),
    trivial⟩

end Manifest

/-! ## Runs -/

/-- The doubles of a value are read as they were written, and JSON can hold its metadata within a
number of nested brackets. -/
def Value.Legible (depth : Nat) : Value → Prop
  | .scalar s => s.Legible
  | .artifact p => ∀ k d, p.metadata.get? k = some d → d.Legible depth

theorem Value.legible {v : Value} (hdepth : 2 < depth) (h : v.Legible (depth - 2)) :
    v.encode.Legible depth := by
  cases v with
  | scalar s => exact Scalar.legible h
  | artifact p =>
    rw [encode, ArtifactPayload.encode_eq]
    exact legible_record (by omega) ⟨legible_some (legible_text _),
      legible_unless (legible_dict (by omega) h), trivial⟩

namespace NodeState

theorem legible {n : NodeState} (hdepth : 4 < depth)
    (h : ∀ name v, n.outputs.get? name = some v → v.Legible (depth - 4)) :
    n.encode.Legible depth := by
  have houtputs : ∀ name v, n.outputs.get? name = some v → v.encode.Legible (depth - 1 - 1) :=
    fun name v hv => Value.legible (by omega) (h name v hv)
  rw [encode_eq]
  exact legible_record (by omega) ⟨legible_some (legible_text _),
    legible_unless (legible_bool _), legible_map fun s _ => legible_text s,
    legible_map fun t _ => legible_text t.text, legible_map fun t _ => legible_text t.text,
    legible_unless (legible_dict (by omega) houtputs), trivial⟩

end NodeState

namespace Run

/-- The doubles of a run are read as they were written, and JSON can hold all metadata. -/
structure Legible (r : Run) : Prop where
  params : ∀ name s, r.params.get? name = some s → s.Legible
  outputs : ∀ id n, r.nodes.get? id = some n →
    ∀ name v, n.outputs.get? name = some v → v.Legible 122

theorem legible {r : Run} (h : r.Legible) : r.encode.Legible 128 := by
  rw [encode_eq]
  exact legible_record (by omega) ⟨legible_some (legible_text _), legible_some (legible_text _),
    legible_some (legible_text _), legible_some (legible_text _), legible_some (legible_text _),
    legible_some (legible_dict (by omega) fun name s hs => Scalar.legible (h.params name s hs)),
    legible_some (legible_text _),
    legible_some (legible_dict (by omega) fun id n hn =>
      NodeState.legible (by omega) (h.outputs id n hn)),
    legible_some (legible_text _), legible_some (legible_text _),
    legible_map fun t _ => legible_text t.text, trivial⟩

end Run

theorem Experiment.legible (e : Experiment) : e.encode.Legible 128 := by
  rw [Experiment.encode_eq]
  exact legible_record (by omega) ⟨legible_some (legible_text _), legible_some (legible_text _),
    legible_map fun s _ => legible_text s, legible_some (legible_text _), trivial⟩

/-! ## Reading again -/

/-- What is written is read as it was, up to the spellings of atoms. -/
def Document.Restored (read? : String → Option Document) (write : Document → String)
    (d : Document) : Prop := (read? (write d)).bind Document.settle? = some d

instance (read? : String → Option Document) (write : Document → String) :
    DecidablePred (Document.Restored read? write) := fun _ => inferInstanceAs (Decidable (_ = _))

mutual

theorem Document.settle?_of_legible : (d : Document) → ∀ {depth : Nat}, d.Legible depth →
    d.settle? = some d
  | .atom a spelling, _, h => by
    obtain ⟨rfl, ha⟩ := h
    cases a with
    | int n => exact if_pos ha
    | _ => rfl
  | .sequence items, _, h => by rw [settle?, settleItems?_of_legible items h.2]; rfl
  | .mapping entries, _, h => by rw [settle?, settleEntries?_of_legible entries h.2]; rfl
  | .tagged _ _, _, h => h.elim

theorem Document.settleItems?_of_legible : (ds : List Document) → ∀ {depth : Nat},
    LegibleItems depth ds → settleItems? ds = some ds
  | [], _, _ => rfl
  | d :: ds, _, ⟨hd, hds⟩ => by
    rw [settleItems?, settle?_of_legible d hd, settleItems?_of_legible ds hds]
    rfl

theorem Document.settleEntries?_of_legible : (es : List (Document × Document)) → ∀ {depth : Nat},
    LegibleEntries depth es → settleEntries? es = some es
  | [], _, _ => rfl
  | (k, v) :: es, _, h => by
    obtain ⟨⟨⟨s, rfl⟩, hv⟩, hes⟩ := h
    rw [settleEntries?, settleEntry?, settle?_of_legible v hv, settleEntries?_of_legible es hes]
    rfl

end

/-- A document within the limits of JSON is read as it was written. -/
theorem Document.Legible.restored {d : Document} (h : d.Legible 128) :
    d.Restored Json.read? Json.pretty := by
  rw [Restored, Json.read?_pretty h, Option.bind_some, settle?_of_legible d h]

theorem Document.Restores.read_text {α : Type} {read : Document → Option α} {written : Document}
    {a : α} (h : Restores read written a) {read? : String → Option Document}
    {write : Document → String} (htext : written.Restored read? write) :
    (read? (write written)).bind read = some a := by
  obtain ⟨d, hread, hsettled⟩ := Option.bind_eq_some_iff.mp htext
  rw [hread, Option.bind_some]
  exact h d hsettled

theorem Manifest.restored_json {m : Manifest} (h : ∀ s ∈ m.scalars, s.Legible) :
    m.encode.Restored Json.read? Json.pretty :=
  (Manifest.legible (by decide) h).restored

theorem Run.restored_json {r : Run} (h : r.Legible) : r.encode.Restored Json.read? Json.pretty :=
  (Run.legible h).restored

theorem Experiment.restored_json (e : Experiment) : e.encode.Restored Json.read? Json.pretty :=
  e.legible.restored

end Workflow
