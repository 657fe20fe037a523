import Mathlib.Data.List.Forall2
import Workflow.Pipeline.File
import Workflow.Proofs.Pipeline.Fresh

/-!
# Pipeline files in document order

Read from top to bottom a file is a sequence of items: the condition of a block, where the block
opens, and the tasks, each under the conditions of the blocks around it. A builder comes out of a
file exactly if names are used once, components are declared, and every item refers only to tasks
above it. The nodes of the builder are then the tasks of the file from top to bottom.
-/
namespace Workflow

/-! ## The outline of a file -/

/-- A task of a file under the conditions of the blocks around it, the outermost first. -/
structure PlacedTask where
  spec : TaskSpec
  enclosing : List ConditionClause

/-- What stands in a file. -/
inductive FileItem where
  | condition (clause : ConditionClause)
  | task (placed : PlacedTask)

namespace FileItem

def task? : FileItem → Option PlacedTask
  | condition _ => none
  | task placed => some placed

def name? (item : FileItem) : Option String := item.task?.map (·.spec.name)

/-- The tasks that are named by the bindings of a task or by the gate of a condition. -/
def references : FileItem → List String
  | condition clause => clause.gate.producer?.toList
  | task placed => placed.spec.inputs.values.filterMap Binding.producer?

def tasks (items : List FileItem) : List PlacedTask := items.filterMap task?

def names (items : List FileItem) : List String := items.filterMap name?

end FileItem

namespace TaskEntry

mutual

/-- The items of an entry, which stands in blocks with some conditions. -/
def outline (enclosing : List ConditionClause) : TaskEntry → List FileItem
  | .task spec => [.task ⟨spec, enclosing⟩]
  | .block condition entries =>
    .condition condition :: outlineList (enclosing ++ [condition]) entries

def outlineList (enclosing : List ConditionClause) : List TaskEntry → List FileItem
  | [] => []
  | e :: es => outline enclosing e ++ outlineList enclosing es

end

end TaskEntry

namespace PipelineFile

/-- The items of a file in document order. -/
def outline (f : PipelineFile) : List FileItem := TaskEntry.outlineList [] f.tasks

/-- The tasks of a file in document order. -/
def placedTasks (f : PipelineFile) : List PlacedTask := FileItem.tasks f.outline

/-- Names are used once, components are declared, and items refer to tasks above them. -/
structure Orderly (f : PipelineFile) : Prop where
  components_nodup : (f.components.map (·.name)).Nodup
  declared : ∀ t ∈ f.placedTasks, ∃ c ∈ f.components, c.name = t.spec.component
  tasks_nodup : (f.placedTasks.map (·.spec.name)).Nodup
  earlier : ∀ before item after, f.outline = before ++ item :: after →
    ∀ task ∈ item.references, task ∈ FileItem.names before

end PipelineFile

/-- The node that a task of a file becomes, with a definition among the components. -/
structure PlacedTask.Becomes (components : List TaskDefinition) (t : PlacedTask) (n : TaskNode) :
    Prop where
  id_eq : n.id = t.spec.name
  name_eq : n.name = t.spec.name
  definition_mem : n.definition ∈ components
  component_eq : n.definition.name = t.spec.component
  bindings_eq : n.bindings = t.spec.inputs
  outputs_eq : n.outputs = n.definition.outputs.map fun o => .output n.id o.name
  resources_eq : n.resources = n.definition.resources.mergedWith t.spec.resources
  condition_eq : n.condition.clauses = t.enclosing

/-! ## Items after one another -/

section Items
variable {components : List TaskDefinition} {known : List String} {item : FileItem}
  {items : List FileItem}

/-- An item can stand below tasks with some names. -/
structure FileItem.Fits (components : List TaskDefinition) (known : List String)
    (item : FileItem) : Prop where
  declared : ∀ t ∈ item.task?, ∃ c ∈ components, c.name = t.spec.component
  fresh : ∀ t ∈ item.task?, t.spec.name ∉ known
  known : ∀ task ∈ item.references, task ∈ known

namespace FileItem

theorem names_cons : names (item :: items) = item.name?.toList ++ names items := by
  cases item <;> rfl

theorem names_append (front back : List FileItem) :
    names (front ++ back) = names front ++ names back :=
  List.filterMap_append

theorem map_tasks (items : List FileItem) : (tasks items).map (·.spec.name) = names items :=
  List.map_filterMap

theorem fits_condition_iff {clause : ConditionClause} :
    (condition clause).Fits components known ↔
      ∀ name ∈ (condition clause).references, name ∈ known :=
  ⟨fun h => h.known, fun h => ⟨nofun, nofun, h⟩⟩

theorem fits_task_iff {placed : PlacedTask} :
    (task placed).Fits components known ↔
      (∃ c ∈ components, c.name = placed.spec.component) ∧ placed.spec.name ∉ known ∧
      ∀ name ∈ (task placed).references, name ∈ known :=
  ⟨fun h => ⟨h.declared placed rfl, h.fresh placed rfl, h.known⟩,
    fun ⟨hdeclared, hfresh, hknown⟩ => ⟨by simpa [task?], by simpa [task?], hknown⟩⟩

/-- Each item can stand below tasks with some names and those of the items above it. -/
def FitInOrder (components : List TaskDefinition) : List String → List FileItem → Prop
  | _, [] => True
  | known, item :: rest =>
    item.Fits components known ∧ FitInOrder components (item.name?.toList ++ known) rest

theorem fitInOrder_append {front back : List FileItem} :
    FitInOrder components known (front ++ back) ↔ FitInOrder components known front ∧
      FitInOrder components ((names front).reverse ++ known) back := by
  induction front generalizing known with
  | nil => simp [FitInOrder, names]
  | cons item front ih =>
    have hname : item.name?.toList.reverse = item.name?.toList := by cases item <;> rfl
    simp only [List.cons_append, FitInOrder, ih, names_cons, List.reverse_append,
      List.append_assoc, and_assoc, hname]

/-- Every place in a list is the first one or a place in the rest. -/
theorem forall_place_cons {α : Type} {P : List α → α → Prop} {x : α} {xs : List α} :
    (∀ before y after, x :: xs = before ++ y :: after → P before y) ↔
      P [] x ∧ ∀ before y after, xs = before ++ y :: after → P (x :: before) y := by
  constructor
  · intro h
    exact ⟨h [] x xs rfl, fun before y after he => h (x :: before) y after (by simp [he])⟩
  · rintro ⟨hfirst, hrest⟩ before y after he
    rcases List.cons_eq_append_iff.mp he with ⟨rfl, hall⟩ | ⟨front, rfl, hxs⟩
    · exact (List.cons.inj hall).1 ▸ hfirst
    · exact hrest front y after hxs

/-- What is asked of the items one by one can be asked of all of them together. -/
theorem fitInOrder_iff : FitInOrder components known items ↔
    (∀ t ∈ tasks items, ∃ c ∈ components, c.name = t.spec.component) ∧
    ((names items).Nodup ∧ (names items).Disjoint known) ∧
    ∀ before item after, items = before ++ item :: after →
      ∀ task ∈ item.references, task ∈ names before ∨ task ∈ known := by
  -- by induction on the items, for all names that are known above them
  induction items generalizing known with
  | nil => simp [FitInOrder, tasks, names]
  | cons item rest ih =>
    rw [FitInOrder, ih, forall_place_cons]
    cases item with
    | condition clause =>
      have htasks : tasks (condition clause :: rest) = tasks rest := rfl
      have hnames (xs : List FileItem) : names (condition clause :: xs) = names xs := rfl
      have hknown : (condition clause).name?.toList ++ known = known := rfl
      have hnone : names [] = [] := rfl
      simp only [htasks, hnames, hknown, hnone, fits_condition_iff, List.not_mem_nil, false_or]
      tauto
    | task placed =>
      have htasks : tasks (task placed :: rest) = placed :: tasks rest := rfl
      have hnames (xs : List FileItem) :
          names (task placed :: xs) = placed.spec.name :: names xs := rfl
      have hknown : (task placed).name?.toList ++ known = placed.spec.name :: known := rfl
      have hnone : names [] = [] := rfl
      simp only [htasks, hnames, hknown, hnone, fits_task_iff, forall_eq_or_imp,
        List.nodup_cons, List.disjoint_cons_left, List.disjoint_cons_right, List.mem_cons,
        List.not_mem_nil, false_or, or_assoc, or_left_comm (a := _ = placed.spec.name)]
      tauto

end FileItem

end Items

/-! ## From entries to nodes -/

theorem PlacedTask.Becomes.map_id {components : List TaskDefinition} {tasks : List PlacedTask}
    {nodes : List TaskNode} (h : List.Forall₂ (PlacedTask.Becomes components) tasks nodes) :
    nodes.map (·.id) = tasks.map (·.spec.name) := by
  induction h with
  | nil => rfl
  | cons hn _ ih => rw [List.map_cons, List.map_cons, hn.id_eq, ih]

namespace FileBuild
variable {components : List TaskDefinition} {b r : FileBuild} {items items' : List FileItem}

/-- The names that are kept are those of the nodes, the last one first. -/
def Tracks (b : FileBuild) : Prop := b.defined = (b.builder.nodes.map (·.id)).reverse

/-- From one build to another, the tasks among some items have become nodes. -/
structure Extends (components : List TaskDefinition) (items : List FileItem) (b r : FileBuild) :
    Prop where
  scopes_eq : r.builder.scopes = b.builder.scopes
  defined_eq : r.defined = (FileItem.names items).reverse ++ b.defined
  nodes_eq : ∃ added, r.builder.nodes = b.builder.nodes ++ added ∧
    List.Forall₂ (PlacedTask.Becomes components) (FileItem.tasks items) added
  reached : b.builder.Reached (· ∈ components) → r.builder.Reached (· ∈ components)

/-- A build comes out exactly if the items can follow, and then it has their tasks. -/
def Elaborates (components : List TaskDefinition) (items : List FileItem) (b : FileBuild) :
    Outcome FileBuild → Prop
  | .ok r => FileItem.FitInOrder components b.defined items ∧ b.Extends components items r
  | .error _ => ¬ FileItem.FitInOrder components b.defined items

theorem Extends.tracks (h : b.Extends components items r) (hb : b.Tracks) : r.Tracks := by
  obtain ⟨added, hnodes, hadded⟩ := h.nodes_eq
  rw [Tracks, h.defined_eq, hnodes, List.map_append, List.reverse_append, ← hb,
    PlacedTask.Becomes.map_id hadded, FileItem.map_tasks]

theorem Extends.refl (b : FileBuild) : b.Extends components [] b :=
  ⟨rfl, rfl, ⟨[], (List.append_nil _).symm, .nil⟩, id⟩

theorem Extends.trans {s : FileBuild} (h : b.Extends components items r)
    (h' : r.Extends components items' s) : b.Extends components (items ++ items') s := by
  obtain ⟨added, hnodes, hadded⟩ := h.nodes_eq
  obtain ⟨added', hnodes', hadded'⟩ := h'.nodes_eq
  constructor
  case scopes_eq => rw [h'.scopes_eq, h.scopes_eq]
  case defined_eq =>
    rw [h'.defined_eq, h.defined_eq, FileItem.names_append, List.reverse_append, List.append_assoc]
  case nodes_eq =>
    refine ⟨added ++ added', by rw [hnodes', hnodes, List.append_assoc], ?_⟩
    rw [FileItem.tasks, List.filterMap_append]
    exact List.rel_append hadded hadded'
  case reached => exact h'.reached ∘ h.reached

/-- The scope of a block is closed behind its entries. -/
theorem Extends.block {condition : ConditionClause}
    (h : Extends components items ⟨b.builder.openScope condition, b.defined⟩ r) :
    b.Extends components (.condition condition :: items)
      ⟨r.builder.closeScopes b.builder.scopes.length, r.defined⟩ where
  scopes_eq := by
    simp only [Builder.closeScopes, h.scopes_eq, Builder.openScope, List.take_left]
  defined_eq := h.defined_eq
  nodes_eq := h.nodes_eq
  reached hb := .closeScopes (h.reached (.openScope hb condition)) _

/-- A name that no node has is the id of its own node. -/
theorem Extends.define (hb : b.Tracks) {spec : TaskSpec} {component : TaskDefinition}
    (hmem : component ∈ components) (hname : component.name = spec.component)
    (hfresh : spec.name ∉ b.defined) :
    b.Extends components [.task ⟨spec, b.builder.scopes⟩]
      ⟨(b.builder.define spec.name component spec.inputs.entries spec.resources).1,
        (b.builder.define spec.name component spec.inputs.entries spec.resources).2 ::
          b.defined⟩ := by
  have hid : b.builder.nextId spec.name = spec.name := by
    rw [hb, List.mem_reverse, ← Builder.takes_iff] at hfresh
    rw [Builder.nextId, if_neg hfresh]
  constructor
  case scopes_eq => rfl
  case defined_eq => exact congrArg (· :: b.defined) hid
  case nodes_eq =>
    refine ⟨_, rfl, .cons ?_ .nil⟩
    exact ⟨hid, rfl, hmem, hname, Dict.ofList_entries spec.inputs, rfl, rfl, rfl⟩
  case reached => exact fun h => .define h spec.name hmem _ _

theorem Elaborates.bind {o : Outcome FileBuild} {next : FileBuild → Outcome FileBuild}
    (h : b.Elaborates components items o)
    (hnext : ∀ r, b.Extends components items r → r.Elaborates components items' (next r)) :
    b.Elaborates components (items ++ items') (o >>= next) := by
  cases o with
  | error f => exact fun hfit => h (FileItem.fitInOrder_append.mp hfit).1
  | ok r =>
    obtain ⟨hfit, hextends⟩ := h
    have hr := hnext r hextends
    change b.Elaborates components (items ++ items') (next r)
    cases hs : next r with
    | error f =>
      rw [hs, Elaborates, hextends.defined_eq] at hr
      exact fun hfit => hr (FileItem.fitInOrder_append.mp hfit).2
    | ok s =>
      rw [hs, Elaborates, hextends.defined_eq] at hr
      exact ⟨FileItem.fitInOrder_append.mpr ⟨hfit, hr.1⟩, hextends.trans hr.2⟩

theorem forM_requireDefined_eq_ok_iff {node : String} {names : List String} :
    names.forM (b.requireDefined node) = .ok () ↔ ∀ name ∈ names, name ∈ b.defined := by
  induction names with
  | nil => exact iff_of_true rfl nofun
  | cons name rest ih =>
    rw [List.forall_mem_cons, ← ih]
    change (b.requireDefined node name >>= fun _ => rest.forM (b.requireDefined node)) = _ ↔ _
    by_cases hname : name ∈ b.defined
    · have hok : b.requireDefined node name = .ok () := by simp [requireDefined, hname]
      simp only [hok, hname, true_and]
      rfl
    · have herror : b.requireDefined node name = .error (.unknownTask node name) := by
        simp [requireDefined, hname]
      simp only [herror, hname, false_and, iff_false]
      exact nofun

theorem not_fits_of_references {item : FileItem} {node : String} {f : Fault}
    (h : item.references.forM (b.requireDefined node) = .error f) :
    ¬ item.Fits components b.defined := by
  intro hfits
  rw [forM_requireDefined_eq_ok_iff.mpr hfits.known] at h
  cases h

/-- A task becomes a node exactly if it fits below the tasks before it. -/
theorem define_elaborates (hb : b.Tracks) (spec : TaskSpec) :
    b.Elaborates components [.task ⟨spec, b.builder.scopes⟩] (b.define components spec) := by
  unfold FileBuild.define
  cases hfind : components.find? fun c => c.name = spec.component with
  | none =>
    rintro ⟨hfits, -⟩
    obtain ⟨c, hc, hname⟩ := hfits.declared _ rfl
    exact List.find?_eq_none.mp hfind c hc (by simpa using hname)
  | some component =>
    simp only
    split_ifs with htaken
    · exact fun hfit => hfit.1.fresh _ rfl (by simpa using htaken)
    · cases hreferences :
        (spec.inputs.values.filterMap Binding.producer?).forM (b.requireDefined spec.name) with
      | error f => exact fun hfit => absurd hfit.1 (not_fits_of_references hreferences)
      | ok _ =>
        have hknown := forM_requireDefined_eq_ok_iff.mp hreferences
        have hname : component.name = spec.component := by simpa using List.find?_some hfind
        have hfresh : spec.name ∉ b.defined := by simpa using htaken
        have hmem := List.mem_of_find?_eq_some hfind
        exact ⟨⟨FileItem.fits_task_iff.mpr ⟨⟨component, hmem, hname⟩, hfresh, hknown⟩, trivial⟩,
          .define hb hmem hname hfresh⟩

/-- The entries of a block follow its condition, in a scope of their own. -/
theorem block_elaborates {condition : ConditionClause} {o : Outcome FileBuild}
    (ho : Elaborates components items ⟨b.builder.openScope condition, b.defined⟩ o) :
    b.Elaborates components (.condition condition :: items) (do
      condition.gate.producer?.forM (b.requireDefined Diagnosis.conditionPlace)
      let inner ← o
      return ⟨inner.builder.closeScopes b.builder.scopes.length, inner.defined⟩) := by
  have hgate : condition.gate.producer?.forM (b.requireDefined Diagnosis.conditionPlace) =
      (FileItem.condition condition).references.forM
        (b.requireDefined Diagnosis.conditionPlace) := by
    cases hproducer : condition.gate.producer? with
    | none => simp [FileItem.references, hproducer]
    | some task => simp [FileItem.references, hproducer, Option.forM]
  rw [hgate]
  cases hreferences : (FileItem.condition condition).references.forM
      (b.requireDefined Diagnosis.conditionPlace) with
  | error f => exact fun hfit => absurd hfit.1 (not_fits_of_references hreferences)
  | ok _ =>
    have hfits : (FileItem.condition condition).Fits components b.defined :=
      FileItem.fits_condition_iff.mpr (forM_requireDefined_eq_ok_iff.mp hreferences)
    cases o with
    | error f => exact fun hfit => ho hfit.2
    | ok r => exact ⟨⟨hfits, ho.1⟩, ho.2.block⟩

mutual

theorem addEntry_elaborates (e : TaskEntry) (b : FileBuild) (hb : b.Tracks) :
    b.Elaborates components (e.outline b.builder.scopes) (addEntry components b e) := by
  cases e with
  | task spec => exact define_elaborates hb spec
  | block condition entries =>
    exact block_elaborates
      (addEntries_elaborates entries ⟨b.builder.openScope condition, b.defined⟩ hb)

theorem addEntries_elaborates (entries : List TaskEntry) (b : FileBuild) (hb : b.Tracks) :
    b.Elaborates components (TaskEntry.outlineList b.builder.scopes entries)
      (addEntries components b entries) := by
  cases entries with
  | nil => exact ⟨trivial, .refl b⟩
  | cons e es =>
    -- an entry leaves the scopes as they were, so that the next one stands in the same blocks
    refine (addEntry_elaborates e b hb).bind fun r hr => ?_
    rw [← hr.scopes_eq]
    exact addEntries_elaborates es r (hr.tracks hb)

end

end FileBuild

/-! ## From a file to a builder -/

theorem repeatedComponent?_eq_none_iff {components : List TaskDefinition} {earlier : List String} :
    repeatedComponent? earlier components = none ↔
      (components.map (·.name)).Nodup ∧ ∀ c ∈ components, c.name ∉ earlier := by
  induction components generalizing earlier with
  | nil => simp [repeatedComponent?]
  | cons c rest ih =>
    have hfresh : (∀ d ∈ rest, d.name ∉ c.name :: earlier) ↔
        c.name ∉ rest.map (·.name) ∧ ∀ d ∈ rest, d.name ∉ earlier := by
      simp [not_or, forall_and]
    rw [repeatedComponent?, List.map_cons, List.nodup_cons, List.forall_mem_cons]
    split_ifs with hc
    · exact iff_of_false nofun fun h => h.2.1 (List.contains_iff_mem.mp hc)
    · have hnew : c.name ∉ earlier := fun h => hc (List.contains_iff_mem.mpr h)
      rw [ih, hfresh]
      tauto

namespace Builder
variable {ok : TaskDefinition → Prop} {b : Builder}

/-- Parameters alone add no nodes and open no scopes. -/
theorem foldl_declare (parameters : List ParameterSpec) (hnodes : b.nodes = [])
    (hscopes : b.scopes = []) (h : b.Reached ok) :
    (parameters.foldl declare b).nodes = [] ∧ (parameters.foldl declare b).scopes = [] ∧
      (parameters.foldl declare b).Reached ok := by
  induction parameters generalizing b with
  | nil => exact ⟨hnodes, hscopes, h⟩
  | cons spec rest ih =>
    have hsame : (b.declare spec).nodes = b.nodes ∧ (b.declare spec).scopes = b.scopes := by
      unfold declare
      cases b.registry.registerExternal? spec.name spec.dataType <;> exact ⟨rfl, rfl⟩
    exact ih (hsame.1.trans hnodes) (hsame.2.trans hscopes) (.declare h spec)

end Builder

namespace PipelineFile
variable {f : PipelineFile} {b : Builder}

/-- A build of a file, before its tasks. -/
def start (f : PipelineFile) : FileBuild :=
  ⟨f.parameters.foldl Builder.declare (.ofName f.name f.description), []⟩

theorem start_blank (f : PipelineFile) : f.start.builder.nodes = [] ∧
    f.start.builder.scopes = [] ∧ f.start.builder.Reached (· ∈ f.components) :=
  Builder.foldl_declare f.parameters rfl rfl (.ofName f.name f.description)

theorem orderly_iff : f.Orderly ↔ repeatedComponent? [] f.components = none ∧
    FileItem.FitInOrder f.components f.start.defined f.outline := by
  rw [repeatedComponent?_eq_none_iff, FileItem.fitInOrder_iff, ← FileItem.map_tasks]
  constructor
  · intro h
    exact ⟨⟨h.components_nodup, fun _ _ => List.not_mem_nil⟩, h.declared,
      ⟨h.tasks_nodup, List.disjoint_nil_right _⟩,
      fun before item after he name hname => .inl (h.earlier before item after he name hname)⟩
  · rintro ⟨⟨hcomponents, -⟩, hdeclared, ⟨htasks, -⟩, hearlier⟩
    refine ⟨hcomponents, hdeclared, htasks, fun before item after he name hname => ?_⟩
    exact (hearlier before item after he name hname).resolve_right List.not_mem_nil

/-- A builder comes out of an orderly file only, with the tasks of the file. -/
theorem toBuilder_cases (f : PipelineFile) :
    (f.Orderly ∧ ∃ r, f.toBuilder = .ok r.builder ∧ f.start.Extends f.components f.outline r) ∨
      ¬ f.Orderly ∧ ∃ fault, f.toBuilder = .error fault := by
  obtain ⟨hnodes, hscopes, -⟩ := f.start_blank
  have htracks : f.start.Tracks := by
    rw [FileBuild.Tracks, hnodes]
    rfl
  have hentries : f.start.Elaborates f.components
      (TaskEntry.outlineList f.start.builder.scopes f.tasks)
      (FileBuild.addEntries f.components f.start f.tasks) :=
    FileBuild.addEntries_elaborates f.tasks f.start htracks
  rw [hscopes] at hentries
  rw [orderly_iff]
  cases hrepeated : repeatedComponent? [] f.components with
  | some name =>
    rw [toBuilder, hrepeated]
    exact .inr ⟨fun h => absurd h.1 nofun, _, rfl⟩
  | none =>
    have hbuilder : f.toBuilder = (do
        return (← FileBuild.addEntries f.components f.start f.tasks).builder) := by
      rw [toBuilder, hrepeated]
      rfl
    rw [hbuilder]
    cases hr : FileBuild.addEntries f.components f.start f.tasks with
    | error fault =>
      rw [hr] at hentries
      exact .inr ⟨fun h => hentries h.2, fault, rfl⟩
    | ok r =>
      rw [hr] at hentries
      exact .inl ⟨⟨rfl, hentries.1⟩, r, rfl, hentries.2⟩

/-- What is known of a builder that has come out of a file. -/
theorem extends_of_toBuilder (h : f.toBuilder = .ok b) :
    f.Orderly ∧ ∃ defined, f.start.Extends f.components f.outline ⟨b, defined⟩ := by
  rcases f.toBuilder_cases with ⟨horderly, r, hr, hextends⟩ | ⟨-, fault, hfault⟩
  · cases hr.symm.trans h
    exact ⟨horderly, r.defined, hextends⟩
  · cases hfault.symm.trans h

theorem becomes_of_toBuilder (h : f.toBuilder = .ok b) :
    List.Forall₂ (PlacedTask.Becomes f.components) f.placedTasks b.nodes := by
  obtain ⟨-, defined, hextends⟩ := extends_of_toBuilder h
  obtain ⟨added, hadded, hbecomes⟩ := hextends.nodes_eq
  rw [f.start_blank.1, List.nil_append] at hadded
  exact hadded ▸ hbecomes

end PipelineFile
end Workflow
