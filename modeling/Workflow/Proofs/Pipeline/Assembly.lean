import Mathlib.Data.List.Induction
import Workflow.Proofs.Pipeline.Fresh

/-!
# Nodes and the calls that define them

A pipeline is assembled call by call: parameters are declared, tasks are defined in one of three
ways, outputs are connected, and scopes are opened and closed again. In whatever order this is done,
every node is what the call that defined it says. Its id is the first one that was free then, its
condition has the clauses of the scopes that were open, and later calls change nothing of it but the
bindings of inputs to which they connect an output.
-/
namespace Workflow

/-! ## Calls -/

/-- A step in putting a task together. -/
inductive DraftStep where
  | bind (input : String) (binding : Binding)
  | value (input : String) (v : Scalar)
  | resources (profile : ResourceProfile)

namespace DraftStep

def binding? : DraftStep → Option (String × Binding)
  | bind input binding => some (input, binding)
  | value input v => some (input, .literal v)
  | resources _ => none

def profile? : DraftStep → Option ResourceProfile
  | resources profile => some profile
  | _ => none

end DraftStep

def TaskDraft.step (d : TaskDraft) : DraftStep → TaskDraft
  | .bind input binding => d.bind input binding
  | .value input v => d.value input v
  | .resources profile => d.withResources profile

/-- What is called while a pipeline is assembled. A scope can be left only when those inside it have
been left, so that `leave` speaks of the innermost one. -/
inductive BuildCall where
  | param (spec : ParameterSpec)
  | task (name : String) (definition : TaskDefinition) (bindings : List (String × Binding))
  | taskWith (name : String) (definition : TaskDefinition) (bindings : List (String × Binding))
      (resources : ResourceProfile)
  | draft (name : String) (definition : TaskDefinition) (steps : List DraftStep)
  | connect (task output consumer input : String)
  | enter (gate : GateRef) (expected : Scalar)
  | leave

namespace BuildCall

/-- The task that is defined, with its bindings in the order in which they are given and the
resources that are given last. -/
def task? : BuildCall → Option TaskDraft
  | task name definition bindings => some ⟨name, definition, bindings, .empty⟩
  | taskWith name definition bindings resources => some ⟨name, definition, bindings, resources⟩
  | draft name definition steps =>
    some ⟨name, definition, steps.filterMap DraftStep.binding?,
      (steps.filterMap DraftStep.profile?).getLast?.getD .empty⟩
  | _ => none

/-- The clauses of the scopes that are open after a call, the outermost first. -/
def scopesAfter (clauses : List ConditionClause) : BuildCall → List ConditionClause
  | enter gate expected => clauses ++ [⟨gate, expected⟩]
  | leave => clauses.dropLast
  | _ => clauses

/-- The input of a node to which an output is connected, and the output. -/
def connection? (id : String) : BuildCall → Option (String × Binding)
  | connect source result consumer input =>
    if id = consumer then some (input, .output source result) else none
  | _ => none

/-- What a call makes of a node that is there. -/
def rebind (c : BuildCall) (n : TaskNode) : TaskNode :=
  { n with bindings := (c.connection? n.id).elim n.bindings fun e => n.bindings.insert e.1 e.2 }

/-- Scopes are neither opened nor closed. -/
def KeepsScopes : BuildCall → Prop
  | enter _ _ | leave => False
  | _ => True

end BuildCall

/-- Calls that close all scopes that they open, and no others. -/
inductive Balanced : List BuildCall → Prop
  | nil : Balanced []
  | call (c : BuildCall) (hc : c.KeepsScopes) : Balanced [c]
  | append {calls calls' : List BuildCall} (h : Balanced calls) (h' : Balanced calls') :
      Balanced (calls ++ calls')
  | scope {calls : List BuildCall} (gate : GateRef) (expected : Scalar) (h : Balanced calls) :
      Balanced (.enter gate expected :: calls ++ [.leave])

/-- The clauses of the scopes that are open after some calls, the outermost first. -/
def openClauses (calls : List BuildCall) : List ConditionClause :=
  calls.foldl BuildCall.scopesAfter []

/-- The inputs of a node to which some calls connect outputs, in the order of the calls. -/
def connections (id : String) (calls : List BuildCall) : List (String × Binding) :=
  calls.filterMap (BuildCall.connection? id)

/-- The node that is added for a task. -/
def Builder.newNode (b : Builder) (d : TaskDraft) : TaskNode where
  id := b.nextId d.name
  name := d.name
  definition := d.definition
  bindings := Dict.ofList d.bindings
  outputs := d.definition.outputs.map fun o => .output (b.nextId d.name) o.name
  resources := d.definition.resources.mergedWith d.resources
  condition := ⟨b.scopes⟩

/-- A builder with the guards of the scopes that are open, that of the innermost one first. -/
structure Assembly where
  builder : Builder
  guards : List ScopeGuard

namespace Assembly

def call (s : Assembly) : BuildCall → Assembly
  | .param spec => { s with builder := s.builder.declare spec }
  | .task name definition bindings =>
    { s with builder := (s.builder.defineTask name definition bindings).1 }
  | .taskWith name definition bindings resources =>
    { s with builder := (s.builder.define name definition bindings resources).1 }
  | .draft name definition steps =>
    let d := steps.foldl TaskDraft.step (.ofDefinition name definition)
    { s with builder := (d.add s.builder).1 }
  | .connect task output consumer input =>
    { s with builder := s.builder.connect task output consumer input }
  | .enter gate expected =>
    let (b, guard) := s.builder.beginCondition gate expected
    ⟨b, guard :: s.guards⟩
  | .leave =>
    match s.guards with
    | [] => s
    | guard :: outer => ⟨guard.close s.builder, outer⟩

def start (name : String) (description : Option String) : Assembly :=
  ⟨.ofName name description, []⟩

def run (name : String) (description : Option String) (calls : List BuildCall) : Assembly :=
  calls.foldl call (start name description)

end Assembly

def assembled (name : String) (description : Option String) (calls : List BuildCall) : Builder :=
  (Assembly.run name description calls).builder

/-! ## One call -/

theorem TaskDraft.foldl_step (steps : List DraftStep) (d : TaskDraft) :
    steps.foldl TaskDraft.step d =
      ⟨d.name, d.definition, d.bindings ++ steps.filterMap DraftStep.binding?,
        (steps.filterMap DraftStep.profile?).getLast?.getD d.resources⟩ := by
  induction steps generalizing d with
  | nil => simp
  | cons step rest ih =>
    rw [List.foldl_cons, ih]
    cases step with
    | bind input binding => simp [TaskDraft.step, bind, DraftStep.binding?, DraftStep.profile?]
    | value input v => simp [TaskDraft.step, value, bind, DraftStep.binding?, DraftStep.profile?]
    | resources profile =>
      have hbinding : (DraftStep.resources profile).binding? = none := rfl
      have hprofile : (DraftStep.resources profile).profile? = some profile := rfl
      rw [List.filterMap_cons_none hbinding, List.filterMap_cons_some hprofile, List.getLast?_cons]
      rfl

theorem Builder.nodes_declare (b : Builder) (spec : ParameterSpec) :
    (b.declare spec).nodes = b.nodes := by
  unfold declare
  cases b.registry.registerExternal? spec.name spec.dataType <;> rfl

theorem Builder.scopes_declare (b : Builder) (spec : ParameterSpec) :
    (b.declare spec).scopes = b.scopes := by
  unfold declare
  cases b.registry.registerExternal? spec.name spec.dataType <;> rfl

theorem Builder.scopes_connect (b : Builder) (task output consumer input : String) :
    (b.connect task output consumer input).scopes = b.scopes := by
  obtain ⟨bindings, he⟩ := b.exists_connect_eq task output consumer input
  rw [he]

theorem BuildCall.rebind_eq_self {c : BuildCall} {n : TaskNode} (h : c.connection? n.id = none) :
    c.rebind n = n := by
  rw [rebind, h]
  rfl

theorem BuildCall.map_rebind_eq_self {c : BuildCall} {nodes : List TaskNode}
    (h : ∀ n ∈ nodes, c.connection? n.id = none) : nodes.map c.rebind = nodes := by
  rw [List.map_congr_left fun n hn => rebind_eq_self (h n hn), List.map_id']

theorem Builder.nodes_connect (b : Builder) (task output consumer input : String) :
    (b.connect task output consumer input).nodes =
      b.nodes.map (BuildCall.connect task output consumer input).rebind := by
  unfold connect
  split_ifs with htakes
  · refine List.map_congr_left fun n _ => ?_
    simp only [BuildCall.rebind, BuildCall.connection?]
    split_ifs <;> rfl
  · have hother : ∀ n ∈ b.nodes,
        (BuildCall.connect task output consumer input).connection? n.id = none := by
      refine fun n hn => if_neg ?_
      rintro rfl
      exact htakes (takes_iff.mpr (List.mem_map.mpr ⟨n, hn, rfl⟩))
    rw [BuildCall.map_rebind_eq_self hother]

namespace Assembly
variable {s : Assembly} {c : BuildCall}

/-- The three ways to define a task come to the same. -/
theorem builder_call_of_task {d : TaskDraft} (h : c.task? = some d) :
    (s.call c).builder = (s.builder.define d.name d.definition d.bindings d.resources).1 := by
  cases c with
  | task name definition bindings =>
    cases h
    rfl
  | taskWith name definition bindings resources =>
    cases h
    rfl
  | draft name definition steps =>
    cases h
    simp only [call, TaskDraft.foldl_step, TaskDraft.add, TaskDraft.ofDefinition, List.nil_append]
  | param spec => cases h
  | connect task output consumer input => cases h
  | enter gate expected => cases h
  | leave => cases h

theorem connection?_of_task {d : TaskDraft} (h : c.task? = some d) (id : String) :
    c.connection? id = none := by
  cases c with
  | connect task output consumer input => cases h
  | _ => rfl

/-- A call adds the node of the task that it defines, and changes bindings of the others. -/
theorem nodes_call (s : Assembly) (c : BuildCall) :
    (s.call c).builder.nodes =
      s.builder.nodes.map c.rebind ++ (c.task?.map s.builder.newNode).toList := by
  cases h : c.task? with
  | some d =>
    rw [builder_call_of_task h, BuildCall.map_rebind_eq_self fun n _ => connection?_of_task h n.id]
    rfl
  | none =>
    -- no node is added, and only a connection changes one
    rw [Option.map_none, Option.toList_none, List.append_nil]
    cases c with
    | task name definition bindings => cases h
    | taskWith name definition bindings resources => cases h
    | draft name definition steps => cases h
    | param spec =>
      rw [BuildCall.map_rebind_eq_self fun _ _ => rfl]
      exact s.builder.nodes_declare spec
    | connect task output consumer input =>
      exact s.builder.nodes_connect task output consumer input
    | enter gate expected =>
      rw [BuildCall.map_rebind_eq_self fun _ _ => rfl]
      rfl
    | leave =>
      rw [BuildCall.map_rebind_eq_self fun _ _ => rfl, call]
      cases s.guards <;> rfl

/-- A guard for every open scope, which knows how many scopes are around its own. -/
def Guarded (s : Assembly) : Prop :=
  s.guards.map (·.depth) = (List.range s.builder.scopes.length).reverse

theorem Guarded.of_eq {s' : Assembly} (h : s.Guarded) (hguards : s'.guards = s.guards)
    (hscopes : s'.builder.scopes = s.builder.scopes) : s'.Guarded := by
  rwa [Guarded, hguards, hscopes]

/-- A call opens and closes scopes as its kind says. -/
theorem Guarded.call (h : s.Guarded) (c : BuildCall) :
    (s.call c).Guarded ∧ (s.call c).builder.scopes = c.scopesAfter s.builder.scopes := by
  cases c with
  | param spec =>
    have hscopes := s.builder.scopes_declare spec
    exact ⟨h.of_eq rfl hscopes, hscopes⟩
  | task name definition bindings => exact ⟨h, rfl⟩
  | taskWith name definition bindings resources => exact ⟨h, rfl⟩
  | draft name definition steps => exact ⟨h, rfl⟩
  | connect task output consumer input =>
    have hscopes := s.builder.scopes_connect task output consumer input
    exact ⟨h.of_eq rfl hscopes, hscopes⟩
  | enter gate expected =>
    refine ⟨?_, rfl⟩
    rw [Guarded] at h ⊢
    simp only [Assembly.call, Builder.beginCondition, Builder.openScope, List.map_cons, h,
      List.length_append, List.length_singleton, List.range_succ, List.reverse_append,
      List.reverse_singleton, List.singleton_append]
  | leave =>
    rw [Guarded] at h
    cases hguards : s.guards with
    | nil =>
      have hnone : s.builder.scopes = [] := by
        rw [hguards] at h
        simpa using h
      simp only [Assembly.call, hguards, BuildCall.scopesAfter, hnone, List.dropLast_nil, and_true]
      rw [Guarded, hguards, hnone]
      rfl
    | cons guard outer =>
      -- the innermost guard knows all scopes but its own
      obtain ⟨depth, hlength⟩ : ∃ depth, s.builder.scopes.length = depth + 1 := by
        refine Nat.exists_eq_succ_of_ne_zero fun hzero => ?_
        rw [hguards, hzero] at h
        cases h
      rw [hguards, hlength, List.range_succ, List.reverse_append, List.reverse_singleton,
        List.singleton_append, List.map_cons] at h
      obtain ⟨hguard, houter⟩ := List.cons.inj h
      simp only [Assembly.call, hguards, ScopeGuard.close, Builder.closeScopes, hguard]
      constructor
      · rw [Guarded, houter, List.length_take, hlength, Nat.min_eq_left (Nat.le_succ depth)]
      · rw [BuildCall.scopesAfter, List.dropLast_eq_take, hlength, Nat.add_sub_cancel]

theorem reached_call (h : s.builder.Reached fun _ => True) (c : BuildCall) :
    (s.call c).builder.Reached fun _ => True := by
  cases htask : c.task? with
  | some d =>
    rw [builder_call_of_task htask]
    exact .define h d.name trivial d.bindings d.resources
  | none =>
    cases c with
    | task name definition bindings => cases htask
    | taskWith name definition bindings resources => cases htask
    | draft name definition steps => cases htask
    | param spec => exact .declare h spec
    | connect task output consumer input => exact .connect h task output consumer input
    | enter gate expected => exact .openScope h ⟨gate, expected⟩
    | leave =>
      rw [call]
      cases s.guards with
      | nil => exact h
      | cons guard outer => exact .closeScopes h guard.depth

/-! ## A sequence of calls -/

section
variable {name : String} {description : Option String} {calls : List BuildCall}

theorem run_concat : run name description (calls ++ [c]) = (run name description calls).call c :=
  List.foldl_concat ..

theorem reached_run : (assembled name description calls).Reached fun _ => True := by
  induction calls using List.reverseRecOn with
  | nil => exact .ofName name description
  | append_singleton calls c ih =>
    rw [assembled, run_concat]
    exact reached_call ih c

theorem guarded_run : (run name description calls).Guarded ∧
    (assembled name description calls).scopes = openClauses calls := by
  induction calls using List.reverseRecOn with
  | nil => exact ⟨rfl, rfl⟩
  | append_singleton calls c ih =>
    obtain ⟨hguarded, hscopes⟩ := ih
    rw [assembled, run_concat, openClauses, List.foldl_concat]
    rw [assembled] at hscopes
    obtain ⟨hguarded', hscopes'⟩ := hguarded.call c
    exact ⟨hguarded', by rw [hscopes', hscopes, openClauses]⟩

end

end Assembly

/-! ## Scopes -/

theorem Balanced.foldl_scopesAfter {calls : List BuildCall} (h : Balanced calls)
    (clauses : List ConditionClause) : calls.foldl BuildCall.scopesAfter clauses = clauses := by
  induction h generalizing clauses with
  | nil => rfl
  | call c hc =>
    cases c with
    | enter gate expected => exact hc.elim
    | leave => exact hc.elim
    | _ => rfl
  | append _ _ ih ih' => rw [List.foldl_append, ih, ih']
  | scope gate expected _ ih =>
    rw [List.foldl_concat, List.foldl_cons, ih]
    exact List.dropLast_concat

/-- Calls that close what they open leave the scopes as they were. -/
theorem Balanced.scopes_assembled {calls inside : List BuildCall} (h : Balanced inside)
    (name : String) (description : Option String) :
    (assembled name description (calls ++ inside)).scopes =
      (assembled name description calls).scopes := by
  rw [Assembly.guarded_run.2, Assembly.guarded_run.2, openClauses, List.foldl_append,
    h.foldl_scopesAfter, openClauses]

/-! ## Nodes -/

/-- A node after calls that may connect outputs to its inputs. -/
def TaskNode.rebound (n : TaskNode) (calls : List BuildCall) : TaskNode :=
  { n with bindings := (connections n.id calls).foldl (fun d e => d.insert e.1 e.2) n.bindings }

theorem TaskNode.rebound_cons (n : TaskNode) (c : BuildCall) (calls : List BuildCall) :
    n.rebound (c :: calls) = (c.rebind n).rebound calls := by
  simp only [rebound, BuildCall.rebind, connections]
  cases hc : c.connection? n.id with
  | none => rw [List.filterMap_cons_none hc, Option.elim_none]
  | some e => rw [List.filterMap_cons_some hc, Option.elim_some, List.foldl_cons]

/-- Calls add the nodes of the tasks that they define, and connect outputs to the others. -/
theorem Assembly.nodes_foldl (s : Assembly) (calls : List BuildCall) :
    ∃ added, (calls.foldl call s).builder.nodes = s.builder.nodes.map (·.rebound calls) ++ added ∧
      added.length = (calls.filterMap BuildCall.task?).length := by
  induction calls generalizing s with
  | nil => exact ⟨[], by rw [List.foldl_nil, List.append_nil]; exact (List.map_id' _).symm, rfl⟩
  | cons c rest ih =>
    obtain ⟨added, hnodes, hlength⟩ := ih (s.call c)
    have hrebound : (fun n => TaskNode.rebound n rest) ∘ c.rebind = (·.rebound (c :: rest)) :=
      funext fun n => (n.rebound_cons c rest).symm
    rw [nodes_call, List.map_append, List.map_map, hrebound, List.append_assoc] at hnodes
    refine ⟨_, hnodes, ?_⟩
    cases hc : c.task? with
    | none => simpa [List.filterMap_cons_none hc] using hlength
    | some d => simp [List.filterMap_cons_some hc, hlength]

/-- A node is what the call that defined it says, but for the outputs that were connected to it
afterwards. -/
structure TaskNode.DefinedBy (n : TaskNode) (before : List BuildCall) (d : TaskDraft)
    (after : List BuildCall) : Prop where
  name_eq : n.name = d.name
  definition_eq : n.definition = d.definition
  bindings_eq : n.bindings = Dict.ofList (d.bindings ++ connections n.id after)
  outputs_eq : n.outputs = d.definition.outputs.map fun o => .output n.id o.name
  resources_eq : n.resources = d.definition.resources.mergedWith d.resources
  condition_eq : n.condition.clauses = openClauses before

/-- What a builder has after some calls: a node for every task that was defined, in the order of the
calls, with an id of its own, and all their outputs in the registry. -/
structure Builder.AssembledBy (b : Builder) (calls : List BuildCall) : Prop where
  ids_nodup : (b.nodes.map (·.id)).Nodup
  length_eq : b.nodes.length = (calls.filterMap BuildCall.task?).length
  defined : ∀ before c d after, calls = before ++ c :: after → c.task? = some d →
    ∃ earlier n later, b.nodes = earlier ++ n :: later ∧
      earlier.length = (before.filterMap BuildCall.task?).length ∧
      FirstFree (earlier.map (·.id)) d.name n.id ∧ n.DefinedBy before d after
  registered : ∀ n ∈ b.nodes, ∀ a ∈ n.outputs, (b.registry.get? a).isSome = true
  scopes_eq : b.scopes = openClauses calls

section
variable {name : String} {description : Option String} {calls : List BuildCall}

theorem length_nodes_assembled : (assembled name description calls).nodes.length =
    (calls.filterMap BuildCall.task?).length := by
  obtain ⟨added, hnodes, hlength⟩ := (Assembly.start name description).nodes_foldl calls
  rw [assembled, Assembly.run, hnodes, ← hlength]
  rfl

theorem assembled_append (name : String) (description : Option String)
    (calls later : List BuildCall) :
    ∃ added, (assembled name description (calls ++ later)).nodes =
        (assembled name description calls).nodes.map (·.rebound later) ++ added ∧
      added.length = (later.filterMap BuildCall.task?).length := by
  have hrun : Assembly.run name description (calls ++ later) =
      later.foldl Assembly.call (Assembly.run name description calls) := List.foldl_append
  rw [assembled, hrun]
  exact (Assembly.run name description calls).nodes_foldl later

theorem definedBy_assembled {c : BuildCall} {d : TaskDraft} (after : List BuildCall)
    (htask : c.task? = some d) :
    ∃ earlier n later, (assembled name description (calls ++ c :: after)).nodes =
        earlier ++ n :: later ∧
      earlier.length = (calls.filterMap BuildCall.task?).length ∧
      Builder.FirstFree (earlier.map (·.id)) d.name n.id ∧ n.DefinedBy calls d after := by
  -- what follows the call only connects outputs to the nodes that are there with it
  let b := assembled name description calls
  have hbefore : (assembled name description (calls ++ [c])).nodes =
      b.nodes.map c.rebind ++ [b.newNode d] := by
    rw [assembled, Assembly.run_concat, Assembly.nodes_call, htask]
    rfl
  obtain ⟨added, hnodes, -⟩ := assembled_append name description (calls ++ [c]) after
  rw [hbefore, List.append_assoc, List.singleton_append, List.map_append, List.map_singleton,
    List.append_assoc, List.singleton_append] at hnodes
  refine ⟨_, _, added, hnodes, ?_, ?_, ?_⟩
  · rw [List.length_map, List.length_map, length_nodes_assembled]
  · rw [List.map_map, List.map_map]
    exact b.firstFree_nextId d.name
  · exact ⟨rfl, rfl, List.foldl_append.symm, rfl, rfl, Assembly.guarded_run.2⟩

theorem assembledBy_assembled (name : String) (description : Option String)
    (calls : List BuildCall) : (assembled name description calls).AssembledBy calls where
  ids_nodup := Assembly.reached_run.formed.ids_nodup
  length_eq := length_nodes_assembled
  defined before c d after hcalls htask := hcalls ▸ definedBy_assembled after htask
  registered n hn a ha := by
    have hformed : (assembled name description calls).Formed := Assembly.reached_run.formed
    rw [hformed.outputs_eq n hn] at ha
    obtain ⟨o, ho, rfl⟩ := List.mem_map.mp ha
    exact hformed.registered n hn o ho
  scopes_eq := Assembly.guarded_run.2

end

/-- Whatever is called, every node is what its call says: with the first id that was free and under
the scopes that were open. A scope that is left gives way to the scopes around it, and later calls
add nodes of their own and connect outputs to the inputs of those that are there. -/
theorem assembled_exact (name : String) (description : Option String) (calls : List BuildCall) :
    (assembled name description calls).AssembledBy calls ∧
    (∀ gate expected inside, Balanced inside →
      (assembled name description (calls ++ (.enter gate expected :: inside ++ [.leave]))).scopes =
        (assembled name description calls).scopes) ∧
    ∀ later, ∃ added, (assembled name description (calls ++ later)).nodes =
        (assembled name description calls).nodes.map (·.rebound later) ++ added ∧
      added.length = (later.filterMap BuildCall.task?).length :=
  ⟨assembledBy_assembled name description calls,
    fun gate expected _ h => (h.scope gate expected).scopes_assembled name description,
    assembled_append name description calls⟩

/-- A task that trains a model and tells whether it is a poor one. -/
def training : TaskDefinition :=
  { TaskDefinition.ofBody "train" (.registered "train") with
    outputs := [⟨"model", .model⟩, ⟨"poor", .bool⟩] }

/-- Two trainings, the first of which has the name that a third one would be given. -/
def trainings : List BuildCall :=
  [.param ⟨"retry", .bool, none⟩, .task "train-2" training [], .task "train" training []]

/-- A training in a scope of its own, and another one that starts with its model. -/
def retrainings : List BuildCall :=
  [.enter (.param "retry") (.bool true), .taskWith "train" training [] .empty, .leave,
    .draft "train" training [.value "seed" (.text "2")],
    .connect "train-3" "model" "train-4" "from"]

/-- All trainings, the latter ones only if there is a poor model. -/
def gatedTrainings : List BuildCall :=
  trainings ++ (.enter (.output "train" "poor") (.bool true) :: retrainings ++ [.leave])

theorem gatedTrainings_exact :
    Balanced retrainings ∧
    (assembled "training" none gatedTrainings).scopes =
      (assembled "training" none trainings).scopes ∧
    (assembled "training" none gatedTrainings).AssembledBy gatedTrainings ∧
    (assembled "training" none gatedTrainings).nodes.map
        (fun n => (n.id, n.condition.clauses.length, n.bindings.keys)) =
      [("train-2", 0, []), ("train", 0, []), ("train-3", 2, []),
        ("train-4", 1, ["from", "seed"])] := by
  have hinner : Balanced
      [.enter (.param "retry") (.bool true), .taskWith "train" training [] .empty, .leave] :=
    .scope (.param "retry") (.bool true) (.call (.taskWith "train" training [] .empty) trivial)
  have hbalanced : Balanced retrainings :=
    hinner.append (.append (.call (.draft "train" training [.value "seed" (.text "2")]) trivial)
      (.call (.connect "train-3" "model" "train-4" "from") trivial))
  exact ⟨hbalanced, (assembled_exact "training" none trainings).2.1 _ _ _ hbalanced,
    (assembled_exact "training" none gatedTrainings).1, by decide +kernel⟩

end Workflow
