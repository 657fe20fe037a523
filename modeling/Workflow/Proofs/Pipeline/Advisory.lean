import Workflow.Proofs.Manifest.Compiled
import Workflow.Proofs.Pipeline.Operations

/-!
# Resources are advice

What is left of a history, a builder, a pipeline or a manifest when all resource profiles are taken
away is called bare. Building, sealing and compiling commute with taking the profiles away, so that
two histories that differ in profiles only meet the same faults and give manifests that differ in
profiles only. In the manifest a node has the profile of its definition, overlaid with that of the
task.
-/
namespace Workflow

namespace ResourceProfile

/-- The profile that takes from one profile everything that it sets, and the rest from another. -/
structure Overlays (base own result : ResourceProfile) : Prop where
  cpuRequest : result.cpuRequest = (own.cpuRequest <|> base.cpuRequest)
  cpuLimit : result.cpuLimit = (own.cpuLimit <|> base.cpuLimit)
  memoryRequest : result.memoryRequest = (own.memoryRequest <|> base.memoryRequest)
  memoryLimit : result.memoryLimit = (own.memoryLimit <|> base.memoryLimit)
  selector : ∀ key, result.nodeSelector.get? key =
    (own.nodeSelector.get? key <|> base.nodeSelector.get? key)

theorem overlays_mergedWith (base own : ResourceProfile) :
    Overlays base own (base.mergedWith own) where
  cpuRequest := rfl
  cpuLimit := rfl
  memoryRequest := rfl
  memoryLimit := rfl
  selector key := Dict.get?_overlay _ _ key

end ResourceProfile

/-! ## Taking profiles away -/

namespace TaskDefinition

def bare (d : TaskDefinition) : TaskDefinition := { d with resources := .empty }

end TaskDefinition

namespace Operation

def bare : Operation → Operation
  | define name definition bindings _ => define name definition.bare bindings .empty
  | op => op

end Operation

namespace TaskNode

def bare (n : TaskNode) : TaskNode := { n with definition := n.definition.bare, resources := .empty }

end TaskNode

namespace Builder

def bare (b : Builder) : Builder := { b with nodes := b.nodes.map TaskNode.bare }

end Builder

namespace Pipeline

def bare (p : Pipeline) : Pipeline := { p with nodes := p.nodes.map TaskNode.bare }

end Pipeline

namespace ManifestNode

def bare (n : ManifestNode) : ManifestNode := { n with resources := .empty }

end ManifestNode

namespace Manifest

def bare (m : Manifest) : Manifest := { m with nodes := m.nodes.map ManifestNode.bare }

end Manifest

/-! ## Building -/

namespace Builder
variable {b : Builder} {name : String} {description : Option String} {ops ops' : List Operation}

@[simp] theorem takes_bare (b : Builder) (id : String) : b.bare.takes id = b.takes id :=
  List.any_map

theorem freeSuffix_bare (name : String) (fuel k : Nat) :
    b.bare.freeSuffix name fuel k = b.freeSuffix name fuel k := by
  induction fuel generalizing k with
  | zero => rfl
  | succ fuel ih => simp only [freeSuffix, takes_bare, ih]

@[simp] theorem nextId_bare (b : Builder) (name : String) : b.bare.nextId name = b.nextId name := by
  have hlength : b.bare.nodes.length = b.nodes.length := List.length_map _
  simp only [nextId, takes_bare, freeSuffix_bare, hlength]

theorem bare_apply (op : Operation) : (op.apply b).bare = op.bare.apply b.bare := by
  cases op with
  | declare spec =>
    have hregistry : b.bare.registry = b.registry := rfl
    simp only [Operation.apply, Operation.bare, declare, hregistry]
    cases b.registry.registerExternal? spec.name spec.dataType <;> rfl
  | define name definition bindings resources =>
    simp only [Operation.apply, Operation.bare, define, nextId_bare]
    simp only [bare, List.map_append]
    rfl
  | connect task output consumer input =>
    simp only [Operation.apply, Operation.bare, connect, takes_bare]
    split_ifs
    · simp only [bare, List.map_map]
      congr 1
      refine List.map_congr_left fun n _ => ?_
      simp only [Function.comp_apply, apply_ite TaskNode.bare]
      rfl
    · rfl
  | openScope clause => rfl
  | closeScopes depth => rfl

theorem bare_built :
    (built name description ops).bare = built name description (ops.map Operation.bare) := by
  induction ops using List.reverseRecOn with
  | nil => rfl
  | append_singleton ops op ih =>
    rw [List.map_append, List.map_singleton, built_append_singleton, built_append_singleton,
      bare_apply, ih]

end Builder

/-! ## Sealing -/

namespace Diagnosis
variable {b : Builder}

theorem referenceFault?_bare (b : Builder) (n : TaskNode) (input : String) (gate : GateRef) :
    referenceFault? b.bare n.bare input gate = referenceFault? b n input gate := by
  cases gate with
  | param name => rfl
  | output task output =>
    simp only [referenceFault?, outputFault?, Builder.takes_bare]
    rfl

theorem danglingFaults_bare (b : Builder) (n : TaskNode) :
    danglingFaults b.bare n.bare = danglingFaults b n := by
  have hbinding (input : String) (binding : Binding) :
      bindingFaults b.bare n.bare input binding = bindingFaults b n input binding := by
    cases binding <;> simp only [bindingFaults, referenceFault?_bare] <;> rfl
  simp only [danglingFaults, hbinding, referenceFault?_bare]
  rfl

theorem graph_bare (b : Builder) : graph b.bare = graph b := by
  simp only [graph, Builder.bare, List.map_map, List.flatMap_map]
  rfl

theorem typeFaults_bare (b : Builder) (n : TaskNode) :
    typeFaults b.bare n.bare = typeFaults b n := rfl

theorem unboundFaults_bare (n : TaskNode) : unboundFaults n.bare = unboundFaults n := rfl

/-- Profiles have no part in faults. -/
theorem faults_bare (b : Builder) : b.bare.diagnose.faults = b.diagnose.faults := by
  have hempty : b.bare.nodes.isEmpty = b.nodes.isEmpty := List.isEmpty_map
  have hnodes (f : TaskNode → List Fault) :
      b.bare.nodes.flatMap f = b.nodes.flatMap fun n => f n.bare := List.flatMap_map _ _ _
  simp only [Builder.diagnose, hempty]
  split_ifs
  · rfl
  · simp only [cycleFaults, graph_bare, hnodes, danglingFaults_bare, typeFaults_bare,
      unboundFaults_bare]
    rfl

end Diagnosis

theorem edgesOf_bare (nodes : List TaskNode) : edgesOf (nodes.map TaskNode.bare) = edgesOf nodes := by
  simp only [edgesOf, List.map_map, List.flatMap_map]
  rfl

theorem Builder.seal_bare (b : Builder) : b.bare.seal = b.seal.map Pipeline.bare := by
  simp only [Builder.seal, Diagnosis.faults_bare]
  cases b.diagnose.faults with
  | nil =>
    change Except.ok (Pipeline.mk _ _ _ _ (edgesOf (b.nodes.map TaskNode.bare)) _) = _
    rw [edgesOf_bare]
    rfl
  | cons fault rest => rfl

/-! ## Compiling -/

namespace Pipeline
variable {p : Pipeline}

theorem nodeObstacle?_bare (p : Pipeline) (earlier : List String) (n : TaskNode) :
    p.bare.nodeObstacle? earlier n.bare = p.nodeObstacle? earlier n := by
  have hnode (id : String) : (p.bare.node? id).isNone = (p.node? id).isNone := by
    simp only [node?, bare, List.find?_map, Option.isNone_map]
    rfl
  simp only [nodeObstacle?, hnode]
  rfl

theorem nodesObstacle?_bare (p : Pipeline) (earlier : List String) (nodes : List TaskNode) :
    p.bare.nodesObstacle? earlier (nodes.map TaskNode.bare) = p.nodesObstacle? earlier nodes := by
  induction nodes generalizing earlier with
  | nil => rfl
  | cons n rest ih =>
    simp only [List.map_cons, nodesObstacle?, nodeObstacle?_bare]
    cases p.nodeObstacle? earlier n with
    | none => exact ih (n.id :: earlier)
    | some reason => rfl

theorem obstacle?_bare (p : Pipeline) : p.bare.obstacle? = p.obstacle? := by
  have hempty : p.bare.nodes.isEmpty = p.nodes.isEmpty := List.isEmpty_map
  have hids : p.bare.nodes.map (·.id) = p.nodes.map (·.id) := List.map_map
  have hnodes : p.bare.nodesObstacle? [] p.bare.nodes = p.nodesObstacle? [] p.nodes :=
    nodesObstacle?_bare p [] p.nodes
  have hedges : edgesOf p.bare.nodes = edgesOf p.nodes := edgesOf_bare p.nodes
  simp only [obstacle?, hempty, hids, hedges, hnodes]
  rfl

theorem toManifest_bare (p : Pipeline) : p.bare.toManifest = p.toManifest.bare := by
  -- the order of the nodes does not look at profiles
  let before (a b : ManifestNode) : Bool := a.id ≤ b.id
  have hcompile : p.bare.nodes.map (·.compile) =
      (p.nodes.map (·.compile)).map ManifestNode.bare := by
    simp only [bare, List.map_map]
    rfl
  have hnodes : (p.bare.nodes.map (·.compile)).mergeSort before =
      ((p.nodes.map (·.compile)).mergeSort before).map ManifestNode.bare := by
    have hsame : ∀ a ∈ p.nodes.map (·.compile), ∀ b ∈ p.nodes.map (·.compile),
        before a b = before a.bare b.bare := fun _ _ _ _ => rfl
    rw [hcompile, List.map_mergeSort hsame]
  change Manifest.mk _ _ _ ((p.bare.nodes.map (·.compile)).mergeSort before) _ = _
  rw [hnodes]
  rfl

/-- Every pipeline is compiled or refused alike without its profiles, sealed or not. -/
theorem compile_bare (p : Pipeline) : p.bare.compile = p.compile.map Manifest.bare := by
  simp only [compile, obstacle?_bare, toManifest_bare]
  cases p.obstacle? <;> rfl

end Pipeline

/-! ## The profiles of a manifest -/

/-- The node that an operation adds to a builder, with the profile that it gets. -/
def Operation.profiles (b : Builder) : Operation → List (String × ResourceProfile)
  | define name definition _ resources =>
    [(b.nextId name, definition.resources.mergedWith resources)]
  | _ => []

namespace Builder
variable {b : Builder} {name : String} {description : Option String} {ops : List Operation}

/-- The nodes of a builder with their profiles. -/
def profiles (b : Builder) : List (String × ResourceProfile) :=
  b.nodes.map fun n => (n.id, n.resources)

theorem profiles_apply (op : Operation) :
    (op.apply b).profiles = b.profiles ++ op.profiles b := by
  cases op with
  | declare spec =>
    simp only [Operation.apply, declare, Operation.profiles, List.append_nil]
    cases b.registry.registerExternal? spec.name spec.dataType <;> rfl
  | define name definition bindings resources => simp [Operation.apply, define, profiles, Operation.profiles]
  | connect task output consumer input =>
    simp only [Operation.apply, connect, Operation.profiles, List.append_nil]
    split_ifs
    · simp only [profiles, List.map_map]
      refine List.map_congr_left fun n _ => ?_
      simp only [Function.comp_apply]
      split_ifs <;> rfl
    · rfl
  | openScope clause => simp [Operation.apply, openScope, profiles, Operation.profiles]
  | closeScopes depth => simp [Operation.apply, closeScopes, profiles, Operation.profiles]

/-- The nodes of a builder come from the operations of its history, one by one. -/
theorem mem_profiles_built {id : String} {r : ResourceProfile} :
    (id, r) ∈ (built name description ops).profiles ↔ ∃ before op after,
      ops = before ++ op :: after ∧ (id, r) ∈ op.profiles (built name description before) := by
  induction ops using List.reverseRecOn with
  | nil => simp [built, ofName, profiles]
  | append_singleton ops op ih =>
    rw [built_append_singleton, profiles_apply, List.mem_append, ih]
    constructor
    · rintro (⟨before, o, after, rfl, hmem⟩ | hmem)
      · exact ⟨before, o, after ++ [op], by simp, hmem⟩
      · exact ⟨ops, op, [], rfl, hmem⟩
    · rintro ⟨before, o, after, he, hmem⟩
      rcases List.eq_nil_or_concat after with rfl | ⟨rest, last, rfl⟩
      · obtain ⟨rfl, hlast⟩ := List.append_inj' he rfl
        exact .inr (List.head_eq_of_cons_eq hlast ▸ hmem)
      · rw [List.concat_eq_append, ← List.cons_append, ← List.append_assoc] at he
        exact .inl ⟨before, o, rest, (List.append_inj' he rfl).1, hmem⟩

end Builder

/-- Every task of a history has a node, every node comes from a task, and the profile of a node is
that of the definition, overlaid with that of the task. -/
structure Manifest.Profiled (m : Manifest) (name : String) (description : Option String)
    (ops : List Operation) : Prop where
  of_define : ∀ {before task definition bindings resources after},
    ops = before ++ .define task definition bindings resources :: after →
    ∃ n, m.node? ((Builder.built name description before).nextId task) = some n ∧
      definition.resources.Overlays resources n.resources
  to_define : ∀ {n}, n ∈ m.nodes → ∃ before task definition bindings resources after,
    ops = before ++ .define task definition bindings resources :: after ∧
    n.id = (Builder.built name description before).nextId task ∧
    definition.resources.Overlays resources n.resources

namespace Builder
variable {name : String} {description : Option String} {ops ops' : List Operation} {p : Pipeline}

theorem reached_any (name : String) (description : Option String) (ops : List Operation) :
    (built name description ops).Reached fun _ => True :=
  reached_built fun op _ => by cases op <;> trivial

theorem profiled_of_seal (hseal : (built name description ops).seal = .ok p) :
    p.toManifest.Profiled name description ops := by
  have hnodes : p.nodes = (built name description ops).nodes := by
    rw [(faultless_of_seal hseal).2]
  have hids : (p.toManifest.nodes.map (·.id)).Nodup := by
    rw [Pipeline.toManifest_ids_perm.nodup_iff, hnodes]
    exact (reached_any name description ops).formed.ids_nodup
  constructor
  -- a task keeps the id that it was given when it was defined
  case of_define =>
    intro before task definition bindings resources after he
    have hmem : ((built name description before).nextId task,
        definition.resources.mergedWith resources) ∈ (built name description ops).profiles :=
      mem_profiles_built.mpr ⟨before, _, after, he, List.mem_singleton_self _⟩
    obtain ⟨n, hn, hpair⟩ := List.mem_map.mp hmem
    obtain ⟨hid, hresources⟩ := Prod.mk.inj hpair
    have hcompiled : n.compile ∈ p.toManifest.nodes :=
      Pipeline.mem_toManifest_nodes.mpr ⟨n, hnodes ▸ hn, rfl⟩
    refine ⟨n.compile, hid ▸ Manifest.node?_of_mem hids hcompiled, ?_⟩
    change definition.resources.Overlays resources n.resources
    rw [hresources]
    exact ResourceProfile.overlays_mergedWith _ _
  case to_define =>
    intro n hn
    obtain ⟨t, ht, rfl⟩ := Pipeline.mem_toManifest_nodes.mp hn
    have hmem : (t.id, t.resources) ∈ (built name description ops).profiles :=
      List.mem_map.mpr ⟨t, hnodes ▸ ht, rfl⟩
    obtain ⟨before, op, after, he, hop⟩ := mem_profiles_built.mp hmem
    cases op with
    | define task definition bindings resources =>
      obtain ⟨hid, hresources⟩ := Prod.mk.inj (List.mem_singleton.mp hop)
      refine ⟨before, task, definition, bindings, resources, after, he, hid, ?_⟩
      change definition.resources.Overlays resources t.resources
      rw [hresources]
      exact ResourceProfile.overlays_mergedWith _ _
    | _ => cases hop

/-- Two histories that differ in profiles only are refused with the same fault, or both are sealed and
compiled to manifests that differ in profiles only. -/
theorem sealed_alike (h : ops.map Operation.bare = ops'.map Operation.bare) :
    (∃ fault, (built name description ops).seal = .error fault ∧
      (built name description ops').seal = .error fault) ∨
    ∃ p p', (built name description ops).seal = .ok p ∧
      (built name description ops').seal = .ok p' ∧ p.compile = .ok p.toManifest ∧
      p'.compile = .ok p'.toManifest ∧ p.toManifest.bare = p'.toManifest.bare := by
  have hseal : (built name description ops).seal.map Pipeline.bare =
      (built name description ops').seal.map Pipeline.bare := by
    rw [← seal_bare, ← seal_bare, bare_built, bare_built, h]
  cases hp : (built name description ops).seal with
  | error fault =>
    cases hp' : (built name description ops').seal with
    | error fault' =>
      rw [hp, hp'] at hseal
      cases hseal
      exact .inl ⟨fault, rfl, rfl⟩
    | ok p' =>
      rw [hp, hp'] at hseal
      cases hseal
  | ok p =>
    cases hp' : (built name description ops').seal with
    | error fault' =>
      rw [hp, hp'] at hseal
      cases hseal
    | ok p' =>
      rw [hp, hp'] at hseal
      have hbare : p.bare = p'.bare := Except.ok.inj hseal
      refine .inr ⟨p, p', rfl, rfl, (reached_any name description ops).compile_of_seal hp,
        (reached_any name description ops').compile_of_seal hp', ?_⟩
      rw [← Pipeline.toManifest_bare, ← Pipeline.toManifest_bare, hbare]

end Builder
end Workflow
