import Workflow.Manifest.Basic
import Workflow.Proofs.Document.Values
import Workflow.Run.Record

/-!
# Documents of manifests, runs and experiments

Every part of a manifest is restored, provided that its quantities of cpu and memory read back from
their texts. What is written for one kind of binding, gate or body is taken for no other kind. A run
is restored with the states of its nodes, provided that its times read back from their texts and
that the metadata of its outputs are in order; and so is an experiment if its time reads back.
-/
namespace Workflow
open Document

/-! ## Bindings and conditions -/

theorem GateRef.restores (g : GateRef) : Restores GateRef.decode? g.encode g := by
  intro d hd
  rw [decode?, hd]
  cases g <;> rfl

namespace Binding

theorem ofSettled?_scalar (s : Scalar) : GateRef.ofSettled? s.encode = none := rfl

theorem restores (b : Binding) : Restores Binding.decode? b.encode b := by
  intro d hd
  have hsettled : b.encode.settle? = some b.encode := settle?_idem d hd
  cases b with
  | param name =>
    rw [decode?, hd]
    rfl
  | output task result =>
    rw [decode?, hd]
    rfl
  | literal s =>
    have hscalar : Scalar.decode? s.encode = some s := s.restores _ hsettled
    rw [decode?, hd]
    simp only [encode, ofSettled?_scalar, hscalar, Option.bind_eq_bind, Option.bind_some,
      Option.pure_def]

theorem isNull_encode (b : Binding) : b.encode.isNull = false := by
  cases b with
  | literal s => exact s.isNull_encode
  | _ => rfl

end Binding

theorem ConditionClause.restores (c : ConditionClause) :
    Restores ConditionClause.decode? c.encode c := by
  intro d hd
  have hd : d.settle? = some (.record (present [("gate", some c.gate.encode),
    ("equals", some c.equals.encode)])) := hd
  refine read_record hd (fun fields ⟨hgate, hequals, _⟩ => ?_) rfl (by decide)
  rw [hgate.required c.gate.restores, hequals.required c.equals.restores]
  rfl

theorem Condition.restores (c : Condition) : Restores Condition.decode? c.encode c := by
  intro d hd
  have hd : d.settle? = some (.record (present [("all",
    some (.sequence (c.clauses.map (·.encode))))])) := hd
  refine read_record hd (fun fields ⟨hall, _⟩ => ?_) rfl (by decide)
  rw [hall.required (restores_list fun c _ => c.restores)]
  rfl

/-! ## Resources -/

namespace CpuQuantity

/-- The quantity is read again from its text. -/
def Stable (q : CpuQuantity) : Prop := parse q.text = .ok q

theorem restores {q : CpuQuantity} (h : q.Stable) : Restores CpuQuantity.decode? q.encode q := by
  intro d hd
  rw [decode?, restores_text q.text d hd, Option.bind_eq_bind, Option.bind_some, h]
  rfl

end CpuQuantity

namespace MemoryQuantity

/-- The quantity is read again from its text. -/
def Stable (q : MemoryQuantity) : Prop := parse q.text = .ok q

theorem restores {q : MemoryQuantity} (h : q.Stable) :
    Restores MemoryQuantity.decode? q.encode q := by
  intro d hd
  rw [decode?, restores_text q.text d hd, Option.bind_eq_bind, Option.bind_some, h]
  rfl

end MemoryQuantity

namespace ResourceProfile

structure Stable (p : ResourceProfile) : Prop where
  cpuRequest : ∀ q, p.cpuRequest = some q → q.Stable
  cpuLimit : ∀ q, p.cpuLimit = some q → q.Stable
  memoryRequest : ∀ q, p.memoryRequest = some q → q.Stable
  memoryLimit : ∀ q, p.memoryLimit = some q → q.Stable

theorem encode_eq (p : ResourceProfile) :
    p.encode = .record (present [("cpu_request", p.cpuRequest.map CpuQuantity.encode),
      ("cpu_limit", p.cpuLimit.map CpuQuantity.encode),
      ("memory_request", p.memoryRequest.map MemoryQuantity.encode),
      ("memory_limit", p.memoryLimit.map MemoryQuantity.encode),
      ("node_selector", if p.nodeSelector.isEmpty then none
        else some (.ofDict .text p.nodeSelector))]) := by
  simp only [encode, optionalField_eq _ CpuQuantity.encode, optionalField_eq _ MemoryQuantity.encode,
    ite_eq_optionalField, present, List.flatMap_cons, List.flatMap_nil, List.append_nil,
    List.append_assoc]

theorem restores {p : ResourceProfile} (h : p.Stable) :
    Restores ResourceProfile.decode? p.encode p := by
  intro d hd
  rw [encode_eq] at hd
  refine read_record hd (fun fields ⟨hcpu, hcpuLimit, hmemory, hmemoryLimit, hselector, _⟩ => ?_)
    rfl (by decide)
  rw [hcpu.optional (fun q hq => CpuQuantity.restores (h.cpuRequest q hq)) fun _ => rfl,
    hcpuLimit.optional (fun q hq => CpuQuantity.restores (h.cpuLimit q hq)) fun _ => rfl,
    hmemory.optional (fun q hq => MemoryQuantity.restores (h.memoryRequest q hq)) fun _ => rfl,
    hmemoryLimit.optional (fun q hq => MemoryQuantity.restores (h.memoryLimit q hq)) fun _ => rfl,
    hselector.unlessEmpty Dict.eq_empty_of_isEmpty
      (restores_dict fun _ s _ => restores_text s)]
  rfl

end ResourceProfile

/-! ## Bodies -/

namespace BodyRef

def shellSlots (command interpreter : String) (env : Dict String) :
    List (String × Option Document) :=
  [("command", some (.text command)), ("shell", some (.text interpreter)),
    ("env", if env.isEmpty then none else some (.ofDict .text env))]

theorem encode_shell (command interpreter : String) (env : Dict String) :
    (shell command interpreter env).encode =
      .record (("type", .text "shell") :: present (shellSlots command interpreter env)) := by
  rw [encode, ite_eq_optionalField, ← present_singleton]
  rfl

theorem splitKind?_shell (command interpreter : String) (env : Dict String) :
    splitKind? (.record (("type", .text "shell") :: present (shellSlots command interpreter env))) =
      some ("shell", .record (present (shellSlots command interpreter env))) := by
  cases henv : env.isEmpty <;> simp only [shellSlots, henv] <;> rfl

/-- The kind is split off, and the rest is read by the fields of that kind. -/
theorem restores (b : BodyRef) : Restores BodyRef.decode? b.encode b := by
  intro d hd
  have hsettled : b.encode.settle? = some b.encode := settle?_idem d hd
  rw [decode?, hd]
  cases b with
  | registered name => rfl
  | shell command interpreter env =>
    rw [encode_shell] at hsettled ⊢
    simp only [splitKind?_shell, Option.bind_eq_bind, Option.bind_some]
    refine read_record (settle?_tail hsettled) (fun fields ⟨hcommand, hshell, henv, _⟩ => ?_) rfl
      (by decide)
    simp only [hcommand.required (restores_text command),
      hshell.written (restores_text interpreter), henv.unlessEmpty Dict.eq_empty_of_isEmpty
        (restores_dict fun _ s _ => restores_text s), Option.bind_some, Option.pure_def]

end BodyRef

/-! ## Parameters, inputs and outputs -/

namespace ParameterSpec

theorem encode_eq (s : ParameterSpec) :
    s.encode = .record (present [("name", some (.text s.name)), ("type", some s.dataType.encode),
      ("default", s.defaultValue.map Scalar.encode)]) := by
  rw [encode, optionalField_eq, ← present_singleton]
  rfl

theorem restores (s : ParameterSpec) : Restores ParameterSpec.decode? s.encode s := by
  intro d hd
  rw [encode_eq] at hd
  refine read_record hd (fun fields ⟨hname, htype, hdefault, _⟩ => ?_) rfl (by decide)
  rw [hname.required (restores_text s.name), htype.required s.dataType.restores,
    hdefault.optional (fun v _ => v.restores) Scalar.isNull_encode]
  rfl

end ParameterSpec

namespace NodeInput

theorem encode_eq (i : NodeInput) :
    i.encode = .record (present [("name", some (.text i.name)), ("type", some i.dataType.encode),
      ("binding", i.binding.map Binding.encode),
      ("default", i.defaultValue.map Scalar.encode)]) := by
  rw [encode, optionalField_eq _ Binding.encode, optionalField_eq _ Scalar.encode,
    ← present_singleton "default"]
  rfl

theorem restores (i : NodeInput) : Restores NodeInput.decode? i.encode i := by
  intro d hd
  rw [encode_eq] at hd
  refine read_record hd (fun fields ⟨hname, htype, hbinding, hdefault, _⟩ => ?_) rfl (by decide)
  rw [hname.required (restores_text i.name), htype.required i.dataType.restores,
    hbinding.optional (fun b _ => b.restores) Binding.isNull_encode,
    hdefault.optional (fun v _ => v.restores) Scalar.isNull_encode]
  rfl

end NodeInput

theorem NodeOutput.restores (o : NodeOutput) : Restores NodeOutput.decode? o.encode o := by
  intro d hd
  have hd : d.settle? = some (.record (present [("name", some (.text o.name)),
    ("type", some o.dataType.encode), ("artifact", some (.text o.artifact.text))])) := hd
  refine read_record hd (fun fields ⟨hname, htype, hartifact, _⟩ => ?_) rfl (by decide)
  have hid : Restores ArtifactId.decode? (.text o.artifact.text) o.artifact := fun d hd =>
    congrArg (Option.map ArtifactId.mk) (restores_text o.artifact.text d hd)
  rw [hname.required (restores_text o.name), htype.required o.dataType.restores,
    hartifact.required hid]
  rfl

/-! ## Nodes and manifests -/

namespace ManifestNode

theorem encode_eq (n : ManifestNode) :
    n.encode = .record (present [("id", some (.text n.id)), ("name", some (.text n.name)),
      ("component", some (.text n.component)),
      ("inputs", some (.sequence (n.inputs.map (·.encode)))),
      ("outputs", some (.sequence (n.outputs.map (·.encode)))),
      ("resources", if n.resources.isEmpty then none else some n.resources.encode),
      ("condition", if n.condition.isEmpty then none else some n.condition.encode),
      ("body", some n.body.encode)]) := by
  rw [encode, ResourceProfile.field, ite_eq_optionalField, ite_eq_optionalField]
  simp only [present, List.flatMap_cons, List.flatMap_nil, List.append_assoc]
  rfl

theorem restores {n : ManifestNode} (h : n.resources.Stable) :
    Restores ManifestNode.decode? n.encode n := by
  intro d hd
  rw [encode_eq] at hd
  refine read_record hd (fun fields ⟨hid, hname, hcomponent, hinputs, houtputs, hresources,
    hcondition, hbody, _⟩ => ?_) rfl (by decide)
  have hnothing : n.resources.isEmpty = true → ResourceProfile.empty = n.resources :=
    fun h => (of_decide_eq_true h).symm
  have halways : n.condition.isEmpty = true → Condition.always = n.condition := fun h =>
    congrArg Condition.mk (List.isEmpty_iff.mp h).symm
  rw [hid.required (restores_text n.id), hname.required (restores_text n.name),
    hcomponent.required (restores_text n.component),
    hinputs.written (restores_list fun i _ => i.restores),
    houtputs.written (restores_list fun o _ => o.restores),
    hresources.unlessEmpty hnothing (ResourceProfile.restores h),
    hcondition.unlessEmpty halways n.condition.restores, hbody.required n.body.restores]
  rfl

end ManifestNode

namespace PipelineInfo

theorem encode_eq (p : PipelineInfo) :
    p.encode = .record (present [("name", some (.text p.name)),
      ("description", p.description.map Document.text)]) := by
  rw [encode, optionalField_eq, ← present_singleton]
  rfl

theorem restores (p : PipelineInfo) : Restores PipelineInfo.decode? p.encode p := by
  intro d hd
  rw [encode_eq] at hd
  refine read_record hd (fun fields ⟨hname, hdescription, _⟩ => ?_) rfl (by decide)
  rw [hname.required (restores_text p.name),
    hdescription.optional (fun s _ => restores_text s) fun _ => rfl]
  rfl

end PipelineInfo

namespace Manifest

/-- All quantities of cpu and memory are read again from their texts. -/
def Stable (m : Manifest) : Prop := ∀ n ∈ m.nodes, n.resources.Stable

theorem restores_edge (e : String × String) : Restores decodeEdge? (encodeEdge e) e := by
  intro d hd
  have hd : d.settle? = some (.record (present [("from", some (.text e.1)),
    ("to", some (.text e.2))])) := hd
  refine read_record hd (fun fields ⟨hsource, htarget, _⟩ => ?_) rfl (by decide)
  rw [hsource.required (restores_text e.1), htarget.required (restores_text e.2)]
  rfl

theorem encode_eq (m : Manifest) :
    m.encode = .record (present [("api_version", some (.text m.apiVersion)),
      ("pipeline", some m.pipeline.encode),
      ("parameters", some (.sequence (m.parameters.map (·.encode)))),
      ("nodes", some (.sequence (m.nodes.map (·.encode)))),
      ("edges", some (.sequence (m.edges.map encodeEdge)))]) := rfl

theorem restores {m : Manifest} (h : m.Stable) : Restores Manifest.decode? m.encode m := by
  intro d hd
  rw [encode_eq] at hd
  refine read_record hd (fun fields ⟨hversion, hpipeline, hparameters, hnodes, hedges, _⟩ => ?_)
    rfl (by decide)
  rw [hversion.required (restores_text m.apiVersion), hpipeline.required m.pipeline.restores,
    hparameters.written (restores_list fun s _ => s.restores),
    hnodes.required (restores_list fun n hn => ManifestNode.restores (h n hn)),
    hedges.written (restores_list fun e _ => restores_edge e)]
  rfl

end Manifest

/-! ## Runs -/

theorem RunStatus.restores (s : RunStatus) : Restores RunStatus.decode? s.encode s :=
  restores_name (show ofName? s.name = some s by cases s <;> rfl)

theorem NodeStatus.restores (s : NodeStatus) : Restores NodeStatus.decode? s.encode s :=
  restores_name (show ofName? s.name = some s by cases s <;> rfl)

namespace Instant

/-- The time is read again from its text. -/
def Stable (t : Instant) : Prop := ofText? t.text = some t

theorem restores {t : Instant} (h : t.Stable) : Restores Instant.decode? t.encode t := by
  intro d hd
  rw [decode?, restores_text t.text d hd, Option.bind_eq_bind, Option.bind_some, h]

end Instant

namespace NodeState

/-- Times are read again from their texts, and the metadata of outputs are in order. -/
structure Stable (n : NodeState) : Prop where
  startedAt : ∀ t, n.startedAt = some t → t.Stable
  finishedAt : ∀ t, n.finishedAt = some t → t.Stable
  outputs : ∀ name v, n.outputs.get? name = some v → v.Sorted

theorem encode_eq (n : NodeState) :
    n.encode = .record (present [("status", some n.status.encode),
      ("cancelled", if !n.cancelled then none else some (.bool n.cancelled)),
      ("reason", n.reason.map Document.text),
      ("started_at", n.startedAt.map Instant.encode),
      ("finished_at", n.finishedAt.map Instant.encode),
      ("outputs", if n.outputs.isEmpty then none else some (.ofDict Value.encode n.outputs))]) := by
  have hcancelled : (if n.cancelled then [("cancelled", Document.bool true)] else []) =
      optionalField "cancelled" id
        (if !n.cancelled then none else some (.bool n.cancelled)) := by
    cases n.cancelled <;> rfl
  rw [encode, hcancelled, optionalField_eq _ Document.text, optionalField_eq _ Instant.encode,
    optionalField_eq _ Instant.encode, ite_eq_optionalField, ← present_singleton "outputs"]
  simp only [present, List.flatMap_cons, List.flatMap_nil, List.append_assoc]
  rfl

theorem restores {n : NodeState} (h : n.Stable) : Restores NodeState.decode? n.encode n := by
  intro d hd
  rw [encode_eq] at hd
  refine read_record hd (fun fields ⟨hstatus, hcancelled, hreason, hstarted, hfinished, houtputs,
    _⟩ => ?_) rfl (by decide)
  have hfalse : (!n.cancelled) = true → false = n.cancelled := by
    cases n.cancelled <;> decide
  rw [hstatus.required n.status.restores,
    hcancelled.unlessEmpty hfalse (restores_bool n.cancelled),
    hreason.optional (fun s _ => restores_text s) fun _ => rfl,
    hstarted.optional (fun t ht => Instant.restores (h.startedAt t ht)) fun _ => rfl,
    hfinished.optional (fun t ht => Instant.restores (h.finishedAt t ht)) fun _ => rfl,
    houtputs.unlessEmpty Dict.eq_empty_of_isEmpty
      (restores_dict fun name v hv => Value.restores (h.outputs name v hv))]
  rfl

end NodeState

namespace Run

/-- Times are read again from their texts, and all nodes are restored. -/
structure Stable (r : Run) : Prop where
  createdAt : r.createdAt.Stable
  finishedAt : ∀ t, r.finishedAt = some t → t.Stable
  nodes : ∀ id n, r.nodes.get? id = some n → n.Stable

theorem encode_eq (r : Run) :
    r.encode = .record (present [("run_id", some (.text r.id)), ("run_name", some (.text r.name)),
      ("experiment_id", some (.text r.experiment)), ("pipeline_name", some (.text r.pipeline)),
      ("manifest_ref", some (.text r.manifest)), ("params", some (.ofDict Scalar.encode r.params)),
      ("status", some r.status.encode), ("nodes", some (.ofDict NodeState.encode r.nodes)),
      ("idempotency_key", some (.text r.idempotencyKey)),
      ("created_at", some r.createdAt.encode),
      ("finished_at", r.finishedAt.map Instant.encode)]) := by
  rw [encode, optionalField_eq, ← present_singleton]
  rfl

theorem restores {r : Run} (h : r.Stable) : Restores Run.decode? r.encode r := by
  intro d hd
  rw [encode_eq] at hd
  refine read_record hd (fun fields ⟨hid, hname, hexperiment, hpipeline, hmanifest, hparams,
    hstatus, hnodes, hkey, hcreated, hfinished, _⟩ => ?_) rfl (by decide)
  rw [hid.required (restores_text r.id), hname.required (restores_text r.name),
    hexperiment.required (restores_text r.experiment),
    hpipeline.required (restores_text r.pipeline), hmanifest.required (restores_text r.manifest),
    hparams.required (restores_dict fun _ s _ => s.restores), hstatus.required r.status.restores,
    hnodes.required (restores_dict fun id n hn => NodeState.restores (h.nodes id n hn)),
    hkey.required (restores_text r.idempotencyKey),
    hcreated.required (Instant.restores h.createdAt),
    hfinished.optional (fun t ht => Instant.restores (h.finishedAt t ht)) fun _ => rfl]
  rfl

end Run

namespace Experiment

theorem encode_eq (e : Experiment) :
    e.encode = .record (present [("id", some (.text e.id)), ("name", some (.text e.name)),
      ("description", e.description.map Document.text), ("created_at", some e.createdAt.encode)]) := by
  rw [encode, optionalField_eq]
  simp only [present, List.flatMap_cons, List.flatMap_nil, List.append_assoc]
  rfl

theorem restores {e : Experiment} (h : e.createdAt.Stable) :
    Restores Experiment.decode? e.encode e := by
  intro d hd
  rw [encode_eq] at hd
  refine read_record hd (fun fields ⟨hid, hname, hdescription, hcreated, _⟩ => ?_) rfl (by decide)
  rw [hid.required (restores_text e.id), hname.required (restores_text e.name),
    hdescription.optional (fun s _ => restores_text s) fun _ => rfl,
    hcreated.required (Instant.restores h)]
  rfl

end Experiment
end Workflow
