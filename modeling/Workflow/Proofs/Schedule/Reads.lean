import Workflow.Proofs.Manifest.Coherent
import Workflow.Proofs.Schedule.Ledger
import Workflow.Proofs.Schedule.Values

/-!
# What a node reads

The store of a run is determined by what the nodes have come to: it holds the first values of the
parameters and the outputs of every node. In a coherent manifest a node reads parameters and outputs
of its predecessors only, so that two stores serve it alike if its predecessors have come to the
same.
-/
namespace Workflow
variable {m : Manifest} {params : Dict Scalar} {look look' : String → Option Verdict}
  {store store' : ArtifactStore} {id : String} {n : ManifestNode}

/-- The store of a run whose nodes have come to what `look` tells. -/
structure Stored (m : Manifest) (params : Dict Scalar) (look : String → Option Verdict)
    (store : ArtifactStore) : Prop where
  param : ∀ name, store.get? (.param name) = (seedArtifacts m params).get? (.param name)
  output : ∀ {id n}, m.node? id = some n → ∀ result,
    store.get? (.output id result) = (look id).bind (·.outputs.get? result)

theorem Manifest.Coherent.flawless_of_node? (hm : m.Coherent) (hn : m.node? id = some n) :
    ArtifactId.nodeFlaw? id = none := by
  obtain ⟨hmem, rfl⟩ := Manifest.mem_of_node? hn
  exact hm.flawless n hmem

theorem stored_seed (hm : m.Coherent) (hlook : ∀ id result,
      (look id).bind (·.outputs.get? result) = none) :
    Stored m params look (seedArtifacts m params) where
  param _ := rfl
  output {id n} hn result := by
    rw [hlook, seedArtifacts_output (hm.flawless_of_node? hn)]

/-- The outputs of one more node are stored. -/
theorem Stored.extend (h : Stored m params look store) (hm : m.Coherent) (hn : m.node? id = some n)
    {v : Verdict} (hnew : ∀ result, (look id).bind (·.outputs.get? result) = none)
    (hkeys : ∀ r, r ∉ n.outputs.map (·.name) → v.outputs.get? r = none)
    (hlook : ∀ x, look' x = if x = id then some v else look x) :
    Stored m params look' (storeOutputs n.outputs v.outputs store) := by
  obtain ⟨hmem, rfl⟩ := Manifest.mem_of_node? hn
  have hartifact := hm.artifact_eq n hmem
  have hflaw := hm.flawless n hmem
  obtain ⟨-, -, hpoint⟩ := ArtifactId.nodeFlaw?_eq_none_iff.mp hflaw
  constructor
  · intro name
    rw [get?_storeOutputs_of_ne, h.param]
    intro o ho
    rw [hartifact o ho]
    exact (ArtifactId.output_ne_param hflaw).symm
  · intro x k hk result
    rw [hlook]
    split_ifs with hx
    · subst hx
      exact get?_storeOutputs_output hpoint hartifact hkeys
        ((h.output hn result).trans (hnew result))
    · obtain ⟨-, -, hpoint'⟩ := ArtifactId.nodeFlaw?_eq_none_iff.mp (hm.flawless_of_node? hk)
      rw [get?_storeOutputs_of_ne, h.output hk]
      intro o ho he
      rw [hartifact o ho, ArtifactId.output_inj hpoint' hpoint] at he
      exact hx he.1

/-! ## Equal predecessors give equal reads -/

section
variable (h : Stored m params look store) (h' : Stored m params look' store')
  (hpred : ∀ dep, m.graph.Edge dep id → look dep = look' dep)
include h h' hpred

theorem get?_output_of_edge {dep result : String} (he : m.graph.Edge dep id) :
    store.get? (.output dep result) = store'.get? (.output dep result) := by
  obtain ⟨k, hk⟩ := Manifest.exists_node? (TaskGraph.edge_ofEdges.mp he).2.1
  rw [h.output hk, h'.output hk, hpred dep he]

variable (hm : m.Coherent) (hn : m.node? id = some n)
include hm hn

theorem clausesHold_of_preds :
    clausesHold store n.condition.clauses = clausesHold store' n.condition.clauses := by
  obtain ⟨hmem, rfl⟩ := Manifest.mem_of_node? hn
  refine clausesHold_congr fun c hc => ?_
  cases hg : c.gate with
  | param name => exact (h.param name).trans (h'.param name).symm
  | output task result =>
    exact get?_output_of_edge h h' hpred (hm.gate_edge n hmem c hc hg)

theorem prepare_of_preds {p : Plan} : Drive.prepare p n store = Drive.prepare p n store' := by
  obtain ⟨hmem, rfl⟩ := Manifest.mem_of_node? hn
  have hinputs : resolveInputs store n.inputs .empty = resolveInputs store' n.inputs .empty := by
    refine resolveInputs_congr fun i hi => ?_
    unfold inputSource?
    split
    · exact (h.param _).trans (h'.param _).symm
    · rename_i hb
      exact get?_output_of_edge h h' hpred (hm.input_edge n hmem i hi hb)
    · rfl
    · rfl
  unfold Drive.prepare
  rw [hinputs]

end

/-! ## The store of a drive -/

namespace Drive
variable {p : Plan} {bodies : Bodies} {d d' : Drive}

/-- What the nodes of a drive have come to. -/
def verdict? (d : Drive) (id : String) : Option Verdict := (d.table.get? id).map NodeState.verdict

theorem verdict?_put {s : NodeState} {x : String} :
    (d.put id s).verdict? x = if x = id then some s.verdict else d.verdict? x := by
  unfold verdict?
  rw [get?_put]
  split_ifs <;> rfl

theorem Leaves.store_eq {i : Invocation} {v : Verdict} {mark : Bool}
    (h : Leaves bodies d n i v mark store) :
    store = storeOutputs n.outputs v.outputs d.artifacts ∧
      ∀ r, r ∉ n.outputs.map (·.name) → v.outputs.get? r = none := by
  cases h with
  | succeed ends results => exact ⟨rfl, fun r hr => get?_results_of_notMem results hr⟩
  | _ => exact ⟨(storeOutputs_empty _ _).symm, fun _ _ => rfl⟩

theorem Ledger.get?_verdict? (hl : Ledger p d) {s : NodeStatus} (hs : d.table.status? id = some s)
    (hne : s ≠ .succeeded) (result : String) :
    (d.verdict? id).bind (·.outputs.get? result) = none := by
  obtain ⟨state, hstate, rfl⟩ := NodeTable.status?_eq_some_iff.mp hs
  rw [verdict?, hstate, Option.map_some, Option.bind_some, NodeState.verdict,
    hl.unfinished hstate hne, Dict.get?_empty]

theorem stored_change (h : Stored p.manifest params d.verdict? d.artifacts) (hl : Ledger p d)
    (hm : p.manifest.Coherent) (hc : Change p bodies d d') :
    Stored p.manifest params d'.verdict? d'.artifacts := by
  cases hc with
  | @settle id n source s node status why =>
    obtain ⟨-, hempty⟩ := why.target
    have hsource : source ≠ .succeeded := by rcases why.source_eq with rfl | rfl <;> decide
    have hstored := h.extend hm node (hl.get?_verdict? status hsource)
      (fun r _ => by rw [hempty, Dict.get?_empty]) fun x => verdict?_put (s := s)
    rwa [hempty, storeOutputs_empty] at hstored
  | @launch id n inputs s node status active room prepared verdict unmarked =>
    have hstored := h.extend hm node (hl.get?_verdict? status (by decide))
      (fun r _ => by rw [verdict, Dict.get?_empty]) fun x => verdict?_put (s := s)
    rwa [verdict, storeOutputs_empty] at hstored
  | @leave task id n i s store node entry invoked task_eq node_eq why =>
    obtain ⟨hstore, hkeys⟩ := why.store_eq
    have hnew := hl.get?_verdict? (hl.status?_of_entry entry) (by decide)
    have hstored := h.extend hm node hnew hkeys fun x => verdict?_put (s := s)
    rwa [← hstore] at hstored
  | _ => exact h

/-- At every point of a run the store holds what the nodes have made. -/
theorem Reachable.stored (hm : p.manifest.Coherent) (h : Reachable p bodies params d) :
    Stored p.manifest params d.verdict? d.artifacts := by
  refine h.induct (stored_seed hm fun id result => ?_) fun hr hs hc =>
    stored_change hs hr.ledger hm hc
  unfold verdict?
  cases hs : (begin p.manifest params).table.get? id with
  | none => rfl
  | some s => rw [eq_pending_of_begin hs]; rfl

end Drive
end Workflow
