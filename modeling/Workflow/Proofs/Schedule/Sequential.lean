import Workflow.Proofs.Schedule.Loop
import Workflow.Proofs.Schedule.Reads

/-!
# One node at a time

The sequential reference visits the nodes in topological order and is done with one before it looks
at the next. It judges every node by what its predecessors come to in the end.
-/
namespace Workflow
variable {p : Plan} {params : Dict Scalar} {work : String → Dict Value → Ending} {id : String}
  {n : ManifestNode}

/-! ## The reference -/

/-- What a node comes to when its body has ended. -/
def ManifestNode.conclude (n : ManifestNode) (ending : Ending) : Verdict :=
  match n.results ending with
  | .error _ => ⟨.failed, .empty⟩
  | .ok values => ⟨.succeeded, values⟩

/-- What the reference knows: what the visited nodes have come to, and the values made so far. -/
structure Account where
  verdicts : Dict Verdict
  artifacts : ArtifactStore

namespace Plan

/-- What a node comes to whose predecessors have succeeded. -/
def assess (p : Plan) (work : String → Dict Value → Ending) (n : ManifestNode)
    (store : ArtifactStore) : Verdict :=
  match clausesHold store n.condition.clauses with
  | .error _ => ⟨.failed, .empty⟩
  | .ok false => ⟨.skipped, .empty⟩
  | .ok true =>
    match Drive.prepare p n store with
    | .error _ => ⟨.failed, .empty⟩
    | .ok inputs => n.conclude (work n.id inputs)

/-- What a node comes to. -/
def judge (p : Plan) (work : String → Dict Value → Ending) (s : Account) (n : ManifestNode) :
    Verdict :=
  if ∀ dep ∈ p.graph.dependencies n.id,
      (s.verdicts.get? dep).map (·.status) = some .succeeded then
    p.assess work n s.artifacts
  else ⟨.skipped, .empty⟩

def visit (p : Plan) (work : String → Dict Value → Ending) (s : Account) (id : String) : Account :=
  match p.manifest.node? id with
  | none => s
  | some n =>
    let v := p.judge work s n
    ⟨s.verdicts.insert id v, storeOutputs n.outputs v.outputs s.artifacts⟩

/-- Visit all nodes in topological order; a body ends as `work` tells for its node and inputs. -/
def sequential (p : Plan) (work : String → Dict Value → Ending) (params : Dict Scalar) : Account :=
  p.order.foldl (p.visit work) ⟨.empty, seedArtifacts p.manifest params⟩

end Plan

/-! ## What the reference says of a node -/

theorem get?_conclude_of_notMem {ending : Ending} {r : String} (hr : r ∉ n.outputs.map (·.name)) :
    (n.conclude ending).outputs.get? r = none := by
  unfold ManifestNode.conclude
  split
  · rfl
  · rename_i hvalues
    exact get?_results_of_notMem hvalues hr

theorem get?_judge_of_notMem {s : Account} {r : String} (hr : r ∉ n.outputs.map (·.name)) :
    (p.judge work s n).outputs.get? r = none := by
  unfold Plan.judge Plan.assess
  split_ifs
  · split
    · rfl
    · rfl
    · split
      · rfl
      · exact get?_conclude_of_notMem hr
  · rfl

theorem get?_visit_of_ne {s : Account} {x : String} (hx : x ≠ id) :
    (p.visit work s id).verdicts.get? x = s.verdicts.get? x := by
  unfold Plan.visit
  split
  · rfl
  · exact Dict.get?_insert_of_ne hx

theorem get?_visits_of_notMem {s : Account} {ids : List String} {x : String} (hx : x ∉ ids) :
    (ids.foldl (p.visit work) s).verdicts.get? x = s.verdicts.get? x := by
  induction ids generalizing s with
  | nil => rfl
  | cons id ids ih =>
    simp only [List.mem_cons, not_or] at hx
    rw [List.foldl_cons, ih hx.2, get?_visit_of_ne hx.1]

theorem stored_visits (hm : p.manifest.Coherent) {s : Account} {ids : List String}
    (hnodup : ids.Nodup) (hnew : ∀ id ∈ ids, s.verdicts.get? id = none)
    (h : Stored p.manifest params s.verdicts.get? s.artifacts) :
    Stored p.manifest params (ids.foldl (p.visit work) s).verdicts.get?
      (ids.foldl (p.visit work) s).artifacts := by
  induction ids generalizing s with
  | nil => exact h
  | cons id ids ih =>
    obtain ⟨hid, hrest⟩ := List.nodup_cons.mp hnodup
    obtain ⟨hnone, hnones⟩ := List.forall_mem_cons.mp hnew
    refine ih hrest (fun x hx => ?_) ?_
    · have hne : x ≠ id := by
        rintro rfl
        exact hid hx
      rw [get?_visit_of_ne hne]
      exact hnones x hx
    · cases hn : p.manifest.node? id with
      | none =>
        have hsame : p.visit work s id = s := by simp only [Plan.visit, hn]
        rwa [hsame]
      | some n =>
        have hvisit : p.visit work s id = ⟨s.verdicts.insert id (p.judge work s n),
            storeOutputs n.outputs (p.judge work s n).outputs s.artifacts⟩ := by
          simp only [Plan.visit, hn]
        rw [hvisit]
        refine h.extend hm hn (fun result => by rw [hnone, Option.bind_none]) ?_ fun x => ?_
        · exact fun r hr => get?_judge_of_notMem hr
        · exact Dict.get?_insert s.verdicts id x _

/-- The reference judges a node by an account that agrees with the final one on the predecessors. -/
theorem sequential_verdict (work : String → Dict Value → Ending) (params : Dict Scalar)
    (hm : p.manifest.Coherent) (hp : p.Proper) (hn : p.manifest.node? id = some n) :
    ∃ s : Account,
    (p.sequential work params).verdicts.get? id = some (p.judge work s n) ∧
    Stored p.manifest params s.verdicts.get? s.artifacts ∧
    ∀ dep, p.graph.Edge dep id →
      s.verdicts.get? dep = (p.sequential work params).verdicts.get? dep := by
  obtain ⟨earlier, later, hsplit⟩ := List.append_of_mem (hp.mem_order_of_node? hn)
  have hnodup := hsplit ▸ hp.topological.nodup
  obtain ⟨hearlier, hrest, hdisj⟩ := List.nodup_append.mp hnodup
  let first : Account := ⟨.empty, seedArtifacts p.manifest params⟩
  have hfinal : p.sequential work params =
      later.foldl (p.visit work) (p.visit work (earlier.foldl (p.visit work) first) id) := by
    rw [Plan.sequential, hsplit, List.foldl_append, List.foldl_cons]
  refine ⟨earlier.foldl (p.visit work) first, ?_, ?_, ?_⟩
  · rw [hfinal, get?_visits_of_notMem (List.nodup_cons.mp hrest).1]
    simp only [Plan.visit, hn, Dict.get?_insert_self]
  · refine stored_visits hm hearlier (fun _ _ => rfl) (stored_seed hm fun _ _ => rfl)
  · intro dep he
    -- the predecessors were visited before and are not visited again
    have hdep := hp.topological.producer_mem hsplit he
    have hnot : dep ∉ id :: later := fun hmem => hdisj dep hdep dep hmem rfl
    simp only [List.mem_cons, not_or] at hnot
    rw [hfinal, get?_visits_of_notMem hnot.2, get?_visit_of_ne hnot.1]

end Workflow
