import Workflow.Proofs.Manifest.Checked
import Workflow.Proofs.Schedule.History
import Workflow.Proofs.Schedule.Typing

/-!
# Values reach those they are meant for

An input that is bound to an output gets what the body of the producer returned for it in the same
run, coerced to the type of the output and to that of the input. This needs a checked manifest whose
outputs are stored where their readers look for them; without the second condition a reader may get
nothing or the value of another node.
-/
namespace Workflow
variable {p : Plan} {bodies : Bodies} {params supplied : Dict Scalar} {id : String}
  {n : ManifestNode}

/-- Every declared parameter has a value from the beginning on. -/
theorem exists_seed {m : Manifest} (hbind : bindParameters m.parameters supplied = .ok params)
    {name : String} (hname : name ∈ m.parameters.map (·.name)) :
    ∃ v, (seedArtifacts m params).get? (.param name) = some v := by
  obtain ⟨spec, hspec, rfl, s, s', hcoerce, hbound⟩ := exists_bound_of_bindParameters hbind hname
  obtain ⟨w, hseed, -⟩ := exists_seed?_of_bound hcoerce hbound
  rw [get?_seedArtifacts, ← Option.isSome_iff_exists, List.findSome?_isSome_iff]
  exact ⟨spec, hspec, by simp [hseed]⟩

namespace Drive
variable {d : Drive} {log : List (Nat × Ending)}

/-! ## Outputs in the store -/

/-- What is stored as an output of a node has been returned by its body. -/
theorem Reachable.returned_of_stored (h : Reachable p bodies params d) (hm : p.manifest.Coherent)
    {task result : String} {k : ManifestNode} (hk : p.manifest.node? task = some k) {v : Value}
    (hv : d.artifacts.get? (.output task result) = some v) :
    ∃ j ∈ d.invocations, j.context.node = task ∧ ∃ outputs, bodies j (.returned outputs) ∧
      ∃ o ∈ k.outputs, o.name = result ∧
        ∃ u, outputs.get? result = some u ∧ o.dataType.coerce u = .ok v := by
  rw [(h.stored hm).output hk result] at hv
  obtain ⟨verdict, hverdict, hvalue⟩ := Option.bind_eq_some_iff.mp hv
  obtain ⟨s, hs, rfl⟩ := Option.map_eq_some_iff.mp hverdict
  have hst : s.status = .succeeded := by
    by_contra hne
    rw [NodeState.verdict, h.ledger.unfinished hs hne] at hvalue
    cases hvalue
  obtain ⟨j, hj, hnode, ending, hends, hresults⟩ := h.made task k s hk hs hst
  have hdeclared : result ∈ k.outputs.map (·.name) := by
    by_contra hnot
    rw [NodeState.verdict, get?_results_of_notMem hresults hnot] at hvalue
    cases hvalue
  obtain ⟨o, ho, rfl⟩ := List.mem_map.mp hdeclared
  obtain ⟨outputs, rfl, hchecked⟩ := returned_of_results hresults
  obtain ⟨-, hall, -⟩ := checkOutputs_spec hchecked
  obtain ⟨u, w, hu, hcoerce, hw⟩ := hall o ho
  obtain rfl : w = v := Option.some.inj (hw.symm.trans hvalue)
  exact ⟨j, hj, hnode, outputs, hends, o, ho, rfl, u, hu, hcoerce⟩

/-- A node that has succeeded has stored all of its outputs. -/
theorem Reachable.stored_of_succeeded (h : Reachable p bodies params d) (hm : p.manifest.Coherent)
    {task result : String} {k : ManifestNode} (hk : p.manifest.node? task = some k)
    (hsucceeded : d.table.status? task = some .succeeded)
    (hresult : result ∈ k.outputs.map (·.name)) :
    ∃ v, d.artifacts.get? (.output task result) = some v := by
  obtain ⟨s, hs, hst⟩ := NodeTable.status?_eq_some_iff.mp hsucceeded
  obtain ⟨j, -, -, ending, -, hresults⟩ := h.made task k s hk hs hst
  obtain ⟨o, ho, rfl⟩ := List.mem_map.mp hresult
  obtain ⟨outputs, -, hchecked⟩ := returned_of_results hresults
  obtain ⟨-, hall, -⟩ := checkOutputs_spec hchecked
  obtain ⟨-, w, -, -, hw⟩ := hall o ho
  refine ⟨w, ((h.stored hm).output hk o.name).trans ?_⟩
  rw [verdict?, hs, Option.map_some, Option.bind_some]
  exact hw

/-- When the predecessors of a node have succeeded, each of its inputs has something to read. -/
theorem Reachable.exists_source (h : Reachable p bodies params d) (hp : p.Proper)
    (hchecked : p.manifest.Checked) (hcanonical : p.manifest.Canonical)
    (hbind : bindParameters p.manifest.parameters supplied = .ok params)
    (hn : p.manifest.node? id = some n) (hcleared : Cleared p d id) {i : NodeInput}
    (hi : i ∈ n.inputs) : ∃ v, inputSource? d.artifacts i = some v := by
  have hm := hchecked.coherent hcanonical
  obtain ⟨hmem, rfl⟩ := Manifest.mem_of_node? hn
  have hsupplied := hchecked.input n hmem i hi
  unfold Manifest.Supplied at hsupplied
  unfold inputSource?
  cases hbinding : i.binding with
  | none =>
    rw [hbinding] at hsupplied
    obtain ⟨s, hs⟩ := Option.isSome_iff_exists.mp hsupplied
    exact ⟨.scalar s, by simp [hs]⟩
  | some binding =>
    rw [hbinding] at hsupplied
    cases binding with
    | param name =>
      obtain ⟨v, hv⟩ := exists_seed hbind hsupplied
      exact ⟨v, ((h.stored hm).param name).trans hv⟩
    | output task result =>
      have hedge := hchecked.edge_of_provides hsupplied
      obtain ⟨k, hk, hresult, -⟩ := hsupplied
      exact h.stored_of_succeeded hm hk (hcleared task (hp.graph_eq ▸ hedge)) hresult
    | literal value => exact ⟨.scalar value, rfl⟩

/-! ## From body to body -/

/-- In every run of a checked manifest whose outputs are stored where they are looked for: no task is
joined twice; every body that was started got, for an input that is bound to an output, what the
body of the producer returned for this output, coerced to the declared types, unless a later input
has the same name; and no ready node lacks a value of an input. -/
theorem Logged.inputs_returned (hvalid : p.manifest.validate = .ok ())
    (hcanonical : p.manifest.Canonical) (hp : p.Proper)
    (hbind : bindParameters p.manifest.parameters supplied = .ok params)
    (h : Logged p bodies params log d) :
    (log.map (·.1)).Nodup ∧
    (∀ i ∈ d.invocations, ∀ n before k after task result,
      p.manifest.node? i.context.node = some n → n.inputs = before ++ k :: after →
      k.name ∉ after.map (·.name) → k.binding = some (.output task result) →
      ∃ j ∈ d.invocations, j.context.node = task ∧ ∃ outputs, (j.task, .returned outputs) ∈ log ∧
        ∃ producer, p.manifest.node? task = some producer ∧ ∃ o ∈ producer.outputs,
          o.name = result ∧ ∃ u v w, outputs.get? result = some u ∧ o.dataType.coerce u = .ok v ∧
            k.dataType.coerce v = .ok w ∧ i.context.inputs.get? k.name = some w) ∧
    ∀ id n input, d.table.status? id = some .ready → p.manifest.node? id = some n →
      prepare p n d.artifacts ≠ .error (.unresolvedInput input) := by
  have hchecked := Manifest.validate_eq_ok_iff.mp hvalid
  have hm := hchecked.coherent hcanonical
  have hr := h.reachable
  refine ⟨h.joined.1, ?_, ?_⟩
  · intro i hi n before k after task result hn hinputs hlast hbinding
    obtain ⟨n', hn', hresolved⟩ := hr.received i hi
    cases hn.symm.trans hn'
    rw [hinputs] at hresolved
    obtain ⟨w, hw, hget⟩ := get?_resolveInputs hresolved hlast
    have hsupplied := hchecked.input n (Manifest.mem_of_node? hn).1 k (by simp [hinputs])
    rw [Manifest.Supplied, hbinding] at hsupplied
    obtain ⟨producer, hproducer, -⟩ := hsupplied
    obtain ⟨v, hv, hw'⟩ := resolveInput_eq_ok_iff.mp hw
    simp only [inputSource?, hbinding] at hv
    -- the store has the value from the ending of the producer, and from nowhere else
    obtain ⟨j, hj, hnode, outputs, ⟨-, hlog⟩, o, ho, hname, u, hu, hcoerce⟩ :=
      hr.returned_of_stored hm hproducer hv
    exact ⟨j, hj, hnode, outputs, hlog, producer, hproducer, o, ho, hname, u, v, w, hu, hcoerce,
      hw', hget⟩
  · intro id n input hready hn hfault
    have hcleared := hr.admitted.cleared hn hready (by decide) (by decide)
    rcases prepare_error hfault with ⟨reason, he⟩ | ⟨i, hi, he⟩
    · cases he
    -- the predecessors of a ready node have succeeded, so that there is something to read
    · obtain ⟨v, hv⟩ := hr.exists_source hp hchecked hcanonical hbind hn hcleared hi
      simp only [resolveInput, hv] at he
      split at he <;> cases he

/-- Three nodes in a row, of which the third reads the second. The output of the first one is stored
under its own id, or has strayed to that of the second. -/
def handover (strayed : Bool) : Plan where
  manifest := ⟨manifestVersion, ⟨"handover", none⟩, [],
    [⟨"a", "a", "first", [], [⟨"out", .int, .output (if strayed then "b" else "a") "out"⟩], .empty,
        .always, .registered "first"⟩,
      ⟨"b", "b", "second", [], [⟨"out", .int, .output "b" "out"⟩], .empty, .always,
        .registered "second"⟩,
      ⟨"c", "c", "third", [⟨"x", .int, some (.output "b" "out"), none⟩], [], .empty, .always,
        .registered "third"⟩], [("a", "b"), ("b", "c")]⟩
  graph := ⟨["a", "b", "c"], [("a", "b"), ("b", "c")]⟩
  order := ["a", "b", "c"]
  run := "r"
  workers := 1
  resolveBody := fun _ _ => .ok ()
  location := fun _ _ => ""

/-- A node is decided and started. -/
def handoverTurn (strayed : Bool) (d : Drive) (id : String) : Drive :=
  startNode (handover strayed) ⟨0, 0⟩ (resolveNode (handover strayed) ⟨0, 0⟩ d id) id

/-- A body returns a number. -/
def handoverEnd (number : Int64) : Ending :=
  .returned (Dict.empty.insert "out" (.scalar (.int number)))

/-- The first node has returned one. -/
def handoverFirst (strayed : Bool) : Drive :=
  (handoverTurn strayed (begin (handover strayed).manifest .empty) "a").finish (handover strayed)
    ⟨1, 0⟩ 0 (.ended (handoverEnd 1))

/-- The second node has returned two, and the third has been started. -/
def handoverDone (strayed : Bool) : Drive :=
  handoverTurn strayed ((handoverTurn strayed (handoverFirst strayed) "b").finish (handover strayed)
    ⟨2, 0⟩ 1 (.ended (handoverEnd 2))) "c"

theorem handover_logged (strayed : Bool) : Logged (handover strayed) (fun _ _ => True) .empty
    [(0, handoverEnd 1), (1, handoverEnd 2)] (handoverDone strayed) := by
  have hturn {log : List (Nat × Ending)} {d : Drive} {id : String}
      (h : Logged (handover strayed) (fun _ _ => True) .empty log d) (hid : id ∈ ["a", "b", "c"])
      (hactive : d.cancelling = false) :
      Logged (handover strayed) (fun _ _ => True) .empty log (handoverTurn strayed d id) :=
    (h.quiet (.resolve _ hid hactive)).quiet
      (.start _ hid ((Framed.cancelling false).resolveNode hactive _ id))
  have hfinish {log : List (Nat × Ending)} {d : Drive} {task : Nat} {id : String}
      (h : Logged (handover strayed) (fun _ _ => True) .empty log d) (now : Instant)
      (ending : Ending) (hentry : (task, id) ∈ d.running) :
      Logged (handover strayed) (fun _ _ => True) .empty (log ++ [(task, ending)])
        (d.finish (handover strayed) now task (.ended ending)) := by
    have hl := h.reachable.ledger
    obtain ⟨i, hi, hit, -⟩ := hl.invoked hentry
    exact h.finish now (hl.tasks_eq ▸ List.mem_map.mpr ⟨_, hentry, rfl⟩) hi hit trivial
  have hfirst : (0, "a") ∈
      (handoverTurn strayed (begin (handover strayed).manifest .empty) "a").running := by
    cases strayed <;> decide
  have hsecond : (1, "b") ∈ (handoverTurn strayed (handoverFirst strayed) "b").running := by
    cases strayed <;> decide
  have hone : Logged _ _ _ _ (handoverFirst strayed) :=
    hfinish (hturn .start (by decide) rfl) ⟨1, 0⟩ (handoverEnd 1) hfirst
  have htwo := hfinish (hturn hone (by decide) (by cases strayed <;> rfl)) ⟨2, 0⟩ (handoverEnd 2)
    hsecond
  exact hturn htwo (by decide) (by cases strayed <;> rfl)

/-- While every output stands in its place, the third node gets what the second has returned. -/
theorem handover_delivers : ∃ i ∈ (handoverDone false).invocations, i.context.node = "c" ∧
    ∃ j ∈ (handoverDone false).invocations, j.context.node = "b" ∧
      ∃ outputs u v w, (j.task, .returned outputs) ∈ [(0, handoverEnd 1), (1, handoverEnd 2)] ∧
        outputs.get? "out" = some u ∧ DataType.int.coerce v = .ok w ∧
        i.context.inputs.get? "x" = some w := by
  have hvalid : (handover false).manifest.validate = .ok () := rfl
  have hbind : bindParameters (handover false).manifest.parameters .empty = .ok .empty := rfl
  obtain ⟨-, hinputs, -⟩ :=
    (handover_logged false).inputs_returned hvalid (by decide) ⟨rfl, rfl⟩ hbind
  obtain ⟨i, hi, hnode⟩ : ∃ i ∈ (handoverDone false).invocations, i.context.node = "c" :=
    ⟨_, List.mem_cons_self, rfl⟩
  obtain ⟨n, hn, hreads⟩ : ∃ n, (handover false).manifest.node? i.context.node = some n ∧
      n.inputs = [] ++ ⟨"x", .int, some (.output "b" "out"), none⟩ :: [] := by
    rw [hnode]
    exact ⟨_, rfl, rfl⟩
  obtain ⟨j, hj, hjnode, outputs, hlog, -, -, o, -, -, u, v, w, hu, -, hcoerce, hw⟩ :=
    hinputs i hi n _ _ _ "b" "out" hn hreads (by decide) rfl
  exact ⟨i, hi, hnode, j, hj, hjnode, outputs, u, v, w, hlog, hu, hcoerce, hw⟩

/-- The check lets a manifest through in which the third node gets the number of the first one as the
output of the second. -/
theorem handover_strays : (handover true).manifest.validate = .ok () ∧ (handover true).Proper ∧
    bindParameters (handover true).manifest.parameters .empty = .ok .empty ∧
    Logged (handover true) (fun _ _ => True) .empty [(0, handoverEnd 1), (1, handoverEnd 2)]
      (handoverDone true) ∧
    ∃ i ∈ (handoverDone true).invocations, i.context.node = "c" ∧
      i.context.inputs.get? "x" = some (.scalar (.int 1)) ∧
      ∃ j ∈ (handoverDone true).invocations, j.context.node = "b" ∧ j.task = 1 :=
  ⟨rfl, ⟨rfl, rfl⟩, rfl, handover_logged true, _, .head _, rfl, rfl, _, .tail _ (.head _), rfl, rfl⟩

end Drive
end Workflow
