import Mathlib.Data.List.Nodup
import Workflow.Manifest.Basic

/-!
# Nodes by their ids

Nodes are looked up by id. While no id is used twice, the lookup finds every node.
-/
namespace Workflow

theorem find?_key_eq {α : Type} {key : α → String} {items : List α} (h : (items.map key).Nodup)
    {a : α} (ha : a ∈ items) : items.find? (fun x => key x = key a) = some a := by
  have hsome : (items.find? fun x => key x = key a).isSome = true :=
    List.find?_isSome.mpr ⟨a, ha, decide_eq_true rfl⟩
  obtain ⟨x, hx⟩ := Option.isSome_iff_exists.mp hsome
  have hkey : key x = key a := of_decide_eq_true (List.find?_some hx :)
  rw [hx, List.inj_on_of_nodup_map h (List.mem_of_find?_eq_some hx) ha hkey]

namespace Manifest
variable {m : Manifest} {id : String} {n : ManifestNode}

theorem mem_of_node? (h : m.node? id = some n) : n ∈ m.nodes ∧ n.id = id := by
  refine ⟨List.mem_of_find?_eq_some h, ?_⟩
  simpa using List.find?_some h

theorem exists_node? (h : id ∈ m.nodes.map (·.id)) : ∃ n, m.node? id = some n := by
  obtain ⟨n, hn, rfl⟩ := List.mem_map.mp h
  refine Option.isSome_iff_exists.mp (List.find?_isSome.mpr ⟨n, hn, by simp⟩)

theorem node?_of_mem (hids : (m.nodes.map (·.id)).Nodup) (hn : n ∈ m.nodes) :
    m.node? n.id = some n :=
  find?_key_eq hids hn

end Manifest
end Workflow
