import Mathlib.Data.List.Count
import Workflow.Proofs.Graph.Parents
import Workflow.Proofs.Graph.Reach

/-!
# Finding cycles

A cycle is found exactly if there is one. A node on a cycle lies in a cyclic component, the last
node of a component to be left behind shows that component to the search, and a breadth-first search
in a cyclic component cannot end without a way back to its start.
-/
namespace Workflow.TaskGraph
variable {g : TaskGraph}

/-! ## The leaving order -/

/-- What a visit does to the nodes entered and left: both lists grow, and whatever has been entered
by the end was entered before or has been left. -/
structure Visited (before after : List String × List String) : Prop where
  entered : before.1 ⊆ after.1
  left : before.2 ⊆ after.2
  settled : ∀ x ∈ after.1, x ∈ before.1 ∨ x ∈ after.2

theorem Visited.refl (s : List String × List String) : Visited s s :=
  ⟨fun _ h => h, fun _ h => h, fun _ h => .inl h⟩

theorem Visited.trans {r s t : List String × List String} (h : Visited r s) (h' : Visited s t) :
    Visited r t where
  entered := fun _ hx => h'.entered (h.entered hx)
  left := fun _ hx => h'.left (h.left hx)
  settled x hx := by
    rcases h'.settled x hx with hs | ht
    · exact (h.settled x hs).imp_right (fun hl => h'.left hl)
    · exact .inr ht

theorem visit_zero (id : String) (s : List String × List String) : g.visit 0 id s = s := by
  simp [visit]

theorem visit_succ (fuel : Nat) (id : String) (s : List String × List String) :
    g.visit (fuel + 1) id s =
      if s.1.contains id then s
      else
        let t := g.visitAll fuel (g.successors id) (id :: s.1, s.2)
        (t.1, id :: t.2) := by
  obtain ⟨entered, left⟩ := s
  rw [visit]

theorem visited_visit_and_visitAll (fuel : Nat) :
    (∀ id s, Visited s (g.visit fuel id s)) ∧ ∀ ids s, Visited s (g.visitAll fuel ids s) := by
  induction fuel with
  | zero =>
    refine ⟨fun id s => ?_, fun ids s => ?_⟩
    · rw [visit_zero]
      exact .refl s
    · rw [visitAll]
      exact .refl s
  | succ fuel ih =>
    refine ⟨fun id s => ?_, fun ids s => ?_⟩
    · rw [visit_succ]
      split_ifs with h
      · exact .refl s
      · have hall := ih.2 (g.successors id) (id :: s.1, s.2)
        refine ⟨fun x hx => hall.entered (List.mem_cons_of_mem _ hx),
          fun x hx => List.mem_cons_of_mem _ (hall.left hx), fun x hx => ?_⟩
        rcases hall.settled x hx with hx | hx
        · rcases List.mem_cons.mp hx with rfl | hx
          · exact .inr List.mem_cons_self
          · exact .inl hx
        · exact .inr (List.mem_cons_of_mem _ hx)
    · cases ids with
      | nil => exact .refl s
      | cons id ids =>
        rw [visitAll]
        exact (ih.1 id s).trans (ih.2 ids _)

theorem mem_entered_visit (fuel : Nat) (id : String) (s : List String × List String) :
    id ∈ (g.visit (fuel + 1) id s).1 := by
  rw [visit_succ]
  split_ifs with h
  · simpa using h
  · exact (visited_visit_and_visitAll fuel).2 (g.successors id) _ |>.entered List.mem_cons_self

theorem mem_leavingOrder {x : String} (hx : x ∈ g.nodes) : x ∈ g.leavingOrder := by
  have aux (fuel : Nat) (ids : List String) (s : List String × List String)
      (hs : ∀ x ∈ s.1, x ∈ s.2) :
      ∀ x, x ∈ ids ∨ x ∈ s.2 →
        x ∈ (ids.foldl (fun s id => g.visit (fuel + 1) id s) s).2 := by
    induction ids generalizing s with
    | nil => simp
    | cons id ids ih =>
      have hv : Visited s (g.visit (fuel + 1) id s) := (visited_visit_and_visitAll _).1 id s
      have hs' : ∀ x ∈ (g.visit (fuel + 1) id s).1, x ∈ (g.visit (fuel + 1) id s).2 :=
        fun x hx => (hv.settled x hx).elim (fun h => hv.left (hs x h)) fun h => h
      intro x hx
      refine ih _ hs' x ?_
      rcases hx with hx | hx
      · rcases List.mem_cons.mp hx with rfl | hx
        · exact .inr (hs' _ (mem_entered_visit fuel _ s))
        · exact .inl hx
      · exact .inr (hv.left hx)
  unfold leavingOrder
  exact List.mem_reverse.mpr (aux _ g.nodes ([], []) (by simp) x (.inl hx))

/-! ## Components -/

theorem mem_component {id x : String} : x ∈ g.component id ↔ g.Way id x ∧ g.Way x id := by
  simp [component, mem_reachable]

theorem nodup_component (id : String) : (g.component id).Nodup :=
  (nodup_reachable id).filter _

theorem transGen_of_ways {a b : String} (hne : a ≠ b) (h : g.Way a b) (h' : g.Way b a) :
    Relation.TransGen g.Edge a a := by
  rcases Relation.reflTransGen_iff_eq_or_transGen.mp h with heq | ht
  · exact absurd heq.symm hne
  · exact ht.trans_left h'

/-- A component is cyclic exactly if a cycle goes through one of its nodes. -/
theorem isCyclicComponent_iff {id : String} :
    g.isCyclicComponent (g.component id) = true ↔
      ∃ x ∈ g.component id, Relation.TransGen g.Edge x x := by
  simp only [isCyclicComponent, Bool.or_eq_true, decide_eq_true_eq, List.any_eq_true, hasEdge_iff]
  constructor
  · rintro (hlen | ⟨x, hx, he⟩)
    -- two members reach each other
    · obtain ⟨x, y, hx, hy, hne⟩ : ∃ x y, x ∈ g.component id ∧ y ∈ g.component id ∧ x ≠ y := by
        have hnd := nodup_component (g := g) id
        match hc : g.component id with
        | [] => simp [hc] at hlen
        | [_] => simp [hc] at hlen
        | x :: y :: rest =>
          rw [hc] at hnd
          exact ⟨x, y, by simp, by simp, fun h => (List.nodup_cons.mp hnd).1 (by simp [h])⟩
      have hx' := mem_component.mp hx
      have hy' := mem_component.mp hy
      exact ⟨x, hx, transGen_of_ways hne (hx'.2.trans hy'.1) (hy'.2.trans hx'.1)⟩
    · exact ⟨x, hx, .single he⟩
  · rintro ⟨x, hx, ht⟩
    obtain ⟨y, he, hw⟩ := Relation.TransGen.head'_iff.mp ht
    -- the cycle is an edge from the node to itself, or its next node is a second member
    by_cases hxy : x = y
    · subst hxy
      exact .inr ⟨x, hx, he⟩
    · left
      have hx' := mem_component.mp hx
      have hy : y ∈ g.component id :=
        mem_component.mpr ⟨hx'.1.tail he, hw.trans hx'.2⟩
      by_contra hlen
      match hc : g.component id with
      | [] => simp [hc] at hx
      | [z] =>
        rw [hc] at hx hy
        exact hxy ((List.mem_singleton.mp hx).trans (List.mem_singleton.mp hy).symm)
      | _ :: _ :: _ => simp [hc] at hlen

theorem mem_component_of_mem {a b x : String} (hb : b ∈ g.component a) :
    x ∈ g.component b ↔ x ∈ g.component a := by
  have hab := mem_component.mp hb
  simp only [mem_component]
  exact ⟨fun h => ⟨hab.1.trans h.1, h.2.trans hab.2⟩, fun h => ⟨hab.2.trans h.1, h.2.trans hab.1⟩⟩

theorem mem_component_self (id : String) : id ∈ g.component id :=
  mem_component.mpr ⟨.refl, .refl⟩

/-! ## The search for a cyclic component -/

theorem search_eq_some {left ids members : List String}
    (h : cyclicComponent?.search g left ids = some members) :
    ∃ id ∈ ids, members = g.component id ∧ g.isCyclicComponent members = true := by
  induction ids generalizing left with
  | nil => simp [cyclicComponent?.search] at h
  | cons id ids ih =>
    simp only [cyclicComponent?.search] at h
    split_ifs at h with hc
    · rw [Bool.and_eq_true] at hc
      cases h
      exact ⟨id, List.mem_cons_self, rfl, hc.2⟩
    · obtain ⟨other, hmem, hcomp⟩ := ih h
      exact ⟨other, List.mem_cons_of_mem _ hmem, hcomp⟩

/-- A search without a result has seen no cyclic component whose nodes had all been left. -/
theorem search_eq_none {left earlier later : List String} {id : String}
    (h : cyclicComponent?.search g left (earlier ++ id :: later) = none)
    (hall : ∀ x ∈ g.component id, x ∈ id :: (earlier ++ left)) :
    g.isCyclicComponent (g.component id) = false := by
  induction earlier generalizing left with
  | nil =>
    simp only [List.nil_append, cyclicComponent?.search] at h
    split_ifs at h with hc
    by_contra hcyc
    refine hc (Bool.and_eq_true_iff.mpr ⟨List.all_eq_true.mpr fun x hx => ?_, by simpa using hcyc⟩)
    simpa using hall x hx
  | cons first earlier ih =>
    simp only [List.cons_append, cyclicComponent?.search] at h
    split_ifs at h with hc
    refine ih h fun x hx => ?_
    have := hall x hx
    simp only [List.mem_cons, List.mem_append, List.cons_append] at this ⊢
    tauto

theorem exists_last_mem {p : String → Prop} {ids : List String} (h : ∃ x ∈ ids, p x) :
    ∃ earlier x later, ids = earlier ++ x :: later ∧ p x ∧ ∀ y ∈ later, ¬ p y := by
  induction ids with
  | nil => simp at h
  | cons id ids ih =>
    by_cases hrest : ∃ x ∈ ids, p x
    · obtain ⟨earlier, x, later, rfl, hx, hlater⟩ := ih hrest
      exact ⟨id :: earlier, x, later, rfl, hx, hlater⟩
    · obtain ⟨x, hx, hp⟩ := h
      rcases List.mem_cons.mp hx with rfl | hx
      · exact ⟨[], x, ids, rfl, hp, fun y hy hpy => hrest ⟨y, hy, hpy⟩⟩
      · exact absurd ⟨x, hx, hp⟩ hrest

theorem mem_nodes_of_mem_component (hg : g.WellFormed) {id x : String} (hid : id ∈ g.nodes)
    (hx : x ∈ g.component id) : x ∈ g.nodes := by
  rcases Relation.ReflTransGen.cases_tail (mem_component.mp hx).1 with rfl | ⟨_, -, he⟩
  · exact hid
  · exact hg.target_mem he

theorem cyclicComponent?_eq_none_iff (hg : g.WellFormed) :
    g.cyclicComponent? = none ↔ g.Acyclic := by
  constructor
  · intro hnone v ht
    obtain ⟨w, he, -⟩ := Relation.TransGen.head'_iff.mp ht
    have hv : v ∈ g.nodes := hg.source_mem he
    have hleft : ∀ x ∈ g.component v, x ∈ g.leavingOrder :=
      fun x hx => mem_leavingOrder (mem_nodes_of_mem_component hg hv hx)
    -- The last node of the component to be left sees all the others left.
    obtain ⟨earlier, u, later, hsplit, hu, hlater⟩ :=
      exists_last_mem ⟨v, hleft v (mem_component_self v), mem_component_self (g := g) v⟩
    rw [cyclicComponent?, hsplit] at hnone
    have hcyc := search_eq_none hnone fun x hx => by
      have hxv := (mem_component_of_mem hu).mp hx
      have hmem := hsplit ▸ hleft x hxv
      have hnot : x ∉ later := fun h => hlater x h hxv
      simp only [List.mem_append, List.mem_cons] at hmem ⊢
      tauto
    have hvu : v ∈ g.component u := (mem_component_of_mem hu).mpr (mem_component_self v)
    exact absurd (isCyclicComponent_iff.mpr ⟨v, hvu, ht⟩) (by simp [hcyc])
  · intro hac
    cases hc : g.cyclicComponent? with
    | none => rfl
    | some members =>
      obtain ⟨id, -, rfl, hcyc⟩ := search_eq_some hc
      obtain ⟨x, -, ht⟩ := isCyclicComponent_iff.mp hcyc
      exact absurd ht (hac x)

/-! ## The way back -/

/-- From `x` no edge leads to the start, and every edge within the component leads to a node that
has joined the queue. -/
def Expanded (g : TaskGraph) (members : List String) (start : String) (seen : List String)
    (x : String) : Prop :=
  ∀ y, g.Edge x y → y ∈ members → y ≠ start ∧ y ∈ seen

theorem Expanded.mono {members seen seen' : List String} {start x : String} (hsub : seen ⊆ seen')
    (h : g.Expanded members start seen x) : g.Expanded members start seen' x :=
  fun y he hy => ⟨(h y he hy).1, hsub (h y he hy).2⟩

/-- The nodes that join the queue are so many fewer nodes to be seen later. -/
theorem unseenNodes_fresh (ids seen : List String) :
    g.unseenNodes seen =
      g.unseenNodes (seen ++ (g.inNodeOrder ids).filter fun x => ¬ seen.contains x) +
        ((g.inNodeOrder ids).filter fun x => ¬ seen.contains x).length := by
  have hsplit := List.countP_eq_countP_filter_add g.nodes (fun x => decide (x ∉ seen))
    (fun x => ids.contains x)
  have hlen : ((g.inNodeOrder ids).filter fun x => ¬ seen.contains x).length =
      (g.nodes.filter fun x => ids.contains x).countP fun x => decide (x ∉ seen) := by
    rw [List.countP_eq_length_filter, inNodeOrder]
    congr 2
    funext x
    simp
  have hrest : g.unseenNodes (seen ++ (g.inNodeOrder ids).filter fun x => ¬ seen.contains x) =
      (g.nodes.filter fun x => !ids.contains x).countP fun x => decide (x ∉ seen) := by
    rw [unseenNodes, List.countP_filter]
    refine List.countP_congr fun x hx => ?_
    simp only [List.mem_append, List.mem_filter, mem_inNodeOrder, List.contains_iff_mem,
      decide_eq_true_eq, Bool.and_eq_true, Bool.not_eq_true']
    by_cases hs : x ∈ seen <;> by_cases hi : x ∈ ids <;> simp [hs, hi, hx]
  rw [unseenNodes, hsplit, hlen, hrest]
  omega

/-- The start and what has been seen stand at the head of a queued way or have been expanded. -/
def Queued (g : TaskGraph) (members : List String) (start : String) (seen : List String)
    (queue : List (List String)) : Prop :=
  ∀ x, x = start ∨ x ∈ seen → x ∈ queue.map (·.headD start) ∨ g.Expanded members start seen x

theorem expanded_fresh {members next seen : List String} {start x : String}
    (hnext : ∀ y, y ∈ next ↔ g.Edge x y ∧ y ∈ members) (hstart : start ∉ next) :
    g.Expanded members start (seen ++ next.filter fun id => ¬ seen.contains id) x := by
  intro y he hy
  have hy' := (hnext y).mpr ⟨he, hy⟩
  refine ⟨fun h => hstart (h ▸ hy'), ?_⟩
  by_cases hs : y ∈ seen
  · exact List.mem_append_left _ hs
  · exact List.mem_append_right _ (List.mem_filter.mpr ⟨hy', by simpa using hs⟩)

theorem Queued.round {members seen fresh way : List String} {start : String}
    {queue : List (List String)} (h : g.Queued members start seen (way :: queue))
    (hexpanded : g.Expanded members start (seen ++ fresh) (way.headD start)) :
    g.Queued members start (seen ++ fresh) (queue ++ fresh.map fun id => id :: way) := by
  intro x hx
  rw [List.map_append, List.mem_append]
  by_cases hfresh : x ∈ fresh
  · exact .inl (.inr (by simpa [List.map_map, Function.comp_def] using hfresh))
  · have hold : x = start ∨ x ∈ seen :=
      hx.imp_right fun h => (List.mem_append.mp h).resolve_right hfresh
    rcases h x hold with hq | he
    · rcases List.mem_cons.mp hq with rfl | hq
      · exact .inr hexpanded
      · exact .inl (.inl hq)
    · exact .inr (he.mono (List.subset_append_left _ _))

/-- A breadth-first search without a result has expanded everything that it has seen. -/
theorem expanded_of_firstWay?_eq_none (hg : g.WellFormed) {members : List String} {start : String}
    {fuel : Nat} {seen : List String} {queue : List (List String)}
    (hfuel : queue.length + g.unseenNodes seen ≤ fuel)
    (hqueued : g.Queued members start seen queue)
    (hnone : g.firstWay? members start fuel seen queue = none) :
    ∃ seen', ∀ x, x = start ∨ x ∈ seen' → g.Expanded members start seen' x := by
  induction fuel generalizing seen queue with
  | zero =>
    have hnil : queue = [] := List.length_eq_zero_iff.mp (by omega)
    subst hnil
    exact ⟨seen, fun x hx => (hqueued x hx).resolve_left (by simp)⟩
  | succ fuel ih =>
    cases queue with
    | nil => exact ⟨seen, fun x hx => (hqueued x hx).resolve_left (by simp)⟩
    | cons way queue =>
      rw [firstWay?] at hnone
      set here := way.headD start with hhere
      set next := g.inNodeOrder ((g.successors here).filter members.contains) with hnext
      set fresh := next.filter fun id => ¬ seen.contains id with hfresh
      have hmem (y : String) : y ∈ next ↔ g.Edge here y ∧ y ∈ members := mem_inner_successors hg
      simp only at hnone
      split_ifs at hnone with hback
      have hstart : start ∉ next := by simpa using hback
      have hround := hqueued.round (expanded_fresh hmem hstart)
      rw [← hfresh] at hround
      -- for every node that joins the queue there is one fewer to be seen
      refine ih ?_ hround hnone
      have hcount := g.unseenNodes_fresh ((g.successors here).filter members.contains) seen
      rw [← hnext, ← hfresh] at hcount
      simp only [List.length_append, List.length_map, List.length_cons] at hfuel ⊢
      omega

/-- In a component with a cycle through the start the breadth-first search finds a way back. -/
theorem wayBack?_ne_none (hg : g.WellFormed) {start : String} {members : List String}
    (hmembers : ∀ x, x ∈ members ↔ x ∈ g.component start)
    (ht : Relation.TransGen g.Edge start start) :
    g.wayBack? members start (g.nodes.length + 1) .empty [start] ≠ none := by
  obtain ⟨_, he, -⟩ := Relation.TransGen.head'_iff.mp ht
  rw [wayBack?_eq_firstWay? hg (hg.source_mem he)]
  intro hnone
  obtain ⟨seen, hexp⟩ := expanded_of_firstWay?_eq_none hg
    (by
      have := g.unseenNodes_le []
      simp only [List.length_singleton]
      omega)
    (fun x hx => .inl (by simpa using hx)) hnone
  -- Everything on a way from the start and back has been seen and is not the start.
  have key : ∀ z, Relation.TransGen g.Edge start z → g.Way z start → z ≠ start ∧ z ∈ seen := by
    intro z hz
    induction hz with
    | single he =>
      intro hw
      exact hexp start (.inl rfl) _ he
        ((hmembers _).mpr (mem_component.mpr ⟨.single he, hw⟩))
    | tail hy he ih =>
      intro hw
      have hseen := (ih (.head he hw)).2
      exact hexp _ (.inr hseen) _ he
        ((hmembers _).mpr (mem_component.mpr ⟨(hy.tail he).to_reflTransGen, hw⟩))
  exact (key start ht .refl).1 rfl

/-! ## The result -/

theorem findCycle_eq_none_iff (hg : g.WellFormed) : g.findCycle = none ↔ g.Acyclic := by
  rw [← cyclicComponent?_eq_none_iff hg]
  constructor
  · intro hnone
    cases hc : g.cyclicComponent? with
    | none => rfl
    | some members =>
      exfalso
      obtain ⟨id, -, hmem, hcyc⟩ := search_eq_some hc
      obtain ⟨x, hx, ht⟩ := isCyclicComponent_iff.mp (hmem ▸ hcyc)
      obtain ⟨_, he, -⟩ := Relation.TransGen.head'_iff.mp ht
      simp only [findCycle, hc] at hnone
      cases ho : g.inNodeOrder members with
      | nil =>
        have : x ∈ g.inNodeOrder members := mem_inNodeOrder.mpr ⟨hg.source_mem he, hmem ▸ hx⟩
        simp [ho] at this
      | cons start rest =>
        have hstart : start ∈ g.component id := by
          have : start ∈ g.inNodeOrder members := by simp [ho]
          exact hmem ▸ (mem_inNodeOrder.mp this).2
        have hsx := mem_component.mp ((mem_component_of_mem hstart).mpr hx)
        have hcycle : Relation.TransGen g.Edge start start :=
          (Relation.TransGen.trans_right hsx.1 ht).trans_left hsx.2
        simp only [ho] at hnone
        split_ifs at hnone
        refine wayBack?_ne_none hg (fun x => ?_) hcycle hnone
        rw [hmem, mem_component_of_mem hstart]
  · intro hnone
    simp [findCycle, hnone]

theorem validateAcyclic_eq_ok_iff (hg : g.WellFormed) :
    g.validateAcyclic = .ok () ↔ g.Acyclic := by
  rw [← findCycle_eq_none_iff hg, validateAcyclic]
  cases g.findCycle <;> simp

end Workflow.TaskGraph
