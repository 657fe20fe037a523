import Mathlib.Data.List.Cycle
import Workflow.Proofs.Graph.Cycle

/-!
# The cycle that is listed

A cycle is listed from the earliest node of its component on, and it is a shortest one through that
node. The search takes the ways off its queue level by level: the ways in the queue differ by one
node at most, and a node that is reached by fewer edges than the first way has nodes has been
expanded before.
-/
namespace Workflow.TaskGraph
variable {g : TaskGraph} {members seen : List String} {start : String}

/-! ## Closed walks -/

/-- Every node has an edge to the next, and the last to the first. -/
structure ClosedWalk (g : TaskGraph) (ids : List String) : Prop where
  ne_nil : ids ≠ []
  chain : (ids : Cycle String).Chain g.Edge

/-- A node is reached by a number of edges. -/
inductive Walk (g : TaskGraph) (a : String) : Nat → String → Prop
  | here : Walk g a 0 a
  | step {n : Nat} {x y : String} : Walk g a n x → g.Edge x y → Walk g a (n + 1) y

theorem Walk.way {a b : String} {n : Nat} (h : g.Walk a n b) : g.Way a b := by
  induction h with
  | here => exact .refl
  | step _ he ih => exact ih.tail he

theorem walk_of_isChain {a b : String} {ids : List String}
    (h : List.IsChain g.Edge (a :: (ids ++ [b]))) : g.Walk a (ids.length + 1) b := by
  induction ids using List.reverseRecOn generalizing b with
  | nil =>
    have he : g.Edge a b := by simpa using h
    exact .step .here he
  | append_singleton ids x ih =>
    rw [List.append_assoc] at h
    obtain ⟨hchain, he, -⟩ := List.isChain_cons_append_cons_cons.mp h
    rw [List.length_append, List.length_singleton]
    exact .step (ih hchain) he

/-- A closed walk through a node leads from it back to it, wherever the listing begins. -/
theorem ClosedWalk.walk {ids : List String} (h : g.ClosedWalk ids) {a : String} (ha : a ∈ ids) :
    g.Walk a ids.length a := by
  obtain ⟨before, after, rfl⟩ := List.append_of_mem ha
  have hrotated : ((before ++ a :: after : List String) : Cycle String) =
      (a :: (after ++ before) : List String) :=
    Cycle.coe_eq_coe.mpr List.isRotated_append
  have hchain := h.chain
  rw [hrotated, Cycle.chain_coe_cons] at hchain
  have hwalk := walk_of_isChain hchain
  rw [List.length_append] at hwalk ⊢
  rwa [List.length_cons, ← Nat.add_assoc, Nat.add_comm before.length]

/-! ## Ways in the queue -/

/-- A way from the start that meets no node twice, its last node first. -/
structure Route (g : TaskGraph) (start : String) (way : List String) : Prop where
  chain : List.IsChain (fun x y => g.Edge y x) way
  nodup : way.Nodup
  last : way.getLast? = some start

theorem Route.singleton (start : String) : g.Route start [start] :=
  ⟨.singleton _, List.nodup_singleton _, rfl⟩

theorem Route.cons {way : List String} (h : g.Route start way) {y : String} (hy : y ∉ way)
    (he : g.Edge (way.headD start) y) : g.Route start (y :: way) where
  chain := by
    cases way with
    | nil => exact .singleton _
    | cons x way => exact .cons_cons he h.chain
  nodup := List.nodup_cons.mpr ⟨hy, h.nodup⟩
  last := by
    rw [List.getLast?_cons, h.last]
    rfl

/-- An edge back to the start closes a way. -/
theorem Route.closedWalk {way : List String} (h : g.Route start way)
    (he : g.Edge (way.headD start) start) :
    ∃ rest, way.reverse = start :: rest ∧ g.ClosedWalk way.reverse := by
  have hhead : way.reverse.head? = some start := by rw [List.head?_reverse, h.last]
  obtain ⟨rest, hrest⟩ := List.head?_eq_some_iff.mp hhead
  refine ⟨rest, hrest, by simp [hrest], ?_⟩
  have hchain : List.IsChain g.Edge way.reverse := List.isChain_reverse.mpr h.chain
  rw [hrest, Cycle.chain_coe_cons, ← List.cons_append, ← hrest]
  refine List.isChain_append.mpr ⟨hchain, .singleton _, fun x hx y hy => ?_⟩
  rw [List.getLast?_reverse] at hx
  obtain rfl : start = y := by simpa using hy
  rw [List.headD_eq_head?_getD, Option.mem_def.mp hx] at he
  exact he

/-! ## Level by level -/

/-- The state of the breadth-first search. Ways are queued by their length, and the first of them
says how far the search has come. -/
structure Sweep (g : TaskGraph) (members : List String) (start : String) (seen : List String)
    (queue : List (List String)) : Prop where
  route : ∀ way ∈ queue, g.Route start way
  route_seen : ∀ way ∈ queue, ∀ x ∈ way, x = start ∨ x ∈ seen
  queued : g.Queued members start seen queue
  sorted : queue.Pairwise fun v w => v.length ≤ w.length
  level : ∀ v ∈ queue, ∀ w ∈ queue, w.length ≤ v.length + 1
  near : ∀ first ∈ queue.head?, ∀ {n y}, g.Walk start n y → y ∈ members → n < first.length →
    (∃ way ∈ queue, way.headD start = y ∧ way.length ≤ n + 1) ∨ g.Expanded members start seen y

theorem Sweep.initial : g.Sweep members start [] [[start]] where
  route way hway := List.mem_singleton.mp hway ▸ .singleton start
  route_seen way hway x hx := by
    obtain rfl := List.mem_singleton.mp hway
    exact .inl (List.mem_singleton.mp hx)
  queued x hx := .inl (by simpa using hx)
  sorted := List.pairwise_singleton _ _
  level v hv w hw := by
    rw [List.mem_singleton.mp hv, List.mem_singleton.mp hw]
    exact Nat.le_succ _
  near first hfirst n y hwalk hy hn := by
    obtain rfl : [start] = first := by simpa using hfirst
    obtain rfl : n = 0 := by simpa using hn
    cases hwalk
    exact .inl ⟨[start], List.mem_singleton_self _, rfl, Nat.le_refl _⟩

theorem length_first_le {queue : List (List String)}
    (h : queue.Pairwise fun v w => v.length ≤ w.length) {first way : List String}
    (hfirst : first ∈ queue.head?) (hway : way ∈ queue) : first.length ≤ way.length := by
  obtain ⟨rest, rfl⟩ := List.head?_eq_some_iff.mp hfirst
  rcases List.mem_cons.mp hway with rfl | hway
  · exact Nat.le_refl _
  · exact (List.pairwise_cons.mp h).1 way hway

/-- What is nearer than the first way's end or just as near has been expanded once the first way is
taken off, unless it ends another way in the queue. -/
theorem Sweep.near_cons {way : List String} {queue : List (List String)} {seen' : List String}
    (h : g.Sweep members start seen (way :: queue)) (hseen : seen ⊆ seen')
    (hexpanded : g.Expanded members start seen' (way.headD start)) {n : Nat} {y : String}
    (hwalk : g.Walk start n y) (hy : y ∈ members) (hn : n < way.length) :
    (∃ w ∈ queue, w.headD start = y ∧ w.length ≤ n + 1) ∨ g.Expanded members start seen' y := by
  rcases h.near way rfl hwalk hy hn with ⟨w, hw, rfl, hlen⟩ | hy
  · rcases List.mem_cons.mp hw with rfl | hw
    · exact .inr hexpanded
    · exact .inl ⟨w, hw, rfl, hlen⟩
  · exact .inr (hy.mono hseen)

/-- A node of the next level has been seen once the last way of this level is taken off, as the node
before it has been expanded. -/
theorem Sweep.seen_of_level (hmembers : ∀ x, x ∈ members ↔ x ∈ g.component start)
    {way : List String} {queue : List (List String)} {seen' : List String}
    (h : g.Sweep members start seen (way :: queue)) (hseen : seen ⊆ seen')
    (hexpanded : g.Expanded members start seen' (way.headD start))
    (hqueue : ∀ w ∈ queue, way.length < w.length) {y : String}
    (hwalk : g.Walk start way.length y) (hy : y ∈ members) : y ≠ start ∧ y ∈ seen' := by
  generalize hn : way.length = n at hwalk hqueue
  cases hwalk with
  | here =>
    obtain rfl := List.length_eq_zero_iff.mp hn
    simpa using (h.route [] List.mem_cons_self).last
  | @step n x _ hwalk he =>
    have hx : x ∈ members :=
      (hmembers x).mpr (mem_component.mpr
        ⟨hwalk.way, .head he (mem_component.mp ((hmembers y).mp hy)).2⟩)
    rcases h.near_cons hseen hexpanded hwalk hx (by omega) with ⟨w, hw, -, hlen⟩ | hbefore
    · exact absurd (hqueue w hw) (by omega)
    · exact hbefore y he hy

theorem Sweep.round (hmembers : ∀ x, x ∈ members ↔ x ∈ g.component start) {way : List String}
    {queue : List (List String)} {fresh : List String}
    (h : g.Sweep members start seen (way :: queue))
    (hexpanded : g.Expanded members start (seen ++ fresh) (way.headD start))
    (hfresh : ∀ y ∈ fresh, g.Edge (way.headD start) y ∧ y ≠ start ∧ y ∉ seen) :
    g.Sweep members start (seen ++ fresh) (queue ++ fresh.map (· :: way)) := by
  have hqueued := h.queued.round hexpanded
  have hway : way ∈ way :: queue := List.mem_cons_self
  -- What is queued now was queued behind `way` or lengthens it by one node.
  have hlength : ∀ w ∈ queue ++ fresh.map (· :: way),
      way.length ≤ w.length ∧ w.length ≤ way.length + 1 := by
    intro w hw
    rcases List.mem_append.mp hw with hw | hw
    · have hw := List.mem_cons_of_mem way hw
      exact ⟨length_first_le h.sorted rfl hw, h.level way hway w hw⟩
    · obtain ⟨y, -, rfl⟩ := List.mem_map.mp hw
      simp
  have hsorted : (queue ++ fresh.map (· :: way)).Pairwise fun v w => v.length ≤ w.length := by
    refine List.pairwise_append.mpr ⟨(List.pairwise_cons.mp h.sorted).2, ?_, fun v hv w hw => ?_⟩
    · exact List.pairwise_map.mpr (List.pairwise_of_forall fun _ _ => Nat.le_refl _)
    · obtain ⟨y, -, rfl⟩ := List.mem_map.mp hw
      exact h.level way hway v (List.mem_cons_of_mem _ hv)
  refine ⟨fun w hw => ?_, fun w hw x hx => ?_, hqueued, hsorted, fun v hv w hw => ?_, ?_⟩
  · rcases List.mem_append.mp hw with hw | hw
    · exact h.route w (List.mem_cons_of_mem _ hw)
    · obtain ⟨y, hy, rfl⟩ := List.mem_map.mp hw
      obtain ⟨he, hne, hnew⟩ := hfresh y hy
      refine (h.route way hway).cons (fun hmem => ?_) he
      exact (h.route_seen way hway y hmem).elim hne hnew
  · rw [List.mem_append]
    rcases List.mem_append.mp hw with hw | hw
    · have hx := h.route_seen w (List.mem_cons_of_mem _ hw) x hx
      exact hx.imp_right .inl
    · obtain ⟨y, hy, rfl⟩ := List.mem_map.mp hw
      rcases List.mem_cons.mp hx with rfl | hx
      · exact .inr (.inr hy)
      · exact (h.route_seen way hway x hx).imp_right .inl
  · exact (hlength w hw).2.trans (Nat.succ_le_succ (hlength v hv).1)
  · intro first hfirst n y hwalk hy hn
    have hlast : first.length ≤ way.length + 1 := (hlength first (List.mem_of_mem_head? hfirst)).2
    rcases Nat.lt_or_ge n way.length with hlt | hge
    · rcases h.near_cons (List.subset_append_left _ _) hexpanded hwalk hy hlt with
        ⟨w, hw, hhead, hlen⟩ | hy
      · exact .inl ⟨w, List.mem_append_left _ hw, hhead, hlen⟩
      · exact .inr hy
    · obtain rfl : n = way.length := by omega
      have hqueue : ∀ w ∈ queue, way.length < w.length := fun w hw =>
        hn.trans_le (length_first_le hsorted hfirst (List.mem_append_left _ hw))
      have hnew : y ∈ seen ++ fresh :=
        (h.seen_of_level hmembers (List.subset_append_left _ _) hexpanded hqueue hwalk hy).2
      refine (hqueued y (.inr hnew)).imp_left fun hmem => ?_
      obtain ⟨w, hw, hhead⟩ := List.mem_map.mp hmem
      exact ⟨w, hw, hhead, (hlength w hw).2⟩

/-- Where the first way can be closed, no walk from the start and back is shorter. -/
theorem Sweep.shortest {way : List String} {queue : List (List String)}
    (hmembers : ∀ x, x ∈ members ↔ x ∈ g.component start)
    (h : g.Sweep members start seen (way :: queue)) {n : Nat}
    (hwalk : g.Walk start (n + 1) start) : way.length ≤ n + 1 := by
  cases hwalk with
  | @step _ x _ hwalk he =>
    by_contra hlt
    have hx : x ∈ members :=
      (hmembers x).mpr (mem_component.mpr ⟨hwalk.way, .single he⟩)
    rcases h.near way rfl hwalk hx (by omega) with ⟨w, hw, -, hlen⟩ | hexpanded
    · have := length_first_le h.sorted rfl hw
      omega
    · exact (hexpanded start he ((hmembers start).mpr (mem_component_self start))).1 rfl

/-- The way back that is found closes a way from the start, and no closed walk through the start is
shorter. -/
theorem firstWay?_spec (hg : g.WellFormed)
    (hmembers : ∀ x, x ∈ members ↔ x ∈ g.component start) {fuel : Nat}
    {queue : List (List String)} (h : g.Sweep members start seen queue) {cycle : List String}
    (hfound : g.firstWay? members start fuel seen queue = some cycle) :
    ∃ rest, cycle = start :: rest ∧ cycle.Nodup ∧ g.ClosedWalk cycle ∧
      ∀ n, g.Walk start (n + 1) start → cycle.length ≤ n + 1 := by
  induction fuel generalizing seen queue with
  | zero => simp [firstWay?] at hfound
  | succ fuel ih =>
    cases queue with
    | nil => simp [firstWay?] at hfound
    | cons way queue =>
      rw [firstWay?] at hfound
      set here := way.headD start with hhere
      set next := g.inNodeOrder ((g.successors here).filter members.contains) with hnext
      have hmem (y : String) : y ∈ next ↔ g.Edge here y ∧ y ∈ members := mem_inner_successors hg
      simp only at hfound
      split_ifs at hfound with hback
      · cases hfound
        have hroute := h.route way List.mem_cons_self
        have he : g.Edge here start := ((hmem start).mp (by simpa using hback)).1
        obtain ⟨rest, hrest, hclosed⟩ := hroute.closedWalk he
        refine ⟨rest, hrest, List.nodup_reverse.mpr hroute.nodup, hclosed, fun n hwalk => ?_⟩
        rw [List.length_reverse]
        exact h.shortest hmembers hwalk
      · have hstart : start ∉ next := by simpa using hback
        refine ih (h.round hmembers (expanded_fresh hmem hstart) fun y hy => ?_) hfound
        obtain ⟨hy, hnew⟩ := List.mem_filter.mp hy
        exact ⟨((hmem y).mp hy).1, fun heq => hstart (heq ▸ hy), by simpa using hnew⟩

/-! ## The listing -/

theorem inNodeOrder_congr {ids ids' : List String} (h : ∀ x, x ∈ ids ↔ x ∈ ids') :
    g.inNodeOrder ids = g.inNodeOrder ids' := by
  unfold inNodeOrder
  congr 1
  funext x
  rw [Bool.eq_iff_iff, List.contains_iff_mem, List.contains_iff_mem, h]

theorem head?_inNodeOrder_mem {ids earlier : List String} (hearlier : earlier <+: g.nodes)
    (hstart : (g.inNodeOrder ids).head? = some start) {x : String} (hx : x ∈ earlier)
    (hids : x ∈ ids) : start ∈ earlier := by
  obtain ⟨later, hnodes⟩ := hearlier
  rw [inNodeOrder, ← hnodes, List.filter_append] at hstart
  have hlisted : x ∈ earlier.filter fun id => ids.contains id :=
    List.mem_filter.mpr ⟨hx, List.contains_iff_mem.mpr hids⟩
  rw [List.head?_append_of_ne_nil _ (List.ne_nil_of_mem hlisted)] at hstart
  exact (List.mem_filter.mp (List.mem_of_mem_head? hstart)).1

/-- The listing starts at the earliest node of a component and closes a shortest way through it. -/
theorem findCycle_spec (hg : g.WellFormed) {cycle : List String} (h : g.findCycle = some cycle) :
    ∃ start rest, cycle = start :: rest ∧ cycle.Nodup ∧ g.ClosedWalk cycle ∧
      (g.inNodeOrder (g.component start)).head? = some start ∧
      ∀ n, g.Walk start (n + 1) start → cycle.length ≤ n + 1 := by
  unfold findCycle at h
  cases hc : g.cyclicComponent? with
  | none => simp [hc] at h
  | some members =>
    obtain ⟨id, -, rfl, -⟩ := search_eq_some hc
    simp only [hc] at h
    cases ho : g.inNodeOrder (g.component id) with
    | nil => simp [ho] at h
    | cons start rest =>
      simp only [ho] at h
      have hstart : start ∈ g.component id := by
        have : start ∈ g.inNodeOrder (g.component id) := by simp [ho]
        exact (mem_inNodeOrder.mp this).2
      have hmembers : ∀ x, x ∈ g.component id ↔ x ∈ g.component start :=
        fun x => (mem_component_of_mem hstart).symm
      have hfirst : (g.inNodeOrder (g.component start)).head? = some start := by
        rw [← inNodeOrder_congr hmembers, ho, List.head?_cons]
      -- an edge from the start to itself is taken first; otherwise the search decides
      split_ifs at h with hloop
      · cases h
        refine ⟨start, [], rfl, List.nodup_singleton _, ⟨by simp, ?_⟩, hfirst, fun n _ => ?_⟩
        · exact (Cycle.chain_singleton _ _).mpr (hasEdge_iff.mp hloop)
        · simp
      · have hnode : start ∈ g.nodes :=
          (mem_inNodeOrder.mp (List.mem_of_mem_head? hfirst)).1
        rw [wayBack?_eq_firstWay? hg hnode] at h
        obtain ⟨rest, hrest, hnodup, hclosed, hshort⟩ := firstWay?_spec hg hmembers .initial h
        exact ⟨start, rest, hrest, hnodup, hclosed, hfirst, hshort⟩

/-- A graph that is built by any calls has no cycle exactly if none is listed. A listed cycle has
its nodes once, along edges and back to the first of them. Of the nodes that reach each other with
the first none was added before it, and no closed walk through it is shorter. -/
theorem findCycle_shortest (additions : List Addition) :
    let g := built additions
    (g.findCycle = none ↔ g.Acyclic) ∧
      ∀ cycle, g.findCycle = some cycle → ∃ start rest, cycle = start :: rest ∧ cycle.Nodup ∧
        g.ClosedWalk cycle ∧
        (∀ before after, additions = before ++ after → ∀ x ∈ (built before).nodes,
          g.Way start x → g.Way x start → start ∈ (built before).nodes) ∧
        ∀ other, g.ClosedWalk other → start ∈ other → cycle.length ≤ other.length := by
  intro g
  have hg : g.WellFormed := built_wellFormed additions
  refine ⟨findCycle_eq_none_iff hg, fun cycle hcycle => ?_⟩
  obtain ⟨start, rest, hcons, hnodup, hclosed, hfirst, hshort⟩ := findCycle_spec hg hcycle
  refine ⟨start, rest, hcons, hnodup, hclosed, ?_, fun other hother hmem => ?_⟩
  · rintro before after rfl x hx hto hback
    have hearlier : (built before).nodes <+: g.nodes := nodes_prefix_built before after
    exact head?_inNodeOrder_mem hearlier hfirst hx (mem_component.mpr ⟨hto, hback⟩)
  · have hwalk := hother.walk hmem
    obtain ⟨n, hn⟩ := Nat.exists_eq_add_one.mpr (List.length_pos_iff.mpr hother.ne_nil)
    rw [hn] at hwalk ⊢
    exact hshort n hwalk

/-- Of two cycles through the node that was added first the shorter one is listed. -/
example :
    (built [.node "root", .node "a", .node "b", .node "c", .edge "root" "b", .edge "b" "c",
      .edge "c" "a", .edge "a" "b", .edge "b" "a"]).findCycle = some ["a", "b"] := by
  decide

end Workflow.TaskGraph
