import Mathlib.Data.List.Induction
import Workflow.Graph.Order
import Workflow.Proofs.Graph.Shortest

/-!
# Topological order

The depth-first search with an explicit stack finishes every node once, and in a graph without
cycles it finishes a node only after all of its successors. Hence its finishing order reversed has
every producer before its consumers. In a graph with cycles no order has this property, and the
searches backwards along the order notice it.
-/
namespace Workflow.TaskGraph
variable {g : TaskGraph}

/-- Every node of the graph once, and producers before their consumers. -/
structure Topological (g : TaskGraph) (order : List String) : Prop where
  nodup : order.Nodup
  mem_iff : ∀ x, x ∈ order ↔ x ∈ g.nodes
  producer_mem : ∀ {earlier x later}, order = earlier ++ x :: later →
    ∀ {a}, g.Edge a x → a ∈ earlier

/-- What passes from all producers of a node to the node holds of every node in the order. -/
theorem Topological.induct {order : List String} (h : g.Topological order) {P : String → Prop}
    (hstep : ∀ x ∈ order, (∀ a, g.Edge a x → P a) → P x) : ∀ x ∈ order, P x := by
  suffices hprefix : ∀ earlier later, order = earlier ++ later → ∀ x ∈ earlier, P x from
    hprefix order [] (List.append_nil _).symm
  intro earlier
  induction earlier using List.reverseRecOn with
  | nil => exact fun _ _ x hx => nomatch hx
  | append_singleton earlier y ih =>
    intro later hsplit x hx
    have hsplit' : order = earlier ++ y :: later := by simpa using hsplit
    have hearlier := ih (y :: later) hsplit'
    rcases List.mem_append.mp hx with hx | hx
    · exact hearlier x hx
    · obtain rfl := List.mem_singleton.mp hx
      refine hstep x (by simp [hsplit']) fun a ha => ?_
      exact hearlier a (h.producer_mem hsplit' ha)

/-- From wherever a node is reached, that node stands before it. -/
theorem Topological.mem_of_transGen {order : List String} (h : g.Topological order) {a x : String}
    (hax : Relation.TransGen g.Edge a x) {earlier later : List String}
    (hsplit : order = earlier ++ x :: later) : a ∈ earlier := by
  induction hax generalizing earlier later with
  | single he => exact h.producer_mem hsplit he
  | @tail c x _ he ih =>
    obtain ⟨before, between, rfl⟩ := List.append_of_mem (h.producer_mem hsplit he)
    have hc : order = before ++ c :: (between ++ x :: later) := by simpa using hsplit
    exact List.mem_append_left _ (ih hc)

theorem Topological.acyclic (hg : g.WellFormed) {order : List String} (h : g.Topological order) :
    g.Acyclic := by
  intro x hx
  obtain ⟨y, he, -⟩ := Relation.TransGen.head'_iff.mp hx
  obtain ⟨earlier, later, hsplit⟩ := List.append_of_mem ((h.mem_iff x).mpr (hg.source_mem he))
  have hmem : x ∈ earlier := h.mem_of_transGen hx hsplit
  exact (List.nodup_append.mp (hsplit ▸ h.nodup)).2.2 x hmem x List.mem_cons_self rfl

theorem Topological.sublist_of_transGen (hg : g.WellFormed) {order : List String}
    (h : g.Topological order) {a x : String} (hax : Relation.TransGen g.Edge a x) :
    [a, x].Sublist order := by
  obtain ⟨y, -, he⟩ := Relation.TransGen.tail'_iff.mp hax
  obtain ⟨earlier, later, hsplit⟩ := List.append_of_mem ((h.mem_iff x).mpr (hg.target_mem he))
  have ha : [a].Sublist earlier := List.singleton_sublist.mpr (h.mem_of_transGen hax hsplit)
  have hx : [x].Sublist (x :: later) := List.singleton_sublist.mpr List.mem_cons_self
  exact hsplit ▸ ha.append hx

/-- The successors of every node in the list stand after it. -/
def SuccessorsFollow (g : TaskGraph) : List String → Prop
  | [] => True
  | x :: later => (∀ y, g.Edge x y → y ∈ later) ∧ SuccessorsFollow g later

theorem SuccessorsFollow.mem {order : List String} (h : g.SuccessorsFollow order)
    {earlier later : List String} {x y : String} (hsplit : order = earlier ++ x :: later)
    (he : g.Edge x y) : y ∈ later := by
  subst hsplit
  induction earlier with
  | nil => exact h.1 y he
  | cons _ _ ih => exact ih h.2

theorem topological_of_successorsFollow (hg : g.WellFormed) {order : List String}
    (hnodup : order.Nodup) (hmem : ∀ x, x ∈ order ↔ x ∈ g.nodes) (h : g.SuccessorsFollow order) :
    g.Topological order where
  nodup := hnodup
  mem_iff := hmem
  producer_mem := by
    intro earlier x later hsplit a he
    rw [hsplit] at hnodup
    obtain ⟨-, hx, -⟩ := List.nodup_append.mp hnodup
    have hnot : x ∉ later := (List.nodup_cons.mp hx).1
    have ha : a ∈ earlier ++ x :: later := hsplit ▸ (hmem a).mpr (hg.source_mem he)
    rcases List.mem_append.mp ha with ha | ha
    · exact ha
    · rcases List.mem_cons.mp ha with rfl | ha
      · exact absurd (h.mem hsplit he) hnot
      · obtain ⟨mid, tail, rfl⟩ := List.append_of_mem ha
        have hmid : order = (earlier ++ x :: mid) ++ a :: tail := by simp [hsplit]
        exact absurd (List.mem_append_right _ (List.mem_cons_of_mem _ (h.mem hmid he))) hnot

/-! ## The search -/

/-- What every state of the search satisfies: the stack and the discovered nodes are nodes of the
graph, and a node that has been discovered is finished or waits on the stack. -/
structure Search.Kept (g : TaskGraph) (s : Search) : Prop where
  stack_mem : ∀ x ∈ s.stack, x ∈ g.nodes
  finished_mem : ∀ x ∈ s.finished, x ∈ s.discovered
  discovered_mem : ∀ x ∈ s.discovered, x ∈ s.finished ∨ x ∈ s.stack
  discovered_sub : ∀ x ∈ s.discovered, x ∈ g.nodes
  finished_nodup : s.finished.Nodup

/-- What holds besides in a graph without cycles. A node is open when it has been discovered and not
been finished; above the place where it was discovered the stack holds only nodes that are reached
from it, among them all of its successors that have not been finished. -/
structure Search.Sound (g : TaskGraph) (s : Search) : Prop extends Search.Kept g s where
  finished_follow : g.SuccessorsFollow s.finished
  reached : ∀ {above u rest}, s.stack = above ++ u :: rest → u ∈ s.discovered → u ∉ s.finished →
    u ∉ above → ∀ x ∈ above, Relation.TransGen g.Edge u x
  covered : ∀ {above u rest}, s.stack = above ++ u :: rest → u ∈ s.discovered → u ∉ s.finished →
    u ∉ above → ∀ y, g.Edge u y → y ∈ s.finished ∨ y ∈ above

theorem mem_of_append_eq {l₁ l₂ above rest : List String} {u : String}
    (h : l₁ ++ l₂ = above ++ u :: rest) (hu : u ∉ l₁) :
    ∃ above', above = l₁ ++ above' ∧ l₂ = above' ++ u :: rest := by
  induction l₁ generalizing above with
  | nil => exact ⟨above, rfl, h⟩
  | cons x l₁ ih =>
    cases above with
    | nil => exact absurd (List.cons.inj h).1 fun hx => hu (hx ▸ List.mem_cons_self)
    | cons y above =>
      obtain ⟨hxy, htail⟩ := List.cons.inj h
      obtain ⟨above', rfl, hl₂⟩ := ih htail fun hm => hu (List.mem_cons_of_mem _ hm)
      exact ⟨above', by rw [hxy]; rfl, hl₂⟩

theorem exists_first_mem {u : String} {ids : List String} (h : u ∈ ids) :
    ∃ above rest, ids = above ++ u :: rest ∧ u ∉ above := by
  obtain ⟨above, rest, hids, hnot⟩ := List.eq_append_cons_of_mem h
  exact ⟨above, rest, hids, hnot⟩

/-- The state after a node that was discovered before is popped. -/
def Search.pop (s : Search) (top : String) (rest : List String) : Search :=
  { s with
    stack := rest
    finished := if s.finished.contains top then s.finished else top :: s.finished }

/-- The state after a new node is discovered. -/
def Search.discover (g : TaskGraph) (s : Search) (top : String) : Search :=
  { s with
    stack := ((g.successors top).filter fun id => ¬ (top :: s.discovered).contains id).reverse ++
      s.stack
    discovered := top :: s.discovered }

theorem mem_finished_pop {s : Search} {top x : String} {rest : List String} :
    x ∈ (s.pop top rest).finished ↔ x = top ∨ x ∈ s.finished := by
  unfold Search.pop
  split_ifs with h
  · have : top ∈ s.finished := by simpa using h
    exact ⟨.inr, fun hx => hx.elim (fun he => he ▸ this) fun hf => hf⟩
  · exact List.mem_cons

theorem Search.Kept.pop {s : Search} (h : s.Kept g) {top : String} {rest : List String}
    (hstack : s.stack = top :: rest) (htop : top ∈ s.discovered) : (s.pop top rest).Kept g where
  stack_mem x hx := h.stack_mem x (hstack ▸ List.mem_cons_of_mem _ hx)
  finished_mem x hx := (mem_finished_pop.mp hx).elim (fun he => he ▸ htop) (h.finished_mem x)
  discovered_mem x hx := by
    rcases h.discovered_mem x hx with hf | hs
    · exact .inl (mem_finished_pop.mpr (.inr hf))
    · rcases List.mem_cons.mp (hstack ▸ hs) with rfl | hr
      · exact .inl (mem_finished_pop.mpr (.inl rfl))
      · exact .inr hr
  discovered_sub := h.discovered_sub
  finished_nodup := by
    unfold Search.pop
    split_ifs with hc
    · exact h.finished_nodup
    · exact List.nodup_cons.mpr ⟨by simpa using hc, h.finished_nodup⟩

theorem Search.Sound.pop {s : Search} (h : s.Sound g) {top : String} {rest : List String}
    (hstack : s.stack = top :: rest) (htop : top ∈ s.discovered) : (s.pop top rest).Sound g where
  toKept := h.toKept.pop hstack htop
  finished_follow := by
    unfold Search.pop
    split_ifs with hc
    · exact h.finished_follow
    · have hopen : top ∉ s.finished := by simpa using hc
      refine ⟨fun y he => ?_, h.finished_follow⟩
      have hcovered := h.covered (hstack.trans (List.nil_append _).symm) htop hopen (by simp) y he
      exact hcovered.resolve_right (by simp)
  reached := by
    intro above u rest' hsplit hu hopen hnot x hx
    rw [mem_finished_pop, not_or] at hopen
    have hstack' : s.stack = (top :: above) ++ u :: rest' := hstack.trans (congrArg _ hsplit)
    exact h.reached hstack' hu hopen.2
      (fun hm => (List.mem_cons.mp hm).elim hopen.1 hnot) x (List.mem_cons_of_mem _ hx)
  covered := by
    intro above u rest' hsplit hu hopen hnot y he
    rw [mem_finished_pop, not_or] at hopen
    rw [mem_finished_pop]
    have hstack' : s.stack = (top :: above) ++ u :: rest' := hstack.trans (congrArg _ hsplit)
    rcases h.covered hstack' hu hopen.2
      (fun hm => (List.mem_cons.mp hm).elim hopen.1 hnot) y he with hf | hm
    · exact .inl (.inr hf)
    · rcases List.mem_cons.mp hm with rfl | hm
      · exact .inl (.inl rfl)
      · exact .inr hm

/-- Where an open node stands after a discovery: it is the new node, or it stood below it. -/
theorem open_discover {s : Search} {top u : String} {rest above rest' : List String}
    (hstack : s.stack = top :: rest)
    (hsplit : (s.discover g top).stack = above ++ u :: rest') (hu : u ∈ top :: s.discovered)
    (hnot : u ∉ above) :
    (u = top ∧
        above = ((g.successors top).filter fun id => ¬ (top :: s.discovered).contains id).reverse) ∨
      (u ∈ s.discovered ∧ ∃ below,
        above = ((g.successors top).filter fun id => ¬ (top :: s.discovered).contains id).reverse ++
          top :: below ∧ s.stack = top :: below ++ u :: rest') := by
  -- what is pushed is new, while `u` has been discovered, so that `u` stands below it
  have hfresh : u ∉
      ((g.successors top).filter fun id => ¬ (top :: s.discovered).contains id).reverse := by
    intro hm
    have := (List.mem_filter.mp (List.mem_reverse.mp hm)).2
    simp at this
    rcases List.mem_cons.mp hu with rfl | hd
    · exact this.1 rfl
    · exact this.2 hd
  obtain ⟨above', rfl, htail⟩ := mem_of_append_eq hsplit hfresh
  rw [hstack] at htail
  cases above' with
  | nil =>
    have heq : top = u := (List.cons.inj htail).1
    exact .inl ⟨heq.symm, by simp⟩
  | cons y below =>
    obtain ⟨rfl, hrest⟩ := List.cons.inj htail
    have hd : u ∈ s.discovered := by
      rcases List.mem_cons.mp hu with rfl | hd
      · exact absurd (List.mem_append_right _ List.mem_cons_self) hnot
      · exact hd
    exact .inr ⟨hd, below, rfl, by rw [hstack, hrest]; rfl⟩

theorem mem_stack_discover {s : Search} {top x : String} :
    x ∈ (s.discover g top).stack ↔
      (g.Edge top x ∧ x ≠ top ∧ x ∉ s.discovered) ∨ x ∈ s.stack := by
  unfold Search.discover
  simp only [List.mem_append, List.mem_reverse, List.mem_filter, mem_successors]
  simp

/-- In a graph without cycles a new node has no open successors, since every open node reaches the
node on top of the stack. -/
theorem finished_of_discovered {s : Search} (h : s.Sound g) (hac : g.Acyclic) {top y : String}
    {rest : List String} (hstack : s.stack = top :: rest) (htop : top ∉ s.discovered)
    (he : g.Edge top y) (hy : y ∈ s.discovered) : y ∈ s.finished := by
  by_contra hopen
  have hmem : y ∈ s.stack := (h.discovered_mem y hy).resolve_left hopen
  obtain ⟨above, tail, hsplit, hnot⟩ := exists_first_mem hmem
  cases above with
  | nil =>
    have heq : y = top := (List.cons.inj (hsplit.symm.trans hstack)).1
    exact htop (heq ▸ hy)
  | cons z above =>
    have heq : z = top := (List.cons.inj (hsplit.symm.trans hstack)).1
    have hway := h.reached hsplit hy hopen hnot top (heq ▸ List.mem_cons_self)
    exact hac y (hway.tail he)

theorem Search.Kept.discover {s : Search} (h : s.Kept g) (hg : g.WellFormed) {top : String}
    {rest : List String} (hstack : s.stack = top :: rest) : (s.discover g top).Kept g where
  stack_mem x hx := by
    rcases mem_stack_discover.mp hx with ⟨he, -, -⟩ | hs
    · exact hg.target_mem he
    · exact h.stack_mem x hs
  finished_mem x hx := List.mem_cons_of_mem _ (h.finished_mem x hx)
  discovered_mem x hx := by
    rcases List.mem_cons.mp hx with rfl | hd
    · exact .inr (mem_stack_discover.mpr (.inr (hstack ▸ List.mem_cons_self)))
    · exact (h.discovered_mem x hd).imp_right fun hs => mem_stack_discover.mpr (.inr hs)
  discovered_sub x hx := by
    rcases List.mem_cons.mp hx with rfl | hd
    · exact h.stack_mem _ (hstack ▸ List.mem_cons_self)
    · exact h.discovered_sub x hd
  finished_nodup := h.finished_nodup

theorem Search.Sound.discover {s : Search} (h : s.Sound g) (hg : g.WellFormed) (hac : g.Acyclic)
    {top : String} {rest : List String} (hstack : s.stack = top :: rest)
    (htop : top ∉ s.discovered) : (s.discover g top).Sound g where
  toKept := h.toKept.discover hg hstack
  finished_follow := h.finished_follow
  reached := by
    intro above u rest' hsplit hu hopen hnot x hx
    rcases open_discover hstack hsplit hu hnot with ⟨rfl, rfl⟩ | ⟨hd, below, rfl, hold⟩
    · exact .single (mem_successors.mp (List.mem_filter.mp (List.mem_reverse.mp hx)).1)
    · have hnot' : u ∉ top :: below := fun hm => hnot (List.mem_append_right _ hm)
      have hreach := h.reached hold hd hopen hnot'
      rcases List.mem_append.mp hx with hx | hx
      · have he := mem_successors.mp (List.mem_filter.mp (List.mem_reverse.mp hx)).1
        exact (hreach top List.mem_cons_self).tail he
      · exact hreach x hx
  covered := by
    intro above u rest' hsplit hu hopen hnot y he
    rcases open_discover hstack hsplit hu hnot with ⟨rfl, rfl⟩ | ⟨hd, below, rfl, hold⟩
    · by_cases hy : y ∈ s.discovered
      · exact .inl (finished_of_discovered h hac hstack htop he hy)
      · have hne : y ≠ u := fun heq => hac u (.single (heq ▸ he))
        right
        rw [List.mem_reverse, List.mem_filter, mem_successors]
        simpa [hne, hy] using he
    · have hnot' : u ∉ top :: below := fun hm => hnot (List.mem_append_right _ hm)
      exact (h.covered hold hd hopen hnot' y he).imp_right (List.mem_append_right _)

theorem Search.Kept.root {s : Search} (h : s.Kept g) (hempty : s.stack = []) {id : String}
    (hid : id ∈ g.nodes) : ({ s with stack := [id] } : Search).Kept g where
  stack_mem x hx := List.mem_singleton.mp hx ▸ hid
  finished_mem := h.finished_mem
  discovered_mem x hx := .inl ((h.discovered_mem x hx).resolve_right (by simp [hempty]))
  discovered_sub := h.discovered_sub
  finished_nodup := h.finished_nodup

theorem Search.Sound.root {s : Search} (h : s.Sound g) (hempty : s.stack = []) {id : String}
    (hid : id ∈ g.nodes) : ({ s with stack := [id] } : Search).Sound g where
  toKept := h.toKept.root hempty hid
  finished_follow := h.finished_follow
  reached := by
    intro above u rest hsplit hu hopen
    rcases h.discovered_mem u hu with hf | hs
    · exact absurd hf hopen
    · simp [hempty] at hs
  covered := by
    intro above u rest hsplit hu hopen
    rcases h.discovered_mem u hu with hf | hs
    · exact absurd hf hopen
    · simp [hempty] at hs

/-- What holds of the search in the beginning and is kept by its moves. -/
structure Search.Maintained (g : TaskGraph) (P : Search → Prop) : Prop where
  start : P ⟨[], [], []⟩
  kept : ∀ {s}, P s → s.Kept g
  pop : ∀ {s top rest}, P s → s.stack = top :: rest → top ∈ s.discovered → P (s.pop top rest)
  discover : ∀ {s top rest}, P s → s.stack = top :: rest → top ∉ s.discovered →
    P (s.discover g top)
  root : ∀ {s id}, P s → s.stack = [] → id ∈ g.nodes → P { s with stack := [id] }

theorem maintained_kept (hg : g.WellFormed) : Search.Maintained g (Search.Kept g) where
  start := ⟨by simp, by simp, by simp, by simp, by simp⟩
  kept h := h
  pop h hstack htop := h.pop hstack htop
  discover h hstack _ := h.discover hg hstack
  root h hempty hid := h.root hempty hid

theorem maintained_sound (hg : g.WellFormed) (hac : g.Acyclic) :
    Search.Maintained g (Search.Sound g) where
  start := ⟨(maintained_kept hg).start, trivial, by simp, by simp⟩
  kept h := h.toKept
  pop h hstack htop := h.pop hstack htop
  discover h hstack htop := h.discover hg hac hstack htop
  root h hempty hid := h.root hempty hid

/-! ## Termination -/

/-- A bound on the steps that the search can still take. -/
def Search.measure (g : TaskGraph) (s : Search) : Nat :=
  s.stack.length + g.unseenNodes s.discovered + g.unseenEdges s.discovered

theorem measure_discover_lt {s : Search} (h : s.Kept g) {top : String} {rest : List String}
    (hstack : s.stack = top :: rest) (htop : top ∉ s.discovered) :
    (s.discover g top).measure g < s.measure g := by
  have hnode : top ∈ g.nodes := h.stack_mem top (hstack ▸ List.mem_cons_self)
  have hnodes := unseenNodes_cons_lt hnode htop
  have hedges := g.unseenEdges_cons htop
  have hfresh : ((g.successors top).filter fun id => ¬ (top :: s.discovered).contains id).length ≤
      (g.successors top).length := List.length_filter_le _ _
  simp only [Search.measure, Search.discover, List.length_append, List.length_reverse] at hfresh ⊢
  omega

theorem measure_pop_lt {s : Search} {top : String} {rest : List String}
    (hstack : s.stack = top :: rest) : (s.pop top rest).measure g < s.measure g := by
  simp only [Search.measure, Search.pop, hstack, List.length_cons]
  omega

theorem run_cons_of_mem {s : Search} {top : String} {rest : List String} (fuel : Nat)
    (hstack : s.stack = top :: rest) (htop : top ∈ s.discovered) :
    Search.run g (fuel + 1) s = Search.run g fuel (s.pop top rest) := by
  rw [Search.run, hstack]
  simp [htop, Search.pop]

theorem run_cons_of_notMem {s : Search} {top : String} {rest : List String} (fuel : Nat)
    (hstack : s.stack = top :: rest) (htop : top ∉ s.discovered) :
    Search.run g (fuel + 1) s = Search.run g fuel (s.discover g top) := by
  rw [Search.run, hstack]
  simp [htop, Search.discover, hstack]

/-- With enough fuel the search ends with an empty stack and has discovered all that was on it. -/
theorem run_spec {P : Search → Prop} (hP : Search.Maintained g P) {fuel : Nat} {s : Search}
    (h : P s) (hfuel : s.measure g ≤ fuel) :
    P (Search.run g fuel s) ∧ (Search.run g fuel s).stack = [] ∧
      ∀ x, x ∈ s.discovered ∨ x ∈ s.stack → x ∈ (Search.run g fuel s).discovered := by
  induction fuel generalizing s with
  | zero =>
    have hnil : s.stack = [] := by
      unfold Search.measure at hfuel
      exact List.length_eq_zero_iff.mp (by omega)
    exact ⟨h, hnil, fun x hx => hx.resolve_right (by simp [hnil])⟩
  | succ fuel ih =>
    cases hstack : s.stack with
    | nil =>
      have hrun : Search.run g (fuel + 1) s = s := by rw [Search.run, hstack]
      rw [hrun]
      exact ⟨h, hstack, fun x hx => hx.resolve_right (by simp)⟩
    | cons top rest =>
      by_cases htop : top ∈ s.discovered
      · rw [run_cons_of_mem fuel hstack htop]
        have hlt := measure_pop_lt (g := g) hstack
        obtain ⟨hs, hnil, hmem⟩ := ih (hP.pop h hstack htop) (by omega)
        exact ⟨hs, hnil, fun x hx => hmem x (mem_or_mem_of_cons htop hx)⟩
      · rw [run_cons_of_notMem fuel hstack htop]
        have hlt := measure_discover_lt (hP.kept h) hstack htop
        obtain ⟨hs, hnil, hmem⟩ := ih (hP.discover h hstack htop) (by omega)
        refine ⟨hs, hnil, fun x hx => hmem x ?_⟩
        rcases hx with hd | hx
        · exact .inl (List.mem_cons_of_mem _ hd)
        · exact .inr (mem_stack_discover.mpr (.inr (hstack ▸ hx)))

/-! ## The finishing order -/

theorem foldl_run_spec {P : Search → Prop} (hP : Search.Maintained g P) (fuel : Nat)
    (hfuel : 1 + g.nodes.length + g.edges.length ≤ fuel) (ids : List String) (s : Search)
    (hids : ∀ x ∈ ids, x ∈ g.nodes) (h : P s) (hempty : s.stack = []) :
    let t := ids.foldl (fun s id =>
      if s.discovered.contains id then s else Search.run g fuel { s with stack := [id] }) s
    P t ∧ t.stack = [] ∧ ∀ x, x ∈ s.discovered ∨ x ∈ ids → x ∈ t.discovered := by
  induction ids generalizing s with
  | nil => exact ⟨h, hempty, fun x hx => hx.resolve_right (by simp)⟩
  | cons id ids ih =>
    have hrest : ∀ x ∈ ids, x ∈ g.nodes := fun x hx => hids x (List.mem_cons_of_mem _ hx)
    simp only [List.foldl_cons]
    split_ifs with hd
    · have hmem : id ∈ s.discovered := by simpa using hd
      obtain ⟨hs, hnil, hall⟩ := ih s hrest h hempty
      exact ⟨hs, hnil, fun x hx => hall x (mem_or_mem_of_cons hmem hx)⟩
    · have hroot := hP.root h hempty (hids id List.mem_cons_self)
      have hmeasure : ({ s with stack := [id] } : Search).measure g ≤ fuel := by
        have hn := g.unseenNodes_le s.discovered
        have he := g.unseenEdges_le s.discovered
        simp only [Search.measure, List.length_singleton]
        omega
      obtain ⟨hrun, hnil, hdisc⟩ := run_spec hP hroot hmeasure
      obtain ⟨hs, hnil', hall⟩ := ih _ hrest hrun hnil
      have hid := hdisc id (.inr (List.mem_singleton.mpr rfl))
      refine ⟨hs, hnil', fun x hx => hall x (mem_or_mem_of_cons hid ?_)⟩
      exact hx.imp_left fun hd => hdisc x (.inl hd)

/-- The finishing order comes from a state in which every node has been discovered and nothing is
left on the stack. -/
theorem searchOrder_spec {P : Search → Prop} (hP : Search.Maintained g P) :
    ∃ s : Search, P s ∧ s.finished = g.searchOrder ∧ ∀ x, x ∈ g.searchOrder ↔ x ∈ g.nodes := by
  obtain ⟨hs, hnil, hall⟩ := foldl_run_spec hP (2 * g.nodes.length + g.edges.length + 1)
    (by omega) g.nodes ⟨[], [], []⟩ (fun _ h => h) hP.start rfl
  have hkept := hP.kept hs
  refine ⟨_, hs, rfl, fun x => ⟨fun hx => ?_, fun hx => ?_⟩⟩
  · exact hkept.discovered_sub x (hkept.finished_mem x hx)
  · exact (hkept.discovered_mem x (hall x (.inr hx))).resolve_right (by rw [hnil]; simp)

theorem searchOrder_nodup (hg : g.WellFormed) : g.searchOrder.Nodup := by
  obtain ⟨s, hs, hfinished, -⟩ := searchOrder_spec (maintained_kept hg)
  exact hfinished ▸ hs.finished_nodup

theorem mem_searchOrder (hg : g.WellFormed) {x : String} : x ∈ g.searchOrder ↔ x ∈ g.nodes := by
  obtain ⟨-, -, -, hmem⟩ := searchOrder_spec (maintained_kept hg)
  exact hmem x

theorem searchOrder_topological (hg : g.WellFormed) (hac : g.Acyclic) :
    g.Topological g.searchOrder := by
  obtain ⟨s, hs, hfinished, hmem⟩ := searchOrder_spec (maintained_sound hg hac)
  exact topological_of_successorsFollow hg (searchOrder_nodup hg) hmem
    (hfinished ▸ hs.finished_follow)

/-! ## The searches backwards -/

theorem edge_reversed {a b : String} : g.reversed.Edge a b ↔ g.Edge b a := by
  simp [reversed, Edge]

/-- What has been found before, if it is closed under producers. -/
def Backward (g : TaskGraph) (seen : List String) : Prop := ∀ x ∈ seen, ∀ a, g.Edge a x → a ∈ seen

/-- A search backwards from a new node finds it and its producers, and stays within what is closed
under producers. -/
theorem reachFrom_reversed_spec {seen : List String} {id : String} (hseen : g.Backward seen)
    (hnodup : (id :: seen).Nodup) :
    let found := g.reversed.reachFrom (g.edges.length + 1) seen [id]
    found.Nodup ∧ id :: seen ⊆ found ∧ g.Backward found ∧
      (g.Backward (id :: seen) → found ⊆ id :: seen) := by
  have hfuel : [id].length + g.reversed.unseenEdges seen ≤ g.edges.length + 1 := by
    have hedges := g.reversed.unseenEdges_le seen
    simp only [reversed, List.length_map, List.length_singleton] at hedges ⊢
    omega
  have hfollowed : g.reversed.Followed seen [id] :=
    fun x hx a he => .inl (hseen x hx a (edge_reversed.mp he))
  obtain ⟨hall, hstep⟩ := reachFrom_closed hfuel hfollowed
  refine ⟨nodup_reachFrom (List.nodup_cons.mp hnodup).2, fun x hx => ?_, fun x hx a he => ?_,
    fun hclosed x hx => ?_⟩
  · exact hall x ((List.mem_cons.mp hx).symm.imp_right List.mem_singleton.mpr)
  · exact hstep x hx a (edge_reversed.mpr he)
  · rcases way_of_mem_reachFrom hx with hx | ⟨y, hy, hw⟩
    · exact List.mem_cons_of_mem _ hx
    · obtain rfl := List.mem_singleton.mp hy
      clear hx
      induction hw with
      | refl => exact List.mem_cons_self
      | tail _ he ih => exact hclosed _ ih _ (edge_reversed.mp he)

/-- Every search finds its own node and no other exactly if no node has a producer that is neither
itself nor found before. -/
theorem findsSingles_iff {seen ids : List String} (hseen : g.Backward seen)
    (hnodup : (ids ++ seen).Nodup) :
    g.findsSingles seen ids = true ↔ ∀ earlier x later, ids = earlier ++ x :: later →
      ∀ a, g.Edge a x → a = x ∨ a ∈ earlier ∨ a ∈ seen := by
  induction ids generalizing seen with
  | nil => simp [findsSingles]
  | cons id rest ih =>
    have hid : (id :: seen).Nodup :=
      hnodup.sublist ((List.sublist_append_right rest seen).cons_cons id)
    obtain ⟨hfound, hsub, hbackward, hback⟩ := reachFrom_reversed_spec hseen hid
    rw [findsSingles, Bool.and_eq_true, decide_eq_true_eq]
    generalize g.reversed.reachFrom (g.edges.length + 1) seen [id] = found at *
    have hrest {l : List String} (hl : l.Perm (id :: seen)) : (rest ++ l).Nodup :=
      ((hl.append_left rest).trans List.perm_middle).nodup_iff.mpr hnodup
    constructor
    -- a search that finds one node more has found its own only, so that all producers were known
    · rintro ⟨hlen, hsingles⟩ earlier x later hsplit a he
      have hperm : found.Perm (id :: seen) :=
        ((List.subperm_of_subset hid hsub).perm_of_length_le (by simp [hlen])).symm
      cases earlier with
      | nil =>
        obtain ⟨rfl, rfl⟩ := List.cons.inj hsplit
        have ha := hperm.mem_iff.mp (hbackward id (hsub List.mem_cons_self) a he)
        exact (List.mem_cons.mp ha).imp_right .inr
      | cons y earlier =>
        obtain ⟨rfl, hrest'⟩ := List.cons.inj hsplit
        have ha := (ih hbackward (hrest hperm)).mp hsingles earlier x later hrest' a he
        rw [hperm.mem_iff, List.mem_cons] at ha
        rw [List.mem_cons]
        tauto
    -- with its producers known, the node and what was known are closed, and nothing else is found
    · intro hproducers
      have hclosed : g.Backward (id :: seen) := by
        intro x hx a he
        rcases List.mem_cons.mp hx with rfl | hx
        · simpa using hproducers [] x rest rfl a he
        · exact List.mem_cons_of_mem _ (hseen x hx a he)
      have hperm : found.Perm (id :: seen) :=
        (List.subperm_of_subset hfound (hback hclosed)).antisymm
          (List.subperm_of_subset hid hsub)
      refine ⟨hperm.length_eq, (ih hbackward (hrest hperm)).mpr ?_⟩
      intro earlier x later hsplit a he
      have ha := hproducers (id :: earlier) x later (congrArg (id :: ·) hsplit) a he
      rw [hperm.mem_iff, List.mem_cons]
      rw [List.mem_cons] at ha
      tauto

/-! ## The order -/

/-- The order is refused exactly if it is none. -/
theorem topologicalOrder?_eq_some_iff (hg : g.WellFormed) {order : List String} :
    g.topologicalOrder? = some order ↔ g.Acyclic ∧ order = g.searchOrder := by
  have hloops : g.nodes.any (fun id => g.hasEdge id id) = true ↔ ∃ id, g.Edge id id := by
    simp only [List.any_eq_true, hasEdge_iff]
    exact ⟨fun ⟨id, _, he⟩ => ⟨id, he⟩, fun ⟨id, he⟩ => ⟨id, hg.source_mem he, he⟩⟩
  have hsingles : g.findsSingles [] g.searchOrder = true ↔ _ :=
    findsSingles_iff (by simp [Backward]) (by simpa using searchOrder_nodup hg)
  have hiff : ¬ (∃ id, g.Edge id id) ∧ g.findsSingles [] g.searchOrder = true ↔ g.Acyclic := by
    rw [hsingles]
    constructor
    · rintro ⟨hloop, hproducers⟩
      have htopological : g.Topological g.searchOrder := by
        refine ⟨searchOrder_nodup hg, fun x => mem_searchOrder hg, ?_⟩
        intro earlier x later hsplit a he
        rcases hproducers earlier x later hsplit a he with rfl | ha | ha
        · exact absurd ⟨a, he⟩ hloop
        · exact ha
        · cases ha
      exact htopological.acyclic hg
    · intro hac
      refine ⟨fun ⟨id, he⟩ => hac id (.single he), fun earlier x later hsplit a he => ?_⟩
      exact .inr (.inl ((searchOrder_topological hg hac).producer_mem hsplit he))
  rw [← hiff, ← hloops, topologicalOrder?]
  by_cases hloop : g.nodes.any (fun id => g.hasEdge id id) = true
  · simp [hloop]
  · cases hfinds : g.findsSingles [] g.searchOrder <;> simp [hloop, eq_comm]

/-- A graph has a topological order exactly if it has no cycle, and the order is one. -/
theorem topologicalOrder_eq_ok_iff (hg : g.WellFormed) {order : List String} :
    g.topologicalOrder = .ok order ↔ g.Acyclic ∧ order = g.searchOrder := by
  rw [← topologicalOrder?_eq_some_iff hg, topologicalOrder]
  cases g.topologicalOrder? <;> simp

theorem topological_of_topologicalOrder (hg : g.WellFormed) {order : List String}
    (h : g.topologicalOrder = .ok order) : g.Topological order := by
  obtain ⟨hac, rfl⟩ := (topologicalOrder_eq_ok_iff hg).mp h
  exact searchOrder_topological hg hac

/-! ## Agreement with the search for cycles -/

/-- A graph without an order has the cycle that is listed as its fault. -/
theorem topologicalOrder_eq_error (hg : g.WellFormed) {fault : Fault}
    (h : g.topologicalOrder = .error fault) :
    ∃ cycle, g.findCycle = some cycle ∧ fault = .cyclicGraph cycle := by
  cases hcycle : g.findCycle with
  | none =>
    have hac := (findCycle_eq_none_iff hg).mp hcycle
    simp [(topologicalOrder_eq_ok_iff hg).mpr ⟨hac, rfl⟩] at h
  | some cycle =>
    rw [topologicalOrder, hcycle] at h
    cases ho : g.topologicalOrder? with
    | some order => simp [ho] at h
    | none =>
      simp only [ho, Option.getD_some, Except.error.injEq] at h
      exact ⟨cycle, rfl, h.symm⟩

theorem transGen_of_dependsOn {a b : String} (h : g.dependsOn a b = true) :
    Relation.TransGen g.Edge b a := by
  simp only [dependsOn, Bool.and_eq_true, decide_eq_true_eq, List.contains_iff_mem,
    mem_reachable] at h
  obtain ⟨⟨-, hne⟩, hway⟩ := h
  exact (Relation.reflTransGen_iff_eq_or_transGen.mp hway).resolve_left hne

/-- A graph that is built by any calls has an order exactly if it passes as acyclic. The order has
every node once, the ends of an edge as the edge has them, and what a node depends on before it.
Without an order the fault is that of the other check, and its cycle has a node. -/
theorem topologicalOrder_agrees (additions : List Addition) :
    let g := built additions
    ((∃ order, g.topologicalOrder = .ok order) ↔ g.validateAcyclic = .ok ()) ∧
      (∀ order, g.topologicalOrder = .ok order →
        order.Nodup ∧ (∀ x, x ∈ order ↔ g.contains x = true) ∧
        (∀ a b, g.Edge a b → [a, b].Sublist order) ∧
        ∀ a b, g.dependsOn a b = true → [b, a].Sublist order) ∧
      ∀ fault, g.topologicalOrder = .error fault → ∃ cycle, cycle ≠ [] ∧
        fault = .cyclicGraph cycle ∧ g.validateAcyclic = .error (.cyclicGraph cycle) := by
  intro g
  have hg : g.WellFormed := built_wellFormed additions
  refine ⟨?_, fun order horder => ?_, fun fault hfault => ?_⟩
  · rw [validateAcyclic_eq_ok_iff hg]
    constructor
    · rintro ⟨order, horder⟩
      exact ((topologicalOrder_eq_ok_iff hg).mp horder).1
    · intro hac
      exact ⟨g.searchOrder, (topologicalOrder_eq_ok_iff hg).mpr ⟨hac, rfl⟩⟩
  · have htopological : g.Topological order := topological_of_topologicalOrder hg horder
    refine ⟨htopological.nodup, fun x => ?_, fun a b he => ?_, fun a b hdep => ?_⟩
    · rw [htopological.mem_iff, contains_iff]
    · exact htopological.sublist_of_transGen hg (.single he)
    · exact htopological.sublist_of_transGen hg (transGen_of_dependsOn hdep)
  · obtain ⟨cycle, hcycle, rfl⟩ := topologicalOrder_eq_error hg hfault
    obtain ⟨start, rest, hcons, -⟩ := findCycle_spec hg hcycle
    refine ⟨cycle, by simp [hcons], rfl, ?_⟩
    rw [validateAcyclic, hcycle]

end Workflow.TaskGraph
