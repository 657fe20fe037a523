import Workflow.Proofs.Pipeline.Advisory
import Workflow.Proofs.Schedule.Loop

/-!
# Profiles do not change a run

A run is played by turns: what passes, and what happens between two passes. Taking resource profiles
away commutes with every turn, so that two plans that differ in profiles only, played by the same
turns, come to the same node states. A profile is only passed on: every body that is started is told
the profile of its node.
-/
namespace Workflow

/-! ## Taking profiles away -/

namespace TaskContext

def bare (c : TaskContext) : TaskContext := { c with resources := .empty }

end TaskContext

namespace Invocation

def bare (i : Invocation) : Invocation := { i with context := i.context.bare }

end Invocation

namespace Plan

def bare (p : Plan) : Plan := { p with manifest := p.manifest.bare }

end Plan

/-- How a body may end does not depend on the profile that it is told. -/
def Bodies.IgnoreResources (bodies : Bodies) : Prop :=
  ∀ i i' ending, Invocation.bare i = i'.bare → (bodies i ending ↔ bodies i' ending)

namespace Manifest

theorem node?_bare (m : Manifest) (id : String) :
    m.bare.node? id = (m.node? id).map ManifestNode.bare :=
  List.find?_map ..

theorem graph_bare (m : Manifest) : m.bare.graph = m.graph := by
  simp only [graph, bare, List.map_map]
  rfl

end Manifest

namespace Plan

theorem node?_bare (p : Plan) (id : String) :
    p.bare.manifest.node? id = (p.manifest.node? id).map ManifestNode.bare :=
  Manifest.node?_bare p.manifest id

end Plan

namespace Drive
variable {p p' : Plan} {bodies : Bodies} {params : Dict Scalar} {d d' : Drive}

/-- What a drive has come to, without the profiles that its bodies were told. -/
def bare (d : Drive) : Drive := { d with invocations := d.invocations.map Invocation.bare }

theorem bare_table (d : Drive) : d.bare.table = d.table := rfl
theorem bare_artifacts (d : Drive) : d.bare.artifacts = d.artifacts := rfl
theorem bare_tasks (d : Drive) : d.bare.tasks = d.tasks := rfl
theorem bare_running (d : Drive) : d.bare.running = d.running := rfl

/-! ## Passes -/

theorem move?_bare (d : Drive) (id : String) (source target : NodeStatus) (now : Instant)
    (details : NodeState → NodeState) :
    d.bare.move? id source target now details =
      (d.move? id source target now details).map bare := by
  simp only [move?, Option.map_map]
  rfl

theorem move_bare (d : Drive) (id : String) (source target : NodeStatus) (now : Instant)
    (details : NodeState → NodeState) :
    d.bare.move id source target now details = (d.move id source target now details).bare := by
  rw [move, move?_bare, move]
  cases d.move? id source target now details <;> rfl

theorem resolveNode_bare (p : Plan) (now : Instant) (d : Drive) (id : String) :
    resolveNode p.bare now d.bare id = (resolveNode p now d id).bare := by
  unfold resolveNode
  rw [bare_table, bare_artifacts, show p.bare.graph = p.graph from rfl, Plan.node?_bare]
  split_ifs
  · rfl
  cases p.manifest.node? id with
  | none => rfl
  | some n =>
    simp only [Option.map_some]
    rw [show n.bare.condition = n.condition from rfl]
    cases readiness d.table (p.graph.dependencies id) false with
    | waiting => rfl
    | blocked reason => exact move_bare ..
    | clear =>
      cases clausesHold d.artifacts n.condition.clauses with
      | error f => exact move_bare ..
      | ok holds => cases holds <;> exact move_bare ..

theorem startNode_bare (p : Plan) (now : Instant) (d : Drive) (id : String) :
    startNode p.bare now d.bare id = (startNode p now d id).bare := by
  unfold startNode
  rw [bare_table, bare_artifacts, bare_tasks, show p.bare.workers = p.workers from rfl,
    Plan.node?_bare]
  split_ifs
  · rfl
  cases p.manifest.node? id with
  | none => rfl
  | some n =>
    simp only [Option.map_some]
    rw [show prepare p.bare n.bare d.artifacts = prepare p n d.artifacts from rfl]
    cases prepare p n d.artifacts with
    | error f => exact move_bare ..
    | ok inputs =>
      simp only [move?_bare]
      cases d.move? id .ready .running now fun s => s <;> rfl

theorem skipNode_bare (now : Instant) (d : Drive) (id : String) :
    skipNode now d.bare id = (skipNode now d id).bare := by
  rw [skipNode, move_bare, move_bare, skipNode]

/-- Going through a list of nodes with something that does not look at profiles. -/
theorem foldl_bare {f g : Drive → String → Drive}
    (h : ∀ d id, g (bare d) id = (f d id).bare) (ids : List String) (d : Drive) :
    ids.foldl g d.bare = (ids.foldl f d).bare := by
  induction ids generalizing d with
  | nil => rfl
  | cons id ids ih => rw [List.foldl_cons, List.foldl_cons, h, ih]

theorem pass_bare (p : Plan) (cancel : Bool) (now : Instant) (d : Drive) :
    d.bare.pass p.bare cancel now = (d.pass p cancel now).bare := by
  cases cancel with
  | true => exact foldl_bare (skipNode_bare now) p.order { d with cancelling := true }
  | false =>
    have hresolve : resolvePending p.bare now d.bare = (resolvePending p now d).bare :=
      foldl_bare (resolveNode_bare p now) p.order d
    change startReady p.bare now (resolvePending p.bare now d.bare) = _
    rw [hresolve]
    exact foldl_bare (startNode_bare p now) p.order _

theorem finish_bare (p : Plan) (now : Instant) (d : Drive) (task : Nat) (joined : Joined) :
    d.bare.finish p.bare now task joined = (d.finish p now task joined).bare := by
  unfold finish
  rw [bare_running]
  cases d.running.lookup task with
  | none => rfl
  | some id =>
    cases joined with
    | aborted => exact move_bare (d.join task) ..
    | ended ending =>
      simp only [Plan.node?_bare]
      cases p.manifest.node? id with
      | none => rfl
      | some n =>
        simp only [Option.map_some]
        rw [show n.bare.results ending = n.results ending from rfl]
        cases n.results ending with
        | error f => exact move_bare (d.join task) ..
        | ok values => exact move_bare (d.close task (storeOutputs n.outputs values d.artifacts)) ..

/-! ## Turns of the loop -/

end Drive

/-- What may happen between two passes: a task is joined, the cancellation is noticed, or the grace
period ends. -/
inductive Happening where
  | joined (task : Nat) (how : Joined) (now : Instant)
  | noticed
  | deadline

/-- A pass, at a time and with the word whether the run has been cancelled by then, and what happens
after it. -/
structure Turn where
  cancel : Bool
  now : Instant
  happening : Happening

namespace Drive
variable {p p' : Plan} {bodies : Bodies} {params : Dict Scalar} {d d' : Drive} {turns : List Turn}

def meet (p : Plan) (d : Drive) : Happening → Drive
  | .joined task how now => d.finish p now task how
  | .noticed => d
  | .deadline => d.abort

/-- What can happen to a drive after a pass. -/
inductive Possible (bodies : Bodies) (d : Drive) : Happening → Prop
  | ended {task : Nat} {ending : Ending} {i : Invocation} (now : Instant) (member : task ∈ d.tasks)
      (invoked : i ∈ d.invocations) (same : i.task = task) (ends : bodies i ending) :
      Possible bodies d (.joined task (.ended ending) now)
  | stopped {task : Nat} (now : Instant) (member : task ∈ d.tasks) (aborted : d.aborted = true) :
      Possible bodies d (.joined task .aborted now)
  | noticed : Possible bodies d .noticed
  | deadline (cancelling : d.cancelling = true) (running : d.aborted = false) :
      Possible bodies d .deadline

/-- The loop can take a turn: no cancellation is taken back, there is something to wait for, and what
happens is possible. -/
structure Due (p : Plan) (bodies : Bodies) (d : Drive) (t : Turn) : Prop where
  kept : d.cancelling = true → t.cancel = true
  busy : (d.pass p t.cancel t.now).isIdle = false
  possible : Possible bodies (d.pass p t.cancel t.now) t.happening

def turn (p : Plan) (d : Drive) (t : Turn) : Drive := (d.pass p t.cancel t.now).meet p t.happening

/-- A drive after some turns of the loop. -/
def play (p : Plan) (d : Drive) (turns : List Turn) : Drive := turns.foldl (turn p) d

theorem play_concat (p : Plan) (d : Drive) (turns : List Turn) (t : Turn) :
    d.play p (turns ++ [t]) = (d.play p turns).turn p t :=
  List.foldl_concat ..

/-- The loop can take the turns one after the other. -/
def Playable (p : Plan) (bodies : Bodies) : Drive → List Turn → Prop
  | _, [] => True
  | d, t :: rest => Due p bodies d t ∧ Playable p bodies (d.turn p t) rest

theorem playable_concat {t : Turn} : Playable p bodies d (turns ++ [t]) ↔
    Playable p bodies d turns ∧ Due p bodies (d.play p turns) t := by
  induction turns generalizing d with
  | nil => exact and_comm
  | cons first rest ih =>
    simp only [List.cons_append, Playable, ih, and_assoc]
    rfl

theorem event_iff_possible :
    Event p bodies d d' ↔ ∃ h, Possible bodies d h ∧ d' = d.meet p h := by
  constructor
  · intro he
    cases he with
    | finish now member invoked same ends => exact ⟨_, .ended now member invoked same ends, rfl⟩
    | abandon now member aborted => exact ⟨_, .stopped now member aborted, rfl⟩
    | notice => exact ⟨_, .noticed, rfl⟩
    | deadline cancelling running => exact ⟨_, .deadline cancelling running, rfl⟩
  · rintro ⟨h, hpossible, rfl⟩
    cases hpossible with
    | ended now member invoked same ends => exact .finish now member invoked same ends
    | stopped now member aborted => exact .abandon now member aborted
    | noticed => exact .notice
    | deadline cancelling running => exact .deadline cancelling running

/-- The heads of the loop are the states to which turns lead. -/
theorem head_iff_playable : Head p bodies params d ↔
    ∃ turns, Playable p bodies (begin p.manifest params) turns ∧
      d = (begin p.manifest params).play p turns := by
  constructor
  · intro h
    induction h with
    | start => exact ⟨[], trivial, rfl⟩
    | turn head cancel now kept busy event ih =>
      obtain ⟨turns, hturns, rfl⟩ := ih
      obtain ⟨happening, hpossible, rfl⟩ := event_iff_possible.mp event
      refine ⟨turns ++ [⟨cancel, now, happening⟩],
        playable_concat.mpr ⟨hturns, kept, busy, hpossible⟩, ?_⟩
      rw [play_concat]
      rfl
  · rintro ⟨turns, hturns, rfl⟩
    induction turns using List.reverseRecOn with
    | nil => exact .start
    | append_singleton turns t ih =>
      obtain ⟨hbefore, hdue⟩ := playable_concat.mp hturns
      rw [play_concat]
      exact .turn (ih hbefore) t.cancel t.now hdue.kept hdue.busy
        (event_iff_possible.mpr ⟨_, hdue.possible, rfl⟩)

theorem meet_bare (p : Plan) (d : Drive) (h : Happening) :
    d.bare.meet p.bare h = (d.meet p h).bare := by
  cases h with
  | joined task how now => exact finish_bare p now d task how
  | noticed => rfl
  | deadline => rfl

theorem turn_bare (p : Plan) (d : Drive) (t : Turn) :
    d.bare.turn p.bare t = (d.turn p t).bare := by
  rw [turn, pass_bare, meet_bare, turn]

theorem play_bare (p : Plan) (d : Drive) (turns : List Turn) :
    d.bare.play p.bare turns = (d.play p turns).bare := by
  induction turns generalizing d with
  | nil => rfl
  | cons t rest ih =>
    change (d.bare.turn p.bare t).play p.bare rest = ((d.turn p t).play p rest).bare
    rw [turn_bare, ih]

theorem possible_bare_iff (hb : bodies.IgnoreResources) {h : Happening} :
    Possible bodies d.bare h ↔ Possible bodies d h := by
  constructor
  · intro hp
    cases hp with
    | ended now member invoked same ends =>
      obtain ⟨i, hi, rfl⟩ := List.mem_map.mp invoked
      exact .ended now member hi same ((hb i.bare i _ rfl).mp ends)
    | stopped now member aborted => exact .stopped now member aborted
    | noticed => exact .noticed
    | deadline cancelling running => exact .deadline cancelling running
  · intro hp
    cases hp with
    | @ended task ending i now member invoked same ends =>
      have hmem : i.bare ∈ d.bare.invocations := List.mem_map_of_mem invoked
      exact .ended now member hmem same ((hb i.bare i _ rfl).mpr ends)
    | stopped now member aborted => exact .stopped now member aborted
    | noticed => exact .noticed
    | deadline cancelling running => exact .deadline cancelling running

theorem due_bare_iff (hb : bodies.IgnoreResources) {t : Turn} :
    Due p.bare bodies d.bare t ↔ Due p bodies d t := by
  constructor
  · rintro ⟨hkept, hbusy, hpossible⟩
    rw [pass_bare] at hbusy hpossible
    exact ⟨hkept, hbusy, (possible_bare_iff hb).mp hpossible⟩
  · rintro ⟨hkept, hbusy, hpossible⟩
    refine ⟨hkept, ?_, ?_⟩
    · rw [pass_bare]
      exact hbusy
    · rw [pass_bare]
      exact (possible_bare_iff hb).mpr hpossible

theorem playable_bare_iff (hb : bodies.IgnoreResources) :
    Playable p.bare bodies d.bare turns ↔ Playable p bodies d turns := by
  induction turns generalizing d with
  | nil => rfl
  | cons t rest ih => rw [Playable, Playable, due_bare_iff hb, turn_bare, ih]

/-! ## Two runs -/

theorem begin_bare (m : Manifest) (params : Dict Scalar) :
    begin m.bare params = (begin m params).bare := by
  simp only [begin, Manifest.bare, List.map_map]
  rfl

/-- Every body that is started is told the profile of its node. -/
theorem Reachable.resources_eq (h : Reachable p bodies params d) {i : Invocation}
    (hi : i ∈ d.invocations) : ∃ n, p.manifest.node? i.context.node = some n ∧
      i.context.resources = n.resources := by
  obtain ⟨n, inputs, hn, -, hcontext⟩ := h.handed i hi
  refine ⟨n, hn, ?_⟩
  rw [hcontext]
  rfl

end Drive

/-- Two plans go the same way with the same parameters: the loop can take the same turns, and comes
by them to the same node states, at every head and after every pass. Bodies are told what the plan's
own manifest asks for. -/
structure Plan.RunsAlike (p p' : Plan) (bodies : Bodies) (params : Dict Scalar) : Prop where
  proper : p.Proper ↔ p'.Proper
  playable : ∀ turns, Drive.Playable p bodies (.begin p.manifest params) turns ↔
    Drive.Playable p' bodies (.begin p'.manifest params) turns
  head : ∀ turns, ((Drive.begin p.manifest params).play p turns).bare =
    ((Drive.begin p'.manifest params).play p' turns).bare
  pass : ∀ turns cancel now,
    (((Drive.begin p.manifest params).play p turns).pass p cancel now).bare =
      (((Drive.begin p'.manifest params).play p' turns).pass p' cancel now).bare
  told : ∀ {d i}, Drive.Reachable p bodies params d → i ∈ d.invocations →
    ∃ n, p.manifest.node? i.context.node = some n ∧ i.context.resources = n.resources
  told' : ∀ {d i}, Drive.Reachable p' bodies params d → i ∈ d.invocations →
    ∃ n, p'.manifest.node? i.context.node = some n ∧ i.context.resources = n.resources

open Drive in
theorem Plan.runsAlike {p p' : Plan} {bodies : Bodies} (params : Dict Scalar)
    (h : p.bare = p'.bare) (hb : bodies.IgnoreResources) : p.RunsAlike p' bodies params := by
  have hmanifest : p.manifest.bare = p'.manifest.bare := congrArg Plan.manifest h
  have hbegin : (begin p.manifest params).bare = (begin p'.manifest params).bare := by
    rw [← begin_bare, ← begin_bare, hmanifest]
  have hgraph : p.manifest.graph = p'.manifest.graph :=
    calc p.manifest.graph = p.manifest.bare.graph := (Manifest.graph_bare _).symm
      _ = p'.manifest.bare.graph := by rw [hmanifest]
      _ = p'.manifest.graph := Manifest.graph_bare _
  have hplan : p.bare.graph = p'.bare.graph ∧ p.bare.order = p'.bare.order := by
    rw [h]
    exact ⟨rfl, rfl⟩
  simp only [Plan.bare] at hplan
  -- the loop does not look at profiles, so that both plans come to the same by the same turns
  have hhead (turns : List Turn) : ((begin p.manifest params).play p turns).bare =
      ((begin p'.manifest params).play p' turns).bare := by
    rw [← play_bare, ← play_bare, hbegin, h]
  constructor
  case proper =>
    constructor
    · rintro ⟨hg, ho⟩
      exact ⟨by rw [← hplan.1, hg, hgraph], by rw [← hgraph, ho, hplan.2]⟩
    · rintro ⟨hg, ho⟩
      exact ⟨by rw [hplan.1, hg, hgraph], by rw [hgraph, ho, hplan.2]⟩
  case playable =>
    intro turns
    rw [← playable_bare_iff hb, hbegin, h, playable_bare_iff hb]
  case head => exact hhead
  case pass =>
    intro turns cancel now
    rw [← pass_bare, ← pass_bare, hhead, h]
  case told => exact fun hr hi => hr.resources_eq hi
  case told' => exact fun hr hi => hr.resources_eq hi

namespace Builder
variable {name : String} {description : Option String} {ops ops' : List Operation}

/-- Resources are advice. Two histories that differ in profiles only are refused with the same fault,
or both are sealed, and then compiled to manifests that differ in profiles only. Each manifest has
the profiles that its history asks for, and plans for the two manifests run alike if the bodies do
not look at profiles. -/
theorem built_resources_advisory (h : ops.map Operation.bare = ops'.map Operation.bare) :
    (∃ fault, (built name description ops).seal = .error fault ∧
      (built name description ops').seal = .error fault) ∨
    ∃ p p' m m', (built name description ops).seal = .ok p ∧
      (built name description ops').seal = .ok p' ∧ p.compile = .ok m ∧ p'.compile = .ok m' ∧
      m.bare = m'.bare ∧ m.Profiled name description ops ∧ m'.Profiled name description ops' ∧
      ∀ {plan : Plan} {bodies : Bodies} (params : Dict Scalar), plan.manifest = m →
        bodies.IgnoreResources →
        plan.RunsAlike { plan with manifest := m' } bodies params := by
  rcases @sealed_alike name description ops ops' h with
    hfault | ⟨p, p', hp, hp', hcompile, hcompile', hbare⟩
  · exact .inl hfault
  · refine .inr ⟨p, p', _, _, hp, hp', hcompile, hcompile', hbare, profiled_of_seal hp,
      profiled_of_seal hp', ?_⟩
    intro plan bodies params hplan hb
    refine Plan.runsAlike params ?_ hb
    rw [Plan.bare, Plan.bare, hplan, hbare]

/-- A task that trains a model, with the profiles of its definition and of itself, and a task that
tests the model. -/
def training (base own : ResourceProfile) : List Operation :=
  [.define "train"
      { TaskDefinition.ofBody "train" (.registered "train") with
        outputs := [⟨"loss", .float⟩], resources := base } [] own,
    .define "test"
      { TaskDefinition.ofBody "test" (.registered "test") with inputs := [⟨"loss", .float, none⟩] }
      [("loss", .output "train" "loss")] .empty]

/-- A profile of a definition. -/
def zoned : ResourceProfile := ResourceProfile.empty.select "zone" "a"

/-- A profile of a task. -/
def hungry : ResourceProfile :=
  { ResourceProfile.empty.select "disk" "ssd" with cpuRequest := some ⟨2000⟩ }

theorem training_runs_alike : ∃ m m', (∃ p p', (built "m" none (training zoned hungry)).seal = .ok p ∧
      (built "m" none (training .empty .empty)).seal = .ok p' ∧ p.compile = .ok m ∧
      p'.compile = .ok m') ∧
    (∃ n, m.node? "train" = some n ∧ n.resources.cpuRequest = some ⟨2000⟩ ∧
      n.resources.nodeSelector.get? "zone" = some "a" ∧
      n.resources.nodeSelector.get? "disk" = some "ssd") ∧
    (∃ n, m'.node? "train" = some n ∧ n.resources.cpuRequest = none) ∧
    ∀ plan : Plan, plan.manifest = m →
      plan.RunsAlike { plan with manifest := m' } (fun _ _ => True) .empty := by
  have hbare : (training zoned hungry).map Operation.bare =
      (training .empty .empty).map Operation.bare := rfl
  obtain ⟨fault, hfault, -⟩ | ⟨p, p', m, m', hp, hp', hm, hm', -, hprofiled, hprofiled', hruns⟩ :=
    @built_resources_advisory "m" none _ _ hbare
  · cases hfault
  · obtain ⟨n, hn, hover⟩ := @hprofiled.of_define [] _ _ _ _ _ rfl
    obtain ⟨n', hn', hover'⟩ := @hprofiled'.of_define [] _ _ _ _ _ rfl
    refine ⟨m, m', ⟨p, p', hp, hp', hm, hm'⟩, ⟨n, hn, hover.cpuRequest, ?_, ?_⟩,
      ⟨n', hn', hover'.cpuRequest⟩, fun plan hplan => hruns .empty hplan fun _ _ _ _ => Iff.rfl⟩
    · rw [hover.selector]
      rfl
    · rw [hover.selector]
      rfl

end Builder
end Workflow
