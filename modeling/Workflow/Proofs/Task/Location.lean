import Workflow.Proofs.Manifest.Canonical
import Workflow.Proofs.Pipeline.Operations
import Workflow.Proofs.Schedule.Ledger
import Workflow.Proofs.Storage.Path
import Workflow.Task.Location

/-!
# Where artifacts lie

The location of an output is made of the id of its node and of its own name, which are joined as
paths. Names of nodes and outputs have no points, and so no location leads upward. They may have
slashes, though, and then two outputs can share a file, an output can lie deeper than its node, and
an absolute name leaves the root altogether. `Fileable` says which names do not do that.
-/
namespace Workflow

namespace ArtifactRoot
open Workflow.Path

/-- The path of the file that is set aside for an output. -/
def file (r : ArtifactRoot) (run node output : String) : String :=
  join (r.nodeDirectory run node) output

variable {r : ArtifactRoot} {run node output node' output' : String}

theorem location_inj : r.location run node output = r.location run node' output' ↔
    r.file run node output = r.file run node' output' :=
  String.append_right_inj _

/-- Relative names lead down from the directory of the run. -/
theorem place_file (cwd : String) {down down' : Place} (hnode : isAbsolute node = false)
    (houtput : isAbsolute output = false) (hdown : parts node = down.reverse.map (·.1))
    (hdown' : parts output = down'.reverse.map (·.1)) :
    place cwd (r.nodeDirectory run node) = down ++ place cwd (join r.path run) ∧
      place cwd (r.file run node output) = down' ++ place cwd (r.nodeDirectory run node) := by
  constructor
  · rw [nodeDirectory, place_join_of_relative _ _ hnode, hdown, walk_names]
  · rw [file, place_join_of_relative _ _ houtput, hdown', walk_names]

/-- An absolute name leads to one file for all roots. -/
theorem file_of_absolute (h : isAbsolute node = true ∨ isAbsolute output = true)
    (r r' : ArtifactRoot) : r.file run node output = r'.file run node output := by
  unfold file nodeDirectory
  rcases h with h | h
  · rw [join_of_absolute _ h, join_of_absolute _ h]
  · rw [join_of_absolute _ h, join_of_absolute _ h]

end ArtifactRoot

namespace Pipeline
open Workflow.Path
variable {p : Pipeline} {root : ArtifactRoot} {run node output node' output' : String}

/-- A node of the pipeline has an output. -/
def Makes (p : Pipeline) (node output : String) : Prop :=
  ∃ n ∈ p.nodes, n.id = node ∧ ∃ o ∈ n.definition.outputs, o.name = output

/-- A node of the pipeline has an output that is an artifact. -/
def MakesArtifact (p : Pipeline) (node output : String) : Prop :=
  ∃ n ∈ p.nodes, n.id = node ∧ ∃ o ∈ n.definition.outputs, o.name = output ∧
    o.dataType.isArtifact = true

/-- Every output has a location and a file of its own, below the directory of the run and directly in
the directory of its node. -/
structure Isolated (p : Pipeline) (root : ArtifactRoot) (run : String) : Prop where
  distinct : ∀ {node output node' output'}, p.Makes node output → p.Makes node' output' →
    root.location run node output = root.location run node' output' →
    node = node' ∧ output = output'
  apart : ∀ {node output node' output'}, p.Makes node output → p.Makes node' output' →
    place "/" (root.file run node output) = place "/" (root.file run node' output') →
    node = node' ∧ output = output'
  path : ∀ {node output}, p.Makes node output →
    root.location run node output = "file://" ++ root.file run node output
  below : ∀ {node output}, p.Makes node output → ∃ down : Place, down ≠ [] ∧
    place "/" (root.file run node output) = down ++ place "/" (join root.path run)
  direct : ∀ {node output}, p.Makes node output → ∃ name : Name,
    place "/" (root.file run node output) = name :: place "/" (root.nodeDirectory run node)

/-- Nodes and outputs have relative paths for names, those of outputs with one part each, and the
parts tell one output from another. -/
structure Fileable (p : Pipeline) : Prop where
  relative : ∀ {node output}, p.Makes node output →
    isAbsolute node = false ∧ isAbsolute output = false
  single : ∀ {node output}, p.Makes node output → ∃ part, parts output = [part]
  parts_inj : ∀ {node output node' output'}, p.Makes node output → p.Makes node' output' →
    parts node = parts node' → parts output = parts output' → node = node' ∧ output = output'

/-! ## Names of a sealed pipeline -/

theorem Sealed.segment_of_makes (h : p.Sealed) (hm : p.Makes node output) :
    IsSegment node ∧ IsSegment output := by
  obtain ⟨b, hb, hseal⟩ := h
  obtain ⟨hfaultless, rfl⟩ := Builder.faultless_of_seal hseal
  obtain ⟨n, hn, rfl, o, ho, rfl⟩ := hm
  have hflawless := ((hb.sound hfaultless.deferred).node n hn).flawless
  have hnamed := (hb.named hfaultless.deferred).output n hn o ho
  exact ⟨(ArtifactId.nodeFlaw?_eq_none_iff.mp hflawless).2,
    ArtifactId.segmentFlaw?_eq_none_iff.mp hnamed⟩

/-- Only a slash keeps a segment from being a name of a file. -/
theorem plain_of_segment {s : String} (h : IsSegment s) (hslash : '/' ∉ s.toList) : Plain s := by
  obtain ⟨hne, hpoint⟩ := h
  refine ⟨hne, ?_, ?_, hslash⟩
  all_goals
    rintro rfl
    exact hpoint (by decide)

/-- Names without slashes are in order. -/
theorem Sealed.fileable (h : p.Sealed)
    (hslash : ∀ {node output}, p.Makes node output → '/' ∉ node.toList ∧ '/' ∉ output.toList) :
    p.Fileable := by
  have hplain {node output : String} (hm : p.Makes node output) : Plain node ∧ Plain output := by
    obtain ⟨hnode, houtput⟩ := h.segment_of_makes hm
    exact ⟨plain_of_segment hnode (hslash hm).1, plain_of_segment houtput (hslash hm).2⟩
  constructor
  case relative =>
    intro node output hm
    exact ⟨isAbsolute_eq_false (hslash hm).1, isAbsolute_eq_false (hslash hm).2⟩
  case single =>
    intro node output hm
    exact ⟨output, parts_of_plain (hplain hm).2⟩
  case parts_inj =>
    intro node output node' output' hm hm' hnode houtput
    rw [parts_of_plain (hplain hm).1, parts_of_plain (hplain hm').1] at hnode
    rw [parts_of_plain (hplain hm).2, parts_of_plain (hplain hm').2] at houtput
    exact ⟨List.singleton_inj.mp hnode, List.singleton_inj.mp houtput⟩

/-! ## When locations are isolated -/

/-- The parts of a fileable name lead down from the directory of the run: those of the node first,
and then one name for the output. -/
theorem Fileable.place_file (h : p.Fileable) (hp : p.Sealed) (hm : p.Makes node output) :
    ∃ (down : Place) (name : Name), parts node = down.reverse.map (·.1) ∧ parts output = [name.1] ∧
      ∀ (root : ArtifactRoot) (run : String),
        place "/" (root.nodeDirectory run node) = down ++ place "/" (join root.path run) ∧
        place "/" (root.file run node output) =
          name :: place "/" (root.nodeDirectory run node) := by
  obtain ⟨hnode, houtput⟩ := hp.segment_of_makes hm
  obtain ⟨down, hdown⟩ := exists_parts_eq hnode.2
  obtain ⟨down', hdown'⟩ := exists_parts_eq houtput.2
  obtain ⟨name, rfl⟩ : ∃ name, down' = [name] := by
    obtain ⟨part, hpart⟩ := h.single hm
    have hlength := congrArg List.length (hdown'.symm.trans hpart)
    simpa [List.length_eq_one_iff] using hlength
  obtain ⟨hrelative, hrelative'⟩ := h.relative hm
  exact ⟨down, name, hdown, hdown', fun root run =>
    ArtifactRoot.place_file "/" hrelative hrelative' hdown hdown'⟩

theorem Fileable.isolated (h : p.Fileable) (hp : p.Sealed) (root : ArtifactRoot) (run : String) :
    p.Isolated root run := by
  have hapart {node output node' output' : String} (hm : p.Makes node output)
      (hm' : p.Makes node' output')
      (he : place "/" (root.file run node output) = place "/" (root.file run node' output')) :
      node = node' ∧ output = output' := by
    obtain ⟨down, name, hdown, hname, hplace⟩ := h.place_file hp hm
    obtain ⟨down', name', hdown', hname', hplace'⟩ := h.place_file hp hm'
    obtain ⟨hdir, hfile⟩ := hplace root run
    obtain ⟨hdir', hfile'⟩ := hplace' root run
    rw [hfile, hfile', hdir, hdir'] at he
    obtain ⟨rfl, hdowns⟩ := List.cons.inj he
    rw [List.append_cancel_right hdowns] at hdown
    exact h.parts_inj hm hm' (hdown.trans hdown'.symm) (hname.trans hname'.symm)
  constructor
  case distinct =>
    intro node output node' output' hm hm' he
    exact hapart hm hm' (congrArg _ (ArtifactRoot.location_inj.mp he))
  case apart => exact hapart
  case path => exact fun _ => rfl
  case below =>
    intro node output hm
    obtain ⟨down, name, -, -, hplace⟩ := h.place_file hp hm
    obtain ⟨hdir, hfile⟩ := hplace root run
    exact ⟨name :: down, List.cons_ne_nil _ _, by rw [hfile, hdir, List.cons_append]⟩
  case direct =>
    intro node output hm
    obtain ⟨down, name, -, -, hplace⟩ := h.place_file hp hm
    exact ⟨name, (hplace root run).2⟩

/-- A directory for artifacts in the root of the file system. -/
def rootAt (name : Name) : ArtifactRoot := ⟨render [name]⟩

theorem place_rootAt (name run : Name) :
    place "/" (join (rootAt name).path run) = [run, name] := by
  simp [rootAt]

/-- Names that are good for all roots are fileable. Two roots show that none is absolute, since a file
cannot be below both. -/
theorem fileable_of_isolated (hp : p.Sealed)
    (h : ∀ root run, isAbsolute root.path = true → Plain run → p.Isolated root run) :
    p.Fileable := by
  let run : Name := ⟨"run", by decide⟩
  let one : Name := ⟨"one", by decide⟩
  let two : Name := ⟨"two", by decide⟩
  have hroot (name : Name) : p.Isolated (rootAt name) run :=
    h _ _ (isAbsolute_render [name]) run.2
  -- an absolute name leads to one file, which cannot be below both roots
  have hrelative {node output : String} (hm : p.Makes node output) :
      isAbsolute node = false ∧ isAbsolute output = false := by
    rw [← Bool.not_eq_true, ← Bool.not_eq_true, ← not_or]
    intro habs
    obtain ⟨down, -, hone⟩ := (hroot one).below hm
    obtain ⟨down', -, htwo⟩ := (hroot two).below hm
    rw [ArtifactRoot.file_of_absolute habs _ (rootAt two), htwo, place_rootAt, place_rootAt] at hone
    have hsame := (List.append_inj' hone rfl).2
    exact absurd hsame (by decide)
  have hplaces {node output : String} (hm : p.Makes node output) : ∃ down down' : Place,
      parts node = down.reverse.map (·.1) ∧ parts output = down'.reverse.map (·.1) ∧
      place "/" ((rootAt one).nodeDirectory run node) = down ++ [run, one] ∧
      place "/" ((rootAt one).file run node output) =
        down' ++ place "/" ((rootAt one).nodeDirectory run node) := by
    obtain ⟨hnode, houtput⟩ := hp.segment_of_makes hm
    obtain ⟨down, hdown⟩ := exists_parts_eq hnode.2
    obtain ⟨down', hdown'⟩ := exists_parts_eq houtput.2
    obtain ⟨hdir, hfile⟩ := ArtifactRoot.place_file "/" (hrelative hm).1 (hrelative hm).2 hdown hdown'
    rw [place_rootAt] at hdir
    exact ⟨down, down', hdown, hdown', hdir, hfile⟩
  constructor
  case relative => exact hrelative
  case single =>
    intro node output hm
    obtain ⟨down, down', -, hdown', -, hfile⟩ := hplaces hm
    obtain ⟨name, hname⟩ := (hroot one).direct hm
    have he : down' = [name] := List.append_cancel_right (hfile.symm.trans hname)
    exact ⟨name.1, by rw [hdown', he]; rfl⟩
  case parts_inj =>
    intro node output node' output' hm hm' hnode houtput
    obtain ⟨hrel, hrel'⟩ := hrelative hm
    obtain ⟨down, down', hdown, hdown', hdir, hfile⟩ := hplaces hm
    obtain ⟨hdir', hfile'⟩ := ArtifactRoot.place_file "/" (hrelative hm').1 (hrelative hm').2
      (hnode ▸ hdown) (houtput ▸ hdown')
    refine (hroot one).apart hm hm' ?_
    rw [hfile, hdir, hfile', hdir', place_rootAt]

/-! ## What bodies are told -/

theorem makesArtifact_iff {n : TaskNode} (hn : n ∈ p.nodes) (hids : (p.nodes.map (·.id)).Nodup) :
    p.MakesArtifact n.id output ↔
      ∃ o ∈ n.definition.outputs, o.name = output ∧ o.dataType.isArtifact = true := by
  constructor
  · rintro ⟨k, hk, hid, ho⟩
    obtain rfl := List.inj_on_of_nodup_map hids hk hn hid
    exact ho
  · exact fun ho => ⟨n, hn, rfl, ho⟩

/-- A body is told the locations of all artifacts that its node makes, and no other ones. -/
theorem locations_iff {m : Manifest} (hcompile : p.compile = .ok m) {plan : Plan} {bodies : Bodies}
    {params : Dict Scalar} {d : Drive} (hplan : plan.manifest = m)
    (hlocation : plan.location = root.location plan.run)
    (h : Drive.Reachable plan bodies params d) {i : Invocation} (hi : i ∈ d.invocations)
    {output uri : String} : i.context.locations.get? output = some uri ↔
      p.MakesArtifact i.context.node output ∧
        uri = root.location i.context.run i.context.node output := by
  obtain ⟨rfl, hids, hcompilable, -⟩ := compilable_of_compile hcompile
  obtain ⟨n, inputs, hn, -, hcontext⟩ := h.handed i hi
  rw [hplan] at hn
  obtain ⟨t, ht, rfl⟩ := mem_toManifest_nodes.mp (Manifest.mem_of_node? hn).1
  have houtputs := (TaskNode.compilesTo_compile (hcompilable t ht).outputs_eq).outputs_eq
  have hmem : output ∈ (t.compile.outputs.filter fun o => o.dataType.isArtifact).map (·.name) ↔
      ∃ o ∈ t.definition.outputs, o.name = output ∧ o.dataType.isArtifact = true := by
    simp only [houtputs, List.mem_map, List.mem_filter]
    constructor
    · rintro ⟨_, ⟨⟨o, ho, rfl⟩, hartifact⟩, rfl⟩
      exact ⟨o, ho, rfl, hartifact⟩
    · rintro ⟨o, ho, rfl, hartifact⟩
      exact ⟨_, ⟨⟨o, ho, rfl⟩, hartifact⟩, rfl⟩
  have hlocations : i.context.locations = Dict.ofList
      (((t.compile.outputs.filter fun o => o.dataType.isArtifact).map (·.name)).map fun name =>
        (name, root.location plan.run t.id name)) := by
    rw [hcontext, List.map_map, Drive.contextOf, hlocation]
    rfl
  have hnode : i.context.node = t.id ∧ i.context.run = plan.run := by
    rw [hcontext]
    exact ⟨rfl, rfl⟩
  rw [hlocations, Dict.get?_ofList_keyed, hnode.1, hnode.2, makesArtifact_iff ht hids, ← hmem,
    Option.ite_none_right_eq_some, Option.some_inj, eq_comm (a := uri)]

/-- The outputs of a sealed pipeline have files of their own in the directories of their nodes, under
every root and in every run, exactly if their names are fileable. The locations that a body is told
are those of its node's artifacts. -/
theorem Sealed.isolated_iff_fileable (hp : p.Sealed) :
    ((∀ root run, isAbsolute root.path = true → Plain run → p.Isolated root run) ↔ p.Fileable) ∧
    ∀ {m plan bodies params d} {root : ArtifactRoot}, p.compile = .ok m → plan.manifest = m →
      plan.location = root.location plan.run → Drive.Reachable plan bodies params d →
      ∀ i ∈ d.invocations, ∀ output uri, i.context.locations.get? output = some uri ↔
        p.MakesArtifact i.context.node output ∧
          uri = root.location i.context.run i.context.node output := by
  refine ⟨⟨fileable_of_isolated hp, fun h root run _ _ => h.isolated hp root run⟩, ?_⟩
  intro m plan bodies params d root hcompile hplan hlocation h i hi output uri
  exact locations_iff hcompile hplan hlocation h hi

/-- A task that writes one artifact. -/
def writing (output : String) : TaskDefinition :=
  { TaskDefinition.ofBody "write" (.registered "write") with outputs := [⟨output, .model⟩] }

/-- Two tasks, each with an artifact. -/
def twoWriters (node output node' output' : String) : Builder :=
  ((Builder.ofName "writers" none).define node (writing output) [] .empty).1.define node'
    (writing output') [] .empty |>.1

theorem reached_twoWriters (node output node' output' : String) :
    (twoWriters node output node' output').Reached fun _ => True :=
  .define (.define (.ofName _ _) _ trivial _ _) _ trivial _ _

theorem makes_twoWriters (hne : node ≠ node')
    (hseal : (twoWriters node output node' output').seal = .ok p) {x y : String} :
    p.Makes x y ↔ x = node ∧ y = output ∨ x = node' ∧ y = output' := by
  obtain ⟨-, rfl⟩ := Builder.faultless_of_seal hseal
  simp [Makes, twoWriters, Builder.define, Builder.ofName, Builder.nextId, Builder.takes, writing,
    hne, eq_comm]

/-- Tasks with names without slashes have locations of their own. -/
theorem trained_isolated : ∃ p : Pipeline, p.Sealed ∧ p.Makes "train" "model" ∧
    p.Makes "test" "report" ∧ p.Isolated ⟨"/srv/artifacts"⟩ "run-1" := by
  obtain ⟨p, hseal⟩ : ∃ p, (twoWriters "train" "model" "test" "report").seal = .ok p := ⟨_, rfl⟩
  have hp : p.Sealed := ⟨_, reached_twoWriters _ _ _ _, hseal⟩
  have hmakes {x y : String} : p.Makes x y ↔ _ := makes_twoWriters (by decide) hseal
  have hfileable : p.Fileable := hp.fileable fun hm => by
    rcases hmakes.mp hm with ⟨rfl, rfl⟩ | ⟨rfl, rfl⟩ <;> decide
  refine ⟨p, hp, hmakes.mpr (.inl ⟨rfl, rfl⟩), hmakes.mpr (.inr ⟨rfl, rfl⟩), ?_⟩
  exact hp.isolated_iff_fileable.1.mpr hfileable _ _ (isAbsolute_slash "srv/artifacts") (by decide)

/-- Tasks whose names have slashes are sealed, and two of their artifacts share a location. -/
theorem crossing_shares_location : ∃ p : Pipeline, p.Sealed ∧ p.Makes "a" "b/c" ∧
    p.Makes "a/b" "c" ∧ isAbsolute "/srv/artifacts" = true ∧ Plain "run-1" ∧
    ArtifactRoot.location ⟨"/srv/artifacts"⟩ "run-1" "a" "b/c" =
      ArtifactRoot.location ⟨"/srv/artifacts"⟩ "run-1" "a/b" "c" := by
  obtain ⟨p, hseal⟩ : ∃ p, (twoWriters "a" "b/c" "a/b" "c").seal = .ok p := ⟨_, rfl⟩
  have hmakes {x y : String} : p.Makes x y ↔ _ := makes_twoWriters (by decide) hseal
  exact ⟨p, ⟨_, reached_twoWriters _ _ _ _, hseal⟩, hmakes.mpr (.inl ⟨rfl, rfl⟩),
    hmakes.mpr (.inr ⟨rfl, rfl⟩), isAbsolute_slash "srv/artifacts", by decide, by decide +kernel⟩

end Pipeline
end Workflow
