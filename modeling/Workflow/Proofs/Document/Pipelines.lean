import Workflow.Pipeline.Text
import Workflow.Proofs.Document.Manifests
import Workflow.Proofs.Document.RoundTrip

/-!
# Pipeline files that are written and read again

An entry of a task list is written without saying whether it is a task or a block. It is read as a
block first, which no task can be: a task has no condition. A block is read with the blocks in it,
down to the number of levels that its document has, and these are enough for all of them.
-/
namespace Workflow
open Document

/-! ## Fields of other records -/

namespace Document

theorem mem_present {slots : List (String × Option Document)} {f : String × Document}
    (h : f ∈ present slots) : ∃ slot ∈ slots, slot.1 = f.1 := by
  obtain ⟨slot, hslot, hf⟩ := List.mem_flatMap.mp h
  refine ⟨slot, hslot, ?_⟩
  obtain ⟨name, written⟩ := slot
  cases written with
  | none => cases hf
  | some w => exact congrArg Prod.fst (List.mem_singleton.mp hf).symm

theorem collectFields?_of_notMem {names : List String} {es : List (Document × Document)}
    {fields : List (String × Document)}
    (hes : List.Forall₂ (fun e f => settle? e.1 = some (.text f.1) ∧ settle? e.2 = some f.2) es
      fields) (h : ∀ f ∈ fields, f.1 ∉ names) : collectFields? names es = some [] := by
  induction hes with
  | nil => rfl
  | @cons e f es fields he _ ih =>
    obtain ⟨hname, hrest⟩ := List.forall_mem_cons.mp h
    obtain ⟨k, v⟩ := e
    obtain ⟨spelling, rfl⟩ := settle?_eq_atom he.1
    simp [collectFields?, fieldName?, ih hrest, hname]

end Document

/-! ## Components -/

namespace InputSpec

theorem encode_eq (s : InputSpec) :
    s.encode = .record (present [("name", some (.text s.name)), ("type", some s.dataType.encode),
      ("default", s.defaultValue.map Scalar.encode)]) := by
  rw [encode, optionalField_eq, ← present_singleton]
  rfl

theorem restores (s : InputSpec) : Restores InputSpec.decode? s.encode s := by
  intro d hd
  rw [encode_eq] at hd
  refine read_record hd (fun fields ⟨hname, htype, hdefault, _⟩ => ?_) rfl (by decide)
  rw [hname.required (restores_text s.name), htype.required s.dataType.restores,
    hdefault.optional (fun v _ => v.restores) Scalar.isNull_encode]
  rfl

end InputSpec

theorem OutputSpec.restores (s : OutputSpec) : Restores OutputSpec.decode? s.encode s := by
  intro d hd
  have hd : d.settle? = some (.record (present [("name", some (.text s.name)),
    ("type", some s.dataType.encode)])) := hd
  refine read_record hd (fun fields ⟨hname, htype, _⟩ => ?_) rfl (by decide)
  rw [hname.required (restores_text s.name), htype.required s.dataType.restores]
  rfl

theorem ResourceProfile.empty_eq {p : ResourceProfile} (h : p.isEmpty = true) : empty = p :=
  (of_decide_eq_true h).symm

namespace TaskDefinition

theorem encode_eq (c : TaskDefinition) :
    c.encode = .record (present [("name", some (.text c.name)),
      ("description", c.description.map Document.text),
      ("inputs", some (.sequence (c.inputs.map (·.encode)))),
      ("outputs", some (.sequence (c.outputs.map (·.encode)))),
      ("resources", if c.resources.isEmpty then none else some c.resources.encode),
      ("body", some c.body.encode)]) := by
  rw [encode, ResourceProfile.field, ite_eq_optionalField, optionalField_eq]
  simp only [present, List.flatMap_cons, List.flatMap_nil, List.append_assoc]
  rfl

theorem restores {c : TaskDefinition} (h : c.resources.Stable) :
    Restores TaskDefinition.decode? c.encode c := by
  intro d hd
  rw [encode_eq] at hd
  refine read_record hd (fun fields ⟨hname, hdescription, hinputs, houtputs, hresources, hbody,
    _⟩ => ?_) rfl (by decide)
  rw [hname.required (restores_text c.name),
    hdescription.optional (fun s _ => restores_text s) fun _ => rfl,
    hinputs.written (restores_list fun i _ => i.restores),
    houtputs.written (restores_list fun o _ => o.restores),
    hresources.unlessEmpty ResourceProfile.empty_eq (ResourceProfile.restores h),
    hbody.required c.body.restores]
  rfl

end TaskDefinition

/-! ## Tasks -/

namespace TaskSpec

def slots (s : TaskSpec) : List (String × Option Document) :=
  [("name", some (.text s.name)), ("component", some (.text s.component)),
    ("inputs", some (.ofDict Binding.encode s.inputs)),
    ("resources", if s.resources.isEmpty then none else some s.resources.encode)]

theorem encode_eq (s : TaskSpec) : s.encode = .record (present s.slots) := by
  rw [encode, ResourceProfile.field, ite_eq_optionalField, ← present_singleton]
  rfl

theorem restores {s : TaskSpec} (h : s.resources.Stable) :
    Restores TaskSpec.decode? s.encode s := by
  intro d hd
  rw [encode_eq] at hd
  refine read_record hd (fun fields ⟨hname, hcomponent, hinputs, hresources, _⟩ => ?_) rfl
    (by decide)
  rw [hname.required (restores_text s.name), hcomponent.required (restores_text s.component),
    hinputs.written (restores_dict fun _ b _ => b.restores),
    hresources.unlessEmpty ResourceProfile.empty_eq (ResourceProfile.restores h)]
  rfl

end TaskSpec

/-! ## Entries of task lists -/

namespace TaskEntry

mutual

/-- The tasks of an entry, at any depth. -/
def specs : TaskEntry → List TaskSpec
  | .task spec => [spec]
  | .block _ entries => specsList entries

def specsList : List TaskEntry → List TaskSpec
  | [] => []
  | e :: es => specs e ++ specsList es

end

theorem mem_specsList {es : List TaskEntry} {s : TaskSpec} :
    s ∈ specsList es ↔ ∃ e ∈ es, s ∈ e.specs := by
  induction es with
  | nil => simp [specsList]
  | cons e es ih => simp [specsList, ih]

theorem encodeList_eq_map (es : List TaskEntry) : encodeList es = es.map encode := by
  induction es with
  | nil => rfl
  | cons e es ih => rw [encodeList, ih, List.map_cons]

/-- A task is no block: a record of its fields has none that a block has. -/
theorem asFields?_task {s : TaskSpec} {d : Document} (hd : d.settle? = some s.encode) :
    d.asFields? ["when", "tasks"] = some [] := by
  rw [TaskSpec.encode_eq] at hd
  obtain ⟨es, rfl, hes⟩ := settle?_eq_mapping hd
  rw [List.forall₂_map_right_iff] at hes
  refine collectFields?_of_notMem hes fun f hf => ?_
  obtain ⟨slot, hslot, hname⟩ := mem_present hf
  have hnames : s.slots.map (·.1) = ["name", "component", "inputs", "resources"] := rfl
  have hother : ∀ name ∈ ["name", "component", "inputs", "resources"],
      name ∉ ["when", "tasks"] := by decide
  exact hother f.1 (hnames ▸ hname ▸ List.mem_map_of_mem hslot)

theorem levels_le_of_mem {d : Document} {ds : List Document} (h : d ∈ ds) :
    d.levels ≤ levelsItems ds := by
  induction ds with
  | nil => cases h
  | cons d' ds ih =>
    rw [levelsItems]
    rcases List.mem_cons.mp h with rfl | h
    · exact le_max_left _ _
    · exact (ih h).trans (le_max_right _ _)

/-- The entries of a block are two levels below it. -/
theorem levels_block {condition : ConditionClause} {entries : List TaskEntry} {e : TaskEntry}
    (he : e ∈ entries) : e.encode.levels + 2 ≤ (block condition entries).encode.levels := by
  have hitem : e.encode.levels ≤ levelsItems (encodeList entries) :=
    levels_le_of_mem (encodeList_eq_map entries ▸ List.mem_map_of_mem he)
  simp only [encode, record, List.map_cons, List.map_nil, levels, levelsEntries, levelsEntry]
  omega

theorem levels_pos (d : Document) : 0 < d.levels := by
  cases d <;> simp [levels]

theorem restores_task {s : TaskSpec} (h : s.resources.Stable) {depth : Nat} (hdepth : 0 < depth) :
    Restores (ofSettled? depth) s.encode (.task s) := by
  obtain ⟨depth, rfl⟩ := Nat.exists_eq_add_of_lt hdepth
  intro d hd
  rw [ofSettled?, asFields?_task hd, TaskSpec.restores h d hd]
  rfl

theorem restores_block {condition : ConditionClause} {entries : List TaskEntry} {depth : Nat}
    (h : ∀ e ∈ entries, Restores (ofSettled? depth) e.encode e) :
    Restores (ofSettled? (depth + 1)) (block condition entries).encode
      (block condition entries) := by
  intro d hd
  have hslots : d.settle? = some (.record (present [("when", some condition.encode),
      ("tasks", some (.sequence (entries.map encode)))])) := by
    rw [hd, encode, encodeList_eq_map]
    rfl
  have hblock : ((d.asFields? ["when", "tasks"]).bind fun fields =>
      (Fields.required fields "when" ConditionClause.decode?).bind fun condition =>
        (Fields.required fields "tasks" (asList? (ofSettled? depth))).bind fun entries =>
          some (block condition entries)) = some (block condition entries) := by
    refine read_record hslots (fun fields ⟨hwhen, htasks, _⟩ => ?_) rfl (by decide)
    rw [hwhen.required condition.restores, htasks.required (restores_list h)]
    rfl
  rw [ofSettled?]
  simp only [Option.bind_eq_bind, Option.pure_def, hblock]

mutual

theorem restores_ofSettled (e : TaskEntry) (h : ∀ s ∈ e.specs, s.resources.Stable) (depth : Nat)
    (hdepth : e.encode.levels ≤ depth) : Restores (ofSettled? depth) e.encode e := by
  cases e with
  | task s => exact restores_task (h s (List.mem_singleton_self s)) ((levels_pos _).trans_le hdepth)
  | block condition entries =>
    cases depth with
    | zero => exact absurd ((levels_pos _).trans_le hdepth) (lt_irrefl 0)
    | succ depth =>
      refine restores_block (restores_entries entries h depth fun e he => ?_)
      have hbelow : e.encode.levels + 2 ≤ (block condition entries).encode.levels := levels_block he
      omega

theorem restores_entries (es : List TaskEntry) (h : ∀ s ∈ specsList es, s.resources.Stable)
    (depth : Nat) (hdepth : ∀ e ∈ es, e.encode.levels ≤ depth) :
    ∀ e ∈ es, Restores (ofSettled? depth) e.encode e := by
  cases es with
  | nil => simp
  | cons e es =>
    rw [specsList, List.forall_mem_append] at h
    rw [List.forall_mem_cons] at hdepth ⊢
    exact ⟨restores_ofSettled e h.1 depth hdepth.1, restores_entries es h.2 depth hdepth.2⟩

end

/-- The levels of an entry's own document are enough to read it. -/
theorem restores {e : TaskEntry} (h : ∀ s ∈ e.specs, s.resources.Stable) :
    Restores TaskEntry.decode? e.encode e := by
  intro d hd
  have hsettled : e.encode.settle? = some e.encode := settle?_idem d hd
  rw [decode?, hd, Option.bind_eq_bind, Option.bind_some,
    restores_ofSettled e h _ le_rfl _ hsettled]

end TaskEntry

/-! ## Files -/

namespace PipelineFile

/-- All quantities of cpu and memory are read again from their texts, those of components and those
of tasks at any depth. -/
structure Stable (f : PipelineFile) : Prop where
  component : ∀ c ∈ f.components, c.resources.Stable
  task : ∀ s ∈ TaskEntry.specsList f.tasks, s.resources.Stable

theorem Stable.entry {f : PipelineFile} (h : f.Stable) {e : TaskEntry} (he : e ∈ f.tasks) :
    ∀ s ∈ e.specs, s.resources.Stable :=
  fun s hs => h.task s (TaskEntry.mem_specsList.mpr ⟨e, he, hs⟩)

theorem encode_eq (f : PipelineFile) :
    f.encode = .record (present [("version", some (.text f.version)), ("name", some (.text f.name)),
      ("description", f.description.map Document.text),
      ("parameters", some (.sequence (f.parameters.map (·.encode)))),
      ("components", some (.sequence (f.components.map (·.encode)))),
      ("tasks", some (.sequence (f.tasks.map (·.encode))))]) := by
  rw [encode, optionalField_eq, TaskEntry.encodeList_eq_map]
  simp only [present, List.flatMap_cons, List.flatMap_nil, List.append_assoc]
  rfl

theorem restores {f : PipelineFile} (h : f.Stable) : Restores PipelineFile.decode? f.encode f := by
  intro d hd
  rw [encode_eq] at hd
  refine read_record hd (fun fields ⟨hversion, hname, hdescription, hparameters, hcomponents,
    htasks, _⟩ => ?_) rfl (by decide)
  rw [hversion.written (restores_text f.version), hname.required (restores_text f.name),
    hdescription.optional (fun s _ => restores_text s) fun _ => rfl,
    hparameters.written (restores_list fun s _ => s.restores),
    hcomponents.written (restores_list fun c hc => TaskDefinition.restores (h.component c hc)),
    htasks.required (restores_list fun e he => TaskEntry.restores (h.entry he))]
  rfl

/-- A pipeline file is the same after it was written and read again, down to the innermost block.
What is built from it is the same too, be it a builder, a pipeline or an error. -/
theorem read_again {f : PipelineFile} (h : f.Stable)
    (hyaml : f.encode.Restored Yaml.read? Yaml.write) :
    ofYaml f.yamlText = .ok f ∧ (ofYaml f.yamlText).bind toBuilder = f.toBuilder ∧
      (ofYaml f.yamlText).bind build = f.build := by
  have hread : ofYaml f.yamlText = .ok f := by
    rw [ofYaml, yamlText, (restores h).read_text hyaml]
  rw [hread]
  exact ⟨rfl, rfl, rfl⟩

/-- A file with inputs of all kinds and a block in another. -/
def nightlyFile : PipelineFile where
  version := defaultVersion
  name := "nightly"
  description := some "fit: when due"
  parameters := [⟨"mode", .string, some (.text "5")⟩]
  components :=
    [{ TaskDefinition.ofBody "fit" (.shell "fit.sh" "bash" (Dict.empty.insert "SEED" "1")) with
       inputs := [⟨"rate", .float, some (.int 1)⟩, ⟨"mode", .string, none⟩]
       outputs := [⟨"ok", .bool⟩, ⟨"loss", .float⟩]
       resources := ⟨some ⟨500⟩, none, some ⟨1073741824⟩, none, Dict.empty⟩ }]
  tasks :=
    [.task ⟨"a", "fit", .ofList [("rate", .literal (.float (.ofDecimal false 5 (-1)))),
       ("mode", .literal (.text "true"))], .empty⟩,
     .block ⟨.param "mode", .text "5"⟩
       [.task ⟨"b", "fit", .ofList [("mode", .param "mode")],
          ⟨none, some ⟨2000⟩, none, none, .empty⟩⟩,
        .block ⟨.output "a" "ok", .bool true⟩
          [.task ⟨"c", "fit", .ofList [("rate", .output "b" "loss"), ("mode", .param "mode")],
            .empty⟩]]]

/-- The text of the file, line by line. -/
def nightlyLines : List String :=
  ["version: '1'", "name: nightly", "description: 'fit: when due'", "parameters:", "- name: mode",
   "  type: string", "  default: '5'", "components:", "- name: fit", "  inputs:", "  - name: rate",
   "    type: float", "    default: 1", "  - name: mode", "    type: string", "  outputs:",
   "  - name: ok", "    type: bool", "  - name: loss", "    type: float", "  resources:",
   "    cpu_request: 500m", "    memory_request: 1Gi", "  body:", "    type: shell",
   "    command: fit.sh", "    shell: bash", "    env:", "      SEED: '1'", "tasks:", "- name: a",
   "  component: fit", "  inputs:", "    mode: 'true'", "    rate: 0.5", "- when:", "    gate:",
   "      param: mode", "    equals: '5'", "  tasks:", "  - name: b", "    component: fit",
   "    inputs:", "      mode:", "        param: mode", "    resources:", "      cpu_limit: '2'",
   "  - when:", "      gate:", "        task: a", "        output: ok", "      equals: true",
   "    tasks:", "    - name: c", "      component: fit", "      inputs:", "        mode:",
   "          param: mode", "        rate:", "          task: b", "          output: loss"]

theorem stable_nightlyFile : nightlyFile.Stable := by
  have hcpu : CpuQuantity.parse (CpuQuantity.text ⟨500⟩) = .ok ⟨500⟩ := by decide +kernel
  have hlimit : CpuQuantity.parse (CpuQuantity.text ⟨2000⟩) = .ok ⟨2000⟩ := by decide +kernel
  have hmemory : MemoryQuantity.parse (MemoryQuantity.text ⟨1073741824⟩) = .ok ⟨1073741824⟩ := by
    decide +kernel
  have hempty : ResourceProfile.empty.Stable := ⟨nofun, nofun, nofun, nofun⟩
  refine ⟨List.forall_mem_singleton.mpr ⟨?_, nofun, ?_, nofun⟩, ?_⟩
  · rintro q ⟨⟩
    exact hcpu
  · rintro q ⟨⟩
    exact hmemory
  · simp only [nightlyFile, TaskEntry.specsList, TaskEntry.specs, List.append_nil, List.cons_append,
      List.nil_append, List.forall_mem_cons]
    refine ⟨hempty, ⟨nofun, ?_, nofun, nofun⟩, hempty, nofun⟩
    rintro q ⟨⟩
    exact hlimit

theorem yamlText_nightlyFile : nightlyFile.yamlText =
    String.ofList (nightlyLines.flatMap fun line => line.toList ++ ['\n']) :=
  eq_ofList_of_bytes (by decide +kernel)

theorem restored_nightlyFile : nightlyFile.encode.Restored Yaml.read? Yaml.write := by
  have htext : Yaml.write nightlyFile.encode = _ := yamlText_nightlyFile
  rw [Restored, htext, Yaml.read?, Yaml.tokens?_ofList]
  decide +kernel

theorem read_again_nightly : nightlyFile.Stable ∧
    nightlyFile.encode.Restored Yaml.read? Yaml.write ∧
    ofYaml nightlyFile.yamlText = .ok nightlyFile ∧
    (ofYaml nightlyFile.yamlText).bind build = nightlyFile.build := by
  obtain ⟨hfile, -, hbuild⟩ := read_again stable_nightlyFile restored_nightlyFile
  exact ⟨stable_nightlyFile, restored_nightlyFile, hfile, hbuild⟩

end PipelineFile
end Workflow
