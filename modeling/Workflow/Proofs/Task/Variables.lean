import Workflow.Proofs.Data.Dict
import Workflow.Task.ShellTask

/-!
# Variables of shell commands

A command finds every input and every artifact output in a variable that is called after it, and in
a second one the path if it is stored as a local file. Different names can become alike as parts of
variables, and a name can end as the variable of a path does. Where variables meet the last one is
left, so that a command finds everything exactly if whatever meets agrees.
-/
namespace Workflow.ShellTask

/-- A name as it stands in a variable. -/
def mangled (name : String) : String :=
  String.ofList (name.toList.map fun c => if c.isAlphanum then c.toUpper else '_')

/-- What a command finds under a name: a text, and a path for a local file. -/
structure Export where
  name : String
  text : String
  path : Option String

/-- The variables of an export with their texts, in the order in which they are set. -/
def Export.settings (start : String) (e : Export) : List (String × String) :=
  (e.path.map fun p => (variableName start e.name ++ "_PATH", p)).toList ++
    [(variableName start e.name, e.text)]

def inputStart : String := "DAGFLOW_INPUT_"

def outputStart : String := "DAGFLOW_OUTPUT_"

def inputExports (c : TaskContext) : List Export :=
  c.inputs.entries.map fun e =>
    ⟨e.1, variableText e.2, e.2.asArtifact?.bind fun a => localPath? a.uri⟩

def outputExports (c : TaskContext) : List Export :=
  c.locations.entries.map fun e => ⟨e.1, e.2, localPath? e.2⟩

def settings (c : TaskContext) : List (String × String) :=
  (inputExports c).flatMap (Export.settings inputStart) ++
    (outputExports c).flatMap (Export.settings outputStart)

/-- A command finds every input and every artifact output, and the paths of local files. -/
structure Delivered (own : Dict String) (c : TaskContext) : Prop where
  input : ∀ name v, c.inputs.get? name = some v →
    (bindings own c).get? (variableName inputStart name) = some (variableText v)
  inputPath : ∀ name p path, c.inputs.get? name = some (.artifact p) →
    localPath? p.uri = some path →
    (bindings own c).get? (variableName inputStart name ++ "_PATH") = some path
  output : ∀ name uri, c.locations.get? name = some uri →
    (bindings own c).get? (variableName outputStart name) = some uri
  outputPath : ∀ name uri path, c.locations.get? name = some uri → localPath? uri = some path →
    (bindings own c).get? (variableName outputStart name ++ "_PATH") = some path

/-- Exports whose variables meet have one text for them. -/
structure Agree (exports : List Export) : Prop where
  text : ∀ e ∈ exports, ∀ e' ∈ exports, mangled e.name = mangled e'.name → e.text = e'.text
  path : ∀ e ∈ exports, ∀ e' ∈ exports, mangled e.name ++ "_PATH" = mangled e'.name →
    ∀ p, e.path = some p → p = e'.text

/-! ## Bindings as a sequence of settings -/

theorem withVariable_eq (vs : Dict String) (start : String) (e : Export) :
    withVariable vs (variableName start e.name) e.text e.path =
      (e.settings start).foldl (fun vs s => vs.insert s.1 s.2) vs := by
  obtain ⟨name, text, path⟩ := e
  cases path <;> rfl

theorem foldl_withVariable (start : String) (exports : List Export) (vs : Dict String) :
    exports.foldl (fun vs e => withVariable vs (variableName start e.name) e.text e.path) vs =
      (exports.flatMap (Export.settings start)).foldl (fun vs s => vs.insert s.1 s.2) vs := by
  simp only [withVariable_eq, List.foldl_flatMap]

theorem bindings_eq (own : Dict String) (c : TaskContext) :
    bindings own c = (settings c).foldl (fun vs s => vs.insert s.1 s.2)
      ((own.insert "DAGFLOW_RUN_ID" c.run).insert "DAGFLOW_NODE_ID" c.node) := by
  rw [settings, List.foldl_append, ← foldl_withVariable, ← foldl_withVariable, inputExports,
    outputExports, List.foldl_map, List.foldl_map]
  rfl

variable {own : Dict String} {c : TaskContext} {start : String} {e e' : Export}

theorem mem_settings_iff {s : String × String} : s ∈ e.settings start ↔
    s = (variableName start e.name, e.text) ∨
      ∃ p, e.path = some p ∧ s = (variableName start e.name ++ "_PATH", p) := by
  rw [Export.settings, List.mem_append, List.mem_singleton, Option.mem_toList,
    Option.map_eq_some_iff, or_comm]
  simp only [eq_comm]

theorem mem_inputExports_iff : e ∈ inputExports c ↔ ∃ name v, c.inputs.get? name = some v ∧
    e = ⟨name, variableText v, v.asArtifact?.bind fun a => localPath? a.uri⟩ := by
  simp only [inputExports, List.mem_map, Prod.exists, Dict.mem_entries_iff, eq_comm]

theorem mem_inputExports {name : String} {v : Value} (h : c.inputs.get? name = some v) :
    ⟨name, variableText v, v.asArtifact?.bind fun a => localPath? a.uri⟩ ∈ inputExports c :=
  mem_inputExports_iff.mpr ⟨name, v, h, rfl⟩

theorem mem_outputExports_iff : e ∈ outputExports c ↔ ∃ name uri,
    c.locations.get? name = some uri ∧ e = ⟨name, uri, localPath? uri⟩ := by
  simp only [outputExports, List.mem_map, Prod.exists, Dict.mem_entries_iff, eq_comm]

/-- The path of an export is that of its text. -/
theorem localPath?_text (h : e ∈ inputExports c ∨ e ∈ outputExports c) {p : String}
    (hp : e.path = some p) : localPath? e.text = some p := by
  rcases h with h | h
  · obtain ⟨name, v, -, rfl⟩ := mem_inputExports_iff.mp h
    cases v with
    | scalar s => cases hp
    | artifact a => exact hp
  · obtain ⟨name, uri, -, rfl⟩ := mem_outputExports_iff.mp h
    exact hp

theorem delivered_iff :
    Delivered own c ↔ ∀ s ∈ settings c, (bindings own c).get? s.1 = some s.2 := by
  simp only [settings, List.mem_append, List.mem_flatMap]
  constructor
  · rintro h s (⟨e, he, hs⟩ | ⟨e, he, hs⟩)
    · obtain ⟨name, v, hv, rfl⟩ := mem_inputExports_iff.mp he
      rcases mem_settings_iff.mp hs with rfl | ⟨p, hp, rfl⟩
      · exact h.input name v hv
      · obtain ⟨a, ha, hpath⟩ := Option.bind_eq_some_iff.mp hp
        cases v with
        | scalar s => cases ha
        | artifact b =>
          cases ha
          exact h.inputPath name a p hv hpath
    · obtain ⟨name, uri, huri, rfl⟩ := mem_outputExports_iff.mp he
      rcases mem_settings_iff.mp hs with rfl | ⟨p, hp, rfl⟩
      · exact h.output name uri huri
      · exact h.outputPath name uri p huri hp
  · intro h
    constructor
    case input =>
      intro name v hv
      exact h _ (.inl ⟨_, mem_inputExports hv, mem_settings_iff.mpr (.inl rfl)⟩)
    case inputPath =>
      intro name p path hp hpath
      exact h _ (.inl ⟨_, mem_inputExports hp, mem_settings_iff.mpr (.inr ⟨path, hpath, rfl⟩)⟩)
    case output =>
      intro name uri huri
      exact h _ (.inr ⟨_, mem_outputExports_iff.mpr ⟨name, uri, huri, rfl⟩,
        mem_settings_iff.mpr (.inl rfl)⟩)
    case outputPath =>
      intro name uri path huri hpath
      exact h _ (.inr ⟨_, mem_outputExports_iff.mpr ⟨name, uri, huri, rfl⟩,
        mem_settings_iff.mpr (.inr ⟨path, hpath, rfl⟩)⟩)

/-! ## Variables that meet -/

theorem variableName_eq (start name : String) :
    variableName start name = start ++ mangled name := rfl

theorem variableName_inj {name name' : String} :
    variableName start name = variableName start name' ↔ mangled name = mangled name' :=
  String.append_right_inj _

/-- Inputs and outputs have no variables in common. -/
theorem inputStart_append_ne (a b : String) : inputStart ++ a ≠ outputStart ++ b := by
  intro h
  have hchars := congrArg (fun s => s.toList[8]?) h
  simp [inputStart, outputStart] at hchars

/-- The settings of exports agree exactly if the exports do. -/
theorem settings_agree_iff (start : String) {exports : List Export}
    (hpath : ∀ e ∈ exports, ∀ p, e.path = some p → localPath? e.text = some p) :
    (∀ e ∈ exports, ∀ s ∈ e.settings start, ∀ e' ∈ exports, ∀ s' ∈ e'.settings start,
      s.1 = s'.1 → s.2 = s'.2) ↔ Agree exports := by
  constructor
  · intro h
    constructor
    case text =>
      intro e he e' he' hname
      exact h e he _ (mem_settings_iff.mpr (.inl rfl)) e' he' _ (mem_settings_iff.mpr (.inl rfl))
        (variableName_inj.mpr hname)
    case path =>
      intro e he e' he' hname p hp
      refine h e he _ (mem_settings_iff.mpr (.inr ⟨p, hp, rfl⟩)) e' he' _
        (mem_settings_iff.mpr (.inl rfl)) ?_
      simp only [variableName_eq, String.append_assoc, hname]
  · intro h e he s hs e' he' s' hs' hkey
    rcases mem_settings_iff.mp hs with rfl | ⟨p, hp, rfl⟩ <;>
      rcases mem_settings_iff.mp hs' with rfl | ⟨p', hp', rfl⟩ <;>
      simp only [variableName_eq, String.append_assoc, String.append_right_inj] at hkey
    · exact h.text e he e' he' hkey
    · exact (h.path e' he' e he hkey.symm p' hp').symm
    · exact h.path e he e' he' hkey p hp
    · have htext := h.text e he e' he' ((String.append_left_inj _).mp hkey)
      have hlocal := hpath e he p hp
      rw [htext, hpath e' he' p' hp'] at hlocal
      exact (Option.some.inj hlocal).symm

theorem settings_start_append {exports : List Export} {s : String × String}
    (h : s ∈ exports.flatMap (Export.settings start)) : ∃ rest, s.1 = start ++ rest := by
  obtain ⟨e, -, hs⟩ := List.mem_flatMap.mp h
  rcases mem_settings_iff.mp hs with rfl | ⟨p, -, rfl⟩
  · exact ⟨_, variableName_eq start e.name⟩
  · exact ⟨mangled e.name ++ "_PATH", by rw [variableName_eq, String.append_assoc]⟩

theorem settings_agree : (∀ s ∈ settings c, ∀ s' ∈ settings c, s.1 = s'.1 → s.2 = s'.2) ↔
    Agree (inputExports c) ∧ Agree (outputExports c) := by
  rw [← settings_agree_iff inputStart fun e he p => localPath?_text (.inl he),
    ← settings_agree_iff outputStart fun e he p => localPath?_text (.inr he)]
  constructor
  · intro h
    refine ⟨fun e he s hs e' he' s' hs' => h s ?_ s' ?_,
      fun e he s hs e' he' s' hs' => h s ?_ s' ?_⟩
    all_goals rw [settings, List.mem_append]
    · exact .inl (List.mem_flatMap.mpr ⟨e, he, hs⟩)
    · exact .inl (List.mem_flatMap.mpr ⟨e', he', hs'⟩)
    · exact .inr (List.mem_flatMap.mpr ⟨e, he, hs⟩)
    · exact .inr (List.mem_flatMap.mpr ⟨e', he', hs'⟩)
  · rintro ⟨hinputs, houtputs⟩ s hs s' hs' hkey
    rcases List.mem_append.mp hs with hs | hs <;> rcases List.mem_append.mp hs' with hs' | hs'
    · obtain ⟨e, he, hs⟩ := List.mem_flatMap.mp hs
      obtain ⟨e', he', hs'⟩ := List.mem_flatMap.mp hs'
      exact hinputs e he s hs e' he' s' hs' hkey
    · obtain ⟨a, ha⟩ := settings_start_append hs
      obtain ⟨b, hb⟩ := settings_start_append hs'
      exact absurd (ha.symm.trans (hkey.trans hb)) (inputStart_append_ne a b)
    · obtain ⟨a, ha⟩ := settings_start_append hs
      obtain ⟨b, hb⟩ := settings_start_append hs'
      exact absurd (hb.symm.trans (hkey.symm.trans ha)) (inputStart_append_ne b a)
    · obtain ⟨e, he, hs⟩ := List.mem_flatMap.mp hs
      obtain ⟨e', he', hs'⟩ := List.mem_flatMap.mp hs'
      exact houtputs e he s hs e' he' s' hs' hkey

theorem delivered_iff_agree :
    Delivered own c ↔ Agree (inputExports c) ∧ Agree (outputExports c) := by
  rw [delivered_iff, bindings_eq, Dict.get?_foldl_insert_iff, settings_agree]

/-- The names stay apart as variables, and none ends as the variable for the path of another. -/
structure Apart (names : List String) : Prop where
  mangled_inj : ∀ a ∈ names, ∀ b ∈ names, mangled a = mangled b → a = b
  no_path : ∀ a ∈ names, ∀ b ∈ names, mangled a ++ "_PATH" ≠ mangled b

theorem Apart.agree {exports : List Export} (h : Apart (exports.map (·.name)))
    (hnodup : (exports.map (·.name)).Nodup) : Agree exports where
  text e he e' he' hname := by
    have hsame := h.mangled_inj _ (List.mem_map_of_mem he) _ (List.mem_map_of_mem he') hname
    rw [List.inj_on_of_nodup_map hnodup he he' hsame]
  path e he e' he' hname :=
    absurd hname (h.no_path _ (List.mem_map_of_mem he) _ (List.mem_map_of_mem he'))

theorem delivered_of_apart (own : Dict String) (hinputs : Apart c.inputs.keys)
    (hlocations : Apart c.locations.keys) : Delivered own c := by
  have hinputNames : (inputExports c).map (·.name) = c.inputs.keys := List.map_map
  have houtputNames : (outputExports c).map (·.name) = c.locations.keys := List.map_map
  refine delivered_iff_agree.mpr ⟨Apart.agree ?_ ?_, Apart.agree ?_ ?_⟩
  · exact hinputNames ▸ hinputs
  · exact hinputNames ▸ c.inputs.keys_nodup
  · exact houtputNames ▸ hlocations
  · exact houtputNames ▸ c.locations.keys_nodup

theorem exists_setting (own : Dict String) {s : String × String} (hs : s ∈ settings c) :
    ∃ text, (s.1, text) ∈ settings c ∧ (bindings own c).get? s.1 = some text := by
  rw [bindings_eq]
  exact Dict.exists_get?_foldl_insert hs _

/-- A command finds all inputs and artifact outputs with their paths exactly if those that meet in a
variable agree on its text, as they do when their names stay apart. What it finds in any case is the
text of one of those that meet, whatever the body sets for itself. -/
theorem variables_delivered (own : Dict String) (c : TaskContext) :
    (Delivered own c ↔ Agree (inputExports c) ∧ Agree (outputExports c)) ∧
    (Apart c.inputs.keys → Apart c.locations.keys → Delivered own c) ∧
    ∀ s ∈ settings c, ∃ text, (s.1, text) ∈ settings c ∧ (bindings own c).get? s.1 = some text :=
  ⟨delivered_iff_agree, delivered_of_apart own, fun _ => exists_setting own⟩

def contextOf (inputs : List (String × Value)) (locations : List (String × String)) :
    TaskContext where
  run := "run-1"
  node := "train"
  inputs := .ofList inputs
  locations := .ofList locations
  resources := .empty

/-- A rate and a local file with data, for a model that is a local file. -/
def trainContext : TaskContext :=
  contextOf [("learning-rate", .scalar (.float (.ofDecimal false 1 (-1)))),
    ("data", .atUri "file:///srv/rows.csv")] [("model", "file:///srv/model")]

theorem variables_delivered_train :
    Apart trainContext.inputs.keys ∧ Apart trainContext.locations.keys ∧
      Delivered (Dict.empty.insert "DAGFLOW_INPUT_DATA" "own") trainContext ∧
      (bindings (Dict.empty.insert "DAGFLOW_INPUT_DATA" "own") trainContext).get?
        "DAGFLOW_INPUT_DATA_PATH" = some "/srv/rows.csv" := by
  have hinputs : Apart trainContext.inputs.keys := ⟨by decide +kernel, by decide +kernel⟩
  have hlocations : Apart trainContext.locations.keys := ⟨by decide +kernel, by decide +kernel⟩
  have hdelivered := (variables_delivered (Dict.empty.insert "DAGFLOW_INPUT_DATA" "own")
    trainContext).2.1 hinputs hlocations
  exact ⟨hinputs, hlocations, hdelivered, hdelivered.inputPath "data" _ _ rfl (by decide +kernel)⟩

/-- Two rates whose names are alike as variables. -/
def ratesContext : TaskContext :=
  contextOf [("learning-rate", .scalar (.text "0.1")), ("learning_rate", .scalar (.text "0.2"))] []

/-- A local file, and a text whose variable is the one for the path of the file. -/
def pathContext : TaskContext :=
  contextOf [("data", .atUri "file:///srv/rows.csv"), ("data_path", .scalar (.text "rows"))] []

/-- A command can find one input where it looks for another, or where it looks for a path. -/
theorem variables_overwritten :
    (∀ own, ¬ Delivered own ratesContext) ∧ ∀ own, ¬ Delivered own pathContext := by
  refine ⟨fun own h => ?_, fun own h => ?_⟩
  · have hleft : ratesContext.inputs.get? "learning-rate" = some (.scalar (.text "0.1")) := rfl
    have hright : ratesContext.inputs.get? "learning_rate" = some (.scalar (.text "0.2")) := rfl
    have htext := (delivered_iff_agree.mp h).1.text _ (mem_inputExports hleft) _
      (mem_inputExports hright) (by decide +kernel)
    exact absurd htext (by decide)
  · have hfile : pathContext.inputs.get? "data" = some (.atUri "file:///srv/rows.csv") := rfl
    have htext : pathContext.inputs.get? "data_path" = some (.scalar (.text "rows")) := rfl
    have hpath := (delivered_iff_agree.mp h).1.path _ (mem_inputExports hfile) _
      (mem_inputExports htext) (by decide +kernel) "/srv/rows.csv" (by decide +kernel)
    exact absurd hpath (by decide)

end Workflow.ShellTask
