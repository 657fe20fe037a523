import Workflow.Proofs.Tracker.Memory
import Workflow.Proofs.Tracker.Order
import Workflow.Proofs.Tracker.Shelf

/-!
# Both trackers answer alike

A tracker in files, on an empty directory, answers every sequence of calls as the tracker in memory
does. `Mirrors` relates a state of the one to the files of the other: each dictionary is the shelf
of a folder. It is kept by every operation, and where it holds both give the same answer.
-/
namespace Workflow

/-! ## Calls -/

namespace Tracker
variable {σ : Type}

inductive Call where
  | getOrCreateExperiment (name : String) (description : Option String) (id : String)
    (now : Instant)
  | experiment? (name : String)
  | experiments
  | recordRun (run : Run)
  | updateNode (run node : String) (state : NodeState)
  | updateRun (run : String) (status : RunStatus) (now : Instant)
  | run (id : String)
  | runs (experiment : Option String)

inductive Answer where
  | experiment (e : Experiment)
  | found (e : Option Experiment)
  | experiments (all : List Experiment)
  | recorded (outcome : RecordOutcome)
  | updated
  | run (run : Run)
  | runs (all : List Run)

/-- The operation that a call asks for. -/
def answer (t : Tracker σ) : Call → Stateful σ Answer
  | .getOrCreateExperiment name description id now =>
    .experiment <$> t.getOrCreateExperiment name description id now
  | .experiment? name => .found <$> t.experiment? name
  | .experiments => .experiments <$> t.experiments
  | .recordRun run => .recorded <$> t.recordRun run
  | .updateNode run node state => (fun _ => .updated) <$> t.updateNode run node state
  | .updateRun run status now => (fun _ => .updated) <$> t.updateRun run status now
  | .run id => .run <$> t.run id
  | .runs experiment => .runs <$> t.runs experiment

/-- The answers to calls that are made one after another. -/
def answers (t : Tracker σ) : List Call → σ → List (Except Fault Answer)
  | [], _ => []
  | c :: rest, s => ((t.answer c).run.run s).1 :: t.answers rest ((t.answer c).run.run s).2

end Tracker

/-- All documents read back as they were written. -/
structure MemoryTracker.Legible (m : MemoryTracker) : Prop where
  experiment : ∀ name e, m.experiments.get? name = some e →
    FileTracker.Reads Experiment.decode? (Json.pretty e.encode) e
  run : ∀ id r, m.runs.get? id = some r →
    FileTracker.Reads Run.decode? (Json.pretty r.encode) r

namespace FileTracker
open Workflow.Path

/-- The ids and keys of a call are names of files, written as they are read; a run that is recorded
is not recorded again under a key that is taken. -/
def Fits (names keys : Set String) (m : MemoryTracker) : Tracker.Call → Prop
  | .getOrCreateExperiment name _ _ _ => name ∈ names
  | .experiment? name => name ∈ names
  | .experiments => True
  | .recordRun run => Plain run.id ∧ trimText run.id = run.id ∧ run.idempotencyKey ∈ keys ∧
    (m.keys.contains run.idempotencyKey = true → m.runs.contains run.id = false)
  | .updateNode run _ _ => Plain run
  | .updateRun run _ _ => Plain run
  | .run id => Plain id
  | .runs _ => True

/-- Each call fits, and what it leaves can be read back. -/
def Admissible (names keys : Set String) : List Tracker.Call → MemoryTracker → Prop
  | [], _ => True
  | c :: rest, m => Fits names keys m c ∧
    ((MemoryTracker.tracker.answer c).run.run m).2.Legible ∧
    Admissible names keys rest ((MemoryTracker.tracker.answer c).run.run m).2

/-- Names of experiments have different digests, and keys are names of files but not of temporary
files. -/
structure Distinct (names keys : Set String) : Prop where
  digest_inj : Set.InjOn textDigest names
  plain : ∀ key ∈ keys, Plain key
  lasting : ∀ key ∈ keys, ∀ key' ∈ keys, ∀ n : ℕ,
    nameOf key ≠ draftName (toString n ++ "-key") (nameOf key')

/-! ## Names of documents -/

theorem marks_toString (n : ℕ) : Marks (toString n) := by
  have hdigit (c : Char) (h : c ∈ (toString n).toList) : c.isDigit = true := by
    have hdigits : (toString n).toList = Nat.toDigits 10 n := by simp
    rw [hdigits] at h
    exact Nat.isDigit_of_mem_toDigits (by decide) (by decide) h
  exact ⟨fun h => absurd (hdigit _ h) (by decide), fun h => absurd (hdigit _ h) (by decide)⟩

theorem extension?_docName {id base : String} (hne : id ≠ "") (h : '/' ∉ id.toList) :
    extension? (Path.join base (docName id).1) = some "json" := by
  have hname : id ++ ".json" = id ++ "." ++ "json" := by
    rw [String.append_assoc]
    rfl
  have hplain := (docName id).2
  rw [docName_val h, hname] at hplain ⊢
  exact extension?_join hplain hne (by decide)

theorem docName_injOn : Set.InjOn docName {id | Plain id} := fun _ h _ h' =>
  docName_inj h.2.2.2 h'.2.2.2

namespace Distinct
variable {names keys : Set String}

theorem experiment_injOn (h : Distinct names keys) :
    Set.InjOn (fun name => docName (textDigest name)) names := fun name hname name' hname' heq =>
  h.digest_inj hname hname'
    (docName_inj (slash_notMem_textDigest name) (slash_notMem_textDigest name') heq)

theorem key_injOn (h : Distinct names keys) :
    Set.InjOn nameOf keys := fun key hkey key' hkey' heq =>
  (nameOf_val (h.plain key hkey)).symm.trans
    ((congrArg Subtype.val heq).trans (nameOf_val (h.plain key' hkey')))

theorem keySlot_ne (h : Distinct names keys) {key : String} (hkey : key ∈ keys) (n : ℕ) :
    keySlot key ≠ draftSlot (toString n ++ "-key") (keySlot key) := fun heq =>
  h.lasting key hkey key hkey n (congrArg Prod.snd heq)

end Distinct

/-! ## The files that mirror a state -/

/-- Each dictionary of the tracker in memory is the shelf of a folder. -/
structure Mirrors (names keys : Set String) (m : MemoryTracker) (files : Cabinet) : Prop where
  sound : m.Sound
  trimmed : ∀ id r, m.runs.get? id = some r → trimText id = id
  experiments : Shelf files .experiments names (fun name => docName (textDigest name))
    (fun e => Json.pretty e.encode) m.experiments
  runs : Shelf files .runs {id | Plain id} docName (fun r => Json.pretty r.encode) m.runs
  keys : Shelf files .keys keys nameOf (fun id => id) m.keys

/-- On the files a program answers as an operation does in memory, and it leaves files that mirror
the state that the operation leaves. -/
def Follows (t : FileTracker) (cwd : String) (names keys : Set String) {α : Type}
    (p : FileProgram (Outcome α)) (files : Cabinet) (result : Outcome α × MemoryTracker) : Prop :=
  ∃ files', Runs t cwd p files result.1 files' ∧ Mirrors names keys result.2 files'

namespace Mirrors
variable {t : FileTracker} {cwd : String} {names keys : Set String} {m : MemoryTracker}
  {files : Cabinet} {name id key tag node : String} {description : Option String} {now : Instant}
  {e : Experiment} {run : Run} {state : NodeState} {status : RunStatus}

theorem empty (names keys : Set String) :
    Mirrors names keys MemoryTracker.empty fun _ => none where
  sound := MemoryTracker.sound_empty
  trimmed _ _ h := nomatch h
  experiments := Shelf.empty ..
  runs := Shelf.empty ..
  keys := Shelf.empty ..

/-! ### Temporary files -/

theorem run_draft (h : Mirrors names keys m files) (hmark : Marks tag) (id : String) :
    files (draftSlot tag (runSlot id)) = none :=
  h.runs.eq_none fun _ hk => draftName_ne_docName hmark.1 hk.2.2.2 _

theorem experiment_draft (h : Mirrors names keys m files) (hmark : Marks tag) (name : String) :
    files (draftSlot tag (experimentSlot name)) = none :=
  h.experiments.eq_none fun k _ => draftName_ne_docName hmark.1 (slash_notMem_textDigest k) _

theorem key_draft (h : Mirrors names keys m files) (hd : Distinct names keys) (hkey : key ∈ keys)
    (n : ℕ) : files (draftSlot (toString n ++ "-key") (keySlot key)) = none :=
  h.keys.eq_none fun k hk heq => hd.lasting k hk key hkey n heq.symm

/-! ### Changes -/

theorem insertExperiment (h : Mirrors names keys m files) (hd : Distinct names keys)
    (hname : e.name ∈ names) :
    Mirrors names keys { m with experiments := m.experiments.insert e.name e }
      (Function.update files (experimentSlot e.name) (some (Json.pretty e.encode))) where
  sound := h.sound.insertExperiment e
  trimmed := h.trimmed
  experiments := h.experiments.insert hd.experiment_injOn hname e
  runs := h.runs.update (by exact nofun)
  keys := h.keys.update (by exact nofun)

theorem insertRun (h : Mirrors names keys m files) (hid : run.id = id) (hplain : Plain id)
    (htrim : trimText id = id) :
    Mirrors names keys { m with runs := m.runs.insert id run }
      (Function.update files (runSlot id) (some (Json.pretty run.encode))) where
  sound := h.sound.insertRun hid
  trimmed id' r hr := by
    rw [Dict.get?_insert] at hr
    split_ifs at hr with heq
    · exact heq ▸ htrim
    · exact h.trimmed id' r hr
  experiments := h.experiments.update (by exact nofun)
  runs := h.runs.insert docName_injOn hplain run
  keys := h.keys.update (by exact nofun)

theorem record (h : Mirrors names keys m files) (hd : Distinct names keys) (hplain : Plain run.id)
    (htrim : trimText run.id = run.id) (hkey : run.idempotencyKey ∈ keys) :
    Mirrors names keys { m with
      keys := m.keys.insert run.idempotencyKey run.id
      runs := m.runs.insert run.id run } (Cabinet.record files run) where
  sound := h.sound.record run
  trimmed := (h.insertRun rfl hplain htrim).trimmed
  experiments := (h.insertRun rfl hplain htrim).experiments.update (by exact nofun)
  runs := (h.insertRun rfl hplain htrim).runs.update (by exact nofun)
  keys := (h.insertRun rfl hplain htrim).keys.insert hd.key_injOn hkey run.id

/-! ### Operations -/

theorem getOrCreateExperiment (h : Mirrors names keys m files) (hd : Distinct names keys)
    (hl : m.Legible) (hname : name ∈ names) (hmark : Marks tag) :
    Follows t cwd names keys (t.getOrCreateExperiment tag name description id now) files
      ((MemoryTracker.getOrCreateExperiment name description id now).run.run m) := by
  have hfile := h.experiments.file name hname
  have hdraft := h.experiment_draft hmark name
  rcases hget : m.experiments.get? name with - | e
  · rw [MemoryTracker.getOrCreateExperiment_new hget]
    rw [hget] at hfile
    exact ⟨_, runs_getOrCreateExperiment hmark hdraft hfile,
      h.insertExperiment (e := ⟨id, name, description, now⟩) hd hname⟩
  · rw [MemoryTracker.getOrCreateExperiment_known hget]
    rw [hget] at hfile
    exact ⟨_, runs_getOrCreateExperiment_taken hmark hdraft hfile (hl.experiment name e hget), h⟩

theorem experiment? (h : Mirrors names keys m files) (hl : m.Legible) (hname : name ∈ names) :
    Follows t cwd names keys (readDocument Experiment.decode? (t.experimentPath name)) files
      (.ok (m.experiments.get? name), m) := by
  have hfile := h.experiments.file name hname
  rcases hget : m.experiments.get? name with - | e
  · rw [hget] at hfile
    exact ⟨_, runs_readDocument_missing (t.denotes_experimentPath cwd name) hfile, h⟩
  · rw [hget] at hfile
    exact ⟨_, runs_readDocument (t.denotes_experimentPath cwd name) hfile
      (hl.experiment name e hget), h⟩

theorem recordRun (h : Mirrors names keys m files) (hd : Distinct names keys) (hl : m.Legible)
    (hplain : Plain run.id) (htrim : trimText run.id = run.id) (hkey : run.idempotencyKey ∈ keys)
    (hfresh : m.keys.contains run.idempotencyKey = true → m.runs.contains run.id = false) (n : ℕ) :
    Follows t cwd names keys (t.recordRun (toString n) run) files
      ((MemoryTracker.recordRun run).run.run m) := by
  have hmark := marks_toString n
  have hplainKey := hd.plain _ hkey
  have hfile := h.keys.file _ hkey
  rcases hget : m.keys.get? run.idempotencyKey with - | id
  · rw [MemoryTracker.recordRun_new hget]
    rw [hget] at hfile
    exact ⟨_, runs_recordRun hplain.2.2.2 hplainKey hmark (h.run_draft hmark _)
      (h.key_draft hd hkey n) (hd.keySlot_ne hkey n) hfile, h.record hd hplain htrim hkey⟩
  · obtain ⟨other, hother⟩ := h.sound.key_run _ id hget
    rw [MemoryTracker.recordRun_known hget hother]
    rw [hget] at hfile
    have hnew : m.runs.get? run.id = none := by
      have hcontains := hfresh (Dict.contains_iff.mpr ⟨id, hget⟩)
      rwa [Dict.contains, Option.isSome_eq_false_iff, Option.isNone_iff_eq_none] at hcontains
    -- the document of the run was not there before, so that removing it restores the files
    have hsame : Function.update files (runSlot run.id) none = files := by
      have hnone := h.runs.file run.id hplain
      rw [hnew] at hnone
      exact Function.update_eq_self_iff.mpr hnone.symm
    have hload : Runs t cwd (t.loadRun id) files (.ok other) files :=
      runs_loadRun (h.runs.mem id other hother).2.2.2 (h.runs.file_eq_some hother)
        (hl.run id other hother)
    have htaken := runs_recordRun_taken (t := t) hplain.2.2.2 hplainKey hmark (h.run_draft hmark _)
      (h.key_draft hd hkey n) (hd.keySlot_ne hkey n) hfile (h.trimmed id other hother)
      (hsame.symm ▸ hload)
    rw [hsame] at htaken
    exact ⟨_, htaken, h⟩

theorem find (h : Mirrors names keys m files) (hl : m.Legible) (hplain : Plain id) :
    Follows t cwd names keys (t.loadRun id) files ((MemoryTracker.find id).run.run m) := by
  have hfile := h.runs.file id hplain
  rcases hget : m.runs.get? id with - | r
  · rw [MemoryTracker.find_missing hget]
    rw [hget] at hfile
    exact ⟨_, runs_loadRun_missing hplain.2.2.2 hfile, h⟩
  · rw [MemoryTracker.find_known hget]
    rw [hget] at hfile
    exact ⟨_, runs_loadRun hplain.2.2.2 hfile (hl.run id r hget), h⟩

theorem updateNode (h : Mirrors names keys m files) (hl : m.Legible) (hplain : Plain id)
    (hmark : Marks tag) :
    Follows t cwd names keys (t.modifyRun tag id fun r =>
      match r.setNode? node state with
      | some r => .ok r
      | none => .error (unknownNode r.id node)) files
      ((MemoryTracker.updateNode id node state).run.run m) := by
  have hfile := h.runs.file id hplain
  rcases hget : m.runs.get? id with - | r
  · rw [MemoryTracker.updateNode_missing hget]
    rw [hget] at hfile
    exact ⟨_, runs_modifyRun_missing hplain.2.2.2 hfile _, h⟩
  · rw [hget] at hfile
    rcases hset : r.setNode? node state with - | r'
    · rw [MemoryTracker.updateNode_unknown hget hset]
      refine ⟨_, runs_modifyRun_error hplain.2.2.2 hfile (hl.run id r hget) ?_, h⟩
      rw [hset]
    · rw [MemoryTracker.updateNode_known hget hset]
      refine ⟨_, runs_modifyRun hplain.2.2.2 hmark (h.run_draft hmark id) hfile
        (hl.run id r hget) (by rw [hset]), ?_⟩
      exact h.insertRun ((MemoryTracker.id_of_setNode? hset).trans (h.sound.run_id id r hget))
        hplain (h.trimmed id r hget)

theorem updateRun (h : Mirrors names keys m files) (hl : m.Legible) (hplain : Plain id)
    (hmark : Marks tag) :
    Follows t cwd names keys (t.modifyRun tag id fun r => .ok (r.setStatus status now)) files
      ((MemoryTracker.updateRun id status now).run.run m) := by
  have hfile := h.runs.file id hplain
  rcases hget : m.runs.get? id with - | r
  · rw [MemoryTracker.updateRun_missing hget]
    rw [hget] at hfile
    exact ⟨_, runs_modifyRun_missing hplain.2.2.2 hfile _, h⟩
  · rw [MemoryTracker.updateRun_known hget]
    rw [hget] at hfile
    exact ⟨_, runs_modifyRun hplain.2.2.2 hmark (h.run_draft hmark id) hfile (hl.run id r hget) rfl,
      h.insertRun (h.sound.run_id id r hget) hplain (h.trimmed id r hget)⟩

end Mirrors

/-! ## Calls one after another -/

/-- The files on a disk mirror the state of the tracker in memory. -/
def Corresponds (t : FileTracker) (cwd : String) (names keys : Set String) (m : MemoryTracker)
    (disk : Disk) : Prop :=
  ∃ files, Shows t cwd disk.tree (fun _ => True) files ∧ Mirrors names keys m files

/-- Two operations give the same answer, and leave states that correspond. -/
def Agrees (t : FileTracker) (cwd : String) (names keys : Set String) {α : Type}
    (x : Outcome α × MemoryTracker) (y : Outcome α × Disk) : Prop :=
  y.1 = x.1 ∧ Corresponds t cwd names keys x.2 y.2

variable {t : FileTracker} {cwd : String} {names keys : Set String} {m : MemoryTracker}
  {disk : Disk} {files : Cabinet} {α β : Type}

theorem Agrees.map {x : Stateful MemoryTracker α} {y : Stateful Disk α}
    (h : Agrees t cwd names keys (x.run.run m) (y.run.run disk)) (f : α → β) :
    Agrees t cwd names keys ((f <$> x).run.run m) ((f <$> y).run.run disk) := by
  rw [Stateful.run_map, Stateful.run_map]
  exact ⟨congrArg (Except.map f) h.1, h.2⟩

theorem Follows.agrees {x : Outcome α × MemoryTracker}
    (program : String → FileProgram (Outcome α))
    (h : Follows t cwd names keys (program (toString disk.serial)) files x)
    (hshows : Shows t cwd disk.tree (fun _ => True) files) :
    Agrees t cwd names keys x ((onDisk program).run.run disk) := by
  obtain ⟨files', hruns, hmirrors⟩ := h
  obtain ⟨hvalue, hshows'⟩ := hruns _ hshows
  rw [run_onDisk]
  exact ⟨hvalue, files', hshows', hmirrors⟩

/-- A listing of the documents of a folder. -/
theorem agrees_listing {f : Folder} {known : Set String} {name : String → Name} {text : α → String}
    {d : Dict α} {decode? : Document → Option α} {order : List α → β}
    (hshows : Shows t cwd disk.tree (fun _ => True) files) (h : Mirrors names keys m files)
    (hshelf : Shelf files f known name text d) (hinj : Set.InjOn name known)
    (hreads : ∀ k v, d.get? k = some v → Reads decode? (text v) v)
    (hjson : ∀ k ∈ known, extension? (Path.join (t.folderPath f) (name k).1) = some "json")
    (horder : ∀ docs : List α, docs.Perm d.values → order docs = order d.values) :
    Agrees t cwd names keys (.ok (order d.values), m)
      ((do return order (← onDisk fun _ => readAll decode? (t.folderPath f)) :
        Stateful Disk β).run.run disk) := by
  obtain ⟨docs, hvalue, hperm, hafter⟩ := hshelf.readAll hinj hreads hjson hshows
  have hlisted := run_onDisk (fun _ => readAll decode? (t.folderPath f)) disk
  rw [hvalue] at hlisted
  rw [Stateful.run_bind_ok hlisted]
  refine ⟨?_, files, hafter, h⟩
  rw [← horder docs hperm]
  rfl

theorem Mirrors.experiment_inj (h : Mirrors names keys m files) {docs : List Experiment}
    (hperm : docs.Perm m.experiments.values) :
    ∀ a ∈ docs, ∀ b ∈ docs, a.name = b.name → a = b := by
  have hkept (a : Experiment) (ha : a ∈ docs) : m.experiments.get? a.name = some a := by
    obtain ⟨name, hname⟩ := Dict.mem_values_iff.mp (hperm.mem_iff.mp ha)
    rwa [h.sound.experiment_name name a hname]
  intro a ha b hb heq
  have hb' := hkept b hb
  rw [← heq, hkept a ha] at hb'
  exact Option.some.inj hb'

theorem Mirrors.run_inj (h : Mirrors names keys m files) {docs : List Run}
    (hperm : docs.Perm m.runs.values) : ∀ a ∈ docs, ∀ b ∈ docs, a.id = b.id → a = b := by
  have hkept (a : Run) (ha : a ∈ docs) : m.runs.get? a.id = some a := by
    obtain ⟨id, hid⟩ := Dict.mem_values_iff.mp (hperm.mem_iff.mp ha)
    rwa [h.sound.run_id id a hid]
  intro a ha b hb heq
  have hb' := hkept b hb
  rw [← heq, hkept a ha] at hb'
  exact Option.some.inj hb'

/-- A call that fits is answered alike, and leaves states that correspond. -/
theorem Corresponds.answer (h : Corresponds t cwd names keys m disk) (hd : Distinct names keys)
    (hl : m.Legible) {c : Tracker.Call} (hfits : Fits names keys m c) :
    Agrees t cwd names keys ((MemoryTracker.tracker.answer c).run.run m)
      ((t.tracker.answer c).run.run disk) := by
  obtain ⟨files, hshows, hm⟩ := h
  -- each call is a program on files that follows the operation in memory; listings agree once they
  -- are put in order
  cases c with
  | getOrCreateExperiment name description id now =>
    have hfollows : Follows t cwd names keys
        (t.getOrCreateExperiment (toString disk.serial) name description id now) files
        ((MemoryTracker.getOrCreateExperiment name description id now).run.run m) :=
      hm.getOrCreateExperiment hd hl hfits (marks_toString _)
    exact (Follows.agrees (fun tag => t.getOrCreateExperiment tag name description id now) hfollows
      hshows).map _
  | experiment? name =>
    have hfollows : Follows t cwd names keys
        (readDocument Experiment.decode? (t.experimentPath name)) files
        (.ok (m.experiments.get? name), m) := hm.experiment? hl hfits
    exact Agrees.map (x := MemoryTracker.tracker.experiment? name)
      (Follows.agrees (fun _ => readDocument Experiment.decode? (t.experimentPath name)) hfollows
        hshows) _
  | experiments =>
    refine Agrees.map (x := MemoryTracker.tracker.experiments) (agrees_listing hshows hm
      hm.experiments hd.experiment_injOn hl.experiment (fun name _ => ?_) fun docs hdocs => ?_) _
    · exact extension?_docName (Blake3.hexDigest_ne_empty _) (slash_notMem_textDigest name)
    · exact orderExperiments_eq_of_perm hdocs (hm.experiment_inj hdocs)
  | recordRun run =>
    obtain ⟨hplain, htrim, hkey, hfresh⟩ := hfits
    have hfollows : Follows t cwd names keys (t.recordRun (toString disk.serial) run) files
        ((MemoryTracker.recordRun run).run.run m) :=
      hm.recordRun hd hl hplain htrim hkey hfresh _
    exact (Follows.agrees (fun tag => t.recordRun tag run) hfollows hshows).map _
  | updateNode run node state =>
    have hfollows : Follows t cwd names keys (t.modifyRun (toString disk.serial) run fun r =>
        match r.setNode? node state with
        | some r => .ok r
        | none => .error (unknownNode r.id node)) files
        ((MemoryTracker.updateNode run node state).run.run m) :=
      hm.updateNode hl hfits (marks_toString _)
    exact (Follows.agrees (fun tag => t.modifyRun tag run fun r =>
      match r.setNode? node state with
      | some r => .ok r
      | none => .error (unknownNode r.id node)) hfollows hshows).map _
  | updateRun run status now =>
    have hfollows : Follows t cwd names keys
        (t.modifyRun (toString disk.serial) run fun r => .ok (r.setStatus status now)) files
        ((MemoryTracker.updateRun run status now).run.run m) :=
      hm.updateRun hl hfits (marks_toString _)
    exact (Follows.agrees (fun tag => t.modifyRun tag run fun r => .ok (r.setStatus status now))
      hfollows hshows).map _
  | run id =>
    exact (Follows.agrees (fun _ => t.loadRun id) (hm.find hl hfits) hshows).map _
  | runs experiment =>
    refine Agrees.map (x := MemoryTracker.tracker.runs experiment) (agrees_listing hshows hm hm.runs
      docName_injOn hl.run (fun id hid => ?_) fun docs hdocs => ?_) _
    · exact extension?_docName hid.1 hid.2.2.2
    · exact orderRuns_eq_of_perm hdocs (hm.run_inj hdocs) experiment

theorem Corresponds.answers (h : Corresponds t cwd names keys m disk) (hd : Distinct names keys)
    (calls : List Tracker.Call) (hl : m.Legible)
    (hcalls : Admissible names keys calls m) :
    t.tracker.answers calls disk = MemoryTracker.tracker.answers calls m := by
  induction calls generalizing m disk with
  | nil => rfl
  | cons c rest ih =>
    obtain ⟨hfits, hl', hrest⟩ := hcalls
    obtain ⟨hanswer, hafter⟩ := h.answer hd hl hfits
    rw [Tracker.answers, Tracker.answers, hanswer, ih hafter hl' hrest]

/-- A tracker in files that is opened on an empty directory answers every sequence of calls as the
tracker in memory does. -/
theorem answers_eq {tree : FileTree} (hv : t.Vacant tree) (hd : Distinct names keys) (serial : ℕ)
    (calls : List Tracker.Call) (hcalls : Admissible names keys calls MemoryTracker.empty) :
    t.tracker.answers calls ⟨(t.prepare.run tree).2, serial⟩ =
      MemoryTracker.tracker.answers calls MemoryTracker.empty := by
  have hshows := hv.shows.prepare.2
  generalize (t.prepare.run tree).2 = opened at hshows ⊢
  have hopened : Corresponds t tree.cwd names keys MemoryTracker.empty ⟨opened, serial⟩ :=
    ⟨fun _ => none, hshows, Mirrors.empty names keys⟩
  exact hopened.answers hd calls ⟨fun _ _ h => (nomatch h), fun _ _ h => nomatch h⟩ hcalls

/-- A session in which a run is recorded, found under its key, and changed. -/
def session : List Tracker.Call :=
  [.getOrCreateExperiment "news" none "1" ⟨0, 0⟩, .recordRun (bareRun "a" "k"),
    .recordRun (bareRun "b" "k"), .updateRun "a" .succeeded ⟨1, 0⟩, .run "b", .runs none,
    .experiments]

theorem distinct_session : Distinct {"news"} {"k"} where
  digest_inj _ hname _ hname' _ :=
    (Set.mem_singleton_iff.mp hname).trans (Set.mem_singleton_iff.mp hname').symm
  plain key hkey := by
    rw [Set.mem_singleton_iff.mp hkey]
    decide
  lasting key hkey _ _ n := by
    rw [Set.mem_singleton_iff.mp hkey]
    exact nameOf_ne_draftName (by decide) (Folder.marks_mark (marks_toString n) .keys).1
      (by decide) _

theorem legible_of_values {es : List Experiment} {rs : List Run}
    (hes : m.experiments.values = es) (hrs : m.runs.values = rs)
    (he : ∀ e ∈ es, Reads Experiment.decode? (Json.pretty e.encode) e)
    (hr : ∀ r ∈ rs, Reads Run.decode? (Json.pretty r.encode) r) : m.Legible where
  experiment name e h := he e (hes ▸ Dict.mem_values_iff.mpr ⟨name, h⟩)
  run id r h := hr r (hrs ▸ Dict.mem_values_iff.mpr ⟨id, h⟩)

theorem admissible_session : Admissible {"news"} {"k"} session MemoryTracker.empty := by
  have hexperiment : ∀ e ∈ [Experiment.mk "1" "news" none ⟨0, 0⟩],
      Reads Experiment.decode? (Json.pretty e.encode) e :=
    List.forall_mem_singleton.mpr (reads_experiment stable_epoch)
  have hrecorded : ∀ r ∈ [bareRun "a" "k"], Reads Run.decode? (Json.pretty r.encode) r :=
    List.forall_mem_singleton.mpr (reads_bareRun "a" "k")
  have hlater : Instant.Stable ⟨1, 0⟩ := by
    unfold Instant.Stable
    decide +kernel
  have hchanged : ∀ r ∈ [(bareRun "a" "k").setStatus .succeeded ⟨1, 0⟩],
      Reads Run.decode? (Json.pretty r.encode) r := by
    refine List.forall_mem_singleton.mpr (reads_run ⟨stable_epoch, ?_, nofun⟩ ⟨nofun, nofun⟩)
    rintro t ⟨⟩
    exact hlater
  have hplain : Plain "a" ∧ Plain "b" := by decide
  refine ⟨rfl, legible_of_values rfl rfl hexperiment fun r hr => absurd hr List.not_mem_nil,
    ⟨hplain.1, by decide +kernel, rfl, by decide +kernel⟩,
    legible_of_values rfl rfl hexperiment hrecorded,
    ⟨hplain.2, by decide +kernel, rfl, by decide +kernel⟩,
    legible_of_values rfl rfl hexperiment hrecorded,
    hplain.1, legible_of_values rfl rfl hexperiment hchanged,
    hplain.2, legible_of_values rfl rfl hexperiment hchanged,
    trivial, legible_of_values rfl rfl hexperiment hchanged,
    trivial, legible_of_values rfl rfl hexperiment hchanged, trivial⟩

/-- Both trackers find the run under its key and list it as it is after the change. -/
theorem session_answered :
    (tracker ⟨"state"⟩).answers session ⟨((prepare ⟨"state"⟩).run (.empty "/")).2, 0⟩ =
        MemoryTracker.tracker.answers session MemoryTracker.empty ∧
      (MemoryTracker.tracker.answers session MemoryTracker.empty).take 5 =
        [.ok (.experiment ⟨"1", "news", none, ⟨0, 0⟩⟩), .ok (.recorded .created),
          .ok (.recorded (.existing (bareRun "a" "k"))), .ok .updated,
          .error (.runNotFound "b")] := by
  exact ⟨answers_eq (vacant_empty _ _) distinct_session 0 session admissible_session, rfl⟩

/-! ## A run that is recorded twice -/

/-- Recording a recorded run again makes the tracker in files lose it. -/
theorem again_lost :
    (tracker ⟨"state"⟩).answers [.recordRun (bareRun "a" "k"), .recordRun (bareRun "a" "k")]
        ⟨((prepare ⟨"state"⟩).run (.empty "/")).2, 0⟩ =
      [.ok (.recorded .created), .error (.runNotFound "a")] ∧
    MemoryTracker.tracker.answers [.recordRun (bareRun "a" "k"), .recordRun (bareRun "a" "k")]
        MemoryTracker.empty =
      [.ok (.recorded .created), .ok (.recorded (.existing (bareRun "a" "k")))] := by
  refine ⟨?_, rfl⟩
  have hanswer (disk : Disk) :
      ((tracker ⟨"state"⟩).answer (.recordRun (bareRun "a" "k"))).run.run disk =
        (((recordRun ⟨"state"⟩ (toString disk.serial) (bareRun "a" "k")).run disk.tree).1.map
          .recorded,
          ⟨((recordRun ⟨"state"⟩ (toString disk.serial) (bareRun "a" "k")).run disk.tree).2,
            disk.serial + 1⟩) := by
    change (Tracker.Answer.recorded <$> onDisk fun tag =>
      recordRun ⟨"state"⟩ tag (bareRun "a" "k")).run.run disk = _
    rw [Stateful.run_map, run_onDisk]
  have hkey : "k" ∈ ({"k"} : Set String) := rfl
  have hplainKey : Plain "k" := by decide
  have hplain : Plain "a" := by decide
  have htrim : trimText "a" = "a" := by decide +kernel
  have hempty : Mirrors {"news"} {"k"} MemoryTracker.empty fun _ => none := Mirrors.empty ..
  have hmirrors : Mirrors {"news"} {"k"} _ (Cabinet.record (fun _ => none) (bareRun "a" "k")) :=
    hempty.record distinct_session hplain htrim hkey
  have hfirst : Runs ⟨"state"⟩ "/" (recordRun ⟨"state"⟩ (toString 0) (bareRun "a" "k"))
      (fun _ => none) (.ok .created) (Cabinet.record (fun _ => none) (bareRun "a" "k")) :=
    runs_recordRun hplain.2.2.2 hplainKey (marks_toString 0) rfl rfl
      (distinct_session.keySlot_ne hkey 0) rfl
  -- the second call finds its own key taken, and removes the document that it looks for next
  have hsecond : Runs ⟨"state"⟩ "/" (recordRun ⟨"state"⟩ (toString 1) (bareRun "a" "k"))
      (Cabinet.record (fun _ => none) (bareRun "a" "k"))
      ((Except.error (.runNotFound "a") : Outcome Run).map .existing) _ :=
    runs_recordRun_taken (show '/' ∉ (bareRun "a" "k").id.toList from hplain.2.2.2) hplainKey
      (marks_toString 1) (hmirrors.run_draft (marks_toString 1) "a")
      (hmirrors.key_draft distinct_session hkey 1) (distinct_session.keySlot_ne hkey 1)
      (Cabinet.record_key _ (bareRun "a" "k")) htrim
      (runs_loadRun_missing hplain.2.2.2 (Function.update_self ..))
  have hshows := (vacant_empty ⟨"state"⟩ "/").shows.prepare.2
  generalize ((prepare ⟨"state"⟩).run (.empty "/")).2 = opened at hshows ⊢
  obtain ⟨hcreated, hshows₁⟩ := hfirst opened hshows
  obtain ⟨hlost, -⟩ := hsecond _ hshows₁
  rw [Tracker.answers, Tracker.answers, Tracker.answers, hanswer, hanswer, hcreated, hlost]
  rfl

end FileTracker
end Workflow
