import Workflow.Proofs.Document.Legible
import Workflow.Proofs.Storage.Program
import Workflow.Proofs.Tracker.Layout

/-!
# The calls of a tracker, one at a time

What each call does when nothing else happens meanwhile: `Runs` says which value a program gives on
the files of a tracker and which files it leaves. Temporary files are gone at the end of a call.
-/
namespace Workflow

namespace FileTracker
open Workflow.Path

/-! ## Programs on files -/

/-- On these files the program gives this value, and it leaves those files. -/
def Runs (t : FileTracker) (cwd : String) {α : Type} (p : FileProgram α) (files : Cabinet) (v : α)
    (files' : Cabinet) : Prop :=
  ∀ tree, Shows t cwd tree (fun _ => True) files →
    (p.run tree).1 = v ∧ Shows t cwd (p.run tree).2 (fun _ => True) files'

namespace Runs
variable {t : FileTracker} {cwd : String} {α β : Type} {files files' files'' : Cabinet}

theorem done (v : α) : Runs t cwd (.done v) files v files := fun _ h => ⟨rfl, h⟩

theorem bind {p : FileProgram α} {f : α → FileProgram β} {v : α} {w : β}
    (hp : Runs t cwd p files v files') (hf : Runs t cwd (f v) files' w files'') :
    Runs t cwd (p.bind f) files w files'' := by
  intro tree h
  obtain ⟨hv, hshows⟩ := hp tree h
  rw [FileProgram.run_bind, hv]
  exact hf _ hshows

theorem andThen {p : FileProgram (Outcome α)} {f : α → FileProgram (Outcome β)} {v : α}
    {w : Outcome β} (hp : Runs t cwd p files (.ok v) files')
    (hf : Runs t cwd (f v) files' w files'') : Runs t cwd (andThen p f) files w files'' :=
  hp.bind hf

theorem andThen_error {p : FileProgram (Outcome α)} {f : α → FileProgram (Outcome β)}
    {fault : Fault} (hp : Runs t cwd p files (.error fault) files') :
    Runs t cwd (FileTracker.andThen p f) files (.error fault) files' :=
  hp.bind (.done _)

theorem step (reply : FileReply) (files' : Cabinet) {p : FileProgram α} {s : FileStep}
    {next : FileReply → FileProgram α} {act : Act} {v : α} (hp : p = .step s next)
    (hact : Performs t cwd s act)
    (heq : act.perform files = (reply, files'))
    (h : Runs t cwd (next reply) files' v files'') : Runs t cwd p files v files'' := by
  subst hp
  intro tree hshows
  obtain ⟨hreply, hshows'⟩ := hshows.act (fun _ => trivial) hact
  rw [heq] at hreply hshows'
  rw [FileProgram.run_step next (Prod.ext hreply rfl)]
  exact h _ hshows'

end Runs

variable {t : FileTracker} {cwd path tag content : String} {files : Cabinet} {s d : Slot}

/-- Opening a tracker makes its folders and leaves its files. -/
theorem Shows.prepare {tree : FileTree} {made : Folder → Prop} (h : Shows t cwd tree made files) :
    (t.prepare.run tree).1 = .ok () ∧
      Shows t cwd (t.prepare.run tree).2 (fun _ => True) files := by
  obtain ⟨tree₁, heq₁, h₁⟩ := h.makeDirectories .experiments
  obtain ⟨tree₂, heq₂, h₂⟩ := h₁.makeDirectories .runs
  obtain ⟨tree₃, heq₃, h₃⟩ := h₂.makeDirectories .keys
  have hrun : t.prepare.run tree = (.ok (), tree₃) :=
    (FileProgram.run_step _ heq₁).trans
      ((FileProgram.run_step _ heq₂).trans (FileProgram.run_step _ heq₃))
  have hmade : (fun g => ((made g ∨ g = .experiments) ∨ g = .runs) ∨ g = .keys) =
      fun _ => True := by
    funext g
    cases g <;> simp
  rw [hrun]
  exact ⟨rfl, hmade ▸ h₃⟩

/-! ## Writing -/

theorem runs_writeAtOnce (hpath : t.Denotes cwd path s)
    (hdraft : t.Denotes cwd (temporaryPath tag path) d) (hfree : files d = none)
    (content : String) :
    Runs t cwd (writeAtOnce tag path content) files (.ok ())
      (Function.update files s (some content)) := by
  refine .step .done _ rfl (.put hdraft content) rfl ?_
  refine .step .done _ rfl (.move hdraft hpath) ?_ (.done _)
  rw [Act.perform, Function.update_self, Function.update_idem,
    Function.update_eq_self_iff.mpr hfree.symm]

theorem runs_createOnce (hpath : t.Denotes cwd path s)
    (hdraft : t.Denotes cwd (temporaryPath tag path) d) (hne : s ≠ d) (hfree : files d = none)
    (h : files s = none) (content : String) :
    Runs t cwd (createOnce tag path content) files (.ok true)
      (Function.update files s (some content)) := by
  refine .step .done _ rfl (.put hdraft content) rfl ?_
  refine .step .done (Function.update (Function.update files d (some content)) s (some content))
    rfl (.claim hdraft hpath) ?_ ?_
  · rw [Act.perform, Function.update_self, Function.update_of_ne hne, h]
  have hback : Function.update (Function.update (Function.update files d (some content)) s
      (some content)) d none = Function.update files s (some content) := by
    have hgone : Function.update files d none = files :=
      Function.update_eq_self_iff.mpr hfree.symm
    rw [Function.update_comm (β := fun _ => Option String) hne (some content) none,
      Function.update_idem, hgone]
  refine .step .done _ rfl (.drop hdraft) ?_ (.done _)
  simp only [Act.perform, Function.update_of_ne hne.symm, Function.update_self, hback]

theorem runs_createOnce_taken {other : String} (hpath : t.Denotes cwd path s)
    (hdraft : t.Denotes cwd (temporaryPath tag path) d) (hne : s ≠ d) (hfree : files d = none)
    (h : files s = some other) (content : String) :
    Runs t cwd (createOnce tag path content) files (.ok false) files := by
  refine .step .done _ rfl (.put hdraft content) rfl ?_
  refine .step (.failed .alreadyExists) (Function.update files d (some content)) rfl
    (.claim hdraft hpath) ?_ ?_
  · rw [Act.perform, Function.update_self, Function.update_of_ne hne, h]
  refine .step .done _ rfl (.drop hdraft) ?_ (.done _)
  rw [Act.perform, Function.update_self, Function.update_idem,
    Function.update_eq_self_iff.mpr hfree.symm]

/-! ## Reading -/

section Reading
variable {α : Type} {decode? : Document → Option α} {text : String} {v : α}

/-- What is read is decoded, and an unexpected content is a fault. -/
theorem readDocument_eq (decode? : Document → Option α) (path : String) :
    ∃ next, readDocument decode? path = .step (.read path) next ∧
      ∀ text, next (.content text) =
        match (Json.read? text).bind decode? with
        | some v => .done (.ok (some v))
        | none => .done (.error (.json ("unexpected content of " ++ path))) :=
  ⟨_, rfl, fun _ => rfl⟩

theorem runs_readDocument (hpath : t.Denotes cwd path s) (h : files s = some text)
    (hreads : Reads decode? text v) :
    Runs t cwd (readDocument decode? path) files (.ok (some v)) files := by
  obtain ⟨next, hread, hnext⟩ := readDocument_eq decode? path
  rw [hread]
  refine .step (.content text) files rfl (.look hpath) ?_ ?_
  · rw [Act.perform, h]
  · rw [hnext, show (Json.read? text).bind decode? = some v from hreads]
    exact .done _

theorem runs_readDocument_missing (hpath : t.Denotes cwd path s) (h : files s = none) :
    Runs t cwd (readDocument decode? path) files (.ok none) files := by
  refine .step (.failed .notFound) files rfl (.look hpath) ?_ (.done _)
  rw [Act.perform, h]

end Reading

/-! ## Runs -/

section Runs
variable {id id' : String} {run other : Run}

theorem runs_loadRun (hid : '/' ∉ id.toList)
    (h : files (runSlot id) = some (Json.pretty run.encode))
    (hreads : Reads Run.decode? (Json.pretty run.encode) run) :
    Runs t cwd (t.loadRun id) files (.ok run) files :=
  (runs_readDocument (t.denotes_runPath cwd hid) h hreads).andThen (.done _)

theorem runs_loadRun_missing (hid : '/' ∉ id.toList) (h : files (runSlot id) = none) :
    Runs t cwd (t.loadRun id) files (.error (.runNotFound id)) files :=
  (runs_readDocument_missing (t.denotes_runPath cwd hid) h).andThen (.done _)

theorem runs_modifyRun_missing (hid : '/' ∉ id.toList) (h : files (runSlot id) = none)
    (f : Run → Outcome Run) :
    Runs t cwd (t.modifyRun tag id f) files (.error (.runNotFound id)) files :=
  (runs_loadRun_missing hid h).andThen_error

theorem runs_modifyRun_error (hid : '/' ∉ id.toList)
    (h : files (runSlot id) = some (Json.pretty run.encode))
    (hreads : Reads Run.decode? (Json.pretty run.encode) run) {f : Run → Outcome Run}
    {fault : Fault} (hf : f run = .error fault) :
    Runs t cwd (t.modifyRun tag id f) files (.error fault) files := by
  refine (runs_loadRun hid h hreads).andThen ?_
  rw [hf]
  exact .done _

theorem runs_modifyRun (hid : '/' ∉ id.toList) (hmark : Marks tag)
    (hfree : files (draftSlot tag (runSlot id)) = none)
    (h : files (runSlot id) = some (Json.pretty run.encode))
    (hreads : Reads Run.decode? (Json.pretty run.encode) run) {f : Run → Outcome Run}
    (hf : f run = .ok other) :
    Runs t cwd (t.modifyRun tag id f) files (.ok ())
      (Function.update files (runSlot id) (some (Json.pretty other.encode))) := by
  refine (runs_loadRun hid h hreads).andThen ?_
  rw [hf]
  exact runs_writeAtOnce (t.denotes_runPath cwd hid) (t.denotes_runDraft cwd hid hmark.1) hfree _

theorem ne_runSlot (id : String) (h : s.1 = .keys) : s ≠ runSlot id := by
  rintro rfl
  cases h

/-- The files with the document of a run and the file of its key. -/
noncomputable def Cabinet.record (files : Cabinet) (run : Run) : Cabinet :=
  Function.update (Function.update files (runSlot run.id) (some (Json.pretty run.encode)))
    (keySlot run.idempotencyKey) (some run.id)

theorem Cabinet.record_key (files : Cabinet) (run : Run) :
    Cabinet.record files run (keySlot run.idempotencyKey) = some run.id :=
  Function.update_self ..

theorem Cabinet.record_of_ne (files : Cabinet) (hdoc : s ≠ runSlot run.id)
    (hkey : s ≠ keySlot run.idempotencyKey) : Cabinet.record files run s = files s := by
  rw [record, Function.update_of_ne hkey, Function.update_of_ne hdoc]

/-- What a call for a run does when its key is free. -/
theorem runs_recordRun (hid : '/' ∉ run.id.toList) (hkey : Plain run.idempotencyKey)
    (hmark : Marks tag) (hdoc : files (draftSlot tag (runSlot run.id)) = none)
    (hdraft : files (draftSlot (tag ++ "-key") (keySlot run.idempotencyKey)) = none)
    (hne : keySlot run.idempotencyKey ≠
      draftSlot (tag ++ "-key") (keySlot run.idempotencyKey))
    (h : files (keySlot run.idempotencyKey) = none) :
    Runs t cwd (t.recordRun tag run) files (.ok .created) (Cabinet.record files run) := by
  have hmark' : '/' ∉ (tag ++ "-key").toList := (Folder.marks_mark hmark .keys).1
  have hpath := t.denotes_runPath cwd hid
  refine (runs_writeAtOnce hpath (t.denotes_runDraft cwd hid hmark.1) hdoc _).andThen ?_
  refine (runs_createOnce (t.denotes_keyPath cwd hkey) (t.denotes_keyDraft cwd hkey hmark') hne
    ?_ ?_ _).andThen (.done _)
  · rw [Function.update_of_ne (ne_runSlot run.id rfl), hdraft]
  · rw [Function.update_of_ne (ne_runSlot run.id rfl), h]

/-- What a call for a run does when its key is taken: its document is removed, and the answer is
what is found under the id in the file of the key. -/
theorem runs_recordRun_taken (hid : '/' ∉ run.id.toList) (hkey : Plain run.idempotencyKey)
    (hmark : Marks tag) (hdoc : files (draftSlot tag (runSlot run.id)) = none)
    (hdraft : files (draftSlot (tag ++ "-key") (keySlot run.idempotencyKey)) = none)
    (hne : keySlot run.idempotencyKey ≠
      draftSlot (tag ++ "-key") (keySlot run.idempotencyKey))
    (h : files (keySlot run.idempotencyKey) = some id) (htrim : trimText id = id')
    {found : Outcome Run}
    (hload : Runs t cwd (t.loadRun id') (Function.update files (runSlot run.id) none)
      found (Function.update files (runSlot run.id) none)) :
    Runs t cwd (t.recordRun tag run) files (found.map .existing)
      (Function.update files (runSlot run.id) none) := by
  subst htrim
  have hmark' : '/' ∉ (tag ++ "-key").toList := (Folder.marks_mark hmark .keys).1
  have hpath := t.denotes_runPath cwd hid
  have hkeyPath := t.denotes_keyPath cwd hkey
  -- the document is written, the claim is refused, the document is removed, and the key is read
  refine (runs_writeAtOnce hpath (t.denotes_runDraft cwd hid hmark.1) hdoc _).andThen ?_
  have hfree : Function.update files (runSlot run.id) (some (Json.pretty run.encode))
      (draftSlot (tag ++ "-key") (keySlot run.idempotencyKey)) = none := by
    rw [Function.update_of_ne (ne_runSlot run.id rfl), hdraft]
  have htaken : Function.update files (runSlot run.id) (some (Json.pretty run.encode))
      (keySlot run.idempotencyKey) = some id := by
    rw [Function.update_of_ne (ne_runSlot run.id rfl), h]
  refine (runs_createOnce_taken hkeyPath (t.denotes_keyDraft cwd hkey hmark') hne hfree htaken
    _).andThen ?_
  refine .step .done (Function.update files (runSlot run.id) none) rfl (.drop hpath) ?_ ?_
  · simp only [Act.perform, Function.update_self, Function.update_idem]
  refine .step (.content id) (Function.update files (runSlot run.id) none) rfl (.look hkeyPath)
    ?_ ?_
  · rw [Act.perform, Function.update_of_ne (ne_runSlot run.id rfl), h]
  cases found with
  | error fault => exact hload.andThen_error
  | ok existing => exact hload.andThen (.done _)

end Runs

/-! ## Experiments -/

section Experiments
variable {name id : String} {description : Option String} {now : Instant} {e : Experiment}

theorem runs_getOrCreateExperiment (hmark : Marks tag)
    (hdraft : files (draftSlot tag (experimentSlot name)) = none)
    (h : files (experimentSlot name) = none) :
    Runs t cwd (t.getOrCreateExperiment tag name description id now) files
      (.ok ⟨id, name, description, now⟩) (Function.update files (experimentSlot name)
        (some (Json.pretty (Experiment.mk id name description now).encode))) :=
  (runs_createOnce (t.denotes_experimentPath cwd name) (t.denotes_experimentDraft cwd name hmark.1)
    (ne_draftSlot hmark.1 (slash_notMem_textDigest name) .experiments) hdraft h _).andThen (.done _)

theorem runs_getOrCreateExperiment_taken (hmark : Marks tag)
    (hdraft : files (draftSlot tag (experimentSlot name)) = none)
    (h : files (experimentSlot name) = some (Json.pretty e.encode))
    (hreads : Reads Experiment.decode? (Json.pretty e.encode) e) :
    Runs t cwd (t.getOrCreateExperiment tag name description id now) files (.ok e) files :=
  (runs_createOnce_taken (t.denotes_experimentPath cwd name)
    (t.denotes_experimentDraft cwd name hmark.1)
    (ne_draftSlot hmark.1 (slash_notMem_textDigest name) .experiments) hdraft h _).andThen
    ((runs_readDocument (t.denotes_experimentPath cwd name) h hreads).andThen (.done _))

end Experiments

/-! ## What reads back -/

theorem reads_experiment {e : Experiment} (h : e.createdAt.Stable) :
    Reads Experiment.decode? (Json.pretty e.encode) e :=
  (Experiment.restores h).read_text e.restored_json

theorem reads_run {r : Run} (stable : r.Stable) (legible : r.Legible) :
    Reads Run.decode? (Json.pretty r.encode) r :=
  (Run.restores stable).read_text (Run.restored_json legible)

/-- A run without nodes. -/
def bareRun (id key : String) : Run :=
  .begin id "nightly" "1" "train" "m" .empty key [] ⟨0, 0⟩

theorem stable_epoch : Instant.Stable ⟨0, 0⟩ := by
  unfold Instant.Stable
  decide +kernel

theorem reads_bareRun (id key : String) :
    Reads Run.decode? (Json.pretty (bareRun id key).encode) (bareRun id key) :=
  reads_run ⟨stable_epoch, nofun, nofun⟩ ⟨nofun, nofun⟩

end FileTracker
end Workflow
