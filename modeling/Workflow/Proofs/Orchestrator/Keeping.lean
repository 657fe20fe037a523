import Workflow.Proofs.Document.RoundTrip
import Workflow.Proofs.Orchestrator.Contract
import Workflow.Proofs.Tracker.Equivalence
import Workflow.Rehearsal

/-!
# Trackers that keep runs

What a tracker is relied on for while it is told how a run goes on: the run that it holds is given
back, and after an update that succeeds it holds the updated run. Both trackers keep runs in this
sense, the one in files as far as documents are read as they were written.
-/
namespace Workflow

/-! ## Updates -/

/-- A change of a recorded run: a node takes a new state, or the run a new status. -/
inductive Run.Update where
  | node (id : String) (state : NodeState)
  | status (status : RunStatus) (now : Instant)

namespace Run

/-- The run after an update; a node that the run does not have cannot take a state. -/
def update? (r : Run) : Update → Option Run
  | .node id state => r.setNode? id state
  | .status status now => some (r.setStatus status now)

/-- The run after updates, the first of them first. -/
def updates? (r : Run) (updates : List Update) : Option Run := updates.foldlM update? r

variable {r r' : Run} {u : Update} {us us' : List Update}

theorem id_of_update? (h : r.update? u = some r') : r'.id = r.id := by
  cases u with
  | node id state => exact MemoryTracker.id_of_setNode? h
  | status status now =>
    cases h
    rfl

theorem updates?_append (h : r.updates? us = some r') :
    r.updates? (us ++ us') = r'.updates? us' := by
  rw [updates?] at h
  rw [updates?, List.foldlM_append, h]
  rfl

theorem updates?_cons_eq_some :
    r.updates? (u :: us) = some r' ↔ ∃ r₁, r.update? u = some r₁ ∧ r₁.updates? us = some r' := by
  rw [updates?, List.foldlM_cons]
  exact Option.bind_eq_some_iff

end Run

namespace Tracker
variable {σ τ : Type} {t : Tracker σ}

def update (t : Tracker σ) (run : String) : Run.Update → Stateful σ Unit
  | .node id state => t.updateNode run id state
  | .status status now => t.updateRun run status now

theorem update_within (t : Tracker τ) (p : Part τ σ) (run : String) (u : Run.Update) :
    (t.within p).update run u = p.perform (t.update run u) := by
  cases u <;> rfl

/-- The state after updates that are carried out one after another, whatever they answer. -/
def carryOut (t : Tracker σ) (run : String) (us : List Run.Update) (s : σ) : σ :=
  us.foldl (fun s u => ((t.update run u).run.run s).2) s

theorem carryOut_append (run : String) (us us' : List Run.Update) (s : σ) :
    t.carryOut run (us ++ us') s = t.carryOut run us' (t.carryOut run us s) :=
  List.foldl_append

/-- The tracker gives back a run of this kind. -/
def Reports (t : Tracker σ) (id : String) (s : σ) (kind : Run → Prop) : Prop :=
  ∃ stored, ((t.run id).run.run s).1 = .ok stored ∧ kind stored

/-! ## What is kept -/

/-- How a tracker keeps runs. -/
structure Keeping (t : Tracker σ) where
  /-- The run is recorded like this. -/
  Holds : σ → Run → Prop
  /-- The run can be read when it has been written. -/
  Readable : Run → Prop
  read : ∀ {s r}, Holds s r → ((t.run r.id).run.run s).1 = .ok r
  update : ∀ {s s' r r' u}, Holds s r → r.update? u = some r' → Readable r' →
    (t.update r.id u).run.run s = (.ok (), s') → Holds s' r'

namespace Keeping
variable {k : t.Keeping} {id : String} {s s' s'' : σ} {r r' : Run} {u : Run.Update}
  {us us' : List Run.Update}

/-- Updates of a recorded run succeed, and every run can be read again. -/
structure Reliable (k : t.Keeping) : Prop where
  answered : ∀ {s r r' u}, k.Holds s r → r.update? u = some r' →
    ((t.update r.id u).run.run s).1 = .ok ()
  readable : ∀ r, k.Readable r

theorem reports {kind : Run → Prop} (k : t.Keeping) (hid : r.id = id) (held : k.Holds s r)
    (h : kind r) : t.Reports id s kind :=
  ⟨r, hid ▸ k.read held, h⟩

/-- Others may have changed the state but left a run alone. -/
def Undisturbed (k : t.Keeping) (id : String) (s s' : σ) : Prop :=
  ∀ r, r.id = id → k.Holds s r → k.Holds s' r

theorem Undisturbed.refl : k.Undisturbed id s s := fun _ _ h => h

theorem Undisturbed.trans (h : k.Undisturbed id s s') (h' : k.Undisturbed id s' s'') :
    k.Undisturbed id s s'' := fun r hr hs => h' r hr (h r hr hs)

/-- Updates of a run have been carried out one after another and have succeeded, while others went
on with runs of their own. -/
inductive Posted (k : t.Keeping) (id : String) : List Run.Update → σ → σ → Prop
  | rest {s s' : σ} (others : k.Undisturbed id s s') : Posted k id [] s s'
  | post {u : Run.Update} {us : List Run.Update} {s s₁ s₂ s' : σ}
      (others : k.Undisturbed id s s₁) (answered : (t.update id u).run.run s₁ = (.ok (), s₂))
      (readable : ∀ r r', r.id = id → k.Holds s₁ r → r.update? u = some r' → k.Readable r')
      (later : Posted k id us s₂ s') : Posted k id (u :: us) s s'

/-- After updates that have succeeded the tracker holds the updated run. -/
theorem Posted.holds (h : k.Posted id us s s') (hid : r.id = id) (held : k.Holds s r)
    (hr : r.updates? us = some r') : k.Holds s' r' := by
  induction h generalizing r with
  | rest others =>
    rw [← Option.some.inj hr]
    exact others r hid held
  | post others answered readable later ih =>
    obtain ⟨r₁, hu, hrest⟩ := Run.updates?_cons_eq_some.mp hr
    have held₁ := others r hid held
    exact ih ((Run.id_of_update? hu).trans hid)
      (k.update held₁ hu (readable r r₁ hid held₁ hu) (hid ▸ answered)) hrest

theorem Posted.before (h : k.Posted id us s' s'') (others : k.Undisturbed id s s') :
    k.Posted id us s s'' := by
  cases h with
  | rest others' => exact .rest (others.trans others')
  | post others' answered readable later =>
    exact .post (others.trans others') answered readable later

theorem Posted.append (h : k.Posted id us s s') (h' : k.Posted id us' s' s'') :
    k.Posted id (us ++ us') s s'' := by
  induction h with
  | rest others => exact h'.before others
  | post others answered readable _ ih => exact .post others answered readable (ih h')

theorem Posted.after (h : k.Posted id us s s') (others : k.Undisturbed id s' s'') :
    k.Posted id us s s'' := by
  have hrest : k.Posted id [] s' s'' := .rest others
  simpa using h.append hrest

/-- Of a reliable tracker every update that the run admits succeeds. -/
theorem Reliable.posted (hk : k.Reliable) (hid : r.id = id) (held : k.Holds s r)
    (hr : r.updates? us = some r') : k.Posted id us s (t.carryOut id us s) := by
  induction us generalizing s r with
  | nil => exact .rest .refl
  | cons u us ih =>
    subst hid
    obtain ⟨r₁, hu, hrest⟩ := Run.updates?_cons_eq_some.mp hr
    have answered : (t.update r.id u).run.run s = (.ok (), ((t.update r.id u).run.run s).2) :=
      Prod.ext (hk.answered held hu) rfl
    have held₁ := k.update held hu (hk.readable r₁) answered
    exact .post .refl answered (fun _ r' _ _ _ => hk.readable r')
      (ih (Run.id_of_update? hu) held₁ hrest)

end Keeping
end Tracker

/-! ## Both trackers keep runs -/

namespace MemoryTracker
variable {m : MemoryTracker} {r r' : Run} {u : Run.Update}

theorem update_known (h : m.runs.get? r.id = some r) (hu : r.update? u = some r') :
    (tracker.update r.id u).run.run m = (.ok (), { m with runs := m.runs.insert r.id r' }) := by
  cases u with
  | node id state => exact updateNode_known h hu
  | status status now =>
    cases hu
    exact updateRun_known h

theorem recordRun_created {m' : MemoryTracker} (h : (recordRun r).run.run m = (.ok .created, m')) :
    m' = { m with
      keys := m.keys.insert r.idempotencyKey r.id
      runs := m.runs.insert r.id r } := by
  cases hkey : m.keys.get? r.idempotencyKey with
  | none => exact (Prod.ext_iff.mp (h.symm.trans (recordRun_new hkey))).2
  | some id =>
    cases hrun : m.runs.get? id with
    | none => exact nomatch h.symm.trans (recordRun_lost hkey hrun)
    | some other => exact nomatch h.symm.trans (recordRun_known hkey hrun)

/-- The tracker in memory holds the runs that it has. -/
def keeping : tracker.Keeping where
  Holds m r := m.runs.get? r.id = some r
  Readable _ := True
  read h := congrArg Prod.fst (find_known h)
  update h hu _ hcall := by
    obtain ⟨-, rfl⟩ := Prod.ext_iff.mp ((update_known h hu).symm.trans hcall)
    rw [Run.id_of_update? hu]
    exact Dict.get?_insert_self ..

theorem keeping_created {m' : MemoryTracker}
    (h : (tracker.recordRun r).run.run m = (.ok .created, m')) : keeping.Holds m' r := by
  rw [recordRun_created h]
  exact Dict.get?_insert_self ..

theorem keeping_reliable : keeping.Reliable :=
  ⟨fun h hu => congrArg Prod.fst (update_known h hu), fun _ => trivial⟩

end MemoryTracker

namespace FileTracker
open Workflow.Path

variable {t : FileTracker} {cwd : String} {names keys : Set String} {m : MemoryTracker}
  {disk : Disk} {r r' : Run} {u : Run.Update}

theorem Follows.agrees_modifyRun {id : String} {files : Cabinet} {x : Outcome Unit × MemoryTracker}
    {f : Run → Outcome Run}
    (h : Follows t cwd names keys (t.modifyRun (toString disk.serial) id f) files x)
    (hshows : Shows t cwd disk.tree (fun _ => True) files) :
    Agrees t cwd names keys x ((onDisk fun tag => t.modifyRun tag id f).run.run disk) :=
  h.agrees (fun tag => t.modifyRun tag id f) hshows

/-- An update of a run in files is that of the run in memory. -/
theorem Corresponds.update (h : Corresponds t cwd names keys m disk) (hl : m.Legible) {id : String}
    (hplain : Plain id) (u : Run.Update) :
    Agrees t cwd names keys ((MemoryTracker.tracker.update id u).run.run m)
      ((t.tracker.update id u).run.run disk) := by
  obtain ⟨files, hshows, hm⟩ := h
  cases u with
  | node node state =>
    exact (hm.updateNode hl hplain (marks_toString _)).agrees_modifyRun hshows
  | status status now =>
    exact (hm.updateRun hl hplain (marks_toString _)).agrees_modifyRun hshows

/-- A tracker whose documents can be read is so after a readable run has been put there. -/
theorem legible_insertRun (hl : m.Legible) (hreads : Reads Run.decode? (Json.pretty r.encode) r)
    (keys : Dict String) :
    MemoryTracker.Legible { m with keys, runs := m.runs.insert r.id r } where
  experiment := hl.experiment
  run id other hother := by
    rw [Dict.get?_insert] at hother
    split_ifs at hother
    · cases hother
      exact hreads
    · exact hl.run id other hother

/-- The tracker in files holds a run that the tracker in memory has of which its files are a
picture, while everything there can be read. -/
def keeping (t : FileTracker) (cwd : String) (names keys : Set String) : t.tracker.Keeping where
  Holds disk r := Plain r.id ∧
    ∃ m, Corresponds t cwd names keys m disk ∧ m.Legible ∧ m.runs.get? r.id = some r
  Readable r := Reads Run.decode? (Json.pretty r.encode) r
  read := by
    rintro disk r ⟨hplain, m, ⟨files, hshows, hm⟩, hl, hget⟩
    have hagrees := Follows.agrees (fun _ => t.loadRun r.id) (hm.find hl hplain) hshows
    rw [MemoryTracker.find_known hget] at hagrees
    exact hagrees.1
  update := by
    rintro disk disk' r r' u ⟨hplain, m, hm, hl, hget⟩ hu hreads hcall
    have hagrees := hm.update hl hplain u
    rw [MemoryTracker.update_known hget hu, hcall] at hagrees
    rw [← Run.id_of_update? hu] at hplain hagrees
    exact ⟨hplain, _, hagrees.2, legible_insertRun hl hreads m.keys, Dict.get?_insert_self ..⟩

/-- It holds a run from its creation on, when the run can be read. -/
theorem keeping_created {disk' : Disk} (h : Corresponds t cwd names keys m disk)
    (hd : Distinct names keys) (hl : m.Legible) (hfits : Fits names keys m (.recordRun r))
    (hreads : (t.keeping cwd names keys).Readable r)
    (hcall : (t.tracker.recordRun r).run.run disk = (.ok .created, disk')) :
    (t.keeping cwd names keys).Holds disk' r := by
  obtain ⟨files, hshows, hm⟩ := h
  obtain ⟨hplain, htrim, hkey, hfresh⟩ := hfits
  have hfollows : Follows t cwd names keys (t.recordRun (toString disk.serial) r) files
      ((MemoryTracker.recordRun r).run.run m) :=
    hm.recordRun hd hl hplain htrim hkey hfresh _
  have hagrees := Follows.agrees (fun tag => t.recordRun tag r) hfollows hshows
  change Agrees t cwd names keys _ ((t.tracker.recordRun r).run.run disk) at hagrees
  rw [hcall] at hagrees
  -- the tracker in memory must have answered alike, and then it has the run as well
  rcases hmemory : (MemoryTracker.recordRun r).run.run m with ⟨answer, m'⟩
  rw [hmemory] at hagrees
  obtain ⟨hanswer, hafter⟩ := hagrees
  obtain rfl : .ok .created = answer := hanswer
  obtain rfl := MemoryTracker.recordRun_created hmemory
  exact ⟨hplain, _, hafter, legible_insertRun hl hreads _, Dict.get?_insert_self ..⟩

/-- A run can be read from its file when its times are and JSON can hold its values. -/
theorem keeping_readable (hstable : r.Stable) (hlegible : r.Legible) :
    (t.keeping cwd names keys).Readable r :=
  (Run.restores hstable).read_text (Run.restored_json hlegible)

end FileTracker

/-! ## Rehearsals -/

namespace Rehearsal
variable {setup : RehearsalSetup} {r r' : Rehearsal} {run run' : Run} {u : Run.Update}

/-- An update that is not made to fail. -/
def Admits (setup : RehearsalSetup) : Run.Update → Prop
  | .node id _ => setup.failingNodes.contains id = false
  | .status status _ => setup.failingStatuses.contains status.name = false

/-- What the journal keeps of an update. -/
def journaled : Run.Update → Update
  | .node id state => .node id state
  | .status status _ => .status status

theorem update_watched_of_not_admits (h : ¬ Admits setup u) (id : String) :
    ∃ fault, ((watched setup).update id u).run.run r = (.error fault, r) := by
  cases u with
  | node node state =>
    have hfails : setup.failingNodes.contains node = true := by simpa [Admits] using h
    refine ⟨injected node, ?_⟩
    simp only [Tracker.update, watched, hfails]
    rfl
  | status status now =>
    have hfails : setup.failingStatuses.contains status.name = true := by simpa [Admits] using h
    refine ⟨injected status.name, ?_⟩
    simp only [Tracker.update, watched, hfails]
    rfl

/-- An update of a recorded run is taken and noted. -/
theorem update_watched (h : Admits setup u) (hget : r.tracker.runs.get? run.id = some run)
    (hu : run.update? u = some run') :
    ((watched setup).update run.id u).run.run r =
      (.ok (), { r with
        tracker := { r.tracker with runs := r.tracker.runs.insert run.id run' }
        updates := noted r.updates run.id (journaled u) }) := by
  have hknown := MemoryTracker.update_known hget hu
  have hwithin : ((MemoryTracker.tracker.within trackerPart).update run.id u).run.run r =
      (.ok (), { r with
        tracker := { r.tracker with runs := r.tracker.runs.insert run.id run' } }) := by
    rw [Tracker.update_within, Part.run_perform]
    exact congrArg (fun out => (out.1, trackerPart.set out.2 r)) hknown
  cases u with
  | node node state =>
    have hadmits : setup.failingNodes.contains node = false := h
    simp only [Tracker.update, watched, hadmits]
    exact Stateful.run_bind_ok hwithin _
  | status status now =>
    have hadmits : setup.failingStatuses.contains status.name = false := h
    simp only [Tracker.update, watched, hadmits]
    exact Stateful.run_bind_ok hwithin _

/-- The tracker of a rehearsal holds the runs that its tracker in memory has. -/
def keeping (setup : RehearsalSetup) : (watched setup).Keeping where
  Holds r run := r.tracker.runs.get? run.id = some run
  Readable _ := True
  read {r run} h := by
    change ((trackerPart.perform (MemoryTracker.find run.id)).run.run r).1 = _
    rw [Part.run_perform]
    exact congrArg Prod.fst (MemoryTracker.find_known h)
  update {r r' run run' u} h hu _ hcall := by
    by_cases hadmits : Admits setup u
    · obtain ⟨-, rfl⟩ := Prod.ext_iff.mp ((update_watched hadmits h hu).symm.trans hcall)
      rw [Run.id_of_update? hu]
      exact Dict.get?_insert_self ..
    · obtain ⟨fault, hfails⟩ := update_watched_of_not_admits (r := r) hadmits run.id
      exact nomatch hfails.symm.trans hcall

/-- It is reliable when no update is made to fail. -/
theorem keeping_reliable (hnodes : setup.failingNodes = [])
    (hstatuses : setup.failingStatuses = []) : (keeping setup).Reliable where
  answered {r run run' u} h hu := by
    have hadmits : Admits setup u := by cases u <;> simp [Admits, hnodes, hstatuses]
    exact congrArg Prod.fst (update_watched hadmits h hu)
  readable _ := trivial

end Rehearsal
end Workflow
