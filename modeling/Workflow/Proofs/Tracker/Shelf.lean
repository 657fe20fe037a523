import Mathlib.Data.List.Perm.Basic
import Mathlib.Data.Set.Function
import Workflow.Proofs.Tracker.Calls
import Workflow.Proofs.Data.Dict

/-!
# Folders as dictionaries

A folder of a tracker holds the values of a dictionary, each in a file that is named after its key.
`Shelf` states this for one folder; reading all documents of a folder gives the values.
-/
namespace Workflow

namespace FileProgram
variable {α β : Type}

theorem bind_done (p : FileProgram α) : p.bind .done = p := by
  induction p with
  | done value => rfl
  | step s next ih => exact congrArg (FileProgram.step s) (funext ih)

theorem bind_bind {γ : Type} (p : FileProgram α) (f : α → FileProgram β) (g : β → FileProgram γ) :
    (p.bind f).bind g = p.bind fun a => (f a).bind g := by
  induction p with
  | done value => rfl
  | step s next ih => exact congrArg (FileProgram.step s) (funext ih)

instance : LawfulMonad FileProgram :=
  LawfulMonad.mk' FileProgram bind_done (fun _ _ => rfl) bind_bind

end FileProgram

namespace FileTracker
open Workflow.Path

variable {t : FileTracker} {cwd : String} {files : Cabinet} {α β : Type}

/-- A program for each of many, none of which changes the files. -/
theorem Runs.mapM {l : List α} {p : α → FileProgram β} {g : α → β}
    (h : ∀ a ∈ l, Runs t cwd (p a) files (g a) files) :
    Runs t cwd (l.mapM p) files (l.map g) files := by
  induction l with
  | nil => exact .done _
  | cons a rest ih =>
    rw [List.mapM_cons]
    exact (h a List.mem_cons_self).bind
      ((ih fun b hb => h b (List.mem_cons_of_mem _ hb)).bind (.done _))

def readOne (decode? : Document → Option α) (path : String) : FileProgram (List α) := do
  match ← readDocument decode? path with
  | .ok (some d) => return [d]
  | _ => return []

/-- What is read after the names of a directory have been listed. -/
theorem run_readAll {decode? : Document → Option α} {directory : String} {names : List String}
    {tree : FileTree} (h : (FileStep.list directory).perform tree = (.names names, tree)) :
    (readAll decode? directory).run tree =
      ((((names.map (Path.join directory)).filter fun p => extension? p = some "json").mapM
        (readOne decode?)).bind fun docs => .done (.ok docs.flatten)).run tree :=
  FileProgram.run_step _ h

/-! ## Shelves -/

/-- The files of a folder are the values of a dictionary. Its keys are known beforehand. -/
structure Shelf (files : Cabinet) (f : Folder) (known : Set String) (name : String → Name)
    (text : α → String) (d : Dict α) : Prop where
  mem : ∀ k v, d.get? k = some v → k ∈ known
  file : ∀ k ∈ known, files (f, name k) = (d.get? k).map text
  only : ∀ n c, files (f, n) = some c → ∃ k ∈ known, n = name k

namespace Shelf
variable {f : Folder} {known : Set String} {name : String → Name} {text : α → String} {d : Dict α}
  {k : String} {v : α} {s : Slot} {n : Name} {content : Option String}

theorem empty (f : Folder) (known : Set String) (name : String → Name) (text : α → String) :
    Shelf (fun _ => none) f known name text Dict.empty where
  mem _ _ h := nomatch h
  file _ _ := rfl
  only _ _ h := nomatch h

theorem insert (h : Shelf files f known name text d) (hinj : Set.InjOn name known)
    (hk : k ∈ known) (v : α) :
    Shelf (Function.update files (f, name k) (some (text v))) f known name text
      (d.insert k v) where
  mem k' v' hk' := by
    rw [Dict.get?_insert] at hk'
    split_ifs at hk' with heq
    · exact heq ▸ hk
    · exact h.mem k' v' hk'
  file k' hk' := by
    rw [Dict.get?_insert]
    split_ifs with heq
    · rw [heq, Function.update_self]
      rfl
    · rw [Function.update_of_ne, h.file k' hk']
      exact fun hslot => heq (hinj hk' hk (congrArg Prod.snd hslot))
  only n' c hc := by
    rw [Function.update_apply] at hc
    split_ifs at hc with heq
    · exact ⟨k, hk, congrArg Prod.snd heq⟩
    · exact h.only n' c hc

theorem update (h : Shelf files f known name text d) (hs : s.1 ≠ f) :
    Shelf (Function.update files s content) f known name text d := by
  have hne (n : Name) : (f, n) ≠ s := by
    rintro rfl
    exact hs rfl
  refine ⟨h.mem, fun k hk => ?_, fun n c hc => ?_⟩
  · rw [Function.update_of_ne (hne _), h.file k hk]
  · rw [Function.update_of_ne (hne n)] at hc
    exact h.only n c hc

theorem eq_none (h : Shelf files f known name text d) (hn : ∀ k ∈ known, n ≠ name k) :
    files (f, n) = none := by
  rcases hc : files (f, n) with - | c
  · rfl
  · obtain ⟨k, hk, heq⟩ := h.only n c hc
    exact absurd heq (hn k hk)

theorem file_eq_some (h : Shelf files f known name text d) (hk : d.get? k = some v) :
    files (f, name k) = some (text v) := by
  rw [h.file k (h.mem k v hk), hk]
  rfl

/-- The names in a folder, in any order, are those of the keys. -/
theorem names_perm (h : Shelf files f known name text d) (hinj : Set.InjOn name known)
    {names : List String} (hnodup : names.Nodup)
    (hmem : ∀ text, text ∈ names ↔ ∃ n : Name, n.1 = text ∧ ∃ c, files (f, n) = some c) :
    names.Perm (d.entries.map fun e => (name e.1).1) := by
  have hkeys : (d.entries.map fun e => (name e.1).1) = d.keys.map fun k => (name k).1 := by
    rw [Dict.keys, List.map_map]
    rfl
  have hkeysNodup : (d.keys.map fun k => (name k).1).Nodup := by
    refine d.keys_nodup.map_on fun k hk k' hk' heq => ?_
    obtain ⟨v, hv⟩ := Dict.mem_keys_iff.mp hk
    obtain ⟨v', hv'⟩ := Dict.mem_keys_iff.mp hk'
    exact hinj (h.mem k v hv) (h.mem k' v' hv') (Subtype.ext heq)
  rw [hkeys]
  refine (List.perm_ext_iff_of_nodup hnodup hkeysNodup).mpr fun s => ?_
  rw [hmem, List.mem_map]
  constructor
  · rintro ⟨n, rfl, c, hc⟩
    obtain ⟨k, hk, rfl⟩ := h.only n c hc
    rw [h.file k hk] at hc
    obtain ⟨v, hv, -⟩ := Option.map_eq_some_iff.mp hc
    exact ⟨k, Dict.mem_keys_iff.mpr ⟨v, hv⟩, rfl⟩
  · rintro ⟨k, hk, rfl⟩
    obtain ⟨v, hv⟩ := Dict.mem_keys_iff.mp hk
    exact ⟨name k, rfl, text v, h.file_eq_some hv⟩

/-- Reading all documents of a folder gives the values in some order. -/
theorem readAll (h : Shelf files f known name text d) (hinj : Set.InjOn name known)
    {decode? : Document → Option α} (hreads : ∀ k v, d.get? k = some v → Reads decode? (text v) v)
    (hjson : ∀ k ∈ known, extension? (Path.join (t.folderPath f) (name k).1) = some "json")
    {tree : FileTree} (hshows : Shows t cwd tree (fun _ => True) files) :
    ∃ docs, ((readAll decode? (t.folderPath f)).run tree).1 = .ok docs ∧ docs.Perm d.values ∧
      Shows t cwd ((readAll decode? (t.folderPath f)).run tree).2 (fun _ => True) files := by
  obtain ⟨names, hlist, hnodup, hmem⟩ := hshows.list (f := f) trivial
  have hperm := h.names_perm hinj hnodup hmem
  obtain ⟨entries, rfl, hentries⟩ : ∃ entries : List (String × α),
      names = entries.map (fun e => (name e.1).1) ∧ entries.Perm d.entries :=
    (congrFun (congrFun (List.eq_map_comp_perm fun e : String × α => (name e.1).1) names)
      d.entries).mpr hperm
  have hentry (e : String × α) (he : e ∈ entries) : d.get? e.1 = some e.2 :=
    Dict.mem_entries_iff.mp (hentries.mem_iff.mp he)
  -- all files of the folder are documents, so that none is filtered out
  have hpaths : ((entries.map fun e => (name e.1).1).map (Path.join (t.folderPath f))).filter
      (fun p => extension? p = some "json") =
      entries.map fun e => t.slotPath (f, name e.1) := by
    rw [List.filter_eq_self.mpr, List.map_map]
    · rfl
    · intro p hp
      rw [List.map_map] at hp
      obtain ⟨e, he, rfl⟩ := List.mem_map.mp hp
      exact decide_eq_true (hjson e.1 (h.mem e.1 e.2 (hentry e he)))
  have hdocs : Runs t cwd ((entries.map fun e => t.slotPath (f, name e.1)).mapM (readOne decode?))
      files (entries.map fun e => [e.2]) files := by
    rw [List.mapM_map]
    refine Runs.mapM fun e he => ?_
    have hread : Runs t cwd (readDocument decode? (t.slotPath (f, name e.1))) files
        (.ok (some e.2)) files :=
      runs_readDocument (denotes_slotPath _) (h.file_eq_some (hentry e he))
        (hreads e.1 e.2 (hentry e he))
    exact hread.bind (.done _)
  have hflat : (entries.map fun e => [e.2]).flatten = entries.map (·.2) := by
    rw [← List.flatMap_def]
    exact List.flatMap_pure_eq_map _ _
  have hall : Runs t cwd (((entries.map fun e => t.slotPath (f, name e.1)).mapM
      (readOne decode?)).bind fun docs => .done (.ok docs.flatten)) files
      ((.ok (entries.map (·.2))) : Outcome (List α)) files := by
    refine hdocs.bind ?_
    rw [hflat]
    exact .done _
  rw [run_readAll hlist, hpaths]
  obtain ⟨hvalue, hafter⟩ := hall tree hshows
  exact ⟨_, hvalue, hentries.map _, hafter⟩

end Shelf
end FileTracker
end Workflow
