import Workflow.Proofs.Data.Dict
import Workflow.Proofs.Digest.Framing
import Workflow.Proofs.Storage.Program
import Workflow.Proofs.Tracker.Stateful
import Workflow.Store.Files
import Workflow.Store.Memory

/-!
# Stores answer with what was asked for

A manifest that a store gives for a digest has that digest, whatever was asked of the store before
and whatever else is in its directory. A reference that is no digest is answered without a single
step on files, and a digest leads to one path inside the directory and to no other.
-/
namespace Workflow

variable {σ : Type}

/-! ## Requests -/

inductive StoreRequest where
  | store (m : Manifest) (now : Instant)
  | get (digest : String)
  | remove (digest : String)
  | clear

inductive StoreAnswer where
  | stored (digest : String)
  | found (m : Option Manifest)
  | done

def StoreRequest.perform (s : ManifestStore σ) : StoreRequest → Stateful σ StoreAnswer
  | .store m now => return .stored (← s.store m now)
  | .get digest => return .found (← s.get? digest)
  | .remove digest => do s.remove digest; return .done
  | .clear => do s.clear; return .done

/-- The answers to requests one after another; one that fails does not keep the others back. -/
def ManifestStore.serve (s : ManifestStore σ) :
    List StoreRequest → σ → List (Outcome StoreAnswer) × σ
  | [], state => ([], state)
  | r :: rest, state =>
    let (answer, state) := (r.perform s).run.run state
    let (answers, state) := s.serve rest state
    (answer :: answers, state)

/-- An answer that keeps what a digest promises: a manifest that is found under a digest has it, and
what is no digest is not found and already removed. -/
def StoreRequest.Honest : StoreRequest → Outcome StoreAnswer → Prop
  | .get d, answer =>
    (∀ m, answer = .ok (.found (some m)) → m.digest = d) ∧
      (FileStore.isDigest d = false → answer = .ok (.found none))
  | .remove d, answer => FileStore.isDigest d = false → answer = .ok .done
  | _, _ => True

/-- What every request keeps and what makes its answer honest carries over to all requests. -/
theorem ManifestStore.honest_serve {s : ManifestStore σ} {Inv : σ → Prop}
    (hstep : ∀ (r : StoreRequest) (state : σ), Inv state →
      r.Honest ((r.perform s).run.run state).1 ∧ Inv ((r.perform s).run.run state).2)
    (requests : List StoreRequest) {state : σ} (h : Inv state) :
    List.Forall₂ StoreRequest.Honest requests (s.serve requests state).1 ∧
      Inv (s.serve requests state).2 := by
  induction requests generalizing state with
  | nil => exact ⟨.nil, h⟩
  | cons r rest ih =>
    obtain ⟨hhonest, hnext⟩ := hstep r state h
    obtain ⟨hrest, hend⟩ := ih hnext
    exact ⟨.cons hhonest hrest, hend⟩

/-! ## Digests -/

theorem isDigest_hexDigest (bytes : List UInt8) :
    FileStore.isDigest (Blake3.hexDigest bytes) = true := by
  have hdigit : ∀ d < 16, (isAsciiDigit (Nat.digitChar d) ||
      ('a' ≤ Nat.digitChar d && Nat.digitChar d ≤ 'f')) = true := by decide
  rw [FileStore.isDigest, Bool.and_eq_true, decide_eq_true_eq, List.all_eq_true]
  refine ⟨?_, fun c hc => ?_⟩
  · rw [← String.length_toList]
    exact Blake3.length_hexDigest bytes
  · obtain ⟨d, hd, rfl⟩ := Blake3.hexDigest_mem_cases hc
    exact hdigit d hd

theorem Manifest.isDigest_digest (m : Manifest) : FileStore.isDigest m.digest = true := by
  rw [Manifest.digest, textDigest]
  exact isDigest_hexDigest _

/-! ## The store in memory -/

/-- Manifests are kept under their digests. -/
def MemoryStore.Filed (m : MemoryStore) : Prop :=
  ∀ d entry, m.entries.get? d = some entry → entry.manifest.digest = d

/-- What is stored afterwards was stored before, or it is the manifest under its digest. -/
theorem MemoryStore.run_put (m : Manifest) (now : Instant) (s : MemoryStore) :
    ∃ s', (put m now).run.run s = (.ok m.digest, s') ∧ ∀ d entry, s'.entries.get? d = some entry →
      s.entries.get? d = some entry ∨ entry.manifest = m ∧ d = m.digest := by
  refine ⟨_, rfl, fun d entry hentry => ?_⟩
  dsimp only at hentry
  split_ifs at hentry
  · exact .inl hentry
  · rw [Dict.get?_insert] at hentry
    split_ifs at hentry with hd
    · cases hentry
      exact .inr ⟨rfl, hd⟩
    · exact .inl hentry

namespace MemoryStore

theorem filed_empty : empty.Filed := nofun

theorem Filed.get?_malformed {s : MemoryStore} (h : s.Filed) {d : String}
    (hd : FileStore.isDigest d = false) : s.entries.get? d = none := by
  cases hget : s.entries.get? d with
  | none => rfl
  | some entry =>
    have hdigest := entry.manifest.isDigest_digest
    rw [h d entry hget, hd] at hdigest
    cases hdigest

/-- Every request leaves the manifests under their digests, and is answered honestly. -/
theorem honest_perform (r : StoreRequest) (s : MemoryStore) (h : s.Filed) :
    r.Honest ((r.perform store).run.run s).1 ∧ ((r.perform store).run.run s).2.Filed := by
  cases r with
  | store m now =>
    obtain ⟨s', hrun, hkept⟩ := run_put m now s
    have hstate : (((StoreRequest.store m now).perform store).run.run s).2 = s' :=
      congrArg Prod.snd hrun
    refine ⟨trivial, fun d entry hentry => ?_⟩
    rw [hstate] at hentry
    rcases hkept d entry hentry with hold | ⟨rfl, rfl⟩
    · exact h d entry hold
    · rfl
  | get d =>
    have hanswer : (((StoreRequest.get d).perform store).run.run s).1 =
        .ok (.found ((s.entries.get? d).map (·.manifest))) := rfl
    refine ⟨⟨fun m hm => ?_, fun hd => ?_⟩, h⟩
    · rw [hanswer] at hm
      obtain ⟨entry, hentry, rfl⟩ := Option.map_eq_some_iff.mp
        (StoreAnswer.found.inj (Except.ok.inj hm))
      exact h d entry hentry
    · rw [hanswer, h.get?_malformed hd, Option.map_none]
  | remove d =>
    refine ⟨fun _ => rfl, fun d' entry hentry => ?_⟩
    have hold : (s.entries.erase d).get? d' = some entry := hentry
    rw [Dict.get?_erase] at hold
    split_ifs at hold
    exact h d' entry hold
  | clear => exact ⟨trivial, filed_empty⟩

end MemoryStore

/-! ## The store in files -/

namespace FileStore
open Workflow.Path

theorem place_entryPath (s : FileStore) {d : String} (h : isDigest d = true) :
    ∃ shard file : Name, shard.1 = String.ofList (d.toList.take 2) ∧
      file.1 = String.ofList (d.toList.drop 2) ++ ".json" ∧
      ∀ cwd, place cwd (s.entryPath d) = file :: shard :: place cwd s.root := by
  rw [isDigest, Bool.and_eq_true, decide_eq_true_eq, List.all_eq_true,
    ← String.length_toList] at h
  obtain ⟨hlength, hdigits⟩ := h
  have hslash : '/' ∉ d.toList := fun hmem => absurd (hdigits _ hmem) (by decide)
  have hpoint : '.' ∉ d.toList := fun hmem => absurd (hdigits _ hmem) (by decide)
  -- two digits name the directory and the others the file
  have hshard : Plain (String.ofList (d.toList.take 2)) := by
    have htwo : (String.ofList (d.toList.take 2)).toList.length = 2 := by
      rw [String.toList_ofList, List.length_take, hlength]
      rfl
    refine ⟨?_, ?_, ?_, ?_⟩
    · intro h
      exact absurd (h ▸ htwo) (by decide)
    · intro h
      exact absurd (h ▸ htwo) (by decide)
    · intro h
      have hmem : '.' ∈ (String.ofList (d.toList.take 2)).toList := h ▸ (by decide)
      rw [String.toList_ofList] at hmem
      exact hpoint (List.mem_of_mem_take hmem)
    · rw [String.toList_ofList]
      exact fun hmem => hslash (List.mem_of_mem_take hmem)
  have hfile : Plain (String.ofList (d.toList.drop 2) ++ ".json") := by
    apply plain_of_length
    · rw [String.length_append, show ".json".length = 5 from rfl]
      omega
    · rw [String.toList_append, String.toList_ofList, List.mem_append, not_or]
      exact ⟨fun hmem => hslash (List.mem_of_mem_drop hmem), by decide⟩
  refine ⟨⟨_, hshard⟩, ⟨_, hfile⟩, rfl, rfl, fun cwd => ?_⟩
  rw [entryPath]
  exact (place_join cwd _ ⟨_, hfile⟩).trans (congrArg _ (place_join cwd _ ⟨_, hshard⟩))

theorem get?_malformed (s : FileStore) {d : String} (h : isDigest d = false) :
    s.get? d = .done (.ok none) := by
  simp only [get?, h, Bool.false_eq_true, not_false_eq_true, if_true]
  rfl

theorem remove_malformed (s : FileStore) {d : String} (h : isDigest d = false) :
    s.remove d = .done (.ok ()) := by
  simp only [remove, h, Bool.false_eq_true, not_false_eq_true, if_true]
  rfl

-- No proof here depends on how a digest comes about, and none should try to compute one.
attribute [local irreducible] Blake3.hexDigest

/-- Reading an entry visits one path, and what is found has the digest. -/
theorem keeps_get? (s : FileStore) (d : String) :
    (s.get? d).Keeps (·.Visits (s.entryPath d)) fun answer =>
      ∀ m, answer = .ok (some m) → m.digest = d := by
  have hnone : ∀ m : Manifest, (.ok none : Outcome (Option Manifest)) = .ok (some m) →
      m.digest = d := fun m hm => by cases hm
  by_cases hd : isDigest d = true
  · rw [get?, if_neg (not_not.mpr hd)]
    refine FileProgram.Keeps.bind (FileProgram.keeps_exists? .probe) fun found _ => ?_
    cases found with
    | false => exact hnone
    | true =>
      refine FileProgram.Keeps.bind (FileProgram.keeps_readText .read) fun reply _ => ?_
      cases reply with
      | error e => exact fun m hm => by cases hm
      | ok text =>
        cases hentry : (Json.read? text).bind StoredEntry.decode? with
        | none =>
          simp only [hentry]
          exact fun m hm => by cases hm
        | some entry =>
          simp only [hentry]
          by_cases hdigest : entry.manifest.digest = d
          · rw [if_pos hdigest]
            intro m hm
            obtain rfl : entry.manifest = m := Option.some.inj (Except.ok.inj hm)
            exact hdigest
          · rw [if_neg hdigest]
            refine FileProgram.Keeps.bind (FileProgram.keeps_tryStep .unlink) fun _ _ => ?_
            exact hnone
  · rw [get?_malformed s (Bool.not_eq_true _ ▸ hd)]
    exact hnone

theorem keeps_remove (s : FileStore) (d : String) :
    (s.remove d).Keeps (·.Visits (s.entryPath d)) fun _ => True := by
  by_cases hd : isDigest d = true
  · rw [remove, if_neg (not_not.mpr hd)]
    refine FileProgram.Keeps.bind (FileProgram.keeps_exists? .probe) fun found _ => ?_
    cases found with
    | false => trivial
    | true =>
      refine FileProgram.Keeps.bind (FileProgram.keeps_tryStep .unlink) fun reply _ => ?_
      cases reply <;> trivial
  · rw [remove_malformed s (Bool.not_eq_true _ ▸ hd)]
    trivial

/-- Every request is answered honestly, whatever is on the disk. -/
theorem honest_perform (s : FileStore) (r : StoreRequest) (disk : FileTracker.Disk) :
    r.Honest ((r.perform s.store).run.run disk).1 := by
  cases r with
  | store => trivial
  | clear => trivial
  | get d =>
    have hrun := FileTracker.run_onDisk (fun _ => s.get? d) disk
    have hanswer : (((StoreRequest.get d).perform s.store).run.run disk).1 =
        (((s.get? d).run disk.tree).1).map .found := by
      have hmap := Stateful.run_map StoreAnswer.found (FileTracker.onDisk fun _ => s.get? d)
        (s := disk)
      rw [hrun] at hmap
      exact congrArg Prod.fst hmap
    rw [StoreRequest.Honest, hanswer]
    refine ⟨fun m hm => ?_, fun hd => by rw [get?_malformed s hd]; rfl⟩
    refine (keeps_get? s d).run disk.tree m ?_
    cases hget : ((s.get? d).run disk.tree).1 with
    | error fault => rw [hget] at hm; cases hm
    | ok found => rw [hget] at hm; cases hm; rfl
  | remove d =>
    intro hd
    have hrun : (FileTracker.onDisk fun _ => s.remove d).run.run disk =
        (.ok (), ⟨disk.tree, disk.serial + 1⟩) := by
      rw [FileTracker.run_onDisk, remove_malformed s hd]
      rfl
    exact congrArg Prod.fst (Stateful.run_bind_ok hrun _)

end FileStore

/-- Both stores answer every sequence of requests honestly, the one in files on any disk. What is no
digest takes no step on files; for a digest each step is a visit to one file in a directory of the
store, also while others change the tree, and alone it leaves the rest of the tree as it was. -/
theorem stores_honest :
    (∀ requests, List.Forall₂ StoreRequest.Honest requests
      (MemoryStore.store.serve requests MemoryStore.empty).1) ∧
    ∀ s : FileStore,
      (∀ disk requests, List.Forall₂ StoreRequest.Honest requests
        (s.store.serve requests disk).1) ∧
      ∀ d,
        (FileStore.isDigest d = false → s.get? d = .done (.ok none) ∧ s.remove d = .done (.ok ())) ∧
        (FileStore.isDigest d = true →
          (∃ shard file : Path.Name, shard.1 = String.ofList (d.toList.take 2) ∧
            file.1 = String.ofList (d.toList.drop 2) ++ ".json" ∧
            ∀ cwd, Path.place cwd (s.entryPath d) = file :: shard :: Path.place cwd s.root) ∧
          ((s.get? d).Keeps (·.Visits (s.entryPath d)) fun answer =>
            ∀ m, answer = .ok (some m) → m.digest = d) ∧
          ((s.remove d).Keeps (·.Visits (s.entryPath d)) fun _ => True) ∧
          ∀ (t : FileTree) (place : Path.Place),
            (((s.get? d).run t).2.entry place = t.entry place ∨
              place = t.spot (s.entryPath d) ∧ ((s.get? d).run t).2.entry place = none) ∧
            (((s.remove d).run t).2.entry place = t.entry place ∨
              place = t.spot (s.entryPath d) ∧ ((s.remove d).run t).2.entry place = none)) := by
  refine ⟨fun requests => (ManifestStore.honest_serve MemoryStore.honest_perform requests
    MemoryStore.filed_empty).1, fun s => ⟨fun disk requests => ?_, fun d => ⟨fun hd => ?_,
    fun hd => ?_⟩⟩⟩
  · have hstep : ∀ (r : StoreRequest) (disk : FileTracker.Disk), True →
        r.Honest ((r.perform s.store).run.run disk).1 ∧ True :=
      fun r disk _ => ⟨s.honest_perform r disk, trivial⟩
    exact (ManifestStore.honest_serve hstep requests trivial).1
  · exact ⟨s.get?_malformed hd, s.remove_malformed hd⟩
  · have hget := s.keeps_get? d
    have hremove := s.keeps_remove d
    exact ⟨s.place_entryPath hd, hget, hremove, fun t place =>
      ⟨hget.entry_run t place, hremove.entry_run t place⟩⟩

end Workflow
