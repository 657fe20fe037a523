import Workflow.Proofs.Store.Fetch
import Workflow.Proofs.Tracker.Equivalence

/-!
# What storing and fetching change

A manifest that is stored is all that a store gains, with the directories that lead to it, and a
manifest that is fetched costs it a damaged entry at most. What is kept in another directory of the
same disk is not touched.
-/
namespace Workflow

/-! ## Directories that are made -/

namespace FileTree
open Workflow.Path

variable {t t' : FileTree} {pl q : Place}

/-- Only directories come to be, and only where there was nothing on the way. -/
theorem entry_of_makeParts {l : List Name}
    (h : t.makeParts (render pl) (l.map (·.1)) = .ok t') :
    t'.cwd = t.cwd ∧ ∀ q, t'.entry q = t.entry q ∨
      t.entry q = none ∧ t'.entry q = some .directory ∧ Leads pl (l.reverse ++ pl) q := by
  induction l generalizing t pl with
  | nil =>
    cases h
    exact ⟨rfl, fun _ => .inl rfl⟩
  | cons n rest ih =>
    simp only [List.reverse_cons, List.append_assoc, List.singleton_append]
    simp only [leads_cons_iff]
    rw [List.map_cons, makeParts, join_render] at h
    rcases hentry : t.entries.get? (render (n :: pl)) with - | ⟨c⟩ | -
    · rw [hentry] at h
      obtain ⟨hcwd, hkept⟩ := ih (t := t.set (n :: pl) .directory) h
      refine ⟨hcwd, fun q => ?_⟩
      have hset := t.entry_set (n :: pl) q .directory
      by_cases hq : q = n :: pl
      · -- The directory that is made here is never in the way of those below it.
        rw [if_pos hq] at hset
        refine .inr ⟨hq ▸ hentry, ?_, .inl hq⟩
        obtain hsame | ⟨hnone, -⟩ := hkept q
        · rw [hsame, hset]
        · rw [hset] at hnone
          cases hnone
      · rw [if_neg hq] at hset
        rw [← hset]
        exact (hkept q).imp_right fun hnew => ⟨hnew.1, hnew.2.1, .inr hnew.2.2⟩
    · rw [hentry] at h
      cases h
    · rw [hentry] at h
      obtain ⟨hcwd, hkept⟩ := ih h
      exact ⟨hcwd, fun q => (hkept q).imp_right fun hnew => ⟨hnew.1, hnew.2.1, .inr hnew.2.2⟩⟩

theorem entry_of_makeDirectories {path : String} (h : t.makeDirectories path = .ok t') :
    t'.cwd = t.cwd ∧ ∀ q, t'.entry q = t.entry q ∨
      t.entry q = none ∧ t'.entry q = some .directory ∧ q <:+ t.spot path := by
  rw [makeDirectories, absolute_eq_render, parts_render] at h
  have hmade : t.makeParts (render []) ((t.spot path).reverse.map (·.1)) = .ok t' := h
  obtain ⟨hcwd, hkept⟩ := entry_of_makeParts hmade
  refine ⟨hcwd, fun q => (hkept q).imp_right fun h => ⟨h.1, h.2.1, ?_⟩⟩
  simpa only [List.reverse_reverse, List.append_nil] using h.2.2.2

end FileTree

/-- To fetch a manifest is to look for it. -/
theorem ManifestStore.state_fetch {σ : Type} (m : ManifestStore σ) (d : String) (s : σ) :
    ((m.fetch d).run.run s).2 = ((m.get? d).run.run s).2 := by
  rw [fetch]
  rcases hget : (m.get? d).run.run s with ⟨fault | found, s'⟩
  · rw [Stateful.run_bind_error hget]
  · rw [Stateful.run_bind_ok hget]
    cases found <;> rfl

/-! ## The store in memory -/

namespace MemoryStore

/-- The manifest comes to be under its digest, if nothing was. -/
theorem run_put_or (m : Manifest) (now : Instant) (s : MemoryStore) :
    ((put m now).run.run s).2 = s ∨ s.entries.get? m.digest = none ∧
      ((put m now).run.run s).2 = ⟨s.entries.insert m.digest ⟨now, m.digest, m⟩⟩ := by
  have hput : ((put m now).run.run s).2 = if s.entries.contains m.digest then s else
      ⟨s.entries.insert m.digest ⟨now, m.digest, m⟩⟩ := rfl
  rw [hput]
  split_ifs with hthere
  · exact .inl rfl
  · exact .inr ⟨Option.not_isSome_iff_eq_none.mp hthere, rfl⟩

end MemoryStore

/-! ## The store in files -/

namespace FileStore
open FileTracker (Disk run_onDisk)
open Workflow.Path (Place)

variable {s : FileStore} {d tag : String} {m : Manifest} {now : Instant} {t t' : FileTree}

-- No proof here depends on how a digest comes about, and none should try to compute one.
attribute [local irreducible] Blake3.hexDigest

/-- A tree has gained the entry of a manifest, at a path where nothing was, with the directories that
lead there. Nothing is left of the draft. -/
structure Gains (s : FileStore) (tag : String) (m : Manifest) (now : Instant) (t t' : FileTree) :
    Prop where
  cwd : t'.cwd = t.cwd
  free : t.at? (s.entryPath m.digest) = none
  entry : ∀ q, t'.entry q = t.entry q ∨
    (q = t.spot (s.entryPath m.digest) ∧
      t'.entry q = some (.file (Json.pretty (StoredEntry.mk now m.digest m).encode))) ∨
    (t.entry q = none ∧ t'.entry q = some .directory ∧
      q <:+ t.spot (Path.parent (s.entryPath m.digest))) ∨
    (q = t.spot (s.draftPath tag m.digest) ∧ t'.entry q = none)

/-- A tree has lost the file under a digest, whose manifest has another one. -/
structure Drops (s : FileStore) (d : String) (t t' : FileTree) : Prop where
  digest : isDigest d = true
  damaged : ∃ text entry, t.at? (s.entryPath d) = some (.file text) ∧
    (Json.read? text).bind StoredEntry.decode? = some entry ∧ entry.manifest.digest ≠ d
  cleared : t' = t.clear (t.spot (s.entryPath d))

/-- A draft that is written and takes the place of an entry. -/
theorem entry_of_draft {t₁ t₂ t₃ : FileTree} {draft path content : String}
    (hwrite : t₁.write draft content = .ok t₂) (hrename : t₂.rename draft path = .ok t₃) :
    t₃.cwd = t₁.cwd ∧ ∀ q, t₃.entry q =
      if q = t₁.spot path then some (.file content)
      else if q = t₁.spot draft then none else t₁.entry q := by
  obtain rfl := FileTree.eq_set_of_write hwrite
  obtain ⟨e, hsource, rfl⟩ := FileTree.eq_set_of_rename hrename
  have hspot (p : String) : (t₁.set (t₁.spot draft) (.file content)).spot p = t₁.spot p := rfl
  rw [hspot, FileTree.entry_set, if_pos rfl] at hsource
  refine ⟨rfl, fun q => ?_⟩
  simp only [hspot, FileTree.entry_set, FileTree.entry_clear, ← Option.some.inj hsource]
  split_ifs <;> rfl

/-- Storing a manifest changes nothing if something is at its path. -/
theorem gains_of_run_put (h : (s.put tag m now).run t = (.ok d, t')) :
    t' = t ∨ s.Gains tag m now t t' := by
  cases hentry : t.at? (s.entryPath m.digest) with
  | some e =>
    cases (run_put_there hentry).symm.trans h
    exact .inl rfl
  | none =>
    obtain ⟨-, t₁, t₂, hmake, hwrite, hrename⟩ := run_put_changes hentry h
    obtain ⟨hcwd, hkept⟩ := FileTree.entry_of_makeDirectories hmake
    have hspot (p : String) : t₁.spot p = t.spot p := congrArg (Path.place · p) hcwd
    obtain ⟨hcwd', hdraft⟩ := entry_of_draft hwrite hrename
    refine .inr ⟨hcwd'.trans hcwd, hentry, fun q => ?_⟩
    rw [hdraft, hspot, hspot]
    split_ifs with hpath hdraftAt
    · exact .inr (.inl ⟨hpath, rfl⟩)
    · exact .inr (.inr (.inr ⟨hdraftAt, rfl⟩))
    · exact (hkept q).imp_right fun hnew => .inr (.inl hnew)

/-- Looking for a manifest changes nothing unless its entry is damaged. -/
theorem drops_of_run_get? : ((s.get? d).run t).2 = t ∨ s.Drops d t ((s.get? d).run t).2 := by
  by_cases hd : isDigest d = true
  swap
  · rw [get?_malformed s (Bool.not_eq_true _ ▸ hd)]
    exact .inl rfl
  rw [get?, if_neg (not_not.mpr hd), FileProgram.run_exists?_bind, FileTree.exists?]
  cases hentry : t.at? (s.entryPath d) with
  | none => exact .inl rfl
  | some e =>
    rw [Option.isSome_some, if_neg (not_not.mpr rfl), FileProgram.run_readText_bind,
      FileTree.read, hentry]
    cases e with
    | directory => exact .inl rfl
    | file text =>
      cases hread : (Json.read? text).bind StoredEntry.decode? with
      | none =>
        simp only [hread]
        exact .inl rfl
      | some entry =>
        simp only [hread]
        by_cases hdigest : entry.manifest.digest = d
        · rw [if_pos hdigest]
          exact .inl rfl
        · rw [if_neg hdigest]
          refine .inr ⟨hd, ⟨text, entry, hentry, hread, hdigest⟩, ?_⟩
          rw [FileProgram.run_tryStep_bind rfl, FileTree.unlink, hentry, FileTree.drop_eq]
          rfl

/-! ### On a disk -/

theorem gains_of_run_store {disk disk' : Disk}
    (h : (s.store.store m now).run.run disk = (.ok d, disk')) :
    disk'.tree = disk.tree ∨ s.Gains (toString disk.serial) m now disk.tree disk'.tree := by
  rw [store, run_onDisk] at h
  obtain ⟨hanswer, rfl⟩ := Prod.ext_iff.mp h
  exact gains_of_run_put (Prod.ext hanswer rfl)

theorem drops_of_run_fetch (s : FileStore) (d : String) (disk : Disk) :
    ((s.store.fetch d).run.run disk).2.tree = disk.tree ∨
      s.Drops d disk.tree ((s.store.fetch d).run.run disk).2.tree := by
  have hget : (s.store.get? d).run.run disk = _ := run_onDisk (fun _ => s.get? d) disk
  rw [ManifestStore.state_fetch, hget]
  exact drops_of_run_get?

/-! ### Beside the store -/

/-- No one of two places holds the other. -/
def Beside (pl q : Place) : Prop := ¬ pl <:+ q ∧ ¬ q <:+ pl

theorem Beside.ne {pl q r : Place} (h : Beside pl q) (hr : pl <:+ r) : ¬ q <:+ r := by
  intro hq
  rcases List.suffix_or_suffix_of_suffix hr hq with h' | h'
  · exact h.1 h'
  · exact h.2 h'

theorem beside_of_names {n k : Path.Name} (h : n ≠ k) (dir : Place) :
    Beside (n :: dir) (k :: dir) := by
  have hhead {n k : Path.Name} (hsuffix : n :: dir <:+ k :: dir) : n = k :=
    (List.cons.inj (hsuffix.eq_of_length rfl)).1
  exact ⟨fun h' => h (hhead h'), fun h' => h (hhead h').symm⟩

/-- The tracker and the store of a state directory are beside each other. -/
theorem beside_tracker (cwd state : String) :
    Beside (Path.place cwd (Path.join state "tracker"))
      (Path.place cwd (Path.join state "manifests")) := by
  let tracker : Path.Name := ⟨"tracker", by decide⟩
  let manifests : Path.Name := ⟨"manifests", by decide⟩
  have hnames : tracker ≠ manifests := fun h => absurd (congrArg Subtype.val h) (by decide)
  have htracker := Path.place_join cwd state tracker
  have hmanifests := Path.place_join cwd state manifests
  rw [htracker, hmanifests]
  exact beside_of_names hnames _

/-- What is in a directory beside the store stays as it is. -/
theorem Gains.beside (h : s.Gains tag m now t t') (htag : '/' ∉ tag.toList) {dir q : Place}
    (hdir : Beside dir (t.spot s.root)) (hq : dir <:+ q) : t'.entry q = t.entry q := by
  obtain ⟨shard, file, draft, hparent, hfile, hdraft⟩ :=
    s.places_put m.isDigest_digest htag t.cwd
  have hshard : t.spot s.root <:+ shard :: t.spot s.root := List.suffix_cons _ _
  have hin (n : Path.Name) : t.spot s.root <:+ n :: shard :: t.spot s.root :=
    hshard.trans (List.suffix_cons _ _)
  obtain hsame | ⟨hat, -⟩ | ⟨-, -, hlead⟩ | ⟨hat, -⟩ := h.entry q
  · exact hsame
  · rw [hat.trans hfile] at hq
    exact absurd (hin file) (hdir.ne hq)
  · rw [FileTree.spot, hparent] at hlead
    exact absurd hshard (hdir.ne (hq.trans hlead))
  · rw [hat.trans hdraft] at hq
    exact absurd (hin draft) (hdir.ne hq)

theorem Drops.beside (h : s.Drops d t t') {dir q : Place}
    (hdir : Beside dir (t.spot s.root)) (hq : dir <:+ q) : t'.entry q = t.entry q := by
  obtain ⟨shard, file, -, -, hfile⟩ := s.place_entryPath h.digest
  have hin : t.spot s.root <:+ file :: shard :: t.spot s.root :=
    (List.suffix_cons _ _).trans (List.suffix_cons _ _)
  rw [h.cleared, FileTree.entry_clear, if_neg]
  intro hat
  rw [hat.trans (hfile t.cwd)] at hq
  exact hdir.ne hq hin

end FileStore
end Workflow
