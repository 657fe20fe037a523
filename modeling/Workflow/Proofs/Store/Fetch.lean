import Workflow.Proofs.Document.RoundTrip
import Workflow.Proofs.Store.Integrity

/-!
# What is found after a manifest was stored

A store that says it has stored a manifest need not give it back. The one in memory keeps what it
held under the digest, and the one in files keeps what stands at the path of the entry, whatever it
is. For both it is said exactly when the manifest is found.
-/
namespace Workflow
open Document

/-! ## Entries -/

/-- A time from the beginning of 1970 on that fits 64 bits, and is not in a leap second. -/
structure Instant.Storable (t : Instant) : Prop where
  nonneg : 0 ≤ t.seconds
  seconds : t.seconds < 9223372036854775808
  nanos : t.nanos < Instant.billion

namespace StoredEntry

theorem restores_time {t : Instant} (h : t.Storable) :
    Restores decodeTime? (encodeTime t) t := by
  obtain ⟨seconds, nanos⟩ := t
  obtain ⟨hnonneg, hseconds, hnanos⟩ := h
  lift seconds to ℕ using hnonneg
  simp only [Instant.billion] at hseconds hnanos
  intro d hd
  have hwritten : encodeTime ⟨seconds, nanos⟩ = .record (present [("secs_since_epoch",
      some (.int seconds)), ("nanos_since_epoch", some (.int nanos))]) := rfl
  rw [hwritten] at hd
  obtain ⟨es, rfl, hes⟩ := settle?_eq_mapping hd
  cases hes with
  | @cons first _ rest _ hfirst hrest =>
  cases hrest with
  | @cons second _ rest _ hsecond hrest =>
  cases hrest
  obtain ⟨k₁, v₁⟩ := first
  obtain ⟨k₂, v₂⟩ := second
  obtain ⟨spelling₁, rfl⟩ := settle?_eq_atom hfirst.1
  obtain ⟨spelling₂, rfl⟩ := settle?_eq_atom hsecond.1
  -- A time with an unknown key is refused, so both keys are looked at before the fields are.
  unfold decodeTime?
  refine (if_neg (not_not.mpr rfl)).trans ?_
  have hslots : ["secs_since_epoch", "nanos_since_epoch"].Nodup := by decide
  refine read_record hd (fun fields ⟨hs, hn, _⟩ => ?_) rfl hslots
  rw [hs.required (restores_nat (by simp only [greatestNat64]; omega)),
    hn.required (restores_nat (by simp only [greatestNat64]; omega))]
  have hdiv : nanos / Instant.billion = 0 := Nat.div_eq_of_lt hnanos
  have hmod : nanos % Instant.billion = nanos := Nat.mod_eq_of_lt hnanos
  have hfits : (decide (Nat.pow 2 32 ≤ nanos) || decide (Nat.pow 2 63 ≤ seconds)) = false := by
    rw [Bool.or_eq_false_iff, decide_eq_false_iff_not, decide_eq_false_iff_not]
    exact ⟨by norm_num; omega, by norm_num; omega⟩
  simp only [Option.bind_eq_bind, Option.bind_some, hdiv, hmod, Nat.add_zero, hfits,
    Bool.false_eq_true, if_false]

theorem encode_eq (e : StoredEntry) :
    e.encode = .record (present [("timestamp", some (encodeTime e.storedAt)),
      ("digest", some (.text e.digest)), ("manifest", some e.manifest.encode)]) := rfl

theorem restores {e : StoredEntry} (htime : e.storedAt.Storable) (h : e.manifest.Stable) :
    Restores StoredEntry.decode? e.encode e := by
  intro d hd
  rw [encode_eq] at hd
  refine read_record hd (fun fields ⟨hstored, hdigest, hmanifest, _⟩ => ?_) rfl (by decide)
  rw [hstored.required (restores_time htime), hdigest.required (restores_text e.digest),
    hmanifest.required (Manifest.restores h)]
  rfl

theorem legible {e : StoredEntry} (htime : e.storedAt.Storable)
    (h : ∀ s ∈ e.manifest.scalars, s.Legible) : e.encode.Legible 128 := by
  obtain ⟨hnonneg, hseconds, hnanos⟩ := htime
  have htimes : (encodeTime e.storedAt).Legible 127 := by
    refine legible_fields (by decide) (List.forall_mem_cons.mpr
      ⟨⟨rfl, ?_⟩, List.forall_mem_singleton.mpr ⟨rfl, ?_⟩⟩)
    · exact ⟨by simp only [leastInt64]; omega, by simp only [greatestNat64]; omega⟩
    · simp only [Instant.billion] at hnanos
      exact ⟨by simp only [leastInt64]; omega, by simp only [greatestNat64]; omega⟩
  rw [encode_eq]
  exact legible_record (by decide) ⟨legible_some htimes, legible_some (legible_text _),
    legible_some (Manifest.legible (by decide) h), trivial⟩

/-- The text is that of an entry with the manifest. -/
def Shows (text : String) (m : Manifest) : Prop :=
  ∃ e, (Json.read? text).bind decode? = some e ∧ e.manifest = m

theorem Shows.eq {text : String} {m m' : Manifest} (h : Shows text m) (h' : Shows text m') :
    m = m' := by
  obtain ⟨e, hread, rfl⟩ := h
  obtain ⟨e', hread', rfl⟩ := h'
  rw [Option.some.inj (hread.symm.trans hread')]

theorem shows_pretty {e : StoredEntry} (htime : e.storedAt.Storable) (h : e.manifest.Stable)
    (hs : ∀ s ∈ e.manifest.scalars, s.Legible) : Shows (Json.pretty e.encode) e.manifest :=
  ⟨e, by rw [Json.read?_pretty (legible htime hs), Option.bind_some,
    restores htime h _ (settle?_of_legible _ (legible htime hs))], rfl⟩

end StoredEntry

/-! ## What is found -/

def ManifestStore.Finds {σ : Type} (s : ManifestStore σ) (state : σ) (d : String) (m : Manifest) :
    Prop := ((s.get? d).run.run state).1 = .ok (some m)

/-- A submission that refers to a manifest gets what the store gives. -/
theorem ManifestStore.fetch_eq_ok_iff {σ : Type} {s : ManifestStore σ} {state : σ} {d : String}
    {m : Manifest} : ((s.fetch d).run.run state).1 = .ok m ↔ s.Finds state d m := by
  rw [Finds, fetch]
  rcases hget : (s.get? d).run.run state with ⟨fault | found, state'⟩
  · rw [Stateful.run_bind_error hget]
    exact ⟨nofun, nofun⟩
  · rw [Stateful.run_bind_ok hget]
    cases found with
    | none => exact ⟨nofun, nofun⟩
    | some m' =>
      refine ⟨fun h => ?_, fun h => ?_⟩
      · cases h
        rfl
      · cases h
        rfl

/-- What was under the digest of a manifest that is stored stays there. -/
theorem MemoryStore.finds_stored_iff (m : Manifest) (now : Instant) (s : MemoryStore) :
    store.Finds ((put m now).run.run s).2 m.digest m ↔
      ∀ e, s.entries.get? m.digest = some e → e.manifest = m := by
  have hget : ∀ s : MemoryStore, ((store.get? m.digest).run.run s).1 =
      .ok ((s.entries.get? m.digest).map (·.manifest)) := fun _ => rfl
  have hput : ((put m now).run.run s).2 = if s.entries.contains m.digest then s else
      ⟨s.entries.insert m.digest ⟨now, m.digest, m⟩⟩ := rfl
  rw [ManifestStore.Finds, hget, hput]
  cases hentry : s.entries.get? m.digest with
  | none =>
    have hnew : s.entries.contains m.digest = false := by rw [Dict.contains, hentry]; rfl
    simp [hnew]
  | some e =>
    have hold : s.entries.contains m.digest = true := by rw [Dict.contains, hentry]; rfl
    simp [hold, hentry]

/-! ## The store in files -/

namespace FileStore
open FileTracker (run_andThen run_andThen_ok)

attribute [local irreducible] Blake3.hexDigest

variable {s : FileStore} {t t' : FileTree} {d tag what : String} {m : Manifest} {now : Instant}

/-- A manifest is found when the file at the path of its digest shows it. -/
theorem run_get?_eq_some_iff (hd : isDigest d = true) :
    ((s.get? d).run t).1 = .ok (some m) ↔
      m.digest = d ∧ ∃ text, t.at? (s.entryPath d) = some (.file text) ∧
        StoredEntry.Shows text m := by
  rw [get?, if_neg (not_not.mpr hd)]
  rw [FileProgram.run_exists?_bind, FileTree.exists?]
  cases hentry : t.at? (s.entryPath d) with
  | none =>
    constructor
    · intro h
      cases h
    · rintro ⟨-, text, hfile, -⟩
      cases hfile
  | some e =>
    rw [Option.isSome_some, if_neg (not_not.mpr rfl), FileProgram.run_readText_bind,
      FileTree.read, hentry]
    cases e with
    | directory =>
      constructor
      · intro h
        cases h
      · rintro ⟨-, text, hfile, -⟩
        cases hfile
    | file text =>
      simp only [Option.some.injEq, FileEntry.file.injEq, exists_eq_left', StoredEntry.Shows]
      cases (Json.read? text).bind StoredEntry.decode? with
      | none =>
        constructor
        · intro h
          cases h
        · rintro ⟨-, entry, hentry, -⟩
          cases hentry
      | some entry =>
        -- An entry with another digest is removed, and then nothing is found.
        simp only [Option.some.injEq, exists_eq_left']
        by_cases hdigest : entry.manifest.digest = d
        · rw [if_pos hdigest]
          constructor
          · intro h
            cases h
            exact ⟨hdigest, rfl⟩
          · rintro ⟨-, rfl⟩
            rfl
        · rw [if_neg hdigest]
          constructor
          · intro h
            cases (congrArg Prod.fst (FileProgram.run_bind _ _ t)).symm.trans h
          · rintro ⟨hd', rfl⟩
            exact absurd hd' hdigest

theorem finds_iff (hd : isDigest d = true) {disk : FileTracker.Disk} :
    s.store.Finds disk d m ↔ m.digest = d ∧ ∃ text,
      disk.tree.at? (s.entryPath d) = some (.file text) ∧ StoredEntry.Shows text m := by
  have hrun := FileTracker.run_onDisk (fun _ => s.get? d) disk
  exact (Eq.congr_left (congrArg Prod.fst hrun)).trans (run_get?_eq_some_iff hd)

theorem run_must_ok {step : FileStep} {change : Except FileError FileTree}
    (hstep : step.perform t = FileStep.changed t change)
    (h : (must what step).run t = (.ok (), t')) : change = .ok t' := by
  rw [must, FileProgram.run_tryStep_bind hstep] at h
  cases change with
  | error e => cases h
  | ok t₁ =>
    cases h
    rfl

/-- Where nothing is, an entry is written as a draft that takes its place. -/
theorem run_put_changes (hfree : t.at? (s.entryPath m.digest) = none)
    (h : (s.put tag m now).run t = (.ok d, t')) :
    d = m.digest ∧ ∃ t₁ t₂, t.makeDirectories (Path.parent (s.entryPath m.digest)) = .ok t₁ ∧
      t₁.write (s.draftPath tag m.digest)
        (Json.pretty (StoredEntry.mk now m.digest m).encode) = .ok t₂ ∧
      t₂.rename (s.draftPath tag m.digest) (s.entryPath m.digest) = .ok t' := by
  have hmakeStep (p : String) : FileStep.perform t (.makeDirectories p) =
    FileStep.changed t (t.makeDirectories p) := rfl
  rw [put, FileProgram.run_exists?_bind, FileTree.exists?, hfree] at h
  obtain ⟨_, t₁, hmake, h⟩ := run_andThen_ok h
  obtain ⟨_, t₂, hwrite, h⟩ := run_andThen_ok h
  rw [FileProgram.run_tryStep_bind rfl] at h
  cases hrename : t₂.rename (s.draftPath tag m.digest) (s.entryPath m.digest) with
  | error e =>
    rw [hrename] at h
    cases (congrArg Prod.fst (FileProgram.run_bind _ _ _)).symm.trans (congrArg Prod.fst h)
  | ok t₃ =>
    rw [hrename] at h
    cases h
    exact ⟨rfl, t₁, t₂, run_must_ok (hmakeStep _) hmake, run_must_ok rfl hwrite, hrename⟩

theorem run_put_there {e : FileEntry} (h : t.at? (s.entryPath m.digest) = some e) :
    (s.put tag m now).run t = (.ok m.digest, t) := by
  rw [put, FileProgram.run_exists?_bind, FileTree.exists?, h]
  rfl

theorem run_put_cases (h : (s.put tag m now).run t = (.ok d, t')) :
    d = m.digest ∧ ((∃ e, t.at? (s.entryPath d) = some e) ∧ t' = t ∨
      t.at? (s.entryPath d) = none ∧ t'.at? (s.entryPath d) =
        some (.file (Json.pretty (StoredEntry.mk now d m).encode))) := by
  cases hentry : t.at? (s.entryPath m.digest) with
  | some e =>
    cases (run_put_there hentry).symm.trans h
    exact ⟨rfl, .inl ⟨⟨e, hentry⟩, rfl⟩⟩
  | none =>
    obtain ⟨rfl, t₁, t₂, -, hwrite, hrename⟩ := run_put_changes hentry h
    exact ⟨rfl, .inr ⟨hentry, FileTree.at?_of_write_rename hwrite hrename⟩⟩

/-- After a manifest was stored it is found, unless something that was at its path before does not
show it. -/
theorem finds_stored_iff {disk disk' : FileTracker.Disk}
    (h : (s.store.store m now).run.run disk = (.ok d, disk')) :
    d = m.digest ∧ (s.store.Finds disk' d m ↔
      (∃ text, disk.tree.at? (s.entryPath d) = some (.file text) ∧ StoredEntry.Shows text m) ∨
      (disk.tree.at? (s.entryPath d) = none ∧
        StoredEntry.Shows (Json.pretty (StoredEntry.mk now d m).encode) m)) := by
  rw [store, FileTracker.run_onDisk] at h
  obtain ⟨hanswer, rfl⟩ := Prod.ext_iff.mp h
  obtain ⟨rfl, hcases⟩ := run_put_cases (Prod.ext hanswer rfl)
  rw [finds_iff m.isDigest_digest]
  refine ⟨rfl, ?_⟩
  rcases hcases with ⟨⟨e, hthere⟩, htree⟩ | ⟨hmissing, hwritten⟩
  · simp only [htree, hthere, true_and, reduceCtorEq, false_and, or_false]
  · simp only [hwritten, hmissing, true_and, reduceCtorEq, false_and, exists_false, false_or,
      Option.some.injEq, FileEntry.file.injEq, exists_eq_left']

theorem run_must {step : FileStep} (h : step.perform t = FileStep.changed t (.ok t')) :
    (must what step).run t = (.ok (), t') := by
  rw [must, FileProgram.run_tryStep_bind h]
  rfl

/-- An entry is written beside its path, in the directory that the path is in. -/
theorem places_put (hd : isDigest d = true) (htag : '/' ∉ tag.toList) (cwd : String) :
    ∃ shard file draft : Path.Name,
      Path.place cwd (Path.parent (s.entryPath d)) = shard :: Path.place cwd s.root ∧
      Path.place cwd (s.entryPath d) = file :: shard :: Path.place cwd s.root ∧
      Path.place cwd (s.draftPath tag d) = draft :: shard :: Path.place cwd s.root := by
  obtain ⟨shard, file, hshard, hfile, hplace⟩ := s.place_entryPath hd
  have hrest : '/' ∉ (String.ofList (d.toList.drop 2)).toList := fun hmem =>
    file.2.2.2.2 (by rw [hfile, String.toList_append]; exact List.mem_append_left _ hmem)
  have hdraft : Path.Plain (String.ofList (d.toList.drop 2) ++ "." ++ tag ++ ".tmp") := by
    apply Path.plain_of_length
    · simp only [String.length_append, show ".tmp".length = 4 from rfl]
      omega
    · simp only [String.toList_append, List.mem_append, not_or]
      exact ⟨⟨⟨hrest, by decide⟩, htag⟩, by decide⟩
  refine ⟨shard, file, ⟨_, hdraft⟩, ?_, hplace cwd, ?_⟩
  · rw [entryPath, ← hshard, ← hfile, Path.place_parent_join, Path.place_join]
  · rw [draftPath, ← hshard]
    exact (Path.place_join cwd _ ⟨_, hdraft⟩).trans (congrArg _ (Path.place_join cwd _ shard))

/-- A manifest is stored where nothing stands at its path or in its way. -/
theorem run_put_free (htag : '/' ∉ tag.toList) (hfree : t.at? (s.entryPath m.digest) = none)
    (hdirs : ∀ q, q ≠ [] → q <:+ t.spot (Path.parent (s.entryPath m.digest)) →
      ∀ c, t.entry q ≠ some (.file c))
    (hdraft : t.at? (s.draftPath tag m.digest) ≠ some .directory) :
    ((s.put tag m now).run t).1 = .ok m.digest := by
  obtain ⟨shard, file, draft, hparentAt, hfileAt, hdraftAt⟩ :=
    s.places_put m.isDigest_digest htag t.cwd
  generalize Path.place t.cwd s.root = root at *
  obtain ⟨t₁, hmade, hspot, hdir, hothers⟩ :=
    FileTree.makeDirectories_below hparentAt (by rwa [FileTree.spot, hparentAt] at hdirs)
  have hfile : t₁.entry (file :: shard :: root) = none := by
    rw [hothers, ← hfree, FileTree.at?_eq, FileTree.spot, hfileAt]
  rw [FileTree.at?_eq, FileTree.spot, hdraftAt] at hdraft
  obtain ⟨t₂, t₃, hwrite, hrename⟩ := FileTree.write_rename_eq hdir
    ((hspot _).trans hdraftAt) ((hspot _).trans hfileAt) (hothers draft ▸ hdraft)
    (fun h => by rw [hfile] at h; cases h)
    (Json.pretty (StoredEntry.mk now m.digest m).encode)
  rw [put, FileProgram.run_exists?_bind, FileTree.exists?, hfree, Option.isSome_none,
    if_neg Bool.false_ne_true]
  rw [run_andThen (run_must (by rw [FileStep.perform, hmade])),
    run_andThen (run_must (by rw [FileStep.perform, hwrite]))]
  rw [FileProgram.run_tryStep_bind (by rw [FileStep.perform, hrename])]
  rfl

def newDisk : FileTracker.Disk := ⟨FileTree.empty "/", 0⟩

theorem entry_newDisk {q : Path.Place} (h : q ≠ []) (c : String) :
    newDisk.tree.entry q ≠ some (.file c) := by
  rw [newDisk, FileTree.entry_empty "/" h]
  exact (Option.some_ne_none _).symm

theorem at?_newDisk {path : String} {n : Path.Name} {pl : Path.Place}
    (h : Path.place "/" path = n :: pl) : newDisk.tree.at? path = none := by
  rw [FileTree.at?_eq, FileTree.spot, show newDisk.tree.cwd = "/" from rfl, h]
  exact FileTree.entry_empty "/" (List.cons_ne_nil _ _)

theorem at?_newDisk_entryPath (hd : isDigest d = true) :
    newDisk.tree.at? (s.entryPath d) = none := by
  obtain ⟨shard, file, -, -, hplace⟩ := s.place_entryPath hd
  exact at?_newDisk (hplace "/")

theorem run_store_newDisk (s : FileStore) (m : Manifest) (now : Instant) :
    ∃ disk', (s.store.store m now).run.run newDisk = (.ok m.digest, disk') := by
  have htag : '/' ∉ (toString newDisk.serial).toList := by decide
  obtain ⟨shard, file, draft, -, -, hdraft⟩ := s.places_put m.isDigest_digest htag "/"
  have hput : ((s.put (toString newDisk.serial) m now).run newDisk.tree).1 = .ok m.digest := by
    refine run_put_free htag (at?_newDisk_entryPath m.isDigest_digest)
      (fun q hq _ => entry_newDisk hq) ?_
    rw [at?_newDisk hdraft]
    exact (Option.some_ne_none _).symm
  have hrun : (s.store.store m now).run.run newDisk = _ :=
    FileTracker.run_onDisk (fun tag => s.put tag m now) newDisk
  rw [hput] at hrun
  exact ⟨_, hrun⟩

theorem exists_planted (s : FileStore) (text : String) (hd : isDigest d = true) :
    ∃ t₁ t₂, newDisk.tree.makeDirectories (Path.parent (s.entryPath d)) = .ok t₁ ∧
      t₁.write (s.entryPath d) text = .ok t₂ ∧ t₂.at? (s.entryPath d) = some (.file text) := by
  have htag : '/' ∉ "0".toList := by decide
  obtain ⟨shard, file, -, hparent, hfile, -⟩ := s.places_put hd htag newDisk.tree.cwd
  generalize Path.place newDisk.tree.cwd s.root = root at *
  obtain ⟨t₁, hmade, hspot, hdir, hothers⟩ :=
    FileTree.makeDirectories_below hparent fun q hq _ => entry_newDisk hq
  have hbare : t₁.entry (file :: shard :: root) ≠ some .directory := by
    rw [hothers, newDisk, FileTree.entry_empty "/" (List.cons_ne_nil _ _)]
    exact (Option.some_ne_none _).symm
  have hwritten := FileTree.write_eq hdir ((hspot _).trans hfile) hbare text
  refine ⟨t₁, _, hmade, hwritten, ?_⟩
  have hset := FileTree.eq_set_of_write hwritten
  rw [hset, FileTree.at?_eq]
  exact (FileTree.entry_set _ _ _ _).trans (if_pos rfl)

end FileStore

/-! ## Stored manifests -/

/-- A store that says it has stored a manifest gives it back if and only if nothing else was under
its digest, and a submission that refers to it gets what the store gives. For the store in memory
that is no other manifest; for the one in files it is nothing at the path but a file that shows the
manifest, and a new file shows it if its doubles and quantities are read as they are written. -/
theorem stored_manifest_found_iff (m : Manifest) (now : Instant) :
    (∀ s : MemoryStore, ∃ s', (MemoryStore.store.store m now).run.run s = (.ok m.digest, s') ∧
      (MemoryStore.store.Finds s' m.digest m ↔
        ∀ e, s.entries.get? m.digest = some e → e.manifest = m)) ∧
    (∀ (s : FileStore) (disk disk' : FileTracker.Disk) (d : String),
      (s.store.store m now).run.run disk = (.ok d, disk') → d = m.digest ∧
        (s.store.Finds disk' d m ↔
          (∃ text, disk.tree.at? (s.entryPath d) = some (.file text) ∧
            StoredEntry.Shows text m) ∨
          (disk.tree.at? (s.entryPath d) = none ∧
            StoredEntry.Shows (Json.pretty (StoredEntry.mk now d m).encode) m))) ∧
    (now.Storable → m.Stable → (∀ c ∈ m.scalars, c.Legible) →
      StoredEntry.Shows (Json.pretty (StoredEntry.mk now m.digest m).encode) m) ∧
    ∀ {σ : Type} (s : ManifestStore σ) (state : σ) (d : String),
      ((s.fetch d).run.run state).1 = .ok m ↔ s.Finds state d m := by
  refine ⟨fun s => ⟨_, rfl, MemoryStore.finds_stored_iff m now s⟩, fun s disk disk' d h => ?_,
    fun htime hstable hscalars => ?_, fun s state d => ManifestStore.fetch_eq_ok_iff⟩
  · exact FileStore.finds_stored_iff h
  · exact StoredEntry.shows_pretty (e := ⟨now, m.digest, m⟩) htime hstable hscalars

theorem storable_trainRun : trainRun.createdAt.Storable := ⟨by decide, by decide, by decide⟩

theorem stored_manifest_found_train :
    (∃ s', (MemoryStore.store.store trainManifest trainRun.createdAt).run.run MemoryStore.empty =
        (.ok trainManifest.digest, s') ∧
      MemoryStore.store.Finds s' trainManifest.digest trainManifest) ∧
    ∃ disk', ((FileStore.mk "/store").store.store trainManifest trainRun.createdAt).run.run
        FileStore.newDisk = (.ok trainManifest.digest, disk') ∧
      (FileStore.mk "/store").store.Finds disk' trainManifest.digest trainManifest := by
  obtain ⟨hmemory, hfiles, hshown, -⟩ :=
    stored_manifest_found_iff trainManifest trainRun.createdAt
  constructor
  · obtain ⟨s', hstored, hfound⟩ := hmemory MemoryStore.empty
    exact ⟨s', hstored, hfound.mpr fun e he => by cases he⟩
  · obtain ⟨disk', hstored⟩ :=
      (FileStore.mk "/store").run_store_newDisk trainManifest trainRun.createdAt
    refine ⟨disk', hstored, (hfiles _ _ _ _ hstored).2.mpr (.inr ⟨?_, ?_⟩)⟩
    · exact FileStore.at?_newDisk_entryPath trainManifest.isDigest_digest
    · exact hshown storable_trainRun stable_trainManifest
        (List.forall_mem_singleton.mpr readsBack_half)

def bareManifest (name : String) : Manifest := ⟨manifestVersion, ⟨name, none⟩, [], [], []⟩

/-- An entry with another manifest stands where a manifest belongs. The manifest counts as stored,
and it is not found. -/
theorem stored_manifest_mislaid :
    ∃ t₁ t₂ disk', FileStore.newDisk.tree.makeDirectories
        (Path.parent ((FileStore.mk "/store").entryPath (bareManifest "p").digest)) = .ok t₁ ∧
      t₁.write ((FileStore.mk "/store").entryPath (bareManifest "p").digest)
        (Json.pretty (StoredEntry.mk trainRun.createdAt (bareManifest "p").digest
          (bareManifest "q")).encode) = .ok t₂ ∧
      ((FileStore.mk "/store").store.store (bareManifest "p") trainRun.createdAt).run.run
        ⟨t₂, 0⟩ = (.ok (bareManifest "p").digest, disk') ∧
      ¬ (FileStore.mk "/store").store.Finds disk' (bareManifest "p").digest
        (bareManifest "p") := by
  obtain ⟨t₁, t₂, hmade, hwritten, hplanted⟩ := (FileStore.mk "/store").exists_planted
    (Json.pretty (StoredEntry.mk trainRun.createdAt (bareManifest "p").digest
      (bareManifest "q")).encode) (bareManifest "p").isDigest_digest
  have hstored : ((FileStore.mk "/store").store.store (bareManifest "p")
      trainRun.createdAt).run.run ⟨t₂, 0⟩ = (.ok (bareManifest "p").digest, ⟨t₂, 1⟩) := by
    refine (FileTracker.run_onDisk (fun tag => (FileStore.mk "/store").put tag (bareManifest "p")
      trainRun.createdAt) ⟨t₂, 0⟩).trans ?_
    rw [FileStore.run_put_there hplanted]
  refine ⟨t₁, t₂, ⟨t₂, 1⟩, hmade, hwritten, hstored, fun hfound => ?_⟩
  have hother : StoredEntry.Shows _ (bareManifest "q") :=
    StoredEntry.shows_pretty (e := ⟨trainRun.createdAt, (bareManifest "p").digest,
      bareManifest "q"⟩) storable_trainRun nofun nofun
  rcases (FileStore.finds_stored_iff hstored).2.mp hfound with ⟨text, htext, hshown⟩ | ⟨hnone, -⟩
  · rw [hplanted] at htext
    cases htext
    have hname := congrArg Manifest.name (hshown.eq hother)
    exact absurd hname (by decide)
  · rw [hplanted] at hnone
    cases hnone

end Workflow
