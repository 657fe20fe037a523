import Workflow.Proofs.Data.Dict
import Workflow.Proofs.Storage.Path
import Workflow.Storage.FileTree

/-!
# Laws of file trees

A step on a file tree looks at the places of its paths and changes what is at them. Each operation
has its law in terms of places: when it succeeds, and the tree that it leaves.
-/
namespace Workflow

namespace FileTree
open Workflow.Path

variable {t : FileTree} {path source target content : String} {dir pl q : Place} {n : Name}
  {e f : FileEntry}

/-- What is at a place. -/
def entry (t : FileTree) (pl : Place) : Option FileEntry := t.entries.get? (render pl)

/-- The place that a path denotes. -/
def spot (t : FileTree) (path : String) : Place := place t.cwd path

def set (t : FileTree) (pl : Place) (e : FileEntry) : FileTree :=
  { t with entries := t.entries.insert (render pl) e }

def clear (t : FileTree) (pl : Place) : FileTree :=
  { t with entries := t.entries.erase (render pl) }

theorem entry_set (t : FileTree) (pl q : Place) (e : FileEntry) :
    (t.set pl e).entry q = if q = pl then some e else t.entry q := by
  simp only [entry, set, Dict.get?_insert, render_injective.eq_iff]

theorem entry_clear (t : FileTree) (pl q : Place) :
    (t.clear pl).entry q = if q = pl then none else t.entry q := by
  simp only [entry, clear, Dict.get?_erase, render_injective.eq_iff]

@[simp] theorem cwd_set (t : FileTree) (pl : Place) (e : FileEntry) :
    (t.set pl e).cwd = t.cwd := rfl

@[simp] theorem cwd_clear (t : FileTree) (pl : Place) : (t.clear pl).cwd = t.cwd := rfl

theorem entry_empty (cwd : String) (h : q ≠ []) : (empty cwd).entry q = none := by
  have hroot : render q ≠ "/" := fun he => h (render_injective (he : render q = render []))
  rw [entry, empty, Dict.ofList, List.foldl_cons, List.foldl_nil, Dict.get?_insert, if_neg hroot]
  rfl

theorem at?_eq (t : FileTree) (path : String) : t.at? path = t.entry (t.spot path) := by
  rw [at?, absolute_eq_render]
  rfl

theorem put_eq (t : FileTree) (path : String) (e : FileEntry) :
    t.put path e = t.set (t.spot path) e := by
  rw [put, absolute_eq_render]
  rfl

theorem drop_eq (t : FileTree) (path : String) : t.drop path = t.clear (t.spot path) := by
  rw [drop, absolute_eq_render]
  rfl

theorem isDirectory_eq_false (h : t.entry (t.spot path) ≠ some .directory) :
    t.isDirectory path = false := by
  rw [isDirectory, at?_eq]
  exact decide_eq_false h

theorem parentError?_eq_none (hdir : t.entry dir = some .directory)
    (hspot : t.spot path = n :: dir) :
    t.parentError? path = none := by
  have hparent : Path.parent (Path.absolute t.cwd path) = render dir := by
    rw [absolute_eq_render, parent_render, show place t.cwd path = n :: dir from hspot,
      List.tail_cons]
  rw [entry] at hdir
  rw [parentError?, hparent, hdir]

/-! ## Files in a directory -/

theorem read_eq_ok (h : t.entry (t.spot path) = some (.file content)) :
    t.read path = .ok content := by
  rw [read, at?_eq, h]

theorem read_eq_notFound (hdir : t.entry dir = some .directory) (hspot : t.spot path = n :: dir)
    (h : t.entry (n :: dir) = none) : t.read path = .error .notFound := by
  rw [read, at?_eq, hspot, h, parentError?_eq_none hdir hspot]

theorem write_eq (hdir : t.entry dir = some .directory) (hspot : t.spot path = n :: dir)
    (h : t.entry (n :: dir) ≠ some .directory) (content : String) :
    t.write path content = .ok (t.set (n :: dir) (.file content)) := by
  rw [write, isDirectory_eq_false (hspot ▸ h), parentError?_eq_none hdir hspot, put_eq, hspot]
  rfl

theorem link_eq_ok (hsource : t.entry (t.spot source) = some e)
    (hdir : t.entry dir = some .directory) (hspot : t.spot target = n :: dir)
    (h : t.entry (n :: dir) = none) : t.link source target = .ok (t.set (n :: dir) e) := by
  have hnew : t.exists? target = false := by
    rw [exists?, at?_eq, hspot, h]
    rfl
  rw [link, at?_eq, hsource]
  simp only [hnew, parentError?_eq_none hdir hspot, put_eq, hspot]
  rfl

theorem link_eq_alreadyExists (hsource : t.entry (t.spot source) = some e)
    (h : t.entry (t.spot target) = some f) : t.link source target = .error .alreadyExists := by
  have hold : t.exists? target = true := by
    rw [exists?, at?_eq, h]
    rfl
  rw [link, at?_eq, hsource]
  simp only [hold, if_true]

theorem rename_eq (hsource : t.entry (t.spot source) = some e)
    (hdir : t.entry dir = some .directory) (hspot : t.spot target = n :: dir)
    (h : t.entry (n :: dir) ≠ some .directory) :
    t.rename source target = .ok ((t.clear (t.spot source)).set (n :: dir) e) := by
  rw [rename, at?_eq, hsource]
  simp only [isDirectory_eq_false (hspot ▸ h), parentError?_eq_none hdir hspot, put_eq, drop_eq]
  rw [← hspot]
  rfl

theorem unlink_eq (h : t.entry (t.spot path) = some (.file content)) :
    t.unlink path = .ok (t.clear (t.spot path)) := by
  rw [unlink, at?_eq, h, drop_eq]

/-! ## Trees after a step -/

theorem eq_set_of_write {t' : FileTree} (h : t.write path content = .ok t') :
    t' = t.set (t.spot path) (.file content) := by
  unfold write at h
  split_ifs at h
  split at h
  · cases h
  · rw [put_eq] at h
    exact (Except.ok.inj h).symm

theorem eq_set_of_rename {t' : FileTree} (h : t.rename source target = .ok t') :
    ∃ e, t.entry (t.spot source) = some e ∧
      t' = (t.clear (t.spot source)).set (t.spot target) e := by
  unfold rename at h
  rw [at?_eq] at h
  split at h
  · cases h
  · rename_i e he
    split_ifs at h
    split at h
    · cases h
    · rw [put_eq, drop_eq] at h
      exact ⟨e, he, (Except.ok.inj h).symm⟩

/-- A file is written beside a path and given it, if no directory is at the two places. -/
theorem write_rename_eq (hdir : t.entry dir = some .directory) {k : Name}
    (hsource : t.spot source = n :: dir) (htarget : t.spot target = k :: dir)
    (hn : t.entry (n :: dir) ≠ some .directory) (hk : t.entry (k :: dir) ≠ some .directory)
    (content : String) :
    ∃ t₁ t₂, t.write source content = .ok t₁ ∧ t₁.rename source target = .ok t₂ := by
  have hlonger : dir ≠ n :: dir := fun h => absurd (congrArg List.length h) (by simp)
  have hthere : (t.set (n :: dir) (.file content)).entry (t.spot source) = some (.file content) :=
    (entry_set _ _ _ _).trans (if_pos hsource)
  have hkept : (t.set (n :: dir) (.file content)).entry dir = some .directory := by
    rw [entry_set, if_neg hlonger, hdir]
  have hfree : (t.set (n :: dir) (.file content)).entry (k :: dir) ≠ some .directory := by
    rw [entry_set]
    split_ifs
    · exact fun h => by cases h
    · exact hk
  exact ⟨_, _, write_eq hdir hsource hn content, rename_eq hthere hkept htarget hfree⟩

/-- A file that is written beside a path and then given it is found there. -/
theorem at?_of_write_rename {t₁ t₂ : FileTree} (hwrite : t.write source content = .ok t₁)
    (hrename : t₁.rename source target = .ok t₂) : t₂.at? target = some (.file content) := by
  obtain rfl := eq_set_of_write hwrite
  obtain ⟨e, hsource, rfl⟩ := eq_set_of_rename hrename
  have hspot : (t.set (t.spot source) (.file content)).spot source = t.spot source := rfl
  rw [hspot, entry_set, if_pos rfl] at hsource
  rw [at?_eq, ← Option.some.inj hsource]
  exact (entry_set _ _ _ _).trans (if_pos rfl)

/-! ## Listings -/

/-- All entries of the tree are kept under the paths of places. -/
def Regular (t : FileTree) : Prop := ∀ path ∈ t.entries.keys, ∃ pl, path = render pl

theorem Regular.set (h : t.Regular) (pl : Place) (e : FileEntry) : (t.set pl e).Regular := by
  intro path hpath
  obtain ⟨v, hv⟩ := Dict.mem_keys_iff.mp hpath
  rw [FileTree.set, Dict.get?_insert] at hv
  split_ifs at hv with heq
  · exact ⟨pl, heq⟩
  · exact h path (Dict.mem_keys_iff.mpr ⟨v, hv⟩)

theorem Regular.clear (h : t.Regular) (pl : Place) : (t.clear pl).Regular := by
  intro path hpath
  obtain ⟨v, hv⟩ := Dict.mem_keys_iff.mp hpath
  rw [FileTree.clear, Dict.get?_erase] at hv
  split_ifs at hv
  exact h path (Dict.mem_keys_iff.mpr ⟨v, hv⟩)

/-- What the paths of the entries of a directory begin with. -/
def inside (directory : String) : String := if directory = "/" then "/" else directory ++ "/"

theorem inside_append (pl : Place) (n : Name) : inside (render pl) ++ n.1 = render (n :: pl) := by
  rcases pl with - | ⟨m, rest⟩
  · rw [render_singleton]
    rfl
  · have hne : render (m :: rest) ≠ "/" := fun h => by
      have hempty : render (m :: rest) = render [] := h
      cases render_injective hempty
    rw [inside, if_neg hne, render_cons_cons]

theorem parts_inside_append (pl : Place) (s : String) :
    parts (inside (render pl) ++ s) = parts (render pl) ++ parts s := by
  unfold inside
  split_ifs with h
  · rw [parts_slash, h, show parts "/" = [] from by simpa using parts_slash "", List.nil_append]
  · exact parts_append _ _

theorem below?_eq_some_iff {directory s : String} :
    below? directory path = some s ↔ path = inside directory ++ s ∧ s ≠ "" := by
  have hbelow : below? directory path =
      if path.startsWith (inside directory) && path ≠ inside directory then
        some (path.drop (inside directory).length).toString else none := rfl
  rw [hbelow]
  constructor
  · intro h
    split_ifs at h with hc
    rw [Bool.and_eq_true, String.startsWith_string_iff, decide_eq_true_eq] at hc
    obtain ⟨⟨cs, hcs⟩, hne⟩ := hc
    have hs : s.toList = cs := by
      rw [← Option.some.inj h]
      exact String.toList_copy_drop.trans (by rw [← hcs, ← String.length_toList, List.drop_left])
    have hpath : path = inside directory ++ s := String.toList_injective (by simp [hs, hcs])
    exact ⟨hpath, fun he => hne (by rw [hpath, he, String.append_empty])⟩
  · rintro ⟨rfl, hs⟩
    rw [if_pos]
    · refine congrArg _ (String.toList_injective ?_)
      refine String.toList_copy_drop.trans ?_
      rw [String.toList_append, ← String.length_toList, List.drop_left]
    · rw [Bool.and_eq_true, String.startsWith_string_iff, decide_eq_true_eq]
      exact ⟨by simp, by simpa using hs⟩

/-- The names that a directory lists are those of the places in it. -/
theorem below?_render_iff {s : String} :
    below? (render dir) (render pl) = some s ∧ '/' ∉ s.toList ↔
      ∃ n : Name, n.1 = s ∧ pl = n :: dir := by
  rw [below?_eq_some_iff]
  constructor
  · rintro ⟨⟨hpath, hne⟩, hslash⟩
    have hparts := congrArg parts hpath
    rw [parts_inside_append] at hparts
    by_cases hplain : Plain s
    · refine ⟨⟨s, hplain⟩, rfl, render_injective ?_⟩
      rw [hpath, ← inside_append]
    -- one point would be the directory itself and two its parent, but paths of places have neither
    · have hpoints : s = "." ∨ s = ".." := by
        by_contra hno
        rw [not_or] at hno
        exact hplain ⟨hne, hno.1, hno.2, hslash⟩
      rcases hpoints with rfl | rfl
      · rw [show parts "." = [] from by decide +kernel, List.append_nil] at hparts
        obtain rfl := eq_of_parts_render hparts
        have hlength := congrArg String.length hpath
        unfold inside at hlength
        split_ifs at hlength with hroot
        · rw [hroot] at hlength
          exact absurd hlength (by decide)
        · have hone : "/".length = 1 := rfl
          simp only [String.length_append] at hlength
          omega
      · have hup : ".." ∈ pl.reverse.map (·.1) := by
          rw [← parts_render, hparts]
          exact List.mem_append_right _ (by decide +kernel)
        obtain ⟨n, -, hn⟩ := List.mem_map.mp hup
        exact absurd hn n.2.2.2.1
  · rintro ⟨n, rfl, rfl⟩
    exact ⟨⟨(inside_append dir n).symm, n.2.1⟩, n.2.2.2.2⟩

/-- A directory lists the names of the places in it, each once. -/
theorem list_eq (hdir : t.entry (t.spot path) = some .directory) (hreg : t.Regular) :
    ∃ names, t.list path = .ok names ∧ names.Nodup ∧
      ∀ s, s ∈ names ↔ ∃ n : Name, n.1 = s ∧ ∃ e, t.entry (n :: t.spot path) = some e := by
  have hlist : t.list path = .ok (t.entries.keys.filterMap fun p =>
      (below? (render (t.spot path)) p).filter fun name => ¬ name.toList.contains '/') := by
    rw [list, at?_eq, hdir, absolute_eq_render]
    rfl
  have hmem {p s : String} : s ∈ (below? (render (t.spot path)) p).filter
      (fun name => ¬ name.toList.contains '/') ↔
      below? (render (t.spot path)) p = some s ∧ '/' ∉ s.toList := by
    rw [Option.mem_def, Option.filter_eq_some_iff]
    simp
  refine ⟨_, hlist, t.entries.keys_nodup.filterMap fun p p' s hp hp' => ?_, fun s => ?_⟩
  · rw [(below?_eq_some_iff.mp (hmem.mp hp).1).1, (below?_eq_some_iff.mp (hmem.mp hp').1).1]
  · rw [List.mem_filterMap]
    constructor
    · rintro ⟨p, hp, hs⟩
      obtain ⟨pl, rfl⟩ := hreg p hp
      obtain ⟨n, hn, rfl⟩ := below?_render_iff.mp (hmem.mp hs)
      exact ⟨n, hn, Dict.mem_keys_iff.mp hp⟩
    · rintro ⟨n, hn, he⟩
      exact ⟨_, Dict.mem_keys_iff.mpr he, hmem.mpr (below?_render_iff.mpr ⟨n, hn, rfl⟩)⟩

/-! ## Making directories -/

/-- The directories that hold a place below another, and the place itself. -/
def Leads (start target q : Place) : Prop := start.length < q.length ∧ q <:+ target

instance (start target q : Place) : Decidable (Leads start target q) :=
  inferInstanceAs (Decidable (_ ∧ _))

theorem leads_cons_iff {l : List Name} :
    Leads pl (l.reverse ++ n :: pl) q ↔ q = n :: pl ∨ Leads (n :: pl) (l.reverse ++ n :: pl) q := by
  constructor
  · rintro ⟨hlong, hq⟩
    rcases Nat.lt_or_ge (pl.length + 1) q.length with h | h
    · exact .inr ⟨h, hq⟩
    · refine .inl ?_
      have hsuffix := List.suffix_of_suffix_length_le hq (List.suffix_append _ (n :: pl)) (by simpa)
      exact hsuffix.eq_of_length (by simp only [List.length_cons]; omega)
  · rintro (rfl | ⟨hlong, hq⟩)
    · exact ⟨Nat.lt_succ_self _, List.suffix_append _ _⟩
    · exact ⟨Nat.lt_of_succ_lt hlong, hq⟩

/-- Directories are made where nothing is, if no file is in the way. -/
theorem makeParts_eq (l : List Name)
    (h : ∀ q, Leads pl (l.reverse ++ pl) q → ∀ c, t.entry q ≠ some (.file c)) :
    ∃ t', t.makeParts (render pl) (l.map (·.1)) = .ok t' ∧ t'.cwd = t.cwd ∧
      (t.Regular → t'.Regular) ∧
      ∀ q, t'.entry q = if Leads pl (l.reverse ++ pl) q then some .directory else t.entry q := by
  induction l generalizing t pl with
  | nil =>
    refine ⟨t, rfl, rfl, id, fun q => (if_neg ?_).symm⟩
    rintro ⟨hlong, hq⟩
    exact absurd hq.length_le (by simpa using hlong)
  | cons n rest ih =>
    simp only [List.reverse_cons, List.append_assoc, List.singleton_append] at h ⊢
    rw [List.map_cons, makeParts, join_render]
    have hhead := h _ (leads_cons_iff.mpr (.inl rfl))
    have hrest := fun q hq => h q (leads_cons_iff.mpr (.inr hq))
    simp only [leads_cons_iff]
    -- a directory is made where nothing is, and entered where one is
    rcases hentry : t.entry (n :: pl) with - | ⟨c⟩ | -
    · have hset (q : Place) (hq : Leads (n :: pl) (rest.reverse ++ n :: pl) q) (c : String) :
          (t.set (n :: pl) .directory).entry q ≠ some (.file c) := by
        rw [entry_set]
        split_ifs
        · exact fun he => nomatch he
        · exact hrest q hq c
      obtain ⟨t', hmade, hcwd, hreg, hentries⟩ := ih hset
      refine ⟨t', ?_, hcwd, fun h => hreg (h.set _ _), fun q => ?_⟩
      · rw [entry] at hentry
        simp only [hentry]
        exact hmade
      · rw [hentries, entry_set]
        by_cases hq : q = n :: pl <;> simp [hq]
    · exact absurd hentry (hhead c)
    · obtain ⟨t', hmade, hcwd, hreg, hentries⟩ := ih hrest
      refine ⟨t', ?_, hcwd, hreg, fun q => ?_⟩
      · rw [entry] at hentry
        simp only [hentry]
        exact hmade
      · rw [hentries]
        by_cases hq : q = n :: pl <;> simp [hq, hentry]

theorem makeDirectories_eq
    (h : ∀ q, q ≠ [] → q <:+ t.spot path → ∀ c, t.entry q ≠ some (.file c)) :
    ∃ t', t.makeDirectories path = .ok t' ∧ t'.cwd = t.cwd ∧ (t.Regular → t'.Regular) ∧
      ∀ q, t'.entry q = if q ≠ [] ∧ q <:+ t.spot path then some .directory else t.entry q := by
  have hleads (q : Place) : Leads [] ((t.spot path).reverse.reverse ++ []) q ↔
      q ≠ [] ∧ q <:+ t.spot path := by
    rw [List.reverse_reverse, List.append_nil, Leads, List.length_nil, List.length_pos_iff]
  obtain ⟨t', hmade, hcwd, hreg, hentries⟩ := makeParts_eq (t.spot path).reverse
    fun q hq => h q ((hleads q).mp hq).1 ((hleads q).mp hq).2
  refine ⟨t', ?_, hcwd, hreg, fun q => ?_⟩
  · rw [makeDirectories, absolute_eq_render, parts_render]
    exact hmade
  · simp only [hentries q, hleads]

/-- A directory that is made is there, and what it holds is as before. -/
theorem makeDirectories_below (hspot : t.spot path = n :: dir)
    (h : ∀ q, q ≠ [] → q <:+ n :: dir → ∀ c, t.entry q ≠ some (.file c)) :
    ∃ t', t.makeDirectories path = .ok t' ∧ (∀ p, t'.spot p = t.spot p) ∧
      t'.entry (n :: dir) = some .directory ∧
      ∀ m, t'.entry (m :: n :: dir) = t.entry (m :: n :: dir) := by
  obtain ⟨t', hmade, hcwd, -, hentries⟩ := makeDirectories_eq (hspot ▸ h)
  rw [hspot] at hentries
  refine ⟨t', hmade, fun p => by rw [spot, hcwd, spot], ?_, fun m => ?_⟩
  · rw [hentries, if_pos ⟨List.cons_ne_nil _ _, List.suffix_rfl⟩]
  · rw [hentries, if_neg]
    rintro ⟨-, hsuffix⟩
    exact absurd hsuffix.length_le (by simp)

end FileTree
end Workflow
