import Mathlib.Logic.Function.Basic
import Workflow.Proofs.Digest.Framing
import Workflow.Proofs.Storage.FileTree
import Workflow.Tracker.Files

/-!
# The files of a tracker

A tracker keeps its files in three directories. `Shows` says which files are in them, and each file
step has a law that tells how it changes them, so that nothing else needs to look at file trees.
-/
namespace Workflow.FileTracker
open Workflow.Path

/-! ## Folders and slots -/

inductive Folder where
  | experiments
  | runs
  | keys
  deriving DecidableEq

def Folder.name : Folder → Name
  | .experiments => ⟨"experiments", by decide⟩
  | .runs => ⟨"runs", by decide⟩
  | .keys => ⟨"keys", by decide⟩

theorem Folder.name_injective : Function.Injective Folder.name := by
  intro f g h
  have htext := congrArg Subtype.val h
  revert htext
  cases f <;> cases g <;> decide

/-- A name in a folder. -/
abbrev Slot := Folder × Name

/-- The contents of the files of a tracker. -/
abbrev Cabinet := Slot → Option String

section Places
variable (t : FileTracker) (cwd : String)

def folderPath (f : Folder) : String := Path.join t.root f.name.1

def slotPath (s : Slot) : String := Path.join (t.folderPath s.1) s.2.1

def folderPlace (f : Folder) : Place := f.name :: place cwd t.root

def slotPlace (s : Slot) : Place := s.2 :: t.folderPlace cwd s.1

/-- A path that leads to the file in a slot. -/
def Denotes (path : String) (s : Slot) : Prop := place cwd path = t.slotPlace cwd s

variable {t cwd} {s s' : Slot} {f : Folder} {q : Place}

theorem slotPlace_inj : t.slotPlace cwd s = t.slotPlace cwd s' ↔ s = s' := by
  constructor
  · intro h
    obtain ⟨hname, hfolder⟩ := List.cons.inj h
    exact Prod.ext (Folder.name_injective (List.cons.inj hfolder).1) hname
  · rintro rfl
    rfl

/-- No file of a tracker is on the way to one of its folders. -/
theorem ne_slotPlace (h : q <:+ t.folderPlace cwd f) : q ≠ t.slotPlace cwd s := by
  rintro rfl
  have hlength := h.length_le
  simp only [slotPlace, folderPlace, List.length_cons] at hlength
  omega

theorem place_folderPath (f : Folder) : place cwd (t.folderPath f) = t.folderPlace cwd f :=
  place_join cwd t.root f.name

theorem denotes_slotPath (s : Slot) : t.Denotes cwd (t.slotPath s) s := by
  rw [Denotes, slotPath, place_join, place_folderPath]
  rfl

end Places

/-! ## Names of files -/

noncomputable def docName (id : String) : Name := nameOf (id ++ ".json")

/-- The name of the temporary file for a file. -/
noncomputable def draftName (tag : String) (n : Name) : Name :=
  nameOf ("." ++ n.1 ++ "." ++ tag ++ ".tmp")

theorem docName_val {id : String} (h : '/' ∉ id.toList) : (docName id).1 = id ++ ".json" := by
  refine nameOf_val (plain_of_length ?_ ?_)
  · rw [String.length_append, show ".json".length = 5 from rfl]
    omega
  · rw [String.toList_append, List.mem_append, not_or]
    exact ⟨h, by decide⟩

theorem draftName_val {tag : String} (h : '/' ∉ tag.toList) (n : Name) :
    (draftName tag n).1 = "." ++ n.1 ++ "." ++ tag ++ ".tmp" := by
  refine nameOf_val (plain_of_length ?_ ?_)
  · simp only [String.length_append, show ".tmp".length = 4 from rfl]
    omega
  · simp only [String.toList_append, List.mem_append, not_or]
    exact ⟨⟨⟨⟨by decide, n.2.2.2.2⟩, by decide⟩, h⟩, by decide⟩

theorem docName_inj {id id' : String} (h : '/' ∉ id.toList) (h' : '/' ∉ id'.toList)
    (heq : docName id = docName id') : id = id' := by
  have htext := congrArg Subtype.val heq
  rw [docName_val h, docName_val h'] at htext
  exact (String.append_left_inj ".json").mp htext

theorem draftName_ne_docName {tag id : String} (h : '/' ∉ tag.toList) (h' : '/' ∉ id.toList)
    (n : Name) : draftName tag n ≠ docName id := by
  intro heq
  have hlast := congrArg (fun m : Name => m.1.toList.reverse.head?) heq
  simp [draftName_val h, docName_val h'] at hlast

/-- A key that begins with no point is not the name of a temporary file. -/
theorem nameOf_ne_draftName {key tag : String} (hkey : Plain key) (htag : '/' ∉ tag.toList)
    (hhead : key.toList.head? ≠ some '.') (n : Name) : nameOf key ≠ draftName tag n := by
  intro heq
  have htext := congrArg Subtype.val heq
  rw [nameOf_val hkey, draftName_val htag] at htext
  refine hhead ?_
  rw [htext]
  simp

/-- What makes a temporary file differ from others: a text without slashes and points. -/
def Marks (tag : String) : Prop := '/' ∉ tag.toList ∧ '.' ∉ tag.toList

/-- The mark of the temporary files that a call makes in a folder. -/
def Folder.mark (tag : String) : Folder → String
  | .keys => tag ++ "-key"
  | _ => tag

theorem Folder.marks_mark {tag : String} (h : Marks tag) (f : Folder) : Marks (f.mark tag) := by
  cases f with
  | keys =>
    simp only [Marks, Folder.mark, String.toList_append, List.mem_append, not_or]
    exact ⟨⟨h.1, by decide⟩, ⟨h.2, by decide⟩⟩
  | _ => exact h

theorem Folder.mark_inj {tag tag' : String} {f : Folder} (h : f.mark tag = f.mark tag') :
    tag = tag' := by
  cases f with
  | keys => exact (String.append_left_inj "-key").mp h
  | _ => exact h

theorem draftName_inj {tag tag' : String} (h : Marks tag) (h' : Marks tag') {n n' : Name}
    (heq : draftName tag n = draftName tag' n') : tag = tag' := by
  have htext := congrArg Subtype.val heq
  rw [draftName_val h.1, draftName_val h'.1] at htext
  have hpieces := congrArg (fun s => (pieces '.' s).getLast?)
    ((String.append_left_inj ".tmp").mp htext)
  have hlast (s tag : String) (hm : Marks tag) :
      (pieces '.' (s ++ "." ++ tag)).getLast? = some tag := by
    rw [show ("." : String) = String.singleton '.' from rfl, pieces_append,
      pieces_eq_singleton hm.2, List.getLast?_concat]
  exact Option.some.inj ((hlast _ tag h).symm.trans (hpieces.trans (hlast _ tag' h')))

theorem slash_notMem_textDigest (name : String) : '/' ∉ (textDigest name).toList := fun h =>
  absurd (Blake3.isAlphanum_of_mem_hexDigest h) (by decide)

section Paths
variable (t : FileTracker)

theorem runPath_eq {id : String} (h : '/' ∉ id.toList) :
    t.runPath id = t.slotPath (.runs, docName id) := by
  rw [runPath, slotPath, docName_val h]
  rfl

theorem keyPath_eq {key : String} (h : Plain key) :
    t.keyPath key = t.slotPath (.keys, nameOf key) := by
  rw [keyPath, slotPath, nameOf_val h]
  rfl

theorem experimentPath_eq (name : String) :
    t.experimentPath name = t.slotPath (.experiments, docName (textDigest name)) := by
  rw [experimentPath, slotPath, docName_val (slash_notMem_textDigest name)]
  rfl

theorem denotes_temporaryPath (cwd : String) {tag : String} (h : '/' ∉ tag.toList) (s : Slot) :
    t.Denotes cwd (temporaryPath tag (t.slotPath s)) (s.1, draftName tag s.2) := by
  have hpath : temporaryPath tag (t.slotPath s) =
      withFileName (t.slotPath s) (draftName tag s.2).1 := by
    rw [draftName_val h, temporaryPath, slotPath, fileName?_join]
    rfl
  rw [Denotes, hpath, slotPath, place_withFileName, place_folderPath]
  rfl

end Paths

/-! ## The slots of documents -/

noncomputable def runSlot (id : String) : Slot := (.runs, docName id)

noncomputable def keySlot (key : String) : Slot := (.keys, nameOf key)

noncomputable def experimentSlot (name : String) : Slot := (.experiments, docName (textDigest name))

/-- The slot of the temporary file for a slot. -/
noncomputable def draftSlot (tag : String) (s : Slot) : Slot := (s.1, draftName tag s.2)

theorem ne_draftSlot {tag id : String} (h : '/' ∉ tag.toList) (h' : '/' ∉ id.toList)
    (f : Folder) : (f, docName id) ≠ draftSlot tag (f, docName id) := fun heq =>
  draftName_ne_docName h h' _ (congrArg Prod.snd heq).symm

section Denotes
variable (t : FileTracker) (cwd : String)

theorem denotes_runPath {id : String} (h : '/' ∉ id.toList) :
    t.Denotes cwd (t.runPath id) (runSlot id) := by
  rw [runPath_eq t h]
  exact denotes_slotPath _

theorem denotes_runDraft {id tag : String} (h : '/' ∉ id.toList) (htag : '/' ∉ tag.toList) :
    t.Denotes cwd (temporaryPath tag (t.runPath id)) (draftSlot tag (runSlot id)) := by
  rw [runPath_eq t h]
  exact denotes_temporaryPath t cwd htag _

theorem denotes_keyPath {key : String} (h : Plain key) :
    t.Denotes cwd (t.keyPath key) (keySlot key) := by
  rw [keyPath_eq t h]
  exact denotes_slotPath _

theorem denotes_keyDraft {key tag : String} (h : Plain key) (htag : '/' ∉ tag.toList) :
    t.Denotes cwd (temporaryPath tag (t.keyPath key)) (draftSlot tag (keySlot key)) := by
  rw [keyPath_eq t h]
  exact denotes_temporaryPath t cwd htag _

theorem denotes_experimentPath (name : String) :
    t.Denotes cwd (t.experimentPath name) (experimentSlot name) := by
  rw [experimentPath_eq t name]
  exact denotes_slotPath _

theorem denotes_experimentDraft (name : String) {tag : String} (htag : '/' ∉ tag.toList) :
    t.Denotes cwd (temporaryPath tag (t.experimentPath name))
      (draftSlot tag (experimentSlot name)) := by
  rw [experimentPath_eq t name]
  exact denotes_temporaryPath t cwd htag _

end Denotes

/-- A text reads as a document. -/
def Reads {α : Type} (decode? : Document → Option α) (text : String) (v : α) : Prop :=
  (Json.read? text).bind decode? = some v

/-! ## The files that are there -/

/-- The tree shows these files of a tracker. `made` tells which of the folders have been made. -/
structure Shows (t : FileTracker) (cwd : String) (tree : FileTree) (made : Folder → Prop)
    (files : Cabinet) : Prop where
  cwd_eq : tree.cwd = cwd
  regular : tree.Regular
  passable : ∀ f q, q ≠ [] → q <:+ t.folderPlace cwd f → ∀ c, tree.entry q ≠ some (.file c)
  directory : ∀ f, made f → tree.entry (t.folderPlace cwd f) = some .directory
  entry : ∀ s, tree.entry (t.slotPlace cwd s) = (files s).map .file

variable {t : FileTracker} {cwd path source target : String} {tree : FileTree}
  {made : Folder → Prop} {files : Cabinet} {s s' : Slot} {f : Folder} {content : String}

namespace Shows

theorem set (h : Shows t cwd tree made files) (s : Slot) (content : String) :
    Shows t cwd (tree.set (t.slotPlace cwd s) (.file content)) made
      (Function.update files s (some content)) where
  cwd_eq := h.cwd_eq
  regular := h.regular.set _ _
  passable f q hne hq c := by
    rw [FileTree.entry_set, if_neg (ne_slotPlace hq)]
    exact h.passable f q hne hq c
  directory f hf := by
    rw [FileTree.entry_set, if_neg (ne_slotPlace List.suffix_rfl)]
    exact h.directory f hf
  entry s' := by
    rw [FileTree.entry_set, Function.update_apply, h.entry]
    simp only [slotPlace_inj]
    split_ifs <;> rfl

theorem clear (h : Shows t cwd tree made files) (s : Slot) :
    Shows t cwd (tree.clear (t.slotPlace cwd s)) made (Function.update files s none) where
  cwd_eq := h.cwd_eq
  regular := h.regular.clear _
  passable f q hne hq c := by
    rw [FileTree.entry_clear, if_neg (ne_slotPlace hq)]
    exact h.passable f q hne hq c
  directory f hf := by
    rw [FileTree.entry_clear, if_neg (ne_slotPlace List.suffix_rfl)]
    exact h.directory f hf
  entry s' := by
    rw [FileTree.entry_clear, Function.update_apply, h.entry]
    simp only [slotPlace_inj]
    split_ifs <;> rfl

theorem spot_eq (h : Shows t cwd tree made files) (hp : t.Denotes cwd path s) :
    tree.spot path = t.slotPlace cwd s := by
  rw [FileTree.spot, h.cwd_eq]
  exact hp

theorem entry_spot (h : Shows t cwd tree made files) (hp : t.Denotes cwd path s) :
    tree.entry (tree.spot path) = (files s).map .file := by
  rw [h.spot_eq hp, h.entry]

theorem at?_slotPath (h : Shows t cwd tree made files) (s : Slot) (content : String) :
    tree.at? (t.slotPath s) = some (.file content) ↔ files s = some content := by
  rw [FileTree.at?_eq, h.entry_spot (denotes_slotPath s)]
  cases files s <;> simp

theorem not_directory (h : Shows t cwd tree made files) (s : Slot) :
    tree.entry (t.slotPlace cwd s) ≠ some .directory := by
  rw [h.entry]
  cases files s <;> exact fun he => nomatch he

/-! ## File steps -/

theorem write (h : Shows t cwd tree made files) (hf : made s.1) (hp : t.Denotes cwd path s)
    (content : String) : ∃ tree', (FileStep.write path content).perform tree = (.done, tree') ∧
      Shows t cwd tree' made (Function.update files s (some content)) := by
  refine ⟨_, ?_, h.set s content⟩
  rw [FileStep.perform, FileTree.write_eq (h.directory _ hf) (h.spot_eq hp) (h.not_directory s)]
  rfl

theorem rename (h : Shows t cwd tree made files) (hf : made s'.1) (hs : t.Denotes cwd source s)
    (ht : t.Denotes cwd target s') (hc : files s = some content) :
    ∃ tree', (FileStep.rename source target).perform tree = (.done, tree') ∧
      Shows t cwd tree' made
        (Function.update (Function.update files s none) s' (some content)) := by
  refine ⟨_, ?_, (h.clear s).set s' content⟩
  have hentry : tree.entry (tree.spot source) = some (.file content) := by
    rw [h.entry_spot hs, hc]
    rfl
  rw [FileStep.perform, FileTree.rename_eq hentry (h.directory _ hf) (h.spot_eq ht)
    (h.not_directory s'), h.spot_eq hs]
  rfl

theorem link (h : Shows t cwd tree made files) (hf : made s'.1) (hs : t.Denotes cwd source s)
    (ht : t.Denotes cwd target s') (hc : files s = some content) (hfree : files s' = none) :
    ∃ tree', (FileStep.link source target).perform tree = (.done, tree') ∧
      Shows t cwd tree' made (Function.update files s' (some content)) := by
  refine ⟨_, ?_, h.set s' content⟩
  have hentry : tree.entry (tree.spot source) = some (.file content) := by
    rw [h.entry_spot hs, hc]
    rfl
  have hnone : tree.entry (t.slotPlace cwd s') = none := by
    rw [h.entry, hfree]
    rfl
  rw [FileStep.perform, FileTree.link_eq_ok hentry (h.directory _ hf) (h.spot_eq ht) hnone]
  rfl

theorem link_taken (h : Shows t cwd tree made files) (hs : t.Denotes cwd source s)
    (ht : t.Denotes cwd target s') {other : String} (hc : files s = some content)
    (htaken : files s' = some other) :
    (FileStep.link source target).perform tree = (.failed .alreadyExists, tree) := by
  have hentry : tree.entry (tree.spot source) = some (.file content) := by
    rw [h.entry_spot hs, hc]
    rfl
  have hother : tree.entry (tree.spot target) = some (.file other) := by
    rw [h.entry_spot ht, htaken]
    rfl
  rw [FileStep.perform, FileTree.link_eq_alreadyExists hentry hother]
  rfl

theorem unlink (h : Shows t cwd tree made files) (hp : t.Denotes cwd path s)
    (hc : files s = some content) :
    ∃ tree', (FileStep.unlink path).perform tree = (.done, tree') ∧
      Shows t cwd tree' made (Function.update files s none) := by
  refine ⟨_, ?_, h.clear s⟩
  have hentry : tree.entry (tree.spot path) = some (.file content) := by
    rw [h.entry_spot hp, hc]
    rfl
  rw [FileStep.perform, FileTree.unlink_eq hentry, h.spot_eq hp]
  rfl

theorem read (h : Shows t cwd tree made files) (hp : t.Denotes cwd path s)
    (hc : files s = some content) :
    (FileStep.read path).perform tree = (.content content, tree) := by
  have hentry : tree.entry (tree.spot path) = some (.file content) := by
    rw [h.entry_spot hp, hc]
    rfl
  rw [FileStep.perform, FileTree.read_eq_ok hentry]

theorem read_missing (h : Shows t cwd tree made files) (hf : made s.1)
    (hp : t.Denotes cwd path s) (hc : files s = none) :
    (FileStep.read path).perform tree = (.failed .notFound, tree) := by
  have hnone : tree.entry (t.slotPlace cwd s) = none := by
    rw [h.entry, hc]
    rfl
  rw [FileStep.perform, FileTree.read_eq_notFound (h.directory _ hf) (h.spot_eq hp) hnone]

/-- A folder lists the names of its files, each once. -/
theorem list (h : Shows t cwd tree made files) (hf : made f) :
    ∃ names, (FileStep.list (t.folderPath f)).perform tree = (.names names, tree) ∧
      names.Nodup ∧ ∀ text, text ∈ names ↔ ∃ n : Name, n.1 = text ∧ ∃ c, files (f, n) = some c := by
  have hspot : tree.spot (t.folderPath f) = t.folderPlace cwd f := by
    rw [FileTree.spot, h.cwd_eq, place_folderPath]
  obtain ⟨names, hlist, hnodup, hmem⟩ :=
    FileTree.list_eq (hspot ▸ h.directory f hf) h.regular
  refine ⟨names, ?_, hnodup, fun text => ?_⟩
  · rw [FileStep.perform, hlist]
  · rw [hmem, hspot]
    refine exists_congr fun n => and_congr_right fun _ => ?_
    rw [show n :: t.folderPlace cwd f = t.slotPlace cwd (f, n) from rfl, h.entry]
    cases files (f, n) <;> simp

/-- Making a folder that is there changes nothing. -/
theorem makeDirectories (h : Shows t cwd tree made files) (f : Folder) :
    ∃ tree', (FileStep.makeDirectories (t.folderPath f)).perform tree = (.done, tree') ∧
      Shows t cwd tree' (fun g => made g ∨ g = f) files := by
  have hspot : tree.spot (t.folderPath f) = t.folderPlace cwd f := by
    rw [FileTree.spot, h.cwd_eq, place_folderPath]
  obtain ⟨tree', hmade, hcwd, hreg, hentries⟩ :=
    FileTree.makeDirectories_eq (t := tree) fun q hne hq => h.passable f q hne (hspot ▸ hq)
  refine ⟨tree', by rw [FileStep.perform, hmade]; rfl, hcwd.trans h.cwd_eq, hreg h.regular,
    fun g q hne hq c => ?_, fun g hg => ?_, fun s => ?_⟩
  · rw [hentries]
    split_ifs
    · intro he
      cases he
    · exact h.passable g q hne hq c
  · rw [hentries, hspot]
    split_ifs with hlead
    · rfl
    · rcases hg with hg | rfl
      · exact h.directory g hg
      · exact absurd ⟨List.cons_ne_nil _ _, List.suffix_rfl⟩ hlead
  · rw [hentries, hspot, if_neg, h.entry]
    rintro ⟨-, hlead⟩
    exact ne_slotPlace hlead rfl

end Shows

/-! ## Steps on slots -/

/-- What a file step does to the files of a tracker. -/
inductive Act where
  | put (s : Slot) (content : String)
  | move (s s' : Slot)
  /-- Give the file in the first slot the second as well, if that is free. -/
  | claim (s s' : Slot)
  | drop (s : Slot)
  | look (s : Slot)

def Act.perform (files : Cabinet) : Act → FileReply × Cabinet
  | .put s content => (.done, Function.update files s (some content))
  | .move s s' =>
    match files s with
    | some c => (.done, Function.update (Function.update files s none) s' (some c))
    | none => (.failed .notFound, files)
  | .claim s s' =>
    match files s, files s' with
    | some c, none => (.done, Function.update files s' (some c))
    | some _, some _ => (.failed .alreadyExists, files)
    | none, _ => (.failed .notFound, files)
  | .drop s =>
    match files s with
    | some _ => (.done, Function.update files s none)
    | none => (.failed .notFound, files)
  | .look s =>
    match files s with
    | some c => (.content c, files)
    | none => (.failed .notFound, files)

/-- The file step does this to the files of the tracker. -/
inductive Performs (t : FileTracker) (cwd : String) : FileStep → Act → Prop
  | put {path : String} {s : Slot} (h : t.Denotes cwd path s) (content : String) :
      Performs t cwd (.write path content) (.put s content)
  | move {source target : String} {s s' : Slot} (h : t.Denotes cwd source s)
      (h' : t.Denotes cwd target s') : Performs t cwd (.rename source target) (.move s s')
  | claim {source target : String} {s s' : Slot} (h : t.Denotes cwd source s)
      (h' : t.Denotes cwd target s') : Performs t cwd (.link source target) (.claim s s')
  | drop {path : String} {s : Slot} (h : t.Denotes cwd path s) :
      Performs t cwd (.unlink path) (.drop s)
  | look {path : String} {s : Slot} (h : t.Denotes cwd path s) :
      Performs t cwd (.read path) (.look s)

theorem Shows.entry_spot_none (h : Shows t cwd tree made files) (hp : t.Denotes cwd path s)
    (hc : files s = none) : tree.entry (tree.spot path) = none := by
  rw [h.entry_spot hp, hc]
  rfl

/-- The reply to a file step and the files after it are those of what it does to the files. -/
theorem Shows.act (h : Shows t cwd tree made files) (hmade : ∀ f, made f) {step : FileStep}
    {act : Act} (hact : Performs t cwd step act) :
    (step.perform tree).1 = (act.perform files).1 ∧
      Shows t cwd (step.perform tree).2 made (act.perform files).2 := by
  -- where the file is missing the step fails and changes nothing
  cases hact with
  | put hp content =>
    obtain ⟨tree', heq, hshows⟩ := h.write (hmade _) hp content
    rw [heq]
    exact ⟨rfl, hshows⟩
  | @move _ _ s _ hs ht =>
    rcases hc : files s with - | c
    · rw [Act.perform, hc, FileStep.perform, FileTree.rename, FileTree.at?_eq,
        h.entry_spot_none hs hc]
      exact ⟨rfl, h⟩
    · obtain ⟨tree', heq, hshows⟩ := h.rename (hmade _) hs ht hc
      rw [Act.perform, hc, heq]
      exact ⟨rfl, hshows⟩
  | @claim _ _ s s' hs ht =>
    rcases hc : files s with - | c
    · rw [Act.perform, hc, FileStep.perform, FileTree.link, FileTree.at?_eq,
        h.entry_spot_none hs hc]
      exact ⟨rfl, h⟩
    · rcases hc' : files s' with - | c'
      · obtain ⟨tree', heq, hshows⟩ := h.link (hmade _) hs ht hc hc'
        rw [Act.perform, hc, hc', heq]
        exact ⟨rfl, hshows⟩
      · rw [Act.perform, hc, hc', h.link_taken hs ht hc hc']
        exact ⟨rfl, h⟩
  | @drop _ s hp =>
    rcases hc : files s with - | c
    · rw [Act.perform, hc, FileStep.perform, FileTree.unlink, FileTree.at?_eq,
        h.entry_spot_none hp hc]
      exact ⟨rfl, h⟩
    · obtain ⟨tree', heq, hshows⟩ := h.unlink hp hc
      rw [Act.perform, hc, heq]
      exact ⟨rfl, hshows⟩
  | @look _ s hp =>
    rcases hc : files s with - | c
    · rw [Act.perform, hc, h.read_missing (hmade _) hp hc]
      exact ⟨rfl, h⟩
    · rw [Act.perform, hc, h.read hp hc]
      exact ⟨rfl, h⟩

/-! ## An empty directory -/

/-- At the root of the tracker is an empty directory, or nothing yet. -/
structure Vacant (t : FileTracker) (tree : FileTree) : Prop where
  regular : tree.Regular
  passable : ∀ q, q ≠ [] → q <:+ tree.spot t.root → ∀ c, tree.entry q ≠ some (.file c)
  bare : ∀ n q, tree.entry (n :: q ++ tree.spot t.root) = none

theorem Vacant.shows (h : t.Vacant tree) :
    Shows t tree.cwd tree (fun _ => False) (fun _ => none) where
  cwd_eq := rfl
  regular := h.regular
  passable f q hne hq c := by
    rcases List.suffix_cons_iff.mp hq with rfl | hq
    · exact fun he => nomatch (h.bare f.name []).symm.trans he
    · exact h.passable q hne hq c
  directory _ hf := hf.elim
  entry s := h.bare s.2 [s.1.name]

/-- A tree without files is vacant. -/
theorem vacant_empty (t : FileTracker) (cwd : String) : t.Vacant (FileTree.empty cwd) := by
  refine ⟨fun path hpath => ⟨[], ?_⟩, fun q hne _ c => ?_, fun n q => ?_⟩
  · exact List.mem_singleton.mp hpath
  · rw [FileTree.entry_empty cwd hne]
    exact (Option.some_ne_none _).symm
  · exact FileTree.entry_empty cwd (List.cons_ne_nil _ _)

end Workflow.FileTracker
