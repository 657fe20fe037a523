import Mathlib.Data.Fin.VecNotation
import Mathlib.Data.Fintype.Basic
import Mathlib.Logic.Relation
import Mathlib.Tactic.FinCases
import Workflow.Proofs.Tracker.Stage

/-!
# Trackers that share a directory

Any number of trackers, in one process or in many, may work in the same directory, and the file
steps of their calls come in any order. `Scene` is what is left of all calls at one moment; every
call is at some point of its program, holds some of the files, and no file is held by two calls.
What is held of a key or an experiment is never given up, which makes its holder the one that all
others find.
-/
namespace Workflow.FileTracker
open Workflow.Path

/-! ## Scenes -/

/-- What is left of all calls, and the files. -/
structure Scene (ι : Type) where
  rest : ι → FileProgram (Outcome Answer)
  tree : FileTree

variable {ι : Type}

/-- Before any call begins. -/
def curtain (t : FileTracker) (tickets : ι → Ticket) (tree : FileTree) : Scene ι :=
  ⟨fun i => (tickets i).program t, tree⟩

/-- Some tracker has been opened. -/
def Opened (tickets : ι → Ticket) (scene : Scene ι) : Prop :=
  ∃ i, (tickets i).call = .prepare ∧ scene.rest i = .done (.ok .ready)

/-- A call takes its next file step. There are calls other than the opening of trackers once some
tracker has been opened. -/
def Step [DecidableEq ι] (tickets : ι → Ticket) (scene scene' : Scene ι) : Prop :=
  ∃ i s next, scene.rest i = .step s next ∧
    ((tickets i).call = .prepare ∨ Opened tickets scene) ∧
    scene' = ⟨Function.update scene.rest i (next (s.perform scene.tree).1),
      (s.perform scene.tree).2⟩

/-- What is known of the calls: their temporary files differ from each other and from all keys, no
two runs have one id, ids and keys name files and are written as they are read, and so are the
documents. -/
structure Orderly (tickets : ι → Ticket) : Prop where
  marks : ∀ i, Marks (tickets i).tag
  tag_inj : ∀ i j, (tickets i).tag = (tickets j).tag → i = j
  id_inj : ∀ i j r r', (tickets i).call = .record r → (tickets j).call = .record r' →
    r.id = r'.id → i = j
  plain_id : ∀ i r, (tickets i).call = .record r → Plain r.id ∧ trimText r.id = r.id
  plain_key : ∀ i r, (tickets i).call = .record r → Plain r.idempotencyKey
  key_ne : ∀ i j r r', (tickets i).call = .record r → (tickets j).call = .record r' →
    nameOf r.idempotencyKey ≠ draftName ((tickets j).tag ++ "-key") (nameOf r'.idempotencyKey)
  reads_run : ∀ i r, (tickets i).call = .record r →
    Reads Run.decode? (Json.pretty r.encode) r
  reads_experiment : ∀ i e, (tickets i).call = .experiment e →
    Reads Experiment.decode? (Json.pretty e.encode) e

/-! ## Who holds what -/

/-- Every file is held by one call. -/
structure Parted (files : Cabinet) (held : ι → Holdings) : Prop where
  present : ∀ i s c, (s, c) ∈ held i → files s = some c
  owned : ∀ s c, files s = some c → ∃ i, (s, c) ∈ held i
  single : ∀ i j s c d, (s, c) ∈ held i → (s, d) ∈ held j → i = j

variable {files files' : Cabinet} {held : ι → Holdings} {priv : Slot → Prop}
  {i : ι} {s : Slot} {content : String} {held' : Holdings}

theorem Parted.put [DecidableEq ι] (h : Parted files held) (content : String)
    (fresh : ∀ j c, (s, c) ∉ held j) :
    Parted (Function.update files s (some content))
      (Function.update held i ((s, content) :: held i)) where
  present j s' c hmem := by
    rw [Function.update_apply] at hmem
    split_ifs at hmem with hj
    · rcases List.mem_cons.mp hmem with heq | hold
      · cases heq
        exact Function.update_self ..
      · rw [Function.update_of_ne]
        · exact h.present i s' c hold
        · rintro rfl
          exact fresh i c hold
    · rw [Function.update_of_ne]
      · exact h.present j s' c hmem
      · rintro rfl
        exact fresh j c hmem
  owned s' c hc := by
    rw [Function.update_apply] at hc
    split_ifs at hc with hs
    · cases hc
      exact ⟨i, by rw [Function.update_self, hs]; exact List.mem_cons_self⟩
    · obtain ⟨j, hj⟩ := h.owned s' c hc
      refine ⟨j, ?_⟩
      rw [Function.update_apply]
      split_ifs with hi
      · exact List.mem_cons_of_mem _ (hi ▸ hj)
      · exact hj
  single j k s' c d hj hk := by
    have hcases (j : ι) (c : String)
        (hmem : (s', c) ∈ Function.update held i ((s, content) :: held i) j) :
        j = i ∧ s' = s ∨ (s', c) ∈ held j := by
      rw [Function.update_apply] at hmem
      split_ifs at hmem with hji
      · rcases List.mem_cons.mp hmem with heq | hmem
        · exact .inl ⟨hji, congrArg Prod.fst heq⟩
        · exact .inr (hji ▸ hmem)
      · exact .inr hmem
    -- the new file is held by `i`, and by `fresh` nobody held anything in its slot before
    rcases hcases j c hj with ⟨rfl, rfl⟩ | hj
    · rcases hcases k d hk with ⟨rfl, -⟩ | hk
      · rfl
      · exact absurd hk (fresh k d)
    · rcases hcases k d hk with ⟨-, hs⟩ | hk
      · exact absurd (hs ▸ hj) (fresh j c)
      · exact h.single j k s' c d hj hk

theorem Parted.drop [DecidableEq ι] (h : Parted files held)
    (split : ∀ x, x ∈ held i ↔ x = (s, content) ∨ x ∈ held') (gone : ∀ c, (s, c) ∉ held') :
    Parted (Function.update files s none) (Function.update held i held') where
  present j s' c hmem := by
    have hheld : (s', c) ∈ held j ∧ s' ≠ s := by
      rw [Function.update_apply] at hmem
      split_ifs at hmem with hj
      · refine ⟨hj ▸ (split _).mpr (.inr hmem), ?_⟩
        rintro rfl
        exact gone c hmem
      · refine ⟨hmem, ?_⟩
        rintro rfl
        exact hj (h.single j i s' c content hmem ((split _).mpr (.inl rfl)))
    rw [Function.update_of_ne hheld.2]
    exact h.present j s' c hheld.1
  owned s' c hc := by
    rw [Function.update_apply] at hc
    split_ifs at hc with hs
    obtain ⟨j, hj⟩ := h.owned s' c hc
    refine ⟨j, ?_⟩
    rw [Function.update_apply]
    split_ifs with hi
    · subst hi
      rcases (split _).mp hj with heq | hj
      · exact absurd (congrArg Prod.fst heq) hs
      · exact hj
    · exact hj
  single j k s' c d hj hk := by
    have hheld (j : ι) (c : String) (hmem : (s', c) ∈ Function.update held i held' j) :
        (s', c) ∈ held j := by
      rw [Function.update_apply] at hmem
      split_ifs at hmem with hji
      · exact hji ▸ (split _).mpr (.inr hmem)
      · exact hmem
    exact h.single j k s' c d (hheld j c hj) (hheld k d hk)

/-- A step of one call keeps the files apart if no other call holds what that call uses alone. -/
theorem Parted.deed [DecidableEq ι] (h : Parted files held)
    (alone : ∀ s, priv s → ∀ j, j ≠ i → ∀ c, (s, c) ∉ held j)
    (hd : Deed priv files (held i) files' held') :
    Parted files' (Function.update held i held') := by
  cases hd with
  | none => rwa [Function.update_eq_self]
  | put content fresh free =>
    refine h.put content fun j c hmem => ?_
    by_cases hj : j = i
    · subst hj
      exact fresh c hmem
    · rcases free with free | free
      · exact alone _ free j hj c hmem
      · cases (h.present j _ c hmem).symm.trans free
  | drop _ _ split gone => exact h.drop split gone
  | @move s s' content halone halone' ne only =>
    have hdrop : Parted (Function.update files s none) (Function.update held i []) :=
      h.drop (fun x => by rw [only, List.mem_singleton, or_iff_left List.not_mem_nil])
        fun c => List.not_mem_nil
    have hput := Parted.put (i := i) hdrop (s := s') content fun j c hmem => by
      rw [Function.update_apply] at hmem
      split_ifs at hmem with hj
      · exact List.not_mem_nil hmem
      · exact alone s' halone' j hj c hmem
    rwa [Function.update_self, Function.update_idem] at hput

/-! ## Calls do not meet in what they use alone -/

namespace Orderly
variable {tickets : ι → Ticket} {j : ι}

/-- No other call uses a slot that a call uses alone. -/
theorem private_inj (h : Orderly tickets) (hi : (tickets i).Private s)
    (hj : (tickets j).Private s) : i = j := by
  have hmark (k : ι) := Folder.marks_mark (h.marks k) s.1
  rcases hi.draft_or_doc with ⟨n, hn, -⟩ | ⟨r, hr, rfl⟩
  · rcases hj.draft_or_doc with ⟨n', hn', -⟩ | ⟨r', hr', rfl⟩
    · exact h.tag_inj i j (Folder.mark_inj (draftName_inj (hmark i) (hmark j) (hn.symm.trans hn')))
    · exact absurd hn.symm (draftName_ne_docName (hmark i).1 (h.plain_id j r' hr').1.2.2.2 n)
  · have hslash := (h.plain_id i r hr).1.2.2.2
    rcases hj.draft_or_doc with ⟨n', hn', -⟩ | ⟨r', hr', heq⟩
    · exact absurd hn'.symm (draftName_ne_docName (hmark j).1 hslash n')
    · have hid := docName_inj hslash (h.plain_id j r' hr').1.2.2.2 (congrArg Prod.snd heq)
      exact h.id_inj i j r r' hr hr' hid

/-- No call claims a slot that a call uses alone. -/
theorem not_private_of_target (h : Orderly tickets) (hj : (tickets j).Target s) :
    ¬ (tickets i).Private s := by
  intro hi
  have hmark := Folder.marks_mark (h.marks i) s.1
  rcases hi.draft_or_doc with ⟨n, hn, hkeys⟩ | ⟨r, hr, rfl⟩
  · rcases hj.document_or_key with ⟨-, name, hname⟩ | ⟨r', hr', rfl⟩
    · exact draftName_ne_docName hmark.1 (slash_notMem_textDigest name) n (hn.symm.trans hname)
    · obtain ⟨r, hr, rfl⟩ := hkeys rfl
      exact h.key_ne j i r' r hr' hr hn
  · rcases hj.document_or_key with ⟨hf, -⟩ | ⟨r', -, heq⟩
    · cases hf
    · exact nomatch (congrArg Prod.fst heq : Folder.runs = Folder.keys)

end Orderly

/-! ## What holds of a scene -/

variable {tickets : ι → Ticket} {scene scene' : Scene ι} {made : Folder → Prop}
  {said : ι → List FileReply}

/-- Some call records the run. -/
def Asked (tickets : ι → Ticket) (run : Run) : Prop := ∃ i, (tickets i).call = .record run

/-- The tree shows the files, every call is somewhere in its program, and each file is held by one
call. -/
structure Staged (t : FileTracker) (cwd : String) (tickets : ι → Ticket) (scene : Scene ι)
    (made : Folder → Prop) (files : Cabinet) (said : ι → List FileReply) (held : ι → Holdings) :
    Prop where
  shows : Shows t cwd scene.tree made files
  rest : ∀ i, scene.rest i = ((tickets i).program t).resume (said i)
  stands : ∀ i, (tickets i).Stands (Asked tickets) made files (said i) (held i)
  parted : Parted files held

theorem staged_curtain (hv : t.Vacant tree) (tickets : ι → Ticket) :
    Staged t tree.cwd tickets (t.curtain tickets tree) (fun _ => False) (fun _ => none)
      (fun _ => []) (fun _ => []) where
  shows := hv.shows
  rest _ := rfl
  stands i := by
    obtain ⟨tag, call⟩ := tickets i
    cases call with
    | prepare => exact ⟨.first, rfl⟩
    | experiment e => exact Founding.drafting
    | record r => exact Recording.drafting
  parted := ⟨fun _ _ _ h => absurd h List.not_mem_nil, fun _ _ h => (nomatch h),
    fun _ _ _ _ _ h => absurd h List.not_mem_nil⟩

namespace Staged
variable {held : ι → Holdings}

/-- The file of a key is held by the call that has recorded a run under it, with the document. -/
theorem holder_of_key (h : Staged t cwd tickets scene made files said held)
    (ho : Orderly tickets) {k : ι} {id : String} (hk : (tickets k).call = .record run)
    (hid : files (claimSlot run) = some id) :
    ∃ w winner, (tickets w).call = .record winner ∧ claimSlot winner = claimSlot run ∧
      winner.id = id ∧ (claimSlot run, id) ∈ held w ∧
      (docSlot winner, Json.pretty winner.encode) ∈ held w := by
  have htarget : (tickets k).Target (claimSlot run) := by
    rw [Ticket.Target, hk]
  obtain ⟨w, hw⟩ := h.parted.owned _ _ hid
  rcases (h.stands w).claims hw (ho.not_private_of_target htarget) with
    ⟨e, -, hslot, -⟩ | ⟨winner, hcall, hslot, hc, hdoc⟩
  · exact nomatch (congrArg Prod.fst hslot : Folder.keys = Folder.experiments)
  · exact ⟨w, winner, hcall, hslot.symm, hc.symm, hw, hdoc⟩

theorem holder_of_experiment (h : Staged t cwd tickets scene made files said held)
    (ho : Orderly tickets) {k : ι} {text : String} (hk : (tickets k).call = .experiment e)
    (htext : files (nameSlot e) = some text) :
    ∃ w winner, (tickets w).call = .experiment winner ∧ nameSlot winner = nameSlot e ∧
      text = Json.pretty winner.encode ∧ (nameSlot e, text) ∈ held w := by
  have htarget : (tickets k).Target (nameSlot e) := by
    rw [Ticket.Target, hk]
  obtain ⟨w, hw⟩ := h.parted.owned _ _ htext
  rcases (h.stands w).claims hw (ho.not_private_of_target htarget) with
    ⟨winner, hcall, hslot, hc⟩ | ⟨r, -, hslot, -⟩
  · exact ⟨w, winner, hcall, hslot.symm, hc, hw⟩
  · exact nomatch (congrArg Prod.fst hslot : Folder.experiments = Folder.keys)

/-- The next step of a call for a run or an experiment. -/
theorem moves (h : Staged t cwd tickets scene made files said held) (ho : Orderly tickets) (i : ι)
    (hcall : (tickets i).call ≠ .prepare) :
    Moves t cwd ((tickets i).program t) (tickets i).Private files (said i) (held i)
      ((tickets i).Stands (Asked tickets) made) := by
  have hstands := h.stands i
  have hmark := ho.marks i
  have hheld := h.parted.present i
  have hrun := fun run => ho.plain_id i run
  have hkey := fun run => ho.plain_key i run
  have hdraft := fun run hc => ho.key_ne i i run run hc hc
  have hkeptRun := fun run id (hc : (tickets i).call = .record run)
    (hid : files (claimSlot run) = some id) => h.holder_of_key ho hc hid
  have hkeptExperiment := fun e text (hc : (tickets i).call = .experiment e)
    (htext : files (nameSlot e) = some text) => h.holder_of_experiment ho hc htext
  generalize tickets i = τ at *
  obtain ⟨tag, call⟩ := τ
  cases call with
  | prepare => exact absurd rfl hcall
  | experiment e =>
    refine Founding.moves hstands hmark hheld fun text htext => ?_
    obtain ⟨w, winner, hw, -, rfl, -⟩ := hkeptExperiment e text rfl htext
    exact ⟨winner, rfl, ho.reads_experiment w winner hw⟩
  | record run =>
    refine Recording.moves hstands hmark (hrun run rfl).1 (hkey run rfl)
      (fun heq => hdraft run rfl (congrArg Prod.snd heq)) hheld
      (fun other ⟨j, hj⟩ => ho.reads_run j other hj) fun id hid => ?_
    obtain ⟨w, winner, hw, -, rfl, -, hdoc⟩ := hkeptRun run id rfl hid
    obtain ⟨hplain, htrim⟩ := ho.plain_id w winner hw
    exact ⟨winner, rfl, ⟨w, hw⟩, hplain, htrim, h.parted.present _ _ _ hdoc⟩

/-- Once a tracker has been opened all folders have been made. -/
theorem made_of_opened (h : Staged t cwd tickets scene made files said held)
    (hopened : Opened tickets scene) (f : Folder) : made f := by
  obtain ⟨i, hcall, hdone⟩ := hopened
  have hstands := h.stands i
  rw [h.rest i] at hdone
  generalize tickets i = τ at *
  obtain ⟨tag, call⟩ := τ
  cases hcall
  rcases Opening.moves t tag hstands.1 with ⟨hmade, -⟩ | ⟨_, _, hasks, -⟩
  · exact hmade f
  · cases hasks.symm.trans hdone

theorem advance [DecidableEq ι] (h : Staged t cwd tickets scene made files said held)
    (ho : Orderly tickets)
    {s : FileStep} {next : FileReply → FileProgram (Outcome Answer)}
    (hasks : scene.rest i = .step s next) {made' : Folder → Prop} {files' : Cabinet}
    {held' : Holdings} (hmade : ∀ f, made f → made' f)
    (hshows : Shows t cwd (s.perform scene.tree).2 made' files')
    (hdeed : Deed (tickets i).Private files (held i) files' held')
    (hstands : (tickets i).Stands (Asked tickets) made' files'
      (said i ++ [(s.perform scene.tree).1]) held') :
    Staged t cwd tickets
      ⟨Function.update scene.rest i (next (s.perform scene.tree).1), (s.perform scene.tree).2⟩
      made' files' (Function.update said i (said i ++ [(s.perform scene.tree).1]))
      (Function.update held i held') where
  shows := hshows
  rest := by
    have hnext : next (s.perform scene.tree).1 =
        ((tickets i).program t).resume (said i ++ [(s.perform scene.tree).1]) :=
      (FileProgram.resume_concat ((h.rest i).symm.trans hasks) _).symm
    exact related_update scene.rest said
      (fun j rest said => rest = ((tickets j).program t).resume said) hnext fun j _ => h.rest j
  stands := by
    refine related_update said held (fun j said held =>
      (tickets j).Stands (Asked tickets) made' files' said held) hstands fun j _ => ?_
    exact (h.stands j).mono hmade fun s c htarget =>
      hdeed.kept (ho.not_private_of_target htarget)
  parted := by
    refine h.parted.deed (fun s hpriv j hj c hmem => ?_) hdeed
    rcases (h.stands j).uses hmem with hpriv' | htarget
    · exact hj (ho.private_inj hpriv' hpriv)
    · exact ho.not_private_of_target htarget hpriv

theorem step [DecidableEq ι] (h : Staged t cwd tickets scene made files said held)
    (ho : Orderly tickets)
    (hs : Step tickets scene scene') :
    ∃ made' files' said' held', Staged t cwd tickets scene' made' files' said' held' := by
  obtain ⟨i, s, next, hasks, hopened, rfl⟩ := hs
  by_cases hcall : (tickets i).call = .prepare
  · have hstands := h.stands i
    have hrest := (h.rest i).symm.trans hasks
    obtain ⟨tag, hticket⟩ : ∃ tag, tickets i = ⟨tag, .prepare⟩ := ⟨_, by rw [← hcall]⟩
    rw [hticket] at hstands hrest
    rcases Opening.moves t tag hstands.1 with ⟨-, hdone⟩ | ⟨f, _, hmakes, hopening⟩
    · cases hdone.symm.trans hrest
    · cases hmakes.symm.trans hrest
      obtain ⟨tree', heq, hshows⟩ := h.shows.makeDirectories f
      refine ⟨fun g => made g ∨ g = f, files, _, _,
        h.advance ho hasks (fun _ => .inl) ?_ .none ?_⟩
      · rw [heq]
        exact hshows
      · rw [heq, hticket]
        exact ⟨hopening, hstands.2⟩
  · have hmade := h.made_of_opened (hopened.resolve_left hcall)
    rcases h.moves ho i hcall with ⟨_, hdone⟩ | ⟨_, _, act, held', hmoves, hact, hdeed, hstands⟩
    · cases hdone.symm.trans ((h.rest i).symm.trans hasks)
    · cases hmoves.symm.trans ((h.rest i).symm.trans hasks)
      obtain ⟨hreply, hshows⟩ := h.shows.act hmade hact
      exact ⟨_, _, _, _, h.advance ho hasks (fun _ => id) hshows hdeed (hreply ▸ hstands)⟩

end Staged

/-- What can come of the calls. -/
abbrev Reachable [DecidableEq ι] (t : FileTracker) (tickets : ι → Ticket) (tree : FileTree) :
    Scene ι → Prop :=
  Relation.ReflTransGen (Step tickets) (t.curtain tickets tree)

theorem Reachable.staged [DecidableEq ι] (h : Reachable t tickets tree scene) (hv : t.Vacant tree)
    (ho : Orderly tickets) :
    ∃ made files said held, Staged t tree.cwd tickets scene made files said held := by
  induction h with
  | refl => exact ⟨_, _, _, _, staged_curtain hv tickets⟩
  | tail _ hs ih =>
    obtain ⟨_, _, _, _, hstaged⟩ := ih
    exact hstaged.step ho hs

/-! ## Answers -/

namespace Staged
variable {held : ι → Holdings} {j : ι} {answer : Outcome Answer}

theorem answered_record (h : Staged t cwd tickets scene made files said held)
    (ho : Orderly tickets) (hcall : (tickets i).call = .record run)
    (hdone : scene.rest i = .done answer) :
    answer = .ok (.recorded .created) ∧
      held i = [(claimSlot run, run.id), (docSlot run, Json.pretty run.encode)] ∨
    ∃ other, answer = .ok (.recorded (.existing other)) ∧ Asked tickets other ∧
      files (claimSlot run) = some other.id ∧ held i = [] := by
  have hstands := h.stands i
  rw [h.rest i] at hdone
  generalize tickets i = τ at hcall hstands hdone
  obtain ⟨tag, call⟩ := τ
  cases hcall
  exact Recording.answered hstands (fun other ⟨j, hj⟩ => ho.reads_run j other hj) hdone

theorem answered_experiment (h : Staged t cwd tickets scene made files said held)
    (hcall : (tickets i).call = .experiment e) (hdone : scene.rest i = .done answer) :
    answer = .ok (.experiment e) ∧ held i = [(nameSlot e, Json.pretty e.encode)] ∨
    ∃ other, answer = .ok (.experiment other) ∧
      files (nameSlot e) = some (Json.pretty other.encode) ∧
      Reads Experiment.decode? (Json.pretty other.encode) other ∧ held i = [] := by
  have hstands := h.stands i
  rw [h.rest i] at hdone
  generalize tickets i = τ at hcall hstands hdone
  obtain ⟨tag, call⟩ := τ
  cases hcall
  exact Founding.answered hstands hdone

theorem ready_of_done (h : Staged t cwd tickets scene made files said held)
    (hcall : (tickets i).call = .prepare) (hdone : scene.rest i = .done answer) :
    scene.rest i = .done (.ok .ready) := by
  have hstands := h.stands i
  rw [h.rest i] at hdone ⊢
  generalize tickets i = τ at hcall hstands hdone ⊢
  obtain ⟨tag, call⟩ := τ
  cases hcall
  rcases Opening.moves t tag hstands.1 with ⟨-, hready⟩ | ⟨_, _, hasks, -⟩
  · exact hready
  · cases hasks.symm.trans hdone

/-- No call fails. -/
theorem answer_ok (h : Staged t cwd tickets scene made files said held) (ho : Orderly tickets)
    (hdone : scene.rest i = .done answer) : ∃ a, answer = .ok a := by
  cases hcall : (tickets i).call with
  | prepare =>
    cases hdone.symm.trans (h.ready_of_done hcall hdone)
    exact ⟨_, rfl⟩
  | experiment e =>
    rcases h.answered_experiment hcall hdone with ⟨rfl, -⟩ | ⟨other, rfl, -⟩ <;> exact ⟨_, rfl⟩
  | record run =>
    rcases h.answered_record ho hcall hdone with ⟨rfl, -⟩ | ⟨other, rfl, -⟩ <;> exact ⟨_, rfl⟩

/-- What a call that has been answered holds. -/
theorem held_of_answered (h : Staged t cwd tickets scene made files said held)
    (ho : Orderly tickets) (hdone : scene.rest i = .done answer) {c : String}
    (hmem : (s, c) ∈ held i) :
    (∃ e, (tickets i).call = .experiment e ∧ s = nameSlot e) ∨
    ∃ r, (tickets i).call = .record r ∧ scene.rest i = .done (.ok (.recorded .created)) ∧
      (s = claimSlot r ∧ c = r.id ∨ s = docSlot r ∧ c = Json.pretty r.encode) := by
  cases hcall : (tickets i).call with
  | prepare =>
    have hstands := h.stands i
    rw [Ticket.Stands, hcall] at hstands
    rw [hstands.2] at hmem
    exact absurd hmem List.not_mem_nil
  | experiment e =>
    rcases h.answered_experiment hcall hdone with ⟨-, hheld⟩ | ⟨-, -, -, -, hheld⟩
    · rw [hheld] at hmem
      exact .inl ⟨e, rfl, congrArg Prod.fst (List.mem_singleton.mp hmem)⟩
    · rw [hheld] at hmem
      exact absurd hmem List.not_mem_nil
  | record r =>
    rcases h.answered_record ho hcall hdone with ⟨rfl, hheld⟩ | ⟨-, -, -, -, hheld⟩
    · rw [hheld] at hmem
      refine .inr ⟨r, rfl, hdone, ?_⟩
      rcases List.mem_cons.mp hmem with heq | hmem
      · exact .inl (Prod.mk.inj heq)
      · exact .inr (Prod.mk.inj (List.mem_singleton.mp hmem))
    · rw [hheld] at hmem
      exact absurd hmem List.not_mem_nil

/-- Of the calls with one key one has recorded its run, and all others have found it. -/
theorem one_record [DecidableEq ι] (h : Staged t cwd tickets scene made files said held)
    (ho : Orderly tickets)
    (hquiet : ∀ i, ∃ answer, scene.rest i = .done answer)
    (hcall : (tickets i).call = .record run) :
    ∃ w winner, (tickets w).call = .record winner ∧
      winner.idempotencyKey = run.idempotencyKey ∧ files (claimSlot run) = some winner.id ∧
      ∀ j other, (tickets j).call = .record other → other.idempotencyKey = run.idempotencyKey →
        scene.rest j =
          .done (.ok (.recorded (if j = w then .created else .existing winner))) := by
  obtain ⟨answer, hdone⟩ := hquiet i
  obtain ⟨id, hid⟩ : ∃ id, files (claimSlot run) = some id := by
    rcases h.answered_record ho hcall hdone with ⟨-, hheld⟩ | ⟨other, -, -, hid, -⟩
    · exact ⟨_, h.parted.present i _ _ (hheld ▸ List.mem_cons_self)⟩
    · exact ⟨_, hid⟩
  -- an answer means that the key is taken, and whoever holds its file is the winner
  obtain ⟨w, winner, hw, hslot, rfl, hheld, -⟩ := h.holder_of_key ho hcall hid
  have hkey : winner.idempotencyKey = run.idempotencyKey := by
    have htext : (nameOf winner.idempotencyKey).1 = (nameOf run.idempotencyKey).1 :=
      congrArg (fun s : Slot => s.2.1) hslot
    rwa [nameOf_val (ho.plain_key w winner hw), nameOf_val (ho.plain_key i run hcall)] at htext
  refine ⟨w, winner, hw, hkey, hid, fun j other hj hother => ?_⟩
  have hsame : claimSlot other = claimSlot run := by
    rw [claimSlot, hother]
  obtain ⟨answer, hdone⟩ := hquiet j
  rw [hdone]
  rcases h.answered_record ho hj hdone with ⟨rfl, hheld'⟩ | ⟨found, rfl, ⟨k, hk⟩, hid', hheld'⟩
  · have hmem : (claimSlot run, other.id) ∈ held j := by
      rw [hheld', hsame]
      exact List.mem_cons_self
    rw [if_pos (h.parted.single j w _ _ _ hmem hheld)]
  -- a call that has found a run holds nothing, and ids tell runs apart
  · have hne : j ≠ w := by
      rintro rfl
      rw [hheld'] at hheld
      exact List.not_mem_nil hheld
    have hfound : found.id = winner.id := Option.some.inj (hid'.symm.trans (hsame ▸ hid))
    obtain rfl := ho.id_inj k w found winner hk hw hfound
    cases hk.symm.trans hw
    rw [if_neg hne]

/-- All calls for one experiment have the same answer. -/
theorem one_experiment (h : Staged t cwd tickets scene made files said held)
    (ho : Orderly tickets) (hquiet : ∀ i, ∃ answer, scene.rest i = .done answer)
    (hcall : (tickets i).call = .experiment e) :
    ∃ winner, ∀ j e', (tickets j).call = .experiment e' → e'.name = e.name →
      scene.rest j = .done (.ok (.experiment winner)) := by
  obtain ⟨answer, hdone⟩ := hquiet i
  obtain ⟨text, htext⟩ : ∃ text, files (nameSlot e) = some text := by
    rcases h.answered_experiment hcall hdone with ⟨-, hheld⟩ | ⟨other, -, htext, -⟩
    · exact ⟨_, h.parted.present i _ _ (hheld ▸ List.mem_cons_self)⟩
    · exact ⟨_, htext⟩
  obtain ⟨w, winner, hw, -, rfl, hheld⟩ := h.holder_of_experiment ho hcall htext
  refine ⟨winner, fun j e' hj hname => ?_⟩
  have hsame : nameSlot e' = nameSlot e := by
    rw [nameSlot, hname]
  obtain ⟨answer, hdone⟩ := hquiet j
  rw [hdone]
  rcases h.answered_experiment hj hdone with ⟨rfl, hheld'⟩ | ⟨other, rfl, htext', hreads, -⟩
  · have hmem : (nameSlot e, Json.pretty e'.encode) ∈ held j := by
      rw [hheld', hsame]
      exact List.mem_cons_self
    obtain rfl := h.parted.single j w _ _ _ hmem hheld
    cases hj.symm.trans hw
    rfl
  · rw [hsame] at htext'
    have hwinner := ho.reads_experiment w winner hw
    rw [Option.some.inj (htext.symm.trans htext')] at hwinner
    cases hreads.symm.trans hwinner
    rfl

/-- A call that has recorded its run holds its document and the file of its key. -/
theorem held_of_created (h : Staged t cwd tickets scene made files said held)
    (ho : Orderly tickets) (hcall : (tickets i).call = .record run)
    (hdone : scene.rest i = .done (.ok (.recorded .created))) :
    files (claimSlot run) = some run.id ∧ files (docSlot run) = some (Json.pretty run.encode) := by
  rcases h.answered_record ho hcall hdone with ⟨-, hheld⟩ | ⟨other, hother, -⟩
  · refine ⟨h.parted.present i _ _ ?_, h.parted.present i _ _ ?_⟩
    · rw [hheld]
      exact List.mem_cons_self
    · rw [hheld]
      exact List.mem_cons_of_mem _ List.mem_cons_self
  · cases hother

theorem run_files_iff (h : Staged t cwd tickets scene made files said held)
    (ho : Orderly tickets) (hquiet : ∀ i, ∃ answer, scene.rest i = .done answer) (name : Name)
    (content : String) : files (.runs, name) = some content ↔
      ∃ w winner, (tickets w).call = .record winner ∧
        scene.rest w = .done (.ok (.recorded .created)) ∧ name.1 = winner.id ++ ".json" ∧
        content = Json.pretty winner.encode := by
  constructor
  · intro hfile
    obtain ⟨w, hw⟩ := h.parted.owned _ _ hfile
    obtain ⟨answer, hdone⟩ := hquiet w
    rcases h.held_of_answered ho hdone hw with
      ⟨e, -, hslot⟩ | ⟨winner, hcall, hcreated, ⟨hslot, -⟩ | ⟨hslot, hc⟩⟩
    · exact nomatch (congrArg Prod.fst hslot : Folder.runs = Folder.experiments)
    · exact nomatch (congrArg Prod.fst hslot : Folder.runs = Folder.keys)
    · refine ⟨w, winner, hcall, hcreated, ?_, hc⟩
      rw [show name = docName winner.id from congrArg Prod.snd hslot,
        docName_val (ho.plain_id w winner hcall).1.2.2.2]
  · rintro ⟨w, winner, hcall, hcreated, hname, rfl⟩
    have hdoc : name = docName winner.id :=
      Subtype.ext (hname.trans (docName_val (ho.plain_id w winner hcall).1.2.2.2).symm)
    rw [hdoc]
    exact (h.held_of_created ho hcall hcreated).2

theorem key_files_iff (h : Staged t cwd tickets scene made files said held)
    (ho : Orderly tickets) (hquiet : ∀ i, ∃ answer, scene.rest i = .done answer) (name : Name)
    (content : String) : files (.keys, name) = some content ↔
      ∃ w winner, (tickets w).call = .record winner ∧
        scene.rest w = .done (.ok (.recorded .created)) ∧ name.1 = winner.idempotencyKey ∧
        content = winner.id := by
  constructor
  · intro hfile
    obtain ⟨w, hw⟩ := h.parted.owned _ _ hfile
    obtain ⟨answer, hdone⟩ := hquiet w
    rcases h.held_of_answered ho hdone hw with
      ⟨e, -, hslot⟩ | ⟨winner, hcall, hcreated, ⟨hslot, hc⟩ | ⟨hslot, -⟩⟩
    · exact nomatch (congrArg Prod.fst hslot : Folder.keys = Folder.experiments)
    · refine ⟨w, winner, hcall, hcreated, ?_, hc⟩
      rw [show name = nameOf winner.idempotencyKey from congrArg Prod.snd hslot,
        nameOf_val (ho.plain_key w winner hcall)]
    · exact nomatch (congrArg Prod.fst hslot : Folder.keys = Folder.runs)
  · rintro ⟨w, winner, hcall, hcreated, hname, rfl⟩
    have hkey : name = nameOf winner.idempotencyKey :=
      Subtype.ext (hname.trans (nameOf_val (ho.plain_key w winner hcall)).symm)
    rw [hkey]
    exact (h.held_of_created ho hcall hcreated).1

end Staged

/-- However the file steps of the calls come, no call fails; and when all calls have been answered,
of those with one key one has recorded its run, which the file of the key names, and all others have
found that run; the documents of runs are those of the runs recorded, and the files of keys are
theirs; and the calls for one experiment have the same answer. -/
theorem Reachable.settled [DecidableEq ι] (hv : t.Vacant tree) (ho : Orderly tickets)
    (h : Reachable t tickets tree scene) :
    (∀ i fault, scene.rest i ≠ .done (.error fault)) ∧
    ((∀ i, ∃ answer, scene.rest i = .done answer) →
      (∀ i run, (tickets i).call = .record run → ∃ w winner,
        (tickets w).call = .record winner ∧ winner.idempotencyKey = run.idempotencyKey ∧
        scene.tree.at? (t.keyPath run.idempotencyKey) = some (.file winner.id) ∧
        ∀ j other, (tickets j).call = .record other →
          other.idempotencyKey = run.idempotencyKey → scene.rest j =
            .done (.ok (.recorded (if j = w then .created else .existing winner)))) ∧
      (∀ (name : Name) (content : String),
        scene.tree.at? (Path.join (Path.join t.root "runs") name.1) = some (.file content) ↔
        ∃ w winner, (tickets w).call = .record winner ∧
          scene.rest w = .done (.ok (.recorded .created)) ∧ name.1 = winner.id ++ ".json" ∧
          content = Json.pretty winner.encode) ∧
      (∀ (name : Name) (content : String),
        scene.tree.at? (Path.join (Path.join t.root "keys") name.1) = some (.file content) ↔
        ∃ w winner, (tickets w).call = .record winner ∧
          scene.rest w = .done (.ok (.recorded .created)) ∧ name.1 = winner.idempotencyKey ∧
          content = winner.id) ∧
      ∀ i j e e', (tickets i).call = .experiment e → (tickets j).call = .experiment e' →
        e.name = e'.name → ∃ kept, scene.rest i = .done (.ok (.experiment kept)) ∧
          scene.rest j = .done (.ok (.experiment kept))) := by
  obtain ⟨made, files, said, held, hs⟩ := h.staged hv ho
  refine ⟨fun i fault hdone => ?_, fun hquiet => ⟨fun i run hcall => ?_, fun name content => ?_,
    fun name content => ?_, fun i j e e' hi hj hname => ?_⟩⟩
  · obtain ⟨a, ha⟩ := hs.answer_ok ho hdone
    cases ha
  · obtain ⟨w, winner, hw, hkey, hfile, hrest⟩ := hs.one_record ho hquiet hcall
    refine ⟨w, winner, hw, hkey, ?_, hrest⟩
    rw [keyPath_eq t (ho.plain_key i run hcall)]
    exact (hs.shows.at?_slotPath _ _).mpr hfile
  · exact (hs.shows.at?_slotPath (.runs, name) content).trans
      (hs.run_files_iff ho hquiet name content)
  · exact (hs.shows.at?_slotPath (.keys, name) content).trans
      (hs.key_files_iff ho hquiet name content)
  · obtain ⟨kept, hkept⟩ := hs.one_experiment ho hquiet hi
    exact ⟨kept, hkept i e hi rfl, hkept j e' hj hname.symm⟩

/-! ## Calls can be finished -/

section Finish
variable [DecidableEq ι]

/-- A call may take all the steps that are left of it at once. -/
theorem Reachable.finish (h : Reachable t tickets tree scene) (i : ι)
    (hi : (tickets i).call = .prepare ∨ Opened tickets scene) :
    Reachable t tickets tree
      ⟨Function.update scene.rest i (.done ((scene.rest i).run scene.tree).1),
        ((scene.rest i).run scene.tree).2⟩ := by
  obtain ⟨rest, now⟩ := scene
  suffices hall : ∀ p, rest i = p → Reachable t tickets tree
      ⟨Function.update rest i (.done (p.run now).1), (p.run now).2⟩ from hall _ rfl
  intro p hp
  induction p generalizing rest now with
  | done v =>
    have hsame : Function.update rest i (.done v) = rest := Function.update_eq_self_iff.mpr hp.symm
    change Reachable t tickets tree ⟨Function.update rest i (.done v), now⟩
    rwa [hsame]
  | step s next ih =>
    have hnext := ih (s.perform now).1 (Function.update rest i (next (s.perform now).1))
      (s.perform now).2 (h.tail ⟨i, s, next, hp, hi, rfl⟩) ?_ (Function.update_self ..)
    · rwa [Function.update_idem] at hnext
    · refine hi.imp_right fun ⟨j, hj, hready⟩ => ⟨j, hj, ?_⟩
      have hne : j ≠ i := by
        rintro rfl
        exact nomatch hready.symm.trans hp
      exact (Function.update_of_ne hne ..).trans hready

/-- A call that nothing interrupts. -/
theorem Reachable.play (h : Reachable t tickets tree scene) (hopened : Opened tickets scene)
    (hshows : Shows t cwd scene.tree (fun _ => True) files) {i : ι}
    {p : FileProgram (Outcome Answer)} {answer : Outcome Answer} (hp : scene.rest i = p)
    (hruns : Runs t cwd p files answer files') :
    ∃ tree', Reachable t tickets tree ⟨Function.update scene.rest i (.done answer), tree'⟩ ∧
      Shows t cwd tree' (fun _ => True) files' := by
  subst hp
  obtain ⟨hanswer, hshows'⟩ := hruns _ hshows
  have hdone := h.finish i (.inr hopened)
  rw [hanswer] at hdone
  exact ⟨_, hdone, hshows'⟩

theorem Reachable.opening (hv : t.Vacant tree) (tickets : ι → Ticket) {i : ι}
    (hcall : (tickets i).call = .prepare) :
    ∃ tree', Reachable t tickets tree
      ⟨Function.update (t.curtain tickets tree).rest i (.done (.ok .ready)), tree'⟩ ∧
      Shows t tree.cwd tree' (fun _ => True) fun _ => none := by
  obtain ⟨hready, hshows⟩ := hv.shows.prepare
  have hprogram : (tickets i).program t = andThen t.prepare fun () => .done (.ok .ready) := by
    generalize tickets i = τ at hcall
    obtain ⟨tag, call⟩ := τ
    cases hcall
    rfl
  have hrun : ((t.curtain tickets tree).rest i).run (t.curtain tickets tree).tree =
      (.ok .ready, (t.prepare.run tree).2) := by
    change ((tickets i).program t).run tree = _
    rw [hprogram, andThen, FileProgram.run_bind, hready, FileProgram.run]
  have hdone := Reachable.finish (.refl : Reachable t tickets tree _) i (.inl hcall)
  rw [hrun] at hdone
  dsimp only at hdone
  exact ⟨_, hdone, hshows⟩

/-- All calls can be answered if one of them opens a tracker. -/
theorem exists_quiet [Fintype ι] (hv : t.Vacant tree) (tickets : ι → Ticket) {i : ι}
    (hcall : (tickets i).call = .prepare) :
    ∃ scene, Reachable t tickets tree scene ∧ ∀ i, ∃ answer, scene.rest i = .done answer := by
  have hlist (l : List ι) : ∃ scene, Reachable t tickets tree scene ∧ Opened tickets scene ∧
      ∀ j ∈ l, ∃ answer, scene.rest j = .done answer := by
    induction l with
    | nil =>
      obtain ⟨_, hopening, -⟩ := Reachable.opening hv tickets hcall
      exact ⟨_, hopening, ⟨i, hcall, Function.update_self ..⟩,
        fun j hj => absurd hj List.not_mem_nil⟩
    | cons j l ih =>
      obtain ⟨scene, hreach, hopened, hdone⟩ := ih
      have hstays {k : ι} {answer : Outcome Answer} (hk : scene.rest k = .done answer) :
          Function.update scene.rest j (.done ((scene.rest j).run scene.tree).1) k =
            .done answer := by
        rw [Function.update_apply]
        split_ifs with hkj
        · rw [← hkj, hk]
          rfl
        · exact hk
      refine ⟨_, hreach.finish j (.inr hopened), ?_, fun k hk => ?_⟩
      · obtain ⟨k, hk, hready⟩ := hopened
        exact ⟨k, hk, hstays hready⟩
      · rcases List.mem_cons.mp hk with rfl | hk
        · exact ⟨_, Function.update_self ..⟩
        · obtain ⟨answer, ha⟩ := hdone k hk
          exact ⟨answer, hstays ha⟩
  obtain ⟨scene, hreach, -, hdone⟩ := hlist Finset.univ.toList
  exact ⟨scene, hreach, fun j => hdone j (Finset.mem_toList.mpr (Finset.mem_univ j))⟩

end Finish

/-! ## Two runs with one key -/

/-- Two trackers record a run under one key and create one experiment. -/
def band : Fin 5 → Ticket :=
  ![⟨"0", .prepare⟩, ⟨"1", .record (bareRun "a" "k")⟩, ⟨"2", .record (bareRun "b" "k")⟩,
    ⟨"3", .experiment ⟨"1", "news", none, ⟨0, 0⟩⟩⟩, ⟨"4", .experiment ⟨"2", "news", none, ⟨0, 0⟩⟩⟩]

theorem band_record {i : Fin 5} {r : Run} (h : (band i).call = .record r) :
    i = 1 ∧ r = bareRun "a" "k" ∨ i = 2 ∧ r = bareRun "b" "k" := by
  fin_cases i
  · cases h
  · cases h
    exact .inl ⟨rfl, rfl⟩
  · cases h
    exact .inr ⟨rfl, rfl⟩
  · cases h
  · cases h

theorem band_experiment {i : Fin 5} {e : Experiment} (h : (band i).call = .experiment e) :
    e = ⟨"1", "news", none, ⟨0, 0⟩⟩ ∨ e = ⟨"2", "news", none, ⟨0, 0⟩⟩ := by
  fin_cases i
  · cases h
  · cases h
  · cases h
  · cases h
    exact .inl rfl
  · cases h
    exact .inr rfl

theorem orderly_band : Orderly band where
  marks := by
    unfold Marks
    decide
  tag_inj := by decide
  id_inj i j r r' hi hj heq := by
    rcases band_record hi with ⟨rfl, rfl⟩ | ⟨rfl, rfl⟩ <;>
      rcases band_record hj with ⟨rfl, rfl⟩ | ⟨rfl, rfl⟩
    · rfl
    · exact absurd heq (by decide)
    · exact absurd heq (by decide)
    · rfl
  plain_id i r hi := by
    rcases band_record hi with ⟨-, rfl⟩ | ⟨-, rfl⟩ <;> decide +kernel
  plain_key i r hi := by
    rcases band_record hi with ⟨-, rfl⟩ | ⟨-, rfl⟩ <;> decide
  key_ne i j r r' hi hj := by
    have hmark : ∀ j, '/' ∉ ((band j).tag ++ "-key").toList := by decide
    rcases band_record hi with ⟨-, rfl⟩ | ⟨-, rfl⟩ <;>
      exact nameOf_ne_draftName (by decide) (hmark j) (by decide) _
  reads_run i r hi := by
    rcases band_record hi with ⟨-, rfl⟩ | ⟨-, rfl⟩ <;> exact reads_bareRun _ _
  reads_experiment i e hi := by
    rcases band_experiment hi with rfl | rfl <;> exact reads_experiment stable_epoch

/-- However the steps come, one of the two runs is recorded and the other call finds it. -/
theorem band_settled :
    (∃ scene, Reachable ⟨"state"⟩ band (.empty "/") scene ∧
      ∀ i, ∃ answer, scene.rest i = .done answer) ∧
    ∀ scene, Reachable ⟨"state"⟩ band (.empty "/") scene →
      (∀ i, ∃ answer, scene.rest i = .done answer) →
      (scene.rest 1 = .done (.ok (.recorded .created)) ∧
          scene.rest 2 = .done (.ok (.recorded (.existing (bareRun "a" "k")))) ∨
        scene.rest 1 = .done (.ok (.recorded (.existing (bareRun "b" "k")))) ∧
          scene.rest 2 = .done (.ok (.recorded .created))) ∧
      ∃ kept, scene.rest 3 = .done (.ok (.experiment kept)) ∧
        scene.rest 4 = .done (.ok (.experiment kept)) := by
  have hv := vacant_empty ⟨"state"⟩ "/"
  refine ⟨exists_quiet hv band (show (band 0).call = .prepare from rfl),
    fun scene h hquiet => ?_⟩
  obtain ⟨-, hsettled⟩ := Reachable.settled hv orderly_band h
  obtain ⟨hruns, -, -, hexperiments⟩ := hsettled hquiet
  refine ⟨?_, hexperiments 3 4 _ _ rfl rfl rfl⟩
  obtain ⟨w, winner, hw, -, -, hrest⟩ := hruns 1 _ rfl
  have h₁ := hrest 1 _ rfl rfl
  have h₂ := hrest 2 _ rfl rfl
  rcases band_record hw with ⟨rfl, rfl⟩ | ⟨rfl, rfl⟩
  · exact .inl ⟨h₁, h₂⟩
  · exact .inr ⟨h₁, h₂⟩

/-! ## An id with blanks around it -/

/-- The id of the first run begins with a blank, which is lost when the file of the key is read. -/
def padded : Fin 3 → Ticket :=
  ![⟨"0", .prepare⟩, ⟨"1", .record (bareRun " a" "k")⟩, ⟨"2", .record (bareRun "b" "k")⟩]

/-- The second call is told that there is no run, under an id that no call has used. -/
theorem padded_lost : ∃ scene, Reachable ⟨"state"⟩ padded (.empty "/") scene ∧
    (∀ i, ∃ answer, scene.rest i = .done answer) ∧
    scene.rest 1 = .done (.ok (.recorded .created)) ∧
    scene.rest 2 = .done (.error (.runNotFound "a")) := by
  have hkey : Plain "k" := by decide
  have hslot (tag : String) (h : '/' ∉ tag.toList) : keySlot "k" ≠ draftSlot tag (keySlot "k") :=
    fun heq => nameOf_ne_draftName hkey h (by decide) _ (congrArg Prod.snd heq)
  have hmark : Marks "1" ∧ Marks "2" := by
    unfold Marks
    decide
  obtain ⟨tree₀, hreach₀, hshows₀⟩ := Reachable.opening (vacant_empty ⟨"state"⟩ "/") padded
    (show (padded 0).call = .prepare from rfl)
  have hfirst : Runs ⟨"state"⟩ "/" (recordRun ⟨"state"⟩ "1" (bareRun " a" "k")) (fun _ => none)
      (.ok .created) (Cabinet.record (fun _ => none) (bareRun " a" "k")) :=
    runs_recordRun (by decide) hkey hmark.1 rfl rfl (hslot _ (by decide)) rfl
  obtain ⟨tree₁, hreach₁, hshows₁⟩ := hreach₀.play ⟨0, rfl, rfl⟩ hshows₀ (i := 1) rfl
    (hfirst.andThen (.done _))
  have hdoc : draftSlot "2" (runSlot "b") ≠ runSlot " a" := fun heq =>
    draftName_ne_docName (by decide) (by decide) _ (congrArg Prod.snd heq)
  have hother (id : String) (hne : "a" ≠ id) (h : '/' ∉ id.toList) : runSlot "a" ≠ runSlot id :=
    fun heq => hne (docName_inj (by decide) h (congrArg Prod.snd heq))
  have hfree {s : Slot} (hs : s ≠ runSlot " a") (hs' : s ≠ keySlot "k") :
      Cabinet.record (fun _ => none) (bareRun " a" "k") s = none :=
    Cabinet.record_of_ne _ hs hs'
  -- the blank is lost when the file of the key is read, and no document has the id that is left
  have hlost : Function.update (Cabinet.record (fun _ => none) (bareRun " a" "k")) (runSlot "b")
      none (runSlot "a") = none := by
    rw [Function.update_of_ne (hother "b" (by decide) (by decide))]
    exact hfree (hother " a" (by decide) (by decide)) (ne_runSlot "a" rfl).symm
  have hsecond : Runs ⟨"state"⟩ "/" (recordRun ⟨"state"⟩ "2" (bareRun "b" "k"))
      (Cabinet.record (fun _ => none) (bareRun " a" "k"))
      ((Except.error (.runNotFound "a") : Outcome Run).map .existing)
      (Function.update (Cabinet.record (fun _ => none) (bareRun " a" "k")) (runSlot "b") none) :=
    runs_recordRun_taken (show '/' ∉ (bareRun "b" "k").id.toList by decide) hkey hmark.2
      (hfree hdoc fun heq => nomatch (congrArg Prod.fst heq : Folder.runs = Folder.keys))
      (hfree (ne_runSlot " a" rfl) (hslot _ (by decide)).symm) (hslot _ (by decide))
      (Cabinet.record_key _ (bareRun " a" "k")) (by decide +kernel)
      (runs_loadRun_missing (by decide) hlost)
  obtain ⟨tree₂, hreach₂, -⟩ := hreach₁.play ⟨0, rfl, rfl⟩ hshows₁ (i := 2) rfl
    hsecond.andThen_error
  refine ⟨_, hreach₂, fun i => ?_, rfl, rfl⟩
  fin_cases i
  · exact ⟨_, rfl⟩
  · exact ⟨_, rfl⟩
  · exact ⟨_, rfl⟩

end Workflow.FileTracker
