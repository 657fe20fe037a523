import Workflow.Proofs.Tracker.Calls

/-!
# Where a call is in its program

Other trackers may change the directory between two file steps of a call. `Opening`, `Founding` and
`Recording` list the places in which a call can be: the replies it has had and the files it holds.
From each place the next step leads to another one, as long as what the call has claimed stays.
-/
namespace Workflow

namespace FileProgram
variable {α : Type}

/-- What is left of a program after the reply to its next step. -/
def after : FileProgram α → FileReply → FileProgram α
  | .done value, _ => .done value
  | .step _ next, reply => next reply

/-- What is left of a program after these replies. -/
def resume (p : FileProgram α) (replies : List FileReply) : FileProgram α := replies.foldl after p

theorem resume_concat {p : FileProgram α} {replies : List FileReply} {s : FileStep}
    {next : FileReply → FileProgram α} (h : p.resume replies = .step s next) (reply : FileReply) :
    p.resume (replies ++ [reply]) = next reply := by
  rw [resume, List.foldl_append]
  exact congrArg (fun q => q.after reply) h

end FileProgram

namespace FileTracker
open Workflow.Path

/-! ## Calls -/

/-- A call to one of the trackers. -/
inductive Call where
  /-- Open a tracker, which makes its folders. -/
  | prepare
  | experiment (candidate : Experiment)
  | record (run : Run)

inductive Answer where
  | ready
  | experiment (e : Experiment)
  | recorded (outcome : RecordOutcome)

/-- A call with the mark of its temporary files. -/
structure Ticket where
  tag : String
  call : Call

/-- The file steps of a call. -/
def Ticket.program (t : FileTracker) (τ : Ticket) : FileProgram (Outcome Answer) :=
  match τ.call with
  | .prepare => andThen t.prepare fun () => .done (.ok .ready)
  | .experiment e =>
    andThen (t.getOrCreateExperiment τ.tag e.name e.description e.id e.createdAt) fun e =>
      .done (.ok (.experiment e))
  | .record run => andThen (t.recordRun τ.tag run) fun outcome => .done (.ok (.recorded outcome))

/-! ## The slots of a call -/

noncomputable abbrev docSlot (run : Run) : Slot := runSlot run.id

noncomputable abbrev claimSlot (run : Run) : Slot := keySlot run.idempotencyKey

noncomputable abbrev nameSlot (e : Experiment) : Slot := experimentSlot e.name

/-- The slots that a call alone uses. -/
def Ticket.Private (τ : Ticket) (s : Slot) : Prop :=
  match τ.call with
  | .prepare => False
  | .experiment e => s = draftSlot τ.tag (nameSlot e)
  | .record run =>
    s = draftSlot τ.tag (docSlot run) ∨ s = docSlot run ∨
      s = draftSlot (τ.tag ++ "-key") (claimSlot run)

/-- The slot that a call tries to claim. -/
def Ticket.Target (τ : Ticket) (s : Slot) : Prop :=
  match τ.call with
  | .prepare => False
  | .experiment e => s = nameSlot e
  | .record run => s = claimSlot run

/-! ## Where a call is in its program -/

/-- Files with their contents. -/
abbrev Holdings := List (Slot × String)

/-- How far the opening of a tracker is: which folders it has made. -/
inductive Opening (made : Folder → Prop) : List FileReply → Prop
  | first : Opening made []
  | second (h : made .experiments) : Opening made [.done]
  | third (h : made .experiments) (h' : made .runs) : Opening made [.done, .done]
  | ended (h : ∀ f, made f) : Opening made [.done, .done, .done]

/-- How far the call for an experiment is, and the files that it holds. -/
inductive Founding (files : Cabinet) (tag : String) (e : Experiment) :
    List FileReply → Holdings → Prop
  | drafting : Founding files tag e [] []
  | claiming : Founding files tag e [.done]
      [(draftSlot tag (nameSlot e), Json.pretty e.encode)]
  | won : Founding files tag e [.done, .done]
      [(nameSlot e, Json.pretty e.encode),
        (draftSlot tag (nameSlot e), Json.pretty e.encode)]
  | created : Founding files tag e [.done, .done, .done]
      [(nameSlot e, Json.pretty e.encode)]
  | refused (text : String) (taken : files (nameSlot e) = some text) :
      Founding files tag e [.done, .failed .alreadyExists]
        [(draftSlot tag (nameSlot e), Json.pretty e.encode)]
  | looking (text : String) (taken : files (nameSlot e) = some text) :
      Founding files tag e [.done, .failed .alreadyExists, .done] []
  | found {other : Experiment} (taken : files (nameSlot e) = some (Json.pretty other.encode))
      (reads : Reads Experiment.decode? (Json.pretty other.encode) other) :
      Founding files tag e
        [.done, .failed .alreadyExists, .done, .content (Json.pretty other.encode)] []

/-- How far the call for a run is, and the files that it holds. What it finds is a run that some
call records. -/
inductive Recording (known : Run → Prop) (files : Cabinet) (tag : String) (run : Run) :
    List FileReply → Holdings → Prop
  | drafting : Recording known files tag run [] []
  | placing : Recording known files tag run [.done]
      [(draftSlot tag (docSlot run), Json.pretty run.encode)]
  | keyDrafting : Recording known files tag run [.done, .done]
      [(docSlot run, Json.pretty run.encode)]
  | claiming : Recording known files tag run [.done, .done, .done]
      [(draftSlot (tag ++ "-key") (claimSlot run), run.id), (docSlot run, Json.pretty run.encode)]
  | won : Recording known files tag run [.done, .done, .done, .done]
      [(claimSlot run, run.id), (draftSlot (tag ++ "-key") (claimSlot run), run.id),
        (docSlot run, Json.pretty run.encode)]
  | created : Recording known files tag run [.done, .done, .done, .done, .done]
      [(claimSlot run, run.id), (docSlot run, Json.pretty run.encode)]
  | refused (id : String) (taken : files (claimSlot run) = some id) :
      Recording known files tag run [.done, .done, .done, .failed .alreadyExists]
        [(draftSlot (tag ++ "-key") (claimSlot run), run.id), (docSlot run, Json.pretty run.encode)]
  | leaving (id : String) (taken : files (claimSlot run) = some id) :
      Recording known files tag run [.done, .done, .done, .failed .alreadyExists, .done]
        [(docSlot run, Json.pretty run.encode)]
  | looking (id : String) (taken : files (claimSlot run) = some id) :
      Recording known files tag run [.done, .done, .done, .failed .alreadyExists, .done, .done] []
  | loading {id : String} (taken : files (claimSlot run) = some id) :
      Recording known files tag run
        [.done, .done, .done, .failed .alreadyExists, .done, .done, .content id] []
  | found {other : Run} (taken : files (claimSlot run) = some other.id) (hknown : known other) :
      Recording known files tag run
        [.done, .done, .done, .failed .alreadyExists, .done, .done, .content other.id,
          .content (Json.pretty other.encode)] []

/-- The call has had these replies and holds these files. -/
def Ticket.Stands (τ : Ticket) (known : Run → Prop) (made : Folder → Prop) (files : Cabinet)
    (replies : List FileReply) (held : Holdings) : Prop :=
  match τ.call with
  | .prepare => Opening made replies ∧ held = []
  | .experiment e => Founding files τ.tag e replies held
  | .record run => Recording known files τ.tag run replies held

/-! ## What a step does to the files -/

/-- What a step of a call does to the files and to those that it holds. A slot that the call does
not use alone it only takes when it is free. -/
inductive Deed (priv : Slot → Prop) (files : Cabinet) (held : Holdings) : Cabinet → Holdings → Prop
  | none : Deed priv files held files held
  | put {s : Slot} (content : String) (fresh : ∀ c, (s, c) ∉ held)
      (free : priv s ∨ files s = .none) :
      Deed priv files held (Function.update files s (some content)) ((s, content) :: held)
  | drop {s : Slot} {rest : Holdings} (content : String) (alone : priv s)
      (split : ∀ x, x ∈ held ↔ x = (s, content) ∨ x ∈ rest) (gone : ∀ c, (s, c) ∉ rest) :
      Deed priv files held (Function.update files s .none) rest
  | move {s s' : Slot} {content : String} (alone : priv s) (alone' : priv s') (ne : s' ≠ s)
      (only : held = [(s, content)]) :
      Deed priv files held
        (Function.update (Function.update files s .none) s' (some content)) [(s', content)]

variable {files files' : Cabinet} {s : Slot} {content : String}

/-- What is in a slot that the call does not use alone stays there. -/
theorem Deed.kept {priv : Slot → Prop} {held held' : Holdings}
    (hd : Deed priv files held files' held') (hs : ¬ priv s) (hc : files s = some content) :
    files' s = some content := by
  cases hd with
  | none => exact hc
  | put _ _ free =>
    rw [Function.update_of_ne]
    · exact hc
    · rintro rfl
      rcases free with free | free
      · exact hs free
      · cases free.symm.trans hc
  | drop _ alone =>
    rw [Function.update_of_ne]
    · exact hc
    · rintro rfl
      exact hs alone
  | move alone alone' =>
    rw [Function.update_of_ne, Function.update_of_ne]
    · exact hc
    · rintro rfl
      exact hs alone
    · rintro rfl
      exact hs alone'

/-! ## Reading documents -/

section Reading
variable {α : Type} {decode? : Document → Option α} {text : String} {v : α}

theorem readDocument_after (path : String) (h : Reads decode? text v) :
    (readDocument decode? path).after (.content text) = .done (.ok (some v)) := by
  obtain ⟨next, hread, hnext⟩ := readDocument_eq decode? path
  rw [hread, FileProgram.after, hnext, show (Json.read? text).bind decode? = some v from h]

/-- A call that finds its key taken reads the document of the run it is pointed to. -/
theorem resume_record_load (t : FileTracker) (tag id text : String) (run : Run) :
    ((Ticket.mk tag (.record run)).program t).resume
      [.done, .done, .done, .failed .alreadyExists, .done, .done, .content id, .content text] =
      andThen (andThen (andThen ((readDocument Run.decode? (t.runPath (trimText id))).after
        (.content text)) fun
          | some r => .done (.ok r)
          | none => .done (.error (.runNotFound (trimText id)))) fun existing =>
            .done (.ok (.existing existing))) fun outcome => .done (.ok (.recorded outcome)) := rfl

/-- The answer to a call that finds a run under its key. -/
theorem resume_record_found (t : FileTracker) (tag id : String) (run : Run) {other : Run}
    (h : Reads Run.decode? text other) :
    ((Ticket.mk tag (.record run)).program t).resume
      [.done, .done, .done, .failed .alreadyExists, .done, .done, .content id, .content text] =
    .done (.ok (.recorded (.existing other))) := by
  rw [resume_record_load, readDocument_after _ h]
  rfl

theorem resume_experiment_load (t : FileTracker) (tag text : String) (e : Experiment) :
    ((Ticket.mk tag (.experiment e)).program t).resume
      [.done, .failed .alreadyExists, .done, .content text] =
      andThen (andThen ((readDocument Experiment.decode? (t.experimentPath e.name)).after
        (.content text)) fun
          | some e => .done (.ok e)
          | none => .done (.error (.trackerError
              ("experiment document " ++ t.experimentPath e.name ++ " vanished")))) fun e =>
        .done (.ok (.experiment e)) := rfl

theorem resume_experiment_found (t : FileTracker) (tag : String) (e : Experiment)
    {other : Experiment} (h : Reads Experiment.decode? text other) :
    ((Ticket.mk tag (.experiment e)).program t).resume
      [.done, .failed .alreadyExists, .done, .content text] =
    .done (.ok (.experiment other)) := by
  rw [resume_experiment_load, readDocument_after _ h]
  rfl

end Reading

/-! ## Steps of a call -/

/-- A call has been answered, or its next step keeps it in a place of its program. -/
def Moves (t : FileTracker) (cwd : String) (p : FileProgram (Outcome Answer)) (priv : Slot → Prop)
    (files : Cabinet) (replies : List FileReply) (held : Holdings)
    (stands : Cabinet → List FileReply → Holdings → Prop) : Prop :=
  (∃ answer, p.resume replies = .done (.ok answer)) ∨
  ∃ s next act held', p.resume replies = .step s next ∧ Performs t cwd s act ∧
    Deed priv files held (act.perform files).2 held' ∧
    stands (act.perform files).2 (replies ++ [(act.perform files).1]) held'

variable {t : FileTracker} {cwd tag : String} {known : Run → Prop} {run : Run} {e : Experiment}
  {replies : List FileReply} {held held' : Holdings}

theorem moves_of_perform {p : FileProgram (Outcome Answer)} {priv : Slot → Prop}
    {stands : Cabinet → List FileReply → Holdings → Prop} {s : FileStep}
    {next : FileReply → FileProgram (Outcome Answer)} {act : Act} {reply : FileReply}
    (asks : p.resume replies = .step s next) (performs : Performs t cwd s act)
    (eq : act.perform files = (reply, files')) (deed : Deed priv files held files' held')
    (h : stands files' (replies ++ [reply]) held') :
    Moves t cwd p priv files replies held stands := by
  refine .inr ⟨s, next, act, held', asks, performs, ?_, ?_⟩
  · rw [eq]
    exact deed
  · rw [eq]
    exact h

/-- A run whose id is found under a key can be found. -/
structure Kept (files : Cabinet) (run : Run) : Prop where
  plain : Plain run.id
  trimmed : trimText run.id = run.id
  present : files (docSlot run) = some (Json.pretty run.encode)

theorem Recording.moves (hr : Recording known files tag run replies held) (hmark : Marks tag)
    (hid : Plain run.id) (hkey : Plain run.idempotencyKey)
    (hdraft : claimSlot run ≠ draftSlot (tag ++ "-key") (claimSlot run))
    (hheld : ∀ s c, (s, c) ∈ held → files s = some c)
    (hreads : ∀ other, known other → Reads Run.decode? (Json.pretty other.encode) other)
    (hkept : ∀ id, files (claimSlot run) = some id →
      ∃ other, other.id = id ∧ known other ∧ Kept files other) :
    Moves t cwd ((Ticket.mk tag (.record run)).program t) (Ticket.mk tag (.record run)).Private
      files replies held fun files replies held => Recording known files tag run replies held := by
  have hmark' : '/' ∉ (tag ++ "-key").toList := (Folder.marks_mark hmark .keys).1
  have hdoc := t.denotes_runPath cwd hid.2.2.2
  have hdocDraft := t.denotes_runDraft cwd hid.2.2.2 hmark.1
  have hslot := t.denotes_keyPath cwd hkey
  have hslotDraft := t.denotes_keyDraft cwd hkey hmark'
  have hne : docSlot run ≠ draftSlot tag (docSlot run) := ne_draftSlot hmark.1 hid.2.2.2 .runs
  have hfolder (n : Name) : (Folder.keys, n) ≠ docSlot run := fun h =>
    nomatch (congrArg Prod.fst h : Folder.keys = Folder.runs)
  -- one case for each place of the program, with its next step and what this does to the files
  cases hr with
  | drafting =>
    exact moves_of_perform rfl (.put hdocDraft _) rfl
      (.put _ (fun _ => List.not_mem_nil) (.inl (.inl rfl))) .placing
  | placing =>
    have hc := hheld _ _ List.mem_cons_self
    refine moves_of_perform rfl (.move hdocDraft hdoc) ?_
      (.move (.inl rfl) (.inr (.inl rfl)) hne rfl) .keyDrafting
    rw [Act.perform, hc]
  | keyDrafting =>
    refine moves_of_perform rfl (.put hslotDraft _) rfl (.put _ (fun c hmem => ?_)
      (.inl (.inr (.inr rfl)))) .claiming
    exact hfolder _ (congrArg Prod.fst (List.mem_singleton.mp hmem))
  | claiming =>
    have hc := hheld _ _ List.mem_cons_self
    -- the claim succeeds where the slot is free, and is refused where some call has taken it
    rcases hfree : files (claimSlot run) with - | id
    · refine moves_of_perform rfl (.claim hslotDraft hslot) ?_
        (.put _ (fun c hmem => ?_) (.inr hfree)) .won
      · rw [Act.perform, hc, hfree]
      · rcases List.mem_cons.mp hmem with h | hmem
        · exact hdraft (congrArg Prod.fst h)
        · exact hfolder _ (congrArg Prod.fst (List.mem_singleton.mp hmem))
    · refine moves_of_perform rfl (.claim hslotDraft hslot) ?_ .none (.refused _ hfree)
      rw [Act.perform, hc, hfree]
  | won =>
    have hc := hheld _ _ (List.mem_cons_of_mem _ List.mem_cons_self)
    refine moves_of_perform rfl (.drop hslotDraft) ?_
      (.drop run.id (.inr (.inr rfl)) (fun x => ?_) fun c hmem => ?_) .created
    · rw [Act.perform, hc]
    · simp only [List.mem_cons]
      exact or_left_comm
    · rcases List.mem_cons.mp hmem with h | hmem
      · exact hdraft (congrArg Prod.fst h).symm
      · exact hfolder _ (congrArg Prod.fst (List.mem_singleton.mp hmem))
  | created => exact .inl ⟨_, rfl⟩
  | refused id taken =>
    have hc := hheld _ _ List.mem_cons_self
    refine moves_of_perform rfl (.drop hslotDraft) ?_
      (.drop _ (.inr (.inr rfl)) (fun x => List.mem_cons) fun c hmem => ?_) (.leaving id ?_)
    · rw [Act.perform, hc]
    · exact hfolder _ (congrArg Prod.fst (List.mem_singleton.mp hmem))
    -- the draft that is dropped stands in another slot than the one that was found taken
    · rw [Function.update_of_ne hdraft]
      exact taken
  | leaving id taken =>
    have hc := hheld _ _ List.mem_cons_self
    refine moves_of_perform rfl (.drop hdoc) ?_ (.drop _ (.inr (.inl rfl))
      (fun x => List.mem_cons) fun c => List.not_mem_nil) (.looking id ?_)
    · rw [Act.perform, hc]
    · have hne' : claimSlot run ≠ docSlot run := hfolder _
      rw [Function.update_of_ne hne']
      exact taken
  | looking id taken =>
    refine moves_of_perform rfl (.look hslot) ?_ .none (.loading taken)
    rw [Act.perform, taken]
  | loading taken =>
    -- the slot names a run that some call records, and its document is there
    obtain ⟨other, rfl, hknown, hother⟩ := hkept _ taken
    have hpath : t.Denotes cwd (t.runPath (trimText other.id)) (docSlot other) := by
      rw [hother.trimmed, runPath_eq t hother.plain.2.2.2]
      exact denotes_slotPath _
    refine moves_of_perform rfl (.look hpath) ?_ .none (.found taken hknown)
    rw [Act.perform, hother.present]
  | found taken hknown => exact .inl ⟨_, resume_record_found t tag _ run (hreads _ hknown)⟩

theorem Founding.moves (hf : Founding files tag e replies held) (hmark : Marks tag)
    (hheld : ∀ s c, (s, c) ∈ held → files s = some c)
    (hkept : ∀ text, files (nameSlot e) = some text →
      ∃ other, text = Json.pretty other.encode ∧ Reads Experiment.decode? text other) :
    Moves t cwd ((Ticket.mk tag (.experiment e)).program t)
      (Ticket.mk tag (.experiment e)).Private files replies held
      fun files replies held => Founding files tag e replies held := by
  have hslot := t.denotes_experimentPath cwd e.name
  have hdraft := t.denotes_experimentDraft cwd e.name hmark.1
  have hne : nameSlot e ≠ draftSlot tag (nameSlot e) :=
    ne_draftSlot hmark.1 (slash_notMem_textDigest e.name) .experiments
  cases hf with
  | drafting =>
    exact moves_of_perform rfl (.put hdraft _) rfl
      (.put _ (fun _ => List.not_mem_nil) (.inl rfl)) .claiming
  | claiming =>
    have hc := hheld _ _ List.mem_cons_self
    -- of several calls the first one to link its draft takes the slot
    rcases hfree : files (nameSlot e) with - | text
    · refine moves_of_perform rfl (.claim hdraft hslot) ?_ (.put _ (fun c hmem => ?_) (.inr hfree))
        .won
      · rw [Act.perform, hc, hfree]
      · exact hne (congrArg Prod.fst (List.mem_singleton.mp hmem))
    · refine moves_of_perform rfl (.claim hdraft hslot) ?_ .none (.refused _ hfree)
      rw [Act.perform, hc, hfree]
  | won =>
    have hc := hheld _ _ (List.mem_cons_of_mem _ List.mem_cons_self)
    refine moves_of_perform rfl (.drop hdraft) ?_
      (.drop (Json.pretty e.encode) rfl (fun x => ?_) fun c hmem => ?_) .created
    · rw [Act.perform, hc]
    · simp only [List.mem_cons]
      exact or_left_comm
    · exact hne (congrArg Prod.fst (List.mem_singleton.mp hmem)).symm
  | created => exact .inl ⟨_, rfl⟩
  | refused text taken =>
    have hc := hheld _ _ List.mem_cons_self
    refine moves_of_perform rfl (.drop hdraft) ?_
      (.drop _ rfl (fun x => List.mem_cons) fun c => List.not_mem_nil) (.looking text ?_)
    · rw [Act.perform, hc]
    · rw [Function.update_of_ne hne]
      exact taken
  | looking text taken =>
    obtain ⟨other, rfl, hreads⟩ := hkept _ taken
    refine moves_of_perform rfl (.look hslot) ?_ .none (.found taken hreads)
    rw [Act.perform, taken]
  | found taken reads => exact .inl ⟨_, resume_experiment_found t tag e reads⟩

/-! ## What a call uses -/

/-- What a call uses alone is a temporary file of its own, or the document of its run. -/
theorem Ticket.Private.draft_or_doc {τ : Ticket} (h : τ.Private s) :
    (∃ n, s.2 = draftName (s.1.mark τ.tag) n ∧
      (s.1 = .keys → ∃ r, τ.call = .record r ∧ n = nameOf r.idempotencyKey)) ∨
    ∃ r, τ.call = .record r ∧ s = docSlot r := by
  obtain ⟨tag, call⟩ := τ
  cases call with
  | prepare => exact h.elim
  | experiment e =>
    obtain rfl := h
    exact .inl ⟨_, rfl, fun hf => nomatch hf⟩
  | record r =>
    rcases h with rfl | rfl | rfl
    · exact .inl ⟨_, rfl, fun hf => nomatch hf⟩
    · exact .inr ⟨r, rfl, rfl⟩
    · exact .inl ⟨_, rfl, fun _ => ⟨r, rfl, rfl⟩⟩

/-- What a call claims is an experiment or a key. -/
theorem Ticket.Target.document_or_key {τ : Ticket} (h : τ.Target s) :
    (s.1 = .experiments ∧ ∃ name, s.2 = docName (textDigest name)) ∨
    ∃ r, τ.call = .record r ∧ s = claimSlot r := by
  obtain ⟨tag, call⟩ := τ
  cases call with
  | prepare => exact h.elim
  | experiment e =>
    obtain rfl := h
    exact .inl ⟨rfl, e.name, rfl⟩
  | record r => exact .inr ⟨r, rfl, h⟩

/-! ## What is held of a key and of an experiment -/

theorem Founding.held_cases (h : Founding files tag e replies held) {c : String}
    (hmem : (s, c) ∈ held) : s = draftSlot tag (nameSlot e) ∨
      s = nameSlot e ∧ c = Json.pretty e.encode := by
  have hclaim {x : String} (heq : (s, c) = (nameSlot e, x)) : s = nameSlot e ∧ c = x :=
    Prod.mk.inj heq
  cases h with
  | drafting | looking | found => exact absurd hmem List.not_mem_nil
  | claiming | refused => exact .inl (congrArg Prod.fst (List.mem_singleton.mp hmem))
  | created => exact .inr (hclaim (List.mem_singleton.mp hmem))
  | won =>
    rcases List.mem_cons.mp hmem with heq | hmem
    · exact .inr (hclaim heq)
    · exact .inl (congrArg Prod.fst (List.mem_singleton.mp hmem))

theorem Recording.held_cases (h : Recording known files tag run replies held) {c : String}
    (hmem : (s, c) ∈ held) :
    (s = draftSlot tag (docSlot run) ∨ s = docSlot run ∨
      s = draftSlot (tag ++ "-key") (claimSlot run)) ∨
    s = claimSlot run ∧ c = run.id ∧ (docSlot run, Json.pretty run.encode) ∈ held := by
  cases h with
  | drafting | looking | loading | found => exact absurd hmem List.not_mem_nil
  | placing => exact .inl (.inl (congrArg Prod.fst (List.mem_singleton.mp hmem)))
  | keyDrafting | leaving =>
    exact .inl (.inr (.inl (congrArg Prod.fst (List.mem_singleton.mp hmem))))
  | claiming | refused =>
    rcases List.mem_cons.mp hmem with heq | hmem
    · exact .inl (.inr (.inr (congrArg Prod.fst heq)))
    · exact .inl (.inr (.inl (congrArg Prod.fst (List.mem_singleton.mp hmem))))
  | won =>
    rcases List.mem_cons.mp hmem with heq | hmem
    · obtain ⟨hs, hc⟩ := Prod.mk.inj heq
      exact .inr ⟨hs, hc, List.mem_cons_of_mem _ (List.mem_cons_of_mem _ List.mem_cons_self)⟩
    · rcases List.mem_cons.mp hmem with heq | hmem
      · exact .inl (.inr (.inr (congrArg Prod.fst heq)))
      · exact .inl (.inr (.inl (congrArg Prod.fst (List.mem_singleton.mp hmem))))
  | created =>
    rcases List.mem_cons.mp hmem with heq | hmem
    · obtain ⟨hs, hc⟩ := Prod.mk.inj heq
      exact .inr ⟨hs, hc, List.mem_cons_of_mem _ List.mem_cons_self⟩
    · exact .inl (.inr (.inl (congrArg Prod.fst (List.mem_singleton.mp hmem))))

theorem Founding.mono (h : Founding files tag e replies held)
    (hfiles : ∀ c, files (nameSlot e) = some c → files' (nameSlot e) = some c) :
    Founding files' tag e replies held := by
  cases h with
  | drafting => exact .drafting
  | claiming => exact .claiming
  | won => exact .won
  | created => exact .created
  | refused text taken => exact .refused text (hfiles _ taken)
  | looking text taken => exact .looking text (hfiles _ taken)
  | found taken reads => exact .found (hfiles _ taken) reads

theorem Recording.mono (h : Recording known files tag run replies held)
    (hfiles : ∀ c, files (claimSlot run) = some c → files' (claimSlot run) = some c) :
    Recording known files' tag run replies held := by
  cases h with
  | drafting => exact .drafting
  | placing => exact .placing
  | keyDrafting => exact .keyDrafting
  | claiming => exact .claiming
  | won => exact .won
  | created => exact .created
  | refused id taken => exact .refused id (hfiles _ taken)
  | leaving id taken => exact .leaving id (hfiles _ taken)
  | looking id taken => exact .looking id (hfiles _ taken)
  | loading taken => exact .loading (hfiles _ taken)
  | found taken hknown => exact .found (hfiles _ taken) hknown

theorem Opening.mono {made made' : Folder → Prop} (h : Opening made replies)
    (hmade : ∀ f, made f → made' f) : Opening made' replies := by
  cases h with
  | first => exact .first
  | second h => exact .second (hmade _ h)
  | third h h' => exact .third (hmade _ h) (hmade _ h')
  | ended h => exact .ended fun f => hmade f (h f)

namespace Ticket.Stands
variable {τ : Ticket} {made made' : Folder → Prop}

/-- A call holds only files that it uses alone or that it has claimed. -/
theorem uses (h : τ.Stands known made files replies held) {c : String} (hmem : (s, c) ∈ held) :
    τ.Private s ∨ τ.Target s := by
  obtain ⟨tag, call⟩ := τ
  cases call with
  | prepare =>
    rw [h.2] at hmem
    exact absurd hmem List.not_mem_nil
  | experiment e => exact (Founding.held_cases h hmem).imp id And.left
  | record r => exact (Recording.held_cases h hmem).imp id And.left

/-- What others do to files does not move a call if it leaves what is claimed. -/
theorem mono (h : τ.Stands known made files replies held) (hmade : ∀ f, made f → made' f)
    (hfiles : ∀ s c, τ.Target s → files s = some c → files' s = some c) :
    τ.Stands known made' files' replies held := by
  obtain ⟨tag, call⟩ := τ
  cases call with
  | prepare => exact ⟨h.1.mono hmade, h.2⟩
  | experiment e => exact Founding.mono h fun c => hfiles _ c rfl
  | record r => exact Recording.mono h fun c => hfiles _ c rfl

/-- What a call has claimed, and what it holds besides. -/
theorem claims (h : τ.Stands known made files replies held) {c : String} (hmem : (s, c) ∈ held)
    (hs : ¬ τ.Private s) :
    (∃ e, τ.call = .experiment e ∧ s = nameSlot e ∧ c = Json.pretty e.encode) ∨
    ∃ r, τ.call = .record r ∧ s = claimSlot r ∧ c = r.id ∧
      (docSlot r, Json.pretty r.encode) ∈ held := by
  obtain ⟨tag, call⟩ := τ
  cases call with
  | prepare =>
    rw [h.2] at hmem
    exact absurd hmem List.not_mem_nil
  | experiment e =>
    rcases Founding.held_cases h hmem with hpriv | ⟨hslot, hc⟩
    · exact absurd hpriv hs
    · exact .inl ⟨e, rfl, hslot, hc⟩
  | record r =>
    rcases Recording.held_cases h hmem with hpriv | hclaim
    · exact absurd hpriv hs
    · exact .inr ⟨r, rfl, hclaim⟩

end Ticket.Stands

theorem Opening.moves (t : FileTracker) (tag : String) {made : Folder → Prop}
    (h : Opening made replies) :
    (∀ f, made f) ∧
      ((Ticket.mk tag .prepare).program t).resume replies = .done (.ok .ready) ∨
    ∃ f next, ((Ticket.mk tag .prepare).program t).resume replies =
      .step (.makeDirectories (t.folderPath f)) next ∧
      Opening (fun g => made g ∨ g = f) (replies ++ [.done]) := by
  cases h with
  | first => exact .inr ⟨.experiments, _, rfl, .second (.inr rfl)⟩
  | second h => exact .inr ⟨.runs, _, rfl, .third (.inl h) (.inr rfl)⟩
  | third h h' =>
    refine .inr ⟨.keys, _, rfl, .ended fun f => ?_⟩
    cases f with
    | experiments => exact .inl h
    | runs => exact .inl h'
    | keys => exact .inr rfl
  | ended h => exact .inl ⟨h, rfl⟩

/-! ## Answers -/

theorem Recording.answered (h : Recording known files tag run replies held)
    (hreads : ∀ other, known other → Reads Run.decode? (Json.pretty other.encode) other)
    {answer : Outcome Answer}
    (hdone : ((Ticket.mk tag (.record run)).program t).resume replies = .done answer) :
    answer = .ok (.recorded .created) ∧
      held = [(claimSlot run, run.id), (docSlot run, Json.pretty run.encode)] ∨
    ∃ other, answer = .ok (.recorded (.existing other)) ∧ known other ∧
      files (claimSlot run) = some other.id ∧ held = [] := by
  have hasked {s : FileStep} {next : FileReply → FileProgram (Outcome Answer)} {p : Prop}
      (h : FileProgram.step s next = .done answer) : p := nomatch h
  cases h with
  | created => exact .inl ⟨(FileProgram.done.inj hdone).symm, rfl⟩
  | found taken hknown =>
    rw [resume_record_found t tag _ run (hreads _ hknown)] at hdone
    exact .inr ⟨_, (FileProgram.done.inj hdone).symm, hknown, taken, rfl⟩
  | _ => exact hasked hdone

theorem Founding.answered (h : Founding files tag e replies held) {answer : Outcome Answer}
    (hdone : ((Ticket.mk tag (.experiment e)).program t).resume replies = .done answer) :
    answer = .ok (.experiment e) ∧ held = [(nameSlot e, Json.pretty e.encode)] ∨
    ∃ other, answer = .ok (.experiment other) ∧
      files (nameSlot e) = some (Json.pretty other.encode) ∧
      Reads Experiment.decode? (Json.pretty other.encode) other ∧ held = [] := by
  have hasked {s : FileStep} {next : FileReply → FileProgram (Outcome Answer)} {p : Prop}
      (h : FileProgram.step s next = .done answer) : p := nomatch h
  cases h with
  | created => exact .inl ⟨(FileProgram.done.inj hdone).symm, rfl⟩
  | found taken reads =>
    rw [resume_experiment_found t tag e reads] at hdone
    exact .inr ⟨_, (FileProgram.done.inj hdone).symm, taken, reads, rfl⟩
  | _ => exact hasked hdone

end FileTracker
end Workflow
