import Workflow.Document.Decode
import Workflow.Proofs.Data.Dict

/-!
# What is written is read back

A document that is read from a text may differ from the one that was written in the spellings of its
atoms alone: it settles to the one that was written. A value is restored when it is read off every
such document, and records, sequences and dictionaries are restored where their parts are.
-/
namespace Workflow

namespace Document

/-! ## Settled documents -/

theorem settleAtom?_eq_some {a : Atom} {d : Document} (h : settleAtom? a = some d) :
    d = .atom a none := by
  unfold settleAtom? at h
  split at h
  · split_ifs at h
    exact (Option.some.inj h).symm
  · exact (Option.some.inj h).symm

theorem settleItems?_eq_some {ds ws : List Document} :
    settleItems? ds = some ws ↔ List.Forall₂ (fun d w => settle? d = some w) ds ws := by
  induction ds generalizing ws with
  | nil => cases ws <;> simp [settleItems?]
  | cons d ds ih => cases ws <;> simp [settleItems?, Option.bind_eq_some_iff, ih]

theorem settleEntry?_eq_some {e w : Document × Document} :
    settleEntry? e = some w ↔ settle? e.1 = some w.1 ∧ settle? e.2 = some w.2 := by
  obtain ⟨k, v⟩ := e
  obtain ⟨k', v'⟩ := w
  simp [Option.bind_eq_some_iff, settleEntry?]

theorem settleEntries?_eq_some {es ws : List (Document × Document)} :
    settleEntries? es = some ws ↔
      List.Forall₂ (fun e w => settle? e.1 = some w.1 ∧ settle? e.2 = some w.2) es ws := by
  induction es generalizing ws with
  | nil => cases ws <;> simp [settleEntries?]
  | cons e es ih =>
    cases ws <;> simp [settleEntries?, Option.bind_eq_some_iff, ih, settleEntry?_eq_some]

theorem settle?_eq_atom {d : Document} {a : Atom} {spelling : Option String}
    (h : d.settle? = some (.atom a spelling)) : ∃ spelling', d = .atom a spelling' := by
  cases d with
  | atom b spelling' =>
    rw [settle?] at h
    cases settleAtom?_eq_some h
    exact ⟨spelling', rfl⟩
  | sequence items => simp [settle?] at h
  | mapping entries => simp [settle?] at h
  | tagged tag inner => simp [settle?] at h

theorem settle?_eq_sequence {d : Document} {ws : List Document}
    (h : d.settle? = some (.sequence ws)) :
    ∃ ds, d = .sequence ds ∧ List.Forall₂ (fun d w => settle? d = some w) ds ws := by
  cases d with
  | atom a spelling => cases settleAtom?_eq_some h
  | sequence items =>
    rw [settle?, Option.map_eq_some_iff] at h
    obtain ⟨ws', hws, heq⟩ := h
    cases heq
    exact ⟨items, rfl, settleItems?_eq_some.mp hws⟩
  | mapping entries => simp [settle?] at h
  | tagged tag inner => simp [settle?] at h

theorem settle?_eq_mapping {d : Document} {ws : List (Document × Document)}
    (h : d.settle? = some (.mapping ws)) :
    ∃ es, d = .mapping es ∧
      List.Forall₂ (fun e w => settle? e.1 = some w.1 ∧ settle? e.2 = some w.2) es ws := by
  cases d with
  | atom a spelling => cases settleAtom?_eq_some h
  | sequence items => simp [settle?] at h
  | mapping entries =>
    rw [settle?, Option.map_eq_some_iff] at h
    obtain ⟨ws', hws, heq⟩ := h
    cases heq
    exact ⟨entries, rfl, settleEntries?_eq_some.mp hws⟩
  | tagged tag inner => simp [settle?] at h

mutual

theorem settle?_idem : (d : Document) → ∀ {w}, d.settle? = some w → w.settle? = some w
  | .atom a spelling, w, h => by
    rw [settle?] at h
    cases settleAtom?_eq_some h
    rw [settle?]
    exact h
  | .sequence items, w, h => by
    rw [settle?, Option.map_eq_some_iff] at h
    obtain ⟨ws, hws, rfl⟩ := h
    rw [settle?, settleItems?_idem items hws]
    rfl
  | .mapping entries, w, h => by
    rw [settle?, Option.map_eq_some_iff] at h
    obtain ⟨ws, hws, rfl⟩ := h
    rw [settle?, settleEntries?_idem entries hws]
    rfl
  | .tagged tag inner, w, h => by simp [settle?] at h

theorem settleItems?_idem :
    (ds : List Document) → ∀ {ws}, settleItems? ds = some ws → settleItems? ws = some ws
  | [], ws, h => by
    cases h
    rfl
  | d :: ds, ws, h => by
    rw [settleItems?_eq_some] at h
    cases h with
    | cons hd hds =>
      rw [settleItems?, settle?_idem d hd, settleItems?_idem ds (settleItems?_eq_some.mpr hds)]
      rfl

theorem settleEntries?_idem :
    (es : List (Document × Document)) → ∀ {ws}, settleEntries? es = some ws →
      settleEntries? ws = some ws
  | [], ws, h => by
    cases h
    rfl
  | (k, v) :: es, ws, h => by
    rw [settleEntries?_eq_some] at h
    cases h with
    | cons he hes =>
      rw [settleEntries?, settleEntry?, settle?_idem k he.1, settle?_idem v he.2,
        settleEntries?_idem es (settleEntries?_eq_some.mpr hes)]
      rfl

end

theorem settle?_tail {e : Document × Document} {es : List (Document × Document)}
    (h : settle? (.mapping (e :: es)) = some (.mapping (e :: es))) :
    settle? (.mapping es) = some (.mapping es) := by
  obtain ⟨es', heq, hes⟩ := settle?_eq_mapping h
  cases heq
  cases hes with
  | cons _ hes => rw [settle?, settleEntries?_eq_some.mpr hes, Option.map_some]

theorem isNull_of_settle? {d w : Document} (h : d.settle? = some w) : d.isNull = w.isNull := by
  cases w with
  | atom a spelling =>
    obtain ⟨spelling', rfl⟩ := settle?_eq_atom h
    cases a <;> rfl
  | sequence items =>
    obtain ⟨ds, rfl, -⟩ := settle?_eq_sequence h
    rfl
  | mapping entries =>
    obtain ⟨es, rfl, -⟩ := settle?_eq_mapping h
    rfl
  | tagged tag inner =>
    have hsettled := settle?_idem d h
    rw [settle?] at hsettled
    cases hsettled

/-! ## Restored values -/

variable {α β : Type}

/-- The value is read off every document that settles to what was written for it. -/
def Restores (read : Document → Option α) (written : Document) (a : α) : Prop :=
  ∀ d, d.settle? = some written → read d = some a

theorem restores_text (s : String) : Restores asText? (.text s) s := by
  intro d hd
  obtain ⟨spelling, rfl⟩ := settle?_eq_atom hd
  rfl

theorem restores_bool (b : Bool) : Restores asBool? (.bool b) b := by
  intro d hd
  obtain ⟨spelling, rfl⟩ := settle?_eq_atom hd
  rfl

theorem restores_nat {n : Nat} (h : (n : Int) ≤ greatestNat64) :
    Restores asNat? (.int n) n := by
  intro d hd
  obtain ⟨spelling, rfl⟩ := settle?_eq_atom hd
  exact if_pos ⟨Int.natCast_nonneg n, h⟩

theorem restores_name {ofName? : String → Option α} {name : String} {a : α}
    (h : ofName? name = some a) : Restores (fun d => d.asName?.bind ofName?) (.text name) a := by
  intro d hd
  obtain ⟨spelling, rfl⟩ := settle?_eq_atom hd
  exact h

theorem mapM_eq_some {β : Type} {read : β → Option α} {R : β → α → Prop} {ds : List β}
    {as : List α} (h : List.Forall₂ R ds as) (hread : ∀ a ∈ as, ∀ d, R d a → read d = some a) :
    ds.mapM read = some as := by
  induction h with
  | nil => rfl
  | cons hd _ ih =>
    obtain ⟨ha, has⟩ := List.forall_mem_cons.mp hread
    rw [List.mapM_cons, ha _ hd, ih has]
    rfl

theorem restores_list {read : Document → Option α} {write : α → Document} {as : List α}
    (h : ∀ a ∈ as, Restores read (write a) a) :
    Restores (asList? read) (.sequence (as.map write)) as := by
  intro d hd
  obtain ⟨ds, rfl, hds⟩ := settle?_eq_sequence hd
  rw [List.forall₂_map_right_iff] at hds
  exact mapM_eq_some hds h

theorem restores_dict {read : Document → Option α} {write : α → Document} {dict : Dict α}
    (h : ∀ k v, dict.get? k = some v → Restores read (write v) v) :
    Restores (asDict? read) (.ofDict write dict) dict := by
  intro d hd
  obtain ⟨es, rfl, hes⟩ := settle?_eq_mapping hd
  rw [List.map_map, List.forall₂_map_right_iff] at hes
  rw [asDict?, mapM_eq_some hes, Option.map_some, Dict.ofList_entries]
  rintro ⟨k, v⟩ hentry ⟨k', v'⟩ ⟨hk, hv⟩
  have hkey := restores_text k k' hk
  have hvalue := h k v (Dict.mem_entries_iff.mp hentry) v' hv
  simp only [hkey, hvalue, Option.bind_eq_bind, Option.bind_some, Option.pure_def]

/-! ## Records -/

def present (slots : List (String × Option Document)) : List (String × Document) :=
  slots.flatMap fun slot => optionalField slot.1 id slot.2

theorem present_singleton (name : String) (slot : Option Document) :
    present [(name, slot)] = optionalField name id slot :=
  List.append_nil _

theorem optionalField_eq (name : String) (write : α → Document) (o : Option α) :
    optionalField name write o = optionalField name id (o.map write) := by
  cases o <;> rfl

theorem ite_eq_optionalField (name : String) (w : Document) (b : Bool) :
    (if b then [] else [(name, w)]) = optionalField name id (if b then none else some w) := by
  cases b <;> rfl

end Document

namespace Fields
open Document

variable {α : Type}

/-- The field is there as it was written, or it is missing as it was left out. -/
def Holds (fields : Fields) (name : String) (slot : Option Document) : Prop :=
  Option.Rel (fun d w => d.settle? = some w) (fields.lookup name) slot

def Shows (fields : Fields) : List (String × Option Document) → Prop
  | [] => True
  | (name, slot) :: slots => fields.Holds name slot ∧ fields.Shows slots

variable {fields : Fields} {name : String} {read : Document → Option α} {a : α}

theorem Holds.required {w : Document} (h : fields.Holds name (some w)) (hr : Restores read w a) :
    fields.required name read = some a := by
  unfold Holds at h
  rw [Fields.required]
  generalize fields.lookup name = found at h
  cases h with
  | some hd => exact hr _ hd

theorem Holds.defaulted {slot : Option Document} {default : α} (h : fields.Holds name slot)
    (hnone : slot = none → default = a) (hsome : ∀ w, slot = some w → Restores read w a) :
    fields.defaulted name default read = some a := by
  unfold Holds at h
  rw [Fields.defaulted]
  generalize fields.lookup name = found at h
  cases h with
  | none => exact congrArg some (hnone rfl)
  | some hd => exact hsome _ rfl _ hd

theorem Holds.written {w : Document} {default : α} (h : fields.Holds name (some w))
    (hr : Restores read w a) : fields.defaulted name default read = some a :=
  h.defaulted (fun hnone => by cases hnone) fun _ hw => Option.some.inj hw ▸ hr

/-- A field that is left out when it would say nothing. -/
theorem Holds.unlessEmpty {w : Document} {empty : Bool} {default : α}
    (h : fields.Holds name (if empty then none else some w)) (hempty : empty = true → default = a)
    (hr : Restores read w a) : fields.defaulted name default read = some a := by
  cases empty with
  | true => exact h.defaulted (fun _ => hempty rfl) fun _ hw => by cases hw
  | false => exact h.written hr

theorem Holds.optional {write : α → Document} {o : Option α} (h : fields.Holds name (o.map write))
    (hr : ∀ a, o = some a → Restores read (write a) a) (hnull : ∀ a, (write a).isNull = false) :
    fields.optional name read = some o := by
  refine h.defaulted (fun ho => (Option.map_eq_none_iff.mp ho).symm) fun w hw d hd => ?_
  obtain ⟨a, rfl, rfl⟩ := Option.map_eq_some_iff.mp hw
  rw [asOption?, isNull_of_settle? hd, hnull a, if_neg Bool.false_ne_true, hr a rfl d hd]
  rfl

theorem Shows.cons (d : Document) :
    ∀ {slots : List (String × Option Document)}, fields.Shows slots →
      name ∉ slots.map (·.1) → Shows ((name, d) :: fields) slots
  | [], _, _ => trivial
  | (_, _) :: slots, ⟨hslot, hslots⟩, hname => by
    rw [List.map_cons, List.mem_cons, not_or] at hname
    refine ⟨?_, hslots.cons d hname.2⟩
    rw [Holds, List.lookup_cons, beq_false_of_ne (Ne.symm hname.1)]
    exact hslot

theorem collectFields?_present {names : List String} {slots : List (String × Option Document)}
    (hnodup : (slots.map (·.1)).Nodup) (hnames : ∀ slot ∈ slots, slot.1 ∈ names)
    {es : List (Document × Document)}
    (hes : List.Forall₂ (fun e w => settle? e.1 = some (.text w.1) ∧ settle? e.2 = some w.2) es
      (present slots)) :
    ∃ fields : Fields, collectFields? names es = some fields ∧ fields.Shows slots ∧
      ∀ name, name ∉ slots.map (·.1) → fields.lookup name = none := by
  induction slots generalizing es with
  | nil =>
    cases hes
    exact ⟨[], rfl, trivial, fun _ _ => rfl⟩
  | cons slot slots ih =>
    obtain ⟨name, written⟩ := slot
    obtain ⟨hnew, hrest⟩ := List.nodup_cons.mp hnodup
    obtain ⟨hname, hknown⟩ := List.forall_mem_cons.mp hnames
    -- names occur once, so that nothing else is found under the name of this field
    cases written with
    | none =>
      obtain ⟨fields, hfields, hshown, hothers⟩ := ih hrest hknown hes
      refine ⟨fields, hfields, ⟨?_, hshown⟩, fun other hother => hothers other ?_⟩
      · rw [Holds, hothers name hnew]
        exact .none
      · exact fun hmem => hother (List.mem_cons_of_mem _ hmem)
    | some w =>
      cases hes with
      | @cons e _ es _ he hes =>
      obtain ⟨k, d⟩ := e
      obtain ⟨fields, hfields, hshown, hothers⟩ := ih hrest hknown hes
      obtain ⟨spelling, rfl⟩ := settle?_eq_atom he.1
      refine ⟨(name, d) :: fields, ?_, ⟨?_, hshown.cons d hnew⟩, fun other hother => ?_⟩
      · have hfree : fields.lookup name = none := hothers name hnew
        simpa [collectFields?, fieldName?, hfields, hfree] using hname
      · rw [Holds, List.lookup_cons, beq_self_eq_true]
        exact .some he.2
      · rw [List.map_cons, List.mem_cons, not_or] at hother
        rw [List.lookup_cons, beq_false_of_ne hother.1]
        exact hothers other hother.2

end Fields

namespace Document

variable {α : Type} {d : Document} {names : List String} {slots : List (String × Option Document)}
  {a : α} {read : Fields → Option α}

theorem read_mapping (hd : d.settle? = some (.record (present slots)))
    (hread : ∀ fields : Fields, fields.Shows slots → read fields = some a)
    (hnames : slots.map (·.1) = names) (hnodup : names.Nodup) :
    (d.asMappingFields? names).bind read = some a := by
  subst hnames
  obtain ⟨es, rfl, hes⟩ := settle?_eq_mapping hd
  rw [List.forall₂_map_right_iff] at hes
  obtain ⟨fields, hfields, hshown, -⟩ := Fields.collectFields?_present hnodup
    (fun slot hslot => List.mem_map_of_mem hslot) hes
  rw [asMappingFields?, hfields]
  exact hread fields hshown

theorem read_record (hd : d.settle? = some (.record (present slots)))
    (hread : ∀ fields : Fields, fields.Shows slots → read fields = some a)
    (hnames : slots.map (·.1) = names) (hnodup : names.Nodup) :
    (d.asFields? names).bind read = some a := by
  have hmapping := read_mapping hd hread hnames hnodup
  obtain ⟨es, rfl, -⟩ := settle?_eq_mapping hd
  exact hmapping

end Document
end Workflow
