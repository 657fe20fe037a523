import Workflow.Proofs.Document.Decode
import Workflow.Value.Basic

/-!
# Documents of values

Scalars and references to artifacts are restored. Nothing that is written for a reference is taken
for a scalar, and metadata are restored when their mappings are in key order.
-/
namespace Workflow
open Document

/-! ## Scalars -/

theorem fitsInt64_toInt (n : Int64) : fitsInt64 n.toInt = true := by
  have hlt := n.toInt_lt
  have hge := n.le_toInt
  rw [fitsInt64, Bool.and_eq_true, decide_eq_true_eq, decide_eq_true_eq]
  exact ⟨hge, Int.le_of_lt_add_one hlt⟩

theorem DataType.restores (t : DataType) : Restores DataType.decode? t.encode t :=
  restores_name (ofName?_name t)

theorem Scalar.ofAtom?_toAtom (s : Scalar) : ofAtom? s.toAtom = some s := by
  cases s with
  | int n =>
    rw [toAtom, ofAtom?, if_pos (fitsInt64_toInt n), Int64.ofInt_toInt]
  | _ => rfl

theorem Scalar.restores (s : Scalar) : Restores Scalar.decode? s.encode s := by
  intro d hd
  rw [Scalar.decode?, hd]
  exact s.ofAtom?_toAtom

theorem Scalar.isNull_encode (s : Scalar) : s.encode.isNull = false := by
  cases s <;> rfl

theorem Scalar.decode?_mapping {d : Document} {es : List (Document × Document)}
    (hd : d.settle? = some (.mapping es)) : Scalar.decode? d = none := by
  rw [Scalar.decode?, hd]
  rfl

/-! ## Metadata -/

namespace Document

theorem sortKeysEntries_record (entries : List (String × Document)) :
    sortKeysEntries (entries.map fun e => (.text e.1, e.2)) =
      entries.map fun e => (e.1, e.2.sortKeys) := by
  induction entries with
  | nil => rfl
  | cons e entries ih =>
    rw [List.map_cons, sortKeysEntries, ih]
    rfl

/-- A mapping that is in order has texts for keys, and its parts are in order. -/
theorem sorted_mapping {es : List (Document × Document)}
    (h : sortKeys (.mapping es) = .mapping es) :
    ∃ dict : Dict Document, es = dict.entries.map (fun e => (.text e.1, e.2)) ∧
      ∀ e ∈ dict.entries, e.2.sortKeys = e.2 := by
  rw [sortKeys] at h
  generalize hdict : Dict.ofList (sortKeysEntries es) = dict at h
  obtain rfl := mapping.inj h
  have hsame : dict.map sortKeys = dict := by
    rw [sortKeysEntries_record] at hdict
    exact (Dict.ofList_entries (dict.map sortKeys)).symm.trans hdict
  refine ⟨dict, rfl, fun e he => ?_⟩
  have hmem : (e.1, e.2.sortKeys) ∈ (dict.map sortKeys).entries :=
    List.mem_map.mpr ⟨e, he, rfl⟩
  rw [hsame, Dict.mem_entries_iff] at hmem
  exact Option.some.inj (hmem.symm.trans (Dict.mem_entries_iff.mp he))

mutual

/-- What was in order when it was written is the same when it is read and put in order. -/
theorem sortKeys_of_settle? :
    (d : Document) → ∀ {w}, d.settle? = some w → w.sortKeys = w → d.sortKeys = w
  | .atom a spelling, w, h, _ => by
    cases settleAtom?_eq_some h
    rfl
  | .sequence items, w, h, hw => by
    rw [settle?, Option.map_eq_some_iff] at h
    obtain ⟨ws, hws, rfl⟩ := h
    rw [sortKeys] at hw ⊢
    rw [sortKeysItems_of_settle? items hws (sequence.inj hw)]
  | .mapping entries, w, h, hw => by
    rw [settle?, Option.map_eq_some_iff] at h
    obtain ⟨ws, hws, rfl⟩ := h
    obtain ⟨dict, rfl, hsorted⟩ := sorted_mapping hw
    rw [settleEntries?_eq_some, List.forall₂_map_right_iff] at hws
    rw [sortKeys, sortKeysEntries_of_settle? entries hws hsorted, Dict.ofList_entries]
    rfl
  | .tagged tag inner, w, h, _ => by simp [settle?] at h

theorem sortKeysItems_of_settle? :
    (ds : List Document) → ∀ {ws}, settleItems? ds = some ws → sortKeysItems ws = ws →
      sortKeysItems ds = ws
  | [], ws, h, _ => by
    cases h
    rfl
  | d :: ds, ws, h, hws => by
    rw [settleItems?_eq_some] at h
    cases h with
    | cons hd hds =>
      rw [sortKeysItems, List.cons.injEq] at hws
      rw [sortKeysItems, sortKeys_of_settle? d hd hws.1,
        sortKeysItems_of_settle? ds (settleItems?_eq_some.mpr hds) hws.2]

theorem sortKeysEntries_of_settle? :
    (es : List (Document × Document)) → ∀ {entries : List (String × Document)},
      List.Forall₂ (fun e w => settle? e.1 = some (.text w.1) ∧ settle? e.2 = some w.2) es entries →
      (∀ e ∈ entries, e.2.sortKeys = e.2) → sortKeysEntries es = entries
  | [], entries, h, _ => by
    cases h
    rfl
  | (k, v) :: es, entries, h, hentries => by
    cases h with
    | cons he hes =>
      obtain ⟨hhead, hrest⟩ := List.forall_mem_cons.mp hentries
      rw [sortKeysEntries, sortKeysEntry, restores_text _ k he.1,
        sortKeys_of_settle? v he.2 hhead, sortKeysEntries_of_settle? es hes hrest]
      rfl

end

end Document

/-! ## References and values -/

namespace ArtifactPayload

def Sorted (p : ArtifactPayload) : Prop := ∀ k d, p.metadata.get? k = some d → d.sortKeys = d

theorem encode_eq (p : ArtifactPayload) :
    p.encode = .record (present [("uri", some (.text p.uri)),
      ("metadata", if p.metadata.isEmpty then none else some (.ofDict id p.metadata))]) := by
  rw [encode, ite_eq_optionalField]
  simp [present, optionalField]

theorem restores {p : ArtifactPayload} (h : p.Sorted) :
    Restores ArtifactPayload.decode? p.encode p := by
  intro d hd
  rw [encode_eq] at hd
  have hdict : Restores (asDict? fun v => some v.sortKeys) (.ofDict id p.metadata) p.metadata :=
    restores_dict fun k v hv d hd => congrArg some (sortKeys_of_settle? d hd (h k v hv))
  refine read_record hd (fun fields ⟨huri, hmetadata, _⟩ => ?_) rfl (by decide)
  rw [huri.required (restores_text p.uri), hmetadata.unlessEmpty Dict.eq_empty_of_isEmpty hdict]
  rfl

end ArtifactPayload

namespace Value

def Sorted : Value → Prop
  | scalar _ => True
  | artifact p => p.Sorted

theorem restores {v : Value} (h : v.Sorted) : Restores Value.decode? v.encode v := by
  intro d hd
  have hsettled : v.encode.settle? = some v.encode := settle?_idem d hd
  cases v with
  | scalar s =>
    have hscalar : Scalar.decode? s.encode = some s := s.restores _ hsettled
    rw [decode?, hd]
    simp only [encode, hscalar, Option.bind_eq_bind, Option.bind_some, Option.pure_def]
  | artifact p =>
    have hscalar : Scalar.decode? p.encode = none := Scalar.decode?_mapping hsettled
    have hpayload : ArtifactPayload.decode? p.encode = some p := p.restores h _ hsettled
    rw [decode?, hd]
    simp only [encode, hscalar, hpayload, Option.bind_eq_bind, Option.bind_some, Option.pure_def]

end Value
end Workflow
