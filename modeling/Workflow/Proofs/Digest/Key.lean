import Mathlib.Data.Set.Function
import Workflow.Proofs.Data.Dict
import Workflow.Proofs.Digest.Framing
import Workflow.Proofs.Json.Scalars
import Workflow.Proofs.Number.Rounding
import Workflow.Schedule.Parameters

/-!
# Keys of submissions

The key of a submission is the digest of four framed fields, the last of them the JSON text of the
parameters. Both encodings can be undone: a key tells the experiment, the name of the run, the
manifest and every parameter with its type, except that JSON has one word for all numbers that are
not finite.
-/
namespace Workflow

/-! ## The text of the parameters -/

namespace Json

def entryText (e : String × Scalar) : List Char :=
  (stringText e.1).toList ++ ':' :: (atomText e.2.toAtom).toList

/-- What follows an entry: the other entries and the closing brace. -/
def entriesAfter : List (String × Scalar) → List Char
  | [] => ['\x7d']
  | e :: es => ',' :: (entryText e ++ entriesAfter es)

def entriesText (es : List (String × Scalar)) : List Char :=
  '\x7b' :: ([','].intercalate (es.map entryText) ++ ['\x7d'])

theorem entriesText_cons (e : String × Scalar) (es : List (String × Scalar)) :
    entriesText (e :: es) = '\x7b' :: (entryText e ++ entriesAfter es) := by
  rw [entriesText]
  congr 1
  induction es generalizing e with
  | nil => rw [List.map_singleton, List.intercalate_singleton, entriesAfter]
  | cons e' es ih =>
    rw [List.map_cons, List.map_cons, List.intercalate_cons_cons, ← List.map_cons,
      List.append_assoc, ih, entriesAfter]
    simp

theorem compactEntries_eq_map (es : List (Document × Document)) :
    compactEntries es = es.map compactEntry := by
  induction es with
  | nil => rfl
  | cons e es ih => rw [compactEntries, ih, List.map_cons]

theorem toList_compact_encodeParams (p : Dict Scalar) :
    (compact (encodeParams p)).toList = entriesText p.entries := by
  have hentry : ((String.toList ∘ compactEntry) ∘
      fun e : String × Document => (Document.text e.1, e.2)) ∘
      (fun e : String × Scalar => (e.1, e.2.encode)) = entryText := by
    funext e
    simp [compactEntry, keyText, compact, Document.text, Scalar.encode, entryText]
  rw [encodeParams, Document.ofDict, Document.record, compact, compactEntries_eq_map,
    String.toList_append, String.toList_append, String.toList_intercalate, List.map_map,
    List.map_map, List.map_map, hentry]
  rfl

def keptEntry (e : String × Scalar) : String × Option Scalar := (e.1, e.2.kept)

theorem entriesAfter_ends (es : List (String × Scalar)) :
    ∃ c rest, endsEntry c = true ∧ entriesAfter es = c :: rest := by
  cases es with
  | nil => exact ⟨_, _, rfl, rfl⟩
  | cons e es => exact ⟨_, _, rfl, rfl⟩

theorem entryText_append_injective {e e' : String × Scalar} (he : e.2.Proper) (he' : e'.2.Proper)
    {es es' : List (String × Scalar)}
    (h : entryText e ++ entriesAfter es = entryText e' ++ entriesAfter es') :
    keptEntry e = keptEntry e' ∧ entriesAfter es = entriesAfter es' := by
  obtain ⟨c, rest, hc, hes⟩ := entriesAfter_ends es
  obtain ⟨c', rest', hc', hes'⟩ := entriesAfter_ends es'
  rw [entryText, entryText, List.append_assoc, List.append_assoc] at h
  obtain ⟨hkey, hvalue⟩ := stringText_append_injective h
  rw [List.cons_append, List.cons_append, hes, hes'] at hvalue
  obtain ⟨htext, hrest⟩ := atomText_append_injective hc hc' (List.cons.inj hvalue).2
  rw [hes, hes', keptEntry, keptEntry, hkey, (atomText_eq_iff he he').mp htext]
  exact ⟨rfl, hrest⟩

theorem entriesAfter_injective {es es' : List (String × Scalar)} (hes : ∀ e ∈ es, e.2.Proper)
    (hes' : ∀ e ∈ es', e.2.Proper) (h : entriesAfter es = entriesAfter es') :
    es.map keptEntry = es'.map keptEntry := by
  induction es generalizing es' with
  | nil =>
    cases es' with
    | nil => rfl
    | cons e' es' => exact absurd (List.cons.inj h).1 (by decide)
  | cons e es ih =>
    cases es' with
    | nil => exact absurd (List.cons.inj h).1 (by decide)
    | cons e' es' =>
      obtain ⟨he, hes⟩ := List.forall_mem_cons.mp hes
      obtain ⟨he', hes'⟩ := List.forall_mem_cons.mp hes'
      obtain ⟨hentry, hrest⟩ := entryText_append_injective he he' (List.cons.inj h).2
      rw [List.map_cons, List.map_cons, hentry, ih hes hes' hrest]

theorem entriesText_nil_ne (e : String × Scalar) (es : List (String × Scalar)) :
    entriesText [] ≠ entriesText (e :: es) := by
  rw [entriesText_cons, entryText, toList_stringText]
  intro h
  exact absurd (List.cons.inj (List.cons.inj h).2).1 (by decide)

/-- The text of a mapping of scalars tells what it keeps of its entries, and nothing else. -/
theorem entriesText_eq_iff {es es' : List (String × Scalar)} (hes : ∀ e ∈ es, e.2.Proper)
    (hes' : ∀ e ∈ es', e.2.Proper) :
    entriesText es = entriesText es' ↔ es.map keptEntry = es'.map keptEntry := by
  constructor
  · intro h
    cases es with
    | nil =>
      cases es' with
      | nil => rfl
      | cons e' es' => exact absurd h (entriesText_nil_ne e' es')
    | cons e es =>
      cases es' with
      | nil => exact absurd h.symm (entriesText_nil_ne e es)
      | cons e' es' =>
        obtain ⟨he, hes⟩ := List.forall_mem_cons.mp hes
        obtain ⟨he', hes'⟩ := List.forall_mem_cons.mp hes'
        rw [entriesText_cons, entriesText_cons] at h
        obtain ⟨hentry, hrest⟩ := entryText_append_injective he he' (List.cons.inj h).2
        rw [List.map_cons, List.map_cons, hentry, entriesAfter_injective hes hes' hrest]
  · intro h
    have htext : entryText = (fun e : String × Option Scalar =>
        (stringText e.1).toList ++ ':' :: (keptText e.2).toList) ∘ keptEntry := by
      funext e
      rw [entryText, atomText_eq_keptText]
      rfl
    rw [entriesText, entriesText, htext, ← List.map_map, ← List.map_map, h]

end Json

/-! ## Keys -/

/-- Four fields of a key that fit their eight-byte lengths, with parameters as the format has
them. -/
structure Keyable (experiment runName manifest : String) (params : Dict Scalar) : Prop where
  proper : ∀ s ∈ params.values, s.Proper
  fits : ∀ field ∈ [experiment, runName, manifest, Json.compact (encodeParams params)],
    field.utf8ByteSize < 2 ^ 64

/-- The bytes of which the key is the digest. -/
def keyBytes (experiment runName manifest : String) (params : Dict Scalar) : List UInt8 :=
  framed ([experiment, runName, manifest, Json.compact (encodeParams params)].map textBytes)

theorem idempotencyKey_eq (e r m : String) (p : Dict Scalar) :
    idempotencyKey e r m p = Blake3.hexDigest (keyBytes e r m p) := by
  rw [idempotencyKey, fieldsDigest, keyBytes]

theorem compact_encodeParams_eq_iff {p p' : Dict Scalar} (hp : ∀ s ∈ p.values, s.Proper)
    (hp' : ∀ s ∈ p'.values, s.Proper) :
    Json.compact (encodeParams p) = Json.compact (encodeParams p') ↔
      p.map Scalar.kept = p'.map Scalar.kept := by
  have hproper {p : Dict Scalar} (hp : ∀ s ∈ p.values, s.Proper) :
      ∀ e ∈ p.entries, e.2.Proper := fun e he => hp e.2 (List.mem_map.mpr ⟨e, he, rfl⟩)
  rw [← String.toList_inj, Json.toList_compact_encodeParams, Json.toList_compact_encodeParams,
    Json.entriesText_eq_iff (hproper hp) (hproper hp')]
  exact Dict.mk.injEq _ _ _ _ ▸ Iff.rfl

theorem keyBytes_eq_iff {e r m e' r' m' : String} {p p' : Dict Scalar} (h : Keyable e r m p)
    (h' : Keyable e' r' m' p') :
    keyBytes e r m p = keyBytes e' r' m' p' ↔
      e = e' ∧ r = r' ∧ m = m' ∧ p.map Scalar.kept = p'.map Scalar.kept := by
  rw [keyBytes, keyBytes, framed_textBytes_inj h.fits h'.fits,
    ← compact_encodeParams_eq_iff h.proper h'.proper]
  simp

/-! ## Bound parameters -/

theorem Scalar.Proper.coerce {t : DataType} {s s' : Scalar} (h : s.Proper)
    (hcoerce : t.coerceScalar s = .ok s') : s'.Proper := by
  unfold DataType.coerceScalar at hcoerce
  split at hcoerce
  · cases hcoerce
    exact Binary64.proper_ofInt _
  · split_ifs at hcoerce <;> cases hcoerce <;> exact h

theorem proper_bind {spec : ParameterSpec} {supplied : Dict Scalar} {bound : Scalar}
    (hsupplied : ∀ s ∈ supplied.values, s.Proper) (hdefault : ∀ s ∈ spec.defaultValue, s.Proper)
    (h : spec.bind supplied = .ok bound) : bound.Proper := by
  unfold ParameterSpec.bind at h
  split at h
  · cases h
  · rename_i value hvalue
    have hproper : value.Proper := by
      cases hget : supplied.get? spec.name with
      | none =>
        rw [hget] at hvalue
        exact hdefault value hvalue
      | some s =>
        rw [hget] at hvalue
        obtain rfl : s = value := Option.some.inj hvalue
        exact hsupplied s (Dict.mem_values_iff.mpr ⟨_, hget⟩)
    split at h
    · rename_i value' hcoerce
      cases h
      exact hproper.coerce hcoerce
    · cases h

theorem proper_bindSpecs {specs : List ParameterSpec} {supplied start bound : Dict Scalar}
    (hsupplied : ∀ s ∈ supplied.values, s.Proper)
    (hdefaults : ∀ spec ∈ specs, ∀ s ∈ spec.defaultValue, s.Proper)
    (hstart : ∀ s ∈ start.values, s.Proper) (h : bindSpecs supplied specs start = .ok bound) :
    ∀ s ∈ bound.values, s.Proper := by
  induction specs generalizing start with
  | nil =>
    cases h
    exact hstart
  | cons spec specs ih =>
    obtain ⟨hdefault, hdefaults⟩ := List.forall_mem_cons.mp hdefaults
    unfold bindSpecs at h
    cases hbind : spec.bind supplied with
    | error f =>
      rw [hbind] at h
      cases h
    | ok value =>
      rw [hbind] at h
      refine ih hdefaults (fun s hs => ?_) h
      obtain ⟨k, hk⟩ := Dict.mem_values_iff.mp hs
      rw [Dict.get?_insert] at hk
      split_ifs at hk
      · cases hk
        exact proper_bind hsupplied hdefault hbind
      · exact hstart s (Dict.mem_values_iff.mpr ⟨k, hk⟩)

theorem proper_bindParameters {specs : List ParameterSpec} {supplied bound : Dict Scalar}
    (hsupplied : ∀ s ∈ supplied.values, s.Proper)
    (hdefaults : ∀ spec ∈ specs, ∀ s ∈ spec.defaultValue, s.Proper)
    (h : bindParameters specs supplied = .ok bound) : ∀ s ∈ bound.values, s.Proper := by
  unfold bindParameters at h
  split at h
  · cases h
  · exact proper_bindSpecs hsupplied hdefaults (fun s hs => absurd hs List.not_mem_nil) h

/-! ## Submissions with one key -/

/-- Where BLAKE3 does not collide, submissions with one key agree in the experiment, the name of the
run, the manifest and all parameters, each compared as a value of its type; only of the numbers that
are not finite one counts for another. -/
theorem idempotencyKey_eq_iff {e r m e' r' m' : String} {p p' : Dict Scalar} (h : Keyable e r m p)
    (h' : Keyable e' r' m' p')
    (collisionFree : Set.InjOn Blake3.hexDigest {keyBytes e r m p, keyBytes e' r' m' p'}) :
    idempotencyKey e r m p = idempotencyKey e' r' m' p' ↔
      e = e' ∧ r = r' ∧ m = m' ∧ p.map Scalar.kept = p'.map Scalar.kept := by
  rw [← keyBytes_eq_iff h h', idempotencyKey_eq, idempotencyKey_eq]
  exact collisionFree.eq_iff (Set.mem_insert _ _) (Set.mem_insert_of_mem _ rfl)

def oneParam (value : Scalar) : Dict Scalar := Dict.empty.insert "rate" value

theorem keyable_oneParam {value : Scalar} (hproper : value.Proper)
    (hfits : (Json.compact (encodeParams (oneParam value))).utf8ByteSize < 2 ^ 64) :
    Keyable "1" "nightly" "m" (oneParam value) := by
  refine ⟨?_, ?_⟩
  · intro s hs
    rw [List.mem_singleton.mp hs]
    exact hproper
  · simp only [List.forall_mem_cons, List.not_mem_nil, false_imp_iff, implies_true, and_true]
    exact ⟨by decide, by decide, by decide, hfits⟩

/-- An int and the float of the same number have different keys. -/
theorem idempotencyKey_three_ne :
    Keyable "1" "nightly" "m" (oneParam (.int 3)) ∧
      Keyable "1" "nightly" "m" (oneParam (.float (.ofInt 3))) ∧
      Set.InjOn Blake3.hexDigest {keyBytes "1" "nightly" "m" (oneParam (.int 3)),
        keyBytes "1" "nightly" "m" (oneParam (.float (.ofInt 3)))} ∧
      idempotencyKey "1" "nightly" "m" (oneParam (.int 3)) ≠
        idempotencyKey "1" "nightly" "m" (oneParam (.float (.ofInt 3))) := by
  have hint : Keyable "1" "nightly" "m" (oneParam (.int 3)) :=
    keyable_oneParam trivial (by decide)
  have hfloat : Keyable "1" "nightly" "m" (oneParam (.float (.ofInt 3))) :=
    keyable_oneParam (by decide) (by decide)
  have hbytes {value : Scalar} : keyBytes "1" "nightly" "m" (oneParam value) =
      framed (["1", "nightly", "m", Json.compact (encodeParams (oneParam value))].map
        fun s => s.toByteArray.data.toList) := by
    rw [keyBytes, show textBytes = fun s => s.toByteArray.data.toList from funext textBytes_eq]
  have hdigests : Blake3.hexDigest (keyBytes "1" "nightly" "m" (oneParam (.int 3))) ≠
      Blake3.hexDigest (keyBytes "1" "nightly" "m" (oneParam (.float (.ofInt 3)))) := by
    rw [hbytes, hbytes]
    decide +kernel
  have hinjective : Set.InjOn Blake3.hexDigest {keyBytes "1" "nightly" "m" (oneParam (.int 3)),
      keyBytes "1" "nightly" "m" (oneParam (.float (.ofInt 3)))} :=
    Set.injOn_pair.mpr fun h => absurd h hdigests
  refine ⟨hint, hfloat, hinjective, fun h => ?_⟩
  obtain ⟨-, -, -, hparams⟩ := (idempotencyKey_eq_iff hint hfloat hinjective).mp h
  exact absurd hparams (by decide)

/-- The two infinities are written with one word, and no hash tells their submissions apart. -/
theorem idempotencyKey_infinities :
    oneParam (.float (.infinite true)) ≠ oneParam (.float (.infinite false)) ∧
      ∀ e r m, keyBytes e r m (oneParam (.float (.infinite true))) =
          keyBytes e r m (oneParam (.float (.infinite false))) ∧
        idempotencyKey e r m (oneParam (.float (.infinite true))) =
          idempotencyKey e r m (oneParam (.float (.infinite false))) := by
  have htexts : Json.compact (encodeParams (oneParam (.float (.infinite true)))) =
      Json.compact (encodeParams (oneParam (.float (.infinite false)))) := rfl
  refine ⟨by decide, fun e r m => ?_⟩
  rw [idempotencyKey_eq, idempotencyKey_eq, keyBytes, htexts, ← keyBytes]
  exact ⟨rfl, rfl⟩

end Workflow
