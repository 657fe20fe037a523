import Mathlib.Data.List.Nodup
import Mathlib.Logic.Function.Basic
import Workflow.Data.Dict

/-!
# Laws of dictionaries

What a dictionary answers after an operation, and what its listings hold. Families that are updated
in step with each other stay related.
-/
namespace Workflow.Dict
variable {α β : Type}

@[simp] theorem get?_empty (k : String) : (empty : Dict α).get? k = none := rfl

theorem lookup_cons_ite (k k' : String) (v : α) (entries : List (String × α)) :
    ((k, v) :: entries).lookup k' = if k' = k then some v else entries.lookup k' := by
  rw [List.lookup_cons]
  by_cases h : k' = k
  · simp [h]
  · simp [h, beq_false_of_ne h]

theorem lookup_insertEntry (k k' : String) (v : α) (entries : List (String × α)) :
    (insertEntry k v entries).lookup k' = if k' = k then some v else entries.lookup k' := by
  induction entries with
  | nil => exact lookup_cons_ite k k' v []
  | cons head rest ih =>
    obtain ⟨k₀, v₀⟩ := head
    simp only [insertEntry]
    split
    · exact lookup_cons_ite k k' v _
    · split
      · rename_i heq
        subst heq
        simp only [lookup_cons_ite]
        split_ifs <;> rfl
      · rename_i hne
        simp only [lookup_cons_ite, ih]
        by_cases hk : k' = k
        · simp [hk, hne]
        · simp [hk]

theorem get?_insert (d : Dict α) (k k' : String) (v : α) :
    (d.insert k v).get? k' = if k' = k then some v else d.get? k' :=
  lookup_insertEntry k k' v d.entries

@[simp] theorem get?_insert_self (d : Dict α) (k : String) (v : α) :
    (d.insert k v).get? k = some v := by
  rw [get?_insert, if_pos rfl]

theorem get?_insert_of_ne {d : Dict α} {k k' : String} {v : α} (h : k' ≠ k) :
    (d.insert k v).get? k' = d.get? k' := by
  rw [get?_insert, if_neg h]

theorem lookup_filter_ne (k k' : String) (entries : List (String × α)) :
    (entries.filter (·.1 != k)).lookup k' = if k' = k then none else entries.lookup k' := by
  induction entries with
  | nil => simp
  | cons head rest ih =>
    obtain ⟨k₀, v₀⟩ := head
    by_cases h : k₀ = k
    · subst h
      rw [List.filter_cons_of_neg (by simp), ih, lookup_cons_ite]
      split_ifs <;> rfl
    · rw [List.filter_cons_of_pos (by simpa using h), lookup_cons_ite, lookup_cons_ite, ih]
      by_cases hk : k' = k₀
      · subst hk
        simp [h]
      · simp [hk]

theorem get?_erase (d : Dict α) (k k' : String) :
    (d.erase k).get? k' = if k' = k then none else d.get? k' :=
  lookup_filter_ne k k' d.entries

theorem get?_modify (d : Dict α) (k k' : String) (f : α → α) :
    (d.modify k f).get? k' = if k' = k then (d.get? k').map f else d.get? k' := by
  change (d.entries.map fun e => (e.1, if e.1 = k then f e.2 else e.2)).lookup k' =
    if k' = k then (d.entries.lookup k').map f else d.entries.lookup k'
  induction d.entries with
  | nil => simp
  | cons e rest ih =>
    obtain ⟨k₀, v⟩ := e
    rw [List.map_cons, lookup_cons_ite, lookup_cons_ite, ih]
    by_cases hk : k' = k₀
    · subst hk
      simp only [if_true]
      split_ifs <;> rfl
    · simp only [hk, if_false]

/-! ## Listings -/

theorem keys_nodup (d : Dict α) : d.keys.Nodup :=
  (List.pairwise_map.mpr d.increasing).imp fun h => String.ne_of_lt h

theorem lookup_eq_some_of_mem {κ : Type} [BEq κ] [LawfulBEq κ] {entries : List (κ × α)}
    (h : (entries.map (·.1)).Nodup) {k : κ} {v : α} (hm : (k, v) ∈ entries) :
    entries.lookup k = some v := by
  induction entries with
  | nil => simp at hm
  | cons head rest ih =>
    obtain ⟨k₀, v₀⟩ := head
    obtain ⟨hnot, hrest⟩ := List.nodup_cons.mp h
    rcases List.mem_cons.mp hm with heq | hmem
    · cases heq
      simp
    · have hne : k ≠ k₀ := by
        rintro rfl
        exact hnot (List.mem_map.mpr ⟨_, hmem, rfl⟩)
      rw [List.lookup_cons, beq_false_of_ne hne, ih hrest hmem]

theorem mem_entries_iff {d : Dict α} {k : String} {v : α} :
    (k, v) ∈ d.entries ↔ d.get? k = some v := by
  constructor
  · intro h
    exact lookup_eq_some_of_mem d.keys_nodup h
  · intro h
    obtain ⟨l₁, l₂, hl, -⟩ := List.lookup_eq_some_iff.mp h
    rw [hl]
    simp

theorem mem_keys_iff {d : Dict α} {k : String} : k ∈ d.keys ↔ ∃ v, d.get? k = some v := by
  constructor
  · intro h
    obtain ⟨e, he, rfl⟩ := List.mem_map.mp h
    exact ⟨e.2, mem_entries_iff.mp he⟩
  · rintro ⟨v, h⟩
    exact List.mem_map.mpr ⟨_, mem_entries_iff.mpr h, rfl⟩

theorem mem_values_iff {d : Dict α} {v : α} : v ∈ d.values ↔ ∃ k, d.get? k = some v := by
  constructor
  · intro h
    obtain ⟨e, he, rfl⟩ := List.mem_map.mp h
    exact ⟨e.1, mem_entries_iff.mp he⟩
  · rintro ⟨k, h⟩
    exact List.mem_map.mpr ⟨_, mem_entries_iff.mpr h, rfl⟩

theorem contains_iff {d : Dict α} {k : String} : d.contains k = true ↔ ∃ v, d.get? k = some v :=
  Option.isSome_iff_exists

/-- A new entry is all that is left by a test that it passes and that the others fail. -/
theorem filter_insertEntry {k : String} {v : α} {entries : List (String × α)}
    {p : String × α → Bool} (hp : p (k, v) = true) (h : ∀ e ∈ entries, p e = false) :
    (insertEntry k v entries).filter p = [(k, v)] := by
  have hrest {rest : List (String × α)} (hrest : ∀ e ∈ rest, p e = false) :
      ((k, v) :: rest).filter p = [(k, v)] := by
    rw [List.filter_cons_of_pos hp, List.filter_eq_nil_iff.mpr]
    intro e he
    simp [hrest e he]
  induction entries with
  | nil => exact hrest nofun
  | cons head rest ih =>
    obtain ⟨hhead, htail⟩ := List.forall_mem_cons.mp h
    simp only [insertEntry]
    split
    · exact hrest h
    · split
      · exact hrest htail
      · rw [List.filter_cons_of_neg (by simp [hhead]), ih htail]

theorem eq_of_get?_single {k k' : String} {v v' : α}
    (h : ((empty : Dict α).insert k v).get? k' = some v') : v' = v := by
  rw [get?_insert] at h
  split_ifs at h
  · exact (Option.some.inj h).symm
  · cases h

theorem eq_empty_of_isEmpty {d : Dict α} (h : d.isEmpty = true) : empty = d := by
  obtain ⟨entries, hincreasing⟩ := d
  cases List.isEmpty_iff.mp h
  rfl

/-! ## Dictionaries made from lists -/

theorem get?_ofList_keyed (f : String → α) (keys : List String) (k : String) :
    (ofList (keys.map fun k => (k, f k))).get? k = if k ∈ keys then some (f k) else none := by
  have aux (d : Dict α) :
      ((keys.map fun k => (k, f k)).foldl (fun d e => d.insert e.1 e.2) d).get? k =
      if k ∈ keys then some (f k) else d.get? k := by
    induction keys generalizing d with
    | nil => simp
    | cons head rest ih =>
      rw [List.map_cons, List.foldl_cons, ih, get?_insert]
      by_cases hr : k ∈ rest <;> by_cases hk : k = head <;> simp [hr, hk]
  exact aux empty

theorem get?_ofList_const (v : α) (keys : List String) (k : String) :
    (ofList (keys.map fun k => (k, v))).get? k = if k ∈ keys then some v else none :=
  get?_ofList_keyed (fun _ => v) keys k

theorem get?_foldl_insert_of_notMem {entries : List (String × α)} {k : String}
    (h : k ∉ entries.map (·.1)) (d : Dict α) :
    (entries.foldl (fun d e => d.insert e.1 e.2) d).get? k = d.get? k := by
  induction entries generalizing d with
  | nil => rfl
  | cons e rest ih =>
    rw [List.map_cons, List.mem_cons, not_or] at h
    rw [List.foldl_cons, ih h.2, get?_insert_of_ne h.1]

/-- A key that is inserted has one of its values, the last one. -/
theorem exists_get?_foldl_insert {entries : List (String × α)} {k : String} {v : α}
    (h : (k, v) ∈ entries) (d : Dict α) : ∃ w, (k, w) ∈ entries ∧
      (entries.foldl (fun d e => d.insert e.1 e.2) d).get? k = some w := by
  induction entries generalizing d v with
  | nil => cases h
  | cons e rest ih =>
    by_cases hrest : k ∈ rest.map (·.1)
    · obtain ⟨⟨_, u⟩, hu, rfl⟩ := List.mem_map.mp hrest
      obtain ⟨w, hw, hget⟩ := ih hu (d.insert e.1 e.2)
      exact ⟨w, List.mem_cons_of_mem _ hw, hget⟩
    · obtain rfl : (k, v) = e := (List.mem_cons.mp h).resolve_right fun hmem =>
        hrest (List.mem_map.mpr ⟨_, hmem, rfl⟩)
      exact ⟨v, List.mem_cons_self, by
        rw [List.foldl_cons, get?_foldl_insert_of_notMem hrest, get?_insert_self]⟩

/-- All entries that are inserted are found exactly if those with one key have one value. -/
theorem get?_foldl_insert_iff (entries : List (String × α)) (d : Dict α) :
    (∀ e ∈ entries, (entries.foldl (fun d e => d.insert e.1 e.2) d).get? e.1 = some e.2) ↔
      ∀ e ∈ entries, ∀ e' ∈ entries, e.1 = e'.1 → e.2 = e'.2 := by
  constructor
  · intro h e he e' he' hkey
    have hvalue := h e he
    rw [hkey, h e' he'] at hvalue
    exact (Option.some.inj hvalue).symm
  · intro h e he
    obtain ⟨w, hw, hget⟩ := exists_get?_foldl_insert (k := e.1) (v := e.2) he d
    rw [hget, h e he _ hw rfl]

/-- Of two dictionaries that are laid one over the other, the upper one wins. -/
theorem get?_overlay (d e : Dict α) (k : String) :
    (d.overlay e).get? k = (e.get? k <|> d.get? k) := by
  have aux (entries : List (String × α)) (hkeys : (entries.map (·.1)).Nodup) (d : Dict α) :
      (entries.foldl (fun d e => d.insert e.1 e.2) d).get? k =
        (entries.lookup k <|> d.get? k) := by
    induction entries generalizing d with
    | nil => rfl
    | cons head rest ih =>
      obtain ⟨k', v⟩ := head
      obtain ⟨hnot, hrest⟩ := List.nodup_cons.mp hkeys
      rw [List.foldl_cons, ih hrest, get?_insert, lookup_cons_ite]
      split_ifs with hk
      · subst hk
        have hnone : rest.lookup k = none := by
          refine List.lookup_eq_none_iff.mpr fun e he => ?_
          simp only [bne_iff_ne, ne_eq]
          exact fun heq => hnot (List.mem_map.mpr ⟨e, he, heq.symm⟩)
        rw [hnone]
        rfl
      · rfl
  exact aux e.entries e.keys_nodup d

/-- A key after all others takes the last place. -/
theorem insertEntry_last {k : String} {v : α} {entries : List (String × α)}
    (h : ∀ e ∈ entries, e.1 < k) : insertEntry k v entries = entries ++ [(k, v)] := by
  induction entries with
  | nil => rfl
  | cons head rest ih =>
    obtain ⟨hhead, hrest⟩ := List.forall_mem_cons.mp h
    rw [insertEntry, if_neg (String.lt_asymm hhead), if_neg (String.ne_of_lt hhead).symm, ih hrest]
    rfl

/-- Entries that follow those of a dictionary in key order are put behind them. -/
theorem entries_foldl_insert (rest : List (String × α)) (front : Dict α)
    (h : KeysIncrease (front.entries ++ rest)) :
    (rest.foldl (fun d e => d.insert e.1 e.2) front).entries = front.entries ++ rest := by
  induction rest generalizing front with
  | nil => exact (List.append_nil _).symm
  | cons e rest ih =>
    have hbefore : ∀ f ∈ front.entries, f.1 < e.1 := fun f hf =>
      (List.pairwise_append.mp h).2.2 f hf e List.mem_cons_self
    have hinsert : (front.insert e.1 e.2).entries = front.entries ++ [e] :=
      insertEntry_last hbefore
    have hall : (front.insert e.1 e.2).entries ++ rest = front.entries ++ e :: rest := by
      rw [hinsert, List.append_assoc]
      rfl
    rw [List.foldl_cons, ih _ (hall ▸ h), hall]

theorem ofList_entries (d : Dict α) : ofList d.entries = d := by
  have hentries : (ofList d.entries).entries = d.entries :=
    entries_foldl_insert d.entries empty d.increasing
  cases d
  rw [mk.injEq]
  exact hentries

end Dict

@[simp] theorem mem_sortedTexts {texts : List String} {t : String} :
    t ∈ sortedTexts texts ↔ t ∈ texts := by
  unfold sortedTexts
  rw [Dict.mem_keys_iff, Dict.get?_ofList_const]
  split_ifs with h <;> simp [h]

/-! ## Families -/

/-- Two families that are updated at one place are related if they are so there and elsewhere. -/
theorem related_update {ι α β : Type*} [DecidableEq ι] (f : ι → α) (g : ι → β) (R : ι → α → β → Prop)
    {i : ι} {a : α} {b : β} (here : R i a b) (elsewhere : ∀ j, j ≠ i → R j (f j) (g j)) (j : ι) :
    R j (Function.update f i a j) (Function.update g i b j) := by
  by_cases hj : j = i
  · subst hj
    simpa only [Function.update_self] using here
  · simpa only [Function.update_of_ne hj] using elsewhere j hj

end Workflow
