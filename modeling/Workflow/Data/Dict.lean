/-!
# Dictionaries in key order

A `Dict` maps text keys to values and keeps its entries strictly increasing by key, so that equal
contents are equal values and every listing comes out sorted. The order of texts is by code point.
-/
namespace Workflow

/-- Entries whose keys strictly increase. -/
def KeysIncrease {α : Type} (entries : List (String × α)) : Prop :=
  entries.Pairwise (fun a b => a.1 < b.1)

instance {α : Type} (entries : List (String × α)) : Decidable (KeysIncrease entries) :=
  inferInstanceAs (Decidable (entries.Pairwise _))

/-- A finite map from texts, listed in key order. -/
structure Dict (α : Type) where
  entries : List (String × α)
  increasing : KeysIncrease entries
  deriving DecidableEq, Repr

namespace Dict

variable {α β : Type}

def empty : Dict α := ⟨[], List.Pairwise.nil⟩

instance : EmptyCollection (Dict α) := ⟨empty⟩

instance : Inhabited (Dict α) := ⟨empty⟩

/-- Put one entry in its place, replacing the value of a key that is present. -/
def insertEntry (k : String) (v : α) : List (String × α) → List (String × α)
  | [] => [(k, v)]
  | (k', v') :: rest =>
    if k < k' then (k, v) :: (k', v') :: rest
    else if k = k' then (k, v) :: rest
    else (k', v') :: insertEntry k v rest

theorem mem_insertEntry {k : String} {v : α} {entries : List (String × α)} {e : String × α}
    (h : e ∈ insertEntry k v entries) : e = (k, v) ∨ e ∈ entries := by
  induction entries with
  | nil => simpa [insertEntry] using h
  | cons head rest ih =>
    obtain ⟨k', v'⟩ := head
    simp only [insertEntry] at h
    split at h
    · simpa using h
    · split at h
      · rcases List.mem_cons.mp h with h | h
        · exact .inl h
        · exact .inr (List.mem_cons_of_mem _ h)
      · rcases List.mem_cons.mp h with h | h
        · exact .inr (h ▸ List.mem_cons_self)
        · rcases ih h with h | h
          · exact .inl h
          · exact .inr (List.mem_cons_of_mem _ h)

theorem keysIncrease_insertEntry (k : String) (v : α) {entries : List (String × α)}
    (h : KeysIncrease entries) : KeysIncrease (insertEntry k v entries) := by
  induction entries with
  | nil => exact List.pairwise_singleton _ _
  | cons head rest ih =>
    obtain ⟨k', v'⟩ := head
    obtain ⟨hhead, hrest⟩ := List.pairwise_cons.mp h
    simp only [insertEntry]
    split
    · rename_i hlt
      refine List.pairwise_cons.mpr ⟨fun e he => ?_, h⟩
      rcases List.mem_cons.mp he with rfl | he
      · exact hlt
      · exact String.lt_trans hlt (hhead e he)
    · rename_i hnlt
      split
      · rename_i heq
        subst heq
        exact List.pairwise_cons.mpr ⟨hhead, hrest⟩
      · rename_i hne
        refine List.pairwise_cons.mpr ⟨fun e he => ?_, ih hrest⟩
        rcases mem_insertEntry he with rfl | he
        · exact Std.lt_of_le_of_ne (Std.not_lt.mp hnlt) (Ne.symm hne)
        · exact hhead e he

/-- Add an entry; a key that is present takes the new value. -/
def insert (d : Dict α) (k : String) (v : α) : Dict α :=
  ⟨insertEntry k v d.entries, keysIncrease_insertEntry k v d.increasing⟩

/-- Later entries win over earlier ones with the same key. -/
def ofList (entries : List (String × α)) : Dict α :=
  entries.foldl (fun d e => d.insert e.1 e.2) empty

def get? (d : Dict α) (k : String) : Option α :=
  d.entries.lookup k

def contains (d : Dict α) (k : String) : Bool :=
  (d.get? k).isSome

def keys (d : Dict α) : List String := d.entries.map (·.1)

def values (d : Dict α) : List α := d.entries.map (·.2)

def size (d : Dict α) : Nat := d.entries.length

def isEmpty (d : Dict α) : Bool := d.entries.isEmpty

def erase (d : Dict α) (k : String) : Dict α :=
  ⟨d.entries.filter (·.1 != k), d.increasing.filter _⟩

theorem keysIncrease_map (f : String → α → β) {entries : List (String × α)}
    (h : KeysIncrease entries) : KeysIncrease (entries.map fun e => (e.1, f e.1 e.2)) := by
  unfold KeysIncrease at h ⊢
  rw [List.pairwise_map]
  exact h

/-- The dictionary with every value changed by `f`, which also sees the key. -/
def mapWithKey (d : Dict α) (f : String → α → β) : Dict β :=
  ⟨d.entries.map fun e => (e.1, f e.1 e.2), keysIncrease_map f d.increasing⟩

def map (d : Dict α) (f : α → β) : Dict β := d.mapWithKey fun _ => f

/-- Change the value of a key that is present. -/
def modify (d : Dict α) (k : String) (f : α → α) : Dict α :=
  d.mapWithKey fun k' v => if k' = k then f v else v

/-- All entries of both, those of `e` winning. -/
def overlay (d e : Dict α) : Dict α :=
  e.entries.foldl (fun acc p => acc.insert p.1 p.2) d

end Dict

/-- Texts without repetition, in increasing order. -/
def sortedTexts (texts : List String) : List String :=
  (Dict.ofList (texts.map fun t => (t, ()))).keys

end Workflow
