import Workflow.Data.Dict
import Workflow.Number.Layout

/-!
# Documents

A `Document` is the common shape of everything that is read from or written to JSON, YAML and TOML
texts: atoms, sequences and mappings. An atom that was written without quotes may remember its
spelling, so that a place that expects a text can take `5` for the text `"5"`.
-/
namespace Workflow

/-- A value without parts. -/
inductive Atom where
  | null
  | bool (b : Bool)
  | int (n : Int)
  | float (x : Binary64)
  | text (s : String)
  deriving DecidableEq, Repr

/-- A tree of atoms. A mapping keeps its entries in the order of the text, repeated keys included;
a tag is a name that the text attaches to a part. -/
inductive Document where
  | atom (a : Atom) (spelling : Option String)
  | sequence (items : List Document)
  | mapping (entries : List (Document × Document))
  | tagged (tag : String) (inner : Document)
  deriving Repr

namespace Document

instance : Inhabited Document := ⟨.atom .null none⟩

mutual

def decEq : (d d' : Document) → Decidable (d = d')
  | .atom a s, .atom a' s' => decidable_of_iff (a = a' ∧ s = s') (by rw [atom.injEq])
  | .sequence ds, .sequence ds' =>
    have := decEqItems ds ds'
    decidable_of_iff (ds = ds') (by rw [sequence.injEq])
  | .mapping es, .mapping es' =>
    have := decEqEntries es es'
    decidable_of_iff (es = es') (by rw [mapping.injEq])
  | .tagged t d, .tagged t' d' =>
    have := decEq d d'
    decidable_of_iff (t = t' ∧ d = d') (by rw [tagged.injEq])
  | .atom .., .sequence _ | .atom .., .mapping _ | .atom .., .tagged ..
  | .sequence _, .atom .. | .sequence _, .mapping _ | .sequence _, .tagged ..
  | .mapping _, .atom .. | .mapping _, .sequence _ | .mapping _, .tagged ..
  | .tagged .., .atom .. | .tagged .., .sequence _ | .tagged .., .mapping _ => isFalse nofun

def decEqItems : (ds ds' : List Document) → Decidable (ds = ds')
  | [], [] => isTrue rfl
  | d :: ds, d' :: ds' =>
    have := decEq d d'
    have := decEqItems ds ds'
    decidable_of_iff (d = d' ∧ ds = ds') (by rw [List.cons.injEq])
  | [], _ :: _ | _ :: _, [] => isFalse nofun

def decEqEntries : (es es' : List (Document × Document)) → Decidable (es = es')
  | [], [] => isTrue rfl
  | e :: es, e' :: es' =>
    have := decEqEntry e e'
    have := decEqEntries es es'
    decidable_of_iff (e = e' ∧ es = es') (by rw [List.cons.injEq])
  | [], _ :: _ | _ :: _, [] => isFalse nofun

def decEqEntry : (e e' : Document × Document) → Decidable (e = e')
  | (k, v), (k', v') =>
    have := decEq k k'
    have := decEq v v'
    decidable_of_iff (k = k' ∧ v = v') (by rw [Prod.mk.injEq])

end
instance : DecidableEq Document := decEq

/-- Least and greatest signed number of 64 bits, and the greatest unsigned one. -/
def leastInt64 : Int := -9223372036854775808
def greatestInt64 : Int := 9223372036854775807
def greatestNat64 : Nat := 18446744073709551615

def fitsInt64 (n : Int) : Bool := leastInt64 ≤ n && n ≤ greatestInt64

def null : Document := .atom .null none
def bool (b : Bool) : Document := .atom (.bool b) none
def int (n : Int) : Document := .atom (.int n) none
def float (x : Binary64) : Document := .atom (.float x) none
def text (s : String) : Document := .atom (.text s) none

/-- A mapping with text keys. -/
def record (fields : List (String × Document)) : Document :=
  .mapping (fields.map fun f => (.text f.1, f.2))

/-- A field that is written only when there is a value. -/
def optionalField {α : Type} (name : String) (write : α → Document) :
    Option α → List (String × Document)
  | none => []
  | some v => [(name, write v)]

def ofDict {α : Type} (write : α → Document) (d : Dict α) : Document :=
  .record (d.entries.map fun e => (e.1, write e.2))

end Document
end Workflow
