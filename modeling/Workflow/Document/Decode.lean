import Workflow.Document.Basic

/-!
# Reading values off documents

Readers take a document and give a value or nothing. A place that is declared to hold a text takes
any atom that has a spelling; a place whose shape has to be found by trial first *settles* the
document, which forgets spellings, so that there `5` is a number and nothing else.
-/
namespace Workflow.Document

/-! ## Settling -/

def settleAtom? (a : Atom) : Option Document :=
  match a with
  | .int n => if leastInt64 ≤ n ∧ n ≤ greatestNat64 then some (.atom (.int n) none) else none
  | a => some (.atom a none)

mutual

/-- The document without spellings. Tagged parts and integers beyond 64 bits cannot be settled. -/
def settle? : Document → Option Document
  | .atom a _ => settleAtom? a
  | .sequence items => (settleItems? items).map .sequence
  | .mapping entries => (settleEntries? entries).map .mapping
  | .tagged _ _ => none

def settleItems? : List Document → Option (List Document)
  | [] => some []
  | d :: ds => do return (← settle? d) :: (← settleItems? ds)

def settleEntries? : List (Document × Document) → Option (List (Document × Document))
  | [] => some []
  | e :: es => do return (← settleEntry? e) :: (← settleEntries? es)

def settleEntry? : Document × Document → Option (Document × Document)
  | (k, v) => do return (← settle? k, ← settle? v)

end

/-! ## Readers -/

/-- A text, or the spelling of another atom. -/
def asText? : Document → Option String
  | .atom (.text s) _ => some s
  | .atom _ spelling => spelling
  | .tagged _ inner => asText? inner
  | _ => none

def asBool? : Document → Option Bool
  | .atom (.bool b) _ => some b
  | _ => none

def asNat? : Document → Option Nat
  | .atom (.int n) _ => if 0 ≤ n ∧ n ≤ greatestNat64 then some n.toNat else none
  | _ => none

def isNull : Document → Bool
  | .atom .null _ => true
  | _ => false

/-- Nothing is written where a collection is expected. -/
def isVoid : Document → Bool
  | .atom .null (some "") => true
  | _ => false

def asOption? {α : Type} (read : Document → Option α) (d : Document) : Option (Option α) :=
  if d.isNull then some none else (read d).map some

def asList? {α : Type} (read : Document → Option α) : Document → Option (List α)
  | .sequence items => items.mapM read
  | .tagged _ inner => asList? read inner
  | d => if d.isVoid then some [] else none

/-- A mapping from texts; of a repeated key the last entry counts. -/
def asDict? {α : Type} (read : Document → Option α) : Document → Option (Dict α)
  | .mapping entries =>
    (entries.mapM fun (k, v) => do return (← asText? k, ← read v)).map Dict.ofList
  | .tagged _ inner => asDict? read inner
  | d => if d.isVoid then some Dict.empty else none

/-- One name out of a fixed choice: a text, a mapping from the name to null, or a tag on nothing. -/
def asName? : Document → Option String
  | .atom (.text s) _ => some s
  | .atom _ spelling => spelling
  | .mapping [(.atom (.text name) none, .atom .null none)] => some name
  | .tagged name inner => if inner.isNull then some name else none
  | _ => none

/-- The name that a key of a record stands for. A number without a spelling counts fields. -/
def fieldName? (names : List String) : Document → Option String
  | .atom (.text s) _ => some s
  | .atom _ (some spelling) => some spelling
  | .atom (.int n) none => if 0 ≤ n then some (names.getD n.toNat "") else none
  | .tagged _ (.atom (.text s) _) => some s
  | _ => none

/-- The entries of a mapping that belong to the given names; none of them may occur twice. -/
def collectFields? (names : List String) :
    List (Document × Document) → Option (List (String × Document))
  | [] => some []
  | (key, value) :: rest => do
    let name ← fieldName? names key
    let fields ← collectFields? names rest
    if names.contains name then
      if (fields.lookup name).isSome then none else some ((name, value) :: fields)
    else some fields

/-- The fields of a record: a mapping, or a sequence that lists the fields in order. -/
def asFields? (names : List String) : Document → Option (List (String × Document))
  | .mapping entries => collectFields? names entries
  | .sequence items => if items.length ≤ names.length then some (names.zip items) else none
  | .tagged _ inner => asFields? names inner
  | d => if d.isVoid then some [] else none

/-- The fields of a record that can only be written as a mapping. -/
def asMappingFields? (names : List String) : Document → Option (List (String × Document))
  | .mapping entries => collectFields? names entries
  | _ => none

end Workflow.Document

namespace Workflow

/-- The named fields that a record was found to have. -/
abbrev Fields := List (String × Document)

namespace Fields

def required {α : Type} (fields : Fields) (name : String) (read : Document → Option α) : Option α :=
  (fields.lookup name).bind read

/-- A field with a value to use when it is missing. -/
def defaulted {α : Type} (fields : Fields) (name : String) (default : α)
    (read : Document → Option α) : Option α :=
  match fields.lookup name with
  | none => some default
  | some d => read d

/-- A field that may be missing or null. -/
def optional {α : Type} (fields : Fields) (name : String) (read : Document → Option α) :
    Option (Option α) :=
  fields.defaulted name none (Document.asOption? read)

end Fields
end Workflow
