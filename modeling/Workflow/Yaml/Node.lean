import Workflow.Yaml.Token
import Workflow.Yaml.Scalar

/-!
# Nodes of YAML texts

Tokens make a tree of nodes. A node may carry an anchor and a tag; an alias stands for the node with
its anchor. `read?` gives the document of a text that holds a single tree.
-/
namespace Workflow.Yaml

/-- The anchor and the tag of a node. -/
structure Properties where
  anchor : Option String
  tag : Option String
  deriving DecidableEq, Repr

namespace Properties

def bare : Properties := ⟨none, none⟩

end Properties

inductive Node where
  | scalar (p : Properties) (text : String) (plain : Bool)
  | sequence (p : Properties) (items : List Node)
  | mapping (p : Properties) (entries : List (Node × Node))
  | alias (name : String)
  deriving Repr

namespace Node

instance : Inhabited Node := ⟨.alias ""⟩

/-- A node of which nothing is written. -/
def void : Node := .scalar .bare "" true

/-- Handles of tags with what they stand for. -/
abbrev Handles := List (String × String)

def defaultHandles : Handles := [("!", "!"), ("!!", "tag:yaml.org,2002:")]

/-- The full tag of a tag token. -/
def resolveTag? (handles : Handles) (handle suffix : String) : Option String :=
  if handle.isEmpty then some suffix else (handles.lookup handle).map (· ++ suffix)

/-- The properties before a node: at most one anchor and one tag, in either order. -/
def properties? (handles : Handles) (ts : List Token) : Option (Properties × List Token) :=
  match ts with
  | .anchor a :: .tag h s :: rest => do return (⟨some a, ← resolveTag? handles h s⟩, rest)
  | .tag h s :: .anchor a :: rest => do return (⟨some a, ← resolveTag? handles h s⟩, rest)
  | .anchor a :: rest => some (⟨some a, none⟩, rest)
  | .tag h s :: rest => do return (⟨none, ← resolveTag? handles h s⟩, rest)
  | _ => some (.bare, ts)

/-- Nothing is written where a block collection ends or goes on. -/
def endsBlockPart : List Token → Bool
  | .key :: _ | .value :: _ | .blockEnd :: _ => true
  | _ => false

/-- A parser takes tokens off the front. -/
abbrev Step (α : Type) := List Token → Option (α × List Token)

/-- The kinds of places at which a node can stand. -/
inductive Place where
  /-- Block collections are allowed. -/
  | block
  /-- So are sequences that are not indented. -/
  | mappingPart
  | flow
  deriving DecidableEq, Repr

mutual

/-- A node with its properties. -/
def parse (handles : Handles) (place : Place) : Nat → Step Node
  | 0, _ => none
  | fuel + 1, ts =>
    match ts with
    | .alias name :: rest => some (.alias name, rest)
    | _ => do
      let (p, ts) ← properties? handles ts
      match ts with
      | .scalar text plain :: rest =>
        -- The tag that is a lone exclamation mark says nothing about the type.
        if p.tag = some "!" then some (.scalar { p with tag := none } text plain, rest)
        else some (.scalar p text plain, rest)
      | .flowSequenceStart :: rest =>
        let (items, rest) ← flowItems handles fuel true [] rest
        return (.sequence p items, rest)
      | .flowMappingStart :: rest =>
        let (entries, rest) ← flowEntries handles fuel true [] rest
        return (.mapping p entries, rest)
      | .blockSequenceStart :: rest =>
        if place = .flow then none
        else
          let (items, rest) ← blockItems handles fuel [] rest
          return (.sequence p items, rest)
      | .blockMappingStart :: rest =>
        if place = .flow then none
        else
          let (entries, rest) ← blockEntries handles fuel [] rest
          return (.mapping p entries, rest)
      | .blockEntry :: _ =>
        if place = .mappingPart then
          let (items, rest) ← looseItems handles fuel [] ts
          return (.sequence p items, rest)
        else if p = .bare then none
        else some (.scalar p "" true, ts)
      | _ => if p = .bare then none else some (.scalar p "" true, ts)

/-- The items of a block sequence. Items are collected last first. -/
def blockItems (handles : Handles) : Nat → List Node → Step (List Node)
  | 0, _, _ => none
  | fuel + 1, seen, ts =>
    match ts with
    | .blockEntry :: rest =>
      match rest with
      | .blockEntry :: _ | .blockEnd :: _ => blockItems handles fuel (void :: seen) rest
      | _ => do
        let (item, rest) ← parse handles .block fuel rest
        blockItems handles fuel (item :: seen) rest
    | .blockEnd :: rest => some (seen.reverse, rest)
    | _ => none

/-- The items of a sequence that is indented no more than the mapping it is in. -/
def looseItems (handles : Handles) : Nat → List Node → Step (List Node)
  | 0, _, _ => none
  | fuel + 1, seen, ts =>
    match ts with
    | .blockEntry :: rest =>
      match rest with
      | .blockEntry :: _ | .key :: _ | .value :: _ | .blockEnd :: _ =>
        looseItems handles fuel (void :: seen) rest
      | _ => do
        let (item, rest) ← parse handles .block fuel rest
        looseItems handles fuel (item :: seen) rest
    | _ => some (seen.reverse, ts)

/-- The entries of a block mapping. -/
def blockEntries (handles : Handles) : Nat → List (Node × Node) → Step (List (Node × Node))
  | 0, _, _ => none
  | fuel + 1, seen, ts =>
    match ts with
    | .key :: rest => do
      let (key, rest) ← blockPart handles fuel rest
      match rest with
      | .value :: rest =>
        let (value, rest) ← blockPart handles fuel rest
        blockEntries handles fuel ((key, value) :: seen) rest
      | _ => blockEntries handles fuel ((key, void) :: seen) rest
    | .blockEnd :: rest => some (seen.reverse, rest)
    | _ => none

/-- A key or a value of a block mapping. -/
def blockPart (handles : Handles) : Nat → Step Node
  | 0, _ => none
  | fuel + 1, ts => if endsBlockPart ts then some (void, ts) else parse handles .mappingPart fuel ts

/-- The items of a flow sequence. A key makes a mapping with a single entry. -/
def flowItems (handles : Handles) : Nat → Bool → List Node → Step (List Node)
  | 0, _, _, _ => none
  | fuel + 1, first, seen, ts =>
    match ts with
    | .flowSequenceEnd :: rest => some (seen.reverse, rest)
    | _ => do
      let ts ←
        if first then some ts
        else
          match ts with
          | .flowEntry :: rest => some rest
          | _ => none
      match ts with
      | .flowSequenceEnd :: rest => some (seen.reverse, rest)
      | .key :: rest =>
        let (key, rest) ←
          match rest with
          | .value :: rest | .flowEntry :: rest | .flowSequenceEnd :: rest => some (void, rest)
          | _ => parse handles .flow fuel rest
        let (value, rest) ← flowItemValue handles fuel rest
        flowItems handles fuel false (.mapping .bare [(key, value)] :: seen) rest
      | _ =>
        let (item, rest) ← parse handles .flow fuel ts
        flowItems handles fuel false (item :: seen) rest

/-- The value of a single entry inside a flow sequence. -/
def flowItemValue (handles : Handles) : Nat → Step Node
  | 0, _ => none
  | fuel + 1, ts =>
    match ts with
    | .value :: rest =>
      match rest with
      | .flowEntry :: _ | .flowSequenceEnd :: _ => some (void, rest)
      | _ => parse handles .flow fuel rest
    | _ => some (void, ts)

def flowEntries (handles : Handles) : Nat → Bool → List (Node × Node) → Step (List (Node × Node))
  | 0, _, _, _ => none
  | fuel + 1, first, seen, ts =>
    match ts with
    | .flowMappingEnd :: rest => some (seen.reverse, rest)
    | _ => do
      let ts ←
        if first then some ts
        else
          match ts with
          | .flowEntry :: rest => some rest
          | _ => none
      match ts with
      | .flowMappingEnd :: rest => some (seen.reverse, rest)
      | .key :: rest =>
        let (key, rest) ←
          match rest with
          | .value :: _ | .flowEntry :: _ | .flowMappingEnd :: _ => some (void, rest)
          | _ => parse handles .flow fuel rest
        let (value, rest) ← flowEntryValue handles fuel rest
        flowEntries handles fuel false ((key, value) :: seen) rest
      | _ =>
        let (key, rest) ← parse handles .flow fuel ts
        flowEntries handles fuel false ((key, void) :: seen) rest

/-- The value of an entry of a flow mapping. -/
def flowEntryValue (handles : Handles) : Nat → Step Node
  | 0, _ => none
  | fuel + 1, ts =>
    match ts with
    | .value :: rest =>
      match rest with
      | .flowEntry :: _ | .flowMappingEnd :: _ => some (void, rest)
      | _ => parse handles .flow fuel rest
    | _ => some (void, ts)

end

/-! ## Streams -/

/-- The directives before a document: at most one version, which must be 1.1 or 1.2, and handles
that differ. -/
def directives? : Bool → Handles → List Token → Option (Handles × List Token)
  | seenVersion, handles, .versionDirective major minor :: rest =>
    if seenVersion || major ≠ 1 || (minor ≠ 1 && minor ≠ 2) then none
    else directives? true handles rest
  | seenVersion, handles, .tagDirective handle start :: rest =>
    if (handles.lookup handle).isSome then none
    else directives? seenVersion (handles ++ [(handle, start)]) rest
  | _, handles, ts => some (handles, ts)

def atDocumentEnd : List Token → Bool
  | .versionDirective .. :: _ | .tagDirective .. :: _ | .documentStart :: _ | .documentEnd :: _
  | .streamEnd :: _ | [] => true
  | _ => false

/-- The documents of a stream; `implicit` tells that the next one may do without its mark. -/
def documents? : Nat → Bool → List Token → Option (List Node)
  | 0, _, _ => none
  | fuel + 1, implicit, ts =>
    let size := 2 * ts.length + 2
    let ts := if implicit then ts else ts.dropWhile (· == .documentEnd)
    match ts with
    | .streamEnd :: _ => some []
    | _ => do
      let bare := implicit && ¬ atDocumentEnd ts
      let (handles, ts) ← if bare then some ([], ts) else directives? false [] ts
      let ts ←
        if bare then some ts
        else
          match ts with
          | .documentStart :: rest => some rest
          | _ => none
      let (node, ts) ←
        if atDocumentEnd ts then some (void, ts)
        else parse (handles ++ defaultHandles) .block size ts
      let ts :=
        match ts with
        | .documentEnd :: rest => rest
        | _ => ts
      return node :: (← documents? fuel false ts)

/-! ## Anchors and aliases -/

/-- Anchor names with the numbers that they stand for. -/
abbrev Anchors := List (String × Nat)

/-- Give a name the next number, which is the count of the names in use. -/
def nameAnchor (names : Anchors) (p : Properties) : Properties × Anchors :=
  match p.anchor with
  | none => (p, names)
  | some name =>
    ({ p with anchor := some (toString names.length) },
      (name, names.length) :: names.filter (·.1 != name))

mutual

/-- Replace the names in anchors and aliases by numbers, in the order of the text. An alias needs an
anchor before it. -/
def number (names : Anchors) : Node → Option (Node × Anchors)
  | .scalar p text plain =>
    let (p, names) := nameAnchor names p
    some (.scalar p text plain, names)
  | .sequence p items => do
    let (p, names) := nameAnchor names p
    let (items, names) ← numberItems names items
    return (.sequence p items, names)
  | .mapping p entries => do
    let (p, names) := nameAnchor names p
    let (entries, names) ← numberEntries names entries
    return (.mapping p entries, names)
  | .alias name => do return (.alias (toString (← names.lookup name)), names)

def numberItems (names : Anchors) : List Node → Option (List Node × Anchors)
  | [] => some ([], names)
  | n :: ns => do
    let (n, names) ← number names n
    let (ns, names) ← numberItems names ns
    return (n :: ns, names)

def numberEntries (names : Anchors) : List (Node × Node) → Option (List (Node × Node) × Anchors)
  | [] => some ([], names)
  | e :: es => do
    let (e, names) ← numberEntry names e
    let (es, names) ← numberEntries names es
    return (e :: es, names)

def numberEntry (names : Anchors) : Node × Node → Option ((Node × Node) × Anchors)
  | (k, v) => do
    let (k, names) ← number names k
    let (v, names) ← number names v
    return ((k, v), names)

end

/-- A node under its anchor, if it has one. -/
def anchored (p : Properties) (n : Node) : List (String × Node) :=
  p.anchor.toList.map fun a => (a, n)

mutual

/-- The nodes with anchors, those of inner nodes after their own. -/
def anchorTable : Node → List (String × Node)
  | .scalar p text plain => anchored p (.scalar p text plain)
  | .sequence p items => anchored p (.sequence p items) ++ anchorTableItems items
  | .mapping p entries => anchored p (.mapping p entries) ++ anchorTableEntries entries
  | .alias _ => []

def anchorTableItems : List Node → List (String × Node)
  | [] => []
  | n :: ns => anchorTable n ++ anchorTableItems ns

def anchorTableEntries : List (Node × Node) → List (String × Node)
  | [] => []
  | e :: es => anchorTableEntry e ++ anchorTableEntries es

def anchorTableEntry : Node × Node → List (String × Node)
  | (k, v) => anchorTable k ++ anchorTable v

end

mutual

/-- The number of steps in which a node is written: one for a scalar or an alias, and an opening and
a closing one for a collection. -/
def steps : Node → Nat
  | .scalar .. => 1
  | .sequence _ items => 2 + stepsItems items
  | .mapping _ entries => 2 + stepsEntries entries
  | .alias _ => 1

def stepsItems : List Node → Nat
  | [] => 0
  | n :: ns => steps n + stepsItems ns

def stepsEntries : List (Node × Node) → Nat
  | [] => 0
  | e :: es => stepsEntry e + stepsEntries es

def stepsEntry : Node × Node → Nat
  | (k, v) => steps k + steps v

end

/-! ## Documents -/

/-- The document of a scalar. A tag of the core schema says how the text is read; a text that does
not fit its tag, like any other tag, stays a tagged part. -/
def scalarDocument (tag : Option String) (text : String) (plain : Bool) : Document :=
  let spelled (a : Atom) : Document := .atom a (some text)
  let core (name : String) : String := "tag:yaml.org,2002:" ++ name
  match tag with
  | none => if plain then plainScalarDocument text else .text text
  | some tag =>
    if tag == core "bool" then
      (boolOfText? text).elim (.tagged tag (.text text)) fun b => spelled (.bool b)
    else if tag == core "int" then
      ((intOfText? text.toList).filter fitsWide).elim (.tagged tag (.text text)) fun n =>
        spelled (.int n)
    else if tag == core "float" then
      (floatOfText? text).elim (.tagged tag (.text text)) fun x => spelled (.float x)
    else if tag == core "null" then
      if isNullText text && text ≠ "" then spelled .null else .tagged tag (.text text)
    else if tag.startsWith "!" then
      .tagged (tag.drop 1).toString (if plain then plainScalarDocument text else .text text)
    else .text text

/-- The document of a collection with a tag. -/
def collectionDocument (tag : Option String) (d : Document) : Document :=
  match tag with
  | some tag => if tag.startsWith "!" then .tagged (tag.drop 1).toString d else d
  | none => d

mutual

/-- The document of a node. `depth` bounds the nesting of collections and `jumps` the aliases that
are followed; what is left of `jumps` comes back with the document. -/
def expand (table : List (String × Node)) : Nat → Nat → Nat → Node → Option (Document × Nat)
  | 0, _, _, _ => none
  | fuel + 1, depth, jumps, n =>
    match n with
    | .scalar p text plain => some (scalarDocument p.tag text plain, jumps)
    | .sequence p items =>
      if depth = 0 then none
      else do
        let (ds, jumps) ← expandItems table fuel (depth - 1) jumps items
        return (collectionDocument p.tag (.sequence ds), jumps)
    | .mapping p entries =>
      if depth = 0 then none
      else do
        let (ds, jumps) ← expandEntries table fuel (depth - 1) jumps entries
        return (collectionDocument p.tag (.mapping ds), jumps)
    | .alias name =>
      if jumps = 0 then none
      else do
        let target ← table.lookup name
        expand table fuel depth (jumps - 1) target

def expandItems (table : List (String × Node)) :
    Nat → Nat → Nat → List Node → Option (List Document × Nat)
  | 0, _, _, _ => none
  | _, _, jumps, [] => some ([], jumps)
  | fuel + 1, depth, jumps, n :: ns => do
    let (d, jumps) ← expand table fuel depth jumps n
    let (ds, jumps) ← expandItems table fuel depth jumps ns
    return (d :: ds, jumps)

def expandEntries (table : List (String × Node)) :
    Nat → Nat → Nat → List (Node × Node) → Option (List (Document × Document) × Nat)
  | 0, _, _, _ => none
  | _, _, jumps, [] => some ([], jumps)
  | fuel + 1, depth, jumps, (k, v) :: es => do
    let (k, jumps) ← expand table fuel depth jumps k
    let (v, jumps) ← expand table fuel depth jumps v
    let (ds, jumps) ← expandEntries table fuel depth jumps es
    return ((k, v) :: ds, jumps)

end

/-- How deep collections may be nested. -/
def maximalDepth : Nat := 128

/-- The document of a tree. -/
def toDocument? (n : Node) : Option Document := do
  let (n, _) ← number [] n
  let size := n.steps
  (expand (anchorTable n).reverse ((maximalDepth + 2) * (2 * size + 4)) maximalDepth (100 * size)
    n).map (·.1)

end Node

/-- The document of a YAML text. A text without a document is void; one with several is refused. -/
def read? (text : String) : Option Document := do
  let ts ← tokens? text
  match ← Node.documents? (ts.length + 2) true ts with
  | [] => Node.void.toDocument?
  | [n] => n.toDocument?
  | _ => none

end Workflow.Yaml
