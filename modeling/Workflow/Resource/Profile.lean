import Workflow.Resource.Quantity

/-!
# Resource profiles

A profile asks for cpu, memory and a place to run. It is advice: it never affects whether a pipeline
is valid.
-/
namespace Workflow

structure ResourceProfile where
  cpuRequest : Option CpuQuantity
  cpuLimit : Option CpuQuantity
  memoryRequest : Option MemoryQuantity
  memoryLimit : Option MemoryQuantity
  nodeSelector : Dict String
  deriving DecidableEq, Repr

namespace ResourceProfile

def empty : ResourceProfile := ⟨none, none, none, none, Dict.empty⟩

instance : Inhabited ResourceProfile := ⟨empty⟩

def isEmpty (p : ResourceProfile) : Bool := p = empty

def select (p : ResourceProfile) (key value : String) : ResourceProfile :=
  { p with nodeSelector := p.nodeSelector.insert key value }

/-- Read requests and limits in one go. -/
def parse (cpuRequest cpuLimit memoryRequest memoryLimit : String) : Outcome ResourceProfile := do
  let cpuRequest ← CpuQuantity.parse cpuRequest
  let cpuLimit ← CpuQuantity.parse cpuLimit
  let memoryRequest ← MemoryQuantity.parse memoryRequest
  let memoryLimit ← MemoryQuantity.parse memoryLimit
  return ⟨cpuRequest, cpuLimit, memoryRequest, memoryLimit, Dict.empty⟩

/-- The profile with everything that `overrides` sets taken from there. -/
def mergedWith (p overrides : ResourceProfile) : ResourceProfile where
  cpuRequest := overrides.cpuRequest <|> p.cpuRequest
  cpuLimit := overrides.cpuLimit <|> p.cpuLimit
  memoryRequest := overrides.memoryRequest <|> p.memoryRequest
  memoryLimit := overrides.memoryLimit <|> p.memoryLimit
  nodeSelector := p.nodeSelector.overlay overrides.nodeSelector

/-- A request above its limit is worth a warning. -/
def warnings (p : ResourceProfile) : List String :=
  let cpu :=
    match p.cpuRequest, p.cpuLimit with
    | some r, some l =>
      if l.millis < r.millis then ["cpu request " ++ r.text ++ " exceeds limit " ++ l.text] else []
    | _, _ => []
  let memory :=
    match p.memoryRequest, p.memoryLimit with
    | some r, some l =>
      if l.bytes < r.bytes then ["memory request " ++ r.text ++ " exceeds limit " ++ l.text] else []
    | _, _ => []
  cpu ++ memory

/-- A request and a limit as one part of a listing. -/
def pairText (name : String) : Option String → Option String → List String
  | some r, some l => [name ++ "=" ++ r ++ "/" ++ l]
  | some r, none => [name ++ "=" ++ r]
  | none, some l => [name ++ "=-/" ++ l]
  | none, none => []

def display (p : ResourceProfile) : String :=
  let parts :=
    pairText "cpu" (p.cpuRequest.map (·.text)) (p.cpuLimit.map (·.text)) ++
    pairText "memory" (p.memoryRequest.map (·.text)) (p.memoryLimit.map (·.text)) ++
    p.nodeSelector.entries.map fun e => e.1 ++ "=" ++ e.2
  if parts.isEmpty then "default" else " ".intercalate parts

def decode? (d : Document) : Option ResourceProfile := do
  let fields ← d.asFields?
    ["cpu_request", "cpu_limit", "memory_request", "memory_limit", "node_selector"]
  let cpuRequest ← Fields.optional fields "cpu_request" CpuQuantity.decode?
  let cpuLimit ← Fields.optional fields "cpu_limit" CpuQuantity.decode?
  let memoryRequest ← Fields.optional fields "memory_request" MemoryQuantity.decode?
  let memoryLimit ← Fields.optional fields "memory_limit" MemoryQuantity.decode?
  let nodeSelector ← Fields.defaulted fields "node_selector" Dict.empty
    (Document.asDict? Document.asText?)
  return ⟨cpuRequest, cpuLimit, memoryRequest, memoryLimit, nodeSelector⟩

def encode (p : ResourceProfile) : Document :=
  .record (
    Document.optionalField "cpu_request" CpuQuantity.encode p.cpuRequest ++
    Document.optionalField "cpu_limit" CpuQuantity.encode p.cpuLimit ++
    Document.optionalField "memory_request" MemoryQuantity.encode p.memoryRequest ++
    Document.optionalField "memory_limit" MemoryQuantity.encode p.memoryLimit ++
    (if p.nodeSelector.isEmpty then [] else [("node_selector", .ofDict .text p.nodeSelector)]))

/-- A profile as a field of a record, left out when it asks for nothing. -/
def field (p : ResourceProfile) : List (String × Document) :=
  if p.isEmpty then [] else [("resources", p.encode)]

end ResourceProfile
end Workflow
