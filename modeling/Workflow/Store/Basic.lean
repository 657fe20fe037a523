import Workflow.Manifest.Basic
import Workflow.Number.Places
import Workflow.Time.Instant
import Workflow.Tracker.Basic

/-!
# Manifest stores

A store keeps manifests under their digests, so that runs can refer to them. `ManifestStore σ` lists
the operations of a store whose state is a `σ`.
-/
namespace Workflow

/-- A stored manifest with the time at which it was stored. -/
structure StoredEntry where
  storedAt : Instant
  digest : String
  manifest : Manifest
  deriving Repr

/-- What a listing shows of a stored manifest. -/
structure StoredManifest where
  digest : String
  pipeline : String
  nodes : Nat
  storedAt : Instant
  deriving DecidableEq, Repr

namespace StoredEntry

def summary (e : StoredEntry) : StoredManifest :=
  ⟨e.digest, e.manifest.name, e.manifest.nodes.length, e.storedAt⟩

/-- A point in time as seconds and nanoseconds; a thousand million of these are a second. -/
def decodeTime? (d : Document) : Option Instant := do
  let names := ["secs_since_epoch", "nanos_since_epoch"]
  let known (d : Document) : Bool :=
    match d with
    | .mapping entries => entries.all fun e => (e.1.asText?).any names.contains
    | _ => true
  if ¬ known d then none
  else
    let fields ← d.asFields? names
    let seconds ← Fields.required fields "secs_since_epoch" Document.asNat?
    let nanos ← Fields.required fields "nanos_since_epoch" Document.asNat?
    if Nat.pow 2 32 ≤ nanos || Nat.pow 2 63 ≤ seconds + nanos / Instant.billion then none
    else some ⟨((seconds + nanos / Instant.billion : Nat) : Int), nanos % Instant.billion⟩

def encodeTime (t : Instant) : Document :=
  .record [("secs_since_epoch", .int t.seconds), ("nanos_since_epoch", .int t.nanos)]

def decode? (d : Document) : Option StoredEntry := do
  let fields ← d.asFields? ["timestamp", "digest", "manifest"]
  let storedAt ← Fields.required fields "timestamp" decodeTime?
  let digest ← Fields.required fields "digest" Document.asText?
  let manifest ← Fields.required fields "manifest" Manifest.decode?
  return ⟨storedAt, digest, manifest⟩

def encode (e : StoredEntry) : Document :=
  .record [("timestamp", encodeTime e.storedAt), ("digest", .text e.digest),
    ("manifest", e.manifest.encode)]

end StoredEntry

/-- Stored manifests, the newest first. -/
def newestFirst (entries : List StoredEntry) : List StoredManifest :=
  (entries.map (·.summary)).mergeSort fun a b => ¬ a.storedAt.before b.storedAt

structure StoreStats where
  entries : Nat
  sizeBytes : Nat
  oldest : Option Instant
  newest : Option Instant
  deriving DecidableEq, Repr

namespace StoreStats

def earlier (a b : Instant) : Instant := if b.before a then b else a

def later (a b : Instant) : Instant := if a.before b then b else a

/-- One of several instants, picked by comparing two at a time. -/
def pick? (choose : Instant → Instant → Instant) : List Instant → Option Instant
  | [] => none
  | t :: rest => some (rest.foldl choose t)

def ofEntries (entries : List StoredManifest) (sizeBytes : Nat) : StoreStats :=
  let times := entries.map (·.storedAt)
  ⟨entries.length, sizeBytes, pick? earlier times, pick? later times⟩

end StoreStats

/-- A number of bytes in the largest unit that it reaches. -/
def sizeText (bytes : Nat) : String :=
  let scaled (shift : Nat) (unit : String) : String :=
    (Binary64.ofInt bytes / Binary64.ofInt (Nat.pow 2 shift : Nat)).fixedText 2 ++ " " ++ unit
  if Nat.pow 2 30 ≤ bytes then scaled 30 "GB"
  else if Nat.pow 2 20 ≤ bytes then scaled 20 "MB"
  else if Nat.pow 2 10 ≤ bytes then scaled 10 "KB"
  else toString bytes ++ " bytes"

/-- The operations of a manifest store. -/
structure ManifestStore (σ : Type) where
  get? (digest : String) : Stateful σ (Option Manifest)
  /-- Store a manifest unless it is stored, and give its digest. -/
  store (m : Manifest) (now : Instant) : Stateful σ String
  remove (digest : String) : Stateful σ Unit
  clear : Stateful σ Unit
  list : Stateful σ (List StoredManifest)
  stats : Stateful σ StoreStats

namespace ManifestStore

def fetch {σ : Type} (s : ManifestStore σ) (digest : String) : Stateful σ Manifest := do
  match ← s.get? digest with
  | some m => return m
  | none => throw (.manifestNotFound digest)

end ManifestStore
end Workflow
