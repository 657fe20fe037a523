import Workflow.Json.Read
import Workflow.Store.Basic
import Workflow.Tracker.Files

/-!
# A manifest store in files

A manifest is kept in a JSON document whose directory is named by the first two characters of its
digest and whose name is the rest. A document whose manifest has another digest counts as missing
and is removed when it is found.
-/
namespace Workflow

structure FileStore where
  root : String
  deriving DecidableEq, Repr

namespace FileStore

open FileTracker (Disk onDisk andThen)

/-- A digest is 64 lower-case hexadecimal digits. -/
def isDigest (s : String) : Bool :=
  s.length = 64 && s.toList.all fun c => isAsciiDigit c || ('a' ≤ c && c ≤ 'f')

def entryPath (s : FileStore) (digest : String) : String :=
  let cs := digest.toList
  Path.join (Path.join s.root (String.ofList (cs.take 2))) (String.ofList (cs.drop 2) ++ ".json")

/-- The path at which an entry is written before it is complete; `tag` makes it differ from others. -/
def draftPath (s : FileStore) (tag digest : String) : String :=
  let cs := digest.toList
  Path.join (Path.join s.root (String.ofList (cs.take 2)))
    (String.ofList (cs.drop 2) ++ "." ++ tag ++ ".tmp")

def failure (what : String) (e : FileError) : Fault :=
  .cacheError ("Failed to " ++ what ++ ": " ++ e.message)

/-- A program for a step that must succeed. -/
def must (what : String) (s : FileStep) : FileProgram (Outcome Unit) := do
  match ← FileProgram.tryStep s with
  | .ok () => return .ok ()
  | .error e => return .error (failure what e)

/-- Make the directory of the store. -/
def prepare (s : FileStore) : FileProgram (Outcome Unit) := do
  if ← FileProgram.exists? s.root then return .ok ()
  else must "create manifest store" (.makeDirectories s.root)

def get? (s : FileStore) (digest : String) : FileProgram (Outcome (Option Manifest)) := do
  if ¬ isDigest digest then return .ok none
  let path := s.entryPath digest
  if ¬ (← FileProgram.exists? path) then return .ok none
  match ← FileProgram.readText path with
  | .error e => return .error (failure "read stored manifest" e)
  | .ok text =>
    match (Json.read? text).bind StoredEntry.decode? with
    | none => return .error (.cacheError "Failed to parse stored manifest")
    | some entry =>
      if entry.manifest.digest = digest then return .ok (some entry.manifest)
      else
        -- a damaged entry is removed and counts as missing
        let _ ← FileProgram.tryStep (.unlink path)
        return .ok none

def put (s : FileStore) (tag : String) (m : Manifest) (now : Instant) :
    FileProgram (Outcome String) := do
  let digest := m.digest
  let path := s.entryPath digest
  -- whatever is at the path is taken for the manifest
  if ← FileProgram.exists? path then return .ok digest
  let entry : StoredEntry := ⟨now, digest, m⟩
  let temporary := s.draftPath tag digest
  andThen (must "create store directory" (.makeDirectories (Path.parent path))) fun () =>
  andThen (must "write manifest" (.write temporary (Json.pretty entry.encode))) fun () => do
    match ← FileProgram.tryStep (.rename temporary path) with
    | .ok () => return .ok digest
    | .error e =>
      let _ ← FileProgram.tryStep (.unlink temporary)
      return .error (failure "write manifest" e)

def remove (s : FileStore) (digest : String) : FileProgram (Outcome Unit) := do
  if ¬ isDigest digest then return .ok ()
  let path := s.entryPath digest
  if ← FileProgram.exists? path then must "remove manifest" (.unlink path) else return .ok ()

def clear (s : FileStore) : FileProgram (Outcome Unit) := do
  if ← FileProgram.exists? s.root then
    andThen (must "clear manifest store" (.removeAll s.root)) fun () =>
      must "recreate manifest store" (.makeDirectories s.root)
  else return .ok ()

/-- The entries in the directories of the store; what cannot be read is left out. -/
def entries (s : FileStore) : FileProgram (Outcome (List StoredEntry)) := do
  if ¬ (← FileProgram.exists? s.root) then return .ok []
  match ← FileProgram.listNames s.root with
  | .error e => return .error (failure "read manifest store" e)
  | .ok directories =>
    let found ← directories.mapM fun name => do
      let directory := Path.join s.root name
      match ← FileProgram.listNames directory with
      | .error _ => return []
      | .ok names =>
        let paths := (names.map (Path.join directory)).filter fun p =>
          Path.extension? p = some "json"
        let entries ← paths.mapM fun p => do
          match ← FileProgram.readText p with
          | .error _ => return none
          | .ok text => return (Json.read? text).bind StoredEntry.decode?
        return entries.filterMap fun e => e
    return .ok found.flatten

def store (s : FileStore) : ManifestStore Disk where
  get? digest := onDisk fun _ => s.get? digest
  store m now := onDisk fun tag => s.put tag m now
  remove digest := onDisk fun _ => s.remove digest
  clear := onDisk fun _ => s.clear
  list := do return newestFirst (← onDisk fun _ => s.entries)
  stats := do
    let entries ← onDisk fun _ => s.entries
    return .ofEntries (newestFirst entries) ((← get).tree.byteSize s.root)

end FileStore
end Workflow
