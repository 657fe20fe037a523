import Workflow.Data.Dict
import Workflow.Storage.Path

/-!
# File trees

A `FileTree` is a set of files and directories by absolute path. Its operations are the single steps
that a file system carries out at once; those that fail say why.
-/
namespace Workflow

/-- Why a step on files fails. -/
inductive FileError where
  | notFound
  | alreadyExists
  | isDirectory
  | notDirectory
  | directoryNotEmpty
  deriving DecidableEq, Repr

namespace FileError

def message : FileError → String
  | notFound => "No such file or directory (os error 2)"
  | alreadyExists => "File exists (os error 17)"
  | isDirectory => "Is a directory (os error 21)"
  | notDirectory => "Not a directory (os error 20)"
  | directoryNotEmpty => "Directory not empty (os error 39)"

end FileError

inductive FileEntry where
  | file (content : String)
  | directory
  deriving DecidableEq, Repr

/-- Files and directories by absolute path, and the directory from which relative paths start. -/
structure FileTree where
  entries : Dict FileEntry
  cwd : String
  deriving Repr

namespace FileTree

def empty (cwd : String) : FileTree := ⟨Dict.ofList [("/", .directory)], cwd⟩

instance : Inhabited FileTree := ⟨empty "/"⟩

def at? (t : FileTree) (path : String) : Option FileEntry :=
  t.entries.get? (Path.absolute t.cwd path)

def isFile (t : FileTree) (path : String) : Bool :=
  match t.at? path with
  | some (.file _) => true
  | _ => false

def isDirectory (t : FileTree) (path : String) : Bool := t.at? path = some .directory

def exists? (t : FileTree) (path : String) : Bool := (t.at? path).isSome

/-- A directory must hold the entry that is written. -/
def parentError? (t : FileTree) (path : String) : Option FileError :=
  match t.entries.get? (Path.parent (Path.absolute t.cwd path)) with
  | some .directory => none
  | some (.file _) => some .notDirectory
  | none => some .notFound

def put (t : FileTree) (path : String) (e : FileEntry) : FileTree :=
  { t with entries := t.entries.insert (Path.absolute t.cwd path) e }

def drop (t : FileTree) (path : String) : FileTree :=
  { t with entries := t.entries.erase (Path.absolute t.cwd path) }

def read (t : FileTree) (path : String) : Except FileError String :=
  match t.at? path with
  | some (.file content) => .ok content
  | some .directory => .error .isDirectory
  | none =>
    match t.parentError? path with
    | some .notDirectory => .error .notDirectory
    | _ => .error .notFound

/-- Write a file whether it is there or not. -/
def write (t : FileTree) (path content : String) : Except FileError FileTree :=
  if t.isDirectory path then .error .isDirectory
  else
    match t.parentError? path with
    | some e => .error e
    | none => .ok (t.put path (.file content))

/-- Give a file a second name that is free. -/
def link (t : FileTree) (source target : String) : Except FileError FileTree :=
  match t.at? source with
  | none => .error .notFound
  | some e =>
    if t.exists? target then .error .alreadyExists
    else
      match t.parentError? target with
      | some f => .error f
      | none => .ok (t.put target e)

/-- Give a file another name, which may be that of a file. -/
def rename (t : FileTree) (source target : String) : Except FileError FileTree :=
  match t.at? source with
  | none => .error .notFound
  | some e =>
    if t.isDirectory target then .error .isDirectory
    else
      match t.parentError? target with
      | some f => .error f
      | none => .ok ((t.drop source).put target e)

def unlink (t : FileTree) (path : String) : Except FileError FileTree :=
  match t.at? path with
  | none => .error .notFound
  | some .directory => .error .isDirectory
  | some (.file _) => .ok (t.drop path)

/-- The part of a path after a directory, if the path is in it. -/
def below? (directory path : String) : Option String :=
  let start := if directory = "/" then "/" else directory ++ "/"
  if path.startsWith start && path ≠ start then some (path.drop start.length).toString else none

/-- The names in a directory, sorted. -/
def list (t : FileTree) (path : String) : Except FileError (List String) :=
  match t.at? path with
  | none => .error .notFound
  | some (.file _) => .error .notDirectory
  | some .directory =>
    let directory := Path.absolute t.cwd path
    .ok (t.entries.keys.filterMap fun p =>
      (below? directory p).filter fun name => ¬ name.toList.contains '/')

/-- Make the directories of a list of parts below a place. -/
def makeParts (t : FileTree) (place : String) : List String → Except FileError FileTree
  | [] => .ok t
  | part :: rest =>
    let path := Path.join place part
    match t.entries.get? path with
    | some (.file _) => .error (if rest.isEmpty then .alreadyExists else .notDirectory)
    | some .directory => makeParts t path rest
    | none => makeParts { t with entries := t.entries.insert path .directory } path rest

/-- Make a directory together with those that hold it. -/
def makeDirectories (t : FileTree) (path : String) : Except FileError FileTree :=
  t.makeParts "/" (Path.parts (Path.absolute t.cwd path))

def removeAll (t : FileTree) (path : String) : FileTree :=
  let directory := Path.absolute t.cwd path
  { t with entries := Dict.ofList (t.entries.entries.filter fun e =>
      e.1 ≠ directory && (below? directory e.1).isNone) }

/-- The number of bytes of all files in a directory, at any depth. -/
def byteSize (t : FileTree) (path : String) : Nat :=
  let directory := Path.absolute t.cwd path
  t.entries.entries.foldl (fun n e =>
    match e.2 with
    | .file content => if (below? directory e.1).isSome then n + content.utf8ByteSize else n
    | .directory => n) 0

end FileTree
end Workflow
