import Workflow.Storage.FileTree

/-!
# Programs of file steps

A program is a sequence of single steps on a file tree in which each step may depend on the replies
to the earlier ones. Between two steps of one program others may be carried out, so that programs
that share a tree can be interleaved; `run` carries one out alone.
-/
namespace Workflow

/-- A step that is carried out at once. -/
inductive FileStep where
  | read (path : String)
  | write (path content : String)
  | link (source target : String)
  | rename (source target : String)
  | unlink (path : String)
  | list (path : String)
  | makeDirectories (path : String)
  | removeAll (path : String)
  | probe (path : String)
  deriving DecidableEq, Repr

/-- The reply to a step. -/
inductive FileReply where
  | done
  | content (text : String)
  | names (names : List String)
  | answer (yes : Bool)
  | failed (e : FileError)
  deriving DecidableEq, Repr

namespace FileStep

/-- The reply to a change, with the tree after it. -/
def changed (t : FileTree) : Except FileError FileTree → FileReply × FileTree
  | .ok t => (.done, t)
  | .error e => (.failed e, t)

def perform (t : FileTree) : FileStep → FileReply × FileTree
  | .read path =>
    match t.read path with
    | .ok text => (.content text, t)
    | .error e => (.failed e, t)
  | .write path content => changed t (t.write path content)
  | .link source target => changed t (t.link source target)
  | .rename source target => changed t (t.rename source target)
  | .unlink path => changed t (t.unlink path)
  | .list path =>
    match t.list path with
    | .ok names => (.names names, t)
    | .error e => (.failed e, t)
  | .makeDirectories path => changed t (t.makeDirectories path)
  | .removeAll path => (.done, t.removeAll path)
  | .probe path => (.answer (t.exists? path), t)

end FileStep

/-- A program that gives a value in the end. -/
inductive FileProgram (α : Type) where
  | done (value : α)
  | step (s : FileStep) (next : FileReply → FileProgram α)

namespace FileProgram

variable {α β : Type}

/-- Carry out a program alone. -/
def run : FileProgram α → FileTree → α × FileTree
  | .done value, t => (value, t)
  | .step s next, t =>
    let (reply, t) := s.perform t
    (next reply).run t

def bind (p : FileProgram α) (f : α → FileProgram β) : FileProgram β :=
  match p with
  | .done value => f value
  | .step s next => .step s fun reply => (next reply).bind f

instance : Monad FileProgram where
  pure := .done
  bind := bind

/-- A program of a single step. -/
def once (s : FileStep) : FileProgram FileReply := .step s .done

/-- A step whose success is all that matters. -/
def tryStep (s : FileStep) : FileProgram (Except FileError Unit) := do
  match ← once s with
  | .failed e => pure (.error e)
  | _ => pure (.ok ())

def readText (path : String) : FileProgram (Except FileError String) := do
  match ← once (.read path) with
  | .content text => pure (.ok text)
  | .failed e => pure (.error e)
  | _ => pure (.error .notFound)

def listNames (path : String) : FileProgram (Except FileError (List String)) := do
  match ← once (.list path) with
  | .names names => pure (.ok names)
  | .failed e => pure (.error e)
  | _ => pure (.error .notFound)

def exists? (path : String) : FileProgram Bool := do
  match ← once (.probe path) with
  | .answer yes => pure yes
  | _ => pure false

end FileProgram
end Workflow
