/-!
# Paths of files

A path is a text whose parts are separated by slashes. A path that begins with a slash is absolute.
-/
namespace Workflow.Path

def isAbsolute (p : String) : Bool := p.startsWith "/"

/-- A path below another. An absolute path stands for itself. -/
def join (base p : String) : String :=
  if isAbsolute p then p
  else if base.isEmpty || base.endsWith "/" then base ++ p
  else base ++ "/" ++ p

/-- The pieces of a text between the occurrences of a character. -/
def pieces (c : Char) (s : String) : List String := (s.toList.splitOn c).map String.ofList

/-- The parts of a path; empty parts and single points mean nothing. -/
def parts (p : String) : List String :=
  (pieces '/' p).filter fun s => s ≠ "" && s ≠ "."

/-- Follow the parts of a path from a place, given as its parts last first. -/
def follow : List String → List String → List String
  | place, [] => place
  | place, ".." :: rest => follow place.tail rest
  | place, part :: rest => follow (part :: place) rest

/-- The path from the root without points, as seen from a working directory. -/
def absolute (cwd p : String) : String :=
  let start := if isAbsolute p then [] else follow [] (parts cwd)
  "/" ++ "/".intercalate (follow start (parts p)).reverse

/-- The last part, unless it leads upward. -/
def fileName? (p : String) : Option String :=
  match (parts p).getLast? with
  | some ".." => none
  | last => last

/-- The path of the directory that holds a path. -/
def parent (p : String) : String :=
  let joined := "/".intercalate (parts p).dropLast
  if isAbsolute p then "/" ++ joined else joined

/-- A path beside another, with a name of its own. -/
def withFileName (p name : String) : String := join (parent p) name

/-- What follows the last point of a file name that does not begin with it. -/
def extension? (p : String) : Option String := do
  let name ← fileName? p
  match pieces '.' name with
  | [_] => none
  | ["", _] => none
  | segments => segments.getLast?

end Workflow.Path
