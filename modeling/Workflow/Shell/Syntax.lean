/-!
# The syntax of shell commands

A command line is a tree of commands whose leaves are lists of words. A word is made of parts, some
of which are put together only when the command is carried out.
-/
namespace Workflow.Shell

/-- What is done with the value of a parameter. `emptyToo` treats an empty value as missing. -/
inductive Treatment where
  | orElse (emptyToo : Bool)
  | orAssign (emptyToo : Bool)
  | orFail (emptyToo : Bool)
  | ifPresent (emptyToo : Bool)
  | withoutStart (longest : Bool)
  | withoutEnd (longest : Bool)
  deriving DecidableEq, Repr

/-- A part of a word. Quoted parts are kept as they are; others are split at blanks. -/
inductive WordPart where
  /-- Characters that stand for themselves. -/
  | text (s : String) (quoted : Bool)
  | parameter (name : String) (quoted : Bool)
  | lengthOf (name : String) (quoted : Bool)
  | treated (name : String) (t : Treatment) (word : List WordPart) (quoted : Bool)
  /-- The value of an arithmetic expression. -/
  | arithmetic (expression : List WordPart) (quoted : Bool)
  /-- What a command writes. -/
  | output (command : String) (quoted : Bool)

abbrev Word := List WordPart

/-- Where a stream leads. -/
inductive Redirection where
  | read (stream : Nat) (path : Word)
  | write (stream : Nat) (path : Word) (append : Bool)
  | duplicate (stream source : Nat)
  | here (stream : Nat) (content : Word)

inductive Command where
  /-- Assignments, then the name of a command and its arguments. -/
  | simple (line : Nat) (assignments : List (String × Word)) (words : List Word)
      (redirections : List Redirection)
  | pipeline (negated : Bool) (stages : List Command)
  | both (first second : Command)
  | either (first second : Command)
  | sequence (commands : List Command)
  | branch (condition yes no : Command)
  | loop (untilTrue : Bool) (condition body : Command)
  | each (name : String) (items : Option (List Word)) (body : Command)
  | choice (subject : Word) (arms : List (List Word × Command))
  | block (apart : Bool) (body : Command) (redirections : List Redirection)
  /-- A function of a name. -/
  | define (name : String) (body : Command)

def Command.nothing : Command := .sequence []

instance : Inhabited Command := ⟨.nothing⟩

/-- Why a text is not a command. -/
inductive SyntaxFault where
  | unterminatedQuote
  | unterminatedBackquote
  /-- Something, described by its sign, that should be another. -/
  | unexpected (sign : String) (expected : Option String)
  /-- Signs that should come before the end. -/
  | missing (signs : String)
  | badLoopVariable
  | badSubstitution
  deriving DecidableEq, Repr

namespace SyntaxFault

/-- The fault of a text that ends too early. -/
def atEnd (expected : Option String) : SyntaxFault := unexpected "end of file" expected

def message : SyntaxFault → String
  | unterminatedQuote => "Syntax error: Unterminated quoted string"
  | unterminatedBackquote => "Syntax error: EOF in backquote substitution"
  | unexpected sign expected =>
    "Syntax error: " ++ sign ++ " unexpected" ++
      expected.elim "" fun s => " (expecting " ++ s ++ ")"
  | missing signs => "Syntax error: Missing '" ++ signs ++ "'"
  | badLoopVariable => "Syntax error: Bad for loop variable"
  | badSubstitution => "Bad substitution"

end SyntaxFault

/-- Complete commands, each from the beginning of a line, and the fault of what follows them with
its line. -/
structure Script where
  commands : List Command
  fault : Option (SyntaxFault × Nat)
end Workflow.Shell
