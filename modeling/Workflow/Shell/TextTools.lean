import Workflow.Shell.FileTools
import Workflow.Shell.Regex

/-!
# Tools for texts
-/
namespace Workflow.Shell

/-- The value of an option that takes one, as part of it or after it, and the other arguments. -/
def optionValue (letter : Char) : List String → Option String × List String
  | [] => (none, [])
  | a :: rest =>
    let flag := "-" ++ String.singleton letter
    if a = flag then (rest.head?, rest.tail)
    else if a.startsWith flag then (some (a.drop 2).toString, rest)
    else
      let (value, rest) := optionValue letter rest
      (value, a :: rest)

/-- How many lines or bytes are asked for, and of which files. -/
def countAndPaths (arguments : List String) : String × Bool × List String :=
  match optionValue 'n' arguments, optionValue 'c' arguments with
  | (some n, paths), _ => (n, false, paths)
  | _, (some n, paths) => (n, true, paths)
  | _, _ =>
    match arguments with
    | a :: rest =>
      let digits := (a.drop 1).toString
      if a.startsWith "-" && (digits.toNat?).isSome then (digits, false, rest)
      else ("10", false, arguments)
    | [] => ("10", false, [])

/-- A text of whole lines. -/
def joinLines (lines : List String) : String := String.join (lines.map (· ++ "\n"))

def head : Tool := fun arguments => do
  let (count, bytes, paths) := countAndPaths arguments
  let (status, texts) ← readAll "head" paths
  let n := (count.toNat?).getD 10
  texts.forM fun text =>
    if bytes then put (textOfBytesTo n text)
    else put (joinLines ((linesOf text).take n))
  return status
where
  /-- The characters of a text that fit into so many bytes. -/
  textOfBytesTo (n : Nat) (text : String) : String :=
    String.ofList (text.toList.foldl (fun (acc : List Char × Nat) c =>
      if acc.2 + c.utf8Size ≤ n then (acc.1 ++ [c], acc.2 + c.utf8Size) else (acc.1, n)) ([], 0)).1

/-- The end of each file, or all from a line on. -/
def tail : Tool := fun arguments => do
  let (count, bytes, paths) := countAndPaths arguments
  let (status, texts) ← readAll "tail" paths
  texts.forM fun text =>
    let lines := linesOf text
    if bytes then
      let whole := text.toList
      put (String.ofList (whole.drop (whole.length - (count.toNat?).getD 0)))
    else if count.startsWith "+" then
      put (joinLines (lines.drop ((((count.drop 1).toString.toNat?).getD 1) - 1)))
    else put (joinLines (lines.drop (lines.length - (count.toNat?).getD 10)))
  return status

def wordCount : Tool := fun arguments => do
  let (options, paths) := splitOptions arguments
  let (status, texts) ← readAll "wc" paths
  let figures (text : String) : List (Char × Nat) :=
    [('l', text.toList.count '\n'),
      ('w', (text.splitToList Char.isWhitespace).countP fun w => ! w.isEmpty),
      ('m', text.length), ('c', text.utf8ByteSize)]
  let wanted (f : Char × Nat) : Bool :=
    if options.isEmpty then f.1 ≠ 'm' else options.contains f.1
  (texts.zip (if paths.isEmpty then [""] else paths)).forM fun (text, path) =>
    let numbers := ((figures text).filter wanted).map fun f => toString f.2
    let width := if paths.isEmpty && numbers.length > 1 then 7 else 1
    let padded := numbers.map fun n => String.ofList (List.replicate (width - n.length) ' ') ++ n
    putLine (" ".intercalate padded ++ if path.isEmpty then "" else " " ++ path)
  return status

/-- The characters of a set, with ranges and escapes. -/
def charactersOf : Nat → List Char → List Char
  | 0, _ | _, [] => []
  | fuel + 1, '[' :: ':' :: rest =>
    let name := rest.takeWhile (· ≠ ':')
    let members := (CharSet.namedClass (String.ofList name)).flatMap fun (a, b) => between a b
    members ++ charactersOf fuel (rest.drop (name.length + 2))
  | fuel + 1, '\\' :: 'n' :: rest => '\n' :: charactersOf fuel rest
  | fuel + 1, '\\' :: 't' :: rest => '\t' :: charactersOf fuel rest
  | fuel + 1, '\\' :: c :: rest => c :: charactersOf fuel rest
  | fuel + 1, a :: '-' :: b :: rest => between a b ++ charactersOf fuel rest
  | fuel + 1, c :: rest => c :: charactersOf fuel rest
where
  /-- The characters from one to another. -/
  between (a b : Char) : List Char :=
    (List.range (b.toNat + 1 - a.toNat)).map fun i => Char.ofNat (a.toNat + i)

/-- A text in which every run of one of some characters is a single one. -/
def squeeze (set : List Char) : List Char → List Char
  | a :: b :: rest =>
    if a = b && set.contains a then squeeze set (b :: rest) else a :: squeeze set (b :: rest)
  | cs => cs

/-- Replace, delete or squeeze characters of the input. -/
def translate : Tool := fun arguments => do
  let (options, sets) := splitOptions arguments
  let first := charactersOf (sets.headD "").length (sets.headD "").toList
  let second := charactersOf (sets.getD 1 "").length (sets.getD 1 "").toList
  let isIn (c : Char) : Bool := first.contains c != (options.contains 'c' || options.contains 'C')
  let text := (← takeInput).toList
  if options.contains 'd' then put (String.ofList (text.filter fun c => ! isIn c))
  else if sets.length < 2 then put (String.ofList (squeeze first text))
  else
    let replaced (c : Char) : Char :=
      if isIn c then
        ((first.findIdx? (· == c)).bind fun i => second[i]?).getD (second.getLastD c)
      else c
    let text := text.map replaced
    put (String.ofList (if options.contains 's' then squeeze second text else text))
  return 0

/-- The number at the beginning of a line. -/
def leadingNumber (line : String) : Int :=
  match (line.toList.dropWhile Char.isWhitespace) with
  | '-' :: rest => -(decimalValue (rest.takeWhile isAsciiDigit) : Int)
  | cs => decimalValue (cs.takeWhile isAsciiDigit)

def sortLines : Tool := fun arguments => do
  let (options, paths) := splitOptions arguments
  let (status, texts) ← readAll "sort" paths
  let ordered (a b : String) : Bool :=
    if options.contains 'n' && leadingNumber a ≠ leadingNumber b then
      leadingNumber a < leadingNumber b
    else a ≤ b
  let lines := (texts.flatMap linesOf).mergeSort ordered
  let lines := if options.contains 'u' then lines.eraseReps else lines
  put (joinLines (if options.contains 'r' then lines.reverse else lines))
  return status

/-- The texts of a line that an expression fits, one after the other. -/
def fittingParts (r : Regex) : Nat → List Char → List String
  | 0, _ => []
  | fuel + 1, cs =>
    match r.search 0 [] cs with
    | none => []
    | some (before, n, _) =>
      let rest := cs.drop before.length
      if n = 0 then fittingParts r fuel rest.tail
      else String.ofList (rest.take n) :: fittingParts r fuel (rest.drop n)

def grep : Tool := fun arguments => do
  let (options, rest) := splitOptions arguments
  match rest with
  | [] =>
    failWith 2 ("Usage: grep [OPTION]... PATTERNS [FILE]...\n" ++
      "Try 'grep --help' for more information.")
  | pattern :: paths =>
    let folded (s : String) : String := if options.contains 'i' then s.toLower else s
    let pattern := folded pattern
    let literal (cs : List Char) : Regex :=
      cs.foldl (fun r c => .both r (.char c)) .nothing
    let regex? :=
      if options.contains 'F' then some (literal pattern.toList)
      else Regex.ofChars? (options.contains 'E') pattern.toList
    match regex? with
    | none => failWith 2 "grep: malformed pattern"
    | some r =>
      let (status, texts) ← readAll "grep" paths
      let fits (line : String) : Bool :=
        (r.search 0 [] (folded line).toList).isSome != options.contains 'v'
      let all := texts.flatMap linesOf
      let lines := ((List.range all.length).zip all).filter fun l => fits l.2
      let shown (l : Nat × String) : List String :=
        let parts := if options.contains 'o' then fittingParts r l.2.length l.2.toList else [l.2]
        parts.map fun s => (if options.contains 'n' then toString (l.1 + 1) ++ ":" else "") ++ s
      if options.contains 'c' then putLine (toString lines.length)
      else if ! options.contains 'q' then put (joinLines (lines.flatMap shown))
      return if status ≠ 0 then 2 else if lines.isEmpty then 1 else 0

/-- Count from one number to another. -/
def sequence : Tool := fun arguments => do
  let count (first step last : Int) : Run Nat := do
    let n := if step = 0 then 0 else ((last - first).fdiv step + 1).toNat
    (List.range n).forM fun (i : Nat) => putLine (toString (first + step * i))
    return 0
  match arguments.mapM (·.toInt?) with
  | some [last] => count 1 1 last
  | some [first, last] => count first 1 last
  | some [first, step, last] => count first step last
  | _ =>
    match arguments.filter fun a => a.toInt?.isNone with
    | a :: _ => failWith 1 (withHint "seq" ("invalid floating point argument: '" ++ a ++ "'"))
    | [] => failWith 1 (withHint "seq" "missing operand")

/-- The places of a list such as `1,3-5`; the last ones may be open. -/
def placesOf (text : String) : Nat → Bool :=
  let ranges := (text.splitOn ",").map fun part =>
    match part.splitOn "-" with
    | [a, b] => ((a.toNat?).getD 1, b.toNat?)
    | _ => ((part.toNat?).getD 0, some ((part.toNat?).getD 0))
  fun n => ranges.any fun (a, b) => a ≤ n && b.all (n ≤ ·)

/-- Write some fields or characters of each line. -/
def cutLines : Tool := fun arguments => do
  let (delimiter, rest) := optionValue 'd' arguments
  let (fields, rest) := optionValue 'f' rest
  let (characters, paths) := optionValue 'c' rest
  let d := delimiter.getD "\t"
  let chosen {α : Type} (list : String) (items : List α) : List α :=
    (((List.range items.length).zip items).filter fun i => placesOf list (i.1 + 1)).map (·.2)
  let (status, texts) ← readAll "cut" paths
  let cutLine (line : String) : String :=
    match fields, characters with
    | some list, _ =>
      let parts := line.splitOn d
      if parts.length = 1 then line else d.intercalate (chosen list parts)
    | none, some list => String.ofList (chosen list line.toList)
    | none, none => line
  put (joinLines ((texts.flatMap linesOf).map cutLine))
  return status

/-- Write lines that repeat the one before only once. -/
def mergeRepeats : Tool := fun arguments => do
  let (options, paths) := splitOptions arguments
  let (status, texts) ← readAll "uniq" paths
  let runs := (texts.flatMap linesOf).splitBy (· == ·)
  put (joinLines (runs.map fun run =>
    let line := run.headD ""
    if options.contains 'c' then
      let count := toString run.length
      String.ofList (List.replicate (7 - count.length) ' ') ++ count ++ " " ++ line
    else line))
  return status

def baseName : Tool := fun arguments => do
  if arguments.isEmpty then return ← failWith 1 (withHint "basename" "missing operand")
  let name := (Path.fileName? (arguments.headD "")).getD (arguments.headD "")
  let ending := arguments.getD 1 ""
  putLine (if name ≠ ending && name.endsWith ending then (name.dropEnd ending.length).toString
    else name)
  return 0

def directoryName : Tool := fun arguments => do
  if arguments.isEmpty then return ← failWith 1 (withHint "dirname" "missing operand")
  let directory := Path.parent (arguments.headD "")
  putLine (if directory.isEmpty then "." else directory)
  return 0

end Workflow.Shell
