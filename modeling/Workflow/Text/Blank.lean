/-!
# Blank characters

Surrounding blanks are ignored in quantities, command-line keys and shell output. Blank are the
characters with the Unicode property White_Space.
-/
namespace Workflow

def isBlank (c : Char) : Bool :=
  let n := c.toNat
  (9 ≤ n && n ≤ 13) || n == 0x20 || n == 0x85 || n == 0xA0 || n == 0x1680 ||
    (0x2000 ≤ n && n ≤ 0x200A) || n == 0x2028 || n == 0x2029 || n == 0x202F || n == 0x205F ||
    n == 0x3000

def trimBlanksLeft (cs : List Char) : List Char := cs.dropWhile isBlank

def trimBlanksRight (cs : List Char) : List Char := (cs.reverse.dropWhile isBlank).reverse

def trimBlanks (cs : List Char) : List Char := trimBlanksRight (trimBlanksLeft cs)

def trimText (s : String) : String := String.ofList (trimBlanks s.toList)

def isBlankText (s : String) : Bool := s.toList.all isBlank

end Workflow
