import Workflow.Text.Digits
import Workflow.Text.Hidden

/-!
# Quoted texts

Texts inside conditions and listings are shown between double quotes. Quotes and backslashes are
escaped, the usual control characters have short escapes, and every other character that would not
be visible is shown by its code point.
-/
namespace Workflow

/-- A character as it stands inside quotes. -/
def quotedChar (c : Char) : String :=
  match c with
  | '\t' => "\\t"
  | '\r' => "\\r"
  | '\n' => "\\n"
  | '"' => "\\\""
  | '\\' => "\\\\"
  | '\x00' => "\\0"
  | _ =>
    let hidden := if c.toNat < 0x80 then c.toNat < 0x20 || c.toNat == 0x7F else isHidden c
    if hidden then "\\u\x7b" ++ hexText c.toNat ++ "\x7d" else String.singleton c

/-- The characters between the quotes. -/
def quotedBody (s : String) : String := String.join (s.toList.map quotedChar)

def quoted (s : String) : String := "\"" ++ quotedBody s ++ "\""

/-- A list of quoted texts between brackets. -/
def quotedList (texts : List String) : String :=
  "[" ++ ", ".intercalate (texts.map quoted) ++ "]"

end Workflow
