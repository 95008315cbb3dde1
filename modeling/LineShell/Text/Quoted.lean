import LineShell.Text.Unprintable
import LineShell.Text.Extending

/-!
Text in double quotes as values show it: the quote, the backslash and the common controls have
two-character escapes, and a character that would not show, or would attach to its neighbour, is
written by its code point in braces.
-/

namespace LineShell.Text

/-- The digits of a code point in base sixteen, lower case, without leading zeros. -/
def hexDigits (code : Nat) : List Char := Nat.toDigits 16 code

def quotedChar (c : Char) : List Char :=
  match c with
  | '\x00' => ['\\', '0']
  | '\t' => ['\\', 't']
  | '\r' => ['\\', 'r']
  | '\n' => ['\\', 'n']
  | '"' => ['\\', '"']
  | '\\' => ['\\', '\\']
  | c =>
    if isExtending c || isUnprintable c then
      ['\\', 'u', '{'] ++ hexDigits c.toNat ++ ['}']
    else
      [c]

def quoted (s : String) : String :=
  String.ofList ('"' :: s.toList.flatMap quotedChar ++ ['"'])

end LineShell.Text
