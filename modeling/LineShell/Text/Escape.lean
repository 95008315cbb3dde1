/-!
Backslash escapes of quoted text. A backslash before `n`, `t` or `r` stands for a line feed, a tab
or a carriage return; before any other character it stands for that character; at the end of the
text it stands for itself.
-/

namespace LineShell.Text

/-- The character that a backslash and `c` stand for. -/
def escaped : Char → Char
  | 'n' => '\n'
  | 't' => '\t'
  | 'r' => '\r'
  | c => c

def unescapeChars : List Char → List Char
  | [] => []
  | ['\\'] => ['\\']
  | '\\' :: c :: rest => escaped c :: unescapeChars rest
  | c :: rest => c :: unescapeChars rest

def unescape (s : String) : String := String.ofList (unescapeChars s.toList)

end LineShell.Text
