import LineShell.Entry
import LineShell.Lexeme
import LineShell.Text.Blank

/-!
Tokens: lexemes, and what they become when they are resolved.
-/

namespace LineShell

/-- Where a reference found its entry. -/
inductive Binding where
  | environment
  | member
deriving DecidableEq

inductive Token where
  | lexeme (lexeme : Lexeme)
  | reference (name : String) (shared : Shared) (binding : Binding)
  | function (callable : Callable)
  | literal (value : Value)

namespace Token

abbrev name (text : String) : Token := lexeme (.name text)

abbrev operator (op : Operator) : Token := lexeme (.operator op)

/-- The name a token can be assigned to or looked up by. -/
def bareName? : Token → Option String
  | lexeme (.name text) => some (Text.trim text)
  | reference name _ .environment => some name
  | _ => none

def text : Token → String
  | lexeme .space => " "
  | lexeme (.name text) => text
  | lexeme (.capture _ _ text) => text
  | lexeme (.operator op) => op.symbol
  | reference name _ _ => name
  | function callable => callable.name
  | literal value => value.text

end Token
end LineShell
