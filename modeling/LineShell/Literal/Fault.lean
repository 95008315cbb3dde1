import LineShell.Literal.Token

/-!
What can be wrong with a literal, the expression inside brackets.
-/

namespace LineShell.Literal

/-- Why a text is no literal. -/
inductive Fault where
  /-- No token begins at this offset. -/
  | unrecognized (offset : Nat)
  | expectedValue
  | unexpected (token : Token)
  | unexpectedEnd
  | invalidKey (token : Token)
  | expectedColon (key : String)
deriving DecidableEq

def Fault.message : Fault → String
  | unrecognized offset => "unrecognized text at offset " ++ Nat.repr offset
  | expectedValue => "expected a value"
  | unexpected token => "unexpected " ++ token.text
  | unexpectedEnd => "unexpected end of literal"
  | invalidKey token => "invalid object key " ++ token.text
  | expectedColon key => "expected ':' after key '" ++ key ++ "'"

end LineShell.Literal
