import LineShell.Literal.Fault

/-!
Errors: what went wrong, where, and the wording of the message.
-/

namespace LineShell

inductive Cause where
  | unexpectedToken (token : Char)
  | unclosedDelimiter (delimiter : Char)
  | memberNotFound (name : String)
  | unknownReference (name : String)
  | malformedLiteral (fault : Literal.Fault)
  | argumentCountMismatch (name : String) (expected found : Nat)
deriving DecidableEq

/-- A cause and the byte offset it is reported at. -/
structure Error where
  cause : Cause
  position : Nat
deriving DecidableEq

def Cause.message : Cause → String
  | unexpectedToken token => "Unexpected token: " ++ String.singleton token ++ "."
  | unclosedDelimiter delimiter =>
    "Delimiter '" ++ String.singleton delimiter ++ "' is never closed."
  | memberNotFound name => "Member '" ++ name ++ "' not found."
  | unknownReference name => "Unknown reference '" ++ name ++ "'."
  | malformedLiteral fault => "Malformed literal: " ++ fault.message ++ "."
  | argumentCountMismatch name expected found =>
    "'" ++ name ++ "' expects at least " ++ Nat.repr expected ++ " argument(s), found " ++
      Nat.repr found ++ "."

def Error.message (e : Error) : String :=
  "Error at position " ++ Nat.repr e.position ++ ": " ++ e.cause.message

end LineShell
