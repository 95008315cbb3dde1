import LineShell.Character

/-!
The pieces a line is scanned into.
-/

namespace LineShell

/-- Something together with the byte offset where it begins. -/
structure Located (α : Type) where
  item : α
  position : Nat
deriving DecidableEq

inductive Lexeme where
  /-- Blanks between two operands. -/
  | space
  /-- A name or a number. -/
  | name (text : String)
  /-- A delimited text, not read yet, with what it ends in and what it is to be read as. -/
  | capture (shape : Shape) (closing : Char) (text : String)
  | operator (op : Operator)
deriving DecidableEq

end LineShell
