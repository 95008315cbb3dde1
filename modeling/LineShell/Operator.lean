/-!
Operators between operands, their symbols, and which two characters make one operator.
-/

namespace LineShell

inductive Operator where
  | dot
  | assign
  | add
  | subtract
  | multiply
  | divide
  | modulo
  | less
  | greater
  | ampersand
  | pipe
  | bang
  | equalEqual
  | bangEqual
  | greaterEqual
  | lessEqual
  | bangBang
  | both
  | either
deriving DecidableEq

namespace Operator

def symbol : Operator → String
  | dot => "."
  | assign => "="
  | add => "+"
  | subtract => "-"
  | multiply => "*"
  | divide => "/"
  | modulo => "%"
  | less => "<"
  | greater => ">"
  | ampersand => "&"
  | pipe => "|"
  | bang => "!"
  | equalEqual => "=="
  | bangEqual => "!="
  | greaterEqual => ">="
  | lessEqual => "<="
  | bangBang => "!!"
  | both => "&&"
  | either => "||"

/-- Whether the operator is written with two characters. -/
def isDouble (op : Operator) : Bool := op.symbol.length == 2

/-- Every operator of two characters: the operator its first character is alone, its second
character, and the operator both make. -/
def doubles : List (Operator × Char × Operator) := [
  (bang, '=', bangEqual),
  (assign, '=', equalEqual),
  (greater, '=', greaterEqual),
  (less, '=', lessEqual),
  (bang, '!', bangBang),
  (ampersand, '&', both),
  (pipe, '|', either)]

/-- How many operators of two characters begin with this one. -/
def doubleCount (first : Operator) : Nat :=
  doubles.countP fun row => row.1 == first

/-- The operator of two characters that `first` and the next character make, if any. -/
def join? (first : Operator) (next : Char) : Option Operator :=
  (doubles.find? fun row => row.1 == first && row.2.1 == next).map fun row => row.2.2

end Operator
end LineShell
