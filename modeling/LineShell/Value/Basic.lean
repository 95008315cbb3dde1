import LineShell.Number.Double
import LineShell.Number.Numeral

/-!
Values: what expressions denote.
-/

namespace LineShell

inductive Value where
  | undefined
  | null
  | bool (value : Bool)
  | integer (value : Int64)
  | real (value : Double)
  | string (value : String)
  | tuple (items : List Value)
  | array (items : List Value)
  | object (members : List (String × Value))

namespace Value

def ofNumeral : Numeral → Value
  | .integer value => .integer value
  | .real value => .real value

/-- The value of the last member with this key; only objects have members. -/
def member? (value : Value) (key : String) : Option Value :=
  match value with
  | .object members => (members.reverse.find? fun entry => entry.1 == key).map fun entry => entry.2
  | _ => none

def tuple? : Value → Option (List Value)
  | .tuple items => some items
  | _ => none

mutual

/-- Equality of values. Reals compare as numbers, so a value with a NaN in it differs from
itself. -/
def beq : Value → Value → Bool
  | .undefined, .undefined => true
  | .null, .null => true
  | .bool a, .bool b => a == b
  | .integer a, .integer b => a == b
  | .real a, .real b => a.numericEq b
  | .string a, .string b => a == b
  | .tuple a, .tuple b => beqItems a b
  | .array a, .array b => beqItems a b
  | .object a, .object b => beqMembers a b
  | _, _ => false

def beqItems : List Value → List Value → Bool
  | [], [] => true
  | a :: as, b :: bs => beq a b && beqItems as bs
  | _, _ => false

def beqMembers : List (String × Value) → List (String × Value) → Bool
  | [], [] => true
  | (key, a) :: as, (other, b) :: bs => key == other && beq a b && beqMembers as bs
  | _, _ => false

end

instance : BEq Value := ⟨beq⟩

end Value
end LineShell
