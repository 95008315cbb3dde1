import LineShell.Number.Layout
import LineShell.Text.Quoted
import LineShell.Value.Basic

/-!
The text of values. A string shows as it is at the top and in quotes inside another value; the
keys of an object show as they are.
-/

namespace LineShell.Value

mutual

/-- The text of a value inside another. -/
def nestedText : Value → String
  | .undefined => "undefined"
  | .null => "null"
  | .bool true => "true"
  | .bool false => "false"
  | .integer value => integerText value
  | .real value => RealLayout.plain.text value
  | .string value => Text.quoted value
  | .tuple items => "(" ++ itemsText items ++ ")"
  | .array items => "[" ++ itemsText items ++ "]"
  | .object members => "\x7b" ++ membersText members ++ "\x7d"

def itemsText : List Value → String
  | [] => ""
  | [item] => nestedText item
  | item :: rest => nestedText item ++ ", " ++ itemsText rest

def membersText : List (String × Value) → String
  | [] => ""
  | [(key, item)] => key ++ ": " ++ nestedText item
  | (key, item) :: rest => key ++ ": " ++ nestedText item ++ ", " ++ membersText rest

end

def text : Value → String
  | .string value => value
  | value => nestedText value

end LineShell.Value
