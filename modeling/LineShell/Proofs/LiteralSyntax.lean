import LineShell.Literal.Parser

/-!
Literals as they are written, what they denote given what names stand for, and a reader that takes
their tokens one at a time and keeps the lists that are still open. The reader asks no environment:
a name is read as a name.
-/

namespace LineShell

/-- A literal as written. A name stands for the value bound to it. -/
inductive Literal where
  | undefined
  | null
  | bool (value : Bool)
  | integer (value : Int64)
  | real (value : Double)
  | string (value : String)
  | name (identifier : String)
  | tuple (items : List Literal)
  | array (items : List Literal)
  | object (members : List (String × Literal))

namespace Literal

mutual

def value (lookup : String → Value) : Literal → Value
  | .undefined => .undefined
  | .null => .null
  | .bool value => .bool value
  | .integer value => .integer value
  | .real value => .real value
  | .string value => .string value
  | .name identifier => lookup identifier
  | .tuple items => .tuple (itemValues lookup items)
  | .array items => .array (itemValues lookup items)
  | .object members => .object (memberValues lookup members)

def itemValues (lookup : String → Value) : List Literal → List Value
  | [] => []
  | item :: rest => value lookup item :: itemValues lookup rest

def memberValues (lookup : String → Value) : List (String × Literal) → List (String × Value)
  | [] => []
  | (key, item) :: rest => (key, value lookup item) :: memberValues lookup rest

end

theorem item_values_map (lookup : String → Value) (items : List Literal) :
    itemValues lookup items = items.map (value lookup) := by
  induction items with
  | nil => rw [itemValues, List.map_nil]
  | cons item rest induction => rw [itemValues, List.map_cons, induction]

theorem member_values_map (lookup : String → Value) (members : List (String × Literal)) :
    memberValues lookup members = members.map fun member => (member.1, value lookup member.2) := by
  induction members with
  | nil => rw [memberValues, List.map_nil]
  | cons member rest induction => rw [memberValues, List.map_cons, induction]

theorem tuple_value (lookup : String → Value) (items : List Literal) :
    (Literal.tuple items).value lookup = .tuple (items.map (value lookup)) := by
  rw [value, item_values_map]

theorem array_value (lookup : String → Value) (items : List Literal) :
    (Literal.array items).value lookup = .array (items.map (value lookup)) := by
  rw [value, item_values_map]

theorem object_value (lookup : String → Value) (members : List (String × Literal)) :
    (Literal.object members).value lookup =
      .object (members.map fun member => (member.1, value lookup member.2)) := by
  rw [value, member_values_map]

/-- A list whose end has not come, with what it holds so far, the last first. -/
inductive OpenList where
  | tuple (items : List Literal)
  | array (items : List Literal)
  | object (members : List (String × Literal))

/-- An open list that waits for a value. -/
inductive Slot where
  | tuple (items : List Literal)
  | array (items : List Literal)
  | object (members : List (String × Literal)) (key : String)

def OpenList.close : OpenList → Literal
  | tuple items => .tuple items.reverse
  | array items => .array items.reverse
  | object members => .object members.reverse

def OpenList.bracket : OpenList → Token
  | tuple _ => .rightParen
  | array _ => .rightBracket
  | object _ => .rightBrace

def Slot.fill (item : Literal) : Slot → OpenList
  | tuple items => .tuple (item :: items)
  | array items => .array (item :: items)
  | object members key => .object ((key, item) :: members)

inductive Expectation where
  /-- An element, or the end of the list. -/
  | element (list : OpenList)
  | colon (members : List (String × Literal)) (key : String)
  | value (members : List (String × Literal)) (key : String)
  /-- A comma, or the end of the list. -/
  | separator (list : OpenList)

structure Reader where
  innermost : Expectation
  outer : List Slot

namespace Reader

def close? (list : OpenList) (outer : List Slot) (token : Token) : Option Reader :=
  match outer with
  | [] => none
  | slot :: rest =>
    if token = list.bracket then some ⟨.separator (slot.fill list.close), rest⟩ else none

/-- Begins a value: an atom fills its slot at once, a bracket opens a list. -/
def begin (slot : Slot) (outer : List Slot) (token : Token) : Except Fault Reader :=
  let atom (item : Literal) : Except Fault Reader := .ok ⟨.separator (slot.fill item), outer⟩
  match token with
  | .integer value => atom (.integer value)
  | .real value => atom (.real value)
  | .bool value => atom (.bool value)
  | .null => atom .null
  | .undefined => atom .undefined
  | .string value => atom (.string value)
  | .identifier identifier => atom (.name identifier)
  | .leftParen => .ok ⟨.element (.tuple []), slot :: outer⟩
  | .leftBracket => .ok ⟨.element (.array []), slot :: outer⟩
  | .leftBrace => .ok ⟨.element (.object []), slot :: outer⟩
  | token => .error (.unexpected token)

def beginElement (list : OpenList) (outer : List Slot) (token : Token) : Except Fault Reader :=
  match list, token with
  | .tuple items, token => begin (.tuple items) outer token
  | .array items, token => begin (.array items) outer token
  | .object members, .identifier key => .ok ⟨.colon members key, outer⟩
  | .object members, .string key => .ok ⟨.colon members key, outer⟩
  | .object _, token => .error (.invalidKey token)

def step (r : Reader) (token : Token) : Except Fault Reader :=
  match r.innermost with
  | .element list =>
    match close? list r.outer token with
    | some next => .ok next
    | none => beginElement list r.outer token
  | .colon members key =>
    if token = .colon then .ok ⟨.value members key, r.outer⟩ else .error (.expectedColon key)
  | .value members key => begin (.object members key) r.outer token
  | .separator list =>
    match close? list r.outer token with
    | some next => .ok next
    | none => if token = .comma then .ok ⟨.element list, r.outer⟩ else .error (.unexpected token)

def finish (r : Reader) : Except Fault Literal :=
  match r.innermost, r.outer with
  | .element list, [] => .ok list.close
  | .separator list, [] => .ok list.close
  | .element (.object _), _ :: _ => .error .unexpectedEnd
  | .element _, _ :: _ => .error .expectedValue
  | .separator _, _ :: _ => .error .unexpectedEnd
  | .colon _ key, _ => .error (.expectedColon key)
  | .value .., _ => .error .expectedValue

def steps (r : Reader) (tokens : List Token) : Except Fault Reader := tokens.foldlM step r

/-- What comes of the tokens from a state on, and of the offset where no token begins after them, if
there is one. -/
def result (stuck : Option Nat) (r : Reader) (tokens : List Token) : Except Fault Literal :=
  match steps r tokens, stuck with
  | .error fault, _ => .error fault
  | .ok _, some offset => .error (.unrecognized offset)
  | .ok last, none => last.finish

def read (list : OpenList) (tokens : List Token) (stuck : Option Nat) : Except Fault Literal :=
  result stuck ⟨.element list, []⟩ tokens

end Reader

/-- The literal that a delimited text writes. A text in quotes always writes a string. -/
def read (shape : Shape) (raw : String) : Except Fault Literal :=
  let lexed := lex raw
  let tokens := lexed.tokens.map Spanned.token
  match shape with
  | .string => .ok (.string (Text.unescape raw))
  | .tuple => Reader.read (.tuple []) tokens lexed.fault
  | .array => Reader.read (.array []) tokens lexed.fault
  | .object => Reader.read (.object []) tokens lexed.fault

end Literal

end LineShell
