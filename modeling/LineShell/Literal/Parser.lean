import LineShell.Character
import LineShell.Environment
import LineShell.Literal.Lexer

/-!
Literals in an environment, by recursive descent over their tokens. A list is a row of values with
single commas between them and at most one at its end; the members of an object are such a row of
keys, colons and values. The outermost list ends with the text and a nested one with its closing
bracket. A name is looked up where it is met.
-/

namespace LineShell

namespace Literal

namespace Descent

/-- What is left of the tokens. -/
abbrev Rest (tokens : List Token) := { rest : List Token // rest.length ≤ tokens.length }

/-- What is left of the tokens once some were taken. -/
abbrev Shorter (tokens : List Token) := { rest : List Token // rest.length < tokens.length }

/-- A parser of one element, for at most so many tokens. -/
abbrev Element (α : Type) (bound : Nat) :=
  (tokens : List Token) → tokens.length ≤ bound → Except Fault (α × Shorter tokens)

-- The tokens are followed by the offset where no further token begins, if there is one.
variable (stuck : Option Nat)

/-- The next token, if there is one. -/
def next? (tokens : List Token) : Except Fault (Option (Token × Shorter tokens)) :=
  match tokens, stuck with
  | token :: rest, _ => .ok (some (token, ⟨rest, Nat.lt_succ_self rest.length⟩))
  | [], some offset => .error (.unrecognized offset)
  | [], none => .ok none

/-- Whether a list ends here: at its closing bracket, or at the end of the text if it has none. -/
def atEnd (closing : Option Token) (tokens : List Token) : Bool :=
  match closing with
  | some bracket => tokens.head? == some bracket
  | none => tokens.isEmpty && stuck.isNone

/-- Ends a list with what it holds. -/
def finish {α : Type} (closing : Option Token) (held : List α) (tokens : List Token) :
    Except Fault (List α × Rest tokens) := do
  match closing, ← next? stuck tokens with
  | some bracket, some (token, rest) =>
    if token = bracket then .ok (held, ⟨rest.val, Nat.le_of_lt rest.property⟩)
    else .error (.unexpected token)
  | some _, none => .error .unexpectedEnd
  | none, some (token, _) => .error (.unexpected token)
  | none, none => .ok (held, ⟨tokens, Nat.le_refl _⟩)

/-- The elements of a list, up to its end. -/
def parseList {α : Type} {bound : Nat} (element : Element α bound) (closing : Option Token)
    (tokens : List Token) (within : tokens.length ≤ bound) :
    Except Fault (List α × Rest tokens) := do
  if atEnd stuck closing tokens then finish stuck closing [] tokens
  else
    match ← element tokens within with
    | (item, ⟨.comma :: rest, shorter⟩) =>
      have fewer : rest.length ≤ tokens.length := Nat.le_of_lt (Nat.lt_of_succ_lt shorter)
      let (items, left) ← parseList element closing rest (Nat.le_trans fewer within)
      .ok (item :: items, ⟨left.val, Nat.le_trans left.property fewer⟩)
    | (item, rest) =>
      let (items, left) ← finish stuck closing [item] rest.val
      .ok (items, ⟨left.val, Nat.le_trans left.property (Nat.le_of_lt rest.property)⟩)
termination_by tokens.length
decreasing_by exact Nat.lt_of_succ_lt shorter

/-- The key of a member, with the colon after it. -/
def parseKey (tokens : List Token) : Except Fault (String × Shorter tokens) := do
  let some (token, rest) ← next? stuck tokens | .error .unexpectedEnd
  let some key := token.key? | .error (.invalidKey token)
  let some (.colon, left) ← next? stuck rest.val | .error (.expectedColon key)
  .ok (key, ⟨left.val, Nat.lt_trans left.property rest.property⟩)

/-- A member: its key, and then its value. -/
def parseMember {bound : Nat} (value : Element Value bound) : Element (String × Value) bound :=
  fun tokens within => do
    let (key, rest) ← parseKey stuck tokens
    let (item, left) ← value rest.val (Nat.le_trans (Nat.le_of_lt rest.property) within)
    .ok ((key, item), ⟨left.val, Nat.lt_trans left.property rest.property⟩)

def parseValue (env : Environment) (tokens : List Token) :
    Except Fault (Value × Shorter tokens) := do
  let some (token, rest) ← next? stuck tokens | .error .expectedValue
  let nested : Element Value rest.val.length := fun inner _ => parseValue env inner
  match token with
  | .integer value => .ok (.integer value, rest)
  | .real value => .ok (.real value, rest)
  | .bool value => .ok (.bool value, rest)
  | .null => .ok (.null, rest)
  | .undefined => .ok (.undefined, rest)
  | .string value => .ok (.string value, rest)
  | .identifier identifier => .ok (env.sourceOf identifier, rest)
  | .leftParen =>
    let (items, left) ← parseList stuck nested (some .rightParen) rest.val (Nat.le_refl _)
    .ok (.tuple items, ⟨left.val, Nat.lt_of_le_of_lt left.property rest.property⟩)
  | .leftBracket =>
    let (items, left) ← parseList stuck nested (some .rightBracket) rest.val (Nat.le_refl _)
    .ok (.array items, ⟨left.val, Nat.lt_of_le_of_lt left.property rest.property⟩)
  | .leftBrace =>
    let (members, left) ←
      parseList stuck (parseMember stuck nested) (some .rightBrace) rest.val (Nat.le_refl _)
    .ok (.object members, ⟨left.val, Nat.lt_of_le_of_lt left.property rest.property⟩)
  | .rightParen | .rightBracket | .rightBrace | .comma | .colon => .error (.unexpected token)
termination_by tokens.length
decreasing_by exact Nat.lt_of_le_of_lt ‹inner.length ≤ rest.val.length› rest.property

end Descent

open Descent

/-- The value of a delimited text in an environment. A text in quotes always is a string. -/
def parse (env : Environment) (shape : Shape) (raw : String) : Except Fault Value :=
  let stuck := (lex raw).fault
  let tokens := (lex raw).tokens.map Spanned.token
  let value : Element Value tokens.length := fun inner _ => parseValue stuck env inner
  match shape with
  | .string => .ok (.string (Text.unescape raw))
  | .tuple => do
    let (items, _) ← parseList stuck value none tokens (Nat.le_refl _)
    .ok (.tuple items)
  | .array => do
    let (items, _) ← parseList stuck value none tokens (Nat.le_refl _)
    .ok (.array items)
  | .object => do
    let (members, _) ← parseList stuck (parseMember stuck value) none tokens (Nat.le_refl _)
    .ok (.object members)

end Literal

/-- The value of a delimited text; a fault is reported at the given position. -/
def Environment.valueOf (env : Environment) (shape : Shape) (raw : String) (position : Nat) :
    Except Error Value :=
  match Literal.parse env shape raw with
  | .ok value => .ok value
  | .error fault => .error ⟨.malformedLiteral fault, position⟩

end LineShell
