import LineShell.Literal.Parser
import LineShell.Token

/-!
Reducing tokens as they come. A new token is resolved first; then a function followed by a tuple
is called, and a receiver, a dot and a name are folded into the member.
-/

namespace LineShell

/-- The tokens not reduced away, the newest first. -/
abbrev Pending := List (Located Token)

/-- Whether the line goes on after a token. -/
inductive Progress where
  | proceed
  | invoked (value : Value)

/-- What became of a token, and the call it completed, if any. -/
structure Pushed where
  pending : Pending
  call : Option Call
  progress : Except Error Progress

namespace Token

/-- A name that is a number or is bound, and a delimited text, are replaced by what they mean. -/
def resolve (env : Environment) (position : Nat) : Token → Except Error Token
  | lexeme (.name text) =>
    let name := Text.trim text
    match Numeral.read name with
    | some numeral => .ok (literal (Value.ofNumeral numeral))
    | none =>
      match env.resolve? name with
      | some shared => .ok (reference name shared .environment)
      | none => .ok (lexeme (.name text))
  | lexeme (.capture shape _ text) =>
    match env.valueOf shape text position with
    | .ok value => .ok (literal value)
    | .error e => .error e
  | token => .ok token

/-- The member of a receiver: of an entry its own member before a key of its source. -/
def member (receiver : Located Token) (name : String) (position : Nat) : Except Error Token :=
  let missing : Error := ⟨.memberNotFound name, position⟩
  match receiver.item with
  | reference _ shared _ =>
    match shared.entry.member? name with
    | some (.entry nested) => .ok (reference name (shared.nested name nested) .member)
    | some (.callable callable) => .ok (function callable)
    | none =>
      match shared.entry.source.bind fun source => source.member? name with
      | some value => .ok (literal value)
      | none => .error missing
  | literal value =>
    match value.member? name with
    | some value => .ok (literal value)
    | none => .error missing
  | lexeme (.name text) => .error ⟨.unknownReference (Text.trim text), receiver.position⟩
  | _ => .error missing

end Token

namespace Pending

/-- Replaces a receiver, a dot and a name by the member, at the receiver's position. -/
def fold (receiver last : Located Token) : Except Error (Located Token) :=
  match last.item.bareName? with
  | none => .error ⟨.memberNotFound last.item.text, last.position⟩
  | some name => (Token.member receiver name last.position).map fun token =>
      ⟨token, receiver.position⟩

/-- One reduction at the newest token, which is resolved already. -/
def reduce (pending : Pending) : Pushed :=
  match pending with
  | ⟨.literal (.tuple arguments), position⟩ :: ⟨.function callable, _⟩ :: _ =>
    let call : Call := ⟨callable, arguments, position⟩
    ⟨pending, some call, call.reply.result.map .invoked⟩
  | last :: ⟨.lexeme (.operator .dot), _⟩ :: receiver :: rest =>
    match fold receiver last with
    | .ok folded => ⟨folded :: rest, none, .ok .proceed⟩
    | .error e => ⟨pending, none, .error e⟩
  | _ => ⟨pending, none, .ok .proceed⟩

/-- Adds a token. If it cannot be resolved it is kept as it came. -/
def push (pending : Pending) (env : Environment) (token : Token) (position : Nat) : Pushed :=
  match token.resolve env position with
  | .ok resolved => reduce (⟨resolved, position⟩ :: pending)
  | .error e => ⟨⟨token, position⟩ :: pending, none, .error e⟩

/-- The tokens in the order in which they came. -/
def tokens (pending : Pending) : List Token := pending.reverse.map Located.item

end Pending

/-- How a line ended. -/
inductive Outcome where
  | completed (tokens : List Token)
  | invoked (value : Value)
  | assigned (name : String)

namespace Pending

/-- A line of a name, an equals sign and a value or reference assigns; any other is complete as it
stands. -/
def finish (pending : Pending) (env : Environment) : Outcome × Environment :=
  match pending with
  | [⟨value, _⟩, ⟨.lexeme (.operator .assign), _⟩, ⟨target, _⟩] =>
    match target.bareName?, value with
    | some name, .literal value => (.assigned name, env.assign name (Entry.ofValue value))
    | some name, .reference _ shared _ => (.assigned name, env.bind name shared)
    | _, _ => (.completed pending.tokens, env)
  | _ => (.completed pending.tokens, env)

end Pending
end LineShell
