import LineShell.Error

/-!
The delimiters that are open while a delimited text is being read. The first opening enters the
text; the closing that returns to the depth of that entry completes it.
-/

namespace LineShell

/-- An opening delimiter and where it stands. -/
structure Opening where
  delimiter : Char
  position : Nat
deriving DecidableEq

structure Delimiters where
  /-- The open delimiters, the innermost first. -/
  stack : List Opening
  /-- The depth at which the text being read was entered, if one is. -/
  entry : Option Nat
deriving DecidableEq

/-- What a closing delimiter closed. -/
inductive Closure where
  /-- The whole text. -/
  | complete
  /-- A part of it. -/
  | interior
deriving DecidableEq

namespace Delimiters

def empty : Delimiters := ⟨[], none⟩

def depth (d : Delimiters) : Nat := d.stack.length

def innermost? (d : Delimiters) : Option Opening := d.stack.head?

/-- Whether an opening delimiter would enter a text. -/
def isOutside (d : Delimiters) : Bool := d.entry.isNone

def insert (d : Delimiters) (delimiter : Char) (position : Nat) : Delimiters where
  stack := ⟨delimiter, position⟩ :: d.stack
  entry := some (d.entry.getD d.depth)

/-- Closes the innermost delimiter, which has to be the partner of the closing one. -/
def close (d : Delimiters) (delimiter partner : Char) (position : Nat) :
    Except Error (Closure × Delimiters) :=
  match d.stack with
  | [] => .error ⟨.unexpectedToken delimiter, position⟩
  | opening :: rest =>
    if opening.delimiter = partner then
      if d.entry = some rest.length then .ok (.complete, ⟨rest, none⟩)
      else .ok (.interior, ⟨rest, d.entry⟩)
    else .error ⟨.unexpectedToken delimiter, position⟩

/-- A call on the delimiters. -/
inductive Operation where
  | opening (delimiter : Char) (position : Nat)
  | closing (delimiter partner : Char) (position : Nat)

/-- What a call comes to. -/
inductive Event where
  /-- A delimiter was opened, and entered a text or did not. -/
  | opened (opening : Opening) (entered : Bool)
  | closed (closure : Closure)
  | refused (error : Error)
deriving DecidableEq

/-- A closing that is refused changes nothing. -/
def perform (d : Delimiters) : Operation → Event × Delimiters
  | .opening delimiter position =>
    (.opened ⟨delimiter, position⟩ d.isOutside, d.insert delimiter position)
  | .closing delimiter partner position =>
    match d.close delimiter partner position with
    | .ok (closure, rest) => (.closed closure, rest)
    | .error e => (.refused e, d)

end Delimiters
end LineShell
