import LineShell.Error
import LineShell.NameMap
import LineShell.Value.Printer

/-!
Entries: what names are bound to. An entry may have a value as its source, and members that are
entries or callables themselves. A bound entry also has an identity, which every further name for
it shares.
-/

namespace LineShell

/-- What a call writes and gives. -/
structure Reply where
  written : List String
  result : Except Error Value

/-- A procedure is known by its label. It is given the arguments and the position of the call. -/
structure Procedure where
  label : String
  run : List Value → Nat → Reply

structure Callable where
  name : String
  procedure : Procedure

/-- Two callables are the same if name and procedure are. -/
def Callable.beq (a b : Callable) : Bool :=
  a.name == b.name && a.procedure.label == b.procedure.label

/-- A callable with the arguments it is given, and where they stand. -/
structure Call where
  callable : Callable
  arguments : List Value
  position : Nat

def Call.reply (call : Call) : Reply := call.callable.procedure.run call.arguments call.position

/-- What is written if this call is made: only calls write. -/
def linesWritten : Option Call → List String
  | some call => call.reply.written
  | none => []

mutual

inductive Entry where
  | mk (source : Option Value) (members : NameMap Member)

inductive Member where
  | entry (nested : Entry)
  | callable (callable : Callable)

end

namespace Entry

def source : Entry → Option Value
  | mk source _ => source

def members : Entry → NameMap Member
  | mk _ members => members

def empty : Entry := mk none NameMap.empty

def ofValue (value : Value) : Entry := mk (some value) NameMap.empty

def member? (e : Entry) (name : String) : Option Member := e.members.get? name

def addMember (e : Entry) (name : String) (nested : Entry) : Entry :=
  mk e.source (e.members.insert name (.entry nested))

/-- A callable is a member under its own name. -/
def addCallable (e : Entry) (callable : Callable) : Entry :=
  mk e.source (e.members.insert callable.name (.callable callable))

def sourceBeq : Option Value → Option Value → Bool
  | none, none => true
  | some a, some b => a == b
  | _, _ => false

mutual

/-- Entries are equal if their sources and their members are, whatever their identity. -/
def beq : Entry → Entry → Bool
  | mk source members, mk source' members' =>
    sourceBeq source source' && beqMembers members.entries members'.entries

def beqMember : Member → Member → Bool
  | .entry a, .entry b => beq a b
  | .callable a, .callable b => a.beq b
  | _, _ => false

def beqMembers : List (String × Member) → List (String × Member) → Bool
  | [], [] => true
  | (name, a) :: as, (other, b) :: bs => name == other && beqMember a b && beqMembers as bs
  | _, _ => false

end

instance : BEq Entry := ⟨beq⟩

end Entry

/-- Which entry it is: the number of the entry it came into being with, and the names that lead
from there to it. -/
structure Identity where
  serial : Nat
  path : List String
deriving DecidableEq

/-- An entry that names can share. -/
structure Shared where
  identity : Identity
  entry : Entry

namespace Shared

/-- The member of a shared entry that is an entry is shared too. -/
def nested (s : Shared) (name : String) (entry : Entry) : Shared :=
  ⟨⟨s.identity.serial, s.identity.path ++ [name]⟩, entry⟩

end Shared
end LineShell
