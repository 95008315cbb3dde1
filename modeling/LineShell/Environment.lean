import LineShell.Entry
import LineShell.Text.Blank

/-!
The environment binds names to shared entries. Blanks around a name do not count.
-/

namespace LineShell

structure Environment where
  bindings : NameMap Shared
  /-- How many entries have been given an identity. -/
  created : Nat

namespace Environment

def empty : Environment := ⟨NameMap.empty, 0⟩

def resolve? (env : Environment) (name : String) : Option Shared :=
  env.bindings.get? (Text.trim name)

def contains (env : Environment) (name : String) : Bool := (env.resolve? name).isSome

def names (env : Environment) : List String := env.bindings.names

/-- Gives an entry an identity of its own. -/
def create (env : Environment) (entry : Entry) : Shared × Environment :=
  (⟨⟨env.created, []⟩, entry⟩, { env with created := env.created + 1 })

/-- Binds a name to a shared entry. -/
def bind (env : Environment) (name : String) (shared : Shared) : Environment :=
  { env with bindings := env.bindings.insert (Text.trim name) shared }

/-- Binds a name to a shared entry, and gives the entry it was bound to before. -/
def exchange (env : Environment) (name : String) (shared : Shared) :
    Option Shared × Environment :=
  let (replaced, bindings) := env.bindings.exchange (Text.trim name) shared
  (replaced, { env with bindings })

/-- Binds a name to a new entry. -/
def assign (env : Environment) (name : String) (entry : Entry) : Environment :=
  let (shared, env) := env.create entry
  env.bind name shared

/-- What a name stands for in a literal: the source of its entry, or else undefined. -/
def sourceOf (env : Environment) (name : String) : Value :=
  match env.resolve? name with
  | some shared => shared.entry.source.getD .undefined
  | none => .undefined

/-- Assigning changes what one name stands for, up to the blanks around it. -/
theorem resolve?_bind (env : Environment) (name other : String) (shared : Shared) :
    (env.bind name shared).resolve? other =
      if Text.trim other = Text.trim name then some shared else env.resolve? other :=
  NameMap.get?_insert env.bindings (Text.trim name) (Text.trim other) shared

theorem resolve?_assign (env : Environment) (name other : String) (entry : Entry) :
    (env.assign name entry).resolve? other =
      if Text.trim other = Text.trim name then some (env.create entry).1
      else env.resolve? other :=
  resolve?_bind (env.create entry).2 name other (env.create entry).1

end Environment

end LineShell
