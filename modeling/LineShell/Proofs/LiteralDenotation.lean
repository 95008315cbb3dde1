import LineShell.Proofs.LiteralSyntax

/-!
What literals denote in an environment, as a relation. A name denotes the source of the entry that
it is bound to; a name that is not bound, or is bound to an entry without a source, denotes
undefined. Every literal denotes one value, which is the one computed from it.
-/

namespace LineShell

namespace Environment

/-- What a name stands for in a literal: the source of the entry it is bound to, or undefined. -/
inductive Gives (env : Environment) (identifier : String) : Value → Prop where
  | source {shared : Shared} {value : Value} (bound : env.resolve? identifier = some shared)
      (held : shared.entry.source = some value) : env.Gives identifier value
  | sourceless {shared : Shared} (bound : env.resolve? identifier = some shared)
      (unheld : shared.entry.source = none) : env.Gives identifier .undefined
  | unbound (free : env.resolve? identifier = none) : env.Gives identifier .undefined

theorem gives_iff (env : Environment) (identifier : String) (value : Value) :
    env.Gives identifier value ↔ value = env.sourceOf identifier := by
  unfold sourceOf
  constructor
  · intro gives
    cases gives with
    | source bound held => simp only [bound, held, Option.getD_some]
    | sourceless bound unheld => simp only [bound, unheld, Option.getD_none]
    | unbound free => simp only [free]
  · intro same
    subst same
    cases bound : env.resolve? identifier with
    | none => exact .unbound bound
    | some shared =>
        dsimp only
        cases held : shared.entry.source with
        | none => exact .sourceless bound held
        | some value => exact .source bound held

end Environment

namespace Literal

mutual

/-- What a literal denotes in an environment. -/
inductive Denotes (env : Environment) : Literal → Value → Prop where
  | undefined : Denotes env .undefined .undefined
  | null : Denotes env .null .null
  | bool (value : Bool) : Denotes env (.bool value) (.bool value)
  | integer (value : Int64) : Denotes env (.integer value) (.integer value)
  | real (value : Double) : Denotes env (.real value) (.real value)
  | string (value : String) : Denotes env (.string value) (.string value)
  | name {identifier : String} {value : Value} (gives : env.Gives identifier value) :
      Denotes env (.name identifier) value
  | tuple {items : List Literal} {values : List Value} (inside : DenotesItems env items values) :
      Denotes env (.tuple items) (.tuple values)
  | array {items : List Literal} {values : List Value} (inside : DenotesItems env items values) :
      Denotes env (.array items) (.array values)
  | object {members : List (String × Literal)} {values : List (String × Value)}
      (inside : DenotesMembers env members values) : Denotes env (.object members) (.object values)

inductive DenotesItems (env : Environment) : List Literal → List Value → Prop where
  | nil : DenotesItems env [] []
  | cons {item : Literal} {value : Value} {items : List Literal} {values : List Value}
      (first : Denotes env item value) (rest : DenotesItems env items values) :
      DenotesItems env (item :: items) (value :: values)

inductive DenotesMembers (env : Environment) :
    List (String × Literal) → List (String × Value) → Prop where
  | nil : DenotesMembers env [] []
  | cons {key : String} {item : Literal} {value : Value} {members : List (String × Literal)}
      {values : List (String × Value)} (first : Denotes env item value)
      (rest : DenotesMembers env members values) :
      DenotesMembers env ((key, item) :: members) ((key, value) :: values)

end

section Denotation

variable {env : Environment}

mutual

theorem value_denoted (literal : Literal) : Denotes env literal (literal.value env.sourceOf) := by
  match literal with
  | .undefined => exact .undefined
  | .null => exact .null
  | .bool value => exact .bool value
  | .integer value => exact .integer value
  | .real value => exact .real value
  | .string value => exact .string value
  | .name identifier => exact .name ((env.gives_iff identifier _).mpr rfl)
  | .tuple items => exact .tuple (item_values_denoted items)
  | .array items => exact .array (item_values_denoted items)
  | .object members => exact .object (member_values_denoted members)

theorem item_values_denoted (items : List Literal) :
    DenotesItems env items (itemValues env.sourceOf items) := by
  match items with
  | [] => exact .nil
  | item :: rest => exact .cons (value_denoted item) (item_values_denoted rest)

theorem member_values_denoted (members : List (String × Literal)) :
    DenotesMembers env members (memberValues env.sourceOf members) := by
  match members with
  | [] => exact .nil
  | (key, item) :: rest => exact .cons (value_denoted item) (member_values_denoted rest)

end

mutual

theorem denotes_value {literal : Literal} {value : Value} (denotes : Denotes env literal value) :
    value = literal.value env.sourceOf := by
  match denotes with
  | .undefined | .null | .bool _ | .integer _ | .real _ | .string _ => rfl
  | .name gives => exact (env.gives_iff _ _).mp gives
  | .tuple inside => rw [denotes_item_values inside]; rfl
  | .array inside => rw [denotes_item_values inside]; rfl
  | .object inside => rw [denotes_member_values inside]; rfl

theorem denotes_item_values {items : List Literal} {values : List Value}
    (denotes : DenotesItems env items values) : values = itemValues env.sourceOf items := by
  match denotes with
  | .nil => rfl
  | .cons first rest => rw [denotes_value first, denotes_item_values rest]; rfl

theorem denotes_member_values {members : List (String × Literal)} {values : List (String × Value)}
    (denotes : DenotesMembers env members values) :
    values = memberValues env.sourceOf members := by
  match denotes with
  | .nil => rfl
  | .cons first rest => rw [denotes_value first, denotes_member_values rest]; rfl

end

end Denotation

end Literal

end LineShell
