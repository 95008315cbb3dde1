import LineShell.Proofs.LiteralReading

/-!
What of an environment reaches a literal. Whether a text is a literal, and which one, is settled by
its tokens alone; the value then depends on the environment through the names that stand for values,
and through nothing else. An identifier is such a name unless a colon follows it: then it is a key.
Main statement: two environments find the same fault in a text, or give it values that differ at
most where such a name stands; there each has its own source of the name, as one element.
-/

namespace LineShell.Literal

/-- The identifiers that stand for values, in their order. -/
def valueNames : List Token → List String
  | [] => []
  | .identifier text :: rest =>
    if rest.head? = some .colon then valueNames rest else text :: valueNames rest
  | _ :: rest => valueNames rest

example : valueNames [.identifier "a", .colon, .identifier "b", .comma, .string "c", .colon,
    .leftBracket, .identifier "a", .comma, .string "d", .rightBracket] = ["b", "a"] := rfl

/-- The names that a delimited text asks the environment for. In quotes there are none. -/
def namesAsked (shape : Shape) (raw : String) : List String :=
  match outermost? shape with
  | some _ => valueNames ((lex raw).tokens.map Spanned.token)
  | none => []

mutual

/-- Two values that are alike but for these names, in their order: where one of them stands, each
value has as one element what its own environment gives. -/
inductive Alike (left right : Environment) : List String → Value → Value → Prop where
  | undefined : Alike left right [] .undefined .undefined
  | null : Alike left right [] .null .null
  | bool (value : Bool) : Alike left right [] (.bool value) (.bool value)
  | integer (value : Int64) : Alike left right [] (.integer value) (.integer value)
  | real (value : Double) : Alike left right [] (.real value) (.real value)
  | string (value : String) : Alike left right [] (.string value) (.string value)
  | name {identifier : String} {value other : Value} (here : left.Gives identifier value)
      (there : right.Gives identifier other) : Alike left right [identifier] value other
  | tuple {names : List String} {items others : List Value}
      (alike : AlikeItems left right names items others) :
      Alike left right names (.tuple items) (.tuple others)
  | array {names : List String} {items others : List Value}
      (alike : AlikeItems left right names items others) :
      Alike left right names (.array items) (.array others)
  | object {names : List String} {members others : List (String × Value)}
      (alike : AlikeMembers left right names members others) :
      Alike left right names (.object members) (.object others)

/-- The same of two rows of values, which are equally long. -/
inductive AlikeItems (left right : Environment) :
    List String → List Value → List Value → Prop where
  | nil : AlikeItems left right [] [] []
  | cons {names more : List String} {item other : Value} {items others : List Value}
      (first : Alike left right names item other)
      (rest : AlikeItems left right more items others) :
      AlikeItems left right (names ++ more) (item :: items) (other :: others)

/-- The same of two rows of members, which have the same keys. -/
inductive AlikeMembers (left right : Environment) :
    List String → List (String × Value) → List (String × Value) → Prop where
  | nil : AlikeMembers left right [] [] []
  | cons {names more : List String} {item other : Value} {members others : List (String × Value)}
      (key : String) (first : Alike left right names item other)
      (rest : AlikeMembers left right more members others) :
      AlikeMembers left right (names ++ more) ((key, item) :: members) ((key, other) :: others)

end

mutual

def names : Literal → List String
  | .name identifier => [identifier]
  | .tuple items => itemNames items
  | .array items => itemNames items
  | .object members => memberNames members
  | _ => []

def itemNames : List Literal → List String
  | [] => []
  | item :: rest => names item ++ itemNames rest

def memberNames : List (String × Literal) → List String
  | [] => []
  | (_, item) :: rest => names item ++ memberNames rest

end

section Values

variable (left right : Environment)

mutual

theorem values_alike (literal : Literal) :
    Alike left right literal.names (literal.value left.sourceOf)
      (literal.value right.sourceOf) := by
  match literal with
  | .undefined => exact .undefined
  | .null => exact .null
  | .bool value => exact .bool value
  | .integer value => exact .integer value
  | .real value => exact .real value
  | .string value => exact .string value
  | .name identifier =>
      exact .name ((left.gives_iff identifier _).mpr rfl) ((right.gives_iff identifier _).mpr rfl)
  | .tuple items => exact .tuple (item_values_alike items)
  | .array items => exact .array (item_values_alike items)
  | .object members => exact .object (member_values_alike members)

theorem item_values_alike (items : List Literal) :
    AlikeItems left right (itemNames items) (itemValues left.sourceOf items)
      (itemValues right.sourceOf items) := by
  match items with
  | [] => exact .nil
  | item :: rest => exact .cons (values_alike item) (item_values_alike rest)

theorem member_values_alike (members : List (String × Literal)) :
    AlikeMembers left right (memberNames members) (memberValues left.sourceOf members)
      (memberValues right.sourceOf members) := by
  match members with
  | [] => exact .nil
  | (key, item) :: rest => exact .cons key (values_alike item) (member_values_alike rest)

end

end Values

section Agreement

variable {left right : Environment}

mutual

theorem alike_same {names : List String} {value other : Value}
    (agree : ∀ name ∈ names, left.sourceOf name = right.sourceOf name)
    (alike : Alike left right names value other) : value = other := by
  match alike with
  | .undefined | .null | .bool _ | .integer _ | .real _ | .string _ => rfl
  | .name here there =>
      rw [(left.gives_iff _ _).mp here, (right.gives_iff _ _).mp there]
      exact agree _ List.mem_cons_self
  | .tuple items => rw [alike_items_same agree items]
  | .array items => rw [alike_items_same agree items]
  | .object members => rw [alike_members_same agree members]

theorem alike_items_same {names : List String} {items others : List Value}
    (agree : ∀ name ∈ names, left.sourceOf name = right.sourceOf name)
    (alike : AlikeItems left right names items others) : items = others := by
  match alike with
  | .nil => rfl
  | .cons first rest =>
      rw [List.forall_mem_append] at agree
      rw [alike_same agree.1 first, alike_items_same agree.2 rest]

theorem alike_members_same {names : List String} {members others : List (String × Value)}
    (agree : ∀ name ∈ names, left.sourceOf name = right.sourceOf name)
    (alike : AlikeMembers left right names members others) : members = others := by
  match alike with
  | .nil => rfl
  | .cons key first rest =>
      rw [List.forall_mem_append] at agree
      rw [alike_same agree.1 first, alike_members_same agree.2 rest]

end

end Agreement

section Tokens

variable {token : Token} {rest : List Token}

theorem value_names_atom {literal : Literal} (atomic : token.atom? = some literal)
    (unkeyed : rest.head? ≠ some .colon) :
    valueNames (token :: rest) = literal.names ++ valueNames rest := by
  cases token with
  | identifier text =>
      cases atomic
      rw [valueNames, if_neg unkeyed]
      rfl
  | integer | real | bool | null | undefined | string =>
      cases atomic
      rfl
  | leftParen | rightParen | leftBracket | rightBracket | leftBrace | rightBrace | comma | colon =>
      cases atomic

theorem value_names_comma : valueNames (.comma :: rest) = valueNames rest := rfl

theorem value_names_key {key : String} (named : token.key? = some key) :
    valueNames (token :: .colon :: rest) = valueNames rest := by
  cases token <;> cases named <;> rfl

end Tokens

mutual

/-- Whatever follows a value, as long as it is no colon, the value has its own names. -/
theorem writes_names {tokens : List Token} {literal : Literal} (writes : Writes tokens literal)
    (rest : List Token) (unkeyed : rest.head? ≠ some .colon) :
    valueNames (tokens ++ rest) = literal.names ++ valueNames rest := by
  match writes with
  | .atom atomic => exact value_names_atom atomic unkeyed
  | .tuple inside =>
      have inner := writes_item_names inside (.rightParen :: rest) (by simp)
      rw [names, List.append_assoc]
      exact inner
  | .array inside =>
      have inner := writes_item_names inside (.rightBracket :: rest) (by simp)
      rw [names, List.append_assoc]
      exact inner
  | .object inside =>
      have inner := writes_member_names inside (.rightBrace :: rest) (by simp)
      rw [names, List.append_assoc]
      exact inner

theorem writes_item_names {tokens : List Token} {items : List Literal}
    (writes : WritesItems tokens items) (rest : List Token) (unkeyed : rest.head? ≠ some .colon) :
    valueNames (tokens ++ rest) = itemNames items ++ valueNames rest := by
  match writes with
  | .nil => rfl
  | .last value =>
      rw [itemNames, itemNames, List.append_nil]
      exact writes_names value rest unkeyed
  | @WritesItems.next front after _ _ value others =>
      have first := writes_names value (.comma :: (after ++ rest)) (by simp)
      have more := writes_item_names others rest unkeyed
      rw [List.append_assoc, List.cons_append, first, value_names_comma, more, itemNames,
        List.append_assoc]

theorem writes_member_names {tokens : List Token} {members : List (String × Literal)}
    (writes : WritesMembers tokens members) (rest : List Token)
    (unkeyed : rest.head? ≠ some .colon) :
    valueNames (tokens ++ rest) = memberNames members ++ valueNames rest := by
  match writes with
  | .nil => rfl
  | .last named value =>
      rw [List.cons_append, List.cons_append, value_names_key named, memberNames, memberNames,
        List.append_nil]
      exact writes_names value rest unkeyed
  | @WritesMembers.next _ _ front after _ _ named value others =>
      have first := writes_names value (.comma :: (after ++ rest)) (by simp)
      have more := writes_member_names others rest unkeyed
      rw [List.append_assoc, List.cons_append, List.cons_append, value_names_key named,
        List.cons_append, first, value_names_comma, more, memberNames, List.append_assoc]

end

theorem outermost_names {shape : Shape} {list : OpenList} {tokens : List Token} {literal : Literal}
    (composite : outermost? shape = some list) (ends : list.Ends tokens literal) :
    valueNames tokens = literal.names := by
  rw [← List.append_nil tokens]
  cases shape with
  | tuple =>
      cases composite
      obtain ⟨items, writes, rfl⟩ := ends
      rw [writes_item_names writes [] (by simp)]
      exact List.append_nil _
  | array =>
      cases composite
      obtain ⟨items, writes, rfl⟩ := ends
      rw [writes_item_names writes [] (by simp)]
      exact List.append_nil _
  | object =>
      cases composite
      obtain ⟨members, writes, rfl⟩ := ends
      rw [writes_member_names writes [] (by simp)]
      exact List.append_nil _
  | string => cases composite

/-- The names in a literal are those that its text asks for. -/
theorem read_names {shape : Shape} {raw : String} {literal : Literal}
    (reads : read shape raw = .ok literal) : namesAsked shape raw = literal.names := by
  cases composite : outermost? shape with
  | none =>
      cases shape <;> cases composite
      cases reads
      rfl
  | some list =>
      obtain ⟨tokens, ⟨_, rfl⟩, ends⟩ := (read_composite_iff composite raw literal).mp reads
      rw [namesAsked, composite]
      exact outermost_names composite ends

end LineShell.Literal

namespace LineShell.Environment

open Literal

theorem source_of_bind {env : Environment} {name other : String} {shared : Shared}
    (different : Text.trim other ≠ Text.trim name) :
    (env.bind name shared).sourceOf other = env.sourceOf other := by
  rw [sourceOf, sourceOf, resolve?_bind, if_neg different]

theorem value_of_cases (shape : Shape) (raw : String) (position : Nat) :
    (∃ e, ∀ env : Environment, env.valueOf shape raw position = .error e) ∨
      ∃ literal : Literal, namesAsked shape raw = literal.names ∧
        ∀ env : Environment, env.valueOf shape raw position = .ok (literal.value env.sourceOf) := by
  cases reads : Literal.read shape raw with
  | error fault =>
      refine .inl ⟨⟨.malformedLiteral fault, position⟩, ?_⟩
      intro env
      rw [value_of_read, reads]
  | ok literal =>
      refine .inr ⟨literal, read_names reads, ?_⟩
      intro env
      rw [value_of_read, reads]

theorem value_of_same {left right : Environment} {shape : Shape} {raw : String}
    (agree : ∀ name ∈ namesAsked shape raw, left.sourceOf name = right.sourceOf name)
    (position : Nat) : left.valueOf shape raw position = right.valueOf shape raw position := by
  rcases value_of_cases shape raw position with ⟨e, failed⟩ | ⟨literal, asked, valued⟩
  · rw [failed, failed]
  · rw [asked] at agree
    rw [valued, valued, alike_same agree (values_alike _ _ literal)]

/-- For every shape, text and position, two environments give the same error, or values of one
shape that are alike but for the names that the text asks for, where each has its own source of the
name. If the sources of these names are the same, so is the value; and binding any other name, be it
a key or a word in quotes, changes nothing. -/
theorem literal_depends_on_value_names_only (left right : Environment) (shape : Shape)
    (raw : String) (position : Nat) :
    (∀ e, left.valueOf shape raw position = .error e ↔
      right.valueOf shape raw position = .error e) ∧
    (∀ value, left.valueOf shape raw position = .ok value →
      ∃ other, right.valueOf shape raw position = .ok other ∧
        Alike left right (namesAsked shape raw) value other) ∧
    ((∀ name ∈ namesAsked shape raw, ∃ value, left.Gives name value ∧ right.Gives name value) →
      left.valueOf shape raw position = right.valueOf shape raw position) ∧
    ∀ name shared, (∀ asked ∈ namesAsked shape raw, Text.trim asked ≠ Text.trim name) →
      (left.bind name shared).valueOf shape raw position = left.valueOf shape raw position := by
  refine ⟨?_, ?_, ?_, ?_⟩
  · intro e
    rcases value_of_cases shape raw position with ⟨other, failed⟩ | ⟨literal, _, valued⟩
    · rw [failed, failed]
    · rw [valued, valued]
      constructor <;> intro impossible <;> cases impossible
  · intro value found
    rcases value_of_cases shape raw position with ⟨e, failed⟩ | ⟨literal, asked, valued⟩
    · rw [failed] at found
      cases found
    · rw [valued] at found
      cases found
      rw [asked]
      exact ⟨_, valued right, values_alike _ _ literal⟩
  · intro agree
    apply value_of_same
    intro name member
    obtain ⟨value, here, there⟩ := agree name member
    exact ((left.gives_iff name value).mp here).symm.trans ((right.gives_iff name value).mp there)
  · intro name shared unasked
    apply value_of_same
    intro asked member
    exact source_of_bind (unasked asked member)

end LineShell.Environment
