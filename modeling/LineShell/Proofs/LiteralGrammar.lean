import LineShell.Proofs.LiteralSyntax

/-!
The grammar of literals, and what a state of the reader still accepts, said through the grammar: the
innermost list comes to its end, its bracket follows, and the list around it goes on. The
statements at the end take the first token off what each kind of state accepts.
-/

namespace LineShell.Literal

def Token.atom? : Token → Option Literal
  | .integer value => some (.integer value)
  | .real value => some (.real value)
  | .bool value => some (.bool value)
  | .null => some .null
  | .undefined => some .undefined
  | .string value => some (.string value)
  | .identifier text => some (.name text)
  | _ => none

def Token.opens? : Token → Option OpenList
  | .leftParen => some (.tuple [])
  | .leftBracket => some (.array [])
  | .leftBrace => some (.object [])
  | _ => none

mutual

/-- A value: an atom, or a list in its brackets. -/
inductive Writes : List Token → Literal → Prop where
  | atom {token : Token} {literal : Literal} (atomic : token.atom? = some literal) :
      Writes [token] literal
  | tuple {tokens : List Token} {items : List Literal} (inside : WritesItems tokens items) :
      Writes (.leftParen :: tokens ++ [.rightParen]) (.tuple items)
  | array {tokens : List Token} {items : List Literal} (inside : WritesItems tokens items) :
      Writes (.leftBracket :: tokens ++ [.rightBracket]) (.array items)
  | object {tokens : List Token} {members : List (String × Literal)}
      (inside : WritesMembers tokens members) :
      Writes (.leftBrace :: tokens ++ [.rightBrace]) (.object members)

/-- Values with single commas between them, and perhaps one after the last. -/
inductive WritesItems : List Token → List Literal → Prop where
  | nil : WritesItems [] []
  | last {tokens : List Token} {item : Literal} (value : Writes tokens item) :
      WritesItems tokens [item]
  | next {tokens rest : List Token} {item : Literal} {items : List Literal}
      (value : Writes tokens item) (others : WritesItems rest items) :
      WritesItems (tokens ++ .comma :: rest) (item :: items)

/-- Keys, colons and values with commas in the same places. -/
inductive WritesMembers : List Token → List (String × Literal) → Prop where
  | nil : WritesMembers [] []
  | last {token : Token} {key : String} {tokens : List Token} {item : Literal}
      (named : token.key? = some key) (value : Writes tokens item) :
      WritesMembers (token :: .colon :: tokens) [(key, item)]
  | next {token : Token} {key : String} {tokens rest : List Token} {item : Literal}
      {members : List (String × Literal)} (named : token.key? = some key)
      (value : Writes tokens item) (others : WritesMembers rest members) :
      WritesMembers (token :: .colon :: tokens ++ .comma :: rest) ((key, item) :: members)

end

theorem writes_nonempty {tokens : List Token} {literal : Literal} (writes : Writes tokens literal) :
    tokens ≠ [] := by
  cases writes <;> exact List.cons_ne_nil _ _

/-- The tokens that bring an open list to its end, from where an element may begin. -/
def OpenList.Ends : OpenList → List Token → Literal → Prop
  | tuple done, tokens, literal =>
    ∃ items, WritesItems tokens items ∧ literal = .tuple (done.reverse ++ items)
  | array done, tokens, literal =>
    ∃ items, WritesItems tokens items ∧ literal = .array (done.reverse ++ items)
  | object done, tokens, literal =>
    ∃ members, WritesMembers tokens members ∧ literal = .object (done.reverse ++ members)

def OpenList.EndsAfterElement (list : OpenList) (tokens : List Token) (literal : Literal) : Prop :=
  tokens = [] ∧ literal = list.close ∨ ∃ rest, tokens = .comma :: rest ∧ list.Ends rest literal

def Slot.Ends (slot : Slot) (tokens : List Token) (literal : Literal) : Prop :=
  ∃ front item rest, tokens = front ++ rest ∧ Writes front item ∧
    (slot.fill item).EndsAfterElement rest literal

namespace Expectation

def Ends : Expectation → List Token → Literal → Prop
  | element list, tokens, literal => list.Ends tokens literal
  | colon members key, tokens, literal =>
    ∃ rest, tokens = .colon :: rest ∧ (Slot.object members key).Ends rest literal
  | value members key, tokens, literal => (Slot.object members key).Ends tokens literal
  | separator list, tokens, literal => list.EndsAfterElement tokens literal

def bracket : Expectation → Token
  | element list => list.bracket
  | colon .. => .rightBrace
  | value .. => .rightBrace
  | separator list => list.bracket

end Expectation

/-- The tokens that a reader in this state reads to this literal: the innermost list comes to its
end, and if it is nested its bracket follows and it becomes a value of the list around it. -/
def Accepts : List Slot → Expectation → List Token → Literal → Prop
  | [], expected, tokens, literal => expected.Ends tokens literal
  | slot :: outer, expected, tokens, literal => ∃ inner inside rest,
    tokens = inner ++ expected.bracket :: rest ∧ expected.Ends inner inside ∧
      Accepts outer (.separator (slot.fill inside)) rest literal

def AcceptsEnd (list : OpenList) (tokens : List Token) (literal : Literal) : List Slot → Prop
  | [] => tokens = [] ∧ literal = list.close
  | slot :: outer => ∃ rest, tokens = list.bracket :: rest ∧
    Accepts outer (.separator (slot.fill list.close)) rest literal

def AcceptsValue (slot : Slot) (outer : List Slot) (tokens : List Token) (literal : Literal) :
    Prop :=
  ∃ front item rest, tokens = front ++ rest ∧ Writes front item ∧
    Accepts outer (.separator (slot.fill item)) rest literal

theorem writes_cons_iff (token : Token) (tokens : List Token) (item : Literal) :
    Writes (token :: tokens) item ↔ tokens = [] ∧ token.atom? = some item ∨
      ∃ list inner, token.opens? = some list ∧ tokens = inner ++ [list.bracket] ∧
        list.Ends inner item := by
  constructor
  · intro writes
    cases writes with
    | atom atomic => exact .inl ⟨rfl, atomic⟩
    | @tuple inner items inside => exact .inr ⟨.tuple [], inner, rfl, rfl, items, inside, rfl⟩
    | @array inner items inside => exact .inr ⟨.array [], inner, rfl, rfl, items, inside, rfl⟩
    | @object inner members inside =>
        exact .inr ⟨.object [], inner, rfl, rfl, members, inside, rfl⟩
  · intro accepts
    rcases accepts with ⟨rfl, atomic⟩ | ⟨list, inner, opens, rfl, ends⟩
    · exact .atom atomic
    · cases token <;> cases opens <;> obtain ⟨contents, inside, rfl⟩ := ends
      · exact .tuple inside
      · exact .array inside
      · exact .object inside

/-- The slot that the next element of a tuple or an array fills; a member needs its key first. -/
def OpenList.slot? : OpenList → Option Slot
  | tuple done => some (.tuple done)
  | array done => some (.array done)
  | object _ => none

theorem items_end_iff (make : List Literal → Literal) (done : List Literal) (tokens : List Token)
    (literal : Literal) :
    (∃ items, WritesItems tokens items ∧ literal = make (done.reverse ++ items)) ↔
      tokens = [] ∧ literal = make done.reverse ∨
      ∃ front item rest, tokens = front ++ rest ∧ Writes front item ∧
        (rest = [] ∧ literal = make (item :: done).reverse ∨
          ∃ after, rest = .comma :: after ∧
            ∃ items, WritesItems after items ∧
              literal = make ((item :: done).reverse ++ items)) := by
  constructor
  · intro accepts
    obtain ⟨items, writes, rfl⟩ := accepts
    cases writes with
    | nil => exact .inl ⟨rfl, by rw [List.append_nil]⟩
    | @last _ item value =>
        refine .inr ⟨tokens, item, [], (List.append_nil _).symm, value, .inl ⟨rfl, ?_⟩⟩
        rw [List.reverse_cons]
    | @next front rest item items value others =>
        refine .inr ⟨front, item, _, rfl, value, .inr ⟨rest, rfl, items, others, ?_⟩⟩
        rw [List.reverse_cons, List.append_assoc, List.singleton_append]
  · intro accepts
    rcases accepts with ⟨rfl, rfl⟩ | ⟨front, item, _, rfl, value,
      ⟨rfl, rfl⟩ | ⟨after, rfl, items, others, rfl⟩⟩
    · exact ⟨[], .nil, by rw [List.append_nil]⟩
    · refine ⟨[item], ?_, by rw [List.reverse_cons]⟩
      rw [List.append_nil]
      exact .last value
    · refine ⟨item :: items, .next value others, ?_⟩
      rw [List.reverse_cons, List.append_assoc, List.singleton_append]

theorem slotted_ends_iff {list : OpenList} {slot : Slot} (slotted : list.slot? = some slot)
    (tokens : List Token) (literal : Literal) :
    list.Ends tokens literal ↔
      tokens = [] ∧ literal = list.close ∨ slot.Ends tokens literal := by
  cases list with
  | tuple done =>
      cases slotted
      exact items_end_iff .tuple done tokens literal
  | array done =>
      cases slotted
      exact items_end_iff .array done tokens literal
  | object done => cases slotted

theorem members_end_iff (done : List (String × Literal)) (tokens : List Token)
    (literal : Literal) :
    (OpenList.object done).Ends tokens literal ↔
      tokens = [] ∧ literal = (OpenList.object done).close ∨
      ∃ token key rest, tokens = token :: .colon :: rest ∧ token.key? = some key ∧
        (Slot.object done key).Ends rest literal := by
  constructor
  · intro accepts
    obtain ⟨members, writes, rfl⟩ := accepts
    cases writes with
    | nil => exact .inl ⟨rfl, by rw [List.append_nil]; rfl⟩
    | @last token key tokens item named value =>
        refine .inr ⟨token, key, tokens, rfl, named, tokens, item, [], ?_, value, .inl ⟨rfl, ?_⟩⟩
        · rw [List.append_nil]
        · rw [Slot.fill, OpenList.close, List.reverse_cons]
    | @next token key front rest item members named value others =>
        refine .inr ⟨token, key, _, rfl, named, front, item, _, rfl, value, .inr ⟨rest, rfl, ?_⟩⟩
        refine ⟨members, others, ?_⟩
        rw [List.reverse_cons, List.append_assoc, List.singleton_append]
  · intro accepts
    rcases accepts with ⟨rfl, rfl⟩ | ⟨token, key, _, rfl, named, front, item, _, rfl, value,
      ⟨rfl, rfl⟩ | ⟨after, rfl, members, others, rfl⟩⟩
    · exact ⟨[], .nil, by rw [List.append_nil]; rfl⟩
    · refine ⟨[(key, item)], ?_, by rw [Slot.fill, OpenList.close, List.reverse_cons]⟩
      rw [List.append_nil]
      exact .last named value
    · refine ⟨(key, item) :: members, .next named value others, ?_⟩
      rw [List.reverse_cons, List.append_assoc, List.singleton_append]

theorem slot_needs_tokens (slot : Slot) (literal : Literal) : ¬slot.Ends [] literal := by
  intro accepts
  obtain ⟨front, item, rest, empty, writes, _⟩ := accepts
  exact writes_nonempty writes (List.append_eq_nil_iff.mp empty.symm).1

theorem ends_nil_iff (list : OpenList) (literal : Literal) :
    list.Ends [] literal ↔ literal = list.close := by
  have split : list.Ends [] literal ↔
      [] = ([] : List Token) ∧ literal = list.close ∨ False := by
    cases list with
    | tuple done =>
        exact (slotted_ends_iff rfl [] literal).trans
          (or_congr Iff.rfl (iff_false_intro (slot_needs_tokens _ _)))
    | array done =>
        exact (slotted_ends_iff rfl [] literal).trans
          (or_congr Iff.rfl (iff_false_intro (slot_needs_tokens _ _)))
    | object done =>
        refine (members_end_iff done [] literal).trans (or_congr Iff.rfl (iff_false_intro ?_))
        intro accepts
        obtain ⟨token, key, rest, impossible, _⟩ := accepts
        cases impossible
  simpa using split

theorem slotted_bracket {list : OpenList} {slot : Slot} (slotted : list.slot? = some slot)
    (item : Literal) : (slot.fill item).bracket = list.bracket := by
  cases list <;> cases slotted <;> rfl

section Unfolding

variable {outer : List Slot} {tokens : List Token} {literal : Literal}

theorem accepts_separator_iff {list : OpenList} :
    Accepts outer (.separator list) tokens literal ↔ AcceptsEnd list tokens literal outer ∨
      ∃ rest, tokens = .comma :: rest ∧ Accepts outer (.element list) rest literal := by
  cases outer with
  | nil => exact Iff.rfl
  | cons slot outer =>
      constructor
      · intro accepts
        obtain ⟨inner, inside, rest, rfl, ⟨rfl, rfl⟩ | ⟨after, rfl, ends⟩, accepted⟩ := accepts
        · exact .inl ⟨rest, rfl, accepted⟩
        · exact .inr ⟨after ++ list.bracket :: rest, rfl, after, inside, rest, rfl, ends, accepted⟩
      · intro accepts
        rcases accepts with ⟨rest, rfl, accepted⟩ |
          ⟨_, rfl, after, inside, rest, rfl, ends, accepted⟩
        · exact ⟨[], list.close, rest, rfl, .inl ⟨rfl, rfl⟩, accepted⟩
        · exact ⟨.comma :: after, inside, rest, rfl, .inr ⟨after, rfl, ends⟩, accepted⟩

theorem accepts_value_iff {members : List (String × Literal)} {key : String} :
    Accepts outer (.value members key) tokens literal ↔
      AcceptsValue (.object members key) outer tokens literal := by
  cases outer with
  | nil => exact Iff.rfl
  | cons slot outer =>
      constructor
      · intro accepts
        obtain ⟨_, inside, rest, rfl, ⟨front, item, after, rfl, writes, ends⟩, accepted⟩ := accepts
        refine ⟨front, item, after ++ .rightBrace :: rest, ?_, writes, ?_⟩
        · exact List.append_assoc _ _ _
        · exact ⟨after, inside, rest, rfl, ends, accepted⟩
      · intro accepts
        obtain ⟨front, item, _, rfl, writes, after, inside, rest, rfl, ends, accepted⟩ := accepts
        refine ⟨front ++ after, inside, rest, ?_, ⟨front, item, after, rfl, writes, ends⟩, accepted⟩
        exact (List.append_assoc _ _ _).symm

theorem accepts_colon_iff {members : List (String × Literal)} {key : String} :
    Accepts outer (.colon members key) tokens literal ↔
      ∃ rest, tokens = .colon :: rest ∧ Accepts outer (.value members key) rest literal := by
  cases outer with
  | nil => exact Iff.rfl
  | cons slot outer =>
      constructor
      · intro accepts
        obtain ⟨_, inside, rest, rfl, ⟨after, rfl, ends⟩, accepted⟩ := accepts
        exact ⟨after ++ .rightBrace :: rest, rfl, after, inside, rest, rfl, ends, accepted⟩
      · intro accepts
        obtain ⟨_, rfl, after, inside, rest, rfl, ends, accepted⟩ := accepts
        exact ⟨.colon :: after, inside, rest, rfl, ⟨after, rfl, ends⟩, accepted⟩

theorem accepts_element_iff {list : OpenList} {slot : Slot} (slotted : list.slot? = some slot) :
    Accepts outer (.element list) tokens literal ↔
      AcceptsEnd list tokens literal outer ∨ AcceptsValue slot outer tokens literal := by
  cases outer with
  | nil => exact slotted_ends_iff slotted tokens literal
  | cons surrounding outer =>
      have sameBracket (item : Literal) :
          (Expectation.separator (slot.fill item)).bracket = list.bracket :=
        slotted_bracket slotted item
      constructor
      · intro accepts
        obtain ⟨inner, inside, rest, rfl, ends, accepted⟩ := accepts
        rcases (slotted_ends_iff slotted inner inside).mp ends with
          ⟨rfl, rfl⟩ | ⟨front, item, after, rfl, writes, ends⟩
        · exact .inl ⟨rest, rfl, accepted⟩
        · refine .inr ⟨front, item, after ++ list.bracket :: rest, ?_, writes, ?_⟩
          · exact List.append_assoc _ _ _
          · exact ⟨after, inside, rest, by rw [sameBracket], ends, accepted⟩
      · intro accepts
        rcases accepts with ⟨rest, rfl, accepted⟩ |
          ⟨front, item, _, rfl, writes, after, inside, rest, rfl, ends, accepted⟩
        · exact ⟨[], list.close, rest, rfl, (slotted_ends_iff slotted _ _).mpr (.inl ⟨rfl, rfl⟩),
            accepted⟩
        · refine ⟨front ++ after, inside, rest, ?_, ?_, accepted⟩
          · rw [sameBracket, List.append_assoc]
            rfl
          · exact (slotted_ends_iff slotted _ _).mpr (.inr ⟨front, item, after, rfl, writes, ends⟩)

theorem accepts_member_iff {done : List (String × Literal)} :
    Accepts outer (.element (.object done)) tokens literal ↔
      AcceptsEnd (.object done) tokens literal outer ∨
      ∃ token key rest, tokens = token :: rest ∧ token.key? = some key ∧
        Accepts outer (.colon done key) rest literal := by
  cases outer with
  | nil =>
      refine (members_end_iff done tokens literal).trans (or_congr Iff.rfl ?_)
      constructor
      · intro accepts
        obtain ⟨token, key, rest, rfl, named, ends⟩ := accepts
        exact ⟨token, key, _, rfl, named, rest, rfl, ends⟩
      · intro accepts
        obtain ⟨token, key, _, rfl, named, rest, rfl, ends⟩ := accepts
        exact ⟨token, key, rest, rfl, named, ends⟩
  | cons slot outer =>
      constructor
      · intro accepts
        obtain ⟨inner, inside, rest, rfl, ends, accepted⟩ := accepts
        rcases (members_end_iff done inner inside).mp ends with
          ⟨rfl, rfl⟩ | ⟨token, key, after, rfl, named, ends⟩
        · exact .inl ⟨rest, rfl, accepted⟩
        · exact .inr ⟨token, key, .colon :: after ++ .rightBrace :: rest, rfl, named,
            .colon :: after, inside, rest, rfl, ⟨after, rfl, ends⟩, accepted⟩
      · intro accepts
        rcases accepts with ⟨rest, rfl, accepted⟩ |
          ⟨token, key, _, rfl, named, _, inside, rest, rfl, ⟨after, rfl, ends⟩, accepted⟩
        · exact ⟨[], _, rest, rfl, (members_end_iff done _ _).mpr (.inl ⟨rfl, rfl⟩), accepted⟩
        · refine ⟨token :: .colon :: after, inside, rest, rfl, ?_, accepted⟩
          exact (members_end_iff done _ _).mpr (.inr ⟨token, key, after, rfl, named, ends⟩)

end Unfolding

end LineShell.Literal
