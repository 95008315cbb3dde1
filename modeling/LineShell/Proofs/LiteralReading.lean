import LineShell.Proofs.LiteralDenotation
import LineShell.Proofs.LiteralGrammar
import LineShell.Proofs.LiteralParsing

/-!
The reader accepts exactly the grammar. One token moves a state to the state that accepts the rest,
and the tokens may end exactly where a state accepts the end; so a whole run reads the tokens of
the grammar and no others. No text has two meanings, because the reader is deterministic.
-/

namespace LineShell.Literal

namespace Reader

section Steps

variable {outer : List Slot} {token : Token} {rest : List Token} {literal : Literal}

theorem begin_eq (slot : Slot) (outer : List Slot) (token : Token) :
    begin slot outer token =
      match token.atom?, token.opens? with
      | some item, _ => .ok ⟨.separator (slot.fill item), outer⟩
      | none, some list => .ok ⟨.element list, slot :: outer⟩
      | none, none => .error (.unexpected token) := by
  cases token <;> rfl

theorem opens_no_atom {list : OpenList} (opens : token.opens? = some list) :
    token.atom? = none := by
  cases token <;> cases opens <;> rfl

/-- The first token of a value fills the slot, or opens the list that will fill it. -/
theorem begin_iff (slot : Slot) :
    AcceptsValue slot outer (token :: rest) literal ↔
      ∃ next, begin slot outer token = .ok next ∧
        Accepts next.outer next.innermost rest literal := by
  rw [begin_eq]
  constructor
  · intro accepts
    obtain ⟨front, item, after, same, writes, accepted⟩ := accepts
    cases front with
    | nil => exact absurd rfl (writes_nonempty writes)
    | cons first tokens =>
        obtain ⟨rfl, rfl⟩ := List.cons.inj same
        rcases (writes_cons_iff token tokens item).mp writes with
          ⟨rfl, atomic⟩ | ⟨list, inner, opens, rfl, ends⟩
        · rw [atomic]
          exact ⟨_, rfl, accepted⟩
        · rw [opens_no_atom opens, opens]
          exact ⟨_, rfl, inner, item, after, List.append_assoc _ _ _, ends, accepted⟩
  · intro reached
    obtain ⟨next, begun, accepted⟩ := reached
    split at begun
    · rename_i item atomic
      cases begun
      exact ⟨[token], item, rest, rfl, .atom atomic, accepted⟩
    · rename_i list _ opens
      cases begun
      obtain ⟨inner, item, after, rfl, ends, accepted⟩ := accepted
      have writes := (writes_cons_iff _ _ _).mpr (.inr ⟨list, inner, opens, rfl, ends⟩)
      exact ⟨_, item, after, (List.append_assoc (token :: inner) [_] after).symm, writes, accepted⟩
    · cases begun

theorem close_iff (list : OpenList) :
    AcceptsEnd list (token :: rest) literal outer ↔
      ∃ next, close? list outer token = some next ∧
        Accepts next.outer next.innermost rest literal := by
  cases outer with
  | nil =>
      constructor
      · intro accepts
        obtain ⟨impossible, _⟩ := accepts
        cases impossible
      · intro reached
        obtain ⟨next, impossible, _⟩ := reached
        cases impossible
  | cons slot outer =>
      simp only [close?]
      constructor
      · intro accepts
        obtain ⟨after, same, accepted⟩ := accepts
        obtain ⟨rfl, rfl⟩ := List.cons.inj same
        exact ⟨_, if_pos rfl, accepted⟩
      · intro reached
        obtain ⟨next, closed, accepted⟩ := reached
        split at closed
        · rename_i bracket
          cases closed
          exact ⟨rest, by rw [bracket], accepted⟩
        · cases closed

theorem close_bracket {list : OpenList} {next : Reader}
    (closed : close? list outer token = some next) : token = list.bracket := by
  unfold close? at closed
  split at closed
  · cases closed
  · split at closed
    · assumption
    · cases closed

theorem close_none_of_begins {list : OpenList} {next : Reader}
    (begun : beginElement list outer token = .ok next) : close? list outer token = none := by
  cases closed : close? list outer token with
  | none => rfl
  | some other =>
      rw [close_bracket closed] at begun
      cases list <;> cases begun

theorem begin_element_iff (list : OpenList) :
    Accepts outer (.element list) (token :: rest) literal ↔
      AcceptsEnd list (token :: rest) literal outer ∨
      ∃ next, beginElement list outer token = .ok next ∧
        Accepts next.outer next.innermost rest literal := by
  cases list with
  | tuple done => exact (accepts_element_iff rfl).trans (or_congr Iff.rfl (begin_iff (.tuple done)))
  | array done => exact (accepts_element_iff rfl).trans (or_congr Iff.rfl (begin_iff (.array done)))
  | object done =>
      refine accepts_member_iff.trans (or_congr Iff.rfl ?_)
      rw [begin_member]
      constructor
      · intro accepts
        obtain ⟨first, key, after, same, named, accepted⟩ := accepts
        obtain ⟨rfl, rfl⟩ := List.cons.inj same
        rw [named]
        exact ⟨_, rfl, accepted⟩
      · intro reached
        obtain ⟨next, begun, accepted⟩ := reached
        split at begun
        · rename_i key named
          cases begun
          exact ⟨token, key, rest, rfl, named, accepted⟩
        · cases begun

/-- One token: a state accepts it exactly if the step goes to a state that accepts the rest. -/
theorem step_iff (expected : Expectation) :
    Accepts outer expected (token :: rest) literal ↔
      ∃ next, step ⟨expected, outer⟩ token = .ok next ∧
        Accepts next.outer next.innermost rest literal := by
  cases expected with
  | element list =>
      rw [begin_element_iff, close_iff]
      simp only [step]
      constructor
      · intro reached
        rcases reached with ⟨next, closed, accepted⟩ | ⟨next, begun, accepted⟩
        · rw [closed]
          exact ⟨next, rfl, accepted⟩
        · rw [close_none_of_begins begun]
          exact ⟨next, begun, accepted⟩
      · intro reached
        obtain ⟨next, stepped, accepted⟩ := reached
        split at stepped
        · rename_i closed
          cases stepped
          exact .inl ⟨next, closed, accepted⟩
        · exact .inr ⟨next, stepped, accepted⟩
  | colon members key =>
      rw [accepts_colon_iff]
      simp only [step]
      constructor
      · intro accepts
        obtain ⟨after, same, accepted⟩ := accepts
        obtain ⟨rfl, rfl⟩ := List.cons.inj same
        exact ⟨_, if_pos rfl, accepted⟩
      · intro reached
        obtain ⟨next, stepped, accepted⟩ := reached
        split at stepped
        · rename_i isColon
          cases stepped
          exact ⟨rest, by rw [isColon], accepted⟩
        · cases stepped
  | value members key =>
      rw [accepts_value_iff]
      exact begin_iff (.object members key)
  | separator list =>
      rw [accepts_separator_iff, close_iff]
      simp only [step]
      constructor
      · intro reached
        rcases reached with ⟨next, closed, accepted⟩ | ⟨after, same, accepted⟩
        · rw [closed]
          exact ⟨next, rfl, accepted⟩
        · obtain ⟨rfl, rfl⟩ := List.cons.inj same
          have unclosed : close? list outer .comma = none := by
            cases closed : close? list outer .comma with
            | none => rfl
            | some next =>
                have bracket := close_bracket closed
                cases list <;> cases bracket
          rw [unclosed]
          exact ⟨_, if_pos rfl, accepted⟩
      · intro reached
        obtain ⟨next, stepped, accepted⟩ := reached
        split at stepped
        · rename_i closed
          cases stepped
          exact .inl ⟨next, closed, accepted⟩
        · split at stepped
          · rename_i isComma
            cases stepped
            exact .inr ⟨rest, by rw [isComma], accepted⟩
          · cases stepped

end Steps

theorem finish_iff (outer : List Slot) (expected : Expectation) (literal : Literal) :
    Accepts outer expected [] literal ↔ finish ⟨expected, outer⟩ = .ok literal := by
  cases outer with
  | cons slot outer =>
      constructor
      · intro accepts
        obtain ⟨inner, inside, rest, impossible, _⟩ := accepts
        exact absurd impossible.symm (by simp)
      · intro finished
        cases expected with
        | element list => cases list <;> cases finished
        | colon members key => cases finished
        | value members key => cases finished
        | separator list => cases finished
  | nil =>
      cases expected with
      | element list =>
          have closes : finish ⟨.element list, []⟩ = .ok list.close := by cases list <;> rfl
          rw [closes, Except.ok.injEq]
          exact (ends_nil_iff list literal).trans eq_comm
      | colon members key =>
          constructor
          · intro accepts
            obtain ⟨rest, impossible, _⟩ := accepts
            cases impossible
          · intro finished
            cases finished
      | value members key =>
          constructor
          · intro ends
            exact absurd ends (slot_needs_tokens _ _)
          · intro finished
            cases finished
      | separator list =>
          have closes : finish ⟨.separator list, []⟩ = .ok list.close := by cases list <;> rfl
          rw [closes, Except.ok.injEq]
          constructor
          · intro accepts
            rcases accepts with ⟨_, rfl⟩ | ⟨rest, impossible, _⟩
            · rfl
            · cases impossible
          · intro same
            subst same
            exact .inl ⟨rfl, rfl⟩

theorem steps_cons (r : Reader) (token : Token) (rest : List Token) :
    steps r (token :: rest) = step r token >>= fun next => steps next rest := rfl

theorem steps_iff (r : Reader) (tokens : List Token) (literal : Literal) :
    Accepts r.outer r.innermost tokens literal ↔
      ∃ last, steps r tokens = .ok last ∧ last.finish = .ok literal := by
  induction tokens generalizing r with
  | nil =>
      rw [finish_iff]
      constructor
      · intro finished
        exact ⟨r, rfl, finished⟩
      · intro reached
        obtain ⟨last, stepped, finished⟩ := reached
        cases stepped
        exact finished
  | cons token rest induction =>
      rw [step_iff, steps_cons]
      constructor
      · intro reached
        obtain ⟨next, stepped, accepted⟩ := reached
        rw [stepped]
        exact (induction next).mp accepted
      · intro reached
        obtain ⟨last, stepped, finished⟩ := reached
        cases first : step r token with
        | error fault =>
            rw [first] at stepped
            cases stepped
        | ok next =>
            rw [first] at stepped
            exact ⟨next, rfl, (induction next).mpr ⟨last, stepped, finished⟩⟩

theorem read_iff (list : OpenList) (tokens : List Token) (stuck : Option Nat)
    (literal : Literal) :
    read list tokens stuck = .ok literal ↔ stuck = none ∧ list.Ends tokens literal := by
  have accepted := steps_iff ⟨.element list, []⟩ tokens literal
  unfold read result
  constructor
  · intro found
    split at found
    · cases found
    · cases found
    · rename_i last stepped
      exact ⟨rfl, accepted.mpr ⟨last, stepped, found⟩⟩
  · intro accepts
    obtain ⟨rfl, ends⟩ := accepts
    obtain ⟨last, stepped, finished⟩ := accepted.mp ends
    rw [stepped]
    exact finished

end Reader

theorem ends_unique {list : OpenList} {tokens : List Token} {literal other : Literal}
    (ends : list.Ends tokens literal) (endsOther : list.Ends tokens other) : literal = other := by
  have found := (Reader.read_iff list tokens none literal).mpr ⟨rfl, ends⟩
  have foundOther := (Reader.read_iff list tokens none other).mpr ⟨rfl, endsOther⟩
  rw [found] at foundOther
  exact Except.ok.inj foundOther

/-- The text splits into these tokens, and nothing of it is left. -/
def Lexes (raw : String) (tokens : List Token) : Prop :=
  (lex raw).fault = none ∧ (lex raw).tokens.map Spanned.token = tokens

def outermost? : Shape → Option OpenList
  | .tuple => some (.tuple [])
  | .array => some (.array [])
  | .object => some (.object [])
  | .string => none

theorem read_composite {shape : Shape} {list : OpenList} (composite : outermost? shape = some list)
    (raw : String) :
    read shape raw = Reader.read list ((lex raw).tokens.map Spanned.token) (lex raw).fault := by
  cases shape <;> cases composite <;> rfl

theorem read_composite_iff {shape : Shape} {list : OpenList}
    (composite : outermost? shape = some list) (raw : String) (literal : Literal) :
    read shape raw = .ok literal ↔ ∃ tokens, Lexes raw tokens ∧ list.Ends tokens literal := by
  have accepted := Reader.read_iff list ((lex raw).tokens.map Spanned.token) (lex raw).fault literal
  rw [read_composite composite, accepted]
  constructor
  · intro written
    obtain ⟨clean, ends⟩ := written
    exact ⟨_, ⟨clean, rfl⟩, ends⟩
  · intro written
    obtain ⟨tokens, ⟨clean, rfl⟩, ends⟩ := written
    exact ⟨clean, ends⟩

end LineShell.Literal

/-- What a text has to be delimited as to have this value. -/
def LineShell.Value.shape? : Value → Option Shape
  | .tuple _ => some .tuple
  | .array _ => some .array
  | .object _ => some .object
  | .string _ => some .string
  | _ => none

namespace LineShell.Environment

open Literal

theorem value_of_composite_iff {shape : Shape} {list : OpenList}
    (composite : outermost? shape = some list) (env : Environment) (raw : String) (position : Nat)
    (value : Value) : env.valueOf shape raw position = .ok value ↔
      ∃ tokens literal, Lexes raw tokens ∧ list.Ends tokens literal ∧
        value = literal.value env.sourceOf := by
  have accepted := read_composite_iff composite raw
  rw [value_of_read]
  constructor
  · intro same
    split at same
    · rename_i literal found
      cases same
      obtain ⟨tokens, lexes, ends⟩ := (accepted literal).mp found
      exact ⟨tokens, literal, lexes, ends, rfl⟩
    · cases same
  · intro written
    obtain ⟨tokens, literal, lexes, ends, rfl⟩ := written
    rw [(accepted literal).mpr ⟨tokens, lexes, ends⟩]

theorem value_of_shape {env : Environment} {shape : Shape} {raw : String} {position : Nat}
    {value : Value} (reads : env.valueOf shape raw position = .ok value) :
    value.shape? = some shape := by
  cases shape with
  | string =>
      cases reads
      rfl
  | tuple =>
      obtain ⟨_, _, _, ⟨items, _, rfl⟩, rfl⟩ :=
        (value_of_composite_iff rfl env raw position value).mp reads
      rw [tuple_value]
      rfl
  | array =>
      obtain ⟨_, _, _, ⟨items, _, rfl⟩, rfl⟩ :=
        (value_of_composite_iff rfl env raw position value).mp reads
      rw [array_value]
      rfl
  | object =>
      obtain ⟨_, _, _, ⟨members, _, rfl⟩, rfl⟩ :=
        (value_of_composite_iff rfl env raw position value).mp reads
      rw [object_value]
      rfl

/-- A composite text has a value exactly if its tokens are in the grammar, and then the one that the
literal denotes; any other composite text is malformed, and a quoted text never is. -/
theorem value_of_accepts_exactly_grammar (env : Environment) (raw : String) (position : Nat) :
    (∀ value, env.valueOf .tuple raw position = .ok value ↔
      ∃ tokens items values, Lexes raw tokens ∧ WritesItems tokens items ∧
        DenotesItems env items values ∧ value = .tuple values) ∧
    (∀ value, env.valueOf .array raw position = .ok value ↔
      ∃ tokens items values, Lexes raw tokens ∧ WritesItems tokens items ∧
        DenotesItems env items values ∧ value = .array values) ∧
    (∀ value, env.valueOf .object raw position = .ok value ↔
      ∃ tokens members values, Lexes raw tokens ∧ WritesMembers tokens members ∧
        DenotesMembers env members values ∧ value = .object values) ∧
    (∀ tokens items other, WritesItems tokens items → WritesItems tokens other → items = other) ∧
    (∀ tokens members other, WritesMembers tokens members → WritesMembers tokens other →
      members = other) ∧
    (∀ items values others, DenotesItems env items values → DenotesItems env items others →
      values = others) ∧
    (∀ members values others, DenotesMembers env members values →
      DenotesMembers env members others → values = others) ∧
    (∀ shape error, env.valueOf shape raw position = .error error →
      ∃ fault, error = ⟨.malformedLiteral fault, position⟩) ∧
    env.valueOf .string raw position = .ok (.string (Text.unescape raw)) := by
  refine ⟨?_, ?_, ?_, ?_, ?_, ?_, ?_, ?_, rfl⟩
  · intro value
    rw [@value_of_composite_iff .tuple _ rfl]
    constructor
    · intro written
      obtain ⟨tokens, _, lexes, ⟨items, writes, rfl⟩, rfl⟩ := written
      exact ⟨tokens, items, _, lexes, writes, item_values_denoted items, rfl⟩
    · intro written
      obtain ⟨tokens, items, values, lexes, writes, denotes, rfl⟩ := written
      rw [denotes_item_values denotes]
      exact ⟨tokens, _, lexes, ⟨items, writes, rfl⟩, rfl⟩
  · intro value
    rw [@value_of_composite_iff .array _ rfl]
    constructor
    · intro written
      obtain ⟨tokens, _, lexes, ⟨items, writes, rfl⟩, rfl⟩ := written
      exact ⟨tokens, items, _, lexes, writes, item_values_denoted items, rfl⟩
    · intro written
      obtain ⟨tokens, items, values, lexes, writes, denotes, rfl⟩ := written
      rw [denotes_item_values denotes]
      exact ⟨tokens, _, lexes, ⟨items, writes, rfl⟩, rfl⟩
  · intro value
    rw [@value_of_composite_iff .object _ rfl]
    constructor
    · intro written
      obtain ⟨tokens, _, lexes, ⟨members, writes, rfl⟩, rfl⟩ := written
      exact ⟨tokens, members, _, lexes, writes, member_values_denoted members, rfl⟩
    · intro written
      obtain ⟨tokens, members, values, lexes, writes, denotes, rfl⟩ := written
      rw [denotes_member_values denotes]
      exact ⟨tokens, _, lexes, ⟨members, writes, rfl⟩, rfl⟩
  · intro tokens items other writes writesOther
    have same := @ends_unique (.tuple []) tokens (.tuple items) (.tuple other)
      ⟨items, writes, rfl⟩ ⟨other, writesOther, rfl⟩
    injection same
  · intro tokens members other writes writesOther
    have same := @ends_unique (.object []) tokens (.object members) (.object other)
      ⟨members, writes, rfl⟩ ⟨other, writesOther, rfl⟩
    injection same
  · intro items values others denotes denotesOther
    rw [denotes_item_values denotes, denotes_item_values denotesOther]
  · intro members values others denotes denotesOther
    rw [denotes_member_values denotes, denotes_member_values denotesOther]
  · intro shape error failed
    unfold valueOf at failed
    split at failed
    · cases failed
    · rename_i fault _
      cases failed
      exact ⟨fault, rfl⟩

end LineShell.Environment
