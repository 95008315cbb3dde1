import LineShell.Scanner

/-!
The delimiters by name: three pairs of brackets and two quotes, each with what it opens with, what
it closes with and what the text in it is read as. The scanner gives its characters exactly these
roles; every other character is plain between brackets.
-/

namespace LineShell

inductive Bracket where
  | round
  | square
  | curly
deriving DecidableEq

inductive Quote where
  | single
  | double
deriving DecidableEq

inductive Enclosure where
  | bracket (bracket : Bracket)
  | quote (quote : Quote)
deriving DecidableEq

namespace Bracket

def opener : Bracket → Char
  | round => '('
  | square => '['
  | curly => '{'

def closer : Bracket → Char
  | round => ')'
  | square => ']'
  | curly => '}'

def shape : Bracket → Shape
  | round => .tuple
  | square => .array
  | curly => .object

end Bracket

def Quote.mark : Quote → Char
  | single => '\''
  | double => '"'

namespace Enclosure

def opener : Enclosure → Char
  | bracket b => b.opener
  | quote q => q.mark

def closer : Enclosure → Char
  | bracket b => b.closer
  | quote q => q.mark

def shape : Enclosure → Shape
  | bracket b => b.shape
  | quote _ => .string

end Enclosure

/-- The characters that open or close something. -/
def delimiterCharacters : List Char := ['(', ')', '[', ']', '{', '}', '"', '\'']

def IsPlain (c : Char) : Prop := c ∉ delimiterCharacters

/-- The four characters that may stand between operands. -/
def IsBlank (c : Char) : Prop := c ∈ [' ', '\t', '\n', '\r']

def AllBlank (cs : List Char) : Prop := ∀ c ∈ cs, IsBlank c

theorem all_blank_nil : AllBlank [] := by
  intro c member
  cases member

theorem all_blank_cons {c : Char} {cs : List Char} (first : IsBlank c) (rest : AllBlank cs) :
    AllBlank (c :: cs) := List.forall_mem_cons.mpr ⟨first, rest⟩

theorem all_blank_push {c : Char} {cs : List Char} (blanks : AllBlank cs) (last : IsBlank c) :
    AllBlank (cs ++ [c]) := by
  intro b member
  rcases List.mem_append.mp member with earlier | here
  · exact blanks b earlier
  · rw [List.mem_singleton.mp here]
    exact last

theorem blank_of_outside {c : Char} (role : Character.outside c = some .blank) : IsBlank c := by
  unfold Character.outside Character.roles at role
  split at role <;> simp_all [IsBlank]

theorem semicolon_of_outside {c : Char} (role : Character.outside c = some .terminator) :
    c = ';' := by
  unfold Character.outside Character.roles at role
  split at role <;> simp_all

theorem blank_size {c : Char} (blank : IsBlank c) : c.utf8Size = 1 := by
  simp only [IsBlank, List.mem_cons, List.not_mem_nil, or_false] at blank
  rcases blank with rfl | rfl | rfl | rfl <;> decide

theorem outside_opening_iff (c : Char) :
    Character.outside c = some .opening ↔ ∃ e : Enclosure, c = e.opener := by
  constructor
  · intro role
    unfold Character.outside Character.roles at role
    split at role <;> simp_all
    · exact ⟨.bracket .curly, rfl⟩
    · exact ⟨.bracket .square, rfl⟩
    · exact ⟨.bracket .round, rfl⟩
    · exact ⟨.quote .double, rfl⟩
    · exact ⟨.quote .single, rfl⟩
  · intro found
    obtain ⟨e, rfl⟩ := found
    cases e with
    | bracket b => cases b <;> rfl
    | quote q => cases q <;> rfl

/-- The dictionary has one closing character for each opener, and reads the text as its shape. -/
theorem closing_role_iff (e : Enclosure) (c : Char) (shape : Shape) :
    .closing e.opener shape ∈ Character.roles c ↔ c = e.closer ∧ shape = e.shape := by
  constructor
  · intro member
    unfold Character.roles at member
    cases e with
    | bracket b => cases b <;> split at member <;> simp_all [Enclosure.opener, Bracket.opener,
        Enclosure.closer, Bracket.closer, Enclosure.shape, Bracket.shape]
    | quote q => cases q <;> split at member <;> simp_all [Enclosure.opener, Quote.mark,
        Enclosure.closer, Enclosure.shape]
  · intro found
    obtain ⟨rfl, rfl⟩ := found
    cases e with
    | bracket b => cases b <;> exact List.mem_cons_self
    | quote q => cases q <;> exact List.mem_cons_of_mem _ List.mem_cons_self

theorem partner_closer (e : Enclosure) : Character.partner? e.closer = some e.opener := by
  cases e with
  | bracket b => cases b <;> rfl
  | quote q => cases q <;> rfl

/-- The characters between brackets, one case for each role that they can have there. -/
theorem character_cases (c : Char) :
    (∃ e : Enclosure, c = e.opener) ∨ (∃ b : Bracket, c = b.closer) ∨ IsPlain c := by
  by_cases delimiter : c ∈ delimiterCharacters
  · simp only [delimiterCharacters, List.mem_cons, List.not_mem_nil, or_false] at delimiter
    rcases delimiter with rfl | rfl | rfl | rfl | rfl | rfl | rfl | rfl
    · exact .inl ⟨.bracket .round, rfl⟩
    · exact .inr (.inl ⟨.round, rfl⟩)
    · exact .inl ⟨.bracket .square, rfl⟩
    · exact .inr (.inl ⟨.square, rfl⟩)
    · exact .inl ⟨.bracket .curly, rfl⟩
    · exact .inr (.inl ⟨.curly, rfl⟩)
    · exact .inl ⟨.quote .double, rfl⟩
    · exact .inl ⟨.quote .single, rfl⟩
  · exact .inr (.inr delimiter)

theorem enclosed_opener (e : Enclosure) : Character.enclosed e.opener = some .opening := by
  cases e with
  | bracket b => cases b <;> rfl
  | quote q => cases q <;> rfl

theorem enclosed_closer (b : Bracket) :
    Character.enclosed b.closer = some (.closing b.opener b.shape) := by
  cases b <;> rfl

theorem enclosed_plain {c : Char} (plain : IsPlain c) : Character.enclosed c = none := by
  unfold Character.enclosed Character.roles
  split <;> simp_all [IsPlain, delimiterCharacters, Role.kind]

theorem bracket_is_no_quote (b : Bracket) : Character.isQuote b.opener = false := by
  cases b <;> rfl

theorem quote_is_quote (q : Quote) : Character.isQuote q.mark = true := by
  cases q <;> rfl

theorem bracket_opener_injective {b other : Bracket} (same : b.opener = other.opener) :
    b = other := by
  revert same
  cases b <;> cases other <;> decide

theorem bracket_closer_injective {b other : Bracket} (same : b.closer = other.closer) :
    b = other := by
  revert same
  cases b <;> cases other <;> decide

theorem quote_mark_injective {q other : Quote} (same : q.mark = other.mark) : q = other := by
  revert same
  cases q <;> cases other <;> decide

theorem mark_is_no_opener (q : Quote) (b : Bracket) : q.mark ≠ b.opener := by
  cases q <;> cases b <;> decide

theorem mark_is_no_closer (q : Quote) (b : Bracket) : q.mark ≠ b.closer := by
  cases q <;> cases b <;> decide

theorem opener_is_no_closer (b other : Bracket) : b.opener ≠ other.closer := by
  cases b <;> cases other <;> decide

end LineShell
