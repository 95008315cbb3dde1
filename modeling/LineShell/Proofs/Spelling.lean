import LineShell.Proofs.Nesting
import LineShell.Proofs.Splitting

/-!
Texts that spell values. Such a text splits into tokens of the grammar of literals that denote the
value, whatever names stand for, and its brackets balance, so that the scanner keeps it whole. Main
statements: a list of texts that spell its elements spells the list between brackets, and has the
value of the list when the brackets are taken off.
-/

namespace LineShell

open Literal

/-- The text splits into tokens of the grammar that denote this value, whatever names stand for,
and its brackets balance. -/
def Spells (text : List Char) (value : Value) : Prop :=
  Balanced text ∧ ∃ tokens literal, SplitsInto text tokens ∧ Writes tokens literal ∧
    ∀ lookup, literal.value lookup = value

def SpellsItems (text : List Char) (values : List Value) : Prop :=
  Balanced text ∧ ∃ tokens items, SplitsInto text tokens ∧ WritesItems tokens items ∧
    ∀ lookup, items.map (Literal.value lookup) = values

def SpellsMembers (text : List Char) (values : List (String × Value)) : Prop :=
  Balanced text ∧ ∃ tokens members, SplitsInto text tokens ∧ WritesMembers tokens members ∧
    ∀ lookup, members.map (fun member => (member.1, Literal.value lookup member.2)) = values

theorem plain_balanced {text : List Char} (plain : ∀ c ∈ text, IsPlain c) : Balanced text := by
  induction text with
  | nil => exact .nil
  | cons c others induction =>
      apply Balanced.plain (plain c List.mem_cons_self)
      exact induction fun other member => plain other (List.mem_cons_of_mem _ member)

theorem integer_text_plain (n : Int64) : ∀ c ∈ (integerText n).toList, IsPlain c := by
  have digits (size : Nat) : ∀ c ∈ Nat.toDigits 10 size, IsPlain c := by
    intro c member
    exact plain_of_class isDigit (by decide) (to_digits_digit size c member)
  unfold integerText
  split
  · rw [String.toList_ofList]
    exact digits _
  · rw [String.toList_ofList]
    rw [List.forall_mem_cons]
    exact ⟨by simp [IsPlain, delimiterCharacters], digits _⟩

theorem identifier_plain {name : String} (identifier : IsIdentifier name) :
    ∀ c ∈ name.toList, IsPlain c := by
  obtain ⟨first, tail, split, start, parts⟩ := identifier
  rw [split, List.forall_mem_cons]
  refine ⟨plain_of_class isNameStart (by decide) start, ?_⟩
  intro c member
  exact plain_of_class isNamePart (by decide) (parts c member)

theorem blank_plain : IsPlain ' ' := by simp [IsPlain, delimiterCharacters]

theorem comma_plain : IsPlain ',' := by simp [IsPlain, delimiterCharacters]

theorem colon_plain : IsPlain ':' := by simp [IsPlain, delimiterCharacters]

theorem atom_spells {text : List Char} {token : Token} {literal : Literal} {value : Value}
    (balanced : Balanced text) (splits : SplitsInto text [token])
    (atomic : token.atom? = some literal) (denotes : ∀ lookup, literal.value lookup = value) :
    Spells text value :=
  ⟨balanced, [token], literal, splits, .atom atomic, denotes⟩

theorem keyword_identifier {name : String} (keyword : name ∈ keywords) : IsIdentifier name := by
  simp only [keywords, List.mem_cons, List.not_mem_nil, or_false] at keyword
  rcases keyword with rfl | rfl | rfl | rfl
  · exact ⟨'t', "rue".toList, by decide, by decide, List.all_eq_true.mp (by decide)⟩
  · exact ⟨'f', "alse".toList, by decide, by decide, List.all_eq_true.mp (by decide)⟩
  · exact ⟨'n', "ull".toList, by decide, by decide, List.all_eq_true.mp (by decide)⟩
  · exact ⟨'u', "ndefined".toList, by decide, by decide, List.all_eq_true.mp (by decide)⟩

theorem keyword_spells {name : String} {literal : Literal} {value : Value}
    (keyword : name ∈ keywords) (atomic : (wordToken name).atom? = some literal)
    (denotes : ∀ lookup, literal.value lookup = value) : Spells name.toList value := by
  have identifier := keyword_identifier keyword
  have balanced := plain_balanced (identifier_plain identifier)
  exact atom_spells balanced (word_splits identifier) atomic denotes

theorem integer_spells (n : Int64) : Spells (integerText n).toList (.integer n) := by
  apply atom_spells (plain_balanced (integer_text_plain n)) (integer_splits n) rfl
  intro lookup
  rw [Literal.value]

theorem quoted_spells {q : Quote} {raw : List Char} {text : String}
    (escapes : Escapes q.mark raw text.toList) :
    Spells (q.mark :: raw ++ [q.mark]) (.string text) := by
  have splits := quoted_splits escapes
  rw [String.ofList_toList] at splits
  apply atom_spells (.quoted q (escapes_quoted escapes) .nil) splits rfl
  intro lookup
  rw [Literal.value]

section Lists

variable {text more key : List Char} {value : Value}

theorem nothing_spells_items : SpellsItems [] [] :=
  ⟨.nil, [], [], empty_splits, .nil, fun _ => rfl⟩

theorem last_item_spells (spells : Spells text value) : SpellsItems text [value] := by
  obtain ⟨balanced, tokens, literal, splits, writes, denotes⟩ := spells
  refine ⟨balanced, tokens, [literal], splits, .last writes, ?_⟩
  intro lookup
  rw [List.map_singleton, denotes]

theorem next_item_spells {values : List Value} (spells : Spells text value)
    (others : SpellsItems more values) :
    SpellsItems (text ++ ',' :: ' ' :: more) (value :: values) := by
  obtain ⟨balanced, tokens, literal, splits, writes, denotes⟩ := spells
  obtain ⟨balancedMore, rest, items, splitsMore, writesMore, denotesMore⟩ := others
  refine ⟨balanced_append balanced (.plain comma_plain (.plain blank_plain balancedMore)), _,
    literal :: items, separated_splits splits splitsMore, .next writes writesMore, ?_⟩
  intro lookup
  rw [List.map_cons, denotes, denotesMore]

theorem key_splits {key : String} (identifier : IsIdentifier key) (free : key ∉ keywords) :
    SplitsInto key.toList [.identifier key] := by
  have splits := word_splits identifier
  rw [word_token_identifier free] at splits
  exact splits

theorem member_balanced {key : String} (identifier : IsIdentifier key)
    (balanced : Balanced text) : Balanced (key.toList ++ ':' :: ' ' :: text) := by
  apply balanced_append (plain_balanced (identifier_plain identifier))
  exact .plain colon_plain (.plain blank_plain balanced)

theorem last_member_spells {key : String} (identifier : IsIdentifier key) (free : key ∉ keywords)
    (spells : Spells text value) :
    SpellsMembers (key.toList ++ ':' :: ' ' :: text) [(key, value)] := by
  obtain ⟨balanced, tokens, literal, splits, writes, denotes⟩ := spells
  refine ⟨member_balanced identifier balanced, _, [(key, literal)],
    member_splits (key_splits identifier free) splits, .last rfl writes, ?_⟩
  intro lookup
  rw [List.map_singleton, denotes]

theorem next_member_spells {key : String} {values : List (String × Value)}
    (identifier : IsIdentifier key) (free : key ∉ keywords) (spells : Spells text value)
    (others : SpellsMembers more values) :
    SpellsMembers (key.toList ++ ':' :: ' ' :: text ++ ',' :: ' ' :: more)
      ((key, value) :: values) := by
  obtain ⟨balanced, tokens, literal, splits, writes, denotes⟩ := spells
  obtain ⟨balancedMore, rest, members, splitsMore, writesMore, denotesMore⟩ := others
  have splitsFirst := member_splits (key_splits identifier free) splits
  refine ⟨balanced_append (member_balanced identifier balanced)
    (.plain comma_plain (.plain blank_plain balancedMore)), _, (key, literal) :: members,
    separated_splits splitsFirst splitsMore, .next rfl writes writesMore, ?_⟩
  intro lookup
  rw [List.map_cons, denotes, denotesMore]

end Lists

/-- Between this pair of brackets, the text is the inside of this value. -/
inductive Composes : Bracket → List Char → Value → Prop where
  | tuple {text : List Char} {items : List Value} (inside : SpellsItems text items) :
      Composes .round text (.tuple items)
  | array {text : List Char} {items : List Value} (inside : SpellsItems text items) :
      Composes .square text (.array items)
  | object {text : List Char} {members : List (String × Value)}
      (inside : SpellsMembers text members) : Composes .curly text (.object members)

section Composites

variable {b : Bracket} {text : List Char} {value : Value}

theorem composes_balanced (composes : Composes b text value) : Balanced text := by
  cases composes with
  | tuple inside => exact inside.1
  | array inside => exact inside.1
  | object inside => exact inside.1

theorem composes_ends (composes : Composes b text value) :
    ∃ list tokens literal, outermost? b.shape = some list ∧ SplitsInto text tokens ∧
      list.Ends tokens literal ∧ ∀ lookup, literal.value lookup = value := by
  cases composes with
  | tuple inside =>
      obtain ⟨_, tokens, items, splits, writes, denotes⟩ := inside
      refine ⟨.tuple [], tokens, .tuple items, rfl, splits, ⟨items, writes, rfl⟩, ?_⟩
      intro lookup
      rw [tuple_value, denotes]
  | array inside =>
      obtain ⟨_, tokens, items, splits, writes, denotes⟩ := inside
      refine ⟨.array [], tokens, .array items, rfl, splits, ⟨items, writes, rfl⟩, ?_⟩
      intro lookup
      rw [array_value, denotes]
  | object inside =>
      obtain ⟨_, tokens, members, splits, writes, denotes⟩ := inside
      refine ⟨.object [], tokens, .object members, rfl, splits, ⟨members, writes, rfl⟩, ?_⟩
      intro lookup
      rw [object_value, denotes]

theorem bracket_opens_outermost {list : OpenList} (composite : outermost? b.shape = some list) :
    (bracketTokens b).1.opens? = some list ∧ list.bracket = (bracketTokens b).2 := by
  cases b <;> cases composite <;> exact ⟨rfl, rfl⟩

theorem composes_spells (composes : Composes b text value) :
    Spells (b.opener :: text ++ [b.closer]) value := by
  obtain ⟨list, tokens, literal, composite, splits, ends, denotes⟩ := composes_ends composes
  obtain ⟨opens, closes⟩ := bracket_opens_outermost composite
  refine ⟨.bracket b (composes_balanced composes) .nil, _, literal, enclosed_splits b splits, ?_,
    denotes⟩
  rw [← closes]
  exact (writes_cons_iff _ _ _).mpr (.inr ⟨list, tokens, opens, rfl, ends⟩)

theorem composes_value (composes : Composes b text value) (env : Environment) (position : Nat) :
    env.valueOf b.shape (String.ofList text) position = .ok value := by
  obtain ⟨list, tokens, literal, composite, splits, ends, denotes⟩ := composes_ends composes
  rw [Environment.value_of_composite_iff composite]
  refine ⟨tokens, literal, lexes_raw ?_, ends, (denotes env.sourceOf).symm⟩
  rw [String.toList_ofList]
  exact splits_whole splits

end Composites

end LineShell
