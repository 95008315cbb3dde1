import LineShell.Proofs.Assignment
import LineShell.Proofs.LexemeOrder
import LineShell.Proofs.NumeralReading

/-!
The shape of what the scanner gives, up to the end of the line or to the first error. Spaces and
operators are given late, when it is known what comes after them, and an error may come at any
moment; so the order of lexemes is stated of every run, and not only of a scan that succeeds. Main
statement: which lexemes are first, next to each other and last, and what names are made of.
-/

namespace LineShell

def operatorCharacters : List Char :=
  ['.', '=', '+', '-', '*', '/', '%', '&', '|', '<', '>', '!']

/-- The characters that cannot stand in the text of a name, but for a decimal point. -/
def reservedCharacters : List Char :=
  [' ', '\t', '\n', '\r', ';'] ++ delimiterCharacters ++ operatorCharacters

theorem name_character_unreserved {c : Char} (character : isNameCharacter c = true) :
    c ∉ reservedCharacters := by
  have checked : reservedCharacters.all (fun c => !isNameCharacter c) = true := by decide
  intro reserved
  have excluded := List.all_eq_true.mp checked c reserved
  rw [character] at excluded
  cases excluded

/-- A text without reserved characters, or digits that write an integer of 64 bits, a point and such
a text. -/
def IsPlainName (text : String) : Prop :=
  text ≠ "" ∧ ((∀ c ∈ text.toList, c ∉ reservedCharacters) ∨
    ∃ whole rest : String, text = whole ++ "." ++ rest ∧ Numeral.IsWhole whole.toList ∧
      ∀ c ∈ rest.toList, c ∉ reservedCharacters)

theorem word_plain {text : String} (word : IsWord text) : IsPlainName text := by
  induction word with
  | @first c character =>
      refine ⟨by simp, .inl ?_⟩
      rw [String.toList_singleton, List.forall_mem_singleton]
      exact name_character_unreserved character
  | @next text c _ character induction =>
      obtain ⟨_, plain | ⟨whole, rest, rfl, isWhole, plain⟩⟩ := induction
      · refine ⟨by simp, .inl ?_⟩
        rw [String.toList_push, List.forall_mem_append, List.forall_mem_singleton]
        exact ⟨plain, name_character_unreserved character⟩
      · refine ⟨by simp, .inr ⟨whole, rest.push c, ?_, isWhole, ?_⟩⟩
        · rw [← String.toList_inj]
          simp
        · rw [String.toList_push, List.forall_mem_append, List.forall_mem_singleton]
          exact ⟨plain, name_character_unreserved character⟩
  | @point text _ integer _ =>
      -- An integer has no point yet, so this is the first one.
      refine ⟨by simp, .inr ⟨text, "", ?_, Numeral.is_integer_iff.mp integer, by simp⟩⟩
      rw [← String.toList_inj]
      simp

namespace Lexeme

/-- Whether two lexemes can stand next to each other: two names cannot, and a space stands only
between operands. -/
def compatible : Lexeme → Lexeme → Bool
  | name _, name _ => false
  | space, space => false
  | space, operator _ => false
  | operator _, space => false
  | _, _ => true

theorem follow_compatible {left right : Lexeme} (order : right.canFollow (some left) = true) :
    left.compatible right = true := by
  cases left with
  | name =>
      cases right with
      | name => cases order
      | space | operator | capture => rfl
  | space =>
      cases right with
      | space | operator => cases order
      | name | capture => rfl
  | operator =>
      cases right with
      | space => cases order
      | name | operator | capture => rfl
  | capture => cases right <;> rfl

end Lexeme

/-- Lexemes that can come after `last`, each after the one before it; more may follow them. -/
def Linked : Option Lexeme → List Lexeme → Prop
  | _, [] => True
  | last, item :: rest => item.canFollow last = true ∧ item.Spelled ∧ Linked (some item) rest

section Linked

variable {last : Option Lexeme} {items : List Lexeme}

theorem linked_spelled (linked : Linked last items) : ∀ item ∈ items, item.Spelled := by
  induction items generalizing last with
  | nil => exact List.forall_mem_nil _
  | cons item rest induction =>
      obtain ⟨_, spelled, remaining⟩ := linked
      exact List.forall_mem_cons.mpr ⟨spelled, induction remaining⟩

theorem linked_compatible {before after : List Lexeme} {left right : Lexeme}
    (linked : Linked last (before ++ left :: right :: after)) : left.compatible right = true := by
  induction before generalizing last with
  | nil =>
      obtain ⟨_, _, order, _⟩ := linked
      exact Lexeme.follow_compatible order
  | cons item rest induction => exact induction linked.2.2

theorem linked_first {item : Lexeme} (linked : Linked none items) (first : items.head? = some item) :
    item ≠ .space ∧ ∀ op, item ≠ .operator op := by
  cases items with
  | nil => cases first
  | cons head rest =>
      cases first
      obtain ⟨order, _⟩ := linked
      cases item with
      | space | operator => cases order
      | name | capture => simp

theorem orderly_last (orderly : Orderly last items) (nonempty : items ≠ []) :
    items.getLast? ≠ some .space := by
  induction items generalizing last with
  | nil => exact absurd rfl nonempty
  | cons item rest induction =>
      obtain ⟨_, _, remaining⟩ := orderly
      cases rest with
      | nil => exact remaining
      | cons next others =>
          rw [List.getLast?_cons_cons]
          exact induction remaining (List.cons_ne_nil _ _)

end Linked

namespace Scanner

def items (pulls : List Pull) : List Lexeme :=
  pulls.filterMap fun pull => pull.result.toOption.map Located.item

section Runs

variable {last : Option Lexeme} {s next : Scanner}

theorem finish_linked (follows : s.Follows last) (position : Nat) :
    Linked last (items (s.pulls position [])) := by
  cases s with
  | word origin text => exact ⟨follows.1, follows.2, trivial⟩
  | operator first origin => exact ⟨follows, trivial, trivial⟩
  | start | gap | operand | done => trivial
  | capture origin text escaped delimiters =>
      simp only [pulls, finish]
      cases delimiters.innermost? <;> trivial

theorem pulls_linked (follows : s.Follows last) (position : Nat) (cs : List Char) :
    Linked last (items (s.pulls position cs)) := by
  induction cs generalizing s last position with
  | nil => exact finish_linked follows position
  | cons c rest induction =>
      cases stepped : s.step position c with
      | error e =>
          rw [pulls_of_failed stepped]
          trivial
      | ok outcome =>
          obtain ⟨emitted, next⟩ := outcome
          cases step_continues follows stepped with
          | silent followsNext =>
              rw [pulls_of_silent stepped]
              exact induction followsNext _
          | gives order spelled followsNext =>
              rw [pulls_of_given stepped]
              exact ⟨order, spelled, induction followsNext _⟩

end Runs
end Scanner

/-- Of the lexemes that the scanner gives for a line, up to its end or the first error, the first is
no space and no operator, two names are never next to each other, and a space is next to no other
space and to no operator; in a scan that succeeds the last one is no space. A name is not empty and
holds no reserved character, but for one point at most, right after an integer of 64 bits. -/
theorem lexemes_have_fixed_shape (source : String) :
    (∀ item, (Scanner.given source).head? = some item →
      item ≠ .space ∧ ∀ op, item ≠ .operator op) ∧
    (∀ before left right after, Scanner.given source = before ++ left :: right :: after →
      left.compatible right = true) ∧
    (∀ lexemes, scan source = .ok lexemes → (Scanner.given source).getLast? ≠ some .space) ∧
    ∀ text, .name text ∈ Scanner.given source → IsPlainName text := by
  have linked : Linked none (Scanner.given source) :=
    @Scanner.pulls_linked none .start rfl 0 source.toList
  refine ⟨?_, ?_, ?_, ?_⟩
  · intro item first
    exact linked_first linked first
  · intro before left right after split
    rw [split] at linked
    exact linked_compatible linked
  · intro lexemes scanned last
    have orderly := scan_orderly scanned
    rw [← Scanner.given_of_scanned scanned] at orderly
    apply orderly_last orderly _ last
    intro nothing
    rw [nothing] at last
    cases last
  · intro text member
    exact word_plain (linked_spelled linked _ member)

theorem lexemes_have_fixed_shape_before_error :
    Scanner.given "x 012.5! y)" = [.name "x", .space, .name "012.5", .operator .bang] ∧
    Lexeme.compatible (.name "012.5") (.operator .bang) = true ∧ IsPlainName "012.5" ∧
    scan "x [y] ;" = .ok [⟨.name "x", 0⟩, ⟨.space, 1⟩, ⟨.capture .array ']' "y", 2⟩] ∧
    (Scanner.given "x [y] ;").getLast? ≠ some .space := by
  have given : Scanner.given "x 012.5! y)" =
      [.name "x", .space, .name "012.5", .operator .bang] := rfl
  have scanned : scan "x [y] ;" =
      .ok [⟨.name "x", 0⟩, ⟨.space, 1⟩, ⟨.capture .array ']' "y", 2⟩] := rfl
  obtain ⟨_, adjacent, _, names⟩ := lexemes_have_fixed_shape "x 012.5! y)"
  obtain ⟨_, _, ends, _⟩ := lexemes_have_fixed_shape "x [y] ;"
  refine ⟨given, adjacent [.name "x", .space] _ _ [] given, names "012.5" ?_, scanned,
    ends _ scanned⟩
  rw [given]
  simp

end LineShell
