import LineShell.Proofs.TokenBreaks
import Mathlib.Computability.Language

/-!
The patterns of tokens. Every rule of the lexer has a pattern, built from classes of characters with
the operations of regular languages, and says which token a text of its pattern stands for. At a
place the longest text counts that a pattern has there. Where several patterns have it, the rule of
the highest priority makes the token, and only keywords have a higher one than the rest.
-/

namespace LineShell.Literal

open Computability

namespace Pattern

/-- One character of a class. -/
def among (inClass : Char → Bool) : Language Char := {text | ∃ c, inClass c = true ∧ text = [c]}

def exactly (text : List Char) : Language Char := {other | other = text}

def optional (pattern : Language Char) : Language Char := 1 + pattern

def digits : Language Char := among isDigit * (among isDigit)∗

def isMark (c : Char) : Bool := c == 'e' || c == 'E'

def exponent : Language Char :=
  among isMark * (optional (among fun c => c == '+' || c == '-') * digits)

def signed (pattern : Language Char) : Language Char := optional (exactly ['-']) * pattern

def fractional : Language Char := signed (digits * (exactly ['.'] * (digits * optional exponent)))

def scaled : Language Char := signed (digits * exponent)

def whole : Language Char := signed digits

def name : Language Char := among isNameStart * (among isNamePart)∗

/-- What stands between two marks: any character but the mark and the backslash, or a backslash with
a character of the same line. -/
def piece (mark : Char) : Language Char :=
  among (fun c => c != mark && c != '\\') + exactly ['\\'] * among (· != '\n')

def quoted (mark : Char) : Language Char := exactly [mark] * ((piece mark)∗ * exactly [mark])

end Pattern

structure Rule where
  pattern : Language Char
  priority : Nat
  /-- The token of a text, if it has one: an integer may have too many digits. -/
  token : List Char → Option Token

namespace Rule

/-- The digits of a text before its point, those between the point and the mark of an exponent, and
the power of ten after the mark. -/
def decimalOf (text : List Char) : Decimal :=
  let mantissa := text.takeWhile (!Pattern.isMark ·)
  let power := text.dropWhile (!Pattern.isMark ·)
  let size : Int := digitsValue (power.filter isDigit)
  Decimal.ofParts (text.head? == some '-')
    ((mantissa.takeWhile (· != '.')).filter isDigit)
    ((mantissa.dropWhile (· != '.')).filter isDigit)
    (if '-' ∈ power then -size else size)

def realToken (text : List Char) : Option Token := some (.real (Double.ofDecimal (decimalOf text)))

def integerToken (text : List Char) : Option Token :=
  (readInteger (text.head? == some '-') (text.filter isDigit)).map .integer

def fractional : Rule := ⟨Pattern.fractional, 0, realToken⟩

def scaled : Rule := ⟨Pattern.scaled, 0, realToken⟩

def whole : Rule := ⟨Pattern.whole, 0, integerToken⟩

def keyword (entry : String × Token) : Rule :=
  ⟨Pattern.exactly entry.1.toList, 1, fun _ => some entry.2⟩

def name : Rule := ⟨Pattern.name, 0, fun text => some (.identifier (String.ofList text))⟩

/-- A string without its marks, its escapes resolved. -/
def string (q : Quote) : Rule where
  pattern := Pattern.quoted q.mark
  priority := 0
  token text := some (.string (String.ofList (Text.unescapeChars text.tail.dropLast)))

def mark (entry : Char × Token) : Rule := ⟨Pattern.exactly [entry.1], 0, fun _ => some entry.2⟩

def keywordTokens : List (String × Token) :=
  [("true", .bool true), ("false", .bool false), ("null", .null), ("undefined", .undefined)]

def markTokens : List (Char × Token) :=
  [('(', .leftParen), (')', .rightParen), ('[', .leftBracket), (']', .rightBracket),
    ('{', .leftBrace), ('}', .rightBrace), (',', .comma), (':', .colon)]

def numbers : List Rule := [fractional, scaled, whole]

def words : List Rule := keywordTokens.map keyword ++ [name]

def strings : List Rule := [string .double, string .single]

def marks : List Rule := markTokens.map mark

def all : List Rule := numbers ++ words ++ strings ++ marks

end Rule

/-- What the longest text of some rules at the front of `cs` gives, by the rule that comes before
all others that have this text. -/
def Takes (rules : List Rule) (cs : List Char) : Option Munch → Prop
  | none => ∀ rule ∈ rules, ∀ text ∈ rule.pattern, ¬text <+: cs
  | some m =>
    m.text ++ m.rest = cs ∧
    (∀ rule ∈ rules, ∀ text ∈ rule.pattern, text <+: cs → text.length ≤ m.text.length) ∧
    ∃ rule ∈ rules, m.text ∈ rule.pattern ∧ m.token = rule.token m.text ∧
      ∀ other ∈ rules, m.text ∈ other.pattern → other = rule ∨ other.priority < rule.priority

/-- The rules leave no choice. -/
theorem takes_unique {rules : List Rule} {cs : List Char} {left right : Option Munch}
    (first : Takes rules cs left) (second : Takes rules cs right) : left = right := by
  have front {m : Munch} (takes : Takes rules cs (some m)) : m.text <+: cs := ⟨m.rest, takes.1⟩
  cases left with
  | none =>
      cases right with
      | none => rfl
      | some n =>
          have frontN := front second
          obtain ⟨_, _, rule, listed, matched, _⟩ := second
          exact absurd frontN (first rule listed _ matched)
  | some m =>
      cases right with
      | none =>
          have frontM := front first
          obtain ⟨_, _, rule, listed, matched, _⟩ := first
          exact absurd frontM (second rule listed _ matched)
      | some n =>
          have frontM := front first
          have frontN := front second
          obtain ⟨splitM, longestM, ruleM, listedM, matchedM, tokenM, firstM⟩ := first
          obtain ⟨splitN, longestN, ruleN, listedN, matchedN, tokenN, firstN⟩ := second
          have size := Nat.le_antisymm (longestN ruleM listedM _ matchedM frontM)
            (longestM ruleN listedN _ matchedN frontN)
          have sameText : m.text = n.text :=
            (List.prefix_of_prefix_length_le frontM frontN (Nat.le_of_eq size)).eq_of_length size
          have sameRest : m.rest = n.rest := by
            rw [← splitN, sameText] at splitM
            exact List.append_cancel_left splitM
          have sameRule : ruleM = ruleN := by
            rcases firstM ruleN listedN (sameText ▸ matchedN) with same | lower
            · exact same.symm
            · rcases firstN ruleM listedM (sameText ▸ matchedM) with same | higher
              · exact same
              · exact absurd lower (Nat.lt_asymm higher)
          have sameToken : m.token = n.token := by rw [tokenM, tokenN, sameText, sameRule]
          cases m
          cases n
          cases sameText
          cases sameRest
          cases sameToken
          rfl

section Patterns

open Pattern

variable {inClass : Char → Bool} {text : List Char}

theorem mem_among_star : text ∈ (among inClass)∗ ↔ ∀ c ∈ text, inClass c = true := by
  rw [Language.mem_kstar]
  constructor
  · rintro ⟨pieces, rfl, each⟩ c member
    obtain ⟨piece, inside, holds⟩ := List.mem_flatten.mp member
    obtain ⟨d, inClass, rfl⟩ := each piece inside
    rw [List.mem_singleton.mp holds]
    exact inClass
  · intro inside
    refine ⟨text.map fun c => [c], (List.flatMap_singleton' text).symm, ?_⟩
    intro piece member
    obtain ⟨c, here, rfl⟩ := List.mem_map.mp member
    exact ⟨c, inside c here, rfl⟩

theorem mem_optional {pattern : Language Char} :
    text ∈ optional pattern ↔ text = [] ∨ text ∈ pattern := Iff.rfl

theorem mem_run {first later : Char → Bool} : text ∈ among first * (among later)∗ ↔
    ∃ c others, text = c :: others ∧ first c = true ∧ ∀ d ∈ others, later d = true := by
  rw [Language.mem_mul]
  constructor
  · rintro ⟨_, ⟨c, begins, rfl⟩, others, inside, rfl⟩
    exact ⟨c, others, rfl, begins, mem_among_star.mp inside⟩
  · rintro ⟨c, others, rfl, begins, inside⟩
    exact ⟨[c], ⟨c, begins, rfl⟩, others, mem_among_star.mpr inside, rfl⟩

theorem mem_digits : text ∈ digits ↔ text ≠ [] ∧ ∀ c ∈ text, isDigit c = true := by
  rw [digits, mem_run]
  constructor
  · rintro ⟨c, others, rfl, begins, inside⟩
    exact ⟨List.cons_ne_nil _ _, List.forall_mem_cons.mpr ⟨begins, inside⟩⟩
  · rintro ⟨nonempty, inside⟩
    cases text with
    | nil => exact absurd rfl nonempty
    | cons c others =>
        obtain ⟨begins, later⟩ := List.forall_mem_cons.mp inside
        exact ⟨c, others, rfl, begins, later⟩

theorem mem_signed {pattern : Language Char} : text ∈ signed pattern ↔
    ∃ sign rest, (sign = [] ∨ sign = ['-']) ∧ rest ∈ pattern ∧ text = sign ++ rest := by
  rw [signed, Language.mem_mul]
  constructor
  · rintro ⟨sign, given, rest, inside, rfl⟩
    exact ⟨sign, rest, given, inside, rfl⟩
  · rintro ⟨sign, rest, given, inside, rfl⟩
    exact ⟨sign, given, rest, inside, rfl⟩

end Patterns

section Runs

variable {inClass : Char → Bool} {run after cs : List Char}

theorem run_le_take_while (inside : ∀ c ∈ run, inClass c = true) (front : run <+: cs) :
    run.length ≤ (cs.takeWhile inClass).length := by
  obtain ⟨rest, rfl⟩ := front
  rw [List.takeWhile_append_of_pos inside, List.length_append]
  exact Nat.le_add_right _ _

/-- A run and what follows it, if that begins outside the class: the whole run is taken first. -/
theorem run_longest {size : Nat} (inside : ∀ c ∈ run, inClass c = true)
    (stops : ∀ c ∈ after.head?, inClass c = false)
    (bound : after <+: cs.dropWhile inClass → after.length ≤ size) (leads : run ++ after <+: cs) :
    (run ++ after).length ≤ (cs.takeWhile inClass).length + size := by
  cases after with
  | nil =>
      rw [List.append_nil] at leads ⊢
      exact Nat.le_add_right_of_le (run_le_take_while inside leads)
  | cons c others =>
      obtain ⟨rest, rfl⟩ := leads
      have outside := stops c rfl
      rw [List.append_assoc, List.dropWhile_append_of_pos inside] at bound
      rw [List.append_assoc, List.takeWhile_append_of_pos inside]
      simp only [List.cons_append, List.dropWhile_cons, List.takeWhile_cons, outside,
        Bool.false_eq_true, if_false, List.append_nil, List.length_append] at bound ⊢
      exact Nat.add_le_add_left (bound ⟨rest, rfl⟩) _

theorem digit_is_not {c other : Char} (undigit : isDigit other = false)
    (digit : isDigit c = true) : c ≠ other := by
  rintro rfl
  rw [undigit] at digit
  cases digit

end Runs

end LineShell.Literal
