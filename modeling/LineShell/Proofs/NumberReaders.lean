import LineShell.Proofs.DecimalPoint
import LineShell.Proofs.NestedLiteral
import LineShell.Proofs.RoundTrip

/-!
Numbers are read in two ways: between operators a word is taken apart at its point and its digits are
added up one by one, and in a literal the longest number is split off, with a sign and an exponent if
there are any. Main statement: what the first reader takes for a number is one token for the second,
with the same value; so a number means the same alone and as an item. Digits that the first reader
refuses are refused by the second too.
-/

namespace LineShell

open Literal (byteSize lexFrom munchNumber)

namespace Numeral

def token : Numeral → Literal.Token
  | integer value => .integer value
  | real value => .real value

theorem token_denotes (numeral : Numeral) : ∃ literal, numeral.token.atom? = some literal ∧
    ∀ lookup, literal.value lookup = .ofNumeral numeral := by
  cases numeral with
  | integer n => exact ⟨.integer n, rfl, fun lookup => by rw [Literal.value]; rfl⟩
  | real r => exact ⟨.real r, rfl, fun lookup => by rw [Literal.value]; rfl⟩

section Munching

variable {cs whole fraction : List Char} {numeral : Numeral}

theorem read_unsigned (cs : List Char) : readInteger false cs =
    if (digitsValue cs : Int) ≤ Int64.maxValue.toInt then some (Int64.ofNat (digitsValue cs))
    else none := by
  have lower : Int64.minValue.toInt ≤ (digitsValue cs : Int) := by
    have least : Int64.minValue.toInt ≤ 0 := by decide
    omega
  simp only [readInteger, Bool.false_eq_true, if_false, decide_eq_true lower, Bool.true_and,
    decide_eq_true_eq, Int64.ofInt_eq_ofNat]

/-- Digits that are added up one by one are the integer that is read at once, or both are none. -/
theorem whole_eq_read_integer (digits : isDigits cs = true) :
    whole? cs = readInteger false cs := by
  rw [read_unsigned]
  by_cases fits : (digitsValue cs : Int) ≤ Int64.maxValue.toInt
  · rw [if_pos fits, whole_given ⟨digits, fits⟩]
  · rw [if_neg fits, Option.eq_none_iff_forall_ne_some]
    intro n given
    exact fits (whole_iff.mp given).1.2

theorem munch_digits (digits : isDigits cs = true) :
    munchNumber [] cs = some { token := (whole? cs).map .integer, text := cs, rest := [] } := by
  have munched := @Literal.munch_number_stops [] cs [] (digits_nonempty digits) (digits_all digits)
    Literal.stops_nil
  rw [List.append_nil] at munched
  rw [munched, whole_eq_read_integer digits]
  rfl

theorem munch_decimal (wholeDigits : isDigits whole = true)
    (fractionDigits : isDigits fraction = true) :
    munchNumber [] (whole ++ '.' :: fraction) = some {
      token := some (.real (Double.ofDecimal (Decimal.ofParts false whole fraction 0)))
      text := whole ++ '.' :: fraction
      rest := [] } := by
  have front := digits_all wholeDigits
  have back := digits_all fractionDigits
  have taken : (whole ++ '.' :: fraction).takeWhile isDigit = whole := by
    rw [List.takeWhile_append_of_pos front, List.takeWhile_cons_of_neg (by decide), List.append_nil]
  have dropped : (whole ++ '.' :: fraction).dropWhile isDigit = '.' :: fraction := by
    rw [List.dropWhile_append_of_pos front, List.dropWhile_cons_of_neg (by decide)]
  have ended := Literal.take_while_stops back (by decide) Literal.stops_nil
  rw [List.append_nil] at ended
  have full (cs : List Char) (digits : isDigits cs = true) : cs.isEmpty = false :=
    List.isEmpty_eq_false_iff.mpr (digits_nonempty digits)
  simp [munchNumber, taken, dropped, Literal.splitFraction, ended, full whole wholeDigits,
    full fraction fractionDigits, Literal.splitExponent, Literal.fractionText, Literal.exponentText,
    Literal.numberToken]

/-- What is read as a numeral is the longest number in it, with the same value. -/
theorem munch_numeral (reads : readChars cs = some numeral) :
    munchNumber [] cs = some { token := some numeral.token, text := cs, rest := [] } := by
  cases numeral with
  | integer n =>
      have given := read_integer_iff.mp reads
      rw [munch_digits (whole_iff.mp given).1.1, given]
      rfl
  | real r =>
      obtain ⟨whole, fraction, rfl, isWhole, digits, rfl⟩ := read_real_iff.mp reads
      exact munch_decimal isWhole.1 digits

end Munching

section Lexing

variable {cs : List Char} {numeral : Numeral}

theorem lex_number {token : Option Literal.Token}
    (begins : ∃ c rest, cs = c :: rest ∧ isDigit c = true)
    (munched : munchNumber [] cs = some { token := token, text := cs, rest := [] }) (offset : Nat) :
    lexFrom offset cs = token.elim ⟨[], some offset⟩ fun denoted =>
      ⟨[⟨denoted, offset, offset + byteSize cs⟩], none⟩ := by
  obtain ⟨c, rest, rfl, digit⟩ := begins
  have unskipped := Literal.unskipped_of_class isDigit (by decide) digit
  rw [← Literal.munch_digit digit] at munched
  cases token with
  | none => rw [Literal.lex_unread unskipped munched rfl, Option.elim_none]
  | some denoted =>
      rw [Literal.lex_token unskipped munched rfl, lexFrom, Option.elim_some]

theorem numeral_begins (reads : readChars cs = some numeral) :
    ∃ c rest, cs = c :: rest ∧ isDigit c = true := by
  cases numeral with
  | integer n => exact digits_begin (whole_iff.mp (read_integer_iff.mp reads)).1.1
  | real r =>
      obtain ⟨whole, fraction, rfl, isWhole, _⟩ := read_real_iff.mp reads
      obtain ⟨c, rest, rfl, digit⟩ := digits_begin isWhole.1
      exact ⟨c, _, rfl, digit⟩

theorem numeral_lexes {text : String} (reads : read text = some numeral) :
    Literal.lex text = ⟨[⟨numeral.token, 0, text.utf8ByteSize⟩], none⟩ := by
  rw [Literal.lex, lex_number (numeral_begins reads) (munch_numeral reads), Option.elim_some,
    Nat.zero_add, byte_size_to_list]

theorem numeral_item {text : String} (reads : read text = some numeral) (env : Environment)
    (position : Nat) : env.valueOf .tuple text position = .ok (.tuple [.ofNumeral numeral]) := by
  obtain ⟨literal, atomic, denotes⟩ := token_denotes numeral
  have lexes : Literal.Lexes text [numeral.token] := by
    rw [Literal.Lexes, numeral_lexes reads]
    exact ⟨rfl, rfl⟩
  rw [@Environment.value_of_composite_iff .tuple _ rfl]
  refine ⟨[numeral.token], .tuple [literal], lexes, ⟨[literal], .last (.atom atomic), rfl⟩, ?_⟩
  rw [Literal.tuple_value, List.map_singleton, denotes]

theorem numeral_balanced (reads : readChars cs = some numeral) : Balanced cs := by
  have munched := munch_numeral reads
  exact plain_balanced (Literal.number_plain (List.forall_mem_nil _) munched)

end Lexing
end Numeral

/-- A text that is a number alone is one token of a literal, which spans all of it and has the same
value; so in every session the text completes with this value, and in round brackets with the tuple
of it. Digits that are no number alone are no token either, so that no other number is found at
their beginning. -/
theorem number_readers_agree (text : String) :
    (∀ numeral, Numeral.read text = some numeral →
      Literal.lex text = ⟨[⟨numeral.token, 0, text.utf8ByteSize⟩], none⟩ ∧
      ∀ s : Session,
        (s.run text).1 =
          ⟨.ok (.completed [.literal (.ofNumeral numeral)]), none, s.environment⟩ ∧
        (s.run ("(" ++ text ++ ")")).1 =
          ⟨.ok (.completed [.literal (.tuple [.ofNumeral numeral])]), none, s.environment⟩) ∧
    (Numeral.isDigits text.toList = true → Numeral.read text = none →
      Literal.lex text = ⟨[], some 0⟩) := by
  constructor
  · intro numeral reads
    refine ⟨Numeral.numeral_lexes reads, ?_⟩
    intro s
    constructor
    · rw [Session.run_evaluates]
      exact word_evaluates (numeral_word reads) (numeral_resolves reads s.environment 0)
    · have enclosed : "(" ++ text ++ ")" = String.ofList ('(' :: text.toList ++ [')']) := by
        rw [← String.toList_inj]
        simp
      have item := Numeral.numeral_item reads s.environment 0
      rw [← String.ofList_toList (s := text)] at item
      rw [Session.run_evaluates, enclosed]
      exact enclosed_evaluates (b := .round) (Numeral.numeral_balanced reads) item
  · intro digits unread
    have nothing : Numeral.whole? text.toList = none := by
      rw [Option.eq_none_iff_forall_ne_some]
      intro n given
      have reads : Numeral.read text = some (.integer n) := Numeral.read_integer_iff.mpr given
      rw [unread] at reads
      cases reads
    rw [Literal.lex, Numeral.lex_number (Numeral.digits_begin digits) (Numeral.munch_digits digits),
      nothing, Option.map_none, Option.elim_none]

/-- The largest integer and the next one, with zeros before them. A name that reads as a number is
bound to something else. -/
theorem number_readers_agree_at_largest_integer :
    let s : Session := ⟨Environment.initial.assign "0009223372036854775807" Console.entry, []⟩
    Numeral.read "0009223372036854775807" = some (.integer Int64.maxValue) ∧
      Literal.lex "0009223372036854775807" = ⟨[⟨.integer Int64.maxValue, 0, 22⟩], none⟩ ∧
      (s.run "0009223372036854775807").1.outcome =
        .ok (.completed [.literal (.integer Int64.maxValue)]) ∧
      (s.run "(0009223372036854775807)").1.outcome =
        .ok (.completed [.literal (.tuple [.integer Int64.maxValue])]) ∧
      Numeral.isDigits "0009223372036854775808".toList = true ∧
      Numeral.read "0009223372036854775808" = none ∧
      Literal.lex "0009223372036854775808" = ⟨[], some 0⟩ := by
  intro s
  have reads : Numeral.read "0009223372036854775807" = some (.integer Int64.maxValue) := by
    decide +kernel
  have digits : Numeral.isDigits "0009223372036854775808".toList = true := by decide
  have unread : Numeral.read "0009223372036854775808" = none := by decide +kernel
  have enclosed : "(" ++ "0009223372036854775807" ++ ")" = "(0009223372036854775807)" := by decide
  obtain ⟨lexed, runs⟩ := (number_readers_agree "0009223372036854775807").1 _ reads
  obtain ⟨alone, item⟩ := runs s
  rw [enclosed] at item
  exact ⟨reads, lexed, congrArg Evaluation.outcome alone, congrArg Evaluation.outcome item, digits,
    unread, (number_readers_agree "0009223372036854775808").2 digits unread⟩

end LineShell
