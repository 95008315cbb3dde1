import LineShell.Proofs.TokenPatterns

/-!
The patterns of numbers. A text of one of them is written in pieces: a sign, digits, digits after a
point, and a power of ten. What is read at the front of a text are the longest pieces that stand
there, because no piece after a row of digits begins with a digit.
-/

namespace LineShell.Literal

open Pattern

/-- The pieces in which a number is written. -/
structure Pieces where
  sign : List Char
  whole : List Char
  fraction : Option (List Char)
  exponent : Option Exponent

namespace Pieces

def unsigned (p : Pieces) : List Char :=
  p.whole ++ (fractionText p.fraction ++ exponentText p.exponent)

def text (p : Pieces) : List Char := p.sign ++ p.unsigned

def rule (p : Pieces) : Rule :=
  if p.fraction.isSome then .fractional else if p.exponent.isSome then .scaled else .whole

end Pieces

structure Exponent.Regular (e : Exponent) : Prop where
  mark : e.mark = 'e' ∨ e.mark = 'E'
  sign : e.sign = [] ∨ e.sign = ['+'] ∨ e.sign = ['-']
  digits : e.digits ∈ Pattern.digits

structure Pieces.Regular (p : Pieces) : Prop where
  sign : p.sign = [] ∨ p.sign = ['-']
  whole : p.whole ∈ digits
  fraction : ∀ row ∈ p.fraction, row ∈ digits
  exponent : ∀ e ∈ p.exponent, e.Regular

variable {text cs : List Char}

theorem mem_exponent :
    text ∈ exponent ↔ ∃ e : Exponent, e.Regular ∧ text = exponentText (some e) := by
  rw [exponent, Language.mem_mul]
  constructor
  · rintro ⟨_, ⟨mark, isMark, rfl⟩, rest, inside, rfl⟩
    obtain ⟨sign, given, row, isRow, rfl⟩ := Language.mem_mul.mp inside
    refine ⟨⟨mark, sign, row⟩, ⟨by simpa [Pattern.isMark] using isMark, ?_, isRow⟩, rfl⟩
    rcases given with none | ⟨c, isSign, rfl⟩
    · exact .inl none
    · exact .inr (by simpa using isSign)
  · rintro ⟨⟨mark, sign, row⟩, ⟨isMark, given, isRow⟩, rfl⟩
    refine ⟨[mark], ⟨mark, by simpa [Pattern.isMark] using isMark, rfl⟩, sign ++ row, ?_, rfl⟩
    refine Language.mem_mul.mpr ⟨sign, ?_, row, isRow, rfl⟩
    rcases given with none | plus | minus
    · exact .inl none
    · exact .inr ⟨'+', rfl, plus⟩
    · exact .inr ⟨'-', rfl, minus⟩

theorem mem_optional_exponent : text ∈ optional exponent ↔
    ∃ e : Option Exponent, (∀ x ∈ e, x.Regular) ∧ text = exponentText e := by
  rw [mem_optional, mem_exponent]
  constructor
  · rintro (rfl | ⟨e, regular, rfl⟩)
    · exact ⟨none, by simp, rfl⟩
    · exact ⟨some e, by simpa using regular, rfl⟩
  · rintro ⟨e, regular, rfl⟩
    cases e with
    | none => exact .inl rfl
    | some e => exact .inr ⟨e, regular e rfl, rfl⟩

/-- A text of a number's rule is written in pieces, and they show which rule it is. -/
theorem number_pieces {rule : Rule} (listed : rule ∈ Rule.numbers) (matched : text ∈ rule.pattern) :
    ∃ p : Pieces, p.Regular ∧ p.rule = rule ∧ text = p.text := by
  simp only [Rule.numbers, List.mem_cons, List.not_mem_nil, or_false] at listed
  rcases listed with rfl | rfl | rfl
  · obtain ⟨sign, _, given, unsigned, rfl⟩ := mem_signed.mp matched
    obtain ⟨front, isFront, _, pointed, rfl⟩ := Language.mem_mul.mp unsigned
    obtain ⟨_, rfl, _, later, rfl⟩ := Language.mem_mul.mp pointed
    obtain ⟨row, isRow, _, power, rfl⟩ := Language.mem_mul.mp later
    obtain ⟨e, regular, rfl⟩ := mem_optional_exponent.mp power
    exact ⟨⟨sign, front, some row, e⟩, ⟨given, isFront, by simpa using isRow, regular⟩, rfl, rfl⟩
  · obtain ⟨sign, _, given, unsigned, rfl⟩ := mem_signed.mp matched
    obtain ⟨front, isFront, _, power, rfl⟩ := Language.mem_mul.mp unsigned
    obtain ⟨e, regular, rfl⟩ := mem_exponent.mp power
    exact ⟨⟨sign, front, none, some e⟩, ⟨given, isFront, by simp, by simpa using regular⟩, rfl, rfl⟩
  · obtain ⟨sign, front, given, isFront, rfl⟩ := mem_signed.mp matched
    refine ⟨⟨sign, front, none, none⟩, ⟨given, isFront, by simp, by simp⟩, rfl, ?_⟩
    simp [Pieces.text, Pieces.unsigned, fractionText, exponentText]

theorem pieces_match {p : Pieces} (regular : p.Regular) : p.text ∈ p.rule.pattern := by
  obtain ⟨sign, front, fraction, e⟩ := p
  obtain ⟨given, isFront, isFraction, isExponent⟩ := regular
  cases fraction with
  | some row =>
      refine mem_signed.mpr ⟨sign, _, given, ?_, rfl⟩
      refine Language.mem_mul.mpr ⟨front, isFront, _, ?_, rfl⟩
      refine Language.mem_mul.mpr ⟨['.'], rfl, row ++ exponentText e, ?_, rfl⟩
      refine Language.mem_mul.mpr ⟨row, isFraction row rfl, _, ?_, rfl⟩
      exact mem_optional_exponent.mpr ⟨e, isExponent, rfl⟩
  | none =>
      cases e with
      | some e =>
          refine mem_signed.mpr ⟨sign, _, given, ?_, rfl⟩
          refine Language.mem_mul.mpr ⟨front, isFront, _, ?_, rfl⟩
          exact mem_exponent.mpr ⟨e, isExponent e rfl, rfl⟩
      | none =>
          refine mem_signed.mpr ⟨sign, front, given, isFront, ?_⟩
          simp [Pieces.text, Pieces.unsigned, fractionText, exponentText]

section Longest

variable {e : Option Exponent} {row : Option (List Char)}

theorem digits_first {row : List Char} (isRow : row ∈ digits) :
    ∃ c others, row = c :: others ∧ isDigit c = true := by
  obtain ⟨c, others, rfl, digit, _⟩ := mem_run.mp isRow
  exact ⟨c, others, rfl, digit⟩

theorem digits_present {row after : List Char} (isRow : row ∈ digits)
    (leads : row ++ after <+: cs) : cs.takeWhile isDigit ≠ [] := by
  obtain ⟨c, others, rfl, digit⟩ := digits_first isRow
  obtain ⟨rest, rfl⟩ := leads
  simp [digit]

theorem sign_reads {sign row : List Char} (given : sign = [] ∨ sign = ['+'] ∨ sign = ['-'])
    (isRow : row ∈ digits) (rest : List Char) :
    splitSign (sign ++ row ++ rest) = (sign, row ++ rest) := by
  rcases given with rfl | rfl | rfl
  · obtain ⟨c, others, rfl, digit⟩ := digits_first isRow
    have plus : c ≠ '+' := digit_is_not rfl digit
    have minus : c ≠ '-' := digit_is_not rfl digit
    simp [splitSign, plus, minus]
  · rfl
  · rfl

/-- An exponent is read with its sign and all the digits that follow. -/
theorem exponent_reads {e : Exponent} (regular : e.Regular) (rest : List Char) :
    (splitExponent (exponentText (some e) ++ rest)).1 =
      some { e with digits := e.digits ++ rest.takeWhile isDigit } := by
  obtain ⟨nonempty, inside⟩ := mem_digits.mp regular.digits
  have taken : (e.digits ++ rest).takeWhile isDigit = e.digits ++ rest.takeWhile isDigit :=
    List.takeWhile_append_of_pos inside
  have read : (e.mark = 'e' ∨ e.mark = 'E') ∧
      (!(e.digits ++ rest.takeWhile isDigit).isEmpty) = true := by
    refine ⟨regular.mark, ?_⟩
    simp [nonempty]
  simp only [exponentText, List.cons_append, splitExponent, sign_reads regular.sign regular.digits,
    taken, if_pos read]

theorem exponent_longest (regular : ∀ x ∈ e, x.Regular) (leads : exponentText e <+: cs) :
    (exponentText e).length ≤ (exponentText (splitExponent cs).1).length := by
  cases e with
  | none => exact Nat.zero_le _
  | some e =>
      obtain ⟨rest, rfl⟩ := leads
      rw [exponent_reads (regular e rfl)]
      simp only [exponentText, List.length_cons, List.length_append]
      omega

theorem exponent_begins (regular : ∀ x ∈ e, x.Regular) :
    ∀ c ∈ (exponentText e).head?, c = 'e' ∨ c = 'E' := by
  cases e with
  | none =>
      intro c none
      cases none
  | some e =>
      intro c same
      cases same
      exact (regular e rfl).mark

theorem exponent_stops (regular : ∀ x ∈ e, x.Regular) :
    ∀ c ∈ (exponentText e).head?, isDigit c = false := by
  intro c begins
  rcases exponent_begins regular c begins with rfl | rfl
  · rfl
  · rfl

theorem fraction_longest (rows : ∀ d ∈ row, d ∈ digits) (regular : ∀ x ∈ e, x.Regular)
    (leads : fractionText row ++ exponentText e <+: cs) :
    (fractionText row ++ exponentText e).length ≤ (fractionText (splitFraction cs).1).length +
      (exponentText (splitExponent (splitFraction cs).2).1).length := by
  cases row with
  | some row =>
      have inside := (mem_digits.mp (rows row rfl)).2
      cases cs with
      | nil => exact absurd (List.prefix_nil.mp leads) (List.cons_ne_nil _ _)
      | cons c tail =>
          obtain ⟨rfl, follows⟩ : '.' = c ∧ row ++ exponentText e <+: tail :=
            List.cons_prefix_cons.mp leads
          have present : (tail.takeWhile isDigit).isEmpty = false :=
            List.isEmpty_eq_false_iff.mpr (digits_present (rows row rfl) follows)
          have longest := run_longest inside (exponent_stops regular) (exponent_longest regular)
            follows
          simp only [splitFraction, present, fractionText, List.cons_append, List.length_cons]
          simp only [Bool.false_eq_true, if_false, List.length_cons]
          omega
  | none =>
      -- Without a fraction the exponent stands where a point would.
      have unsplit : exponentText e ≠ [] → splitFraction cs = (none, cs) := by
        intro present
        obtain ⟨c, others, written⟩ := List.exists_cons_of_ne_nil present
        have begins := exponent_begins regular c (by rw [written]; rfl)
        have pointless : c ≠ '.' := by
          rcases begins with rfl | rfl
          · decide
          · decide
        obtain ⟨rest, rfl⟩ := leads
        rw [fractionText, List.nil_append, written]
        simp [splitFraction, pointless]
      by_cases present : exponentText e = []
      · simp [present, fractionText]
      · rw [unsplit present]
        exact Nat.le_add_left_of_le (exponent_longest regular leads)

theorem number_stops (rows : ∀ d ∈ row, d ∈ digits) (regular : ∀ x ∈ e, x.Regular) :
    ∀ c ∈ (fractionText row ++ exponentText e).head?, isDigit c = false := by
  cases row with
  | some row =>
      intro c same
      cases same
      rfl
  | none => exact exponent_stops regular

end Longest

/-- The pieces of the number at the front of a text whose sign has been read. -/
def Pieces.read (sign cs : List Char) : Pieces :=
  let fraction := splitFraction (cs.dropWhile isDigit)
  ⟨sign, cs.takeWhile isDigit, fraction.1, (splitExponent fraction.2).1⟩

theorem taken_digits (present : cs.takeWhile isDigit ≠ []) : cs.takeWhile isDigit ∈ digits :=
  mem_digits.mpr ⟨present, List.all_eq_true.mp List.all_takeWhile⟩

theorem fraction_regular (cs : List Char) : ∀ row ∈ (splitFraction cs).1, row ∈ digits := by
  unfold splitFraction
  split
  · split
    · simp
    · rename_i present
      intro row same
      cases same
      exact taken_digits (by simpa using present)
  · simp

theorem exponent_regular (cs : List Char) : ∀ e ∈ (splitExponent cs).1, e.Regular := by
  unfold splitExponent
  split
  · simp
  · dsimp only
    split
    · rename_i mark rest read
      intro e same
      cases same
      refine ⟨read.1, ?_, taken_digits (by simpa using read.2)⟩
      unfold splitSign
      split
      · exact .inr (.inl rfl)
      · exact .inr (.inr rfl)
      · exact .inl rfl
    · simp

/-- What is left of a text once the sign of the number at its front has been read. -/
inductive Signed : Char → List Char → List Char → List Char → Prop where
  | minus (tail : List Char) : Signed '-' tail ['-'] tail
  | digit {c : Char} (digit : isDigit c = true) (tail : List Char) : Signed c tail [] (c :: tail)

section Reading

variable {c : Char} {tail sign : List Char} {p : Pieces}

theorem signed_append (signed : Signed c tail sign cs) : sign ++ cs = c :: tail := by
  cases signed <;> rfl

theorem pieces_regular (signed : Signed c tail sign cs) (present : cs.takeWhile isDigit ≠ []) :
    (Pieces.read sign cs).Regular where
  sign := by
    cases signed with
    | minus => exact .inr rfl
    | digit => exact .inl rfl
  whole := taken_digits present
  fraction := fraction_regular _
  exponent := exponent_regular _

theorem signed_begins (signed : Signed c tail sign cs) : c = '-' ∨ isDigit c = true := by
  cases signed with
  | minus => exact .inl rfl
  | digit digit => exact .inr digit

theorem signed_unique {other rest : List Char} (first : Signed c tail sign cs)
    (second : Signed c tail other rest) : sign = other ∧ cs = rest := by
  cases first with
  | minus =>
      cases second with
      | minus => exact ⟨rfl, rfl⟩
      | digit digit => exact absurd digit (by decide)
  | digit digit =>
      cases second with
      | minus => exact absurd digit (by decide)
      | digit => exact ⟨rfl, rfl⟩

theorem sign_leads (regular : p.Regular) (leads : p.text <+: c :: tail) :
    ∃ rest, Signed c tail p.sign rest ∧ p.unsigned <+: rest := by
  rw [Pieces.text] at leads
  rcases regular.sign with none | minus
  · rw [none, List.nil_append] at leads
    obtain ⟨d, others, written, digit⟩ := digits_first regular.whole
    have same : d = c := by
      rw [Pieces.unsigned, written] at leads
      exact (List.cons_prefix_cons.mp leads).1
    rw [same] at digit
    rw [none]
    exact ⟨c :: tail, .digit digit tail, leads⟩
  · rw [minus] at leads ⊢
    obtain ⟨rfl, follows⟩ : '-' = c ∧ p.unsigned <+: tail := List.cons_prefix_cons.mp leads
    exact ⟨tail, .minus tail, follows⟩

/-- No other pieces at the front of a text are longer than those that are read. -/
theorem pieces_longest (regular : p.Regular) (leads : p.text <+: c :: tail)
    (signed : Signed c tail sign cs) :
    cs.takeWhile isDigit ≠ [] ∧ p.text.length ≤ (Pieces.read sign cs).text.length := by
  obtain ⟨rest, otherSigned, follows⟩ := sign_leads regular leads
  obtain ⟨sameSign, rfl⟩ := signed_unique otherSigned signed
  constructor
  · exact digits_present regular.whole follows
  · have inside := (mem_digits.mp regular.whole).2
    have longest := run_longest inside (number_stops regular.fraction regular.exponent)
      (fraction_longest regular.fraction regular.exponent) follows
    simp only [Pieces.text, Pieces.unsigned, Pieces.read, sameSign, List.length_append] at longest ⊢
    omega

end Reading

section Tokens

variable {p : Pieces}

theorem front_characters (regular : p.Regular) :
    ∀ c ∈ p.sign ++ p.whole, c = '-' ∨ isDigit c = true := by
  intro c member
  rcases List.mem_append.mp member with inSign | inWhole
  · rcases regular.sign with none | minus
    · rw [none] at inSign
      cases inSign
    · rw [minus] at inSign
      exact .inl (List.mem_singleton.mp inSign)
  · exact .inr ((mem_digits.mp regular.whole).2 c inWhole)

theorem fraction_characters (regular : p.Regular) :
    ∀ c ∈ fractionText p.fraction, c = '.' ∨ isDigit c = true := by
  intro c member
  cases given : p.fraction with
  | none =>
      rw [given] at member
      cases member
  | some row =>
      rw [given] at member
      rcases List.mem_cons.mp member with point | digit
      · exact .inl point
      · exact .inr ((mem_digits.mp (regular.fraction row given)).2 c digit)

theorem digit_unmarked {c : Char} (digit : isDigit c = true) : isMark c = false := by
  have small : c ≠ 'e' := digit_is_not rfl digit
  have large : c ≠ 'E' := digit_is_not rfl digit
  simp [isMark, small, large]

/-- The mark of an exponent ends the digits before it, as the point does. -/
theorem text_splits (regular : p.Regular) :
    p.text.takeWhile (!isMark ·) = p.sign ++ p.whole ++ fractionText p.fraction ∧
    p.text.dropWhile (!isMark ·) = exponentText p.exponent := by
  have inside : ∀ c ∈ p.sign ++ p.whole ++ fractionText p.fraction, (!isMark c) = true := by
    intro c member
    rcases List.mem_append.mp member with inFront | inFraction
    · rcases front_characters regular c inFront with rfl | digit
      · rfl
      · rw [digit_unmarked digit]
        rfl
    · rcases fraction_characters regular c inFraction with rfl | digit
      · rfl
      · rw [digit_unmarked digit]
        rfl
  have stops : ∀ c ∈ (exponentText p.exponent).head?, (!isMark c) = false := by
    intro c begins
    rcases exponent_begins regular.exponent c begins with rfl | rfl
    · rfl
    · rfl
  have split := take_while_run inside stops
  simpa only [Pieces.text, Pieces.unsigned, List.append_assoc] using split

theorem point_splits (regular : p.Regular) :
    (p.sign ++ p.whole ++ fractionText p.fraction).takeWhile (· != '.') = p.sign ++ p.whole ∧
    (p.sign ++ p.whole ++ fractionText p.fraction).dropWhile (· != '.') =
      fractionText p.fraction := by
  apply take_while_run
  · intro c member
    rcases front_characters regular c member with rfl | digit
    · rfl
    · exact bne_iff_ne.mpr (digit_is_not rfl digit)
  · intro c begins
    cases given : p.fraction with
    | none =>
        rw [given] at begins
        cases begins
    | some row =>
        rw [given] at begins
        cases begins
        rfl

theorem filter_digits {row : List Char} (isRow : row ∈ digits) : row.filter isDigit = row :=
  List.filter_eq_self.mpr (mem_digits.mp isRow).2

theorem front_digits (regular : p.Regular) : (p.sign ++ p.whole).filter isDigit = p.whole := by
  rw [List.filter_append, filter_digits regular.whole]
  rcases regular.sign with none | minus
  · rw [none]
    rfl
  · rw [minus]
    rfl

theorem fraction_digits (regular : p.Regular) :
    (fractionText p.fraction).filter isDigit = p.fraction.getD [] := by
  cases given : p.fraction with
  | none => rfl
  | some row => exact filter_digits (regular.fraction row given)

theorem sign_shown (regular : p.Regular) :
    (p.text.head? == some '-') = (p.sign == ['-']) := by
  obtain ⟨c, others, written, digit⟩ := digits_first regular.whole
  have unsigned : c ≠ '-' := digit_is_not rfl digit
  rcases regular.sign with none | minus
  · simp [Pieces.text, Pieces.unsigned, none, written, unsigned]
  · simp [Pieces.text, minus]

theorem exponent_digits {e : Exponent} (regular : e.Regular) :
    (exponentText (some e)).filter isDigit = e.digits := by
  have mark : isDigit e.mark = false := by
    rcases regular.mark with small | large
    · rw [small]
      rfl
    · rw [large]
      rfl
  have sign : e.sign.filter isDigit = [] := by
    rcases regular.sign with none | plus | minus
    · rw [none]
      rfl
    · rw [plus]
      rfl
    · rw [minus]
      rfl
  simp [exponentText, mark, sign, filter_digits regular.digits]

theorem exponent_negative {e : Exponent} (regular : e.Regular) :
    '-' ∈ exponentText (some e) ↔ e.sign = ['-'] := by
  have mark : e.mark ≠ '-' := by
    rcases regular.mark with small | large
    · rw [small]
      decide
    · rw [large]
      decide
  have row : '-' ∉ e.digits := by
    intro member
    exact absurd ((mem_digits.mp regular.digits).2 _ member) (by decide)
  rcases regular.sign with none | plus | minus
  · simp [exponentText, mark.symm, row, none]
  · simp [exponentText, mark.symm, row, plus]
  · simp [exponentText, minus]

theorem decimal_of_pieces (regular : p.Regular) : Rule.decimalOf p.text =
    Decimal.ofParts (p.sign == ['-']) p.whole (p.fraction.getD [])
      ((p.exponent.map Exponent.value).getD 0) := by
  obtain ⟨mantissa, power⟩ := text_splits regular
  obtain ⟨front, fraction⟩ := point_splits regular
  rw [Rule.decimalOf, mantissa, power, sign_shown regular, front, fraction,
    front_digits regular, fraction_digits regular]
  congr 1
  cases given : p.exponent with
  | none => rfl
  | some e =>
      have exponent := regular.exponent e given
      simp only [exponent_digits exponent, exponent_negative exponent]
      rfl

/-- The token that a number's rule makes of its text is the token of its pieces. -/
theorem number_token (regular : p.Regular) :
    numberToken (p.sign == ['-']) p.whole p.fraction p.exponent = p.rule.token p.text := by
  have real := congrArg (fun decimal => some (Token.real (Double.ofDecimal decimal)))
    (decimal_of_pieces regular)
  cases fraction : p.fraction with
  | some row =>
      rw [Pieces.rule, fraction]
      rw [fraction] at real
      exact real.symm
  | none =>
      cases exponent : p.exponent with
      | some e =>
          rw [Pieces.rule, fraction, exponent]
          rw [fraction, exponent] at real
          exact real.symm
      | none =>
          have written : p.text = p.sign ++ p.whole := by
            simp [Pieces.text, Pieces.unsigned, fraction, exponent, fractionText, exponentText]
          have digits := front_digits regular
          rw [← written] at digits
          rw [Pieces.rule, fraction, exponent]
          change _ = Rule.integerToken p.text
          rw [Rule.integerToken, digits, sign_shown regular]
          rfl

/-- A text tells which rule of a number it belongs to. -/
theorem rule_of_text {q : Pieces} (first : p.Regular) (second : q.Regular)
    (same : p.text = q.text) : p.rule = q.rule := by
  obtain ⟨mantissa, power⟩ := text_splits first
  obtain ⟨otherMantissa, otherPower⟩ := text_splits second
  obtain ⟨_, fraction⟩ := point_splits first
  obtain ⟨_, otherFraction⟩ := point_splits second
  rw [same, otherPower] at power
  rw [same, otherMantissa] at mantissa
  rw [← mantissa, otherFraction] at fraction
  have exponents : q.exponent.isSome = p.exponent.isSome := by
    cases given : p.exponent <;> cases other : q.exponent <;> simp_all [exponentText]
  have fractions : q.fraction.isSome = p.fraction.isSome := by
    cases given : p.fraction <;> cases other : q.fraction <;> simp_all [fractionText]
  rw [Pieces.rule, Pieces.rule, exponents, fractions]

end Tokens

theorem pieces_listed (p : Pieces) : p.rule ∈ Rule.numbers := by
  unfold Pieces.rule
  split
  · exact .head _
  · split
    · exact .tail _ (.head _)
    · exact .tail _ (.tail _ (.head _))

theorem number_takes {c : Char} {tail sign : List Char} (signed : Signed c tail sign cs) :
    Takes Rule.numbers (c :: tail) (munchNumber sign cs) := by
  have longest : ∀ rule ∈ Rule.numbers, ∀ text ∈ rule.pattern, text <+: c :: tail →
      cs.takeWhile isDigit ≠ [] ∧ text.length ≤ (Pieces.read sign cs).text.length := by
    intro rule listed text matched leads
    obtain ⟨p, regular, _, rfl⟩ := number_pieces listed matched
    exact pieces_longest regular leads signed
  have written : (Pieces.read sign cs).text = sign ++ cs.takeWhile isDigit ++
      fractionText (splitFraction (cs.dropWhile isDigit)).1 ++
      exponentText (splitExponent (splitFraction (cs.dropWhile isDigit)).2).1 := by
    simp [Pieces.text, Pieces.unsigned, Pieces.read]
  cases found : munchNumber sign cs with
  | none =>
      intro rule listed text matched leads
      have present := (longest rule listed text matched leads).1
      simp [munchNumber, present] at found
  | some m =>
      have whole := munchNumber_append found
      rw [signed_append signed] at whole
      unfold munchNumber at found
      dsimp only at found
      rw [← written] at found
      split at found
      · cases found
      · rename_i present
        cases found
        have regular := pieces_regular signed (by simpa using present)
        refine ⟨whole, fun rule listed text matched leads =>
          (longest rule listed text matched leads).2, (Pieces.read sign cs).rule, pieces_listed _,
          pieces_match regular, number_token regular, ?_⟩
        intro other listed matched
        obtain ⟨p, isRegular, rfl, same⟩ := number_pieces listed matched
        exact .inl (rule_of_text isRegular regular same.symm)

end LineShell.Literal
