import LineShell.Proofs.NameLookup

/-!
A point after an integer is a decimal point. The scanner asks, in the middle of a word, whether what
it has read is an integer; the whole word is read as a number once more when it is resolved. The two
readings agree: digits of 64 bits, a point and digits are one word, and the word is one real.
-/

namespace LineShell

namespace Text

theorem trim_chars_unblank {cs : List Char} (unblank : ∀ c ∈ cs, isBlank c = false) :
    trimChars cs = cs := by
  have front : cs.dropWhile isBlank = cs := by
    apply drop_while_unblank
    intro c first
    exact unblank c (List.mem_of_mem_head? first)
  have back : cs.reverse.dropWhile isBlank = cs.reverse := by
    apply drop_while_unblank
    intro c first
    exact unblank c (List.mem_reverse.mp (List.mem_of_mem_head? first))
  rw [trimChars, front, back, List.reverse_reverse]

end Text

theorem digit_name_character {c : Char} (digit : isDigit c = true) :
    isNameCharacter c = true := by
  have characters : ['0', '1', '2', '3', '4', '5', '6', '7', '8', '9'].all isNameCharacter =
      true := by decide
  exact List.all_eq_true.mp characters c (Literal.digit_mem digit)

section Numerals

variable {text : String} {numeral : Numeral}

/-- The decision in the middle of the word: what stands before a point in a numeral is an integer. -/
theorem numeral_word (reads : Numeral.read text = some numeral) : IsWord text := by
  have characters {cs : List Char} (digits : Numeral.isDigits cs = true) :
      cs.all isNameCharacter = true := by
    rw [List.all_eq_true]
    intro c member
    exact digit_name_character (Numeral.digits_all digits c member)
  have front {whole : String} (digits : Numeral.isDigits whole.toList = true) : IsWord whole := by
    have word := characters_word (Numeral.digits_nonempty digits) (characters digits)
    rwa [String.ofList_toList] at word
  cases numeral with
  | integer n =>
      have isWhole := (Numeral.whole_iff.mp (Numeral.read_integer_iff.mp reads)).1
      exact front isWhole.1
  | real r =>
      obtain ⟨whole, fraction, rfl, isWhole, digits, _⟩ := Numeral.read_decimal_iff.mp reads
      have pointed := (front isWhole.1).point (Numeral.is_integer_iff.mpr isWhole)
      have word := word_append pointed (characters digits)
      rwa [String.ofList_toList] at word

theorem numeral_unblank (reads : Numeral.read text = some numeral) :
    ∀ c ∈ text.toList, Text.isBlank c = false := by
  have unblank {cs : List Char} (digits : Numeral.isDigits cs = true) :
      ∀ c ∈ cs, Text.isBlank c = false := by
    intro c member
    exact digit_unblank (Numeral.digits_all digits c member)
  cases numeral with
  | integer n =>
      have isWhole := (Numeral.whole_iff.mp (Numeral.read_integer_iff.mp reads)).1
      exact unblank isWhole.1
  | real r =>
      obtain ⟨whole, fraction, split, isWhole, digits, _⟩ := Numeral.read_real_iff.mp reads
      rw [split, List.forall_mem_append, List.forall_mem_cons]
      exact ⟨unblank isWhole.1, by decide, unblank digits⟩

theorem numeral_resolves (reads : Numeral.read text = some numeral) (env : Environment)
    (position : Nat) :
    (Token.name text).resolve env position = .ok (.literal (.ofNumeral numeral)) := by
  have trimmed : Text.trim text = text := by
    rw [Text.trim, Text.trim_chars_unblank (numeral_unblank reads), String.ofList_toList]
  simp only [Token.resolve, trimmed, reads]

end Numerals

section Decimals

variable {whole fraction : String}

theorem decimal_read (wholeDigits : Numeral.isDigits whole.toList = true)
    (fractionDigits : Numeral.isDigits fraction.toList = true)
    (fits : (digitsValue whole.toList : Int) ≤ Int64.maxValue.toInt) :
    Numeral.read (whole ++ "." ++ fraction) =
      some (.real (Double.ofDecimal (Decimal.ofParts false whole.toList fraction.toList 0))) :=
  Numeral.read_decimal_iff.mpr ⟨whole, fraction, rfl, ⟨wholeDigits, fits⟩, fractionDigits, rfl⟩

theorem decimal_word (wholeDigits : Numeral.isDigits whole.toList = true)
    (fractionDigits : Numeral.isDigits fraction.toList = true)
    (fits : (digitsValue whole.toList : Int) ≤ Int64.maxValue.toInt) :
    IsWord (whole ++ "." ++ fraction) :=
  numeral_word (decimal_read wholeDigits fractionDigits fits)

theorem decimal_resolves (wholeDigits : Numeral.isDigits whole.toList = true)
    (fractionDigits : Numeral.isDigits fraction.toList = true)
    (fits : (digitsValue whole.toList : Int) ≤ Int64.maxValue.toInt) (env : Environment)
    (position : Nat) :
    (Token.name (whole ++ "." ++ fraction)).resolve env position =
      .ok (.literal (.real (Double.ofDecimal
        (Decimal.ofParts false whole.toList fraction.toList 0)))) :=
  numeral_resolves (decimal_read wholeDigits fractionDigits fits) env position

end Decimals

/-- In every session, digits that write an integer of 64 bits, a point and digits are scanned as one
name, and the line completes with one literal, the real that is nearest to the decimal. -/
theorem point_after_integer_is_decimal (s : Session) (whole fraction : String)
    (wholeDigits : Numeral.isDigits whole.toList = true)
    (fractionDigits : Numeral.isDigits fraction.toList = true)
    (fits : (digitsValue whole.toList : Int) ≤ Int64.maxValue.toInt) :
    scan (whole ++ "." ++ fraction) = .ok [⟨.name (whole ++ "." ++ fraction), 0⟩] ∧
      (s.run (whole ++ "." ++ fraction)).1.outcome =
        .ok (.completed [.literal (.real (Double.ofDecimal
          (Decimal.ofParts false whole.toList fraction.toList 0)))]) := by
  have word := decimal_word wholeDigits fractionDigits fits
  have resolves := decimal_resolves wholeDigits fractionDigits fits s.environment 0
  refine ⟨word_scans word, ?_⟩
  rw [Session.run_evaluates, word_evaluates word resolves]

/-- The largest integer, with zeros before it. The name is bound to something else. -/
theorem point_after_largest_integer_is_decimal :
    let s : Session := ⟨Environment.initial.assign "009223372036854775807.50" Console.entry, []⟩
    Numeral.isDigits "009223372036854775807".toList = true ∧
      Numeral.isDigits "50".toList = true ∧
      (digitsValue "009223372036854775807".toList : Int) ≤ Int64.maxValue.toInt ∧
      scan "009223372036854775807.50" = .ok [⟨.name "009223372036854775807.50", 0⟩] ∧
      (s.run "009223372036854775807.50").1.outcome =
        .ok (.completed [.literal (.real ⟨0x43e0000000000000⟩)]) := by
  intro s
  have wholeDigits : Numeral.isDigits "009223372036854775807".toList = true := by decide
  have fractionDigits : Numeral.isDigits "50".toList = true := by decide
  have fits : (digitsValue "009223372036854775807".toList : Int) ≤ Int64.maxValue.toInt := by
    decide
  have decimal :=
    point_after_integer_is_decimal s "009223372036854775807" "50" wholeDigits fractionDigits fits
  have line : "009223372036854775807" ++ "." ++ "50" = "009223372036854775807.50" := by decide
  have parts : Decimal.ofParts false "009223372036854775807".toList "50".toList 0 =
      ⟨false, 922337203685477580750, -2⟩ := by decide
  have nearest : Double.ofDecimal ⟨false, 922337203685477580750, -2⟩ = ⟨0x43e0000000000000⟩ := by
    decide +kernel
  rw [line, parts, nearest] at decimal
  exact ⟨wholeDigits, fractionDigits, fits, decimal⟩

/-- The first integer that is too large ends at the point, which then asks for a member. -/
theorem point_after_wider_digits_is_member_access :
    Numeral.isDigits "9223372036854775808".toList = true ∧ Numeral.isDigits "5".toList = true ∧
      "9223372036854775808" ++ "." ++ "5" = "9223372036854775808.5" ∧
      scan "9223372036854775808.5" =
        .ok [⟨.name "9223372036854775808", 0⟩, ⟨.operator .dot, 19⟩, ⟨.name "5", 20⟩] ∧
      (Session.initial.run "9223372036854775808.5").1.outcome =
        .error ⟨.memberNotFound "5", 20⟩ := by
  refine ⟨by decide, by decide, by decide, rfl, ?_⟩
  have unread : Numeral.read "9223372036854775808" = none := by decide +kernel
  have pulls : Scanner.pullsOf "9223372036854775808.5" =
      [⟨.ok ⟨.name "9223372036854775808", 0⟩, 0⟩, ⟨.ok ⟨.operator .dot, 19⟩, 0⟩,
        ⟨.ok ⟨.name "5", 20⟩, 0⟩] := rfl
  -- The wide numeral is compared in the kernel alone, so its push is computed before the line is.
  have pushed : Pending.push [] Environment.initial (.name "9223372036854775808") 0 =
      ⟨[⟨.name "9223372036854775808", 0⟩], none, .ok .proceed⟩ := by
    have trimmed : Text.trim "9223372036854775808" = "9223372036854775808" := by decide +kernel
    simp only [Pending.push, Token.resolve, trimmed, unread]
    rfl
  rw [Session.run_evaluates, evaluate, pulls, Evaluation.consume, Session.initial, pushed]
  rfl

end LineShell
