import LineShell.Proofs.Splitting

/-!
Where a token of a literal must end. No token goes on with a blank, a bracket, a comma, a colon or a
quote, so more text after such a character does not change the token before it. Only a quoted text
that has not ended looks further, and in a text without quotes it finds no end either.
-/

namespace LineShell.Literal

/-- Whether no token can go on with this character, outside quotes. -/
def isBreak (c : Char) : Bool := !(isNamePart c || c == '.' || c == '+' || c == '-')

/-- A text that cannot make the token before it longer. -/
def Breaks (rest : List Char) : Prop := ∀ c ∈ rest.head?, isBreak c = true

def Munch.before (m : Munch) (rest : List Char) : Munch := { m with rest := m.rest ++ rest }

section Breaking

variable {rest : List Char}

theorem break_outside_class {inClass : Char → Bool} {c : Char}
    (inside : ∀ c, inClass c = true → isNamePart c = true) (breaks : isBreak c = true) :
    inClass c = false := by
  cases member : inClass c with
  | false => rfl
  | true => simp [isBreak, inside c member] at breaks

theorem break_is_not {c other : Char} (unbroken : isBreak other = false) (breaks : isBreak c = true) :
    c ≠ other := by
  intro same
  rw [same, unbroken] at breaks
  cases breaks

theorem take_while_before {inClass : Char → Bool}
    (inside : ∀ c, inClass c = true → isNamePart c = true) (breaks : Breaks rest)
    (cs : List Char) : (cs ++ rest).takeWhile inClass = cs.takeWhile inClass ∧
      (cs ++ rest).dropWhile inClass = cs.dropWhile inClass ++ rest := by
  induction cs with
  | nil =>
      cases rest with
      | nil => exact ⟨rfl, rfl⟩
      | cons c others =>
          have outside := break_outside_class inside (breaks c rfl)
          simp [outside]
  | cons c others induction =>
      cases member : inClass c with
      | false => simp [member]
      | true => simp [member, induction.1, induction.2]

theorem digits_before (breaks : Breaks rest) (cs : List Char) :
    (cs ++ rest).takeWhile isDigit = cs.takeWhile isDigit ∧
      (cs ++ rest).dropWhile isDigit = cs.dropWhile isDigit ++ rest := by
  apply take_while_before _ breaks
  intro c digit
  simp [isNamePart, digit]

theorem split_fraction_before (breaks : Breaks rest) (cs : List Char) :
    splitFraction (cs ++ rest) = ((splitFraction cs).1, (splitFraction cs).2 ++ rest) := by
  match cs with
  | [] =>
      cases rest with
      | nil => rfl
      | cons c others =>
          have point : c ≠ '.' := break_is_not (by decide) (breaks c rfl)
          simp [splitFraction, point]
  | c :: tail =>
      by_cases point : c = '.'
      · subst point
        have digits := digits_before breaks tail
        simp only [List.cons_append, splitFraction, digits.1, digits.2]
        split <;> rfl
      · simp [splitFraction, point]

theorem split_sign_before (breaks : Breaks rest) (cs : List Char) :
    splitSign (cs ++ rest) = ((splitSign cs).1, (splitSign cs).2 ++ rest) := by
  match cs with
  | [] =>
      cases rest with
      | nil => rfl
      | cons c others =>
          have plus : c ≠ '+' := break_is_not (by decide) (breaks c rfl)
          have minus : c ≠ '-' := break_is_not (by decide) (breaks c rfl)
          simp [splitSign, plus, minus]
  | c :: tail =>
      by_cases plus : c = '+'
      · subst plus
        rfl
      · by_cases minus : c = '-'
        · subst minus
          rfl
        · simp [splitSign, plus, minus]

theorem split_exponent_before (breaks : Breaks rest) (cs : List Char) :
    splitExponent (cs ++ rest) = ((splitExponent cs).1, (splitExponent cs).2 ++ rest) := by
  match cs with
  | [] =>
      cases rest with
      | nil => rfl
      | cons c others =>
          have small : c ≠ 'e' := break_is_not (by decide) (breaks c rfl)
          have large : c ≠ 'E' := break_is_not (by decide) (breaks c rfl)
          simp [splitExponent, small, large]
  | mark :: tail =>
      have signed := split_sign_before breaks tail
      have digits := digits_before breaks (splitSign tail).2
      simp only [List.cons_append, splitExponent, signed, digits.1, digits.2]
      split <;> rfl

theorem munch_number_before (breaks : Breaks rest) (sign cs : List Char) :
    munchNumber sign (cs ++ rest) = (munchNumber sign cs).map (Munch.before · rest) := by
  have digits := digits_before breaks cs
  have fraction := split_fraction_before breaks (cs.dropWhile isDigit)
  have exponent := split_exponent_before breaks (splitFraction (cs.dropWhile isDigit)).2
  simp only [munchNumber, digits.1, digits.2, fraction, exponent]
  split <;> rfl

theorem munch_word_before (breaks : Breaks rest) (c : Char) (tail : List Char) :
    munchWord c (tail ++ rest) = (munchWord c tail).before rest := by
  have parts := take_while_before (fun _ => id) breaks tail
  simp only [munchWord, parts.1, parts.2, Munch.before]

end Breaking

section Quoted

variable {quote : Char} {cs rest : List Char}

theorem split_quoted_mark (unslashed : quote ≠ '\\') (tail : List Char) :
    splitQuoted quote (quote :: tail) = some ([], tail) := by
  rw [splitQuoted, if_pos rfl]
  intro _ _ same
  exact absurd same unslashed

theorem split_quoted_before {body after : List Char} (unslashed : quote ≠ '\\')
    (split : splitQuoted quote cs = some (body, after)) (rest : List Char) :
    splitQuoted quote (cs ++ rest) = some (body, after ++ rest) := by
  fun_induction splitQuoted quote cs generalizing body after with
  | case1 => cases split
  | case2 => cases split
  | case3 c tail feed induction =>
      obtain ⟨⟨inner, left⟩, found, same⟩ := Option.map_eq_some_iff.mp split
      cases same
      simp [splitQuoted, feed, induction found]
  | case4 tail =>
      cases split
      rw [List.cons_append, split_quoted_mark unslashed]
  | case5 => cases split
  | case6 c tail _ unmarked unescaped induction =>
      obtain ⟨⟨inner, left⟩, found, same⟩ := Option.map_eq_some_iff.mp split
      cases same
      rw [List.cons_append, split_quoted_plain unmarked unescaped, induction found, Option.map_some]

theorem split_quoted_unmarked (free : quote ∉ cs) : splitQuoted quote cs = none := by
  fun_induction splitQuoted quote cs with
  | case1 => rfl
  | case2 => rfl
  | case3 c tail _ induction =>
      rw [induction fun later => free (.tail _ (.tail _ later))]
      rfl
  | case4 => exact absurd List.mem_cons_self free
  | case5 => rfl
  | case6 c tail _ _ _ induction =>
      rw [induction fun later => free (.tail _ later)]
      rfl

theorem split_quoted_open (nothing : splitQuoted quote cs = none) (free : quote ∉ rest) :
    splitQuoted quote (cs ++ rest) = none := by
  fun_induction splitQuoted quote cs with
  | case1 => exact split_quoted_unmarked free
  | case2 tail => simp [splitQuoted]
  | case3 c tail feed induction =>
      simp [splitQuoted, feed, induction (Option.map_eq_none_iff.mp nothing)]
  | case4 => cases nothing
  | case5 tail alone unmarked =>
      -- A backslash at the very end goes with the first character of what follows.
      cases tail with
      | cons next others => exact absurd rfl (alone next others rfl)
      | nil =>
          cases rest with
          | nil => simp [splitQuoted, unmarked]
          | cons next others =>
              have later := split_quoted_unmarked fun inside => free (.tail _ inside)
              simp [splitQuoted, later]
  | case6 c tail _ unmarked unescaped induction =>
      rw [List.cons_append, split_quoted_plain unmarked unescaped,
        induction (Option.map_eq_none_iff.mp nothing), Option.map_none]

end Quoted

section Munching

variable {c : Char} {tail rest : List Char}

theorem munch_quote (marked : c = '"' ∨ c = '\'') (tail : List Char) :
    munch c tail = munchQuoted c tail := by
  rw [munch, if_pos marked]

/-- Before a break every token but a quoted text is the one that ends there. -/
theorem munch_unquoted_before (unmarked : ¬(c = '"' ∨ c = '\'')) (breaks : Breaks rest) :
    munch c (tail ++ rest) = (munch c tail).map (Munch.before · rest) := by
  have number := munch_number_before breaks
  simp only [munch, if_neg unmarked]
  split
  · rw [munch_word_before breaks]
    rfl
  · split
    · exact number ['-'] tail
    · split
      · exact number [] (c :: tail)
      · rw [Option.map_map]
        rfl

theorem quote_unslashed (marked : c = '"' ∨ c = '\'') : c ≠ '\\' := by
  rcases marked with rfl | rfl <;> decide

theorem munch_before {m : Munch} (breaks : Breaks rest) (found : munch c tail = some m) :
    munch c (tail ++ rest) = some (m.before rest) := by
  by_cases marked : c = '"' ∨ c = '\''
  · rw [munch_quote marked] at found ⊢
    obtain ⟨⟨body, after⟩, split, rfl⟩ := Option.map_eq_some_iff.mp found
    rw [munchQuoted, split_quoted_before (quote_unslashed marked) split]
    rfl
  · rw [munch_unquoted_before marked breaks, found]
    rfl

/-- Where no token begins, none begins with more text after a break that has no quotes. -/
theorem munch_none_before (breaks : Breaks rest) (unquoted : '"' ∉ rest ∧ '\'' ∉ rest)
    (nothing : munch c tail = none) : munch c (tail ++ rest) = none := by
  by_cases marked : c = '"' ∨ c = '\''
  · have free : c ∉ rest := by
      rcases marked with rfl | rfl
      · exact unquoted.1
      · exact unquoted.2
    rw [munch_quote marked] at nothing ⊢
    rw [munchQuoted, split_quoted_open (Option.map_eq_none_iff.mp nothing) free]
    rfl
  · rw [munch_unquoted_before marked breaks, nothing]
    rfl

end Munching

end LineShell.Literal
