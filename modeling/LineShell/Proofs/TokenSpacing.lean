import LineShell.Proofs.NestedLiteral

/-!
Blanks between the tokens of a literal. Where a token ends depends on up to three characters after
it, which could make it longer; but a blank makes no token longer, and what comes after a blank is
too far away to. Main statement: blanks that are inserted anywhere but within a token change neither
the tokens nor what the text means.
-/

namespace LineShell.Literal

/-- The second text is the first with blanks inserted, at offsets that are not within a token. -/
inductive Spaced (tokens : List Spanned) : Nat → List Char → List Char → Prop where
  | done {offset : Nat} : Spaced tokens offset [] []
  | keep {offset : Nat} {c : Char} {cs spaced : List Char}
      (later : Spaced tokens (offset + c.utf8Size) cs spaced) :
      Spaced tokens offset (c :: cs) (c :: spaced)
  | insert {offset : Nat} {blank : Char} {cs spaced : List Char} (skipped : isSkipped blank = true)
      (outside : ∀ token ∈ tokens, ¬(token.start < offset ∧ offset < token.stop))
      (later : Spaced tokens offset cs spaced) : Spaced tokens offset cs (blank :: spaced)

/-- Up to its first blank the second text is a beginning of the first. -/
def Echoes (cs others : List Char) : Prop :=
  ∀ front, (∀ c ∈ front, isSkipped c = false) → front <+: others → front <+: cs

section Echoing

variable {cs others : List Char}

theorem echoes_cons (c : Char) (echoes : Echoes cs others) : Echoes (c :: cs) (c :: others) := by
  intro front unskipped begins
  cases front with
  | nil => exact List.nil_prefix
  | cons first rest =>
      obtain ⟨same, later⟩ := List.cons_prefix_cons.mp begins
      have unskippedLater := (List.forall_mem_cons.mp unskipped).2
      exact List.cons_prefix_cons.mpr ⟨same, echoes rest unskippedLater later⟩

theorem echoes_append (text : List Char) (echoes : Echoes cs others) :
    Echoes (text ++ cs) (text ++ others) := by
  induction text with
  | nil => exact echoes
  | cons c rest induction => exact echoes_cons c induction

theorem spaced_echoes {tokens : List Spanned} {offset : Nat}
    (spaced : Spaced tokens offset cs others) : Echoes cs others := by
  induction spaced with
  | done => exact fun _ _ begins => begins
  | @keep _ c _ _ _ induction => exact echoes_cons c induction
  | @insert _ blank _ _ skipped =>
      intro front unskipped begins
      cases front with
      | nil => exact List.nil_prefix
      | cons first rest =>
          obtain ⟨rfl, _⟩ := List.cons_prefix_cons.mp begins
          rw [unskipped first List.mem_cons_self] at skipped
          cases skipped

theorem echoes_first {c : Char} {rest : List Char} (echoes : Echoes cs (c :: rest))
    (unskipped : isSkipped c = false) : ∃ tail, cs = c :: tail ∧ Echoes tail rest := by
  obtain ⟨tail, rfl⟩ := echoes [c] (by simpa using unskipped) (by simp)
  refine ⟨tail, rfl, ?_⟩
  intro front unskippedFront begins
  have whole := echoes (c :: front) (List.forall_mem_cons.mpr ⟨unskipped, unskippedFront⟩)
    (List.cons_prefix_cons.mpr ⟨rfl, begins⟩)
  exact (List.cons_prefix_cons.mp whole).2

/-- What a class without blanks took from a text it takes again. -/
theorem class_echoes {inClass : Char → Bool} (unblank : ∀ c, inClass c = true → isSkipped c = false)
    (echoes : Echoes (cs.dropWhile inClass) others) :
    (cs.takeWhile inClass ++ others).takeWhile inClass = cs.takeWhile inClass ∧
      (cs.takeWhile inClass ++ others).dropWhile inClass = others := by
  have inside : ∀ c ∈ cs.takeWhile inClass, inClass c = true :=
    List.all_eq_true.mp List.all_takeWhile
  have ends : others.takeWhile inClass = [] ∧ others.dropWhile inClass = others := by
    cases others with
    | nil => exact ⟨rfl, rfl⟩
    | cons c rest =>
        cases member : inClass c with
        | false => simp [member]
        | true =>
            obtain ⟨tail, left, _⟩ := echoes_first echoes (unblank c member)
            have first := List.head?_dropWhile_not inClass cs
            rw [left, List.head?_cons] at first
            simp [member] at first
  rw [List.takeWhile_append_of_pos inside, List.dropWhile_append_of_pos inside, ends.1, ends.2,
    List.append_nil]
  exact ⟨rfl, rfl⟩

theorem digit_unskipped {c : Char} (digit : isDigit c = true) : isSkipped c = false :=
  unskipped_of_class isDigit (by decide) digit

theorem digits_echo (echoes : Echoes (cs.dropWhile isDigit) others) :
    (cs.takeWhile isDigit ++ others).takeWhile isDigit = cs.takeWhile isDigit ∧
      (cs.takeWhile isDigit ++ others).dropWhile isDigit = others :=
  class_echoes (fun _ => digit_unskipped) echoes

theorem no_digits_echo (echoes : Echoes cs others) (none : cs.takeWhile isDigit = []) :
    others.takeWhile isDigit = [] := by
  cases others with
  | nil => rfl
  | cons c rest =>
      cases digit : isDigit c with
      | false => simp [digit]
      | true =>
          obtain ⟨tail, rfl, _⟩ := echoes_first echoes (digit_unskipped digit)
          simp [digit] at none

theorem no_fraction_echoes (none : splitFraction cs = (none, cs)) (echoes : Echoes cs others) :
    splitFraction others = (.none, others) := by
  rw [splitFraction.eq_def others]
  split
  · rename_i rest
    obtain ⟨tail, rfl, later⟩ := echoes_first echoes (by decide)
    have undigited : tail.takeWhile isDigit = [] := by
      cases digits : tail.takeWhile isDigit with
      | nil => rfl
      | cons => simp [splitFraction, digits] at none
    rw [no_digits_echo later undigited]
    rfl
  · rfl

theorem split_fraction_echoes {fraction : Option (List Char)} {rest : List Char}
    (split : splitFraction cs = (fraction, rest)) (echoes : Echoes rest others) :
    splitFraction (fractionText fraction ++ others) = (fraction, others) := by
  cases fraction with
  | none =>
      have whole := splitFraction_append cs
      rw [split] at whole
      obtain rfl : rest = cs := whole
      exact no_fraction_echoes split echoes
  | some digits =>
      unfold splitFraction at split
      split at split
      · rename_i tail
        split at split
        · cases split
        · rename_i nonempty
          cases split
          have again := digits_echo echoes
          rw [fractionText, List.cons_append, splitFraction, again.1, again.2, if_neg nonempty]
      · cases split

theorem unsigned_of_digit {digit : Char} (isNumber : isDigit digit = true) (rest : List Char) :
    splitSign (digit :: rest) = ([], digit :: rest) := by
  unfold splitSign
  split
  · rename_i same
    cases same
    cases isNumber
  · rename_i same
    cases same
    cases isNumber
  · rfl

theorem sign_echoes (echoes : Echoes cs others)
    (digits : (splitSign others).2.takeWhile isDigit ≠ []) :
    Echoes (splitSign cs).2 (splitSign others).2 := by
  revert digits
  rw [splitSign.eq_def others]
  split
  · intro _
    obtain ⟨tail, rfl, later⟩ := echoes_first echoes (by decide)
    exact later
  · intro _
    obtain ⟨tail, rfl, later⟩ := echoes_first echoes (by decide)
    exact later
  · intro digits
    cases others with
    | nil => exact absurd rfl digits
    | cons c rest =>
        cases digit : isDigit c with
        | false => simp [digit] at digits
        | true =>
            obtain ⟨tail, rfl, later⟩ := echoes_first echoes (digit_unskipped digit)
            rw [unsigned_of_digit digit]
            exact echoes_cons c later

theorem no_exponent_echoes (none : splitExponent cs = (none, cs)) (echoes : Echoes cs others) :
    splitExponent others = (.none, others) := by
  rw [splitExponent.eq_def others]
  split
  · rfl
  · rename_i mark rest
    dsimp only
    split
    · rename_i marked
      obtain ⟨isMark, digits⟩ := marked
      have unskipped : isSkipped mark = false := by
        rcases isMark with rfl | rfl <;> decide
      obtain ⟨tail, rfl, later⟩ := echoes_first echoes unskipped
      have digits : (splitSign rest).2.takeWhile isDigit ≠ [] := by simpa using digits
      have before : (splitSign tail).2.takeWhile isDigit ≠ [] := by
        intro nothing
        exact digits (no_digits_echo (sign_echoes later digits) nothing)
      simp [splitExponent, isMark, before] at none
    · rfl

theorem split_sign_again (cs : List Char) {digits rest : List Char} (nonempty : digits ≠ [])
    (inside : ∀ c ∈ digits, isDigit c = true) :
    splitSign ((splitSign cs).1 ++ (digits ++ rest)) = ((splitSign cs).1, digits ++ rest) := by
  rw [splitSign.eq_def cs]
  split
  · rfl
  · rfl
  · obtain ⟨first, more, rfl⟩ := List.exists_cons_of_ne_nil nonempty
    exact unsigned_of_digit (inside first List.mem_cons_self) _

theorem split_exponent_echoes {exponent : Option Exponent} {rest : List Char}
    (split : splitExponent cs = (exponent, rest)) (echoes : Echoes rest others) :
    splitExponent (exponentText exponent ++ others) = (exponent, others) := by
  cases exponent with
  | none =>
      have whole := splitExponent_append cs
      rw [split] at whole
      obtain rfl : rest = cs := whole
      exact no_exponent_echoes split echoes
  | some e =>
      unfold splitExponent at split
      split at split
      · cases split
      · rename_i mark tail
        dsimp only at split
        split at split
        · rename_i marked
          cases split
          have nonempty : (splitSign tail).2.takeWhile isDigit ≠ [] := by simpa using marked.2
          have signed := @split_sign_again tail _ others nonempty
            (List.all_eq_true.mp List.all_takeWhile)
          have again := digits_echo echoes
          simp only [exponentText, List.cons_append, List.append_assoc, splitExponent, signed,
            again.1, again.2, if_pos marked]
        · cases split

theorem munch_number_echoes {sign : List Char} {m : Munch} (found : munchNumber sign cs = some m)
    (echoes : Echoes m.rest others) :
    ∃ again, sign ++ again = m.text ++ others ∧
      munchNumber sign again = some { m with rest := others } := by
  unfold munchNumber at found
  dsimp only at found
  split at found
  · cases found
  · rename_i nonempty
    cases found
    dsimp only at echoes ⊢
    generalize fractionRead : splitFraction (cs.dropWhile isDigit) = fraction at *
    generalize exponentRead : splitExponent fraction.2 = exponent at *
    have wholeFraction := splitFraction_append (cs.dropWhile isDigit)
    have wholeExponent := splitExponent_append fraction.2
    rw [fractionRead] at wholeFraction
    rw [exponentRead] at wholeExponent
    -- Each part is followed by an echo of what followed it before.
    have afterFraction := echoes_append (exponentText exponent.1) echoes
    rw [wholeExponent] at afterFraction
    have afterDigits := echoes_append (fractionText fraction.1) afterFraction
    rw [wholeFraction] at afterDigits
    have digits := digits_echo afterDigits
    have fractionAgain := split_fraction_echoes fractionRead afterFraction
    have exponentAgain := split_exponent_echoes exponentRead echoes
    refine ⟨cs.takeWhile isDigit ++ (fractionText fraction.1 ++
      (exponentText exponent.1 ++ others)), by simp, ?_⟩
    simp only [munchNumber, digits.1, digits.2, fractionAgain, exponentAgain, if_neg nonempty]

theorem split_quoted_again {quote : Char} (unslashed : quote ≠ '\\') {body rest : List Char}
    (split : splitQuoted quote cs = some (body, rest)) (others : List Char) :
    splitQuoted quote (body ++ quote :: others) = some (body, others) := by
  fun_induction splitQuoted quote cs generalizing body rest with
  | case1 => cases split
  | case2 => cases split
  | case3 c tail feed induction =>
      obtain ⟨⟨inner, left⟩, found, same⟩ := Option.map_eq_some_iff.mp split
      cases same
      simp [splitQuoted, feed, induction found]
  | case4 tail =>
      cases split
      exact split_quoted_mark unslashed others
  | case5 => cases split
  | case6 c tail _ unmarked unescaped induction =>
      obtain ⟨⟨inner, left⟩, found, same⟩ := Option.map_eq_some_iff.mp split
      cases same
      rw [List.cons_append, split_quoted_plain unmarked unescaped, induction found, Option.map_some]

theorem word_part_unskipped {c : Char} (part : isNamePart c = true) : isSkipped c = false :=
  unskipped_of_class isNamePart (by decide) part

theorem munch_begins {c : Char} {tail : List Char} {m : Munch} (found : munch c tail = some m) :
    ∃ more, m.text = c :: more := by
  obtain ⟨first, more, text⟩ := List.exists_cons_of_ne_nil (munch_text_ne_nil found)
  have whole := munch_append found
  rw [text, List.cons_append] at whole
  cases whole
  exact ⟨more, text⟩

theorem munch_echoes {c : Char} {tail : List Char} {m : Munch} (found : munch c tail = some m)
    (echoes : Echoes m.rest others) :
    ∃ again, c :: again = m.text ++ others ∧ munch c again = some { m with rest := others } := by
  obtain ⟨more, text⟩ := munch_begins found
  unfold munch at found
  split at found
  · rename_i marked
    obtain ⟨⟨body, rest⟩, split, rfl⟩ := Option.map_eq_some_iff.mp found
    refine ⟨body ++ c :: others, by simp, ?_⟩
    rw [munch_quote marked, munchQuoted, split_quoted_again (quote_unslashed marked) split]
    rfl
  · rename_i unquoted
    split at found
    · rename_i start
      cases found
      have word := class_echoes (fun _ => word_part_unskipped) echoes
      refine ⟨tail.takeWhile isNamePart ++ others, rfl, ?_⟩
      rw [munch, if_neg unquoted, if_pos start]
      simp only [munchWord, word.1, word.2]
    · rename_i unnamed
      split at found
      · rename_i minus
        obtain ⟨again, whole, read⟩ := munch_number_echoes found echoes
        refine ⟨again, ?_, ?_⟩
        · rw [minus]
          exact whole
        · rw [munch, if_neg unquoted, if_neg unnamed, if_pos minus]
          exact read
      · rename_i unsigned
        split at found
        · rename_i digit
          obtain ⟨again, whole, read⟩ := munch_number_echoes found echoes
          rw [List.nil_append, text, List.cons_append] at whole
          refine ⟨more ++ others, by rw [text, List.cons_append], ?_⟩
          rw [munch_digit digit, ← whole]
          exact read
        · rename_i undigited
          obtain ⟨token, mark, rfl⟩ := Option.map_eq_some_iff.mp found
          refine ⟨others, rfl, ?_⟩
          rw [munch, if_neg unquoted, if_neg unnamed, if_neg unsigned, if_neg undigited, mark]
          rfl

end Echoing

section Spacing

variable {tokens : List Spanned} {offset : Nat} {cs spaced : List Char}

theorem spaced_end (inserted : Spaced tokens offset [] spaced) :
    LexesTo spaced [] := by
  generalize nothing : ([] : List Char) = text at inserted
  induction inserted with
  | done => exact lexes_nil
  | keep => cases nothing
  | insert skipped _ _ induction => exact lexes_skipped skipped (induction nothing)

theorem spaced_next {c : Char} (inserted : Spaced tokens offset (c :: cs) spaced) :
    ∃ blanks later, spaced = blanks ++ c :: later ∧ (∀ blank ∈ blanks, isSkipped blank = true) ∧
      Spaced tokens (offset + c.utf8Size) cs later := by
  generalize next : c :: cs = text at inserted
  induction inserted with
  | done => cases next
  | keep later =>
      cases next
      exact ⟨[], _, rfl, List.forall_mem_nil _, later⟩
  | @insert _ blank _ _ skipped _ _ induction =>
      obtain ⟨blanks, later, rfl, allSkipped, continues⟩ := induction next
      exact ⟨blank :: blanks, later, rfl, List.forall_mem_cons.mpr ⟨skipped, allSkipped⟩, continues⟩

theorem spaced_within {token : Spanned} (member : token ∈ tokens) {text rest : List Char}
    (begun : token.start < offset) (ends : token.stop = offset + byteSize text)
    (inserted : Spaced tokens offset (text ++ rest) spaced) :
    ∃ later, spaced = text ++ later ∧ Spaced tokens token.stop rest later := by
  induction text generalizing offset spaced with
  | nil =>
      rw [ends]
      exact ⟨spaced, rfl, inserted⟩
  | cons c more induction =>
      have positive := c.utf8Size_pos
      rw [byte_size_cons] at ends
      cases inserted with
      | keep inserted =>
          obtain ⟨later, rfl, continues⟩ := induction (by omega) (by omega) inserted
          exact ⟨later, rfl, continues⟩
      | insert _ outside => exact absurd ⟨begun, by omega⟩ (outside token member)

theorem lexes_blanks {blanks rest : List Char} {others : List Token}
    (skipped : ∀ blank ∈ blanks, isSkipped blank = true) (after : LexesTo rest others) :
    LexesTo (blanks ++ rest) others := by
  induction blanks with
  | nil => exact after
  | cons blank more induction =>
      obtain ⟨first, later⟩ := List.forall_mem_cons.mp skipped
      exact lexes_skipped first (induction later)

/-- The induction follows the lexer: blanks and the next token are taken off the text and off the
spaced one together. -/
theorem spaced_lexes (clean : (lexFrom offset cs).fault = none)
    (among : ∀ token ∈ (lexFrom offset cs).tokens, token ∈ tokens) :
    ∀ spaced, Spaced tokens offset cs spaced →
      LexesTo spaced ((lexFrom offset cs).tokens.map Spanned.token) := by
  fun_induction lexFrom offset cs with
  | case1 =>
      intro spaced inserted
      exact spaced_end inserted
  | case2 offset c tail skipped induction =>
      intro spaced inserted
      obtain ⟨blanks, later, rfl, blank, continues⟩ := spaced_next inserted
      exact lexes_blanks blank (lexes_skipped skipped (induction clean among later continues))
  | case3 => cases clean
  | case4 => cases clean
  | case5 offset c tail unskipped m found token denotes _ stop _ induction =>
      intro spaced inserted
      obtain ⟨first, others⟩ := List.forall_mem_cons.mp among
      obtain ⟨blanks, later, rfl, blank, continues⟩ := spaced_next inserted
      obtain ⟨more, text⟩ := munch_begins found
      have split := munch_append found
      rw [text, List.cons_append] at split
      cases split
      have positive := c.utf8Size_pos
      have ends : stop = offset + c.utf8Size + byteSize more := by
        rw [Nat.add_assoc, ← byte_size_cons, ← text]
      obtain ⟨left, rfl, follows⟩ := spaced_within first (by dsimp only; omega) ends continues
      obtain ⟨again, whole, read⟩ := munch_echoes found (spaced_echoes follows)
      rw [text, List.cons_append] at whole
      cases whole
      exact lexes_blanks blank (lexes_token (Bool.eq_false_iff.mpr unskipped) read denotes
        (induction clean others left follows))

end Spacing

theorem read_same {raw other : String} (b : Bracket) (fault : (lex other).fault = (lex raw).fault)
    (tokens : (lex other).tokens.map Spanned.token = (lex raw).tokens.map Spanned.token) :
    read b.shape other = read b.shape raw := by
  cases b <;> simp only [read, Bracket.shape, fault, tokens]

/-- If a text splits into tokens to its end, then it does so with blanks inserted before, between and
after its tokens, into the same ones; so in brackets it has the same value, or the same fault. -/
theorem blanks_between_tokens_do_not_count (raw spaced : String) (clean : (lex raw).fault = none)
    (inserted : Spaced (lex raw).tokens 0 raw.toList spaced.toList) :
    (lex spaced).fault = none ∧
    (lex spaced).tokens.map Spanned.token = (lex raw).tokens.map Spanned.token ∧
    ∀ (env : Environment) (b : Bracket) (position : Nat),
      env.valueOf b.shape spaced position = env.valueOf b.shape raw position := by
  obtain ⟨fault, tokens⟩ := spaced_lexes clean (fun _ member => member) _ inserted 0
  refine ⟨fault, tokens, ?_⟩
  intro env b position
  rw [Environment.value_of_read, Environment.value_of_read, read_same b (fault.trans clean.symm) tokens]

theorem blanks_between_tokens_do_not_count_in_pair :
    let written : Lexed := ⟨[⟨.integer 1, 0, 1⟩, ⟨.comma, 1, 2⟩, ⟨.integer (-2), 2, 4⟩], none⟩
    lex "1,-2" = written ∧ Spaced written.tokens 0 "1,-2".toList " 1\t, -2\n".toList ∧
    ∀ env position, Environment.valueOf env .tuple " 1\t, -2\n" position =
      Environment.valueOf env .tuple "1,-2" position := by
  intro written
  have lexed : lex "1,-2" = written := by decide +kernel
  have spaced : Spaced written.tokens 0 "1,-2".toList " 1\t, -2\n".toList :=
    .insert rfl (by decide) (.keep (.insert rfl (by decide) (.keep (.insert rfl (by decide)
      (.keep (.keep (.insert rfl (by decide) .done)))))))
  have same := blanks_between_tokens_do_not_count "1,-2" " 1\t, -2\n" (by rw [lexed])
    (by rw [lexed]; exact spaced)
  exact ⟨lexed, spaced, fun env => same.2.2 env .round⟩

end LineShell.Literal
