import LineShell.Proofs.NumberPatterns

/-!
The longest token. Words, strings and punctuation are read by their rules as numbers are, and the
first character of a text leaves only the rules of one kind. Main statement: the token that is taken
at a place is exactly the longest that a rule has there, and none is taken exactly where no rule has
a text.
-/

namespace LineShell.Literal

open Computability

section Words

variable {rule : Rule} {text : List Char}

theorem word_shape (listed : rule ∈ Rule.words) (matched : text ∈ rule.pattern) :
    text ∈ Pattern.name := by
  have keyword {c : Char} {others : List Char} (start : isNameStart c = true)
      (parts : others.all isNamePart = true) : c :: others ∈ Pattern.name :=
    mem_run.mpr ⟨c, others, rfl, start, List.all_eq_true.mp parts⟩
  simp only [Rule.words, Rule.keywordTokens, List.map_cons, List.map_nil, List.mem_append,
    List.mem_cons, List.not_mem_nil, or_false] at listed
  rcases listed with (rfl | rfl | rfl | rfl) | rfl
  · cases matched
    exact keyword (by decide) (by decide)
  · cases matched
    exact keyword (by decide) (by decide)
  · cases matched
    exact keyword (by decide) (by decide)
  · cases matched
    exact keyword (by decide) (by decide)
  · exact matched

theorem word_token_cases (word : String) : (word, wordToken word) ∈ Rule.keywordTokens ∨
    wordToken word = .identifier word ∧ ∀ entry ∈ Rule.keywordTokens, entry.1 ≠ word := by
  unfold wordToken
  split
  · simp_all [Rule.keywordTokens]
  · split
    · simp_all [Rule.keywordTokens]
    · split
      · simp_all [Rule.keywordTokens]
      · split
        · simp_all [Rule.keywordTokens]
        · simp_all [Rule.keywordTokens, eq_comm]

theorem keyword_unique {left right : String × Token} (first : left ∈ Rule.keywordTokens)
    (second : right ∈ Rule.keywordTokens) (same : left.1 = right.1) : left = right := by
  have table : ∀ left ∈ Rule.keywordTokens, ∀ right ∈ Rule.keywordTokens,
      left.1 = right.1 → left = right := by decide
  exact table left first right second same

/-- A keyword wins over the name of the same letters, and no other rule has them. -/
theorem word_chosen {word : String} (isName : word.toList ∈ Pattern.name) :
    ∃ rule ∈ Rule.words, word.toList ∈ rule.pattern ∧
      some (wordToken word) = rule.token word.toList ∧
      ∀ other ∈ Rule.words, word.toList ∈ other.pattern →
        other = rule ∨ other.priority < rule.priority := by
  have named : Rule.name ∈ Rule.words := List.mem_append_right _ (.head _)
  have entry_of {other : Rule} (listed : other ∈ Rule.words) :
      other = Rule.name ∨ ∃ entry ∈ Rule.keywordTokens, other = Rule.keyword entry := by
    rcases List.mem_append.mp listed with keyword | name
    · obtain ⟨entry, inTable, rfl⟩ := List.mem_map.mp keyword
      exact .inr ⟨entry, inTable, rfl⟩
    · exact .inl (List.mem_singleton.mp name)
  rcases word_token_cases word with keyword | ⟨identifier, free⟩
  · refine ⟨Rule.keyword (word, wordToken word),
      List.mem_append_left _ (List.mem_map_of_mem keyword), rfl, rfl, ?_⟩
    intro other listed matched
    rcases entry_of listed with rfl | ⟨entry, inTable, rfl⟩
    · exact .inr Nat.zero_lt_one
    · have sameWord : word = entry.1 := String.toList_inj.mp matched
      rw [keyword_unique inTable keyword sameWord.symm]
      exact .inl rfl
  · refine ⟨Rule.name, named, isName, ?_, ?_⟩
    · rw [identifier]
      change _ = some (Token.identifier (String.ofList word.toList))
      rw [String.ofList_toList]
    · intro other listed matched
      rcases entry_of listed with rfl | ⟨entry, inTable, rfl⟩
      · exact .inl rfl
      · exact absurd (String.toList_inj.mp matched).symm (free entry inTable)

theorem word_takes {c : Char} (start : isNameStart c = true) (tail : List Char) :
    Takes Rule.words (c :: tail) (some (munchWord c tail)) := by
  have isName : (munchWord c tail).text ∈ Pattern.name :=
    mem_run.mpr ⟨c, _, rfl, start, List.all_eq_true.mp List.all_takeWhile⟩
  refine ⟨by simp [munchWord], ?_, ?_⟩
  · intro rule listed text matched leads
    obtain ⟨d, others, rfl, _, parts⟩ := mem_run.mp (word_shape listed matched)
    have follows := (List.cons_prefix_cons.mp leads).2
    exact Nat.succ_le_succ (run_le_take_while parts follows)
  · have chosen := @word_chosen (String.ofList (munchWord c tail).text)
    rw [String.toList_ofList] at chosen
    exact chosen isName

end Words

section Strings

open Pattern

variable {q : Quote} {tail body rest : List Char}

theorem star_cons {pattern : Language Char} {first later : List Char} (one : first ∈ pattern)
    (more : later ∈ pattern∗) : first ++ later ∈ pattern∗ := by
  obtain ⟨pieces, rfl, each⟩ := Language.mem_kstar.mp more
  exact Language.mem_kstar.mpr ⟨first :: pieces, rfl, List.forall_mem_cons.mpr ⟨one, each⟩⟩

/-- The pattern between two marks has the ways to write a text. -/
theorem mem_body : body ∈ (piece q.mark)∗ ↔ ∃ text, Escapes q.mark body text := by
  constructor
  · intro matched
    obtain ⟨pieces, rfl, each⟩ := Language.mem_kstar.mp matched
    clear matched
    induction pieces with
    | nil => exact ⟨[], .nil⟩
    | cons first others induction =>
        obtain ⟨one, more⟩ := List.forall_mem_cons.mp each
        obtain ⟨text, escapes⟩ := induction more
        rcases one with ⟨c, plain, rfl⟩ | escape
        · have apart : c ≠ q.mark ∧ c ≠ '\\' := by simpa using plain
          exact ⟨c :: text, .plain apart.1 apart.2 escapes⟩
        · obtain ⟨_, rfl, _, ⟨c, sameLine, rfl⟩, rfl⟩ := Language.mem_mul.mp escape
          exact ⟨Text.escaped c :: text, .escape (by simpa using sameLine) escapes⟩
  · rintro ⟨text, escapes⟩
    induction escapes with
    | nil => exact Language.nil_mem_kstar _
    | @plain c raw _ unmarked unescaped _ induction =>
        have one : [c] ∈ piece q.mark := .inl ⟨c, by simp [unmarked, unescaped], rfl⟩
        exact star_cons one induction
    | @escape c raw _ sameLine _ induction =>
        have one : ['\\', c] ∈ piece q.mark :=
          .inr (Language.mem_mul.mpr ⟨['\\'], rfl, [c], ⟨c, by simpa using sameLine, rfl⟩, rfl⟩)
        exact star_cons one induction

theorem mem_quoted {text : List Char} : text ∈ quoted q.mark ↔
    ∃ body, (∃ raw, Escapes q.mark body raw) ∧ text = q.mark :: body ++ [q.mark] := by
  rw [quoted, Language.mem_mul]
  constructor
  · rintro ⟨_, rfl, _, inside, rfl⟩
    obtain ⟨body, written, _, rfl, rfl⟩ := Language.mem_mul.mp inside
    exact ⟨body, mem_body.mp written, rfl⟩
  · rintro ⟨body, written, rfl⟩
    refine ⟨[q.mark], rfl, body ++ [q.mark], ?_, rfl⟩
    exact Language.mem_mul.mpr ⟨body, mem_body.mpr written, [q.mark], rfl, rfl⟩

theorem split_quoted_escapes {mark : Char} {cs : List Char}
    (split : splitQuoted mark cs = some (body, rest)) : ∃ text, Escapes mark body text := by
  fun_induction splitQuoted mark cs generalizing body rest with
  | case1 => cases split
  | case2 => cases split
  | case3 c tail feed induction =>
      obtain ⟨⟨inner, after⟩, found, same⟩ := Option.map_eq_some_iff.mp split
      cases same
      obtain ⟨text, escapes⟩ := induction found
      exact ⟨_, .escape feed escapes⟩
  | case4 tail =>
      cases split
      exact ⟨[], .nil⟩
  | case5 => cases split
  | case6 c tail _ unmarked unescaped induction =>
      obtain ⟨⟨inner, after⟩, found, same⟩ := Option.map_eq_some_iff.mp split
      cases same
      obtain ⟨text, escapes⟩ := induction found
      exact ⟨_, .plain unmarked unescaped escapes⟩

theorem string_leads {rule : Rule} {text : List Char} {c : Char} (listed : rule ∈ Rule.strings)
    (matched : text ∈ rule.pattern) (leads : text <+: c :: tail) :
    ∃ q : Quote, c = q.mark ∧ rule = Rule.string q ∧
      ∃ body raw, Escapes q.mark body raw ∧ text = q.mark :: body ++ [q.mark] := by
  obtain ⟨q, rfl⟩ : ∃ q, rule = Rule.string q := by
    simp only [Rule.strings, List.mem_cons, List.not_mem_nil, or_false] at listed
    rcases listed with rfl | rfl
    · exact ⟨.double, rfl⟩
    · exact ⟨.single, rfl⟩
  obtain ⟨body, ⟨raw, escapes⟩, rfl⟩ := mem_quoted.mp matched
  have same : q.mark = c := (List.cons_prefix_cons.mp leads).1
  exact ⟨q, same.symm, rfl, body, raw, escapes, rfl⟩

/-- A text of a string's rule at the front of a text is the one that is read there. -/
theorem string_read {rule : Rule} {text : List Char} (listed : rule ∈ Rule.strings)
    (matched : text ∈ rule.pattern) (leads : text <+: q.mark :: tail) :
    rule = Rule.string q ∧ ∃ body rest, text = q.mark :: body ++ [q.mark] ∧
      splitQuoted q.mark tail = some (body, rest) := by
  obtain ⟨other, same, rfl, body, raw, escapes, rfl⟩ := string_leads listed matched leads
  cases quote_mark_injective same
  obtain ⟨rest, rfl⟩ : body ++ [q.mark] <+: tail := (List.cons_prefix_cons.mp leads).2
  refine ⟨rfl, body, rest, rfl, ?_⟩
  rw [List.append_assoc]
  exact escapes_split escapes rest

theorem string_takes (q : Quote) (tail : List Char) :
    Takes Rule.strings (q.mark :: tail) (munchQuoted q.mark tail) := by
  cases split : splitQuoted q.mark tail with
  | none =>
      rw [munchQuoted, split]
      intro rule listed text matched leads
      obtain ⟨_, body, rest, _, read⟩ := string_read listed matched leads
      rw [split] at read
      cases read
  | some parts =>
      obtain ⟨body, rest⟩ := parts
      rw [munchQuoted, split]
      have whole := splitQuoted_append split
      have listed : Rule.string q ∈ Rule.strings := by
        cases q with
        | double => exact .head _
        | single => exact .tail _ (.head _)
      refine ⟨by simp [whole], ?_, Rule.string q, listed,
        mem_quoted.mpr ⟨body, split_quoted_escapes split, rfl⟩, ?_, ?_⟩
      · intro rule listed text matched leads
        obtain ⟨_, other, after, rfl, read⟩ := string_read listed matched leads
        rw [split] at read
        cases read
        exact Nat.le_refl _
      · simp [Rule.string]
      · intro other listed matched
        have leads : q.mark :: body ++ [q.mark] <+: q.mark :: tail := ⟨rest, by simp [whole]⟩
        exact .inl (string_read listed matched leads).1

end Strings

section Marks

theorem mark_token_iff {c : Char} {token : Token} :
    punctuation? c = some token ↔ (c, token) ∈ Rule.markTokens := by
  unfold punctuation?
  split <;> simp_all [Rule.markTokens, eq_comm]

theorem mark_takes (c : Char) (tail : List Char) : Takes Rule.marks (c :: tail)
    ((punctuation? c).map fun token => { token := some token, text := [c], rest := tail }) := by
  have entry_of {rule : Rule} {text : List Char} (listed : rule ∈ Rule.marks)
      (matched : text ∈ rule.pattern) (leads : text <+: c :: tail) :
      text = [c] ∧ ∃ token, punctuation? c = some token ∧ rule = Rule.mark (c, token) := by
    obtain ⟨⟨d, token⟩, inTable, rfl⟩ := List.mem_map.mp listed
    cases matched
    obtain ⟨rfl, _⟩ := List.cons_prefix_cons.mp leads
    exact ⟨rfl, token, mark_token_iff.mpr inTable, rfl⟩
  cases read : punctuation? c with
  | none =>
      intro rule listed text matched leads
      obtain ⟨_, token, found, _⟩ := entry_of listed matched leads
      rw [read] at found
      cases found
  | some token =>
      refine ⟨rfl, ?_, Rule.mark (c, token), List.mem_map_of_mem (mark_token_iff.mp read), rfl, rfl,
        ?_⟩
      · intro rule listed text matched leads
        rw [(entry_of listed matched leads).1]
      · intro other listed matched
        obtain ⟨_, found, same, rfl⟩ := entry_of listed matched ⟨tail, rfl⟩
        cases read.symm.trans same
        exact .inl rfl

end Marks

section Choice

variable {rule : Rule} {text tail : List Char} {c : Char}

/-- The rules whose texts can begin with this character. -/
def Rule.beginning (c : Char) : List Rule :=
  if c = '"' ∨ c = '\'' then strings
  else if isNameStart c then words
  else if c = '-' ∨ isDigit c then numbers
  else marks

theorem beginning_quote (q : Quote) : Rule.beginning q.mark = Rule.strings := by
  cases q <;> rfl

theorem beginning_name (start : isNameStart c = true) : Rule.beginning c = Rule.words := by
  have unquoted := unquoted_of_class isNameStart (by decide) start
  rw [Rule.beginning, if_neg unquoted, if_pos start]

theorem beginning_number (number : c = '-' ∨ isDigit c = true) :
    Rule.beginning c = Rule.numbers := by
  rcases number with rfl | digit
  · rfl
  · have unquoted := unquoted_of_class isDigit (by decide) digit
    rw [Rule.beginning, if_neg unquoted, digit_unnamed digit, if_neg Bool.false_ne_true,
      if_pos (.inr digit)]

theorem beginning_mark {token : Token} (mark : (c, token) ∈ Rule.markTokens) :
    Rule.beginning c = Rule.marks := by
  simp only [Rule.markTokens, List.mem_cons, Prod.mk.injEq, List.not_mem_nil, or_false] at mark
  rcases mark with ⟨rfl, _⟩ | ⟨rfl, _⟩ | ⟨rfl, _⟩ | ⟨rfl, _⟩ | ⟨rfl, _⟩ | ⟨rfl, _⟩ | ⟨rfl, _⟩ |
    ⟨rfl, _⟩ <;> rfl

theorem beginning_listed (listed : rule ∈ Rule.beginning c) : rule ∈ Rule.all := by
  simp only [Rule.all, List.mem_append]
  unfold Rule.beginning at listed
  split at listed
  · exact .inl (.inr listed)
  · split at listed
    · exact .inl (.inl (.inr listed))
    · split at listed
      · exact .inl (.inl (.inl listed))
      · exact .inr listed

/-- A rule has a text at the front of another only if it is among those for its first character. -/
theorem beginning_of_match (listed : rule ∈ Rule.all) (matched : text ∈ rule.pattern)
    (leads : text <+: c :: tail) : rule ∈ Rule.beginning c := by
  simp only [Rule.all, List.mem_append] at listed
  rcases listed with ((number | word) | string) | mark
  · obtain ⟨p, regular, rfl, rfl⟩ := number_pieces number matched
    obtain ⟨rest, signed, _⟩ := sign_leads regular leads
    rw [beginning_number (signed_begins signed)]
    exact number
  · obtain ⟨d, others, rfl, start, _⟩ := mem_run.mp (word_shape word matched)
    obtain ⟨rfl, _⟩ := List.cons_prefix_cons.mp leads
    rw [beginning_name start]
    exact word
  · obtain ⟨q, rfl, rfl, _⟩ := string_leads string matched leads
    rw [beginning_quote]
    exact string
  · obtain ⟨⟨d, token⟩, inTable, rfl⟩ := List.mem_map.mp mark
    cases matched
    obtain ⟨rfl, _⟩ := List.cons_prefix_cons.mp leads
    rw [beginning_mark inTable]
    exact mark

theorem takes_all {found : Option Munch} (takes : Takes (Rule.beginning c) (c :: tail) found) :
    Takes Rule.all (c :: tail) found := by
  cases found with
  | none =>
      intro rule listed text matched leads
      exact takes rule (beginning_of_match listed matched leads) text matched leads
  | some m =>
      obtain ⟨whole, longest, rule, listed, matched, token, first⟩ := takes
      have front : m.text <+: c :: tail := ⟨m.rest, whole⟩
      refine ⟨whole, ?_, rule, beginning_listed listed, matched, token, ?_⟩
      · intro other isRule text isText leads
        exact longest other (beginning_of_match isRule isText leads) text isText leads
      · intro other isRule isText
        exact first other (beginning_of_match isRule isText front) isText

theorem munch_takes (c : Char) (tail : List Char) : Takes Rule.all (c :: tail) (munch c tail) := by
  apply takes_all
  unfold munch
  split
  · rename_i marked
    obtain ⟨q, rfl⟩ : ∃ q : Quote, c = q.mark := by
      rcases marked with rfl | rfl
      · exact ⟨.double, rfl⟩
      · exact ⟨.single, rfl⟩
    rw [beginning_quote]
    exact string_takes q tail
  · split
    · rename_i start
      rw [beginning_name start]
      exact word_takes start tail
    · split
      · rename_i minus
        subst minus
        exact number_takes (.minus tail)
      · split
        · rename_i digit
          rw [beginning_number (.inr digit)]
          exact number_takes (.digit digit tail)
        · rename_i unquoted unnamed unsigned undigit
          have others : Rule.beginning c = Rule.marks := by
            simp [Rule.beginning, unquoted, unnamed, unsigned, undigit]
          rw [others]
          exact mark_takes c tail

/-- The token at a place is the longest that a pattern has there, with keywords before names. -/
theorem munch_eq_iff {found : Option Munch} :
    munch c tail = found ↔ Takes Rule.all (c :: tail) found := by
  constructor
  · rintro rfl
    exact munch_takes c tail
  · exact takes_unique (munch_takes c tail)

end Choice

end LineShell.Literal
