import LineShell.Proofs.Spelling
import LineShell.Proofs.TokenBreaks

/-!
A composite text means the same whether it stands alone, where it ends with the text, or in its
brackets as the one item of a tuple, where it ends at its bracket. The lexer splits the bracketed
text into the bracket, the tokens of the text and the other bracket, or has no tokens for either;
and between the brackets the grammar asks for what it asks of the text alone.
-/

namespace LineShell.Literal

section Lexing

variable {rest cs : List Char} {offset : Nat}

theorem lex_skipped {c : Char} (skipped : isSkipped c = true) (tail : List Char) (offset : Nat) :
    lexFrom offset (c :: tail) = lexFrom (offset + c.utf8Size) tail := by
  rw [lexFrom, if_pos skipped]

/-- A token that denotes nothing, such as an integer out of range, is a fault. -/
theorem lex_unread {c : Char} {tail : List Char} {m : Munch} (unskipped : isSkipped c = false)
    (found : munch c tail = some m) (nothing : m.token = none) (offset : Nat) :
    lexFrom offset (c :: tail) = ⟨[], some offset⟩ := by
  rw [lexFrom, if_neg (by rw [unskipped]; exact Bool.false_ne_true)]
  split
  · rfl
  · rename_i other foundOther
    rw [found] at foundOther
    cases foundOther
    simp only [nothing]

theorem lexes_before {others : List Token} (breaks : Breaks rest) (after : LexesTo rest others)
    (clean : (lexFrom offset cs).fault = none) :
    LexesTo (cs ++ rest) ((lexFrom offset cs).tokens.map Spanned.token ++ others) := by
  fun_induction lexFrom offset cs with
  | case1 => exact after
  | case2 offset c tail skipped induction => exact lexes_skipped skipped (induction clean)
  | case3 => cases clean
  | case4 => cases clean
  | case5 offset c tail unskipped m found token denotes _ _ _ induction =>
      exact lexes_token (Bool.eq_false_iff.mpr unskipped) (munch_before breaks found) denotes
        (induction clean)

theorem fault_before (breaks : Breaks rest) (unquoted : '"' ∉ rest ∧ '\'' ∉ rest)
    (faulty : (lexFrom offset cs).fault ≠ none) (start : Nat) :
    (lexFrom start (cs ++ rest)).fault ≠ none := by
  fun_induction lexFrom offset cs generalizing start with
  | case1 => exact absurd rfl faulty
  | case2 offset c tail skipped induction =>
      rw [List.cons_append, lex_skipped skipped]
      exact induction faulty _
  | case3 offset c tail unskipped nothing =>
      have stuck := munch_none_before breaks unquoted nothing
      rw [List.cons_append, lex_stuck (Bool.eq_false_iff.mpr unskipped) stuck]
      exact Option.some_ne_none start
  | case4 offset c tail unskipped m found nothing =>
      have still := munch_before breaks found
      rw [List.cons_append, lex_unread (Bool.eq_false_iff.mpr unskipped) still nothing]
      exact Option.some_ne_none start
  | case5 offset c tail unskipped m found token denotes _ _ _ induction =>
      have still := munch_before breaks found
      rw [List.cons_append, lex_token (Bool.eq_false_iff.mpr unskipped) still denotes]
      exact induction faulty _

end Lexing

section Brackets

variable (b : Bracket)

theorem munch_opener (tail : List Char) :
    munch b.opener tail =
      some { token := some (bracketTokens b).1, text := [b.opener], rest := tail } := by
  cases b <;> rfl

theorem closer_breaks : Breaks [b.closer] := by
  intro c member
  cases member
  cases b <;> decide

theorem closer_lexes : LexesTo [b.closer] [(bracketTokens b).2] := by
  apply lexes_mark _ lexes_nil
  cases b <;> rfl

/-- The tokens of a text in brackets are those of the text, with a bracket on either side. -/
theorem lexes_enclosed_iff (raw : String) (tokens : List Token) :
    Lexes (String.singleton b.opener ++ raw ++ String.singleton b.closer) tokens ↔
      ∃ inner, Lexes raw inner ∧
        tokens = (bracketTokens b).1 :: (inner ++ [(bracketTokens b).2]) := by
  have written : (String.singleton b.opener ++ raw ++ String.singleton b.closer).toList =
      b.opener :: (raw.toList ++ [b.closer]) := by simp
  have unskipped : isSkipped b.opener = false := by cases b <;> decide
  have splits (clean : (lex raw).fault = none) :
      LexesTo (b.opener :: (raw.toList ++ [b.closer])) ((bracketTokens b).1 ::
        ((lex raw).tokens.map Spanned.token ++ [(bracketTokens b).2])) := by
    apply lexes_token unskipped (munch_opener b _) rfl
    exact lexes_before (closer_breaks b) (closer_lexes b) clean
  have sticks (faulty : (lex raw).fault ≠ none) :
      (lexFrom 0 (b.opener :: (raw.toList ++ [b.closer]))).fault ≠ none := by
    rw [lex_token unskipped (munch_opener b _) rfl]
    exact fault_before (closer_breaks b) (by cases b <;> decide) faulty _
  unfold Lexes
  constructor
  · intro lexes
    rw [lex, written] at lexes
    by_cases clean : (lex raw).fault = none
    · exact ⟨_, ⟨clean, rfl⟩, lexes.2.symm.trans (splits clean 0).2⟩
    · exact absurd lexes.1 (sticks clean)
  · rintro ⟨_, ⟨clean, rfl⟩, rfl⟩
    rw [lex, written]
    exact splits clean 0

/-- Between its brackets a list is the one item of a tuple if it is a list to its end alone. -/
theorem writes_enclosed_iff {list : OpenList} (composite : outermost? b.shape = some list)
    (inner : List Token) (item : Literal) :
    WritesItems ((bracketTokens b).1 :: (inner ++ [(bracketTokens b).2])) [item] ↔
      list.Ends inner item := by
  obtain ⟨opens, closes⟩ := bracket_opens_outermost composite
  constructor
  · intro writes
    generalize whole : (bracketTokens b).1 :: (inner ++ [(bracketTokens b).2]) = tokens at writes
    cases writes with
    | last value =>
        rw [← whole] at value
        rcases (writes_cons_iff _ _ _).mp value with ⟨empty, _⟩ | ⟨other, body, opened, same, ends⟩
        · simp at empty
        · cases opens.symm.trans opened
          rw [← closes] at same
          rw [List.append_cancel_right same]
          exact ends
    | @next front _ _ _ value others =>
        -- A comma after the last item would stand where the bracket does.
        cases others
        rw [← List.cons_append] at whole
        have last := List.append_inj_right' whole rfl
        cases b <;> cases last
  · intro ends
    apply WritesItems.last
    rw [writes_cons_iff]
    exact .inr ⟨list, inner, opens, by rw [closes], ends⟩

end Brackets

end LineShell.Literal

namespace LineShell.Environment

open Literal

/-- A composite text has a value exactly if in its brackets it is the one item of a tuple, and then
that item is its value. -/
theorem nested_composite_means_the_same (env : Environment) (b : Bracket) (raw : String)
    (position : Nat) (value : Value) :
    env.valueOf b.shape raw position = .ok value ↔
      env.valueOf .tuple (String.singleton b.opener ++ raw ++ String.singleton b.closer) position =
        .ok (.tuple [value]) := by
  obtain ⟨list, composite⟩ : ∃ list, outermost? b.shape = some list := by
    cases b <;> exact ⟨_, rfl⟩
  rw [value_of_composite_iff composite, @value_of_composite_iff .tuple _ rfl]
  constructor
  · intro written
    obtain ⟨inner, item, lexes, ends, rfl⟩ := written
    refine ⟨_, .tuple [item], (lexes_enclosed_iff b raw _).mpr ⟨inner, lexes, rfl⟩, ?_, ?_⟩
    · exact ⟨[item], (writes_enclosed_iff b composite inner item).mpr ends, rfl⟩
    · exact (tuple_value _ [item]).symm
  · intro written
    obtain ⟨_, _, lexes, ⟨items, writes, rfl⟩, same⟩ := written
    obtain ⟨inner, lexesInner, rfl⟩ := (lexes_enclosed_iff b raw _).mp lexes
    rw [List.reverse_nil, List.nil_append, tuple_value] at same
    obtain ⟨item, rfl, meaning⟩ := List.map_eq_singleton_iff.mp (Value.tuple.inj same).symm
    exact ⟨inner, item, lexesInner, (writes_enclosed_iff b composite inner item).mp writes,
      meaning.symm⟩

end LineShell.Environment
