import LineShell.Proofs.Balance
import LineShell.Text.Escape

/-!
Quoted texts and what they stand for. A text is written between two marks of a quote one character
at a time, as it is or after a backslash. Main statements: the scanner's grammar has every such
text, the lexer of literals ends it at the closing mark, and resolving its escapes gives the text
back. A backslash before a line feed is left out, because there the lexer finds no string.
-/

namespace LineShell

/-- Between two marks, `raw` is a way to write `text`. -/
inductive Escapes (mark : Char) : List Char → List Char → Prop where
  | nil : Escapes mark [] []
  | plain {c : Char} {raw text : List Char} (unmarked : c ≠ mark) (unescaped : c ≠ '\\')
      (after : Escapes mark raw text) : Escapes mark (c :: raw) (c :: text)
  | escape {c : Char} {raw text : List Char} (sameLine : c ≠ '\n')
      (after : Escapes mark raw text) : Escapes mark ('\\' :: c :: raw) (Text.escaped c :: text)

section Escapes

variable {mark : Char} {raw text : List Char}

theorem escapes_quoted (escapes : Escapes mark raw text) : Quoted mark raw := by
  induction escapes with
  | nil => exact .nil
  | plain unmarked unescaped _ induction => exact .plain unmarked unescaped induction
  | escape _ _ induction => exact .escape induction

theorem unescape_plain {c : Char} (unescaped : c ≠ '\\') (rest : List Char) :
    Text.unescapeChars (c :: rest) = c :: Text.unescapeChars rest := by
  rw [Text.unescapeChars]
  · intro same
    exact absurd same unescaped
  · intro _ _ same
    exact absurd same unescaped

theorem escapes_unescape (escapes : Escapes mark raw text) : Text.unescapeChars raw = text := by
  induction escapes with
  | nil => rfl
  | plain _ unescaped _ induction => rw [unescape_plain unescaped, induction]
  | escape _ _ induction => rw [Text.unescapeChars, induction]

theorem split_quoted_plain {c : Char} (unmarked : c ≠ mark) (unescaped : c ≠ '\\')
    (rest : List Char) : Literal.splitQuoted mark (c :: rest) =
      (Literal.splitQuoted mark rest).map fun (body, after) => (c :: body, after) := by
  rw [Literal.splitQuoted, if_neg unmarked, if_neg unescaped]
  intro _ _ same
  exact absurd same unescaped

theorem escapes_split {q : Quote} (escapes : Escapes q.mark raw text) (rest : List Char) :
    Literal.splitQuoted q.mark (raw ++ q.mark :: rest) = some (raw, rest) := by
  induction escapes with
  | nil => cases q <;> rfl
  | plain unmarked unescaped _ induction =>
      rw [List.cons_append, split_quoted_plain unmarked unescaped, induction, Option.map_some]
  | escape sameLine _ induction =>
      rw [List.cons_append, List.cons_append, Literal.splitQuoted, if_neg sameLine, induction,
        Option.map_some]

end Escapes

/-- One way to write each character is enough for a whole text. -/
theorem escapes_flat_map {mark : Char} {write : Char → List Char} (text : List Char)
    (each : ∀ c ∈ text, ∀ raw rest, Escapes mark raw rest →
      Escapes mark (write c ++ raw) (c :: rest)) :
    Escapes mark (text.flatMap write) text := by
  induction text with
  | nil => exact .nil
  | cons c others induction =>
      rw [List.flatMap_cons]
      apply each c List.mem_cons_self
      exact induction fun other member => each other (List.mem_cons_of_mem _ member)

end LineShell
