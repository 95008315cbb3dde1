import LineShell.Proofs.MemberLookup

/-!
Quoting. A text is quoted by putting a backslash before every backslash and every mark of the quote,
and the marks around it. Main statement: handed to the console in this way, every text is written as
it is, by one call; whatever it holds, it cannot end the quotes or the call early, and the rest of
the line is not read.
-/

namespace LineShell

namespace Quote

/-- A character between the marks, with a backslash before it if it would mean something there. -/
def guarded (q : Quote) (c : Char) : List Char := if c = '\\' ∨ c = q.mark then ['\\', c] else [c]

def quoted (q : Quote) (text : String) : List Char :=
  q.mark :: text.toList.flatMap q.guarded ++ [q.mark]

end Quote

/-- A backslash before a backslash or a mark stands for nothing but that character. -/
theorem guard_stands_for_itself {q : Quote} {c : Char} (guarded : c = '\\' ∨ c = q.mark) :
    Text.escaped c = c ∧ c ≠ '\n' := by
  rcases guarded with rfl | rfl
  · decide
  · cases q <;> decide

theorem guarded_escapes (q : Quote) (c : Char) {raw text : List Char}
    (after : Escapes q.mark raw text) : Escapes q.mark (q.guarded c ++ raw) (c :: text) := by
  unfold Quote.guarded
  by_cases guarded : c = '\\' ∨ c = q.mark
  · obtain ⟨itself, sameLine⟩ := guard_stands_for_itself guarded
    have escaped := Escapes.escape sameLine after
    rw [itself] at escaped
    rw [if_pos guarded]
    exact escaped
  · rw [if_neg guarded]
    rw [not_or] at guarded
    exact .plain guarded.2 guarded.1 after

theorem quoted_composes (q : Quote) (text : String) :
    Composes .round (q.quoted text) (.tuple [.string text]) := by
  have escapes : Escapes q.mark (text.toList.flatMap q.guarded) text.toList :=
    escapes_flat_map text.toList fun c _ _ _ after => guarded_escapes q c after
  exact .tuple (last_item_spells (quoted_spells escapes))

/-- Whatever a text holds, the console writes it as it is, once, if it is quoted; nothing else is
written and nothing bound. -/
theorem quoted_text_is_logged (s : Session) (shared : Shared)
    (bound : s.environment.resolve? "console" = some shared)
    (bootstrap : shared.entry = Console.entry) (q : Quote) (text trailing : String) :
    let ran := s.run ("console.log(" ++ String.ofList (q.quoted text) ++ ")" ++ trailing)
    ran.1.outcome = .ok (.invoked .undefined) ∧ ran.1.written = [text] ∧
      ran.2.environment = s.environment := by
  let path := Console.logPath all_blank_nil all_blank_nil
  have line : "console.log(" ++ String.ofList (q.quoted text) ++ ")" ++ trailing =
      String.ofList (path.text ++ '(' :: q.quoted text ++ ')' :: trailing.toList) := by
    rw [← String.toList_inj, Console.log_path_text]
    simp
  have composes := quoted_composes q text
  have reaches := Console.log_reached bound bootstrap all_blank_nil all_blank_nil
  have called := call_evaluates reaches (composes_balanced composes) trailing.toList
    (composes_value composes s.environment _)
  intro ran
  have evaluated : ran.1 = _ := (congrArg (evaluate s.environment) line).trans called
  have kept : ran.2.environment = ran.1.environment := rfl
  rw [kept, evaluated]
  exact ⟨rfl, rfl, rfl⟩

theorem quoted_text_is_logged_beside_log :
    let s := (Session.initial.run "log = console").2
    ∃ shared, s.environment.resolve? "console" = some shared ∧ shared.entry = Console.entry ∧
      let ran := s.run "console.log('\\\\\\'); log(\"n\n')'; x = 1"
      ran.1.outcome = .ok (.invoked .undefined) ∧ ran.1.written = ["\\'); log(\"n\n"] ∧
        ran.2.environment = s.environment := by
  intro s
  have bound : s.environment.resolve? "console" = some ⟨⟨0, []⟩, Console.entry⟩ := rfl
  refine ⟨_, bound, rfl, ?_⟩
  exact quoted_text_is_logged s _ bound rfl .single "\\'); log(\"n\n" "'; x = 1"

end LineShell
