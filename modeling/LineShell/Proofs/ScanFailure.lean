import LineShell.Proofs.Capture

/-!
Where scanning fails. The scanner complains of the character it is at or, when the text ends, of a
delimiter that is still open, and says where that one was opened. Main statement: the character it
complains of stands in the text at the position it reports.
-/

namespace LineShell

open Literal (byteSize)

/-- An opening delimiter that stands in these characters where it says. -/
def Opening.StandsIn (cs : List Char) (opening : Opening) : Prop :=
  (∃ e : Enclosure, opening.delimiter = e.opener) ∧
    StandsAt 0 cs opening.position [opening.delimiter]

theorem opener_of_enclosed {c : Char} (role : Character.enclosed c = some .opening) :
    ∃ e : Enclosure, c = e.opener := by
  rcases character_cases c with opener | ⟨b, rfl⟩ | plain
  · exact opener
  · rw [enclosed_closer] at role
    cases role
  · rw [enclosed_plain plain] at role
    cases role

namespace Scanner

def openings : Scanner → List Opening
  | capture _ _ _ delimiters => delimiters.stack
  | _ => []

/-- What can come of a step while these delimiters are open: no other is open after it but one that
stands here, or the character here is unexpected. -/
inductive Minds (outer : List Opening) (position : Nat) (c : Char) : Except Error Step → Prop where
  | goes {emitted : Option (Located Lexeme)} {next : Scanner}
      (opened : ∀ opening ∈ next.openings,
        opening ∈ outer ∨ opening = ⟨c, position⟩ ∧ ∃ e : Enclosure, c = e.opener) :
      Minds outer position c (.ok (emitted, next))
  | fails : Minds outer position c (.error ⟨.unexpectedToken c, position⟩)

section Steps

variable {outer : List Opening} {position : Nat} {c : Char}

theorem shut_minds {emitted : Option (Located Lexeme)} {next : Scanner}
    (shut : next.openings = []) : Minds outer position c (.ok (emitted, next)) := by
  apply Minds.goes
  rw [shut]
  exact List.forall_mem_nil _

theorem kept_minds {emitted : Option (Located Lexeme)} {next : Scanner}
    (kept : ∀ opening ∈ next.openings, opening ∈ outer) :
    Minds outer position c (.ok (emitted, next)) :=
  .goes fun opening member => .inl (kept opening member)

theorem step_operator_minds (s : Scanner) (op : Operator) :
    Minds outer position c (s.stepOperator op position c) := by
  unfold stepOperator
  split
  · exact .fails
  · split <;> exact shut_minds rfl
  · exact shut_minds rfl

theorem step_blank_openings (s : Scanner) (position : Nat) :
    ∀ opening ∈ (s.stepBlank position).openings, opening ∈ s.openings := by
  unfold stepBlank
  split
  · exact List.forall_mem_nil _
  · exact List.forall_mem_nil _
  · exact fun _ member => member

theorem step_text_shut (s : Scanner) (position : Nat) (c : Char) :
    (s.stepText position c).2.openings = [] := by
  unfold stepText
  split <;> rfl

theorem step_outside_minds (s : Scanner) :
    Minds s.openings position c (s.stepOutside position c) := by
  unfold stepOutside
  split
  · exact shut_minds rfl
  · exact kept_minds (step_blank_openings s position)
  · rename_i role
    apply Minds.goes
    intro opening member
    obtain rfl := List.mem_singleton.mp member
    exact .inr ⟨rfl, (outside_opening_iff c).mp role⟩
  · exact .fails
  · exact step_operator_minds s _
  · exact step_operator_minds s _
  · exact step_operator_minds s _
  · exact shut_minds (step_text_shut s position c)
  · exact shut_minds (step_text_shut s position c)

variable (origin : Nat) (text : String) (delimiters : Delimiters)

theorem step_closing_minds (partner : Char) (shape : Shape) :
    Minds delimiters.stack position c
      (stepClosing origin text delimiters position c partner shape) := by
  unfold stepClosing
  split
  · rename_i failed
    rw [Delimiters.close_error failed]
    exact .fails
  · exact shut_minds rfl
  · rename_i rest closed
    obtain ⟨top, below, stack, _, ⟨complete, _⟩ | ⟨_, _, rfl⟩⟩ := Delimiters.close_ok_cases closed
    · cases complete
    · apply kept_minds
      intro opening member
      rw [stack]
      exact List.mem_cons_of_mem top member

theorem step_quoted_minds (escaped : Bool) (quote : Char) :
    Minds delimiters.stack position c
      (stepQuoted origin text escaped delimiters quote position c) := by
  unfold stepQuoted
  split
  · exact kept_minds fun _ member => member
  · split
    · exact kept_minds fun _ member => member
    · split
      · exact step_closing_minds origin text delimiters quote .string
      · exact kept_minds fun _ member => member

theorem step_enclosed_minds :
    Minds delimiters.stack position c (stepEnclosed origin text delimiters position c) := by
  unfold stepEnclosed
  split
  · rename_i role
    apply Minds.goes
    intro opening member
    rcases List.mem_cons.mp member with rfl | before
    · exact .inr ⟨rfl, opener_of_enclosed role⟩
    · exact .inl before
  · exact step_closing_minds origin text delimiters _ _
  · exact kept_minds fun _ member => member

end Steps

theorem step_minds (s : Scanner) (position : Nat) (c : Char) :
    Minds s.openings position c (s.step position c) := by
  cases s with
  | start => exact step_outside_minds start
  | gap space => exact step_outside_minds (gap space)
  | word origin text => exact step_outside_minds (word origin text)
  | operand => exact step_outside_minds operand
  | operator first origin =>
      rw [step]
      split
      · exact shut_minds rfl
      · have minds := @step_outside_minds position c operand
        cases stepped : operand.stepOutside position c with
        | error e =>
            rw [stepped] at minds
            cases minds
            exact .fails
        | ok outcome =>
            rw [stepped] at minds
            cases minds with
            | goes opened => exact .goes opened
  | capture origin text escaped delimiters =>
      rw [step]
      split
      · split
        · exact step_quoted_minds origin text delimiters escaped _
        · exact step_enclosed_minds origin text delimiters
      · exact step_enclosed_minds origin text delimiters
  | done => exact shut_minds rfl

theorem finish_error {s : Scanner} {e : Error} (failed : s.finish = .error e) :
    ∃ opening ∈ s.openings, e = ⟨.unclosedDelimiter opening.delimiter, opening.position⟩ := by
  cases s with
  | capture origin text escaped delimiters =>
      unfold finish at failed
      dsimp only at failed
      split at failed
      · rename_i opening innermost
        cases failed
        exact ⟨opening, List.mem_of_mem_head? innermost, rfl⟩
      · cases failed
  | start | gap | word | operator | operand | done => cases failed

/-- The complaints of a scanner about characters that stand where it says. -/
inductive Complains (cs : List Char) : Error → Prop where
  | unexpected {c : Char} {position : Nat} (stands : StandsAt 0 cs position [c]) :
      Complains cs ⟨.unexpectedToken c, position⟩
  | unclosed {opening : Opening} (stands : opening.StandsIn cs) :
      Complains cs ⟨.unclosedDelimiter opening.delimiter, opening.position⟩

/-- A whole run over the rest of a text whose open delimiters stand in it. -/
theorem pulls_complain {s : Scanner} {read cs : List Char} {pull : Pull} {e : Error}
    (stand : ∀ opening ∈ s.openings, opening.StandsIn (read ++ cs))
    (member : pull ∈ s.pulls (byteSize read) cs) (failed : pull.result = .error e) :
    Complains (read ++ cs) e := by
  induction cs generalizing s read with
  | nil =>
      rw [pulls] at member
      split at member
      · obtain rfl := List.mem_singleton.mp member
        cases failed
      · cases member
      · rename_i complaint finished
        obtain rfl := List.mem_singleton.mp member
        cases failed
        obtain ⟨opening, isOpen, rfl⟩ := finish_error finished
        exact .unclosed (stand opening isOpen)
  | cons c rest induction =>
      have here : StandsAt 0 (read ++ c :: rest) (byteSize read) [c] :=
        ⟨read, rest, by simp, Nat.zero_add _⟩
      have minds := s.step_minds (byteSize read) c
      cases stepped : s.step (byteSize read) c with
      | error complaint =>
          rw [stepped] at minds
          rw [pulls_of_failed stepped] at member
          obtain rfl := List.mem_singleton.mp member
          cases failed
          cases minds
          exact .unexpected here
      | ok outcome =>
          obtain ⟨emitted, next⟩ := outcome
          rw [stepped] at minds
          cases minds with
          | goes opened =>
              have later : pull ∈ next.pulls (byteSize (read ++ [c])) rest := by
                rw [← Nat.zero_add (byteSize (read ++ [c])), ← silent_reaches, Nat.zero_add]
                cases emitted with
                | none =>
                    rw [pulls_of_silent stepped] at member
                    exact member
                | some lexeme =>
                    rw [pulls_of_given stepped] at member
                    rcases List.mem_cons.mp member with rfl | later
                    · cases failed
                    · exact later
              -- The text stays as it is, and one more character of it has been read.
              have split : read ++ c :: rest = read ++ [c] ++ rest := by simp
              rw [split] at here stand ⊢
              apply induction _ later
              intro opening isOpen
              rcases opened opening isOpen with before | ⟨rfl, opener⟩
              · exact stand opening before
              · exact ⟨opener, here⟩

end Scanner

theorem scan_complains {source : String} {pull : Scanner.Pull} {e : Error}
    (member : pull ∈ Scanner.pullsOf source) (failed : pull.result = .error e) :
    Scanner.Complains source.toList e :=
  @Scanner.pulls_complain .start [] source.toList pull e (List.forall_mem_nil _) member failed

end LineShell
