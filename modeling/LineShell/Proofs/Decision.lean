import LineShell.Proofs.Effects
import LineShell.Proofs.Trace

/-!
A line is decided by what has been read of it. The lexemes that a text gives before its end do not
depend on what follows; only the last name or operator, or the complaint about an open delimiter,
comes from the end. None of these makes a call or tells of an unexpected character or a malformed
literal. Main statement: a line that ends in a call, in such an error, or at a semicolon, ends in
the same way whatever is written after it.
-/

namespace LineShell

open Literal (byteSize)

def Cause.isLookup : Cause → Bool
  | memberNotFound _ | unknownReference _ => true
  | _ => false

theorem member_error_lookup {receiver : Located Token} {name : String} {position : Nat} {e : Error}
    (failed : Token.member receiver name position = .error e) : e.cause.isLookup = true := by
  obtain ⟨item, origin⟩ := receiver
  unfold Token.member at failed
  cases item with
  | lexeme lexeme => cases lexeme <;> cases failed <;> rfl
  | function => cases failed; rfl
  | literal value =>
      dsimp only at failed
      split at failed
      · cases failed
      · cases failed
        rfl
  | reference other shared binding =>
      dsimp only at failed
      split at failed
      · cases failed
      · cases failed
      · split at failed
        · cases failed
        · cases failed
          rfl

theorem fold_error_lookup {receiver last : Located Token} {e : Error}
    (failed : Pending.fold receiver last = .error e) : e.cause.isLookup = true := by
  unfold Pending.fold at failed
  split at failed
  · cases failed
    rfl
  · rename_i name _
    cases found : Token.member receiver name last.position with
    | ok token =>
        rw [found] at failed
        cases failed
    | error other =>
        rw [found] at failed
        cases failed
        exact member_error_lookup found

def Token.IsNoTuple (token : Token) : Prop := ∀ items, token ≠ .literal (.tuple items)

/-- What can come of a token that makes no call: the line goes on, or a name leads nowhere. -/
inductive Pushed.Uncalled : Pushed → Prop where
  | proceeds (pending : Pending) : Uncalled ⟨pending, none, .ok .proceed⟩
  | lost (pending : Pending) {e : Error} (lookup : e.cause.isLookup = true) :
      Uncalled ⟨pending, none, .error e⟩

inductive Lexeme.IsFlat : Lexeme → Prop where
  | name (text : String) : IsFlat (.name text)
  | operator (op : Operator) : IsFlat (.operator op)

theorem lexeme_no_tuple (item : Lexeme) : (Token.lexeme item).IsNoTuple := by
  intro items same
  cases same

theorem flat_resolves {item : Lexeme} (flat : item.IsFlat) (env : Environment) (position : Nat) :
    ∃ token, (Token.lexeme item).resolve env position = .ok token ∧ token.IsNoTuple := by
  cases flat with
  | operator op => exact ⟨_, rfl, lexeme_no_tuple _⟩
  | name text =>
      unfold Token.resolve
      dsimp only
      split
      · rename_i numeral _
        refine ⟨_, rfl, ?_⟩
        intro items same
        cases numeral <;> cases same
      · split
        · refine ⟨_, rfl, ?_⟩
          intro items same
          cases same
        · exact ⟨_, rfl, lexeme_no_tuple _⟩

theorem flat_pushed_uncalled {item : Lexeme} (flat : item.IsFlat) (pending : Pending)
    (env : Environment) (position : Nat) :
    (pending.push env (.lexeme item) position).Uncalled := by
  obtain ⟨token, resolves, noTuple⟩ := flat_resolves flat env position
  have pushes := Pending.push_pushes env pending ⟨.lexeme item, position⟩
  dsimp only at pushes
  generalize pending.push env (.lexeme item) position = pushed at pushes
  cases pushes with
  | unresolved fails =>
      rw [resolves] at fails
      cases fails
  | called found =>
      rw [resolves] at found
      exact absurd (Except.ok.inj found) (noTuple _)
  | unfolded _ _ fails => exact .lost _ (fold_error_lookup fails)
  | folded | kept => exact .proceeds _

theorem finish_gives_flat {s : Scanner} {lexeme : Located Lexeme}
    (finished : s.finish = .ok (some lexeme)) : lexeme.item.IsFlat := by
  cases s with
  | word position text =>
      cases finished
      exact .name text
  | operator first position =>
      cases finished
      exact .operator first
  | capture position text escaped delimiters =>
      unfold Scanner.finish at finished
      dsimp only at finished
      split at finished <;> cases finished
  | start | gap | operand | done => cases finished

theorem finish_error_unclosed {s : Scanner} {e : Error} (failed : s.finish = .error e) :
    ∃ delimiter, e.cause = .unclosedDelimiter delimiter := by
  cases s with
  | capture position text escaped delimiters =>
      unfold Scanner.finish at failed
      dsimp only at failed
      split at failed
      · cases failed
        exact ⟨_, rfl⟩
      · cases failed
  | start | gap | word | operator | operand | done => cases failed

namespace Evaluation

/-- The line was cut short: by a call, or by an error that comes from the call, from a character
that cannot stand where it stands, or from a literal. -/
inductive Cut : Evaluation → Prop where
  | invoked (value : Value) (call : Option Call) (env : Environment) :
      Cut ⟨.ok (.invoked value), call, env⟩
  | unexpected (c : Char) (position : Nat) (call : Option Call) (env : Environment) :
      Cut ⟨.error ⟨.unexpectedToken c, position⟩, call, env⟩
  | malformed (fault : Literal.Fault) (position : Nat) (call : Option Call) (env : Environment) :
      Cut ⟨.error ⟨.malformedLiteral fault, position⟩, call, env⟩
  | failedCall {call : Call} {e : Error} (returned : call.reply.result = .error e)
      (env : Environment) : Cut ⟨.error e, some call, env⟩

/-- The pulls given so far end the line by themselves, or lead to some tokens from which the rest is
reduced. -/
theorem consume_append (env : Environment) (pending : Pending) (given : List Scanner.Pull) :
    (∃ ended, ∀ rest, consume env pending (given ++ rest) = ended) ∨
      ∃ next, ∀ rest, consume env pending (given ++ rest) = consume env next rest := by
  induction given generalizing pending with
  | nil => exact .inr ⟨pending, fun _ => rfl⟩
  | cons pull others induction =>
      obtain ⟨result, depth⟩ := pull
      cases result with
      | error e => exact .inl ⟨_, fun _ => rfl⟩
      | ok lexeme =>
          simp only [List.cons_append, consume]
          cases (pending.push env (.lexeme lexeme.item) lexeme.position).progress with
          | error e => exact .inl ⟨_, fun _ => rfl⟩
          | ok progress =>
              cases progress with
              | proceed => exact induction _
              | invoked value => exact .inl ⟨_, fun _ => rfl⟩

theorem finished_not_cut (env : Environment) (pending : Pending) :
    ¬(consume env pending []).Cut := by
  have finishes := finish_finishes pending env
  simp only [consume]
  generalize pending.finish env = ended at finishes
  intro cut
  cases finishes <;> cases cut

theorem end_not_cut (env : Environment) (pending : Pending) (s : Scanner) (position : Nat) :
    ¬(consume env pending (s.pulls position [])).Cut := by
  rw [Scanner.pulls]
  split
  · rename_i lexeme finished
    have uncalled := flat_pushed_uncalled (finish_gives_flat finished) pending env lexeme.position
    simp only [consume]
    generalize pending.push env (.lexeme lexeme.item) lexeme.position = pushed at uncalled
    cases uncalled with
    | proceeds next => exact finished_not_cut env next
    | @lost next e lookup =>
        obtain ⟨cause, origin⟩ := e
        intro cut
        cases cut <;> cases lookup
  · exact finished_not_cut env pending
  · rename_i e failed
    obtain ⟨delimiter, unclosed⟩ := finish_error_unclosed failed
    obtain ⟨cause, origin⟩ := e
    obtain rfl := unclosed
    simp only [consume]
    intro cut
    cases cut

end Evaluation

/-- In the line there is a semicolon that the scanner meets outside delimiters. -/
def Terminates (source : String) : Prop :=
  ∃ before after scanner, source.toList = before ++ ';' :: after ∧
    (Scanner.start.trace 0 before).state = some scanner ∧ scanner.isOutside = true

theorem step_terminator {s : Scanner} (outside : s.isOutside = true) (position : Nat) :
    ∃ emitted, s.step position ';' = .ok (emitted, .done) := by
  cases s with
  | start | gap | word | operand => exact ⟨_, rfl⟩
  | operator first origin =>
      have single : first.join? ';' = none := by cases first <;> rfl
      simp only [Scanner.step, single]
      exact ⟨_, rfl⟩
  | capture | done => cases outside

theorem terminated_done {source : String} (terminates : Terminates source) {next : Scanner}
    (reached : (Scanner.start.trace 0 source.toList).state = some next) : next = .done := by
  obtain ⟨before, after, s, split, read, outside⟩ := terminates
  obtain ⟨emitted, stepped⟩ := step_terminator outside (0 + byteSize before)
  rw [split, Scanner.trace_append] at reached
  simp only [Scanner.Trace.andThen, read] at reached
  cases emitted with
  | none =>
      rw [Scanner.trace_of_silent stepped, Scanner.done_trace] at reached
      exact (Option.some.inj reached).symm
  | some lexeme =>
      rw [Scanner.trace_of_given stepped, Scanner.done_trace] at reached
      exact (Option.some.inj reached).symm

theorem evaluate_append_of_ended {source : String}
    (ended : ∀ next, (Scanner.start.trace 0 source.toList).state = some next → next = .done)
    (env : Environment) (trailing : String) :
    evaluate env (source ++ trailing) = evaluate env source := by
  rw [evaluate, Scanner.pullsOf, String.toList_append, Scanner.pulls_append_of_ended ended]
  rfl

theorem evaluate_append_of_cut {env : Environment} {source : String}
    (cut : (evaluate env source).Cut) (trailing : String) :
    evaluate env (source ++ trailing) = evaluate env source := by
  cases reached : (Scanner.start.trace 0 source.toList).state with
  | none =>
      apply evaluate_append_of_ended
      intro next same
      rw [reached] at same
      cases same
  | some s =>
      have whole := Scanner.pulls_append .start 0 source.toList trailing.toList
      have alone := Scanner.pulls_append .start 0 source.toList []
      rw [List.append_nil] at alone
      simp only [Scanner.Trace.pulls, reached, Option.elim_some] at whole alone
      unfold evaluate Scanner.pullsOf at cut ⊢
      rw [String.toList_append, whole, alone]
      rw [alone] at cut
      -- Either the pulls before the end decide, or the end would have cut the line short.
      obtain ⟨ended, decides⟩ | ⟨next, leads⟩ :=
        Evaluation.consume_append env [] (Scanner.start.trace 0 source.toList).given
      · rw [decides, decides]
      · rw [leads] at cut
        exact absurd cut (Evaluation.end_not_cut env next s _)

/-- A line that was cut short, or that has a semicolon outside delimiters, has the same outcome,
writes the same and leaves the same environment whatever follows it. -/
theorem line_is_decided_by_what_was_read (s : Session) (source : String)
    (decided : (s.run source).1.Cut ∨ Terminates source) (trailing : String) :
    let longer := s.run (source ++ trailing)
    longer.1.outcome = (s.run source).1.outcome ∧ longer.1.written = (s.run source).1.written ∧
      longer.2.environment = (s.run source).2.environment := by
  have same : evaluate s.environment (source ++ trailing) = evaluate s.environment source := by
    rcases decided with cut | terminates
    · exact evaluate_append_of_cut cut trailing
    · exact evaluate_append_of_ended (fun _ => terminated_done terminates) s.environment trailing
  intro longer
  have evaluated : longer.1 = (s.run source).1 := same
  have kept : longer.2.environment = longer.1.environment := rfl
  rw [kept, evaluated]
  exact ⟨rfl, rfl, rfl⟩

theorem assigned_line_ignores_stray_bracket :
    Terminates "y = console ; )" ∧
      let longer := Session.initial.run ("y = console ; )" ++ "\" (= ]")
      longer.1.outcome = .ok (.assigned "y") ∧ longer.1.written = [] ∧
        longer.2.environment =
          Session.initial.environment.bind "y" ⟨⟨0, []⟩, Console.entry⟩ := by
  have terminates : Terminates "y = console ; )" :=
    ⟨"y = console ".toList, " )".toList, .gap (some 11), rfl, rfl, rfl⟩
  have ran : (Session.initial.run "y = console ; )").1 = ⟨.ok (.assigned "y"), none,
      Session.initial.environment.bind "y" ⟨⟨0, []⟩, Console.entry⟩⟩ := rfl
  have kept : (Session.initial.run "y = console ; )").2.environment =
      (Session.initial.run "y = console ; )").1.environment := rfl
  have same := line_is_decided_by_what_was_read Session.initial "y = console ; )" (.inr terminates)
    "\" (= ]"
  rw [kept, ran] at same
  exact ⟨terminates, same⟩

end LineShell
