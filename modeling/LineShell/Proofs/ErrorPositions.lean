import LineShell.Proofs.Assignment
import LineShell.Proofs.ScanFailure

/-!
Where errors point. A line fails while it is scanned, when a delimited text is read, when a callable
is called or when a member is looked up, and tokens that were folded keep the position of their
first lexeme. Main statement: if callables fail only for want of arguments, then at the position of
an error the source has what the error names.
-/

namespace LineShell

open Literal (byteSize)

/-- A member of some entry of the environment can be called. -/
def Environment.Offers (env : Environment) (callable : Callable) : Prop :=
  ∃ shared name, env.Holds shared ∧ shared.entry.member? name = some (.callable callable)

/-- Calls fail only for want of arguments, and say so where the arguments stand. -/
def Environment.FailsByCount (env : Environment) : Prop :=
  ∀ callable, env.Offers callable → ∀ arguments position e,
    (callable.procedure.run arguments position).result = .error e →
      ∃ name expected found, e = ⟨.argumentCountMismatch name expected found, position⟩

/-- The scanner gives this lexeme, though it may fail later. -/
def Located.ScannedIn (source : String) (lexeme : Located Lexeme) : Prop :=
  .ok lexeme ∈ (Scanner.pullsOf source).map Scanner.Pull.result

/-- What a source has at the position of an error, by the cause of the error. -/
def Error.PointsInto (source : String) (e : Error) : Prop :=
  match e.cause with
  | .unexpectedToken c => StandsAt 0 source.toList e.position [c]
  | .unclosedDelimiter c =>
    (∃ enclosure : Enclosure, c = enclosure.opener) ∧ StandsAt 0 source.toList e.position [c]
  | .malformedLiteral _ =>
    ∃ bracket : Bracket, StandsAt 0 source.toList e.position [bracket.opener]
  | .argumentCountMismatch .. => StandsAt 0 source.toList e.position ['(']
  | .unknownReference name =>
    ∃ text, Located.ScannedIn source ⟨.name text, e.position⟩ ∧
      StandsAt 0 source.toList e.position text.toList ∧ Text.trim text = name
  | .memberNotFound name =>
    ∃ before dot item after text, (Scanner.pullsOf source).map Scanner.Pull.result =
        before ++ .ok ⟨.operator .dot, dot⟩ :: .ok ⟨item, e.position⟩ :: after ∧
      item.Written text ∧ StandsAt 0 source.toList e.position text ∧
      ∀ written, item = .name written → Numeral.read (Text.trim written) = none →
        Text.trim written = name

theorem scanned_stands {source : String} {lexeme : Located Lexeme}
    (scanned : lexeme.ScannedIn source) :
    ∃ text, lexeme.item.Written text ∧ StandsAt 0 source.toList lexeme.position text := by
  obtain ⟨pull, member, given⟩ := List.mem_map.mp scanned
  exact pulled_stands member given

theorem points_at_text {source : String} {e : Error} (points : e.PointsInto source) :
    ∃ text, text ≠ [] ∧ StandsAt 0 source.toList e.position text := by
  obtain ⟨cause, position⟩ := e
  cases cause with
  | unexpectedToken c => exact ⟨[c], List.cons_ne_nil _ _, points⟩
  | unclosedDelimiter c => exact ⟨[c], List.cons_ne_nil _ _, points.2⟩
  | malformedLiteral fault =>
      obtain ⟨bracket, stands⟩ := points
      exact ⟨_, List.cons_ne_nil _ _, stands⟩
  | argumentCountMismatch name expected found => exact ⟨['('], List.cons_ne_nil _ _, points⟩
  | unknownReference name =>
      obtain ⟨_, scanned, _⟩ := points
      obtain ⟨text, written, stands⟩ := scanned_stands scanned
      exact ⟨text, written_nonempty written, stands⟩
  | memberNotFound name =>
      obtain ⟨_, _, _, _, text, _, written, stands, _⟩ := points
      exact ⟨text, written_nonempty written, stands⟩

theorem complaint_points {source : String} {e : Error}
    (complains : Scanner.Complains source.toList e) : e.PointsInto source := by
  cases complains with
  | unexpected stands => exact stands
  | unclosed stands => exact stands

section Origins

variable {env : Environment} {lexemes : List (Located Lexeme)} {token : Located Token}

theorem stands_grounded (stands : token.Stands env (lexemes.map Located.unread)) :
    token.item.Grounded env := by
  generalize pushed : lexemes.map Located.unread = part at stands
  induction stands generalizing lexemes with
  | resolved resolves =>
      obtain ⟨lexeme, rfl, rfl⟩ := List.map_eq_singleton_iff.mp pushed
      exact @resolved_grounded env (.lexeme lexeme.item) _ _ trivial resolves
  | folded _ _ _ folds induction =>
      obtain ⟨front, _, rfl, frontPushed, _⟩ := List.map_eq_append_iff.mp pushed
      exact folded_grounded (induction frontPushed) folds

theorem callable_member {place : Place} {name : String} {callable : Callable}
    (member : place.member? name = some (.callable callable)) :
    ∃ known shared, place = .entry known shared ∧
      shared.entry.member? name = some (.callable callable) := by
  cases place with
  | callable other => cases member
  | value value =>
      obtain ⟨_, _, same⟩ := Option.map_eq_some_iff.mp member
      cases same
  | entry known shared =>
      refine ⟨known, shared, rfl, ?_⟩
      simp only [Place.member?] at member
      split at member
      · cases member
      · rename_i found same
        cases member
        exact same
      · obtain ⟨_, _, same⟩ := Option.map_eq_some_iff.mp member
        cases same

/-- No lexeme is resolved to a function, so a function is a member of something. -/
theorem function_offered {callable : Callable} {position : Nat}
    (stands : Located.Stands env (lexemes.map Located.unread) ⟨.function callable, position⟩) :
    env.Offers callable := by
  generalize pushed : lexemes.map Located.unread = part at stands
  cases stands with
  | @resolved given _ resolves =>
      obtain ⟨⟨item, origin⟩, rfl, rfl⟩ := List.map_eq_singleton_iff.mp pushed
      cases lexeme_resolves resolves
  | @folded path receiver _ _ _ receiverStands _ _ folds =>
      obtain ⟨front, _, rfl, rfl, _⟩ := List.map_eq_append_iff.mp pushed
      obtain ⟨name, place, next, _, receives, member, same⟩ := folded_member folds
      obtain ⟨item, origin⟩ := receiver
      cases next with
      | entry | value => cases same
      | callable found =>
          cases same
          obtain ⟨known, shared, rfl, found⟩ := callable_member member
          have grounded := stands_grounded receiverStands
          cases item with
          | reference =>
              cases receives
              exact ⟨shared, name, reference_holds grounded, found⟩
          | lexeme | function | literal => cases receives

end Origins

namespace Pending

/-- How a token can be refused: it has no meaning, or the call that it completes fails, or it names
no member of the receiver before the dot. -/
inductive Refuses (env : Environment) (pending : Pending) (token : Located Token) :
    Error → Prop where
  | unresolved {e : Error} (fails : token.item.resolve env token.position = .error e) :
      Refuses env pending token e
  | call {arguments : List Value} {callable : Callable} {place : Nat} {rest : Pending} {e : Error}
      (resolves : token.item.resolve env token.position = .ok (.literal (.tuple arguments)))
      (called : pending = ⟨.function callable, place⟩ :: rest)
      (returned : (callable.procedure.run arguments token.position).result = .error e) :
      Refuses env pending token e
  | member {resolved : Token} {dot : Nat} {receiver : Located Token} {rest : Pending} {e : Error}
      (resolves : token.item.resolve env token.position = .ok resolved)
      (dotted : pending = ⟨.operator .dot, dot⟩ :: receiver :: rest)
      (fails : fold receiver ⟨resolved, token.position⟩ = .error e) :
      Refuses env pending token e

section Failures

variable {env : Environment} {pending : Pending} {token : Located Token} {e : Error}

theorem push_refuses (failed : (pending.push env token.item token.position).progress = .error e) :
    Refuses env pending token e := by
  have pushes := push_pushes env pending token
  generalize pending.push env token.item token.position = pushed at pushes failed
  cases pushes with
  | unresolved fails =>
      cases failed
      exact .unresolved fails
  | @called arguments callable _ _ resolves below =>
      refine .call resolves below ?_
      cases returned : (callable.procedure.run arguments token.position).result with
      | ok value =>
          simp only [Call.reply, returned] at failed
          cases failed
      | error other =>
          simp only [Call.reply, returned] at failed
          cases failed
          rfl
  | unfolded resolves dotted fails =>
      cases failed
      exact .member resolves dotted fails
  | folded | kept => cases failed

theorem fold_fails {receiver last : Located Token} (failed : fold receiver last = .error e) :
    (∃ name, e = ⟨.memberNotFound name, last.position⟩ ∧
      ∀ bare, last.item.bareName? = some bare → bare = name) ∨
    ∃ text, receiver.item = .name text ∧
      e = ⟨.unknownReference (Text.trim text), receiver.position⟩ := by
  unfold fold at failed
  split at failed
  · rename_i unnamed
    cases failed
    refine .inl ⟨_, rfl, ?_⟩
    intro bare named
    rw [unnamed] at named
    cases named
  · rename_i name named
    have only (bare : String) (other : last.item.bareName? = some bare) : bare = name := by
      rw [named] at other
      exact (Option.some.inj other).symm
    cases stands : receiver.item.place? with
    | some place =>
        rw [token_member stands] at failed
        cases member : place.member? name with
        | none =>
            rw [member] at failed
            cases failed
            exact .inl ⟨name, rfl, only⟩
        | some next =>
            rw [member] at failed
            cases failed
    | none =>
        obtain ⟨item, origin⟩ := receiver
        cases item with
        | reference | function | literal => cases stands
        | lexeme lexeme =>
            cases lexeme with
            | name text =>
                cases failed
                exact .inr ⟨text, rfl, rfl⟩
            | space | capture | operator =>
                cases failed
                exact .inl ⟨name, rfl, only⟩

end Failures
end Pending

theorem Evaluation.consume_fails {env : Environment} {given : List (Located Lexeme)}
    {pending : Pending} {pulls : List Scanner.Pull} {e : Error}
    (reaches : pending.Reaches env (given.map Located.unread))
    (failed : (consume env pending pulls).outcome = .error e) :
    (∃ pull ∈ pulls, pull.result = .error e) ∨
      ∃ front lexeme after left,
        pulls.map Scanner.Pull.result = front.map .ok ++ .ok lexeme :: after ∧
        Pending.Reaches env ((given ++ front).map Located.unread) left ∧
        left.Refuses env lexeme.unread e := by
  induction pulls generalizing given pending with
  | nil => cases failed
  | cons pull rest induction =>
      obtain ⟨result, depth⟩ := pull
      cases result with
      | error other =>
          cases failed
          exact .inl ⟨_, List.mem_cons_self, rfl⟩
      | ok lexeme =>
          have next := reaches.push lexeme.unread
          simp only [consume] at failed
          cases progress : (pending.push env (.lexeme lexeme.item) lexeme.position).progress with
          | error other =>
              rw [progress] at failed
              cases failed
              refine .inr ⟨[], lexeme, _, pending, rfl, ?_, Pending.push_refuses progress⟩
              rw [List.append_nil]
              exact reaches
          | ok flow =>
              rw [progress] at failed
              cases flow with
              | invoked value => cases failed
              | proceed =>
                  have reached := next progress
                  rw [← List.map_singleton, ← List.map_append] at reached
                  rcases induction reached failed with ⟨pull, member, same⟩ | refused
                  · exact .inl ⟨pull, List.mem_cons_of_mem _ member, same⟩
                  · obtain ⟨front, last, after, left, split, reaches, refuses⟩ := refused
                    refine .inr ⟨lexeme :: front, last, after, left, ?_, ?_, refuses⟩
                    · rw [List.map_cons, split]
                      rfl
                    · rw [List.append_assoc] at reaches
                      exact reaches

section Pointing

variable {source : String} {env : Environment} {e : Error}

theorem capture_opener_stands {shape : Shape} {closing : Char} {text : String} {position : Nat}
    (scanned : Located.ScannedIn source ⟨.capture shape closing text, position⟩) :
    ∃ e : Enclosure, shape = e.shape ∧ StandsAt 0 source.toList position [e.opener] := by
  obtain ⟨pull, member, given⟩ := List.mem_map.mp scanned
  obtain ⟨e, rfl, rfl, _⟩ := @Scanner.captured_body .start rfl _ _ _ member _ _ _ _ given
  obtain ⟨written, form, stands⟩ := scanned_stands scanned
  cases form with
  | capture partner =>
      rw [partner_closer] at partner
      cases partner
      exact ⟨e, rfl, stands_at_front stands⟩

theorem malformed_points {lexeme : Located Lexeme} (scanned : lexeme.ScannedIn source)
    (fails : lexeme.unread.item.resolve env lexeme.position = .error e) : e.PointsInto source := by
  obtain ⟨item, position⟩ := lexeme
  cases item with
  | space | operator => cases fails
  | name text =>
      simp only [Located.unread, Token.resolve] at fails
      split at fails
      · cases fails
      · split at fails <;> cases fails
  | capture shape closing text =>
      obtain ⟨enclosure, rfl, stands⟩ := capture_opener_stands scanned
      cases enclosure with
      | quote q => cases fails
      | bracket b =>
          simp only [Located.unread, Token.resolve, Environment.value_of_read] at fails
          split at fails
          · cases fails
          · rename_i failed
            split at failed
            · cases failed
            · cases failed
              cases fails
              exact ⟨b, stands⟩

theorem tuple_stands {lexeme : Located Lexeme} {arguments : List Value}
    (scanned : lexeme.ScannedIn source)
    (resolves : lexeme.unread.item.resolve env lexeme.position =
      .ok (.literal (.tuple arguments))) :
    StandsAt 0 source.toList lexeme.position ['('] := by
  obtain ⟨item, position⟩ := lexeme
  generalize same : Value.tuple arguments = value at resolves
  cases lexeme_resolves resolves with
  | @number text numeral read => cases numeral <;> cases same
  | delimited read =>
      subst same
      obtain ⟨enclosure, rfl, stands⟩ := capture_opener_stands scanned
      have shape := Environment.value_of_shape read
      cases enclosure with
      | quote q => cases shape
      | bracket b =>
          cases b with
          | round => exact stands
          | square | curly => cases shape

theorem member_points {front : List (Located Lexeme)} {lexeme : Located Lexeme}
    {after : List (Except Error (Located Lexeme))} {resolved : Token} {dot : Nat}
    {receiver : Located Token} {rest : Pending}
    (scanned : (Scanner.pullsOf source).map Scanner.Pull.result =
      front.map .ok ++ .ok lexeme :: after)
    (spans : Pending.Spans env (front.map Located.unread)
      (⟨.operator .dot, dot⟩ :: receiver :: rest))
    (resolves : lexeme.unread.item.resolve env lexeme.position = .ok resolved)
    (fails : Pending.fold receiver ⟨resolved, lexeme.position⟩ = .error e) :
    e.PointsInto source := by
  obtain ⟨_, _, whole, _, receiverStands⟩ := spans_dotted spans
  obtain ⟨_, _, rfl, throughReceiver, last⟩ := List.map_eq_append_iff.mp whole
  obtain ⟨⟨_, sign⟩, rfl, same⟩ := List.map_eq_singleton_iff.mp last
  cases same
  obtain ⟨outer, path, rfl, _, rfl⟩ := List.map_eq_append_iff.mp throughReceiver
  -- The error is about the name after the dot, or about a receiver that is not bound to anything.
  rcases Pending.fold_fails fails with ⟨name, rfl, named⟩ | ⟨text, unknown, rfl⟩
  · have lookedUp : lexeme.ScannedIn source := by
      rw [Located.ScannedIn, scanned]
      exact List.mem_append_right _ List.mem_cons_self
    obtain ⟨text, written, stands⟩ := scanned_stands lookedUp
    refine ⟨(outer ++ path).map .ok, sign, lexeme.item, after, text, ?_, written, stands, ?_⟩
    · rw [scanned]
      simp
    · intro word same unread
      apply named
      obtain ⟨item, position⟩ := lexeme
      subst same
      cases lexeme_resolves resolves with
      | number read =>
          rw [unread] at read
          cases read
      | bound | unbound => rfl
  · have bare : receiver.item.bareName? = some (Text.trim text) := by
      rw [unknown]
      rfl
    obtain ⟨word, rfl, trimmed, _⟩ := named_stands receiverStands bare
    have received : Located.ScannedIn source ⟨.name word, receiver.position⟩ := by
      rw [Located.ScannedIn, scanned]
      simp
    obtain ⟨_, written, stands⟩ := scanned_stands received
    cases written
    exact ⟨word, received, stands, trimmed⟩

theorem refusal_points {front : List (Located Lexeme)} {lexeme : Located Lexeme}
    {after : List (Except Error (Located Lexeme))} {left : Pending} (counts : env.FailsByCount)
    (scanned : (Scanner.pullsOf source).map Scanner.Pull.result =
      front.map .ok ++ .ok lexeme :: after)
    (spans : left.Spans env (front.map Located.unread))
    (refuses : left.Refuses env lexeme.unread e) : e.PointsInto source := by
  have here : lexeme.ScannedIn source := by
    rw [Located.ScannedIn, scanned]
    exact List.mem_append_right _ List.mem_cons_self
  cases refuses with
  | unresolved fails => exact malformed_points here fails
  | call resolves called returned =>
      subst called
      generalize pushed : front.map Located.unread = given at spans
      cases spans with
      | more _ functionStands =>
          obtain ⟨_, path, _, _, rfl⟩ := List.map_eq_append_iff.mp pushed
          obtain ⟨name, expected, found, rfl⟩ :=
            counts _ (function_offered functionStands) _ _ _ returned
          exact tuple_stands here resolves
  | member resolves dotted fails =>
      subst dotted
      exact member_points scanned spans resolves fails

end Pointing

/-- If the callables of a session fail only for want of arguments, the position of every error is a
character boundary inside the line, and there the line has what the error names. -/
theorem error_points_at_what_it_names (s : Session) (source : String) (e : Error)
    (counts : s.environment.FailsByCount) (failed : (s.run source).1.outcome = .error e) :
    String.Pos.Raw.IsValid source ⟨e.position⟩ ∧ e.position < source.utf8ByteSize ∧
      e.PointsInto source := by
  have points : e.PointsInto source := by
    rcases @Evaluation.consume_fails s.environment [] [] _ e .none failed with
      ⟨pull, member, same⟩ | ⟨front, lexeme, after, left, scanned, reaches, refuses⟩
    · exact complaint_points (scan_complains member same)
    · exact refusal_points counts scanned (reaches_spans reaches) refuses
  obtain ⟨text, nonempty, stands⟩ := points_at_text points
  refine ⟨stands_at_boundary stands, ?_, points⟩
  have positive := byte_size_pos nonempty
  have ends := stands_at_end_le stands
  rw [byte_size_to_list] at ends
  omega

theorem Console.entry_has_only_log {name : String} {member : Member}
    (found : Console.entry.member? name = some member) :
    member = .callable ⟨"log", Console.log⟩ := by
  have inserted := NameMap.get?_insert Entry.empty.members "log" name
    (.callable ⟨"log", Console.log⟩)
  change Console.entry.member? name = _ at inserted
  rw [found] at inserted
  split at inserted
  · exact Option.some.inj inserted
  · cases inserted

theorem Environment.initial_holds_console {shared : Shared}
    (holds : Environment.initial.Holds shared) : shared.entry = Console.entry := by
  induction holds with
  | @bound name shared found =>
      have inserted := NameMap.get?_insert Environment.empty.bindings "console" name
        (Environment.empty.create Console.entry).1
      change Environment.initial.bindings.get? name = _ at inserted
      rw [found] at inserted
      split at inserted
      · rw [Option.some.inj inserted]
        rfl
      · cases inserted
  | nested _ member same =>
      rw [same] at member
      cases Console.entry_has_only_log member

theorem Environment.initial_fails_by_count : Environment.initial.FailsByCount := by
  rintro callable ⟨shared, name, holds, member⟩ arguments position e failed
  rw [Environment.initial_holds_console holds] at member
  cases Console.entry_has_only_log member
  cases arguments with
  | nil =>
      cases failed
      exact ⟨"log", 1, 0, rfl⟩
  | cons first others => cases failed

/-- The first name has a letter of two bytes, and the function that is asked for a member stands for
three lexemes. -/
theorem error_points_at_member_after_wide_name :
    Session.initial.environment.FailsByCount ∧
      (Session.initial.run "é console.log.größe").1.outcome =
        .error ⟨.memberNotFound "größe", 15⟩ ∧
      String.Pos.Raw.IsValid "é console.log.größe" ⟨15⟩ ∧
      15 < "é console.log.größe".utf8ByteSize ∧
      Error.PointsInto "é console.log.größe" ⟨.memberNotFound "größe", 15⟩ := by
  have failed : (Session.initial.run "é console.log.größe").1.outcome =
      .error ⟨.memberNotFound "größe", 15⟩ := rfl
  exact ⟨Environment.initial_fails_by_count, failed,
    error_points_at_what_it_names _ _ _ Environment.initial_fails_by_count failed⟩

end LineShell
