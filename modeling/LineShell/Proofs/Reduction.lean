import LineShell.Proofs.Collecting
import LineShell.Proofs.Effects
import LineShell.Proofs.MemberLookup

/-!
How a line is reduced as long as it goes on. One more token is put on top of the others or, after a
receiver and a dot, makes a member with them. So every token that is left stands for tokens in a row
that were pushed: for one of them, or for a path. Main statements: the tokens left stand for all
that were pushed, in their order, and a line that completes or assigns has pushed all its lexemes.
-/

namespace LineShell

/-- What a lexeme at this position is resolved to. -/
inductive Lexeme.Resolves (env : Environment) (position : Nat) : Lexeme → Token → Prop where
  | number {text : String} {numeral : Numeral}
      (read : Numeral.read (Text.trim text) = some numeral) :
      Resolves env position (.name text) (.literal (Value.ofNumeral numeral))
  | bound {text : String} {shared : Shared} (unread : Numeral.read (Text.trim text) = none)
      (found : env.resolve? (Text.trim text) = some shared) :
      Resolves env position (.name text) (.reference (Text.trim text) shared .environment)
  | unbound {text : String} (unread : Numeral.read (Text.trim text) = none)
      (missing : env.resolve? (Text.trim text) = none) :
      Resolves env position (.name text) (.name text)
  | delimited {shape : Shape} {closing : Char} {text : String} {value : Value}
      (read : env.valueOf shape text position = .ok value) :
      Resolves env position (.capture shape closing text) (.literal value)
  | space : Resolves env position .space (.lexeme .space)
  | operator (op : Operator) : Resolves env position (.operator op) (.operator op)

theorem lexeme_resolves {env : Environment} {position : Nat} {item : Lexeme} {token : Token}
    (resolves : (Token.lexeme item).resolve env position = .ok token) :
    item.Resolves env position token := by
  cases item with
  | name text =>
      unfold Token.resolve at resolves
      dsimp only at resolves
      split at resolves
      · rename_i numeral read
        cases resolves
        exact .number read
      · rename_i unread
        split at resolves
        · rename_i shared found
          cases resolves
          exact .bound unread found
        · rename_i missing
          cases resolves
          exact .unbound unread missing
  | capture shape closing text =>
      unfold Token.resolve at resolves
      dsimp only at resolves
      split at resolves
      · rename_i value read
        cases resolves
        exact .delimited read
      · cases resolves
  | space =>
      cases resolves
      exact .space
  | operator op =>
      cases resolves
      exact .operator op

theorem member_found {receiver : Located Token} {name : String} {position : Nat} {token : Token}
    (found : Token.member receiver name position = .ok token) :
    ∃ place next : Place, receiver.item.place? = some place ∧ place.member? name = some next ∧
      token = next.token := by
  cases stands : receiver.item.place? with
  | none =>
      obtain ⟨item, origin⟩ := receiver
      cases item with
      | lexeme lexeme => cases lexeme <;> cases found
      | reference | function | literal => cases stands
  | some place =>
      rw [token_member stands] at found
      cases member : place.member? name with
      | none =>
          rw [member] at found
          cases found
      | some next =>
          rw [member] at found
          cases found
          exact ⟨place, next, rfl, member, rfl⟩

theorem folded_member {receiver last folded : Located Token}
    (folds : Pending.fold receiver last = .ok folded) :
    ∃ (name : String) (place next : Place), last.item.bareName? = some name ∧
      receiver.item.place? = some place ∧ place.member? name = some next ∧
      folded = ⟨next.token, receiver.position⟩ := by
  unfold Pending.fold at folds
  split at folds
  · cases folds
  · rename_i name named
    cases found : Token.member receiver name last.position with
    | error e =>
        rw [found] at folds
        cases folds
    | ok token =>
        rw [found] at folds
        cases folds
        obtain ⟨place, next, stands, member, rfl⟩ := member_found found
        exact ⟨name, place, next, named, stands, member, rfl⟩

theorem folded_place {receiver last folded : Located Token}
    (folds : Pending.fold receiver last = .ok folded) :
    ∃ place : Place, folded = ⟨place.token, receiver.position⟩ := by
  obtain ⟨_, _, next, _, _, _, same⟩ := folded_member folds
  exact ⟨next, same⟩

namespace Pending

/-- What becomes of the tokens if one more is pushed and the line goes on. -/
inductive Takes (env : Environment) (pending : Pending) (token : Located Token) :
    Pending → Prop where
  | kept {resolved : Token} (resolves : token.item.resolve env token.position = .ok resolved)
      (undotted : ∀ dot receiver rest, pending ≠ ⟨.operator .dot, dot⟩ :: receiver :: rest) :
      Takes env pending token (⟨resolved, token.position⟩ :: pending)
  | folded {resolved : Token} {dot : Nat} {receiver member : Located Token} {rest : Pending}
      (resolves : token.item.resolve env token.position = .ok resolved)
      (dotted : pending = ⟨.operator .dot, dot⟩ :: receiver :: rest)
      (folds : fold receiver ⟨resolved, token.position⟩ = .ok member) :
      Takes env pending token (member :: rest)

section Pushes

variable {env : Environment} {pending : Pending} {token : Located Token}

theorem push_takes
    (proceeds : (pending.push env token.item token.position).progress = .ok .proceed) :
    Takes env pending token (pending.push env token.item token.position).pending := by
  have pushes := push_pushes env pending token
  generalize pending.push env token.item token.position = pushed at pushes proceeds
  cases pushes with
  | unresolved | unfolded => cases proceeds
  | called => exact absurd proceeds (invoked_stops _)
  | folded resolves dotted folds => exact .folded resolves dotted folds
  | kept resolves _ undotted => exact .kept resolves undotted

end Pushes

/-- The tokens that are left when these have been pushed and the line goes on. -/
inductive Reaches (env : Environment) : List (Located Token) → Pending → Prop where
  | none : Reaches env [] []
  | push {given : List (Located Token)} {pending : Pending} (reaches : Reaches env given pending)
      (token : Located Token)
      (proceeds : (pending.push env token.item token.position).progress = .ok .proceed) :
      Reaches env (given ++ [token]) (pending.push env token.item token.position).pending

end Pending

/-- The tokens in a row that a token stands for: one that was resolved, or those of a receiver, a
dot and a name. -/
inductive Located.Stands (env : Environment) : List (Located Token) → Located Token → Prop where
  | resolved {given : Located Token} {token : Token}
      (resolves : given.item.resolve env given.position = .ok token) :
      Stands env [given] ⟨token, given.position⟩
  | folded {path : List (Located Token)} {receiver last member : Located Token} {name : Token}
      (stands : Stands env path receiver) (dot : Nat)
      (resolves : last.item.resolve env last.position = .ok name)
      (folds : Pending.fold receiver ⟨name, last.position⟩ = .ok member) :
      Stands env (path ++ [⟨.operator .dot, dot⟩, last]) member

/-- The tokens of a line stand for these, each for its part of them. -/
inductive Pending.Spans (env : Environment) : List (Located Token) → Pending → Prop where
  | none : Spans env [] []
  | more {given part : List (Located Token)} {pending : Pending} {token : Located Token}
      (spans : Spans env given pending) (stands : token.Stands env part) :
      Spans env (given ++ part) (token :: pending)

section Standing

variable {env : Environment}

theorem resolve_operator {token : Token} {position : Nat} {op : Operator}
    (resolves : token.resolve env position = .ok (.operator op)) : token = .operator op := by
  cases token with
  | lexeme item =>
      cases lexeme_resolves resolves
      rfl
  | reference | function | literal => cases resolves

theorem operator_stands {part : List (Located Token)} {op : Operator} {position : Nat}
    (stands : Located.Stands env part ⟨.operator op, position⟩) :
    part = [⟨.operator op, position⟩] := by
  cases stands with
  | @resolved given _ resolves =>
      obtain ⟨item, origin⟩ := given
      obtain rfl := resolve_operator resolves
      rfl
  | folded stands dot resolves folds =>
      obtain ⟨place, same⟩ := folded_place folds
      cases place <;> cases same

/-- Below a dot is the receiver, and the rest stands for what came before. -/
theorem spans_dotted {given : List (Located Token)} {dot : Nat} {receiver : Located Token}
    {rest : Pending} (spans : Pending.Spans env given (⟨.operator .dot, dot⟩ :: receiver :: rest)) :
    ∃ outer path, given = outer ++ path ++ [⟨.operator .dot, dot⟩] ∧ rest.Spans env outer ∧
      receiver.Stands env path := by
  cases spans with
  | more withReceiver dotStands =>
      obtain rfl := operator_stands dotStands
      cases withReceiver with
      | more outer receiverStands => exact ⟨_, _, rfl, outer, receiverStands⟩

theorem takes_spans {given : List (Located Token)} {pending next : Pending}
    {token : Located Token} (spans : pending.Spans env given)
    (takes : pending.Takes env token next) : next.Spans env (given ++ [token]) := by
  cases takes with
  | kept resolves => exact .more spans (.resolved resolves)
  | @folded resolved dot receiver member rest resolves dotted folds =>
      subst dotted
      obtain ⟨outer, path, rfl, outerSpans, receiverStands⟩ := spans_dotted spans
      have whole := Pending.Spans.more outerSpans (receiverStands.folded dot resolves folds)
      simpa only [List.append_assoc, List.cons_append, List.nil_append] using whole

/-- Nothing that was pushed is lost, and nothing is out of its order. -/
theorem reaches_spans {given : List (Located Token)} {pending : Pending}
    (reaches : pending.Reaches env given) : pending.Spans env given := by
  induction reaches with
  | none => exact .none
  | push _ token proceeds spans => exact takes_spans spans (Pending.push_takes proceeds)

end Standing

def Located.unread (lexeme : Located Lexeme) : Located Token :=
  ⟨.lexeme lexeme.item, lexeme.position⟩

namespace Evaluation

theorem consume_reaches {env : Environment} {given : List (Located Token)} {pending : Pending}
    {pulls : List Scanner.Pull} {outcome : Outcome} (reaches : pending.Reaches env given)
    (ended : (consume env pending pulls).outcome = .ok outcome)
    (uninvoked : ∀ value, outcome ≠ .invoked value) :
    ∃ lexemes, pulls.mapM Scanner.Pull.result = .ok lexemes ∧
      (leftover pending (pushes env pending pulls)).Reaches env
        (given ++ lexemes.map Located.unread) := by
  induction pulls generalizing given pending with
  | nil =>
      refine ⟨[], rfl, ?_⟩
      rw [List.map_nil, List.append_nil]
      exact reaches
  | cons pull rest induction =>
      obtain ⟨result, depth⟩ := pull
      cases result with
      | error e => cases ended
      | ok lexeme =>
          have next := reaches.push lexeme.unread
          simp only [consume] at ended
          simp only [pushes]
          cases progress : (pending.push env (.lexeme lexeme.item) lexeme.position).progress with
          | error e =>
              rw [progress] at ended
              cases ended
          | ok flow =>
              rw [progress] at ended
              cases flow with
              | invoked value =>
                  cases ended
                  exact absurd rfl (uninvoked value)
              | proceed =>
                  obtain ⟨lexemes, collected, reached⟩ := induction (next progress) ended
                  refine ⟨lexeme :: lexemes, ?_, ?_⟩
                  · rw [Scanner.collected_lexeme, collected, following_ok, List.singleton_append]
                  · rw [List.append_assoc] at reached
                    exact reached

end Evaluation

namespace Session

variable {s : Session} {source : String} {outcome : Outcome}

/-- A line that completes or assigns has been scanned to its end, and all its lexemes have been
pushed. -/
theorem line_reaches (ended : (s.run source).1.outcome = .ok outcome)
    (uninvoked : ∀ value, outcome ≠ .invoked value) :
    ∃ lexemes, scan source = .ok lexemes ∧
      (s.reduced source).Reaches s.environment (lexemes.map Located.unread) :=
  Evaluation.consume_reaches .none ended uninvoked

theorem line_finishes (ended : (s.run source).1.outcome = .ok outcome)
    (uninvoked : ∀ value, outcome ≠ .invoked value) :
    Pending.Finishes s.environment (s.reduced source)
      (outcome, (s.run source).2.environment) := by
  have concludes := s.run_concludes source
  have kept : (s.run source).2.environment = (s.run source).1.environment := rfl
  rw [kept]
  generalize (s.run source).1 = evaluation, s.calls source = calls, s.reduced source = left at *
  cases concludes with
  | finished finishes =>
      cases ended
      exact finishes
  | failed => cases ended
  | called left call =>
      cases replied : call.reply.result with
      | error e =>
          rw [replied] at ended
          cases ended
      | ok value =>
          rw [replied] at ended
          cases ended
          exact absurd rfl (uninvoked value)

end Session
end LineShell
