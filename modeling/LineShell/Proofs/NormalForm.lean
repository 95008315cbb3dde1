import LineShell.Proofs.LexemeOrder
import LineShell.Proofs.Reduction

/-!
What a line looks like when nothing in it can be reduced any more. Only the newest tokens are ever
looked at, so that nothing is left behind further down is an invariant of the pushes: a dot that
comes between two tokens has been folded away with them, and a token is resolved when it is pushed
and never after. Main statement: a line that completes has its dot, if any, at its end, and every
name in it that could be resolved has been.
-/

namespace LineShell

/-- A dot has nothing before it or nothing after it. -/
def DotsOuter (tokens : List Token) : Prop :=
  ∀ before after, tokens = before ++ .operator .dot :: after → before = [] ∨ after = []

/-- Nothing is left to resolve: the token is no delimited text, a name is no number and not bound,
and a reference by name has the entry that the name is bound to. -/
def Token.Settled (env : Environment) : Token → Prop
  | .lexeme (.capture ..) => False
  | .lexeme (.name text) =>
    Numeral.read (Text.trim text) = none ∧ env.contains (Text.trim text) = false
  | .reference name shared .environment => env.resolve? name = some shared
  | _ => True

section Dots

variable {env : Environment}

theorem dots_outer_reversed {tokens : List Token} (dots : DotsOuter tokens) :
    DotsOuter tokens.reverse := by
  intro before after same
  have turned : tokens = after.reverse ++ .operator .dot :: before.reverse := by
    rw [← List.reverse_reverse tokens, same]
    simp
  rcases dots _ _ turned with nothing | nothing
  · exact .inr (List.reverse_eq_nil_iff.mp nothing)
  · exact .inl (List.reverse_eq_nil_iff.mp nothing)

theorem dot_alone {pending : Pending} {older : List Token}
    (undotted : ∀ dot receiver rest, pending ≠ ⟨.operator .dot, dot⟩ :: receiver :: rest)
    (topped : pending.map Located.item = .operator .dot :: older) : older = [] := by
  obtain ⟨⟨_, dot⟩, others, rfl, rfl, rfl⟩ := List.map_eq_cons_iff.mp topped
  cases others with
  | nil => rfl
  | cons receiver rest => exact absurd rfl (undotted dot receiver rest)

theorem takes_dots {pending next : Pending} {token : Located Token}
    (dots : DotsOuter (pending.map Located.item)) (takes : pending.Takes env token next) :
    DotsOuter (next.map Located.item) := by
  intro newer older same
  -- The token on top is the only one that was not there before, or not below the top.
  cases newer with
  | nil => exact .inl rfl
  | cons top others =>
      apply Or.inr
      cases takes with
      | kept resolves undotted =>
          have remaining : pending.map Located.item = others ++ .operator .dot :: older :=
            (List.cons.inj same).2
          rcases dots others older remaining with rfl | nothing
          · exact dot_alone undotted remaining
          · exact nothing
      | @folded resolved dot receiver member rest resolves dotted folds =>
          have remaining : rest.map Located.item = others ++ .operator .dot :: older :=
            (List.cons.inj same).2
          have earlier : pending.map Located.item =
              (.operator .dot :: receiver.item :: others) ++ .operator .dot :: older := by
            rw [dotted, List.map_cons, List.map_cons, remaining]
            rfl
          exact (dots _ older earlier).resolve_left (List.cons_ne_nil _ _)

theorem reaches_dots {given : List (Located Token)} {pending : Pending}
    (reaches : pending.Reaches env given) : DotsOuter (pending.map Located.item) := by
  induction reaches with
  | none =>
      intro before after same
      simp at same
  | push _ token proceeds dots => exact takes_dots dots (Pending.push_takes proceeds)

end Dots

section Settling

variable {env : Environment}

theorem resolved_settled {item : Lexeme} {position : Nat} {token : Token}
    (resolves : item.Resolves env position token) : token.Settled env := by
  cases resolves with
  | bound unread found => exact found
  | unbound unread missing =>
      refine ⟨unread, ?_⟩
      rw [Environment.contains, missing, Option.isSome_none]
  | number | delimited | space | operator => trivial

theorem stands_settled {lexemes : List (Located Lexeme)} {token : Located Token}
    (stands : token.Stands env (lexemes.map Located.unread)) : token.item.Settled env := by
  generalize given : lexemes.map Located.unread = part at stands
  cases stands with
  | resolved resolves =>
      obtain ⟨lexeme, _, _, rfl, _⟩ := List.map_eq_cons_iff.mp given
      exact resolved_settled (lexeme_resolves resolves)
  | folded _ _ _ folds =>
      obtain ⟨place, rfl⟩ := folded_place folds
      cases place <;> trivial

theorem spans_settled {lexemes : List (Located Lexeme)} {pending : Pending}
    (spans : pending.Spans env (lexemes.map Located.unread)) :
    ∀ token ∈ pending, token.item.Settled env := by
  generalize pushed : lexemes.map Located.unread = given at spans
  induction spans generalizing lexemes with
  | none => exact List.forall_mem_nil _
  | more _ stands induction =>
      obtain ⟨front, back, rfl, rfl, rfl⟩ := List.map_eq_append_iff.mp pushed
      exact List.forall_mem_cons.mpr ⟨stands_settled stands, induction rfl⟩

theorem oldest_stands {given : List (Located Token)} {newer : Pending} {oldest : Located Token}
    (spans : Pending.Spans env given (newer ++ [oldest])) :
    ∃ part others, given = part ++ others ∧ oldest.Stands env part := by
  induction newer generalizing given with
  | nil =>
      cases spans with
      | more nothing stands =>
          cases nothing
          exact ⟨_, [], (List.append_nil _).symm, stands⟩
  | cons top rest induction =>
      cases spans with
      | more earlier _ =>
          obtain ⟨part, others, rfl, stands⟩ := induction earlier
          exact ⟨part, _, List.append_assoc _ _ _, stands⟩

/-- A line does not begin with a dot, so the oldest token of it is none. -/
theorem oldest_undotted {source : String} {lexemes : List (Located Lexeme)} {newer : Pending}
    {dot : Nat} (scanned : scan source = .ok lexemes)
    (spans : Pending.Spans env (lexemes.map Located.unread)
      (newer ++ [⟨.operator .dot, dot⟩])) : False := by
  obtain ⟨part, others, same, stands⟩ := oldest_stands spans
  rw [operator_stands stands] at same
  obtain ⟨⟨item, place⟩, rest, rfl, first, _⟩ := List.map_eq_cons_iff.mp same
  cases first
  have order := (scan_orderly scanned).1
  cases order

end Settling

theorem finishes_completed {env after : Environment} {left : Pending} {tokens : List Token}
    (finishes : Pending.Finishes env left (.completed tokens, after)) :
    tokens = left.tokens ∧ after = env := by
  cases finishes
  exact ⟨rfl, rfl⟩

theorem reaches_dots_outer {env : Environment} {given : List (Located Token)} {pending : Pending}
    (reaches : pending.Reaches env given) : DotsOuter pending.tokens := by
  rw [Pending.tokens, List.map_reverse]
  exact dots_outer_reversed (reaches_dots reaches)

theorem line_dot_last {env : Environment} {source : String} {lexemes : List (Located Lexeme)}
    {pending : Pending} (scanned : scan source = .ok lexemes)
    (reaches : pending.Reaches env (lexemes.map Located.unread)) {before after : List Token}
    (same : pending.tokens = before ++ .operator .dot :: after) : after = [] := by
  rcases reaches_dots_outer reaches before after same with rfl | nothing
  · obtain ⟨⟨_, dot⟩, rest, turned, rfl, _⟩ := List.map_eq_cons_iff.mp same
    have spans := reaches_spans reaches
    rw [← List.reverse_reverse pending, turned, List.reverse_cons] at spans
    exact (oldest_undotted scanned spans).elim
  · exact nothing

/-- In every session, a line that completes has no dot before its end and nothing left to resolve in
the environment, which is what it was. Whatever tokens are pushed from none on, as long as all of
them let the line go on, a dot is the first or the last of those left. -/
theorem completed_line_is_resolved_and_folded :
    (∀ (s : Session) (source : String) (tokens : List Token),
      (s.run source).1.outcome = .ok (.completed tokens) →
        (∀ before after, tokens = before ++ .operator .dot :: after → after = []) ∧
        ∀ token ∈ tokens, token.Settled (s.run source).2.environment) ∧
    ∀ (env : Environment) (given : List (Located Token)) (pending : Pending),
      pending.Reaches env given → DotsOuter pending.tokens := by
  constructor
  · intro s source tokens completed
    obtain ⟨lexemes, scanned, reaches⟩ := Session.line_reaches completed (by simp)
    obtain ⟨rfl, kept⟩ := finishes_completed (Session.line_finishes completed (by simp))
    rw [kept]
    refine ⟨fun before after same => line_dot_last scanned reaches same, ?_⟩
    intro token member
    obtain ⟨located, found, rfl⟩ := List.mem_map.mp member
    exact spans_settled (reaches_spans reaches) located (List.mem_reverse.mp found)
  · intro env given pending reaches
    exact reaches_dots_outer reaches

theorem completed_line_with_final_dot :
    let tokens : List Token := [.name "x", .lexeme .space,
      .reference "console" ⟨⟨0, []⟩, Console.entry⟩ .environment, .lexeme .space,
      .function ⟨"log", Console.log⟩, .operator .dot]
    let given : List (Located Token) := [⟨.operator .dot, 0⟩, ⟨.name "x", 1⟩, ⟨.operator .dot, 2⟩]
    let ended := Session.initial.run "x console console.log ."
    (ended.1.outcome = .ok (.completed tokens) ∧
      (∀ before after, tokens = before ++ .operator .dot :: after → after = []) ∧
      ∀ token ∈ tokens, token.Settled ended.2.environment) ∧
    Pending.Reaches Environment.initial given given.reverse ∧
      DotsOuter (Pending.tokens given.reverse) := by
  intro tokens given ended
  have completed : ended.1.outcome = .ok (.completed tokens) := rfl
  have reaches : Pending.Reaches Environment.initial given given.reverse :=
    ((Pending.Reaches.none.push ⟨.operator .dot, 0⟩ rfl).push ⟨.name "x", 1⟩ rfl).push
      ⟨.operator .dot, 2⟩ rfl
  have general := completed_line_is_resolved_and_folded
  exact ⟨⟨completed, general.1 Session.initial _ tokens completed⟩, reaches,
    general.2 Environment.initial given given.reverse reaches⟩

end LineShell
