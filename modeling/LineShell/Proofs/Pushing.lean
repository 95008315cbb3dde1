import LineShell.Reducer

/-!
What one more token does to the tokens before it. It is resolved, and then it completes a call, or
makes a member with the receiver and the dot before it, or is put on top. All that a push can come
to is said once; what lines keep from token to token is read off it. Main statement: a push looks at
the two newest tokens only, and unless it makes a member it leaves all tokens as they were below
the new one, whether it fails or calls or goes on.
-/

namespace LineShell

namespace Pending

/-- All that a push can come to. -/
inductive Pushes (env : Environment) (pending : Pending) (token : Located Token) :
    Pushed → Prop where
  | unresolved {e : Error} (fails : token.item.resolve env token.position = .error e) :
      Pushes env pending token ⟨token :: pending, none, .error e⟩
  | called {arguments : List Value} {callable : Callable} {place : Nat} {rest : Pending}
      (resolves : token.item.resolve env token.position = .ok (.literal (.tuple arguments)))
      (below : pending = ⟨.function callable, place⟩ :: rest) :
      Pushes env pending token
        ⟨⟨.literal (.tuple arguments), token.position⟩ :: pending,
          some ⟨callable, arguments, token.position⟩,
          (Call.reply ⟨callable, arguments, token.position⟩).result.map .invoked⟩
  | folded {resolved : Token} {dot : Nat} {receiver member : Located Token} {rest : Pending}
      (resolves : token.item.resolve env token.position = .ok resolved)
      (dotted : pending = ⟨.operator .dot, dot⟩ :: receiver :: rest)
      (folds : fold receiver ⟨resolved, token.position⟩ = .ok member) :
      Pushes env pending token ⟨member :: rest, none, .ok .proceed⟩
  | unfolded {resolved : Token} {dot : Nat} {receiver : Located Token} {rest : Pending} {e : Error}
      (resolves : token.item.resolve env token.position = .ok resolved)
      (dotted : pending = ⟨.operator .dot, dot⟩ :: receiver :: rest)
      (fails : fold receiver ⟨resolved, token.position⟩ = .error e) :
      Pushes env pending token ⟨⟨resolved, token.position⟩ :: pending, none, .error e⟩
  | kept {resolved : Token} (resolves : token.item.resolve env token.position = .ok resolved)
      (uncalled : ∀ arguments callable place rest, resolved = .literal (.tuple arguments) →
        pending ≠ ⟨.function callable, place⟩ :: rest)
      (undotted : ∀ dot receiver rest, pending ≠ ⟨.operator .dot, dot⟩ :: receiver :: rest) :
      Pushes env pending token ⟨⟨resolved, token.position⟩ :: pending, none, .ok .proceed⟩

section Inversion

variable {env : Environment} {pending : Pending} {token : Located Token}

theorem reduce_pushes {resolved : Token}
    (resolves : token.item.resolve env token.position = .ok resolved) :
    Pushes env pending token (reduce (⟨resolved, token.position⟩ :: pending)) := by
  unfold reduce
  split
  · rename_i same
    cases same
    exact .called resolves rfl
  · rename_i same
    cases same
    split
    · rename_i folds
      exact .folded resolves rfl folds
    · rename_i fails
      exact .unfolded resolves rfl fails
  · rename_i uncalled undotted
    refine .kept resolves ?_ ?_
    · rintro arguments callable place rest rfl rfl
      exact uncalled arguments _ callable place rest rfl
    · rintro dot receiver rest rfl
      exact undotted _ dot receiver rest rfl

theorem push_pushes (env : Environment) (pending : Pending) (token : Located Token) :
    Pushes env pending token (pending.push env token.item token.position) := by
  unfold push
  cases resolves : token.item.resolve env token.position with
  | error e => exact .unresolved resolves
  | ok resolved => exact reduce_pushes resolves

theorem invoked_stops (result : Except Error Value) :
    result.map Progress.invoked ≠ .ok .proceed := by
  intro proceeds
  cases result <;> cases proceeds

theorem fold_position {receiver last member : Located Token}
    (folds : fold receiver last = .ok member) : member.position = receiver.position := by
  unfold fold at folds
  split at folds
  · cases folds
  · rename_i name _
    cases found : Token.member receiver name last.position with
    | error e =>
        rw [found] at folds
        cases folds
    | ok token =>
        rw [found] at folds
        cases folds
        rfl

end Inversion

/-- The receiver and the tokens below it, if the newest token is a dot after a receiver. -/
def receiver? : Pending → Option (Located Token × Pending)
  | ⟨.lexeme (.operator .dot), _⟩ :: receiver :: rest => some (receiver, rest)
  | _ => none

theorem receiver_none {pending : Pending}
    (undotted : ∀ dot receiver rest, pending ≠ ⟨.operator .dot, dot⟩ :: receiver :: rest) :
    pending.receiver? = none := by
  unfold receiver?
  split
  · exact absurd rfl (undotted _ _ _)
  · rfl

theorem receiver_some {pending rest : Pending} {receiver : Located Token}
    (found : pending.receiver? = some (receiver, rest)) :
    ∃ dot, pending = ⟨.operator .dot, dot⟩ :: receiver :: rest := by
  unfold receiver? at found
  split at found
  · cases found
    exact ⟨_, rfl⟩
  · cases found

end Pending

inductive Pushed.Accounted : Pushed → Prop where
  | proceeds (pending : Pending) : Accounted ⟨pending, none, .ok .proceed⟩
  | fails (pending : Pending) (e : Error) : Accounted ⟨pending, none, .error e⟩
  | calls (pending : Pending) (call : Call) :
      Accounted ⟨pending, some call, call.reply.result.map .invoked⟩

theorem pushed_accounted (pending : Pending) (env : Environment) (token : Token)
    (position : Nat) : (pending.push env token position).Accounted := by
  have pushes := Pending.push_pushes env pending ⟨token, position⟩
  dsimp only at pushes
  generalize pending.push env token position = pushed at pushes
  cases pushes with
  | unresolved | unfolded => exact .fails _ _
  | called => exact .calls _ _
  | folded | kept => exact .proceeds _

theorem accounted_cases {pushed : Pushed} (accounted : pushed.Accounted) :
    (pushed.call = none ∧ ∀ value, pushed.progress ≠ .ok (.invoked value)) ∨
    ∃ call, pushed.call = some call ∧ pushed.progress = call.reply.result.map .invoked := by
  cases accounted with
  | proceeds | fails =>
      refine .inl ⟨rfl, ?_⟩
      intro value invoked
      cases invoked
  | calls pending call => exact .inr ⟨call, rfl, rfl⟩

/-- What a token is kept as: what it is resolved to, or itself if that fails. -/
def Token.kept (env : Environment) (position : Nat) (token : Token) : Token :=
  match token.resolve env position with
  | .ok resolved => resolved
  | .error _ => token

theorem kept_resolved {env : Environment} {position : Nat} {token resolved : Token}
    (resolves : token.resolve env position = .ok resolved) :
    token.kept env position = resolved := by
  rw [Token.kept, resolves]

theorem kept_unresolved {env : Environment} {position : Nat} {token : Token} {e : Error}
    (fails : token.resolve env position = .error e) : token.kept env position = token := by
  rw [Token.kept, fails]

namespace Reducer

/-- The call that a token completes: it is a tuple, right after a function. -/
def call? (r : Reducer) (token : Token) (position : Nat) : Option Call :=
  match token.kept r.environment position, r.pending with
  | .literal (.tuple arguments), ⟨.function callable, _⟩ :: _ =>
    some ⟨callable, arguments, position⟩
  | _, _ => none

def pushAll (r : Reducer) : List (Located Token) → Reducer
  | [] => r
  | token :: rest => ((r.push token.item token.position).2).pushAll rest

section Locality

variable (r : Reducer) (token : Located Token)

def extended : Pending :=
  ⟨token.item.kept r.environment token.position, token.position⟩ :: r.pending

/-- How the tokens can change: the new one is on top, or it made a member and the line goes on. -/
inductive Moves : Except Error Progress → Pending → Prop where
  | extended {flow : Except Error Progress}
      (undotted : flow = .ok .proceed → r.pending.receiver? = none) :
      Moves flow (r.extended token)
  | folded {receiver : Located Token} {rest : Pending}
      (dotted : r.pending.receiver? = some (receiver, rest)) (member : Token) :
      Moves (.ok .proceed) (⟨member, receiver.position⟩ :: rest)

theorem push_moves : Moves r token (r.push token.item token.position).1
    (r.push token.item token.position).2.pending := by
  have pushes := Pending.push_pushes r.environment r.pending token
  unfold push
  generalize r.pending.push r.environment token.item token.position = pushed at pushes
  have onTop {resolved : Token}
      (resolves : token.item.resolve r.environment token.position = .ok resolved) :
      ⟨resolved, token.position⟩ :: r.pending = r.extended token := by
    rw [extended, kept_resolved resolves]
  cases pushes with
  | unresolved fails =>
      have same : token :: r.pending = r.extended token := by
        rw [extended, kept_unresolved fails]
      rw [same]
      exact .extended fun proceeds => by cases proceeds
  | called resolves =>
      rw [onTop resolves]
      exact .extended fun proceeds => absurd proceeds (Pending.invoked_stops _)
  | @folded _ _ receiver member rest _ dotted folds =>
      obtain ⟨item, position⟩ := member
      obtain rfl : position = receiver.position := Pending.fold_position folds
      refine .folded ?_ item
      rw [dotted]
      rfl
  | unfolded resolves =>
      rw [onTop resolves]
      exact .extended fun proceeds => by cases proceeds
  | kept resolves _ undotted =>
      rw [onTop resolves]
      exact .extended fun _ => Pending.receiver_none undotted

theorem unresolved_capture {env : Environment} {position : Nat} {token : Token} {e : Error}
    (fails : token.resolve env position = .error e) :
    ∃ shape closing text, token = .lexeme (.capture shape closing text) := by
  cases token with
  | lexeme item =>
      cases item with
      | capture shape closing text => exact ⟨shape, closing, text, rfl⟩
      | name text =>
          unfold Token.resolve at fails
          dsimp only at fails
          split at fails
          · cases fails
          · split at fails <;> cases fails
      | space | operator => cases fails
  | reference | function | literal => cases fails

theorem push_call : (r.pending.push r.environment token.item token.position).call =
    r.call? token.item token.position := by
  have pushes := Pending.push_pushes r.environment r.pending token
  generalize r.pending.push r.environment token.item token.position = pushed at pushes
  cases pushes with
  | unresolved fails =>
      obtain ⟨shape, closing, text, same⟩ := unresolved_capture fails
      rw [call?, kept_unresolved fails, same]
  | called resolves below => simp only [call?, kept_resolved resolves, below]
  | folded resolves dotted | unfolded resolves dotted =>
      simp only [call?, kept_resolved resolves, dotted]
  | kept resolves uncalled =>
      rw [call?, kept_resolved resolves]
      split
      · rename_i below
        exact absurd below (uncalled _ _ _ _ rfl)
      · rfl

section Moved

variable {flow : Except Error Progress} {next : Pending} (moves : Moves r token flow next)

include moves

theorem moves_cases :
    (flow = .ok .proceed → r.pending.receiver? = none) ∧ next = r.extended token ∨
    flow = .ok .proceed ∧ ∃ receiver rest member, r.pending.receiver? = some (receiver, rest) ∧
      next = ⟨member, receiver.position⟩ :: rest := by
  cases moves with
  | extended undotted => exact .inl ⟨undotted, rfl⟩
  | folded dotted member => exact .inr ⟨rfl, _, _, member, dotted, rfl⟩

theorem moves_length :
    next.length = r.pending.length + 1 ∨ next.length + 1 = r.pending.length := by
  cases moves with
  | extended => exact .inl rfl
  | folded dotted =>
      obtain ⟨dot, same⟩ := Pending.receiver_some dotted
      rw [same]
      exact .inr rfl

theorem moves_keep : r.pending.drop 2 <:+ next := by
  cases moves with
  | extended => exact (List.drop_suffix 2 r.pending).trans (List.suffix_cons _ _)
  | folded dotted =>
      obtain ⟨dot, same⟩ := Pending.receiver_some dotted
      rw [same]
      exact List.suffix_cons _ _

end Moved

theorem push_all_length (tokens : List (Located Token)) :
    (r.pushAll tokens).pending.length ≤ r.pending.length + tokens.length := by
  induction tokens generalizing r with
  | nil => exact Nat.le_refl _
  | cons token rest induction =>
      have first := moves_length r token (push_moves r token)
      have later := induction (r.push token.item token.position).2
      rw [pushAll, List.length_cons]
      omega

end Locality

end Reducer

/-- A push leaves the environment as it is and writes only what the call that it completes writes.
If it fails or calls, the token is on top of the others, which stay as they were. If the line goes on
it is so too, unless a receiver and a dot come before the token; then the three become one, at the
receiver's position. So there is one token more or one less, the tokens below the two newest stay,
and after any pushes there are at most as many tokens more as were pushed. -/
theorem push_is_local (r : Reducer) (token : Located Token) :
    let flow := (r.push token.item token.position).1
    let next := (r.push token.item token.position).2
    let call := r.call? token.item token.position
    next.environment = r.environment ∧ next.written = r.written ++ linesWritten call ∧
    ((call = none ∧ ∀ value, flow ≠ .ok (.invoked value)) ∨
      ∃ made, call = some made ∧ flow = made.reply.result.map .invoked) ∧
    ((flow = .ok .proceed → r.pending.receiver? = none) ∧ next.pending = r.extended token ∨
      flow = .ok .proceed ∧ ∃ receiver rest member,
        r.pending.receiver? = some (receiver, rest) ∧
        next.pending = ⟨member, receiver.position⟩ :: rest) ∧
    (next.pending.length = r.pending.length + 1 ∨
      next.pending.length + 1 = r.pending.length) ∧
    r.pending.drop 2 <:+ next.pending ∧
    ∀ tokens, (r.pushAll tokens).pending.length ≤ r.pending.length + tokens.length := by
  intro flow next call
  have moves : Reducer.Moves r token flow next.pending := r.push_moves token
  have called := r.push_call token
  have accounted := accounted_cases
    (pushed_accounted r.pending r.environment token.item token.position)
  rw [called] at accounted
  refine ⟨rfl, ?_, accounted, r.moves_cases token moves, r.moves_length token moves,
    r.moves_keep token moves, r.push_all_length⟩
  exact congrArg (r.written ++ linesWritten ·) called

end LineShell
