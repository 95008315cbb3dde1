import LineShell.Proofs.Grounding
import LineShell.Session

/-!
What running a line does besides giving an outcome. A line is evaluated while it is scanned, so a
call or an error can come after any number of tokens. Every token that is pushed is accounted for:
it makes no call and the line goes on, or it fails, or it makes a call and the line ends there. Main
statement: in every session that runs of lines and bindings by the host lead to, a line makes one
call or binds one name or does neither, and is recorded.
-/

namespace LineShell

/-- How the tokens of a line end: the form in which it assigns, or any other. -/
inductive Pending.Finishes (env : Environment) : Pending → Outcome × Environment → Prop where
  | completes (pending : Pending) : Finishes env pending (.completed pending.tokens, env)
  | literal {target : Token} {name : String} {value : Value} (named : target.bareName? = some name)
      (right sign left : Nat) :
      Finishes env [⟨.literal value, right⟩, ⟨.operator .assign, sign⟩, ⟨target, left⟩]
        (.assigned name, env.assign name (Entry.ofValue value))
  | reference {target : Token} {name other : String} {shared : Shared} {binding : Binding}
      (named : target.bareName? = some name) (right sign left : Nat) :
      Finishes env [⟨.reference other shared binding, right⟩, ⟨.operator .assign, sign⟩,
        ⟨target, left⟩] (.assigned name, env.bind name shared)

theorem finish_finishes (pending : Pending) (env : Environment) :
    Pending.Finishes env pending (pending.finish env) := by
  unfold Pending.finish
  split
  · split
    · rename_i named
      exact .literal named _ _ _
    · rename_i named
      exact .reference named _ _ _
    · exact .completes _
  · exact .completes _

namespace Evaluation

def pushes (env : Environment) (pending : Pending) : List Scanner.Pull → List Pushed
  | [] => []
  | ⟨.error _, _⟩ :: _ => []
  | ⟨.ok lexeme, _⟩ :: rest =>
    let pushed := pending.push env (.lexeme lexeme.item) lexeme.position
    match pushed.progress with
    | .ok .proceed => pushed :: pushes env pushed.pending rest
    | _ => [pushed]

def leftover (pending : Pending) : List Pushed → Pending
  | [] => pending
  | pushed :: rest => leftover pushed.pending rest

/-- How an evaluation ends, with the calls made in it and the tokens left over. -/
inductive Concludes (env : Environment) : List Call → Pending → Evaluation → Prop where
  | finished {left : Pending} {outcome : Outcome} {after : Environment}
      (finishes : Pending.Finishes env left (outcome, after)) :
      Concludes env [] left ⟨.ok outcome, none, after⟩
  | failed (left : Pending) (e : Error) : Concludes env [] left ⟨.error e, none, env⟩
  | called (left : Pending) (call : Call) :
      Concludes env [call] left ⟨call.reply.result.map .invoked, some call, env⟩

theorem consume_concludes (env : Environment) (pending : Pending) (pulls : List Scanner.Pull) :
    Concludes env ((pushes env pending pulls).filterMap Pushed.call)
      (leftover pending (pushes env pending pulls)) (consume env pending pulls) := by
  induction pulls generalizing pending with
  | nil => exact .finished (finish_finishes pending env)
  | cons pull rest induction =>
      obtain ⟨result, depth⟩ := pull
      cases result with
      | error e => exact .failed pending e
      | ok lexeme =>
          have accounted := pushed_accounted pending env (.lexeme lexeme.item) lexeme.position
          unfold pushes consume
          generalize pending.push env (.lexeme lexeme.item) lexeme.position = pushed at accounted
          cases accounted with
          | proceeds next => exact induction next
          | fails next e => exact .failed next e
          | calls next call =>
              have called := @Concludes.called env next call
              cases replied : call.reply.result with
              | error e =>
                  rw [replied] at called
                  exact called
              | ok value =>
                  rw [replied] at called
                  exact called

theorem leftover_grounded {env : Environment} {pending : Pending}
    (grounded : pending.Grounded env) (pulls : List Scanner.Pull) :
    (leftover pending (pushes env pending pulls)).Grounded env := by
  induction pulls generalizing pending with
  | nil => exact grounded
  | cons pull rest induction =>
      obtain ⟨result, depth⟩ := pull
      cases result with
      | error e => exact grounded
      | ok lexeme =>
          have next := @pushed_grounded env pending (.lexeme lexeme.item) grounded trivial
            lexeme.position
          rw [pushes]
          split
          · exact induction next
          · exact next

end Evaluation

/-- Every bound entry has been given its identity. -/
def Environment.Counted (env : Environment) : Prop :=
  ∀ name shared, env.bindings.get? name = some shared → shared.identity.serial < env.created

section Identities

variable {env : Environment}

theorem held_counted {shared : Shared} (counted : env.Counted) (holds : env.Holds shared) :
    shared.identity.serial < env.created := by
  induction holds with
  | bound found => exact counted _ _ found
  | nested _ _ induction => exact induction

theorem created_fresh (counted : env.Counted) (entry : Entry) {held : Shared}
    (holds : env.Holds held) : held.identity ≠ (env.create entry).1.identity := by
  intro same
  have earlier := held_counted counted holds
  rw [same] at earlier
  exact absurd earlier (Nat.lt_irrefl env.created)

theorem bind_counted {shared : Shared} (counted : env.Counted)
    (given : shared.identity.serial < env.created) (name : String) :
    (env.bind name shared).Counted := by
  intro other found
  rw [Environment.bind, NameMap.get?_insert]
  split
  · intro same
    cases same
    exact given
  · exact counted other found

theorem assign_counted (counted : env.Counted) (name : String) (entry : Entry) :
    (env.assign name entry).Counted := by
  apply bind_counted
  · intro other shared found
    exact Nat.lt_succ_of_lt (counted other shared found)
  · exact Nat.lt_succ_self env.created

theorem finishes_counted {left : Pending} {outcome : Outcome} {after : Environment}
    (counted : env.Counted) (grounded : left.Grounded env)
    (finishes : Pending.Finishes env left (outcome, after)) : after.Counted := by
  cases finishes with
  | completes => exact counted
  | literal => exact assign_counted counted _ _
  | reference =>
      have held := reference_holds (grounded _ List.mem_cons_self)
      exact bind_counted counted (held_counted counted held) _

theorem concludes_counted {calls : List Call} {left : Pending} {evaluation : Evaluation}
    (counted : env.Counted) (grounded : left.Grounded env)
    (concludes : Evaluation.Concludes env calls left evaluation) :
    evaluation.environment.Counted := by
  cases concludes with
  | finished finishes => exact finishes_counted counted grounded finishes
  | failed => exact counted
  | called => exact counted

end Identities

namespace Session

/-- The sessions that runs and bindings by the host lead to. The host binds a name to a new entry,
or to one that has been given its identity before. -/
inductive Reachable : Session → Prop where
  | initial : Reachable initial
  | run {s : Session} (reachable : Reachable s) (source : String) : Reachable (s.run source).2
  | assign {s : Session} (reachable : Reachable s) (name : String) (entry : Entry) :
      Reachable (s.assign name entry).2
  | share {s : Session} (reachable : Reachable s) (name : String) (shared : Shared)
      (given : shared.identity.serial < s.environment.created) : Reachable (s.share name shared).2

variable (s : Session) (source : String)

def calls : List Call :=
  (Evaluation.pushes s.environment [] (Scanner.pullsOf source)).filterMap Pushed.call

def reduced : Pending :=
  Evaluation.leftover [] (Evaluation.pushes s.environment [] (Scanner.pullsOf source))

theorem run_concludes : Evaluation.Concludes s.environment (s.calls source) (s.reduced source)
    (s.run source).1 := Evaluation.consume_concludes s.environment [] (Scanner.pullsOf source)

theorem line_grounded : (s.reduced source).Grounded s.environment :=
  Evaluation.leftover_grounded (fun _ member => absurd member List.not_mem_nil) _

end Session

theorem reachable_counted {s : Session} (reachable : s.Reachable) : s.environment.Counted := by
  induction reachable with
  | initial =>
      apply assign_counted
      intro name shared found
      cases found
  | @run s _ source counted =>
      exact concludes_counted counted (s.line_grounded source) (s.run_concludes source)
  | assign _ name entry counted => exact assign_counted counted name entry
  | share _ name shared given counted => exact bind_counted counted given name

/-- The entry that the right side of an assignment gives to the name: a new one for a value, and for
a reference the one it has. -/
inductive Token.Supplies (env : Environment) : Token → Shared → Prop where
  | literal {value : Value} {shared : Shared} (content : shared.entry = .mk (some value) .empty)
      (fresh : ∀ held, env.Holds held → held.identity ≠ shared.identity) :
      Supplies env (.literal value) shared
  | reference {name : String} {shared : Shared} {binding : Binding}
      (grounded : (Token.reference name shared binding).Grounded env) :
      Supplies env (.reference name shared binding) shared

/-- An assignment binds the name on the left to what the right side supplies, and no other. -/
structure Assigns (before : Environment) (tokens : List Token) (name : String)
    (after : Environment) : Prop where
  bound : ∃ target value shared, tokens = [target, .operator .assign, value] ∧
    target.bareName? = some name ∧ value.Supplies before shared ∧
    after.bindings.get? name = some shared
  others : ∀ other, other ≠ name → after.bindings.get? other = before.bindings.get? other

section Assignments

variable {env : Environment} {name : String}

theorem bind_get (trimmed : Text.trim name = name) (shared : Shared) (other : String) :
    (env.bind name shared).bindings.get? other =
      if other = name then some shared else env.bindings.get? other := by
  rw [Environment.bind, trimmed]
  exact NameMap.get?_insert _ _ _ _

theorem bind_assigns {target value : Token} {shared : Shared} (trimmed : Text.trim name = name)
    (named : target.bareName? = some name) (supplies : value.Supplies env shared)
    {before : Environment} (same : before.bindings = env.bindings) :
    Assigns env [target, .operator .assign, value] name (before.bind name shared) := by
  constructor
  · refine ⟨target, value, shared, rfl, named, supplies, ?_⟩
    rw [bind_get trimmed, if_pos rfl]
  · intro other different
    rw [bind_get trimmed, if_neg different, same]

theorem finishes_assigns {left : Pending} {after : Environment} (counted : env.Counted)
    (grounded : left.Grounded env)
    (finishes : Pending.Finishes env left (.assigned name, after)) :
    Assigns env left.tokens name after := by
  cases finishes with
  | @literal target _ value named right sign origin =>
      have trimmed := bare_name_trimmed (grounded ⟨target, origin⟩ (by simp)) named
      have supplies : (Token.literal value).Supplies env (env.create (Entry.ofValue value)).1 :=
        .literal rfl fun held holds => created_fresh counted _ holds
      exact bind_assigns trimmed named supplies rfl
  | @reference target _ other shared binding named right sign origin =>
      have trimmed := bare_name_trimmed (grounded ⟨target, origin⟩ (by simp)) named
      exact bind_assigns trimmed named (.reference (grounded _ List.mem_cons_self)) rfl

end Assignments

theorem reply_run (call : Call) {result : Except Error Value}
    (replied : call.reply.result = result) :
    call.callable.procedure.run call.arguments call.position = ⟨call.reply.written, result⟩ := by
  rw [← replied]
  rfl

/-- In a session that can be reached, a line that assigns binds its name and makes no call; a line
that invokes makes one call and gives its value; a line that completes does nothing; a line that
fails makes no call or the one whose error it gives. Only assignments change the environment, and
the record of the line is added to the others. -/
theorem run_effects_are_exclusive (s : Session) (reachable : s.Reachable) (source : String) :
    let evaluation := (s.run source).1
    let after := (s.run source).2
    ∃ status, after.history = s.history ++ [⟨s.history.length + 1, source, status⟩] ∧
      match evaluation.outcome with
      | .ok (.assigned name) => status = .assigned name ∧ s.calls source = [] ∧
          evaluation.written = [] ∧
          Assigns s.environment (s.reduced source).tokens name after.environment
      | .ok (.invoked value) => status = .invoked value ∧ after.environment = s.environment ∧
          ∃ callable arguments position, s.calls source = [⟨callable, arguments, position⟩] ∧
            callable.procedure.run arguments position = ⟨evaluation.written, .ok value⟩
      | .ok (.completed _) => status = .completed ∧ after.environment = s.environment ∧
          s.calls source = [] ∧ evaluation.written = []
      | .error e => status = .failed e ∧ after.environment = s.environment ∧
          (s.calls source = [] ∧ evaluation.written = [] ∨
            ∃ callable arguments position, s.calls source = [⟨callable, arguments, position⟩] ∧
              callable.procedure.run arguments position = ⟨evaluation.written, .error e⟩) := by
  intro evaluation after
  have counted := reachable_counted reachable
  have grounded := s.line_grounded source
  have concludes := s.run_concludes source
  have kept : after.environment = evaluation.environment := rfl
  refine ⟨Status.ofOutcome evaluation.outcome, rfl, ?_⟩
  rw [kept]
  change Evaluation.Concludes s.environment _ _ evaluation at concludes
  generalize evaluation = ended, s.calls source = calls, s.reduced source = left at *
  cases concludes with
  | @finished _ outcome environment finishes =>
      cases outcome with
      | assigned name => exact ⟨rfl, rfl, rfl, finishes_assigns counted grounded finishes⟩
      | completed tokens =>
          cases finishes
          exact ⟨rfl, rfl, rfl, rfl⟩
      | invoked value => cases finishes
  | failed _ e => exact ⟨rfl, rfl, .inl ⟨rfl, rfl⟩⟩
  | called _ call =>
      cases replied : call.reply.result with
      | ok value => exact ⟨rfl, rfl, _, _, _, rfl, reply_run call replied⟩
      | error e => exact ⟨rfl, rfl, .inr ⟨_, _, _, rfl, reply_run call replied⟩⟩

theorem run_effects_of_sharing_member :
    let s := (Session.initial.assign "host" (Entry.empty.addMember "inner" Console.entry)).2
    s.Reachable ∧ (s.run "b = host.inner").1.outcome = .ok (.assigned "b") ∧
      (s.run "b = host.inner").2.history = [⟨1, "b = host.inner", .assigned "b"⟩] ∧
      s.calls "b = host.inner" = [] ∧ (s.run "b = host.inner").1.written = [] ∧
      Assigns s.environment (s.reduced "b = host.inner").tokens "b"
        (s.run "b = host.inner").2.environment := by
  intro s
  have reachable : s.Reachable := .assign .initial "host" _
  have outcome : (s.run "b = host.inner").1.outcome = .ok (.assigned "b") := rfl
  obtain ⟨status, recorded, effects⟩ := run_effects_are_exclusive s reachable "b = host.inner"
  simp only [outcome] at effects
  obtain ⟨rfl, effects⟩ := effects
  exact ⟨reachable, outcome, recorded, effects⟩

end LineShell
