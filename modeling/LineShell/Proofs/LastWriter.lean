import LineShell.Proofs.Assignment
import LineShell.Proofs.NameOrder

/-!
The environment as a map that is written to. The host and the lines that are run bind names in any
order, and every one of them cuts the blanks off the names itself. Each operation binds at most one
name and says to what. Main statement: after any operations a name has the entry that the last one
for it gave, up to blanks around the names; the names are in order, and bindings of different names
commute.
-/

namespace LineShell

/-- What is kept in order: the names increase and have no blanks around them. -/
structure Environment.Tidy (env : Environment) : Prop where
  increasing : env.bindings.Increasing
  trimmed : ∀ name ∈ env.names, Text.trim name = name

namespace Environment

variable {env : Environment}

theorem empty_tidy : empty.Tidy where
  increasing := List.Pairwise.nil
  trimmed := by
    intro name member
    cases member

theorem bind_tidy (tidy : env.Tidy) (name : String) (shared : Shared) :
    (env.bind name shared).Tidy where
  increasing := NameMap.insert_increasing tidy.increasing _ _
  trimmed := by
    intro other member
    rcases NameMap.mem_insert_into member with rfl | member
    · exact Text.trim_trimmed name
    · exact tidy.trimmed other member

theorem assign_tidy (tidy : env.Tidy) (name : String) (entry : Entry) :
    (env.assign name entry).Tidy := by
  apply bind_tidy
  exact ⟨tidy.increasing, tidy.trimmed⟩

theorem mem_names_iff (tidy : env.Tidy) (name : String) :
    name ∈ env.names ↔ Text.trim name = name ∧ env.contains name = true := by
  have bound := NameMap.mem_names_iff env.bindings name
  constructor
  · intro member
    have trimmed := tidy.trimmed name member
    refine ⟨trimmed, ?_⟩
    rw [contains, resolve?, trimmed]
    exact bound.mp member
  · rintro ⟨trimmed, contained⟩
    rw [contains, resolve?, trimmed] at contained
    exact bound.mpr contained

theorem names_ext {other : Environment} (tidy : env.Tidy) (otherTidy : other.Tidy)
    (same : ∀ name, env.contains name = other.contains name) : env.names = other.names := by
  apply List.Pairwise.eq_of_mem_iff tidy.increasing otherTidy.increasing
  intro name
  change name ∈ env.names ↔ name ∈ other.names
  rw [mem_names_iff tidy, mem_names_iff otherTidy, same]

theorem names_bytes (tidy : env.Tidy) :
    env.names.Pairwise fun a b => Text.bytes a < Text.bytes b :=
  tidy.increasing.imp Text.bytes_lt

theorem exchange_replaced (tidy : env.Tidy) (name : String) (shared : Shared) :
    (env.exchange name shared).1 = env.resolve? name :=
  NameMap.exchange_replaced tidy.increasing (Text.trim name) shared

theorem bind_commutes (tidy : env.Tidy) {a b : String} (different : Text.trim a ≠ Text.trim b)
    (x y : Shared) : (env.bind a x).bind b y = (env.bind b y).bind a x := by
  have commutes := NameMap.insert_commutes tidy.increasing different x y
  simp only [bind, commutes]

end Environment

namespace Session

def blank : Session := ⟨Environment.empty, []⟩

/-- What can be done with a session. -/
inductive Operation where
  | assign (name : String) (entry : Entry)
  | share (name : String) (shared : Shared)
  | run (source : String)

def perform (s : Session) : Operation → Session
  | .assign name entry => (s.assign name entry).2
  | .share name shared => (s.share name shared).2
  | .run source => (s.run source).2

/-- The name that an operation binds, and the entry that it gives to it, a new one under the next
identity. A line that assigns gives what its right side supplies. -/
def binding? (s : Session) : Operation → Option (String × Shared)
  | .assign name entry => some (name, ⟨⟨s.environment.created, []⟩, entry⟩)
  | .share name shared => some (name, shared)
  | .run source =>
    match (s.run source).1.outcome, (s.reduced source).tokens with
    | .ok (.assigned name), [_, _, value] => (value.supplied? s.environment).map (name, ·)
    | _, _ => none

def performAll (s : Session) : List Operation → Session
  | [] => s
  | operation :: rest => (s.perform operation).performAll rest

def bindings (s : Session) : List Operation → List (String × Shared)
  | [] => []
  | operation :: rest => (s.binding? operation).toList ++ (s.perform operation).bindings rest

/-- The entry given last to a name, up to blanks around it. -/
def lastGiven (bindings : List (String × Shared)) (name : String) : Option Shared :=
  ((bindings.filter fun given => Text.trim given.1 = Text.trim name).getLast?).map Prod.snd

theorem last_given_append (earlier later : List (String × Shared)) (name : String) :
    lastGiven (earlier ++ later) name = (lastGiven later name).or (lastGiven earlier name) := by
  rw [lastGiven, List.filter_append, List.getLast?_append, Option.map_or]
  rfl

theorem last_given_single (given other : String) (shared : Shared) :
    lastGiven [(given, shared)] other =
      if Text.trim other = Text.trim given then some shared else none := by
  by_cases same : Text.trim other = Text.trim given
  · simp [lastGiven, same]
  · simp [lastGiven, same, Ne.symm same]

section Operations

variable (s : Session)

theorem run_binding {source name : String}
    (assigned : (s.run source).1.outcome = .ok (.assigned name)) :
    ∃ shared, s.binding? (.run source) = some (name, shared) ∧
      ∀ other, (s.run source).2.environment.resolve? other =
        if Text.trim other = Text.trim name then some shared
        else s.environment.resolve? other := by
  obtain ⟨target, value, shared, tokens, _, supplied, binds⟩ := assigned_binds assigned
  refine ⟨shared, ?_, binds⟩
  rw [binding?, assigned, tokens]
  simp only [supplied, Option.map_some]

theorem run_binds_nothing {source : String}
    (unassigned : ∀ name, (s.run source).1.outcome ≠ .ok (.assigned name)) :
    s.binding? (.run source) = none := by
  rw [binding?]
  split
  · rename_i name _ assigned _
    exact absurd assigned (unassigned _)
  · rfl

theorem perform_resolves (operation : Operation) (name : String) :
    (s.perform operation).environment.resolve? name =
      (lastGiven (s.binding? operation).toList name).or (s.environment.resolve? name) := by
  have given (bound : String) (shared : Shared) :
      (lastGiven [(bound, shared)] name).or (s.environment.resolve? name) =
        if Text.trim name = Text.trim bound then some shared else s.environment.resolve? name := by
    rw [last_given_single]
    split <;> rfl
  cases operation with
  | assign bound entry => exact (Environment.resolve?_assign _ _ _ _).trans (given bound _).symm
  | share bound shared => exact (Environment.resolve?_bind _ _ _ _).trans (given bound _).symm
  | run source =>
      by_cases assigns : ∃ bound, (s.run source).1.outcome = .ok (.assigned bound)
      · obtain ⟨bound, assigned⟩ := assigns
        obtain ⟨shared, binding, binds⟩ := s.run_binding assigned
        rw [binding]
        exact (binds name).trans (given bound shared).symm
      · have unassigned := not_exists.mp assigns
        rw [s.run_binds_nothing unassigned, perform, unassigned_keeps unassigned]
        rfl

theorem perform_all_resolves (operations : List Operation) (name : String) :
    (s.performAll operations).environment.resolve? name =
      (lastGiven (s.bindings operations) name).or (s.environment.resolve? name) := by
  induction operations generalizing s with
  | nil => rfl
  | cons operation rest induction =>
      rw [performAll, bindings, induction, perform_resolves, last_given_append, Option.or_assoc]

end Operations

section Tidiness

variable {s : Session}

theorem run_tidy (tidy : s.environment.Tidy) (source : String) :
    (s.run source).2.environment.Tidy := by
  have concludes := s.run_concludes source
  have kept : (s.run source).2.environment = (s.run source).1.environment := rfl
  rw [kept]
  generalize (s.run source).1 = evaluation, s.calls source = calls, s.reduced source = left at *
  cases concludes with
  | finished finishes =>
      cases finishes with
      | completes => exact tidy
      | literal => exact Environment.assign_tidy tidy _ _
      | reference => exact Environment.bind_tidy tidy _ _
  | failed | called => exact tidy

theorem perform_tidy (tidy : s.environment.Tidy) (operation : Operation) :
    (s.perform operation).environment.Tidy := by
  cases operation with
  | assign name entry => exact Environment.assign_tidy tidy name entry
  | share name shared => exact Environment.bind_tidy tidy name shared
  | run source => exact run_tidy tidy source

theorem perform_all_tidy (tidy : s.environment.Tidy) (operations : List Operation) :
    (s.performAll operations).environment.Tidy := by
  induction operations generalizing s with
  | nil => exact tidy
  | cons operation rest induction => exact induction (perform_tidy tidy operation)

end Tidiness

section Commuting

variable {s : Session} {a b : String}

theorem share_commutes (tidy : s.environment.Tidy) (different : Text.trim a ≠ Text.trim b)
    (x y : Shared) : ((s.share a x).2.share b y).2 = ((s.share b y).2.share a x).2 :=
  congrArg (Session.mk · s.history) (Environment.bind_commutes tidy different x y)

theorem assign_commutes_share (tidy : s.environment.Tidy)
    (different : Text.trim a ≠ Text.trim b) (entry : Entry) (shared : Shared) :
    ((s.assign a entry).2.share b shared).2 = ((s.share b shared).2.assign a entry).2 := by
  have created : (s.environment.create entry).2.Tidy := ⟨tidy.increasing, tidy.trimmed⟩
  exact congrArg (Session.mk · s.history)
    (Environment.bind_commutes created different (s.environment.create entry).1 shared)

/-- Two new entries are given their identities in the order of the assignments. Apart from that the
order makes no difference. -/
theorem assign_commutes (tidy : s.environment.Tidy) (different : Text.trim a ≠ Text.trim b)
    (x y : Entry) :
    let one := ((s.assign a x).2.assign b y).2.environment
    let other := ((s.assign b y).2.assign a x).2.environment
    one.names = other.names ∧ ∀ name,
      (one.resolve? name).map Shared.entry = (other.resolve? name).map Shared.entry ∧
      (Text.trim name ≠ Text.trim a → Text.trim name ≠ Text.trim b →
        one.resolve? name = other.resolve? name) := by
  intro one other
  have oneTidy : one.Tidy := Environment.assign_tidy (Environment.assign_tidy tidy a x) b y
  have otherTidy : other.Tidy := Environment.assign_tidy (Environment.assign_tidy tidy b y) a x
  have oneResolves (name : String) : one.resolve? name = _ :=
    Environment.resolve?_assign (s.environment.assign a x) b name y
  have otherResolves (name : String) : other.resolve? name = _ :=
    Environment.resolve?_assign (s.environment.assign b y) a name x
  have contents (name : String) :
      (one.resolve? name).map Shared.entry = (other.resolve? name).map Shared.entry := by
    rw [oneResolves, otherResolves, Environment.resolve?_assign, Environment.resolve?_assign]
    by_cases first : Text.trim name = Text.trim a
    · have second : Text.trim name ≠ Text.trim b := first ▸ different
      rw [if_pos first, if_pos first, if_neg second]
      rfl
    · rw [if_neg first, if_neg first]
      split <;> rfl
  refine ⟨?_, fun name => ⟨contents name, ?_⟩⟩
  · apply Environment.names_ext oneTidy otherTidy
    intro name
    have bound := congrArg Option.isSome (contents name)
    rw [Option.isSome_map, Option.isSome_map] at bound
    exact bound
  · intro first second
    rw [oneResolves, otherResolves, Environment.resolve?_assign, Environment.resolve?_assign,
      if_neg first, if_neg first, if_neg second, if_neg second]

end Commuting

end Session

/-- After any operations, of which the host's binding of the console is the first, a name has the
entry that the last operation for it gave, and is contained if there was one. An assignment gives back
the entry that the name had, and a new entry comes under the next identity. The names are strictly
increasing in their bytes, and are those contained names that have no blanks around them. Assignments
to names that differ in more than the blanks around them commute; two new entries then only have each
other's identities. -/
theorem environment_is_last_writer_map (operations : List Session.Operation) :
    let all := .assign "console" Console.entry :: operations
    let s := Session.blank.performAll all
    s = Session.initial.performAll operations ∧
    (∀ name, s.environment.resolve? name =
        Session.lastGiven (Session.blank.bindings all) name ∧
      s.environment.contains name = (s.environment.resolve? name).isSome) ∧
    (∀ name shared, (s.share name shared).1 = s.environment.resolve? name) ∧
    (∀ name entry, (s.assign name entry).1 = s.environment.resolve? name ∧
      (s.assign name entry).2.environment.resolve? name =
        some ⟨⟨s.environment.created, []⟩, entry⟩ ∧
      (s.assign name entry).2.environment.created = s.environment.created + 1) ∧
    (s.environment.names.Pairwise fun a b => Text.bytes a < Text.bytes b) ∧
    (∀ name, name ∈ s.environment.names ↔
      Text.trim name = name ∧ s.environment.contains name = true) ∧
    ∀ a b, Text.trim a ≠ Text.trim b →
      (∀ x y, ((s.share a x).2.share b y).2 = ((s.share b y).2.share a x).2) ∧
      (∀ x y, ((s.assign a x).2.share b y).2 = ((s.share b y).2.assign a x).2) ∧
      ∀ x y,
        let one := ((s.assign a x).2.assign b y).2.environment
        let other := ((s.assign b y).2.assign a x).2.environment
        one.names = other.names ∧ ∀ name,
          (one.resolve? name).map Shared.entry = (other.resolve? name).map Shared.entry ∧
          (Text.trim name ≠ Text.trim a → Text.trim name ≠ Text.trim b →
            one.resolve? name = other.resolve? name) := by
  intro all s
  have tidy : s.environment.Tidy := Session.perform_all_tidy Environment.empty_tidy all
  have created (entry : Entry) : (s.environment.create entry).2.Tidy :=
    ⟨tidy.increasing, tidy.trimmed⟩
  refine ⟨rfl, ?_, ?_, ?_, ?_, ?_, ?_⟩
  · intro name
    refine ⟨?_, rfl⟩
    have resolves := Session.perform_all_resolves Session.blank all name
    exact resolves.trans Option.or_none
  · intro name shared
    exact Environment.exchange_replaced tidy name shared
  · intro name entry
    have replaced := Environment.exchange_replaced (created entry) name
      (s.environment.create entry).1
    refine ⟨replaced, ?_, rfl⟩
    have resolves := Environment.resolve?_assign s.environment name name entry
    rw [if_pos rfl] at resolves
    exact resolves
  · exact Environment.names_bytes tidy
  · exact Environment.mem_names_iff tidy
  · intro a b different
    exact ⟨Session.share_commutes tidy different, Session.assign_commutes_share tidy different,
      Session.assign_commutes tidy different⟩

theorem environment_is_last_writer_map_after_lines :
    let operations : List Session.Operation := [.run "x = 1", .run "y=x", .run "x =\t2"]
    let s := Session.blank.performAll (.assign "console" Console.entry :: operations)
    s.environment.names = ["console", "x", "y"] ∧ Text.trim "\u00a0x" ≠ Text.trim "y " ∧
      ∀ first second, ((s.share "\u00a0x" first).2.share "y " second).2 =
        ((s.share "y " second).2.share "\u00a0x" first).2 := by
  intro operations s
  have different : Text.trim "\u00a0x" ≠ Text.trim "y " := by decide
  have commute := (environment_is_last_writer_map operations).2.2.2.2.2.2 _ _ different
  exact ⟨rfl, different, commute.1⟩

end LineShell
