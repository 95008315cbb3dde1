import LineShell.Proofs.Reduction
import LineShell.Proofs.ScriptLines

/-!
What lines assign to. The token on the left of an assignment has a name, and a member has none of
its own; so the line begins with a name and the equals sign comes right after it. Main statements: a
line with a dot before its first equals sign assigns nothing, and the empty name is bound by lines
that begin with a name of nothing but blanks, and by no other. Such blanks are not among the four
that separate lexemes.
-/

namespace LineShell

/-- The entry that a token gives to the name it is assigned to: a value gives a new one, a reference
the one it has. -/
def Token.supplied? (env : Environment) : Token → Option Shared
  | .literal value => some ⟨⟨env.created, []⟩, .mk (some value) .empty⟩
  | .reference _ shared _ => some shared
  | _ => none

section Targets

variable {env : Environment} {name : String}

theorem place_unnamed (place : Place) : place.token.bareName? = none := by
  cases place <;> rfl

theorem resolved_named {item : Lexeme} {position : Nat} {token : Token}
    (resolves : item.Resolves env position token) (named : token.bareName? = some name) :
    ∃ text, item = .name text ∧ Text.trim text = name ∧ Numeral.read name = none := by
  cases resolves with
  | bound unread | unbound unread =>
      cases named
      exact ⟨_, rfl, rfl, unread⟩
  | number | delimited | space | operator => cases named

theorem named_stands {lexemes : List (Located Lexeme)} {token : Located Token}
    (stands : token.Stands env (lexemes.map Located.unread))
    (named : token.item.bareName? = some name) :
    ∃ text, lexemes = [⟨.name text, token.position⟩] ∧ Text.trim text = name ∧
      Numeral.read name = none := by
  generalize pushed : lexemes.map Located.unread = part at stands
  cases stands with
  | resolved resolves =>
      obtain ⟨⟨item, position⟩, rfl, rfl⟩ := List.map_eq_singleton_iff.mp pushed
      obtain ⟨text, rfl, trimmed, unread⟩ := resolved_named (lexeme_resolves resolves) named
      exact ⟨text, rfl, trimmed, unread⟩
  | folded _ _ _ folds =>
      obtain ⟨place, rfl⟩ := folded_place folds
      rw [place_unnamed] at named
      cases named

theorem operator_lexeme {lexemes : List (Located Lexeme)} {op : Operator} {position : Nat}
    (stands : Located.Stands env (lexemes.map Located.unread) ⟨.operator op, position⟩) :
    lexemes = [⟨.operator op, position⟩] := by
  obtain ⟨⟨item, place⟩, rfl, same⟩ := List.map_eq_singleton_iff.mp (operator_stands stands)
  cases same
  rfl

theorem spans_assignment {lexemes : List (Located Lexeme)} {value target : Located Token}
    {sign : Nat} (spans : Pending.Spans env (lexemes.map Located.unread)
      [value, ⟨.operator .assign, sign⟩, target])
    (named : target.item.bareName? = some name) :
    ∃ text rest, lexemes = ⟨.name text, target.position⟩ :: ⟨.operator .assign, sign⟩ :: rest ∧
      Text.trim text = name ∧ Numeral.read name = none := by
  generalize pushed : lexemes.map Located.unread = given at spans
  cases spans with
  | more withSign _ =>
      obtain ⟨front, rest, rfl, frontPushed, _⟩ := List.map_eq_append_iff.mp pushed
      cases withSign with
      | more withTarget signStands =>
          obtain ⟨targets, signs, rfl, targetPushed, rfl⟩ := List.map_eq_append_iff.mp frontPushed
          cases withTarget with
          | more nothing targetStands =>
              cases nothing
              rw [List.nil_append] at targetPushed
              subst targetPushed
              obtain ⟨text, rfl, trimmed, unread⟩ := named_stands targetStands named
              obtain rfl := operator_lexeme signStands
              exact ⟨text, rest, rfl, trimmed, unread⟩

theorem finishes_assigned {left : Pending} {after : Environment}
    (finishes : Pending.Finishes env left (.assigned name, after)) :
    ∃ target value sign shared, left = [value, ⟨.operator .assign, sign⟩, target] ∧
      target.item.bareName? = some name ∧ value.item.supplied? env = some shared ∧
      ∀ other, after.resolve? other =
        if Text.trim other = Text.trim name then some shared else env.resolve? other := by
  cases finishes with
  | literal named right sign origin =>
      refine ⟨⟨_, origin⟩, ⟨_, right⟩, sign, _, rfl, named, rfl, ?_⟩
      intro other
      exact Environment.resolve?_assign env name other _
  | reference named right sign origin =>
      refine ⟨⟨_, origin⟩, ⟨_, right⟩, sign, _, rfl, named, rfl, ?_⟩
      intro other
      exact Environment.resolve?_bind env name other _

end Targets

namespace Session

variable {s : Session} {source name : String}

theorem assigned_lexemes (assigned : (s.run source).1.outcome = .ok (.assigned name)) :
    ∃ text origin sign rest,
      scan source = .ok (⟨.name text, origin⟩ :: ⟨.operator .assign, sign⟩ :: rest) ∧
      Text.trim text = name ∧ Numeral.read name = none := by
  obtain ⟨lexemes, scanned, reaches⟩ := line_reaches assigned (by simp)
  obtain ⟨target, value, sign, shared, left, named, _, _⟩ :=
    finishes_assigned (line_finishes assigned (by simp))
  have spans := reaches_spans reaches
  rw [left] at spans
  obtain ⟨text, rest, rfl, trimmed, unread⟩ := spans_assignment spans named
  exact ⟨text, target.position, sign, rest, scanned, trimmed, unread⟩

/-- The name gets what the right side supplies, and no other name gets anything. -/
theorem assigned_binds (assigned : (s.run source).1.outcome = .ok (.assigned name)) :
    ∃ target value shared, (s.reduced source).tokens = [target, .operator .assign, value] ∧
      target.bareName? = some name ∧ value.supplied? s.environment = some shared ∧
      ∀ other, (s.run source).2.environment.resolve? other =
        if Text.trim other = Text.trim name then some shared
        else s.environment.resolve? other := by
  obtain ⟨target, value, sign, shared, left, named, supplied, binds⟩ :=
    finishes_assigned (line_finishes assigned (by simp))
  refine ⟨target.item, value.item, shared, ?_, named, supplied, binds⟩
  rw [left]
  rfl

theorem unassigned_keeps
    (unassigned : ∀ name, (s.run source).1.outcome ≠ .ok (.assigned name)) :
    (s.run source).2.environment = s.environment := by
  have concludes := s.run_concludes source
  have kept : (s.run source).2.environment = (s.run source).1.environment := rfl
  rw [kept]
  generalize (s.run source).1 = evaluation, s.calls source = calls, s.reduced source = left at *
  cases concludes with
  | finished finishes =>
      cases finishes with
      | completes => rfl
      | literal | reference => exact absurd rfl (unassigned _)
  | failed | called => rfl

end Session

def Scanner.given (source : String) : List Lexeme :=
  (pullsOf source).filterMap fun pull => pull.result.toOption.map Located.item

theorem Scanner.given_of_scanned {source : String} {lexemes : List (Located Lexeme)}
    (scanned : scan source = .ok lexemes) : given source = lexemes.map Located.item := by
  have results := collected_results scanned
  have same : given source = ((pullsOf source).map Pull.result).filterMap fun result =>
      result.toOption.map Located.item := by
    rw [given, List.filterMap_map]
    rfl
  rw [same, results, List.filterMap_map]
  exact congrFun List.filterMap_eq_map lexemes

/-- If a dot comes before the first equals sign, the line assigns nothing, whatever the path before
the equals sign leads to, and the environment stays as it was. -/
theorem member_is_no_assignment_target (s : Session) (source : String)
    (dotted : .operator .dot ∈ (Scanner.given source).takeWhile (· != .operator .assign)) :
    (∀ name, (s.run source).1.outcome ≠ .ok (.assigned name)) ∧
      (s.run source).2.environment = s.environment := by
  have unassigned (name : String) : (s.run source).1.outcome ≠ .ok (.assigned name) := by
    intro assigned
    obtain ⟨text, origin, sign, rest, scanned, _, _⟩ := Session.assigned_lexemes assigned
    rw [Scanner.given_of_scanned scanned] at dotted
    simp at dotted
  exact ⟨unassigned, Session.unassigned_keeps unassigned⟩

theorem member_named_as_console_is_no_target :
    let s : Session := ⟨Environment.initial.assign "host"
      (Entry.empty.addMember "console" (Entry.ofValue (.integer 1))), []⟩
    .operator .dot ∈ (Scanner.given "host .console = 2").takeWhile (· != .operator .assign) ∧
      (∀ name, (s.run "host .console = 2").1.outcome ≠ .ok (.assigned name)) ∧
      (s.run "host .console = 2").2.environment = s.environment := by
  have dotted : .operator .dot ∈
      (Scanner.given "host .console = 2").takeWhile (· != .operator .assign) := by decide
  exact ⟨dotted, member_is_no_assignment_target _ "host .console = 2" dotted⟩

theorem Text.trim_empty : trim "" = "" := rfl

theorem Text.trim_empty_iff_blank (text : String) :
    trim text = "" ↔ text.toList.all isBlank = true := by
  rw [← trim_empty_iff, String.ofList_toList]

/-- The line begins with a name of nothing but blanks. -/
def BeginsBlank (line : String) : Prop :=
  ∃ text place rest, scan line = .ok (⟨.name text, place⟩ :: rest) ∧
    text.toList.all Text.isBlank = true

namespace Session

def after (s : Session) : List String → Session
  | [] => s
  | line :: rest => (s.run line).2.after rest

variable {s : Session} {line name : String}

theorem assigned_empty_iff (assigned : (s.run line).1.outcome = .ok (.assigned name)) :
    name = "" ↔ BeginsBlank line := by
  obtain ⟨text, origin, sign, rest, scanned, rfl, _⟩ := assigned_lexemes assigned
  rw [Text.trim_empty_iff_blank]
  constructor
  · intro blank
    exact ⟨text, origin, _, scanned, blank⟩
  · rintro ⟨other, place, others, scannedAgain, blank⟩
    rw [scanned] at scannedAgain
    cases scannedAgain
    exact blank

theorem run_binds_empty_iff (s : Session) (line : String) :
    (s.run line).2.environment.contains "" = true ↔ s.environment.contains "" = true ∨
      BeginsBlank line ∧ ∃ name, (s.run line).1.outcome = .ok (.assigned name) := by
  by_cases assigns : ∃ name, (s.run line).1.outcome = .ok (.assigned name)
  · obtain ⟨name, assigned⟩ := assigns
    obtain ⟨text, _, _, _, _, trimmed, _⟩ := assigned_lexemes assigned
    obtain ⟨target, value, shared, _, _, _, binds⟩ := assigned_binds assigned
    have same : Text.trim name = name := by rw [← trimmed, Text.trim_trimmed]
    have blank := assigned_empty_iff assigned
    rw [Environment.contains, binds, Text.trim_empty, same]
    by_cases empty : name = ""
    · rw [if_pos empty.symm]
      exact ⟨fun _ => .inr ⟨blank.mp empty, name, assigned⟩, fun _ => rfl⟩
    · rw [if_neg (Ne.symm empty)]
      constructor
      · exact .inl
      · rintro (bound | ⟨begins, _⟩)
        · exact bound
        · exact absurd (blank.mpr begins) empty
  · rw [unassigned_keeps fun name assigned => assigns ⟨name, assigned⟩]
    constructor
    · exact .inl
    · rintro (bound | ⟨_, assigned⟩)
      · exact bound
      · exact absurd assigned assigns

theorem after_binds_empty_iff (s : Session) (lines : List String) :
    (s.after lines).environment.contains "" = true ↔ s.environment.contains "" = true ∨
      ∃ front line back, lines = front ++ line :: back ∧ BeginsBlank line ∧
        ∃ name, ((s.after front).run line).1.outcome = .ok (.assigned name) := by
  induction lines generalizing s with
  | nil => simp [after]
  | cons first rest induction =>
      rw [after, induction, run_binds_empty_iff, or_assoc]
      apply or_congr_right
      constructor
      · rintro (⟨begins, assigned⟩ | ⟨front, line, back, rfl, begins, assigned⟩)
        · exact ⟨[], first, rest, rfl, begins, assigned⟩
        · exact ⟨first :: front, line, back, rfl, begins, assigned⟩
      · rintro ⟨front, line, back, split, begins, assigned⟩
        cases front with
        | nil =>
            cases split
            exact .inl ⟨begins, assigned⟩
        | cons other others =>
            cases split
            exact .inr ⟨others, line, back, rfl, begins, assigned⟩

end Session

/-- After any lines, from the beginning of a session on, the empty name is bound exactly if one of
them assigned something and began with a name of nothing but blanks; and if the next line assigns
something, its name is empty exactly if the line begins with such a name. -/
theorem empty_name_is_bound_by_blank_names_only (lines : List String) :
    ((Session.initial.after lines).environment.contains "" = true ↔
      ∃ front line back, lines = front ++ line :: back ∧ BeginsBlank line ∧
        ∃ name, ((Session.initial.after front).run line).1.outcome = .ok (.assigned name)) ∧
    ∀ line name, ((Session.initial.after lines).run line).1.outcome = .ok (.assigned name) →
      (name = "" ↔ BeginsBlank line) := by
  constructor
  · rw [Session.after_binds_empty_iff]
    exact or_iff_right (by decide)
  · intro line name assigned
    exact Session.assigned_empty_iff assigned

theorem empty_name_is_bound_after_wide_blank :
    let last := Session.initial.after ["x = 1", "\u3000 = x"]
    last.environment.contains "" = true ∧
      (last.run "\u2003\u00a0=x").1.outcome = .ok (.assigned "") ∧
      ("" = "" ↔ BeginsBlank "\u2003\u00a0=x") := by
  intro last
  have assigned : (last.run "\u2003\u00a0=x").1.outcome = .ok (.assigned "") := rfl
  exact ⟨rfl, assigned, (empty_name_is_bound_by_blank_names_only _).2 _ _ assigned⟩

/-- A no-break space before an equals sign is read as a name, and without its blanks nothing is left
of it. -/
theorem no_break_space_binds_empty_name :
    (Session.initial.run "\u00a0=1").1.outcome = .ok (.assigned "") ∧
      (Session.initial.run "\u00a0=1").2.environment.contains "" = true := ⟨rfl, rfl⟩

end LineShell
