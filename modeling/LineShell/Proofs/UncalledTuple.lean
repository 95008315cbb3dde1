import LineShell.Proofs.Assignment
import LineShell.Proofs.NormalForm
import LineShell.Proofs.Rendering

/-!
Tuples that call nothing. A tuple calls the function before it at the moment it is pushed. What is
left of a receiver, a dot and a name is not pushed, so a tuple that is looked up after a function
calls nothing. Main statement: there is no other such tuple; if a line completes with a function and
a tuple after it, then an object is written right after the function, and the tuple is the member
that a path leads to from there.
-/

namespace LineShell

open Literal (byteSize IsIdentifier keywords)

/-- A dot and a name after it, as they are scanned. -/
structure Selector where
  dot : Nat
  text : String
  position : Nat

namespace Selector

def lexemes (selector : Selector) : List (Located Lexeme) :=
  [⟨.operator .dot, selector.dot⟩, ⟨.name selector.text, selector.position⟩]

def name (selector : Selector) : Located String :=
  ⟨Text.trim selector.text, selector.position⟩

end Selector

theorem follow_append {place reached : Place} {names : List (Located String)}
    (follows : place.follow names = .ok reached) (more : List (Located String)) :
    place.follow (names ++ more) = reached.follow more := by
  induction names generalizing place with
  | nil =>
      cases follows
      rfl
  | cons name rest induction =>
      rw [List.cons_append, Place.follow]
      rw [Place.follow] at follows
      cases member : place.member? name.item with
      | none =>
          rw [member] at follows
          cases follows
      | some next =>
          rw [member] at follows
          exact induction follows

/-- The lexemes of a path: what the first of them is resolved to leads over the names to a place. -/
def Leads (env : Environment) (lexemes : List (Located Lexeme)) (reached : Place) : Prop :=
  ∃ (base : Located Lexeme) (selectors : List Selector) (start : Token) (place : Place),
    lexemes = base :: selectors.flatMap Selector.lexemes ∧
      base.item.Resolves env base.position start ∧ start.place? = some place ∧
      place.follow (selectors.map Selector.name) = .ok reached

section Paths

variable {env : Environment} {lexemes : List (Located Lexeme)} {token : Located Token}
  {reached : Place}

theorem stands_leads (stands : token.Stands env (lexemes.map Located.unread))
    (place : token.item.place? = some reached) : Leads env lexemes reached := by
  generalize pushed : lexemes.map Located.unread = part at stands
  induction stands generalizing lexemes reached with
  | resolved resolves =>
      obtain ⟨lexeme, rfl, rfl⟩ := List.map_eq_singleton_iff.mp pushed
      exact ⟨lexeme, [], _, reached, rfl, lexeme_resolves resolves, place, rfl⟩
  | folded _ _ resolves folds induction =>
      obtain ⟨front, _, rfl, frontPushed, lastPushed⟩ := List.map_eq_append_iff.mp pushed
      obtain ⟨⟨_, dot⟩, _, rfl, dotSame, namePushed⟩ := List.map_eq_cons_iff.mp lastPushed
      obtain ⟨⟨item, position⟩, rfl, rfl⟩ := List.map_eq_singleton_iff.mp namePushed
      cases dotSame
      obtain ⟨name, receiver, next, named, receives, member, rfl⟩ := folded_member folds
      rw [place_of_token, Option.some.injEq] at place
      subst place
      obtain ⟨text, rfl, rfl, _⟩ := resolved_named (lexeme_resolves resolves) named
      -- The receiver stands for a path by itself, and this is one more selector after it.
      obtain ⟨base, selectors, start, origin, rfl, first, begins, follows⟩ :=
        induction receives frontPushed
      refine ⟨base, selectors ++ [⟨dot, text, position⟩], start, origin, ?_, first, begins, ?_⟩
      · rw [List.flatMap_append]
        rfl
      · rw [List.map_append, follow_append follows]
        simp only [List.map_singleton, Selector.name, Place.follow, member]

theorem callable_path_ends_in_name {callable : Callable}
    (leads : Leads env lexemes (.callable callable)) :
    ∃ front text position, lexemes = front ++ [⟨.name text, position⟩] := by
  obtain ⟨⟨item, origin⟩, selectors, start, place, rfl, resolves, begins, follows⟩ := leads
  rcases List.eq_nil_or_concat selectors with rfl | ⟨others, last, rfl⟩
  · cases follows
    cases resolves <;> cases begins
  · refine ⟨⟨item, origin⟩ :: others.flatMap Selector.lexemes ++ [⟨.operator .dot, last.dot⟩],
      last.text, last.position, ?_⟩
    simp [Selector.lexemes]

theorem member_of_object {value : Value} {names : List (Located String)} (nonempty : names ≠ [])
    (follows : (Place.value value).follow names = .ok reached) : value.shape? = some .object := by
  cases names with
  | nil => exact absurd rfl nonempty
  | cons name rest =>
      cases value with
      | object members => rfl
      | undefined | null | bool | integer | real | string | tuple | array => cases follows

end Paths

namespace Pending

/-- What two tokens stand for comes one after the other, and is more than one token for the
second. -/
def LooksUp (env : Environment) (given : List (Located Token)) (first second : Located Token) :
    Prop :=
  ∃ before path lookup after, given = before ++ path ++ lookup ++ after ∧
    first.Stands env path ∧ second.Stands env lookup ∧ 1 < lookup.length

/-- Every tuple that comes after a function was looked up. -/
def Uncalled (env : Environment) (given : List (Located Token)) (pending : Pending) : Prop :=
  ∀ newer older tuple function arguments callable, pending = newer ++ tuple :: function :: older →
    tuple.item = .literal (.tuple arguments) → function.item = .function callable →
      LooksUp env given function tuple

section Pushes

variable {env : Environment} {given : List (Located Token)} {pending : Pending}
  {token : Located Token}

theorem tuple_calls {arguments : List Value} (callable : Callable) (place : Nat) (rest : Pending)
    (resolves : token.item.resolve env token.position = .ok (.literal (.tuple arguments))) :
    (push (⟨.function callable, place⟩ :: rest) env token.item token.position).progress ≠
      .ok .proceed := by
  intro proceeds
  simp only [push, resolves, reduce] at proceeds
  cases replied : Call.reply ⟨callable, arguments, token.position⟩ with
  | mk written result =>
      rw [replied] at proceeds
      cases result <;> cases proceeds

theorem looks_up_further {first second : Located Token} (looks : LooksUp env given first second)
    (token : Located Token) : LooksUp env (given ++ [token]) first second := by
  obtain ⟨before, path, lookup, after, rfl, called, looked⟩ := looks
  exact ⟨before, path, lookup, after ++ [token], List.append_assoc _ _ _, called, looked⟩

theorem folded_looks_up {resolved : Token} {dot : Nat} {receiver member below : Located Token}
    {rest : Pending}
    (spans : Spans env given (⟨.operator .dot, dot⟩ :: receiver :: below :: rest))
    (resolves : token.item.resolve env token.position = .ok resolved)
    (folds : fold receiver ⟨resolved, token.position⟩ = .ok member) :
    LooksUp env (given ++ [token]) below member := by
  obtain ⟨_, path, rfl, belowSpans, receiverStands⟩ := spans_dotted spans
  cases belowSpans with
  | @more before _ _ _ _ belowStands =>
      have stands := receiverStands.folded dot resolves folds
      refine ⟨before, _, _, [], ?_, belowStands, stands, by simp⟩
      simp

/-- One push. A tuple that is pushed onto a function calls it, so the line does not go on. -/
theorem push_uncalled (spans : pending.Spans env given) (uncalled : pending.Uncalled env given)
    (proceeds : (pending.push env token.item token.position).progress = .ok .proceed) :
    Uncalled env (given ++ [token]) (pending.push env token.item token.position).pending := by
  have takes := push_takes proceeds
  generalize (pending.push env token.item token.position).pending = next at takes
  intro newer older tuple function arguments callable same isTuple isFunction
  cases takes with
  | kept resolves =>
      cases newer with
      | nil =>
          obtain ⟨rfl, rfl⟩ := List.cons.inj same
          obtain ⟨item, place⟩ := function
          subst isFunction isTuple
          exact absurd proceeds (tuple_calls callable place older resolves)
      | cons top others =>
          have looks := uncalled others older _ _ _ _ (List.cons.inj same).2 isTuple isFunction
          exact looks_up_further looks token
  | @folded resolved dot receiver member rest resolves dotted folds =>
      subst dotted
      cases newer with
      | nil =>
          obtain ⟨rfl, rfl⟩ := List.cons.inj same
          exact folded_looks_up spans resolves folds
      | cons top others =>
          obtain rfl : rest = others ++ tuple :: function :: older := (List.cons.inj same).2
          have looks := uncalled (⟨.operator .dot, dot⟩ :: receiver :: others) older _ _ _ _ rfl
            isTuple isFunction
          exact looks_up_further looks token

theorem reaches_uncalled (reaches : pending.Reaches env given) : pending.Uncalled env given := by
  induction reaches with
  | none =>
      intro newer older tuple function arguments callable same
      simp at same
  | push reaches token proceeds uncalled =>
      exact push_uncalled (reaches_spans reaches) uncalled proceeds

end Pushes
end Pending

theorem orderly_next {last : Option Lexeme} {front rest : List Lexeme} {item next : Lexeme}
    (orderly : Orderly last (front ++ item :: next :: rest)) :
    next.canFollow (some item) = true := by
  induction front generalizing last with
  | nil => exact orderly.2.2.1
  | cons first others induction => exact induction orderly.2.2

theorem object_closing {source : String} {lexemes : List (Located Lexeme)} {closing : Char}
    {text : String} {position : Nat} (scanned : scan source = .ok lexemes)
    (member : ⟨.capture .object closing text, position⟩ ∈ lexemes) : closing = '}' := by
  obtain ⟨e, shape, rfl, _⟩ := scan_enclosed scanned _ (List.mem_map_of_mem member)
  cases e with
  | quote q => cases shape
  | bracket b =>
      cases b with
      | curly => rfl
      | round | square => cases shape

theorem pending_of_tokens {pending : Pending} {front back : List Token} {first second : Token}
    (tokens : pending.tokens = front ++ first :: second :: back) :
    ∃ newer older above below, pending = newer ++ above :: below :: older ∧
      above.item = second ∧ below.item = first := by
  obtain ⟨older, others, turned, _, rest⟩ := List.map_eq_append_iff.mp tokens
  obtain ⟨below, upper, rfl, isFirst, rest⟩ := List.map_eq_cons_iff.mp rest
  obtain ⟨above, newer, rfl, isSecond, _⟩ := List.map_eq_cons_iff.mp rest
  refine ⟨newer.reverse, older.reverse, above, below, ?_, isSecond, isFirst⟩
  rw [← List.reverse_reverse pending, turned]
  simp

section Lines

variable {env : Environment} {source : String} {before path lookup after : List (Located Lexeme)}
  {callable : Callable} {arguments : List Value}

/-- After the name that a function is called by there is no other name, so what is looked up begins
with a delimited text, and only an object has members. -/
theorem lookup_begins_with_object (scanned : scan source = .ok (before ++ path ++ lookup ++ after))
    (called : Leads env path (.callable callable))
    (looked : Leads env lookup (.value (.tuple arguments))) (long : 1 < lookup.length) :
    ∃ text place object selectors, selectors ≠ [] ∧
      lookup = ⟨.capture .object '}' text, place⟩ :: selectors.flatMap Selector.lexemes ∧
      env.valueOf .object text place = .ok object ∧
      (Place.value object).follow (selectors.map Selector.name) =
        .ok (.value (.tuple arguments)) := by
  obtain ⟨front, word, wordPosition, rfl⟩ := callable_path_ends_in_name called
  obtain ⟨⟨item, place⟩, selectors, start, origin, rfl, resolves, begins, follows⟩ := looked
  have selected : selectors ≠ [] := by
    rintro rfl
    simp at long
  have noName (text : String) : item ≠ .name text := by
    rintro rfl
    have order := scan_orderly scanned
    simp only [List.map_append, List.map_cons, List.append_assoc, List.cons_append,
      List.nil_append] at order
    rw [← List.append_assoc] at order
    cases orderly_next order
  cases resolves with
  | number | bound | unbound => exact absurd rfl (noName _)
  | space | operator => cases begins
  | @delimited shape closing text object read =>
      cases begins
      have names : selectors.map Selector.name ≠ [] := by simpa using selected
      have shaped := Environment.value_of_shape read
      rw [member_of_object names follows, Option.some.injEq] at shaped
      subst shaped
      obtain rfl := @object_closing source _ closing text place scanned (by simp)
      exact ⟨text, place, object, selectors, selected, rfl, read, follows⟩

end Lines

section Members

theorem member_after_capture_pulls (key : PathName) (position : Nat) :
    (Scanner.gap none).pulls position ('.' :: key.text.toList) =
      [⟨.ok ⟨.operator .dot, position⟩, 0⟩, ⟨.ok ⟨.name key.text, position + 1⟩, 0⟩] := by
  have stepped : (Scanner.gap none).step position '.' = .ok (none, .operator .dot position) :=
    Scanner.step_dot_character position rfl
  have named := Scanner.member_pulls position (position + '.'.utf8Size) [] all_blank_nil key
  rw [List.append_nil, List.nil_append] at named
  rw [Scanner.pulls_of_silent stepped, named]
  rfl

variable {env : Environment} {path : Path} {callable : Callable} {inside : List Char}
  {object value : Value} {key : PathName}

/-- A member that is looked up right after a function calls nothing, whatever it is. -/
theorem member_after_function_evaluates (reaches : env.reach path = .ok (.callable callable))
    (balanced : Balanced inside)
    (reads : env.valueOf .object (String.ofList inside) (byteSize path.text) = .ok object)
    (found : object.under key.text = some value) :
    evaluate env (String.ofList (path.text ++ '{' :: inside ++ '}' :: '.' :: key.text.toList)) =
      ⟨.ok (.completed [.function callable, .literal value]), none, env⟩ := by
  have evaluated := bracket_evaluates .curly reaches balanced ('.' :: key.text.toList)
  simp only [Bracket.opener, Bracket.closer, Bracket.shape, member_after_capture_pulls]
    at evaluated
  rw [evaluated]
  have shaped := Environment.value_of_shape reads
  cases object with
  | undefined | null | bool | integer | real | string | tuple | array => cases shaped
  | object members =>
      have captured : Pending.push [⟨.function callable, 0⟩] env
          (.lexeme (.capture .object '}' (String.ofList inside))) (byteSize path.text) =
            ⟨[⟨.literal (.object members), byteSize path.text⟩, ⟨.function callable, 0⟩], none,
              .ok .proceed⟩ := by
        simp only [Pending.push, Token.resolve, reads, Pending.reduce]
      have dotted (dot : Nat) : Pending.push
          [⟨.literal (.object members), byteSize path.text⟩, ⟨.function callable, 0⟩] env
          (.operator .dot) dot =
            ⟨[⟨.operator .dot, dot⟩, ⟨.literal (.object members), byteSize path.text⟩,
              ⟨.function callable, 0⟩], none, .ok .proceed⟩ := by
        simp only [Pending.push, Token.resolve, Pending.reduce]
      have member (position : Nat) : Token.member
          ⟨.literal (.object members), byteSize path.text⟩ key.text position =
            .ok (.literal value) := by
        simp only [Token.member, value_member_under, found]
      simp only [Evaluation.consume, captured, dotted, push_found_member env _ (member _)]
      rfl

end Members

/-- In every session, if a line completes with a function and a tuple right after it, then the
function is what a path in the line leads to, an object is written right after the path, and dots
and names after the object lead from it to the tuple. And whatever a name after such an object leads
to, it calls nothing. -/
theorem uncalled_tuples_are_looked_up (s : Session) :
    (∀ source front back callable arguments,
      (s.run source).1.outcome = .ok (.completed
        (front ++ .function callable :: .literal (.tuple arguments) :: back)) →
      ∃ before path text place object selectors after,
        scan source = .ok (before ++ path ++ (⟨.capture .object '}' text, place⟩ ::
          selectors.flatMap Selector.lexemes) ++ after) ∧
        Leads s.environment path (.callable callable) ∧ selectors ≠ [] ∧
        s.environment.valueOf .object text place = .ok object ∧
        (Place.value object).follow (selectors.map Selector.name) =
          .ok (.value (.tuple arguments))) ∧
    ∀ (path : Path) (callable : Callable) (inside : List Char) (object : Value) (key : PathName)
      (value : Value), s.environment.reach path = .ok (.callable callable) → Balanced inside →
      s.environment.valueOf .object (String.ofList inside) (byteSize path.text) = .ok object →
      object.under key.text = some value →
        (s.run (String.ofList (path.text ++ '{' :: inside ++ '}' :: '.' :: key.text.toList))).1 =
          ⟨.ok (.completed [.function callable, .literal value]), none, s.environment⟩ := by
  constructor
  · intro source front back callable arguments completed
    obtain ⟨lexemes, scanned, reaches⟩ := Session.line_reaches completed (by simp)
    obtain ⟨tokens, _⟩ := finishes_completed (Session.line_finishes completed (by simp))
    obtain ⟨newer, older, tuple, function, left, isTuple, isFunction⟩ :=
      pending_of_tokens tokens.symm
    obtain ⟨_, _, _, _, whole, functionStands, tupleStands, long⟩ :=
      Pending.reaches_uncalled reaches _ _ _ _ _ _ left isTuple isFunction
    obtain ⟨_, after, rfl, throughLookup, _⟩ := List.map_eq_append_iff.mp whole
    obtain ⟨_, lookup, rfl, throughPath, rfl⟩ := List.map_eq_append_iff.mp throughLookup
    obtain ⟨before, path, rfl, _, rfl⟩ := List.map_eq_append_iff.mp throughPath
    have called : Leads s.environment path (.callable callable) :=
      stands_leads functionStands (by rw [isFunction]; rfl)
    have looked : Leads s.environment lookup (.value (.tuple arguments)) :=
      stands_leads tupleStands (by rw [isTuple]; rfl)
    rw [List.length_map] at long
    obtain ⟨text, place, object, selectors, selected, rfl, read, follows⟩ :=
      lookup_begins_with_object scanned called looked long
    exact ⟨before, path, text, place, object, selectors, after, scanned, called, selected, read,
      follows⟩
  · intro path callable inside object key value reaches balanced reads found
    rw [Session.run_evaluates]
    exact member_after_function_evaluates reaches balanced reads found

theorem tuple_member_composes {key : String} (identifier : IsIdentifier key)
    (free : key ∉ keywords) :
    Composes .curly (key.toList ++ ": (1)".toList) (.object [(key, .tuple [.integer 1])]) := by
  have one : Spells "(1)".toList (.tuple [.integer 1]) :=
    composes_spells (.tuple (last_item_spells (integer_spells 1)))
  exact .object (last_member_spells identifier free one)

/-- The name that leads to the tuple is bound to the console, and there are blanks around the first
dot. -/
theorem uncalled_tuple_under_bound_name :
    ∃ path : Path, path.text = "console .\tlog".toList ∧
      Session.initial.environment.reach path = .ok (.callable ⟨"log", Console.log⟩) ∧
      Balanced "console: (1)".toList ∧
      Session.initial.environment.valueOf .object "console: (1)" (byteSize path.text) =
        .ok (.object [("console", .tuple [.integer 1])]) ∧
      (Session.initial.run "console .\tlog\x7bconsole: (1)\x7d.console").1 =
        ⟨.ok (.completed [.function ⟨"log", Console.log⟩, .literal (.tuple [.integer 1])]), none,
          Session.initial.environment⟩ ∧
      ∃ object selectors, selectors ≠ [] ∧
        (Place.value object).follow (selectors.map Selector.name) =
          .ok (.value (.tuple [.integer 1])) := by
  have identifier : IsIdentifier "console" :=
    ⟨'c', "onsole".toList, by decide, by decide, List.all_eq_true.mp (by decide)⟩
  have composes := tuple_member_composes identifier (by decide)
  have space : AllBlank [' '] := by simp [AllBlank, IsBlank]
  have tab : AllBlank ['\t'] := by simp [AllBlank, IsBlank]
  have reaches := @Console.log_reached Session.initial.environment _ rfl rfl _ _ space tab
  have balanced := composes_balanced composes
  have reads := composes_value composes Session.initial.environment
    (byteSize (Console.logPath space tab).text)
  obtain ⟨only, uncalled⟩ := uncalled_tuples_are_looked_up Session.initial
  have left := uncalled _ _ _ _ Console.name (.tuple [.integer 1]) reaches balanced reads rfl
  have text : (Console.logPath space tab).text = "console .\tlog".toList := by
    rw [Console.log_path_text]
    decide
  have inside : "console".toList ++ ": (1)".toList = "console: (1)".toList := by decide
  have line : String.ofList ("console .\tlog".toList ++ '{' :: "console: (1)".toList ++
      '}' :: '.' :: Console.name.text.toList) =
        "console .\tlog\x7bconsole: (1)\x7d.console" := by decide
  rw [inside] at balanced reads left
  rw [String.ofList_toList] at reads
  rw [text, line] at left
  obtain ⟨_, _, _, _, object, selectors, _, _, _, selected, _, follows⟩ :=
    only _ [] [] _ _ (congrArg Evaluation.outcome left)
  exact ⟨Console.logPath space tab, text, reaches, balanced, reads, left, object, selectors,
    selected, follows⟩

/-- A tuple is left after the log of the console, which would write it. -/
theorem tuple_after_log_is_left_uncalled :
    (Session.initial.run "console.log\x7ba: (1)\x7d.a").1.outcome =
      .ok (.completed [.function ⟨"log", Console.log⟩, .literal (.tuple [.integer 1])]) := by
  have identifier : IsIdentifier "a" := ⟨'a', [], by decide, by decide, List.forall_mem_nil _⟩
  have composes := tuple_member_composes identifier (by decide)
  have reaches := @Console.log_reached Session.initial.environment _ rfl rfl _ _ all_blank_nil
    all_blank_nil
  have reads := composes_value composes Session.initial.environment
    (byteSize (Console.logPath all_blank_nil all_blank_nil).text)
  have left := @member_after_function_evaluates _ _ _ _ _ (.tuple [.integer 1])
    ⟨"a", by decide, by decide, by decide, by decide⟩ reaches (composes_balanced composes) reads rfl
  have line : String.ofList (("console".toList ++ ([] ++ '.' :: [] ++ "log".toList)) ++
      '{' :: ("a".toList ++ ": (1)".toList) ++ '}' :: '.' :: "a".toList) =
        "console.log\x7ba: (1)\x7d.a" := by decide
  rw [Console.log_path_text, line] at left
  rw [Session.run_evaluates, left]

end LineShell
