import LineShell.Proofs.DottedPath
import LineShell.Proofs.Spelling
import LineShell.Session

/-!
What dotted paths and calls mean. A path leads from an entry over its members to an entry, a
callable or a value, and the first name that leads nowhere is an error at the place of that name.
Tokens are reduced one after the other as they are scanned, and a member's name may be bound to
something else. Main statement: running a path is looking up its members one in the other, and a
tuple right after a path to a callable calls it.
-/

namespace LineShell

open Literal (byteSize)

/-- The value under a key that comes last. -/
def lastUnder (key : String) : List (String × Value) → Option Value
  | [] => none
  | (name, value) :: rest => (lastUnder key rest).or (if name = key then some value else none)

def Value.under (key : String) : Value → Option Value
  | .object members => lastUnder key members
  | _ => none

/-- What a path can lead to. An entry is known by the last name on the way to it. -/
inductive Place where
  | entry (name : String) (shared : Shared)
  | callable (callable : Callable)
  | value (value : Value)

namespace Place

/-- The members of an entry come before the keys of its source. A callable has no members. -/
def member? : Place → String → Option Place
  | entry _ shared, key =>
    match shared.entry.member? key with
    | some (.entry nested) =>
      some (entry key ⟨⟨shared.identity.serial, shared.identity.path ++ [key]⟩, nested⟩)
    | some (.callable found) => some (callable found)
    | none => (shared.entry.source.bind (Value.under key)).map value
  | callable _, _ => none
  | value found, key => (found.under key).map value

def follow (place : Place) : List (Located String) → Except Error Place
  | [] => .ok place
  | name :: rest =>
    match place.member? name.item with
    | some next => next.follow rest
    | none => .error ⟨.memberNotFound name.item, name.position⟩

def token : Place → Token
  | entry name shared => .reference name shared .member
  | callable found => .function found
  | value found => .literal found

end Place

def Environment.reach (env : Environment) (path : Path) : Except Error Place :=
  match env.resolve? path.first.text with
  | none => .error ⟨.unknownReference path.first.text, 0⟩
  | some shared => (Place.entry path.first.text shared).follow path.members

/-- The place a receiver stands for, whether it was found in the environment or is a member. -/
def Token.place? : Token → Option Place
  | .lexeme _ => none
  | .reference name shared _ => some (.entry name shared)
  | .function callable => some (.callable callable)
  | .literal value => some (.value value)

theorem place_of_token (place : Place) : place.token.place? = some place := by
  cases place <;> rfl

theorem find_last_under (key : String) (members : List (String × Value)) :
    ((members.reverse.find? fun entry => entry.1 == key).map fun entry => entry.2) =
      lastUnder key members := by
  induction members with
  | nil => rfl
  | cons member rest induction =>
      obtain ⟨name, value⟩ := member
      rw [List.reverse_cons, List.find?_append, Option.map_or, induction, lastUnder]
      by_cases same : name = key
      · simp [same]
      · simp [same]

theorem value_member_under (value : Value) (key : String) :
    value.member? key = value.under key := by
  cases value with
  | object members => exact find_last_under key members
  | _ => rfl

theorem token_member {receiver : Located Token} {place : Place}
    (stands : receiver.item.place? = some place) (name : String) (position : Nat) :
    Token.member receiver name position =
      match place.member? name with
      | some next => .ok next.token
      | none => .error ⟨.memberNotFound name, position⟩ := by
  obtain ⟨token, origin⟩ := receiver
  cases token with
  | lexeme => cases stands
  | function => cases stands; rfl
  | literal value =>
      cases stands
      simp only [Token.member, Place.member?, value_member_under]
      cases value.under name <;> rfl
  | reference receiverName shared binding =>
      cases stands
      simp only [Token.member, Place.member?, value_member_under]
      cases shared.entry.member? name with
      | none => cases shared.entry.source.bind (Value.under name) <;> rfl
      | some member => cases member <;> rfl

section Pushes

variable (env : Environment)

def nameToken (name : PathName) : Token :=
  match env.resolve? name.text with
  | some shared => .reference name.text shared .environment
  | none => .name name.text

theorem resolve_name (name : PathName) (position : Nat) :
    (Token.name name.text).resolve env position = .ok (nameToken env name) := by
  simp only [Token.resolve, name.trimmed, name.unread, nameToken]
  cases env.resolve? name.text <;> rfl

theorem bare_name_of_name (name : PathName) :
    (nameToken env name).bareName? = some name.text := by
  unfold nameToken
  cases env.resolve? name.text with
  | none => exact congrArg some name.trimmed
  | some shared => rfl

theorem reduce_single (token : Located Token) :
    Pending.reduce [token] = ⟨[token], none, .ok .proceed⟩ := by
  unfold Pending.reduce
  split <;> simp_all

theorem push_first (name : PathName) (position : Nat) :
    Pending.push [] env (.name name.text) position =
      ⟨[⟨nameToken env name, position⟩], none, .ok .proceed⟩ := by
  simp only [Pending.push, resolve_name, reduce_single]

theorem push_dot (receiver : Located Token) (position : Nat) :
    Pending.push [receiver] env (.operator .dot) position =
      ⟨[⟨.operator .dot, position⟩, receiver], none, .ok .proceed⟩ := by
  simp only [Pending.push, Token.resolve, Pending.reduce]

theorem fold_name (receiver : Located Token) (name : PathName) (position : Nat) :
    Pending.fold receiver ⟨nameToken env name, position⟩ =
      (Token.member receiver name.text position).map fun token => ⟨token, receiver.position⟩ := by
  rw [Pending.fold, bare_name_of_name]

variable {receiver : Located Token} {name : PathName} {position : Nat} (dot : Nat)

/-- A name after a dot is looked up in the receiver, whatever it is bound to itself. -/
theorem push_found_member {member : Token} {rest : Pending}
    (found : Token.member receiver name.text position = .ok member) :
    Pending.push (⟨.operator .dot, dot⟩ :: receiver :: rest) env (.name name.text) position =
      ⟨⟨member, receiver.position⟩ :: rest, none, .ok .proceed⟩ := by
  have folded := fold_name env receiver name position
  rw [found, Except.map] at folded
  rw [Pending.push, resolve_name]
  unfold nameToken at folded ⊢
  cases bound : env.resolve? name.text <;> rw [bound] at folded <;>
    simp only [Pending.reduce, folded]

theorem push_missing_member {e : Error}
    (fails : Token.member receiver name.text position = .error e) :
    Pending.push [⟨.operator .dot, dot⟩, receiver] env (.name name.text) position =
      ⟨[⟨nameToken env name, position⟩, ⟨.operator .dot, dot⟩, receiver], none, .error e⟩ := by
  have folded := fold_name env receiver name position
  rw [fails, Except.map] at folded
  rw [Pending.push, resolve_name]
  unfold nameToken at folded ⊢
  cases bound : env.resolve? name.text <;> rw [bound] at folded <;>
    simp only [Pending.reduce, folded]

end Pushes

/-- A text that a name cannot go on with: whatever the name is, it is given first, and then what
the text gives by itself. -/
def EndsName (tail : List Char) (depth : Nat) (more : Nat → List Scanner.Pull) : Prop :=
  ∀ origin text position, (Scanner.word origin text).pulls position tail =
    ⟨.ok ⟨.name text, origin⟩, depth⟩ :: more position

section Consume

variable {tail : List Char} {depth : Nat} {more : Nat → List Scanner.Pull} (env : Environment)

theorem name_given_first (ends : EndsName tail depth more) (segments : List Segment)
    (name : PathName) (origin position : Nat) : ∃ opened others,
      (Scanner.word origin name.text).pulls position (segments.flatMap Segment.text ++ tail) =
        ⟨.ok ⟨.name name.text, origin⟩, opened⟩ :: others := by
  cases segments with
  | nil => exact ⟨_, _, ends origin name.text position⟩
  | cons segment rest =>
      rw [List.flatMap_cons, List.append_assoc]
      exact ⟨_, _, Scanner.segment_pulls _ _ _ (name_is_no_integer name) segment⟩

theorem failing_member_consumed (ends : EndsName tail depth more) {receiver : Located Token}
    {name : PathName} {origin : Nat} {e : Error}
    (fails : Token.member receiver name.text origin = .error e) (segments : List Segment)
    (dot position : Nat) :
    Evaluation.consume env [⟨.operator .dot, dot⟩, receiver]
        ((Scanner.word origin name.text).pulls position (segments.flatMap Segment.text ++ tail)) =
      ⟨.error e, none, env⟩ := by
  obtain ⟨opened, others, given⟩ := name_given_first ends segments name origin position
  simp only [given, Evaluation.consume, push_missing_member env dot fails]

/-- One segment after the other: when its name is given, the receiver is folded into the member. -/
theorem members_consumed (ends : EndsName tail depth more) {receiver : Located Token}
    {place : Place} (stands : receiver.item.place? = some place) (segments : List Segment)
    (name : PathName) (dot origin position : Nat) :
    Evaluation.consume env [⟨.operator .dot, dot⟩, receiver]
        ((Scanner.word origin name.text).pulls position (segments.flatMap Segment.text ++ tail)) =
      match place.follow (⟨name.text, origin⟩ :: Segment.names position segments) with
      | .error e => ⟨.error e, none, env⟩
      | .ok reached => Evaluation.consume env [⟨reached.token, receiver.position⟩]
          (more (position + byteSize (segments.flatMap Segment.text))) := by
  -- Before each name the tokens are a receiver and a dot; only what the receiver stands for changes.
  induction segments generalizing receiver place name dot origin position with
  | nil =>
      have member := token_member stands name.text origin
      cases found : place.member? name.text with
      | none =>
          rw [found] at member
          simp only [failing_member_consumed env ends member, Place.follow, found]
      | some next =>
          rw [found] at member
          rw [List.flatMap_nil, List.nil_append, ends]
          simp only [Evaluation.consume, push_found_member env dot member, Place.follow, found,
            Segment.names, byte_size_nil, Nat.add_zero]
  | cons segment rest induction =>
      have member := token_member stands name.text origin
      cases found : place.member? name.text with
      | none =>
          rw [found] at member
          simp only [failing_member_consumed env ends member, Place.follow, found]
      | some next =>
          rw [found] at member
          rw [List.flatMap_cons, List.append_assoc,
            Scanner.segment_pulls _ _ _ (name_is_no_integer name)]
          have others := @induction ⟨next.token, receiver.position⟩ next (place_of_token next)
          simp only [Evaluation.consume, push_found_member env dot member, push_dot, others,
            Place.follow, found, Segment.names, byte_size_append, Nat.add_assoc]

theorem path_consumed (ends : EndsName tail depth more) (path : Path) :
    Evaluation.consume env [] (Scanner.start.pulls 0 (path.text ++ tail)) =
      match env.reach path with
      | .error e => ⟨.error e, none, env⟩
      | .ok reached => Evaluation.consume env [⟨reached.token, 0⟩] (more (byteSize path.text)) := by
  obtain ⟨first, segments, nonempty⟩ := path
  cases segments with
  | nil => exact absurd rfl nonempty
  | cons segment rest =>
      have split : first.text.toList ++ (segment :: rest).flatMap Segment.text ++ tail =
          first.text.toList ++ (segment.text ++ (rest.flatMap Segment.text ++ tail)) := by
        simp only [List.flatMap_cons, List.append_assoc]
      rw [Path.text, split, Scanner.name_pulls _ _ rfl,
        Scanner.segment_pulls _ _ _ (name_is_no_integer first)]
      simp only [Evaluation.consume, push_first, push_dot, Environment.reach]
      cases bound : env.resolve? first.text with
      | none =>
          have fails : Token.member ⟨nameToken env first, 0⟩ segment.name.text
              (0 + byteSize first.text.toList + byteSize segment.lead) =
                .error ⟨.unknownReference first.text, 0⟩ := by
            simp only [nameToken, bound, Token.member, first.trimmed]
          rw [failing_member_consumed env ends fails]
      | some shared =>
          have stands : (nameToken env first).place? = some (.entry first.text shared) := by
            simp only [nameToken, bound, Token.place?]
          rw [@members_consumed _ _ _ env ends ⟨nameToken env first, 0⟩ _ stands]
          simp only [Path.members, Segment.names, Nat.zero_add, List.flatMap_cons, byte_size_append,
            Nat.add_assoc]

end Consume

theorem nothing_ends_name : EndsName [] 0 fun _ => [] := fun _ _ _ => rfl

def openedPulls (b : Bracket) (cs : List Char) (position : Nat) : List Scanner.Pull :=
  (Scanner.within position [] [⟨b.opener, position⟩]).pulls (position + b.opener.utf8Size) cs

theorem bracket_ends_name (b : Bracket) (cs : List Char) :
    EndsName (b.opener :: cs) 1 (openedPulls b cs) :=
  fun origin text position =>
    @Scanner.opening_pulls (.word origin text) rfl (.bracket b) position cs

theorem round_value_is_tuple {env : Environment} {raw : String} {position : Nat} {value : Value}
    (reads : env.valueOf .tuple raw position = .ok value) :
    ∃ arguments, value = .tuple arguments := by
  obtain ⟨tokens, literal, _, ⟨items, _, rfl⟩, rfl⟩ :=
    (Environment.value_of_composite_iff rfl env raw position value).mp reads
  exact ⟨_, Literal.tuple_value _ items⟩

section Lines

variable {env : Environment} {path : Path}

theorem path_evaluates : evaluate env (String.ofList path.text) =
    match env.reach path with
    | .error e => ⟨.error e, none, env⟩
    | .ok reached => ⟨.ok (.completed [reached.token]), none, env⟩ := by
  have consumed := path_consumed env nothing_ends_name path
  rw [List.append_nil] at consumed
  rw [evaluate, Scanner.pullsOf, String.toList_ofList, consumed]
  rfl

variable {callable : Callable} {raw : List Char}

/-- A bracketed text right after a path to a callable is pushed onto the callable alone. -/
theorem bracket_evaluates (b : Bracket) (reaches : env.reach path = .ok (.callable callable))
    (balanced : Balanced raw) (trailing : List Char) :
    evaluate env (String.ofList (path.text ++ b.opener :: raw ++ b.closer :: trailing)) =
      Evaluation.consume env [⟨.function callable, 0⟩]
        (⟨.ok ⟨.capture b.shape b.closer (String.ofList raw), byteSize path.text⟩, 0⟩ ::
          (Scanner.gap none).pulls
            (byteSize path.text + b.opener.utf8Size + byteSize raw + b.closer.utf8Size)
            trailing) := by
  have consumed := path_consumed env (bracket_ends_name b (raw ++ b.closer :: trailing)) path
  have closed := Scanner.closed_pulls (.bracket b) (byteSize path.text)
    (byteSize path.text + b.opener.utf8Size) balanced trailing
  rw [reaches] at consumed
  have line : evaluate env (String.ofList (path.text ++ b.opener :: raw ++ b.closer :: trailing)) =
      Evaluation.consume env [⟨.function callable, 0⟩]
        (openedPulls b (raw ++ b.closer :: trailing) (byteSize path.text)) := by
    rw [evaluate, Scanner.pullsOf, String.toList_ofList, List.append_assoc, List.cons_append]
    exact consumed
  exact line.trans (congrArg (Evaluation.consume env _) closed)

theorem call_evaluates (reaches : env.reach path = .ok (.callable callable))
    (balanced : Balanced raw) (trailing : List Char) {arguments : List Value}
    (reads : env.valueOf .tuple (String.ofList raw) (byteSize path.text) =
      .ok (.tuple arguments)) :
    let call : Call := ⟨callable, arguments, byteSize path.text⟩
    evaluate env (String.ofList (path.text ++ '(' :: raw ++ ')' :: trailing)) =
      ⟨call.reply.result.map .invoked, some call, env⟩ := by
  have evaluated := bracket_evaluates .round reaches balanced trailing
  intro call
  simp only [Bracket.opener, Bracket.closer, Bracket.shape] at evaluated
  rw [evaluated]
  simp only [Evaluation.consume, Pending.push, Token.resolve, reads, Pending.reduce]
  cases call.reply.result <;> rfl

theorem malformed_call_evaluates (reaches : env.reach path = .ok (.callable callable))
    (balanced : Balanced raw) (trailing : List Char) {e : Error}
    (malformed : env.valueOf .tuple (String.ofList raw) (byteSize path.text) = .error e) :
    evaluate env (String.ofList (path.text ++ '(' :: raw ++ ')' :: trailing)) =
      ⟨.error e, none, env⟩ := by
  have evaluated := bracket_evaluates .round reaches balanced trailing
  simp only [Bracket.opener, Bracket.closer, Bracket.shape] at evaluated
  rw [evaluated]
  simp only [Evaluation.consume, Pending.push, Token.resolve, malformed]

end Lines

namespace Console

def name : PathName := ⟨"console", by decide, by decide, by decide, by decide⟩

def logName : PathName := ⟨"log", by decide, by decide, by decide, by decide⟩

def logPath {before after : List Char} (beforeBlank : AllBlank before)
    (afterBlank : AllBlank after) : Path where
  first := name
  segments := [⟨before, after, logName, beforeBlank, afterBlank⟩]
  nonempty := List.cons_ne_nil _ _

theorem log_path_text {before after : List Char} (beforeBlank : AllBlank before)
    (afterBlank : AllBlank after) : (logPath beforeBlank afterBlank).text =
      "console".toList ++ (before ++ '.' :: after ++ "log".toList) :=
  congrArg ("console".toList ++ ·) (List.append_nil _)

theorem entry_has_log : entry.member? "log" = some (.callable ⟨"log", log⟩) := by
  have inserted := NameMap.get?_insert Entry.empty.members "log" "log" (.callable ⟨"log", log⟩)
  rw [if_pos rfl] at inserted
  exact inserted

theorem log_reached {env : Environment} {shared : Shared}
    (bound : env.resolve? "console" = some shared) (bootstrap : shared.entry = entry)
    {before after : List Char} (beforeBlank : AllBlank before) (afterBlank : AllBlank after) :
    env.reach (logPath beforeBlank afterBlank) = .ok (.callable ⟨"log", log⟩) := by
  have first : env.resolve? (logPath beforeBlank afterBlank).first.text = some shared := bound
  rw [Environment.reach, first]
  simp only [logPath, Path.members, Segment.names, Place.follow, Place.member?, logName, bootstrap,
    entry_has_log]

end Console

theorem Session.run_evaluates (s : Session) (line : String) :
    (s.run line).1 = evaluate s.environment line := rfl

/-- A line that is a path gives what the path leads to, or the error of the first name that leads
nowhere; nothing is called or bound. If the path leads to a callable, a bracketed text right after
it calls the callable with the values in it, and the rest of the line is not read; unless the text
is malformed. -/
theorem dotted_path_is_member_lookup (s : Session) (path : Path) :
    (s.run (String.ofList path.text)).1 = (match s.environment.reach path with
      | .error e => ⟨.error e, none, s.environment⟩
      | .ok reached => ⟨.ok (.completed [reached.token]), none, s.environment⟩) ∧
    ∀ callable raw trailing, s.environment.reach path = .ok (.callable callable) → Balanced raw →
      let position := byteSize path.text
      let line := String.ofList (path.text ++ '(' :: raw ++ ')' :: trailing)
      (∀ value, s.environment.valueOf .tuple (String.ofList raw) position = .ok value →
        ∃ arguments, value = .tuple arguments ∧
          let reply := callable.procedure.run arguments position
          (s.run line).1 = ⟨reply.result.map .invoked, some ⟨callable, arguments, position⟩,
            s.environment⟩ ∧ (s.run line).1.written = reply.written) ∧
      ∀ e, s.environment.valueOf .tuple (String.ofList raw) position = .error e →
        (s.run line).1 = ⟨.error e, none, s.environment⟩ := by
  simp only [Session.run_evaluates]
  refine ⟨path_evaluates, ?_⟩
  intro callable raw trailing reaches balanced
  constructor
  · intro value reads
    obtain ⟨arguments, rfl⟩ := round_value_is_tuple reads
    have called := call_evaluates reaches balanced trailing reads
    refine ⟨arguments, rfl, called, ?_⟩
    rw [called]
    rfl
  · intro e malformed
    exact malformed_call_evaluates reaches balanced trailing malformed

namespace Console

/-- A session in which the console is nested in an entry of the host. -/
def hosted : Session := (Session.initial.assign "host" (Entry.empty.addMember "inner" entry)).2

def hostName : PathName := ⟨"host", by decide, by decide, by decide, by decide⟩

def innerName : PathName := ⟨"inner", by decide, by decide, by decide, by decide⟩

def innerSegment : Segment :=
  ⟨[' '], [], innerName, by simp [AllBlank, IsBlank], List.forall_mem_nil _⟩

def logSegment : Segment :=
  ⟨[], ['\t'], logName, List.forall_mem_nil _, by simp [AllBlank, IsBlank]⟩

def innerPath : Path := ⟨hostName, [innerSegment], List.cons_ne_nil _ _⟩

def innerLogPath : Path := ⟨hostName, [innerSegment, logSegment], List.cons_ne_nil _ _⟩

end Console

theorem dotted_path_calls_log_despite_blanks :
    Console.innerPath.text = "host .inner".toList ∧
      (Console.hosted.run "host .inner").1 =
        ⟨.ok (.completed [.reference "inner" ⟨⟨1, ["inner"]⟩, Console.entry⟩ .member]), none,
          Console.hosted.environment⟩ ∧
      Console.innerLogPath.text = "host .inner.\tlog".toList ∧
      Console.hosted.environment.reach Console.innerLogPath =
        .ok (.callable ⟨"log", Console.log⟩) ∧
      Balanced "'a)'".toList ∧
      (Console.hosted.run "host .inner.\tlog('a)')(;").1 =
        ⟨.ok (.invoked .undefined), some ⟨⟨"log", Console.log⟩, [.string "a)"], 16⟩,
          Console.hosted.environment⟩ ∧
      (Console.hosted.run "host .inner.\tlog('a)')(;").1.written = ["a)"] := by
  have escapes : Escapes Quote.single.mark "a)".toList "a)".toList :=
    .plain (by decide) (by decide) (.plain (by decide) (by decide) .nil)
  have composes : Composes .round "'a)'".toList (.tuple [.string "a)"]) :=
    .tuple (last_item_spells (quoted_spells escapes))
  have balanced := composes_balanced composes
  have innerText : Console.innerPath.text = "host .inner".toList := by decide
  have logText : Console.innerLogPath.text = "host .inner.\tlog".toList := by decide
  have innerReached : Console.hosted.environment.reach Console.innerPath =
      .ok (.entry "inner" ⟨⟨1, ["inner"]⟩, Console.entry⟩) := rfl
  have logReached : Console.hosted.environment.reach Console.innerLogPath =
      .ok (.callable ⟨"log", Console.log⟩) := rfl
  have completed := (dotted_path_is_member_lookup Console.hosted Console.innerPath).1
  obtain ⟨arguments, same, called⟩ := ((dotted_path_is_member_lookup Console.hosted
    Console.innerLogPath).2 _ _ "(;".toList logReached balanced).1 _ (composes_value composes _ _)
  have innerLine : String.ofList "host .inner".toList = "host .inner" := by decide
  have logLine : String.ofList ("host .inner.\tlog".toList ++ '(' :: "'a)'".toList ++
      ')' :: "(;".toList) = "host .inner.\tlog('a)')(;" := by decide
  have position : byteSize "host .inner.\tlog".toList = 16 := by decide
  cases same
  rw [innerText, innerLine, innerReached] at completed
  rw [logText, logLine, position] at called
  exact ⟨innerText, completed, logText, logReached, balanced, called⟩

end LineShell
