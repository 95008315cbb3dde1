import LineShell.Proofs.ScanStates

/-!
The machine does what the scanner does. At every moment its fields amount to one state of the
scanner; a character takes them to the fields of the next state, and at most one lexeme is queued.
Main statement: the pulls from the machine are the pulls of the scanner, in the same order and with
the same delimiters open after each.
-/

namespace LineShell

namespace Character

/-- A role that is found among the roles of some kinds is the first one of its own kind. -/
theorem action_of_find {c : Char} {role : Role} {among : Kind → Bool}
    (found : (roles c).find? (fun role => among role.kind) = some role) :
    action? role.kind c = some role := by
  rw [List.find?_eq_some_iff_append] at found
  obtain ⟨isAmong, before, after, split, others⟩ := found
  rw [action?, List.find?_eq_some_iff_append]
  refine ⟨by simp, before, after, split, ?_⟩
  intro other member
  have excluded := others other member
  cases same : other.kind == role.kind with
  | false => rfl
  | true =>
      rw [beq_iff_eq.mp same, isAmong] at excluded
      cases excluded

theorem action_of_outside {c : Char} {role : Role} (found : outside c = some role) :
    action? role.kind c = some role := by
  apply @action_of_find c role fun _ => true
  rw [List.find?_eq_some_iff_append]
  obtain ⟨rest, split⟩ := List.head?_eq_some_iff.mp found
  exact ⟨rfl, [], rest, split, List.forall_mem_nil _⟩

theorem action_of_enclosed {c : Char} {role : Role} (found : enclosed c = some role) :
    action? role.kind c = some role :=
  @action_of_find c role (fun kind => kind == .opening || kind == .closing) found

theorem action_of_quote {c : Char} (isQuote : isQuote c = true) :
    action? .closing c = some (.closing c .string) := by
  have partner : partner? c = some c := beq_iff_eq.mp isQuote
  unfold partner? roles at partner
  split at partner <;> simp at partner
  · rfl
  · rfl

end Character

namespace Machine

/-- How the fields of a machine go together. -/
structure Coherent (m : Machine) : Prop where
  capture_iff_open : (∃ origin, m.mode = .capture origin) ↔ m.delimiters.stack ≠ []
  quote_innermost : ∀ opening ∈ m.delimiters.stack.tail,
    Character.isQuote opening.delimiter = false
  escaped_in_quote : m.escaped = true → ∃ top, m.delimiters.innermost? = some top ∧
    Character.isQuote top.delimiter = true
  nothing_after_operator : (∃ first position, m.mode = .operator first position) ∨
    m.mode = .operand → m.text = "" ∧ m.space = none
  space_after_lexeme : m.space.isSome = true → m.text = "" ∧ m.mode = .outside ∧ 0 < m.emitted

structure Unenclosed (m : Machine) : Prop where
  shut : m.delimiters = .empty
  unescaped : m.escaped = false
  unfinished : m.finished = false

/-- The state of the scanner that the fields of a machine amount to. -/
inductive Shows (m : Machine) : Scanner → Prop where
  | start (outer : m.Unenclosed) (mode : m.mode = .outside) (text : m.text = "")
      (space : m.space = none) (nothing : m.emitted = 0) : Shows m .start
  | gap {space : Option Nat} (outer : m.Unenclosed) (mode : m.mode = .outside) (text : m.text = "")
      (pending : m.space = space) (given : 0 < m.emitted) : Shows m (.gap space)
  | word {position : Nat} {name : String} (outer : m.Unenclosed) (mode : m.mode = .outside)
      (origin : m.origin = position) (text : m.text = name) (space : m.space = none)
      (nonempty : name ≠ "") : Shows m (.word position name)
  | operator {first : Operator} {position : Nat} (outer : m.Unenclosed)
      (mode : m.mode = .operator first position) (text : m.text = "") (space : m.space = none)
      (given : 0 < m.emitted) : Shows m (.operator first position)
  | operand (outer : m.Unenclosed) (mode : m.mode = .operand) (text : m.text = "")
      (space : m.space = none) (given : 0 < m.emitted) : Shows m .operand
  | capture {origin : Nat} {body : String} {escaped : Bool} {delimiters : Delimiters}
      (mode : m.mode = .capture origin) (text : m.text = body) (waits : m.escaped = escaped)
      (held : m.delimiters = delimiters) (nested : delimiters.Nested escaped)
      (space : m.space = none) (unfinished : m.finished = false) :
      Shows m (.capture origin body escaped delimiters)
  | done (coherent : m.Coherent) (shut : m.delimiters = .empty) (finished : m.finished = true) :
      Shows m .done

/-- The machine fails as the scanner does and keeps its delimiters, or queues what the scanner gives
and comes to what the scanner comes to. -/
inductive Agrees (m : Machine) : Step → Except Error Scanner.Step → Prop where
  | gives {after : Machine} {given : Option (Located Lexeme)} {next : Scanner}
      (shows : after.Shows next) (queued : after.queue = m.queue ++ given.toList) :
      Agrees m (.ok after) (.ok (given, next))
  | fails {e : Error} {left : Machine} (kept : left.delimiters = m.delimiters) :
      Agrees m (.error (e, left)) (.error e)

theorem agrees_silent {m after : Machine} {next : Scanner} (shows : after.Shows next)
    (queue : after.queue = m.queue) : Agrees m (.ok after) (.ok (none, next)) :=
  .gives shows (queue.trans (List.append_nil _).symm)

section Coherence

variable {m : Machine} {s : Scanner}

/-- Without open delimiters, what is left to say is about operators and pending spaces. -/
theorem shut_coherent (shut : m.delimiters = .empty) (unescaped : m.escaped = false)
    (mode : ∀ origin, m.mode ≠ .capture origin)
    (operators : m.mode ≠ .outside → m.text = "" ∧ m.space = none)
    (spaces : m.space.isSome = true → m.text = "" ∧ m.mode = .outside ∧ 0 < m.emitted) :
    m.Coherent := by
  have nothing : m.delimiters.stack = [] := by rw [shut]; rfl
  refine ⟨⟨?_, fun opened => absurd nothing opened⟩, ?_, ?_, ?_, spaces⟩
  · intro capturing
    obtain ⟨origin, capturing⟩ := capturing
    exact absurd capturing (mode origin)
  · rw [nothing]
    exact List.forall_mem_nil _
  · intro waits
    rw [unescaped] at waits
    cases waits
  · rintro (⟨first, position, undecided⟩ | decided)
    · exact operators (by rw [undecided]; exact Mode.noConfusion)
    · exact operators (by rw [decided]; exact Mode.noConfusion)

theorem shows_coherent (shows : m.Shows s) : m.Coherent := by
  cases shows with
  | start outer mode text space nothing =>
      exact shut_coherent outer.shut outer.unescaped (by simp [mode]) (by simp [mode])
        (by simp [space])
  | gap outer mode text pending given =>
      exact shut_coherent outer.shut outer.unescaped (by simp [mode]) (by simp [mode])
        fun _ => ⟨text, mode, given⟩
  | word outer mode origin text space =>
      exact shut_coherent outer.shut outer.unescaped (by simp [mode]) (by simp [mode])
        (by simp [space])
  | operator outer mode text space | operand outer mode text space =>
      exact shut_coherent outer.shut outer.unescaped (by simp [mode]) (fun _ => ⟨text, space⟩)
        (by simp [space])
  | capture mode text waits held nested space unfinished =>
      subst waits held
      obtain ⟨top, below, stack, entry, brackets, quoted⟩ := nested
      refine ⟨⟨?_, fun _ => ⟨_, mode⟩⟩, ?_, ?_, by simp [mode], by simp [space]⟩
      · intro _ empty
        rw [stack] at empty
        cases empty
      · rw [stack]
        exact brackets
      · intro waits
        refine ⟨top, ?_, quoted waits⟩
        rw [Delimiters.innermost?, stack, List.head?_cons]
  | done coherent shut finished => exact coherent

theorem shows_depth (shows : m.Shows s) : m.depth = s.depth := by
  cases shows with
  | capture mode text waits held => rw [depth, held, Scanner.depth]
  | start outer | gap outer | word outer | operator outer | operand outer =>
      rw [depth, outer.shut]
      rfl
  | done coherent shut finished =>
      rw [depth, shut]
      rfl

end Coherence

section Outside

variable {m : Machine} {s : Scanner} {position : Nat} {c : Char}

theorem flush_empty (text : m.text = "") : m.flush = m := if_pos text

theorem flush_word (text : m.text ≠ "") :
    m.flush = { m with text := "" }.emit (.name m.text) m.origin := if_neg text

theorem emit_space_none (space : m.space = none) : m.emitSpace = m := by
  rw [emitSpace, space]

theorem emit_space_some (space : m.space = some position) :
    m.emitSpace = { m with space := none }.emit .space position := by
  rw [emitSpace, space]

theorem terminate_agrees (shows : m.Shows s) (settled : s.isSettled = true) :
    Agrees m (.ok m.terminate) (.ok (s.finishedName, .done)) := by
  cases shows with
  | start outer mode text | gap outer mode text | operand outer mode text =>
      rw [terminate, flush_empty text]
      refine agrees_silent (.done ?_ outer.shut rfl) rfl
      exact shut_coherent outer.shut outer.unescaped (by simp [mode]) (fun _ => ⟨text, rfl⟩)
        (by simp)
  | word outer mode origin text space nonempty =>
      subst origin text
      rw [terminate, flush_word nonempty]
      refine .gives (.done ?_ outer.shut rfl) rfl
      exact shut_coherent outer.shut outer.unescaped (by simp [mode, emit])
        (fun _ => ⟨rfl, rfl⟩) (by simp)
  | operator | capture | done => cases settled

theorem blank_agrees (shows : m.Shows s) (settled : s.isSettled = true) :
    Agrees m (.ok (m.stepBlank position)) (.ok (s.finishedName, s.stepBlank position)) := by
  cases shows with
  | start outer mode text space nothing =>
      have stays : m.stepBlank position = m := by
        simp [stepBlank, flush_empty text, mode, nothing]
      rw [stays]
      exact agrees_silent (.start outer mode text space nothing) rfl
  | @gap space outer mode text pending given =>
      cases space with
      | none =>
          have waits : m.stepBlank position = { m with space := some position } := by
            simp [stepBlank, flush_empty text, mode, pending, given]
          rw [waits]
          exact agrees_silent (.gap ⟨outer.shut, outer.unescaped, outer.unfinished⟩ mode text rfl
            given) rfl
      | some first =>
          have stays : m.stepBlank position = m := by
            simp [stepBlank, flush_empty text, mode, pending]
          rw [stays]
          exact agrees_silent (.gap outer mode text pending given) rfl
  | word outer mode origin text space nonempty =>
      subst origin text
      have ends : m.stepBlank position =
          { ({ m with text := "" }.emit (.name m.text) m.origin) with space := some position } := by
        simp [stepBlank, flush_word nonempty, mode, space, emit]
      rw [ends]
      exact .gives (.gap ⟨outer.shut, outer.unescaped, outer.unfinished⟩ mode rfl rfl
        (Nat.succ_pos _)) rfl
  | operand outer mode text space given =>
      have stays : m.stepBlank position = m := if_pos ⟨mode, text⟩
      rw [stays]
      exact agrees_silent (.operand outer mode text space given) rfl
  | operator | capture | done => cases settled

theorem enter_agrees (shows : m.Shows s) (settled : s.isSettled = true) :
    Agrees m (.ok (m.enter position c)) (.ok (s.finishedName <|> s.separatingSpace,
      .capture position "" false (Delimiters.empty.insert c position))) := by
  have nested := Delimiters.first_nested c position
  have opened (outer : m.Unenclosed) :
      m.delimiters.insert c position = Delimiters.empty.insert c position := by
    rw [outer.shut]
  cases shows with
  | start outer mode text space | operand outer mode text space =>
      rw [enter, flush_empty text, emit_space_none space]
      exact agrees_silent (.capture rfl text rfl (opened outer) nested space outer.unfinished) rfl
  | @gap space outer mode text pending given =>
      cases space with
      | none =>
          rw [enter, flush_empty text, emit_space_none pending]
          exact agrees_silent (.capture rfl text rfl (opened outer) nested pending outer.unfinished)
            rfl
      | some first =>
          rw [enter, flush_empty text, emit_space_some pending]
          exact .gives (.capture rfl text rfl (opened outer) nested rfl outer.unfinished) rfl
  | word outer mode origin text space nonempty =>
      subst origin text
      have unspaced : m.flush.emitSpace = m.flush := by
        apply emit_space_none
        rw [flush_word nonempty]
        exact space
      rw [enter, unspaced, flush_word nonempty]
      exact .gives (.capture rfl rfl rfl (opened outer) nested space outer.unfinished) rfl
  | operator | capture | done => cases settled

theorem push_nonempty (text : String) (c : Char) : text.push c ≠ "" := by
  intro empty
  have nothing := congrArg String.toList empty
  rw [String.toList_push] at nothing
  exact List.append_ne_nil_of_right_ne_nil _ (List.cons_ne_nil _ _) nothing

theorem append_agrees (shows : m.Shows s) (settled : s.isSettled = true) :
    Agrees m (.ok (m.append position c)) (.ok (s.stepText position c)) := by
  have first (text : m.text = "") : m.text.push c = String.singleton c := by
    rw [text]
    rfl
  cases shows with
  | start outer mode text space | operand outer mode text space =>
      rw [append, if_pos text, emit_space_none space]
      exact agrees_silent (.word ⟨outer.shut, outer.unescaped, outer.unfinished⟩ rfl rfl
        (first text) space (push_nonempty _ c)) rfl
  | @gap space outer mode text pending given =>
      cases space with
      | none =>
          rw [append, if_pos text, emit_space_none pending]
          exact agrees_silent (.word ⟨outer.shut, outer.unescaped, outer.unfinished⟩ rfl rfl
            (first text) pending (push_nonempty _ c)) rfl
      | some position =>
          rw [append, if_pos text, emit_space_some pending]
          exact .gives (.word ⟨outer.shut, outer.unescaped, outer.unfinished⟩ rfl rfl (first text)
            rfl (push_nonempty _ c)) rfl
  | word outer mode origin text space nonempty =>
      subst origin text
      rw [append, if_neg nonempty]
      exact agrees_silent (.word ⟨outer.shut, outer.unescaped, outer.unfinished⟩ rfl rfl rfl space
        (push_nonempty _ c)) rfl
  | operator | capture | done => cases settled

theorem operator_agrees {kind : Kind} {op : Operator} (shows : m.Shows s)
    (settled : s.isSettled = true)
    (action : (Character.action? kind c).bind Role.operator? = some op) :
    Agrees m (m.stepOperator kind position c) (s.stepOperator op position c) := by
  have unread (text : m.text = "") : ¬(op = .dot ∧ Numeral.isInteger m.text = true) := by
    rw [text]
    exact fun both => absurd both.2 (by decide)
  simp only [stepOperator, action]
  cases shows with
  | start outer mode text space nothing =>
      rw [if_neg (unread text), flush_empty text, if_pos nothing]
      exact .fails rfl
  | gap outer mode text _ given | operand outer mode text _ given =>
      rw [if_neg (unread text), flush_empty text, if_neg (Nat.ne_of_gt given)]
      exact agrees_silent (.operator ⟨outer.shut, outer.unescaped, outer.unfinished⟩ rfl text rfl
        given) rfl
  | word outer mode origin text space nonempty =>
      subst origin text
      by_cases point : op = .dot ∧ Numeral.isInteger m.text = true
      · have appended := @append_agrees m _ position c (.word outer mode rfl rfl space nonempty) rfl
        simp only [Scanner.stepOperator, if_pos point]
        exact appended
      · have counted : m.flush.emitted ≠ 0 := by
          rw [flush_word nonempty]
          exact Nat.succ_ne_zero _
        simp only [Scanner.stepOperator, if_neg point]
        rw [if_neg counted, flush_word nonempty]
        exact .gives (.operator ⟨outer.shut, outer.unescaped, outer.unfinished⟩ rfl rfl rfl
          (Nat.succ_pos _)) rfl
  | operator | capture | done => cases settled

theorem operand_agrees (shows : m.Shows s) (settled : s.isSettled = true) :
    Agrees m (m.stepOperand position c) (s.stepOutside position c) := by
  unfold stepOperand Scanner.stepOutside Character.classify
  cases found : Character.outside c with
  | none => exact append_agrees shows settled
  | some role =>
      have action := congrArg (Option.bind · Role.operator?) (Character.action_of_outside found)
      cases role with
      | terminator => exact terminate_agrees shows settled
      | blank => exact blank_agrees shows settled
      | opening => exact enter_agrees shows settled
      | closing partner shape => exact .fails rfl
      | binary op => exact operator_agrees shows settled action
      | doubling op => exact operator_agrees shows settled action
      | unary op => exact operator_agrees shows settled action
      | digit value => exact append_agrees shows settled

/-- An undecided operator is queued, and nothing else with it. -/
theorem undecided_agrees {first : Operator} {origin : Nat}
    (shows : m.Shows (.operator first origin)) :
    Agrees m (m.step position c) ((Scanner.operator first origin).step position c) := by
  cases shows with
  | operator outer mode text space given =>
      simp only [step, mode, Scanner.step]
      have outer : ∀ op, Unenclosed ({ m with mode := .operand }.emit (.operator op) origin) :=
        fun op => ⟨outer.shut, outer.unescaped, outer.unfinished⟩
      cases first.join? c with
      | some double => exact .gives (.operand (outer double) rfl text space (Nat.succ_pos _)) rfl
      | none =>
          have agrees := @operand_agrees _ _ position c
            (.operand (outer first) rfl text space (Nat.succ_pos _)) rfl
          generalize ({ m with mode := .operand }.emit (.operator first) origin).stepOperand
            position c = machine at agrees ⊢
          generalize scanned : Scanner.operand.stepOutside position c = scanner at agrees ⊢
          cases agrees with
          | fails kept => exact .fails kept
          | gives shows queued =>
              rw [Scanner.step_operand_gives_none scanned] at queued
              exact .gives shows (queued.trans (List.append_nil _))

end Outside

section Captures

variable {m : Machine} {origin position : Nat} {c : Char}

theorem closing_agrees {partner : Char} {shape : Shape} (mode : m.mode = .capture origin)
    (nested : m.delimiters.Nested false) (unescaped : m.escaped = false) (space : m.space = none)
    (unfinished : m.finished = false)
    (action : Character.action? .closing c = some (.closing partner shape)) :
    Agrees m (m.stepClosing origin position c)
      (Scanner.stepClosing origin m.text m.delimiters position c partner shape) := by
  simp only [stepClosing, action, Scanner.stepClosing]
  cases closed : m.delimiters.close c partner position with
  | error e => exact .fails rfl
  | ok outcome =>
      obtain ⟨closure, rest⟩ := outcome
      cases closure with
      | complete =>
          have empty : rest = .empty := by
            obtain ⟨top, below, stack, entry, _⟩ := nested
            obtain ⟨_, left, _, _, ⟨_, last, rfl⟩ | ⟨interior, _⟩⟩ :=
              Delimiters.close_ok_cases closed
            · rw [entry, Option.some.injEq, eq_comm, List.length_eq_zero_iff] at last
              rw [last]
              rfl
            · cases interior
          exact .gives (.gap ⟨empty, unescaped, unfinished⟩ rfl rfl space (Nat.succ_pos _)) rfl
      | interior =>
          have inner := Delimiters.close_interior_nested nested closed
          exact agrees_silent (.capture mode rfl unescaped rfl inner space unfinished) rfl

theorem quoted_agrees {top : Opening} (mode : m.mode = .capture origin)
    (innermost : m.delimiters.innermost? = some top)
    (quote : Character.isQuote top.delimiter = true)
    (nested : ∀ flag, m.delimiters.Nested flag) (space : m.space = none)
    (unfinished : m.finished = false) :
    Agrees m (m.stepCapture origin position c)
      (Scanner.stepQuoted origin m.text m.escaped m.delimiters top.delimiter position c) := by
  have here : m.context = .quoted top.delimiter := by simp only [context, innermost, quote, if_true]
  have inside : (Character.Context.quoted top.delimiter != .enclosed) = true := rfl
  simp only [stepCapture, here, inside, true_and, Scanner.stepQuoted, Character.classify]
  cases waits : m.escaped with
  | true =>
      simp only [if_true]
      exact agrees_silent (.capture mode rfl rfl rfl (nested false) space unfinished) rfl
  | false =>
      simp only [Bool.false_eq_true, if_false]
      by_cases backslash : c = '\\'
      · simp only [if_pos backslash]
        exact agrees_silent (.capture mode rfl rfl rfl (nested true) space unfinished) rfl
      · simp only [if_neg backslash]
        by_cases closes : c = top.delimiter
        · simp only [if_pos closes]
          have action := Character.action_of_quote quote
          rw [← closes] at action ⊢
          exact closing_agrees mode (nested false) waits space unfinished action
        · simp only [if_neg closes]
          exact agrees_silent (.capture mode rfl waits rfl (nested false) space unfinished) rfl

theorem enclosed_agrees {top : Opening} (mode : m.mode = .capture origin)
    (innermost : m.delimiters.innermost? = some top)
    (bracket : Character.isQuote top.delimiter = false)
    (nested : m.delimiters.Nested false) (unescaped : m.escaped = false) (space : m.space = none)
    (unfinished : m.finished = false) :
    Agrees m (m.stepCapture origin position c)
      (Scanner.stepEnclosed origin m.text m.delimiters position c) := by
  have here : m.context = .enclosed := by
    simp only [context, innermost, bracket, Bool.false_eq_true, if_false]
  have outside : (Character.Context.enclosed != .enclosed) = false := rfl
  simp only [stepCapture, here, outside, Bool.false_eq_true, false_and, if_false,
    Scanner.stepEnclosed, Character.classify]
  have kept : Agrees m (.ok (m.keep c))
      (.ok (none, .capture origin (m.text.push c) false m.delimiters)) :=
    agrees_silent (.capture mode rfl unescaped rfl nested space unfinished) rfl
  cases found : Character.enclosed c with
  | none => exact kept
  | some role =>
      have action := Character.action_of_enclosed found
      cases role with
      | opening =>
          have between : ∀ inner, m.delimiters.innermost? = some inner →
              Character.isQuote inner.delimiter = false := by
            intro inner found
            rw [innermost] at found
            cases found
            exact bracket
          have deeper := Delimiters.insert_nested nested between c position
          exact agrees_silent (.capture mode rfl unescaped rfl deeper space unfinished) rfl
      | closing partner shape =>
          exact closing_agrees mode nested unescaped space unfinished action
      | terminator | blank | binary | doubling | unary | digit => exact kept

theorem capture_agrees {body : String} {escaped : Bool} {delimiters : Delimiters}
    (shows : m.Shows (.capture origin body escaped delimiters)) :
    Agrees m (m.step position c)
      ((Scanner.capture origin body escaped delimiters).step position c) := by
  cases shows with
  | capture mode text waits held nested space unfinished =>
      subst text waits held
      obtain ⟨top, below, stack, entry, brackets, quoted⟩ := nested
      have innermost : m.delimiters.innermost? = some top := by
        rw [Delimiters.innermost?, stack, List.head?_cons]
      simp only [step, mode, Scanner.step, innermost]
      cases quote : Character.isQuote top.delimiter with
      | true =>
          have nested (flag : Bool) : m.delimiters.Nested flag :=
            ⟨top, below, stack, entry, brackets, fun _ => quote⟩
          exact quoted_agrees mode innermost quote nested space unfinished
      | false =>
          have unescaped : m.escaped = false := by
            rw [quote] at quoted
            exact Bool.eq_false_iff.mpr fun waits => Bool.false_ne_true (quoted waits)
          have nested := Delimiters.unescaped_nested stack entry brackets
          exact enclosed_agrees mode innermost quote nested unescaped space unfinished

end Captures

/-- One character takes the machine where it takes the scanner. -/
theorem step_agrees {m : Machine} {s : Scanner} (shows : m.Shows s) (unfinished : s ≠ .done)
    (position : Nat) (c : Char) : Agrees m (m.step position c) (s.step position c) := by
  have whole := shows
  cases shows with
  | start outer mode | gap outer mode | word outer mode | operand outer mode =>
      rw [step, mode]
      exact operand_agrees whole rfl
  | operator => exact undecided_agrees whole
  | capture => exact capture_agrees whole
  | done => exact absurd rfl unfinished

theorem finish_agrees {m : Machine} {s : Scanner} (shows : m.Shows s) (unfinished : s ≠ .done) :
    Agrees m m.finish (s.finish.map fun last => (last, .done)) := by
  cases shows with
  | start outer mode text space | operand outer mode text space =>
      simp only [finish, mode]
      rw [flush_empty]
      · refine agrees_silent (.done ?_ outer.shut rfl) rfl
        exact shut_coherent outer.shut outer.unescaped (by simp) (fun _ => ⟨text, space⟩)
          (by simp [space])
      · exact text
  | gap outer mode text pending given =>
      simp only [finish, mode]
      rw [flush_empty]
      · refine agrees_silent (.done ?_ outer.shut rfl) rfl
        exact shut_coherent outer.shut outer.unescaped (by simp) (by simp)
          fun _ => ⟨text, rfl, given⟩
      · exact text
  | word outer mode origin text space nonempty =>
      subst origin text
      simp only [finish, mode]
      rw [flush_word]
      · refine .gives (.done ?_ outer.shut rfl) rfl
        exact shut_coherent outer.shut outer.unescaped (by simp [emit]) (fun _ => ⟨rfl, space⟩)
          (by simp [space, emit])
      · exact nonempty
  | operator outer mode text space given =>
      simp only [finish, mode]
      refine .gives (.done ?_ outer.shut rfl) rfl
      exact shut_coherent outer.shut outer.unescaped (by simp [emit]) (fun _ => ⟨text, space⟩)
        (by simp [space, emit])
  | capture mode text waits held nested space unfinished =>
      subst held
      obtain ⟨top, below, stack, _⟩ := nested
      have innermost : m.delimiters.innermost? = some top := by
        rw [Delimiters.innermost?, stack, List.head?_cons]
      simp only [finish, mode, innermost, Scanner.finish]
      exact .fails rfl
  | done => exact absurd rfl unfinished

section Pulls

variable {m : Machine} {s : Scanner} {unread : List (Nat × Char)}

theorem next_queued {lexeme : Located Lexeme} {queue : List (Located Lexeme)}
    (queued : m.queue = lexeme :: queue) :
    m.next unread = (some (.ok lexeme), ⟨{ m with queue }, unread⟩) := by
  unfold next
  rw [queued]

theorem next_finished (empty : m.queue = []) (finished : m.finished = true) :
    m.next unread = (none, ⟨m, unread⟩) := by
  unfold next
  rw [empty, finished]
  rfl

theorem next_read (empty : m.queue = []) (unfinished : m.finished = false) (position : Nat)
    (c : Char) :
    m.next ((position, c) :: unread) =
      match m.step position c with
      | .ok after => after.next unread
      | .error (e, left) => (some (.error e), ⟨left.abort, unread⟩) := by
  rw [next, empty, unfinished]
  rfl

/-- The end of the text finishes the machine, so only its queue is looked at once more. -/
theorem next_end (empty : m.queue = []) (unfinished : m.finished = false) :
    m.next [] =
      match m.finish with
      | .ok last =>
        match last.queue with
        | lexeme :: queue => (some (.ok lexeme), ⟨{ last with queue }, []⟩)
        | [] => (none, ⟨last, []⟩)
      | .error (e, left) => (some (.error e), ⟨left.abort, []⟩) := by
  rw [next, empty, unfinished]
  cases m.finish <;> rfl

theorem shows_unqueued (shows : m.Shows s) (queue : List (Located Lexeme)) :
    { m with queue }.Shows s := by
  cases shows with
  | start outer mode text space nothing =>
      exact .start ⟨outer.shut, outer.unescaped, outer.unfinished⟩ mode text space nothing
  | gap outer mode text pending given =>
      exact .gap ⟨outer.shut, outer.unescaped, outer.unfinished⟩ mode text pending given
  | word outer mode origin text space nonempty =>
      exact .word ⟨outer.shut, outer.unescaped, outer.unfinished⟩ mode origin text space nonempty
  | operator outer mode text space given =>
      exact .operator ⟨outer.shut, outer.unescaped, outer.unfinished⟩ mode text space given
  | operand outer mode text space given =>
      exact .operand ⟨outer.shut, outer.unescaped, outer.unfinished⟩ mode text space given
  | capture mode text waits held nested space unfinished =>
      exact .capture mode text waits held nested space unfinished
  | done coherent shut finished =>
      exact .done ⟨coherent.capture_iff_open, coherent.quote_innermost, coherent.escaped_in_quote,
        coherent.nothing_after_operator, coherent.space_after_lexeme⟩ shut finished

theorem shows_unfinished (shows : m.Shows s) (unfinished : s ≠ .done) : m.finished = false := by
  cases shows with
  | start outer | gap outer | word outer | operator outer | operand outer => exact outer.unfinished
  | capture mode text waits held nested space goesOn => exact goesOn
  | done => exact absurd rfl unfinished

theorem shows_finished (shows : m.Shows .done) : m.finished = true := by
  cases shows with
  | done coherent shut finished => exact finished

/-- A pull from the machine, and the pulls of the scanner from there on. -/
inductive NextAgrees : Pulled × Scanning → List Scanner.Pull → Prop where
  | ends {m : Machine} {unread : List (Nat × Char)} (shows : m.Shows .done) (empty : m.queue = []) :
      NextAgrees (none, ⟨m, unread⟩) []
  | gives {m : Machine} {s : Scanner} {position : Nat} {cs : List Char} {lexeme : Located Lexeme}
      (shows : m.Shows s) (empty : m.queue = []) :
      NextAgrees (some (.ok lexeme), ⟨m, indexed position cs⟩)
        (⟨.ok lexeme, s.depth⟩ :: s.pulls position cs)
  | fails {m : Machine} {unread : List (Nat × Char)} {e : Error} {depth : Nat}
      (finished : m.finished = true) (empty : m.queue = []) (same : m.depth = depth) :
      NextAgrees (some (.error e), ⟨m, unread⟩) [⟨.error e, depth⟩]

theorem finish_depth {lexeme : Located Lexeme} (finished : s.finish = .ok (some lexeme)) :
    s.depth = 0 := by
  cases s with
  | capture origin text escaped delimiters =>
      simp only [Scanner.finish] at finished
      split at finished <;> cases finished
  | start | gap | word | operator | operand | done => rfl

theorem end_agrees (shows : m.Shows s) (empty : m.queue = []) (position : Nat) :
    NextAgrees (m.next (indexed position [])) (s.pulls position []) := by
  by_cases unfinished : s = .done
  · subst unfinished
    rw [next_finished empty (shows_finished shows), Scanner.done_pulls]
    exact .ends shows empty
  · rw [indexed, next_end empty (shows_unfinished shows unfinished), Scanner.pulls]
    have agrees := finish_agrees shows unfinished
    generalize m.finish = machine at agrees ⊢
    cases scanned : s.finish with
    | error e =>
        rw [scanned] at agrees
        cases agrees with
        | fails kept => exact .fails rfl rfl (by rw [← shows_depth shows, depth, abort, kept]; rfl)
    | ok last =>
        rw [scanned] at agrees
        cases agrees with
        | gives shows queued =>
            rw [empty, List.nil_append] at queued
            cases last with
            | none =>
                simp only [queued, Option.toList_none]
                exact .ends shows queued
            | some lexeme =>
                simp only [queued, Option.toList_some]
                rw [finish_depth scanned]
                exact @NextAgrees.gives _ _ position [] lexeme (shows_unqueued shows []) rfl

theorem next_agrees (shows : m.Shows s) (empty : m.queue = []) (position : Nat)
    (cs : List Char) : NextAgrees (m.next (indexed position cs)) (s.pulls position cs) := by
  induction cs generalizing m s position with
  | nil => exact end_agrees shows empty position
  | cons c rest induction =>
      by_cases unfinished : s = .done
      · subst unfinished
        rw [next_finished empty (shows_finished shows), Scanner.done_pulls]
        exact .ends shows empty
      · rw [indexed, next_read empty (shows_unfinished shows unfinished), Scanner.pulls]
        have agrees := step_agrees shows unfinished position c
        generalize m.step position c = machine at agrees ⊢
        generalize s.step position c = scanner at agrees ⊢
        cases agrees with
        | fails kept => exact .fails rfl rfl (by rw [← shows_depth shows, depth, abort, kept]; rfl)
        | @gives after given next shows queued =>
            rw [empty, List.nil_append] at queued
            cases given with
            | none => exact induction shows queued _
            | some lexeme =>
                simp only [next_queued queued]
                exact .gives (shows_unqueued shows []) rfl

end Pulls

end Machine

end LineShell
