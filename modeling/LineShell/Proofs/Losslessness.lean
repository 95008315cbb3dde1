import LineShell.Proofs.Coverage

/-!
Scanning is lossless. At every moment the scanner holds exactly the characters it has read since
the last lexeme it gave, and its state says how they will be covered: blanks, and then what it is
in the middle of. One step keeps this; so the lexemes of a whole scan cover the source.
-/

namespace LineShell

open Literal (byteSize)

/-- The outermost open delimiter is `opening`, and closing it completes the text. -/
def Delimiters.EnteredBy (d : Delimiters) (opening : Opening) : Prop :=
  d.entry = some 0 ∧ d.stack.getLast? = some opening

namespace Delimiters

theorem first_entered (c : Char) (position : Nat) :
    (empty.insert c position).EnteredBy ⟨c, position⟩ := ⟨rfl, rfl⟩

theorem insert_entered {d : Delimiters} {opening : Opening} (entered : d.EnteredBy opening)
    (c : Char) (position : Nat) : (d.insert c position).EnteredBy opening := by
  obtain ⟨entry, outermost⟩ := entered
  constructor
  · rw [insert, entry, Option.getD_some]
  · rw [insert, List.getLast?_cons, outermost, Option.getD_some]

/-- What a closing delimiter can do: it pops its partner, and completes the text exactly at the
depth at which the text was entered. -/
theorem close_ok_cases {d rest : Delimiters} {c partner : Char} {position : Nat}
    {closure : Closure} (closed : d.close c partner position = .ok (closure, rest)) :
    ∃ top below, d.stack = top :: below ∧ top.delimiter = partner ∧
      (closure = .complete ∧ d.entry = some below.length ∧ rest = ⟨below, none⟩ ∨
        closure = .interior ∧ d.entry ≠ some below.length ∧ rest = ⟨below, d.entry⟩) := by
  unfold close at closed
  split at closed
  · cases closed
  · rename_i top below stack
    split at closed
    · rename_i matching
      refine ⟨top, below, stack, matching, ?_⟩
      split at closed
      · rename_i last
        cases closed
        exact .inl ⟨rfl, last, rfl⟩
      · rename_i unfinished
        cases closed
        exact .inr ⟨rfl, unfinished, rfl⟩
    · cases closed

theorem close_error {d : Delimiters} {c partner : Char} {position : Nat} {e : Error}
    (failed : d.close c partner position = .error e) : e = ⟨.unexpectedToken c, position⟩ := by
  unfold close at failed
  split at failed
  · cases failed
    rfl
  · split at failed
    · split at failed <;> cases failed
    · cases failed
      rfl

theorem close_complete {d rest : Delimiters} {opening : Opening} {c partner : Char}
    {position : Nat} (entered : d.EnteredBy opening)
    (closed : d.close c partner position = .ok (.complete, rest)) :
    opening.delimiter = partner := by
  obtain ⟨entry, outermost⟩ := entered
  obtain ⟨top, below, stack, matching, ⟨_, last, _⟩ | ⟨interior, _⟩⟩ := close_ok_cases closed
  · have alone : below = [] := by
      rw [entry, Option.some.injEq] at last
      exact List.length_eq_zero_iff.mp last.symm
    rw [stack, alone, List.getLast?_singleton, Option.some.injEq] at outermost
    rw [← outermost]
    exact matching
  · cases interior

theorem close_interior {d rest : Delimiters} {opening : Opening} {c partner : Char}
    {position : Nat} (entered : d.EnteredBy opening)
    (closed : d.close c partner position = .ok (.interior, rest)) : rest.EnteredBy opening := by
  obtain ⟨entry, outermost⟩ := entered
  obtain ⟨top, below, stack, _, ⟨complete, _⟩ | ⟨_, unfinished, rfl⟩⟩ := close_ok_cases closed
  · cases complete
  · refine ⟨entry, ?_⟩
    cases below with
    | nil => exact absurd entry unfinished
    | cons next others =>
        rw [stack, List.getLast?_cons_cons] at outermost
        exact outermost

end Delimiters

namespace Scanner

/-- In this state the scanner has read `held`, which begins at offset `base`, and has given no
lexeme for it yet. -/
inductive Holds (base : Nat) : List Char → Scanner → Prop where
  | start {blanks : List Char} (blank : AllBlank blanks) :
      Holds base blanks start
  | operand {blanks : List Char} (blank : AllBlank blanks) :
      Holds base blanks operand
  | captured : Holds base [] (gap none)
  | gap {first : Char} {blanks : List Char} (firstBlank : IsBlank first)
      (blank : AllBlank blanks) : Holds base (first :: blanks) (gap (some base))
  | word {blanks : List Char} {text : String} (blank : AllBlank blanks)
      (nonempty : text.toList ≠ []) :
      Holds base (blanks ++ text.toList) (word (base + byteSize blanks) text)
  | operator {blanks : List Char} {op : Operator}
      (blank : AllBlank blanks) :
      Holds base (blanks ++ op.symbol.toList) (operator op (base + byteSize blanks))
  | capture {blanks : List Char} {opening : Opening} {text : String}
      {escaped : Bool} {delimiters : Delimiters} (blank : AllBlank blanks)
      (entered : delimiters.EnteredBy opening) :
      Holds base (blanks ++ opening.delimiter :: text.toList)
        (capture (base + byteSize blanks) text escaped delimiters)
  | done {blanks ignored : List Char} (blank : AllBlank blanks) :
      Holds base (blanks ++ ';' :: ignored) done

/-- What a step gives and leaves when `read` is all that has been held and read: nothing is given
and all is held, or a lexeme covers the first part and the rest is held. -/
inductive Advances (base : Nat) (read : List Char) : Option (Located Lexeme) → Scanner → Prop where
  | silent {next : Scanner} (holds : Holds base read next) : Advances base read none next
  | gives {blanks text held : List Char} {item : Lexeme} {next : Scanner}
      (split : read = blanks ++ text ++ held) (blank : AllBlank blanks)
      (written : item.Written text)
      (holds : Holds (base + byteSize blanks + byteSize text) held next) :
      Advances base read (some ⟨item, base + byteSize blanks⟩) next

/-- Whether the scanner is outside delimiters with no operator undecided. -/
def isSettled : Scanner → Bool
  | start | gap _ | word .. | operand => true
  | _ => false

theorem step_settled {s : Scanner} {c : Char} (position : Nat) (settled : s.isSettled = true) :
    s.step position c = s.stepOutside position c := by
  cases s with
  | start | gap | word | operand => rfl
  | operator | capture | done => cases settled

def BeginsWith (next : Scanner) (c : Char) (position : Nat) : Prop :=
  ∀ base blanks, AllBlank blanks → base + byteSize blanks = position →
    Holds base (blanks ++ [c]) next

theorem finished_advances {s next : Scanner} {base : Nat} {held : List Char} {c : Char}
    (settled : s.isSettled = true) (holds : Holds base held s)
    (begins : next.BeginsWith c (base + byteSize held)) :
    Advances base (held ++ [c]) s.finishedName next := by
  cases holds with
  | start blank => exact .silent (begins base held blank rfl)
  | operand blank => exact .silent (begins base held blank rfl)
  | captured => exact .silent (begins base [] all_blank_nil rfl)
  | @gap first blanks firstBlank blank =>
      exact .silent (begins base (first :: blanks) (all_blank_cons firstBlank blank) rfl)
  | @word blanks text blank nonempty =>
      refine .gives rfl blank (.name nonempty) (begins _ [] all_blank_nil ?_)
      rw [byte_size_append, byte_size_nil, Nat.add_zero, Nat.add_assoc]
  | operator blank => cases settled
  | capture blank entered => cases settled
  | done blank => cases settled

theorem separated_advances {s next : Scanner} {base : Nat} {held : List Char} {c : Char}
    (settled : s.isSettled = true) (holds : Holds base held s)
    (begins : next.BeginsWith c (base + byteSize held)) :
    Advances base (held ++ [c]) (s.finishedName <|> s.separatingSpace) next := by
  cases holds with
  | @gap first blanks firstBlank blank =>
      refine @Advances.gives base _ [] [first] (blanks ++ [c]) _ _ rfl all_blank_nil
        (.space firstBlank) (begins _ blanks blank ?_)
      simp only [byte_size_cons, byte_size_nil]
      omega
  | start blank => exact finished_advances settled (.start blank) begins
  | operand blank => exact finished_advances settled (.operand blank) begins
  | captured => exact finished_advances settled .captured begins
  | word blank nonempty => exact finished_advances settled (.word blank nonempty) begins
  | operator blank => cases settled
  | capture blank entered => cases settled
  | done blank => cases settled

theorem done_begins (position : Nat) : done.BeginsWith ';' position :=
  fun _ _ blank _ => .done blank

theorem word_begins (c : Char) (position : Nat) :
    (word position (String.singleton c)).BeginsWith c position := by
  intro base blanks blank reached
  subst reached
  have holds := @Holds.word base blanks (String.singleton c) blank (by simp)
  rw [String.toList_singleton] at holds
  exact holds

theorem operator_begins {op : Operator} {c : Char} (symbol : op.symbol.toList = [c])
    (position : Nat) : (operator op position).BeginsWith c position := by
  intro base blanks blank reached
  subst reached
  rw [← symbol]
  exact .operator blank

theorem capture_begins (c : Char) (position : Nat) :
    (capture position "" false (Delimiters.empty.insert c position)).BeginsWith c position := by
  intro base blanks blank reached
  subst reached
  exact @Holds.capture base blanks ⟨c, _⟩ "" _ _ blank (Delimiters.first_entered c _)

theorem word_continues {base position : Nat} {held : List Char} {text : String} (c : Char)
    (holds : Holds base held (word position text)) :
    Holds base (held ++ [c]) (word position (text.push c)) := by
  cases holds with
  | @word blanks text blank nonempty =>
      have longer := @Holds.word base blanks (text.push c) blank (by simp)
      rw [String.toList_push, ← List.append_assoc] at longer
      exact longer

theorem step_blank_advances {s : Scanner} {base : Nat} {held : List Char} {c : Char}
    (settled : s.isSettled = true) (holds : Holds base held s) (blankHere : IsBlank c) :
    Advances base (held ++ [c]) s.finishedName (s.stepBlank (base + byteSize held)) := by
  cases holds with
  | start blank => exact .silent (.start (all_blank_push blank blankHere))
  | operand blank => exact .silent (.operand (all_blank_push blank blankHere))
  | captured => exact .silent (.gap blankHere all_blank_nil)
  | gap firstBlank blank => exact .silent (.gap firstBlank (all_blank_push blank blankHere))
  | @word blanks text blank nonempty =>
      refine .gives rfl blank (.name nonempty) ?_
      rw [byte_size_append, ← Nat.add_assoc]
      exact .gap blankHere all_blank_nil
  | operator blank => cases settled
  | capture blank entered => cases settled
  | done blank => cases settled

theorem step_text_advances {s : Scanner} {base : Nat} {held : List Char} {c : Char}
    {emitted : Option (Located Lexeme)} {next : Scanner}
    (settled : s.isSettled = true) (holds : Holds base held s)
    (stepped : s.stepText (base + byteSize held) c = (emitted, next)) :
    Advances base (held ++ [c]) emitted next := by
  have separated := separated_advances settled holds (word_begins c _)
  cases s with
  | word position text =>
      cases stepped
      exact .silent (word_continues c holds)
  | start =>
      cases stepped
      exact separated
  | gap space =>
      cases stepped
      exact separated
  | operand =>
      cases stepped
      exact separated
  | operator first position => cases settled
  | capture position text escaped delimiters => cases settled
  | done => cases settled

theorem step_operator_advances {s : Scanner} {base : Nat} {held : List Char} {c : Char}
    {op : Operator} {emitted : Option (Located Lexeme)} {next : Scanner}
    (settled : s.isSettled = true) (holds : Holds base held s) (symbol : op.symbol.toList = [c])
    (stepped : s.stepOperator op (base + byteSize held) c = .ok (emitted, next)) :
    Advances base (held ++ [c]) emitted next := by
  have finished := finished_advances settled holds (operator_begins symbol _)
  cases s with
  | start => cases stepped
  | word position text =>
      simp only [stepOperator] at stepped
      split at stepped
      · cases stepped
        exact .silent (word_continues c holds)
      · cases stepped
        exact finished
  | gap space =>
      cases stepped
      exact finished
  | operand =>
      cases stepped
      exact finished
  | operator first position => cases settled
  | capture position text escaped delimiters => cases settled
  | done => cases settled

theorem outside_operator_symbol {c : Char} {op : Operator}
    (role : Character.outside c = some (.binary op) ∨ Character.outside c = some (.doubling op) ∨
      Character.outside c = some (.unary op)) : op.symbol.toList = [c] := by
  unfold Character.outside Character.roles at role
  split at role <;> simp at role <;> subst role <;> rfl

theorem step_outside_advances {s : Scanner} {base : Nat} {held : List Char} {c : Char}
    {emitted : Option (Located Lexeme)} {next : Scanner}
    (settled : s.isSettled = true) (holds : Holds base held s)
    (stepped : s.stepOutside (base + byteSize held) c = .ok (emitted, next)) :
    Advances base (held ++ [c]) emitted next := by
  unfold stepOutside at stepped
  split at stepped
  · rename_i role
    cases stepped
    rw [semicolon_of_outside role]
    exact finished_advances settled holds (done_begins _)
  · rename_i role
    cases stepped
    exact step_blank_advances settled holds (blank_of_outside role)
  · cases stepped
    exact separated_advances settled holds (capture_begins c _)
  · cases stepped
  · rename_i op role
    exact step_operator_advances settled holds (outside_operator_symbol (.inl role)) stepped
  · rename_i op role
    exact step_operator_advances settled holds (outside_operator_symbol (.inr (.inl role))) stepped
  · rename_i op role
    exact step_operator_advances settled holds (outside_operator_symbol (.inr (.inr role))) stepped
  · exact step_text_advances settled holds (Except.ok.inj stepped)
  · exact step_text_advances settled holds (Except.ok.inj stepped)

theorem step_operand_gives_none {position : Nat} {c : Char} {emitted : Option (Located Lexeme)}
    {next : Scanner} (stepped : operand.stepOutside position c = .ok (emitted, next)) :
    emitted = none := by
  unfold stepOutside at stepped
  split at stepped <;> cases stepped <;> rfl

theorem joined_symbol {first double : Operator} {c : Char} (joined : first.join? c = some double) :
    double.symbol.toList = first.symbol.toList ++ [c] := by
  obtain ⟨row, found, rfl⟩ := Option.map_eq_some_iff.mp joined
  have matching := List.find?_some found
  have member := List.mem_of_find?_eq_some found
  simp only [Bool.and_eq_true, beq_iff_eq] at matching
  obtain ⟨rfl, rfl⟩ := matching
  revert row
  simp only [Operator.doubles]
  decide

theorem operand_holds_nothing (base : Nat) : Holds base [] operand := .operand all_blank_nil

theorem step_undecided_advances {first : Operator} {base origin : Nat} {held : List Char}
    {c : Char} {emitted : Option (Located Lexeme)} {next : Scanner}
    (holds : Holds base held (operator first origin))
    (stepped : (operator first origin).step (base + byteSize held) c = .ok (emitted, next)) :
    Advances base (held ++ [c]) emitted next := by
  cases holds with
  | @operator blanks op blank =>
      simp only [step] at stepped
      split at stepped
      · rename_i double joined
        cases stepped
        have written := Lexeme.Written.operator double
        rw [joined_symbol joined] at written
        refine .gives ?_ blank written (operand_holds_nothing _)
        rw [List.append_nil, List.append_assoc]
      · split at stepped
        · cases stepped
        · rename_i ignored after outsideStepped
          cases stepped
          refine .gives rfl blank (.operator first) ?_
          rw [step_operand_gives_none outsideStepped] at outsideStepped
          rw [byte_size_append, ← Nat.add_assoc] at outsideStepped
          cases step_outside_advances rfl (operand_holds_nothing _) outsideStepped with
          | silent holds => exact holds

theorem capture_continues {base origin : Nat} {held : List Char} {text : String}
    {escaped escapedNext : Bool} {delimiters delimitersNext : Delimiters} (c : Char)
    (holds : Holds base held (capture origin text escaped delimiters))
    (kept : ∀ opening, delimiters.EnteredBy opening → delimitersNext.EnteredBy opening) :
    Advances base (held ++ [c]) none (capture origin (text.push c) escapedNext delimitersNext) := by
  cases holds with
  | @capture blanks opening text escaped delimiters blank entered =>
      have longer := @Holds.capture base blanks opening (text.push c) escapedNext delimitersNext
        blank (kept opening entered)
      rw [String.toList_push, ← List.cons_append, ← List.append_assoc] at longer
      exact .silent longer

theorem step_closing_advances {base origin : Nat} {held : List Char} {text : String}
    {escaped : Bool} {delimiters : Delimiters} {position : Nat} {c partner : Char} {shape : Shape}
    {emitted : Option (Located Lexeme)} {next : Scanner}
    (holds : Holds base held (capture origin text escaped delimiters))
    (closes : Character.partner? c = some partner)
    (stepped : stepClosing origin text delimiters position c partner shape = .ok (emitted, next)) :
    Advances base (held ++ [c]) emitted next := by
  unfold stepClosing at stepped
  split at stepped
  · cases stepped
  · rename_i rest closed
    cases stepped
    cases holds with
    | @capture blanks opening text escaped delimiters blank entered =>
        have matching := Delimiters.close_complete entered closed
        refine .gives ?_ blank (.capture closes) .captured
        rw [matching, List.append_nil, List.append_assoc, List.cons_append]
  · rename_i rest closed
    cases stepped
    exact capture_continues c holds fun opening entered =>
      Delimiters.close_interior entered closed

theorem enclosed_partner {c partner : Char} {shape : Shape}
    (role : Character.enclosed c = some (.closing partner shape)) :
    Character.partner? c = some partner := by
  rcases character_cases c with ⟨e, rfl⟩ | ⟨b, rfl⟩ | plain
  · rw [enclosed_opener] at role
    cases role
  · rw [enclosed_closer] at role
    cases role
    exact partner_closer (.bracket b)
  · rw [enclosed_plain plain] at role
    cases role

theorem step_quoted_advances {base origin : Nat} {held : List Char} {text : String}
    {escaped : Bool} {delimiters : Delimiters} {quote : Char} {position : Nat} {c : Char}
    {emitted : Option (Located Lexeme)} {next : Scanner}
    (holds : Holds base held (capture origin text escaped delimiters))
    (isQuote : Character.isQuote quote = true)
    (stepped : stepQuoted origin text escaped delimiters quote position c = .ok (emitted, next)) :
    Advances base (held ++ [c]) emitted next := by
  unfold stepQuoted at stepped
  split at stepped
  · cases stepped
    exact capture_continues c holds fun _ => id
  · split at stepped
    · cases stepped
      exact capture_continues c holds fun _ => id
    · split at stepped
      · rename_i same
        subst same
        exact step_closing_advances holds (beq_iff_eq.mp isQuote) stepped
      · cases stepped
        exact capture_continues c holds fun _ => id

theorem step_enclosed_advances {base origin : Nat} {held : List Char} {text : String}
    {escaped : Bool} {delimiters : Delimiters} {position : Nat} {c : Char}
    {emitted : Option (Located Lexeme)} {next : Scanner}
    (holds : Holds base held (capture origin text escaped delimiters))
    (stepped : stepEnclosed origin text delimiters position c = .ok (emitted, next)) :
    Advances base (held ++ [c]) emitted next := by
  unfold stepEnclosed at stepped
  split at stepped
  · cases stepped
    exact capture_continues c holds fun opening entered =>
      Delimiters.insert_entered entered c position
  · rename_i partner shape role
    exact step_closing_advances holds (enclosed_partner role) stepped
  · cases stepped
    exact capture_continues c holds fun _ => id

theorem step_advances {s : Scanner} {base : Nat} {held : List Char} {c : Char}
    {emitted : Option (Located Lexeme)} {next : Scanner} (holds : Holds base held s)
    (stepped : s.step (base + byteSize held) c = .ok (emitted, next)) :
    Advances base (held ++ [c]) emitted next := by
  cases s with
  | start => exact step_outside_advances rfl holds stepped
  | gap space => exact step_outside_advances rfl holds stepped
  | word position text => exact step_outside_advances rfl holds stepped
  | operand => exact step_outside_advances rfl holds stepped
  | operator first origin => exact step_undecided_advances holds stepped
  | capture origin text escaped delimiters =>
      simp only [step] at stepped
      split at stepped
      · split at stepped
        · rename_i isQuote
          exact step_quoted_advances holds isQuote stepped
        · exact step_enclosed_advances holds stepped
      · exact step_enclosed_advances holds stepped
  | done =>
      cases stepped
      cases holds with
      | @done blanks ignored blank =>
          rw [List.append_assoc, List.cons_append]
          exact .silent (.done blank)

theorem finish_covers {s : Scanner} {base : Nat} {held : List Char}
    {last : Option (Located Lexeme)} (holds : Holds base held s) (finished : s.finish = .ok last) :
    Covers base held last.toList := by
  cases holds with
  | start blank =>
      cases finished
      exact covers_blanks base blank
  | operand blank =>
      cases finished
      exact covers_blanks base blank
  | captured =>
      cases finished
      exact covers_blanks base all_blank_nil
  | gap firstBlank blank =>
      cases finished
      exact covers_blanks base (all_blank_cons firstBlank blank)
  | word blank nonempty =>
      cases finished
      exact covers_single base blank (.name nonempty)
  | @operator blanks op blank =>
      cases finished
      exact covers_single base blank (.operator op)
  | @capture blanks opening text escaped delimiters blank entered =>
      -- A text that was entered is still open, so the end of the input is an error.
      obtain ⟨entry, outermost⟩ := entered
      simp only [finish] at finished
      split at finished
      · cases finished
      · rename_i nothing
        rw [Delimiters.innermost?, List.head?_eq_none_iff] at nothing
        rw [nothing] at outermost
        cases outermost
  | done blank =>
      cases finished
      exact .last blank (.inr ⟨_, rfl⟩)

theorem map_results_cons {lexeme : Located Lexeme} {depth : Nat} {rest : List Pull}
    {lexemes : List (Located Lexeme)}
    (collected : (⟨.ok lexeme, depth⟩ :: rest).mapM Pull.result = .ok lexemes) :
    ∃ others, lexemes = lexeme :: others ∧ rest.mapM Pull.result = .ok others := by
  rw [List.mapM_cons] at collected
  cases remaining : rest.mapM Pull.result with
  | error e =>
      rw [remaining] at collected
      cases collected
  | ok others =>
      rw [remaining] at collected
      cases collected
      exact ⟨others, rfl, rfl⟩

theorem collected_results {items : List Pull} {lexemes : List (Located Lexeme)}
    (collected : items.mapM Pull.result = .ok lexemes) :
    items.map Pull.result = lexemes.map .ok := by
  induction items generalizing lexemes with
  | nil =>
      cases collected
      rfl
  | cons pull rest induction =>
      obtain ⟨result, depth⟩ := pull
      cases result with
      | error e => cases collected
      | ok lexeme =>
          obtain ⟨others, rfl, remaining⟩ := map_results_cons collected
          rw [List.map_cons, List.map_cons, induction remaining]

theorem silent_reaches (base : Nat) (held : List Char) (c : Char) :
    base + byteSize held + c.utf8Size = base + byteSize (held ++ [c]) := by
  rw [byte_size_append, byte_size_cons, byte_size_nil]
  omega

theorem gives_reaches (base : Nat) {held blanks text after : List Char} {c : Char}
    (split : held ++ [c] = blanks ++ text ++ after) :
    base + byteSize held + c.utf8Size =
      base + byteSize blanks + byteSize text + byteSize after := by
  rw [silent_reaches, split, byte_size_append, byte_size_append]
  omega

theorem pulls_cover {s : Scanner} {base : Nat} {held cs : List Char}
    {lexemes : List (Located Lexeme)} (holds : Holds base held s)
    (collected : (s.pulls (base + byteSize held) cs).mapM Pull.result = .ok lexemes) :
    Covers base (held ++ cs) lexemes := by
  induction cs generalizing s base held lexemes with
  | nil =>
      rw [List.append_nil]
      simp only [pulls] at collected
      split at collected
      · rename_i lexeme finished
        obtain ⟨others, rfl, nothing⟩ := map_results_cons collected
        cases nothing
        exact finish_covers holds finished
      · rename_i finished
        cases collected
        exact finish_covers holds finished
      · cases collected
  | cons c rest induction =>
      simp only [pulls] at collected
      split at collected
      · rename_i lexeme next stepped
        obtain ⟨others, rfl, remaining⟩ := map_results_cons collected
        cases step_advances holds stepped with
        | @gives blanks text after item _ split blank written holds =>
            rw [gives_reaches base split] at remaining
            have covers := Covers.next blank written (induction holds remaining)
            rw [← List.append_assoc, ← split, List.append_assoc] at covers
            exact covers
      · rename_i next stepped
        cases step_advances holds stepped with
        | silent holds =>
            rw [silent_reaches] at collected
            have covers := induction holds collected
            rw [List.append_assoc] at covers
            exact covers
      · cases collected

/-- Also before an error, every lexeme stands where its position says, in the form it is written
in. -/
theorem pulls_stand {s : Scanner} {base : Nat} {held cs : List Char} {pull : Pull}
    {lexeme : Located Lexeme} (holds : Holds base held s)
    (member : pull ∈ s.pulls (base + byteSize held) cs) (given : pull.result = .ok lexeme) :
    ∃ text, lexeme.item.Written text ∧ StandsAt base (held ++ cs) lexeme.position text := by
  induction cs generalizing s base held with
  | nil =>
      rw [List.append_nil]
      simp only [pulls] at member
      split at member
      · rename_i last finished
        obtain rfl := List.mem_singleton.mp member
        cases given
        exact covers_stands (finish_covers holds finished) lexeme List.mem_cons_self
      · cases member
      · obtain rfl := List.mem_singleton.mp member
        cases given
  | cons c rest induction =>
      simp only [pulls] at member
      split at member
      · rename_i first next stepped
        cases step_advances holds stepped with
        | @gives blanks text after item _ split blank written holds =>
            rw [← List.singleton_append, ← List.append_assoc, split, List.append_assoc]
            rcases List.mem_cons.mp member with rfl | later
            · cases given
              exact ⟨text, written, blanks, after ++ rest, rfl, rfl⟩
            · rw [gives_reaches base split] at later
              obtain ⟨found, written, stands⟩ := induction holds later
              refine ⟨found, written, stands_at_prepend (blanks ++ text) ?_⟩
              rw [byte_size_append, ← Nat.add_assoc]
              exact stands
      · rename_i next stepped
        cases step_advances holds stepped with
        | silent holds =>
            rw [silent_reaches] at member
            rw [← List.singleton_append, ← List.append_assoc]
            exact induction holds member
      · obtain rfl := List.mem_singleton.mp member
        cases given

theorem pulls_base_le {s : Scanner} {base : Nat} {held cs : List Char} {pull : Pull}
    {lexeme : Located Lexeme} (holds : Holds base held s)
    (member : pull ∈ s.pulls (base + byteSize held) cs) (given : pull.result = .ok lexeme) :
    base ≤ lexeme.position := by
  obtain ⟨text, written, stands⟩ := pulls_stand holds member given
  exact stands_at_base_le stands

end Scanner

theorem scan_covers {source : String} {lexemes : List (Located Lexeme)}
    (scanned : scan source = .ok lexemes) : Covers 0 source.toList lexemes :=
  @Scanner.pulls_cover .start 0 [] source.toList lexemes (.start all_blank_nil) scanned

theorem pulled_stands {source : String} {pull : Scanner.Pull} {lexeme : Located Lexeme}
    (member : pull ∈ Scanner.pullsOf source) (given : pull.result = .ok lexeme) :
    ∃ text, lexeme.item.Written text ∧ StandsAt 0 source.toList lexeme.position text :=
  @Scanner.pulls_stand .start 0 [] source.toList pull lexeme (.start all_blank_nil) member given

/-- What a source and its lexemes have to do with each other when nothing is lost. -/
structure Lossless (source : String) (lexemes : List (Located Lexeme)) : Prop where
  boundary : ∀ lexeme ∈ lexemes, String.Pos.Raw.IsValid source ⟨lexeme.position⟩
  inside : ∀ lexeme ∈ lexemes, lexeme.position < source.utf8ByteSize
  nonempty : ∀ lexeme ∈ lexemes, lexeme.position < lexeme.stop
  increasing : lexemes.Pairwise fun left right => left.stop ≤ right.position
  /-- The text at a span is the written form of the lexeme, and fills the span. -/
  exact : ∀ lexeme ∈ lexemes, ∃ text, lexeme.item.Written text ∧
    lexeme.position + byteSize text = lexeme.stop ∧
    StandsAt 0 source.toList lexeme.position text
  /-- A character outside all spans is a blank, unless it is, or comes after, a semicolon that is
  outside all spans. -/
  blank : ∀ offset c, StandsAt 0 source.toList offset [c] → OutsideSpans lexemes offset →
    (∀ earlier ≤ offset, StandsAt 0 source.toList earlier [';'] → ¬OutsideSpans lexemes earlier) →
    IsBlank c

theorem scan_lossless (source : String) (lexemes : List (Located Lexeme))
    (scanned : scan source = .ok lexemes) : Lossless source lexemes := by
  have covers := scan_covers scanned
  have found := covers_stands covers
  refine { boundary := ?_, inside := ?_, nonempty := ?_, increasing := covers_increasing covers,
           exact := ?_, blank := ?_ }
  · intro lexeme member
    obtain ⟨text, written, stands⟩ := found lexeme member
    exact stands_at_boundary stands
  · intro lexeme member
    obtain ⟨text, written, stands⟩ := found lexeme member
    have positive := byte_size_pos (written_nonempty written)
    have bounded := stands_at_end_le stands
    rw [byte_size_to_list] at bounded
    omega
  · intro lexeme member
    obtain ⟨text, written, stands⟩ := found lexeme member
    have positive := byte_size_pos (written_nonempty written)
    rw [written_size written] at positive
    exact Nat.lt_add_of_pos_right positive
  · intro lexeme member
    obtain ⟨text, written, stands⟩ := found lexeme member
    refine ⟨text, written, ?_, stands⟩
    rw [written_size written]
    rfl
  · intro offset c stands outside unended
    exact covers_blank covers stands outside unended

theorem scan_lossless_mixed_line :
    let source := "é =\t[\"a;]\"] 1.5 x;)"
    let lexemes : List (Located Lexeme) := [⟨.name "é", 0⟩, ⟨.operator .assign, 3⟩,
      ⟨.capture .array ']' "\"a;]\"", 5⟩, ⟨.space, 12⟩, ⟨.name "1.5", 13⟩, ⟨.space, 16⟩,
      ⟨.name "x", 17⟩]
    scan source = .ok lexemes ∧ Lossless source lexemes :=
  ⟨rfl, scan_lossless _ _ rfl⟩

end LineShell
