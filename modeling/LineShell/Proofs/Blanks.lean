import LineShell.Proofs.ScanStates
import LineShell.Proofs.Collecting
import LineShell.Proofs.DottedPath

/-!
Blanks that do not count. An operator puts an end to a name and drops the space before it, and the
blanks after it are passed over; so it makes no difference how many there are on either side, as
long as the operator itself is read as the same one. Before the first lexeme and before the end of
the line blanks are passed over too, and the end of the text is like a semicolon.
-/

namespace LineShell

open Literal (byteSize)

namespace Operator

/-- The operator that the first character of this one is by itself. -/
def first : Operator → Operator
  | equalEqual => assign
  | bangEqual | bangBang => bang
  | greaterEqual => greater
  | lessEqual => less
  | both => ampersand
  | either => pipe
  | op => op

theorem first_begins (op : Operator) : ∃ c role, op.first.symbol.toList = [c] ∧
    Character.outside c = some role ∧ role.operator? = some op.first := by
  cases op <;> exact ⟨_, _, rfl, rfl, rfl⟩

theorem first_cases (op : Operator) :
    op.isDouble = false ∧ op.first = op ∨ ∃ c, op.first.join? c = some op := by
  cases op with
  | dot | assign | add | subtract | multiply | divide | modulo | less | greater | ampersand | pipe
  | bang => exact .inl ⟨rfl, rfl⟩
  | equalEqual | bangEqual | greaterEqual | lessEqual => exact .inr ⟨'=', rfl⟩
  | bangBang => exact .inr ⟨'!', rfl⟩
  | both => exact .inr ⟨'&', rfl⟩
  | either => exact .inr ⟨'|', rfl⟩

theorem dot_of_first {op : Operator} (same : op.first = dot) : op = dot := by
  revert same
  cases op <;> decide

theorem join_blank (op : Operator) {c : Char} (blank : IsBlank c) : op.join? c = none := by
  simp only [IsBlank, List.mem_cons, List.not_mem_nil, or_false] at blank
  rcases blank with rfl | rfl | rfl | rfl <;> cases op <;> rfl

theorem join_semicolon (op : Operator) : op.join? ';' = none := by
  cases op <;> rfl

theorem join_of_unwritten {op : Operator} {c : Char}
    (unwritten : ∀ double : Operator, double.symbol ≠ op.symbol.push c) : op.join? c = none := by
  cases joined : op.join? c with
  | none => rfl
  | some double =>
      apply absurd _ (unwritten double)
      rw [← String.toList_inj, String.toList_push]
      exact Scanner.joined_symbol joined

end Operator

namespace Scanner

section Operators

variable {s : Scanner} {position : Nat} {before after rest : List Char}

theorem collect_blanks {blanks : List Char} (blank : AllBlank blanks)
    (settled : s.isSettled = true) (unnamed : s.finishedName = none)
    (stays : ∀ place, s.stepBlank place = s) (position : Nat) (rest : List Char) :
    s.collect position (blanks ++ rest) = s.collect (position + byteSize blanks) rest := by
  rw [collect, blanks_pulls position rest blank settled unnamed stays, collect]

/-- Whether an operator can stand here: something was found before it. -/
def hasOperand : Scanner → Bool
  | gap _ | word .. | operand => true
  | _ => false

theorem operand_settled (has : s.hasOperand = true) : s.isSettled = true := by
  cases s with
  | gap | word | operand => rfl
  | start | operator | capture | done => cases has

theorem step_operator_character {c : Char} {role : Role} {op : Operator}
    (found : Character.outside c = some role) (begins : role.operator? = some op)
    (settled : s.isSettled = true) (position : Nat) :
    s.step position c = s.stepOperator op position c := by
  rw [step_settled position settled, stepOutside, found]
  cases role <;> cases begins <;> rfl

theorem step_operator_ends {op : Operator} (has : s.hasOperand = true)
    (noPoint : ¬(op = .dot ∧ Numeral.isInteger s.text = true)) (position : Nat) (c : Char) :
    s.stepOperator op position c = .ok (s.finishedName, operator op position) := by
  cases s with
  | word origin text => exact if_neg noPoint
  | gap | operand => rfl
  | start | operator | capture | done => cases has

theorem blank_stays (has : s.hasOperand = true) (position : Nat) :
    (s.stepBlank position).hasOperand = true ∧ (s.stepBlank position).finishedName = none ∧
      (∀ place, (s.stepBlank position).stepBlank place = s.stepBlank position) ∧
      (s.stepBlank position).text = "" := by
  cases s with
  | gap space => cases space <;> exact ⟨rfl, rfl, fun _ => rfl, rfl⟩
  | word | operand => exact ⟨rfl, rfl, fun _ => rfl, rfl⟩
  | start | operator | capture | done => cases has

theorem collect_before {c : Char} {role : Role} {op : Operator}
    (found : Character.outside c = some role) (begins : role.operator? = some op)
    (has : s.hasOperand = true) (blank : AllBlank before)
    (noPoint : before = [] → ¬(op = .dot ∧ Numeral.isInteger s.text = true)) :
    s.collect position (before ++ c :: rest) =
      following s.finishedName.toList
        ((operator op (position + byteSize before)).collect
          (position + byteSize before + c.utf8Size) rest) := by
  have ended {s : Scanner} (has : s.hasOperand = true)
      (noPoint : ¬(op = .dot ∧ Numeral.isInteger s.text = true)) (place : Nat) :
      s.collect place (c :: rest) = following s.finishedName.toList
        ((operator op place).collect (place + c.utf8Size) rest) := by
    apply collect_of_step
    rw [step_operator_character found begins (operand_settled has)]
    exact step_operator_ends has noPoint place c
  -- Only without blanks is a name still being read, and can a point belong to it.
  cases before with
  | nil =>
      rw [List.nil_append, byte_size_nil, Nat.add_zero]
      exact ended has (noPoint rfl) position
  | cons b others =>
      obtain ⟨firstBlank, othersBlank⟩ := List.forall_mem_cons.mp blank
      have first := step_blank_character position (operand_settled has) firstBlank
      obtain ⟨still, unnamed, stays, textless⟩ := blank_stays has position
      have pointless : ¬(op = .dot ∧
          Numeral.isInteger (s.stepBlank position).text = true) := by
        rw [textless]
        intro both
        exact absurd both.2 (by decide)
      rw [List.cons_append, collect_of_step first,
        collect_blanks othersBlank (operand_settled still) unnamed stays, ended still pointless,
        unnamed, Option.toList_none, following_nothing, byte_size_cons, ← Nat.add_assoc]

/-- An operator between blanks, after something that can be its left operand: the name before it
ends, and whatever stands after it is read as its right operand. -/
theorem collect_operator {op : Operator} (has : s.hasOperand = true) (beforeBlank : AllBlank before)
    (afterBlank : AllBlank after)
    (noPoint : before = [] → ¬(op = .dot ∧ Numeral.isInteger s.text = true))
    (single : after = [] → op.isDouble = false → ∀ c ∈ rest.head?, op.join? c = none) :
    s.collect position (before ++ (op.symbol.toList ++ (after ++ rest))) =
      following (s.finishedName.toList ++ [⟨.operator op, position + byteSize before⟩])
        (operand.collect (position + byteSize before + byteSize op.symbol.toList + byteSize after)
          rest) := by
  obtain ⟨c, role, symbol, found, begins⟩ := op.first_begins
  have passed (place : Nat) := @collect_blanks operand _ afterBlank rfl rfl (fun _ => rfl) place rest
  have noPointFirst : before = [] →
      ¬(op.first = .dot ∧ Numeral.isInteger s.text = true) := by
    intro adjacent both
    exact noPoint adjacent ⟨Operator.dot_of_first both.1, both.2⟩
  rcases op.first_cases with ⟨notDouble, alone⟩ | ⟨second, joined⟩
  · have begun := @collect_before s position before (after ++ rest) c role op.first found begins has
      beforeBlank noPointFirst
    rw [alone] at symbol begun
    have undecided : ∀ next ∈ (after ++ rest).head?, op.join? next = none := by
      intro next member
      cases after with
      | nil => exact single rfl notDouble next member
      | cons b others =>
          cases member
          exact op.join_blank (afterBlank _ List.mem_cons_self)
    rw [symbol, List.singleton_append, begun, collect_undecided undecided, passed,
      following_following, byte_size_cons, byte_size_nil, Nat.add_zero]
  · have begun := @collect_before s position before (second :: (after ++ rest)) c role op.first found
      begins has beforeBlank noPointFirst
    have whole : op.symbol.toList = [c, second] := by
      rw [joined_symbol joined, symbol]
      rfl
    have given (origin place : Nat) : (operator op.first origin).step place second =
        .ok (some ⟨.operator op, origin⟩, operand) := by
      simp only [step, joined]
    rw [whole, List.cons_append, List.singleton_append, begun, collect_of_step (given _ _), passed,
      following_following, Option.toList_some]
    simp only [byte_size_cons, byte_size_nil, Nat.add_zero, Nat.add_assoc]

theorem collect_leading_operator (op : Operator) : ∃ c : Char, ∀ position rest,
    start.collect position (op.symbol.toList ++ rest) =
      .error ⟨.unexpectedToken c, position⟩ := by
  obtain ⟨c, role, symbol, found, begins⟩ := op.first_begins
  have begun : ∃ others, op.symbol.toList = c :: others := by
    rcases op.first_cases with ⟨_, alone⟩ | ⟨second, joined⟩
    · exact ⟨[], by rw [← symbol, alone]⟩
    · exact ⟨[second], by rw [joined_symbol joined, symbol]; rfl⟩
  obtain ⟨others, split⟩ := begun
  refine ⟨c, ?_⟩
  intro position rest
  rw [split, List.cons_append]
  apply collect_of_failed
  rw [step_operator_character found begins rfl]
  rfl

theorem collect_around_operator {op : Operator} {places : Nat → Nat}
    (settled : s.isSettled = true) (beforeBlank : AllBlank before) (afterBlank : AllBlank after)
    (noPoint : ¬(op = .dot ∧ Numeral.isInteger s.text = true))
    (single : op.isDouble = false → ∀ c ∈ rest.head?, op.join? c = none)
    (held : s.move places = s) (here : places position = position + byteSize before)
    (later : ∀ place, position + byteSize op.symbol.toList ≤ place →
      places place = place + (byteSize before + byteSize after)) :
    s.collect position (before ++ (op.symbol.toList ++ (after ++ rest))) =
      relocate places (s.collect position (op.symbol.toList ++ rest)) := by
  by_cases has : s.hasOperand = true
  · have spread := @collect_operator s position before after rest op has beforeBlank afterBlank
      (fun _ => noPoint) (fun _ => single)
    have close := @collect_operator s position [] [] rest op has all_blank_nil all_blank_nil
      (fun _ => noPoint) (fun _ => single)
    have named : s.finishedName.toList.map (Located.move places) = s.finishedName.toList := by
      rw [← Option.toList_map, ← move_finished_name, held]
    have moved := @collect_moves (position + byteSize op.symbol.toList) rest places
      (byteSize before + byteSize after) operand (fun place lower _ => later place lower)
    simp only [List.nil_append, byte_size_nil, Nat.add_zero] at close
    have reached : position + byteSize before + byteSize op.symbol.toList + byteSize after =
        position + byteSize op.symbol.toList + (byteSize before + byteSize after) := by omega
    rw [spread, close, relocate_following, ← moved, List.map_append, named, reached]
    simp only [Scanner.move, List.map_cons, List.map_nil, Located.move, here]
  · -- With nothing before it the operator is an error at its own place, blanks or not.
    have first : s = start := by
      cases s with
      | start => rfl
      | gap | word | operand => exact absurd rfl has
      | operator | capture | done => cases settled
    subst first
    obtain ⟨c, failed⟩ := collect_leading_operator op
    rw [collect_blanks beforeBlank rfl rfl (fun _ => rfl), failed, failed, relocate_error,
      Error.move, here]

end Operators

section Ends

variable {s : Scanner} {last : Option (Located Lexeme)}

theorem step_semicolon (outside : s.isShut = true) (finished : s.finish = .ok last)
    (position : Nat) : s.step position ';' = .ok (last, done) := by
  cases s with
  | start | gap | word | operand | done =>
      cases finished
      rfl
  | operator first origin =>
      cases finished
      simp only [step, first.join_semicolon]
      rfl
  | capture => cases outside

/-- A blank gives nothing that the end of the text would not give, and leaves the rest of it. -/
theorem step_blank_before_end {c : Char} (blank : IsBlank c) (outside : s.isShut = true)
    (finished : s.finish = .ok last) (position : Nat) : ∃ emitted next left,
      s.step position c = .ok (emitted, next) ∧ next.isShut = true ∧
        next.finish = .ok left ∧ emitted.toList ++ left.toList = last.toList := by
  cases s with
  | start | operand | word =>
      cases finished
      exact ⟨_, _, none, step_blank_character position rfl blank, rfl, rfl,
        rfl⟩
  | gap space =>
      cases finished
      refine ⟨_, _, none, step_blank_character position rfl blank, ?_, ?_, rfl⟩
      · cases space <;> rfl
      · cases space <;> rfl
  | operator first origin =>
      cases finished
      have passed : operand.stepOutside position c = .ok (none, operand) :=
        @step_blank_character operand c position rfl blank
      refine ⟨some ⟨.operator first, origin⟩, operand, none, ?_, rfl, rfl, rfl⟩
      simp only [step, first.join_blank blank, passed]
  | done =>
      cases finished
      exact ⟨none, done, none, rfl, outside, rfl, rfl⟩
  | capture => cases outside

theorem collect_semicolon {blanks : List Char} (blank : AllBlank blanks)
    (outside : s.isShut = true) (finished : s.finish = .ok last) (position : Nat)
    (rest : List Char) : s.collect position (blanks ++ ';' :: rest) = .ok last.toList := by
  induction blanks generalizing s last position with
  | nil =>
      rw [List.nil_append, collect_of_step (step_semicolon outside finished position), collect_done,
        following_ok, List.append_nil]
  | cons c others induction =>
      obtain ⟨first, remaining⟩ := List.forall_mem_cons.mp blank
      obtain ⟨emitted, next, left, stepped, nextOutside, nextFinished, same⟩ :=
        step_blank_before_end first outside finished position
      rw [List.cons_append, collect_of_step stepped, induction remaining nextOutside nextFinished,
        following_ok, same]

end Ends
end Scanner

/-- Where an offset comes to lie when this many bytes are inserted in a text. -/
def makeRoom (insertion size place : Nat) : Nat :=
  if place < insertion then place else place + size

theorem room_before {insertion place : Nat} (earlier : place < insertion) (size : Nat) :
    makeRoom insertion size place = place := if_pos earlier

theorem room_after {insertion place : Nat} (later : insertion ≤ place) (size : Nat) :
    makeRoom insertion size place = place + size := if_neg (Nat.not_lt.mpr later)

/-- However many blanks stand around an operator, the same lexemes are found in the same order, or
the same is wrong; only the places after the blanks are moved by them. A point after an integer
would begin its fraction, and two characters that are an operator must not come together. -/
theorem blanks_around_operator_do_not_count (front left right rest : String) (s : Scanner)
    (op : Operator) (reached : (Scanner.start.trace 0 front.toList).state = some s)
    (settled : s.isSettled = true)
    (noPoint : ¬(op = .dot ∧ Numeral.isInteger s.text = true))
    (single : op.isDouble = false → ∀ c ∈ rest.toList.head?, ∀ double : Operator,
      double.symbol ≠ op.symbol.push c)
    (leftBlank : AllBlank left.toList) (rightBlank : AllBlank right.toList) :
    scan (front ++ left ++ op.symbol ++ right ++ rest) =
      relocate (makeRoom front.utf8ByteSize left.utf8ByteSize ∘
          makeRoom (front.utf8ByteSize + op.symbol.utf8ByteSize) right.utf8ByteSize)
        (scan (front ++ op.symbol ++ rest)) := by
  obtain ⟨given, results, collected⟩ := Scanner.collect_append reached
  have spread : (front ++ left ++ op.symbol ++ right ++ rest).toList =
      front.toList ++ (left.toList ++ (op.symbol.toList ++ (right.toList ++ rest.toList))) := by
    simp [String.toList_append]
  have close : (front ++ op.symbol ++ rest).toList =
      front.toList ++ (op.symbol.toList ++ rest.toList) := by
    simp [String.toList_append]
  have nonempty := byte_size_pos (operator_symbol_nonempty op)
  simp only [← byte_size_to_list]
  generalize room : makeRoom (byteSize front.toList) (byteSize left.toList) ∘
    makeRoom (byteSize front.toList + byteSize op.symbol.toList) (byteSize right.toList) = places
  have unmoved (place : Nat) (earlier : place < byteSize front.toList) : places place = place := by
    have inOperator : place < byteSize front.toList + byteSize op.symbol.toList := by omega
    rw [← room, Function.comp_apply, room_before inOperator, room_before earlier]
  have here : places (byteSize front.toList) = byteSize front.toList + byteSize left.toList := by
    have inOperator : byteSize front.toList <
        byteSize front.toList + byteSize op.symbol.toList := by omega
    rw [← room, Function.comp_apply, room_before inOperator, room_after (Nat.le_refl _)]
  have later (place : Nat) (lower : byteSize front.toList + byteSize op.symbol.toList ≤ place) :
      places place = place + (byteSize left.toList + byteSize right.toList) := by
    have afterFront : byteSize front.toList ≤ place + byteSize right.toList := by omega
    rw [← room, Function.comp_apply, room_after lower, room_after afterFront]
    omega
  obtain ⟨givenUnmoved, held⟩ := Scanner.trace_unmoved unmoved reached results
  change Scanner.start.collect 0 _ = relocate places (Scanner.start.collect 0 _)
  rw [spread, close, collected, collected, relocate_following, givenUnmoved, Nat.zero_add]
  congr 1
  apply Scanner.collect_around_operator settled leftBlank rightBlank noPoint _ held here later
  intro notDouble c member
  exact Operator.join_of_unwritten (single notDouble c member)

theorem blanks_around_point_after_space :
    (Scanner.start.trace 0 "1 ".toList).state = some (.gap (some 1)) ∧
    scan "1 .f(2)" = .ok [⟨.name "1", 0⟩, ⟨.operator .dot, 2⟩, ⟨.name "f", 3⟩,
      ⟨.capture .tuple ')' "2", 4⟩] ∧
    scan ("1 " ++ "\t" ++ "." ++ " \n" ++ "f(2)") =
      relocate (makeRoom 2 1 ∘ makeRoom 3 2) (scan "1 .f(2)") := by
  have unjoined : ∀ double : Operator, double.symbol ≠ Operator.dot.symbol.push 'f' := by
    intro double
    cases double <;> decide
  refine ⟨rfl, rfl, ?_⟩
  apply blanks_around_operator_do_not_count "1 " "\t" " \n" "f(2)" (.gap (some 1)) .dot rfl rfl
  · decide
  · intro _ c member
    cases member
    exact unjoined
  · change AllBlank ['\t']
    simp [AllBlank, IsBlank]
  · change AllBlank [' ', '\n']
    simp [AllBlank, IsBlank]

/-- The end of the text is like a semicolon with anything after it, blanks before either one do not
count, and blanks at the beginning only move everything, errors included. -/
theorem outer_blanks_and_end_do_not_count (blanks : String) (blank : AllBlank blanks.toList) :
    (∀ source lexemes trailing, scan source = .ok lexemes →
      scan (source ++ blanks ++ ";" ++ trailing) = .ok lexemes) ∧
    ∀ source, scan (blanks ++ source) = relocate (· + blanks.utf8ByteSize) (scan source) := by
  constructor
  · intro source lexemes trailing scanned
    obtain ⟨s, last, reached, outside, finished, results⟩ := scan_ends_outside scanned
    obtain ⟨given, results', collected⟩ := Scanner.collect_append reached
    have whole : given ++ last.toList = lexemes := by
      rw [results', ← List.map_append] at results
      exact (List.map_inj_right fun _ _ => Except.ok.inj).mp results
    have text : (source ++ blanks ++ ";" ++ trailing).toList =
        source.toList ++ (blanks.toList ++ ';' :: trailing.toList) := by
      simp [String.toList_append]
    change Scanner.start.collect 0 _ = _
    rw [text, collected, Scanner.collect_semicolon blank outside finished, following_ok, whole]
  · intro source
    have passed := @Scanner.collect_blanks .start blanks.toList blank rfl rfl (fun _ => rfl) 0
      source.toList
    have moved := @Scanner.collect_moves 0 source.toList (· + blanks.utf8ByteSize)
      blanks.utf8ByteSize .start (fun _ _ _ => rfl)
    rw [byte_size_to_list] at passed
    change Scanner.start.collect 0 (blanks ++ source).toList = _
    rw [String.toList_append, passed]
    exact moved

theorem blanks_around_failing_line :
    AllBlank "\t ".toList ∧
    scan "a !" = .ok [⟨.name "a", 0⟩, ⟨.operator .bang, 2⟩] ∧
    scan ("a !" ++ "\t " ++ ";" ++ "= )") = .ok [⟨.name "a", 0⟩, ⟨.operator .bang, 2⟩] ∧
    scan ("\t " ++ "a [(") = .error ⟨.unclosedDelimiter '(', 5⟩ := by
  have blank : AllBlank "\t ".toList := by
    change AllBlank ['\t', ' ']
    simp [AllBlank, IsBlank]
  have uncounted := outer_blanks_and_end_do_not_count "\t " blank
  exact ⟨blank, rfl, uncounted.1 "a !" _ "= )" rfl, uncounted.2 "a [("⟩

end LineShell
