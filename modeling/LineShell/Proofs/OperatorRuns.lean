import LineShell.Proofs.Blanks
import LineShell.Proofs.LexemeShape

/-!
Runs of operator characters. Each one is held back until the next character decides whether the two
make one operator, and a character that was not needed for that may itself be held back next. Main
statement: a run is split from the left, with two characters taken wherever they make an operator,
and no character of it is lost or put elsewhere, whether the text goes on or ends there.
-/

namespace LineShell

open Literal (byteSize)

namespace Operator

def all : List Operator :=
  [dot, assign, add, subtract, multiply, divide, modulo, less, greater, ampersand, pipe, bang,
    equalEqual, bangEqual, greaterEqual, lessEqual, bangBang, both, either]

def written? (cs : List Char) : Option Operator :=
  all.find? fun op => op.symbol.toList == cs

theorem written_symbol (op : Operator) : written? op.symbol.toList = some op := by
  cases op <;> rfl

theorem written_iff {cs : List Char} {op : Operator} :
    written? cs = some op ↔ op.symbol.toList = cs := by
  constructor
  · intro found
    have same := List.find?_some found
    exact beq_iff_eq.mp same
  · rintro rfl
    exact written_symbol op

theorem symbol_injective {left right : Operator}
    (same : left.symbol.toList = right.symbol.toList) : left = right := by
  have written := written_symbol left
  rw [same, written_symbol] at written
  exact (Option.some.inj written).symm

/-- Two characters make an operator if and only if the first one, as an operator of its own, is
joined by the second one. -/
theorem written_pair {c : Char} {op : Operator} (symbol : op.symbol.toList = [c]) (d : Char) :
    written? [c, d] = op.join? d := by
  ext double
  rw [written_iff]
  constructor
  · intro pair
    rcases double.first_cases with ⟨_, alone⟩ | ⟨second, joined⟩
    · obtain ⟨e, _, single, _⟩ := double.first_begins
      rw [alone, pair] at single
      cases single
    · have parts : [c] ++ [d] = double.first.symbol.toList ++ [second] := by
        rw [← Scanner.joined_symbol joined, pair]
        rfl
      obtain ⟨first, last⟩ := List.append_inj' parts rfl
      cases last
      rw [← symbol_injective (first.symm.trans symbol.symm)]
      exact joined
  · intro joined
    rw [Scanner.joined_symbol joined, symbol]
    rfl

/-- The operators of a run: the one of two characters where the next two make one, or else the one
of the next character, and so on. -/
def greedySplit : List Char → List Operator
  | [] => []
  | [c] => (written? [c]).toList
  | c :: d :: rest =>
    match written? [c, d] with
    | some double => double :: greedySplit rest
    | none => (written? [c]).toList ++ greedySplit (d :: rest)

def placed (position : Nat) : List Operator → List (Located Lexeme)
  | [] => []
  | op :: rest => ⟨.operator op, position⟩ :: placed (position + byteSize op.symbol.toList) rest

end Operator

theorem operator_character {c : Char} (operator : c ∈ operatorCharacters) :
    ∃ role op, Character.outside c = some role ∧ role.operator? = some op ∧
      op.symbol.toList = [c] := by
  simp only [operatorCharacters, List.mem_cons, List.not_mem_nil, or_false] at operator
  rcases operator with rfl | rfl | rfl | rfl | rfl | rfl | rfl | rfl | rfl | rfl | rfl | rfl <;>
    exact ⟨_, _, rfl, rfl, rfl⟩

theorem greedy_split_symbols {cs : List Char} (characters : ∀ c ∈ cs, c ∈ operatorCharacters) :
    (Operator.greedySplit cs).flatMap (fun op => op.symbol.toList) = cs := by
  induction cs using Operator.greedySplit.induct with
  | case1 => rfl
  | case2 c =>
      obtain ⟨_, op, _, _, symbol⟩ := operator_character (characters c List.mem_cons_self)
      simp [Operator.greedySplit, Operator.written_iff.mpr symbol, symbol]
  | case3 c d rest double pair induction =>
      obtain ⟨_, second⟩ := List.forall_mem_cons.mp characters
      obtain ⟨_, others⟩ := List.forall_mem_cons.mp second
      simp [Operator.greedySplit, pair, Operator.written_iff.mp pair, induction others]
  | case4 c d rest unpaired induction =>
      obtain ⟨character, others⟩ := List.forall_mem_cons.mp characters
      obtain ⟨_, op, _, _, symbol⟩ := operator_character character
      simp [Operator.greedySplit, unpaired, Operator.written_iff.mpr symbol, symbol,
        induction others]

theorem join_operator_character {op double : Operator} {c : Char}
    (joined : op.join? c = some double) : c ∈ operatorCharacters := by
  obtain ⟨row, found, _⟩ := Option.map_eq_some_iff.mp joined
  have matching := List.find?_some found
  have second : Operator.doubles.all (fun row => operatorCharacters.contains row.2.1) = true := by
    decide
  have member := List.all_eq_true.mp second row (List.mem_of_find?_eq_some found)
  simp only [Bool.and_eq_true, beq_iff_eq] at matching
  rw [← matching.2]
  exact List.contains_iff_mem.mp member

/-- What can come right after a run: a blank, the end of the line, an opening delimiter, or the first
character of a name or of a number. -/
def EndsRun (c : Char) : Prop :=
  Character.classify .outside c ∈ [some .blank, some .terminator, some .opening, some .digit, none]

instance (c : Char) : Decidable (EndsRun c) := inferInstanceAs (Decidable (_ ∈ _))

theorem join_run_end {c : Char} (ends : EndsRun c) (op : Operator) : op.join? c = none := by
  cases joined : op.join? c with
  | none => rfl
  | some double =>
      obtain ⟨role, first, found, begins, _⟩ := operator_character (join_operator_character joined)
      rw [EndsRun, Character.classify, found] at ends
      cases role <;> cases begins <;> simp [Role.kind] at ends

theorem run_end_unclosed {c : Char} (ends : EndsRun c) :
    Character.classify .outside c ≠ some .closing := by
  intro closing
  rw [EndsRun, closing] at ends
  simp at ends

theorem operator_character_unclosed {c : Char} (character : c ∈ operatorCharacters) :
    Character.classify .outside c ≠ some .closing := by
  obtain ⟨role, op, found, begins, _⟩ := operator_character character
  rw [Character.classify, found]
  cases role <;> cases begins <;> simp [Role.kind]

namespace Scanner

/-- What the scanner gives for these characters: lexemes, and the error that ended the scan. -/
def results (s : Scanner) (position : Nat) (cs : List Char) : List (Except Error (Located Lexeme)) :=
  (s.pulls position cs).map Pull.result

section Runs

variable {s next : Scanner} {position : Nat} {c : Char} {cs rest : List Char}

theorem results_of_step {emitted : Option (Located Lexeme)}
    (stepped : s.step position c = .ok (emitted, next)) (rest : List Char) :
    s.results position (c :: rest) =
      emitted.toList.map .ok ++ next.results (position + c.utf8Size) rest := by
  cases emitted with
  | none =>
      rw [results, pulls_of_silent stepped]
      rfl
  | some lexeme =>
      rw [results, pulls_of_given stepped]
      rfl

/-- After an operator every character can stand but a closing delimiter. -/
theorem operand_reads (unclosed : Character.classify .outside c ≠ some .closing) (position : Nat) :
    ∃ next, operand.step position c = .ok (none, next) := by
  simp only [step, stepOutside]
  split
  case h_4 found =>
    rw [Character.classify, found] at unclosed
    exact absurd rfl unclosed
  all_goals exact ⟨_, rfl⟩

/-- An operator that the next character does not join is given before that character is read, as
after any operator. -/
theorem results_undecided {first : Operator} (single : ∀ c ∈ cs.head?, first.join? c = none)
    (unclosed : ∀ c ∈ cs.head?, Character.classify .outside c ≠ some .closing)
    (origin position : Nat) : (operator first origin).results position cs =
      .ok ⟨.operator first, origin⟩ :: operand.results position cs := by
  cases cs with
  | nil => rfl
  | cons c rest =>
      have alone := single c rfl
      obtain ⟨next, read⟩ := operand_reads (unclosed c rfl) position
      have given : (operator first origin).step position c =
          .ok (some ⟨.operator first, origin⟩, next) := by
        simp only [step] at read ⊢
        simp only [alone, read]
      rw [results_of_step given, results_of_step read]
      rfl

theorem operand_begins {op : Operator} (character : c ∈ operatorCharacters)
    (symbol : op.symbol.toList = [c]) (position : Nat) :
    operand.step position c = .ok (none, operator op position) := by
  obtain ⟨role, other, found, begins, same⟩ := operator_character character
  rw [Operator.symbol_injective (symbol.trans same.symm)]
  exact step_operator_character found begins rfl position

theorem results_operator (has : s.hasOperand = true) (character : c ∈ operatorCharacters)
    (noPoint : c = '.' → Numeral.isInteger s.text = false) (position : Nat)
    (rest : List Char) : s.results position (c :: rest) =
      s.finishedName.toList.map .ok ++ operand.results position (c :: rest) := by
  obtain ⟨role, op, found, begins, symbol⟩ := operator_character character
  have pointless : ¬(op = .dot ∧ Numeral.isInteger s.text = true) := by
    rintro ⟨rfl, integer⟩
    have point : '.' = c := (List.cons.inj symbol).1
    rw [noPoint point.symm] at integer
    cases integer
  have ended : s.step position c = .ok (s.finishedName, operator op position) := by
    rw [step_operator_character found begins (operand_settled has)]
    exact step_operator_ends has pointless position c
  rw [results_of_step ended, results_of_step (operand_begins character symbol position)]
  rfl

/-- A whole run, after an operator. The induction is on the run as it is split: two characters that
make an operator are read in two steps, and a single one is held back until what comes after it is
read. -/
theorem results_run (characters : ∀ c ∈ cs, c ∈ operatorCharacters)
    (ends : ∀ c ∈ rest.head?, EndsRun c) (position : Nat) :
    operand.results position (cs ++ rest) =
      (Operator.placed position (Operator.greedySplit cs)).map .ok ++
        operand.results (position + byteSize cs) rest := by
  induction cs using Operator.greedySplit.induct generalizing position with
  | case1 => simp [Operator.greedySplit, Operator.placed]
  | case2 c =>
      have character := characters c List.mem_cons_self
      obtain ⟨_, op, _, _, symbol⟩ := operator_character character
      rw [List.singleton_append, results_of_step (operand_begins character symbol position),
        results_undecided (fun c first => join_run_end (ends c first) op)
          (fun c first => run_end_unclosed (ends c first))]
      simp [Operator.greedySplit, Operator.written_iff.mpr symbol, Operator.placed]
  | case3 c d others double pair induction =>
      obtain ⟨character, second⟩ := List.forall_mem_cons.mp characters
      obtain ⟨_, remaining⟩ := List.forall_mem_cons.mp second
      obtain ⟨_, op, _, _, symbol⟩ := operator_character character
      have joined : op.join? d = some double := by
        rw [← Operator.written_pair symbol]
        exact pair
      have made : (operator op position).step (position + c.utf8Size) d =
          .ok (some ⟨.operator double, position⟩, operand) := by
        simp only [step, joined]
      rw [List.cons_append, List.cons_append,
        results_of_step (operand_begins character symbol position), results_of_step made,
        induction remaining]
      simp [Operator.greedySplit, pair, Operator.placed, Operator.written_iff.mp pair,
        Nat.add_assoc]
  | case4 c d others unpaired induction =>
      obtain ⟨character, remaining⟩ := List.forall_mem_cons.mp characters
      obtain ⟨_, op, _, _, symbol⟩ := operator_character character
      -- The second character was not needed, and is read as the first one of what is left.
      have single : op.join? d = none := by
        rw [← Operator.written_pair symbol]
        exact unpaired
      have unclosed := operator_character_unclosed (remaining d List.mem_cons_self)
      rw [List.cons_append, results_of_step (operand_begins character symbol position),
        results_undecided (by simpa using single) (by simpa using unclosed),
        induction remaining]
      simp [Operator.greedySplit, unpaired, Operator.written_iff.mpr symbol, Operator.placed,
        symbol, Nat.add_assoc]

theorem start_gives_nothing {read : List Char}
    (reached : (start.trace 0 read).state = some start) : (start.trace 0 read).given = [] := by
  have keeps {count position : Nat} {s next : Scanner} {c : Char}
      {emitted : Option (Located Lexeme)} (kept : ∃ last, s.Follows last ∧ (last = none → count = 0))
      (stepped : s.step position c = .ok (emitted, next)) :
      ∃ last, next.Follows last ∧ (last = none → count + emitted.toList.length = 0) := by
    obtain ⟨last, follows, counted⟩ := kept
    cases step_continues follows stepped with
    | silent followsNext => exact ⟨last, followsNext, counted⟩
    | gives _ _ followsNext => exact ⟨_, followsNext, by simp⟩
  obtain ⟨_, nothing, counted⟩ :=
    @trace_keeps (fun count s => ∃ last, s.Follows last ∧ (last = none → count = 0)) keeps
      0 start start 0 read ⟨none, rfl, fun _ => rfl⟩ reached
  have empty := counted nothing
  rw [Nat.zero_add] at empty
  exact List.length_eq_zero_iff.mp empty

/-- Only before the first lexeme and after the end of the line is there nothing that an operator can
stand after. -/
theorem operand_before {read : List Char} (reached : (start.trace 0 read).state = some s)
    (mode : s.mode = .outside ∨ s.mode = .operand) (unfinished : s ≠ done)
    (begun : (start.trace 0 read).given ≠ [] ∨ s.text ≠ "") : s.hasOperand = true := by
  cases s with
  | gap | word | operand => rfl
  | operator | capture => rcases mode with mode | mode <;> cases mode
  | done => exact absurd rfl unfinished
  | start =>
      rcases begun with given | text
      · exact absurd (start_gives_nothing reached) given
      · exact absurd rfl text

end Runs
end Scanner

/-- In a line whose first part leaves the scanner outside delimiters, with something found that an
operator can stand after, operator characters are split from the left into the longest operators.
These come right after what was found in the first part, with the name that was being read there,
each where it is written, and what follows them is read as after any operator. -/
theorem operator_runs_split_greedily {front run rest : String} {s : Scanner}
    (reached : (Scanner.start.trace 0 front.toList).state = some s)
    (mode : s.mode = .outside ∨ s.mode = .operand) (unfinished : s ≠ .done)
    (begun : (Scanner.start.trace 0 front.toList).given ≠ [] ∨ s.text ≠ "")
    (nonempty : run ≠ "") (characters : ∀ c ∈ run.toList, c ∈ operatorCharacters)
    (noPoint : run.toList.head? = some '.' → Numeral.isInteger s.text = false)
    (ends : ∀ c ∈ rest.toList.head?, EndsRun c) :
    (Scanner.pullsOf (front ++ run ++ rest)).map Scanner.Pull.result =
      (Scanner.start.trace 0 front.toList).given.map Scanner.Pull.result ++
      (s.finishedName.toList ++
        Operator.placed front.utf8ByteSize (Operator.greedySplit run.toList)).map .ok ++
      Scanner.operand.results (front ++ run).utf8ByteSize rest.toList ∧
    String.join ((Operator.greedySplit run.toList).map Operator.symbol) = run := by
  have has := Scanner.operand_before reached mode unfinished begun
  constructor
  · have split := Scanner.results_run characters ends front.utf8ByteSize
    obtain ⟨first, others, whole⟩ : ∃ first others, run.toList = first :: others :=
      List.exists_cons_of_ne_nil (by simpa using nonempty)
    have ended := Scanner.results_operator has (characters first (by simp [whole]))
      (by simpa [whole] using noPoint) front.utf8ByteSize (others ++ rest.toList)
    rw [← List.cons_append, ← whole, split] at ended
    rw [Scanner.pullsOf, String.toList_append, String.toList_append, List.append_assoc,
      Scanner.pulls_append, Scanner.Trace.pulls, reached, Option.elim_some, List.map_append,
      Nat.zero_add, byte_size_to_list]
    change _ ++ s.results _ _ = _
    rw [ended, byte_size_to_list, String.utf8ByteSize_append, List.map_append]
    simp only [List.append_assoc]
  · rw [← String.toList_inj]
    refine Eq.trans ?_ (greedy_split_symbols characters)
    simp [List.flatMap_def, Function.comp_def]

theorem operator_runs_split_greedily_before_error :
    (Scanner.pullsOf ("(1) x" ++ "===!.-&" ++ " y)")).map Scanner.Pull.result =
      [.ok ⟨.capture .tuple ')' "1", 0⟩, .ok ⟨.space, 3⟩, .ok ⟨.name "x", 4⟩,
        .ok ⟨.operator .equalEqual, 5⟩, .ok ⟨.operator .assign, 7⟩, .ok ⟨.operator .bang, 8⟩,
        .ok ⟨.operator .dot, 9⟩, .ok ⟨.operator .subtract, 10⟩, .ok ⟨.operator .ampersand, 11⟩,
        .error ⟨.unexpectedToken ')', 14⟩] := by
  have ends : ∀ c ∈ " y)".toList.head?, EndsRun c := by
    intro c first
    cases first
    decide
  have run := @operator_runs_split_greedily "(1) x" "===!.-&" " y)" (.word 4 "x") rfl (.inl rfl)
    (by decide) (.inr (by decide)) (by decide) (by simp [operatorCharacters]) (by simp) ends
  exact run.1

end LineShell
