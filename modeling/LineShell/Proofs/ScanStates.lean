import LineShell.Machine
import LineShell.Proofs.Trace

/-!
The states that a scanner comes to. A capture holds at least one delimiter, of which only the
innermost can be a quote, and something was given before an operator or a gap. So the end of a text
within delimiters is always an error, and a scan without one ends outside them.
-/

namespace LineShell

open Literal (byteSize)

/-- Delimiters as a capture holds them: at least one is open, only the innermost can be a quote, and
only in a quote a backslash waits for the next character. -/
def Delimiters.Nested (escaped : Bool) (d : Delimiters) : Prop :=
  ∃ top below, d.stack = top :: below ∧ d.entry = some 0 ∧
    (∀ opening ∈ below, Character.isQuote opening.delimiter = false) ∧
    (escaped = true → Character.isQuote top.delimiter = true)

namespace Delimiters

theorem unescaped_nested {d : Delimiters} {top : Opening} {below : List Opening}
    (stack : d.stack = top :: below) (entry : d.entry = some 0)
    (brackets : ∀ opening ∈ below, Character.isQuote opening.delimiter = false) :
    d.Nested false :=
  ⟨top, below, stack, entry, brackets, fun waits => absurd waits Bool.false_ne_true⟩

theorem first_nested (c : Char) (position : Nat) : (empty.insert c position).Nested false :=
  unescaped_nested rfl rfl (List.forall_mem_nil _)

theorem insert_nested {d : Delimiters} {escaped : Bool} (nested : d.Nested escaped)
    (between : ∀ top, d.innermost? = some top → Character.isQuote top.delimiter = false)
    (c : Char) (position : Nat) : (d.insert c position).Nested false := by
  obtain ⟨top, below, stack, entry, brackets, _⟩ := nested
  have outer : Character.isQuote top.delimiter = false := by
    apply between
    rw [innermost?, stack, List.head?_cons]
  apply @unescaped_nested _ ⟨c, position⟩ d.stack rfl
  · rw [insert, entry, Option.getD_some]
  · rw [stack]
    exact List.forall_mem_cons.mpr ⟨outer, brackets⟩

theorem close_interior_nested {d rest : Delimiters} {escaped : Bool} {c partner : Char}
    {position : Nat} (nested : d.Nested escaped)
    (closed : d.close c partner position = .ok (.interior, rest)) : rest.Nested false := by
  obtain ⟨top, below, stack, entry, brackets, _⟩ := nested
  obtain ⟨_, left, split, _, ⟨complete, _⟩ | ⟨_, unfinished, rfl⟩⟩ := close_ok_cases closed
  · cases complete
  · rw [stack] at split
    cases split
    cases below with
    | nil => exact absurd entry unfinished
    | cons next others =>
        exact unescaped_nested rfl entry (List.forall_mem_cons.mp brackets).2

end Delimiters

namespace Scanner

/-- A state after this many lexemes were given: only before the first one, or in the first name or
text, can there be none. -/
def Sound (given : Nat) : Scanner → Prop
  | gap _ | operator .. | operand => 0 < given
  | capture _ _ escaped delimiters => delimiters.Nested escaped
  | start | word .. | done => True

section Steps

variable {given position : Nat} {s next : Scanner} {c : Char}
  {emitted : Option (Located Lexeme)}

theorem step_blank_sound (sound : s.Sound given) :
    (s.stepBlank position).Sound (given + s.finishedName.toList.length) := by
  cases s with
  | word origin text => exact Nat.succ_pos given
  | gap space => cases space <;> exact sound
  | start | operator | operand | capture | done => exact sound

theorem step_text_sound (stepped : s.stepText position c = (emitted, next)) :
    next.Sound (given + emitted.toList.length) := by
  unfold stepText at stepped
  split at stepped
  · cases stepped
    trivial
  · cases stepped
    trivial

theorem step_operator_sound {op : Operator} (settled : s.isSettled = true)
    (sound : s.Sound given) (stepped : s.stepOperator op position c = .ok (emitted, next)) :
    next.Sound (given + emitted.toList.length) := by
  cases s with
  | start => cases stepped
  | word origin text =>
      simp only [stepOperator] at stepped
      split at stepped
      · cases stepped
        trivial
      · cases stepped
        exact Nat.succ_pos given
  | gap space =>
      cases stepped
      exact sound
  | operand =>
      cases stepped
      exact sound
  | operator | capture | done => cases settled

theorem step_outside_sound (settled : s.isSettled = true) (sound : s.Sound given)
    (stepped : s.stepOutside position c = .ok (emitted, next)) :
    next.Sound (given + emitted.toList.length) := by
  unfold stepOutside at stepped
  split at stepped
  · cases stepped
    trivial
  · cases stepped
    exact step_blank_sound sound
  · cases stepped
    exact Delimiters.first_nested c position
  · cases stepped
  · exact step_operator_sound settled sound stepped
  · exact step_operator_sound settled sound stepped
  · exact step_operator_sound settled sound stepped
  · exact step_text_sound (Except.ok.inj stepped)
  · exact step_text_sound (Except.ok.inj stepped)

theorem step_undecided_sound {first : Operator} {origin : Nat}
    (stepped : (operator first origin).step position c = .ok (emitted, next)) :
    next.Sound (given + emitted.toList.length) := by
  simp only [step] at stepped
  split at stepped
  · cases stepped
    exact Nat.succ_pos given
  · split at stepped
    · cases stepped
    · rename_i outsideStepped
      cases stepped
      -- The operator is given first, so the operand begins with one lexeme more.
      have sound : operand.Sound (given + 1) := Nat.succ_pos given
      rw [step_operand_gives_none outsideStepped] at outsideStepped
      have sound := step_outside_sound rfl sound outsideStepped
      exact sound

section Captures

variable {origin : Nat} {text : String} {escaped : Bool} {delimiters : Delimiters}

theorem step_closing_sound {partner : Char} {shape : Shape} (nested : delimiters.Nested escaped)
    (stepped : stepClosing origin text delimiters position c partner shape = .ok (emitted, next)) :
    next.Sound (given + emitted.toList.length) := by
  unfold stepClosing at stepped
  split at stepped
  · cases stepped
  · cases stepped
    exact Nat.succ_pos given
  · rename_i rest closed
    cases stepped
    exact Delimiters.close_interior_nested nested closed

theorem step_quoted_sound {quote : Char} (nested : delimiters.Nested escaped)
    (inside : ∀ flag, delimiters.Nested flag)
    (stepped : stepQuoted origin text escaped delimiters quote position c = .ok (emitted, next)) :
    next.Sound (given + emitted.toList.length) := by
  unfold stepQuoted at stepped
  split at stepped
  · cases stepped
    exact inside false
  · split at stepped
    · cases stepped
      exact inside true
    · split at stepped
      · exact step_closing_sound nested stepped
      · cases stepped
        exact inside false

theorem step_enclosed_sound (nested : delimiters.Nested escaped)
    (between : ∀ top, delimiters.innermost? = some top →
      Character.isQuote top.delimiter = false)
    (stepped : stepEnclosed origin text delimiters position c = .ok (emitted, next)) :
    next.Sound (given + emitted.toList.length) := by
  unfold stepEnclosed at stepped
  split at stepped
  · cases stepped
    exact Delimiters.insert_nested nested between c position
  · exact step_closing_sound nested stepped
  · cases stepped
    obtain ⟨top, below, stack, entry, brackets, _⟩ := nested
    exact Delimiters.unescaped_nested stack entry brackets

theorem step_capture_sound (nested : delimiters.Nested escaped)
    (stepped : (capture origin text escaped delimiters).step position c = .ok (emitted, next)) :
    next.Sound (given + emitted.toList.length) := by
  have held := nested
  obtain ⟨top, below, stack, entry, brackets, _⟩ := held
  have innermost : delimiters.innermost? = some top := by
    rw [Delimiters.innermost?, stack, List.head?_cons]
  simp only [step, innermost] at stepped
  split at stepped
  · rename_i quote
    have inside (flag : Bool) : delimiters.Nested flag :=
      ⟨top, below, stack, entry, brackets, fun _ => quote⟩
    exact step_quoted_sound nested inside stepped
  · rename_i noQuote
    apply step_enclosed_sound nested _ stepped
    intro other found
    rw [innermost] at found
    cases found
    exact Bool.eq_false_iff.mpr noQuote

end Captures

theorem step_sound (sound : s.Sound given) (stepped : s.step position c = .ok (emitted, next)) :
    next.Sound (given + emitted.toList.length) := by
  cases s with
  | start => exact step_outside_sound rfl sound stepped
  | gap space => exact step_outside_sound rfl sound stepped
  | word origin text => exact step_outside_sound rfl sound stepped
  | operand => exact step_outside_sound rfl sound stepped
  | operator first origin => exact step_undecided_sound stepped
  | capture origin text escaped delimiters => exact step_capture_sound sound stepped
  | done =>
      cases stepped
      trivial

end Steps

theorem trace_sound {read : List Char} {s : Scanner}
    (reached : (start.trace 0 read).state = some s) :
    s.Sound (start.trace 0 read).given.length := by
  have sound := @trace_keeps Sound step_sound 0 start s 0 read trivial reached
  rw [Nat.zero_add] at sound
  exact sound

def mode : Scanner → Mode
  | start | gap _ | word .. | done => .outside
  | operator first position => .operator first position
  | operand => .operand
  | capture origin .. => .capture origin

def text : Scanner → String
  | word _ text => text
  | capture _ text .. => text
  | _ => ""

def isShut : Scanner → Bool
  | capture .. => false
  | _ => true

/-- A text must not end within delimiters. -/
theorem finished_outside {s : Scanner} {given : Nat} {last : Option (Located Lexeme)}
    (sound : s.Sound given) (finished : s.finish = .ok last) : s.isShut = true := by
  cases s with
  | capture origin text escaped delimiters =>
      obtain ⟨top, below, stack, _⟩ := sound
      simp only [finish, Delimiters.innermost?, stack, List.head?_cons] at finished
      cases finished
  | start | gap | word | operator | operand | done => rfl

theorem end_pulls {s : Scanner} {last : Option (Located Lexeme)} (finished : s.finish = .ok last)
    (position : Nat) :
    (s.pulls position []).map Pull.result = last.toList.map .ok := by
  rw [pulls, finished]
  cases last <;> rfl

end Scanner

/-- A scan without errors ends outside delimiters, and what it gave while it read, with what was left
at the end, is all it found. -/
theorem scan_ends_outside {source : String} {lexemes : List (Located Lexeme)}
    (scanned : scan source = .ok lexemes) :
    ∃ s last, (Scanner.start.trace 0 source.toList).state = some s ∧ s.isShut = true ∧
      s.finish = .ok last ∧ (Scanner.start.trace 0 source.toList).given.map Scanner.Pull.result ++
        last.toList.map .ok = lexemes.map .ok := by
  have results := Scanner.collected_results scanned
  have noError {e : Error} : .error e ∉ (Scanner.pullsOf source).map Scanner.Pull.result := by
    rw [results]
    simp
  have whole := Scanner.pulls_append .start 0 source.toList []
  rw [List.append_nil, Scanner.Trace.pulls] at whole
  rw [Scanner.pullsOf, whole, List.map_append] at results noError
  cases reached : (Scanner.start.trace 0 source.toList).state with
  | none =>
      obtain ⟨pull, member, e, failed⟩ := Scanner.trace_failed reached
      have found := List.mem_map_of_mem (f := Scanner.Pull.result) member
      rw [failed] at found
      exact absurd (List.mem_append_left _ found) noError
  | some s =>
      rw [reached, Option.elim_some] at results noError
      cases finished : s.finish with
      | error e =>
          have found : .error e ∈ (s.pulls (0 + byteSize source.toList) []).map
              Scanner.Pull.result := by
            rw [Scanner.pulls, finished]
            exact List.mem_cons_self
          exact absurd (List.mem_append_right _ found) noError
      | ok last =>
          rw [Scanner.end_pulls finished] at results
          have outside := Scanner.finished_outside (Scanner.trace_sound reached) finished
          exact ⟨s, last, rfl, outside, finished, results⟩

end LineShell
