import LineShell.Proofs.Capture

/-!
A scan that has read some of a text: what it has given so far, and the state it goes on from unless
an error ended it. Main statement: what is pulled from a longer text is what was given so far, and
then what the state reached gives for the rest.
-/

namespace LineShell.Scanner

open Literal (byteSize)

structure Trace where
  given : List Pull
  /-- The state after the last character; none after an error. -/
  state : Option Scanner

def Trace.prepend (pull : Pull) (t : Trace) : Trace := ⟨pull :: t.given, t.state⟩

/-- What comes of reading these characters, with nothing said of the end of the text. -/
def trace (s : Scanner) (position : Nat) : List Char → Trace
  | [] => ⟨[], some s⟩
  | c :: rest =>
    match s.step position c with
    | .ok (some lexeme, next) =>
      (trace next (position + c.utf8Size) rest).prepend ⟨.ok lexeme, next.depth⟩
    | .ok (none, next) => trace next (position + c.utf8Size) rest
    | .error e => ⟨[⟨.error e, s.depth⟩], none⟩

/-- What a scan gives in all, if these characters follow what it has read. -/
def Trace.pulls (t : Trace) (position : Nat) (rest : List Char) : List Pull :=
  t.given ++ t.state.elim [] fun s => s.pulls position rest

section Steps

variable {s next : Scanner} {position : Nat} {c : Char}

theorem trace_of_silent (stepped : s.step position c = .ok (none, next)) (rest : List Char) :
    s.trace position (c :: rest) = next.trace (position + c.utf8Size) rest := by
  rw [trace, stepped]

theorem trace_of_given {lexeme : Located Lexeme}
    (stepped : s.step position c = .ok (some lexeme, next)) (rest : List Char) :
    s.trace position (c :: rest) =
      (next.trace (position + c.utf8Size) rest).prepend ⟨.ok lexeme, next.depth⟩ := by
  rw [trace, stepped]

theorem trace_of_failed {e : Error} (stepped : s.step position c = .error e)
    (rest : List Char) : s.trace position (c :: rest) = ⟨[⟨.error e, s.depth⟩], none⟩ := by
  rw [trace, stepped]

end Steps

theorem pulls_append (s : Scanner) (position : Nat) (cs rest : List Char) :
    s.pulls position (cs ++ rest) =
      (s.trace position cs).pulls (position + byteSize cs) rest := by
  induction cs generalizing s position with
  | nil =>
      rw [byte_size_nil, Nat.add_zero]
      rfl
  | cons c others induction =>
      rw [List.cons_append, byte_size_cons, ← Nat.add_assoc]
      cases stepped : s.step position c with
      | error e =>
          rw [pulls_of_failed stepped, trace_of_failed stepped]
          rfl
      | ok outcome =>
          obtain ⟨emitted, next⟩ := outcome
          cases emitted with
          | none =>
              rw [pulls_of_silent stepped, trace_of_silent stepped]
              exact induction next _
          | some lexeme =>
              rw [pulls_of_given stepped, trace_of_given stepped]
              exact congrArg (⟨.ok lexeme, next.depth⟩ :: ·) (induction next _)

/-- After an error, and after the end of the line, what follows does not count. -/
theorem pulls_append_of_ended {s : Scanner} {position : Nat} {cs : List Char}
    (ended : ∀ next, (s.trace position cs).state = some next → next = done) (rest : List Char) :
    s.pulls position (cs ++ rest) = s.pulls position cs := by
  have nothing (more : List Char) :
      (s.trace position cs).pulls (position + byteSize cs) more = (s.trace position cs).given := by
    unfold Trace.pulls
    cases reached : (s.trace position cs).state with
    | none => exact List.append_nil _
    | some next =>
        rw [ended next reached, Option.elim_some, done_pulls, List.append_nil]
  rw [pulls_append, nothing rest, ← nothing [], ← pulls_append, List.append_nil]

/-- Reads on from the state reached, if there is one. -/
def Trace.andThen (t : Trace) (more : Scanner → Trace) : Trace :=
  match t.state with
  | none => t
  | some next => ⟨t.given ++ (more next).given, (more next).state⟩

theorem prepend_and_then (pull : Pull) (t : Trace) (more : Scanner → Trace) :
    (t.prepend pull).andThen more = (t.andThen more).prepend pull := by
  obtain ⟨given, state⟩ := t
  cases state with
  | none => rfl
  | some next => rfl

theorem trace_append (s : Scanner) (position : Nat) (cs rest : List Char) :
    s.trace position (cs ++ rest) =
      (s.trace position cs).andThen fun next => next.trace (position + byteSize cs) rest := by
  induction cs generalizing s position with
  | nil =>
      rw [byte_size_nil, Nat.add_zero]
      rfl
  | cons c others induction =>
      rw [List.cons_append, byte_size_cons, ← Nat.add_assoc]
      cases stepped : s.step position c with
      | error e =>
          rw [trace_of_failed stepped, trace_of_failed stepped]
          rfl
      | ok outcome =>
          obtain ⟨emitted, next⟩ := outcome
          cases emitted with
          | none =>
              rw [trace_of_silent stepped, trace_of_silent stepped]
              exact induction next _
          | some lexeme =>
              rw [trace_of_given stepped, trace_of_given stepped, prepend_and_then,
                induction next _]

/-- What every step keeps, counting what it gives, holds after any number of characters. -/
theorem trace_keeps {Keeps : Nat → Scanner → Prop}
    (step : ∀ {count s position c emitted next}, Keeps count s →
      s.step position c = .ok (emitted, next) → Keeps (count + emitted.toList.length) next)
    {count : Nat} {s next : Scanner} {position : Nat} {cs : List Char} (kept : Keeps count s)
    (reached : (s.trace position cs).state = some next) :
    Keeps (count + (s.trace position cs).given.length) next := by
  induction cs generalizing count s position with
  | nil =>
      cases reached
      exact kept
  | cons c others induction =>
      cases stepped : s.step position c with
      | error e =>
          rw [trace_of_failed stepped] at reached
          cases reached
      | ok outcome =>
          obtain ⟨emitted, after⟩ := outcome
          have keptAfter := step kept stepped
          cases emitted with
          | none =>
              rw [trace_of_silent stepped] at reached ⊢
              exact induction keptAfter reached
          | some lexeme =>
              rw [trace_of_given stepped] at reached ⊢
              have counted := induction keptAfter reached
              rw [Option.toList_some, List.length_singleton, Nat.add_assoc, Nat.add_comm 1] at counted
              exact counted

theorem trace_failed {s : Scanner} {position : Nat} {cs : List Char}
    (failed : (s.trace position cs).state = none) :
    ∃ pull ∈ (s.trace position cs).given, ∃ e, pull.result = .error e := by
  induction cs generalizing s position with
  | nil => cases failed
  | cons c others induction =>
      cases stepped : s.step position c with
      | error e =>
          rw [trace_of_failed stepped]
          exact ⟨_, List.mem_cons_self, e, rfl⟩
      | ok outcome =>
          obtain ⟨emitted, next⟩ := outcome
          cases emitted with
          | none =>
              rw [trace_of_silent stepped] at failed ⊢
              exact induction failed
          | some lexeme =>
              rw [trace_of_given stepped] at failed ⊢
              obtain ⟨pull, member, error⟩ := induction failed
              exact ⟨pull, List.mem_cons_of_mem _ member, error⟩

theorem done_trace (position : Nat) (cs : List Char) : done.trace position cs = ⟨[], some done⟩ := by
  induction cs generalizing position with
  | nil => rfl
  | cons c rest induction =>
      rw [trace_of_silent rfl]
      exact induction _

end LineShell.Scanner
