import LineShell.Proofs.Trace

/-!
Positions are kept and given back, never looked at. So a scan that finds its characters at other
places does the same and tells of the other places. Main statement: if the characters of a text all
stand the same distance later, the scan of it gives the same, as much later, and what it holds from
before may have been moved in any way.
-/

namespace LineShell

open Literal (byteSize)

variable {α : Type} (places : Nat → Nat)

def Located.move (l : Located α) : Located α := ⟨l.item, places l.position⟩

def Error.move (e : Error) : Error := ⟨e.cause, places e.position⟩

def Opening.move (o : Opening) : Opening := ⟨o.delimiter, places o.position⟩

def Delimiters.move (d : Delimiters) : Delimiters := ⟨d.stack.map (Opening.move places), d.entry⟩

/-- Moves what an outcome tells of, and the place of an error. -/
def moveOutcome (moveItem : α → α) : Except Error α → Except Error α
  | .ok item => .ok (moveItem item)
  | .error e => .error (e.move places)

namespace Scanner

def move : Scanner → Scanner
  | start => start
  | gap space => gap (space.map places)
  | word position text => word (places position) text
  | operator first position => operator first (places position)
  | operand => operand
  | capture position text escaped delimiters =>
    capture (places position) text escaped (delimiters.move places)
  | done => done

def moveStep (outcome : Step) : Step :=
  (outcome.1.map (Located.move places), outcome.2.move places)

def Pull.move (pull : Pull) : Pull :=
  ⟨moveOutcome places (Located.move places) pull.result, pull.depth⟩

def Trace.move (t : Trace) : Trace :=
  ⟨t.given.map (Pull.move places), t.state.map (Scanner.move places)⟩

end Scanner

namespace Delimiters

variable (d : Delimiters) (c partner : Char) (position : Nat)

@[simp] theorem move_depth : (d.move places).depth = d.depth := by
  simp [depth, Delimiters.move]

@[simp] theorem move_innermost :
    (d.move places).innermost? = d.innermost?.map (Opening.move places) := by
  simp [innermost?, Delimiters.move]

theorem insert_moves :
    (d.move places).insert c (places position) = (d.insert c position).move places := by
  simp [insert, Delimiters.move, Opening.move, depth]

theorem close_moves :
    (d.move places).close c partner (places position) =
      moveOutcome places (fun closed => (closed.1, closed.2.move places))
        (d.close c partner position) := by
  obtain ⟨stack, entry⟩ := d
  cases stack with
  | nil => rfl
  | cons opening rest =>
      simp only [close, Delimiters.move, Opening.move, List.map_cons, List.length_map]
      split
      · split <;> rfl
      · rfl

end Delimiters

namespace Scanner

section Steps

variable (s : Scanner) (position : Nat) (c : Char)

@[simp] theorem move_finished_name :
    (s.move places).finishedName = s.finishedName.map (Located.move places) := by
  cases s <;> rfl

@[simp] theorem move_separating_space :
    (s.move places).separatingSpace = s.separatingSpace.map (Located.move places) := by
  cases s with
  | gap space => cases space <;> rfl
  | start | word | operator | operand | capture | done => rfl

@[simp] theorem move_scanner_depth : (s.move places).depth = s.depth := by
  cases s <;> simp [Scanner.move, depth]

theorem step_blank_moves :
    (s.move places).stepBlank (places position) = (s.stepBlank position).move places := by
  cases s with
  | gap space => cases space <;> rfl
  | start | word | operator | operand | capture | done => rfl

theorem step_text_moves :
    (s.move places).stepText (places position) c = moveStep places (s.stepText position c) := by
  cases s with
  | gap space => cases space <;> rfl
  | start | word | operator | operand | capture | done => rfl

theorem step_operator_moves (op : Operator) :
    (s.move places).stepOperator op (places position) c =
      moveOutcome places (moveStep places) (s.stepOperator op position c) := by
  cases s with
  | word origin text =>
      simp only [stepOperator, Scanner.move]
      split <;> rfl
  | start | gap | operator | operand | capture | done => rfl

theorem step_outside_moves :
    (s.move places).stepOutside (places position) c =
      moveOutcome places (moveStep places) (s.stepOutside position c) := by
  simp only [stepOutside]
  split
  · rw [move_finished_name]
    rfl
  · rw [move_finished_name, step_blank_moves]
    rfl
  · rw [move_finished_name, move_separating_space]
    cases s.finishedName <;> rfl
  · rfl
  · exact step_operator_moves places s position c _
  · exact step_operator_moves places s position c _
  · exact step_operator_moves places s position c _
  · simp [moveOutcome, step_text_moves]
  · simp [moveOutcome, step_text_moves]

variable (origin : Nat) (text : String) (escaped : Bool) (delimiters : Delimiters)

theorem step_closing_moves (partner : Char) (shape : Shape) :
    stepClosing (places origin) text (delimiters.move places) (places position) c partner shape =
      moveOutcome places (moveStep places)
        (stepClosing origin text delimiters position c partner shape) := by
  simp only [stepClosing, Delimiters.close_moves]
  cases delimiters.close c partner position with
  | error e => rfl
  | ok closed =>
      obtain ⟨closure, rest⟩ := closed
      cases closure <;> rfl

theorem step_quoted_moves (quote : Char) :
    stepQuoted (places origin) text escaped (delimiters.move places) quote (places position) c =
      moveOutcome places (moveStep places)
        (stepQuoted origin text escaped delimiters quote position c) := by
  simp only [stepQuoted]
  split
  · rfl
  · split
    · rfl
    · split
      · exact step_closing_moves places position c origin text delimiters quote .string
      · rfl

theorem step_enclosed_moves :
    stepEnclosed (places origin) text (delimiters.move places) (places position) c =
      moveOutcome places (moveStep places) (stepEnclosed origin text delimiters position c) := by
  simp only [stepEnclosed]
  split
  · simp [moveOutcome, moveStep, Scanner.move, Delimiters.insert_moves]
  · exact step_closing_moves places position c origin text delimiters _ _
  · rfl

theorem step_moves :
    (s.move places).step (places position) c =
      moveOutcome places (moveStep places) (s.step position c) := by
  cases s with
  | start => exact step_outside_moves places start position c
  | gap space => exact step_outside_moves places (gap space) position c
  | word origin text => exact step_outside_moves places (word origin text) position c
  | operand => exact step_outside_moves places operand position c
  | done => rfl
  | operator first origin =>
      have outside := step_outside_moves places operand position c
      simp only [step, Scanner.move] at outside ⊢
      cases first.join? c with
      | some double => rfl
      | none =>
          rw [outside]
          cases operand.stepOutside position c <;> rfl
  | capture origin text escaped delimiters =>
      simp only [step, Scanner.move, Delimiters.move_innermost]
      cases delimiters.innermost? with
      | none => exact step_enclosed_moves places position c origin text delimiters
      | some opening =>
          simp only [Option.map_some, Opening.move]
          split
          · exact step_quoted_moves places position c origin text escaped delimiters _
          · exact step_enclosed_moves places position c origin text delimiters

theorem finish_moves :
    (s.move places).finish =
      moveOutcome places (Option.map (Located.move places)) s.finish := by
  cases s with
  | capture origin text escaped delimiters =>
      simp only [finish, Scanner.move, Delimiters.move_innermost]
      cases delimiters.innermost? <;> rfl
  | start | gap | word | operator | operand | done => rfl

end Steps

variable {places} {position distance : Nat} {cs : List Char}

/-- Any number of steps: what was held from before is moved along. -/
theorem trace_moves (s : Scanner)
    (later : ∀ place, position ≤ place → place < position + byteSize cs →
      places place = place + distance) :
    (s.move places).trace (position + distance) cs = (s.trace position cs).move places := by
  -- Of the places before `position` nothing is asked: what `s` holds has been moved already.
  induction cs generalizing s position with
  | nil => rfl
  | cons c rest induction =>
      rw [byte_size_cons] at later
      have here : places position = position + distance := by
        apply later
        · omega
        · have positive := c.utf8Size_pos
          omega
      have stepped := step_moves places s position c
      have advance : position + distance + c.utf8Size = position + c.utf8Size + distance := by omega
      have remaining (next : Scanner) :
          (next.move places).trace (position + distance + c.utf8Size) rest =
            (next.trace (position + c.utf8Size) rest).move places := by
        rw [advance]
        apply induction
        intro place lower upper
        apply later <;> omega
      rw [here] at stepped
      cases outcome : s.step position c with
      | error e =>
          rw [outcome] at stepped
          rw [trace_of_failed stepped, trace_of_failed outcome]
          simp [Trace.move, Pull.move, moveOutcome]
      | ok given =>
          obtain ⟨emitted, next⟩ := given
          rw [outcome] at stepped
          cases emitted with
          | none => rw [trace_of_silent stepped, trace_of_silent outcome, remaining]
          | some lexeme =>
              rw [trace_of_given stepped, trace_of_given outcome, remaining]
              simp [Trace.move, Trace.prepend, Pull.move, moveOutcome]

theorem end_pulls_move (s : Scanner) (stop other : Nat) :
    (s.move places).pulls stop [] = (s.pulls other []).map (Pull.move places) := by
  simp only [pulls, finish_moves]
  cases finished : s.finish with
  | error e => simp [moveOutcome, Pull.move]
  | ok last => cases last <;> simp [moveOutcome, Pull.move]

theorem pulls_move (s : Scanner)
    (later : ∀ place, position ≤ place → place < position + byteSize cs →
      places place = place + distance) :
    (s.move places).pulls (position + distance) cs =
      (s.pulls position cs).map (Pull.move places) := by
  have whole (s : Scanner) (start : Nat) :
      s.pulls start cs = (s.trace start cs).pulls (start + byteSize cs) [] := by
    rw [← pulls_append, List.append_nil]
  rw [whole, whole, trace_moves s later]
  simp only [Trace.pulls, Trace.move, List.map_append]
  cases (s.trace position cs).state with
  | none => rfl
  | some last =>
      congr 1
      exact end_pulls_move last (position + distance + byteSize cs) (position + byteSize cs)

end Scanner
end LineShell
