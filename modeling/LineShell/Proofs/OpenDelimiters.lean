import LineShell.Proofs.Losslessness
import Mathlib.Data.List.Infix

/-!
What the delimiters hold after any calls. They may be opened and closed in any order, with any
characters, and a closing may be refused. An opening is closed as soon as one more closing than
opening has succeeded after it; so the events alone say which openings are still open. Main
statement: these are the ones that are held, a text is being read exactly while there are any, and
every call answers accordingly.
-/

namespace LineShell.Delimiters

def after (d : Delimiters) : List Operation → Delimiters
  | [] => d
  | operation :: rest => (d.perform operation).2.after rest

def history (d : Delimiters) : List Operation → List Event
  | [] => []
  | operation :: rest => (d.perform operation).1 :: (d.perform operation).2.history rest

def opens : List Event → Nat
  | [] => 0
  | .opened .. :: later => opens later + 1
  | _ :: later => opens later

def closes : List Event → Nat
  | [] => 0
  | .closed _ :: later => closes later + 1
  | _ :: later => closes later

/-- Whatever was open before these events is open at each moment of them. -/
def StaysOpen (events : List Event) : Prop := ∀ part ∈ events.inits, closes part ≤ opens part

instance (events : List Event) : Decidable (StaysOpen events) :=
  inferInstanceAs (Decidable (∀ part ∈ events.inits, closes part ≤ opens part))

/-- The openings that are not closed yet, in the order in which they were made. -/
def unclosed : List Event → List Opening
  | [] => []
  | .opened opening _ :: later =>
    if StaysOpen later then opening :: unclosed later else unclosed later
  | _ :: later => unclosed later

section Excess

/-- How many of these closings close what was open before. -/
def excess : List Event → Nat
  | [] => 0
  | .opened .. :: later => excess later - 1
  | .closed _ :: later => excess later + 1
  | .refused _ :: later => excess later

theorem excess_le_iff (events : List Event) (bound : Nat) :
    excess events ≤ bound ↔ ∀ part ∈ events.inits, closes part ≤ opens part + bound := by
  induction events generalizing bound with
  | nil => simp [excess, closes]
  | cons event later induction =>
      have start : closes [] ≤ opens [] + bound := Nat.zero_le _
      rw [List.inits_cons, List.forall_mem_cons, List.forall_mem_map, and_iff_right start]
      cases event with
      | opened opening entered =>
          rw [excess, Nat.sub_le_iff_le_add, induction]
          simp only [closes, opens, Nat.add_right_comm, ← Nat.add_assoc]
      | closed closure =>
          cases bound with
          | zero =>
              have first : [] ∈ later.inits := by simp
              constructor
              · intro none
                cases none
              · intro all
                cases all [] first
          | succ bound =>
              rw [excess, Nat.add_le_add_iff_right, induction]
              simp only [closes, opens, ← Nat.add_assoc, Nat.add_le_add_iff_right]
      | refused => exact induction bound

theorem stays_open_iff (events : List Event) : StaysOpen events ↔ excess events = 0 := by
  rw [← Nat.le_zero, excess_le_iff]
  rfl

end Excess

section Closing

variable {d rest : Delimiters} {c partner : Char} {position : Nat}

theorem close_ok_iff :
    (∃ closure rest, d.close c partner position = .ok (closure, rest)) ↔
      d.innermost?.map Opening.delimiter = some partner := by
  constructor
  · rintro ⟨closure, rest, closed⟩
    obtain ⟨top, below, stack, matching, _⟩ := close_ok_cases closed
    rw [innermost?, stack, List.head?_cons, Option.map_some, matching]
  · intro innermost
    cases stack : d.stack with
    | nil => simp [innermost?, stack] at innermost
    | cons top below =>
        have matching : top.delimiter = partner := by
          simpa [innermost?, stack] using innermost
        simp only [close, stack, if_pos matching]
        split <;> exact ⟨_, _, rfl⟩

theorem close_stack {closure : Closure}
    (closed : d.close c partner position = .ok (closure, rest)) :
    ∃ top, d.stack = top :: rest.stack := by
  obtain ⟨top, below, stack, _, ⟨_, _, rfl⟩ | ⟨_, _, rfl⟩⟩ := close_ok_cases closed
  · exact ⟨top, stack⟩
  · exact ⟨top, stack⟩

end Closing

/-- What a call does to the open delimiters, by the event it comes to. -/
inductive Performs (stack : List Opening) : Event → List Opening → Prop where
  | opened (opening : Opening) (entered : Bool) :
      Performs stack (.opened opening entered) (opening :: stack)
  | closed {top : Opening} {below : List Opening} (split : stack = top :: below)
      (closure : Closure) : Performs stack (.closed closure) below
  | refused (e : Error) : Performs stack (.refused e) stack

theorem perform_performs (d : Delimiters) (operation : Operation) :
    Performs d.stack (d.perform operation).1 (d.perform operation).2.stack := by
  cases operation with
  | opening delimiter position => exact .opened _ _
  | closing delimiter partner position =>
      cases closed : d.close delimiter partner position with
      | error e =>
          simp only [perform, closed]
          exact .refused e
      | ok result =>
          obtain ⟨closure, rest⟩ := result
          obtain ⟨top, split⟩ := close_stack closed
          simp only [perform, closed]
          exact .closed split closure

section Histories

variable (d : Delimiters) (operations : List Operation)

theorem after_depth : (d.after operations).depth + closes (d.history operations) =
    d.depth + opens (d.history operations) := by
  induction operations generalizing d with
  | nil => rfl
  | cons operation rest induction =>
      have performs := perform_performs d operation
      have later := induction (d.perform operation).2
      simp only [after, history]
      simp only [depth] at later ⊢
      generalize (d.perform operation).1 = event, (d.perform operation).2 = next at *
      generalize d.stack = stack, next.stack = left at *
      cases performs with
      | opened | refused =>
          simp only [closes, opens, List.length_cons] at later ⊢
          omega
      | closed split =>
          simp only [split, closes, opens, List.length_cons] at later ⊢
          omega

/-- What is open is what these calls opened and did not close, above what they left of the rest. -/
theorem after_stack : (d.after operations).stack =
    (unclosed (d.history operations)).reverse ++ d.stack.drop (excess (d.history operations)) := by
  induction operations generalizing d with
  | nil => rfl
  | cons operation rest induction =>
      have performs := perform_performs d operation
      simp only [after, history, induction (d.perform operation).2]
      generalize (d.perform operation).2.history rest = later
      generalize (d.perform operation).1 = event, (d.perform operation).2.stack = left at *
      cases performs with
      | opened opening entered =>
          simp only [unclosed, excess, stays_open_iff]
          cases beyond : excess later with
          | zero => simp
          | succ more => simp
      | closed split closure =>
          rw [split]
          rfl
      | refused e => rfl

end Histories

/-- A text is being read exactly while a delimiter is open, and it was entered at depth zero. -/
def Reads (d : Delimiters) : Prop := d.entry = if d.stack.isEmpty then none else some 0

section Reading

variable {d : Delimiters}

theorem empty_reads : empty.Reads := rfl

theorem insert_reads (reads : d.Reads) (delimiter : Char) (position : Nat) :
    (d.insert delimiter position).Reads := by
  rw [Reads] at reads
  cases stack : d.stack <;> simp [insert, Reads, reads, depth, stack]

/-- A closing completes the text exactly if it leaves no delimiter open. -/
theorem close_reads {rest : Delimiters} {c partner : Char} {position : Nat} {closure : Closure}
    (reads : d.Reads) (closed : d.close c partner position = .ok (closure, rest)) :
    rest.Reads ∧ closure = if rest.stack.isEmpty then .complete else .interior := by
  obtain ⟨top, below, stack, _, ended⟩ := close_ok_cases closed
  have entry : d.entry = some 0 := by
    rw [reads, stack]
    rfl
  rw [entry] at ended
  cases below with
  | nil =>
      obtain ⟨complete, _, rfl⟩ | ⟨_, unfinished, _⟩ := ended
      · exact ⟨rfl, complete⟩
      · exact absurd rfl unfinished
  | cons next others =>
      obtain ⟨_, last, _⟩ | ⟨interior, _, rfl⟩ := ended
      · cases last
      · exact ⟨rfl, interior⟩

theorem perform_reads (reads : d.Reads) (operation : Operation) :
    (d.perform operation).2.Reads := by
  cases operation with
  | opening delimiter position => exact insert_reads reads delimiter position
  | closing delimiter partner position =>
      cases closed : d.close delimiter partner position with
      | error e =>
          simp only [perform, closed]
          exact reads
      | ok result =>
          simp only [perform, closed]
          exact (close_reads reads closed).1

theorem perform_closing (reads : d.Reads) (delimiter partner : Char) (position : Nat) :
    let called := d.perform (.closing delimiter partner position)
    if d.innermost?.map Opening.delimiter = some partner then
      called.1 = .closed (if called.2.stack.isEmpty then .complete else .interior)
    else called = (.refused ⟨.unexpectedToken delimiter, position⟩, d) := by
  intro called
  have succeeds := @close_ok_iff d delimiter partner position
  simp only [called, perform]
  cases closed : d.close delimiter partner position with
  | ok result =>
      rw [if_pos (succeeds.mp ⟨_, _, closed⟩)]
      exact congrArg Event.closed (close_reads reads closed).2
  | error e =>
      have unmatched : d.innermost?.map Opening.delimiter ≠ some partner := by
        intro innermost
        obtain ⟨_, _, found⟩ := succeeds.mpr innermost
        rw [closed] at found
        cases found
      rw [if_neg unmatched, close_error closed]

theorem after_reads (reads : d.Reads) (operations : List Operation) :
    (d.after operations).Reads := by
  induction operations generalizing d with
  | nil => exact reads
  | cons operation rest induction => exact induction (perform_reads reads operation)

end Reading

/-- After any calls a text is being read exactly while a delimiter is open, and it was entered at
depth zero. The next opening enters a text exactly if none is open. The next closing succeeds exactly
if its partner is the innermost open delimiter, and completes the text exactly if none is left open;
otherwise it is reported at its own position and changes nothing. As many delimiters are open as were
opened and not closed, and the innermost is the last one opened that is not closed yet. -/
theorem delimiters_hold_what_is_unclosed (operations : List Operation) :
    let d := empty.after operations
    let events := empty.history operations
    d.entry.isSome = !d.stack.isEmpty ∧ d.entry.getD 0 = 0 ∧
    (∀ delimiter position, (d.perform (.opening delimiter position)).1 =
      .opened ⟨delimiter, position⟩ d.stack.isEmpty) ∧
    (∀ delimiter partner position,
      let called := d.perform (.closing delimiter partner position)
      if d.innermost?.map Opening.delimiter = some partner then
        called.1 = .closed (if called.2.stack.isEmpty then .complete else .interior)
      else called = (.refused ⟨.unexpectedToken delimiter, position⟩, d)) ∧
    d.depth + closes events = opens events ∧
    d.innermost? = (unclosed events).getLast? := by
  intro d events
  have reads : d.Reads := after_reads empty_reads operations
  have stack : d.stack = (unclosed events).reverse :=
    (after_stack empty operations).trans (by simp [empty, events])
  have deep : d.depth + closes events = 0 + opens events := after_depth empty operations
  refine ⟨?_, ?_, ?_, ?_, ?_, ?_⟩
  · rw [reads]
    cases d.stack <;> rfl
  · rw [reads]
    cases d.stack <;> rfl
  · intro delimiter position
    rw [perform, isOutside, reads]
    cases d.stack <;> rfl
  · exact perform_closing reads
  · rw [deep, Nat.zero_add]
  · rw [innermost?, stack, List.head?_reverse]

end LineShell.Delimiters
