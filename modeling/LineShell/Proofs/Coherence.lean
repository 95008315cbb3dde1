import LineShell.Proofs.Simulation

/-!
The states that the machine comes to. Nothing in its type keeps the fields together: there could be
a text without a delimiter that it stands in, a backslash that waits outside quotes, or a space
before anything was queued. Main statement: no text leads to such fields, however often the machine
is pulled; so the end of a text within delimiters is always an error, every delimiter is closed at
the end of a scan without one, and nothing is pulled after the first error.
-/

namespace LineShell

def Kind.isOperator : Kind → Bool
  | binary | doubling | unary => true
  | _ => false

namespace Machine

/-- What a machine comes to from the beginning of a text, also between two pulls, as long as there
is no error. -/
inductive Reached (source : String) : Scanning → Prop where
  | new : Reached source (.new source)
  | pulled {m : Machine} {unread : List (Nat × Char)} {lexeme : Located Lexeme}
      {queue : List (Located Lexeme)} (before : Reached source ⟨m, unread⟩)
      (queued : m.queue = lexeme :: queue) : Reached source ⟨{ m with queue }, unread⟩
  | read {m after : Machine} {unread : List (Nat × Char)} {position : Nat} {c : Char}
      (before : Reached source ⟨m, (position, c) :: unread⟩) (empty : m.queue = [])
      (unfinished : m.finished = false) (stepped : m.step position c = .ok after) :
      Reached source ⟨after, unread⟩
  | ended {m last : Machine} (before : Reached source ⟨m, []⟩) (empty : m.queue = [])
      (unfinished : m.finished = false) (finished : m.finish = .ok last) :
      Reached source ⟨last, []⟩

/-- What is the case of a machine that was reached: its fields go together, a step queues at most
one lexeme, as does the end, which is an error within delimiters, and every closer has an action. -/
structure Regular (m : Machine) : Prop where
  coherent : m.Coherent
  single : ∀ after, m.finished = false →
    m.finish = .ok after ∨ (∃ position c, m.step position c = .ok after) →
      ∃ given : List (Located Lexeme), after.queue = m.queue ++ given ∧ given.length ≤ 1
  unclosed : ∀ origin, m.mode = .capture origin → ∃ top left,
    m.delimiters.innermost? = some top ∧
      m.finish = .error (⟨.unclosedDelimiter top.delimiter, top.position⟩, left)
  closers : ∀ c, Character.classify m.context c = some .closing →
    ∃ partner shape, Character.action? .closing c = some (.closing partner shape)

section Reachability

variable {source : String} {m : Machine} {s : Scanner} {unread : List (Nat × Char)}

theorem unfinished_state (shows : m.Shows s) (unfinished : m.finished = false) : s ≠ .done := by
  intro same
  subst same
  rw [shows_finished shows] at unfinished
  cases unfinished

theorem reached_shows {scanning : Scanning} (reached : Reached source scanning) :
    ∃ s, scanning.machine.Shows s := by
  induction reached with
  | new => exact ⟨.start, .start ⟨rfl, rfl, rfl⟩ rfl rfl rfl rfl⟩
  | pulled before queued induction =>
      obtain ⟨s, shows⟩ := induction
      exact ⟨s, shows_unqueued shows _⟩
  | @read m after unread position c before empty unfinished stepped induction =>
      obtain ⟨s, shows⟩ := induction
      have agrees := step_agrees shows (unfinished_state shows unfinished) position c
      rw [stepped] at agrees
      generalize s.step position c = scanned at agrees
      cases agrees with
      | gives shows queued => exact ⟨_, shows⟩
  | ended before empty unfinished finished induction =>
      obtain ⟨s, shows⟩ := induction
      have agrees := finish_agrees shows (unfinished_state shows unfinished)
      rw [finished] at agrees
      generalize s.finish.map _ = scanned at agrees
      cases agrees with
      | gives shows queued => exact ⟨_, shows⟩

theorem agrees_single {after : Machine} {scanned : Except Error Scanner.Step}
    (agrees : Agrees m (.ok after) scanned) :
    ∃ given : List (Located Lexeme), after.queue = m.queue ++ given ∧ given.length ≤ 1 := by
  cases agrees with
  | @gives after given next shows queued =>
      refine ⟨given.toList, queued, ?_⟩
      cases given with
      | none => exact Nat.zero_le 1
      | some lexeme => exact Nat.le_refl 1

theorem operators_act {c : Char} {kind : Kind}
    (classed : Character.classify .outside c = some kind) (isOperator : kind.isOperator = true) :
    ∃ op, (Character.action? kind c).bind Role.operator? = some op := by
  obtain ⟨role, found, rfl⟩ := Option.map_eq_some_iff.mp classed
  rw [Character.action_of_outside found]
  cases role with
  | binary op | doubling op | unary op => exact ⟨op, rfl⟩
  | terminator | blank | opening | closing | digit => cases isOperator

theorem enclosed_closers_act {c : Char}
    (classed : Character.classify .enclosed c = some .closing) :
    ∃ partner shape, Character.action? .closing c = some (.closing partner shape) := by
  obtain ⟨role, found, kind⟩ := Option.map_eq_some_iff.mp classed
  have action := Character.action_of_enclosed found
  rw [kind] at action
  cases role with
  | closing partner shape => exact ⟨partner, shape, action⟩
  | terminator | blank | opening | binary | doubling | unary | digit => cases kind

theorem closers_act {c : Char} (classed : Character.classify m.context c = some .closing) :
    ∃ partner shape, Character.action? .closing c = some (.closing partner shape) := by
  unfold context at classed
  split at classed
  · split at classed
    · rename_i top innermost quote
      simp only [Character.classify] at classed
      split at classed
      · rename_i same
        exact ⟨_, _, same ▸ Character.action_of_quote quote⟩
      · cases classed
    · exact enclosed_closers_act classed
  · exact enclosed_closers_act classed

theorem shows_unclosed {origin : Nat} (shows : m.Shows s) (capturing : m.mode = .capture origin) :
    ∃ top left, m.delimiters.innermost? = some top ∧
      m.finish = .error (⟨.unclosedDelimiter top.delimiter, top.position⟩, left) := by
  have opened := (shows_coherent shows).capture_iff_open.mp ⟨origin, capturing⟩
  obtain ⟨top, below, stack⟩ := List.exists_cons_of_ne_nil opened
  have innermost : m.delimiters.innermost? = some top := by
    rw [Delimiters.innermost?, stack, List.head?_cons]
  refine ⟨top, { m with finished := true }, innermost, ?_⟩
  simp only [finish, capturing, innermost]

theorem shows_regular (shows : m.Shows s) : m.Regular where
  coherent := shows_coherent shows
  single := by
    intro after unfinished read
    have goesOn := unfinished_state shows unfinished
    rcases read with finished | ⟨position, c, stepped⟩
    · exact agrees_single (finished ▸ finish_agrees shows goesOn)
    · exact agrees_single (stepped ▸ step_agrees shows goesOn position c)
  unclosed := fun origin capturing => shows_unclosed shows capturing
  closers := fun c classed => closers_act classed

theorem next_reached (reached : Reached source ⟨m, unread⟩)
    (unfailed : ∀ e, (m.next unread).1 ≠ some (.error e)) : Reached source (m.next unread).2 := by
  fun_induction Machine.next m unread with
  | case1 m unread lexeme queue queued => exact reached.pulled queued
  | case2 m unread empty finished => exact reached
  | case3 m empty unfinished position c rest after stepped induction =>
      exact induction (reached.read empty (Bool.eq_false_iff.mpr unfinished) stepped) unfailed
  | case4 m empty unfinished position c rest e | case5 m empty unfinished e =>
      exact absurd rfl (unfailed e)
  | case6 m empty unfinished last ended lexeme queue queued =>
      exact (reached.ended empty (Bool.eq_false_iff.mpr unfinished) ended).pulled queued
  | case7 m empty unfinished last ended =>
      exact reached.ended empty (Bool.eq_false_iff.mpr unfinished) ended

theorem flush_finished : m.flush.finished = m.finished := by
  unfold flush
  split <;> rfl

theorem finish_finished {last : Machine} (ended : m.finish = .ok last) : last.finished = true := by
  unfold finish at ended
  split at ended
  · split at ended <;> cases ended
    rfl
  · cases ended
    rfl
  · cases ended
    exact flush_finished
  · cases ended
    exact flush_finished

/-- A pull that gives no lexeme is the last one: nothing is queued and nothing more is read. -/
theorem next_over (stopped : ∀ lexeme, (m.next unread).1 ≠ some (.ok lexeme)) :
    (m.next unread).2.machine.queue = [] ∧ (m.next unread).2.machine.finished = true := by
  fun_induction Machine.next m unread with
  | case1 m unread lexeme => exact absurd rfl (stopped lexeme)
  | case2 m unread empty finished => exact ⟨empty, finished⟩
  | case3 m empty unfinished position c rest after stepped induction => exact induction stopped
  | case4 | case5 => exact ⟨rfl, rfl⟩
  | case6 m empty unfinished last ended lexeme => exact absurd rfl (stopped lexeme)
  | case7 m empty unfinished last ended queued => exact ⟨queued, finish_finished ended⟩

end Reachability

end Machine

namespace Scanning

open Machine

theorem after_add (s : Scanning) (n more : Nat) : s.after (n + more) = (s.after n).after more := by
  induction n generalizing s with
  | zero => rw [Nat.zero_add, after]
  | succ n induction => rw [Nat.succ_add, after, after, induction]

theorem after_succ (s : Scanning) (n : Nat) : s.after (n + 1) = (s.after n).next.2 :=
  after_add s n 1

theorem after_reached {source : String} {n : Nat}
    (given : ∀ earlier < n, ∃ lexeme, (new source).pull earlier = some (.ok lexeme)) :
    Reached source ((new source).after n) := by
  induction n with
  | zero => exact .new
  | succ n induction =>
      have reached := induction fun earlier less => given earlier (Nat.lt_succ_of_lt less)
      obtain ⟨lexeme, pulled⟩ := given n (Nat.lt_succ_self n)
      rw [after_succ]
      refine next_reached reached ?_
      intro e failed
      rw [pull, next, failed] at pulled
      cases pulled

theorem next_stays {s : Scanning} (empty : s.machine.queue = [])
    (finished : s.machine.finished = true) : s.next = (none, s) := next_finished empty finished

theorem after_over {s : Scanning} (empty : s.machine.queue = [])
    (finished : s.machine.finished = true) (n : Nat) : s.after n = s := by
  induction n with
  | zero => rfl
  | succ n induction => rw [after, next_stays empty finished, induction]

theorem pull_over {s : Scanning} {n later : Nat} (less : n < later)
    (stopped : ∀ lexeme, s.pull n ≠ some (.ok lexeme)) : s.pull later = none := by
  obtain ⟨empty, finished⟩ := next_over stopped
  obtain ⟨more, rfl⟩ := Nat.exists_eq_add_of_lt less
  have stays : s.after (n + more + 1) = (s.after n).next.2 := by
    rw [Nat.add_right_comm, after_add, after_succ]
    exact after_over empty finished more
  rw [pull, stays]
  exact congrArg Prod.fst (next_stays empty finished)

/-- A scanner between two pulls, with these still to come. -/
inductive Yields : Scanning → List Scanner.Pull → Prop where
  | shows {m : Machine} {s : Scanner} {position : Nat} {cs : List Char} (shows : m.Shows s)
      (empty : m.queue = []) : Yields ⟨m, indexed position cs⟩ (s.pulls position cs)
  | stopped {m : Machine} {unread : List (Nat × Char)} (empty : m.queue = [])
      (finished : m.finished = true) : Yields ⟨m, unread⟩ []

theorem next_yields {s : Scanning} {pulls : List Scanner.Pull} (yields : s.Yields pulls) :
    pulls.head? = s.next.1.map (fun result => ⟨result, s.next.2.machine.depth⟩) ∧
      s.next.2.Yields pulls.tail := by
  cases yields with
  | stopped empty finished =>
      rw [next, next_finished empty finished]
      exact ⟨rfl, .stopped empty finished⟩
  | @shows m s position cs shows empty =>
      have agrees := next_agrees shows empty position cs
      rw [next]
      generalize m.next (indexed position cs) = pulled at agrees ⊢
      generalize s.pulls position cs = pulls at agrees ⊢
      cases agrees with
      | ends shows empty => exact ⟨rfl, .stopped empty (shows_finished shows)⟩
      | gives shows empty =>
          refine ⟨?_, .shows shows empty⟩
          rw [List.head?_cons, ← shows_depth shows]
          rfl
      | fails finished empty same =>
          refine ⟨?_, .stopped empty finished⟩
          rw [List.head?_cons, ← same]
          rfl

theorem yields_pulls {s : Scanning} {pulls : List Scanner.Pull} (yields : s.Yields pulls)
    (n : Nat) :
    pulls[n]? = (s.pull n).map fun result => ⟨result, (s.after (n + 1)).machine.depth⟩ := by
  induction n generalizing s pulls with
  | zero => 
      rw [← List.head?_eq_getElem?]
      exact (next_yields yields).1
  | succ n induction =>
      rw [← List.getElem?_tail]
      exact induction (next_yields yields).2

theorem new_yields (source : String) : (new source).Yields (Scanner.pullsOf source) :=
  .shows (.start ⟨rfl, rfl, rfl⟩ rfl rfl rfl rfl) rfl

theorem ends_shut {source : String} {s : Scanning} (reached : Reached source s)
    (ended : s.next.1 = none) : s.next.2.machine.depth = 0 ∧ s.next.2.machine.queue = [] := by
  have unfailed : ∀ e, s.next.1 ≠ some (.error e) := by simp [ended]
  obtain ⟨state, shows⟩ := reached_shows (next_reached reached unfailed)
  obtain ⟨empty, finished⟩ := @next_over s.machine s.unread (by
    intro lexeme given
    rw [next] at ended
    rw [ended] at given
    cases given)
  refine ⟨?_, empty⟩
  by_cases done : state = .done
  · subst done
    exact shows_depth shows
  · rw [shows_unfinished shows done] at finished
    cases finished

end Scanning

open Machine Scanning

/-- In every state that the machine is in while a text is pulled, its fields go together, and every
operator has an action. A scan that ends without an error ends with all delimiters closed and nothing
queued; once a pull gives no lexeme, every further one gives nothing; and the pulls are those of the
scanner. -/
theorem scanner_stays_coherent (source : String) :
    (∀ s, Reached source s → s.machine.Regular) ∧
    (∀ n, (∀ earlier < n, ∃ lexeme, (Scanning.new source).pull earlier = some (.ok lexeme)) →
      Reached source ((Scanning.new source).after n) ∧
      ((Scanning.new source).pull n = none →
        ((Scanning.new source).after (n + 1)).machine.depth = 0 ∧
        ((Scanning.new source).after (n + 1)).machine.queue = [])) ∧
    (∀ c kind, Character.classify .outside c = some kind → kind.isOperator = true →
      ∃ op, (Character.action? kind c).bind Role.operator? = some op) ∧
    (∀ n later, n < later → (∀ lexeme, (Scanning.new source).pull n ≠ some (.ok lexeme)) →
      (Scanning.new source).pull later = none) ∧
    ∀ n : Nat, (Scanner.pullsOf source)[n]? = ((Scanning.new source).pull n).map fun result =>
      ⟨result, ((Scanning.new source).after (n + 1)).machine.depth⟩ := by
  refine ⟨?_, ?_, fun c kind => operators_act, fun n later => pull_over,
    yields_pulls (new_yields source)⟩
  · intro s reached
    obtain ⟨state, shows⟩ := reached_shows reached
    exact shows_regular shows
  · intro n given
    have reached := after_reached given
    refine ⟨reached, ?_⟩
    intro ended
    rw [after_succ]
    exact ends_shut reached ended

end LineShell
