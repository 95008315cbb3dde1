import LineShell.Proofs.Relocation

/-!
What a run of the scanner finds as a whole: all its lexemes, or the first error. An error hides the
lexemes that came before it, so a run can be put together from parts without asking when exactly a
lexeme was given. Main statements: what is found in a longer text is what was found in its first
part and then what is found in the rest, and an operator that is not the beginning of another one
stands in front of what is found after it.
-/

namespace LineShell

open Literal (byteSize)

abbrev Found := Except Error (List (Located Lexeme))

def relocate (places : Nat → Nat) : Found → Found :=
  moveOutcome places (List.map (Located.move places))

def following (given : List (Located Lexeme)) (found : Found) : Found :=
  found.map (given ++ ·)

@[simp] theorem following_nothing (found : Found) : following [] found = found := by
  cases found <;> rfl

@[simp] theorem following_ok (given lexemes : List (Located Lexeme)) :
    following given (.ok lexemes) = .ok (given ++ lexemes) := rfl

@[simp] theorem following_error (given : List (Located Lexeme)) (e : Error) :
    following given (.error e) = .error e := rfl

@[simp] theorem following_following (first second : List (Located Lexeme)) (found : Found) :
    following first (following second found) = following (first ++ second) found := by
  cases found <;> simp

theorem following_eq_ok {given lexemes : List (Located Lexeme)} {found : Found}
    (same : following given found = .ok lexemes) :
    ∃ others, found = .ok others ∧ lexemes = given ++ others := by
  cases found with
  | error e => cases same
  | ok others =>
      cases same
      exact ⟨others, rfl, rfl⟩

@[simp] theorem relocate_ok (places : Nat → Nat) (lexemes : List (Located Lexeme)) :
    relocate places (.ok lexemes) = .ok (lexemes.map (Located.move places)) := rfl

@[simp] theorem relocate_error (places : Nat → Nat) (e : Error) :
    relocate places (.error e) = .error (e.move places) := rfl

@[simp] theorem relocate_following (places : Nat → Nat) (given : List (Located Lexeme))
    (found : Found) : relocate places (following given found) =
      following (given.map (Located.move places)) (relocate places found) := by
  cases found <;> simp

namespace Scanner

theorem collected_lexeme (lexeme : Located Lexeme) (depth : Nat) (rest : List Pull) :
    (⟨.ok lexeme, depth⟩ :: rest).mapM Pull.result =
      following [lexeme] (rest.mapM Pull.result) := by
  rw [List.mapM_cons]
  cases rest.mapM Pull.result <;> rfl

theorem collected_error (e : Error) (depth : Nat) (rest : List Pull) :
    (⟨.error e, depth⟩ :: rest).mapM Pull.result = .error e := by
  rw [List.mapM_cons]
  rfl

theorem collected_moves (places : Nat → Nat) (items : List Pull) :
    (items.map (Pull.move places)).mapM Pull.result =
      relocate places (items.mapM Pull.result) := by
  induction items with
  | nil => rfl
  | cons pull rest induction =>
      obtain ⟨result, depth⟩ := pull
      rw [List.map_cons]
      cases result with
      | ok lexeme =>
          simp only [Pull.move, moveOutcome, collected_lexeme, induction, relocate_following,
            List.map_cons, List.map_nil]
      | error e => simp only [Pull.move, moveOutcome, collected_error, relocate_error]

def collect (s : Scanner) (position : Nat) (cs : List Char) : Found :=
  (s.pulls position cs).mapM Pull.result

section Runs

variable {s next : Scanner} {position : Nat} {c : Char} {cs : List Char}

theorem collect_finished {last : Option (Located Lexeme)} (finished : s.finish = .ok last)
    (position : Nat) : s.collect position [] = .ok last.toList := by
  simp only [collect, pulls, finished]
  cases last <;> rfl

theorem collect_of_step {emitted : Option (Located Lexeme)}
    (stepped : s.step position c = .ok (emitted, next)) (rest : List Char) :
    s.collect position (c :: rest) =
      following emitted.toList (next.collect (position + c.utf8Size) rest) := by
  cases emitted with
  | none => rw [collect, pulls_of_silent stepped, Option.toList_none, following_nothing, collect]
  | some lexeme =>
      rw [collect, pulls_of_given stepped, collected_lexeme, Option.toList_some, collect]

theorem collect_of_failed {e : Error} (stepped : s.step position c = .error e)
    (rest : List Char) : s.collect position (c :: rest) = .error e := by
  rw [collect, pulls_of_failed stepped, collected_error]

theorem collect_done (position : Nat) (cs : List Char) : done.collect position cs = .ok [] := by
  rw [collect, done_pulls]
  rfl

theorem collect_append (reached : (s.trace position cs).state = some next) :
    ∃ lexemes : List (Located Lexeme),
      (s.trace position cs).given.map Pull.result = lexemes.map .ok ∧
      ∀ rest, s.collect position (cs ++ rest) =
        following lexemes (next.collect (position + byteSize cs) rest) := by
  induction cs generalizing s position with
  | nil =>
      cases reached
      exact ⟨[], rfl, fun rest => by simp⟩
  | cons c others induction =>
      cases stepped : s.step position c with
      | error e =>
          rw [trace_of_failed stepped] at reached
          cases reached
      | ok outcome =>
          obtain ⟨emitted, after⟩ := outcome
          have later : (after.trace (position + c.utf8Size) others).state = some next := by
            cases emitted with
            | none => rwa [trace_of_silent stepped] at reached
            | some lexeme => rwa [trace_of_given stepped] at reached
          obtain ⟨lexemes, given, collected⟩ := induction later
          refine ⟨emitted.toList ++ lexemes, ?_, ?_⟩
          · cases emitted with
            | none => simpa [trace_of_silent stepped] using given
            | some lexeme => simpa [trace_of_given stepped, Trace.prepend] using given
          · intro rest
            rw [List.cons_append, collect_of_step stepped, collected, following_following,
              byte_size_cons, Nat.add_assoc]

theorem collect_moves {places : Nat → Nat} {distance : Nat} (s : Scanner)
    (later : ∀ place, position ≤ place → place < position + byteSize cs →
      places place = place + distance) :
    (s.move places).collect (position + distance) cs = relocate places (s.collect position cs) := by
  rw [collect, pulls_move s later, collected_moves, collect]

/-- Places that keep the characters of a text where they are move nothing that was given for it. -/
theorem trace_unmoved {places : Nat → Nat} {lexemes : List (Located Lexeme)} {cs : List Char}
    (unmoved : ∀ place, place < byteSize cs → places place = place)
    (reached : (start.trace 0 cs).state = some s)
    (given : (start.trace 0 cs).given.map Pull.result = lexemes.map .ok) :
    lexemes.map (Located.move places) = lexemes ∧ s.move places = s := by
  have same : start.trace 0 cs = (start.trace 0 cs).move places := by
    apply @trace_moves places 0 0 cs start
    intro place _ upper
    apply unmoved
    omega
  constructor
  · have results := congrArg (fun t => t.given.map Pull.result) same
    have moved : ((start.trace 0 cs).move places).given.map Pull.result =
        ((start.trace 0 cs).given.map Pull.result).map
          (moveOutcome places (Located.move places)) := by
      simp [Trace.move, Pull.move, Function.comp_def]
    rw [moved, given, List.map_map] at results
    apply (List.map_inj_right fun _ _ => Except.ok.inj).mp
    rw [List.map_map]
    exact results.symm
  · have states := congrArg Trace.state same
    simp only [Trace.move, reached, Option.map_some] at states
    exact (Option.some.inj states).symm

/-- An operator that nothing joins stands alone, in front of what is found after it. -/
theorem collect_undecided {first : Operator} (single : ∀ c ∈ cs.head?, first.join? c = none)
    (origin position : Nat) : (operator first origin).collect position cs =
      following [⟨.operator first, origin⟩] (operand.collect position cs) := by
  cases cs with
  | nil => rfl
  | cons c rest =>
      have alone := single c rfl
      cases outcome : operand.step position c with
      | error e =>
          have failed : (operator first origin).step position c = .error e := by
            simp only [step] at outcome ⊢
            simp only [alone, outcome]
          rw [collect_of_failed failed, collect_of_failed outcome, following_error]
      | ok stepped =>
          obtain ⟨emitted, after⟩ := stepped
          have silent : emitted = none := step_operand_gives_none outcome
          subst silent
          have given : (operator first origin).step position c =
              .ok (some ⟨.operator first, origin⟩, after) := by
            simp only [step] at outcome ⊢
            simp only [alone, outcome]
          rw [collect_of_step given, collect_of_step outcome]
          simp

end Runs
end Scanner
end LineShell
