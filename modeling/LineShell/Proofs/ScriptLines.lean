import LineShell.CommandLine

/-!
The lines of a script, said without going through it: a line ends with a line feed, with a carriage
return and a line feed, or with the text. Main statements: splitting gives exactly these lines, a
text that ends a line can be split apart from what follows, and neither blank lines nor the way in
which lines end change which lines are run.
-/

namespace LineShell

namespace Text

theorem drop_while_nil_iff (cs : List Char) :
    cs.dropWhile isBlank = [] ↔ cs.all isBlank = true := by
  induction cs with
  | nil => simp
  | cons c rest induction =>
      cases blank : isBlank c with
      | true => simp [blank, induction]
      | false => simp [blank]

/-- Nothing is left of a text without the blanks at its ends exactly if all of it is blank. -/
theorem trim_empty_iff (cs : List Char) :
    trim (String.ofList cs) = "" ↔ cs.all isBlank = true := by
  have kept := List.head?_dropWhile_not isBlank cs
  rw [trim, String.toList_ofList, ← String.toList_inj, String.toList_ofList, trimChars,
    String.toList_empty, List.reverse_eq_nil_iff, drop_while_nil_iff, List.all_reverse,
    ← drop_while_nil_iff cs]
  constructor
  · intro blank
    cases left : cs.dropWhile isBlank with
    | nil => rfl
    | cons c rest =>
        rw [left] at kept blank
        simp only [List.head?_cons] at kept
        rw [List.all_cons, kept] at blank
        cases blank
  · intro nothing
    rw [nothing]
    rfl

end Text

namespace CommandLine

/-- The text is these lines, one after the other. -/
inductive Lines : List Char → List (List Char) → Prop where
  | nil : Lines [] []
  | unended {line : List Char} (nonempty : line ≠ []) (unbroken : '\n' ∉ line) : Lines line [line]
  | feed {line rest : List Char} {lines : List (List Char)} (unbroken : '\n' ∉ line)
      (bare : line.getLast? ≠ some '\r') (after : Lines rest lines) :
      Lines (line ++ '\n' :: rest) (line :: lines)
  | returned {line rest : List Char} {lines : List (List Char)} (unbroken : '\n' ∉ line)
      (after : Lines rest lines) : Lines (line ++ '\r' :: '\n' :: rest) (line :: lines)

section Splitting

variable {front line rest : List Char}

theorem split_next {c : Char} (unbroken : c ≠ '\n') (line rest : List Char) :
    splitLines line (c :: rest) = splitLines (c :: line) rest :=
  splitLines.eq_3 line c rest unbroken

theorem split_feed (line rest : List Char) :
    splitLines line ('\n' :: rest) = finishedLine line :: splitLines [] rest :=
  splitLines.eq_2 line rest

theorem split_unbroken (unbroken : '\n' ∉ front) (line rest : List Char) :
    splitLines line (front ++ rest) = splitLines (front.reverse ++ line) rest := by
  induction front generalizing line with
  | nil => rfl
  | cons c others induction =>
      rw [List.mem_cons, not_or] at unbroken
      rw [List.cons_append, split_next (Ne.symm unbroken.1), induction unbroken.2,
        List.reverse_cons, List.append_assoc, List.singleton_append]

theorem finished_bare (bare : line.head? ≠ some '\r') : finishedLine line = line.reverse := by
  unfold finishedLine
  split
  · exact absurd rfl bare
  · rfl

theorem finished_returned (line : List Char) : finishedLine ('\r' :: line) = line.reverse := rfl

end Splitting

theorem lines_split {cs : List Char} {lines : List (List Char)} (are : Lines cs lines) :
    splitLines [] cs = lines := by
  induction are with
  | nil => rfl
  | @unended line nonempty unbroken =>
      have whole := split_unbroken unbroken [] []
      rw [List.append_nil, List.append_nil] at whole
      rw [whole, splitLines, List.isEmpty_reverse, List.isEmpty_eq_false_iff.mpr nonempty,
        List.reverse_reverse]
      rfl
  | @feed line rest lines unbroken bare after induction =>
      have ended : finishedLine line.reverse = line := by
        rw [finished_bare (by rw [List.head?_reverse]; exact bare), List.reverse_reverse]
      rw [split_unbroken unbroken, split_feed, List.append_nil, ended, induction]
  | @returned line rest lines unbroken after induction =>
      rw [split_unbroken unbroken, split_next (by decide), split_feed, List.append_nil,
        finished_returned, List.reverse_reverse, induction]

theorem split_is_lines (cs : List Char) : Lines cs (splitLines [] cs) := by
  -- A line is passed over as a whole, so the induction is on the length.
  induction size : cs.length using Nat.strongRecOn generalizing cs with
  | ind size induction =>
      subst size
      have found : ∃ lines, Lines cs lines := by
        by_cases broken : '\n' ∈ cs
        · obtain ⟨front, rest, rfl, unbroken⟩ := List.eq_append_cons_of_mem broken
          have shorter : rest.length < (front ++ '\n' :: rest).length := by
            simp only [List.length_append, List.length_cons]
            omega
          have after := induction rest.length shorter rest rfl
          by_cases ending : front.getLast? = some '\r'
          · obtain ⟨line, rfl⟩ := List.getLast?_eq_some_iff.mp ending
            rw [List.append_assoc, List.singleton_append]
            exact ⟨_, .returned (fun member => unbroken (List.mem_append_left _ member)) after⟩
          · exact ⟨_, .feed unbroken ending after⟩
        · cases cs with
          | nil => exact ⟨_, .nil⟩
          | cons c rest => exact ⟨_, .unended (List.cons_ne_nil c rest) broken⟩
      obtain ⟨lines, are⟩ := found
      rw [lines_split are]
      exact are

/-- Splitting gives the lines of a text, and a text has no other lines. -/
theorem lines_iff (cs : List Char) (lines : List (List Char)) :
    Lines cs lines ↔ lines = splitLines [] cs := by
  constructor
  · intro are
    exact (lines_split are).symm
  · rintro rfl
    exact split_is_lines cs

/-- Nothing has been read of a next line. -/
def EndsLine (cs : List Char) : Prop := cs = [] ∨ ∃ front, cs = front ++ ['\n']

theorem split_after_feed (line front after : List Char) :
    splitLines line (front ++ '\n' :: after) =
      splitLines line (front ++ ['\n']) ++ splitLines [] after := by
  induction front generalizing line with
  | nil => exact split_feed line after
  | cons c others induction =>
      by_cases feed : c = '\n'
      · subst feed
        rw [List.cons_append, List.cons_append, split_feed, split_feed, induction, List.cons_append]
      · rw [List.cons_append, List.cons_append, split_next feed, split_next feed, induction]

theorem split_after_line {before : List Char} (ends : EndsLine before) (after : List Char) :
    splitLines [] (before ++ after) = splitLines [] before ++ splitLines [] after := by
  rcases ends with rfl | ⟨front, rfl⟩
  · rfl
  · rw [List.append_assoc, List.singleton_append, split_after_feed]

theorem split_characters {line cs found : List Char} (member : found ∈ splitLines line cs) :
    ∀ c ∈ found, c ∈ line ∨ c ∈ cs := by
  induction cs generalizing line with
  | nil =>
      rw [splitLines] at member
      split at member
      · cases member
      · rw [List.mem_singleton.mp member]
        intro c inside
        exact .inl (List.mem_reverse.mp inside)
  | cons next rest induction =>
      intro c inside
      by_cases feed : next = '\n'
      · subst feed
        rw [split_feed] at member
        rcases List.mem_cons.mp member with rfl | later
        · left
          unfold finishedLine at inside
          split at inside
          · exact List.mem_cons_of_mem _ (List.mem_reverse.mp inside)
          · exact List.mem_reverse.mp inside
        · rcases induction later c inside with nothing | after
          · cases nothing
          · exact .inr (List.mem_cons_of_mem _ after)
      · rw [split_next feed] at member
        rcases induction member c inside with before | after
        · rcases List.mem_cons.mp before with rfl | earlier
          · exact .inr List.mem_cons_self
          · exact .inl earlier
        · exact .inr (List.mem_cons_of_mem _ after)

/-- Puts a carriage return before every line feed. -/
def withReturns (cs : List Char) : List Char :=
  cs.flatMap fun c => if c = '\n' then ['\r', '\n'] else [c]

theorem split_with_returns {line cs : List Char} (started : line.head? ≠ some '\r')
    (bare : '\r' ∉ cs) : splitLines line (withReturns cs) = splitLines line cs := by
  unfold withReturns
  induction cs generalizing line with
  | nil => rfl
  | cons c rest induction =>
      rw [List.mem_cons, not_or] at bare
      rw [List.flatMap_cons]
      by_cases feed : c = '\n'
      · subst feed
        rw [if_pos rfl, List.cons_append, List.singleton_append, split_next (by decide), split_feed,
          split_feed, finished_returned, finished_bare started, induction (by simp) bare.2]
      · rw [if_neg feed, List.singleton_append, split_next feed, split_next feed]
        apply induction _ bare.2
        intro same
        exact bare.1 (Option.some.inj same).symm

/-- The lines of which something is left without the blanks at their ends. -/
def unblank (lines : List (List Char)) : List String :=
  (lines.map String.ofList).filter fun line => Text.trim line ≠ ""

theorem script_lines_unblank (script : String) :
    scriptLines script = unblank (splitLines [] script.toList) := by
  rw [scriptLines, unblank, List.filter_map]
  apply congrArg
  apply List.filter_congr
  intro line _
  simp only [Function.comp_apply, ne_eq, Text.trim_empty_iff, decide_not, Bool.decide_eq_true]

theorem script_lines_append {before : String} (ends : EndsLine before.toList) (after : String) :
    scriptLines (before ++ after) = scriptLines before ++ scriptLines after := by
  simp only [scriptLines, String.toList_append, split_after_line ends, List.filter_append,
    List.map_append]

theorem script_lines_blank {script : String} (blank : script.toList.all Text.isBlank = true) :
    scriptLines script = [] := by
  rw [scriptLines, List.map_eq_nil_iff, List.filter_eq_nil_iff]
  intro line member
  have all : line.all Text.isBlank = true := by
    rw [List.all_eq_true]
    intro c inside
    rcases split_characters member c inside with nothing | found
    · cases nothing
    · exact List.all_eq_true.mp blank c found
  rw [all]
  decide

theorem script_lines_with_returns {script : String} (bare : '\r' ∉ script.toList) :
    scriptLines (String.ofList (withReturns script.toList)) = scriptLines script := by
  rw [scriptLines, String.toList_ofList, split_with_returns (by simp) bare, scriptLines]

end CommandLine
end LineShell
