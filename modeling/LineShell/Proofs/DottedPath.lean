import LineShell.Proofs.Capture
import LineShell.Proofs.Losslessness
import LineShell.Text.Blank

/-!
Dotted paths as they are written: names with a dot between each two, and blanks around the dots.
Main statement: after a name, the scanner gives the name, the dot and the next name for a segment,
whatever blanks there are, and each name is given at the place where it is written.
-/

namespace LineShell

open Literal (byteSize)

/-- The characters that a name can go on with: text and digits. -/
def isNameCharacter (c : Char) : Bool :=
  match Character.classify .outside c with
  | none | some .digit => true
  | _ => false

/-- A name that is no number and has no blanks at its ends. -/
structure PathName where
  text : String
  nonempty : text ≠ ""
  trimmed : Text.trim text = text
  characters : text.toList.all isNameCharacter = true
  unread : Numeral.read text = none

/-- A dot, with the blanks around it, and the name that follows. -/
structure Segment where
  before : List Char
  after : List Char
  name : PathName
  before_blank : AllBlank before
  after_blank : AllBlank after

namespace Segment

def lead (segment : Segment) : List Char := segment.before ++ '.' :: segment.after

def text (segment : Segment) : List Char := segment.lead ++ segment.name.text.toList

def names (position : Nat) : List Segment → List (Located String)
  | [] => []
  | segment :: rest =>
    ⟨segment.name.text, position + byteSize segment.lead⟩ ::
      names (position + byteSize segment.text) rest

end Segment

/-- A name and the members it leads to, one at least. -/
structure Path where
  first : PathName
  segments : List Segment
  nonempty : segments ≠ []

namespace Path

def text (path : Path) : List Char :=
  path.first.text.toList ++ path.segments.flatMap Segment.text

def members (path : Path) : List (Located String) :=
  Segment.names (byteSize path.first.text.toList) path.segments

end Path

theorem name_character_outside {c : Char} (character : isNameCharacter c = true) :
    Character.outside c = none ∨ ∃ value, Character.outside c = some (.digit value) := by
  unfold isNameCharacter Character.classify at character
  cases role : Character.outside c with
  | none => exact .inl rfl
  | some given =>
      rw [role] at character
      cases given with
      | digit value => exact .inr ⟨value, rfl⟩
      | _ => cases character

theorem outside_of_blank {c : Char} (blank : IsBlank c) : Character.outside c = some .blank := by
  simp only [IsBlank, List.mem_cons, List.not_mem_nil, or_false] at blank
  rcases blank with rfl | rfl | rfl | rfl <;> rfl

theorem name_is_no_integer (name : PathName) : Numeral.isInteger name.text = false := by
  rw [Numeral.isInteger, name.unread]

namespace Scanner

section Steps

variable {s : Scanner} {c : Char} (position : Nat)

theorem step_name_character (settled : s.isSettled = true) (character : isNameCharacter c = true) :
    s.step position c = .ok (s.stepText position c) := by
  rw [step_settled position settled, stepOutside]
  rcases name_character_outside character with role | ⟨value, role⟩ <;> rw [role]

theorem step_blank_character (settled : s.isSettled = true) (blank : IsBlank c) :
    s.step position c = .ok (s.finishedName, s.stepBlank position) := by
  rw [step_settled position settled, stepOutside, outside_of_blank blank]

theorem step_dot_character (settled : s.isSettled = true) :
    s.step position '.' = s.stepOperator .dot position '.' := step_settled position settled

end Steps

/-- The states that a name can begin in without a space before it. -/
def awaitsName : Scanner → Bool
  | start | operand => true
  | _ => false

section Names

variable {s : Scanner} (position : Nat) (rest : List Char)

theorem word_pulls {cs : List Char} (characters : cs.all isNameCharacter = true)
    (origin : Nat) (text : String) : (word origin text).pulls position (cs ++ rest) =
      (word origin (text ++ String.ofList cs)).pulls (position + byteSize cs) rest := by
  induction cs generalizing position text with
  | nil => rw [String.ofList_nil, String.append_empty, byte_size_nil, Nat.add_zero, List.nil_append]
  | cons c others induction =>
      rw [List.all_cons, Bool.and_eq_true] at characters
      have longer : text.push c ++ String.ofList others = text ++ String.ofList (c :: others) := by
        rw [String.ofList_cons, ← String.append_assoc, String.append_singleton]
      have stepped := @step_name_character (word origin text) c position rfl characters.1
      rw [List.cons_append, pulls_of_silent stepped, induction _ characters.2, longer,
        byte_size_cons, Nat.add_assoc]

theorem name_pulls (awaits : s.awaitsName = true) (name : PathName) :
    s.pulls position (name.text.toList ++ rest) =
      (word position name.text).pulls (position + byteSize name.text.toList) rest := by
  have whole := name.text.ofList_toList
  have characters := name.characters
  cases split : name.text.toList with
  | nil => exact absurd (String.toList_eq_nil_iff.mp split) name.nonempty
  | cons c others =>
      rw [split] at whole characters
      rw [List.all_cons, Bool.and_eq_true] at characters
      have stepped : s.step position c = .ok (none, word position (String.singleton c)) := by
        cases s with
        | start | operand => exact step_name_character position rfl characters.1
        | gap | word | operator | capture | done => cases awaits
      rw [List.cons_append, pulls_of_silent stepped, word_pulls _ _ characters.2, ← whole,
        String.ofList_cons, byte_size_cons, Nat.add_assoc]

theorem blanks_pulls {blanks : List Char} (blank : AllBlank blanks) (settled : s.isSettled = true)
    (unnamed : s.finishedName = none) (stays : ∀ place, s.stepBlank place = s) :
    s.pulls position (blanks ++ rest) = s.pulls (position + byteSize blanks) rest := by
  induction blanks generalizing position with
  | nil => rw [List.nil_append, byte_size_nil, Nat.add_zero]
  | cons c others induction =>
      have stepped := step_blank_character position settled (blank c List.mem_cons_self)
      rw [unnamed, stays] at stepped
      rw [List.cons_append, pulls_of_silent stepped,
        induction _ fun b member => blank b (List.mem_cons_of_mem _ member), byte_size_cons,
        Nat.add_assoc]

end Names

theorem dot_joins_nothing (c : Char) : Operator.dot.join? c = none := rfl

section Segments

variable (origin position : Nat) (rest : List Char)

theorem dot_pulls {blanks : List Char} (blank : AllBlank blanks) {text : String}
    (noInteger : Numeral.isInteger text = false) :
    (word origin text).pulls position (blanks ++ '.' :: rest) =
      ⟨.ok ⟨.name text, origin⟩, 0⟩ :: (operator .dot (position + byteSize blanks)).pulls
        (position + byteSize (blanks ++ ['.'])) rest := by
  cases blanks with
  | nil =>
      have stepped : (word origin text).step position '.' =
          .ok (some ⟨.name text, origin⟩, operator .dot position) := by
        rw [step_dot_character position rfl, stepOperator, if_neg (by simp [noInteger])]
        rfl
      exact pulls_of_given stepped rest
  | cons c others =>
      have first := blank c List.mem_cons_self
      have ended : (word origin text).step position c =
          .ok (some ⟨.name text, origin⟩, gap (some position)) :=
        step_blank_character position rfl first
      have passed := @blanks_pulls (gap (some position)) (position + c.utf8Size) ('.' :: rest)
        others (fun b member => blank b (List.mem_cons_of_mem _ member)) rfl rfl fun _ => rfl
      have stepped (place : Nat) : (gap (some position)).step place '.' =
          .ok (none, operator .dot place) := step_dot_character place rfl
      rw [List.cons_append, pulls_of_given ended, passed, pulls_of_silent (stepped _),
        byte_size_append, byte_size_cons, Nat.add_assoc, Nat.add_assoc, Nat.add_assoc]
      rfl

/-- A dot is given as soon as something follows it, which is read as after any operator. -/
theorem undecided_dot_pulls {c : Char} {next : Scanner} (shallow : next.depth = 0)
    (stepped : operand.step position c = .ok (none, next)) :
    (operator .dot origin).pulls position (c :: rest) =
      ⟨.ok ⟨.operator .dot, origin⟩, 0⟩ :: operand.pulls position (c :: rest) := by
  have outside : operand.stepOutside position c = .ok (none, next) := stepped
  have given : (operator .dot origin).step position c =
      .ok (some ⟨.operator .dot, origin⟩, next) := by
    simp only [step, dot_joins_nothing, outside]
  rw [pulls_of_given given, pulls_of_silent stepped, shallow]

theorem member_pulls {blanks : List Char} (blank : AllBlank blanks) (name : PathName) :
    (operator .dot origin).pulls position (blanks ++ name.text.toList ++ rest) =
      ⟨.ok ⟨.operator .dot, origin⟩, 0⟩ ::
        (word (position + byteSize blanks) name.text).pulls
          (position + byteSize (blanks ++ name.text.toList)) rest := by
  have read : operand.pulls position (blanks ++ name.text.toList ++ rest) =
      (word (position + byteSize blanks) name.text).pulls
        (position + byteSize (blanks ++ name.text.toList)) rest := by
    rw [List.append_assoc, blanks_pulls _ _ blank rfl rfl fun _ => rfl, name_pulls _ _ rfl name,
      byte_size_append, Nat.add_assoc]
  rw [← read]
  -- The dot is given with the first character after it: a blank, or else the first of the name.
  cases blanks with
  | cons c others =>
      exact undecided_dot_pulls _ _ _ rfl
        (step_blank_character position rfl (blank c List.mem_cons_self))
  | nil =>
      have characters := name.characters
      cases split : name.text.toList with
      | nil => exact absurd (String.toList_eq_nil_iff.mp split) name.nonempty
      | cons c others =>
          rw [split, List.all_cons, Bool.and_eq_true] at characters
          exact undecided_dot_pulls _ _ _ rfl (step_name_character position rfl characters.1)

theorem segment_pulls {text : String} (noInteger : Numeral.isInteger text = false)
    (segment : Segment) : (word origin text).pulls position (segment.text ++ rest) =
      ⟨.ok ⟨.name text, origin⟩, 0⟩ ::
      ⟨.ok ⟨.operator .dot, position + byteSize segment.before⟩, 0⟩ ::
        (word (position + byteSize segment.lead) segment.name.text).pulls
          (position + byteSize segment.text) rest := by
  have ended := dot_pulls origin position
    (segment.after ++ segment.name.text.toList ++ rest) segment.before_blank noInteger
  have named := member_pulls (position + byteSize segment.before)
    (position + byteSize (segment.before ++ ['.'])) rest segment.after_blank segment.name
  have text : segment.text ++ rest =
      segment.before ++ '.' :: (segment.after ++ segment.name.text.toList ++ rest) := by
    simp [Segment.text, Segment.lead]
  rw [text, ended, named]
  simp only [Segment.text, Segment.lead, byte_size_append, byte_size_cons, byte_size_nil,
    Nat.add_assoc, Nat.add_zero]

end Segments
end Scanner
end LineShell
