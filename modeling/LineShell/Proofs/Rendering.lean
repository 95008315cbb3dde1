import LineShell.Proofs.Blanks
import LineShell.Proofs.LexemeOrder

/-!
Lexemes written back as text. A name is its text, a space one blank, an operator stands between two
blanks and a captured text in its delimiters. The text that comes of this may be another than the
source, but it is scanned into the same lexemes: one lexeme after the other is read from what was
written for it, in the order that lexemes can have.
-/

namespace LineShell

open Literal (byteSize)

def Lexeme.rendered : Lexeme → List Char
  | space => [' ']
  | name text => text.toList
  | operator op => [' '] ++ op.symbol.toList ++ [' ']
  | capture _ closing text => (Character.partner? closing).toList ++ text.toList ++ [closing]

def render (lexemes : List (Located Lexeme)) : String :=
  String.ofList ((lexemes.map Located.item).flatMap Lexeme.rendered)

/-- A captured text is a body of the delimiters that it is in. -/
def Lexeme.Enclosed : Lexeme → Prop
  | capture shape closing text =>
    ∃ e : Enclosure, shape = e.shape ∧ closing = e.closer ∧ e.Body text.toList
  | _ => True

namespace Scanner

/-- Where the scanner is when it has read the text of a lexeme and not what follows it. -/
inductive Reached : Option Lexeme → Scanner → Prop where
  | start : Reached none start
  | name (origin : Nat) (text : String) : Reached (some (.name text)) (word origin text)
  | space (place : Nat) : Reached (some .space) (gap (some place))
  | operator (op : Operator) : Reached (some (.operator op)) operand
  | capture (shape : Shape) (closing : Char) (text : String) :
      Reached (some (.capture shape closing text)) (gap none)

/-- The lexeme that has been read but waits for what follows. -/
def owed : Scanner → List Lexeme
  | word _ text => [.name text]
  | gap (some _) => [.space]
  | _ => []

/-- Whatever follows, this text gives these lexemes and leads to this state. -/
def Reads (s : Scanner) (position : Nat) (text : List Char) (given : List (Located Lexeme))
    (next : Scanner) : Prop :=
  ∀ rest, s.collect position (text ++ rest) =
    following given (next.collect (position + byteSize text) rest)

section Reading

variable {last : Option Lexeme} {s next : Scanner} {position : Nat}

theorem step_reads {c : Char} {emitted : Option (Located Lexeme)}
    (stepped : s.step position c = .ok (emitted, next)) :
    s.Reads position [c] emitted.toList next := by
  intro rest
  rw [List.singleton_append, collect_of_step stepped, byte_size_cons, byte_size_nil, Nat.add_zero]

theorem reads_append {after : Scanner} {text more : List Char}
    {given others : List (Located Lexeme)} (first : s.Reads position text given next)
    (second : next.Reads (position + byteSize text) more others after) :
    s.Reads position (text ++ more) (given ++ others) after := by
  intro rest
  rw [List.append_assoc, first, second, following_following, byte_size_append, Nat.add_assoc]

theorem reads_silent {c : Char} {after : Scanner} {text : List Char}
    {given : List (Located Lexeme)} (first : s.Reads position text given next)
    (stepped : next.step (position + byteSize text) c = .ok (none, after)) :
    s.Reads position (text ++ [c]) given after := by
  have whole := reads_append first (step_reads stepped)
  rw [Option.toList_none, List.append_nil] at whole
  exact whole

theorem word_reads {text : String} (word : IsWord text) (settled : s.isSettled = true)
    (unnamed : s.finishedName = none) (position : Nat) :
    s.Reads position text.toList s.separatingSpace.toList (.word position text) := by
  induction word with
  | @first c character =>
      rw [String.toList_singleton]
      apply step_reads
      rw [step_name_character position settled character]
      cases s with
      | word => cases unnamed
      | start | gap | operand => rfl
      | operator | capture | done => cases settled
  | @next text c _ character induction =>
      rw [String.toList_push]
      apply reads_silent induction
      exact step_name_character _ rfl character
  | @point text _ integer induction =>
      rw [String.toList_push]
      apply reads_silent induction
      rw [step_dot_character _ rfl]
      exact if_pos ⟨rfl, integer⟩

theorem operator_reads (has : s.hasOperand = true) (op : Operator) (position : Nat) :
    s.Reads position (Lexeme.operator op).rendered
      (s.finishedName.toList ++ [⟨.operator op, position + 1⟩]) operand := by
  intro rest
  have blank : AllBlank [' '] := by simp [AllBlank, IsBlank]
  have read := @collect_operator s position [' '] [' '] rest op has blank blank
    (fun empty => absurd empty (List.cons_ne_nil _ _))
    (fun empty => absurd empty (List.cons_ne_nil _ _))
  have text : (Lexeme.operator op).rendered ++ rest =
      [' '] ++ (op.symbol.toList ++ ([' '] ++ rest)) := by
    simp [Lexeme.rendered]
  have size : byteSize (Lexeme.operator op).rendered =
      byteSize [' '] + byteSize op.symbol.toList + byteSize [' '] := by
    simp only [Lexeme.rendered, byte_size_append]
  rw [text, read, size, ← Nat.add_assoc, ← Nat.add_assoc]
  rfl

theorem capture_reads {e : Enclosure} {text : String} (outside : s.isOutside = true)
    (body : e.Body text.toList) (position : Nat) :
    s.Reads position (Lexeme.capture e.shape e.closer text).rendered
      (s.interrupted.toList ++ [⟨.capture e.shape e.closer text, position⟩]) (gap none) := by
  have opened := step_reads (step_opening outside e position)
  have closed : (within position [] [⟨e.opener, position⟩]).Reads
      (position + byteSize [e.opener]) (text.toList ++ [e.closer])
      [⟨.capture e.shape e.closer text, position⟩] (gap none) := by
    intro rest
    have pulled := closed_pulls e position (position + byteSize [e.opener]) body rest
    have size : byteSize (text.toList ++ [e.closer]) =
        byteSize text.toList + e.closer.utf8Size := by simp
    rw [List.append_assoc, List.singleton_append, collect, pulled, collected_lexeme, collect,
      String.ofList_toList, size, ← Nat.add_assoc]
  have whole := reads_append opened closed
  rw [Lexeme.rendered, partner_closer, Option.toList_some, List.append_assoc]
  exact whole

/-- One lexeme: from what was written for it the scanner reads it, and gives what it owed. -/
theorem rendered_reads {item : Lexeme} (reached : Reached last s)
    (order : item.canFollow last = true) (spelled : item.Spelled) (enclosed : item.Enclosed)
    (position : Nat) : ∃ given next, s.Reads position item.rendered given next ∧
      Reached (some item) next ∧ given.map Located.item ++ next.owed = s.owed ++ [item] := by
  cases item with
  | name text =>
      cases reached with
      | start | space | operator | capture =>
          exact ⟨_, _, word_reads spelled rfl rfl position, .name position text, rfl⟩
      | name => cases order
  | space =>
      have blank : IsBlank ' ' := by simp [IsBlank]
      cases reached with
      | name | capture =>
          exact ⟨_, _, step_reads (step_blank_character position rfl blank), .space position, rfl⟩
      | start | space | operator => cases order
  | operator op =>
      cases reached with
      | name | operator | capture =>
          exact ⟨_, _, operator_reads rfl op position, .operator op, rfl⟩
      | start | space => cases order
  | capture shape closing text =>
      obtain ⟨e, rfl, rfl, body⟩ := enclosed
      refine ⟨_, gap none, capture_reads ?_ body position, .capture e.shape e.closer text, ?_⟩
      · cases reached <;> rfl
      · cases reached <;> rfl

theorem rendered_collects {items : List Lexeme} (reached : Reached last s)
    (orderly : Orderly last items) (enclosed : ∀ item ∈ items, item.Enclosed) (position : Nat) :
    ∃ lexemes, s.collect position (items.flatMap Lexeme.rendered) = .ok lexemes ∧
      lexemes.map Located.item = s.owed ++ items := by
  induction items generalizing s last position with
  | nil =>
      cases reached with
      -- A word at the end is given by the end of the text; a space would be lost there.
      | start | name | operator | capture => exact ⟨_, collect_finished rfl position, rfl⟩
      | space => exact absurd rfl orderly
  | cons item rest induction =>
      obtain ⟨order, spelled, remaining⟩ := orderly
      obtain ⟨given, next, reads, nextReached, same⟩ := rendered_reads reached order spelled
        (enclosed item List.mem_cons_self) position
      obtain ⟨lexemes, collected, items⟩ := induction nextReached remaining
        (fun other member => enclosed other (List.mem_cons_of_mem item member))
        (position + byteSize item.rendered)
      refine ⟨given ++ lexemes, ?_, ?_⟩
      · rw [List.flatMap_cons, reads, collected, following_ok]
      · rw [List.map_append, items, ← List.append_assoc, same, List.append_assoc,
          List.singleton_append]

end Reading
end Scanner

theorem scan_enclosed {source : String} {lexemes : List (Located Lexeme)}
    (scanned : scan source = .ok lexemes) :
    ∀ item ∈ lexemes.map Located.item, item.Enclosed := by
  intro item member
  obtain ⟨lexeme, found, rfl⟩ := List.mem_map.mp member
  have given : .ok lexeme ∈ (Scanner.pullsOf source).map Scanner.Pull.result := by
    rw [Scanner.collected_results scanned]
    exact List.mem_map.mpr ⟨lexeme, found, rfl⟩
  obtain ⟨pull, pulled, result⟩ := List.mem_map.mp given
  obtain ⟨item, origin⟩ := lexeme
  cases item with
  | capture shape closing text => exact @Scanner.captured_body .start rfl _ _ _ pulled _ _ _ _ result
  | space | name | operator => trivial

/-- The text written back from the lexemes of a line has the same lexemes in the same order. -/
theorem rendered_lexemes_scan_alike (source : String) (lexemes : List (Located Lexeme))
    (scanned : scan source = .ok lexemes) :
    ∃ again, scan (render lexemes) = .ok again ∧
      again.map Located.item = lexemes.map Located.item := by
  have orderly := scan_orderly scanned
  obtain ⟨again, collected, same⟩ := Scanner.rendered_collects .start orderly
    (scan_enclosed scanned) 0
  refine ⟨again, ?_, same⟩
  change Scanner.start.collect 0 (render lexemes).toList = .ok again
  rw [render, String.toList_ofList]
  exact collected

theorem rendered_line_with_moved_blanks :
    let source := "\tx1 .y==! (a, ')')1.5 ;z"
    let lexemes : List (Located Lexeme) := [⟨.name "x1", 1⟩, ⟨.operator .dot, 4⟩, ⟨.name "y", 5⟩,
      ⟨.operator .equalEqual, 6⟩, ⟨.operator .bang, 8⟩, ⟨.capture .tuple ')' "a, ')'", 10⟩,
      ⟨.name "1.5", 18⟩]
    scan source = .ok lexemes ∧ render lexemes = "x1 . y ==  ! (a, ')')1.5" ∧
      ∃ again, scan (render lexemes) = .ok again ∧
        again.map Located.item = lexemes.map Located.item :=
  ⟨rfl, rfl, rendered_lexemes_scan_alike "\tx1 .y==! (a, ')')1.5 ;z" _ rfl⟩

end LineShell
