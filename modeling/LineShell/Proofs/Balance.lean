import LineShell.Proofs.Enclosure
import LineShell.Proofs.Offsets

/-!
The language of delimited texts, said without the scanner. In quotes a backslash goes with any one
character after it and the quote itself ends the text; between brackets, brackets match and quoted
pieces hide what is in them. Main statement: after an opening delimiter, every text either closes
it, or meets a closing bracket that does not match the innermost open delimiter, or ends with some
delimiter innermost.
-/

namespace LineShell

open Literal (byteSize)

/-- The texts that can stand between two marks of a quote. -/
inductive Quoted (mark : Char) : List Char → Prop where
  | nil : Quoted mark []
  | plain {c : Char} {rest : List Char} (unmarked : c ≠ mark) (unescaped : c ≠ '\\')
      (after : Quoted mark rest) : Quoted mark (c :: rest)
  | escape {c : Char} {rest : List Char} (after : Quoted mark rest) :
      Quoted mark ('\\' :: c :: rest)

/-- The texts that can stand between two brackets. -/
inductive Balanced : List Char → Prop where
  | nil : Balanced []
  | plain {c : Char} {rest : List Char} (plain : IsPlain c) (after : Balanced rest) :
      Balanced (c :: rest)
  | bracket (b : Bracket) {inner rest : List Char} (inside : Balanced inner)
      (after : Balanced rest) : Balanced (b.opener :: inner ++ b.closer :: rest)
  | quoted (q : Quote) {inner rest : List Char} (inside : Quoted q.mark inner)
      (after : Balanced rest) : Balanced (q.mark :: inner ++ q.mark :: rest)

def Enclosure.Body : Enclosure → List Char → Prop
  | bracket _, text => Balanced text
  | quote q, text => Quoted q.mark text

/-- What can have been read of a body when its own delimiter is innermost. In a quote the last
character may be a backslash that still waits for the character it goes with. -/
def Enclosure.Unfinished : Enclosure → List Char → Prop
  | bracket _, text => Balanced text
  | quote q, text => Quoted q.mark text ∨ ∃ before, text = before ++ ['\\'] ∧ Quoted q.mark before

structure Opened where
  enclosure : Enclosure
  position : Nat

/-- After `outer` was opened, a text that begins at offset `start` leaves `inner` as the innermost
open delimiter, and has closed neither `outer` nor met a bracket that does not match. -/
inductive LeavesOpen : Opened → Nat → List Char → Opened → Prop where
  | here {outer : Opened} {start : Nat} {text : List Char}
      (unfinished : outer.enclosure.Unfinished text) : LeavesOpen outer start text outer
  | nested {b : Bracket} {position start : Nat} {before : List Char} {e : Enclosure}
      {rest : List Char} {inner : Opened} (balanced : Balanced before)
      (deeper : LeavesOpen ⟨e, start + byteSize before⟩
        (start + byteSize before + e.opener.utf8Size) rest inner) :
      LeavesOpen ⟨.bracket b, position⟩ start (before ++ e.opener :: rest) inner

/-- In `cs`, which begins at offset `start` after `outer` was opened, the bracket `b` closes after
`text` although the innermost open delimiter is another bracket. -/
def StrayCloser (outer : Opened) (start : Nat) (cs text : List Char) (b : Bracket) : Prop :=
  ∃ rest innermost position, cs = text ++ b.closer :: rest ∧
    LeavesOpen outer start text ⟨.bracket innermost, position⟩ ∧ b ≠ innermost

/-- What can come of the characters after an opening delimiter. -/
inductive Reading (outer : Opened) (start : Nat) (cs : List Char) : Prop where
  | closed {text rest : List Char} (split : cs = text ++ outer.enclosure.closer :: rest)
      (body : outer.enclosure.Body text)
  | stray {text : List Char} {b : Bracket} (stray : StrayCloser outer start cs text b)
  | unclosed {inner : Opened} (leaves : LeavesOpen outer start cs inner)

theorem quoted_append {mark : Char} {left right : List Char} (first : Quoted mark left)
    (second : Quoted mark right) : Quoted mark (left ++ right) := by
  induction first with
  | nil => exact second
  | plain unmarked unescaped after induction => exact .plain unmarked unescaped induction
  | escape after induction => exact .escape induction

theorem balanced_append {left right : List Char} (first : Balanced left)
    (second : Balanced right) : Balanced (left ++ right) := by
  induction first with
  | nil => exact second
  | plain plain after induction => exact .plain plain induction
  | bracket b inside after _ induction =>
      rw [List.append_assoc, List.cons_append]
      exact .bracket b inside induction
  | quoted q inside after induction =>
      rw [List.append_assoc, List.cons_append]
      exact .quoted q inside induction

theorem body_append {e : Enclosure} {left right : List Char} (first : e.Body left)
    (second : e.Body right) : e.Body (left ++ right) := by
  cases e with
  | bracket b => exact balanced_append first second
  | quote q => exact quoted_append first second

theorem unfinished_prepend {e : Enclosure} {front text : List Char} (body : e.Body front)
    (unfinished : e.Unfinished text) : e.Unfinished (front ++ text) := by
  cases e with
  | bracket b => exact balanced_append body unfinished
  | quote q =>
      rcases unfinished with finished | ⟨before, rfl, finished⟩
      · exact .inl (quoted_append body finished)
      · exact .inr ⟨front ++ before, (List.append_assoc _ _ _).symm, quoted_append body finished⟩

theorem leaves_open_prepend {outer inner : Opened} {start : Nat} {front text : List Char}
    (body : outer.enclosure.Body front)
    (leaves : LeavesOpen outer (start + byteSize front) text inner) :
    LeavesOpen outer start (front ++ text) inner := by
  cases leaves with
  | here unfinished => exact .here (unfinished_prepend body unfinished)
  | @nested b position _ before e rest _ balanced deeper =>
      rw [← List.append_assoc]
      refine .nested (balanced_append body balanced) ?_
      rw [byte_size_append, ← Nat.add_assoc]
      exact deeper

theorem reading_prepend {outer : Opened} {start : Nat} {front cs : List Char}
    (body : outer.enclosure.Body front) (reading : Reading outer (start + byteSize front) cs) :
    Reading outer start (front ++ cs) := by
  cases reading with
  | @closed text rest split inside =>
      have whole : front ++ cs = (front ++ text) ++ outer.enclosure.closer :: rest := by
        rw [split, List.append_assoc]
      exact .closed whole (body_append body inside)
  | @stray text b stray =>
      obtain ⟨rest, innermost, position, split, leaves, different⟩ := stray
      refine .stray ⟨rest, innermost, position, ?_, leaves_open_prepend body leaves, different⟩
      rw [split, List.append_assoc]
  | unclosed leaves => exact .unclosed (leaves_open_prepend body leaves)

theorem enclosed_body_balanced {e : Enclosure} {text : List Char} (body : e.Body text) :
    Balanced (e.opener :: text ++ [e.closer]) := by
  cases e with
  | bracket b => exact .bracket b body .nil
  | quote q => exact .quoted q body .nil

theorem quote_reading (q : Quote) (position start : Nat) (cs : List Char) :
    Reading ⟨.quote q, position⟩ start cs := by
  -- A backslash takes two characters at once, so the induction is on the length.
  induction size : cs.length using Nat.strongRecOn generalizing start cs with
  | ind size induction =>
      subst size
      match cs with
      | [] => exact .unclosed (.here (.inl .nil))
      | c :: rest =>
          by_cases mark : c = q.mark
          · subst mark
            exact .closed rfl .nil
          · by_cases backslash : c = '\\'
            · subst backslash
              match rest with
              | [] => exact .unclosed (.here (.inr ⟨[], rfl, .nil⟩))
              | next :: others =>
                  have piece : (Enclosure.quote q).Body ['\\', next] := .escape .nil
                  have shorter : others.length < ('\\' :: next :: others).length := by
                    simp only [List.length_cons]
                    omega
                  exact reading_prepend piece (induction others.length shorter _ others rfl)
            · have piece : (Enclosure.quote q).Body [c] := .plain mark backslash .nil
              exact reading_prepend piece (induction rest.length (by simp) _ rest rfl)

/-- Every text after an opening delimiter has one of the three outcomes. -/
theorem reading_total (outer : Opened) (start : Nat) (cs : List Char) :
    Reading outer start cs := by
  induction size : cs.length using Nat.strongRecOn generalizing outer start cs with
  | ind size induction =>
      subst size
      obtain ⟨enclosure, position⟩ := outer
      cases enclosure with
      | quote q => exact quote_reading q position start cs
      | bracket b =>
          cases cs with
          | nil => exact .unclosed (.here .nil)
          | cons c rest =>
              rcases character_cases c with ⟨e, rfl⟩ | ⟨other, rfl⟩ | plain
              · -- A nested delimiter: if it closes, the enclosed text is a piece of this body.
                cases induction rest.length (by simp) ⟨e, start⟩
                  (start + e.opener.utf8Size) rest rfl with
                | @closed text remaining split body =>
                    have shorter : remaining.length < (e.opener :: rest).length := by
                      rw [split]
                      simp
                      omega
                    have piece := enclosed_body_balanced body
                    have reading := induction remaining.length shorter ⟨.bracket b, position⟩
                      (start + byteSize (e.opener :: text ++ [e.closer])) remaining rfl
                    have whole : e.opener :: rest =
                        e.opener :: text ++ [e.closer] ++ remaining := by
                      rw [split]
                      simp
                    rw [whole]
                    exact reading_prepend piece reading
                | @stray text other stray =>
                    obtain ⟨remaining, innermost, place, split, leaves, different⟩ := stray
                    have whole : e.opener :: rest =
                        (e.opener :: text) ++ other.closer :: remaining := by
                      rw [split, List.cons_append]
                    have deeper := @LeavesOpen.nested b position start [] e _ _ .nil leaves
                    exact .stray ⟨remaining, innermost, place, whole, deeper, different⟩
                | unclosed leaves => exact .unclosed (.nested .nil leaves)
              · by_cases same : other = b
                · subst same
                  exact .closed rfl .nil
                · exact .stray ⟨rest, b, position, rfl, .here .nil, same⟩
              · have piece : (Enclosure.bracket b).Body [c] := .plain plain .nil
                exact @reading_prepend ⟨.bracket b, position⟩ start [c] rest piece
                  (induction rest.length (by simp) _ _ rest rfl)

end LineShell
