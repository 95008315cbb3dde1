import LineShell.Proofs.Enclosure
import LineShell.Proofs.Offsets

/-!
How lexemes cover a source. Each lexeme has a span: the bytes from its position on that it stands
for. Lexemes cover characters if their written forms stand in them one after the other, with
nothing but blanks between them, up to a semicolon or the end. What follows a semicolon is not
covered and not looked at.
-/

namespace LineShell

open Literal (byteSize)

/-- What may stand in a source where a lexeme was found. -/
inductive Lexeme.Written : Lexeme → List Char → Prop where
  | space {c : Char} (blank : IsBlank c) : Written .space [c]
  | name {text : String} (nonempty : text.toList ≠ []) : Written (.name text) text.toList
  | operator (op : Operator) : Written (.operator op) op.symbol.toList
  | capture {shape : Shape} {opener closing : Char} {text : String}
      (partner : Character.partner? closing = some opener) :
      Written (.capture shape closing text) (opener :: text.toList ++ [closing])

def Lexeme.size : Lexeme → Nat
  | space => 1
  | name text => text.utf8ByteSize
  | capture _ closing text =>
    (Character.partner? closing).elim 0 Char.utf8Size + text.utf8ByteSize + closing.utf8Size
  | operator op => op.symbol.utf8ByteSize

def Located.stop (lexeme : Located Lexeme) : Nat := lexeme.position + lexeme.item.size

def OutsideSpans (lexemes : List (Located Lexeme)) (offset : Nat) : Prop :=
  ∀ lexeme ∈ lexemes, offset < lexeme.position ∨ lexeme.stop ≤ offset

inductive Covers : Nat → List Char → List (Located Lexeme) → Prop where
  | last {base : Nat} {blanks rest : List Char} (blank : AllBlank blanks)
      (stopped : rest = [] ∨ ∃ ignored, rest = ';' :: ignored) :
      Covers base (blanks ++ rest) []
  | next {base : Nat} {blanks text rest : List Char} {item : Lexeme}
      {lexemes : List (Located Lexeme)} (blank : AllBlank blanks)
      (written : item.Written text)
      (remaining : Covers (base + byteSize blanks + byteSize text) rest lexemes) :
      Covers base (blanks ++ text ++ rest) (⟨item, base + byteSize blanks⟩ :: lexemes)

theorem written_size {item : Lexeme} {text : List Char} (written : item.Written text) :
    byteSize text = item.size := by
  cases written with
  | space blank => rw [byte_size_cons, blank_size blank, byte_size_nil, Lexeme.size]
  | name nonempty => exact byte_size_to_list _
  | operator op => exact byte_size_to_list _
  | capture partner =>
      rw [Lexeme.size, partner, List.cons_append, byte_size_cons, byte_size_append, byte_size_cons,
        byte_size_nil, byte_size_to_list, Option.elim_some]
      omega

theorem operator_symbol_nonempty (op : Operator) : op.symbol.toList ≠ [] := by
  cases op <;> decide

theorem written_nonempty {item : Lexeme} {text : List Char} (written : item.Written text) :
    text ≠ [] := by
  cases written with
  | space blank => exact List.cons_ne_nil _ _
  | name nonempty => exact nonempty
  | operator op => exact operator_symbol_nonempty op
  | capture partner => exact List.cons_ne_nil _ _

theorem covers_blanks {blanks : List Char} (base : Nat) (blank : AllBlank blanks) :
    Covers base blanks [] := by
  have covers := @Covers.last base blanks [] blank (.inl rfl)
  rw [List.append_nil] at covers
  exact covers

theorem covers_single {blanks text : List Char} {item : Lexeme} (base : Nat)
    (blank : AllBlank blanks) (written : item.Written text) :
    Covers base (blanks ++ text) [⟨item, base + byteSize blanks⟩] := by
  have covers := Covers.next blank written
    (covers_blanks (base + byteSize blanks + byteSize text) all_blank_nil)
  rw [List.append_nil] at covers
  exact covers

theorem covers_base_le {base : Nat} {cs : List Char} {lexemes : List (Located Lexeme)}
    (covers : Covers base cs lexemes) : ∀ lexeme ∈ lexemes, base ≤ lexeme.position := by
  induction covers with
  | last blank stopped =>
      intro lexeme member
      cases member
  | next blank written remaining induction =>
      intro lexeme member
      cases member with
      | head => exact Nat.le_add_right _ _
      | tail _ member =>
          have later := induction lexeme member
          omega

theorem covers_stands {base : Nat} {cs : List Char} {lexemes : List (Located Lexeme)}
    (covers : Covers base cs lexemes) : ∀ lexeme ∈ lexemes,
      ∃ text, lexeme.item.Written text ∧ StandsAt base cs lexeme.position text := by
  induction covers with
  | last blank stopped =>
      intro lexeme member
      cases member
  | @next base blanks text rest item lexemes blank written remaining induction =>
      intro lexeme member
      cases member with
      | head => exact ⟨text, written, blanks, rest, rfl, rfl⟩
      | tail _ member =>
          obtain ⟨found, written, stands⟩ := induction lexeme member
          refine ⟨found, written, stands_at_prepend (blanks ++ text) ?_⟩
          rw [byte_size_append, ← Nat.add_assoc]
          exact stands

theorem covers_increasing {base : Nat} {cs : List Char} {lexemes : List (Located Lexeme)}
    (covers : Covers base cs lexemes) :
    lexemes.Pairwise fun left right => left.stop ≤ right.position := by
  induction covers with
  | last blank stopped => exact List.Pairwise.nil
  | next blank written remaining induction =>
      refine List.Pairwise.cons ?_ induction
      intro right member
      have later := covers_base_le remaining right member
      rw [written_size written] at later
      exact later

/-- A character outside all spans is blank, as long as no semicolon outside all spans has come. -/
theorem covers_blank {base : Nat} {cs : List Char} {lexemes : List (Located Lexeme)}
    (covers : Covers base cs lexemes) {offset : Nat} {c : Char}
    (stands : StandsAt base cs offset [c]) (outside : OutsideSpans lexemes offset)
    (unended : ∀ earlier ≤ offset, StandsAt base cs earlier [';'] →
      ¬OutsideSpans lexemes earlier) : IsBlank c := by
  induction covers with
  | @last base blanks rest blank stopped =>
      rcases stands_at_append_cases stands with inBlanks | inRest
      · exact blank c (stands_at_mem inBlanks)
      · rcases stopped with rfl | ⟨ignored, rfl⟩
        · exact absurd (stands_at_mem inRest) List.not_mem_nil
        · have semicolon :
              StandsAt base (blanks ++ ';' :: ignored) (base + byteSize blanks) [';'] :=
            ⟨blanks, ignored, by simp, rfl⟩
          exact absurd (by intro lexeme member; cases member)
            (unended _ (stands_at_base_le inRest) semicolon)
  | @next base blanks text rest item lexemes blank written remaining induction =>
      have size := written_size written
      rcases stands_at_append_cases stands with inFront | inRest
      · rcases stands_at_append_cases inFront with inBlanks | inText
        · exact blank c (stands_at_mem inBlanks)
        · have lower := stands_at_base_le inText
          have upper := stands_at_end_le inText
          have width := c.utf8Size_pos
          rcases outside _ List.mem_cons_self with before | after
          · dsimp only at before
            omega
          · rw [byte_size_cons, byte_size_nil] at upper
            simp only [Located.stop] at after
            omega
      · rw [byte_size_append, ← Nat.add_assoc] at inRest
        refine induction inRest (fun lexeme member => outside lexeme (.tail _ member)) ?_
        intro earlier bound semicolon outsideRest
        have reached := stands_at_base_le semicolon
        refine unended earlier bound (stands_at_prepend (blanks ++ text) ?_) ?_
        · rw [byte_size_append, ← Nat.add_assoc]
          exact semicolon
        · intro lexeme member
          cases member with
          | head =>
              right
              simp only [Located.stop]
              omega
          | tail _ member => exact outsideRest lexeme member

end LineShell
