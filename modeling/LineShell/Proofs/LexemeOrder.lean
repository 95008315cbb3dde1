import LineShell.Proofs.ScanStates
import LineShell.Proofs.Collecting
import LineShell.Proofs.DottedPath

/-!
Which lexemes can come after which. Two names are never next to each other, a space stands only
between operands, and an operator needs something before it. A name is made of text and digits, with
a point in it only right after an integer. Each state of the scanner says what was given last; one
step keeps this, so the lexemes of a whole scan come in such an order.
-/

namespace LineShell

/-- The names that can be read: text and digits, and a point that follows an integer. -/
inductive IsWord : String → Prop where
  | first {c : Char} (character : isNameCharacter c = true) : IsWord (String.singleton c)
  | next {text : String} {c : Char} (word : IsWord text) (character : isNameCharacter c = true) :
      IsWord (text.push c)
  | point {text : String} (word : IsWord text) (integer : Numeral.isInteger text = true) :
      IsWord (text.push '.')

namespace Lexeme

def allowsName : Option Lexeme → Bool
  | some (name _) => false
  | _ => true

def allowsOperator : Option Lexeme → Bool
  | none | some space => false
  | _ => true

def allowsSpace : Option Lexeme → Bool
  | some (name _) | some (capture ..) => true
  | _ => false

def canFollow (last : Option Lexeme) : Lexeme → Bool
  | name _ => allowsName last
  | operator _ => allowsOperator last
  | space => allowsSpace last
  | capture .. => true

def Spelled : Lexeme → Prop
  | name text => IsWord text
  | _ => True

end Lexeme

/-- Lexemes that can come after `last`, each after the one before it, up to the end of a line. -/
def Orderly : Option Lexeme → List Lexeme → Prop
  | last, [] => last ≠ some .space
  | last, item :: rest => item.canFollow last = true ∧ item.Spelled ∧ Orderly (some item) rest

namespace Scanner

/-- What can have been given last before a state. -/
def Follows (last : Option Lexeme) : Scanner → Prop
  | start => last = none
  | gap none => ∃ shape closing text, last = some (.capture shape closing text)
  | gap (some _) => Lexeme.allowsSpace last = true
  | word _ text => Lexeme.allowsName last = true ∧ IsWord text
  | operator .. => Lexeme.allowsOperator last = true
  | operand => ∃ op, last = some (.operator op)
  | capture .. => True
  | done => last ≠ some .space

/-- What a step can give after `last`, and where the scanner goes on. -/
inductive Continues (last : Option Lexeme) : Option (Located Lexeme) → Scanner → Prop where
  | silent {next : Scanner} (follows : next.Follows last) : Continues last none next
  | gives {lexeme : Located Lexeme} {next : Scanner}
      (order : lexeme.item.canFollow last = true) (spelled : lexeme.item.Spelled)
      (follows : next.Follows (some lexeme.item)) : Continues last (some lexeme) next

section Steps

variable {last : Option Lexeme} {s next : Scanner} {position : Nat} {c : Char}
  {emitted : Option (Located Lexeme)}

theorem space_last (space : Lexeme.allowsSpace last = true) :
    (∃ text, last = some (.name text)) ∨
      ∃ shape closing text, last = some (.capture shape closing text) := by
  match last, space with
  | some (.name text), _ => exact .inl ⟨text, rfl⟩
  | some (.capture shape closing text), _ => exact .inr ⟨shape, closing, text, rfl⟩

theorem space_allows_operator (space : Lexeme.allowsSpace last = true) :
    Lexeme.allowsOperator last = true ∧ last ≠ some .space := by
  rcases space_last space with ⟨text, rfl⟩ | ⟨shape, closing, text, rfl⟩
  · exact ⟨rfl, by simp⟩
  · exact ⟨rfl, by simp⟩

theorem settled_ends (settled : s.isSettled = true) (unnamed : s.finishedName = none)
    (follows : s.Follows last) : last ≠ some .space := by
  cases s with
  | start =>
      rw [show last = none from follows]
      simp
  | gap space =>
      cases space with
      | none =>
          obtain ⟨shape, closing, text, rfl⟩ := follows
          simp
      | some place => exact (space_allows_operator follows).2
  | operand =>
      obtain ⟨op, rfl⟩ := follows
      simp
  | word => cases unnamed
  | operator | capture | done => cases settled

theorem finished_continues (follows : s.Follows last)
    (unnamed : s.finishedName = none → next.Follows last)
    (named : ∀ text, next.Follows (some (.name text))) : Continues last s.finishedName next := by
  cases s with
  | word origin text => exact .gives follows.1 follows.2 (named text)
  | start | gap | operator | operand | capture | done => exact .silent (unnamed rfl)

theorem step_blank_continues (settled : s.isSettled = true) (follows : s.Follows last) :
    Continues last s.finishedName (s.stepBlank position) := by
  cases s with
  | gap space =>
      cases space with
      | none =>
          obtain ⟨shape, closing, text, rfl⟩ := follows
          exact .silent rfl
      | some place => exact .silent follows
  | word origin text => exact .gives follows.1 follows.2 rfl
  | start | operand => exact .silent follows
  | operator | capture | done => cases settled

theorem step_opening_continues (follows : s.Follows last)
    (captures : ∀ item, next.Follows item) :
    Continues last (s.finishedName <|> s.separatingSpace) next := by
  cases s with
  | gap space =>
      cases space with
      | none => exact .silent (captures last)
      | some place => exact .gives follows trivial (captures _)
  | word origin text => exact .gives follows.1 follows.2 (captures _)
  | start | operator | operand | capture | done => exact .silent (captures last)

theorem step_text_continues (settled : s.isSettled = true) (follows : s.Follows last)
    (character : isNameCharacter c = true) (stepped : s.stepText position c = (emitted, next)) :
    Continues last emitted next := by
  have begun : IsWord (String.singleton c) := .first character
  cases s with
  | word origin text =>
      cases stepped
      exact .silent ⟨follows.1, follows.2.next character⟩
  | start =>
      cases stepped
      cases follows
      exact .silent ⟨rfl, begun⟩
  | gap space =>
      cases space with
      | none =>
          cases stepped
          obtain ⟨shape, closing, text, rfl⟩ := follows
          exact .silent ⟨rfl, begun⟩
      | some place =>
          cases stepped
          exact .gives follows trivial ⟨rfl, begun⟩
  | operand =>
      cases stepped
      obtain ⟨op, rfl⟩ := follows
      exact .silent ⟨rfl, begun⟩
  | operator | capture | done => cases settled

theorem step_operator_continues {op : Operator} (settled : s.isSettled = true)
    (follows : s.Follows last) (symbol : op.symbol.toList = [c])
    (stepped : s.stepOperator op position c = .ok (emitted, next)) :
    Continues last emitted next := by
  cases s with
  | start => cases stepped
  | word origin text =>
      simp only [stepOperator] at stepped
      split at stepped
      · rename_i point
        obtain ⟨rfl, integer⟩ := point
        cases stepped
        have same : ['.'] = [c] := symbol
        cases same
        exact .silent ⟨follows.1, follows.2.point integer⟩
      · cases stepped
        exact .gives follows.1 follows.2 rfl
  | gap space =>
      cases stepped
      cases space with
      | none =>
          obtain ⟨shape, closing, text, rfl⟩ := follows
          exact .silent rfl
      | some place => exact .silent (space_allows_operator follows).1
  | operand =>
      cases stepped
      obtain ⟨before, rfl⟩ := follows
      exact .silent rfl
  | operator | capture | done => cases settled

theorem step_outside_continues (settled : s.isSettled = true) (follows : s.Follows last)
    (stepped : s.stepOutside position c = .ok (emitted, next)) : Continues last emitted next := by
  have symbol {op : Operator} := @outside_operator_symbol c op
  unfold stepOutside at stepped
  split at stepped
  · cases stepped
    apply finished_continues follows
    · intro unnamed
      exact settled_ends settled unnamed follows
    · intro text
      simp [Follows]
  · cases stepped
    exact step_blank_continues settled follows
  · cases stepped
    exact step_opening_continues follows fun _ => trivial
  · cases stepped
  · rename_i op role
    exact step_operator_continues settled follows (symbol (.inl role)) stepped
  · rename_i op role
    exact step_operator_continues settled follows (symbol (.inr (.inl role))) stepped
  · rename_i op role
    exact step_operator_continues settled follows (symbol (.inr (.inr role))) stepped
  · rename_i role
    apply step_text_continues settled follows _ (Except.ok.inj stepped)
    simp [isNameCharacter, Character.classify, role, Role.kind]
  · rename_i role
    apply step_text_continues settled follows _ (Except.ok.inj stepped)
    simp [isNameCharacter, Character.classify, role]

theorem step_closing_continues {origin : Nat} {text : String} {delimiters : Delimiters}
    {partner : Char} {shape : Shape}
    (stepped : stepClosing origin text delimiters position c partner shape = .ok (emitted, next)) :
    Continues last emitted next := by
  unfold stepClosing at stepped
  split at stepped
  · cases stepped
  · cases stepped
    exact .gives rfl trivial ⟨shape, c, text, rfl⟩
  · cases stepped
    exact .silent trivial

theorem step_enclosed_continues {origin : Nat} {text : String} {delimiters : Delimiters}
    (stepped : stepEnclosed origin text delimiters position c = .ok (emitted, next)) :
    Continues last emitted next := by
  unfold stepEnclosed at stepped
  split at stepped
  · cases stepped
    exact .silent trivial
  · exact step_closing_continues stepped
  · cases stepped
    exact .silent trivial

theorem step_quoted_continues {origin : Nat} {text : String} {escaped : Bool}
    {delimiters : Delimiters} {quote : Char}
    (stepped : stepQuoted origin text escaped delimiters quote position c = .ok (emitted, next)) :
    Continues last emitted next := by
  unfold stepQuoted at stepped
  split at stepped
  · cases stepped
    exact .silent trivial
  · split at stepped
    · cases stepped
      exact .silent trivial
    · split at stepped
      · exact step_closing_continues stepped
      · cases stepped
        exact .silent trivial

theorem step_continues (follows : s.Follows last)
    (stepped : s.step position c = .ok (emitted, next)) : Continues last emitted next := by
  cases s with
  | start => exact step_outside_continues rfl follows stepped
  | gap space => exact step_outside_continues rfl follows stepped
  | word origin text => exact step_outside_continues rfl follows stepped
  | operand => exact step_outside_continues rfl follows stepped
  | operator first origin =>
      simp only [step] at stepped
      split at stepped
      · rename_i double joined
        cases stepped
        exact .gives follows trivial ⟨double, rfl⟩
      · split at stepped
        · cases stepped
        · rename_i ignored after outsideStepped
          cases stepped
          -- The character that leaves the operator alone is read as if it had been given before.
          have silent := step_operand_gives_none outsideStepped
          subst silent
          have continues : Continues (some (.operator first)) none next :=
            @step_outside_continues _ operand _ _ _ _ rfl ⟨first, rfl⟩ outsideStepped
          cases continues with
          | silent afterOperator => exact .gives follows trivial afterOperator
  | capture origin text escaped delimiters =>
      simp only [step] at stepped
      split at stepped
      · split at stepped
        · exact step_quoted_continues stepped
        · exact step_enclosed_continues stepped
      · exact step_enclosed_continues stepped
  | done =>
      cases stepped
      exact .silent follows

theorem finish_orderly {given : Nat} (sound : s.Sound given) (follows : s.Follows last)
    {final : Option (Located Lexeme)} (finished : s.finish = .ok final) :
    Orderly last (final.toList.map Located.item) := by
  cases s with
  | word origin text =>
      cases finished
      exact ⟨follows.1, follows.2, by simp [Orderly]⟩
  | operator first origin =>
      cases finished
      exact ⟨follows, trivial, by simp [Orderly]⟩
  | start | gap | operand =>
      cases finished
      exact settled_ends rfl rfl follows
  | done =>
      cases finished
      exact follows
  | capture => cases finished_outside sound finished

theorem collect_orderly {given : Nat} {cs : List Char} {lexemes : List (Located Lexeme)}
    (sound : s.Sound given) (follows : s.Follows last)
    (collected : s.collect position cs = .ok lexemes) :
    Orderly last (lexemes.map Located.item) := by
  induction cs generalizing s last given position lexemes with
  | nil =>
      cases finished : s.finish with
      | error e =>
          simp only [collect, pulls, finished] at collected
          cases collected
      | ok final =>
          rw [collect_finished finished] at collected
          cases collected
          exact finish_orderly sound follows finished
  | cons c rest induction =>
      cases stepped : s.step position c with
      | error e =>
          rw [collect_of_failed stepped] at collected
          cases collected
      | ok outcome =>
          obtain ⟨emitted, after⟩ := outcome
          have soundAfter := step_sound sound stepped
          rw [collect_of_step stepped] at collected
          obtain ⟨others, remaining, rfl⟩ := following_eq_ok collected
          cases step_continues follows stepped with
          | silent followsAfter => exact induction soundAfter followsAfter remaining
          | gives order spelled followsAfter =>
              exact ⟨order, spelled, induction soundAfter followsAfter remaining⟩

end Steps
end Scanner

theorem scan_orderly {source : String} {lexemes : List (Located Lexeme)}
    (scanned : scan source = .ok lexemes) : Orderly none (lexemes.map Located.item) :=
  @Scanner.collect_orderly none .start 0 0 source.toList lexemes trivial rfl scanned

end LineShell
