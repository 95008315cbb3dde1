import LineShell.Proofs.LiteralReading
import LineShell.Proofs.QuotedText

/-!
How the lexer of literals splits what a printer writes. Everything that stands after a value or a
key begins with a comma, a colon or a closing bracket, and none of these can make the token before
it longer. So words, integers and quoted texts are one token each, and pieces split one by one.
-/

namespace LineShell.Literal

/-- Wherever the characters stand, they split into these tokens and nothing is left. -/
def LexesTo (cs : List Char) (tokens : List Token) : Prop :=
  ∀ offset, (lexFrom offset cs).fault = none ∧
    (lexFrom offset cs).tokens.map Spanned.token = tokens

section Lexing

variable {c : Char} {tail rest : List Char} {tokens : List Token}

theorem lexes_nil : LexesTo [] [] := by
  intro offset
  rw [lexFrom]
  exact ⟨rfl, rfl⟩

theorem lexes_skipped (skipped : isSkipped c = true) (after : LexesTo rest tokens) :
    LexesTo (c :: rest) tokens := by
  intro offset
  rw [lexFrom, if_pos skipped]
  exact after _

theorem lex_token {m : Munch} {token : Token} (unskipped : isSkipped c = false)
    (found : munch c tail = some m) (denotes : m.token = some token) (offset : Nat) :
    let stop := offset + byteSize m.text
    lexFrom offset (c :: tail) =
      ⟨⟨token, offset, stop⟩ :: (lexFrom stop m.rest).tokens, (lexFrom stop m.rest).fault⟩ := by
  rw [lexFrom, if_neg (by rw [unskipped]; exact Bool.false_ne_true)]
  split
  · rename_i nothing
    rw [found] at nothing
    cases nothing
  · rename_i other foundOther
    rw [found] at foundOther
    cases foundOther
    simp only [denotes]

theorem lex_stuck (unskipped : isSkipped c = false) (nothing : munch c tail = none)
    (offset : Nat) : lexFrom offset (c :: tail) = ⟨[], some offset⟩ := by
  rw [lexFrom, if_neg (by rw [unskipped]; exact Bool.false_ne_true)]
  split
  · rfl
  · rename_i found
    rw [nothing] at found
    cases found

theorem lexes_token {m : Munch} {token : Token} (unskipped : isSkipped c = false)
    (found : munch c tail = some m) (denotes : m.token = some token)
    (after : LexesTo m.rest tokens) : LexesTo (c :: tail) (token :: tokens) := by
  intro offset
  have later := after (offset + byteSize m.text)
  rw [lex_token unskipped found denotes, List.map_cons, later.1, later.2]
  exact ⟨rfl, rfl⟩

theorem unquoted_of_class (inClass : Char → Bool)
    (disjoint : ['"', '\''].all (fun c => !inClass c) = true) {c : Char}
    (member : inClass c = true) : ¬(c = '"' ∨ c = '\'') := by
  intro quote
  have outside := List.all_eq_true.mp disjoint c (by simpa using quote)
  rw [member] at outside
  cases outside

/-- A class of characters that has no blank in it is never skipped. -/
theorem unskipped_of_class (inClass : Char → Bool)
    (disjoint : [' ', '\t', '\r', '\n', '\x0c'].all (fun c => !inClass c) = true)
    (member : inClass c = true) : isSkipped c = false := by
  cases skipped : isSkipped c with
  | false => rfl
  | true =>
      have blank : c ∈ [' ', '\t', '\r', '\n', '\x0c'] := by
        simpa [isSkipped, or_assoc] using skipped
      have outsideClass := List.all_eq_true.mp disjoint c blank
      simp [member] at outsideClass

theorem lexes_mark {token : Token} (mark : punctuation? c = some token)
    (after : LexesTo rest tokens) : LexesTo (c :: rest) (token :: tokens) := by
  have found : munch c rest = some { token := some token, text := [c], rest := rest } := by
    unfold punctuation? at mark
    split at mark <;> cases mark <;> rfl
  have unskipped : isSkipped c = false := by
    unfold punctuation? at mark
    split at mark <;> cases mark <;> rfl
  exact lexes_token unskipped found rfl after

end Lexing

theorem lexes_raw {raw : String} {tokens : List Token} (lexes : LexesTo raw.toList tokens) :
    Lexes raw tokens := lexes 0

/-- What a printer may write after a value or a key. -/
def Stops (rest : List Char) : Prop := ∀ c ∈ rest.head?, c ∈ [',', ':', ')', ']', '}']

theorem stops_nil : Stops [] := by
  intro c member
  cases member

theorem stops_cons {c : Char} (stop : c ∈ [',', ':', ')', ']', '}']) (rest : List Char) :
    Stops (c :: rest) := by
  intro other member
  cases member
  exact stop

/-- Before every stop the text splits into these tokens. -/
def SplitsInto (text : List Char) (tokens : List Token) : Prop :=
  ∀ rest after, Stops rest → LexesTo rest after → LexesTo (text ++ rest) (tokens ++ after)

theorem splits_whole {text : List Char} {tokens : List Token} (splits : SplitsInto text tokens) :
    LexesTo text tokens := by
  have whole := splits [] [] stops_nil lexes_nil
  rw [List.append_nil, List.append_nil] at whole
  exact whole

section Classes

variable {inClass : Char → Bool} {front rest : List Char}

theorem take_while_run (inside : ∀ c ∈ front, inClass c = true)
    (outside : ∀ c ∈ rest.head?, inClass c = false) :
    (front ++ rest).takeWhile inClass = front ∧ (front ++ rest).dropWhile inClass = rest := by
  rw [List.takeWhile_append_of_pos inside, List.dropWhile_append_of_pos inside]
  cases rest with
  | nil => exact ⟨List.append_nil _, rfl⟩
  | cons c others => simp [outside c rfl]

/-- A stop is in no class of characters that leaves all five of them out. -/
theorem take_while_stops (inside : ∀ c ∈ front, inClass c = true)
    (disjoint : [',', ':', ')', ']', '}'].all (fun c => !inClass c) = true) (stops : Stops rest) :
    (front ++ rest).takeWhile inClass = front ∧ (front ++ rest).dropWhile inClass = rest := by
  apply take_while_run inside
  intro c begins
  simpa using List.all_eq_true.mp disjoint c (stops c begins)

end Classes

/-- A letter, an underscore or a dollar sign, and more of them or digits. -/
def IsIdentifier (name : String) : Prop :=
  ∃ first tail, name.toList = first :: tail ∧ isNameStart first = true ∧
    ∀ c ∈ tail, isNamePart c = true

def keywords : List String := ["true", "false", "null", "undefined"]

theorem word_splits {name : String} (identifier : IsIdentifier name) :
    SplitsInto name.toList [wordToken name] := by
  obtain ⟨first, tail, split, start, parts⟩ := identifier
  intro rest after stops lexes
  have unskipped := unskipped_of_class isNameStart (by decide) start
  have unquoted := unquoted_of_class isNameStart (by decide) start
  have whole := take_while_stops parts (by decide) stops
  have found : munch first (tail ++ rest) = some (munchWord first (tail ++ rest)) := by
    rw [munch, if_neg unquoted, if_pos start]
  have denotes : (munchWord first (tail ++ rest)).token = some (wordToken name) := by
    rw [munchWord, whole.1, ← split, String.ofList_toList]
  have left : (munchWord first (tail ++ rest)).rest = rest := whole.2
  rw [split]
  apply lexes_token unskipped found denotes
  rw [left]
  exact lexes

theorem word_token_identifier {name : String} (free : name ∉ keywords) :
    wordToken name = .identifier name := by
  simp only [keywords, List.mem_cons, List.not_mem_nil, or_false, not_or] at free
  obtain ⟨notTrue, notFalse, notNull, notUndefined⟩ := free
  rw [wordToken, if_neg notTrue, if_neg notFalse, if_neg notNull, if_neg notUndefined]

theorem digits_value_to_digits (n : Nat) : digitsValue (Nat.toDigits 10 n) = n := by
  have core := @Nat.ofDigitChars_ten_toDigits n
  rw [Nat.ofDigitChars_eq_foldl] at core
  exact core

theorem to_digits_digit (n : Nat) : ∀ c ∈ Nat.toDigits 10 n, isDigit c = true := by
  intro c member
  exact Nat.isDigit_of_mem_toDigits (by decide) (by decide) member

theorem split_fraction_stops {rest : List Char} (stops : Stops rest) :
    splitFraction rest = (none, rest) := by
  unfold splitFraction
  split
  · exact absurd (stops '.' rfl) (by decide)
  · rfl

theorem split_exponent_stops {rest : List Char} (stops : Stops rest) :
    splitExponent rest = (none, rest) := by
  unfold splitExponent
  split
  · rfl
  · rename_i mark others
    have stop := stops mark rfl
    have unmarked : ¬(mark = 'e' ∨ mark = 'E') := by
      rintro (rfl | rfl)
      · exact absurd stop (by decide)
      · exact absurd stop (by decide)
    dsimp only
    rw [if_neg fun both => unmarked both.1]

theorem munch_number_stops {sign digits rest : List Char} (nonempty : digits ≠ [])
    (inside : ∀ c ∈ digits, isDigit c = true) (stops : Stops rest) :
    munchNumber sign (digits ++ rest) = some {
      token := (readInteger (sign == ['-']) digits).map .integer
      text := sign ++ digits
      rest := rest } := by
  have whole := take_while_stops inside (by decide) stops
  have full : digits.isEmpty = false := by
    rw [List.isEmpty_eq_false_iff]
    exact nonempty
  simp only [munchNumber, whole.1, whole.2, split_fraction_stops stops, split_exponent_stops stops,
    full, fractionText, exponentText, numberToken, List.append_nil]
  rfl

/-- A sign and the digits of an absolute value read back, the least integer included. -/
theorem read_integer_digits {n : Int64} {negative : Bool} {size : Nat}
    (value : n.toInt = if negative then -(size : Int) else size) :
    readInteger negative (Nat.toDigits 10 size) = some n := by
  have lower := n.minValue_le_toInt
  have upper := n.toInt_le
  simp only [readInteger, digits_value_to_digits, ← value, decide_eq_true lower,
    decide_eq_true upper, Bool.and_self, if_true, Int64.ofInt_toInt]

theorem digit_mem {c : Char} (digit : isDigit c = true) :
    c ∈ ['0', '1', '2', '3', '4', '5', '6', '7', '8', '9'] := by
  have bounds : 48 ≤ c.toNat ∧ c.toNat ≤ 57 := by
    simpa [isDigit, Char.le_def, UInt32.le_iff_toNat_le] using digit
  have code : c.toNat = 48 ∨ c.toNat = 49 ∨ c.toNat = 50 ∨ c.toNat = 51 ∨ c.toNat = 52 ∨
      c.toNat = 53 ∨ c.toNat = 54 ∨ c.toNat = 55 ∨ c.toNat = 56 ∨ c.toNat = 57 := by omega
  rw [← Char.ofNat_toNat c]
  rcases code with same | same | same | same | same | same | same | same | same | same <;>
    rw [same] <;> decide

theorem digit_unnamed {c : Char} (digit : isDigit c = true) : isNameStart c = false := by
  have apart : ['0', '1', '2', '3', '4', '5', '6', '7', '8', '9'].all
      (fun c => !isNameStart c) = true := by decide
  simpa using List.all_eq_true.mp apart c (digit_mem digit)

theorem munch_digit {c : Char} (digit : isDigit c = true) (tail : List Char) :
    munch c tail = munchNumber [] (c :: tail) := by
  have unquoted := unquoted_of_class isDigit (by decide) digit
  have unsigned : c ≠ '-' := by
    rintro rfl
    exact absurd digit (by decide)
  rw [munch, if_neg unquoted, digit_unnamed digit, if_neg Bool.false_ne_true, if_neg unsigned,
    if_pos digit]

theorem munch_minus (tail : List Char) : munch '-' tail = munchNumber ['-'] tail := rfl

theorem integer_splits (n : Int64) : SplitsInto (integerText n).toList [.integer n] := by
  intro rest after stops lexes
  unfold integerText
  split
  · rename_i size same
    have digits := to_digits_digit size
    have whole := @munch_number_stops [] _ rest Nat.toDigits_ne_nil digits stops
    have reads := @read_integer_digits n false size same
    rw [String.toList_ofList]
    cases written : Nat.toDigits 10 size with
    | nil => exact absurd written Nat.toDigits_ne_nil
    | cons first others =>
        rw [written] at digits whole reads
        have digit := digits first List.mem_cons_self
        have found := (munch_digit digit (others ++ rest)).trans whole
        apply lexes_token (unskipped_of_class isDigit (by decide) digit) found
        · exact congrArg (Option.map Token.integer) reads
        · exact lexes
  · rename_i size same
    have digits := to_digits_digit (size + 1)
    have whole := @munch_number_stops ['-'] _ rest Nat.toDigits_ne_nil digits stops
    have found := (munch_minus (Nat.toDigits 10 (size + 1) ++ rest)).trans whole
    have reads := @read_integer_digits n true (size + 1) same
    rw [String.toList_ofList, List.cons_append]
    apply lexes_token (by decide) found
    · exact congrArg (Option.map Token.integer) reads
    · exact lexes

theorem quoted_splits {q : Quote} {raw text : List Char} (escapes : Escapes q.mark raw text) :
    SplitsInto (q.mark :: raw ++ [q.mark]) [.string (String.ofList text)] := by
  intro rest after _ lexes
  have found : munch q.mark (raw ++ q.mark :: rest) = some {
      token := some (.string (String.ofList text))
      text := q.mark :: raw ++ [q.mark]
      rest := rest } := by
    have marked : q.mark = '"' ∨ q.mark = '\'' := by cases q <;> decide
    rw [munch, if_pos marked, munchQuoted, escapes_split escapes, Option.map_some]
    dsimp only
    rw [escapes_unescape escapes]
  rw [List.append_assoc, List.cons_append, List.singleton_append]
  apply lexes_token (by cases q <;> decide) found rfl
  exact lexes

section Pieces

variable {text more key : List Char} {tokens others : List Token}

theorem empty_splits : SplitsInto [] [] := fun _ _ _ lexes => lexes

theorem separated_splits (first : SplitsInto text tokens) (second : SplitsInto more others) :
    SplitsInto (text ++ ',' :: ' ' :: more) (tokens ++ .comma :: others) := by
  intro rest after stops lexes
  rw [List.append_assoc, List.append_assoc]
  apply first
  · exact stops_cons (by decide) _
  · apply lexes_mark rfl
    apply lexes_skipped rfl
    exact second rest after stops lexes

theorem member_splits {token : Token} (first : SplitsInto key [token])
    (second : SplitsInto text tokens) :
    SplitsInto (key ++ ':' :: ' ' :: text) (token :: .colon :: tokens) := by
  intro rest after stops lexes
  rw [List.append_assoc]
  apply first
  · exact stops_cons (by decide) _
  · apply lexes_mark rfl
    apply lexes_skipped rfl
    exact second rest after stops lexes

/-- The tokens of a pair of brackets. -/
def bracketTokens : Bracket → Token × Token
  | .round => (.leftParen, .rightParen)
  | .square => (.leftBracket, .rightBracket)
  | .curly => (.leftBrace, .rightBrace)

theorem enclosed_splits (b : Bracket) (inside : SplitsInto text tokens) :
    SplitsInto (b.opener :: text ++ [b.closer])
      ((bracketTokens b).1 :: tokens ++ [(bracketTokens b).2]) := by
  intro rest after _ lexes
  have opens : punctuation? b.opener = some (bracketTokens b).1 := by cases b <;> rfl
  have closes : punctuation? b.closer = some (bracketTokens b).2 := by cases b <;> rfl
  rw [List.append_assoc, List.append_assoc]
  apply lexes_mark opens
  apply inside
  · exact stops_cons (by cases b <;> decide) _
  · exact lexes_mark closes lexes

end Pieces

end LineShell.Literal
