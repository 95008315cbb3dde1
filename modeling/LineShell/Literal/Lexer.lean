import LineShell.Literal.Token
import LineShell.Text.Escape

/-!
Splitting the text of a literal into tokens. At each place the longest token is taken, and a
keyword wins over an identifier of the same length. Every token covers the characters between two
byte offsets; reading stops at the first place where no token begins.
-/

namespace LineShell.Literal

/-- The blanks between tokens: space, tab, carriage return, line feed and form feed. -/
def isSkipped (c : Char) : Bool :=
  c == ' ' || c == '\t' || c == '\r' || c == '\n' || c == '\x0c'

def isNameStart (c : Char) : Bool :=
  ('a' ≤ c && c ≤ 'z') || ('A' ≤ c && c ≤ 'Z') || c == '_' || c == '$'

def isNamePart (c : Char) : Bool := isNameStart c || isDigit c

/-- The text of one token, what it denotes if it denotes anything, and the text after it. -/
structure Munch where
  token : Option Token
  text : List Char
  rest : List Char

/-- The digits after a point; without digits there is no fraction, and the point stays. -/
def splitFraction (cs : List Char) : Option (List Char) × List Char :=
  match cs with
  | '.' :: rest =>
    if (rest.takeWhile isDigit).isEmpty then (none, cs)
    else (some (rest.takeWhile isDigit), rest.dropWhile isDigit)
  | _ => (none, cs)

def fractionText : Option (List Char) → List Char
  | none => []
  | some digits => '.' :: digits

/-- An exponent as it is written: its mark, its sign if it has one, and its digits. -/
structure Exponent where
  mark : Char
  sign : List Char
  digits : List Char

def Exponent.value (e : Exponent) : Int :=
  if e.sign = ['-'] then -(digitsValue e.digits : Int) else digitsValue e.digits

def exponentText : Option Exponent → List Char
  | none => []
  | some e => e.mark :: e.sign ++ e.digits

def splitSign (cs : List Char) : List Char × List Char :=
  match cs with
  | '+' :: rest => (['+'], rest)
  | '-' :: rest => (['-'], rest)
  | _ => ([], cs)

def splitExponent (cs : List Char) : Option Exponent × List Char :=
  match cs with
  | [] => (none, cs)
  | mark :: rest =>
    let signed := splitSign rest
    if (mark = 'e' ∨ mark = 'E') ∧ !(signed.2.takeWhile isDigit).isEmpty then
      (some ⟨mark, signed.1, signed.2.takeWhile isDigit⟩, signed.2.dropWhile isDigit)
    else (none, cs)

/-- The token of a number from its parts. Without a fraction and an exponent it is an integer. -/
def numberToken (negative : Bool) (whole : List Char) (fraction : Option (List Char))
    (exponent : Option Exponent) : Option Token :=
  match fraction, exponent with
  | none, none => (readInteger negative whole).map .integer
  | _, _ => some (.real (Double.ofDecimal
      (Decimal.ofParts negative whole (fraction.getD []) ((exponent.map Exponent.value).getD 0))))

/-- A number whose sign has been read. -/
def munchNumber (sign : List Char) (cs : List Char) : Option Munch :=
  let whole := cs.takeWhile isDigit
  let fraction := splitFraction (cs.dropWhile isDigit)
  let exponent := splitExponent fraction.2
  if whole.isEmpty then none
  else some {
    token := numberToken (sign == ['-']) whole fraction.1 exponent.1
    text := sign ++ whole ++ fractionText fraction.1 ++ exponentText exponent.1
    rest := exponent.2 }

/-- The text up to the next quote that no backslash stands before. A backslash goes with the
character after it, which is not a line feed. -/
def splitQuoted (quote : Char) : List Char → Option (List Char × List Char)
  | [] => none
  | '\\' :: c :: rest =>
    if c = '\n' then none
    else (splitQuoted quote rest).map fun (body, after) => ('\\' :: c :: body, after)
  | c :: rest =>
    if c = quote then some ([], rest)
    else if c = '\\' then none
    else (splitQuoted quote rest).map fun (body, after) => (c :: body, after)

def munchQuoted (quote : Char) (cs : List Char) : Option Munch :=
  (splitQuoted quote cs).map fun (body, rest) => {
    token := some (.string (String.ofList (Text.unescapeChars body)))
    text := quote :: body ++ [quote]
    rest := rest }

/-- A whole word is a keyword or an identifier. -/
def wordToken (name : String) : Token :=
  if name = "true" then .bool true
  else if name = "false" then .bool false
  else if name = "null" then .null
  else if name = "undefined" then .undefined
  else .identifier name

def munchWord (c : Char) (tail : List Char) : Munch :=
  let text := c :: tail.takeWhile isNamePart
  { token := some (wordToken (String.ofList text))
    text := text
    rest := tail.dropWhile isNamePart }

def punctuation? : Char → Option Token
  | '(' => some .leftParen
  | ')' => some .rightParen
  | '[' => some .leftBracket
  | ']' => some .rightBracket
  | '{' => some .leftBrace
  | '}' => some .rightBrace
  | ',' => some .comma
  | ':' => some .colon
  | _ => none

/-- The longest token that begins with `c`. -/
def munch (c : Char) (tail : List Char) : Option Munch :=
  if c = '"' ∨ c = '\'' then munchQuoted c tail
  else if isNameStart c then some (munchWord c tail)
  else if c = '-' then munchNumber ['-'] tail
  else if isDigit c then munchNumber [] (c :: tail)
  else (punctuation? c).map fun token => { token := some token, text := [c], rest := tail }

theorem splitFraction_append (cs : List Char) :
    fractionText (splitFraction cs).1 ++ (splitFraction cs).2 = cs := by
  unfold splitFraction
  split
  · split
    · rfl
    · simp [fractionText]
  · rfl

theorem splitSign_append (cs : List Char) : (splitSign cs).1 ++ (splitSign cs).2 = cs := by
  unfold splitSign
  split <;> rfl

theorem splitExponent_append (cs : List Char) :
    exponentText (splitExponent cs).1 ++ (splitExponent cs).2 = cs := by
  unfold splitExponent
  split
  · rfl
  · dsimp only
    split
    · simp [exponentText, splitSign_append]
    · rfl

theorem splitQuoted_append {quote : Char} {cs body rest : List Char}
    (split : splitQuoted quote cs = some (body, rest)) : cs = body ++ quote :: rest := by
  fun_induction splitQuoted quote cs generalizing body rest with
  | case1 => simp at split
  | case2 => simp at split
  | case3 c tail _ ih =>
    obtain ⟨⟨inner, after⟩, found, same⟩ := Option.map_eq_some_iff.1 split
    obtain ⟨rfl, rfl⟩ := by simpa using same
    simp [ih found]
  | case4 tail =>
    obtain ⟨rfl, rfl⟩ := by simpa using split
    rfl
  | case5 => simp at split
  | case6 c tail _ _ _ ih =>
    obtain ⟨⟨inner, after⟩, found, same⟩ := Option.map_eq_some_iff.1 split
    obtain ⟨rfl, rfl⟩ := by simpa using same
    simp [ih found]

theorem munchNumber_append {sign cs : List Char} {m : Munch} (found : munchNumber sign cs = some m) :
    m.text ++ m.rest = sign ++ cs := by
  unfold munchNumber at found
  dsimp only at found
  split at found
  · simp at found
  · obtain rfl := by simpa using found
    simp [splitExponent_append, splitFraction_append]

/-- A token's text and the text after it make up the whole. -/
theorem munch_append {c : Char} {tail : List Char} {m : Munch} (found : munch c tail = some m) :
    m.text ++ m.rest = c :: tail := by
  unfold munch at found
  split at found
  · obtain ⟨⟨body, after⟩, split, rfl⟩ := Option.map_eq_some_iff.1 found
    simp [splitQuoted_append split]
  · split at found
    · obtain rfl := by simpa using found
      simp [munchWord]
    · split at found
      · rename_i sign
        simp [munchNumber_append found, sign]
      · split at found
        · simp [munchNumber_append found]
        · obtain ⟨token, _, rfl⟩ := Option.map_eq_some_iff.1 found
          rfl

theorem munch_text_ne_nil {c : Char} {tail : List Char} {m : Munch} (found : munch c tail = some m) :
    m.text ≠ [] := by
  have number {sign cs : List Char} (found : munchNumber sign cs = some m) : m.text ≠ [] := by
    unfold munchNumber at found
    dsimp only at found
    split at found
    · simp at found
    · rename_i whole
      obtain rfl := by simpa using found
      simp_all
  unfold munch at found
  split at found
  · obtain ⟨_, _, rfl⟩ := Option.map_eq_some_iff.1 found
    simp
  · split at found
    · obtain rfl := by simpa using found
      simp [munchWord]
    · split at found
      · exact number found
      · split at found
        · exact number found
        · obtain ⟨_, _, rfl⟩ := Option.map_eq_some_iff.1 found
          simp

theorem munch_rest_length {c : Char} {tail : List Char} {m : Munch} (found : munch c tail = some m) :
    m.rest.length ≤ tail.length := by
  have whole := congrArg List.length (munch_append found)
  have nonempty := List.length_pos_iff.2 (munch_text_ne_nil found)
  simp only [List.length_append, List.length_cons] at whole
  omega

/-- A token and the byte offsets between which it stands. -/
structure Spanned where
  token : Token
  start : Nat
  stop : Nat
deriving DecidableEq

/-- The tokens of a text up to its end, or up to the offset where none begins. -/
structure Lexed where
  tokens : List Spanned
  fault : Option Nat
deriving DecidableEq

/-- The size of characters in bytes. -/
def byteSize (cs : List Char) : Nat := cs.foldl (fun size c => size + c.utf8Size) 0

def lexFrom (offset : Nat) (cs : List Char) : Lexed :=
  match cs with
  | [] => ⟨[], none⟩
  | c :: tail =>
    if isSkipped c then lexFrom (offset + c.utf8Size) tail
    else
      match found : munch c tail with
      | none => ⟨[], some offset⟩
      | some m =>
        match m.token with
        | none => ⟨[], some offset⟩
        | some token =>
          have := munch_rest_length found
          let stop := offset + byteSize m.text
          let lexed := lexFrom stop m.rest
          ⟨⟨token, offset, stop⟩ :: lexed.tokens, lexed.fault⟩
termination_by cs.length
decreasing_by
  · simp
  · simp only [List.length_cons]
    omega

def lex (raw : String) : Lexed := lexFrom 0 raw.toList

end LineShell.Literal
