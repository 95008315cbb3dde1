import LineShell.Delimiters
import LineShell.Lexeme
import LineShell.Number.Numeral

/-!
Scanning a line character by character. Outside delimiters the scanner splits the line into names,
operators and the spaces between operands; from an opening delimiter to its partner it keeps the
text unread. The line ends at a semicolon outside delimiters, or with the text.
-/

namespace LineShell

/-- What the scanner is in the middle of. -/
inductive Scanner where
  /-- Before the first lexeme. -/
  | start
  /-- After a lexeme; the position of the first blank after it, if there was one. -/
  | gap (space : Option Nat)
  | word (position : Nat) (text : String)
  /-- An operator character whose successor decides which operator it begins. -/
  | operator (first : Operator) (position : Nat)
  /-- After an operator. -/
  | operand
  /-- In a delimited text, possibly after a backslash in quotes. -/
  | capture (position : Nat) (text : String) (escaped : Bool) (delimiters : Delimiters)
  /-- After the end of the line. -/
  | done
deriving DecidableEq

namespace Scanner

/-- One step gives at most one lexeme. -/
abbrev Step := Option (Located Lexeme) × Scanner

def depth : Scanner → Nat
  | capture _ _ _ delimiters => delimiters.depth
  | _ => 0

/-- The name that ends here. -/
def finishedName : Scanner → Option (Located Lexeme)
  | word position text => some ⟨.name text, position⟩
  | _ => none

/-- The space that stands between the last operand and the one that begins here. -/
def separatingSpace : Scanner → Option (Located Lexeme)
  | gap (some position) => some ⟨.space, position⟩
  | _ => none

def stepBlank (s : Scanner) (position : Nat) : Scanner :=
  match s with
  | word .. | gap none => gap (some position)
  | s => s

def stepText (s : Scanner) (position : Nat) (c : Char) : Step :=
  match s with
  | word first text => (none, word first (text.push c))
  | s => (s.separatingSpace, word position (String.singleton c))

/-- A line cannot begin with an operator, and a point after an integer begins its fraction. -/
def stepOperator (s : Scanner) (op : Operator) (position : Nat) (c : Char) : Except Error Step :=
  match s with
  | start => .error ⟨.unexpectedToken c, position⟩
  | word first text =>
    if op = .dot ∧ Numeral.isInteger text then .ok (none, word first (text.push c))
    else .ok (s.finishedName, operator op position)
  | _ => .ok (none, operator op position)

/-- A step outside delimiters, when no operator is undecided. -/
def stepOutside (s : Scanner) (position : Nat) (c : Char) : Except Error Step :=
  match Character.outside c with
  | some .terminator => .ok (s.finishedName, done)
  | some .blank => .ok (s.finishedName, s.stepBlank position)
  | some .opening =>
    .ok (s.finishedName <|> s.separatingSpace,
      capture position "" false (Delimiters.empty.insert c position))
  | some (.closing ..) => .error ⟨.unexpectedToken c, position⟩
  | some (.binary op) | some (.doubling op) | some (.unary op) => s.stepOperator op position c
  | some (.digit _) | none => .ok (s.stepText position c)

/-- Closes a delimiter within a capture; the closing that completes it gives the lexeme. -/
def stepClosing (origin : Nat) (text : String) (delimiters : Delimiters) (position : Nat)
    (c partner : Char) (shape : Shape) : Except Error Step :=
  match delimiters.close c partner position with
  | .error e => .error e
  | .ok (.complete, _) => .ok (some ⟨.capture shape c text, origin⟩, gap none)
  | .ok (.interior, rest) => .ok (none, capture origin (text.push c) false rest)

/-- A step within quotes: a backslash keeps the next character from closing them. -/
def stepQuoted (origin : Nat) (text : String) (escaped : Bool) (delimiters : Delimiters)
    (quote : Char) (position : Nat) (c : Char) : Except Error Step :=
  if escaped then .ok (none, capture origin (text.push c) false delimiters)
  else if c = '\\' then .ok (none, capture origin (text.push c) true delimiters)
  else if c = quote then stepClosing origin text delimiters position c quote .string
  else .ok (none, capture origin (text.push c) false delimiters)

/-- A step between brackets, where only delimiters matter. -/
def stepEnclosed (origin : Nat) (text : String) (delimiters : Delimiters) (position : Nat)
    (c : Char) : Except Error Step :=
  match Character.enclosed c with
  | some .opening => .ok (none, capture origin (text.push c) false (delimiters.insert c position))
  | some (.closing partner shape) => stepClosing origin text delimiters position c partner shape
  | _ => .ok (none, capture origin (text.push c) false delimiters)

/-- Reads the character at this position. -/
def step (s : Scanner) (position : Nat) (c : Char) : Except Error Step :=
  match s with
  | done => .ok (none, done)
  | operator first origin =>
    match first.join? c with
    | some double => .ok (some ⟨.operator double, origin⟩, operand)
    | none =>
      match stepOutside operand position c with
      | .error e => .error e
      | .ok (_, next) => .ok (some ⟨.operator first, origin⟩, next)
  | capture origin text escaped delimiters =>
    match delimiters.innermost? with
    | some opening =>
      if Character.isQuote opening.delimiter then
        stepQuoted origin text escaped delimiters opening.delimiter position c
      else stepEnclosed origin text delimiters position c
    | none => stepEnclosed origin text delimiters position c
  | s => s.stepOutside position c

/-- What is left at the end of the text. -/
def finish (s : Scanner) : Except Error (Option (Located Lexeme)) :=
  match s with
  | operator first position => .ok (some ⟨.operator first, position⟩)
  | capture _ _ _ delimiters =>
    match delimiters.innermost? with
    | some opening => .error ⟨.unclosedDelimiter opening.delimiter, opening.position⟩
    | none => .ok none
  | s => .ok s.finishedName

/-- A lexeme or the error that ended the scan, and how many delimiters are open after it. -/
structure Pull where
  result : Except Error (Located Lexeme)
  depth : Nat

/-- All that the scanner gives for the characters from this position on. -/
def pulls (s : Scanner) (position : Nat) : List Char → List Pull
  | [] =>
    match s.finish with
    | .ok (some lexeme) => [⟨.ok lexeme, s.depth⟩]
    | .ok none => []
    | .error e => [⟨.error e, s.depth⟩]
  | c :: rest =>
    match s.step position c with
    | .ok (some lexeme, next) =>
      ⟨.ok lexeme, next.depth⟩ :: pulls next (position + c.utf8Size) rest
    | .ok (none, next) => pulls next (position + c.utf8Size) rest
    | .error e => [⟨.error e, s.depth⟩]

def pullsOf (source : String) : List Pull := start.pulls 0 source.toList

end Scanner

/-- The lexemes of a line, or the first error in it. -/
def scan (source : String) : Except Error (List (Located Lexeme)) :=
  (Scanner.pullsOf source).mapM Scanner.Pull.result

end LineShell
