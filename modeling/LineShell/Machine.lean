import LineShell.Delimiters
import LineShell.Lexeme
import LineShell.Number.Numeral

/-!
The scanner as a machine of independent fields, pulled from the outside. It reads one character at a
time and queues the lexemes that are complete; a pull takes the first one of the queue, and reads on
only while the queue is empty. The first error ends the scan, and nothing is pulled after it.
-/

namespace LineShell

/-- What the machine is about. -/
inductive Mode where
  /-- Outside delimiters. -/
  | outside
  /-- After an operator character whose successor decides which operator it begins. -/
  | operator (first : Operator) (position : Nat)
  /-- After an operator, where blanks do not count. -/
  | operand
  /-- In a delimited text that was opened here. -/
  | capture (origin : Nat)
deriving DecidableEq

structure Machine where
  delimiters : Delimiters
  mode : Mode
  /-- The name or the delimited text so far. -/
  text : String
  /-- Where the name begins. -/
  origin : Nat
  /-- Where the blanks begin that no operand has followed yet. -/
  space : Option Nat
  /-- Whether a backslash keeps the next character from closing a quote. -/
  escaped : Bool
  /-- How many lexemes were queued so far. -/
  emitted : Nat
  queue : List (Located Lexeme)
  finished : Bool

namespace Machine

/-- What reading a character comes to. An error comes with the machine that it leaves. -/
abbrev Step := Except (Error × Machine) Machine

def initial : Machine where
  delimiters := .empty
  mode := .outside
  text := ""
  origin := 0
  space := none
  escaped := false
  emitted := 0
  queue := []
  finished := false

def depth (m : Machine) : Nat := m.delimiters.depth

def emit (m : Machine) (lexeme : Lexeme) (position : Nat) : Machine :=
  { m with emitted := m.emitted + 1, queue := m.queue ++ [⟨lexeme, position⟩] }

/-- Queues the space before the operand that begins here. -/
def emitSpace (m : Machine) : Machine :=
  match m.space with
  | some position => { m with space := none }.emit .space position
  | none => m

/-- Queues the name that ends here. -/
def flush (m : Machine) : Machine :=
  if m.text = "" then m else { m with text := "" }.emit (.name m.text) m.origin

def append (m : Machine) (position : Nat) (c : Char) : Machine :=
  let begun := if m.text = "" then { m.emitSpace with origin := position } else m
  { begun with text := begun.text.push c, mode := .outside }

/-- A line cannot begin with an operator, and a point after an integer begins its fraction. -/
def stepOperator (m : Machine) (kind : Kind) (position : Nat) (c : Char) : Step :=
  match (Character.action? kind c).bind Role.operator? with
  | none => .ok (m.append position c)
  | some op =>
    if op = .dot ∧ Numeral.isInteger m.text then .ok (m.append position c)
    else
      let ended := { m.flush with space := none }
      if ended.emitted = 0 then .error (⟨.unexpectedToken c, position⟩, ended)
      else .ok { ended with mode := .operator op position }

/-- Ends the line. -/
def terminate (m : Machine) : Machine := { m.flush with space := none, finished := true }

/-- A blank ends a name, and may stand between two operands. -/
def stepBlank (m : Machine) (position : Nat) : Machine :=
  if m.mode = .operand ∧ m.text = "" then m
  else
    let ended := m.flush
    if 0 < ended.emitted ∧ ended.space = none then { ended with space := some position } else ended

/-- Enters a delimited text. -/
def enter (m : Machine) (position : Nat) (c : Char) : Machine :=
  let ended := m.flush.emitSpace
  { ended with delimiters := ended.delimiters.insert c position, mode := .capture position,
               escaped := false }

/-- A step outside delimiters, when no operator is undecided. -/
def stepOperand (m : Machine) (position : Nat) (c : Char) : Step :=
  match Character.classify .outside c with
  | some .terminator => .ok m.terminate
  | some .blank => .ok (m.stepBlank position)
  | some .opening => .ok (m.enter position c)
  | some .closing => .error (⟨.unexpectedToken c, position⟩, m)
  | some .binary => m.stepOperator .binary position c
  | some .doubling => m.stepOperator .doubling position c
  | some .unary => m.stepOperator .unary position c
  | some .digit | none => .ok (m.append position c)

/-- Where a character within delimiters stands. -/
def context (m : Machine) : Character.Context :=
  match m.delimiters.innermost? with
  | some top => if Character.isQuote top.delimiter then .quoted top.delimiter else .enclosed
  | none => .enclosed

def keep (m : Machine) (c : Char) : Machine := { m with text := m.text.push c }

/-- Closes a delimiter; the closing that completes the text queues it. -/
def stepClosing (m : Machine) (origin position : Nat) (c : Char) : Step :=
  match Character.action? .closing c with
  | some (.closing partner shape) =>
    match m.delimiters.close c partner position with
    | .error e => .error (e, m)
    | .ok (.complete, delimiters) =>
      let emptied := { m with delimiters, text := "" }
      .ok { emptied.emit (.capture shape c m.text) origin with mode := .outside }
    | .ok (.interior, delimiters) => .ok ({ m with delimiters }.keep c)
  | _ => .ok (m.keep c)

/-- A step within delimiters, where all but delimiters is kept as it stands. -/
def stepCapture (m : Machine) (origin position : Nat) (c : Char) : Step :=
  let quoted := m.context != .enclosed
  if quoted ∧ m.escaped then .ok ({ m with escaped := false }.keep c)
  else if quoted ∧ c = '\\' then .ok ({ m with escaped := true }.keep c)
  else
    match Character.classify m.context c with
    | some .opening => .ok ({ m with delimiters := m.delimiters.insert c position }.keep c)
    | some .closing => m.stepClosing origin position c
    | _ => .ok (m.keep c)

/-- Reads the character at this position. -/
def step (m : Machine) (position : Nat) (c : Char) : Step :=
  match m.mode with
  | .capture origin => m.stepCapture origin position c
  | .operator first origin =>
    let decided := { m with mode := .operand }
    match first.join? c with
    | some double => .ok (decided.emit (.operator double) origin)
    | none => (decided.emit (.operator first) origin).stepOperand position c
  | .outside | .operand => m.stepOperand position c

/-- The end of the text, which is like a semicolon outside delimiters. -/
def finish (m : Machine) : Step :=
  let ended := { m with finished := true }
  match m.mode with
  | .capture _ =>
    match m.delimiters.innermost? with
    | some top => .error (⟨.unclosedDelimiter top.delimiter, top.position⟩, ended)
    | none => .ok ended
  | .operator first position => .ok (ended.emit (.operator first) position)
  | .outside | .operand => .ok ended.flush

/-- After an error nothing is queued and nothing more is read. -/
def abort (m : Machine) : Machine := { m with queue := [], finished := true }

end Machine

/-- A machine, and what it has not read yet, each character with its offset. -/
structure Scanning where
  machine : Machine
  unread : List (Nat × Char)

/-- The characters of a text with their offsets, from this one on. -/
def indexed (position : Nat) : List Char → List (Nat × Char)
  | [] => []
  | c :: rest => (position, c) :: indexed (position + c.utf8Size) rest

/-- What a pull gives, if it gives anything. -/
abbrev Pulled := Option (Except Error (Located Lexeme))

/-- One pull from a machine that has these characters before it. -/
def Machine.next (m : Machine) (unread : List (Nat × Char)) : Pulled × Scanning :=
  match m.queue with
  | lexeme :: queue => (some (.ok lexeme), ⟨{ m with queue }, unread⟩)
  | [] =>
    if m.finished then (none, ⟨m, unread⟩)
    else
      match unread with
      | (position, c) :: rest =>
        match m.step position c with
        | .ok after => after.next rest
        | .error (e, left) => (some (.error e), ⟨left.abort, rest⟩)
      | [] =>
        match m.finish with
        | .error (e, left) => (some (.error e), ⟨left.abort, []⟩)
        | .ok last =>
          match last.queue with
          | lexeme :: queue => (some (.ok lexeme), ⟨{ last with queue }, []⟩)
          | [] => (none, ⟨last, []⟩)

namespace Scanning

def new (source : String) : Scanning := ⟨.initial, indexed 0 source.toList⟩

def next (s : Scanning) : Pulled × Scanning := s.machine.next s.unread

/-- After this many pulls. -/
def after (s : Scanning) : Nat → Scanning
  | 0 => s
  | n + 1 => s.next.2.after n

/-- What the pull gives that comes after this many. -/
def pull (s : Scanning) (n : Nat) : Pulled := (s.after n).next.1

end Scanning

end LineShell
