import LineShell.Session

/-!
The command line: one expression, or the lines of a script, run as one session that stops at its
first failure.
-/

namespace LineShell.CommandLine

/-- What the arguments ask for. -/
structure Options where
  /-- The contents name a script. -/
  file : Bool := false
  /-- Outcomes are not reported. -/
  quiet : Bool := false
  /-- Diagnostics are asked for. -/
  verbose : Bool := false
  contents : String := "console.log(\"Hello world!\"); \n"

/-- The letters of the flags that an argument gives: one long flag, or short ones together. -/
def flagLetters? (argument : String) : Option (List Char) :=
  if argument = "--file" then some ['f']
  else if argument = "--quiet" then some ['q']
  else if argument = "--verbose" then some ['v']
  else
    match argument.toList with
    | '-' :: letter :: rest =>
      if (letter :: rest).all fun c => c == 'f' || c == 'q' || c == 'v' then some (letter :: rest)
      else none
    | _ => none

def Options.withFlag (options : Options) : Char → Options
  | 'f' => { options with file := true }
  | 'q' => { options with quiet := true }
  | 'v' => { options with verbose := true }
  | _ => options

/-- Reads the arguments; `none` if they make no sense. At most one argument can be the contents,
and after `--` no argument is a flag. -/
def Options.parse (options : Options) (seen : Bool) : List String → Option Options
  | [] => some options
  | "--" :: rest =>
    match rest, seen with
    | [], _ => some options
    | [contents], false => some { options with contents := contents }
    | _, _ => none
  | argument :: rest =>
    match flagLetters? argument with
    | some letters => parse (letters.foldl Options.withFlag options) seen rest
    | none =>
      if seen ∨ (argument ≠ "-" ∧ argument.startsWith "-") then none
      else parse { options with contents := argument } true rest

/-- Why a script cannot be read. -/
inductive ReadFailure where
  | notFound
  | isDirectory
  | notText
  | other (reason : String)
deriving DecidableEq

def ReadFailure.reason : ReadFailure → String
  | notFound => "No such file or directory (os error 2)"
  | isDirectory => "Is a directory (os error 21)"
  | notText => "stream did not contain valid UTF-8"
  | other reason => reason

/-- What a run of the program leaves behind. -/
structure Report where
  exitCode : UInt32
  standardOutput : String
  standardError : String
deriving DecidableEq

/-- What diagnostics tell while a line is run in a session. Their wording is not fixed here. -/
abbrev Tracer := Session → String → String

def silent : Tracer := fun _ _ => ""

/-- Diagnostics are told only if the flag or the variable for logging asks for them. -/
def Options.tracer (options : Options) (logging : Option String) (traced : Tracer) : Tracer :=
  if options.verbose || logging.isSome then traced else silent

/-- Lines written one after the other. -/
def writtenText (lines : List String) : String := String.join (lines.map fun line => line ++ "\n")

/-- What is reported of a line that succeeded. -/
def outcomeText : Outcome → String
  | .completed tokens => String.join (tokens.map Token.text) ++ "\n"
  | .assigned name => name ++ " bound\n"
  | .invoked _ => ""

/-- Diagnostics of a line come before its error, which is told when the line has been run. -/
def runLines (quiet : Bool) (tracer : Tracer) (session : Session) : List String → Report
  | [] => ⟨0, "", ""⟩
  | line :: rest =>
    let (evaluation, after) := session.run line
    let written := writtenText evaluation.written
    let traced := tracer session line
    match evaluation.outcome with
    | .error e => ⟨1, written, traced ++ e.message ++ "\n"⟩
    | .ok outcome =>
      let report := runLines quiet tracer after rest
      let told := if quiet then "" else outcomeText outcome
      { report with
        standardOutput := written ++ told ++ report.standardOutput
        standardError := traced ++ report.standardError }

/-- A finished line from its characters, the last first; a carriage return before the line feed
belongs to the line's end. -/
def finishedLine : List Char → List Char
  | '\r' :: line => line.reverse
  | line => line.reverse

/-- The lines of a text, given the characters of the first one so far, the last first. -/
def splitLines (line : List Char) : List Char → List (List Char)
  | [] => if line.isEmpty then [] else [line.reverse]
  | '\n' :: rest => finishedLine line :: splitLines [] rest
  | c :: rest => splitLines (c :: line) rest

/-- The lines of a script that are not blank. -/
def scriptLines (script : String) : List String :=
  ((splitLines [] script.toList).filter fun line => !line.all Text.isBlank).map String.ofList

/-- The text of a script from its bytes. -/
def decode (bytes : ByteArray) : Except ReadFailure String :=
  match String.fromUTF8? bytes with
  | some text => .ok text
  | none => .error .notText

def runExpression (quiet : Bool) (tracer : Tracer) (expression : String) : Report :=
  runLines quiet tracer Session.initial [expression]

/-- Runs a script, or tells why it could not be read. -/
def runScript (quiet : Bool) (tracer : Tracer) (path : String)
    (content : Except ReadFailure ByteArray) : Report :=
  match content.bind decode with
  | .ok script => runLines quiet tracer Session.initial (scriptLines script)
  | .error failure =>
    ⟨1, "", "Failed to read the input file '" ++ path ++ "': " ++ failure.reason ++ "\n"⟩

end LineShell.CommandLine
