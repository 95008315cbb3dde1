import LineShell.Pending
import LineShell.Scanner

/-!
Evaluating one line: its lexemes are reduced as they are scanned, up to the first call or error.
-/

namespace LineShell

/-- How a line ended, the call it made if it made one, and the environment after it. -/
structure Evaluation where
  outcome : Except Error Outcome
  call : Option Call
  environment : Environment

namespace Evaluation

def written (e : Evaluation) : List String := linesWritten e.call

/-- Reduces what the scanner gives, one after the other. A call ends the line. -/
def consume (env : Environment) (pending : Pending) : List Scanner.Pull → Evaluation
  | [] =>
    let (outcome, after) := pending.finish env
    ⟨.ok outcome, none, after⟩
  | ⟨.error e, _⟩ :: _ => ⟨.error e, none, env⟩
  | ⟨.ok lexeme, _⟩ :: rest =>
    let pushed := pending.push env (.lexeme lexeme.item) lexeme.position
    match pushed.progress with
    | .ok .proceed => consume env pushed.pending rest
    | .ok (.invoked value) => ⟨.ok (.invoked value), pushed.call, env⟩
    | .error e => ⟨.error e, pushed.call, env⟩

end Evaluation

def evaluate (env : Environment) (source : String) : Evaluation :=
  Evaluation.consume env [] (Scanner.pullsOf source)

end LineShell
