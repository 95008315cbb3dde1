import LineShell.Evaluation

/-!
Sessions: lines evaluated one after the other in one environment, and the record of them.
-/

namespace LineShell

namespace Console

/-- Writes the text of its first argument. -/
def log : Procedure where
  label := "log"
  run := fun arguments position =>
    match arguments with
    | [] => ⟨[], .error ⟨.argumentCountMismatch "log" 1 0, position⟩⟩
    | first :: _ => ⟨[first.text], .ok .undefined⟩

def entry : Entry := Entry.empty.addCallable ⟨"log", log⟩

end Console

/-- The environment every session begins with. -/
def Environment.initial : Environment := Environment.empty.assign "console" Console.entry

/-- How a line ended, as the record keeps it. -/
inductive Status where
  | completed
  | invoked (value : Value)
  | assigned (name : String)
  | failed (error : Error)

def Status.ofOutcome : Except Error Outcome → Status
  | .ok (.completed _) => .completed
  | .ok (.invoked value) => .invoked value
  | .ok (.assigned name) => .assigned name
  | .error e => .failed e

structure Record where
  sequence : Nat
  input : String
  status : Status

structure Session where
  environment : Environment
  /-- The lines run so far, in order. -/
  history : List Record

namespace Session

def initial : Session := ⟨Environment.initial, []⟩

/-- Runs a line and records it. Lines are numbered from one. -/
def run (s : Session) (source : String) : Evaluation × Session :=
  let evaluation := evaluate s.environment source
  let record : Record :=
    ⟨s.history.length + 1, source, Status.ofOutcome evaluation.outcome⟩
  (evaluation, ⟨evaluation.environment, s.history ++ [record]⟩)

/-- The host gives a name to a shared entry. The entry that had the name is given back. -/
def share (s : Session) (name : String) (shared : Shared) : Option Shared × Session :=
  let (replaced, environment) := s.environment.exchange name shared
  (replaced, { s with environment })

/-- The host gives a name to a new entry. -/
def assign (s : Session) (name : String) (entry : Entry) : Option Shared × Session :=
  let (shared, environment) := s.environment.create entry
  share { s with environment } name shared

end Session
end LineShell
