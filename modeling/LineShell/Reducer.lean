import LineShell.Pending

/-!
Reducing tokens that are given one by one. Other than in a line, more tokens may be given after a
call or an error.
-/

namespace LineShell

/-- The tokens so far, the environment they are reduced in, and what their calls have written. -/
structure Reducer where
  environment : Environment
  pending : Pending
  written : List String

namespace Reducer

def new (env : Environment) : Reducer := ⟨env, [], []⟩

/-- Adds a token. -/
def push (r : Reducer) (token : Token) (position : Nat) : Except Error Progress × Reducer :=
  let pushed := r.pending.push r.environment token position
  (pushed.progress,
    { r with
      pending := pushed.pending
      written := r.written ++ linesWritten pushed.call })

/-- Ends the line. -/
def finish (r : Reducer) : Outcome × Environment := r.pending.finish r.environment

end Reducer
end LineShell
