import LineShell.Proofs.ScriptLines
import LineShell.Proofs.Wording

/-!
A script is one session. Main statement: the lines that are not blank are run in order up to the
first that fails, the output is what they wrote and reported, and the failure is the only thing told
on the error stream, unless diagnostics are asked for. Later lines, blank lines, the way in which
lines end and the wish for quiet change nothing else.
-/

namespace LineShell

namespace Session

/-- Lines run one after the other, each in the session that the lines before it left. -/
def evaluations (s : Session) : List String → List Evaluation
  | [] => []
  | line :: rest => (s.run line).1 :: (s.run line).2.evaluations rest

def traces (tracer : CommandLine.Tracer) (s : Session) : List String → List String
  | [] => []
  | line :: rest => tracer s line :: (s.run line).2.traces tracer rest

theorem silent_traces (s : Session) (lines : List String) :
    ∀ trace ∈ s.traces CommandLine.silent lines, trace = "" := by
  induction lines generalizing s with
  | nil => exact List.forall_mem_nil _
  | cons line rest induction => exact List.forall_mem_cons.mpr ⟨rfl, induction _⟩

end Session

namespace Evaluation

def failure? (e : Evaluation) : Option Error :=
  match e.outcome with
  | .ok _ => none
  | .error failure => some failure

/-- What the call of a line wrote, each line of it with a line feed. -/
def wrote (e : Evaluation) : String :=
  match e.call with
  | none => ""
  | some call => String.join
      ((call.callable.procedure.run call.arguments call.position).written.map (· ++ "\n"))

theorem written_wrote (e : Evaluation) : CommandLine.writtenText e.written = e.wrote := by
  obtain ⟨outcome, call, environment⟩ := e
  cases call <;> rfl

def told (e : Evaluation) : String :=
  match e.outcome with
  | .ok outcome => CommandLine.outcomeText outcome
  | .error _ => ""

theorem told_reported (e : Evaluation) : Reported e.outcome e.told := by
  obtain ⟨outcome, call, environment⟩ := e
  cases outcome with
  | ok outcome => exact (reported_iff outcome _).mpr rfl
  | error e => exact .failed e

/-- What a line adds to the output, given its report. -/
def shown (quiet : Bool) (e : Evaluation) (report : String) : String :=
  e.wrote ++ if quiet then "" else report

end Evaluation

namespace CommandLine

/-- How a session ends that stops at its first failure: which of the evaluations take place, the exit
code, and the message of the failure. -/
inductive Ends : List Evaluation → List Evaluation → UInt32 → String → Prop where
  | finished {all : List Evaluation} (succeeded : ∀ e ∈ all, e.failure? = none) : Ends all all 0 ""
  | failed {before after : List Evaluation} {e : Evaluation} {failure : Error} {words : String}
      (succeeded : ∀ earlier ∈ before, earlier.failure? = none)
      (failed : e.failure? = some failure) (worded : failure.Worded words) :
      Ends (before ++ e :: after) (before ++ [e]) 1 (words ++ "\n")

theorem ends_cons {e : Evaluation} {all ran : List Evaluation} {code : UInt32} {message : String}
    (succeeded : e.failure? = none) (ends : Ends all ran code message) :
    Ends (e :: all) (e :: ran) code message := by
  cases ends with
  | finished others => exact .finished (List.forall_mem_cons.mpr ⟨succeeded, others⟩)
  | failed others failed worded =>
      exact .failed (List.forall_mem_cons.mpr ⟨succeeded, others⟩) failed worded

theorem ends_prefix {all ran : List Evaluation} {code : UInt32} {message : String}
    (ends : Ends all ran code message) : ran <+: all := by
  cases ends with
  | finished => exact List.prefix_rfl
  | @failed before after e =>
      refine ⟨after, ?_⟩
      rw [List.append_assoc, List.singleton_append]

/-- What is left behind by lines that are run up to a first failure. -/
def reportOf (quiet : Bool) (ran : List Evaluation) (code : UInt32) (traces : List String)
    (message : String) : Report where
  exitCode := code
  standardOutput := String.join (ran.map fun e => e.shown quiet e.told)
  standardError := String.join (traces.take ran.length) ++ message

section Lines

variable {s : Session} {line : String} (quiet : Bool) (tracer : Tracer) (rest : List String)

theorem run_lines_failed {failure : Error} (failed : (s.run line).1.failure? = some failure) :
    runLines quiet tracer s (line :: rest) =
      reportOf quiet [(s.run line).1] 1 [tracer s line] (failure.message ++ "\n") := by
  unfold Evaluation.failure? at failed
  split at failed
  · cases failed
  · rename_i error
    cases failed
    simp [runLines, error, reportOf, Evaluation.shown, Evaluation.told,
      Evaluation.written_wrote, String.append_assoc]

theorem run_lines_succeeded (succeeded : (s.run line).1.failure? = none) :
    runLines quiet tracer s (line :: rest) =
      { runLines quiet tracer (s.run line).2 rest with
        standardOutput := (s.run line).1.shown quiet (s.run line).1.told ++
          (runLines quiet tracer (s.run line).2 rest).standardOutput
        standardError := tracer s line ++
          (runLines quiet tracer (s.run line).2 rest).standardError } := by
  unfold Evaluation.failure? at succeeded
  split at succeeded
  · rename_i outcome
    simp only [runLines, Evaluation.shown, Evaluation.told, outcome, Evaluation.written_wrote]
  · cases succeeded

end Lines

theorem run_lines_end (s : Session) (lines : List String) :
    ∃ ran code message, Ends (s.evaluations lines) ran code message ∧
      ∀ quiet tracer, runLines quiet tracer s lines =
        reportOf quiet ran code (s.traces tracer lines) message := by
  induction lines generalizing s with
  | nil => exact ⟨[], 0, "", .finished (List.forall_mem_nil _), fun _ _ => rfl⟩
  | cons line rest induction =>
      cases ended : (s.run line).1.failure? with
      | none =>
          obtain ⟨ran, code, message, ends, reports⟩ := induction (s.run line).2
          refine ⟨(s.run line).1 :: ran, code, message, ends_cons ended ends, ?_⟩
          intro quiet tracer
          rw [run_lines_succeeded _ _ _ ended, reports]
          simp [reportOf, Session.traces, String.join_cons, String.append_assoc]
      | some failure =>
          have worded := (error_worded_iff failure _).mpr rfl
          refine ⟨[(s.run line).1], 1, _, .failed (List.forall_mem_nil _) ended worded, ?_⟩
          intro quiet tracer
          rw [run_lines_failed _ _ _ ended]
          rfl

theorem run_lines_stopped {s : Session} {front : List String}
    (failed : ∃ e ∈ s.evaluations front, e.failure? ≠ none) (quiet : Bool) (tracer : Tracer)
    (after : List String) :
    runLines quiet tracer s (front ++ after) = runLines quiet tracer s front := by
  induction front generalizing s with
  | nil =>
      obtain ⟨e, member, _⟩ := failed
      cases member
  | cons line rest induction =>
      rw [List.cons_append]
      cases ended : (s.run line).1.failure? with
      | some failure => rw [run_lines_failed _ _ _ ended, run_lines_failed _ _ _ ended]
      | none =>
          obtain ⟨e, member, failure⟩ := failed
          have later : e ∈ (s.run line).2.evaluations rest := by
            rcases List.mem_cons.mp member with rfl | later
            · exact absurd ended failure
            · exact later
          rw [run_lines_succeeded _ _ _ ended, run_lines_succeeded _ _ _ ended,
            induction ⟨e, later, failure⟩]

theorem reports_told (ran : List Evaluation) :
    List.Forall₂ (fun e report => Reported e.outcome report) ran (ran.map Evaluation.told) := by
  rw [List.forall₂_map_right_iff, List.forall₂_same]
  exact fun e _ => e.told_reported

theorem silent_error {quiet : Bool} {ran : List Evaluation} {code : UInt32} {traces : List String}
    {message : String} (silent : ∀ trace ∈ traces, trace = "") :
    (reportOf quiet ran code traces message).standardError = message := by
  have taken : ∀ trace ∈ traces.take ran.length, trace = "" :=
    fun trace member => silent trace (List.mem_of_mem_take member)
  have nothing : String.join (traces.take ran.length) = "" := by
    rw [List.eq_replicate_of_mem taken]
    induction (traces.take ran.length).length with
    | zero => rfl
    | succ n induction => rw [List.replicate_succ, String.join_cons, induction]; rfl
  rw [reportOf, nothing, String.empty_append]

theorem decode_text (script : String) : decode script.toUTF8 = .ok script := by
  have read : String.fromUTF8? script.toUTF8 = some script := dif_pos script.isValidUTF8
  rw [decode, read]

theorem script_runs (quiet : Bool) (tracer : Tracer) (path script : String) :
    runScript quiet tracer path (.ok script.toUTF8) =
      runLines quiet tracer Session.initial (scriptLines script) := by
  rw [runScript, Except.bind, decode_text]

theorem lines_script_lines {script : String} {lines : List (List Char)}
    (are : Lines script.toList lines) : scriptLines script = unblank lines := by
  rw [script_lines_unblank, lines_split are]

theorem unblank_append (front after : List (List Char)) :
    unblank (front ++ after) = unblank front ++ unblank after := by
  rw [unblank, List.map_append, List.filter_append, unblank, unblank]

theorem unblank_blank {lines : List (List Char)}
    (blank : ∀ line ∈ lines, Text.trim (String.ofList line) = "") : unblank lines = [] := by
  rw [unblank, List.filter_eq_nil_iff]
  intro text member
  obtain ⟨line, found, rfl⟩ := List.mem_map.mp member
  simp [blank line found]

end CommandLine

open CommandLine in
/-- A script has one list of lines, and those that are not blank are run in one session that stops at
its first failure. The output is what each line wrote and, unless quiet is asked for, its report; and
unless diagnostics are asked for, the message of the failure is all that is told on the error stream.
Hence the lines after a failure do not count, blank lines do not count, lines may end either way, and
quiet withholds the reports alone. -/
theorem script_runs_as_one_session (path : String) (logging : Option String) (traced : Tracer) :
    let run (options : Options) (script : String) :=
      runScript options.quiet (options.tracer logging traced) path (.ok script.toUTF8)
    (∀ script, ∃ lines, (∀ other, Lines script.toList other ↔ other = lines) ∧
      ∃ ran code message reports,
        Ends (Session.initial.evaluations (unblank lines)) ran code message ∧
        List.Forall₂ (fun e report => Reported e.outcome report) ran reports ∧
        ∀ options, (run options script).exitCode = code ∧
          (run options script).standardOutput =
            String.join (List.zipWith (Evaluation.shown options.quiet) ran reports) ∧
          (options.verbose = false → logging = none →
            (run options script).standardError = message)) ∧
    (∀ options one two front after other,
      Lines one.toList (front ++ after) → Lines two.toList (front ++ other) →
      (∃ e ∈ Session.initial.evaluations (unblank front), e.failure? ≠ none) →
      run options one = run options two) ∧
    (∀ options one two front blanks after,
      Lines one.toList (front ++ blanks ++ after) → Lines two.toList (front ++ after) →
      (∀ line ∈ blanks, Text.trim (String.ofList line) = "") → run options one = run options two) ∧
    (∀ options before blank after,
      EndsLine before.toList → (EndsLine blank.toList ∨ after = "") →
      blank.toList.all Text.isBlank = true →
      run options (before ++ blank ++ after) = run options (before ++ after)) ∧
    (∀ options script, '\r' ∉ script.toList →
      run options (String.ofList (withReturns script.toList)) = run options script) ∧
    (∀ (options : Options) script lines, Lines script.toList lines →
      let loud := run { options with quiet := false } script
      let quiet := run { options with quiet := true } script
      quiet.exitCode = loud.exitCode ∧ quiet.standardError = loud.standardError ∧
      ∃ ran reports, ran <+: Session.initial.evaluations (unblank lines) ∧
        List.Forall₂ (fun e report => Reported e.outcome report) ran reports ∧
        loud.standardOutput =
          String.join (List.zipWith (fun e report => e.wrote ++ report) ran reports) ∧
        quiet.standardOutput = String.join (ran.map Evaluation.wrote)) := by
  simp only [script_runs]
  refine ⟨?_, ?_, ?_, ?_, ?_, ?_⟩
  · intro script
    refine ⟨_, lines_iff script.toList, ?_⟩
    obtain ⟨ran, code, message, ends, reports⟩ :=
      run_lines_end Session.initial (unblank (splitLines [] script.toList))
    refine ⟨ran, code, message, ran.map Evaluation.told, ends, reports_told ran, ?_⟩
    intro options
    rw [lines_script_lines (split_is_lines _), reports]
    refine ⟨rfl, ?_, ?_⟩
    · rw [List.zipWith_map_right, List.zipWith_self]
      rfl
    · intro terse unlogged
      apply silent_error
      rw [Options.tracer, terse, unlogged]
      exact Session.silent_traces _ _
  · intro options one two front after other first second failed
    rw [lines_script_lines first, lines_script_lines second, unblank_append, unblank_append,
      run_lines_stopped failed, run_lines_stopped failed]
  · intro options one two front blanks after first second blank
    rw [lines_script_lines first, lines_script_lines second, unblank_append, unblank_append,
      unblank_append, unblank_blank blank, List.append_nil]
  · intro options before blank after ends apart blanks
    have dropped : scriptLines (blank ++ after) = scriptLines after := by
      rcases apart with separate | rfl
      · rw [script_lines_append separate, script_lines_blank blanks, List.nil_append]
      · rw [String.append_empty, script_lines_blank blanks]
        rfl
    rw [String.append_assoc, script_lines_append ends, dropped, ← script_lines_append ends]
  · intro options script bare
    rw [script_lines_with_returns bare]
  · intro options script lines are
    obtain ⟨ran, code, message, ends, reports⟩ := run_lines_end Session.initial (unblank lines)
    rw [lines_script_lines are]
    refine ⟨?_, ?_, ran, ran.map Evaluation.told, ends_prefix ends, reports_told ran, ?_, ?_⟩
    · rw [reports, reports]
      rfl
    · rw [reports, reports]
      rfl
    · rw [reports, List.zipWith_map_right, List.zipWith_self]
      rfl
    · rw [reports]
      simp only [reportOf, Evaluation.shown, if_true, String.append_empty]

example : CommandLine.runScript false CommandLine.silent "script"
    (.ok "x = [1]\r\n \nconsole.log('hi')\nx . y\nx".toUTF8) =
      ⟨1, "x bound\nhi\n", "Error at position 4: Member 'y' not found.\n"⟩ := by
  decide +kernel

end LineShell
