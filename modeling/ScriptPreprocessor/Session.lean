import ScriptPreprocessor.CompilerMessage
import ScriptPreprocessor.Include.Sources
import ScriptPreprocessor.Run.Targets

namespace ScriptPreprocessor

/-!
# Sessions

A session expands one main unit and looks up what it includes.  It runs until the unit is expanded
or until an included item must be fetched; then it waits, and goes on when it is polled after the
fetch has come to its end.

A session comes to its end whatever its units include.  Every unit that a look-up finds answers a
name that was not answered before, and only the names in `#include` lines of the finitely many
texts at hand can be asked for.  Between two units found, the potential of the run falls.
-/

/-- How far a session has come.  What a session really keeps, field by field, is `LiveSession`; that
its fields always agree with one of these is proved there. -/
inductive SessionPhase where
  | waiting (fetch : Fetch)
  | done (output : RunOutput)

/-- The preprocessing of one main unit.  The unit is kept as it was given, since saving needs the
text that the user wrote. -/
structure Session where
  source : SourceUnit
  preprocessor : Preprocessor
  phase : SessionPhase

namespace Session

/-! ## Running -/

/-- Expands until the main unit is done.  An item that must be fetched is waited for when the
session is patient; otherwise the session stops there. -/
def drive (patient : Bool) (source : SourceUnit) (sources : IncludeSources)
    (preprocessor : Preprocessor) : Session × IncludeSources :=
  match _ran : preprocessor.run with
  | (stopped, .finished output) => (⟨source, stopped, .done output⟩, sources)
  | (paused, .paused request) =>
    match _resolved : sources.resolve request with
    | (.settled outcome, after) => drive patient source after (paused.answered request outcome)
    | (.started fetch, fetching) =>
      if patient then
        match _settled : fetching.settle fetch with
        | (outcome, after) => drive patient source after (paused.answered request outcome)
      else (⟨source, paused, .waiting fetch⟩, fetching)
  termination_by preprocessor.remaining sources.texts
  decreasing_by
    · refine Preprocessor.remaining_answered (Preprocessor.asks_of_run _ran)
        (Preprocessor.potential_lt_of_run _ran) (IncludeSources.texts_of_resolve _resolved) ?_
      rintro unit rfl
      exact IncludeSources.text_mem_texts_of_resolve _resolved
    · have looked := IncludeSources.texts_of_resolve _resolved
      obtain ⟨texts, known⟩ := IncludeSources.texts_of_settle _settled
      exact Preprocessor.remaining_answered (Preprocessor.asks_of_run _ran)
        (Preprocessor.potential_lt_of_run _ran) (fun _ member => looked (texts member))
        fun unit found => looked (known unit found)

def start (sources : IncludeSources) (options : RunOptions) (environment : Environment)
    (unit : SourceUnit) : Session × IncludeSources :=
  drive false unit sources ((Preprocessor.ofEnvironment options environment).enter unit)

/-- The preprocessor with the outcome of the look-up that it waits for.  Without a request there is
nothing to answer, and it stays as it is. -/
def answerPending (preprocessor : Preprocessor) (outcome : IncludeOutcome) : Preprocessor :=
  match preprocessor.pending with
  | some request => preprocessor.answered request outcome
  | none => preprocessor

/-- Goes on if the fetch that the session waits for has come to its end.  It may come to wait again,
for another one. -/
def poll (session : Session) (sources : IncludeSources) : Session × IncludeSources :=
  match session.phase with
  | .done _ => (session, sources)
  | .waiting fetch =>
    match sources.settle? fetch with
    | none => (session, sources)
    | some (outcome, after) =>
      drive false session.source after (answerPending session.preprocessor outcome)

def wait (session : Session) (sources : IncludeSources) : Session × IncludeSources :=
  match session.phase with
  | .done _ => (session, sources)
  | .waiting fetch =>
    let (outcome, after) := sources.settle fetch
    drive true session.source after (answerPending session.preprocessor outcome)

/-! ## Asking a session -/

/-- The name whose item the session waits for. -/
def pendingTarget? (session : Session) : Option Text :=
  match session.phase with
  | .waiting fetch => some fetch.target
  | .done _ => none

/-- What a finished session has produced.  Asking too early is a failure and not an empty output,
which would look like an empty script. -/
def finish (session : Session) : Except Failure RunOutput :=
  match session.phase with
  | .waiting _ => .error (.stillWaiting session.source.name)
  | .done output => .ok output

def saveForm (session : Session) : Except Failure Text :=
  session.finish.map fun output => Document.save session.source.text output.expanded

/-- The source position of a line and column of the expanded text, counted from one, by exact
arithmetic.  For any words as line and column there is `remap?`. -/
def position? (session : Session) (line column : Nat) : Option Position :=
  match session.phase with
  | .waiting _ => none
  | .done output => output.lineMap.position? session.source.name line column

def remap? (session : Session) (line column : Nat) : Option Position :=
  match session.phase with
  | .waiting _ => none
  | .done output => output.lineMap.remap? session.source.name line column

/-- The diagnostics of the compiler messages among some lines, moved back to the units.  They keep
the order of the lines. -/
def messageDiagnostics (session : Session) (output : RunOutput) (messages : List Text) :
    List Diagnostic :=
  (messages.filterMap CompilerMessage.parse?).map fun message =>
    message.diagnostic output.lineMap session.source.name

/-- Adds what the compiler says to the diagnostics of a finished session, and counts it.  Lines
that are no compiler messages are passed over. -/
def record (session : Session) (messages : List Text) : Except Failure (Nat × Session) :=
  session.finish.map fun output =>
    let recorded := session.messageDiagnostics output messages
    (recorded.length, { session with
      phase := .done { output with diagnostics := output.diagnostics ++ recorded } })

end Session

end ScriptPreprocessor
