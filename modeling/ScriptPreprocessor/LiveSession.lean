import ScriptPreprocessor.Session

namespace ScriptPreprocessor

/-!
# Sessions, field by field

What a session has come to is one value in `SessionPhase`.  A session that runs keeps it in three
fields instead: the state that it reports, the fetch that it waits for, and its output.  They are
written one after another, at different points of polling, waiting, resuming and driving, and their
types let them contradict each other.

Here every operation writes the fields that it really writes, in that order.  A session in a phase
has its fields filled in one way (`LiveSession.ofSession`).  That started sessions never leave this
way, unless a wait is dropped, is proved and not built in.
-/

inductive SessionState where
  | start
  | waiting
  /-- The outcome of a look-up is on its way to the preprocessor. -/
  | resume
  | done
  deriving DecidableEq, Repr

structure LiveSession where
  source : SourceUnit
  state : SessionState
  preprocessor : Preprocessor
  pending : Option Fetch
  output : Option RunOutput

namespace LiveSession

/-- The fields of a session in its phase.  A finished session has no fetch, and a waiting one has no
output. -/
def ofSession (session : Session) : LiveSession :=
  match session.phase with
  | .waiting fetch => ⟨session.source, .waiting, session.preprocessor, some fetch, none⟩
  | .done output => ⟨session.source, .done, session.preprocessor, none, some output⟩

/-! ## Running -/

/-- Behind the outcome of the request that a run paused with, less remains to be done. -/
theorem remaining_answerPending {sources after : IncludeSources}
    {preprocessor paused : Preprocessor} {request : IncludeRequest} {outcome : IncludeOutcome}
    (ran : preprocessor.run = (paused, .paused request)) (texts : after.texts ⊆ sources.texts)
    (known : ∀ unit, outcome = .ok unit → unit.text ∈ sources.texts) :
    Prod.Lex (· < ·) (· < ·) ((Session.answerPending paused outcome).remaining after.texts)
      (preprocessor.remaining sources.texts) := by
  have asks := Preprocessor.asks_of_run ran
  rw [Session.answerPending, asks.pending]
  exact Preprocessor.remaining_answered asks (Preprocessor.potential_lt_of_run ran) texts known

theorem text_mem_of_resolve {sources after : IncludeSources} {request : IncludeRequest}
    {outcome : IncludeOutcome} (resolved : sources.resolve request = (.settled outcome, after)) :
    ∀ unit, outcome = .ok unit → unit.text ∈ sources.texts := by
  rintro unit rfl
  exact IncludeSources.text_mem_texts_of_resolve resolved

/-- Runs the preprocessor until it has finished, or until an item must be fetched.  Only these two
ends write the pending fetch and the output; an outcome that is at hand is fed back at once. -/
def drive (live : LiveSession) (sources : IncludeSources) : LiveSession × IncludeSources :=
  match _ran : live.preprocessor.run with
  | (stopped, .finished output) =>
    ({ live with preprocessor := stopped, output := some output, state := .done }, sources)
  | (paused, .paused request) =>
    match _resolved : sources.resolve request with
    | (.settled outcome, after) =>
      drive { live with
        state := .resume
        preprocessor := Session.answerPending paused outcome } after
    | (.started fetch, fetching) =>
      ({ live with preprocessor := paused, pending := some fetch, state := .waiting }, fetching)
  termination_by live.preprocessor.remaining sources.texts
  decreasing_by
    exact remaining_answerPending _ran (IncludeSources.texts_of_resolve _resolved)
      (text_mem_of_resolve _resolved)

def start (sources : IncludeSources) (options : RunOptions) (environment : Environment)
    (unit : SourceUnit) : LiveSession × IncludeSources :=
  drive ⟨unit, .start, (Preprocessor.ofEnvironment options environment).enter unit, none, none⟩
    sources

/-- Goes on with the outcome of the fetch that was pending.  The caller has taken the fetch out of
its field before. -/
def resume (live : LiveSession) (sources : IncludeSources) (outcome : IncludeOutcome) :
    LiveSession × IncludeSources :=
  drive { live with
    state := .resume
    preprocessor := Session.answerPending live.preprocessor outcome } sources

def poll (live : LiveSession) (sources : IncludeSources) : LiveSession × IncludeSources :=
  match live.pending with
  | none => (live, sources)
  | some fetch =>
    match sources.settle? fetch with
    | none => (live, sources)
    | some (outcome, after) => { live with pending := none }.resume after outcome

/-- When driving has come to a fetch, less remains to be done behind its outcome than before. -/
theorem remaining_of_drive {live next : LiveSession} {sources after settled : IncludeSources}
    {fetch : Fetch} {outcome : IncludeOutcome} (idle : live.pending = none)
    (drove : live.drive sources = (next, after)) (waits : next.pending = some fetch)
    (settles : after.settle fetch = (outcome, settled)) :
    Prod.Lex (· < ·) (· < ·)
      ((Session.answerPending next.preprocessor outcome).remaining settled.texts)
      (live.preprocessor.remaining sources.texts) := by
  fun_induction drive live sources with
  | case1 live sources stopped output ran =>
    cases drove
    rw [idle] at waits
    cases waits
  | case2 live sources paused request ran found behind resolved ih =>
    have less := remaining_answerPending ran (IncludeSources.texts_of_resolve resolved)
      (text_mem_of_resolve resolved)
    have lesser := ih idle drove
    simp only [Prod.lex_def] at less lesser ⊢
    omega
  | case3 live sources paused request ran started fetching resolved =>
    cases drove
    have looked := IncludeSources.texts_of_resolve resolved
    have ⟨texts, known⟩ := IncludeSources.texts_of_settle settles
    exact remaining_answerPending ran (fun _ member => looked (texts member))
      fun unit found => looked (known unit found)

/-- Waits for a fetch, goes on with its outcome, and waits for every further fetch in turn.  Each is
taken out of its field before it is waited for. -/
def waitFor (live : LiveSession) (sources : IncludeSources) (fetch : Fetch) :
    LiveSession × IncludeSources :=
  match _settles : sources.settle fetch with
  | (outcome, settled) =>
    match _resumed : { live with pending := none }.resume settled outcome with
    | (next, after) =>
      match _waits : next.pending with
      | none => (next, after)
      | some another => next.waitFor after another
  termination_by
    (Session.answerPending live.preprocessor (sources.settle fetch).1).remaining
      (sources.settle fetch).2.texts
  decreasing_by
    rw [_settles]
    exact remaining_of_drive rfl _resumed _waits (Prod.eta _).symm

/-- Runs to the end, waiting for every fetch. -/
def wait (live : LiveSession) (sources : IncludeSources) : LiveSession × IncludeSources :=
  match live.pending with
  | none => (live, sources)
  | some fetch => live.waitFor sources fetch

/-- A wait that is given up before it returns, when some fetches have come in and the next one has
not.  That one has been taken out of its field and is lost, while the state still tells of it. -/
def dropWait (live : LiveSession) (sources : IncludeSources) : Nat → LiveSession × IncludeSources
  | 0 => ({ live with pending := none }, sources)
  | count + 1 =>
    match live.pending with
    | none => (live, sources)
    | some fetch =>
      let (outcome, settled) := sources.settle fetch
      let (next, after) := { live with pending := none }.resume settled outcome
      next.dropWait after count

/-! ## Asking -/

def pendingTarget? (live : LiveSession) : Option Text :=
  live.pending.map Fetch.target

def finish (live : LiveSession) : Except Failure RunOutput :=
  match live.output with
  | none => .error (.stillWaiting live.source.name)
  | some output => .ok output

def saveForm (live : LiveSession) : Except Failure Text :=
  live.finish.map fun output => Document.save live.source.text output.expanded

def remap? (live : LiveSession) (line column : Nat) : Option Position :=
  live.output.bind fun output => output.lineMap.remap? live.source.name line column

def messageDiagnostics (live : LiveSession) (output : RunOutput) (messages : List Text) :
    List Diagnostic :=
  (messages.filterMap CompilerMessage.parse?).map fun message =>
    message.diagnostic output.lineMap live.source.name

/-- Adds what the compiler says to the diagnostics, and counts it.  Only the output is written. -/
def record (live : LiveSession) (messages : List Text) : Except Failure (Nat × LiveSession) :=
  live.finish.map fun output =>
    let recorded := live.messageDiagnostics output messages
    (recorded.length, { live with
      output := some { output with diagnostics := output.diagnostics ++ recorded } })

end LiveSession

end ScriptPreprocessor
