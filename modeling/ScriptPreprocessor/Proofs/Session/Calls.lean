import ScriptPreprocessor.Proofs.Run.Conversation
import ScriptPreprocessor.Proofs.Session.Ending

namespace ScriptPreprocessor

/-!
# Calls to a session

A started session is polled, waited for, and asked for what it has produced, in any order.  Between
two calls, the fetch it waits for may come to its end, well or badly, or lose its service.  Every
outcome that is handed to the preprocessor answers the request it paused with last, and the session
is in the phase where the outcomes lead (`Session.HasHeard.afterCalls`).  Once the session is
finished, its output only grows by diagnostics of the compiler.

What is handed over is listed beside the calls (`Session.outcomes`, `Session.handed`).  That the
lists are right is part of the statement: a preprocessor that hears them comes to the state, and to
the output, of the session.
-/

/-! ## Hearing outcomes -/

namespace Preprocessor

/-- A preprocessor hears outcomes, one after another.  Each of them answers the request that the run
has paused with, and then the run goes on to its next pause, or to its end.  So there is a pause for
every outcome, and no request is answered twice. -/
inductive Hears :
    Preprocessor × RunResult → List IncludeOutcome → Preprocessor × RunResult → Prop
  | nil (state : Preprocessor × RunResult) : Hears state [] state
  | cons {paused : Preprocessor} {request : IncludeRequest} {outcome : IncludeOutcome}
      {outcomes : List IncludeOutcome} {last : Preprocessor × RunResult}
      (waiting : paused.pending = some request)
      (later : Hears (paused.resume (.ofOutcome outcome)) outcomes last) :
      Hears (paused, .paused request) (outcome :: outcomes) last

theorem Hears.append {first middle last : Preprocessor × RunResult}
    {earlier later : List IncludeOutcome} (hears : Hears first earlier middle)
    (more : Hears middle later last) : Hears first (earlier ++ later) last := by
  induction hears with
  | nil => exact more
  | cons waiting _ ih => exact .cons waiting (ih more)

/-- A run that awaits nothing when it sets out awaits nothing when it has come to its end. -/
theorem pending_of_run_finished {preprocessor stopped : Preprocessor} {output : RunOutput}
    (idle : preprocessor.pending = none)
    (ran : preprocessor.run = (stopped, .finished output)) : stopped.pending = none := by
  fun_induction run preprocessor with
  | case1 preprocessor next stepped ih => exact ih ((pending_of_next stepped).trans idle) ran
  | case2 => simp at ran
  | case3 preprocessor stepped =>
    cases ran
    exact idle

end Preprocessor

/-! ## Outcomes that are at hand -/

namespace IncludeSources

/-- The outcome of a look-up that a session need not stop for: it settles at once, or the session is
patient and waits for its fetch. -/
def answer? (patient : Bool) (sources : IncludeSources) (request : IncludeRequest) :
    Option (IncludeOutcome × IncludeSources) :=
  match sources.resolve request with
  | (.settled outcome, after) => some (outcome, after)
  | (.started fetch, fetching) => if patient then some (fetching.settle fetch) else none

theorem texts_of_answer? {patient : Bool} {sources after : IncludeSources}
    {request : IncludeRequest} {outcome : IncludeOutcome}
    (answer : sources.answer? patient request = some (outcome, after)) :
    after.texts ⊆ sources.texts ∧ ∀ unit, outcome = .ok unit → unit.text ∈ sources.texts := by
  have same : sources.lookUp request = (outcome, after) := by
    unfold answer? at answer
    unfold lookUp
    cases resolved : sources.resolve request with
    | mk resolution fetching =>
      cases resolution with
      | settled =>
        rw [resolved] at answer
        exact Option.some.inj answer
      | started fetch =>
        simp only [resolved] at answer
        cases patient with
        | true => exact Option.some.inj answer
        | false => cases answer
  exact texts_of_lookUp same

end IncludeSources

/-- What can be asked of a session. -/
inductive SessionCall where
  | poll
  | wait
  | finish
  | saveForm
  | position (line column : Nat)
  | record (messages : List Text)

/-- An output may have grown by diagnostics of the compiler, behind those it had. -/
def RunOutput.Grows (before after : RunOutput) : Prop :=
  ∃ added : List Diagnostic, (∀ diagnostic ∈ added, diagnostic.kind = .compiler) ∧
    after = { before with diagnostics := before.diagnostics ++ added }

theorem RunOutput.Grows.refl (output : RunOutput) : output.Grows output :=
  ⟨[], by simp, by simp⟩

theorem RunOutput.Grows.trans {first second third : RunOutput} (earlier : first.Grows second)
    (later : second.Grows third) : first.Grows third := by
  rcases earlier with ⟨some, ofCompiler, rfl⟩
  rcases later with ⟨more, alsoOfCompiler, rfl⟩
  refine ⟨some ++ more, ?_, by simp⟩
  intro diagnostic member
  exact (List.mem_append.1 member).elim (ofCompiler diagnostic) (alsoOfCompiler diagnostic)

namespace Session

section

variable {patient : Bool} {source : SourceUnit} {sources after : IncludeSources}
  {preprocessor stopped : Preprocessor} {request : IncludeRequest} {outcome : IncludeOutcome}

theorem drive_of_answer (ran : preprocessor.run = (stopped, .paused request))
    (answer : sources.answer? patient request = some (outcome, after)) :
    drive patient source sources preprocessor =
      drive patient source after (stopped.answered request outcome) := by
  unfold IncludeSources.answer? at answer
  split at answer
  · next resolved =>
    cases answer
    exact drive_of_settled ran resolved
  · next fetch fetching resolved =>
    rw [drive_of_started ran resolved]
    split at answer
    · next waits =>
      rw [if_pos waits, Option.some.inj answer]
    · cases answer

theorem drive_of_no_answer (ran : preprocessor.run = (stopped, .paused request))
    (unanswered : sources.answer? patient request = none) :
    ∃ fetch fetching, sources.resolve request = (.started fetch, fetching) ∧
      drive patient source sources preprocessor =
        (⟨source, stopped, .waiting fetch⟩, fetching) := by
  unfold IncludeSources.answer? at unanswered
  split at unanswered
  · cases unanswered
  · next fetch fetching resolved =>
    refine ⟨fetch, fetching, resolved, ?_⟩
    rw [drive_of_started ran resolved]
    split at unanswered
    · cases unanswered
    · next stops => rw [if_neg stops]

end

/-! ## Polling and waiting -/

section

variable {session : Session} {sources : IncludeSources} {fetch : Fetch}

theorem poll_of_done {output : RunOutput} (phase : session.phase = .done output)
    (sources : IncludeSources) : session.poll sources = (session, sources) := by
  unfold poll
  rw [phase]

theorem poll_of_unsettled (phase : session.phase = .waiting fetch)
    (unsettled : sources.settle? fetch = none) : session.poll sources = (session, sources) := by
  unfold poll
  rw [phase]
  simp only [unsettled]

theorem poll_of_settled (phase : session.phase = .waiting fetch) {outcome : IncludeOutcome}
    {after : IncludeSources} (settled : sources.settle? fetch = some (outcome, after)) :
    session.poll sources =
      drive false session.source after (answerPending session.preprocessor outcome) := by
  unfold poll
  rw [phase]
  simp only [settled]

theorem wait_of_done {output : RunOutput} (phase : session.phase = .done output)
    (sources : IncludeSources) : session.wait sources = (session, sources) := by
  unfold wait
  rw [phase]

theorem wait_of_waiting (phase : session.phase = .waiting fetch) (sources : IncludeSources) :
    session.wait sources =
      drive true session.source (sources.settle fetch).2
        (answerPending session.preprocessor (sources.settle fetch).1) := by
  unfold wait
  rw [phase]

end

/-! ## What is handed over -/

/-- The outcomes that are handed to the preprocessor while a session is driven. -/
def outcomes (patient : Bool) (sources : IncludeSources) (preprocessor : Preprocessor) :
    List IncludeOutcome :=
  match _ran : preprocessor.run with
  | (_, .finished _) => []
  | (paused, .paused request) =>
    match _answer : sources.answer? patient request with
    | some (outcome, after) =>
      outcome :: outcomes patient after (paused.answered request outcome)
    | none => []
  termination_by preprocessor.remaining sources.texts
  decreasing_by
    have looked := IncludeSources.texts_of_answer? _answer
    exact Preprocessor.remaining_answered (Preprocessor.asks_of_run _ran)
      (Preprocessor.potential_lt_of_run _ran) looked.1 looked.2

/-- The outcomes that a call hands over, made with some sources at hand. -/
def handed (session : Session) (sources : IncludeSources) : SessionCall → List IncludeOutcome
  | .poll =>
    match session.phase with
    | .done _ => []
    | .waiting fetch =>
      match sources.settle? fetch with
      | none => []
      | some (outcome, after) =>
        outcome :: outcomes false after (answerPending session.preprocessor outcome)
  | .wait =>
    match session.phase with
    | .done _ => []
    | .waiting fetch =>
      let (outcome, after) := sources.settle fetch
      outcome :: outcomes true after (answerPending session.preprocessor outcome)
  | .finish | .saveForm | .position _ _ | .record _ => []

/-! ## Calls -/

/-- The session behind a call, made with some sources at hand. -/
def afterCall (session : Session) (sources : IncludeSources) : SessionCall → Session
  | .poll => (session.poll sources).1
  | .wait => (session.wait sources).1
  | .record messages =>
    match session.record messages with
    | .ok (_, recorded) => recorded
    | .error _ => session
  | .finish | .saveForm | .position _ _ => session

theorem kind_of_mem_messageDiagnostics {session : Session} {output : RunOutput}
    {messages : List Text} {diagnostic : Diagnostic}
    (member : diagnostic ∈ session.messageDiagnostics output messages) :
    diagnostic.kind = .compiler := by
  rcases List.mem_map.1 member with ⟨message, _, rfl⟩
  rfl

/-- What a call can do with some sources at hand: the session behind it, and the outcomes that it
hands over. -/
inductive CallsTo (session : Session) (sources : IncludeSources) :
    Session → List IncludeOutcome → Prop
  | same : CallsTo session sources session []
  /-- The fetch that the session waits for has come to its end, and the run goes on. -/
  | settle {fetch : Fetch} {outcome : IncludeOutcome} {after : IncludeSources} (patient : Bool)
      (phase : session.phase = .waiting fetch)
      (settled : sources.settle fetch = (outcome, after)) :
      CallsTo session sources
        (drive patient session.source after (answerPending session.preprocessor outcome)).1
        (outcome :: outcomes patient after (answerPending session.preprocessor outcome))
  /-- A finished session has its output still, but for diagnostics of the compiler. -/
  | record {output grown : RunOutput} (phase : session.phase = .done output)
      (grows : output.Grows grown) :
      CallsTo session sources { session with phase := .done grown } []

theorem callsTo_afterCall (session : Session) (sources : IncludeSources) (call : SessionCall) :
    session.CallsTo sources (session.afterCall sources call) (session.handed sources call) := by
  cases call with
  | finish | saveForm | position => exact .same
  | poll =>
    unfold afterCall handed
    cases phase : session.phase with
    | done output =>
      rw [poll_of_done phase]
      exact .same
    | waiting fetch =>
      cases settled : sources.settle? fetch with
      | none =>
        rw [poll_of_unsettled phase settled]
        simp only [settled]
        exact .same
      | some pair =>
        rw [poll_of_settled phase settled]
        simp only [settled]
        exact .settle false phase (IncludeSources.settle_of_settle? settled)
  | wait =>
    unfold afterCall handed
    cases phase : session.phase with
    | done output =>
      rw [wait_of_done phase]
      exact .same
    | waiting fetch =>
      rw [wait_of_waiting phase]
      exact .settle true phase rfl
  | record messages =>
    unfold afterCall record finish
    cases phase : session.phase with
    | waiting fetch => exact .same
    | done output =>
      refine .record phase ⟨session.messageDiagnostics output messages, ?_, rfl⟩
      exact fun diagnostic => kind_of_mem_messageDiagnostics

/-- The session behind some calls.  With every call come the sources that are at hand by then. -/
def afterCalls (session : Session) : List (IncludeSources × SessionCall) → Session
  | [] => session
  | (sources, call) :: later => (session.afterCall sources call).afterCalls later

/-- The outcomes that are handed over by some calls. -/
def handedByCalls (session : Session) :
    List (IncludeSources × SessionCall) → List IncludeOutcome
  | [] => []
  | (sources, call) :: later =>
    session.handed sources call ++ (session.afterCall sources call).handedByCalls later

/-! ## Sessions and what their preprocessors came to -/

/-- A session is in the phase that belongs to what its preprocessor has come to. -/
inductive StandsFor (session : Session) : RunResult → Prop
  | waiting {fetch : Fetch} {request : IncludeRequest} (phase : session.phase = .waiting fetch)
      (asked : session.preprocessor.pending = some request)
      (sameName : fetch.target = request.target) : StandsFor session (.paused request)
  | done {output ran : RunOutput} (phase : session.phase = .done output)
      (idle : session.preprocessor.pending = none) (grown : ran.Grows output) :
      StandsFor session (.finished ran)

/-- The preprocessor of a session has heard some outcomes, and the session is where they led. -/
def HasHeard (session : Session) (first : Preprocessor × RunResult)
    (outcomes : List IncludeOutcome) : Prop :=
  ∃ result, Preprocessor.Hears first outcomes (session.preprocessor, result) ∧
    session.StandsFor result

/-- Driving hands over its outcomes, each as the answer to the last request. -/
theorem hasHeard_drive (patient : Bool) (source : SourceUnit) (sources : IncludeSources)
    (preprocessor : Preprocessor) (idle : preprocessor.pending = none) :
    (drive patient source sources preprocessor).1.HasHeard preprocessor.run
      (outcomes patient sources preprocessor) := by
  fun_induction outcomes patient sources preprocessor with
  | case1 sources preprocessor stopped output ran =>
    rw [drive_of_finished ran, ran]
    exact ⟨_, .nil _, .done rfl (Preprocessor.pending_of_run_finished idle ran) (.refl output)⟩
  | case2 sources preprocessor paused request ran outcome after answer ih =>
    have waiting := (Preprocessor.asks_of_run ran).pending
    rcases ih (Preprocessor.pending_answered paused request outcome) with ⟨result, hears, stands⟩
    rw [drive_of_answer ran answer, ran]
    rw [← Preprocessor.resume_ofOutcome waiting] at hears
    exact ⟨result, .cons waiting hears, stands⟩
  | case3 sources preprocessor paused request ran unanswered =>
    rcases drive_of_no_answer ran unanswered with ⟨fetch, fetching, resolved, driven⟩
    rw [driven, ran]
    exact ⟨_, .nil _, .waiting rfl (Preprocessor.asks_of_run ran).pending
      (IncludeSources.target_of_resolve resolved)⟩

/-- An outcome that a waiting session hands on is the answer to its request. -/
theorem HasHeard.answer {session : Session} {first : Preprocessor × RunResult}
    {earlier : List IncludeOutcome} (heard : session.HasHeard first earlier) {fetch : Fetch}
    (phase : session.phase = .waiting fetch) (patient : Bool) (outcome : IncludeOutcome)
    (after : IncludeSources) :
    (drive patient session.source after (answerPending session.preprocessor outcome)).1.HasHeard
      first (earlier ++
        outcome :: outcomes patient after (answerPending session.preprocessor outcome)) := by
  rcases heard with ⟨_, hears, @⟨_, request, _, asked, _⟩ | @⟨_, _, done, _, _⟩⟩
  -- What the preprocessor has heard ends in a pause, so there is one request, not yet answered.
  · rw [answerPending_of_pending asked]
    have idle := Preprocessor.pending_answered session.preprocessor request outcome
    rcases hasHeard_drive patient session.source after _ idle with ⟨result, more, stands⟩
    rw [← Preprocessor.resume_ofOutcome asked] at more
    exact ⟨result, hears.append (.cons asked more), stands⟩
  · rw [phase] at done
    cases done

/-- A call keeps a session where the outcomes led that its preprocessor has heard. -/
theorem HasHeard.afterCall {session : Session} {first : Preprocessor × RunResult}
    {earlier : List IncludeOutcome} (heard : session.HasHeard first earlier)
    (sources : IncludeSources) (call : SessionCall) :
    (session.afterCall sources call).HasHeard first (earlier ++ session.handed sources call) := by
  have called := session.callsTo_afterCall sources call
  generalize session.afterCall sources call = next, session.handed sources call = handed
    at called ⊢
  cases called with
  | same => rwa [List.append_nil]
  | settle patient phase settled => exact heard.answer phase patient _ _
  | record phase grows =>
    rw [List.append_nil]
    rcases heard with ⟨_, hears, @⟨_, _, waiting, _, _⟩ | @⟨_, ran, done, idle, before⟩⟩
    · rw [phase] at waiting
      cases waiting
    · rw [phase] at done
      cases done
      exact ⟨_, hears, .done rfl idle (before.trans grows)⟩

theorem HasHeard.afterCalls {session : Session} {first : Preprocessor × RunResult}
    {earlier : List IncludeOutcome} (heard : session.HasHeard first earlier)
    (calls : List (IncludeSources × SessionCall)) :
    (session.afterCalls calls).HasHeard first (earlier ++ session.handedByCalls calls) := by
  induction calls generalizing session earlier with
  | nil => simpa [Session.afterCalls, handedByCalls] using heard
  | cons head later ih =>
    have next := ih (heard.afterCall head.1 head.2)
    rwa [List.append_assoc] at next

theorem start_eq (sources : IncludeSources) (options : RunOptions) (environment : Environment)
    (main : SourceUnit) :
    start sources options environment main =
      drive false main sources (opening options environment main) := rfl

/-- A session whose first request starts a fetch waits for it. -/
theorem start_of_started {sources after : IncludeSources} {options : RunOptions}
    {environment : Environment} {main : SourceUnit} {stopped : Preprocessor}
    {request : IncludeRequest} {fetch : Fetch}
    (ran : (opening options environment main).run = (stopped, .paused request))
    (resolved : sources.resolve request = (.started fetch, after)) :
    start sources options environment main = (⟨main, stopped, .waiting fetch⟩, after) := by
  rw [start_eq, drive_of_started ran resolved, if_neg Bool.false_ne_true]

theorem hasHeard_start (sources : IncludeSources) (options : RunOptions)
    (environment : Environment) (main : SourceUnit) :
    (start sources options environment main).1.HasHeard (opening options environment main).run
      (outcomes false sources (opening options environment main)) :=
  hasHeard_drive false main sources (opening options environment main) rfl

/-! ## Finished sessions -/

/-- A session that waits for every fetch comes to its end. -/
theorem exists_phase_drive_patient (source : SourceUnit) (sources : IncludeSources)
    (preprocessor : Preprocessor) :
    ∃ output, (drive true source sources preprocessor).1.phase = .done output := by
  rcases exists_advances (sources, preprocessor) with ⟨count, ⟨after, last⟩, reached, ended⟩
  have driven : drive true source sources preprocessor = drive true source after last :=
    drive_of_advances reached
  refine ⟨last.output, ?_⟩
  rw [driven, drive_of_finished (Preprocessor.run_of_finish (finish_of_advance ended))]

theorem exists_phase_wait (session : Session) (sources : IncludeSources) :
    ∃ output, (session.wait sources).1.phase = .done output := by
  cases phase : session.phase with
  | done output =>
    rw [wait_of_done phase]
    exact ⟨output, phase⟩
  | waiting fetch =>
    rw [wait_of_waiting phase]
    exact exists_phase_drive_patient _ _ _

/-- A finished session stays finished, with an output that has grown by diagnostics of the compiler
at most. -/
theorem exists_grown_afterCall {session : Session} {output : RunOutput}
    (phase : session.phase = .done output) (sources : IncludeSources) (call : SessionCall) :
    ∃ grown, (session.afterCall sources call).phase = .done grown ∧ output.Grows grown := by
  have called := session.callsTo_afterCall sources call
  generalize session.afterCall sources call = next, session.handed sources call = handed
    at called ⊢
  cases called with
  | same => exact ⟨output, phase, .refl output⟩
  | settle patient waiting =>
    rw [phase] at waiting
    cases waiting
  | record done grows =>
    rw [phase] at done
    cases done
    exact ⟨_, rfl, grows⟩

theorem exists_grown_afterCalls {session : Session} {output : RunOutput}
    (phase : session.phase = .done output) (calls : List (IncludeSources × SessionCall)) :
    ∃ grown, (session.afterCalls calls).phase = .done grown ∧ output.Grows grown := by
  induction calls generalizing session output with
  | nil => exact ⟨output, phase, .refl output⟩
  | cons head later ih =>
    rcases exists_grown_afterCall phase head.1 head.2 with ⟨middle, reached, grows⟩
    rcases ih reached with ⟨grown, ended, more⟩
    exact ⟨grown, ended, grows.trans more⟩

end Session

end ScriptPreprocessor
