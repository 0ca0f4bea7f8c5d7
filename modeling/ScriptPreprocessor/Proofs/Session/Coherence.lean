import ScriptPreprocessor.Proofs.Session.Refinement

namespace ScriptPreprocessor

/-!
# Fields in step

Between two calls to a session that runs, the fetch that it waits for may come to its end, well or
badly, or lose its service.  The fields of the session and its preprocessor stay in step all the
same: the session waits exactly when a fetch is pending, exactly when it has no output, and exactly
when its preprocessor awaits the unit of that fetch (`LiveSession.coherent_afterCalls`).  What is
handed to the preprocessor is listed beside the calls (`LiveSession.handedByCalls`).  That the list
is right is part of the statement: a preprocessor that hears it comes to the state of the session.

A wait that is given up before it returns is no call in this sense.  It has taken the fetch out of
its field, and unless the session had come to its end by then, nothing ever brings it on again
(`LiveSession.coherent_or_stranded_of_dropWait`).
-/

/-- Whether a call asks for something that only a finished session has. -/
def SessionCall.needsOutput : SessionCall → Bool
  | .finish | .saveForm | .record _ => true
  | .poll | .wait | .position _ _ => false

/-- The failure that an attempt ended with, if it failed. -/
def Failure.of? {α : Type} : Except Failure α → Option Failure
  | .ok _ => none
  | .error failure => some failure

namespace LiveSession

/-! ## Calls -/

/-- The session behind a call that has returned, made with some sources at hand. -/
def afterCall (live : LiveSession) (sources : IncludeSources) : SessionCall → LiveSession
  | .poll => (live.poll sources).1
  | .wait => (live.wait sources).1
  | .record messages =>
    match live.record messages with
    | .ok (_, recorded) => recorded
    | .error _ => live
  | .finish | .saveForm | .position _ _ => live

/-- The failure that a call answers with, if it fails.  A session that was waited for is asked for
its output. -/
def failure? (live : LiveSession) (sources : IncludeSources) : SessionCall → Option Failure
  | .finish => Failure.of? live.finish
  | .saveForm => Failure.of? live.saveForm
  | .record messages => Failure.of? (live.record messages)
  | .wait => Failure.of? (live.wait sources).1.finish
  | .poll | .position _ _ => none

/-- The outcomes that a call hands over, made with some sources at hand.  A poll asks for one, and a
wait for all that come until the end. -/
def handed (live : LiveSession) (sources : IncludeSources) (call : SessionCall) :
    List IncludeOutcome :=
  match live.pending, call with
  | some fetch, .poll =>
    match sources.settle? fetch with
    | none => []
    | some (outcome, after) =>
      outcome :: Session.outcomes false after
        (Session.answerPending live.preprocessor outcome)
  | some fetch, .wait =>
    let (outcome, after) := sources.settle fetch
    outcome :: Session.outcomes true after (Session.answerPending live.preprocessor outcome)
  | _, _ => []

/-- The session behind some calls.  With every call come the sources that are at hand by then. -/
def afterCalls (live : LiveSession) : List (IncludeSources × SessionCall) → LiveSession
  | [] => live
  | (sources, call) :: later => (live.afterCall sources call).afterCalls later

def handedByCalls (live : LiveSession) :
    List (IncludeSources × SessionCall) → List IncludeOutcome
  | [] => []
  | (sources, call) :: later =>
    live.handed sources call ++ (live.afterCall sources call).handedByCalls later

theorem afterCall_ofSession (session : Session) (sources : IncludeSources) (call : SessionCall) :
    (ofSession session).afterCall sources call = ofSession (session.afterCall sources call) := by
  cases call with
  | poll => exact congrArg Prod.fst (poll_ofSession session sources)
  | wait => exact congrArg Prod.fst (wait_ofSession session sources)
  | finish | saveForm | position => rfl
  | record messages =>
    rw [afterCall, Session.afterCall, record_ofSession]
    cases session.record messages <;> rfl

theorem handed_ofSession (session : Session) (sources : IncludeSources) (call : SessionCall) :
    (ofSession session).handed sources call = session.handed sources call := by
  cases phase : session.phase with
  | waiting fetch =>
    rw [ofSession_of_waiting phase]
    cases call with
    | poll =>
      cases settled : sources.settle? fetch <;> simp only [handed, Session.handed, phase, settled]
    | _ => simp only [handed, Session.handed, phase]
  | done output =>
    rw [ofSession_of_done phase]
    cases call <;> simp only [handed, Session.handed, phase]

/-- Calls lead the fields of a session where they lead the session. -/
theorem afterCalls_ofSession (session : Session) (calls : List (IncludeSources × SessionCall)) :
    (ofSession session).afterCalls calls = ofSession (session.afterCalls calls) := by
  induction calls generalizing session with
  | nil => rfl
  | cons head later ih =>
    rw [afterCalls, Session.afterCalls, afterCall_ofSession, ih]

theorem handedByCalls_ofSession (session : Session)
    (calls : List (IncludeSources × SessionCall)) :
    (ofSession session).handedByCalls calls = session.handedByCalls calls := by
  induction calls generalizing session with
  | nil => rfl
  | cons head later ih =>
    rw [handedByCalls, Session.handedByCalls, handed_ofSession, afterCall_ofSession, ih]

/-! ## In step -/

/-- The fields of a session are those that belong to what its preprocessor has come to. -/
inductive StandsFor (live : LiveSession) : RunResult → Prop
  | waiting {fetch : Fetch} {request : IncludeRequest} (state : live.state = .waiting)
      (fetches : live.pending = some fetch) (empty : live.output = none)
      (asked : live.preprocessor.pending = some request)
      (sameName : fetch.target = request.target) : StandsFor live (.paused request)
  | done {output ran : RunOutput} (state : live.state = .done) (idle : live.pending = none)
      (held : live.output = some output) (unasked : live.preprocessor.pending = none)
      (grown : ran.Grows output) : StandsFor live (.finished ran)

/-- The preprocessor of a session has heard some outcomes, and the session is where they led. -/
def HasHeard (live : LiveSession) (first : Preprocessor × RunResult)
    (outcomes : List IncludeOutcome) : Prop :=
  ∃ result, Preprocessor.Hears first outcomes (live.preprocessor, result) ∧ live.StandsFor result

/-- The fields of a session and its preprocessor are in step. -/
structure IsCoherent (live : LiveSession) : Prop where
  waitingOrDone : live.state = .waiting ∨ live.state = .done
  /-- The session waits exactly when a fetch is pending. -/
  fetches : live.state = .waiting ↔ live.pending ≠ none
  /-- Its preprocessor awaits a unit exactly when a fetch is pending, and the unit of that name. -/
  awaits : live.pending.map Fetch.target = live.preprocessor.pending.map IncludeRequest.target
  /-- It waits exactly when it has no output. -/
  empty : live.state = .waiting ↔ live.output = none
  /-- Only a session that waits refuses a call, and only one that needs the output. -/
  refuses : ∀ sources call, live.failure? sources call ≠ none ↔
    call.needsOutput = true ∧ live.state = .waiting
  /-- A call that is refused changes nothing. -/
  keeps : ∀ sources call, live.failure? sources call ≠ none →
    live.afterCall sources call = live

theorem standsFor_ofSession {session : Session} {result : RunResult}
    (stands : session.StandsFor result) : (ofSession session).StandsFor result := by
  cases stands with
  | waiting phase asked sameName =>
    rw [ofSession_of_waiting phase]
    exact .waiting rfl rfl rfl asked sameName
  | done phase idle grown =>
    rw [ofSession_of_done phase]
    exact .done rfl rfl rfl idle grown

theorem hasHeard_ofSession {session : Session} {first : Preprocessor × RunResult}
    {outcomes : List IncludeOutcome} (heard : session.HasHeard first outcomes) :
    (ofSession session).HasHeard first outcomes := by
  have same : (ofSession session).preprocessor = session.preprocessor := by
    unfold ofSession
    cases session.phase <;> rfl
  rcases heard with ⟨result, hears, stands⟩
  exact ⟨result, same.symm ▸ hears, standsFor_ofSession stands⟩

/-- Without output, every call that needs it is refused, and nothing else is done. -/
theorem failure?_of_empty {live : LiveSession} (empty : live.output = none)
    (sources : IncludeSources) {call : SessionCall} (needed : call.needsOutput = true) :
    live.failure? sources call = some (.stillWaiting live.source.name) ∧
      live.afterCall sources call = live := by
  have refused : live.finish = .error (.stillWaiting live.source.name) := by
    unfold finish
    rw [empty]
  cases call with
  | poll | wait | position => cases needed
  | finish => exact ⟨by rw [failure?, refused, Failure.of?], rfl⟩
  | saveForm => exact ⟨by rw [failure?, saveForm, refused]; rfl, rfl⟩
  | record messages =>
    constructor
    · rw [failure?, record, refused]
      rfl
    · rw [afterCall, record, refused]
      rfl

/-- A call that needs no output is never refused: a wait comes to the end before it asks. -/
theorem failure?_of_unneeded (session : Session) (sources : IncludeSources) {call : SessionCall}
    (unneeded : call.needsOutput = false) : (ofSession session).failure? sources call = none := by
  cases call with
  | poll | position => rfl
  | finish | saveForm | record => cases unneeded
  | wait =>
    rcases Session.exists_phase_wait session sources with ⟨output, ended⟩
    rw [failure?, wait_ofSession, ofPair, finish_ofSession, Session.finish, ended]
    rfl

theorem failure?_of_held {live : LiveSession} {output : RunOutput}
    (held : live.output = some output) (sources : IncludeSources) {call : SessionCall}
    (needed : call.needsOutput = true) : live.failure? sources call = none := by
  have given : live.finish = .ok output := by
    unfold finish
    rw [held]
  cases call with
  | poll | wait | position => cases needed
  | finish => rw [failure?, given, Failure.of?]
  | saveForm => rw [failure?, saveForm, given]; rfl
  | record messages => rw [failure?, record, given]; rfl

theorem refuses_ofSession (session : Session) (sources : IncludeSources) (call : SessionCall) :
    (ofSession session).failure? sources call ≠ none ↔
      call.needsOutput = true ∧ (ofSession session).state = .waiting := by
  cases needed : call.needsOutput with
  | false => simp [failure?_of_unneeded session sources needed]
  | true =>
    cases phase : session.phase with
    | waiting fetch =>
      rw [ofSession_of_waiting phase, (failure?_of_empty rfl sources needed).1]
      simp
    | done output =>
      rw [ofSession_of_done phase, failure?_of_held rfl sources needed]
      simp

theorem isCoherent_ofSession {session : Session} {result : RunResult}
    (stands : session.StandsFor result) : (ofSession session).IsCoherent := by
  have refuses := refuses_ofSession session
  cases stands with
  | waiting phase asked sameName =>
    have fields := ofSession_of_waiting phase
    refine ⟨.inl (by rw [fields]), by simp [fields], by simp [fields, asked, sameName],
      by simp [fields], refuses, fun sources call refused => ?_⟩
    have needed := ((refuses sources call).1 refused).1
    exact (failure?_of_empty (by rw [fields]) sources needed).2
  | done phase idle grown =>
    have fields := ofSession_of_done phase
    refine ⟨.inr (by rw [fields]), by simp [fields], by simp [fields, idle], by simp [fields],
      refuses, fun sources call refused => ?_⟩
    have waiting := ((refuses sources call).1 refused).2
    rw [fields] at waiting
    cases waiting

/-- A finished session stays finished, with an output that has grown by diagnostics of the compiler
at most. -/
theorem exists_grown_ofSession {session : Session} (done : (ofSession session).state = .done)
    (later : List (IncludeSources × SessionCall)) :
    ∃ output grown, (ofSession session).output = some output ∧
      ((ofSession session).afterCalls later).state = .done ∧
      ((ofSession session).afterCalls later).output = some grown ∧ output.Grows grown := by
  cases phase : session.phase with
  | waiting fetch =>
    rw [ofSession_of_waiting phase] at done
    cases done
  | done output =>
    rcases Session.exists_grown_afterCalls phase later with ⟨grown, ended, grows⟩
    have last := ofSession_of_done ended
    rw [afterCalls_ofSession]
    exact ⟨output, grown, by rw [ofSession_of_done phase], by rw [last], by rw [last], grows⟩

/-- A session that was started with some sources and then called. -/
def called (options : RunOptions) (environment : Environment) (main : SourceUnit)
    (sources : IncludeSources) (calls : List (IncludeSources × SessionCall)) : LiveSession :=
  (start sources options environment main).1.afterCalls calls

section

variable (options : RunOptions) (environment : Environment) (main : SourceUnit)
  (sources : IncludeSources) (calls : List (IncludeSources × SessionCall))

theorem called_eq :
    called options environment main sources calls =
      ofSession ((Session.start sources options environment main).1.afterCalls calls) := by
  rw [called, start_eq, ofPair, afterCalls_ofSession]

/-- The outcomes that are handed over when a session is started, and then by calls. -/
def handedTo : List IncludeOutcome :=
  Session.outcomes false sources (Session.opening options environment main) ++
    (start sources options environment main).1.handedByCalls calls

/-- Behind every sequence of calls, each made with any sources at hand, the fields of a session are
in step with each other and with its preprocessor; what was handed to the preprocessor are answers,
each to the request it paused with last, and they lead to where the session is; and once the session
is finished, nothing of its output changes but that diagnostics of the compiler are added. -/
theorem coherent_afterCalls :
    (called options environment main sources calls).IsCoherent ∧
      (called options environment main sources calls).HasHeard
        (Session.opening options environment main).run
        (handedTo options environment main sources calls) ∧
      ((called options environment main sources calls).state = .done → ∀ later, ∃ output grown,
        (called options environment main sources calls).output = some output ∧
        ((called options environment main sources calls).afterCalls later).state = .done ∧
        ((called options environment main sources calls).afterCalls later).output = some grown ∧
        output.Grows grown) := by
  have heard := (Session.hasHeard_start sources options environment main).afterCalls calls
  have outcomes : handedTo options environment main sources calls =
      Session.outcomes false sources (Session.opening options environment main) ++
        (Session.start sources options environment main).1.handedByCalls calls := by
    rw [handedTo, start_eq, ofPair, handedByCalls_ofSession]
  rw [called_eq, outcomes]
  refine ⟨?_, hasHeard_ofSession heard, fun done later => exists_grown_ofSession done later⟩
  rcases heard with ⟨result, _, stands⟩
  exact isCoherent_ofSession stands

end

/-- A session whose fetch is given up is finished by the next poll, and stays so while the compiler
is heard. -/
theorem coherent_afterCalls_abandoned :
    ∃ main sources calls later output grown,
      (start sources {} .bare main).1.pendingTarget? = some ['a'] ∧
      (called {} .bare main sources calls).state = .done ∧
      (called {} .bare main sources calls).output = some output ∧
      later = [(sources, .record ["(0, 0) : ERROR : Syntax error".toList])] ∧
      ((called {} .bare main sources calls).afterCalls later).output = some grown ∧
      output.Grows grown := by
  let main : SourceUnit := ⟨"m".toList, "#include \"a\"\n".toList, none⟩
  let sources : IncludeSources :=
    { store := some { catalog := .table [("|Scripts|a".toList, [120])] [] } }
  let calls : List (IncludeSources × SessionCall) :=
    [(sources.stop, .saveForm), (sources.stop, .poll)]
  let fetch : Fetch := ⟨['a'], ⟨"|Scripts|a".toList, "|Scripts|a".toList⟩, 0⟩
  have steps : ∃ paused request fetching last,
      (Session.opening {} .bare main).step = .pause paused request ∧
      sources.resolve request = (.started fetch, fetching) ∧
      (Session.answerPending paused (.error (.fetchFailed ['a'] IncludeSources.noOutcome))).step =
        .next last ∧ last.step = .finish :=
    ⟨_, _, _, _, rfl, rfl, rfl, rfl⟩
  rcases steps with ⟨paused, request, fetching, last, asks, resolved, goesOn, ends⟩
  have started : Session.start sources {} .bare main =
      (⟨main, paused, .waiting fetch⟩, fetching) :=
    Session.start_of_started (Preprocessor.run_of_pause asks) resolved
  have polled : ((Session.start sources {} .bare main).1.afterCalls calls).phase =
      .done last.output := by
    have ran := (Preprocessor.run_of_next goesOn).trans (Preprocessor.run_of_finish ends)
    rw [started]
    show (Session.drive false main sources.stop (Session.answerPending paused _)).1.phase = _
    rw [Session.drive_of_finished ran]
  have done : (called {} .bare main sources calls).state = .done := by
    rw [called_eq, ofSession_of_done polled]
  rcases (coherent_afterCalls {} .bare main sources calls).2.2 done
      [(sources, .record ["(0, 0) : ERROR : Syntax error".toList])] with
    ⟨output, grown, held, _, ended, grows⟩
  refine ⟨main, sources, calls, _, output, grown, ?_, done, held, rfl, ended, grows⟩
  rw [start_eq, started]
  rfl

/-! ## Waits that are given up -/

/-- A session that reports to wait, but whose fetch is lost. -/
structure IsStranded (live : LiveSession) : Prop where
  state : live.state = .waiting
  lost : live.pending = none
  empty : live.output = none
  awaits : live.preprocessor.pending ≠ none

/-- Nothing brings a stranded session on.  Even a wait returns at once, and it fails. -/
theorem IsStranded.afterCall {live : LiveSession} (stranded : live.IsStranded)
    (sources : IncludeSources) (call : SessionCall) :
    live.afterCall sources call = live ∧
      (call.needsOutput = true ∨ call = .wait →
        live.failure? sources call = some (.stillWaiting live.source.name)) := by
  cases needed : call.needsOutput with
  | true =>
    have refused := failure?_of_empty stranded.empty sources needed
    exact ⟨refused.2, fun _ => refused.1⟩
  | false =>
    cases call with
    | finish | saveForm | record => cases needed
    | position => exact ⟨rfl, fun wanted => by simp at wanted⟩
    | poll =>
      refine ⟨?_, fun wanted => by simp at wanted⟩
      rw [LiveSession.afterCall, poll_of_idle stranded.lost]
    | wait =>
      have stays : live.wait sources = (live, sources) := wait_of_idle stranded.lost
      refine ⟨by rw [LiveSession.afterCall, stays], fun _ => ?_⟩
      rw [failure?, stays, finish, stranded.empty]
      rfl

theorem IsStranded.afterCalls {live : LiveSession} (stranded : live.IsStranded)
    (calls : List (IncludeSources × SessionCall)) : live.afterCalls calls = live := by
  induction calls with
  | nil => rfl
  | cons head later ih =>
    rw [LiveSession.afterCalls, (stranded.afterCall head.1 head.2).1, ih]

theorem dropWait_succ {live : LiveSession} {fetch : Fetch} (waits : live.pending = some fetch)
    (sources : IncludeSources) (count : Nat) :
    live.dropWait sources (count + 1) =
      let next := { live with pending := none }.resume (sources.settle fetch).2
        (sources.settle fetch).1
      next.1.dropWait next.2 count := by
  rw [dropWait]
  simp only [waits]

theorem finished_or_stranded_of_dropWait {session : Session} {first : Preprocessor × RunResult}
    {earlier : List IncludeOutcome} (heard : session.HasHeard first earlier)
    (sources : IncludeSources) (count : Nat) :
    (∃ finished : Session, ∃ outcomes, finished.HasHeard first outcomes ∧
        (ofSession finished).state = .done ∧
        ((ofSession session).dropWait sources count).1 = ofSession finished) ∨
      ((ofSession session).dropWait sources count).1.IsStranded := by
  induction count generalizing session earlier sources with
  | zero =>
    rcases heard with ⟨result, hears, @⟨_, request, phase, asked, _⟩ | @⟨_, _, phase, idle, grown⟩⟩
    · rw [ofSession_of_waiting phase]
      exact .inr ⟨rfl, rfl, rfl, by simp [dropWait, asked]⟩
    · refine .inl ⟨session, earlier, ⟨_, hears, .done phase idle grown⟩, ?_⟩
      rw [ofSession_of_done phase, dropWait]
      exact ⟨rfl, rfl⟩
  | succ count ih =>
    cases phase : session.phase with
    | done output =>
      refine .inl ⟨session, earlier, heard, ?_⟩
      rw [ofSession_of_done phase, dropWait]
      exact ⟨rfl, rfl⟩
    | waiting fetch =>
      have next := heard.answer phase false (sources.settle fetch).1 (sources.settle fetch).2
      have fields := ofSession_of_waiting phase
      rw [dropWait_succ (by rw [fields]), resume_eq (by rw [fields]), fields]
      exact ih next _

/-- A wait that is given up has brought the session to its end before, or it leaves it stranded for
good. -/
theorem coherent_or_stranded_of_dropWait (options : RunOptions) (environment : Environment)
    (main : SourceUnit) (sources behind : IncludeSources)
    (calls : List (IncludeSources × SessionCall)) (count : Nat) :
    let dropped := ((called options environment main sources calls).dropWait behind count).1
    dropped.state = .done ∧ dropped.IsCoherent ∨
      dropped.IsStranded ∧ ∀ later, dropped.afterCalls later = dropped := by
  have heard := (Session.hasHeard_start sources options environment main).afterCalls calls
  rw [called_eq]
  rcases finished_or_stranded_of_dropWait heard behind count with
    ⟨finished, _, ⟨result, _, stands⟩, done, same⟩ | stranded
  · rw [same]
    exact .inl ⟨done, isCoherent_ofSession stands⟩
  · exact .inr ⟨stranded, stranded.afterCalls⟩

end LiveSession

end ScriptPreprocessor
