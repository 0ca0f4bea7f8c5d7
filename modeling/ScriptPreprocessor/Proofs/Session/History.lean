import ScriptPreprocessor.Proofs.Run.Units
import ScriptPreprocessor.Session

namespace ScriptPreprocessor

/-!
# How a session comes about

A session is started, and from then on it is polled, waited for, and told what the compiler says,
in any order and with any sources at hand each time.  However it came about, its preprocessor is on
a course that begins at the main unit, and every answer on the course is a unit of the name that
was asked for, or a failure (`Session.isRunOf_of_reached`).
-/

/-- The outcomes that a request can have: a unit that is found bears the name asked for. -/
def IncludeRequest.Fits (request : IncludeRequest) (outcome : IncludeOutcome) : Prop :=
  ∀ unit, outcome = .ok unit → unit.name = request.target

namespace IncludeSources

variable {sources after : IncludeSources} {request : IncludeRequest} {outcome : IncludeOutcome}

theorem fits_of_resolve (found : sources.resolve request = (.settled outcome, after)) :
    request.Fits outcome := by
  rintro unit rfl
  cases resolves_of_resolve found with
  | file _ read =>
    rcases exists_read_of_firstReadable read with ⟨_, _, _, rfl⟩
    rfl
  | cached _ _ _ _ => rfl

theorem target_of_resolve {fetch : Fetch}
    (found : sources.resolve request = (.started fetch, after)) :
    fetch.target = request.target := by
  cases resolves_of_resolve found with
  | fetch _ _ _ => rfl

theorem name_of_settle? {fetch : Fetch} {unit : SourceUnit}
    (settled : sources.settle? fetch = some (.ok unit, after)) : unit.name = fetch.target := by
  cases settles_of_settle? settled with
  | fetched _ => rfl

theorem fits_of_settle? {fetch : Fetch} (sameName : fetch.target = request.target)
    (settled : sources.settle? fetch = some (outcome, after)) : request.Fits outcome := by
  rintro unit rfl
  exact (name_of_settle? settled).trans sameName

theorem fits_of_settle {fetch : Fetch} (sameName : fetch.target = request.target)
    (settled : sources.settle fetch = (outcome, after)) : request.Fits outcome := by
  rcases settle_cases settled with early | late | ⟨rfl, _⟩
  · exact fits_of_settle? sameName early
  · exact fits_of_settle? sameName late
  · exact fun _ impossible => nomatch impossible

end IncludeSources

namespace Session

/-- The preprocessor that a session begins with. -/
def opening (options : RunOptions) (environment : Environment) (main : SourceUnit) :
    Preprocessor :=
  (Preprocessor.ofEnvironment options environment).enter main

/-- The sessions that can come about, whatever sources are at hand at each call. -/
inductive Reached (options : RunOptions) (environment : Environment) (main : SourceUnit) :
    Session → Prop
  | start (sources : IncludeSources) :
      Reached options environment main (start sources options environment main).1
  | poll {session : Session} (earlier : Reached options environment main session)
      (sources : IncludeSources) : Reached options environment main (session.poll sources).1
  | wait {session : Session} (earlier : Reached options environment main session)
      (sources : IncludeSources) : Reached options environment main (session.wait sources).1
  | record {session recorded : Session} {messages : List Text} {count : Nat}
      (earlier : Reached options environment main session)
      (told : session.record messages = .ok (count, recorded)) :
      Reached options environment main recorded

/-- The session that is started and then waited for. -/
def completed (sources : IncludeSources) (options : RunOptions) (environment : Environment)
    (main : SourceUnit) : Session :=
  ((start sources options environment main).1.wait (start sources options environment main).2).1

theorem reached_completed (sources : IncludeSources) (options : RunOptions)
    (environment : Environment) (main : SourceUnit) :
    Reached options environment main (completed sources options environment main) :=
  Reached.wait (Reached.start sources) _

/-- The courses of sessions: units are looked up under the names that are asked for. -/
abbrev Follows (options : RunOptions) (environment : Environment) (main : SourceUnit) :
    List Reading → Preprocessor → Prop :=
  Preprocessor.Course IncludeRequest.Fits (opening options environment main)

/-- The lines that were read for an output.  Only the diagnostics of a session may be more than
those of its run, by what the compiler said. -/
def Journal (options : RunOptions) (environment : Environment) (main : SourceUnit)
    (output : RunOutput) (readings : List Reading) : Prop :=
  ∃ last, Follows options environment main readings last ∧ last.step = .finish ∧
    output = { last.output with diagnostics := output.diagnostics }

/-- What a session has come to is what a course leads to. -/
structure IsRunOf (options : RunOptions) (environment : Environment) (main : SourceUnit)
    (session : Session) : Prop where
  source : session.source = main
  waiting : ∀ fetch, session.phase = .waiting fetch →
    ∃ readings request, Follows options environment main readings session.preprocessor ∧
      session.preprocessor.pending = some request ∧ fetch.target = request.target
  done : ∀ output, session.phase = .done output →
    ∃ readings, Journal options environment main output readings

variable {options : RunOptions} {environment : Environment} {main : SourceUnit}
  {session : Session}

theorem answerPending_of_pending {preprocessor : Preprocessor} {request : IncludeRequest}
    (pending : preprocessor.pending = some request) (outcome : IncludeOutcome) :
    answerPending preprocessor outcome = preprocessor.answered request outcome := by
  unfold answerPending
  rw [pending]

/-- Where driving a session leads: its course waits for a fetch, or it has come to its end. -/
structure IsDriven (options : RunOptions) (environment : Environment) (main : SourceUnit)
    (session : Session) : Prop where
  source : session.source = main
  waiting : ∀ fetch, session.phase = .waiting fetch →
    ∃ readings request, Follows options environment main readings session.preprocessor ∧
      session.preprocessor.pending = some request ∧ fetch.target = request.target
  done : ∀ output, session.phase = .done output →
    ∃ readings last, Follows options environment main readings last ∧ last.step = .finish ∧
      last.output = output

/-- Driving a session continues its course. -/
theorem isDriven_drive {patient : Bool} {sources : IncludeSources} {readings : List Reading}
    {preprocessor : Preprocessor} (course : Follows options environment main readings preprocessor)
    (idle : preprocessor.pending = none) :
    IsDriven options environment main (drive patient main sources preprocessor).1 := by
  fun_induction drive patient main sources preprocessor generalizing readings with
  | case1 sources preprocessor stopped output ran =>
    have ends := course.ends_of_run idle ran
    refine ⟨rfl, (fun _ impossible => nomatch impossible), ?_⟩
    rintro _ ⟨⟩
    rcases ends with ⟨readings, last, follows, finished, rfl⟩
    exact ⟨readings, last, follows, finished, rfl⟩
  | case2 sources preprocessor paused request ran outcome after resolved ih =>
    rcases course.ends_of_run idle ran with ⟨readings, follows, waiting⟩
    exact ih (follows.answer waiting (IncludeSources.fits_of_resolve resolved))
      (Preprocessor.pending_answered paused request outcome)
  | case3 sources preprocessor paused request ran fetch fetching resolved _ outcome after settled
      ih =>
    rcases course.ends_of_run idle ran with ⟨readings, follows, waiting⟩
    have sameName := IncludeSources.target_of_resolve resolved
    exact ih (follows.answer waiting (IncludeSources.fits_of_settle sameName settled))
      (Preprocessor.pending_answered paused request outcome)
  | case4 sources preprocessor paused request ran fetch fetching resolved =>
    rcases course.ends_of_run idle ran with ⟨readings, follows, waiting⟩
    refine ⟨rfl, ?_, (fun _ impossible => nomatch impossible)⟩
    rintro _ ⟨⟩
    exact ⟨readings, request, follows, waiting, IncludeSources.target_of_resolve resolved⟩

theorem IsDriven.of_answer (isDriven : IsDriven options environment main session) {fetch : Fetch}
    (phase : session.phase = .waiting fetch) {outcome : IncludeOutcome} (patient : Bool)
    (after : IncludeSources)
    (fits : ∀ request : IncludeRequest, fetch.target = request.target → request.Fits outcome) :
    IsDriven options environment main
      (drive patient session.source after (answerPending session.preprocessor outcome)).1 := by
  rcases isDriven.waiting fetch phase with ⟨readings, request, follows, waiting, sameName⟩
  rw [isDriven.source, answerPending_of_pending waiting]
  exact isDriven_drive (follows.answer waiting (fits request sameName))
    (Preprocessor.pending_answered session.preprocessor request outcome)

/-- Only a finished session takes messages, and only its diagnostics grow by them. -/
theorem exists_done_of_record {recorded : Session} {messages : List Text} {count : Nat}
    (told : session.record messages = .ok (count, recorded)) :
    ∃ output, session.phase = .done output ∧
      recorded = { session with
        phase := .done { output with
          diagnostics := output.diagnostics ++ session.messageDiagnostics output messages } } := by
  cases phase : session.phase with
  | waiting fetch =>
    simp only [record, finish, phase] at told
    cases told
  | done output =>
    simp only [record, finish, phase] at told
    cases told
    exact ⟨output, rfl, rfl⟩

/-- What holds of every session that has been driven, and is kept when messages are recorded, holds
of every session that can come about. -/
theorem Reached.induction {motive : Session → Prop}
    (driven : ∀ {session}, IsDriven options environment main session → motive session)
    (record : ∀ {session recorded messages count},
      session.record messages = .ok (count, recorded) → motive session → motive recorded)
    (reached : Reached options environment main session) : motive session := by
  -- a session that waits has only been driven, so that its fetch can be answered
  suffices both : motive session ∧
      ∀ fetch, session.phase = .waiting fetch → IsDriven options environment main session from
    both.1
  have ofDriven {session : Session} (isDriven : IsDriven options environment main session) :
      motive session ∧
        ∀ fetch, session.phase = .waiting fetch → IsDriven options environment main session :=
    ⟨driven isDriven, fun _ _ => isDriven⟩
  induction reached with
  | start sources => exact ofDriven (isDriven_drive Preprocessor.Course.start rfl)
  | @poll session earlier sources ih =>
    unfold Session.poll
    split
    · exact ih
    · next fetch phase =>
      split
      · exact ih
      · next outcome after settled =>
        exact ofDriven ((ih.2 fetch phase).of_answer phase false after
          fun request sameName => IncludeSources.fits_of_settle? sameName settled)
  | @wait session earlier sources ih =>
    unfold Session.wait
    split
    · exact ih
    · next fetch phase =>
      exact ofDriven ((ih.2 fetch phase).of_answer phase true _
        fun request sameName => IncludeSources.fits_of_settle sameName rfl)
  | record earlier told ih =>
    refine ⟨record told ih.1, ?_⟩
    rcases exists_done_of_record told with ⟨output, _, rfl⟩
    exact fun _ impossible => nomatch impossible

/-- However a session came about, it is where a course leads. -/
theorem isRunOf_of_reached (reached : Reached options environment main session) :
    IsRunOf options environment main session := by
  refine reached.induction (fun isDriven => ⟨isDriven.source, isDriven.waiting, ?_⟩) ?_
  · intro output done
    rcases isDriven.done output done with ⟨readings, last, follows, finished, rfl⟩
    exact ⟨readings, last, follows, finished, rfl⟩
  · intro session recorded messages count told run
    rcases exists_done_of_record told with ⟨output, phase, rfl⟩
    refine ⟨run.source, (fun _ impossible => nomatch impossible), ?_⟩
    rintro _ ⟨⟩
    rcases run.done output phase with ⟨readings, last, follows, finished, shape⟩
    refine ⟨readings, last, follows, finished, ?_⟩
    rw [shape]

end Session

end ScriptPreprocessor
