import ScriptPreprocessor.Proofs.Run.Conversation

namespace ScriptPreprocessor

/-!
# Failed includes

An include that fails leaves nothing behind but its report.  The conversation in which every request
for a target fails is compared with the one in which the target is found as an empty unit and all
other requests are answered alike (`Scenario.agree_of_conversation`).

The two do not go step by step.  A unit that was found once is known from then on: it is spliced
again without a request, or skipped when units are included only once, while a target that has
failed is asked for again.  Between requests the two preprocessors differ in what they know of the
target and in the reports (`Preprocessor.Trails`); whenever the failing run stops for the target
once more, the other one has already passed its include (`Preprocessor.Together`).
-/

/-! ## Interleaved lists -/

/-- The third list is put together from the other two, each of them in its order. -/
inductive Interleaves {Entry : Type} : List Entry → List Entry → List Entry → Prop
  | nil : Interleaves [] [] []
  | left {entry : Entry} {first second whole : List Entry}
      (later : Interleaves first second whole) :
      Interleaves (entry :: first) second (entry :: whole)
  | right {entry : Entry} {first second whole : List Entry}
      (later : Interleaves first second whole) :
      Interleaves first (entry :: second) (entry :: whole)

namespace Interleaves

variable {Entry : Type} {first second whole : List Entry}

theorem refl (entries : List Entry) : Interleaves entries [] entries := by
  induction entries with
  | nil => exact .nil
  | cons entry rest ih => exact .left ih

theorem append {laterFirst laterSecond laterWhole : List Entry}
    (earlier : Interleaves first second whole)
    (later : Interleaves laterFirst laterSecond laterWhole) :
    Interleaves (first ++ laterFirst) (second ++ laterSecond) (whole ++ laterWhole) := by
  induction earlier with
  | nil => exact later
  | left _ ih => exact .left ih
  | right _ ih => exact .right ih

theorem append_left (interleaves : Interleaves first second whole) (more : List Entry) :
    Interleaves (first ++ more) second (whole ++ more) := by
  have both := interleaves.append (refl more)
  rwa [List.append_nil] at both

theorem push_right (interleaves : Interleaves first second whole) (entry : Entry) :
    Interleaves first (second ++ [entry]) (whole ++ [entry]) := by
  have both := interleaves.append (.right .nil : Interleaves [] [entry] [entry])
  rwa [List.append_nil] at both

end Interleaves

/-! ## Reports of failures -/

/-- The report of an exchange, when it is about a target and has failed. -/
def Exchange.failureReport? (target : Text) (exchange : Exchange) : Option Diagnostic :=
  match exchange.answer with
  | .failed failure =>
    if exchange.request.target = target then
      some ((Problem.includeFailure failure).diagnosticAt
        ⟨exchange.request.includer, exchange.request.line⟩)
    else none
  | _ => none

/-- An exchange is reported as an error at its line, on which an include of its name stands. -/
def Exchange.IsReported (target : Text) (units : List SourceUnit) (exchange : Exchange) : Prop :=
  exchange.request.StandsIn units ∧ ∃ report, exchange.failureReport? target = some report ∧
    report.severity = .error ∧
    (report.kind = .includeNotFound ∨ report.kind = .includeFetchFailed) ∧
    report.unit = some exchange.request.includer ∧ report.line = some exchange.request.line

theorem Exchange.isReported_of_failed {target : Text} {units : List SourceUnit}
    {exchange : Exchange} {failure : IncludeFailure} (same : exchange.request.target = target)
    (answer : exchange.answer = .failed failure) (place : exchange.request.StandsIn units) :
    exchange.IsReported target units := by
  refine ⟨place, (Problem.includeFailure failure).diagnosticAt
    ⟨exchange.request.includer, exchange.request.line⟩, ?_, rfl, ?_, rfl, rfl⟩
  · simp [failureReport?, answer, same]
  · cases failure with
    | notFound target => exact .inl rfl
    | fetchFailed target reason => exact .inr rfl

/-- The reports of the failed requests for a target, in order. -/
def failureReports (target : Text) (exchanges : List Exchange) : List Diagnostic :=
  exchanges.filterMap (Exchange.failureReport? target)

/-- The exchanges that are not about a target. -/
def otherExchanges (target : Text) (exchanges : List Exchange) : List Exchange :=
  exchanges.filter fun exchange => exchange.request.target ≠ target

section

variable {target : Text} {request : IncludeRequest} (exchanges : List Exchange)

theorem failureReports_push_failed (same : request.target = target) (failure : IncludeFailure) :
    failureReports target (exchanges ++ [⟨request, .failed failure⟩]) =
      failureReports target exchanges ++
        [(Problem.includeFailure failure).diagnosticAt ⟨request.includer, request.line⟩] := by
  simp [failureReports, Exchange.failureReport?, same]

theorem failureReports_push_other (other : request.target ≠ target) (answer : IncludeAnswer) :
    failureReports target (exchanges ++ [⟨request, answer⟩]) = failureReports target exchanges := by
  have none : Exchange.failureReport? target ⟨request, answer⟩ = none := by
    cases answer <;> simp [Exchange.failureReport?, other]
  simp [failureReports, none]

theorem otherExchanges_push_target (same : request.target = target) (answer : IncludeAnswer) :
    otherExchanges target (exchanges ++ [⟨request, answer⟩]) = otherExchanges target exchanges := by
  simp [otherExchanges, same]

theorem otherExchanges_push_other (other : request.target ≠ target) (answer : IncludeAnswer) :
    otherExchanges target (exchanges ++ [⟨request, answer⟩]) =
      otherExchanges target exchanges ++ [⟨request, answer⟩] := by
  simp [otherExchanges, other]

end

namespace Preprocessor

/-! ## Two preprocessors -/

/-- A preprocessor to which a target has failed in the exchanges, and one that is as far but has
found it empty, if it has asked. -/
structure Trails (target : Text) (exchanges : List Exchange) (failed found : Preprocessor) :
    Prop where
  options : found.options = failed.options
  macros : found.macros = failed.macros
  searchPath : found.searchPath = failed.searchPath
  frames : found.frames = failed.frames
  emissions : found.emissions = failed.emissions
  pending : found.pending = failed.pending
  others : ∀ name, name ≠ target → found.resolved.lookup name = failed.resolved.lookup name
  unknown : failed.resolved.lookup target = none
  /-- The target is empty, and it is not being expanded. -/
  empty : ∀ unit, found.resolved.lookup target = some unit →
    unit.text = [] ∧ target ∉ failed.frames.map Frame.key
  asks : ∀ request, failed.pending = some request →
    request.target ∉ failed.frames.map Frame.key
  diagnostics : Interleaves found.diagnostics.toList (failureReports target exchanges)
    failed.diagnostics.toList

/-- What the two do in one step.  When the failing one asks for a target that the other one knows,
that one is behind the include at once, or it has an empty unit to leave first. -/
inductive Together (target : Text) (exchanges : List Exchange) : RunStep → RunStep → Prop
  | next {failed found : Preprocessor} (trails : Trails target exchanges failed found) :
      Together target exchanges (.next failed) (.next found)
  | pause {failed found : Preprocessor} {request : IncludeRequest}
      (trails : Trails target exchanges failed found) :
      Together target exchanges (.pause failed request) (.pause found request)
  | ahead {failed found resting : Preprocessor} {request : IncludeRequest}
      (same : request.target = target) (rests : found = resting ∨ found.step = .next resting)
      (trails : ∀ failure, Trails target (exchanges ++ [⟨request, .failed failure⟩])
        (failed.fail request failure) resting) :
      Together target exchanges (.pause failed request) (.next found)
  | finish : Together target exchanges .finish .finish

namespace Trails

variable {target : Text} {exchanges : List Exchange} {failed found : Preprocessor}

theorem keys (trails : Trails target exchanges failed found) :
    found.frames.map Frame.key = failed.frames.map Frame.key :=
  congrArg (List.map Frame.key) trails.frames

/-! ### Steps -/

theorem apply (trails : Trails target exchanges failed found) (origin : Origin)
    (effect : LineEffect) {frames : List Frame}
    (keys : frames.map Frame.key = failed.frames.map Frame.key) :
    Trails target exchanges (failed.apply origin effect frames)
      (found.apply origin effect frames) := by
  have emissions : (found.apply origin effect frames).emissions =
      (failed.apply origin effect frames).emissions := by
    simp only [Preprocessor.apply, trails.emissions]
  have diagnostics := trails.diagnostics.append_left
    (effect.problems.map fun problem => problem.diagnosticAt origin)
  refine { trails with
    macros := rfl, searchPath := rfl, frames := rfl, emissions
    empty := fun unit known => ?_, asks := fun request waiting => ?_, diagnostics := ?_ }
  · exact ⟨(trails.empty unit known).1, keys ▸ (trails.empty unit known).2⟩
  · exact keys ▸ trails.asks request waiting
  · simpa [Preprocessor.apply] using diagnostics

theorem report (trails : Trails target exchanges failed found) (diagnostic : Diagnostic) :
    Trails target exchanges { failed with diagnostics := failed.diagnostics.push diagnostic }
      { found with diagnostics := found.diagnostics.push diagnostic } := by
  refine { trails with diagnostics := ?_ }
  simpa using trails.diagnostics.append_left [diagnostic]

/-- A frame is left, when it is the innermost one of both. -/
theorem leave (trails : Trails target exchanges failed found) {frame : Frame} {below : List Frame}
    (stack : failed.frames = frame :: below) :
    Trails target exchanges (failed.leave frame below) (found.leave frame below) := by
  have outer : ∀ name, name ∉ failed.frames.map Frame.key → name ∉ below.map Frame.key := by
    intro name absent member
    rw [stack] at absent
    exact absent (List.mem_cons_of_mem _ member)
  refine { trails with
    frames := rfl, empty := fun unit known => ?_, asks := fun request waiting => ?_
    diagnostics := ?_ }
  · exact ⟨(trails.empty unit known).1, outer target (trails.empty unit known).2⟩
  · exact outer request.target (trails.asks request waiting)
  · simpa [Preprocessor.leave] using trails.diagnostics.append_left _

/-- Another unit than the target is put on both stacks. -/
theorem enterUnit (trails : Trails target exchanges failed found) (idle : failed.pending = none)
    {name : Text} (other : name ≠ target) (unit : SourceUnit) :
    Trails target exchanges
      { failed with frames := Frame.ofUnit name unit :: failed.frames }
      { found with frames := Frame.ofUnit name unit :: found.frames } := by
  refine { trails with
    frames := congrArg (Frame.ofUnit name unit :: ·) trails.frames
    empty := fun unit known => ?_, asks := fun request waiting => ?_ }
  · refine ⟨(trails.empty unit known).1, ?_⟩
    rw [List.map_cons, List.mem_cons, not_or]
    exact ⟨Ne.symm other, (trails.empty unit known).2⟩
  · rw [show failed.pending = some request from waiting] at idle
    cases idle

theorem ask (trails : Trails target exchanges failed found) {request : IncludeRequest}
    (fresh : request.target ∉ failed.frames.map Frame.key) :
    Trails target exchanges { failed with pending := some request }
      { found with pending := some request } := by
  refine { trails with pending := rfl, asks := ?_ }
  rintro _ ⟨⟩
  exact fresh

theorem behind (trails : Trails target exchanges failed found) {frame : Frame}
    {below : List Frame} (stack : failed.frames = frame :: below) (line : Text)
    (unread : List Text) :
    found.readingOf frame below line = failed.readingOf frame below line ∧
      Trails target exchanges (failed.behind frame below line unread)
        (found.behind frame below line unread) := by
  have same : found.readingOf frame below line = failed.readingOf frame below line := by
    simp only [readingOf, lineState, trails.macros, trails.searchPath]
  refine ⟨same, ?_⟩
  simp only [Preprocessor.behind, same]
  exact trails.apply _ _ (keys_behind line unread stack)

/-- A unit without text is left as soon as it is entered, and nothing has changed. -/
theorem step_of_empty (preprocessor : Preprocessor) {unit : SourceUnit} (empty : unit.text = [])
    (key : Text) :
    ({ preprocessor with frames := Frame.ofUnit key unit :: preprocessor.frames } :
      Preprocessor).step = .next preprocessor := by
  have exhausted : (Frame.ofUnit key unit).unread = [] := by
    simp [Frame.ofUnit, SourceUnit.lines, empty]
  rw [step_of_exhausted rfl exhausted]
  simp [Preprocessor.leave, Frame.closingDiagnostics, Frame.ofUnit, Block.unclosed]

/-- A request for the target fails, and the other preprocessor waits for nothing. -/
theorem fail (trails : Trails target exchanges failed found) (idle : found.pending = none)
    {request : IncludeRequest} (same : request.target = target) (failure : IncludeFailure) :
    Trails target (exchanges ++ [⟨request, .failed failure⟩]) (failed.fail request failure)
      found := by
  refine { trails with pending := idle, asks := ?_, diagnostics := ?_ }
  · rintro _ ⟨⟩
  · rw [failureReports_push_failed exchanges same]
    simpa [Preprocessor.fail] using trails.diagnostics.push_right _

section Include

variable (trails : Trails target exchanges failed found) (idle : failed.pending = none)
  (origin : Origin) (location : Option Location)

include trails idle

/-- An include of another unit. -/
theorem includeUnit_of_ne {name : Text} (other : name ≠ target) :
    Together target exchanges (failed.includeUnit origin location name)
      (found.includeUnit origin location name) := by
  have lookup := trails.others name other
  by_cases skipped : (failed.resolved.lookup name).isSome = true ∧
      failed.options.includeMode = .once
  · rw [includeUnit_of_skipped origin location skipped.1 skipped.2,
      includeUnit_of_skipped origin location (lookup ▸ skipped.1) (trails.options ▸ skipped.2)]
    exact .next trails
  have otherSkipped : ¬ ((found.resolved.lookup name).isSome = true ∧
      found.options.includeMode = .once) := by rwa [lookup, trails.options]
  by_cases expanding : name ∈ failed.frames.map Frame.key
  · rw [includeUnit_of_expanding origin location skipped rfl expanding,
      includeUnit_of_expanding origin location otherSkipped trails.keys expanding]
    exact .next (trails.report _)
  cases known : failed.resolved.lookup name with
  | some unit =>
    have always : failed.options.includeMode ≠ .once := fun once => skipped ⟨by simp [known], once⟩
    rw [includeUnit_of_known origin location rfl expanding known always,
      includeUnit_of_known origin location trails.keys expanding (lookup.trans known)
        (trails.options ▸ always)]
    exact .next (trails.enterUnit idle other unit)
  | none =>
    rw [includeUnit_of_unknown origin location rfl expanding known rfl,
      includeUnit_of_unknown origin location trails.keys expanding (lookup.trans known)
        trails.searchPath]
    exact .pause (trails.ask expanding)

/-- An include of the target. -/
theorem includeUnit_target :
    Together target exchanges (failed.includeUnit origin location target)
      (found.includeUnit origin location target) := by
  by_cases expanding : target ∈ failed.frames.map Frame.key
  · -- What is being expanded has never been asked for, so neither of them knows the target.
    have unknown : found.resolved.lookup target = none := by
      cases known : found.resolved.lookup target with
      | none => rfl
      | some unit => exact absurd expanding (trails.empty unit known).2
    rw [includeUnit_of_expanding origin location (by simp [trails.unknown]) rfl expanding,
      includeUnit_of_expanding origin location (by simp [unknown]) trails.keys expanding]
    exact .next (trails.report _)
  rw [includeUnit_of_unknown origin location rfl expanding trails.unknown rfl]
  cases known : found.resolved.lookup target with
  | none =>
    rw [includeUnit_of_unknown origin location trails.keys expanding known trails.searchPath]
    exact .pause (trails.ask expanding)
  | some unit =>
    -- The failing one asks again; the other one skips the unit, or it is soon behind it.
    have stillIdle : found.pending = none := trails.pending.trans idle
    by_cases once : found.options.includeMode = .once
    · rw [includeUnit_of_skipped origin location (by simp [known]) once]
      exact .ahead rfl (.inl rfl) fun failure => trails.fail stillIdle rfl failure
    · rw [includeUnit_of_known origin location trails.keys expanding known once]
      exact .ahead rfl (.inr (step_of_empty found (trails.empty unit known).1 target))
        fun failure => trails.fail stillIdle rfl failure

end Include

/-- One step of both. -/
theorem step (trails : Trails target exchanges failed found) (idle : failed.pending = none) :
    Together target exchanges failed.step found.step := by
  cases stack : failed.frames with
  | nil =>
    have empty : found.frames = [] := trails.frames.trans stack
    simp only [Preprocessor.step, stack, empty]
    exact .finish
  | cons frame below =>
    have otherStack : found.frames = frame :: below := trails.frames.trans stack
    cases lines : frame.unread with
    | nil =>
      rw [step_of_exhausted stack lines, step_of_exhausted otherStack lines]
      exact .next (trails.leave stack)
    | cons line unread =>
      rcases trails.behind stack line unread with ⟨same, behind⟩
      rw [step_of_line stack lines, step_of_line otherStack lines, same]
      cases (failed.readingOf frame below line).effect.target with
      | none => exact .next behind
      | some name =>
        by_cases other : name = target
        · subst other
          exact behind.includeUnit_target idle _ _
        · exact behind.includeUnit_of_ne idle _ _ other

/-! ### Answers -/

/-- The first request for the target fails for the one preprocessor; the other one is given an empty
unit and leaves it. -/
theorem answer_target (trails : Trails target exchanges failed found) {request : IncludeRequest}
    (waiting : failed.pending = some request) (same : request.target = target)
    (failure : IncludeFailure) {unit : SourceUnit} (empty : unit.text = []) :
    ∃ left, (found.splice request unit).step = .next left ∧
      Trails target (exchanges ++ [⟨request, .failed failure⟩]) (failed.fail request failure)
        left := by
  have stillEmpty : unit.withFinalNewline.text = [] := by
    simp [SourceUnit.withFinalNewline, Text.withFinalNewline, empty]
  let left : Preprocessor :=
    { found with
      pending := none
      resolved := found.resolved ++ [(request.target, unit.withFinalNewline)] }
  have others : ∀ name, name ≠ target →
      left.resolved.lookup name = failed.resolved.lookup name := by
    intro name other
    have notHere : (name == request.target) = false := by simp [same, other]
    simp [left, List.lookup_append, List.lookup_cons, notHere, trails.others name other]
  have isEmpty : ∀ other, left.resolved.lookup target = some other →
      other.text = [] ∧ target ∉ failed.frames.map Frame.key := by
    intro other known
    refine ⟨?_, same ▸ trails.asks request waiting⟩
    cases earlier : found.resolved.lookup target with
    | some first =>
      have isFirst : first = other := by simpa [left, List.lookup_append, earlier] using known
      exact isFirst ▸ (trails.empty first earlier).1
    | none =>
      have isUnit : unit.withFinalNewline = other := by
        simpa [left, List.lookup_append, earlier, same] using known
      exact isUnit ▸ stillEmpty
  have settled : Trails target exchanges { failed with pending := none } left :=
    { trails with pending := rfl, others, empty := isEmpty, asks := nofun }
  exact ⟨left, step_of_empty left stillEmpty request.target, settled.fail rfl same failure⟩

/-- Both are given the same outcome of another request. -/
theorem answer_other (trails : Trails target exchanges failed found) {request : IncludeRequest}
    (other : request.target ≠ target) (outcome : IncludeOutcome) (answer : IncludeAnswer) :
    Trails target (exchanges ++ [⟨request, answer⟩]) (failed.answered request outcome)
      (found.answered request outcome) := by
  have reports := failureReports_push_other exchanges other answer
  cases outcome with
  | error failure =>
    have reported := trails.report
      ((Problem.includeFailure failure).diagnosticAt ⟨request.includer, request.line⟩)
    exact { reported with
      pending := rfl, asks := nofun, diagnostics := reports.symm ▸ reported.diagnostics }
  | ok unit =>
    have notTarget : ¬ target = request.target := Ne.symm other
    refine { trails with
      pending := rfl
      frames := congrArg (Frame.ofUnit request.target unit.withFinalNewline :: ·) trails.frames
      others := ?_, unknown := ?_, empty := ?_, asks := nofun
      diagnostics := reports.symm ▸ trails.diagnostics }
    · intro name notName
      rw [Preprocessor.answered, Preprocessor.answered, lookup_splice, lookup_splice,
        trails.others name notName]
    · rw [Preprocessor.answered, lookup_splice, trails.unknown, if_neg notTarget, Option.or_none]
    · intro first known
      have earlier : found.resolved.lookup target = some first := by
        rwa [Preprocessor.answered, lookup_splice, if_neg notTarget, Option.or_none] at known
      have isEmpty := trails.empty first earlier
      refine ⟨isEmpty.1, ?_⟩
      rw [Preprocessor.answered, splice, List.map_cons, List.mem_cons, not_or]
      exact ⟨Ne.symm other, isEmpty.2⟩

theorem enter (options : RunOptions) (environment : Environment) (main : SourceUnit)
    (target : Text) :
    Trails target [] ((ofEnvironment options environment).enter main)
      ((ofEnvironment options environment).enter main) :=
  ⟨rfl, rfl, rfl, rfl, rfl, rfl, fun _ _ => rfl, rfl, nofun, nofun, .nil⟩

end Trails

end Preprocessor

/-! ## Two conversations -/

open Preprocessor (Conversation Trails Together produced)

/-- A main unit that is expanded, a target that is not to be had, and the answers to all requests
for other units. -/
structure Scenario where
  options : RunOptions
  environment : Environment
  main : SourceUnit
  target : Text
  /-- Where the target is found empty, if it is found. -/
  location : Option Location
  failures : List Exchange → IncludeFailure
  others : IncludeRequest → IncludeAnswer

namespace Scenario

variable (scenario : Scenario)

/-- Every request for the target fails. -/
def failing : Answering := fun exchanges request =>
  if request.target = scenario.target then .failed (scenario.failures exchanges)
  else scenario.others request

/-- The target is found, and there is nothing in it. -/
def finding : Answering := fun _ request =>
  if request.target = scenario.target then .resolved ⟨scenario.target, [], scenario.location⟩
  else scenario.others request

/-- The conversations in which the target fails. -/
def Fails : List Exchange → Preprocessor × RunResult → Prop :=
  Conversation scenario.options scenario.environment scenario.main scenario.failing

/-- The conversations in which the target is found. -/
def Finds : List Exchange → Preprocessor × RunResult → Prop :=
  Conversation scenario.options scenario.environment scenario.main scenario.finding

/-- Two conversations have come equally far.  What they have asked besides the target is the same,
with the same answers, they wait for the same or are both finished, and what they have produced
differs by the reports of the failed requests only. -/
structure Agree (missed empty : List Exchange) (failed found : Preprocessor × RunResult) :
    Prop where
  exchanges : otherExchanges scenario.target empty = otherExchanges scenario.target missed
  waits : found.2.request? = failed.2.request?
  expanded : (produced found).expanded = (produced failed).expanded
  lineMap : (produced found).lineMap = (produced failed).lineMap
  diagnostics : Interleaves (produced found).diagnostics (failureReports scenario.target missed)
    (produced failed).diagnostics

/-- Two conversations in which the calls are about to read on. -/
structure Meet (missed empty : List Exchange) (failed found : Preprocessor) : Prop where
  trails : Trails scenario.target missed failed found
  idle : failed.pending = none
  exchanges : otherExchanges scenario.target empty = otherExchanges scenario.target missed
  fails : scenario.Fails missed failed.run
  finds : scenario.Finds empty found.run

/-- Two conversations that wait for the answer to the same request. -/
structure Wait (request : IncludeRequest) (missed empty : List Exchange)
    (failed found : Preprocessor) : Prop where
  trails : Trails scenario.target missed failed found
  pending : failed.pending = some request
  exchanges : otherExchanges scenario.target empty = otherExchanges scenario.target missed
  fails : scenario.Fails missed (failed, .paused request)
  finds : scenario.Finds empty (found, .paused request)

variable {scenario} {missed empty : List Exchange} {failed found : Preprocessor}
  {request : IncludeRequest}

theorem agree_of_trails {failedResult foundResult : Preprocessor × RunResult}
    (trails : Trails scenario.target missed failed found)
    (exchanges : otherExchanges scenario.target empty = otherExchanges scenario.target missed)
    (waits : foundResult.2.request? = failedResult.2.request?)
    (failedOutput : produced failedResult = failed.output)
    (foundOutput : produced foundResult = found.output) :
    scenario.Agree missed empty failedResult foundResult := by
  refine ⟨exchanges, waits, ?_, ?_, ?_⟩
  · simp only [failedOutput, foundOutput, Preprocessor.output, trails.emissions]
  · simp only [failedOutput, foundOutput, Preprocessor.output, trails.emissions]
  · rw [failedOutput, foundOutput]
    exact trails.diagnostics

theorem Wait.agree (wait : scenario.Wait request missed empty failed found) :
    scenario.Agree missed empty (failed, .paused request) (found, .paused request) :=
  agree_of_trails wait.trails wait.exchanges rfl rfl rfl

/-! ### Answers -/

/-- What two calls come to that resume two conversations: they wait for the same again, or they read
on from where they meet. -/
inductive Resumed (scenario : Scenario) (missed empty : List Exchange) :
    Preprocessor × RunResult → Preprocessor × RunResult → Prop
  | waits {failed found : Preprocessor} {request : IncludeRequest}
      (wait : scenario.Wait request missed empty failed found) :
      Resumed scenario missed empty (failed, .paused request) (found, .paused request)
  | meets {failed found : Preprocessor} (meet : scenario.Meet missed empty failed found) :
      Resumed scenario missed empty failed.run found.run

theorem resume_failing (pending : failed.pending = some request)
    (same : request.target = scenario.target) (missed : List Exchange) :
    failed.resume (scenario.failing missed request) =
      (failed.fail request (scenario.failures missed)).run := by
  simp [Preprocessor.resume, pending, failing, same, Preprocessor.answered]

namespace Wait

variable (wait : scenario.Wait request missed empty failed found)

include wait

/-- The target fails for the first time, or it is found. -/
theorem answer_target (same : request.target = scenario.target) :
    scenario.Resumed (missed ++ [⟨request, scenario.failing missed request⟩])
      (empty ++ [⟨request, scenario.finding empty request⟩])
      (failed.resume (scenario.failing missed request))
      (found.resume (scenario.finding empty request)) := by
  have fails := wait.fails.answer
  have finds := wait.finds.answer
  have exchanges := wait.exchanges
  rw [← otherExchanges_push_target empty same (scenario.finding empty request),
    ← otherExchanges_push_target missed same (scenario.failing missed request)] at exchanges
  have failedAnswer : scenario.failing missed request = .failed (scenario.failures missed) :=
    if_pos same
  have foundAnswer : scenario.finding empty request =
      .resolved ⟨scenario.target, [], scenario.location⟩ := if_pos same
  rcases wait.trails.answer_target wait.pending same (scenario.failures missed)
    (rfl : SourceUnit.text ⟨scenario.target, [], scenario.location⟩ = []) with
    ⟨left, stepped, trails⟩
  have failedRun := resume_failing wait.pending same missed
  have foundRun : found.resume (scenario.finding empty request) = left.run := by
    rw [← Preprocessor.run_of_next stepped, foundAnswer]
    simp only [Preprocessor.resume, wait.trails.pending.trans wait.pending]
    rfl
  rw [← failedAnswer] at trails
  rw [failedRun] at fails ⊢
  rw [foundRun] at finds ⊢
  exact .meets ⟨trails, rfl, exchanges, fails, finds⟩

/-- Another request gets the same answer from both. -/
theorem answer_other (other : request.target ≠ scenario.target) :
    scenario.Resumed (missed ++ [⟨request, scenario.failing missed request⟩])
      (empty ++ [⟨request, scenario.finding empty request⟩])
      (failed.resume (scenario.failing missed request))
      (found.resume (scenario.finding empty request)) := by
  have fails := wait.fails.answer
  have finds := wait.finds.answer
  have failedAnswer : scenario.failing missed request = scenario.others request := if_neg other
  have foundAnswer : scenario.finding empty request = scenario.others request := if_neg other
  rw [failedAnswer] at fails ⊢
  rw [foundAnswer] at finds ⊢
  generalize scenario.others request = answer at fails finds ⊢
  have exchanges : otherExchanges scenario.target (empty ++ [⟨request, answer⟩]) =
      otherExchanges scenario.target (missed ++ [⟨request, answer⟩]) := by
    rw [otherExchanges_push_other _ other, otherExchanges_push_other _ other, wait.exchanges]
  unfold Preprocessor.resume at fails finds ⊢
  simp only [wait.pending, wait.trails.pending.trans wait.pending] at fails finds ⊢
  cases answer with
  | pending =>
    have reports := failureReports_push_other missed other .pending
    refine .waits ⟨?_, wait.pending, exchanges, fails, finds⟩
    exact { wait.trails with diagnostics := reports.symm ▸ wait.trails.diagnostics }
  | resolved unit =>
    exact .meets ⟨wait.trails.answer_other other (.ok unit) _, rfl, exchanges, fails, finds⟩
  | failed failure =>
    exact .meets ⟨wait.trails.answer_other other (.error failure) _, rfl, exchanges, fails, finds⟩

theorem answer :
    scenario.Resumed (missed ++ [⟨request, scenario.failing missed request⟩])
      (empty ++ [⟨request, scenario.finding empty request⟩])
      (failed.resume (scenario.failing missed request))
      (found.resume (scenario.finding empty request)) := by
  by_cases same : request.target = scenario.target
  · exact wait.answer_target same
  · exact wait.answer_other same

end Wait

/-! ### Reading on -/

namespace Meet

variable {later other : Preprocessor}

theorem next (meet : scenario.Meet missed empty failed found)
    (trails : Trails scenario.target missed later other) (failedStep : failed.step = .next later)
    (foundStep : found.step = .next other) : scenario.Meet missed empty later other := by
  refine ⟨trails, (Preprocessor.pending_of_next failedStep).trans meet.idle, meet.exchanges, ?_, ?_⟩
  · exact Preprocessor.run_of_next failedStep ▸ meet.fails
  · exact Preprocessor.run_of_next foundStep ▸ meet.finds

theorem pause (meet : scenario.Meet missed empty failed found)
    (trails : Trails scenario.target missed later other)
    (failedStep : failed.step = .pause later request)
    (foundStep : found.step = .pause other request) :
    scenario.Wait request missed empty later other := by
  refine ⟨trails, (Preprocessor.asks_of_step failedStep).pending, meet.exchanges, ?_, ?_⟩
  · exact Preprocessor.run_of_pause failedStep ▸ meet.fails
  · exact Preprocessor.run_of_pause foundStep ▸ meet.finds

/-- The failing one has stopped for the target again, and the other one goes on behind it. -/
theorem ahead (meet : scenario.Meet missed empty failed found)
    (failedStep : failed.step = .pause later request) (same : request.target = scenario.target)
    (trails : Trails scenario.target
      (missed ++ [⟨request, .failed (scenario.failures missed)⟩])
      (later.fail request (scenario.failures missed)) other)
    (sameRun : found.run = other.run) :
    scenario.Meet (missed ++ [⟨request, scenario.failing missed request⟩]) empty
      (later.fail request (scenario.failures missed)) other := by
  have answer : scenario.failing missed request = .failed (scenario.failures missed) :=
    if_pos same
  have pending := (Preprocessor.asks_of_step failedStep).pending
  have waits : scenario.Fails missed (later, .paused request) :=
    Preprocessor.run_of_pause failedStep ▸ meet.fails
  refine ⟨answer ▸ trails, rfl, ?_, ?_, sameRun ▸ meet.finds⟩
  · rw [otherExchanges_push_target _ same, meet.exchanges]
  · exact resume_failing pending same missed ▸ waits.answer

theorem finish (meet : scenario.Meet missed empty failed found)
    (failedStep : failed.step = .finish) (foundStep : found.step = .finish) :
    scenario.Agree missed empty failed.run found.run := by
  rw [Preprocessor.run_of_finish failedStep, Preprocessor.run_of_finish foundStep]
  exact agree_of_trails meet.trails meet.exchanges rfl rfl rfl

end Meet

/-! ### Whole conversations -/

/-- What is known of the other conversation at any point of the failing one. -/
inductive Followed (scenario : Scenario) (missed : List Exchange) :
    Preprocessor × RunResult → Prop
  | waits {empty : List Exchange} {failed found : Preprocessor} {request : IncludeRequest}
      (wait : scenario.Wait request missed empty failed found) :
      Followed scenario missed (failed, .paused request)
  /-- The other conversation is behind this request for the target already. -/
  | ahead {empty : List Exchange} {failed found : Preprocessor} {request : IncludeRequest}
      (same : request.target = scenario.target) (pending : failed.pending = some request)
      (meet : scenario.Meet (missed ++ [⟨request, scenario.failing missed request⟩]) empty
        (failed.fail request (scenario.failures missed)) found) :
      Followed scenario missed (failed, .paused request)
  | finished {empty : List Exchange} {stopped : Preprocessor} {output : RunOutput}
      {found : Preprocessor × RunResult} (finds : scenario.Finds empty found)
      (agree : scenario.Agree missed empty (stopped, .finished output) found) :
      Followed scenario missed (stopped, .finished output)

/-- What is known of the failing conversation at any point of the other one. -/
inductive Preceded (scenario : Scenario) (empty : List Exchange) :
    Preprocessor × RunResult → Prop
  | waits {missed : List Exchange} {failed found : Preprocessor} {request : IncludeRequest}
      (wait : scenario.Wait request missed empty failed found) :
      Preceded scenario empty (found, .paused request)
  | finished {missed : List Exchange} {stopped : Preprocessor} {output : RunOutput}
      {failed : Preprocessor × RunResult} (fails : scenario.Fails missed failed)
      (agree : scenario.Agree missed empty failed (stopped, .finished output)) :
      Preceded scenario empty (stopped, .finished output)

/-- A call of the failing conversation is followed; the induction is on its steps. -/
theorem Meet.followed (meet : scenario.Meet missed empty failed found) :
    scenario.Followed missed failed.run := by
  fun_induction Preprocessor.run failed generalizing found with
  | case1 failed later failedStep ih =>
    have together := meet.trails.step meet.idle
    rw [failedStep] at together
    generalize foundStep : found.step = taken at together
    cases together with
    | next trails => exact ih (meet.next trails failedStep foundStep)
  | case2 failed paused request failedStep =>
    have together := meet.trails.step meet.idle
    rw [failedStep] at together
    generalize foundStep : found.step = taken at together
    cases together with
    | pause trails => exact .waits (meet.pause trails failedStep foundStep)
    | ahead same rests trails =>
      have sameRun := (Preprocessor.run_of_next foundStep).trans
        (rests.elim (congrArg Preprocessor.run) Preprocessor.run_of_next)
      exact .ahead same (Preprocessor.asks_of_step failedStep).pending
        (meet.ahead failedStep same (trails _) sameRun)
  | case3 failed failedStep =>
    have together := meet.trails.step meet.idle
    rw [failedStep] at together
    generalize foundStep : found.step = taken at together
    cases together with
    | finish =>
      have agree := meet.finish failedStep foundStep
      rw [Preprocessor.run_of_finish failedStep] at agree
      exact .finished meet.finds agree

/-- A call of the other conversation is preceded.  The induction is on the potential, because that
one takes two steps past an empty unit. -/
theorem Meet.preceded (meet : scenario.Meet missed empty failed found) :
    scenario.Preceded empty found.run := by
  induction measure : found.potential using Nat.strong_induction_on
    generalizing missed failed found with
  | _ measure ih =>
    subst measure
    have together := meet.trails.step meet.idle
    generalize failedStep : failed.step = failedTaken at together
    generalize foundStep : found.step = foundTaken at together
    cases together with
    | next trails =>
      rw [Preprocessor.run_of_next foundStep]
      exact ih _ (Preprocessor.potential_lt_of_step foundStep)
        (meet.next trails failedStep foundStep) rfl
    | @ahead _ behind resting _ same rests trails =>
      have resumed : behind.run = resting.run ∧ resting.potential ≤ behind.potential := by
        rcases rests with rfl | left
        · exact ⟨rfl, le_rfl⟩
        · exact ⟨Preprocessor.run_of_next left, (Preprocessor.potential_lt_of_step left).le⟩
      have sameRun : found.run = resting.run :=
        (Preprocessor.run_of_next foundStep).trans resumed.1
      rw [sameRun]
      exact ih _ (resumed.2.trans_lt (Preprocessor.potential_lt_of_step foundStep))
        (meet.ahead failedStep same (trails _) sameRun) rfl
    | pause trails =>
      rw [Preprocessor.run_of_pause foundStep]
      exact .waits (meet.pause trails failedStep foundStep)
    | finish =>
      have agree := meet.finish failedStep foundStep
      rw [Preprocessor.run_of_finish foundStep] at agree ⊢
      exact .finished meet.fails agree

theorem Resumed.followed {failed found : Preprocessor × RunResult}
    (resumed : scenario.Resumed missed empty failed found) : scenario.Followed missed failed := by
  cases resumed with
  | waits wait => exact .waits wait
  | meets meet => exact meet.followed

theorem Resumed.preceded {failed found : Preprocessor × RunResult}
    (resumed : scenario.Resumed missed empty failed found) : scenario.Preceded empty found := by
  cases resumed with
  | waits wait => exact .waits wait
  | meets meet => exact meet.preceded

theorem meet_enter (scenario : Scenario) :
    scenario.Meet [] []
      ((Preprocessor.ofEnvironment scenario.options scenario.environment).enter scenario.main)
      ((Preprocessor.ofEnvironment scenario.options scenario.environment).enter scenario.main) :=
  ⟨.enter _ _ _ _, rfl, rfl, .start, .start⟩

theorem Fails.followed {failed : Preprocessor × RunResult} (fails : scenario.Fails missed failed) :
    scenario.Followed missed failed := by
  induction fails with
  | start => exact scenario.meet_enter.followed
  | answer _ ih =>
    cases ih with
    | waits wait => exact wait.answer.followed
    | ahead same pending meet =>
      rw [resume_failing pending same]
      exact meet.followed

theorem Finds.preceded {found : Preprocessor × RunResult} (finds : scenario.Finds empty found) :
    scenario.Preceded empty found := by
  induction finds with
  | start => exact scenario.meet_enter.preceded
  | answer _ ih =>
    cases ih with
    | waits wait => exact wait.answer.preceded

/-- A failing conversation has an answer to every request for the target that is a failure. -/
theorem Fails.answer_eq {failed : Preprocessor × RunResult} (fails : scenario.Fails missed failed) :
    ∀ exchange ∈ missed, exchange.request.target = scenario.target →
      ∃ failure, exchange.answer = .failed failure := by
  induction fails with
  | start => exact List.forall_mem_nil _
  | answer _ ih =>
    refine List.forall_mem_append.2 ⟨ih, List.forall_mem_singleton.2 fun same => ?_⟩
    exact ⟨_, if_pos same⟩

/-- A failed include leaves nothing behind but its report.  Wherever the conversation in which a
target fails stops without asking for the target, the one in which the target is found empty stops
as well and the two agree; and wherever that one stops, the failing one does and they agree.  Every
failed request for the target is reported as an error at the line of its include. -/
theorem agree_of_conversation (scenario : Scenario) :
    (∀ missed failed, scenario.Fails missed failed →
      (∀ request, failed.2.request? = some request → request.target ≠ scenario.target) →
      ∃ empty found, scenario.Finds empty found ∧ scenario.Agree missed empty failed found) ∧
    (∀ empty found, scenario.Finds empty found →
      ∃ missed failed, scenario.Fails missed failed ∧ scenario.Agree missed empty failed found) ∧
    ∀ missed failed, scenario.Fails missed failed →
      ∀ exchange ∈ missed, exchange.request.target = scenario.target →
        exchange.IsReported scenario.target (scenario.main :: (produced failed).units) := by
  refine ⟨?_, ?_, ?_⟩
  · intro missed failed fails otherwise
    cases fails.followed with
    | waits wait => exact ⟨_, _, wait.finds, wait.agree⟩
    | ahead same => exact absurd same (otherwise _ rfl)
    | finished finds agree => exact ⟨_, _, finds, agree⟩
  · intro empty found finds
    cases finds.preceded with
    | waits wait => exact ⟨_, _, wait.fails, wait.agree⟩
    | finished fails agree => exact ⟨_, _, fails, agree⟩
  · intro missed failed fails exchange member same
    have places := Conversation.standsIn fails
    rcases fails.answer_eq exchange member same with ⟨failure, answer⟩
    exact Exchange.isReported_of_failed same answer (places.1 exchange member)

/-- A target that is included twice, with a line between the includes that is copied and reported:
first the target is not found, and then it cannot be fetched. -/
theorem agree_of_conversation_twice :
    ∃ (scenario : Scenario) (missed : List Exchange) (stopped : Preprocessor) (output : RunOutput),
      scenario.main.text = "#include <t>\n#note\n#include <t>\n".toList ∧
      scenario.target = ['t'] ∧ scenario.Fails missed (stopped, .finished output) ∧
      failureReports scenario.target missed =
        [(Problem.includeFailure (.notFound ['t'])).diagnosticAt ⟨['m'], 1⟩,
          (Problem.includeFailure (.fetchFailed ['t'] "late".toList)).diagnosticAt ⟨['m'], 3⟩] ∧
      output.expanded = "#note\n".toList ∧
      ∃ empty found, scenario.Finds empty found ∧
        scenario.Agree missed empty (stopped, .finished output) found := by
  let main : SourceUnit := ⟨['m'], "#include <t>\n#note\n#include <t>\n".toList, none⟩
  let notFound : IncludeFailure := .notFound ['t']
  let late : IncludeFailure := .fetchFailed ['t'] "late".toList
  let scenario : Scenario :=
    ⟨{}, .bare, main, ['t'], none, fun exchanges => if exchanges = [] then notFound else late,
      fun _ => .pending⟩
  have steps : ∃ first second next last request again,
      ((Preprocessor.ofEnvironment {} .bare).enter main).step = .pause first request ∧
      request = ⟨['t'], none, ['m'], none, 1⟩ ∧
      (first.fail request notFound).step = .next next ∧ next.step = .pause second again ∧
      again = ⟨['t'], none, ['m'], none, 3⟩ ∧
      (second.fail again late).step = .next last ∧ last.step = .finish ∧
      last.output.expanded = "#note\n".toList :=
    ⟨_, _, _, _, _, _, rfl, rfl, rfl, rfl, rfl, rfl, rfl, rfl⟩
  rcases steps with ⟨first, second, next, last, request, again, pauses, asked, toNext,
    pausesAgain, askedAgain, toLast, ends, expanded⟩
  have target : request.target = scenario.target := congrArg IncludeRequest.target asked
  have sameTarget : again.target = scenario.target := congrArg IncludeRequest.target askedAgain
  have opened : scenario.Fails [] (first, .paused request) :=
    Preprocessor.run_of_pause pauses ▸ Conversation.start
  have reopened : scenario.Fails ([] ++ [⟨request, .failed notFound⟩]) (second, .paused again) := by
    have answered := opened.answer
    have fails : scenario.failing [] request = .failed notFound := if_pos target
    have ran := (Preprocessor.run_of_next toNext).trans (Preprocessor.run_of_pause pausesAgain)
    rw [resume_failing (Preprocessor.asks_of_step pauses).pending target, fails] at answered
    exact ran ▸ answered
  have closed : scenario.Fails ([] ++ [⟨request, .failed notFound⟩] ++ [⟨again, .failed late⟩])
      (last.withoutOutput, .finished last.output) := by
    have answered := reopened.answer
    have fails : scenario.failing [⟨request, .failed notFound⟩] again = .failed late :=
      if_pos sameTarget
    have ran := (Preprocessor.run_of_next toLast).trans (Preprocessor.run_of_finish ends)
    rw [resume_failing (Preprocessor.asks_of_step pausesAgain).pending sameTarget] at answered
    exact ran ▸ fails ▸ answered
  rcases scenario.agree_of_conversation.1 _ _ closed nofun with ⟨empty, found, finds, agree⟩
  refine ⟨scenario, _, _, _, rfl, rfl, closed, ?_, expanded, empty, found, finds, agree⟩
  rw [failureReports_push_failed _ sameTarget, failureReports_push_failed _ target, asked,
    askedAgain]
  rfl

end Scenario

end ScriptPreprocessor
