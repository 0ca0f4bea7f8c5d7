import ScriptPreprocessor.Proofs.Run.Insertions
import ScriptPreprocessor.Proofs.Run.Splices
import ScriptPreprocessor.Proofs.Session.Calls

namespace ScriptPreprocessor

/-!
# Which unit a directive brings

The first directive that names a unit brings what is found for its own request: the name, the search
path that is set on the line, and the place of the unit that holds the line.  The unit is then kept
under its name alone.  Every later directive with the same name brings the same unit, wherever it
stands and whatever would be found for its own request by then.

The splices of a session are written down beside its steps, each with the line of its directive and
with the sources that were at hand when the line was read and when the unit came
(`Session.Unfolds`).  An entry is read off the stack: it is the frame that has come on top.  The
insertions of a run are right whatever it is answered (`Preprocessor.Inserts`); here the answers are
what the sources hold.
-/

/-- What a request comes to when it is looked up in some sources and, if that starts a fetch, the
fetch is settled by later ones. -/
def IncludeSources.answerTo (asked settling : IncludeSources) (request : IncludeRequest) :
    IncludeOutcome :=
  match (asked.resolve request).1 with
  | .settled outcome => outcome
  | .started fetch => (settling.settle fetch).1

/-- A unit that has come onto the stack. -/
structure Splice where
  /-- The line of the directive. -/
  reading : Reading
  target : Text
  /-- The sources at hand when the line was read. -/
  asked : IncludeSources
  /-- The sources at hand when the unit came. -/
  settling : IncludeSources
  unit : SourceUnit

namespace Splice

/-- The splice that has taken place on a line between two states, if the stack has grown. -/
def between (before after : Preprocessor) (reading : Option Reading)
    (asked settling : IncludeSources) : List Splice :=
  match reading, after.frames with
  | some reading, frame :: _ =>
    if before.frames.length < after.frames.length then
      [⟨reading, frame.key, asked, settling, frame.unit⟩]
    else []
  | _, _ => []

/-- The unit is the one that is found for the directive itself, with its last line ended. -/
def IsOwn (splice : Splice) : Prop :=
  ∃ unit, splice.asked.answerTo splice.settling (splice.reading.request splice.target) = .ok unit ∧
    splice.unit = unit.withFinalNewline

/-- A splice behind earlier ones: the first with its name has its own unit, and any other has the
unit of those before. -/
structure IsRight (earlier : List Splice) (splice : Splice) : Prop where
  named : splice.reading.effect.target = some splice.target
  first : (∀ other ∈ earlier, other.target ≠ splice.target) → splice.IsOwn
  again : ∀ other ∈ earlier, other.target = splice.target → splice.unit = other.unit

end Splice

/-! ## Sessions step by step -/

namespace Session

/-- Where a session stands between two steps. -/
inductive Stage where
  /-- The run goes on. -/
  | running (sources : IncludeSources)
  /-- A fetch was started for a line, with some sources at hand then and others now. -/
  | waiting (reading : Reading) (asked : IncludeSources) (fetch : Fetch) (sources : IncludeSources)
  | ended

/-- How a session unfolds with the sources that are brought to it, one for its start and one for
every call, and what is spliced on the way. -/
inductive Unfolds (options : RunOptions) (environment : Environment) (main : SourceUnit) :
    List IncludeSources → List Splice → Stage → Preprocessor → Prop
  | start (sources : IncludeSources) :
      Unfolds options environment main [sources] [] (.running sources)
        (opening options environment main)
  | next {brought : List IncludeSources} {splices : List Splice} {sources : IncludeSources}
      {preprocessor next : Preprocessor}
      (earlier : Unfolds options environment main brought splices (.running sources) preprocessor)
      (stepped : preprocessor.step = .next next) :
      Unfolds options environment main brought
        (splices ++ Splice.between preprocessor next preprocessor.reading? sources sources)
        (.running sources) next
  | settled {brought : List IncludeSources} {splices : List Splice}
      {sources after : IncludeSources} {preprocessor paused : Preprocessor}
      {request : IncludeRequest} {outcome : IncludeOutcome}
      (earlier : Unfolds options environment main brought splices (.running sources) preprocessor)
      (stepped : preprocessor.step = .pause paused request)
      (resolved : sources.resolve request = (.settled outcome, after)) :
      Unfolds options environment main brought
        (splices ++ Splice.between paused (paused.answered request outcome) preprocessor.reading?
          sources sources)
        (.running after) (paused.answered request outcome)
  | started {brought : List IncludeSources} {splices : List Splice}
      {sources fetching : IncludeSources} {preprocessor paused : Preprocessor}
      {request : IncludeRequest} {reading : Reading} {fetch : Fetch}
      (earlier : Unfolds options environment main brought splices (.running sources) preprocessor)
      (stepped : preprocessor.step = .pause paused request)
      (read : preprocessor.reading? = some reading)
      (resolved : sources.resolve request = (.started fetch, fetching)) :
      Unfolds options environment main brought splices (.waiting reading sources fetch fetching)
        paused
  | fetched {brought : List IncludeSources} {splices : List Splice}
      {asked sources after : IncludeSources} {preprocessor : Preprocessor} {reading : Reading}
      {request : IncludeRequest} {fetch : Fetch} {outcome : IncludeOutcome}
      (earlier : Unfolds options environment main brought splices
        (.waiting reading asked fetch sources) preprocessor)
      (pending : preprocessor.pending = some request)
      (settled : sources.settle fetch = (outcome, after)) :
      Unfolds options environment main brought
        (splices ++ Splice.between preprocessor (preprocessor.answered request outcome)
          (some reading) asked sources)
        (.running after) (preprocessor.answered request outcome)
  | finish {brought : List IncludeSources} {splices : List Splice} {sources : IncludeSources}
      {preprocessor : Preprocessor}
      (earlier : Unfolds options environment main brought splices (.running sources) preprocessor)
      (stepped : preprocessor.step = .finish) :
      Unfolds options environment main brought splices .ended preprocessor
  /-- A call brings other sources to a session that waits. -/
  | bring {brought : List IncludeSources} {splices : List Splice}
      {asked earlierSources : IncludeSources} {preprocessor : Preprocessor} {reading : Reading}
      {fetch : Fetch}
      (earlier : Unfolds options environment main brought splices
        (.waiting reading asked fetch earlierSources) preprocessor)
      (sources : IncludeSources) :
      Unfolds options environment main (brought ++ [sources]) splices
        (.waiting reading asked fetch sources) preprocessor
  /-- A call to a finished session looks nothing up. -/
  | rest {brought : List IncludeSources} {splices : List Splice} {preprocessor : Preprocessor}
      (earlier : Unfolds options environment main brought splices .ended preprocessor)
      (sources : IncludeSources) :
      Unfolds options environment main (brought ++ [sources]) splices .ended preprocessor

variable {options : RunOptions} {environment : Environment} {main : SourceUnit}
  {brought : List IncludeSources} {splices : List Splice} {stage : Stage}
  {preprocessor next paused : Preprocessor} {sources : IncludeSources} {request : IncludeRequest}

/-! ## Splices and insertions -/

theorem between_eq_map (before after : Preprocessor) (reading : Option Reading)
    (exchange : Option Exchange) (asked settling : IncludeSources) :
    Splice.between before after reading asked settling =
      (Insertion.between before after reading exchange).map fun insertion =>
        ⟨insertion.reading, insertion.target, asked, settling, insertion.unit⟩ := by
  unfold Splice.between Insertion.between
  cases reading with
  | none => rfl
  | some reading =>
    cases after.frames with
    | nil => rfl
    | cons frame below =>
      by_cases grown : before.frames.length < (frame :: below).length
      · simp only [if_pos grown, List.map_cons, List.map_nil]
      · simp only [if_neg grown, List.map_nil]

/-- A splice tells of an insertion.  What was answered for the directive, if it was a unit, is what
is found for the request in the sources of the splice. -/
structure TellsOf (splice : Splice) (insertion : Insertion) : Prop where
  reading : splice.reading = insertion.reading
  target : splice.target = insertion.target
  unit : splice.unit = insertion.unit
  found : ∀ request unit, insertion.exchange = some ⟨request, .resolved unit⟩ →
    splice.asked.answerTo splice.settling request = .ok unit

/-- Splices tell of insertions, one by one. -/
def TellOf (splices : List Splice) (insertions : List Insertion) : Prop :=
  ∃ pairs : List (Splice × Insertion), splices = pairs.map Prod.fst ∧
    insertions = pairs.map Prod.snd ∧ ∀ pair ∈ pairs, TellsOf pair.1 pair.2

theorem TellOf.append {insertions : List Insertion} (tell : TellOf splices insertions)
    (before after : Preprocessor) (reading : Option Reading) (exchange : Option Exchange)
    {asked settling : IncludeSources}
    (found : ∀ request unit, exchange = some ⟨request, .resolved unit⟩ →
      asked.answerTo settling request = .ok unit) :
    TellOf (splices ++ Splice.between before after reading asked settling)
      (insertions ++ Insertion.between before after reading exchange) := by
  rcases tell with ⟨pairs, rfl, rfl, tells⟩
  refine ⟨pairs ++ (Insertion.between before after reading exchange).map fun insertion =>
    (⟨insertion.reading, insertion.target, asked, settling, insertion.unit⟩, insertion), ?_, ?_, ?_⟩
  · rw [between_eq_map before after reading exchange, List.map_append, List.map_map]
    rfl
  · rw [List.map_append, List.map_map]
    exact congrArg _ (List.map_id _).symm
  · refine List.forall_mem_append.2 ⟨tells, List.forall_mem_map.2 fun insertion member => ?_⟩
    refine ⟨rfl, rfl, rfl, fun request unit given => found request unit ?_⟩
    rw [← given, Insertion.exchange_of_mem_between member]

/-- Splices that tell of right insertions are right. -/
theorem TellOf.right {insertions : List Insertion} (tell : TellOf splices insertions)
    (right : ∀ earlier insertion later,
      insertions = earlier ++ insertion :: later → insertion.IsRight earlier) :
    ∀ earlier splice later, splices = earlier ++ splice :: later → splice.IsRight earlier := by
  rcases tell with ⟨pairs, rfl, rfl, tells⟩
  intro earlier splice later shape
  rcases List.map_eq_append_iff.1 shape with ⟨before, rest, rfl, rfl, behind⟩
  rcases List.map_eq_cons_iff.1 behind with ⟨⟨splice, insertion⟩, after, rfl, rfl, rfl⟩
  have isRight := right (before.map Prod.snd) insertion (after.map Prod.snd) (by simp)
  rcases List.forall_mem_append.1 tells with ⟨tellBefore, tellRest⟩
  have tell := (List.forall_mem_cons.1 tellRest).1
  refine ⟨?_, fun fresh => ?_, List.forall_mem_map.2 fun pair member same => ?_⟩
  · rw [tell.reading, tell.target]
    exact isRight.named
  · have new : ∀ other ∈ before.map Prod.snd, other.target ≠ insertion.target := by
      refine List.forall_mem_map.2 fun pair member => ?_
      rw [← (tellBefore pair member).target, ← tell.target]
      exact fresh pair.1 (List.mem_map_of_mem member)
    rcases isRight.first new with ⟨unit, given, brought⟩
    refine ⟨unit, ?_, tell.unit.trans brought⟩
    rw [tell.reading, tell.target]
    exact tell.found _ unit given
  · have brought := tellBefore pair member
    rw [brought.target, tell.target] at same
    rw [brought.unit, tell.unit]
    exact (isRight.again pair.2 (List.mem_map_of_mem member) same).2

theorem answerTo_of_settled {after : IncludeSources} {outcome : IncludeOutcome}
    (resolved : sources.resolve request = (.settled outcome, after)) (settling : IncludeSources) :
    sources.answerTo settling request = outcome := by
  unfold IncludeSources.answerTo
  rw [resolved]

theorem answerTo_of_started {fetch : Fetch} (settling : IncludeSources)
    (resolved : (sources.resolve request).1 = .started fetch) :
    sources.answerTo settling request = (settling.settle fetch).1 := by
  unfold IncludeSources.answerTo
  rw [resolved]

/-! ## The splices of a session -/

/-- The line whose request is open at a stage. -/
def Stage.reading? : Stage → Option Reading
  | .running _ | .ended => none
  | .waiting reading _ _ _ => some reading

/-- A session that waits has looked its request up in the sources of the time. -/
def Stage.HasAsked (preprocessor : Preprocessor) : Stage → Prop
  | .waiting _ asked fetch _ => ∀ request, preprocessor.pending = some request →
    (asked.resolve request).1 = .started fetch
  | .running _ | .ended => True

/-- A session unfolds as its run goes on with the answers that are found. -/
theorem Unfolds.inserts
    (unfolds : Unfolds options environment main brought splices stage preprocessor) :
    stage.HasAsked preprocessor ∧ ∃ exchanges insertions,
      Preprocessor.Inserts options environment main exchanges insertions stage.reading?
        preprocessor ∧
      TellOf splices insertions := by
  induction unfolds with
  | start sources => exact ⟨trivial, [], [], .start, [], rfl, rfl, List.forall_mem_nil _⟩
  | next earlier stepped ih =>
    rcases ih with ⟨_, exchanges, insertions, inserts, tell⟩
    exact ⟨trivial, _, _, inserts.next stepped, tell.append _ _ _ _ nofun⟩
  | settled earlier stepped resolved ih =>
    rcases ih with ⟨_, exchanges, insertions, inserts, tell⟩
    rcases Preprocessor.isAskedBy_of_pause inserts.tracks.awaits stepped with ⟨reading, read, _⟩
    have waits := inserts.pause stepped
    rw [read] at waits ⊢
    have pending := (Preprocessor.asks_of_step stepped).pending
    refine ⟨trivial, _, _, waits.answer pending _, tell.append _ _ _ _ ?_⟩
    intro asked unit given
    rw [Option.some.injEq, Exchange.mk.injEq] at given
    rw [← given.1, answerTo_of_settled resolved]
    exact IncludeAnswer.ofOutcome_eq_resolved_iff.1 given.2
  | started earlier stepped read resolved ih =>
    rcases ih with ⟨_, exchanges, insertions, inserts, tell⟩
    have waits := inserts.pause stepped
    rw [read] at waits
    refine ⟨fun request pending => ?_, _, _, waits, tell⟩
    cases (Preprocessor.asks_of_step stepped).pending.symm.trans pending
    rw [resolved]
  | fetched earlier pending settled ih =>
    rcases ih with ⟨asked, exchanges, insertions, inserts, tell⟩
    refine ⟨trivial, _, _, inserts.answer pending _, tell.append _ _ _ _ ?_⟩
    intro request unit given
    rw [Option.some.injEq, Exchange.mk.injEq] at given
    rw [← given.1, answerTo_of_started _ (asked _ pending), settled]
    exact IncludeAnswer.ofOutcome_eq_resolved_iff.1 given.2
  | finish earlier stepped ih => exact ⟨trivial, ih.2⟩
  | bring earlier sources ih => exact ih
  | rest earlier sources ih => exact ih

theorem Unfolds.right
    (unfolds : Unfolds options environment main brought splices stage preprocessor) :
    ∀ earlier splice later, splices = earlier ++ splice :: later → splice.IsRight earlier := by
  rcases unfolds.inserts.2 with ⟨exchanges, insertions, inserts, tell⟩
  exact tell.right inserts.tracks.right

/-- What a session awaits at a stage. -/
theorem Unfolds.awaits
    (unfolds : Unfolds options environment main brought splices stage preprocessor) :
    preprocessor.Awaits stage.reading? := by
  rcases unfolds.inserts.2 with ⟨exchanges, insertions, inserts, _⟩
  exact inserts.tracks.awaits

/-! ## Calls -/

/-- A session stands where it unfolds to, with the sources that were brought to it. -/
structure Shows (options : RunOptions) (environment : Environment) (main : SourceUnit)
    (brought : List IncludeSources) (splices : List Splice) (session : Session) : Prop where
  source : session.source = main
  waiting : ∀ fetch, session.phase = .waiting fetch → ∃ reading asked sources,
    Unfolds options environment main brought splices (.waiting reading asked fetch sources)
      session.preprocessor
  done : ∀ output, session.phase = .done output → ∃ last,
    Unfolds options environment main brought splices .ended last ∧ last.output.Grows output

/-- What a run has come to is reached by a session that unfolds to where the run began. -/
theorem Unfolds.run {stopped : Preprocessor} {result : RunResult}
    (unfolds : Unfolds options environment main brought splices (.running sources) preprocessor)
    (ran : preprocessor.run = (stopped, result)) :
    ∃ splices last, Unfolds options environment main brought splices (.running sources) last ∧
      ((∃ request, result = .paused request ∧ last.step = .pause stopped request) ∨
        result = .finished last.output ∧ last.step = .finish) := by
  fun_induction Preprocessor.run preprocessor generalizing splices with
  | case1 preprocessor next stepped ih => exact ih (unfolds.next stepped) ran
  | case2 preprocessor paused request stepped =>
    cases ran
    exact ⟨splices, preprocessor, unfolds, Or.inl ⟨request, rfl, stepped⟩⟩
  | case3 preprocessor stepped =>
    cases ran
    exact ⟨splices, preprocessor, unfolds, Or.inr ⟨rfl, stepped⟩⟩

theorem shows_drive {patient : Bool}
    (unfolds : Unfolds options environment main brought splices (.running sources) preprocessor) :
    ∃ splices, Shows options environment main brought splices
      (drive patient main sources preprocessor).1 := by
  fun_induction drive patient main sources preprocessor generalizing splices with
  | case1 sources preprocessor stopped output ran =>
    rcases unfolds.run ran with ⟨splices, last, reached, ⟨request, impossible, _⟩ | ⟨same, ended⟩⟩
    · cases impossible
    · cases same
      refine ⟨splices, rfl, ?_, ?_⟩
      · intro fetch impossible
        cases impossible
      · rintro _ ⟨⟩
        exact ⟨last, reached.finish ended, .refl _⟩
  | case2 sources preprocessor paused request ran outcome after resolved ih =>
    rcases unfolds.run ran with ⟨splices, last, reached, ⟨_, same, stepped⟩ | ⟨impossible, _⟩⟩
    · cases same
      exact ih (reached.settled stepped resolved)
    · cases impossible
  | case3 sources preprocessor paused request ran fetch fetching resolved _ outcome after settled
      ih =>
    rcases unfolds.run ran with ⟨splices, last, reached, ⟨_, same, stepped⟩ | ⟨impossible, _⟩⟩
    · cases same
      have pending := (Preprocessor.asks_of_step stepped).pending
      rcases Preprocessor.isAskedBy_of_pause reached.awaits stepped with ⟨reading, read, _⟩
      exact ih ((reached.started stepped read resolved).fetched pending settled)
    · cases impossible
  | case4 sources preprocessor paused request ran fetch fetching resolved =>
    rcases unfolds.run ran with ⟨splices, last, reached, ⟨_, same, stepped⟩ | ⟨impossible, _⟩⟩
    · cases same
      rcases Preprocessor.isAskedBy_of_pause reached.awaits stepped with ⟨reading, read, _⟩
      refine ⟨splices, rfl, ?_, ?_⟩
      · rintro _ ⟨⟩
        exact ⟨reading, sources, fetching, reached.started stepped read resolved⟩
      · intro output impossible
        cases impossible
    · cases impossible

variable {session : Session}

/-- Calls bring their sources, whether they are used or not. -/
theorem Shows.bring (shows : Shows options environment main brought splices session)
    (sources : IncludeSources) :
    Shows options environment main (brought ++ [sources]) splices session := by
  refine ⟨shows.source, ?_, ?_⟩
  · intro fetch phase
    rcases shows.waiting fetch phase with ⟨reading, asked, held, unfolds⟩
    exact ⟨reading, asked, sources, unfolds.bring sources⟩
  · intro output phase
    rcases shows.done output phase with ⟨last, unfolds, grows⟩
    exact ⟨last, unfolds.rest sources, grows⟩

theorem Shows.fetched (shows : Shows options environment main brought splices session)
    {fetch : Fetch} (phase : session.phase = .waiting fetch) (patient : Bool)
    {after : IncludeSources} {outcome : IncludeOutcome}
    (settled : sources.settle fetch = (outcome, after)) :
    ∃ splices, Shows options environment main (brought ++ [sources]) splices
      (drive patient session.source after (answerPending session.preprocessor outcome)).1 := by
  rcases shows.waiting fetch phase with ⟨reading, asked, held, unfolds⟩
  rcases unfolds.awaits with ⟨request, pending, _⟩
  rw [shows.source, answerPending_of_pending pending]
  exact shows_drive ((unfolds.bring sources).fetched pending settled)

theorem Shows.afterCall (shows : Shows options environment main brought splices session)
    (sources : IncludeSources) (call : SessionCall) :
    ∃ splices, Shows options environment main (brought ++ [sources]) splices
      (session.afterCall sources call) := by
  have unchanged := shows.bring sources
  have called := session.callsTo_afterCall sources call
  generalize session.afterCall sources call = next, session.handed sources call = handed
    at called ⊢
  cases called with
  | same => exact ⟨splices, unchanged⟩
  | settle patient phase settled => exact shows.fetched phase patient settled
  | record phase grows =>
    rcases unchanged.done _ phase with ⟨last, unfolds, before⟩
    refine ⟨splices, shows.source, (fun _ impossible => nomatch impossible), ?_⟩
    rintro _ ⟨⟩
    exact ⟨last, unfolds, before.trans grows⟩

theorem Shows.afterCalls (shows : Shows options environment main brought splices session)
    (calls : List (IncludeSources × SessionCall)) :
    ∃ splices, Shows options environment main (brought ++ calls.map Prod.fst) splices
      (session.afterCalls calls) := by
  induction calls generalizing session brought splices with
  | nil =>
    rw [List.map_nil, List.append_nil]
    exact ⟨splices, shows⟩
  | cons head later ih =>
    rcases shows.afterCall head.1 head.2 with ⟨splices, shows⟩
    have further := ih shows
    rwa [List.append_assoc] at further

theorem Shows.right (shows : Shows options environment main brought splices session) :
    ∀ earlier splice later, splices = earlier ++ splice :: later → splice.IsRight earlier := by
  cases phase : session.phase with
  | waiting fetch =>
    rcases shows.waiting fetch phase with ⟨reading, asked, sources, unfolds⟩
    exact unfolds.right
  | done output =>
    rcases shows.done output phase with ⟨last, unfolds, _⟩
    exact unfolds.right

/-- Whatever is called and whatever sources are brought, a session unfolds, and however it does, a
directive that is the first to bring a unit of its name brings the one that is found for its own
request, and any other brings the same unit as the first. -/
theorem splices_of_calls (options : RunOptions) (environment : Environment) (main : SourceUnit)
    (sources : IncludeSources) (calls : List (IncludeSources × SessionCall)) :
    let session := (start sources options environment main).1.afterCalls calls
    (∃ splices, Shows options environment main (sources :: calls.map Prod.fst) splices session) ∧
      ∀ splices, Shows options environment main (sources :: calls.map Prod.fst) splices session →
        ∀ earlier splice later, splices = earlier ++ splice :: later → splice.IsRight earlier := by
  have started : ∃ splices, Shows options environment main [sources] splices
      (start sources options environment main).1 := shows_drive (Unfolds.start sources)
  rcases started with ⟨splices, shows⟩
  exact ⟨shows.afterCalls calls, fun splices shows => shows.right⟩

theorem Unfolds.brought_ne_nil
    (unfolds : Unfolds options environment main brought splices stage preprocessor) :
    brought ≠ [] := by
  induction unfolds with
  | start sources => exact List.cons_ne_nil _ _
  | bring | rest => exact List.append_ne_nil_of_right_ne_nil _ (List.cons_ne_nil _ _)
  | _ => assumption

/-- The phase that a session comes to from a stage when it waits for every fetch. -/
def Stage.comesTo (main : SourceUnit) : Stage → Preprocessor → SessionPhase
  | .running sources, preprocessor => (drive true main sources preprocessor).1.phase
  | .waiting _ _ fetch sources, preprocessor =>
    (drive true main (sources.settle fetch).2
      (answerPending preprocessor (sources.settle fetch).1)).1.phase
  | .ended, preprocessor => .done preprocessor.output

/-- A session to which nothing is brought behind its start unfolds as it does when it waits for
every fetch. -/
theorem Unfolds.comesTo_eq
    (unfolds : Unfolds options environment main brought splices stage preprocessor)
    (once : brought = [sources]) :
    stage.comesTo main preprocessor =
      (drive true main sources (opening options environment main)).1.phase := by
  induction unfolds with
  | start =>
    cases once
    rfl
  | next earlier stepped ih =>
    rw [← ih once]
    exact congrArg (fun driven => driven.1.phase)
      (drive_congr (Preprocessor.run_of_next stepped)).symm
  | settled earlier stepped resolved ih =>
    rw [← ih once]
    exact congrArg (fun driven => driven.1.phase)
      (drive_of_settled (Preprocessor.run_of_pause stepped) resolved).symm
  | started earlier stepped read resolved ih =>
    rw [← ih once]
    have pending := (Preprocessor.asks_of_step stepped).pending
    simp only [Stage.comesTo, answerPending_of_pending pending]
    rw [drive_of_started (Preprocessor.run_of_pause stepped) resolved, if_pos rfl]
  | fetched earlier pending settled ih =>
    rw [← ih once]
    simp only [Stage.comesTo, answerPending_of_pending pending, settled]
  | finish earlier stepped ih =>
    rw [← ih once]
    exact congrArg (fun driven => driven.1.phase)
      (drive_of_finished (Preprocessor.run_of_finish stepped)).symm
  | bring earlier | rest earlier =>
    exact absurd (List.append_eq_singleton_iff.1 once) (by simp [earlier.brought_ne_nil])

/-- Files in two directories that include a unit under the same name; each has one beside it. -/
def twinSources : IncludeSources :=
  { files := .ofEntries [
      ("./a/x".toList, .contents [35, 105, 110, 99, 108, 117, 100, 101, 32, 34, 117, 34, 10]),
      ("./b/y".toList, .contents [35, 105, 110, 99, 108, 117, 100, 101, 32, 34, 117, 34, 10]),
      ("./a/u".toList, .contents [65, 10]), ("./b/u".toList, .contents [66, 10])] }

def twinMain : SourceUnit :=
  ⟨"m".toList, "#include \"a/x\"\n#include \"b/y\"\n".toList, none⟩

theorem unfolds_twin : ∃ splices sources preprocessor,
    Unfolds { includeMode := .always } .bare twinMain [twinSources] splices (.running sources)
      preprocessor ∧
    (∃ splice ∈ splices, splice.unit.text = "A\n".toList ∧
      ∃ unit, splice.asked.answerTo splice.settling (splice.reading.request splice.target) =
        .ok unit ∧ unit.text = "B\n".toList) ∧
    ∃ more last,
      Unfolds { includeMode := .always } .bare twinMain [twinSources] more .ended last ∧
        splices ⊆ more := by
  have begun : Unfolds { includeMode := .always } .bare twinMain [twinSources] _ _ _ :=
    Unfolds.start twinSources
  have inX := begun.settled rfl rfl
  have inU := inX.settled rfl rfl
  have afterA := inU.next rfl
  have behindU := afterA.next rfl
  have behindX := behindU.next rfl
  have inY := behindX.settled rfl rfl
  have again := inY.next rfl
  have afterAgain := again.next rfl
  have backInY := afterAgain.next rfl
  have backInMain := backInY.next rfl
  have ended := (backInMain.next rfl).finish rfl
  refine ⟨_, _, _, again, ?_, _, _, ended, ?_⟩
  · exact ⟨_, List.mem_append_right _ (List.mem_singleton.2 rfl), rfl, _, rfl, rfl⟩
  · intro splice member
    iterate 4 apply List.mem_append_left
    exact member

/-- The second file brings the unit beside the first one, though the one beside itself is found for
its own request. -/
theorem not_own_twin :
    ∃ calls splices, Shows { includeMode := .always } .bare twinMain
        (twinSources :: calls.map Prod.fst) splices
        ((start twinSources { includeMode := .always } .bare twinMain).1.afterCalls calls) ∧
      ∃ splice ∈ splices, ¬ splice.IsOwn := by
  rcases unfolds_twin with ⟨_, _, _, _, ⟨splice, member, put, own, found, text⟩, splices, last,
    ended, contained⟩
  have phase : (completed twinSources { includeMode := .always } .bare twinMain).phase =
      .done last.output := by
    unfold completed start
    rw [wait_drive]
    exact (ended.comesTo_eq rfl).symm
  refine ⟨[((start twinSources { includeMode := .always } .bare twinMain).2, .wait)], splices,
    ⟨?_, ?_, ?_⟩, splice, contained member, ?_⟩
  · exact (isRunOf_of_reached (reached_completed twinSources _ _ _)).source
  · intro fetch waiting
    exact absurd (phase.symm.trans waiting) (by simp)
  · intro output done
    cases phase.symm.trans done
    exact ⟨last, ended.rest _, .refl _⟩
  · rintro ⟨unit, given, same⟩
    cases found.symm.trans given
    have texts := congrArg SourceUnit.text same
    rw [put] at texts
    simp only [SourceUnit.withFinalNewline, text] at texts
    revert texts
    decide

end Session

end ScriptPreprocessor
