import ScriptPreprocessor.Proofs.Include.Library
import ScriptPreprocessor.Proofs.Session.Calls

namespace ScriptPreprocessor

/-!
# Schedules

Between the start and the end of a session, turns are taken: the session is polled or waited for,
and the fetches that were started are carried out, in any order and as often as one likes.  What is
cached at the start, and what comes to be cached on the way, decides at which includes the session
stops.  None of it shows in the output (`Session.output_afterTurns`).

The proof compares every schedule with a run that never stops, in which a library answers each
request on the spot (`IncludeLibrary.Yields`).  A session is under way to the output of that run: it
has the output, or it waits for an outcome that is promised and leads there.
-/

/-- What can happen next to a session and to the sources that it looks up in. -/
inductive Turn where
  | poll
  /-- The fetches that were started are carried out. -/
  | tick
  | wait

/-! ## Answers on the spot -/

namespace IncludeLibrary

variable {library : IncludeLibrary} {sources : IncludeSources}

/-- The output of a run when a library answers each of its requests. -/
inductive Yields (library : IncludeLibrary) : Preprocessor → RunOutput → Prop
  | finished {preprocessor stopped : Preprocessor} {output : RunOutput}
      (ran : preprocessor.run = (stopped, .finished output)) : Yields library preprocessor output
  | paused {preprocessor paused : Preprocessor} {request : IncludeRequest} {output : RunOutput}
      (ran : preprocessor.run = (paused, .paused request))
      (later : Yields library (paused.answered request (library.outcome request)) output) :
      Yields library preprocessor output

/-- A session has the answer of the library at hand, or it stops for a fetch that promises it. -/
theorem Serves.answer? (serves : library.Serves sources) (patient : Bool)
    (request : IncludeRequest) :
    (∃ after, sources.answer? patient request = some (library.outcome request, after) ∧
      library.Serves after) ∨
    patient = false ∧ ∃ fetch after, sources.resolve request = (.started fetch, after) ∧
      library.Serves after ∧ library.Promises after fetch ∧
      library.itemOutcome fetch.target fetch.item = library.outcome request := by
  unfold IncludeSources.answer?
  rcases serves.resolve request with
    ⟨after, resolved, servesAfter⟩ | ⟨fetch, after, resolved, servesAfter, promised, same⟩
  · left
    rw [resolved]
    exact ⟨after, rfl, servesAfter⟩
  · rw [resolved]
    cases patient with
    | false => exact .inr ⟨rfl, fetch, after, rfl, servesAfter, promised, same⟩
    | true =>
      left
      rcases servesAfter.settle promised with ⟨outcome, servesLater⟩
      refine ⟨(after.settle fetch).2, ?_, servesLater⟩
      rw [← same, ← outcome]
      rfl

/-- A run that is answered from a library comes to its end. -/
theorem exists_yields (serves : library.Serves sources) (preprocessor : Preprocessor) :
    ∃ output, library.Yields preprocessor output := by
  -- The induction is on a patient session: its measure counts the texts of its sources, and the
  -- library by itself has none.
  generalize chosen : true = patient
  fun_induction Session.outcomes patient sources preprocessor with
  | case1 sources preprocessor stopped output ran => exact ⟨output, .finished ran⟩
  | case2 sources preprocessor paused request ran outcome after answer ih =>
    rcases serves.answer? patient request with ⟨_, known, servesAfter⟩ | ⟨impatient, _⟩
    · rw [answer] at known
      cases known
      rcases ih servesAfter with ⟨output, later⟩
      exact ⟨output, .paused ran later⟩
    · cases chosen.trans impatient
  | case3 sources preprocessor paused request ran unanswered =>
    rcases serves.answer? patient request with ⟨_, known, _⟩ | ⟨impatient, _⟩
    · rw [unanswered] at known
      cases known
    · cases chosen.trans impatient

/-- Sources that look up in a library of which nothing is cached yet. -/
def uncached (library : IncludeLibrary) : IncludeSources :=
  { settings := library.settings, files := library.files, store := some ⟨library.catalog, [], 0⟩ }

theorem serves_of_mirrors {store : AssetStore} (mirrors : store.Mirrors library.catalog) :
    library.Serves
      { settings := library.settings, files := library.files, store := some store } := by
  refine ⟨rfl, rfl, ⟨store, rfl, mirrors⟩, rfl, ?_⟩
  intro entry member
  cases member

theorem serves_uncached (library : IncludeLibrary) : library.Serves library.uncached := by
  apply serves_of_mirrors
  refine ⟨rfl, ?_⟩
  intro item bytes held
  cases held

end IncludeLibrary

/-! ## Under way -/

namespace Session

variable {library : IncludeLibrary} {state : Session × IncludeSources} {output : RunOutput}

/-- A session has an output, or it waits for an outcome that is promised and leads there. -/
inductive IsUnderWay (library : IncludeLibrary) (output : RunOutput)
    (state : Session × IncludeSources) : Prop
  | waiting {fetch : Fetch} (phase : state.1.phase = .waiting fetch)
      (serves : library.Serves state.2) (promised : library.Promises state.2 fetch)
      (later : library.Yields (answerPending state.1.preprocessor
        (library.itemOutcome fetch.target fetch.item)) output) :
      IsUnderWay library output state
  | done (phase : state.1.phase = .done output) : IsUnderWay library output state

/-- A session that is driven is under way to what its run yields. -/
theorem isUnderWay_drive {preprocessor : Preprocessor}
    (yields : library.Yields preprocessor output) {sources : IncludeSources}
    (serves : library.Serves sources) (patient : Bool) (source : SourceUnit) :
    IsUnderWay library output (drive patient source sources preprocessor) := by
  induction yields generalizing sources with
  | finished ran =>
    rw [drive_of_finished ran]
    exact .done rfl
  | @paused preprocessor paused request output ran later ih =>
    rcases serves.answer? patient request with
      ⟨after, answer, servesAfter⟩ | ⟨rfl, fetch, after, resolved, servesAfter, promised, same⟩
    · rw [drive_of_answer ran answer]
      exact ih servesAfter
    · rw [drive_of_started ran resolved, if_neg Bool.false_ne_true]
      -- The session stops where the library would have answered, and the fetch will bring the
      -- same answer.
      have asked := (Preprocessor.asks_of_run ran).pending
      apply IsUnderWay.waiting rfl servesAfter promised
      unfold answerPending
      rw [asked, same]
      exact later

/-! ## Turns -/

/-- The session and its sources when a turn has been taken. -/
def afterTurn (state : Session × IncludeSources) : Turn → Session × IncludeSources
  | .poll => state.1.poll state.2
  | .tick => (state.1, state.2.runFetches)
  | .wait => state.1.wait state.2

/-- The session and its sources when some turns have been taken. -/
def afterTurns (state : Session × IncludeSources) (turns : List Turn) :
    Session × IncludeSources :=
  turns.foldl afterTurn state

theorem phase_afterTurn_of_done (done : state.1.phase = .done output) (turn : Turn) :
    (afterTurn state turn).1.phase = .done output := by
  cases turn with
  | poll =>
    change (state.1.poll state.2).1.phase = .done output
    rw [poll_of_done done]
    exact done
  | tick => exact done
  | wait =>
    change (state.1.wait state.2).1.phase = .done output
    rw [wait_of_done done]
    exact done

theorem phase_afterTurns_of_done (done : state.1.phase = .done output) (turns : List Turn) :
    (afterTurns state turns).1.phase = .done output := by
  induction turns generalizing state with
  | nil => exact done
  | cons turn later ih => exact ih (phase_afterTurn_of_done done turn)

theorem IsUnderWay.afterTurn (underWay : IsUnderWay library output state) (turn : Turn) :
    IsUnderWay library output (afterTurn state turn) := by
  cases underWay with
  | done phase => exact .done (phase_afterTurn_of_done phase turn)
  | @waiting fetch phase serves promised later =>
    cases turn with
    | poll =>
      change IsUnderWay library output (state.1.poll state.2)
      cases settled : state.2.settle? fetch with
      | none =>
        rw [poll_of_unsettled phase settled]
        exact .waiting phase serves promised later
      | some pair =>
        rcases serves.settle? promised settled with ⟨same, servesAfter⟩
        rw [← same] at later
        rw [poll_of_settled phase settled]
        exact isUnderWay_drive later servesAfter false state.1.source
    | tick => exact .waiting phase serves.runFetches.1 (promised.runFetches serves) later
    | wait =>
      change IsUnderWay library output (state.1.wait state.2)
      rcases serves.settle promised with ⟨same, servesAfter⟩
      rw [← same] at later
      rw [wait_of_waiting phase]
      exact isUnderWay_drive later servesAfter true state.1.source

theorem IsUnderWay.afterTurns (underWay : IsUnderWay library output state) (turns : List Turn) :
    IsUnderWay library output (afterTurns state turns) := by
  induction turns generalizing state with
  | nil => exact underWay
  | cons turn later ih => exact ih (underWay.afterTurn turn)

theorem IsUnderWay.eq_of_done (underWay : IsUnderWay library output state) {other : RunOutput}
    (done : state.1.phase = .done other) : other = output := by
  cases underWay with
  | waiting phase =>
    rw [phase] at done
    cases done
  | done phase =>
    rw [phase] at done
    cases done
    rfl

/-- A session is finished behind every turn that waits for it. -/
theorem exists_phase_afterTurns (state : Session × IncludeSources) {turns : List Turn}
    (waited : .wait ∈ turns) : ∃ output, (afterTurns state turns).1.phase = .done output := by
  rcases List.append_of_mem waited with ⟨earlier, later, rfl⟩
  rcases exists_phase_wait (afterTurns state earlier).1 (afterTurns state earlier).2 with
    ⟨output, ended⟩
  refine ⟨output, ?_⟩
  rw [afterTurns, List.foldl_append, List.foldl_cons]
  exact phase_afterTurns_of_done ended later

/-- Whatever is cached of a library at the start, and whatever turns are taken, a session that comes
to its end has one and the same output; and it comes to its end when it is waited for. -/
theorem output_afterTurns (library : IncludeLibrary) (options : RunOptions)
    (environment : Environment) (main : SourceUnit) :
    ∃ output, ∀ sources, library.Serves sources → ∀ turns,
      (∀ other,
        (afterTurns (start sources options environment main) turns).1.phase = .done other →
          other = output) ∧
      (.wait ∈ turns →
        (afterTurns (start sources options environment main) turns).1.phase = .done output) := by
  rcases IncludeLibrary.exists_yields library.serves_uncached (opening options environment main)
    with ⟨output, yields⟩
  refine ⟨output, ?_⟩
  intro sources serves turns
  have underWay : IsUnderWay library output (start sources options environment main) :=
    isUnderWay_drive yields serves false main
  constructor
  · intro other ended
    exact (underWay.afterTurns turns).eq_of_done ended
  · intro waited
    rcases exists_phase_afterTurns (start sources options environment main) waited with
      ⟨other, ended⟩
    rw [ended, (underWay.afterTurns turns).eq_of_done ended]

/-- An asset that is cached spares the session its stop, and nothing else. -/
theorem output_afterTurns_cached :
    ∃ (library : IncludeLibrary) (cold warm : IncludeSources) (main : SourceUnit)
      (output : RunOutput),
      library.Serves cold ∧ library.Serves warm ∧
      (start cold {} .bare main).1.pendingTarget? = some ['a'] ∧
      (afterTurns (start cold {} .bare main) [.poll, .tick, .wait]).1.phase = .done output ∧
      (start warm {} .bare main).1.phase = .done output := by
  let assets : List (Text × Bytes) := [("|Scripts|a".toList, [120])]
  let library : IncludeLibrary := ⟨{}, .empty, .table assets []⟩
  let warm : IncludeSources := { store := some ⟨.table assets [], assets, 0⟩ }
  let main : SourceUnit := ⟨"m".toList, "#include \"a\"\n".toList, none⟩
  have servesWarm : library.Serves warm :=
    IncludeLibrary.serves_of_mirrors (AssetStore.mirrors_table (fun _ _ held => held) 0)
  have steps : ∃ paused request fetch fetching outcome after first second third,
      (opening {} .bare main).step = .pause paused request ∧
      library.uncached.resolve request = (.started fetch, fetching) ∧ fetch.target = ['a'] ∧
      warm.resolve request = (.settled outcome, after) ∧
      (paused.answered request outcome).step = .next first ∧ first.step = .next second ∧
      second.step = .next third ∧ third.step = .finish :=
    ⟨_, _, _, _, _, _, _, _, _, rfl, rfl, rfl, rfl, rfl, rfl, rfl, rfl⟩
  rcases steps with ⟨paused, request, fetch, fetching, outcome, after, first, second, third, asks,
    missing, target, found, toFirst, toSecond, toThird, ends⟩
  have stopped : (start library.uncached {} .bare main).1.pendingTarget? = some ['a'] := by
    rw [start_eq, drive_of_started (Preprocessor.run_of_pause asks) missing,
      if_neg Bool.false_ne_true, ← target]
    rfl
  have atOnce : (start warm {} .bare main).1.phase = .done third.output := by
    have ran := (Preprocessor.run_of_next toFirst).trans ((Preprocessor.run_of_next toSecond).trans
      ((Preprocessor.run_of_next toThird).trans (Preprocessor.run_of_finish ends)))
    rw [start_eq, drive_of_settled (Preprocessor.run_of_pause asks) found, drive_of_finished ran]
  rcases output_afterTurns library {} .bare main with ⟨output, everySchedule⟩
  have same : third.output = output := (everySchedule warm servesWarm []).1 _ atOnce
  have servesCold := library.serves_uncached
  have waited := (everySchedule library.uncached servesCold [.poll, .tick, .wait]).2 (by simp)
  rw [same] at atOnce
  exact ⟨library, library.uncached, warm, main, output, servesCold, servesWarm, stopped, waited,
    atOnce⟩

end Session

end ScriptPreprocessor
