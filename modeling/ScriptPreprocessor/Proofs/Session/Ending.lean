import ScriptPreprocessor.Proofs.Run.Conversation
import ScriptPreprocessor.Proofs.Session.History

namespace ScriptPreprocessor

/-!
# The end of a session that waits

A session that waits for every fetch goes on step by step: a line is read or a unit is left, and a
unit that is asked for is looked up at once (`Session.advance`).  Every step lowers what remains to
be done.  That is a pair: the number of names which may still be answered with a unit, and the
potential of the stack.  Both are finite, because the sources hold finitely many texts, each with
finitely many `#include` lines, and because the keys on a stack differ.

Nothing else is asked of the sources.  Every run whose requests are answered with units of finitely
many texts comes to its end (`Preprocessor.Conversation.ends`), and a session ends where the
conversation with its sources does (`Session.completed_of_conversation`).
-/

namespace IncludeSources

/-- Looks a request up, and waits when an item must be fetched. -/
def lookUp (sources : IncludeSources) (request : IncludeRequest) :
    IncludeOutcome × IncludeSources :=
  match sources.resolve request with
  | (.settled outcome, after) => (outcome, after)
  | (.started fetch, fetching) => fetching.settle fetch

/-- A look-up adds no text, and a unit that it finds has one of the texts. -/
theorem texts_of_lookUp {sources after : IncludeSources} {request : IncludeRequest}
    {outcome : IncludeOutcome} (looked : sources.lookUp request = (outcome, after)) :
    after.texts ⊆ sources.texts ∧ ∀ unit, outcome = .ok unit → unit.text ∈ sources.texts := by
  unfold lookUp at looked
  split at looked
  · next settled =>
    cases looked
    refine ⟨texts_of_resolve settled, ?_⟩
    rintro unit rfl
    exact text_mem_texts_of_resolve settled
  · next fetch fetching started =>
    have kept := texts_of_resolve started
    have settled := texts_of_settle looked
    exact ⟨fun _ member => kept (settled.1 member), fun unit found => kept (settled.2 unit found)⟩

end IncludeSources

namespace Session

/-! ## Steps -/

/-- One step of a session that waits for every fetch; there is none when nothing is left to do. -/
def advance (state : IncludeSources × Preprocessor) : Option (IncludeSources × Preprocessor) :=
  match state.2.step with
  | .finish => none
  | .next next => some (state.1, next)
  | .pause paused request =>
    some ((state.1.lookUp request).2, paused.answered request (state.1.lookUp request).1)

/-- The state after a number of steps, if there are so many. -/
def advances : Nat → IncludeSources × Preprocessor → Option (IncludeSources × Preprocessor)
  | 0, state => some state
  | count + 1, state => (advance state).bind (advances count)

variable {state next : IncludeSources × Preprocessor}

/-- Every step leaves less to be done. -/
theorem remaining_lt_of_advance (advanced : advance state = some next) :
    Prod.Lex (· < ·) (· < ·) (next.2.remaining next.1.texts)
      (state.2.remaining state.1.texts) := by
  unfold advance at advanced
  split at advanced
  · cases advanced
  · next after stepped =>
    cases advanced
    exact Preprocessor.remaining_of_next state.1.texts stepped
  · next paused request stepped =>
    cases advanced
    have looked := IncludeSources.texts_of_lookUp
      (Prod.eta (state.1.lookUp request)).symm
    exact Preprocessor.remaining_answered (Preprocessor.asks_of_step stepped)
      (Preprocessor.potential_lt_of_step_pause stepped) looked.1 looked.2

theorem finish_of_advance (ended : advance state = none) : state.2.step = .finish := by
  unfold advance at ended
  split at ended
  · next finished => exact finished
  · cases ended
  · cases ended

/-- From every state, so many steps lead to one from which there is none. -/
theorem exists_advances (state : IncludeSources × Preprocessor) :
    ∃ count last, advances count state = some last ∧ advance last = none := by
  cases advanced : advance state with
  | none => exact ⟨0, state, rfl, advanced⟩
  | some next =>
    rcases exists_advances next with ⟨count, last, reached, ended⟩
    refine ⟨count + 1, last, ?_, ended⟩
    rw [advances, advanced]
    exact reached
  termination_by state.2.remaining state.1.texts
  decreasing_by exact remaining_lt_of_advance advanced

/-! ## Driving, step by step -/

section

variable {patient : Bool} {source : SourceUnit} {sources after : IncludeSources}
  {preprocessor stopped : Preprocessor} {request : IncludeRequest}

/-- One round of driving: what it does depends on what the run comes to. -/
theorem drive_eq (patient : Bool) (source : SourceUnit) (sources : IncludeSources)
    (preprocessor : Preprocessor) :
    drive patient source sources preprocessor =
      match preprocessor.run with
      | (stopped, .finished output) => (⟨source, stopped, .done output⟩, sources)
      | (paused, .paused request) =>
        match sources.resolve request with
        | (.settled outcome, after) => drive patient source after (paused.answered request outcome)
        | (.started fetch, fetching) =>
          if patient then
            drive patient source (fetching.settle fetch).2
              (paused.answered request (fetching.settle fetch).1)
          else (⟨source, paused, .waiting fetch⟩, fetching) := by
  rw [drive]
  split
  · next ran => rw [ran]
  · next ran =>
    rw [ran]
    split
    · next resolved => simp only [resolved]
    · next resolved => simp only [resolved]

theorem drive_of_finished {output : RunOutput}
    (ran : preprocessor.run = (stopped, .finished output)) :
    drive patient source sources preprocessor = (⟨source, stopped, .done output⟩, sources) := by
  rw [drive_eq, ran]

theorem drive_of_settled {outcome : IncludeOutcome}
    (ran : preprocessor.run = (stopped, .paused request))
    (resolved : sources.resolve request = (.settled outcome, after)) :
    drive patient source sources preprocessor =
      drive patient source after (stopped.answered request outcome) := by
  rw [drive_eq, ran]
  simp only [resolved]

theorem drive_of_started {fetch : Fetch} (ran : preprocessor.run = (stopped, .paused request))
    (resolved : sources.resolve request = (.started fetch, after)) :
    drive patient source sources preprocessor =
      if patient then
        drive patient source (after.settle fetch).2
          (stopped.answered request (after.settle fetch).1)
      else (⟨source, stopped, .waiting fetch⟩, after) := by
  rw [drive_eq, ran]
  simp only [resolved]

theorem drive_congr {other : Preprocessor} (same : preprocessor.run = other.run) :
    drive patient source sources preprocessor = drive patient source sources other := by
  rw [drive_eq, drive_eq patient source sources other, same]

/-- A patient session looks up what its run has paused for, and goes on. -/
theorem drive_of_paused (ran : preprocessor.run = (stopped, .paused request)) :
    drive true source sources preprocessor =
      drive true source (sources.lookUp request).2
        (stopped.answered request (sources.lookUp request).1) := by
  unfold IncludeSources.lookUp
  cases resolved : sources.resolve request with
  | mk resolution after =>
    cases resolution with
    | settled outcome => exact drive_of_settled ran resolved
    | started fetch =>
      rw [drive_of_started ran resolved]
      rfl

/-- A patient session goes from step to step. -/
theorem drive_of_advance (advanced : advance state = some next) :
    drive true source state.1 state.2 = drive true source next.1 next.2 := by
  unfold advance at advanced
  split at advanced
  · cases advanced
  · next stepped =>
    cases advanced
    exact drive_congr (Preprocessor.run_of_next stepped)
  · next paused request stepped =>
    cases advanced
    exact drive_of_paused (Preprocessor.run_of_pause stepped)

theorem drive_of_advances {count : Nat} (reached : advances count state = some next) :
    drive true source state.1 state.2 = drive true source next.1 next.2 := by
  induction count generalizing state with
  | zero =>
    cases reached
    rfl
  | succ count ih =>
    rcases Option.bind_eq_some_iff.1 reached with ⟨middle, advanced, rest⟩
    exact (drive_of_advance advanced).trans (ih rest)

/-- A session that went on without waiting, and is then waited for, is one that waits at once. -/
theorem wait_drive (source : SourceUnit) (sources : IncludeSources)
    (preprocessor : Preprocessor) :
    (drive false source sources preprocessor).1.wait (drive false source sources preprocessor).2 =
      drive true source sources preprocessor := by
  fun_induction drive false source sources preprocessor with
  | case1 sources preprocessor stopped output ran =>
    rw [drive_of_finished ran]
    rfl
  | case2 sources preprocessor paused request ran outcome after resolved ih =>
    rw [ih, drive_of_settled ran resolved]
  | case3 sources preprocessor paused request ran fetch fetching resolved patient => cases patient
  | case4 sources preprocessor paused request ran fetch fetching resolved =>
    have waiting := (Preprocessor.asks_of_run ran).pending
    rw [drive_of_started ran resolved]
    simp only [wait, answerPending, waiting, if_true]

end

/-! ## Sessions as conversations -/

section

open Preprocessor (Conversation)

variable {options : RunOptions} {environment : Environment} {main : SourceUnit}
  {exchanges : List Exchange}

/-- The sources answer every request, and with their own texts only. -/
theorem settlesWith_lookUp (sources : IncludeSources) :
    (Answering.ofLookUp IncludeSources.lookUp sources).SettlesWith sources.texts := by
  refine Answering.settlesWith_ofLookUp (fun held request => ?_) (fun held request => ?_) sources
  · exact (IncludeSources.texts_of_lookUp (Prod.eta (held.lookUp request)).symm).1
  · exact (IncludeSources.texts_of_lookUp (Prod.eta (held.lookUp request)).symm).2

theorem drive_of_conversation {sources : IncludeSources} {returned : Preprocessor × RunResult}
    (conversation : Conversation options environment main
      (.ofLookUp IncludeSources.lookUp sources) exchanges returned) :
    ∃ preprocessor : Preprocessor, preprocessor.run = returned ∧
      drive true main sources (opening options environment main) =
        drive true main (Answering.behind IncludeSources.lookUp sources exchanges)
          preprocessor := by
  induction conversation with
  | start => exact ⟨_, rfl, rfl⟩
  | @answer exchanges waiting request earlier ih =>
    rcases ih with ⟨preprocessor, ran, driven⟩
    have resumed := Preprocessor.resume_ofOutcome (Preprocessor.asks_of_run ran).pending
      ((Answering.behind IncludeSources.lookUp sources exchanges).lookUp request).1
    refine ⟨_, resumed.symm, ?_⟩
    rw [driven, drive_of_paused ran, Answering.behind, Answering.behind, List.foldl_concat]

/-- A session that waits for every fetch comes to where the conversation with its sources ends. -/
theorem completed_of_conversation {sources : IncludeSources} {stopped : Preprocessor}
    {output : RunOutput}
    (ended : Conversation options environment main
      (.ofLookUp IncludeSources.lookUp sources) exchanges (stopped, .finished output)) :
    (completed sources options environment main).phase = .done output := by
  rcases drive_of_conversation ended with ⟨preprocessor, ran, driven⟩
  rw [drive_of_finished ran] at driven
  unfold completed start
  unfold opening at driven
  rw [wait_drive, driven]

end

/-! ## Sessions step by step -/

/-- When the steps from the opening come to an end, so does the session that waits. -/
theorem phase_completed {sources after : IncludeSources} {options : RunOptions}
    {environment : Environment} {main : SourceUnit} {last : Preprocessor} {count : Nat}
    (reached : advances count (sources, opening options environment main) = some (after, last))
    (finished : last.step = .finish) :
    (completed sources options environment main).phase = .done last.output := by
  have driven : drive true main sources (opening options environment main) =
      drive true main after last := drive_of_advances reached
  unfold completed start
  rw [wait_drive]
  unfold opening at driven
  rw [driven, drive_of_finished (Preprocessor.run_of_finish finished)]

/-- A session that is started and then waited for comes to its end after finitely many steps,
whatever its units include and whatever the sources hold. -/
theorem wait_start_ends (sources : IncludeSources) (options : RunOptions)
    (environment : Environment) (main : SourceUnit) :
    ∃ count after last,
      advances count (sources, opening options environment main) = some (after, last) ∧
      last.step = .finish ∧
      (completed sources options environment main).phase = .done last.output := by
  rcases exists_advances (sources, opening options environment main) with
    ⟨count, ⟨after, last⟩, reached, ended⟩
  have finished := finish_of_advance ended
  exact ⟨count, after, last, reached, finished, phase_completed reached finished⟩

end Session

end ScriptPreprocessor
