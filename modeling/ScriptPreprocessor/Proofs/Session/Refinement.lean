import ScriptPreprocessor.LiveSession
import ScriptPreprocessor.Proofs.Session.Ending
import ScriptPreprocessor.Proofs.Session.Calls

namespace ScriptPreprocessor

/-!
# Fields and phases

A session that runs writes its state, its pending fetch and its output at different points.  Every
operation that returns leaves them filled in as one phase says, and as the same operation on the
session in that phase leaves it: starting, polling, waiting, and recording commute with
`LiveSession.ofSession`.  So what is proved about sessions and their phases holds of the fields.

The loop of a wait takes one fetch at a time and stops to drive the preprocessor in between.  On
phases this is one patient run, because a run that stops at a fetch and is then waited for is one
that never stopped (`Session.wait_drive`).
-/

namespace LiveSession

/-- The fields of a session, with the sources behind it. -/
def ofPair (found : Session × IncludeSources) : LiveSession × IncludeSources :=
  (ofSession found.1, found.2)

variable {session : Session} {live : LiveSession} {sources : IncludeSources}

theorem ofSession_of_waiting {fetch : Fetch} (phase : session.phase = .waiting fetch) :
    ofSession session =
      ⟨session.source, .waiting, session.preprocessor, some fetch, none⟩ := by
  unfold ofSession
  rw [phase]

theorem ofSession_of_done {output : RunOutput} (phase : session.phase = .done output) :
    ofSession session =
      ⟨session.source, .done, session.preprocessor, none, some output⟩ := by
  unfold ofSession
  rw [phase]

/-- However the fields are filled in that driving does not read, it ends where a session does. -/
theorem drive_eq (idle : live.pending = none) (empty : live.output = none) :
    live.drive sources =
      ofPair (Session.drive false live.source sources live.preprocessor) := by
  fun_induction drive live sources with
  | case1 live sources stopped output ran =>
    rw [Session.drive_of_finished ran, idle]
    rfl
  | case2 live sources paused request ran outcome after resolved ih =>
    have waiting := (Preprocessor.asks_of_run ran).pending
    rw [ih idle empty, Session.drive_of_settled ran resolved,
      Session.answerPending_of_pending waiting]
  | case3 live sources paused request ran fetch fetching resolved =>
    rw [Session.drive_of_started ran resolved, if_neg Bool.false_ne_true, empty]
    rfl

theorem start_eq (sources : IncludeSources) (options : RunOptions) (environment : Environment)
    (main : SourceUnit) :
    start sources options environment main =
      ofPair (Session.start sources options environment main) :=
  drive_eq rfl rfl

/-- The fetch whose outcome is handed on has been taken out of its field. -/
theorem resume_eq (empty : live.output = none) (sources : IncludeSources)
    (outcome : IncludeOutcome) :
    { live with pending := none }.resume sources outcome =
      ofPair (Session.drive false live.source sources
        (Session.answerPending live.preprocessor outcome)) :=
  drive_eq rfl empty

/-! ## Polling and waiting -/

section

variable {fetch : Fetch}

theorem poll_of_idle (idle : live.pending = none) : live.poll sources = (live, sources) := by
  unfold poll
  rw [idle]

theorem poll_of_unsettled (waits : live.pending = some fetch)
    (unsettled : sources.settle? fetch = none) : live.poll sources = (live, sources) := by
  unfold poll
  rw [waits]
  simp only [unsettled]

theorem poll_of_settled (waits : live.pending = some fetch) {outcome : IncludeOutcome}
    {after : IncludeSources} (settled : sources.settle? fetch = some (outcome, after)) :
    live.poll sources = { live with pending := none }.resume after outcome := by
  unfold poll
  rw [waits]
  simp only [settled]

theorem wait_of_idle (idle : live.pending = none) : live.wait sources = (live, sources) := by
  unfold wait
  rw [idle]

theorem wait_of_pending (waits : live.pending = some fetch) :
    live.wait sources = live.waitFor sources fetch := by
  unfold wait
  rw [waits]

end

theorem poll_ofSession (session : Session) (sources : IncludeSources) :
    (ofSession session).poll sources = ofPair (session.poll sources) := by
  cases phase : session.phase with
  | done output =>
    have fields := ofSession_of_done phase
    rw [poll_of_idle (by rw [fields]), Session.poll_of_done phase]
    rfl
  | waiting fetch =>
    have fields := ofSession_of_waiting phase
    have waits : (ofSession session).pending = some fetch := by rw [fields]
    cases settled : sources.settle? fetch with
    | none =>
      rw [poll_of_unsettled waits settled, Session.poll_of_unsettled phase settled]
      rfl
    | some found =>
      rw [poll_of_settled waits settled, Session.poll_of_settled phase settled, fields]
      exact resume_eq rfl found.2 found.1

/-- A wait that is taken up behind driving is a patient run. -/
theorem drive_true_eq (source : SourceUnit) (preprocessor : Preprocessor) :
    Session.drive true source sources preprocessor =
      (Session.drive false source sources preprocessor).1.wait
        (Session.drive false source sources preprocessor).2 :=
  (Session.wait_drive source sources preprocessor).symm

/-- Behind the outcome of a fetch, a wait goes on as a wait for whatever is pending then. -/
theorem waitFor_eq_wait (live : LiveSession) (sources : IncludeSources) (fetch : Fetch) :
    live.waitFor sources fetch =
      let driven := { live with pending := none }.resume (sources.settle fetch).2
        (sources.settle fetch).1
      driven.1.wait driven.2 := by
  rw [waitFor]
  simp only
  split
  · next idle => rw [wait_of_idle idle]
  · next another waits => rw [wait_of_pending waits]

/-- Waiting agrees on fields and phases as soon as waiting for the pending fetch does. -/
theorem wait_ofSession_of_waitFor
    (agrees : ∀ fetch, session.phase = .waiting fetch →
      (ofSession session).waitFor sources fetch = ofPair (session.wait sources)) :
    (ofSession session).wait sources = ofPair (session.wait sources) := by
  cases phase : session.phase with
  | done output =>
    rw [wait_of_idle (by rw [ofSession_of_done phase]), Session.wait_of_done phase]
    rfl
  | waiting fetch =>
    rw [wait_of_pending (by rw [ofSession_of_waiting phase]), agrees fetch phase]

/-- Waiting for one fetch after the other is waiting patiently. -/
theorem waitFor_eq (empty : live.output = none) (fetch : Fetch) :
    live.waitFor sources fetch =
      ofPair (Session.drive true live.source (sources.settle fetch).2
        (Session.answerPending live.preprocessor (sources.settle fetch).1)) := by
  induction live, sources, fetch using waitFor.induct with
  | case1 live sources fetch outcome settled settles next after resumed idle =>
    have driven := resumed.symm.trans (resume_eq empty settled outcome)
    rw [waitFor_eq_wait, settles, drive_true_eq]
    simp only [resumed]
    generalize Session.drive false live.source settled _ = reached at driven ⊢
    cases driven
    apply wait_ofSession_of_waitFor
    intro another phase
    rw [ofSession_of_waiting phase] at idle
    cases idle
  | case2 live sources fetch outcome settled settles next after resumed pending waits ih =>
    have driven := resumed.symm.trans (resume_eq empty settled outcome)
    rw [waitFor_eq_wait, settles, drive_true_eq]
    simp only [resumed]
    generalize Session.drive false live.source settled _ = reached at driven ⊢
    cases driven
    apply wait_ofSession_of_waitFor
    intro another phase
    rw [ofSession_of_waiting phase] at waits ih ⊢
    cases waits
    rw [ih rfl, Session.wait_of_waiting phase]

theorem wait_ofSession (session : Session) (sources : IncludeSources) :
    (ofSession session).wait sources = ofPair (session.wait sources) := by
  apply wait_ofSession_of_waitFor
  intro fetch phase
  have fields := ofSession_of_waiting phase
  rw [waitFor_eq (by rw [fields]), Session.wait_of_waiting phase, fields]

/-! ## Asking and recording -/

theorem finish_ofSession (session : Session) : (ofSession session).finish = session.finish := by
  unfold finish Session.finish
  cases phase : session.phase with
  | waiting fetch => rw [ofSession_of_waiting phase]
  | done output => rw [ofSession_of_done phase]

theorem source_ofSession (session : Session) : (ofSession session).source = session.source := by
  unfold ofSession
  cases session.phase <;> rfl

theorem saveForm_ofSession (session : Session) :
    (ofSession session).saveForm = session.saveForm := by
  rw [saveForm, Session.saveForm, finish_ofSession, source_ofSession]

theorem pendingTarget?_ofSession (session : Session) :
    (ofSession session).pendingTarget? = session.pendingTarget? := by
  unfold pendingTarget? Session.pendingTarget?
  cases phase : session.phase with
  | waiting fetch => rw [ofSession_of_waiting phase, Option.map_some]
  | done output => rw [ofSession_of_done phase, Option.map_none]

theorem remap?_ofSession (session : Session) (line column : Nat) :
    (ofSession session).remap? line column = session.remap? line column := by
  unfold remap? Session.remap?
  cases phase : session.phase with
  | waiting fetch => rw [ofSession_of_waiting phase, Option.bind_none]
  | done output => rw [ofSession_of_done phase, Option.bind_some]

theorem record_ofSession (session : Session) (messages : List Text) :
    (ofSession session).record messages =
      (session.record messages).map fun recorded => (recorded.1, ofSession recorded.2) := by
  cases phase : session.phase with
  | waiting fetch =>
    rw [record, Session.record, finish_ofSession, Session.finish, phase]
    rfl
  | done output =>
    rw [record, Session.record, finish_ofSession, Session.finish, phase,
      ofSession_of_done phase]
    rfl

end LiveSession

end ScriptPreprocessor
