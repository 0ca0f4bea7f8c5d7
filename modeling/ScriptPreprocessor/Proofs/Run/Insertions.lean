import ScriptPreprocessor.Proofs.Run.Conversation

namespace ScriptPreprocessor

/-!
# Which unit a directive brings

The first directive that names a unit asks for it, and brings the answer to its own request.  The
unit is then kept under its name alone: every later directive with the same name brings the same
unit and asks for nothing, wherever it stands.  This holds whatever the answers are and wherever
they come from.

What comes onto the stack is written down beside the steps of a run and its answers
(`Preprocessor.Inserts`).  An entry is read off the stack: it is the frame that has come on top.
-/

/-- What the directive on a line asks for when it names a target. -/
def Reading.request (reading : Reading) (target : Text) : IncludeRequest :=
  { target
    searchPath := reading.state.searchPath
    includer := reading.unit.name
    location := reading.unit.location
    line := reading.index + 1 }

/-- Whether a request was answered with a unit. -/
def Exchange.isResolved (exchange : Exchange) : Bool :=
  match exchange.answer with
  | .resolved _ => true
  | .pending | .failed _ => false

/-- A unit that has come onto the stack. -/
structure Insertion where
  /-- The line of the directive. -/
  reading : Reading
  target : Text
  /-- What was asked for the directive and how it was answered, if anything was asked. -/
  exchange : Option Exchange
  unit : SourceUnit

namespace Insertion

/-- The insertion that has taken place on a line between two states, if the stack has grown. -/
def between (before after : Preprocessor) (reading : Option Reading)
    (exchange : Option Exchange) : List Insertion :=
  match reading, after.frames with
  | some reading, frame :: _ =>
    if before.frames.length < after.frames.length then
      [⟨reading, frame.key, exchange, frame.unit⟩]
    else []
  | _, _ => []

/-- An insertion behind earlier ones: the first with its name has the answer to its own request,
with its last line ended, and any other has the unit of those before. -/
structure IsRight (earlier : List Insertion) (insertion : Insertion) : Prop where
  named : insertion.reading.effect.target = some insertion.target
  first : (∀ other ∈ earlier, other.target ≠ insertion.target) → ∃ unit,
    insertion.exchange = some ⟨insertion.reading.request insertion.target, .resolved unit⟩ ∧
      insertion.unit = unit.withFinalNewline
  again : ∀ other ∈ earlier, other.target = insertion.target →
    insertion.exchange = none ∧ insertion.unit = other.unit

theorem between_of_le {before after : Preprocessor}
    (notGrown : after.frames.length ≤ before.frames.length) (reading : Option Reading)
    (exchange : Option Exchange) : between before after reading exchange = [] := by
  unfold between
  split
  · exact if_neg (Nat.not_lt.2 notGrown)
  · rfl

theorem between_of_push {before after : Preprocessor} {frame : Frame}
    (pushed : after.frames = frame :: before.frames) (reading : Reading)
    (exchange : Option Exchange) :
    between before after (some reading) exchange =
      [⟨reading, frame.key, exchange, frame.unit⟩] := by
  unfold between
  simp only [pushed, List.length_cons, Nat.lt_succ_self, if_true]

theorem exchange_of_mem_between {before after : Preprocessor} {reading : Option Reading}
    {exchange : Option Exchange} {insertion : Insertion}
    (member : insertion ∈ between before after reading exchange) :
    insertion.exchange = exchange := by
  unfold between at member
  split at member
  · split at member
    · rw [List.mem_singleton.1 member]
    · cases member
  · cases member

theorem right_of_append {insertions : List Insertion} {insertion : Insertion}
    (right : ∀ earlier other later, insertions = earlier ++ other :: later → other.IsRight earlier)
    (isRight : insertion.IsRight insertions) :
    ∀ earlier other later, insertions ++ [insertion] = earlier ++ other :: later →
      other.IsRight earlier := by
  intro earlier other later shape
  rcases List.eq_nil_or_concat later with rfl | ⟨inner, last, rfl⟩
  · rcases List.append_inj' shape rfl with ⟨rfl, same⟩
    cases same
    exact isRight
  · rw [List.concat_eq_append, ← List.cons_append, ← List.append_assoc] at shape
    exact right earlier other inner (List.append_inj' shape rfl).1

end Insertion

namespace Preprocessor

/-- How a fresh preprocessor goes on with a main unit, step by step and from answer to answer: what
was asked, what has come onto the stack, the line whose request is open, and the state. -/
inductive Inserts (options : RunOptions) (environment : Environment) (main : SourceUnit) :
    List Exchange → List Insertion → Option Reading → Preprocessor → Prop
  | start : Inserts options environment main [] [] none
      ((ofEnvironment options environment).enter main)
  | next {exchanges : List Exchange} {insertions : List Insertion}
      {preprocessor next : Preprocessor}
      (earlier : Inserts options environment main exchanges insertions none preprocessor)
      (stepped : preprocessor.step = .next next) :
      Inserts options environment main exchanges
        (insertions ++ Insertion.between preprocessor next preprocessor.reading? none) none next
  | pause {exchanges : List Exchange} {insertions : List Insertion}
      {preprocessor paused : Preprocessor} {request : IncludeRequest}
      (earlier : Inserts options environment main exchanges insertions none preprocessor)
      (stepped : preprocessor.step = .pause paused request) :
      Inserts options environment main exchanges insertions preprocessor.reading? paused
  | wait {exchanges : List Exchange} {insertions : List Insertion} {reading : Reading}
      {preprocessor : Preprocessor} {request : IncludeRequest}
      (earlier : Inserts options environment main exchanges insertions (some reading) preprocessor)
      (pending : preprocessor.pending = some request) :
      Inserts options environment main (exchanges ++ [⟨request, .pending⟩]) insertions
        (some reading) preprocessor
  | answer {exchanges : List Exchange} {insertions : List Insertion} {reading : Reading}
      {preprocessor : Preprocessor} {request : IncludeRequest}
      (earlier : Inserts options environment main exchanges insertions (some reading) preprocessor)
      (pending : preprocessor.pending = some request) (outcome : IncludeOutcome) :
      Inserts options environment main (exchanges ++ [⟨request, .ofOutcome outcome⟩])
        (insertions ++ Insertion.between preprocessor (preprocessor.answered request outcome)
          (some reading) (some ⟨request, .ofOutcome outcome⟩))
        none (preprocessor.answered request outcome)

variable {options : RunOptions} {environment : Environment} {main : SourceUnit}
  {exchanges : List Exchange} {insertions : List Insertion} {open? : Option Reading}
  {preprocessor next paused : Preprocessor} {request : IncludeRequest} {reading : Reading}

/-! ## What a step inserts -/

/-- A request is the one of a line, for a unit that the run does not have. -/
structure IsAskedBy (preprocessor : Preprocessor) (reading : Reading) (request : IncludeRequest) :
    Prop where
  named : reading.effect.target = some request.target
  own : request = reading.request request.target
  unknown : preprocessor.resolved.lookup request.target = none

/-- A step that goes on adds no unit to the known ones, and it either inserts nothing or puts the
known unit on the stack that its line names. -/
theorem inserted_of_next (stepped : preprocessor.step = .next next) :
    next.resolved = preprocessor.resolved ∧
      (Insertion.between preprocessor next preprocessor.reading? none = [] ∨
        ∃ reading target unit, reading.effect.target = some target ∧
          preprocessor.resolved.lookup target = some unit ∧
          Insertion.between preprocessor next preprocessor.reading? none =
            [⟨reading, target, none, unit⟩]) := by
  have move := move_of_step (show after? preprocessor.step = some next by rw [stepped]; rfl)
  refine ⟨resolved_of_move move, ?_⟩
  generalize preprocessor.reading? = reading at move ⊢
  cases move with
  | leave => exact .inl rfl
  | @read frame below line unread _ stack lines placement =>
    have same := congrArg List.length (keys_behind line unread stack)
    rw [List.length_map, List.length_map] at same
    cases placement with
    | plain | skip | cycle | ask =>
      refine .inl ?_
      apply Insertion.between_of_le
      exact same.le
    | @reuse target unit asked always known fresh =>
      refine .inr ⟨_, target, unit, asked, known, ?_⟩
      unfold Insertion.between
      simp only [List.length_cons, same, Nat.lt_succ_self, if_true]
      rfl

/-- A run pauses with the request of the line that it has read. -/
theorem isAskedBy_of_pause (idle : preprocessor.pending = none)
    (stepped : preprocessor.step = .pause paused request) :
    ∃ reading, preprocessor.reading? = some reading ∧ paused.IsAskedBy reading request := by
  have move := move_of_step (show after? preprocessor.step = some paused by rw [stepped]; rfl)
  have waiting := (asks_of_step stepped).pending
  generalize preprocessor.reading? = reading at move
  cases move with
  | leave => exact absurd (idle.symm.trans waiting) (by simp)
  | @read frame below line unread _ stack lines placement =>
    refine ⟨_, rfl, ?_⟩
    cases placement with
    | plain | skip | cycle | reuse => exact absurd (idle.symm.trans waiting) (by simp)
    | @ask target asked unknown fresh =>
      cases waiting
      refine ⟨asked, ?_, unknown⟩
      have effect : (preprocessor.readingOf frame below line).effect =
          { state := preprocessor.lineState frame, target := some target } :=
        LineState.read_of_target asked
      rw [effect]
      rfl

/-! ## Insertions and known units -/

/-- A run awaits an answer for the line whose request is open, and otherwise none. -/
def Awaits (preprocessor : Preprocessor) : Option Reading → Prop
  | none => preprocessor.pending = none
  | some reading => ∃ request, preprocessor.pending = some request ∧
      preprocessor.IsAskedBy reading request

/-- The insertions so far are right, the units that the run knows are theirs, and each unit that was
given as an answer has been inserted, in order. -/
structure TracksInsertions (exchanges : List Exchange) (insertions : List Insertion)
    (open? : Option Reading) (preprocessor : Preprocessor) : Prop where
  awaits : preprocessor.Awaits open?
  known : ∀ target unit, preprocessor.resolved.lookup target = some unit →
    ∃ insertion ∈ insertions, insertion.target = target
  agree : ∀ insertion ∈ insertions,
    preprocessor.resolved.lookup insertion.target = some insertion.unit
  right : ∀ earlier insertion later,
    insertions = earlier ++ insertion :: later → insertion.IsRight earlier
  given : insertions.filterMap Insertion.exchange = exchanges.filter Exchange.isResolved

/-- A step that goes on keeps the insertions right. -/
theorem TracksInsertions.goesOn
    (tracks : TracksInsertions exchanges insertions none preprocessor)
    (stepped : preprocessor.step = .next next) :
    TracksInsertions exchanges
      (insertions ++ Insertion.between preprocessor next preprocessor.reading? none) none next := by
  have idle : next.pending = none := (pending_of_next stepped).trans tracks.awaits
  rcases inserted_of_next stepped with ⟨resolved, nothing | inserted⟩
  · rw [nothing, List.append_nil]
    refine ⟨idle, ?_, ?_, tracks.right, tracks.given⟩ <;> rw [resolved]
    · exact tracks.known
    · exact tracks.agree
  · rcases inserted with ⟨reading, target, unit, named, known, shape⟩
    rw [shape]
    refine ⟨idle, ?_, ?_, Insertion.right_of_append tracks.right ⟨named, ?_, ?_⟩, ?_⟩
    · intro other otherUnit found
      rw [resolved] at found
      rcases tracks.known other otherUnit found with ⟨insertion, member, same⟩
      exact ⟨insertion, List.mem_append_left _ member, same⟩
    · intro insertion member
      rw [resolved]
      rcases List.mem_append.1 member with before | new
      · exact tracks.agree insertion before
      · rw [List.mem_singleton.1 new]
        exact known
    · intro fresh
      rcases tracks.known target unit known with ⟨insertion, member, same⟩
      exact absurd same (fresh insertion member)
    · intro other member same
      have agrees := tracks.agree other member
      rw [same] at agrees
      exact ⟨rfl, Option.some.inj (known.symm.trans agrees)⟩
    · rw [List.filterMap_append, tracks.given]
      exact List.append_nil _

/-- The answer to the request of a line keeps the insertions right. -/
theorem TracksInsertions.answered
    (tracks : TracksInsertions exchanges insertions (some reading) preprocessor)
    (pending : preprocessor.pending = some request) (outcome : IncludeOutcome) :
    TracksInsertions (exchanges ++ [⟨request, .ofOutcome outcome⟩])
      (insertions ++ Insertion.between preprocessor (preprocessor.answered request outcome)
        (some reading) (some ⟨request, .ofOutcome outcome⟩))
      none (preprocessor.answered request outcome) := by
  have idle := pending_answered preprocessor request outcome
  rcases tracks.awaits with ⟨asked, waiting, isAsked⟩
  cases pending.symm.trans waiting
  cases outcome with
  | error failure =>
    have nothing : Insertion.between preprocessor (preprocessor.answered request (.error failure))
        (some reading) (some ⟨request, .ofOutcome (.error failure)⟩) = [] := by
      apply Insertion.between_of_le
      exact Nat.le_refl _
    rw [nothing, List.append_nil]
    refine ⟨idle, tracks.known, tracks.agree, tracks.right, ?_⟩
    rw [List.filter_append, tracks.given]
    exact (List.append_nil _).symm
  | ok unit =>
    have fresh : ∀ other ∈ insertions, other.target ≠ request.target := by
      intro other member same
      have agrees := tracks.agree other member
      rw [same, isAsked.unknown] at agrees
      cases agrees
    have resolved := preprocessor.lookup_splice request unit
    rw [Insertion.between_of_push rfl]
    refine ⟨idle, ?_, ?_, Insertion.right_of_append tracks.right ⟨isAsked.named, ?_, ?_⟩, ?_⟩
    · intro target known found
      rw [Preprocessor.answered, resolved] at found
      by_cases same : target = request.target
      · exact ⟨_, List.mem_append_right _ (List.mem_singleton_self _), same.symm⟩
      · rw [if_neg same, Option.or_none] at found
        rcases tracks.known target known found with ⟨insertion, member, named⟩
        exact ⟨insertion, List.mem_append_left _ member, named⟩
    · intro insertion member
      rw [Preprocessor.answered, resolved]
      rcases List.mem_append.1 member with before | new
      · rw [tracks.agree insertion before, Option.some_or]
      · rw [List.mem_singleton.1 new]
        change (preprocessor.resolved.lookup request.target).or _ = _
        rw [isAsked.unknown, Option.none_or]
        exact if_pos rfl
    · intro _
      exact ⟨unit, congrArg (fun asked => some (Exchange.mk asked (.resolved unit))) isAsked.own,
        rfl⟩
    · intro other member same
      exact absurd same (fresh other member)
    · rw [List.filterMap_append, List.filter_append, tracks.given]
      rfl

/-- However a run goes on, its insertions are right. -/
theorem Inserts.tracks
    (inserts : Inserts options environment main exchanges insertions open? preprocessor) :
    TracksInsertions exchanges insertions open? preprocessor := by
  induction inserts with
  | start =>
    refine ⟨rfl, ?_, ?_, ?_, rfl⟩
    · intro target unit impossible
      cases impossible
    · intro insertion impossible
      cases impossible
    · intro earlier insertion later impossible
      simp at impossible
  | next earlier stepped ih => exact ih.goesOn stepped
  | pause earlier stepped ih =>
    rcases isAskedBy_of_pause ih.awaits stepped with ⟨reading, read, isAsked⟩
    have asks := asks_of_step stepped
    rw [read]
    refine ⟨⟨_, asks.pending, isAsked⟩, ?_, ?_, ih.right, ih.given⟩ <;> rw [asks.resolved]
    · exact ih.known
    · exact ih.agree
  | wait earlier pending ih =>
    refine ⟨ih.awaits, ih.known, ih.agree, ih.right, ?_⟩
    rw [List.filter_append, ih.given]
    exact (List.append_nil _).symm
  | answer earlier pending outcome ih => exact ih.answered pending outcome

/-! ## Conversations -/

/-- What has come onto the stack when a call returns: in a run that waits, or in one that is at its
end. -/
def Inserted (options : RunOptions) (environment : Environment) (main : SourceUnit)
    (exchanges : List Exchange) (insertions : List Insertion) : Preprocessor × RunResult → Prop
  | (stopped, .paused _) => ∃ reading,
      Inserts options environment main exchanges insertions (some reading) stopped
  | (_, .finished output) => ∃ last,
      Inserts options environment main exchanges insertions none last ∧
        last.step = .finish ∧ last.output = output

theorem Inserts.run
    (inserts : Inserts options environment main exchanges insertions none preprocessor) :
    ∃ insertions, Inserted options environment main exchanges insertions preprocessor.run := by
  fun_induction Preprocessor.run preprocessor generalizing insertions with
  | case1 preprocessor next stepped ih => exact ih (inserts.next stepped)
  | case2 preprocessor paused request stepped =>
    rcases isAskedBy_of_pause inserts.tracks.awaits stepped with ⟨reading, read, _⟩
    have waits := inserts.pause stepped
    rw [read] at waits
    exact ⟨insertions, reading, waits⟩
  | case3 preprocessor stepped => exact ⟨insertions, preprocessor, inserts, stepped, rfl⟩

/-- What comes onto the stack in a conversation can be written down.  However it is, the first
directive with a name brings the answer to its own request, every other brings the same unit without
a request, and every unit that was an answer has come onto the stack, in order. -/
theorem Conversation.insertsRightly {answering : Answering} {returned : Preprocessor × RunResult}
    (conversation : Conversation options environment main answering exchanges returned) :
    (∃ insertions, Inserted options environment main exchanges insertions returned) ∧
      ∀ insertions, Inserted options environment main exchanges insertions returned →
        (∀ earlier insertion later,
          insertions = earlier ++ insertion :: later → insertion.IsRight earlier) ∧
        insertions.filterMap Insertion.exchange = exchanges.filter Exchange.isResolved := by
  constructor
  · induction conversation with
    | start => exact Inserts.start.run
    | @answer exchanges waiting request earlier ih =>
      rcases ih with ⟨insertions, reading, inserts⟩
      rcases inserts.tracks.awaits with ⟨asked, pending, _⟩
      cases (earlier.standsIn.2 waiting request rfl).pending.symm.trans pending
      cases answering exchanges request with
      | pending =>
        have unanswered : waiting.resume .pending = (waiting, .paused request) := by
          rw [resume, pending]
        rw [unanswered]
        exact ⟨insertions, reading, inserts.wait pending⟩
      | resolved unit =>
        have later := (inserts.answer pending (.ok unit)).run
        rwa [← resume_ofOutcome pending] at later
      | failed failure =>
        have later := (inserts.answer pending (.error failure)).run
        rwa [← resume_ofOutcome pending] at later
  · intro insertions inserted
    rcases returned with ⟨stopped, request | output⟩
    · rcases inserted with ⟨reading, inserts⟩
      exact ⟨inserts.tracks.right, inserts.tracks.given⟩
    · rcases inserted with ⟨last, inserts, _⟩
      exact ⟨inserts.tracks.right, inserts.tracks.given⟩

end Preprocessor

end ScriptPreprocessor
