import ScriptPreprocessor.Proofs.Run.Units

namespace ScriptPreprocessor

/-!
# Conversations

A run that meets an unknown include stops and asks, and it goes on with the answer.  What is asked
and answered in this way, from the start on, is a conversation (`Preprocessor.Conversation`).  It
ends when the run is finished; between two calls the run has produced only a part of its output.

Whatever is asked for is named by an include, on the line that the request gives: a line of the main
unit or of a unit that is known by then (`Preprocessor.Conversation.standsIn`).

Nothing is said here about where answers come from.  That is what files, an inventory or a store of
any other kind come to; if all their units have one of finitely many texts, the conversation ends
(`Preprocessor.Conversation.ends`).
-/

/-- The answer that an outcome is. -/
def IncludeAnswer.ofOutcome : IncludeOutcome → IncludeAnswer
  | .ok unit => .resolved unit
  | .error failure => .failed failure

theorem IncludeAnswer.ofOutcome_eq_resolved_iff {outcome : IncludeOutcome} {unit : SourceUnit} :
    ofOutcome outcome = .resolved unit ↔ outcome = .ok unit := by
  cases outcome <;> simp [ofOutcome]

/-- A request, with the answer it was given. -/
structure Exchange where
  request : IncludeRequest
  answer : IncludeAnswer
  deriving DecidableEq, Repr

/-- How requests are answered, given what was asked and answered before. -/
abbrev Answering := List Exchange → IncludeRequest → IncludeAnswer

/-- Every request is answered at once, and a unit that is the answer has one of some texts. -/
structure Answering.SettlesWith (texts : List Text) (answering : Answering) : Prop where
  settled : ∀ exchanges request, ∃ outcome, answering exchanges request = .ofOutcome outcome
  known : ∀ exchanges request unit,
    answering exchanges request = .resolved unit → unit.text ∈ texts

namespace Answering

variable {σ : Type} (lookUp : σ → IncludeRequest → IncludeOutcome × σ)

/-- The state of whatever is looked up in, when some requests have been. -/
def behind (state : σ) (exchanges : List Exchange) : σ :=
  exchanges.foldl (fun held exchange => (lookUp held exchange.request).2) state

/-- The answers of whatever is looked up in: files, an inventory, or any other store.  Every look-up
finds it in the state that those before have left. -/
def ofLookUp (state : σ) : Answering :=
  fun exchanges request => .ofOutcome (lookUp (behind lookUp state exchanges) request).1

variable {lookUp}

/-- Looking up settles every request with the texts that are at hand at first, if it adds none. -/
theorem settlesWith_ofLookUp {texts : σ → List Text}
    (kept : ∀ state request, texts (lookUp state request).2 ⊆ texts state)
    (known : ∀ state request unit, (lookUp state request).1 = .ok unit → unit.text ∈ texts state)
    (state : σ) : (ofLookUp lookUp state).SettlesWith (texts state) := by
  have contained (exchanges : List Exchange) :
      texts (behind lookUp state exchanges) ⊆ texts state := by
    induction exchanges using List.reverseRecOn with
    | nil => exact List.Subset.refl _
    | append_singleton exchanges exchange ih =>
      rw [behind, List.foldl_concat]
      exact fun _ member => ih (kept _ _ member)
  refine ⟨fun exchanges request => ⟨_, rfl⟩, fun exchanges request unit answered => ?_⟩
  exact contained exchanges
    (known _ request unit (IncludeAnswer.ofOutcome_eq_resolved_iff.1 answered))

end Answering

/-- What a run waits for when a call returns; a finished run waits for nothing. -/
def RunResult.request? : RunResult → Option IncludeRequest
  | .paused request => some request
  | .finished _ => none

/-- A request is about an include that stands on its line. -/
def IncludeRequest.StandsIn (units : List SourceUnit) (request : IncludeRequest) : Prop :=
  ∃ unit ∈ units, unit.name = request.includer ∧ ∃ index line, request.line = index + 1 ∧
    unit.line? index = some line ∧ Directive.lineTarget? line = some request.target

theorem IncludeRequest.StandsIn.mono {units more : List SourceUnit} {request : IncludeRequest}
    (contained : units ⊆ more) (stands : request.StandsIn units) : request.StandsIn more := by
  rcases stands with ⟨unit, member, place⟩
  exact ⟨unit, contained member, place⟩

namespace Preprocessor

/-- What has been produced when a call returns: the output, or as much of it as there is. -/
def produced : Preprocessor × RunResult → RunOutput
  | (stopped, .paused _) => stopped.output
  | (_, .finished output) => output

/-- What a fresh preprocessor asks while it expands a main unit and how it is answered, with what
the last call has come to. -/
inductive Conversation (options : RunOptions) (environment : Environment) (main : SourceUnit)
    (answering : Answering) : List Exchange → Preprocessor × RunResult → Prop
  | start : Conversation options environment main answering []
      ((ofEnvironment options environment).start main)
  | answer {exchanges : List Exchange} {waiting : Preprocessor} {request : IncludeRequest}
      (earlier : Conversation options environment main answering exchanges
        (waiting, .paused request)) :
      Conversation options environment main answering
        (exchanges ++ [⟨request, answering exchanges request⟩])
        (waiting.resume (answering exchanges request))

variable {options : RunOptions} {environment : Environment} {main : SourceUnit}
  {answering : Answering}

theorem resume_ofOutcome {preprocessor : Preprocessor} {request : IncludeRequest}
    (waiting : preprocessor.pending = some request) (outcome : IncludeOutcome) :
    preprocessor.resume (.ofOutcome outcome) = (preprocessor.answered request outcome).run := by
  unfold resume
  rw [waiting]
  cases outcome <;> rfl

/-! ## Where requests come from -/

/-- A run waits for the answer to a request, which an include of a unit that it knows has made. -/
structure IsWaiting (main : SourceUnit) (request : IncludeRequest) (stopped : Preprocessor) :
    Prop where
  orderly : stopped.IsOrderly main
  pending : stopped.pending = some request
  place : request.StandsIn (main :: stopped.output.units)

variable {preprocessor paused : Preprocessor} {request : IncludeRequest}

/-- The request of a run names what an include asks for, on the line that was read last. -/
theorem IsOrderly.isWaiting (orderly : preprocessor.IsOrderly main)
    (idle : preprocessor.pending = none) (stepped : preprocessor.step = .pause paused request) :
    paused.IsWaiting main request := by
  have waits := (asks_of_step stepped).pending
  have move : Move preprocessor preprocessor.reading? paused :=
    move_of_step (by rw [stepped]; rfl)
  refine ⟨orderly.move idle move, waits, ?_⟩
  generalize preprocessor.reading? = reading at move
  cases move with
  | leave => exact absurd (idle.symm.trans waits) (by simp)
  | @read frame below line unread _ stack lines placement =>
    have isFrom := orderly.isFrom (Move.read stack lines placement)
    cases placement with
    | plain | skip | cycle | reuse => exact absurd (idle.symm.trans waits) (by simp)
    | @ask target asked unknown fresh =>
      cases waits
      refine ⟨frame.unit, ?_, rfl, frame.linesRead, line, rfl, isFrom.found,
        LineState.target_eq_of_read asked⟩
      cases inside : (preprocessor.readingOf frame below line).isIncluded with
      | false => exact isFrom.outer inside ▸ List.mem_cons_self
      | true =>
        rcases isFrom.included inside with ⟨key, known⟩
        exact List.mem_cons_of_mem _ (List.mem_map.2 ⟨_, known, rfl⟩)

/-- A run adds no unit, and it asks for what an include names. -/
theorem IsOrderly.run (orderly : preprocessor.IsOrderly main)
    (idle : preprocessor.pending = none) :
    (produced preprocessor.run).units = preprocessor.output.units ∧
      ∀ stopped request, preprocessor.run = (stopped, .paused request) →
        stopped.IsWaiting main request := by
  fun_induction Preprocessor.run preprocessor with
  | case1 preprocessor next stepped ih =>
    have move : Move preprocessor preprocessor.reading? next :=
      move_of_step (by rw [stepped]; rfl)
    have later := ih (orderly.move idle move) ((pending_of_next stepped).trans idle)
    exact ⟨later.1.trans (congrArg (List.map Prod.snd) (resolved_of_move move)), later.2⟩
  | case2 preprocessor paused request stepped =>
    have move : Move preprocessor preprocessor.reading? paused :=
      move_of_step (by rw [stepped]; rfl)
    refine ⟨congrArg (List.map Prod.snd) (resolved_of_move move), ?_⟩
    rintro _ _ ⟨⟩
    exact orderly.isWaiting idle stepped
  | case3 preprocessor stepped =>
    refine ⟨rfl, ?_⟩
    rintro _ _ ⟨⟩

/-- With an answer a run keeps its units, and when it asks again, an include names what it asks
for. -/
theorem IsWaiting.resume (waiting : preprocessor.IsWaiting main request)
    (answer : IncludeAnswer) :
    preprocessor.output.units ⊆ (produced (preprocessor.resume answer)).units ∧
      ∀ stopped again, preprocessor.resume answer = (stopped, .paused again) →
        stopped.IsWaiting main again := by
  unfold Preprocessor.resume
  simp only [waiting.pending]
  cases answer with
  | pending =>
    refine ⟨List.Subset.refl _, ?_⟩
    rintro _ _ ⟨⟩
    exact waiting
  | resolved unit =>
    have later := (waiting.orderly.answered waiting.pending (.ok unit)).run rfl
    refine ⟨?_, later.2⟩
    rw [later.1]
    simp only [Preprocessor.output, Preprocessor.answered, splice, List.map_append]
    exact List.subset_append_left _ _
  | failed failure =>
    have later := (waiting.orderly.answered waiting.pending (.error failure)).run rfl
    exact ⟨later.1 ▸ List.Subset.refl _, later.2⟩

/-- What is asked for is named by an include of the main unit or of a unit that is known. -/
theorem Conversation.standsIn {exchanges : List Exchange} {returned : Preprocessor × RunResult}
    (conversation : Conversation options environment main answering exchanges returned) :
    (∀ exchange ∈ exchanges, exchange.request.StandsIn (main :: (produced returned).units)) ∧
      ∀ stopped request, returned = (stopped, .paused request) →
        stopped.IsWaiting main request := by
  induction conversation with
  | start =>
    exact ⟨List.forall_mem_nil _, ((isOrderly_enter options environment main).run rfl).2⟩
  | @answer exchanges stopped request earlier ih =>
    have waiting := ih.2 stopped request rfl
    have later := waiting.resume (answering exchanges request)
    have contained := List.cons_subset_cons main later.1
    refine ⟨List.forall_mem_append.2 ⟨?_, ?_⟩, later.2⟩
    · exact fun exchange member => (ih.1 exchange member).mono contained
    · exact List.forall_mem_singleton.2 (waiting.place.mono contained)

/-! ## Where conversations end -/

/-- There is one conversation of every length at most. -/
theorem Conversation.eq_of_length {exchanges others : List Exchange}
    {returned other : Preprocessor × RunResult}
    (conversation : Conversation options environment main answering exchanges returned)
    (another : Conversation options environment main answering others other)
    (sameLength : exchanges.length = others.length) : exchanges = others ∧ returned = other := by
  induction conversation generalizing others other with
  | start =>
    cases another with
    | start => exact ⟨rfl, rfl⟩
    | answer => simp at sameLength
  | answer _ ih =>
    cases another with
    | start => simp at sameLength
    | answer earlier =>
      rcases ih earlier (by simpa using sameLength) with ⟨rfl, same⟩
      cases same
      exact ⟨rfl, rfl⟩

/-- A conversation has had every beginning of what was asked and answered. -/
theorem Conversation.take {exchanges : List Exchange} {returned : Preprocessor × RunResult}
    (conversation : Conversation options environment main answering exchanges returned)
    (count : Nat) : ∃ earlier,
      Conversation options environment main answering (exchanges.take count) earlier := by
  induction conversation with
  | start =>
    rw [List.take_nil]
    exact ⟨_, .start⟩
  | @answer exchanges waiting request earlier ih =>
    rcases Nat.lt_or_ge exchanges.length count with beyond | within
    · rw [List.take_of_length_le (by rw [List.length_append]; exact beyond)]
      exact ⟨_, earlier.answer⟩
    · rw [List.take_append_of_le_length within]
      exact ih

/-- Behind its end a conversation does not go on. -/
theorem Conversation.prefix_of_finished {exchanges others : List Exchange}
    {stopped : Preprocessor} {output : RunOutput} {returned : Preprocessor × RunResult}
    (ended : Conversation options environment main answering exchanges
      (stopped, .finished output))
    (another : Conversation options environment main answering others returned) :
    others <+: exchanges := by
  induction another with
  | start => exact List.nil_prefix
  | @answer others waiting request earlier ih =>
    rcases ih with ⟨rest, rfl⟩
    cases rest with
    | nil =>
      -- The two have been through the same, but only one of them waits.
      have same := ended.eq_of_length earlier (by simp)
      cases same.2
    | cons next rest =>
      rcases ended.take (others.length + 1) with ⟨reached, shorter⟩
      have same := shorter.eq_of_length earlier.answer (by simp)
      rw [← same.1]
      exact List.take_prefix _ _

/-- Wherever a conversation has let the run go on, it comes to an end from there. -/
theorem Conversation.ends_of_run {texts : List Text}
    (settles : answering.SettlesWith texts) (preprocessor : Preprocessor)
    {exchanges : List Exchange}
    (reached : Conversation options environment main answering exchanges preprocessor.run) :
    ∃ others stopped output,
      Conversation options environment main answering others (stopped, .finished output) := by
  cases ran : preprocessor.run with
  | mk stopped result =>
    rw [ran] at reached
    cases result with
    | finished output => exact ⟨exchanges, stopped, output, reached⟩
    | paused request =>
      have asks := asks_of_run ran
      rcases settles.settled exchanges request with ⟨outcome, settled⟩
      have later := reached.answer
      rw [settled, resume_ofOutcome asks.pending] at later
      exact ends_of_run settles (stopped.answered request outcome) later
  termination_by preprocessor.remaining texts
  decreasing_by
    refine remaining_answered asks (potential_lt_of_run ran) (List.Subset.refl _) ?_
    rintro unit rfl
    exact settles.known exchanges request unit settled

/-- If every request is answered at once, and with units of finitely many texts, there is one
conversation that comes to its end, and every other is a beginning of it. -/
theorem Conversation.ends {texts : List Text} (options : RunOptions) (environment : Environment)
    (main : SourceUnit) (settles : answering.SettlesWith texts) :
    ∃ exchanges stopped output,
      Conversation options environment main answering exchanges (stopped, .finished output) ∧
      ∀ others returned, Conversation options environment main answering others returned →
        others <+: exchanges := by
  rcases ends_of_run settles ((ofEnvironment options environment).enter main) .start with
    ⟨exchanges, stopped, output, ended⟩
  exact ⟨exchanges, stopped, output, ended, fun _ _ another => ended.prefix_of_finished another⟩

end Preprocessor

end ScriptPreprocessor
