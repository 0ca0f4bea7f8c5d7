import ScriptPreprocessor.Run.Preprocessor
import ScriptPreprocessor.Text.Names

namespace ScriptPreprocessor

/-!
# The names that a run can ask for

A run asks only for names that stand in an `#include` line of a unit it has, and never for a unit
that it has been given.  While it runs, the names it can still ask for do not increase; they
increase only by the names in a unit that answers a request.

So a run comes to its end when its requests are answered with units of finitely many texts, wherever
these come from.  Every such answer leaves fewer names open, and between two of them the potential
of the run falls (`Preprocessor.remaining`).
-/

def SourceUnit.targets (unit : SourceUnit) : List Text :=
  Directive.targets unit.lines

namespace Preprocessor

/-- The names that the unread lines on a stack can ask for. -/
def stackTargets (frames : List Frame) : List Text :=
  frames.flatMap fun frame => Directive.targets frame.unread

/-- The names that known units can ask for.  They count even when a unit has been left, since it may
be spliced again. -/
def unitTargets (resolved : ResolvedUnits) : List Text :=
  resolved.flatMap fun entry => entry.2.targets

/-- The names that a run can ask for without being given another unit. -/
def targets (preprocessor : Preprocessor) : List Text :=
  stackTargets preprocessor.frames ++ unitTargets preprocessor.resolved

def knows (preprocessor : Preprocessor) (target : Text) : Bool :=
  (preprocessor.resolved.lookup target).isSome

theorem targets_of_lookup {resolved : ResolvedUnits} {target : Text} {unit : SourceUnit}
    (found : resolved.lookup target = some unit) : unit.targets ⊆ unitTargets resolved := by
  intro name member
  exact List.mem_flatMap.2 ⟨(target, unit), mem_of_lookup_eq_some found, member⟩

/-! ## One step -/

/-- What an include leads to: known units stay the same, and nothing new can be asked for. -/
theorem Decides.targets {preprocessor next : Preprocessor} {origin : Origin}
    {location : Option Location} {asked : Option Text}
    (decides : Decides preprocessor origin location asked (.next next)) :
    next.resolved = preprocessor.resolved ∧ next.targets ⊆ preprocessor.targets := by
  cases decides with
  | plain | skip | cycle => exact ⟨rfl, fun _ member => member⟩
  | reuse always found fresh =>
    refine ⟨rfl, ?_⟩
    have known := targets_of_lookup found
    simp only [Preprocessor.targets, stackTargets, List.flatMap_cons, List.append_assoc]
    exact List.append_subset.2
      ⟨fun name member => List.mem_append_right _ (known member), fun _ member => member⟩

/-- Behind a line, nothing new can be asked for. -/
theorem targets_of_apply {preprocessor : Preprocessor} {frame : Frame} {below : List Frame}
    {line : Text} {unread : List Text} (origin : Origin) (effect : LineEffect)
    (stack : preprocessor.frames = frame :: below) (lines : frame.unread = line :: unread) :
    (preprocessor.apply origin effect (advance frame unread effect.state :: below)).targets ⊆
      preprocessor.targets := by
  intro name member
  simp only [targets, stackTargets, apply, advance, stack, lines, List.flatMap_cons,
    List.mem_append, Directive.targets] at member ⊢
  rcases member with (inFrame | inBelow) | inUnits
  · refine .inl (.inl ?_)
    obtain ⟨text, inUnread, asked⟩ := List.mem_filterMap.1 inFrame
    exact List.mem_filterMap.2 ⟨text, List.mem_cons_of_mem _ inUnread, asked⟩
  · exact .inl (.inr inBelow)
  · exact .inr inUnits

/-- The name that the line read next asks for is among the names that can be asked for. -/
theorem mem_targets_of_read {preprocessor : Preprocessor} {frame : Frame} {below : List Frame}
    {line target : Text} {unread : List Text} {state : LineState} {origin : Origin}
    (stack : preprocessor.frames = frame :: below) (lines : frame.unread = line :: unread)
    (asked : (state.read origin line).target = some target) :
    target ∈ preprocessor.targets := by
  have named := LineState.target_eq_of_read asked
  simp [targets, stackTargets, stack, lines, Directive.targets, named]

/-- A step keeps the known units, and nothing new can be asked for behind it. -/
theorem targets_of_step {preprocessor next : Preprocessor}
    (stepped : preprocessor.step = .next next) :
    next.resolved = preprocessor.resolved ∧ next.targets ⊆ preprocessor.targets := by
  cases steps_of_eq stepped with
  | leave stack =>
    refine ⟨rfl, fun name member => ?_⟩
    simp only [targets, stackTargets, stack, List.flatMap_cons, List.mem_append] at member ⊢
    exact member.imp .inr id
  | read origin effect stack lines place reads decides =>
    have narrowed := targets_of_apply origin effect stack lines
    exact ⟨decides.targets.1, fun _ member => narrowed (decides.targets.2 member)⟩

/-- What holds of a request and of the preprocessor that waits for its answer, seen from the
preprocessor that made it. -/
structure Asks (preprocessor paused : Preprocessor) (request : IncludeRequest) : Prop where
  resolved : paused.resolved = preprocessor.resolved
  targets : paused.targets ⊆ preprocessor.targets
  mem_targets : request.target ∈ preprocessor.targets
  unknown : preprocessor.knows request.target = false
  pending : paused.pending = some request

theorem asks_of_step {preprocessor paused : Preprocessor} {request : IncludeRequest}
    (stepped : preprocessor.step = .pause paused request) :
    preprocessor.Asks paused request := by
  cases steps_of_eq stepped with
  | read origin effect stack lines place reads decides =>
    have narrowed := targets_of_apply origin effect stack lines
    rcases decides.of_pause with ⟨asked, unknown, rfl⟩
    rw [reads] at asked
    exact ⟨rfl, narrowed, mem_targets_of_read stack lines asked,
      Option.isSome_eq_false_iff.2 (Option.isNone_iff_eq_none.2 unknown), rfl⟩

/-! ## Runs -/

/-- A run that pauses asks for a name that its units can ask for and that it does not know. -/
theorem asks_of_run {preprocessor paused : Preprocessor} {request : IncludeRequest}
    (ran : preprocessor.run = (paused, .paused request)) : preprocessor.Asks paused request := by
  fun_induction run preprocessor with
  | case1 preprocessor next stepped ih =>
    obtain ⟨resolved, targets⟩ := targets_of_step stepped
    have asks := ih ran
    exact ⟨asks.resolved.trans resolved, fun _ member => targets (asks.targets member),
      targets asks.mem_targets, by simpa [knows, resolved] using asks.unknown, asks.pending⟩
  | case2 preprocessor stopped asked stepped =>
    simp only [Prod.mk.injEq, RunResult.paused.injEq] at ran
    obtain ⟨rfl, rfl⟩ := ran
    exact asks_of_step stepped
  | case3 => simp at ran

/-! ## Answers -/

/-- A unit that answers a request adds only the names in it. -/
theorem targets_of_splice {preprocessor : Preprocessor} {request : IncludeRequest}
    {unit : SourceUnit} :
    (preprocessor.splice request unit).targets ⊆
      preprocessor.targets ++ unit.withFinalNewline.targets := by
  intro name member
  simp only [targets, stackTargets, unitTargets, splice, Frame.ofUnit, List.flatMap_cons,
    List.flatMap_append, List.flatMap_nil, List.append_nil, List.mem_append] at member ⊢
  rcases member with (inUnit | inStack) | inKnown | inUnit
  · exact .inr inUnit
  · exact .inl (.inl inStack)
  · exact .inl (.inr inKnown)
  · exact .inr inUnit

/-- An answer is found under its name, unless another unit was known under it before. -/
theorem lookup_splice (preprocessor : Preprocessor) (request : IncludeRequest) (unit : SourceUnit)
    (name : Text) :
    (preprocessor.splice request unit).resolved.lookup name =
      (preprocessor.resolved.lookup name).or
        (if name = request.target then some unit.withFinalNewline else none) := by
  simp only [splice, List.lookup_append]
  by_cases same : name = request.target
  · simp [same]
  · simp [same, List.lookup_cons, beq_eq_false_iff_ne.2 same]

/-- An answered name is known, and every name that was known stays so. -/
theorem knows_splice {preprocessor : Preprocessor} {request : IncludeRequest} {unit : SourceUnit}
    {name : Text} :
    (preprocessor.splice request unit).knows name =
      (preprocessor.knows name || name == request.target) := by
  rw [knows, lookup_splice, Option.isSome_or, knows]
  by_cases same : name = request.target <;> simp [same]

/-- A failure adds no name. -/
theorem targets_of_fail {preprocessor : Preprocessor} {request : IncludeRequest}
    {failure : IncludeFailure} :
    (preprocessor.fail request failure).targets = preprocessor.targets :=
  rfl

theorem knows_fail {preprocessor : Preprocessor} {request : IncludeRequest}
    {failure : IncludeFailure} {name : Text} :
    (preprocessor.fail request failure).knows name = preprocessor.knows name :=
  rfl

/-! ## What remains to be done -/

/-- The names that texts can ask for once they are spliced. -/
def textTargets (texts : List Text) : List Text :=
  texts.flatMap fun text => Directive.targets text.withFinalNewline.lines

theorem textTargets_subset {fewer more : List Text} (contained : fewer ⊆ more) :
    textTargets fewer ⊆ textTargets more := by
  intro name member
  obtain ⟨text, known, inText⟩ := List.mem_flatMap.1 member
  exact List.mem_flatMap.2 ⟨text, contained known, inText⟩

theorem targets_subset_textTargets {texts : List Text} {unit : SourceUnit}
    (known : unit.text ∈ texts) : unit.withFinalNewline.targets ⊆ textTargets texts :=
  fun _ member => List.mem_flatMap.2 ⟨unit.text, known, member⟩

/-- The names that can be asked for and have not been answered with a unit, when all answers have
some texts.  The list may repeat a name; only the number of different ones matters. -/
def openNames (texts : List Text) (preprocessor : Preprocessor) : List Text :=
  (textTargets texts ++ preprocessor.targets).filter fun name => !preprocessor.knows name

/-- An answer leaves fewer names open when it is a unit, and no more names otherwise. -/
theorem openNames_answered {texts fewer : List Text} {preprocessor paused : Preprocessor}
    {request : IncludeRequest} {outcome : IncludeOutcome}
    (asks : preprocessor.Asks paused request) (contained : fewer ⊆ texts)
    (known : ∀ unit, outcome = .ok unit → unit.text ∈ texts) :
    Names.count (openNames fewer (paused.answered request outcome)) <
        Names.count (openNames texts preprocessor) ∨
      Names.count (openNames fewer (paused.answered request outcome)) ≤
          Names.count (openNames texts preprocessor) ∧
        (paused.answered request outcome).potential = paused.potential := by
  have less := textTargets_subset contained
  have knows : ∀ name, paused.knows name = preprocessor.knows name := by
    simp [Preprocessor.knows, asks.resolved]
  cases outcome with
  | ok unit =>
    refine .inl (Names.count_lt request.target ?_ ?_ ?_)
    · intro name member
      simp only [openNames, answered, knows_splice, knows, List.mem_filter,
        List.mem_append] at member ⊢
      obtain ⟨possible, fresh⟩ := member
      refine ⟨?_, by simp_all⟩
      rcases possible with inTexts | inUnits
      · exact .inl (less inTexts)
      · rcases List.mem_append.1 (targets_of_splice inUnits) with earlier | inUnit
        · exact .inr (asks.targets earlier)
        · exact .inl (targets_subset_textTargets (known unit rfl) inUnit)
    · simp [openNames, asks.mem_targets, asks.unknown]
    · simp [openNames, answered, knows_splice]
  | error failure =>
    refine .inr ⟨Names.count_le ?_, rfl⟩
    intro name member
    simp only [openNames, answered, knows_fail, targets_of_fail, knows, List.mem_filter,
      List.mem_append] at member ⊢
    exact ⟨member.1.imp (fun inTexts => less inTexts) fun inUnits => asks.targets inUnits,
      member.2⟩

/-- What a run still has to do: the names it may still be given units for, and its potential.  The
first falls with every unit that is given, which may raise the second. -/
def remaining (texts : List Text) (preprocessor : Preprocessor) : Nat × Nat :=
  (Names.count (openNames texts preprocessor), preprocessor.potential)

/-- A step that goes on leaves less to be done. -/
theorem remaining_of_next (texts : List Text) {preprocessor next : Preprocessor}
    (stepped : preprocessor.step = .next next) :
    Prod.Lex (· < ·) (· < ·) (next.remaining texts) (preprocessor.remaining texts) := by
  have kept := targets_of_step stepped
  have noMore :
      Names.count (openNames texts next) ≤ Names.count (openNames texts preprocessor) := by
    apply Names.count_le
    intro name member
    simp only [openNames, knows, kept.1, List.mem_filter, List.mem_append] at member ⊢
    exact ⟨member.1.imp id fun inUnits => kept.2 inUnits, member.2⟩
  have lower := potential_lt_of_step stepped
  rcases Nat.lt_or_eq_of_le noMore with fewer | same
  · exact Prod.Lex.left _ _ fewer
  · unfold remaining
    rw [same]
    exact Prod.Lex.right _ lower

/-- Behind an answer, less remains to be done. -/
theorem remaining_answered {texts fewer : List Text} {preprocessor paused : Preprocessor}
    {request : IncludeRequest} {outcome : IncludeOutcome}
    (asks : preprocessor.Asks paused request) (lower : paused.potential < preprocessor.potential)
    (contained : fewer ⊆ texts) (known : ∀ unit, outcome = .ok unit → unit.text ∈ texts) :
    Prod.Lex (· < ·) (· < ·) ((paused.answered request outcome).remaining fewer)
      (preprocessor.remaining texts) := by
  rcases openNames_answered asks contained known with less | ⟨noMore, same⟩
  · exact Prod.Lex.left _ _ less
  · rcases Nat.lt_or_eq_of_le noMore with less | equal
    · exact Prod.Lex.left _ _ less
    · unfold remaining
      rw [equal, same]
      exact Prod.Lex.right _ lower

end Preprocessor

end ScriptPreprocessor
