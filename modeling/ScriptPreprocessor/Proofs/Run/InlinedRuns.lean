import ScriptPreprocessor.Proofs.Run.Splices
import ScriptPreprocessor.Proofs.Run.Surroundings

namespace ScriptPreprocessor

/-!
# Runs and inlined runs

When every include is answered from the same units, a run comes to the text to which the single unit
comes in which the includes are written out (`Preprocessor.expanded_of_inlined`).

The run keeps a stack of units with blocks of their own, the single unit has one list of blocks.
At every line the blocks of the single unit are those of the innermost unit with those of the units
below it around them, and these are active; so the line is read alike (`Preprocessor.Abreast`).  An
include in a skipped branch is passed over by the run, and the lines that stand for it are skipped
one by one.  The induction is on how the includes are written out, for it is there that a unit's
lines come to an end.
-/

open Text (Spelled)

namespace LineState

variable {state : LineState} {origin : Origin}

/-- An active include asks for the unit that it names. -/
theorem target_of_active {text target : Text} (on : state.enabled = true)
    (active : state.isActive = true) (asked : Directive.lineTarget? text = some target) :
    (state.read origin text).target = some target := by
  rcases Option.bind_eq_some_iff.1 asked with ⟨directive, parsed, named⟩
  split at named
  · next kind =>
    simp [read, parsed, on, kind, DirectiveKind.isConditional, active, readDirective,
      readInclude, named]
  · cases named

theorem bracket?_of_target {line : PlacedLine} {target : Text}
    (asked : Directive.lineTarget? line.text = some target) : line.bracket? = none := by
  rcases Option.bind_eq_some_iff.1 asked with ⟨directive, parsed, named⟩
  split at named
  · next kind => simp [PlacedLine.bracket?, parsed, Option.filter, kind,
      DirectiveKind.isConditional]
  · cases named

/-- An include in a skipped branch does nothing. -/
theorem read_of_skipped_target {text target : Text} (on : state.enabled = true)
    (skipped : state.isActive = false) (asked : Directive.lineTarget? text = some target) :
    state.read origin text = state.skip := by
  obtain ⟨line, rfl⟩ : ∃ line : PlacedLine, line.text = text := ⟨⟨0, text⟩, rfl⟩
  exact read_of_skipped (bracket?_of_target asked) on skipped origin

namespace Alike

variable {parts : List Text} {outer : List Block} {inner whole : LineState}

/-- At the beginning of a unit that an active line includes. -/
theorem enter (alike : Alike parts outer inner whole) (active : inner.isActive = true) :
    Alike parts (inner.blocks ++ outer) (inner.within []) whole := by
  refine ⟨alike.same, alike.on, alike.puts, alike.blocks, ?_⟩
  have same : Block.isActive (inner.blocks ++ outer) = whole.isActive :=
    (Block.isActive_congr alike.blocks).symm
  rw [same, alike.isActive, active]

/-- Behind a unit that has closed its blocks. -/
theorem leave {blocks : List Block} (alike : Alike parts (blocks ++ outer) inner whole)
    (closed : inner.blocks = []) (surrounded : Block.isActive outer = true) :
    Alike parts outer (inner.within blocks) whole := by
  refine ⟨alike.same, alike.on, alike.puts, ?_, surrounded⟩
  rw [alike.blocks, closed]
  rfl

end Alike

end LineState

namespace Preprocessor

/-! ## Answers from given units -/

/-- The output of a run when every request is answered with the unit of that name. -/
inductive Completes (units : ResolvedUnits) : Preprocessor → RunOutput → Prop
  | finished {preprocessor stopped : Preprocessor} {output : RunOutput}
      (ran : preprocessor.run = (stopped, .finished output)) : Completes units preprocessor output
  | paused {preprocessor paused : Preprocessor} {request : IncludeRequest} {unit : SourceUnit}
      {output : RunOutput} (ran : preprocessor.run = (paused, .paused request))
      (known : units.lookup request.target = some unit)
      (later : Completes units (paused.answered request (.ok unit)) output) :
      Completes units preprocessor output

/-- There is one output at most. -/
theorem Completes.unique {units : ResolvedUnits} {preprocessor : Preprocessor}
    {first second : RunOutput} (completes : Completes units preprocessor first)
    (other : Completes units preprocessor second) : second = first := by
  induction completes with
  | finished ran =>
    cases other with
    | finished sameRan =>
      rw [ran] at sameRan
      cases sameRan
      rfl
    | paused sameRan _ _ =>
      rw [ran] at sameRan
      cases sameRan
  | paused ran known _ ih =>
    cases other with
    | finished sameRan =>
      rw [ran] at sameRan
      cases sameRan
    | paused sameRan sameKnown later =>
      rw [ran] at sameRan
      cases sameRan
      rw [known] at sameKnown
      cases sameKnown
      exact ih later

/-- Whatever the later preprocessor comes to, the earlier one comes to. -/
def LeadsTo (units : ResolvedUnits) (earlier later : Preprocessor) : Prop :=
  ∀ output, Completes units later output → Completes units earlier output

variable {units : ResolvedUnits} {preprocessor next paused : Preprocessor}

theorem LeadsTo.refl : LeadsTo units preprocessor preprocessor :=
  fun _ completes => completes

theorem LeadsTo.trans (first : LeadsTo units preprocessor next)
    (second : LeadsTo units next paused) : LeadsTo units preprocessor paused :=
  fun output completes => first output (second output completes)

theorem leadsTo_of_next (stepped : preprocessor.step = .next next) :
    LeadsTo units preprocessor next := by
  intro output completes
  have same := run_of_next stepped
  cases completes with
  | finished ran => exact .finished (same.trans ran)
  | paused ran known later => exact .paused (same.trans ran) known later

theorem leadsTo_of_pause {request : IncludeRequest} {unit : SourceUnit}
    (stepped : preprocessor.step = .pause paused request)
    (known : units.lookup request.target = some unit) :
    LeadsTo units preprocessor (paused.answered request (.ok unit)) :=
  fun _ completes => .paused (run_of_pause stepped) known completes

/-! ## Side by side -/

/-- Units are always spliced, and they were answered from the given ones. -/
structure IsServed (units : ResolvedUnits) (preprocessor : Preprocessor) : Prop where
  always : preprocessor.options.includeMode = .always
  resolved : ∀ name unit, preprocessor.resolved.lookup name = some unit →
    ∃ given, units.lookup name = some given ∧ unit = given.withFinalNewline

/-- The answer with the unit of the requested name is one of the given ones. -/
theorem IsServed.answered {request : IncludeRequest} {unit : SourceUnit}
    (served : preprocessor.IsServed units) (known : units.lookup request.target = some unit) :
    (preprocessor.answered request (.ok unit)).IsServed units := by
  refine ⟨served.always, fun name resolved found => ?_⟩
  rw [Preprocessor.answered, lookup_splice] at found
  cases earlier : preprocessor.resolved.lookup name with
  | some other =>
    rw [earlier] at found
    cases found
    exact served.resolved name resolved earlier
  | none =>
    rw [earlier, Option.none_or] at found
    split at found
    · next same =>
      cases found
      exact ⟨unit, same ▸ known, rfl⟩
    · cases found

/-- A run at a line of a unit, and the state in which the single unit is read there.  The given
blocks are those of the units below. -/
structure Abreast (units : ResolvedUnits) (parts : List Text) (outer : List Block)
    (preprocessor : Preprocessor) (frame : Frame) (below : List Frame) (whole : LineState) :
    Prop where
  stack : preprocessor.frames = frame :: below
  served : preprocessor.IsServed units
  alike : LineState.Alike parts outer (preprocessor.lineState frame) whole

variable {parts : List Text} {outer : List Block} {frame : Frame} {below : List Frame}
  {whole : LineState}

/-- Between two points of a run, lines of the innermost unit have been read, and the single unit has
come to a passage. -/
structure Passes (units : ResolvedUnits) (parts : List Text) (outer : List Block)
    (earlier : Preprocessor) (frame : Frame) (below : List Frame) (lines unread : List Text)
    (passage : Passage) (later : Preprocessor) (last : Frame) : Prop where
  leadsTo : LeadsTo units earlier later
  abreast : Abreast units parts outer later last below passage.state
  unread : last.unread = unread
  key : last.key = frame.key
  text : later.text = earlier.text ++ passage.text
  depth : ∀ depth, depthBehind frame.blocks.length lines = some depth →
    last.blocks.length = depth

theorem Passes.andThen {lines more unread : List Text} {first second : Passage}
    {middle last : Frame} (earlier : Passes units parts outer preprocessor frame below lines
      (more ++ unread) first next middle)
    (later : Passes units parts outer next middle below more unread second paused last) :
    Passes units parts outer preprocessor frame below (lines ++ more) unread
      (first.andThen second) paused last := by
  refine ⟨earlier.leadsTo.trans later.leadsTo, later.abreast, later.unread,
    later.key.trans earlier.key, ?_, ?_⟩
  · rw [later.text, earlier.text, Passage.text_andThen, List.append_assoc]
  · intro depth reached
    rw [depthBehind_append] at reached
    rcases Option.bind_eq_some_iff.1 reached with ⟨between, front, behind⟩
    exact later.depth depth (earlier.depth between front ▸ behind)

theorem Abreast.keys (abreast : Abreast units parts outer preprocessor frame below whole) :
    preprocessor.frames.map Frame.key = frame.key :: below.map Frame.key := by
  rw [abreast.stack]
  rfl

/-- The stack has the same names as before. -/
theorem Passes.keys {lines unread : List Text} {passage : Passage} {last : Frame}
    (passes : Passes units parts outer preprocessor frame below lines unread passage next last)
    (abreast : Abreast units parts outer preprocessor frame below whole) :
    next.frames.map Frame.key = preprocessor.frames.map Frame.key := by
  rw [passes.abreast.keys, abreast.keys, passes.key]

/-- The lines that follow still continue and close only blocks of their own unit. -/
theorem Passes.own {lines more unread : List Text} {passage : Passage} {last : Frame}
    (passes : Passes units parts outer preprocessor frame below lines unread passage next last)
    (own : outer = [] ∨ (depthBehind frame.blocks.length (lines ++ more)).isSome) :
    outer = [] ∨ (depthBehind last.blocks.length more).isSome := by
  refine own.imp_right fun reached => ?_
  rcases Option.isSome_iff_exists.1 reached with ⟨depth, found⟩
  rw [depthBehind_append] at found
  rcases Option.bind_eq_some_iff.1 found with ⟨between, front, behind⟩
  rw [passes.depth between front, behind]
  rfl

theorem text_apply (preprocessor : Preprocessor) (origin other : Origin) {first second : LineEffect}
    (same : second.emitted = first.emitted) (frames : List Frame) :
    (preprocessor.apply origin first frames).text =
      preprocessor.text ++ (Passage.ofEffect other second).text := by
  rw [text, emissions_apply, List.flatMap_append, ← text]
  congr 1
  unfold Passage.text Passage.ofEffect
  rw [same]
  cases first.emitted <;> rfl

namespace Abreast

/-- A line that includes nothing. -/
theorem exists_passes_line (abreast : Abreast units parts outer preprocessor frame below whole)
    (hides : HidesOrigin parts) {line : Text} {unread : List Text}
    (shape : frame.unread = line :: unread) (plain : Directive.lineTarget? line = none)
    (noPragma : Directive.lineKind? line ≠ some .pragma) (spelled : Spelled parts line)
    (own : outer = [] ∨ (depthAfter frame.blocks.length (Directive.lineKind? line)).isSome)
    (origin : Origin) :
    ∃ later last, Passes units parts outer preprocessor frame below [line] unread
      (.ofEffect origin (whole.read origin line)) later last := by
  let reading := preprocessor.readingOf frame below line
  have noTarget : reading.effect.target = none := by
    cases asked : reading.effect.target with
    | none => rfl
    | some target =>
      have named : Directive.lineTarget? line = some target := LineState.target_eq_of_read asked
      rw [plain] at named
      cases named
  have stepped := step_of_line abreast.stack shape
  rw [noTarget] at stepped
  have alike := abreast.alike.read hides noPragma spelled own reading.origin origin
  refine ⟨_, advance frame unread reading.effect.state, leadsTo_of_next stepped,
    ⟨rfl, ⟨abreast.served.always, abreast.served.resolved⟩, alike.2⟩, rfl, rfl, ?_, ?_⟩
  · exact text_apply preprocessor reading.origin origin alike.1 _
  · intro depth reached
    rw [depthBehind_singleton] at reached
    exact LineState.depth_of_read abreast.alike.on reached

/-- An include in a skipped branch, when nothing comes of the lines that stand for it. -/
theorem passes_skipped (abreast : Abreast units parts outer preprocessor frame below whole)
    {line target : Text} {unread : List Text} (shape : frame.unread = line :: unread)
    (asked : Directive.lineTarget? line = some target)
    (skipped : (preprocessor.lineState frame).isActive = false) {passage : Passage}
    (noEmissions : passage.emissions = []) (same : passage.state = whole) :
    Passes units parts outer preprocessor frame below [line] unread passage
      (preprocessor.behind frame below line unread)
      { frame with unread, linesRead := frame.linesRead + 1 } := by
  have effect : (preprocessor.readingOf frame below line).effect =
      (preprocessor.lineState frame).skip :=
    LineState.read_of_skipped_target abreast.alike.on skipped asked
  have stepped := step_of_line abreast.stack shape
  rw [effect] at stepped
  have behind : preprocessor.behind frame below line unread =
      { preprocessor with
        frames := { frame with unread, linesRead := frame.linesRead + 1 } :: below } := by
    simp [Preprocessor.behind, apply, effect, LineState.skip, advance, lineState]
  refine ⟨leadsTo_of_next stepped, ?_, rfl, rfl, ?_, ?_⟩
  · rw [behind, same]
    exact ⟨rfl, ⟨abreast.served.always, abreast.served.resolved⟩, abreast.alike⟩
  · rw [behind, Passage.text, noEmissions]
    exact (List.append_nil _).symm
  · intro depth reached
    rw [depthBehind_singleton, depthAfter_of_target asked] at reached
    exact Option.some.inj reached

/-- Behind an active include, the run stands at the beginning of the unit that was included. -/
theorem exists_entered (abreast : Abreast units parts outer preprocessor frame below whole)
    {line target : Text} {unread : List Text} {unit : SourceUnit}
    (shape : frame.unread = line :: unread) (asked : Directive.lineTarget? line = some target)
    (active : (preprocessor.lineState frame).isActive = true)
    (known : units.lookup target = some unit)
    (fresh : target ∉ preprocessor.frames.map Frame.key) :
    ∃ entered, LeadsTo units preprocessor entered ∧ entered.text = preprocessor.text ∧
      Abreast units parts (frame.blocks ++ outer) entered
        (.ofUnit target unit.withFinalNewline)
        ({ frame with unread, linesRead := frame.linesRead + 1 } :: below) whole := by
  have asksTarget : (preprocessor.readingOf frame below line).effect.target = some target :=
    LineState.target_of_active abreast.alike.on active asked
  have notOnce : preprocessor.options.includeMode ≠ .once := by simp [abreast.served.always]
  have notExpanding := mt (exists_key_behind line unread target abreast.stack).1
    (mt List.mem_map.2 fresh)
  have on : frame.enabled = true := abreast.alike.on
  have beginning : (preprocessor.lineState frame).within [] =
      { macros := preprocessor.macros, searchPath := preprocessor.searchPath, enabled := true,
        blocks := [] } := by
    rw [← on]
    rfl
  have alike := abreast.alike.enter active
  rw [beginning] at alike
  have stepped := step_of_line abreast.stack shape
  rw [behind_of_target unread asksTarget] at notExpanding
  rw [asksTarget] at stepped
  simp only [behind_of_target unread asksTarget, includeUnit] at stepped
  rw [if_neg fun once => notOnce once.2, if_neg notExpanding] at stepped
  cases spliced : preprocessor.resolved.lookup target with
  | some resolved =>
    -- The unit was answered before, and it is spliced again.
    rw [spliced] at stepped
    rcases abreast.served.resolved target resolved spliced with ⟨given, sameKnown, rfl⟩
    rw [known] at sameKnown
    cases sameKnown
    refine ⟨_, leadsTo_of_next stepped, rfl, rfl,
      ⟨abreast.served.always, abreast.served.resolved⟩, alike⟩
  | none =>
    rw [spliced] at stepped
    exact ⟨_, leadsTo_of_pause stepped known, rfl, rfl,
      IsServed.answered ⟨abreast.served.always, abreast.served.resolved⟩ known, alike⟩

/-- Behind a unit that has closed its blocks, the run goes on in the unit that included it. -/
theorem exists_left {inner : Frame}
    (abreast : Abreast units parts (frame.blocks ++ outer) preprocessor inner (frame :: below)
      whole)
    (exhausted : inner.unread = []) (closed : inner.blocks = []) (on : frame.enabled = true)
    (surrounded : Block.isActive outer = true) :
    ∃ left, LeadsTo units preprocessor left ∧ left.text = preprocessor.text ∧
      Abreast units parts outer left frame below whole := by
  have stepped := step_of_exhausted abreast.stack exhausted
  have alike := abreast.alike.leave closed surrounded
  have resumed : (preprocessor.lineState inner).within frame.blocks =
      (preprocessor.leave inner (frame :: below)).lineState frame := by
    have stillOn : inner.enabled = true := abreast.alike.on
    simp [lineState, LineState.within, Preprocessor.leave, on, stillOn]
  rw [resumed] at alike
  exact ⟨_, leadsTo_of_next stepped, rfl, rfl, ⟨abreast.served.always, abreast.served.resolved⟩,
    alike⟩

/-- An active include, when the lines of the unit that it includes are passed. -/
theorem exists_passes_include
    (abreast : Abreast units parts outer preprocessor frame below whole)
    {line target : Text} {unread : List Text} {unit : SourceUnit} {passage : Passage}
    (shape : frame.unread = line :: unread) (asked : Directive.lineTarget? line = some target)
    (active : (preprocessor.lineState frame).isActive = true)
    (known : units.lookup target = some unit)
    (fresh : target ∉ preprocessor.frames.map Frame.key) (balanced : unit.IsBalanced)
    (within : ∀ entered,
      Abreast units parts (frame.blocks ++ outer) entered (.ofUnit target unit.withFinalNewline)
        ({ frame with unread, linesRead := frame.linesRead + 1 } :: below) whole →
      ∃ later last, Passes units parts (frame.blocks ++ outer) entered
        (.ofUnit target unit.withFinalNewline)
        ({ frame with unread, linesRead := frame.linesRead + 1 } :: below)
        unit.withFinalNewline.lines [] passage later last) :
    ∃ later last, Passes units parts outer preprocessor frame below [line] unread passage later
      last := by
  rcases abreast.exists_entered shape asked active known fresh with
    ⟨entered, toEntered, enteredText, inside⟩
  rcases within entered inside with ⟨ended, last, passes⟩
  have closed : last.blocks = [] :=
    List.length_eq_zero_iff.1 (passes.depth 0 balanced.depthBehind_withFinalNewline)
  let resumed : Frame := { frame with unread, linesRead := frame.linesRead + 1 }
  have on : resumed.enabled = true := abreast.alike.on
  have atEnd : Abreast units parts (resumed.blocks ++ outer) ended last (resumed :: below)
      passage.state := passes.abreast
  rcases exists_left atEnd passes.unread closed on abreast.alike.surrounded with
    ⟨left, toLeft, leftText, outside⟩
  refine ⟨left, _, toEntered.trans (passes.leadsTo.trans toLeft), outside, rfl, rfl, ?_, ?_⟩
  · rw [leftText, passes.text, enteredText]
  · intro depth reached
    rw [depthBehind_singleton, depthAfter_of_target asked] at reached
    exact Option.some.inj reached

end Abreast

/-! ## The whole run -/

/-- Lines without pragmas that are spelled from given words. -/
def AreOrdinary (parts : List Text) (lines : List Text) : Prop :=
  ∀ line ∈ lines, Directive.lineKind? line ≠ some .pragma ∧ Spelled parts line

/-- The includes on lines lead to no unit of the given names. -/
def AreFresh (units : ResolvedUnits) (keys lines : List Text) : Prop :=
  ∀ target ∈ Directive.targets lines, ∀ key ∈ keys,
    ¬ Relation.ReflTransGen (Includes units) target key

/-- What is asked of the units that a run is answered from. -/
structure AreLinked (units : ResolvedUnits) (parts : List Text) : Prop where
  acyclic : ∀ name, ¬ Relation.TransGen (Includes units) name name
  balanced : ∀ entry ∈ units, entry.2.IsBalanced
  ordinary : ∀ entry ∈ units, AreOrdinary parts entry.2.withFinalNewline.lines

theorem AreFresh.head {keys lines : List Text} {line target : Text}
    (fresh : AreFresh units keys (line :: lines))
    (asked : Directive.lineTarget? line = some target) :
    ∀ key ∈ keys, ¬ Relation.ReflTransGen (Includes units) target key :=
  fresh target (List.mem_filterMap.2 ⟨line, List.mem_cons_self, asked⟩)

theorem AreFresh.tail {keys lines : List Text} {line : Text}
    (fresh : AreFresh units keys (line :: lines)) : AreFresh units keys lines := by
  intro target member
  apply fresh target
  rcases List.mem_filterMap.1 member with ⟨other, inLines, asked⟩
  exact List.mem_filterMap.2 ⟨other, List.mem_cons_of_mem _ inLines, asked⟩

/-- In a unit that was included for the first time on the stack, all includes are fresh again. -/
theorem AreFresh.enter {keys : List Text} {target : Text} {unit : SourceUnit}
    (acyclic : ∀ name, ¬ Relation.TransGen (Includes units) name name)
    (known : units.lookup target = some unit)
    (fresh : ∀ key ∈ keys, ¬ Relation.ReflTransGen (Includes units) target key) :
    AreFresh units (target :: keys) unit.withFinalNewline.lines := by
  intro inner named
  have includes : Includes units target inner :=
    ⟨unit, known, targets_withFinalNewline unit ▸ named⟩
  rw [List.forall_mem_cons]
  refine ⟨fun returns => acyclic target (.head' includes returns), fun key member leads => ?_⟩
  exact fresh key member (.head includes leads)

/-- An include in a skipped branch: the lines that are written out for it are skipped. -/
theorem Abreast.exists_passes_skipped (name : Text) (linked : AreLinked units parts)
    (abreast : Abreast units parts outer preprocessor frame below whole)
    {line target : Text} {unread inner : List Text} {unit : SourceUnit}
    (shape : frame.unread = line :: unread) (asked : Directive.lineTarget? line = some target)
    (skipped : (preprocessor.lineState frame).isActive = false) (listed : (target, unit) ∈ units)
    (inlines : Inlines units unit.withFinalNewline.lines inner) {placed : List PlacedLine}
    (texts : placed.map PlacedLine.text = inner) :
    ∃ later last, Passes units parts outer preprocessor frame below [line] unread
      (whole.readLines name placed) later last := by
  have on : whole.enabled = true := by
    rw [abreast.alike.same]
    exact abreast.alike.on
  have noPragma : ∀ other ∈ placed, Directive.lineKind? other.text ≠ some .pragma := by
    intro other member
    have inInner : other.text ∈ inner := texts ▸ List.mem_map_of_mem member
    rcases inlines.mem_or _ inInner with inUnit | ⟨entry, inUnits, inUnit⟩
    · exact (linked.ordinary _ listed _ inUnit).1
    · exact (linked.ordinary _ inUnits _ inUnit).1
  have closes : depthBehind 0 (placed.map PlacedLine.text) = some 0 := by
    rw [texts, inlines.depthBehind_eq linked.balanced]
    exact (linked.balanced _ listed).depthBehind_withFinalNewline
  rcases LineState.readLines_of_skipped name on rfl (List.forall_mem_nil _)
    (abreast.alike.isActive.trans skipped) noPragma closes with
    ⟨opened, closed, _, noEmissions, same⟩
  rw [List.length_eq_zero_iff.1 closed] at same
  exact ⟨_, _, abreast.passes_skipped shape asked skipped noEmissions
    (same.trans (LineState.within_eq_self rfl))⟩

/-- The run passes all lines of a unit when the single unit reads what was written out for them. -/
theorem exists_passes (name : Text) {lines flat : List Text} (hides : HidesOrigin parts)
    (linked : AreLinked units parts) (inlines : Inlines units lines flat)
    {unread : List Text} {placed : List PlacedLine}
    (abreast : Abreast units parts outer preprocessor frame below whole)
    (shape : frame.unread = lines ++ unread) (ordinary : AreOrdinary parts lines)
    (own : outer = [] ∨ (depthBehind frame.blocks.length lines).isSome)
    (fresh : AreFresh units (preprocessor.frames.map Frame.key) lines)
    (texts : placed.map PlacedLine.text = flat) :
    ∃ later last, Passes units parts outer preprocessor frame below lines unread
      (whole.readLines name placed) later last := by
  induction inlines generalizing preprocessor frame below whole unread placed outer with
  | nil =>
    rw [List.map_eq_nil_iff] at texts
    subst texts
    refine ⟨preprocessor, frame, .refl, abreast, shape, rfl, (List.append_nil _).symm, ?_⟩
    intro depth reached
    exact Option.some.inj reached
  | @line line lines flat plain rest ih =>
    rcases List.map_eq_cons_iff.1 texts with ⟨first, more, rfl, rfl, moreTexts⟩
    rcases List.forall_mem_cons.1 ordinary with ⟨⟨noPragma, spelled⟩, later⟩
    have ownLine : outer = [] ∨
        (depthAfter frame.blocks.length (Directive.lineKind? first.text)).isSome :=
      own.imp_right Option.isSome_of_isSome_bind
    rcases abreast.exists_passes_line hides shape plain noPragma spelled ownLine
      ⟨name, first.number⟩ with ⟨middle, middleFrame, passes⟩
    rcases ih passes.abreast passes.unread later (passes.own own)
      ((passes.keys abreast).symm ▸ fresh.tail) moreTexts with ⟨last, lastFrame, passesRest⟩
    exact ⟨last, lastFrame, passes.andThen passesRest⟩
  | @inclusion line target unit lines inner flat asked known within rest withinIh ih =>
    rcases List.map_eq_append_iff.1 texts with ⟨front, behind, rfl, frontTexts, behindTexts⟩
    rcases List.forall_mem_cons.1 ordinary with ⟨_, later⟩
    have isUnit := mem_of_lookup_eq_some known
    have leads := fresh.head asked
    have passed : ∃ middle middleFrame, Passes units parts outer preprocessor frame below [line]
        (lines ++ unread) (whole.readLines name front) middle middleFrame := by
      cases active : (preprocessor.lineState frame).isActive with
      | true =>
        have new : target ∉ preprocessor.frames.map Frame.key :=
          fun member => leads target member .refl
        refine abreast.exists_passes_include shape asked active known new
          (linked.balanced _ isUnit) fun entered inside => ?_
        refine withinIh inside (List.append_nil _).symm (linked.ordinary _ isUnit)
          (Or.inr ?_) ?_ frontTexts
        · exact Option.isSome_iff_exists.2
            ⟨0, (linked.balanced _ isUnit).depthBehind_withFinalNewline⟩
        · have keys : entered.frames.map Frame.key = target :: preprocessor.frames.map Frame.key :=
            inside.keys.trans (congrArg (target :: ·) abreast.keys.symm)
          exact keys ▸ .enter linked.acyclic known leads
      | false =>
        exact abreast.exists_passes_skipped name linked shape asked active isUnit within frontTexts
    rcases passed with ⟨middle, middleFrame, passes⟩
    rcases ih passes.abreast passes.unread later (passes.own own)
      ((passes.keys abreast).symm ▸ fresh.tail) behindTexts with ⟨last, lastFrame, passesRest⟩
    rw [LineState.readLines_append]
    exact ⟨last, lastFrame, passes.andThen passesRest⟩

/-- The words of everything that a run can write: of the texts, of the predefined values and of the
texts of the built-in macros. -/
def vocabulary (environment : Environment) (main : SourceUnit) (units : ResolvedUnits) :
    List Text :=
  (main :: units.map Prod.snd).flatMap (fun unit => unit.text.words) ++
    (environment.predefined ++ environment.builtins).flatMap fun entry => entry.2.words

variable {environment : Environment} {main : SourceUnit}

/-- From words that do not begin with an underscore, no name that tells where a line stands can be
put together. -/
theorem hidden_of_plain
    (plain : ∀ word ∈ vocabulary environment main units, word.head? ≠ some '_')
    (chosen : List Text) (known : ∀ word ∈ chosen, word ∈ vocabulary environment main units) :
    chosen.flatten ≠ fileMacro ∧ chosen.flatten ≠ lineMacro := by
  have noUnderscore : chosen.flatten.head? ≠ some '_' := by
    intro begins
    rw [List.head?_flatten] at begins
    rcases List.exists_of_findSome?_eq_some begins with ⟨word, member, first⟩
    exact plain word (known word member) first
  constructor <;>
  · intro same
    rw [same] at noUnderscore
    exact noUnderscore rfl

/-- A main unit, and units that can be written into it. -/
structure IsInlinable (environment : Environment) (main : SourceUnit) (units : ResolvedUnits) :
    Prop where
  link : units.Link main
  noPragma : ∀ unit ∈ main :: units.map Prod.snd, ∀ line ∈ unit.lines,
    Directive.lineKind? line ≠ some .pragma
  balanced : ∀ entry ∈ units, entry.2.IsBalanced
  /-- No words are put together to the names that tell where a line stands. -/
  hidden : ∀ chosen : List Text, (∀ word ∈ chosen, word ∈ vocabulary environment main units) →
    chosen.flatten ≠ fileMacro ∧ chosen.flatten ≠ lineMacro

namespace IsInlinable

theorem hides (inlinable : IsInlinable environment main units) :
    HidesOrigin (vocabulary environment main units) := by
  have ofLetters (name : Text) (letters : (name.all fun character =>
      isWordCharacter character && !character.isDigit) = true) :
      ∀ character ∈ name, isWordCharacter character = true ∧ character.isDigit = false := by
    simpa using letters
  constructor
  · intro spelled
    rcases spelled.exists_flatten (ofLetters fileMacro rfl) with ⟨chosen, known, same⟩
    exact (inlinable.hidden chosen known).1 same
  · intro spelled
    rcases spelled.exists_flatten (ofLetters lineMacro rfl) with ⟨chosen, known, same⟩
    exact (inlinable.hidden chosen known).2 same

theorem spelled_text {unit : SourceUnit}
    (listed : unit ∈ main :: units.map Prod.snd) :
    Spelled (vocabulary environment main units) unit.text := by
  refine (Text.spelled_words unit.text).mono fun word member => List.mem_append_left _ ?_
  exact List.mem_flatMap.2 ⟨unit, listed, member⟩

theorem isSpelled_ofEnvironment (maxDepth : Nat) :
    (MacroTable.ofEnvironment environment maxDepth).IsSpelled
      (vocabulary environment main units) := by
  have spelled : ∀ entry ∈ environment.predefined ++ environment.builtins,
      Spelled (vocabulary environment main units) entry.2 := by
    intro entry listed
    refine (Text.spelled_words entry.2).mono fun word member => List.mem_append_right _ ?_
    exact List.mem_flatMap.2 ⟨entry, listed, member⟩
  rw [List.forall_mem_append] at spelled
  exact MacroTable.putsOnly_ofEnvironment maxDepth spelled.2 spelled.1

theorem areOrdinary_main (inlinable : IsInlinable environment main units) :
    AreOrdinary (vocabulary environment main units) main.lines := by
  intro line member
  have spelled : Spelled (vocabulary environment main units) main.text :=
    spelled_text List.mem_cons_self
  exact ⟨inlinable.noPragma main List.mem_cons_self line member, spelled.of_mem_lines member⟩

theorem areLinked (inlinable : IsInlinable environment main units) :
    AreLinked units (vocabulary environment main units) := by
  refine ⟨inlinable.link.acyclic, inlinable.balanced, fun entry inUnits line member => ?_⟩
  have listed : entry.2 ∈ main :: units.map Prod.snd :=
    List.mem_cons_of_mem _ (List.mem_map_of_mem inUnits)
  refine ⟨?_, ((spelled_text listed).withFinalNewline).of_mem_lines member⟩
  have parsed : Directive.parse? line ∈ entry.2.lines.map Directive.parse? := by
    rw [← map_parse?_withFinalNewline]
    exact List.mem_map_of_mem member
  rcases List.mem_map.1 parsed with ⟨other, inUnit, same⟩
  have noPragma := inlinable.noPragma entry.2 listed other inUnit
  rwa [Directive.lineKind?, same] at noPragma

theorem areFresh (inlinable : IsInlinable environment main units) :
    AreFresh units [main.name] main.lines := by
  intro target named key member leads
  rw [List.mem_singleton.1 member] at leads
  rcases Relation.ReflTransGen.cases_tail leads with same | ⟨last, _, unit, known, inUnit⟩
  · exact inlinable.link.notMain (same ▸ List.mem_append_left _ named)
  · exact inlinable.link.notMain
      (List.mem_append_right _ (targets_of_lookup known inUnit))

end IsInlinable

variable {options : RunOptions}

/-- The preprocessor at the first line of a main unit of which no line is left out. -/
theorem frames_enter (noShebang : options.skipShebang = false) :
    ((ofEnvironment options environment).enter main).frames = [.ofUnit main.name main] := by
  have frame : mainFrame options main = .ofUnit main.name main :=
    mainFrame_cases (fun _ => rfl) fun _ dropped => by
      simp [noShebang] at dropped
  exact congrArg (· :: []) frame

/-- Let every include of a main unit and of given units name one of the given units, let none of
them include itself, at whatever remove, nor the main unit; let no line be a pragma, let the given
units close the blocks they open, and let no words of what can be written be put together to the
names that tell where a line stands.  Then the includes can be written out, and the run of the main
unit, whose requests are answered with the given units, comes to the same text as the run of the
single unit in which they are written out. -/
theorem expanded_of_inlined (always : options.includeMode = .always)
    (noShebang : options.skipShebang = false)
    (inlinable : IsInlinable environment main units) :
    (∃ flat, Inlines units main.lines flat) ∧
    ∀ flat, Inlines units main.lines flat →
      ∃ stopped flatOutput,
        (ofEnvironment options environment).start { main with text := flat.flatten } =
          (stopped, .finished flatOutput) ∧
        (∃ output, Completes units ((ofEnvironment options environment).enter main) output) ∧
        ∀ output, Completes units ((ofEnvironment options environment).enter main) output →
          output.expanded = flatOutput.expanded := by
  refine ⟨inlinable.link.exists_inlines, fun flat inlines => ?_⟩
  let single : SourceUnit := { main with text := flat.flatten }
  have lines : single.lines = flat := inlines.lines_flatten
  have noTargets : ∀ line ∈ single.lines, Directive.lineTarget? line = none :=
    lines ▸ inlines.noTarget
  have singleStack : ((ofEnvironment options environment).enter single).frames =
      [.ofUnit single.name single] := frames_enter noShebang
  rcases exists_output_of_lines singleStack noTargets with ⟨stopped, flatOutput, flatRan, flatText⟩
  have stack : ((ofEnvironment options environment).enter main).frames =
      [.ofUnit main.name main] := frames_enter noShebang
  have abreast : Abreast units (vocabulary environment main units) []
      ((ofEnvironment options environment).enter main) (.ofUnit main.name main) []
      (((ofEnvironment options environment).enter main).lineState (.ofUnit main.name main)) := by
    refine ⟨stack, ⟨always, fun name unit found => by cases found⟩, rfl, rfl,
      IsInlinable.isSpelled_ofEnvironment _, rfl, rfl⟩
  have fresh : AreFresh units
      (((ofEnvironment options environment).enter main).frames.map Frame.key) main.lines := by
    rw [stack]
    exact inlinable.areFresh
  have texts := PlacedLine.map_text_listFrom 0 flat
  rcases exists_passes main.name inlinable.hides inlinable.areLinked inlines abreast
    (List.append_nil _).symm inlinable.areOrdinary_main (Or.inl rfl) fresh texts with
    ⟨last, lastFrame, passes⟩
  rcases run_of_last passes.abreast.stack passes.unread with ⟨_, output, ended, expanded⟩
  have completes := passes.leadsTo output (.finished ended)
  refine ⟨stopped, flatOutput, flatRan, ⟨output, completes⟩, fun other sameRun => ?_⟩
  have unread : (Frame.ofUnit single.name single).unread = flat := lines
  rw [completes.unique sameRun, expanded, passes.text, flatText, unread]
  rfl

/-- A unit that is included by another one brings a definition with it, so the branch in which it is
included again is skipped. -/
theorem expanded_of_inlined_nested :
    let options : RunOptions := { skipShebang := false }
    let main : SourceUnit :=
      ⟨"m".toList,
        "#define M\n#include \"a\"\n#ifndef N\n#include \"b\"\n#endif\nN;\n".toList, none⟩
    let units : ResolvedUnits :=
      [("a".toList, ⟨"a".toList, "#ifdef M\n#include <b>\n#endif".toList, none⟩),
        ("b".toList, ⟨"b".toList, "#define N 7\n".toList, none⟩)]
    let flat := ["#define M\n".toList, "#ifdef M\n".toList, "#define N 7\n".toList,
      "#endif\n".toList, "#ifndef N\n".toList, "#define N 7\n".toList, "#endif\n".toList,
      "N;\n".toList]
    options.includeMode = .always ∧ options.skipShebang = false ∧
      IsInlinable .bare main units ∧ Inlines units main.lines flat ∧
      ∃ stopped flatOutput,
        (ofEnvironment options .bare).start { main with text := flat.flatten } =
          (stopped, .finished flatOutput) ∧
        ∃ output, Completes units ((ofEnvironment options .bare).enter main) output ∧
          output.expanded = flatOutput.expanded := by
  intro options main units flat
  have includesOnly : ∀ outer inner, Includes units outer inner →
      outer = "a".toList ∧ inner = "b".toList := by
    rintro outer inner ⟨unit, known, named⟩
    have listed := mem_of_lookup_eq_some known
    rcases List.mem_cons.1 listed with first | rest
    · cases first
      exact ⟨rfl, List.mem_singleton.1 named⟩
    · cases List.mem_singleton.1 rest
      cases named
  have inlinable : IsInlinable .bare main units := by
    refine ⟨⟨by decide, fun name returns => ?_, by decide⟩, by decide +kernel, ?_, ?_⟩
    · rcases Relation.TransGen.head'_iff.1 returns with ⟨next, first, _⟩
      rcases Relation.TransGen.tail'_iff.1 returns with ⟨last, _, final⟩
      have isFirst := (includesOnly _ _ first).1
      have isSecond := (includesOnly _ _ final).2
      rw [isFirst] at isSecond
      cases isSecond
    · unfold SourceUnit.IsBalanced
      decide +kernel
    · exact hidden_of_plain (by decide +kernel)
  have inlines : Inlines units main.lines flat := by
    have definition : Inlines units ["#define N 7\n".toList] ["#define N 7\n".toList] :=
      .line rfl .nil
    have fromB : Inlines units ["#include <b>\n".toList, "#endif\n".toList]
        (["#define N 7\n".toList] ++ ["#endif\n".toList]) :=
      .inclusion rfl rfl definition (.line rfl .nil)
    have skipped : Inlines units
        ["#include \"b\"\n".toList, "#endif\n".toList, "N;\n".toList]
        (["#define N 7\n".toList] ++ ["#endif\n".toList, "N;\n".toList]) :=
      .inclusion rfl rfl definition (.line rfl (.line rfl .nil))
    have fromA : Inlines units
        ["#include \"a\"\n".toList, "#ifndef N\n".toList, "#include \"b\"\n".toList,
          "#endif\n".toList, "N;\n".toList]
        (["#ifdef M\n".toList, "#define N 7\n".toList, "#endif\n".toList] ++
          ["#ifndef N\n".toList, "#define N 7\n".toList, "#endif\n".toList, "N;\n".toList]) :=
      .inclusion rfl rfl (.line rfl fromB) (.line rfl skipped)
    exact .line rfl fromA
  have always : options.includeMode = .always := rfl
  have noShebang : options.skipShebang = false := rfl
  rcases (expanded_of_inlined always noShebang inlinable).2 flat inlines with
    ⟨stopped, flatOutput, flatRan, ⟨output, completes⟩, same⟩
  exact ⟨always, noShebang, inlinable, inlines, stopped, flatOutput, flatRan, output, completes,
    same output completes⟩

/-- The macros of a main unit that puts names together out of their parts. -/
def pastingMacros (builtins : List (Text × Text)) : MacroTable :=
  ⟨[("id".toList, .function ["x".toList] "x".toList), ("f".toList, .function [] "__FI".toList)],
    builtins, 32⟩

/-- What the call of one macro is replaced by is read as one word with the text behind the call, and
that word is looked at again in the body of the other. -/
theorem text_expand_pasting (line : Origin) :
    ((pastingMacros Environment.bare.builtins).expand line "id(f()LE__);\n".toList).text =
      quoted line.unit ++ ";\n".toList := by
  generalize macros : pastingMacros Environment.bare.builtins = table
  have room : ([] : List Text).length < table.maxDepth := by
    rw [← macros]
    decide
  have copied {active : List Text} {text : Text}
      (absent : ∀ name ∈ fileMacro :: lineMacro ::
        (Environment.bare.builtins.map Prod.fst ++ ["id".toList, "f".toList]),
        ¬ name <:+: text) : (table.expandActive line active text).text = text := by
    subst macros
    exact MacroTable.text_expandActive_of_absent absent
  have partOfName : table.replacement? line "f".toList =
      some (.defined (.function [] "__FI".toList)) := by
    rw [← macros]
    rfl
  have identity : table.replacement? line "id".toList =
      some (.defined (.function ["x".toList] "x".toList)) := by
    rw [← macros]
    rfl
  have place : table.replacement? line fileMacro = some (.builtin (quoted line.unit)) := rfl
  have argument : (table.expandActive line [] "f()LE__".toList).text = fileMacro := by
    have shape : Piece.first 'f' "()LE__".toList = (.word "f".toList, "()LE__".toList) := rfl
    have call : Call.parse? "()LE__".toList = some ⟨"()".toList, [[]], "LE__".toList⟩ := rfl
    refine (MacroTable.text_expandActive_of_call shape partOfName (by decide) call rfl
      room).trans ?_
    rw [MacroTable.bodyOfCall, Piece.substitute_of_no_parameters, copied (by decide),
      copied (by decide)]
    rfl
  have name : (table.expandActive line ["id".toList] fileMacro).text = quoted line.unit := by
    have shape : Piece.first '_' "_FILE__".toList = (.word fileMacro, []) := rfl
    refine (MacroTable.text_expandActive_of_builtin shape place (by decide)).trans ?_
    rw [MacroTable.text_expandActive_nil, List.append_nil]
  have put : Piece.substitute ["x".toList] [fileMacro] "x".toList = fileMacro := by
    decide +kernel
  have shape : Piece.first 'i' "d(f()LE__);\n".toList =
      (.word "id".toList, "(f()LE__);\n".toList) := rfl
  have call : Call.parse? "(f()LE__);\n".toList =
      some ⟨"(f()LE__)".toList, ["f()LE__".toList], ";\n".toList⟩ := rfl
  refine (MacroTable.text_expandActive_of_call shape identity (by decide) call rfl room).trans ?_
  rw [MacroTable.bodyOfCall, List.map_singleton, argument, put, name, copied (by decide)]

/-- Neither unit mentions a name that tells where a line stands, and a call is still replaced by the
name of the unit in which it is read. -/
theorem expanded_of_inlined_pasted :
    let options : RunOptions := { skipShebang := false }
    let main : SourceUnit :=
      ⟨"m".toList, "#define f() __FI\n#define id(x) x\n#include \"a\"\n".toList, none⟩
    let units : ResolvedUnits := [("a".toList, ⟨"a".toList, "id(f()LE__);\n".toList, none⟩)]
    let flat := ["#define f() __FI\n".toList, "#define id(x) x\n".toList,
      "id(f()LE__);\n".toList]
    options.includeMode = .always ∧ units.Link main ∧
      (∀ unit ∈ main :: units.map Prod.snd, ∀ line ∈ unit.lines,
        Directive.lineKind? line ≠ some .pragma) ∧
      (∀ entry ∈ units, entry.2.IsBalanced) ∧
      (∀ unit ∈ main :: units.map Prod.snd,
        unit.text.contains fileMacro = false ∧ unit.text.contains lineMacro = false) ∧
      Environment.bare.predefined = [] ∧ Inlines units main.lines flat ∧
      ∃ output stopped flatOutput,
        Completes units ((ofEnvironment options .bare).enter main) output ∧
        (ofEnvironment options .bare).start { main with text := flat.flatten } =
          (stopped, .finished flatOutput) ∧
        output.expanded = "\"a\";\n".toList ∧ flatOutput.expanded = "\"m\";\n".toList ∧
        output.expanded ≠ flatOutput.expanded := by
  intro options main units flat
  have includesNothing : ∀ outer inner, ¬ Includes units outer inner := by
    rintro outer inner ⟨unit, known, named⟩
    cases List.mem_singleton.1 (mem_of_lookup_eq_some known)
    cases named
  have linked : units.Link main := by
    refine ⟨by decide, fun name returns => ?_, by decide⟩
    rcases Relation.TransGen.head'_iff.1 returns with ⟨next, first, _⟩
    exact includesNothing _ _ first
  have balanced : ∀ entry ∈ units, entry.2.IsBalanced := by
    unfold SourceUnit.IsBalanced
    decide +kernel
  have inlines : Inlines units main.lines flat := by
    have inUnit : Inlines units ["#include \"a\"\n".toList] (["id(f()LE__);\n".toList] ++ []) :=
      .inclusion rfl rfl (.line rfl .nil) .nil
    exact .line rfl (.line rfl inUnit)
  have steps : ∃ first second paused request unit third fourth last,
      ((ofEnvironment options .bare).enter main).step = .next first ∧
      first.step = .next second ∧ second.step = .pause paused request ∧
      units.lookup request.target = some unit ∧
      (paused.answered request (.ok unit)).step = .next third ∧ third.step = .next fourth ∧
      fourth.step = .next last ∧ last.step = .finish ∧
      last.text = ((pastingMacros Environment.bare.builtins).expand ⟨"a".toList, 1⟩
        "id(f()LE__);\n".toList).text ++ [] :=
    ⟨_, _, _, _, _, _, _, _, rfl, rfl, rfl, rfl, rfl, rfl, rfl, rfl, rfl⟩
  rcases steps with ⟨first, second, paused, request, unit, third, fourth, last, toFirst, toSecond,
    pauses, known, toThird, toFourth, toLast, ends, text⟩
  have flatSteps : ∃ first second third last,
      ((ofEnvironment options .bare).enter { main with text := flat.flatten }).step = .next first ∧
      first.step = .next second ∧ second.step = .next third ∧ third.step = .next last ∧
      last.step = .finish ∧
      last.text = ((pastingMacros Environment.bare.builtins).expand ⟨"m".toList, 3⟩
        "id(f()LE__);\n".toList).text ++ [] :=
    ⟨_, _, _, _, rfl, rfl, rfl, rfl, rfl, rfl⟩
  rcases flatSteps with ⟨firstFlat, secondFlat, thirdFlat, lastFlat, toFirstFlat, toSecondFlat,
    toThirdFlat, toLastFlat, endsFlat, textFlat⟩
  have completes := (leadsTo_of_next toFirst).trans ((leadsTo_of_next toSecond).trans
    ((leadsTo_of_pause pauses known).trans ((leadsTo_of_next toThird).trans
      ((leadsTo_of_next toFourth).trans (leadsTo_of_next toLast))))) _
        (.finished (run_of_finish ends))
  have ranFlat := (run_of_next toFirstFlat).trans ((run_of_next toSecondFlat).trans
    ((run_of_next toThirdFlat).trans ((run_of_next toLastFlat).trans (run_of_finish endsFlat))))
  rw [text_expand_pasting] at text textFlat
  refine ⟨rfl, linked, by decide +kernel, balanced, by decide +kernel, rfl, inlines, _, _, _,
    completes, ranFlat, text, textFlat, fun same => ?_⟩
  exact absurd (text.symm.trans (same.trans textFlat)) (by decide)

end Preprocessor

end ScriptPreprocessor
