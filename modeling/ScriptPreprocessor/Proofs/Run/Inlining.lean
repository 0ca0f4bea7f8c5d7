import Mathlib.Logic.Relation
import ScriptPreprocessor.Proofs.Text.Lines
import ScriptPreprocessor.Run.Targets
import ScriptPreprocessor.Text.Names

namespace ScriptPreprocessor

/-!
# Inlining

When it is known beforehand which unit every include will get, the includes can be written out:
each line that names a unit is replaced by the lines of that unit, in which includes are written out
in the same way (`Inlines`).  This looks at the lines only, whether they will be active or not.  It
comes to an end when the units name only each other and none of them names itself through others
(`ResolvedUnits.Link.exists_inlines`).

What is written out has no include left, it is taken apart into the same lines again, and it opens
and closes as many blocks as the lines it was written from when every unit closes the blocks it
opens.
-/

/-- The kind of the directive on a line, if there is one. -/
def Directive.lineKind? (line : Text) : Option DirectiveKind :=
  (parse? line).map Directive.kind

/-! ## Depths -/

/-- How many blocks are open behind a line.  There is no answer when the line continues or closes a
block and none is open. -/
def depthAfter (depth : Nat) : Option DirectiveKind → Option Nat
  | some .ifDefined | some .ifNotDefined | some .ifTrue => some (depth + 1)
  | some .elseIf | some .otherwise => if depth = 0 then none else some depth
  | some .endIf => if depth = 0 then none else some (depth - 1)
  | _ => some depth

/-- How many blocks are open behind lines. -/
def depthBehind : Nat → List Text → Option Nat
  | depth, [] => some depth
  | depth, line :: rest =>
    (depthAfter depth (Directive.lineKind? line)).bind fun inner => depthBehind inner rest

/-- Every block that a unit opens is closed in it, and it continues and closes no other. -/
def SourceUnit.IsBalanced (unit : SourceUnit) : Prop :=
  depthBehind 0 unit.lines = some 0

theorem depthBehind_singleton (depth : Nat) (line : Text) :
    depthBehind depth [line] = depthAfter depth (Directive.lineKind? line) := by
  unfold depthBehind
  cases depthAfter depth (Directive.lineKind? line) <;> rfl

theorem depthBehind_append (depth : Nat) (earlier later : List Text) :
    depthBehind depth (earlier ++ later) =
      (depthBehind depth earlier).bind fun inner => depthBehind inner later := by
  induction earlier generalizing depth with
  | nil => rfl
  | cons line rest ih =>
    simp only [List.cons_append, depthBehind, Option.bind_assoc]
    congr 1
    funext inner
    exact ih inner

/-- Inside of more blocks a line does the same. -/
theorem depthAfter_add {depth inner : Nat} {kind : Option DirectiveKind}
    (reached : depthAfter depth kind = some inner) (more : Nat) :
    depthAfter (depth + more) kind = some (inner + more) := by
  unfold depthAfter at reached ⊢
  split at reached
  case h_4 | h_5 | h_6 =>
    split at reached
    · cases reached
    · cases reached
      grind
  all_goals
    cases reached
    grind

theorem depthBehind_add {depth inner : Nat} {lines : List Text}
    (reached : depthBehind depth lines = some inner) (more : Nat) :
    depthBehind (depth + more) lines = some (inner + more) := by
  induction lines generalizing depth with
  | nil =>
    cases reached
    rfl
  | cons line rest ih =>
    rcases Option.bind_eq_some_iff.1 reached with ⟨between, first, later⟩
    rw [depthBehind, depthAfter_add first more, Option.bind_some]
    exact ih later

/-! ## Writing out includes -/

/-- The units that a unit names in its includes. -/
def Includes (units : ResolvedUnits) (name included : Text) : Prop :=
  ∃ unit, units.lookup name = some unit ∧ included ∈ unit.targets

/-- Lines, and what they become when every include is replaced by the lines of the unit it names. -/
inductive Inlines (units : ResolvedUnits) : List Text → List Text → Prop
  | nil : Inlines units [] []
  | line {line : Text} {lines flat : List Text} (plain : Directive.lineTarget? line = none)
      (rest : Inlines units lines flat) : Inlines units (line :: lines) (line :: flat)
  | inclusion {line target : Text} {unit : SourceUnit} {lines inner flat : List Text}
      (asked : Directive.lineTarget? line = some target)
      (known : units.lookup target = some unit)
      (within : Inlines units unit.withFinalNewline.lines inner)
      (rest : Inlines units lines flat) : Inlines units (line :: lines) (inner ++ flat)

/-- The includes of a main unit and of the units name these units.  None of them names itself,
neither directly nor through others, and none names the main unit. -/
structure ResolvedUnits.Link (units : ResolvedUnits) (main : SourceUnit) : Prop where
  known : ∀ name ∈ main.targets ++ Preprocessor.unitTargets units, (units.lookup name).isSome
  acyclic : ∀ name, ¬ Relation.TransGen (Includes units) name name
  notMain : main.name ∉ main.targets ++ Preprocessor.unitTargets units

variable {units : ResolvedUnits} {lines flat : List Text}

theorem depthAfter_of_target {line target : Text}
    (asked : Directive.lineTarget? line = some target) (depth : Nat) :
    depthAfter depth (Directive.lineKind? line) = some depth := by
  rcases Option.bind_eq_some_iff.1 asked with ⟨directive, parsed, named⟩
  split at named
  · next kind => simp [Directive.lineKind?, parsed, kind, depthAfter]
  · cases named

namespace Inlines

/-- No include is left. -/
theorem noTarget (inlines : Inlines units lines flat) :
    ∀ line ∈ flat, Directive.lineTarget? line = none := by
  induction inlines with
  | nil => simp
  | line plain _ ih => exact List.forall_mem_cons.2 ⟨plain, ih⟩
  | inclusion _ _ _ _ withinIh ih => exact List.forall_mem_append.2 ⟨withinIh, ih⟩

/-- What is written out stands in the lines or in a unit. -/
theorem mem_or (inlines : Inlines units lines flat) :
    ∀ line ∈ flat, line ∈ lines ∨ ∃ entry ∈ units, line ∈ entry.2.withFinalNewline.lines := by
  induction inlines with
  | nil => simp
  | line _ _ ih =>
    refine List.forall_mem_cons.2 ⟨Or.inl List.mem_cons_self, fun line member => ?_⟩
    exact (ih line member).imp_left (List.mem_cons_of_mem _)
  | @inclusion _ target unit _ _ _ _ known _ _ withinIh ih =>
    refine List.forall_mem_append.2 ⟨fun line member => Or.inr ?_, fun line member => ?_⟩
    · rcases withinIh line member with inUnit | elsewhere
      · exact ⟨(target, unit), Preprocessor.mem_of_lookup_eq_some known, inUnit⟩
      · exact elsewhere
    · exact (ih line member).imp_left (List.mem_cons_of_mem _)

theorem exists_append {earlier later : List Text}
    (inlines : Inlines units (earlier ++ later) flat) :
    ∃ before behind : List Text, flat = before ++ behind ∧ Inlines units earlier before ∧
      Inlines units later behind := by
  induction earlier generalizing flat with
  | nil => exact ⟨[], flat, rfl, .nil, inlines⟩
  | cons line rest ih =>
    cases inlines with
    | line plain more =>
      rcases ih more with ⟨before, behind, rfl, first, second⟩
      exact ⟨line :: before, behind, rfl, .line plain first, second⟩
    | @inclusion _ _ _ _ inner _ asked known within more =>
      rcases ih more with ⟨before, behind, rfl, first, second⟩
      exact ⟨inner ++ before, behind, (List.append_assoc _ _ _).symm,
        .inclusion asked known within first, second⟩

end Inlines

/-! ## Final newlines -/

/-- Whether a line has its line feed does not matter to the directive on it. -/
theorem map_parse?_withFinalNewline (unit : SourceUnit) :
    unit.withFinalNewline.lines.map Directive.parse? = unit.lines.map Directive.parse? := by
  rcases Text.lines_withFinalNewline unit.text with same | ⟨ended, last, unbroken, shape, longer⟩
  · exact congrArg (List.map Directive.parse?) same
  · simp [SourceUnit.lines, SourceUnit.withFinalNewline, shape, longer, Directive.parse?,
      Text.withoutEnding_newline unbroken]

theorem targets_withFinalNewline (unit : SourceUnit) :
    unit.withFinalNewline.targets = unit.targets := by
  have same := map_parse?_withFinalNewline unit
  have targets (lines : List Text) :
      Directive.targets lines = (lines.map Directive.parse?).filterMap fun parsed =>
        parsed.bind fun directive =>
          if directive.kind = .inclusion then Directive.includeTarget? directive.argument
          else none := by
    rw [List.filterMap_map]
    rfl
  rw [SourceUnit.targets, SourceUnit.targets, targets, targets, same]

theorem depthBehind_congr {first second : List Text}
    (same : first.map Directive.parse? = second.map Directive.parse?) (depth : Nat) :
    depthBehind depth first = depthBehind depth second := by
  induction first generalizing depth second with
  | nil =>
    rw [List.map_nil, eq_comm, List.map_eq_nil_iff] at same
    rw [same]
  | cons line rest ih =>
    rcases List.map_eq_cons_iff.1 same.symm with ⟨other, more, rfl, parsed, later⟩
    simp only [depthBehind, Directive.lineKind?, parsed, ih later.symm]

theorem SourceUnit.IsBalanced.depthBehind_withFinalNewline {unit : SourceUnit}
    (balanced : unit.IsBalanced) : depthBehind 0 unit.withFinalNewline.lines = some 0 :=
  (depthBehind_congr (map_parse?_withFinalNewline unit) 0).trans balanced

/-- When units close the blocks they open, writing them out leaves every depth as it is. -/
theorem Inlines.depthBehind_eq (inlines : Inlines units lines flat)
    (balanced : ∀ entry ∈ units, entry.2.IsBalanced) (depth : Nat) :
    depthBehind depth flat = depthBehind depth lines := by
  induction inlines generalizing depth with
  | nil => rfl
  | line _ _ ih => simp only [depthBehind, ih]
  | @inclusion line target unit lines inner flat asked known _ _ withinIh ih =>
    have isBalanced := balanced _ (Preprocessor.mem_of_lookup_eq_some known)
    have within : depthBehind 0 inner = some 0 :=
      (withinIh 0).trans isBalanced.depthBehind_withFinalNewline
    have shifted := depthBehind_add within depth
    rw [Nat.zero_add] at shifted
    rw [depthBehind_append, shifted, Option.bind_some, ih, depthBehind,
      depthAfter_of_target asked, Option.bind_some]

/-- The lines that were written out are the lines of their text. -/
theorem Inlines.lines_flatten {text : Text} (inlines : Inlines units text.lines flat) :
    Text.lines flat.flatten = flat := by
  have inUnits : ∀ line, (∃ entry ∈ units, line ∈ entry.2.withFinalNewline.lines) →
      line.IsEndedLine := by
    rintro line ⟨entry, _, inUnit⟩
    exact Text.ended_of_mem_lines (Text.withFinalNewline_ends entry.2.text) inUnit
  have endedFlat {lines flat : List Text} (inlines : Inlines units lines flat)
      (ended : ∀ line ∈ lines, line.IsEndedLine) : ∀ line ∈ flat, line.IsEndedLine :=
    fun line member => (inlines.mem_or line member).elim (ended line) (inUnits line)
  rcases Text.lines_eq_ended_append text with
    ⟨ended, allEnded, ⟨shape, _⟩ | ⟨last, filled, unbroken, shape, _⟩⟩
  · rw [shape] at inlines
    exact Text.lines_flatten (endedFlat inlines allEnded)
  · rw [shape] at inlines
    rcases inlines.exists_append with ⟨before, behind, rfl, first, second⟩
    rw [List.flatten_append, Text.lines_flatten_append (endedFlat first allEnded)]
    congr 1
    cases second with
    | line plain rest =>
      cases rest
      rw [List.flatten_singleton]
      exact Text.lines_of_unbroken unbroken filled
    | inclusion asked known within rest =>
      cases rest
      rw [List.append_nil]
      refine Text.lines_flatten fun line member => ?_
      exact (within.mem_or line member).elim
        (fun inUnit => inUnits line ⟨_, Preprocessor.mem_of_lookup_eq_some known, inUnit⟩)
        (inUnits line)

/-! ## Every include can be written out -/

theorem exists_inlines_of_targets {lines : List Text}
    (resolved : ∀ target ∈ Directive.targets lines, ∃ unit inner,
      units.lookup target = some unit ∧ Inlines units unit.withFinalNewline.lines inner) :
    ∃ flat, Inlines units lines flat := by
  induction lines with
  | nil => exact ⟨[], .nil⟩
  | cons line rest ih =>
    unfold Directive.targets at resolved
    rw [List.filterMap_cons] at resolved
    cases asked : Directive.lineTarget? line with
    | none =>
      rw [asked] at resolved
      rcases ih resolved with ⟨flat, later⟩
      exact ⟨line :: flat, .line asked later⟩
    | some target =>
      rw [asked, List.forall_mem_cons] at resolved
      rcases resolved.1 with ⟨unit, inner, known, within⟩
      rcases ih resolved.2 with ⟨flat, later⟩
      exact ⟨inner ++ flat, .inclusion asked known within later⟩

namespace ResolvedUnits.Link

variable {main : SourceUnit}

/-- Along includes, fewer and fewer units can be reached. -/
theorem wellFounded (link : units.Link main) :
    WellFounded fun inner outer => Includes units outer inner := by
  classical
  let reached := fun name => (units.map Prod.fst).filter fun key =>
    Relation.TransGen (Includes units) name key
  refine Subrelation.wf ?_ (InvImage.wf (fun name => Names.count (reached name)) Nat.lt_wfRel.wf)
  rintro inner outer ⟨unit, known, named⟩
  have includes : Includes units outer inner := ⟨unit, known, named⟩
  have isUnit : inner ∈ units.map Prod.fst := by
    have inUnits := Preprocessor.targets_of_lookup known named
    rcases Option.isSome_iff_exists.1 (link.known inner (List.mem_append_right _ inUnits)) with
      ⟨other, found⟩
    exact List.mem_map_of_mem (Preprocessor.mem_of_lookup_eq_some found)
  apply Names.count_lt inner
  · intro key member
    rcases List.mem_filter.1 member with ⟨isKey, further⟩
    exact List.mem_filter.2
      ⟨isKey, decide_eq_true (.head includes (of_decide_eq_true further))⟩
  · exact List.mem_filter.2 ⟨isUnit, decide_eq_true (.single includes)⟩
  · intro member
    exact link.acyclic inner (of_decide_eq_true (List.mem_filter.1 member).2)

theorem exists_inlines (link : units.Link main) : ∃ flat, Inlines units main.lines flat := by
  have inUnit : ∀ name unit, units.lookup name = some unit →
      ∃ inner, Inlines units unit.withFinalNewline.lines inner := by
    intro name
    induction name using link.wellFounded.induction with
    | h name ih =>
      intro unit known
      apply exists_inlines_of_targets
      intro target named
      have inTargets : target ∈ unit.targets := targets_withFinalNewline unit ▸ named
      have inUnits := Preprocessor.targets_of_lookup known inTargets
      rcases Option.isSome_iff_exists.1 (link.known target (List.mem_append_right _ inUnits)) with
        ⟨other, found⟩
      rcases ih target ⟨unit, known, inTargets⟩ other found with ⟨inner, within⟩
      exact ⟨other, inner, found, within⟩
  apply exists_inlines_of_targets
  intro target named
  rcases Option.isSome_iff_exists.1 (link.known target (List.mem_append_left _ named)) with
    ⟨unit, found⟩
  rcases inUnit target unit found with ⟨inner, within⟩
  exact ⟨unit, inner, found, within⟩

end ResolvedUnits.Link

end ScriptPreprocessor
