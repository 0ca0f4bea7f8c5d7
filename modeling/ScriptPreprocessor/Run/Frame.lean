import ScriptPreprocessor.Run.Line

namespace ScriptPreprocessor

/-!
# Frames

A run expands units inside of units.  Each unit that is being expanded has a frame: its lines that
are still unread, and whether preprocessing is on and which blocks are open in it.  The frames form
a stack, the innermost first.

A unit may be spliced again and again, so no count of lines alone bounds a run.  But a unit is
never spliced into itself: the keys on a stack differ.  `potential` turns this into a number.  A
line of a frame weighs the more, the fewer of the known units are already on the stack, and a
whole spliced unit weighs less than the line that splices it.
-/

/-- A unit that is being expanded. -/
structure Frame where
  unit : SourceUnit
  /-- The name under which the unit was included; a main unit has its own name. -/
  key : Text
  unread : List Text
  /-- The number of lines that were read. -/
  linesRead : Nat := 0
  enabled : Bool := true
  blocks : List Block := []

/-- The units that were included so far, with the names they were included under.  A unit is found
again by the name that was asked for, even if two names lead to one file. -/
abbrev ResolvedUnits := List (Text × SourceUnit)

namespace Frame

def ofUnit (key : Text) (unit : SourceUnit) : Frame :=
  { unit, key, unread := unit.lines }

/-- What is wrong with a unit that ends in the state of a frame: blocks that are not closed, and,
when the unit was included, preprocessing that is still off. -/
def closingDiagnostics (frame : Frame) (wasIncluded : Bool) : List Diagnostic :=
  ((Block.unclosed frame.blocks).map fun (problem, line) =>
      problem.diagnosticAt ⟨frame.unit.name, line⟩) ++
    if !frame.enabled && wasIncluded then
      [Problem.leftOff.diagnosticAt ⟨frame.unit.name, frame.unit.lineCount⟩]
    else []

/-! ## The potential of a stack -/

def unusedUnits (resolved : ResolvedUnits) (frames : List Frame) : Nat :=
  (resolved.filter fun entry => frames.all fun frame => frame.key != entry.1).length

def totalLines : ResolvedUnits → Nat
  | [] => 0
  | entry :: more => entry.2.lineCount + totalLines more

/-- What an unread line counts on a stack when so many known units are not being expanded: more than
all lines of a unit, and its end, when one unit fewer is left. -/
def lineWeight (resolved : ResolvedUnits) : Nat → Nat
  | 0 => 1
  | unused + 1 => (totalLines resolved + 2) * lineWeight resolved unused

/-- The weight of the unread lines on a stack, every frame counting as a line of its own. -/
def potential (resolved : ResolvedUnits) : List Frame → Nat
  | [] => 0
  | frame :: below =>
    (frame.unread.length + 1) * lineWeight resolved (unusedUnits resolved (frame :: below)) +
      potential resolved below

theorem lineWeight_pos (resolved : ResolvedUnits) (unused : Nat) :
    0 < lineWeight resolved unused := by
  induction unused with
  | zero => exact Nat.one_pos
  | succ unused ih => exact Nat.mul_pos (Nat.succ_pos _) ih

/-- The more units are left, the more a line counts. -/
theorem lineWeight_mono (resolved : ResolvedUnits) {fewer more : Nat} (le : fewer ≤ more) :
    lineWeight resolved fewer ≤ lineWeight resolved more := by
  induction le with
  | refl => exact Nat.le_refl _
  | step _ ih => exact Nat.le_trans ih (Nat.le_mul_of_pos_left _ (Nat.succ_pos _))

/-- Leaving a unit lowers the potential. -/
theorem potential_tail_lt (resolved : ResolvedUnits) (frame : Frame) (below : List Frame) :
    potential resolved below < potential resolved (frame :: below) := by
  have positive := lineWeight_pos resolved (unusedUnits resolved (frame :: below))
  have atLeastOne : lineWeight resolved (unusedUnits resolved (frame :: below)) ≤
      (frame.unread.length + 1) * lineWeight resolved (unusedUnits resolved (frame :: below)) :=
    Nat.le_mul_of_pos_left _ (Nat.succ_pos _)
  simp only [potential]
  omega

theorem unusedUnits_congr (resolved : ResolvedUnits) {first second : Frame} (below : List Frame)
    (sameKey : first.key = second.key) :
    unusedUnits resolved (first :: below) = unusedUnits resolved (second :: below) := by
  simp [unusedUnits, sameKey]

/-- Reading a line lowers the potential by the weight of a line. -/
theorem potential_read (resolved : ResolvedUnits) (before after : Frame) (below : List Frame)
    {line : Text} (sameKey : after.key = before.key)
    (oneLess : before.unread = line :: after.unread) :
    potential resolved (after :: below) +
        lineWeight resolved (unusedUnits resolved (after :: below)) =
      potential resolved (before :: below) := by
  simp only [potential, oneLess, List.length_cons, unusedUnits_congr resolved below sameKey,
    Nat.add_mul, Nat.one_mul]
  omega

theorem lineCount_le_totalLines {resolved : ResolvedUnits} {entry : Text × SourceUnit}
    (known : entry ∈ resolved) : entry.2.lineCount ≤ totalLines resolved := by
  induction resolved with
  | nil => simp at known
  | cons head tail ih =>
    simp only [totalLines]
    rcases List.mem_cons.1 known with rfl | inTail
    · omega
    · have := ih inTail
      omega

/-- A known unit that is not being expanded is no longer unused once it is spliced. -/
theorem unusedUnits_splice {resolved : ResolvedUnits} {frames : List Frame} {key : Text}
    {unit : SourceUnit} (known : (key, unit) ∈ resolved)
    (fresh : ∀ frame ∈ frames, frame.key ≠ key) :
    unusedUnits resolved (ofUnit key unit :: frames) < unusedUnits resolved frames := by
  have narrower : (resolved.filter fun entry =>
        (ofUnit key unit :: frames).all fun frame => frame.key != entry.1) =
      (resolved.filter fun entry => frames.all fun frame => frame.key != entry.1).filter
        fun entry => key != entry.1 := by
    rw [List.filter_filter]
    apply List.filter_congr
    intro entry _
    simp [ofUnit]
  unfold unusedUnits
  rw [narrower]
  apply List.length_filter_lt_length_iff_exists.2
  refine ⟨(key, unit), ?_, by simp⟩
  simpa [List.mem_filter, known] using fresh

/-- Splicing a known unit costs less than the line that asked for it. -/
theorem potential_splice_lt {resolved : ResolvedUnits} {frames : List Frame} {key : Text}
    {unit : SourceUnit} (known : (key, unit) ∈ resolved)
    (fresh : ∀ frame ∈ frames, frame.key ≠ key) :
    potential resolved (ofUnit key unit :: frames) <
      potential resolved frames + lineWeight resolved (unusedUnits resolved frames) := by
  have fewer := unusedUnits_splice known fresh
  have lines : unit.lineCount + 1 < totalLines resolved + 2 :=
    Nat.succ_lt_succ (Nat.lt_succ_of_le (lineCount_le_totalLines known))
  have positive := lineWeight_pos resolved (unusedUnits resolved (ofUnit key unit :: frames))
  have smaller : (unit.lineCount + 1) *
        lineWeight resolved (unusedUnits resolved (ofUnit key unit :: frames)) <
      lineWeight resolved (unusedUnits resolved (ofUnit key unit :: frames) + 1) :=
    Nat.mul_lt_mul_of_pos_right lines positive
  have grows := lineWeight_mono resolved (Nat.succ_le_of_lt fewer)
  simp only [potential]
  have count : (ofUnit key unit).unread.length = unit.lineCount := rfl
  rw [count]
  simp only [Nat.succ_eq_add_one] at grows
  omega

end Frame

end ScriptPreprocessor
