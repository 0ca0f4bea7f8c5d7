import ScriptPreprocessor.FileTree
import ScriptPreprocessor.Proofs.Include.Places

namespace ScriptPreprocessor

/-!
# Walks along joined paths

A path that is joined to another leads on from the place where that leads
(`FileTree.follow_join`).  A segment that is one step, perhaps with a slash or a `.` behind its
name, leads one step down, so segments of this kind lead down from a base by one name each
(`FileTree.exists_of_follow_foldl`), and a file that they lead to lies below the base, wherever the
base leads in the tree.
-/

namespace Path

/-! ## File names -/

/-- Whether a text is the name of a file: a path reads it as one step down. -/
structure IsFileName (name : Text) : Prop where
  unbroken : '/' ∉ name
  notSilent : isSilent name = false
  notParent : name ≠ "..".toList

instance (name : Text) : Decidable (IsFileName name) :=
  decidable_of_iff ('/' ∉ name ∧ isSilent name = false ∧ name ≠ "..".toList)
    ⟨fun ⟨unbroken, notSilent, notParent⟩ => ⟨unbroken, notSilent, notParent⟩,
      fun plain => ⟨plain.unbroken, plain.notSilent, plain.notParent⟩⟩

/-- Only short names are special. -/
theorem isFileName_of_long {name : Text} (unbroken : '/' ∉ name) (long : 2 < name.length) :
    IsFileName name := by
  refine ⟨unbroken, ?_, ?_⟩
  · rw [isSilent, Bool.or_eq_false_iff, Bool.eq_false_iff, Ne, List.isEmpty_iff,
      beq_eq_false_iff_ne]
    constructor
    · rintro rfl
      cases long
    · rintro rfl
      exact absurd long (by decide)
  · rintro rfl
    exact absurd long (by decide)

theorem names_of_unbroken {name : Text} (unbroken : '/' ∉ name) : names name = [name] :=
  Text.splitOn_of_not_mem unbroken

theorem isAbsolute_of_names {path : Text} {next : Text} {rest : List Text}
    (begins : names path = [] :: next :: rest) : isAbsolute path = true := by
  have whole := Text.join_splitOn path '/'
  rw [← names, begins] at whole
  rw [← whole]
  rfl

theorem isRelative_of_unbroken {path : Text} (unbroken : '/' ∉ path) : isAbsolute path = false := by
  by_contra absolute
  rcases names_of_absolute (Bool.not_eq_false _ ▸ absolute) with ⟨rest, shape⟩
  rw [names_of_unbroken unbroken, List.cons.injEq] at shape
  exact Text.splitOn_ne_nil rest _ shape.2.symm

theorem componentOf_eq_normal_iff {name other : Text} :
    componentOf name = .normal other ↔ name = other ∧ name ≠ "..".toList := by
  unfold componentOf
  split
  · next parent => simp [beq_iff_eq.1 parent]
  · next notParent =>
    have given : name ≠ "..".toList := mt beq_iff_eq.2 notParent
    exact ⟨fun same => ⟨PathComponent.normal.inj same, given⟩, fun same => congrArg _ same.1⟩

theorem isRelative_of_components {segment name : Text}
    (single : components segment = [.normal name]) : isAbsolute segment = false := by
  by_contra absolute
  rw [Bool.not_eq_false] at absolute
  rcases names_of_absolute absolute with ⟨rest, shape⟩
  rw [components, shape] at single
  simp only [absolute, if_true] at single
  cases single

/-- A path of one step is the name of a file, perhaps with silent names behind it. -/
theorem names_of_components {segment name : Text} (single : components segment = [.normal name]) :
    IsFileName name ∧ ∃ silent, names segment = name :: silent ∧
      ∀ other ∈ silent, isSilent other = true := by
  have relative := isRelative_of_components single
  cases shape : names segment with
  | nil => exact absurd shape (Text.splitOn_ne_nil segment _)
  | cons first rest =>
    have member : first ∈ names segment := by
      rw [shape]
      exact List.mem_cons_self
    have unbroken : '/' ∉ first := Text.not_mem_of_mem_splitOn member
    rw [components, shape] at single
    simp only [relative, Bool.false_eq_true, if_false] at single
    split at single
    · cases single
    next notDot =>
      cases silent : isSilent first with
      | true =>
        have empty : first = [] := by simpa [isSilent, notDot] using silent
        subst empty
        cases rest with
        | nil => cases single
        | cons next more => rw [isAbsolute_of_names shape] at relative; cases relative
      | false =>
        rw [innerComponents, List.filter_cons_of_pos (by rw [silent]; rfl), List.map_cons,
          List.cons.injEq, List.map_eq_nil_iff, List.filter_eq_nil_iff,
          componentOf_eq_normal_iff] at single
        rcases single with ⟨⟨rfl, notParent⟩, others⟩
        exact ⟨⟨unbroken, silent, notParent⟩, rest, rfl, by simpa using others⟩

theorem IsFileName.ne_nil {name : Text} (plain : IsFileName name) : name ≠ [] := by
  rintro rfl
  cases plain.notSilent

theorem IsFileName.ne_dot {name : Text} (plain : IsFileName name) : (name == ['.']) = false := by
  have loud := plain.notSilent
  rw [isSilent, Bool.or_eq_false_iff] at loud
  exact loud.2

theorem innerComponents_of_isFileName {name : Text} (plain : IsFileName name) :
    innerComponents [name] = [.normal name] := by
  rw [innerComponents, List.filter_cons_of_pos (by rw [plain.notSilent]; rfl), List.filter_nil,
    List.map_cons, List.map_nil, componentOf_eq_normal_iff.2 ⟨rfl, plain.notParent⟩]

theorem components_of_isFileName {name : Text} (plain : IsFileName name) :
    components name = [.normal name] := by
  rw [components, names_of_unbroken plain.unbroken]
  simp only [isRelative_of_unbroken plain.unbroken, plain.ne_dot, Bool.false_eq_true, if_false]
  exact innerComponents_of_isFileName plain

theorem components_eq_iff {segment name : Text} (unbroken : '/' ∉ segment) :
    components segment = [.normal name] ↔ segment = name ∧ IsFileName name := by
  constructor
  · intro single
    rcases names_of_components single with ⟨plain, silent, shape, -⟩
    rw [names_of_unbroken unbroken, List.cons.injEq] at shape
    exact ⟨shape.1, plain⟩
  · rintro ⟨rfl, plain⟩
    exact components_of_isFileName plain

end Path

namespace FileTree

/-! ## Walks -/

theorem walk_append (tree : FileTree) (place : Place) (first second : List Text) :
    tree.walk place (first ++ second) =
      (tree.walk place first).bind fun reached => tree.walk reached second := by
  induction first generalizing place with
  | nil => rfl
  | cons name names ih =>
    rw [List.cons_append, walk, walk]
    cases tree.enter place with
    | error problem => rfl
    | ok entered =>
      simp only
      split
      · exact ih place
      · split
        · exact ih place.dropLast
        · exact ih (place ++ [name])

/-- A step into a place is taken once, however many empty names stand for it. -/
theorem walk_nil_cons (tree : FileTree) (place : Place) {names : List Text} (filled : names ≠ []) :
    tree.walk place ([] :: names) = tree.walk place names := by
  cases names with
  | nil => exact absurd rfl filled
  | cons name rest =>
    rw [walk, walk]
    cases tree.enter place with
    | error problem => rfl
    | ok entered => simp [Path.isSilent]

theorem eq_of_walk_silent {tree : FileTree} {place reached : Place} {silent : List Text}
    (all : ∀ name ∈ silent, Path.isSilent name = true)
    (walked : tree.walk place silent = .ok reached) : reached = place := by
  induction silent with
  | nil =>
    cases walked
    rfl
  | cons name rest ih =>
    rw [walk, if_pos (all name List.mem_cons_self)] at walked
    split at walked
    · cases walked
    · exact ih (fun other member => all other (List.mem_cons_of_mem _ member)) walked

/-- A segment that is one step leads one step down. -/
theorem eq_of_walk_segment {tree : FileTree} {place reached : Place} {segment name : Text}
    (single : Path.components segment = [.normal name])
    (walked : tree.walk place (Path.names segment) = .ok reached) : reached = place ++ [name] := by
  rcases Path.names_of_components single with ⟨plain, silent, shape, all⟩
  rw [shape, walk, plain.notSilent] at walked
  split at walked
  · cases walked
  · simp only [Bool.false_eq_true, if_false, beq_iff_eq, plain.notParent] at walked
    exact eq_of_walk_silent all walked

/-- The place that a path leads to, where the empty path leads to the working directory. -/
def follow (tree : FileTree) (path : Text) : Except FileProblem Place :=
  tree.walk (if Path.isAbsolute path then [] else tree.workingDirectory) (Path.names path)

theorem locate_of_ne_nil {tree : FileTree} {path : Text} (given : path ≠ []) :
    tree.locate path = tree.follow path :=
  if_neg (by simpa using given)

/-- A path that is joined to another leads on from where that leads. -/
theorem follow_join {path : Text} (relative : Path.isAbsolute path = false) (tree : FileTree)
    (base : Text) :
    tree.follow (Path.join base path) =
      (tree.follow base).bind fun place => tree.walk place (Path.names path) := by
  have filled : Path.names path ≠ [] := Text.splitOn_ne_nil path _
  by_cases noBase : base = []
  · subst noBase
    have start : Path.names [] = [[]] := rfl
    rw [Path.join_nil, follow, follow, relative, start, ← walk_append, List.singleton_append,
      walk_nil_cons tree _ filled]
    rfl
  rw [Path.join_of_relative noBase relative, follow, follow,
    Path.isAbsolute_append (Path.closed_ne_nil base), Path.isAbsolute_closed noBase]
  by_cases ended : Text.endsWith base ['/'] = true
  · -- The empty name behind the last slash of the base is the place where the path begins.
    rcases List.isSuffixOf_iff_suffix.1 ended with ⟨front, rfl⟩
    have bare : Path.names [] = [[]] := rfl
    rw [Path.closed, if_pos ended, List.append_assoc, List.singleton_append,
      Path.names_append_slash, Path.names_append_slash, bare, walk_append, walk_append]
    cases tree.walk _ (Path.names front) with
    | error problem => rfl
    | ok reached =>
      have onward := walk_append tree reached [[]] (Path.names path)
      rw [List.singleton_append, walk_nil_cons tree _ filled] at onward
      exact onward
  · rw [Path.closed, if_neg ended, List.append_assoc, List.singleton_append,
      Path.names_append_slash, walk_append]

/-! ## Files below a place -/

theorem exists_file_of_isFile {tree : FileTree} {path : Text} (there : tree.isFile path = true) :
    ∃ place, tree.locate path = .ok place ∧ tree.follow path = .ok place := by
  have given : path ≠ [] := by
    rintro rfl
    cases there
  rw [← locate_of_ne_nil given]
  unfold isFile read at there
  cases found : tree.locate path with
  | ok place => exact ⟨place, rfl, rfl⟩
  | error problem =>
    rw [found] at there
    cases there

end FileTree

namespace Path

/-- Segments that are each one step down, and the names of the steps. -/
def AreSteps (segments names : List Text) : Prop :=
  segments.map components = names.map fun name => [.normal name]

theorem AreSteps.cons {segment : Text} {segments names : List Text}
    (steps : AreSteps (segment :: segments) names) :
    ∃ name rest, names = name :: rest ∧ components segment = [.normal name] ∧
      AreSteps segments rest := by
  cases names with
  | nil => cases steps
  | cons name rest =>
    rw [AreSteps, List.map_cons, List.map_cons, List.cons.injEq] at steps
    exact ⟨name, rest, rfl, steps.1, steps.2⟩

end Path

/-- Segments that are joined to a base lead down from its place, one name each. -/
theorem FileTree.exists_of_follow_foldl {tree : FileTree} {base : Text} {segments names : List Text}
    {place : Place} (steps : Path.AreSteps segments names)
    (followed : tree.follow (segments.foldl Path.join base) = .ok place) :
    ∃ origin, tree.follow base = .ok origin ∧ place = origin ++ names := by
  induction segments generalizing base names with
  | nil =>
    cases names with
    | nil => exact ⟨place, followed, (List.append_nil place).symm⟩
    | cons name rest => cases steps
  | cons segment segments ih =>
    rcases steps.cons with ⟨name, rest, rfl, single, later⟩
    rcases ih later followed with ⟨middle, reached, rfl⟩
    rw [follow_join (Path.isRelative_of_components single)] at reached
    cases start : tree.follow base with
    | error problem =>
      rw [start] at reached
      cases reached
    | ok origin =>
      rw [start] at reached
      refine ⟨origin, rfl, ?_⟩
      rw [eq_of_walk_segment single reached, List.append_assoc, List.singleton_append]

end ScriptPreprocessor
