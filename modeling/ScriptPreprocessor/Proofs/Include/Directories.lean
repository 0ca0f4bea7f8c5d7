import ScriptPreprocessor.Proofs.Include.Items

namespace ScriptPreprocessor

/-!
# Parent directories

The directory of a path is cut out of the path as it is written, silent names and repeated slashes
included.  Its components are those of the path without the last one.
-/

namespace Path

/-- The names of a path end in silent ones, and `dropSilent` keeps what is in front of them. -/
theorem exists_dropSilent {names : List Text} (filled : names ≠ []) :
    ∃ silent name before, names = silent ++ name :: before ∧
      dropSilent names = name :: before ∧ (∀ other ∈ silent, isSilent other = true) ∧
      (isSilent name = false ∨ before = []) := by
  induction names with
  | nil => exact absurd rfl filled
  | cons first rest ih =>
    cases rest with
    | nil => exact ⟨[], first, [], rfl, rfl, by simp, .inr rfl⟩
    | cons next more =>
      cases loud : isSilent first with
      | false => exact ⟨[], first, next :: more, rfl, if_neg (by simp [loud]), by simp, .inl loud⟩
      | true =>
        rcases ih (List.cons_ne_nil _ _) with ⟨silent, name, before, shape, kept, all, ended⟩
        refine ⟨first :: silent, name, before, by rw [shape]; rfl, ?_, ?_, ended⟩
        · rw [dropSilent, if_pos loud, kept]
        · exact List.forall_mem_cons.2 ⟨loud, all⟩

/-- A path is written as its names are. -/
theorem join_names (path : Text) : Text.join ['/'] (names path) = path :=
  Text.join_splitOn path '/'

/-- Names of one path are names again when they are joined. -/
theorem names_join (path : Text) {parts : List Text} (filled : parts ≠ [])
    (listed : parts ⊆ names path) : names (Text.join ['/'] parts) = parts :=
  Text.splitOn_join filled fun _ member => Text.not_mem_of_mem_splitOn (listed member)

theorem isAbsolute_of_names_append {path front : Text} {more : List Text} (filled : front ≠ [])
    (shape : names path = names front ++ more) : isAbsolute path = isAbsolute front := by
  cases more with
  | nil => rw [← join_names path, shape, List.append_nil, join_names]
  | cons next rest =>
    have behind := names_join path (List.cons_ne_nil next rest) (by
      rw [shape]
      exact List.subset_append_right _ _)
    have same : names (front ++ '/' :: Text.join ['/'] (next :: rest)) = names path := by
      rw [names_append_slash, behind, shape]
    rw [← join_names path, ← same, join_names, isAbsolute_append filled]

/-- An empty name in front of others is the root. -/
theorem components_of_root {path : Text} {more : List Text} (filled : more ≠ [])
    (shape : names path = [] :: more) : components path = .root :: innerComponents more := by
  cases more with
  | nil => exact absurd rfl filled
  | cons next rest =>
    have absolute : isAbsolute path = true := isAbsolute_of_names shape
    rw [components, shape]
    simp only [absolute, if_true]

/-- Behind a path that is not empty, every name adds its component. -/
theorem components_of_names_append {path front : Text} {more : List Text} (filled : front ≠ [])
    (shape : names path = names front ++ more) :
    components path = components front ++ innerComponents more := by
  rw [components, components, shape, isAbsolute_of_names_append filled shape]
  cases begins : names front with
  | nil => exact absurd begins (Text.splitOn_ne_nil front _)
  | cons first rest =>
    simp only [List.cons_append]
    split
    · rw [innerComponents_append, List.cons_append]
    · split
      · rw [innerComponents_append, List.cons_append]
      · rw [← List.cons_append, innerComponents_append]

/-- A name in front of silent ones makes no component but its own. -/
theorem innerComponents_cons {name : Text} {silent : List Text}
    (all : ∀ other ∈ silent, isSilent other = true) :
    innerComponents (name :: silent) = if isSilent name then [] else [componentOf name] := by
  rw [← List.singleton_append, innerComponents_append, innerComponents_eq_nil all,
    List.append_nil, innerComponents]
  cases loud : isSilent name <;> simp [loud]

/-- One name with silent ones behind it makes one component at most. -/
theorem dropLast_components_of_names {path name : Text} {silent : List Text}
    (shape : names path = name :: silent) (all : ∀ other ∈ silent, isSilent other = true) :
    (components path).dropLast = [] := by
  rw [components, shape]
  simp only [innerComponents_cons all, innerComponents_eq_nil all]
  split
  · rfl
  · split
    · rfl
    · split <;> rfl

/-- How a path of several names is cut: what its directory is written as, and a last name with
silent ones around it. -/
theorem exists_directory {path : Text} {name next : Text} {more : List Text}
    (kept : dropSilent (names path).reverse = name :: next :: more) :
    ∃ front inner silent, front ≠ [] ∧ names path = front ++ inner ++ name :: silent ∧
      directory path = (if front = [[]] then ['/'] else Text.join ['/'] front) ∧
      innerComponents (inner ++ name :: silent) = [componentOf name] := by
  have filled : (names path).reverse ≠ [] := by
    intro empty
    rw [empty] at kept
    cases kept
  -- Silent names stand on both sides of the slash that the path is cut at.
  rcases exists_dropSilent filled with ⟨silent, last, before, reversed, found, all, ended⟩
  rw [kept, List.cons.injEq] at found
  rcases found with ⟨rfl, rfl⟩
  have loud : isSilent name = false := ended.resolve_right (List.cons_ne_nil _ _)
  rcases exists_dropSilent (List.cons_ne_nil next more) with
    ⟨inner, first, above, split, keptAbove, allInner, -⟩
  refine ⟨(first :: above).reverse, inner.reverse, silent.reverse, by simp, ?_, ?_, ?_⟩
  · rw [← List.reverse_reverse (names path), reversed, split]
    simp
  · have single : (first :: above).reverse = [[]] ↔ first :: above = [[]] :=
      ⟨fun same => List.reverse_injective same, fun same => by rw [same]; rfl⟩
    rw [directory, parent?, kept]
    simp only [keptAbove, single]
    split
    · next same =>
      rw [if_pos same]
      rfl
    · next other =>
      rw [if_neg other]
      rfl
  · rw [innerComponents_append, innerComponents_eq_nil (by simpa using allInner),
      List.nil_append, innerComponents_cons (by simpa using all), if_neg (by simp [loud])]

/-- The directory of a path has all of its components but the last. -/
theorem components_directory (path : Text) :
    components (directory path) = (components path).dropLast := by
  have filled : (names path).reverse ≠ [] :=
    mt List.reverse_eq_nil_iff.1 (Text.splitOn_ne_nil path _)
  rcases exists_dropSilent filled with ⟨silent, name, before, reversed, kept, all, -⟩
  cases before with
  | nil =>
    have shape : names path = name :: silent.reverse := by
      rw [← List.reverse_reverse (names path), reversed]
      simp
    have empty : directory path = [] := by
      rw [directory, parent?, kept]
      simp only
      split <;> rfl
    rw [empty, dropLast_components_of_names shape (by simpa using all)]
    rfl
  | cons next more =>
    rcases exists_directory kept with ⟨front, inner, silent, filled, shape, cut, last⟩
    rw [List.append_assoc] at shape
    by_cases single : front = [[]]
    · subst single
      have behind : components path = [.root, componentOf name] := by
        rw [components_of_root (by simp) shape, ← last]
        rfl
      rw [cut, if_pos rfl, behind]
      rfl
    · have written : names (directory path) = front := by
        rw [cut, if_neg single]
        refine names_join path filled ?_
        rw [shape]
        exact List.subset_append_left _ _
      have given : directory path ≠ [] := by
        intro empty
        rw [empty] at written
        exact single written.symm
      rw [← written] at shape
      rw [components_of_names_append given shape, last, List.dropLast_concat]

end Path

end ScriptPreprocessor
