import ScriptPreprocessor.Include.Store
import ScriptPreprocessor.Proofs.Include.Walks

namespace ScriptPreprocessor

/-!
# Items of a directory

The path of an item leads down from the root of a directory, one segment after another.  When no
file is there, the last name is tried once more with the extension of scripts.  The extension
replaces the one that the name has; it is added only to a name without one
(`Catalog.scriptName_of_undotted`).  So `lib` stands for the files `lib` and `lib.lsl`, but `lib.v1`
stands for `lib.v1` and `lib.lsl`.

`Catalog.FindsFiles` says what a look-up finds.  A found file lies below the root, and two items
share a file only when their folders are the same and the extension makes their last names so.  A
path without segments stands for the root itself, whose own extension is then replaced.
-/

namespace Catalog

/-! ## Extensions -/

/-- A file name with the extension of scripts instead of its own, if it has one. -/
def scriptName (name : Text) : Text :=
  replaceExtension "lsl".toList name

theorem exists_stem {name : Text} (given : name ≠ []) :
    ∃ stem, stem ≠ [] ∧ stem ⊆ name ∧ scriptName name = stem ++ ".lsl".toList := by
  unfold scriptName replaceExtension
  split
  · next stem ending divided =>
    split
    · exact ⟨name, given, List.Subset.refl name, rfl⟩
    · next filled =>
      refine ⟨stem, mt List.isEmpty_iff.2 filled, ?_, rfl⟩
      rw [(Text.eq_of_splitLast? divided).1]
      exact List.subset_append_left stem _
  · exact ⟨name, given, List.Subset.refl name, rfl⟩

theorem isFileName_scriptName {name : Text} (plain : Path.IsFileName name) :
    Path.IsFileName (scriptName name) := by
  rcases exists_stem plain.ne_nil with ⟨stem, filled, within, shape⟩
  rw [shape]
  refine Path.isFileName_of_long ?_ ?_
  · rw [List.mem_append, not_or]
    exact ⟨mt (@within '/') plain.unbroken, by decide⟩
  · rw [List.length_append]
    have some := List.length_pos_iff.2 filled
    have ending : ".lsl".toList.length = 4 := rfl
    omega

/-- A name without a dot behind its first character is a stem. -/
theorem scriptName_of_undotted {name : Text} (undotted : '.' ∉ name.tail) :
    scriptName name = name ++ ".lsl".toList := by
  unfold scriptName replaceExtension
  split
  · next stem ending divided =>
    split
    · rfl
    · next filled =>
      cases stem with
      | nil => exact absurd rfl filled
      | cons first more =>
        rw [(Text.eq_of_splitLast? divided).1] at undotted
        exact absurd (List.mem_append_right more List.mem_cons_self) undotted
  · rfl

end Catalog

namespace Path

theorem dropSilent_append {silent : List Text} (all : ∀ name ∈ silent, isSilent name = true)
    {name : Text} (loud : isSilent name = false) (before : List Text) :
    dropSilent (silent ++ name :: before) = name :: before := by
  induction silent with
  | nil =>
    cases before with
    | nil => rfl
    | cons next more => exact if_neg (by simp [loud])
  | cons first rest ih =>
    have later := ih fun other member => all other (List.mem_cons_of_mem _ member)
    rw [List.cons_append]
    cases shape : rest ++ name :: before with
    | nil => simp at shape
    | cons next more =>
      rw [dropSilent, if_pos (all first List.mem_cons_self), ← shape, later]

theorem innerComponents_eq_nil {silent : List Text} (all : ∀ name ∈ silent, isSilent name = true) :
    innerComponents silent = [] := by
  rw [innerComponents, List.map_eq_nil_iff, List.filter_eq_nil_iff]
  simpa using all

theorem fileName?_of_names {path name : Text} {before silent : List Text}
    (shape : names path = before ++ name :: silent) (plain : IsFileName name)
    (all : ∀ other ∈ silent, isSilent other = true) : fileName? path = some name := by
  have ending (front : List PathComponent) (inner : List Text) :
      (front ++ innerComponents (inner ++ name :: silent)).getLast? = some (.normal name) := by
    rw [← List.singleton_append, innerComponents_append, innerComponents_append,
      innerComponents_of_isFileName plain, innerComponents_eq_nil all, List.append_nil,
      ← List.append_assoc, List.getLast?_concat]
  have last : (components path).getLast? = some (.normal name) := by
    rw [components, shape]
    cases before with
    | nil =>
      have relative : isAbsolute path = false := by
        by_contra absolute
        rcases names_of_absolute (eq_true_of_ne_false absolute) with ⟨rest, begins⟩
        rw [shape, List.nil_append, List.cons.injEq] at begins
        have loud := plain.notSilent
        rw [begins.1] at loud
        cases loud
      simp only [List.nil_append, relative, plain.ne_dot, Bool.false_eq_true, if_false]
      exact ending [] []
    | cons first more =>
      simp only [List.cons_append]
      split
      · exact ending [.root] more
      · split
        · exact ending [.current] more
        · exact ending [] (first :: more)
  rw [fileName?, last]

/-- What is written behind a path stays behind it when the path is joined. -/
theorem join_append {path : Text} (relative : isAbsolute path = false) (given : path ≠ [])
    (base more : Text) : join base (path ++ more) = join base path ++ more := by
  by_cases noBase : base = []
  · rw [noBase, join_nil, join_nil]
  · have still : isAbsolute (path ++ more) = false := by rw [isAbsolute_append given, relative]
    rw [join_of_relative noBase still, join_of_relative noBase relative, List.append_assoc]

theorem exists_closed (path : Text) : ∃ front, closed path = front ++ ['/'] := by
  rcases List.isSuffixOf_iff_suffix.1 (endsWith_closed path) with ⟨front, whole⟩
  exact ⟨front, whole.symm⟩

end Path

namespace Catalog

/-- The extension of a joined path is that of the segment joined last. -/
theorem withExtension_join {segment name : Text}
    (single : Path.components segment = [.normal name]) (base : Text) :
    withExtension "lsl".toList (Path.join base segment) = Path.join base (scriptName name) := by
  rcases Path.names_of_components single with ⟨plain, silent, shape, all⟩
  have script := isFileName_scriptName plain
  have exchange {path : Text} {before : List Text}
      (inside : Path.names path = before ++ name :: silent) :
      withExtension "lsl".toList path = Text.join ['/'] (before ++ [scriptName name]) := by
    have turned : Path.dropSilent (Path.names path).reverse = name :: before.reverse := by
      rw [inside, List.reverse_append, List.reverse_cons, List.append_assoc, List.singleton_append]
      exact Path.dropSilent_append (by simpa using all) plain.notSilent _
    rw [withExtension, Path.fileName?_of_names inside plain all, turned]
    simp only [List.reverse_cons, List.reverse_reverse]
    rfl
  by_cases noBase : base = []
  · rw [noBase, Path.join_nil, Path.join_nil, @exchange segment [] shape]
    rfl
  rcases Path.exists_closed base with ⟨front, shut⟩
  have joined (path : Text) : Path.names (front ++ ['/'] ++ path) =
      Path.names front ++ Path.names path := by
    rw [List.append_assoc, List.singleton_append, Path.names_append_slash]
  rw [Path.join_of_relative noBase (Path.isRelative_of_components single),
    Path.join_of_relative noBase (Path.isRelative_of_unbroken script.unbroken), shut,
    exchange ((joined segment).trans (congrArg _ shape)),
    ← Path.names_of_unbroken script.unbroken, ← joined]
  exact Text.join_splitOn _ '/'

/-! ## Items -/

/-- The path that segments lead to below a root. -/
def itemFile (root : Text) (segments : List Text) : Text :=
  segments.foldl Path.join root

/-- A file is the first of two paths that there is a file at. -/
def IsFirstFile (tree : FileTree) (first second file : Text) : Prop :=
  tree.isFile first = true ∧ file = first ∨
    tree.isFile first = false ∧ tree.isFile second = true ∧ file = second

theorem IsFirstFile.isFile {tree : FileTree} {first second file : Text}
    (found : IsFirstFile tree first second file) : tree.isFile file = true := by
  rcases found with ⟨there, rfl⟩ | ⟨-, there, rfl⟩
  · exact there
  · exact there

theorem isPlainName_iff {segment : Text} :
    isPlainName segment = true ↔ ∃ name, Path.components segment = [.normal name] := by
  unfold isPlainName
  split
  · next name single => exact iff_of_true rfl ⟨name, single⟩
  · next other =>
    refine iff_of_false Bool.false_ne_true ?_
    rintro ⟨name, single⟩
    exact other name single

theorem all_isPlainName_iff {segments : List Text} :
    segments.all isPlainName = true ↔ ∃ names, Path.AreSteps segments names := by
  induction segments with
  | nil => exact iff_of_true rfl ⟨[], rfl⟩
  | cons segment rest ih =>
    rw [List.all_cons, Bool.and_eq_true, ih, isPlainName_iff]
    constructor
    · rintro ⟨⟨name, single⟩, names, steps⟩
      refine ⟨name :: names, ?_⟩
      rw [Path.AreSteps, List.map_cons, List.map_cons, single, steps]
    · rintro ⟨names, steps⟩
      rcases steps.cons with ⟨name, more, rfl, single, later⟩
      exact ⟨⟨name, single⟩, more, later⟩

theorem fileFor?_eq_some_iff {tree : FileTree} {root path file : Text} :
    fileFor? tree root path = some file ↔
      (∃ names, Path.AreSteps (Folder.segments path) names) ∧
        IsFirstFile tree (itemFile root (Folder.segments path))
          (withExtension "lsl".toList (itemFile root (Folder.segments path))) file := by
  unfold fileFor?
  rw [← all_isPlainName_iff]
  simp only [itemFile, IsFirstFile]
  grind

theorem itemFile_concat (root : Text) (folders : List Text) (last : Text) :
    itemFile root (folders ++ [last]) = Path.join (itemFile root folders) last := by
  rw [itemFile, List.foldl_append]
  rfl

theorem areSteps_concat_iff {segments names : List Text} {name : Text} :
    Path.AreSteps segments (names ++ [name]) ↔
      ∃ folders last, segments = folders ++ [last] ∧ Path.AreSteps folders names ∧
        Path.components last = [.normal name] := by
  rw [Path.AreSteps, List.map_append, List.map_cons, List.map_nil, List.map_eq_append_iff]
  constructor
  · rintro ⟨folders, rest, rfl, steps, single⟩
    rw [List.map_eq_singleton_iff] at single
    rcases single with ⟨last, rfl, single⟩
    exact ⟨folders, last, rfl, steps, single⟩
  · rintro ⟨folders, last, rfl, steps, single⟩
    exact ⟨folders, [last], rfl, steps, congrArg (· :: []) single⟩

/-- The items of a directory whose paths have segments: the file of the segments goes first, and
then the one whose name has the extension of scripts. -/
theorem find?_directory_eq_some_iff {tree : FileTree} {root path : Text} {item : InventoryItem}
    (given : Folder.segments path ≠ []) :
    (directory tree root).find? path = some item ↔
      item.path = path ∧ ∃ names name, Path.AreSteps (Folder.segments path) (names ++ [name]) ∧
        IsFirstFile tree (itemFile root (Folder.segments path))
          (Path.join (itemFile root (Folder.segments path).dropLast) (scriptName name))
          item.handle := by
  have extended {names : List Text} {name : Text}
      (steps : Path.AreSteps (Folder.segments path) (names ++ [name])) :
      withExtension "lsl".toList (itemFile root (Folder.segments path)) =
        Path.join (itemFile root (Folder.segments path).dropLast) (scriptName name) := by
    rcases areSteps_concat_iff.1 steps with ⟨folders, last, shape, -, single⟩
    rw [shape, itemFile_concat, withExtension_join single, List.dropLast_concat]
  rw [find?, Option.map_eq_some_iff]
  constructor
  · rintro ⟨file, found, rfl⟩
    rcases fileFor?_eq_some_iff.1 found with ⟨⟨names, steps⟩, first⟩
    rcases List.eq_nil_or_concat names with rfl | ⟨front, name, rfl⟩
    · exact absurd (List.map_eq_nil_iff.1 steps) given
    · rw [List.concat_eq_append] at steps
      refine ⟨rfl, front, name, steps, ?_⟩
      rwa [extended steps] at first
  · rintro ⟨rfl, names, name, steps, first⟩
    refine ⟨item.handle, fileFor?_eq_some_iff.2 ⟨⟨_, steps⟩, ?_⟩, rfl⟩
    rwa [extended steps]

theorem eq_of_areSteps {segments names others : List Text} (steps : Path.AreSteps segments names)
    (same : Path.AreSteps segments others) : names = others := by
  have injective : Function.Injective fun name => [PathComponent.normal name] :=
    fun _ _ images => PathComponent.normal.inj (List.cons.inj images).1
  exact List.map_injective_iff.2 injective (steps.symm.trans same)

/-- A found file lies below the place of the root, at the names of the segments, and only the last
name may have got the extension of scripts. -/
theorem exists_place_of_find? {tree : FileTree} {root path : Text} {item : InventoryItem}
    {names : List Text} {name : Text} (found : (directory tree root).find? path = some item)
    (steps : Path.AreSteps (Folder.segments path) (names ++ [name])) :
    ∃ origin ending, tree.follow root = .ok origin ∧ (ending = name ∨ ending = scriptName name) ∧
      tree.locate item.handle = .ok (origin ++ (names ++ [ending])) := by
  rcases areSteps_concat_iff.1 steps with ⟨folders, last, shape, above, single⟩
  have given : Folder.segments path ≠ [] := by simp [shape]
  rcases (find?_directory_eq_some_iff given).1 found with ⟨-, others, other, same, first⟩
  rcases List.append_inj' (eq_of_areSteps steps same) rfl with ⟨rfl, final⟩
  cases final
  rcases FileTree.exists_file_of_isFile first.isFile with ⟨place, located, followed⟩
  rw [located]
  rcases first with ⟨-, handle⟩ | ⟨-, -, handle⟩
  · rw [handle] at followed
    rcases FileTree.exists_of_follow_foldl steps followed with ⟨origin, start, rfl⟩
    exact ⟨origin, _, start, .inl rfl, rfl⟩
  · have script : Path.AreSteps (folders ++ [scriptName name]) (names ++ [scriptName name]) :=
      areSteps_concat_iff.2 ⟨folders, _, rfl, above,
        Path.components_of_isFileName (isFileName_scriptName (Path.names_of_components single).1)⟩
    rw [handle, shape, List.dropLast_concat, ← itemFile_concat] at followed
    rcases FileTree.exists_of_follow_foldl script followed with ⟨origin, start, rfl⟩
    exact ⟨origin, _, start, .inr rfl, rfl⟩

/-- An item path of which every segment is a name without a slash and the last one is a name
without an extension. -/
structure IsOrdinary (path : Text) : Prop where
  filled : Folder.segments path ≠ []
  unbroken : ∀ segment ∈ Folder.segments path, '/' ∉ segment
  undotted : ∀ last ∈ (Folder.segments path).getLast?, '.' ∉ last.tail

theorem areSteps_iff_of_unbroken {segments names : List Text}
    (unbroken : ∀ segment ∈ segments, '/' ∉ segment) :
    Path.AreSteps segments names ↔
      names = segments ∧ ∀ segment ∈ segments, Path.IsFileName segment := by
  induction segments generalizing names with
  | nil => simp [Path.AreSteps]
  | cons segment rest ih =>
    rw [List.forall_mem_cons] at unbroken ⊢
    constructor
    · intro steps
      rcases steps.cons with ⟨name, more, rfl, single, later⟩
      rcases (Path.components_eq_iff unbroken.1).1 single with ⟨rfl, plain⟩
      rcases (ih unbroken.2).1 later with ⟨rfl, all⟩
      exact ⟨rfl, plain, all⟩
    · rintro ⟨rfl, plain, all⟩
      have later := (ih unbroken.2).2 ⟨rfl, all⟩
      rw [Path.AreSteps, List.map_cons, List.map_cons, Path.components_of_isFileName plain, later]

theorem IsOrdinary.find?_eq_some_iff {path : Text} (ordinary : IsOrdinary path) {tree : FileTree}
    {root : Text} {item : InventoryItem} :
    (directory tree root).find? path = some item ↔
      item.path = path ∧ (∀ segment ∈ Folder.segments path, Path.IsFileName segment) ∧
        IsFirstFile tree (itemFile root (Folder.segments path))
          (itemFile root (Folder.segments path) ++ ".lsl".toList) item.handle := by
  rw [find?_directory_eq_some_iff ordinary.filled]
  rcases List.eq_nil_or_concat (Folder.segments path) with empty | ⟨folders, last, shape⟩
  · exact absurd empty ordinary.filled
  rw [List.concat_eq_append] at shape
  have undotted := ordinary.undotted last (by simp [shape])
  have unbroken := ordinary.unbroken
  rw [shape] at unbroken ⊢
  have added (plain : Path.IsFileName last) :
      Path.join (itemFile root folders) (scriptName last) =
        itemFile root (folders ++ [last]) ++ ".lsl".toList := by
    rw [scriptName_of_undotted undotted, itemFile_concat,
      Path.join_append (Path.isRelative_of_unbroken plain.unbroken) plain.ne_nil]
  simp only [areSteps_iff_of_unbroken unbroken, List.dropLast_concat]
  refine and_congr_right fun _ => ?_
  constructor
  · rintro ⟨names, name, ⟨same, plain⟩, first⟩
    rcases List.append_inj' same rfl with ⟨rfl, final⟩
    cases final
    rw [added (plain _ (by simp))] at first
    exact ⟨plain, first⟩
  · rintro ⟨plain, first⟩
    rw [← added (plain _ (by simp))] at first
    exact ⟨folders, last, ⟨rfl, plain⟩, first⟩

/-- Names to which the extension of scripts makes no difference, or is only added. -/
def KeepsName (name : Text) : Prop :=
  scriptName name = name ∨ scriptName name = name ++ ".lsl".toList

/-- How items are found by their paths in the files below a root. -/
structure FindsFiles (tree : FileTree) (root : Text) (find? : Text → Option InventoryItem) :
    Prop where
  /-- The segments of a path lead down by a name each.  The file that they lead to goes first, and
  then the one whose name has the extension of scripts. -/
  found_iff {path : Text} {item : InventoryItem} (filled : Folder.segments path ≠ []) :
    find? path = some item ↔
      item.path = path ∧ ∃ names name, Path.AreSteps (Folder.segments path) (names ++ [name]) ∧
        IsFirstFile tree (itemFile root (Folder.segments path))
          (Path.join (itemFile root (Folder.segments path).dropLast) (scriptName name))
          item.handle
  /-- The extension is added to a last name that has none. -/
  ordinary_iff {path : Text} {item : InventoryItem} (ordinary : IsOrdinary path) :
    find? path = some item ↔
      item.path = path ∧ (∀ segment ∈ Folder.segments path, Path.IsFileName segment) ∧
        IsFirstFile tree (itemFile root (Folder.segments path))
          (itemFile root (Folder.segments path) ++ ".lsl".toList) item.handle
  /-- A path without segments is the root, or the file that has the extension instead. -/
  bare_iff {path : Text} {item : InventoryItem} (bare : Folder.segments path = []) :
    find? path = some item ↔
      item.path = path ∧ IsFirstFile tree root (withExtension "lsl".toList root) item.handle
  /-- With segments, a found file lies below the place of the root. -/
  inside {path : Text} {item : InventoryItem} (found : find? path = some item)
    (filled : Folder.segments path ≠ []) :
    ∃ origin below, tree.follow root = .ok origin ∧ below ≠ [] ∧
      tree.locate item.handle = .ok (origin ++ below)
  /-- Two paths that share a file have the same names for folders, and last names that are the same
  or become so with the extension of scripts. -/
  apart {path other : Text} {item twin : InventoryItem} {names others : List Text}
    {name otherName : Text} (found : find? path = some item) (foundTwin : find? other = some twin)
    (steps : Path.AreSteps (Folder.segments path) (names ++ [name]))
    (otherSteps : Path.AreSteps (Folder.segments other) (others ++ [otherName]))
    (shared : tree.locate item.handle = tree.locate twin.handle) :
    names = others ∧ (name = otherName ∨ name = scriptName otherName ∨
      scriptName name = otherName ∨ scriptName name = scriptName otherName)
  /-- When no extension is replaced, one of the last names is the other, or has the extension
  behind it. -/
  apart_of_keepsName {path other : Text} {item twin : InventoryItem} {names others : List Text}
    {name otherName : Text} (found : find? path = some item) (foundTwin : find? other = some twin)
    (steps : Path.AreSteps (Folder.segments path) (names ++ [name]))
    (otherSteps : Path.AreSteps (Folder.segments other) (others ++ [otherName]))
    (shared : tree.locate item.handle = tree.locate twin.handle)
    (kept : KeepsName name) (otherKept : KeepsName otherName) :
    names = others ∧ (name = otherName ∨ name = otherName ++ ".lsl".toList ∨
      otherName = name ++ ".lsl".toList)

theorem apart_of_find? {tree : FileTree} {root path other : Text} {item twin : InventoryItem}
    {names others : List Text} {name otherName : Text}
    (found : (directory tree root).find? path = some item)
    (foundTwin : (directory tree root).find? other = some twin)
    (steps : Path.AreSteps (Folder.segments path) (names ++ [name]))
    (otherSteps : Path.AreSteps (Folder.segments other) (others ++ [otherName]))
    (shared : tree.locate item.handle = tree.locate twin.handle) :
    names = others ∧ (name = otherName ∨ name = scriptName otherName ∨
      scriptName name = otherName ∨ scriptName name = scriptName otherName) := by
  rcases exists_place_of_find? found steps with ⟨origin, ending, start, given, located⟩
  rcases exists_place_of_find? foundTwin otherSteps with ⟨again, _, restart, also, elsewhere⟩
  rw [start] at restart
  cases restart
  rw [located, elsewhere, Except.ok.injEq, List.append_cancel_left_eq] at shared
  rcases List.append_inj' shared rfl with ⟨rfl, final⟩
  cases final
  refine ⟨rfl, ?_⟩
  rcases given with rfl | rfl
  · exact also.imp id .inl
  · exact .inr (.inr also)

theorem KeepsName.eq_or_added {name other : Text} (kept : KeepsName name)
    (otherKept : KeepsName other)
    (alike : name = other ∨ name = scriptName other ∨ scriptName name = other ∨
      scriptName name = scriptName other) :
    name = other ∨ name = other ++ ".lsl".toList ∨ other = name ++ ".lsl".toList := by
  rcases kept with kept | kept <;> rcases otherKept with otherKept | otherKept <;>
    simp only [kept, otherKept, List.append_left_inj] at alike <;> grind

/-- The items of a directory are found in the files below its root. -/
theorem findsFiles_directory (tree : FileTree) (root : Text) :
    FindsFiles tree root (find? (directory tree root)) where
  found_iff := find?_directory_eq_some_iff
  ordinary_iff ordinary := ordinary.find?_eq_some_iff
  bare_iff {path item} bare := by
    rw [find?, Option.map_eq_some_iff]
    simp only [fileFor?_eq_some_iff, bare]
    constructor
    · rintro ⟨file, ⟨-, first⟩, rfl⟩
      exact ⟨rfl, first⟩
    · rintro ⟨rfl, first⟩
      exact ⟨item.handle, ⟨⟨[], rfl⟩, first⟩, rfl⟩
  inside found filled := by
    rcases (find?_directory_eq_some_iff filled).1 found with ⟨-, names, name, steps, -⟩
    rcases exists_place_of_find? found steps with ⟨origin, ending, start, -, located⟩
    exact ⟨origin, names ++ [ending], start, by simp, located⟩
  apart := apart_of_find?
  apart_of_keepsName found foundTwin steps otherSteps shared kept otherKept :=
    (apart_of_find? found foundTwin steps otherSteps shared).imp_right
      (kept.eq_or_added otherKept)

/-- A look-up of `lib` finds the script of that name. -/
theorem findsFiles_directory_script :
    find? (directory { files := [(["inv".toList, "Scripts".toList, "lib.lsl".toList], [])] }
        "inv".toList) "|Scripts|lib".toList =
      some ⟨"|Scripts|lib".toList, "inv/Scripts/lib.lsl".toList⟩ :=
  ((findsFiles_directory _ _).ordinary_iff ⟨by decide, by decide, by decide⟩).2
    ⟨rfl, by decide, .inr ⟨by decide, by decide, rfl⟩⟩

/-- The extension of a name is replaced: the item `lib.v1` is the script `lib`, which is another
item, and not the script `lib.v1`.  The root's extension is replaced, too, which leads out of it. -/
theorem find?_directory_of_extension :
    find? (directory { files := [(["inv".toList, "Scripts".toList, "lib.lsl".toList], [])] }
        "inv".toList) "|Scripts|lib.v1".toList =
      some ⟨"|Scripts|lib.v1".toList, "inv/Scripts/lib.lsl".toList⟩ ∧
    find? (directory { files := [(["inv".toList, "Scripts".toList, "lib.v1.lsl".toList], [])] }
        "inv".toList) "|Scripts|lib.v1".toList = none ∧
    find? (directory { files := [(["inv.lsl".toList], [])], directories := [["inv".toList]] }
        "inv".toList) "|".toList = some ⟨"|".toList, "inv.lsl".toList⟩ ∧
    ¬ Path.IsBelow "inv".toList "inv.lsl".toList := by
  decide

end Catalog

end ScriptPreprocessor
