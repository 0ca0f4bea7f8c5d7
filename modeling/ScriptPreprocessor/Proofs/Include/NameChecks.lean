import ScriptPreprocessor.Include.Sources
import ScriptPreprocessor.Proofs.Include.Places

namespace ScriptPreprocessor

/-!
# Names that are looked up

The name of an include is free text, and it is checked before anything is looked up.  A name is
unfit when it is empty, begins or ends with a slash, or goes up somewhere (`isUnfit_iff`).  An unfit
name is not found, and nothing is read for it and no item asked for: a look-up is written once for
any accesses (`SourceAccess.lookUp`), the sources use it with accesses of their own
(`SourceAccess.run_lookUp`), and for an unfit name it uses none.

Every other name is joined to directories that do not depend on it, and leads below them
(`IncludeSources.ChecksNames`).
-/

/-! ## Unfit names -/

theorem Path.parent_mem_innerComponents_iff {names : List Text} :
    .parent ∈ innerComponents names ↔ "..".toList ∈ names := by
  have isParent (name : Text) : componentOf name = .parent ↔ name = "..".toList := by
    unfold componentOf
    split
    · next same => exact iff_of_true rfl (beq_iff_eq.1 same)
    · next differs => exact iff_of_false (by simp) (mt beq_iff_eq.2 differs)
  simp only [innerComponents, List.mem_map, List.mem_filter, isParent]
  constructor
  · rintro ⟨name, ⟨member, -⟩, rfl⟩
    exact member
  · intro member
    exact ⟨_, ⟨member, by decide⟩, rfl⟩

theorem Path.parent_mem_components_iff {path : Text} :
    .parent ∈ components path ↔ "..".toList ∈ names path := by
  rw [components]
  cases shape : names path with
  | nil => simp
  | cons first rest =>
    simp only
    split
    · next absolute =>
      rcases names_of_absolute absolute with ⟨more, begins⟩
      rw [shape, List.cons.injEq] at begins
      rw [begins.1, List.mem_cons, List.mem_cons, parent_mem_innerComponents_iff]
      simp
    · split
      · next dot =>
        rw [beq_iff_eq.1 dot, List.mem_cons, List.mem_cons, parent_mem_innerComponents_iff]
        simp
      · exact parent_mem_innerComponents_iff

theorem Path.root_mem_components_iff {path : Text} :
    .root ∈ components path ↔ isAbsolute path = true := by
  have inner (names : List Text) : .root ∉ innerComponents names := by
    simp only [innerComponents, List.mem_map, not_exists, not_and]
    intro name _ same
    unfold componentOf at same
    split at same <;> cases same
  rw [components]
  cases shape : names path with
  | nil => exact absurd shape (Text.splitOn_ne_nil path _)
  | cons first rest =>
    simp only
    split
    · next absolute => exact iff_of_true List.mem_cons_self absolute
    · next relative =>
      refine iff_of_false ?_ relative
      split
      · simpa using inner rest
      · exact inner _

namespace IncludeTarget

/-- Whether a name is not looked up: it is empty, begins or ends with a slash, or has a component
that leads elsewhere than down. -/
def IsUnfit (name : Text) : Prop :=
  name = [] ∨ name.head? = some '/' ∨ name.getLast? = some '/' ∨
    ∃ component ∈ Path.components name,
      component ≠ .current ∧ ∀ inner, component ≠ .normal inner

/-- Whether the search path of a request begins at the home directory. -/
def BeginsAtHome (request : IncludeRequest) : Prop :=
  ∃ rest, request.searchPath = some ("~/".toList ++ rest)

theorem staysBelow_eq_false_iff {component : PathComponent} :
    staysBelow component = false ↔ component ≠ .current ∧ ∀ inner, component ≠ .normal inner := by
  cases component <;> simp [staysBelow]

theorem isSome_nameFault?_iff {name : Text} : (nameFault? name).isSome = true ↔ IsUnfit name := by
  have leaves : (Path.components name).all staysBelow = false ↔
      ∃ component ∈ Path.components name,
        component ≠ .current ∧ ∀ inner, component ≠ .normal inner := by
    simp only [List.all_eq_false, Bool.not_eq_true, staysBelow_eq_false_iff]
  unfold nameFault? IsUnfit
  rw [← Text.startsWith_singleton_iff, ← Text.endsWith_singleton_iff, ← leaves,
    ← List.isEmpty_iff]
  grind

/-- A name without an outer slash is unfit when one of the names between its slashes is `..`. -/
theorem isUnfit_iff {name : Text} :
    IsUnfit name ↔ name = [] ∨ name.head? = some '/' ∨ name.getLast? = some '/' ∨
      "..".toList ∈ Path.names name := by
  have outside : (∃ component ∈ Path.components name,
      component ≠ .current ∧ ∀ inner, component ≠ .normal inner) ↔
        name.head? = some '/' ∨ "..".toList ∈ Path.names name := by
    rw [← Path.parent_mem_components_iff, ← Text.startsWith_singleton_iff,
      ← Path.isAbsolute, ← Path.root_mem_components_iff]
    constructor
    · rintro ⟨component, member, notCurrent, notNormal⟩
      cases component with
      | root => exact .inl member
      | current => exact absurd rfl notCurrent
      | parent => exact .inr member
      | normal inner => exact absurd rfl (notNormal inner)
    · rintro (member | member)
      · exact ⟨_, member, by simp⟩
      · exact ⟨_, member, by simp⟩
  rw [IsUnfit, outside]
  tauto

theorem belowHome?_eq_some_iff {request : IncludeRequest} {rest : Text} :
    belowHome? request = some rest ↔ request.searchPath = some ("~/".toList ++ rest) := by
  simp only [belowHome?, Option.bind_eq_some_iff, Text.afterStart?_eq_some_iff]
  constructor
  · rintro ⟨search, given, rfl⟩
    exact given
  · intro given
    exact ⟨_, given, rfl⟩

theorem belowHome?_eq_none_iff {request : IncludeRequest} :
    belowHome? request = none ↔ ¬ BeginsAtHome request := by
  simp only [Option.eq_none_iff_forall_ne_some, ne_eq, belowHome?_eq_some_iff, BeginsAtHome,
    not_exists]

/-- A request is invalid when its name is unfit, or when it needs a home directory and there is
none. -/
theorem ofRequest_invalid_iff {settings : IncludeSettings} {hasStore : Bool}
    {request : IncludeRequest} :
    (∃ fault, ofRequest settings hasStore request = .invalid fault) ↔
      IsUnfit request.target ∨ BeginsAtHome request ∧ settings.homeDirectory = none := by
  rw [← isSome_nameFault?_iff]
  have looked := looksIn_ofRequest settings hasStore request
  generalize ofRequest settings hasStore request = target at looked ⊢
  cases looked with
  | unfit faulty => simp [faulty]
  | homeless accepted home noHome =>
    have begins : BeginsAtHome request := ⟨_, belowHome?_eq_some_iff.1 home⟩
    simp [accepted, begins, noHome]
  | belowHome accepted home given => simp [accepted, given]
  | belowRoot accepted notHome | inventory accepted notHome | inOrder accepted notHome =>
    simp [accepted, belowHome?_eq_none_iff.1 notHome]

end IncludeTarget

/-! ## Looking up through accesses -/

/-- What a look-up may do: read a file, find an item, take the bytes of an item out of the cache,
and start a fetch, which gives its ticket when the fetching service runs. -/
structure SourceAccess (m : Type → Type) where
  read : Text → m FileRead
  find? : Text → m (Option InventoryItem)
  takeCached? : InventoryItem → m (Option Bytes)
  start? : InventoryItem → m (Option Nat)

namespace SourceAccess

variable {m : Type → Type} [Monad m]

/-- The first file that can be read, like `FileSource.firstReadable`. -/
def firstReadable (access : SourceAccess m) (name : Text) :
    Option Text → List Text → m IncludeOutcome
  | denial, [] =>
    match denial with
    | some reason => pure (.error (.fetchFailed name reason))
    | none => pure (.error (.notFound name))
  | denial, path :: paths => do
    match ← access.read path with
    | .contents bytes =>
      pure (.ok { SourceUnit.ofBytes name bytes with
        location := some (.filesystem (Path.directory path)) })
    | .notFound => firstReadable access name denial paths
    | .denied reason => firstReadable access name (some reason) paths

/-- The first item that is there. -/
def firstItem? (access : SourceAccess m) : List Text → m (Option InventoryItem)
  | [] => pure none
  | path :: paths => do
    match ← access.find? path with
    | some item => pure (some item)
    | none => firstItem? access paths

/-- Takes an item out of the cache, or starts to fetch it. -/
def takeItem (access : SourceAccess m) (name : Text) (item : InventoryItem) : m Resolution := do
  match ← access.takeCached? item with
  | some bytes => pure (.settled (.ok (assetUnit name item bytes)))
  | none =>
    match ← access.start? item with
    | some ticket => pure (.started ⟨name, item, ticket⟩)
    | none => pure (.settled (.error (.fetchFailed name IncludeSources.noService)))

/-- Looks a name up in the places of its request. -/
def lookUp (access : SourceAccess m) (name : Text) : IncludeTarget → m Resolution
  | .invalid _ => pure (.settled (.error (.notFound name)))
  | .filesystem candidates => do
    return .settled (← access.firstReadable name none candidates)
  | .inventory candidates => do
    match ← access.firstItem? candidates with
    | none => pure (.settled (.error (.notFound name)))
    | some item => access.takeItem name item

/-- The accesses to sources, which some of them change. -/
def ofState : SourceAccess (StateM IncludeSources) where
  read path sources := (sources.files.read path, sources)
  find? path sources := (sources.store.bind (·.find? path), sources)
  takeCached? item sources :=
    match sources.store with
    | some store =>
      match store.cached? item with
      | some bytes => (some bytes, { sources with store := some (store.invalidate item) })
      | none => (none, sources)
    | none => (none, sources)
  start? item sources :=
    if sources.queue.isRunning then
      (some sources.queue.nextTicket, { sources with queue := sources.queue.enqueue item })
    else (none, sources)

theorem run_read (sources : IncludeSources) (path : Text) :
    (ofState.read path).run sources = (sources.files.read path, sources) :=
  rfl

theorem run_firstReadable (sources : IncludeSources) (name : Text) (denial : Option Text)
    (paths : List Text) :
    (ofState.firstReadable name denial paths).run sources =
      (sources.files.firstReadable name denial paths, sources) := by
  induction paths generalizing denial with
  | nil => cases denial <;> rfl
  | cons path paths ih =>
    rw [firstReadable, StateT.run_bind, run_read, FileSource.firstReadable]
    cases sources.files.read path with
    | contents bytes => rfl
    | notFound => exact ih denial
    | denied reason => exact ih (some reason)

theorem run_firstItem? (sources : IncludeSources) (paths : List Text) :
    (ofState.firstItem? paths).run sources =
      (paths.findSome? fun path => sources.store.bind (·.find? path), sources) := by
  induction paths with
  | nil => rfl
  | cons path paths ih =>
    have look : (ofState.find? path).run sources =
        (sources.store.bind (·.find? path), sources) := rfl
    rw [firstItem?, StateT.run_bind, look, List.findSome?_cons]
    cases sources.store.bind (·.find? path) with
    | some item => rfl
    | none => exact ih

theorem run_takeItem {sources : IncludeSources} {store : AssetStore}
    (held : sources.store = some store) (name : Text) (item : InventoryItem) :
    (ofState.takeItem name item).run sources =
      match store.cached? item with
      | some bytes =>
        (.settled (.ok (assetUnit name item bytes)),
          { sources with store := some (store.invalidate item) })
      | none =>
        if sources.queue.isRunning then
          (.started ⟨name, item, sources.queue.nextTicket⟩,
            { sources with queue := sources.queue.enqueue item })
        else (.settled (.error (.fetchFailed name IncludeSources.noService)), sources) := by
  have take : (ofState.takeCached? item).run sources =
      match store.cached? item with
      | some bytes => (some bytes, { sources with store := some (store.invalidate item) })
      | none => (none, sources) := by
    simp only [ofState, StateT.run, held]
  rw [takeItem, StateT.run_bind, take]
  cases store.cached? item with
  | some bytes => rfl
  | none =>
    have start : (ofState.start? item).run sources =
        if sources.queue.isRunning then
          (some sources.queue.nextTicket, { sources with queue := sources.queue.enqueue item })
        else (none, sources) := rfl
    refine (StateT.run_bind _ _ _).trans ?_
    rw [start]
    split <;> rfl

/-- Sources look a request up by their own accesses. -/
theorem run_lookUp (sources : IncludeSources) (request : IncludeRequest) :
    (ofState.lookUp request.target (sources.target request)).run sources =
      sources.resolve request := by
  unfold IncludeSources.resolve
  cases sources.target request with
  | invalid fault => rfl
  | filesystem candidates =>
    rw [lookUp, StateT.run_bind, run_firstReadable]
    rfl
  | inventory candidates =>
    rw [lookUp, StateT.run_bind, run_firstItem?]
    cases held : sources.store with
    | none =>
      have nothing : (candidates.findSome? fun path =>
          (none : Option AssetStore).bind (·.find? path)) = none := by simp
      rw [nothing]
      rfl
    | some store =>
      simp only [Option.bind_some, IncludeSources.resolveItem]
      cases candidates.findSome? store.find? with
      | none => rfl
      | some item => exact run_takeItem held request.target item

end SourceAccess

/-! ## Checked names -/

/-- How a look-up deals with the name of a request. -/
structure IncludeSources.ChecksNames (sources : IncludeSources) (request : IncludeRequest) :
    Prop where
  /-- A request is invalid exactly when its name is unfit, or it needs a home directory and none is
  known. -/
  invalid_iff : (∃ fault, sources.target request = .invalid fault) ↔
    IncludeTarget.IsUnfit request.target ∨
      IncludeTarget.BeginsAtHome request ∧ sources.settings.homeDirectory = none
  /-- The sources look the request up by their own accesses. -/
  resolve_eq : sources.resolve request =
    (SourceAccess.ofState.lookUp request.target (sources.target request)).run sources
  /-- For an invalid request no access is made, whatever the accesses do. -/
  untouched {fault : NameFault} (invalid : sources.target request = .invalid fault)
    {m : Type → Type} [Monad m] (access : SourceAccess m) :
    access.lookUp request.target (sources.target request) =
      pure (.settled (.error (.notFound request.target)))
  /-- An invalid request is not found, and the sources stay as they are. -/
  notFound {fault : NameFault} (invalid : sources.target request = .invalid fault) :
    sources.resolve request = (.settled (.error (.notFound request.target)), sources)
  /-- Every file that is tried for a name lies below one of the directories of the request, which
  are the same for all names. -/
  directories : ∃ directories : List Text, ∀ name candidates,
    sources.target { request with target := name } = .filesystem candidates →
      ∀ candidate ∈ candidates, ∃ directory ∈ directories,
        candidate = Path.join directory name ∧ Path.IsBelow directory candidate

/-- Look-ups check the names of their requests. -/
theorem IncludeSources.checksNames (sources : IncludeSources) (request : IncludeRequest) :
    sources.ChecksNames request where
  invalid_iff := IncludeTarget.ofRequest_invalid_iff
  resolve_eq := (SourceAccess.run_lookUp sources request).symm
  untouched invalid _ _ access := by rw [invalid, SourceAccess.lookUp]
  notFound invalid := by rw [resolve, invalid]
  directories := by
    refine ⟨(Route.ofRequest sources.settings request).map Route.directory, ?_⟩
    intro name candidates looked candidate member
    rcases Route.exists_of_candidate looked member with ⟨accepted, route, listed, rfl⟩
    exact ⟨route.directory, List.mem_map_of_mem listed, rfl,
      Path.isBelow_join (IncludeTarget.staysInside_of_accepted accepted) route.directory⟩

/-- A name that goes down first and then up further is rejected like one that only goes up. -/
theorem IncludeSources.checksNames_climbing :
    ({} : IncludeSources).resolve
        ⟨"lib/../../secret".toList, none, "main".toList, none, 1⟩ =
      (.settled (.error (.notFound "lib/../../secret".toList)), {}) := by
  have invalid : ({} : IncludeSources).target
      ⟨"lib/../../secret".toList, none, "main".toList, none, 1⟩ =
        .invalid .leavesDirectory := by decide
  exact (checksNames {} _).notFound invalid

end ScriptPreprocessor
