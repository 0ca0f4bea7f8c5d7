import ScriptPreprocessor.Proofs.Include.Directories
import ScriptPreprocessor.Proofs.Include.NameChecks

namespace ScriptPreprocessor

/-!
# Which candidate decides

A look-up tries candidates in order: along the search path first, then beside the includer, then in
the places of the settings.  In the file system the first file that can be read is taken, whatever
became of the attempts before it.  In the inventory the first item that is there decides, even when
its bytes cannot be had in the end.

A candidate that equals an earlier one is left out.  That never changes which item is the first, nor
which file, as long as equal paths are one file to whatever reads them.

All this holds of every way to read files and to find items (`SourceAccess.Answers`), not only of
the sources that the library brings along.
-/

namespace IncludeTarget

/-! ## Candidates without repetitions -/

theorem foldl_eq_eraseDupsBy_loop {same : Text → Text → Bool}
    (symmetric : ∀ left right, same left right = same right left) (candidates kept : List Text) :
    candidates.foldl
        (fun kept candidate => if kept.any (same · candidate) then kept else kept ++ [candidate])
        kept.reverse =
      List.eraseDupsBy.loop same candidates kept := by
  induction candidates generalizing kept with
  | nil => rfl
  | cons candidate rest ih =>
    have turned : kept.reverse.any (same · candidate) = kept.any (same candidate) := by
      rw [List.any_reverse]
      exact congrArg kept.any (funext fun other => symmetric other candidate)
    rw [List.foldl_cons, turned, List.eraseDupsBy.loop]
    cases kept.any (same candidate) with
    | true => exact ih kept
    | false =>
      rw [if_neg Bool.false_ne_true, ← List.reverse_cons]
      exact ih (candidate :: kept)

theorem distinctBy_eq_eraseDupsBy {same : Text → Text → Bool}
    (symmetric : ∀ left right, same left right = same right left) (candidates : List Text) :
    distinctBy same candidates = candidates.eraseDupsBy same :=
  foldl_eq_eraseDupsBy_loop symmetric candidates []

theorem findSome?_filter_not {α : Type} {find? : Text → Option α} {dropped : Text → Bool}
    (nothing : ∀ candidate, dropped candidate = true → find? candidate = none)
    (candidates : List Text) :
    (candidates.filter fun candidate => dropped candidate = false).findSome? find? =
      candidates.findSome? find? := by
  induction candidates with
  | nil => rfl
  | cons candidate rest ih =>
    cases test : dropped candidate with
    | true => rw [List.filter_cons_of_neg (by simp [test]), ih, List.findSome?_cons,
        nothing candidate test]
    | false => rw [List.filter_cons_of_pos (by simp [test]), List.findSome?_cons,
        List.findSome?_cons, ih]

/-- What is found first is found without the repetitions, too, when a candidate is not found where
an equal one is not. -/
theorem findSome?_eraseDupsBy {α : Type} {find? : Text → Option α} {same : Text → Text → Bool}
    (alike : ∀ left right, same left right = true → find? right = none → find? left = none)
    (candidates : List Text) :
    (candidates.eraseDupsBy same).findSome? find? = candidates.findSome? find? := by
  -- What is kept of the rest is thinned again, and that is a shorter list but no tail of this one.
  induction size : candidates.length using Nat.strong_induction_on generalizing candidates with
  | _ size ih =>
  cases candidates with
  | nil => rfl
  | cons candidate rest =>
    rw [List.eraseDupsBy_cons, List.findSome?_cons, List.findSome?_cons]
    cases here : find? candidate with
    | some found => rfl
    | none =>
      have shorter := List.length_filter_le (fun other => same other candidate = false) rest
      rw [← size, List.length_cons] at ih
      refine (ih _ (Nat.lt_succ_of_le shorter) _ rfl).trans ?_
      exact findSome?_filter_not (fun other repeated => alike other candidate repeated here) rest

/-! ## Candidates in order -/

/-- Whether the search path of a request begins at the include root. -/
def BeginsAtRoot (request : IncludeRequest) : Prop :=
  ∃ rest, request.searchPath = some ("./".toList ++ rest)

/-- The files that a name may be when its search path names no place to begin at, repetitions
included: along the search path below the include root, beside the includer, in the include root,
and in its fallback directory. -/
def filesInOrder (settings : IncludeSettings) (request : IncludeRequest) : List Text :=
  (Route.localRoutes settings request).map fun route => Path.join route.directory request.target

/-- The folder that holds the includer, when it was found in the inventory. -/
def includerFolder? (request : IncludeRequest) : Option Folder :=
  match request.location with
  | some (.inventory folder) => some (Folder.ofPath folder)
  | _ => none

/-- The items that a name may be, repetitions included: along the search path, beside the includer,
and in the default folder. -/
def itemsInOrder (settings : IncludeSettings) (request : IncludeRequest) : List Text :=
  let beside := includerFolder? request
  let searched := request.searchPath.toList.map fun search => Folder.ofSearch search beside
  (searched ++ beside.toList ++ [Folder.ofPath settings.defaultFolder]).map (·.item request.target)

/-- The files that a request tries, in order. -/
inductive TriesFiles (settings : IncludeSettings) (hasStore : Bool) (request : IncludeRequest) :
    List Text → Prop
  /-- Below the home directory.  Without one there is nothing to try. -/
  | belowHome {rest : Text} (search : request.searchPath = some ("~/".toList ++ rest)) :
    TriesFiles settings hasStore request
      (settings.homeDirectory.toList.map fun home =>
        Path.join (Path.join home rest) request.target)
  /-- Below the include root, and in its fallback directory. -/
  | belowRoot {rest : Text} (search : request.searchPath = some ("./".toList ++ rest)) :
    TriesFiles settings hasStore request
      [Path.join (Path.join settings.includeRoot rest) request.target,
        Path.join (Path.join settings.includeRoot settings.fallbackDirectory) request.target]
  /-- In all the places without a store, each file once. -/
  | inOrder (notHome : ¬ BeginsAtHome request) (notRoot : ¬ BeginsAtRoot request)
      (noStore : hasStore = false) :
    TriesFiles settings hasStore request
      ((filesInOrder settings request).eraseDupsBy Path.isSame)

/-- A request tries items when there is a store and its search path does not lead elsewhere. -/
structure TriesItems (hasStore : Bool) (request : IncludeRequest) : Prop where
  notHome : ¬ BeginsAtHome request
  notRoot : ¬ BeginsAtRoot request
  stored : hasStore = true

variable {settings : IncludeSettings} {hasStore : Bool} {request : IncludeRequest}

theorem localCandidates_eq (settings : IncludeSettings) (request : IncludeRequest) :
    localCandidates settings request =
      (filesInOrder settings request).eraseDupsBy Path.isSame := by
  have here (place : Text) : Path.join place request.target =
      Path.join (Route.directory ⟨place, []⟩) request.target := by
    rw [Route.directory, Path.join_join, Path.join_nil]
  have symmetric (left right : Text) : Path.isSame left right = Path.isSame right left :=
    Bool.beq_comm
  have along (search : Text) :
      Path.join ((Folder.segments search).foldl Path.join settings.includeRoot) request.target =
        Path.join
          (Route.directory ⟨settings.includeRoot, (Folder.segments search).foldl Path.join []⟩)
          request.target := Path.join_foldl _ _ _
  rw [← distinctBy_eq_eraseDupsBy symmetric, localCandidates, filesInOrder, Route.localRoutes]
  simp only [List.map_append, List.map_map, List.map_cons, List.map_nil, Function.comp_def,
    along, ← here]
  congr 3
  cases request.location with
  | none => rfl
  | some location =>
    cases location with
    | filesystem directory => simp only [List.map_cons, List.map_nil, ← here]
    | inventory folder => rfl

theorem inventoryCandidates_eq (settings : IncludeSettings) (request : IncludeRequest) :
    inventoryCandidates settings request = (itemsInOrder settings request).eraseDups := by
  rw [List.eraseDups, ← distinctBy_eq_eraseDupsBy fun _ _ => Bool.beq_comm]
  rfl

theorem belowRoot?_eq_some_iff {rest : Text} :
    belowRoot? request = some rest ↔ request.searchPath = some ("./".toList ++ rest) := by
  simp only [belowRoot?, Option.bind_eq_some_iff, Text.afterStart?_eq_some_iff]
  constructor
  · rintro ⟨search, given, rfl⟩
    exact given
  · intro given
    exact ⟨_, given, rfl⟩

theorem belowRoot?_eq_none_iff : belowRoot? request = none ↔ ¬ BeginsAtRoot request := by
  simp only [Option.eq_none_iff_forall_ne_some, ne_eq, belowRoot?_eq_some_iff, BeginsAtRoot,
    not_exists]

/-- What a request with an accepted name is looked up in. -/
theorem ofRequest_of_accepted (settings : IncludeSettings) (hasStore : Bool)
    (accepted : nameFault? request.target = none) :
    (TriesItems hasStore request ∧
      ofRequest settings hasStore request = .inventory (itemsInOrder settings request).eraseDups) ∨
    ∃ files, TriesFiles settings hasStore request files ∧
      (ofRequest settings hasStore request = .filesystem files ∨
        files = [] ∧ ofRequest settings hasStore request = .invalid .noHome) := by
  have looked := looksIn_ofRequest settings hasStore request
  generalize ofRequest settings hasStore request = target at looked ⊢
  cases looked with
  | unfit faulty =>
    rw [accepted] at faulty
    cases faulty
  | homeless _ home noHome =>
    refine .inr ⟨_, .belowHome (belowHome?_eq_some_iff.1 home), .inr ⟨?_, rfl⟩⟩
    rw [noHome]
    rfl
  | belowHome _ home given =>
    refine .inr ⟨_, .belowHome (belowHome?_eq_some_iff.1 home), .inl ?_⟩
    rw [given]
    rfl
  | belowRoot _ _ root => exact .inr ⟨_, .belowRoot (belowRoot?_eq_some_iff.1 root), .inl rfl⟩
  | inventory _ notHome notRoot stored =>
    rw [inventoryCandidates_eq]
    exact .inl ⟨⟨belowHome?_eq_none_iff.1 notHome, belowRoot?_eq_none_iff.1 notRoot, stored⟩, rfl⟩
  | inOrder _ notHome notRoot noStore =>
    rw [localCandidates_eq]
    exact .inr ⟨_, .inOrder (belowHome?_eq_none_iff.1 notHome)
      (belowRoot?_eq_none_iff.1 notRoot) noStore, .inl rfl⟩

/-- The search path, the settings and the store determine which files are tried. -/
theorem TriesFiles.unique {files others : List Text}
    (tried : TriesFiles settings hasStore request files)
    (triedToo : TriesFiles settings hasStore request others) : files = others := by
  cases tried with
  | belowHome search =>
    cases triedToo with
    | belowHome searchToo =>
      rw [search, Option.some.injEq, List.append_cancel_left_eq] at searchToo
      rw [searchToo]
    | belowRoot searchToo =>
      rw [search] at searchToo
      cases searchToo
    | inOrder notHome => exact absurd ⟨_, search⟩ notHome
  | belowRoot search =>
    cases triedToo with
    | belowHome searchToo =>
      rw [search] at searchToo
      cases searchToo
    | belowRoot searchToo =>
      rw [search, Option.some.injEq, List.append_cancel_left_eq] at searchToo
      rw [searchToo]
    | inOrder _ notRoot => exact absurd ⟨_, search⟩ notRoot
  | inOrder notHome notRoot =>
    cases triedToo with
    | belowHome searchToo => exact absurd ⟨_, searchToo⟩ notHome
    | belowRoot searchToo => exact absurd ⟨_, searchToo⟩ notRoot
    | inOrder => rfl

theorem TriesFiles.not_triesItems {files : List Text}
    (tried : TriesFiles settings hasStore request files) : ¬ TriesItems hasStore request := by
  intro items
  cases tried with
  | belowHome search => exact items.notHome ⟨_, search⟩
  | belowRoot search => exact items.notRoot ⟨_, search⟩
  | inOrder _ _ noStore =>
    rw [items.stored] at noStore
    cases noStore

end IncludeTarget

/-! ## The first file that can be read -/

/-- What becomes of a name that is looked up in files, in order.  Nothing is said about the reads
behind the file that is taken. -/
inductive FirstReadable (read : Text → FileRead) (name : Text) (files : List Text) :
    IncludeOutcome → Prop
  /-- The first file that can be read is taken, and its directory is where the unit is located. -/
  | found {earlier later : List Text} {file : Text} {bytes : Bytes}
      (listed : files = earlier ++ file :: later)
      (unread : ∀ other ∈ earlier, ∀ contents, read other ≠ .contents contents)
      (there : read file = .contents bytes) :
    FirstReadable read name files
      (.ok ⟨name, Utf8.decode bytes, some (.filesystem (Path.directory file))⟩)
  /-- No file can be read, and the last reason for that other than its absence is given. -/
  | refused {earlier later : List Text} {file reason : Text}
      (listed : files = earlier ++ file :: later)
      (unread : ∀ other ∈ files, ∀ contents, read other ≠ .contents contents)
      (denied : read file = .denied reason)
      (absent : ∀ other ∈ later, read other = .notFound) :
    FirstReadable read name files (.error (.fetchFailed name reason))
  /-- No file is there. -/
  | absent (nowhere : ∀ file ∈ files, read file = .notFound) :
    FirstReadable read name files (.error (.notFound name))

theorem FirstReadable.nowhere {read : Text → FileRead} {name : Text} {files : List Text}
    (first : FirstReadable read name files (.error (.notFound name))) :
    ∀ file ∈ files, read file = .notFound := by
  cases first
  assumption

/-- A file in front that cannot be read changes nothing but that a name is not found. -/
theorem FirstReadable.behind {read : Text → FileRead} {name : Text} {files : List Text}
    {outcome : IncludeOutcome} (first : FirstReadable read name files outcome)
    (settled : outcome ≠ .error (.notFound name)) {file : Text}
    (unreadable : ∀ contents, read file ≠ .contents contents) :
    FirstReadable read name (file :: files) outcome := by
  cases first with
  | @found earlier later path bytes listed unread there =>
    have shape : file :: files = (file :: earlier) ++ path :: later := by rw [listed]; rfl
    exact .found shape (List.forall_mem_cons.2 ⟨unreadable, unread⟩) there
  | @refused earlier later path reason listed unread denied absent =>
    have shape : file :: files = (file :: earlier) ++ path :: later := by rw [listed]; rfl
    exact .refused shape (List.forall_mem_cons.2 ⟨unreadable, unread⟩) denied absent
  | absent nowhere => exact absurd rfl settled

/-- One of the three always happens. -/
theorem FirstReadable.exists_outcome (read : Text → FileRead) (name : Text) (files : List Text) :
    ∃ outcome, FirstReadable read name files outcome := by
  induction files with
  | nil => exact ⟨_, .absent (by simp)⟩
  | cons file rest ih =>
    -- The outcome in the rest stands when this file cannot be read, unless no file is there at all.
    rcases ih with ⟨outcome, inRest⟩
    have inFront : file :: rest = [] ++ file :: rest := rfl
    cases here : read file with
    | contents bytes => exact ⟨_, .found inFront (by simp) here⟩
    | notFound =>
      by_cases settled : outcome = .error (.notFound name)
      · subst settled
        exact ⟨_, .absent (List.forall_mem_cons.2 ⟨here, inRest.nowhere⟩)⟩
      · exact ⟨outcome, inRest.behind settled (by simp [here])⟩
    | denied reason =>
      by_cases settled : outcome = .error (.notFound name)
      · subst settled
        have unread : ∀ other ∈ file :: rest, ∀ contents, read other ≠ .contents contents := by
          refine List.forall_mem_cons.2 ⟨by simp [here], fun other member => ?_⟩
          simp [inRest.nowhere other member]
        exact ⟨_, .refused inFront unread here inRest.nowhere⟩
      · exact ⟨outcome, inRest.behind settled (by simp [here])⟩

/-- A file with its bytes, when it can be read. -/
def readable? (read : Text → FileRead) (file : Text) : Option (Text × Bytes) :=
  (FileSource.bytes? (read file)).map fun bytes => (file, bytes)

theorem readable?_eq_none_iff {read : Text → FileRead} {file : Text} :
    readable? read file = none ↔ ∀ bytes, read file ≠ .contents bytes := by
  rw [readable?, Option.map_eq_none_iff]
  cases read file <;> simp [FileSource.bytes?]

/-- The first file that can be read stays the first without the repetitions, when equal paths are
read alike. -/
theorem FirstReadable.found_of_repeated {read : Text → FileRead} {name : Text} {files : List Text}
    (alike : ∀ left right, Path.isSame left right = true → read left = read right)
    {earlier later : List Text} {file : Text} {bytes : Bytes}
    (listed : files = earlier ++ file :: later)
    (unread : ∀ other ∈ earlier, ∀ contents, read other ≠ .contents contents)
    (there : read file = .contents bytes) :
    FirstReadable read name (files.eraseDupsBy Path.isSame)
      (.ok ⟨name, Utf8.decode bytes, some (.filesystem (Path.directory file))⟩) := by
  have first : files.findSome? (readable? read) = some (file, bytes) := by
    refine List.findSome?_eq_some_iff.2 ⟨earlier, file, later, listed, ?_, ?_⟩
    · simp only [readable?, there, FileSource.bytes?, Option.map_some]
    · exact fun other member => readable?_eq_none_iff.2 (unread other member)
  have once : (files.eraseDupsBy Path.isSame).findSome? (readable? read) = some (file, bytes) := by
    rw [← first]
    refine IncludeTarget.findSome?_eraseDupsBy ?_ files
    intro left right same missing
    rw [readable?_eq_none_iff] at missing ⊢
    rwa [alike left right same]
  rcases List.findSome?_eq_some_iff.1 once with ⟨before, path, after, thinned, here, missing⟩
  rcases Option.map_eq_some_iff.1 here with ⟨contents, -, pair⟩
  cases pair
  exact .found thinned (fun other member => readable?_eq_none_iff.1 (missing other member)) there

namespace SourceAccess

variable {σ : Type} {access : SourceAccess (StateM σ)} {state : σ} {read : Text → FileRead}
  {find? : Text → Option InventoryItem}

/-- What the accesses say in a state about files and items, which asking does not change. -/
structure Answers (access : SourceAccess (StateM σ)) (state : σ) (read : Text → FileRead)
    (find? : Text → Option InventoryItem) : Prop where
  read_eq : ∀ path, (access.read path).run state = (read path, state)
  find?_eq : ∀ path, (access.find? path).run state = (find? path, state)

/-- The sources answer with their files and their store. -/
theorem answers_ofState (sources : IncludeSources) :
    ofState.Answers sources sources.files.read (fun path => sources.store.bind (·.find? path)) :=
  ⟨fun _ => rfl, fun _ => rfl⟩

/-! ### Files -/

theorem run_firstReadable_cons (answers : access.Answers state read find?) (name : Text)
    (denial : Option Text) (path : Text) (paths : List Text) :
    (access.firstReadable name denial (path :: paths)).run state =
      match read path with
      | .contents bytes =>
        (.ok ⟨name, Utf8.decode bytes, some (.filesystem (Path.directory path))⟩, state)
      | .notFound => (access.firstReadable name denial paths).run state
      | .denied reason => (access.firstReadable name (some reason) paths).run state := by
  rw [firstReadable, StateT.run_bind, answers.read_eq]
  cases read path <;> rfl

/-- Reads that fail leave no more than their reasons behind. -/
theorem run_firstReadable_append (answers : access.Answers state read find?) (name : Text)
    {earlier : List Text} (unread : ∀ other ∈ earlier, ∀ contents, read other ≠ .contents contents)
    (denial : Option Text) (later : List Text) :
    ∃ reason?, (access.firstReadable name denial (earlier ++ later)).run state =
      (access.firstReadable name reason? later).run state := by
  induction earlier generalizing denial with
  | nil => exact ⟨denial, rfl⟩
  | cons path rest ih =>
    rw [List.forall_mem_cons] at unread
    rw [List.cons_append, run_firstReadable_cons answers]
    cases here : read path with
    | contents bytes => exact absurd here (unread.1 bytes)
    | notFound => exact ih unread.2 denial
    | denied reason => exact ih unread.2 (some reason)

theorem run_firstReadable_of_absent (answers : access.Answers state read find?) (name : Text)
    {paths : List Text} (absent : ∀ path ∈ paths, read path = .notFound) (denial : Option Text) :
    (access.firstReadable name denial paths).run state =
      (access.firstReadable name denial []).run state := by
  induction paths with
  | nil => rfl
  | cons path rest ih =>
    rw [List.forall_mem_cons] at absent
    rw [run_firstReadable_cons answers, absent.1]
    exact ih absent.2

theorem run_firstReadable_of_firstReadable (answers : access.Answers state read find?)
    {name : Text} {files : List Text} {outcome : IncludeOutcome}
    (first : FirstReadable read name files outcome) :
    (access.firstReadable name none files).run state = (outcome, state) := by
  cases first with
  | found listed unread there =>
    rcases run_firstReadable_append answers name unread none _ with ⟨reason?, same⟩
    rw [listed, same, run_firstReadable_cons answers, there]
  | @refused earlier later file reason listed unread denied absent =>
    have before : ∀ other ∈ earlier, ∀ contents, read other ≠ .contents contents := by
      intro other member
      exact unread other (listed ▸ List.mem_append_left _ member)
    rcases run_firstReadable_append answers name before none (file :: later) with ⟨reason?, same⟩
    rw [listed, same, run_firstReadable_cons answers, denied]
    exact run_firstReadable_of_absent answers name absent (some reason)
  | absent nowhere => exact run_firstReadable_of_absent answers name nowhere none

/-! ### Items -/

theorem run_firstItem?_of_answers (answers : access.Answers state read find?)
    (paths : List Text) : (access.firstItem? paths).run state = (paths.findSome? find?, state) := by
  induction paths with
  | nil => rfl
  | cons path rest ih =>
    rw [firstItem?, StateT.run_bind, answers.find?_eq, List.findSome?_cons]
    cases find? path with
    | some item => rfl
    | none => exact ih

theorem run_lookUp_inventory (answers : access.Answers state read find?) (name : Text)
    (candidates : List Text) :
    (access.lookUp name (.inventory candidates)).run state =
      match candidates.findSome? find? with
      | none => (.settled (.error (.notFound name)), state)
      | some item => (access.takeItem name item).run state := by
  rw [lookUp, StateT.run_bind, run_firstItem?_of_answers answers]
  cases candidates.findSome? find? <;> rfl

/-! ## Precedence -/

/-- How accesses decide a request whose name is accepted. -/
structure DecidesInOrder (access : SourceAccess (StateM σ)) (state : σ) (read : Text → FileRead)
    (find? : Text → Option InventoryItem) (settings : IncludeSettings) (hasStore : Bool)
    (request : IncludeRequest) : Prop where
  /-- Looking up files settles the request with what becomes of them in order, and with nothing
  else.  The state stays as it is. -/
  files {files : List Text} (tried : IncludeTarget.TriesFiles settings hasStore request files)
    (result : Resolution × σ) :
    (access.lookUp request.target (.ofRequest settings hasStore request)).run state = result ↔
      ∃ outcome, result = (.settled outcome, state) ∧
        FirstReadable read request.target files outcome
  /-- To a reader that takes equal paths for one file, the repetitions do not matter: the first
  file of all the places that can be read is taken. -/
  repeated (notHome : ¬ IncludeTarget.BeginsAtHome request)
    (notRoot : ¬ IncludeTarget.BeginsAtRoot request) (noStore : hasStore = false)
    (alike : ∀ left right, Path.isSame left right = true → read left = read right)
    {earlier later : List Text} {file : Text} {bytes : Bytes}
    (listed : IncludeTarget.filesInOrder settings request = earlier ++ file :: later)
    (unread : ∀ other ∈ earlier, ∀ contents, read other ≠ .contents contents)
    (there : read file = .contents bytes) :
    (access.lookUp request.target (.ofRequest settings hasStore request)).run state =
      (.settled (.ok ⟨request.target, Utf8.decode bytes,
        some (.filesystem (Path.directory file))⟩), state)
  /-- The first item that is there decides, and what it comes to is all that counts. -/
  item (tried : IncludeTarget.TriesItems hasStore request) {earlier later : List Text}
    {path : Text} {item : InventoryItem}
    (listed : IncludeTarget.itemsInOrder settings request = earlier ++ path :: later)
    (missing : ∀ other ∈ earlier, find? other = none) (there : find? path = some item) :
    (access.lookUp request.target (.ofRequest settings hasStore request)).run state =
      (access.takeItem request.target item).run state
  /-- Without any of the items, the request is not found, and the state stays as it is. -/
  noItem (tried : IncludeTarget.TriesItems hasStore request)
    (missing : ∀ path ∈ IncludeTarget.itemsInOrder settings request, find? path = none) :
    (access.lookUp request.target (.ofRequest settings hasStore request)).run state =
      (.settled (.error (.notFound request.target)), state)

variable {settings : IncludeSettings} {hasStore : Bool} {request : IncludeRequest}

theorem run_lookUp_of_triesFiles (answers : access.Answers state read find?)
    (accepted : IncludeTarget.nameFault? request.target = none) {files : List Text}
    (tried : IncludeTarget.TriesFiles settings hasStore request files) {outcome : IncludeOutcome}
    (first : FirstReadable read request.target files outcome) :
    (access.lookUp request.target (.ofRequest settings hasStore request)).run state =
      (.settled outcome, state) := by
  rcases IncludeTarget.ofRequest_of_accepted settings hasStore accepted with
    ⟨items, -⟩ | ⟨others, triedToo, target | ⟨empty, target⟩⟩
  · exact absurd items tried.not_triesItems
  · rw [← tried.unique triedToo] at target
    rw [target, lookUp, StateT.run_bind, run_firstReadable_of_firstReadable answers first]
    rfl
  · rw [tried.unique triedToo, empty] at first
    have nothing := run_firstReadable_of_firstReadable answers first
    have settled : outcome = .error (.notFound request.target) :=
      (congrArg Prod.fst nothing).symm
    rw [target, settled]
    rfl

theorem run_lookUp_of_triesItems (answers : access.Answers state read find?)
    (accepted : IncludeTarget.nameFault? request.target = none)
    (tried : IncludeTarget.TriesItems hasStore request) :
    (access.lookUp request.target (.ofRequest settings hasStore request)).run state =
      match (IncludeTarget.itemsInOrder settings request).findSome? find? with
      | none => (.settled (.error (.notFound request.target)), state)
      | some item => (access.takeItem request.target item).run state := by
  rcases IncludeTarget.ofRequest_of_accepted settings hasStore accepted with
    ⟨-, target⟩ | ⟨files, triedToo, -⟩
  · have once : (IncludeTarget.itemsInOrder settings request).eraseDups.findSome? find? =
        (IncludeTarget.itemsInOrder settings request).findSome? find? := by
      refine IncludeTarget.findSome?_eraseDupsBy (fun left right same missing => ?_) _
      rwa [beq_iff_eq.1 same]
    rw [target, run_lookUp_inventory answers, once]
  · exact absurd tried triedToo.not_triesItems

theorem decidesInOrder_of_answers (answers : access.Answers state read find?)
    (settings : IncludeSettings) (hasStore : Bool)
    (accepted : IncludeTarget.nameFault? request.target = none) :
    access.DecidesInOrder state read find? settings hasStore request where
  files {files} tried result := by
    constructor
    · rintro rfl
      rcases FirstReadable.exists_outcome read request.target files with ⟨outcome, first⟩
      exact ⟨outcome, run_lookUp_of_triesFiles answers accepted tried first, first⟩
    · rintro ⟨outcome, rfl, first⟩
      exact run_lookUp_of_triesFiles answers accepted tried first
  repeated notHome notRoot noStore alike {earlier later file bytes} listed unread there :=
    run_lookUp_of_triesFiles answers accepted (.inOrder notHome notRoot noStore)
      (.found_of_repeated alike listed unread there)
  item tried {earlier later path item} listed missing there := by
    have first := List.findSome?_eq_some_iff.2 ⟨earlier, path, later, listed, there, missing⟩
    rw [run_lookUp_of_triesItems answers accepted tried, first]
  noItem tried missing := by
    rw [run_lookUp_of_triesItems answers accepted tried, List.findSome?_eq_none_iff.2 missing]

end SourceAccess

/-! ## Items that are not at hand -/

/-- A fetch ends with the unit of its own item, or with a reason why there is none. -/
def Fetch.EndsWith (fetch : Fetch) (outcome : IncludeOutcome) : Prop :=
  (∃ bytes, outcome = .ok (assetUnit fetch.target fetch.item bytes)) ∨
    ∃ reason, outcome = .error (.fetchFailed fetch.target reason)

namespace IncludeSources

theorem endsWith_of_settle? {sources after : IncludeSources} {fetch : Fetch}
    {outcome : IncludeOutcome} (settled : sources.settle? fetch = some (outcome, after)) :
    fetch.EndsWith outcome := by
  cases settles_of_settle? settled with
  | fetched _ => exact .inl ⟨_, rfl⟩
  | failed _ => exact .inr ⟨_, rfl⟩
  | stopped _ => exact .inr ⟨_, rfl⟩

theorem endsWith_settle (sources : IncludeSources) (fetch : Fetch) :
    fetch.EndsWith (sources.settle fetch).1 := by
  rcases settle_cases (Prod.eta (sources.settle fetch)).symm with early | late | ⟨never, _⟩
  · exact endsWith_of_settle? early
  · exact endsWith_of_settle? late
  · exact .inr ⟨_, never⟩

/-- How sources decide a request whose name is accepted. -/
structure DecidesInOrder (sources : IncludeSources) (request : IncludeRequest) : Prop where
  /-- The request tries files, or else items. -/
  tries : (∃ files,
      IncludeTarget.TriesFiles sources.settings sources.store.isSome request files) ∨
    IncludeTarget.TriesItems sources.store.isSome request
  /-- The sources look the request up by their own accesses. -/
  resolve_eq : sources.resolve request =
    (SourceAccess.ofState.lookUp request.target
      (.ofRequest sources.settings sources.store.isSome request)).run sources
  answers : SourceAccess.ofState.Answers sources sources.files.read
    (fun path => sources.store.bind (·.find? path))
  /-- Any accesses decide in order, whatever they read and find. -/
  inOrder {σ : Type} {access : SourceAccess (StateM σ)} {state : σ} {read : Text → FileRead}
    {find? : Text → Option InventoryItem} (answers : access.Answers state read find?) :
    access.DecidesInOrder state read find? sources.settings sources.store.isSome request
  /-- The unit of a file is located where the components of the file lead without the last one. -/
  located {files : List Text} {unit : SourceUnit} {after : IncludeSources}
    (tried : IncludeTarget.TriesFiles sources.settings sources.store.isSome request files)
    (found : sources.resolve request = (.settled (.ok unit), after)) :
    ∃ file ∈ files, ∃ directory, unit.location = some (.filesystem directory) ∧
      Path.components directory = (Path.components file).dropLast
  /-- The item that decides gives its cached bytes, or it is fetched, or it cannot be fetched. -/
  taken {store : AssetStore} (held : sources.store = some store) (item : InventoryItem) :
    (∃ bytes, store.cached? item = some bytes ∧
      ((SourceAccess.ofState.takeItem request.target item).run sources).1 =
        .settled (.ok (assetUnit request.target item bytes))) ∨
    (store.cached? item = none ∧ ∃ fetch : Fetch,
      ((SourceAccess.ofState.takeItem request.target item).run sources).1 = .started fetch ∧
        fetch.target = request.target ∧ fetch.item = item) ∨
    (store.cached? item = none ∧ sources.queue.isRunning = false ∧
      (SourceAccess.ofState.takeItem request.target item).run sources =
        (.settled (.error (.fetchFailed request.target noService)), sources))
  /-- However the fetch ends and whenever it is asked for, no other item takes its place. -/
  ended {later : IncludeSources} {fetch : Fetch} :
    (∀ outcome after, later.settle? fetch = some (outcome, after) → fetch.EndsWith outcome) ∧
      fetch.EndsWith (later.settle fetch).1

/-- The first candidate decides every request whose name is accepted. -/
theorem decidesInOrder (sources : IncludeSources) (request : IncludeRequest)
    (accepted : IncludeTarget.nameFault? request.target = none) :
    sources.DecidesInOrder request where
  tries := by
    rcases IncludeTarget.ofRequest_of_accepted sources.settings sources.store.isSome accepted with
      ⟨items, -⟩ | ⟨files, tried, -⟩
    · exact .inr items
    · exact .inl ⟨files, tried⟩
  resolve_eq := (SourceAccess.run_lookUp sources request).symm
  answers := SourceAccess.answers_ofState sources
  inOrder answers := SourceAccess.decidesInOrder_of_answers answers _ _ accepted
  located {files unit after} tried found := by
    have own := SourceAccess.decidesInOrder_of_answers (SourceAccess.answers_ofState sources)
      sources.settings sources.store.isSome accepted
    rw [← SourceAccess.run_lookUp] at found
    rcases (own.files tried _).1 found with ⟨outcome, result, first⟩
    cases result
    cases first with
    | found listed unread there =>
      refine ⟨_, ?_, _, rfl, Path.components_directory _⟩
      rw [listed]
      exact List.mem_append_right _ List.mem_cons_self
  taken {store} held item := by
    rw [SourceAccess.run_takeItem held]
    cases cached : store.cached? item with
    | some bytes => exact .inl ⟨bytes, rfl, rfl⟩
    | none =>
      cases running : sources.queue.isRunning with
      | true => exact .inr (.inl ⟨rfl, _, rfl, rfl, rfl⟩)
      | false => exact .inr (.inr ⟨rfl, rfl, rfl⟩)
  ended := ⟨fun _ _ settled => endsWith_of_settle? settled, endsWith_settle _ _⟩

/-- Sources where the first file for `lib` may not be read, and two others may. -/
def lockedFirst : IncludeSources where
  files := .ofEntries [("./x/y/lib".toList, .denied "locked".toList),
    ("./lib".toList, .contents [0x3b]), ("./include/lib".toList, .contents [])]

/-- An include of `lib` with a search path, in a unit that was found in a directory. -/
def searchingRequest : IncludeRequest where
  target := "lib".toList
  searchPath := some "x|y".toList
  includer := "main".toList
  location := some (.filesystem "proj".toList)
  line := 1

/-- The file that may not be read does not keep the others from being tried, and its reason does not
count when one of them is found. -/
theorem decidesInOrder_lockedFirst :
    IncludeTarget.nameFault? searchingRequest.target = none ∧
      lockedFirst.resolve searchingRequest =
        (.settled (.ok ⟨"lib".toList, ";".toList, some (.filesystem ".".toList)⟩),
          lockedFirst) := by
  have accepted : IncludeTarget.nameFault? searchingRequest.target = none := by decide
  have decided := lockedFirst.decidesInOrder searchingRequest accepted
  have notHome : ¬ IncludeTarget.BeginsAtHome searchingRequest := by
    rintro ⟨rest, same⟩
    simp [searchingRequest] at same
  have notRoot : ¬ IncludeTarget.BeginsAtRoot searchingRequest := by
    rintro ⟨rest, same⟩
    simp [searchingRequest] at same
  have missing : ∀ other ∈ ["./x/y/lib".toList, "proj/lib".toList],
      readable? lockedFirst.files.read other = none := by decide
  have listed : (IncludeTarget.filesInOrder {} searchingRequest).eraseDupsBy Path.isSame =
      ["./x/y/lib".toList, "proj/lib".toList] ++ "./lib".toList :: ["./include/lib".toList] := by
    decide
  have there : lockedFirst.files.read "./lib".toList = .contents [0x3b] := by decide
  rw [decided.resolve_eq]
  refine ⟨accepted, ?_⟩
  refine ((decided.inOrder decided.answers).files (.inOrder notHome notRoot rfl) _).2 ⟨_, rfl, ?_⟩
  exact .found listed (fun other member => readable?_eq_none_iff.1 (missing other member)) there

end IncludeSources

end ScriptPreprocessor
