import ScriptPreprocessor.Include.Target
import ScriptPreprocessor.Proofs.Text.Parts

namespace ScriptPreprocessor

/-!
# Where files are looked up

A request leads below places that the settings and the including unit name: the home directory, the
include root, and the directory of the includer.  Between such a place and the name stands an
offset, which is what a search path says behind its mark, the folders that it goes through, or the
fallback directory.

Search paths are meant to be anchored to their places, and an offset that stays inside keeps them
there: every file that is tried then lies below the place (`IncludeTarget.isBelow_of_candidate`).
But paths are joined in the way of the file system, where a path that begins at the root replaces
what it is joined to.  A script that writes such a path behind `~/`, or one that climbs, gets at
files outside of every place (`IncludeTarget.not_isAnchored_of_offsets`).  Names cannot do this,
because they are checked.

Where a path leads is read off its components alone, as `..` is understood without looking at a
file system.
-/

namespace Path

/-! ## Paths without detours -/

/-- The components that lead to where one more component leads, the last one first. -/
def takeStep (passed : List PathComponent) : PathComponent → List PathComponent
  | .root => [.root]
  | .current => passed
  | .normal name => .normal name :: passed
  | .parent =>
    match passed with
    | .normal _ :: above => above
    | .root :: _ => passed
    | _ => .parent :: passed

/-- The components of a path without those that a later `..` takes back. -/
def normalized (path : Text) : List PathComponent :=
  ((components path).foldl takeStep []).reverse

/-- Whether a component is a name. -/
def isName : PathComponent → Bool
  | .normal _ => true
  | .root | .current | .parent => false

/-- Whether a path leads nowhere but below the place where it begins. -/
def staysInside (path : Text) : Bool :=
  (normalized path).all isName

/-- A path leads to a place or below it. -/
def IsBelow (place path : Text) : Prop :=
  ∃ names : List Text, normalized path = normalized place ++ names.map .normal

theorem IsBelow.trans {place middle path : Text} (upper : IsBelow place middle)
    (lower : IsBelow middle path) : IsBelow place path := by
  rcases upper with ⟨above, toMiddle⟩
  rcases lower with ⟨below, toPath⟩
  exact ⟨above ++ below, by rw [toPath, toMiddle, List.map_append, List.append_assoc]⟩

/-! ## Joined paths -/

/-- The components of a path, without a `.` that begins it. -/
def steps (path : Text) : List PathComponent :=
  (if isAbsolute path then [.root] else []) ++ innerComponents (names path)

@[simp] theorem innerComponents_append (left right : List Text) :
    innerComponents (left ++ right) = innerComponents left ++ innerComponents right := by
  simp [innerComponents]

theorem names_of_absolute {path : Text} (absolute : isAbsolute path = true) :
    ∃ rest, names path = [] :: names rest := by
  cases path with
  | nil => cases absolute
  | cons first rest =>
    refine ⟨rest, ?_⟩
    have slash : '/' = first := by simpa [isAbsolute, Text.startsWith] using absolute
    simp [names, Text.splitOn, ← slash]

theorem names_append_slash (before after : Text) :
    names (before ++ '/' :: after) = names before ++ names after :=
  Text.splitOn_append_cons (· == '/') rfl before after

/-- A `.` in front leads nowhere, so it may be left out. -/
theorem foldl_components (passed : List PathComponent) (path : Text) :
    (components path).foldl takeStep passed = (steps path).foldl takeStep passed := by
  unfold components steps
  by_cases absolute : isAbsolute path = true
  · rcases names_of_absolute absolute with ⟨rest, shape⟩
    simp [shape, absolute, innerComponents, isSilent]
  · cases shape : names path with
    | nil => simp [absolute, innerComponents]
    | cons first rest =>
      by_cases dot : first = ['.']
      · simp [absolute, dot, innerComponents, isSilent, takeStep]
      · simp [absolute, dot]

theorem normalized_eq (path : Text) :
    normalized path = ((steps path).foldl takeStep []).reverse := by
  rw [normalized, foldl_components]

theorem isAbsolute_append {base : Text} (given : base ≠ []) (path : Text) :
    isAbsolute (base ++ path) = isAbsolute base := by
  cases base with
  | nil => exact absurd rfl given
  | cons first rest => simp [isAbsolute, Text.startsWith, List.isPrefixOf]

/-- A path with a slash at its end. -/
def closed (path : Text) : Text :=
  if path.endsWith ['/'] then path else path ++ ['/']

theorem closed_ne_nil (path : Text) : closed path ≠ [] := by
  unfold closed
  split
  · next ended =>
    rintro rfl
    cases ended
  · exact List.append_ne_nil_of_right_ne_nil path (List.cons_ne_nil '/' [])

theorem endsWith_closed (path : Text) : Text.endsWith (closed path) ['/'] = true := by
  unfold closed
  split
  · assumption
  · exact List.isSuffixOf_iff_suffix.2 (List.suffix_append path ['/'])

theorem closed_append (front : Text) {path : Text} (given : path ≠ []) :
    closed (front ++ path) = front ++ closed path := by
  have ends : Text.endsWith (front ++ path) ['/'] = Text.endsWith path ['/'] := by
    have turned := isAbsolute_append (mt List.reverse_eq_nil_iff.1 given) front.reverse
    rw [← List.reverse_append] at turned
    exact turned
  unfold closed
  rw [ends]
  split
  · rfl
  · rw [List.append_assoc]

theorem closed_closed (path : Text) : closed (closed path) = closed path :=
  if_pos (endsWith_closed path)

theorem isAbsolute_closed {path : Text} (given : path ≠ []) :
    isAbsolute (closed path) = isAbsolute path := by
  unfold closed
  split
  · rfl
  · exact isAbsolute_append given _

theorem join_of_absolute {path : Text} (absolute : isAbsolute path = true) (base : Text) :
    join base path = path :=
  if_pos (by rw [absolute, Bool.true_or])

theorem join_nil (path : Text) : join [] path = path :=
  if_pos (Bool.or_true _)

theorem join_of_relative {base path : Text} (given : base ≠ [])
    (relative : isAbsolute path = false) : join base path = closed base ++ path := by
  unfold join closed
  rw [if_neg (by simp [relative, given])]
  split
  · rfl
  · rw [List.append_assoc, List.singleton_append]

/-- Paths may be joined from the first to the last or from the last to the first. -/
theorem join_join (base middle path : Text) :
    join (join base middle) path = join base (join middle path) := by
  cases absolute : isAbsolute path with
  | true => rw [join_of_absolute absolute, join_of_absolute absolute, join_of_absolute absolute]
  | false =>
    by_cases noBase : base = []
    · rw [noBase, join_nil, join_nil]
    by_cases noMiddle : middle = []
    · rw [noMiddle, join_nil, join_of_relative noBase rfl, List.append_nil,
        join_of_relative (closed_ne_nil base) absolute, closed_closed,
        join_of_relative noBase absolute]
    have started : isAbsolute (join middle path) = isAbsolute middle := by
      rw [join_of_relative noMiddle absolute, isAbsolute_append (closed_ne_nil middle),
        isAbsolute_closed noMiddle]
    cases absoluteMiddle : isAbsolute middle with
    | true =>
      rw [absoluteMiddle] at started
      rw [join_of_absolute absoluteMiddle, join_of_absolute started]
    | false =>
      rw [absoluteMiddle] at started
      have joined : closed base ++ middle ≠ [] :=
        List.append_ne_nil_of_right_ne_nil _ noMiddle
      rw [join_of_relative noBase absoluteMiddle, join_of_relative joined absolute,
        closed_append _ noMiddle, join_of_relative noBase started,
        join_of_relative noMiddle absolute, List.append_assoc]

theorem foldl_join (base first : Text) (folders : List Text) :
    folders.foldl join (join base first) = join base (folders.foldl join first) := by
  induction folders generalizing first with
  | nil => rfl
  | cons folder rest ih => rw [List.foldl_cons, List.foldl_cons, join_join, ih]

/-- Folders that a path is joined to one by one come to one offset. -/
theorem join_foldl (base : Text) (folders : List Text) (path : Text) :
    join (folders.foldl join base) path = join (join base (folders.foldl join [])) path := by
  cases folders with
  | nil => rw [List.foldl_nil, List.foldl_nil, join_join, join_nil]
  | cons folder rest => rw [List.foldl_cons, List.foldl_cons, foldl_join, join_nil]

/-- The steps of a path that does not begin at the root are taken behind those of what it is joined
to. -/
theorem steps_join {path : Text} (relative : isAbsolute path = false) (base : Text) :
    steps (join base path) = steps base ++ steps path := by
  have stepsOf : steps path = innerComponents (names path) := by simp [steps, relative]
  by_cases noBase : base = []
  · rw [noBase, join_nil]
    rfl
  rw [join_of_relative noBase relative, stepsOf]
  by_cases ended : Text.endsWith base ['/'] = true
  · rcases List.isSuffixOf_iff_suffix.1 ended with ⟨front, rfl⟩
    rw [closed, if_pos ended, steps, steps, isAbsolute_append noBase, names_append_slash,
      List.append_assoc, List.singleton_append, names_append_slash]
    simp [innerComponents, names, Text.splitOn, isSilent]
  · rw [closed, if_neg ended, List.append_assoc, List.singleton_append, steps, steps,
      isAbsolute_append noBase, names_append_slash]
    simp

/-! ## Paths that stay inside -/

theorem isInside_of_takeStep {passed : List PathComponent} {step : PathComponent}
    (inside : (takeStep passed step).all isName = true) : passed.all isName = true := by
  cases step with
  | root => simp [takeStep, isName] at inside
  | current => exact inside
  | normal name => simpa [takeStep, isName] using inside
  | parent =>
    cases passed with
    | nil => rfl
    | cons last above => cases last <;> simp_all [takeStep, isName]

theorem isInside_of_foldl {passed : List PathComponent} {steps : List PathComponent}
    (inside : (steps.foldl takeStep passed).all isName = true) : passed.all isName = true := by
  induction steps generalizing passed with
  | nil => exact inside
  | cons step rest ih => exact isInside_of_takeStep (ih inside)

theorem isInside_foldl {passed steps : List PathComponent} (inside : passed.all isName = true)
    (below : steps.all IncludeTarget.staysBelow = true) :
    (steps.foldl takeStep passed).all isName = true := by
  induction steps generalizing passed with
  | nil => exact inside
  | cons step rest ih =>
    rw [List.all_cons, Bool.and_eq_true] at below
    refine ih ?_ below.2
    cases step with
    | current => exact inside
    | normal name => exact inside
    | root | parent => cases below.1

theorem takeStep_append {passed above : List PathComponent} {step : PathComponent}
    (inside : (takeStep passed step).all isName = true) :
    takeStep (passed ++ above) step = takeStep passed step ++ above := by
  cases step with
  | root => simp [takeStep, isName] at inside
  | current => rfl
  | normal name => rfl
  | parent =>
    cases passed with
    | nil => simp [takeStep, isName] at inside
    | cons last others => cases last <;> simp_all [takeStep, isName]

/-- Steps that never leave the place where they begin lead from every place as far as from
nowhere. -/
theorem foldl_append {passed steps : List PathComponent} (above : List PathComponent)
    (inside : (steps.foldl takeStep passed).all isName = true) :
    steps.foldl takeStep (passed ++ above) = steps.foldl takeStep passed ++ above := by
  induction steps generalizing passed with
  | nil => rfl
  | cons step rest ih =>
    rw [List.foldl_cons, takeStep_append (isInside_of_foldl inside), ih inside, List.foldl_cons]

theorem exists_names {passed : List PathComponent} (inside : passed.all isName = true) :
    ∃ names : List Text, passed = names.map .normal := by
  induction passed with
  | nil => exact ⟨[], rfl⟩
  | cons last above ih =>
    rw [List.all_cons, Bool.and_eq_true] at inside
    rcases ih inside.2 with ⟨names, rfl⟩
    cases last with
    | normal name => exact ⟨name :: names, rfl⟩
    | root | current | parent => cases inside.1

theorem isRelative_of_staysInside {path : Text} (inside : staysInside path = true) :
    isAbsolute path = false := by
  by_contra absolute
  rw [staysInside, normalized_eq, List.all_reverse, steps, if_pos (by simpa using absolute),
    List.singleton_append, List.foldl_cons] at inside
  cases isInside_of_foldl inside

/-- A path that stays inside leads below whatever it is joined to. -/
theorem isBelow_join {path : Text} (inside : staysInside path = true) (base : Text) :
    IsBelow base (join base path) := by
  have relative := isRelative_of_staysInside inside
  rw [staysInside, normalized_eq, List.all_reverse] at inside
  rcases exists_names inside with ⟨names, shape⟩
  refine ⟨names.reverse, ?_⟩
  have further := foldl_append ((steps base).foldl takeStep []) inside
  rw [List.nil_append, shape] at further
  rw [normalized_eq, normalized_eq, steps_join relative, List.foldl_append, further]
  simp

theorem isBelow_iff {place path : Text} :
    IsBelow place path ↔ ∃ below, normalized path = normalized place ++ below ∧
      below.all isName = true := by
  constructor
  · rintro ⟨names, shape⟩
    exact ⟨_, shape, by simp [isName]⟩
  · rintro ⟨below, shape, inside⟩
    rcases exists_names inside with ⟨names, rfl⟩
    exact ⟨names, shape⟩

instance (place path : Text) : Decidable (IsBelow place path) :=
  decidable_of_iff
    (normalized path =
        normalized place ++ (normalized path).drop (normalized place).length ∧
      ((normalized path).drop (normalized place).length).all isName = true) <| by
    rw [isBelow_iff]
    constructor
    · rintro ⟨shape, inside⟩
      exact ⟨_, shape, inside⟩
    · rintro ⟨below, shape, inside⟩
      rw [shape, List.drop_left]
      exact ⟨rfl, inside⟩

end Path

namespace IncludeTarget

/-! ## Routes to a name -/

/-- A name that is not rejected leads below the directory in which it is looked up. -/
theorem staysInside_of_accepted {name : Text} (accepted : nameFault? name = none) :
    Path.staysInside name = true := by
  have below : (Path.components name).all staysBelow = true := by
    unfold nameFault? at accepted
    split at accepted
    · cases accepted
    · split at accepted
      · cases accepted
      · split at accepted
        · assumption
        · cases accepted
  rw [Path.staysInside, Path.normalized, List.all_reverse]
  exact Path.isInside_foldl rfl below

theorem mem_of_mem_distinctBy {same : Text → Text → Bool} {candidates : List Text}
    {candidate : Text} (member : candidate ∈ distinctBy same candidates) :
    candidate ∈ candidates := by
  have kept : ∀ held : List Text,
      candidate ∈ candidates.foldl
        (fun kept candidate => if kept.any (same · candidate) then kept else kept ++ [candidate])
        held → candidate ∈ held ++ candidates := by
    clear member
    induction candidates with
    | nil =>
      intro held member
      rwa [List.append_nil]
    | cons next rest ih =>
      intro held member
      have further := ih _ member
      beta_reduce at further
      split at further
      · exact List.mem_append.2 ((List.mem_append.1 further).imp id (List.mem_cons_of_mem next))
      · rwa [List.append_assoc, List.singleton_append] at further
  exact kept [] member

end IncludeTarget

/-- A way to the directory of a look-up: the place where it begins and what leads on from there. -/
structure Route where
  place : Text
  offset : Text
  deriving DecidableEq, Repr

namespace Route

/-- The directory to which a route leads. -/
def directory (route : Route) : Text :=
  Path.join route.place route.offset

/-- The routes of a request whose search path names no place to begin at: along the folders of the
search path, to the includer's directory, to the include root, and to its fallback directory. -/
def localRoutes (settings : IncludeSettings) (request : IncludeRequest) : List Route :=
  let root := settings.includeRoot
  let searched := request.searchPath.toList.map fun search =>
    ⟨root, (Folder.segments search).foldl Path.join []⟩
  let beside :=
    match request.location with
    | some (.filesystem directory) => [⟨directory, []⟩]
    | _ => []
  searched ++ beside ++ [⟨root, []⟩, ⟨root, settings.fallbackDirectory⟩]

/-- The routes of a request in the file system: from the home directory when its search path begins
with `~/`, from the include root when it begins with `./`, and otherwise from the include root and
the includer's directory. -/
def ofRequest (settings : IncludeSettings) (request : IncludeRequest) : List Route :=
  let root := settings.includeRoot
  match request.searchPath.bind (·.afterStart? "~/".toList) with
  | some rest => settings.homeDirectory.toList.map fun home => ⟨home, rest⟩
  | none =>
    match request.searchPath.bind (·.afterStart? "./".toList) with
    | some rest => [⟨root, rest⟩, ⟨root, settings.fallbackDirectory⟩]
    | none => localRoutes settings request

theorem exists_of_localCandidate {settings : IncludeSettings} {request : IncludeRequest}
    {candidate : Text} (member : candidate ∈ IncludeTarget.localCandidates settings request) :
    ∃ route ∈ localRoutes settings request,
      candidate = Path.join route.directory request.target := by
  have tried := IncludeTarget.mem_of_mem_distinctBy member
  rcases List.mem_map.1 tried with ⟨directory, listed, rfl⟩
  rcases List.mem_append.1 listed with given | ofSettings
  · rcases List.mem_append.1 given with searched | beside
    · rcases List.mem_map.1 searched with ⟨search, held, rfl⟩
      refine ⟨⟨settings.includeRoot, (Folder.segments search).foldl Path.join []⟩, ?_,
        Path.join_foldl _ _ _⟩
      exact List.mem_append_left _ (List.mem_append_left _ (List.mem_map.2 ⟨search, held, rfl⟩))
    · refine ⟨⟨directory, []⟩, List.mem_append_left _ (List.mem_append_right _ ?_), ?_⟩
      · cases found : request.location with
        | none => simp [found] at beside
        | some place =>
          cases place with
          | inventory folder => simp [found] at beside
          | filesystem includer => simpa [found] using beside
      · rw [Route.directory, Path.join_join, Path.join_nil]
  · rcases List.mem_pair.1 ofSettings with rfl | rfl
    · refine ⟨⟨settings.includeRoot, []⟩, List.mem_append_right _ List.mem_cons_self, ?_⟩
      rw [Route.directory, Path.join_join, Path.join_nil]
    · exact ⟨⟨settings.includeRoot, settings.fallbackDirectory⟩,
        List.mem_append_right _ (List.mem_cons_of_mem _ List.mem_cons_self), rfl⟩

/-- Every file that is tried for a request is its name behind one of the routes. -/
theorem exists_of_candidate {settings : IncludeSettings} {hasStore : Bool}
    {request : IncludeRequest} {candidates : List Text} {candidate : Text}
    (looked : IncludeTarget.ofRequest settings hasStore request = .filesystem candidates)
    (member : candidate ∈ candidates) :
    IncludeTarget.nameFault? request.target = none ∧
      ∃ route ∈ ofRequest settings request,
        candidate = Path.join route.directory request.target := by
  cases IncludeTarget.looksIn_of_eq looked with
  | @belowHome rest directory accepted home given =>
    have routes : ofRequest settings request = [⟨directory, rest⟩] := by
      rw [ofRequest, ← IncludeTarget.belowHome?, home, given]
      rfl
    exact ⟨accepted, ⟨directory, rest⟩, routes ▸ List.mem_singleton_self _,
      List.mem_singleton.1 member⟩
  | @belowRoot rest accepted notHome root =>
    have routes : ofRequest settings request =
        [⟨settings.includeRoot, rest⟩, ⟨settings.includeRoot, settings.fallbackDirectory⟩] := by
      rw [ofRequest, ← IncludeTarget.belowHome?, notHome, ← IncludeTarget.belowRoot?, root]
    refine ⟨accepted, ?_⟩
    rw [routes]
    rcases List.mem_pair.1 member with rfl | rfl
    · exact ⟨_, List.mem_cons_self, rfl⟩
    · exact ⟨_, List.mem_cons_of_mem _ List.mem_cons_self, rfl⟩
  | inOrder accepted notHome notRoot =>
    have routes : ofRequest settings request = localRoutes settings request := by
      rw [ofRequest, ← IncludeTarget.belowHome?, notHome, ← IncludeTarget.belowRoot?, notRoot]
    exact ⟨accepted, routes ▸ exists_of_localCandidate member⟩

end Route

/-- Every file that is tried for a request whose name is accepted lies below the directory of its
route, and below the place where the route begins when nothing on the way from there to the
directory leads outside. -/
theorem IncludeTarget.isBelow_of_candidate {settings : IncludeSettings} {hasStore : Bool}
    {request : IncludeRequest} {candidates : List Text} {candidate : Text}
    (looked : ofRequest settings hasStore request = .filesystem candidates)
    (member : candidate ∈ candidates) :
    ∃ route ∈ Route.ofRequest settings request,
      candidate = Path.join route.directory request.target ∧
      Path.IsBelow route.directory candidate ∧
      (Path.staysInside route.offset = true → Path.IsBelow route.place candidate) := by
  rcases Route.exists_of_candidate looked member with ⟨accepted, route, listed, rfl⟩
  have below := Path.isBelow_join (staysInside_of_accepted accepted) route.directory
  refine ⟨route, listed, rfl, below, ?_⟩
  intro inside
  exact (Path.isBelow_join inside route.place).trans below

/-- Every file that is tried for a request lies below a place where one of its routes begins. -/
def IncludeTarget.IsAnchored (settings : IncludeSettings) (hasStore : Bool)
    (request : IncludeRequest) : Prop :=
  ∀ candidates, ofRequest settings hasStore request = .filesystem candidates →
    ∀ candidate ∈ candidates, ∃ route ∈ Route.ofRequest settings request,
      Path.IsBelow route.place candidate

/-- The anchor is lost when the rest of a search path begins at the root: behind `~/` it takes the
place of the home directory.  The same comes of a rest that climbs, and of folders that do. -/
theorem IncludeTarget.not_isAnchored_of_offsets :
    nameFault? "passwd".toList = none ∧
    ofRequest { homeDirectory := some "/home/user".toList } true
        ⟨"passwd".toList, some "~//etc".toList, "main".toList, none, 1⟩ =
      .filesystem ["/etc/passwd".toList] ∧
    ¬ IsAnchored { homeDirectory := some "/home/user".toList } true
      ⟨"passwd".toList, some "~//etc".toList, "main".toList, none, 1⟩ ∧
    ¬ IsAnchored {} true ⟨"passwd".toList, some "./../../etc".toList, "main".toList, none, 1⟩ ∧
    ¬ IsAnchored {} false ⟨"passwd".toList, some "..|..|etc".toList, "main".toList, none, 1⟩ := by
  have escapes {settings : IncludeSettings} {hasStore : Bool} {request : IncludeRequest}
      {candidates : List Text} (candidate : Text)
      (looked : ofRequest settings hasStore request = .filesystem candidates)
      (member : candidate ∈ candidates)
      (outside : ∀ route ∈ Route.ofRequest settings request,
        ¬ Path.IsBelow route.place candidate) : ¬ IsAnchored settings hasStore request := by
    intro anchored
    rcases anchored candidates looked candidate member with ⟨route, listed, below⟩
    exact outside route listed below
  refine ⟨by decide, by decide, ?_, ?_, ?_⟩
  · exact escapes "/etc/passwd".toList rfl (by decide) (by decide)
  · exact escapes "./../../etc/passwd".toList rfl (by decide) (by decide)
  · exact escapes "./../../etc/passwd".toList rfl (by decide) (by decide)

/-- The name below a search path that stays inside is tried below the home directory. -/
theorem IncludeTarget.isBelow_home :
    ofRequest { homeDirectory := some "/home/user".toList } true
        ⟨"lib/list".toList, some "~/scripts".toList, "main".toList, none, 1⟩ =
      .filesystem ["/home/user/scripts/lib/list".toList] ∧
    Path.IsBelow "/home/user".toList "/home/user/scripts/lib/list".toList := by
  have looked : ofRequest { homeDirectory := some "/home/user".toList } true
        ⟨"lib/list".toList, some "~/scripts".toList, "main".toList, none, 1⟩ =
      .filesystem ["/home/user/scripts/lib/list".toList] := by decide
  refine ⟨looked, ?_⟩
  rcases isBelow_of_candidate looked List.mem_cons_self with ⟨route, listed, -, -, below⟩
  rw [List.mem_singleton.1 listed] at below
  exact below (by decide)

end ScriptPreprocessor
