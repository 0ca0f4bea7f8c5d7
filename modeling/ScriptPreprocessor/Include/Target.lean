import ScriptPreprocessor.Include.Folder
import ScriptPreprocessor.Include.Path
import ScriptPreprocessor.Include.Request

namespace ScriptPreprocessor

/-!
# Targets of includes

A request is first turned into the places where its name is looked up, in order.  A search path
that begins with `~/` or `./` leads into the file system, below the home directory or the include
root.  Any other request goes to the inventory when there is one, and to the file system
otherwise.  A name must stay below the directory it is looked up in.
-/

/-- Where includes are looked up.  These places do not depend on the unit that includes; where that
unit was found comes with the request. -/
structure IncludeSettings where
  /-- The inventory folder that is tried last. -/
  defaultFolder : Text := "|Scripts|".toList
  /-- The base of search paths that begin with `~/`. -/
  homeDirectory : Option Text := none
  /-- The base of search paths that begin with `./`. -/
  includeRoot : Text := ".".toList
  /-- The directory below the include root that is tried last. -/
  fallbackDirectory : Text := "include".toList
  deriving DecidableEq, Repr

/-- Why a name is not looked up at all.  Each of these is decided before any file or item is
touched. -/
inductive NameFault where
  | empty
  | outerSlash
  | leavesDirectory
  | noHome
  deriving DecidableEq, Repr

def NameFault.message : NameFault → Text
  | .empty => "empty name".toList
  | .outerSlash => "name must not start or end with '/'".toList
  | .leavesDirectory => "name must stay below its search directory".toList
  | .noHome => "no home directory available".toList

/-- The places where a name is looked up.  They are all files or all items: no request is looked up
in both. -/
inductive IncludeTarget where
  | filesystem (candidates : List Text)
  | inventory (candidates : List Text)
  | invalid (fault : NameFault)
  deriving DecidableEq, Repr

namespace IncludeTarget

def staysBelow : PathComponent → Bool
  | .normal _ | .current => true
  | .root | .parent => false

/-- What is wrong with a name, if anything is.  A name that climbs is refused even where it would
come back, as `a/../b` does. -/
def nameFault? (name : Text) : Option NameFault :=
  if name.isEmpty then some .empty
  else if name.startsWith ['/'] || name.endsWith ['/'] then some .outerSlash
  else if (Path.components name).all staysBelow then none
  else some .leavesDirectory

/-- A list without the members that equal an earlier one.  Looking at a place twice would not find
more, only fetch more. -/
def distinctBy (same : Text → Text → Bool) (candidates : List Text) : List Text :=
  candidates.foldl
    (fun kept candidate => if kept.any (same · candidate) then kept else kept ++ [candidate]) []

/-- The items that a name may be in the inventory: along the search path, beside the unit that
includes it, and in the default folder. -/
def inventoryCandidates (settings : IncludeSettings) (request : IncludeRequest) : List Text :=
  let base :=
    match request.location with
    | some (.inventory folder) => some (Folder.ofPath folder)
    | _ => none
  let searched := request.searchPath.toList.map fun search => Folder.ofSearch search base
  let folders := searched ++ base.toList ++ [Folder.ofPath settings.defaultFolder]
  distinctBy (· == ·) (folders.map fun folder => folder.item request.target)

/-- The files that a name may be without an inventory: along the search path below the include
root, beside the unit that includes it, in the include root, and in its fallback directory. -/
def localCandidates (settings : IncludeSettings) (request : IncludeRequest) : List Text :=
  let root := settings.includeRoot
  let searched := request.searchPath.toList.map fun search =>
    (Folder.segments search).foldl Path.join root
  let beside :=
    match request.location with
    | some (.filesystem directory) => [directory]
    | _ => []
  let directories := searched ++ beside ++ [root, Path.join root settings.fallbackDirectory]
  distinctBy Path.isSame (directories.map fun directory => Path.join directory request.target)

/-- The places where a request is looked up.  The name is judged before the search path is, and the
search path before anything else; whether there is an inventory matters only for a path that asks
for neither directory. -/
def ofRequest (settings : IncludeSettings) (hasStore : Bool) (request : IncludeRequest) :
    IncludeTarget :=
  match nameFault? request.target with
  | some fault => .invalid fault
  | none =>
    match request.searchPath.bind (·.afterStart? "~/".toList) with
    | some rest =>
      match settings.homeDirectory with
      | none => .invalid .noHome
      | some home => .filesystem [Path.join (Path.join home rest) request.target]
    | none =>
      match request.searchPath.bind (·.afterStart? "./".toList) with
      | some rest =>
        let root := settings.includeRoot
        .filesystem [Path.join (Path.join root rest) request.target,
          Path.join (Path.join root settings.fallbackDirectory) request.target]
      | none =>
        if hasStore then .inventory (inventoryCandidates settings request)
        else .filesystem (localCandidates settings request)

/-! ## What a request can lead to -/

def belowHome? (request : IncludeRequest) : Option Text :=
  request.searchPath.bind (·.afterStart? "~/".toList)

def belowRoot? (request : IncludeRequest) : Option Text :=
  request.searchPath.bind (·.afterStart? "./".toList)

/-- Where a request is looked up, and when.  One case for every way in which `ofRequest` decides,
with all that it has found out by then. -/
inductive LooksIn (settings : IncludeSettings) (hasStore : Bool) (request : IncludeRequest) :
    IncludeTarget → Prop
  | unfit {fault : NameFault} (faulty : nameFault? request.target = some fault) :
      LooksIn settings hasStore request (.invalid fault)
  | homeless {rest : Text} (accepted : nameFault? request.target = none)
      (home : belowHome? request = some rest) (noHome : settings.homeDirectory = none) :
      LooksIn settings hasStore request (.invalid .noHome)
  | belowHome {rest directory : Text} (accepted : nameFault? request.target = none)
      (home : belowHome? request = some rest) (given : settings.homeDirectory = some directory) :
      LooksIn settings hasStore request
        (.filesystem [Path.join (Path.join directory rest) request.target])
  | belowRoot {rest : Text} (accepted : nameFault? request.target = none)
      (notHome : belowHome? request = none) (root : belowRoot? request = some rest) :
      LooksIn settings hasStore request
        (.filesystem [Path.join (Path.join settings.includeRoot rest) request.target,
          Path.join (Path.join settings.includeRoot settings.fallbackDirectory) request.target])
  | inventory (accepted : nameFault? request.target = none)
      (notHome : belowHome? request = none) (notRoot : belowRoot? request = none)
      (stored : hasStore = true) :
      LooksIn settings hasStore request (.inventory (inventoryCandidates settings request))
  | inOrder (accepted : nameFault? request.target = none)
      (notHome : belowHome? request = none) (notRoot : belowRoot? request = none)
      (noStore : hasStore = false) :
      LooksIn settings hasStore request (.filesystem (localCandidates settings request))

theorem looksIn_ofRequest (settings : IncludeSettings) (hasStore : Bool)
    (request : IncludeRequest) :
    LooksIn settings hasStore request (ofRequest settings hasStore request) := by
  unfold ofRequest
  split
  · next fault faulty => exact .unfit faulty
  · next accepted =>
    split
    · next rest home =>
      split
      · next noHome => exact .homeless accepted home noHome
      · next directory given => exact .belowHome accepted home given
    · next notHome =>
      split
      · next rest root => exact .belowRoot accepted notHome root
      · next notRoot =>
        split
        · next stored => exact .inventory accepted notHome notRoot stored
        · next noStore => exact .inOrder accepted notHome notRoot (Bool.eq_false_iff.2 noStore)

theorem looksIn_of_eq {settings : IncludeSettings} {hasStore : Bool} {request : IncludeRequest}
    {target : IncludeTarget} (looked : ofRequest settings hasStore request = target) :
    LooksIn settings hasStore request target :=
  looked ▸ looksIn_ofRequest settings hasStore request

end IncludeTarget

end ScriptPreprocessor
