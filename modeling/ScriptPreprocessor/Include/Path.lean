import ScriptPreprocessor.Text.Basic

namespace ScriptPreprocessor

/-!
# Paths

A path is a text with slashes between names.  It is kept as it was written: joining only adds a
slash where one is missing, and a path that begins with a slash replaces what it is joined to.
Two paths are the same when their components are; repeated slashes and inner `.` names do not
count as components.
-/

/-- One step of a path.  A path may begin with `root` or `current`; behind the beginning there are
only the other two. -/
inductive PathComponent where
  | root
  | current
  | parent
  | normal (name : Text)
  deriving DecidableEq, Repr

namespace Path

def isAbsolute (path : Text) : Bool :=
  path.startsWith ['/']

/-- The names between the slashes of a path, empty ones included. -/
def names (path : Text) : List Text :=
  path.splitOn (· == '/')

/-- Whether a name adds no component, unless it begins a path. -/
def isSilent (name : Text) : Bool :=
  name.isEmpty || name == ['.']

/-- The component of a name that is not silent.  Only the two dots are special; a name of three is
an ordinary one. -/
def componentOf (name : Text) : PathComponent :=
  if name == "..".toList then .parent else .normal name

def innerComponents (names : List Text) : List PathComponent :=
  (names.filter fun name => !isSilent name).map componentOf

/-- The components of a path.  A dot at the beginning counts, since `./a` and `a` can be told apart
by those who look a program up. -/
def components (path : Text) : List PathComponent :=
  match names path with
  | [] => []
  | first :: rest =>
    if isAbsolute path then .root :: innerComponents rest
    else if first == ['.'] then .current :: innerComponents rest
    else innerComponents (first :: rest)

/-- Whether two paths are the same.  They are compared by components and not as texts, so a slash
too many does not make another place; nothing is resolved, and `a/../b` is not `b`. -/
def isSame (left right : Text) : Bool :=
  components left == components right

/-- A path behind another one.  A path from the root replaces the other one altogether, whatever
that was meant to hold it in. -/
def join (base path : Text) : Text :=
  if isAbsolute path || base.isEmpty then path
  else if base.endsWith ['/'] then base ++ path
  else base ++ '/' :: path

/-- The names of a path from the last to the first, without the silent ones at the end.  The first
name of a path stays, for an empty one there is the root. -/
def dropSilent : List Text → List Text
  | [] => []
  | [first] => [first]
  | name :: next :: more =>
    if isSilent name then dropSilent (next :: more) else name :: next :: more

/-- The path without its last component, as it was written up to there.  The root and the empty
path have no parent. -/
def parent? (path : Text) : Option Text :=
  match dropSilent (names path).reverse with
  | [] => none
  | [first] => if first.isEmpty then none else some []
  | _ :: next :: more =>
    match dropSilent (next :: more) with
    | [[]] => some ['/']
    | rest => some (Text.join ['/'] rest.reverse)

/-- The directory that holds a path; the empty path stands for the current directory. -/
def directory (path : Text) : Text :=
  (parent? path).getD []

/-- The name at the end of a path, unless it ends at the root or in `.` or `..`. -/
def fileName? (path : Text) : Option Text :=
  match (components path).getLast? with
  | some (.normal name) => some name
  | _ => none

end Path

end ScriptPreprocessor
