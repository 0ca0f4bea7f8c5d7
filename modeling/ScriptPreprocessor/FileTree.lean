import ScriptPreprocessor.Include.Path
import ScriptPreprocessor.Text.Utf8

namespace ScriptPreprocessor

/-!
# File trees

A file tree is a snapshot of a part of a file system: the files with their contents, the
directories, and the directory from which relative paths start.  A place in it is the list of the
names that lead there from the root.

A path is walked name by name.  Every name but the last must lead to a directory, also in front of
`..`, so a path through a missing directory or through a file leads nowhere.
-/

/-- A place in a file tree: the names that lead there from the root.  Unlike a path, two different
places are never the same file. -/
abbrev Place := List Text

/-- Why a file cannot be used. -/
inductive FileProblem where
  | notFound
  | notDirectory
  | isDirectory
  deriving DecidableEq, Repr

/-- The wording of a file problem.  It is that of the operating system, with the number that the
system gives to it. -/
def FileProblem.message : FileProblem → Text
  | .notFound => "No such file or directory (os error 2)".toList
  | .notDirectory => "Not a directory (os error 20)".toList
  | .isDirectory => "Is a directory (os error 21)".toList

/-- A snapshot of files and directories.  A directory that holds something need not be listed. -/
structure FileTree where
  files : List (Place × Bytes) := []
  directories : List Place := []
  workingDirectory : Place := []
  deriving DecidableEq, Repr

namespace FileTree

def fileAt? (tree : FileTree) (place : Place) : Option Bytes :=
  tree.files.lookup place

/-- Whether a place holds a directory: the root, a listed directory, or one on the way to a file or
a listed directory.  The last two keep a tree from holding a file without the directories it is
in. -/
def isDirectoryAt (tree : FileTree) (place : Place) : Bool :=
  place.isEmpty || tree.directories.any (fun directory => place.isPrefixOf directory) ||
    tree.files.any fun (file, _) => place.isPrefixOf file && file != place

/-- Whether a directory can be entered at a place.  What is there and is no directory gives another
problem than nothing at all. -/
def enter (tree : FileTree) (place : Place) : Except FileProblem Unit :=
  if (tree.fileAt? place).isSome then .error .notDirectory
  else if tree.isDirectoryAt place then .ok ()
  else .error .notFound

/-- The place that names lead to from a place.  Nothing need be there, since the last name may be
that of a file to be written. -/
def walk (tree : FileTree) (place : Place) : List Text → Except FileProblem Place
  | [] => .ok place
  | name :: names =>
    match tree.enter place with
    | .error problem => .error problem
    | .ok () =>
      if Path.isSilent name then walk tree place names
      else if name == "..".toList then walk tree place.dropLast names
      else walk tree (place ++ [name]) names

/-- The place that a path leads to.  The empty path leads nowhere, unlike `.`, which leads to where
relative paths start. -/
def locate (tree : FileTree) (path : Text) : Except FileProblem Place :=
  if path.isEmpty then .error .notFound
  else tree.walk (if Path.isAbsolute path then [] else tree.workingDirectory) (Path.names path)

/-- The contents of the file at a path.  A directory cannot be read, which is told apart from a path
where nothing is. -/
def read (tree : FileTree) (path : Text) : Except FileProblem Bytes :=
  match tree.locate path with
  | .error problem => .error problem
  | .ok place =>
    match tree.fileAt? place with
    | some bytes => .ok bytes
    | none => .error (if tree.isDirectoryAt place then .isDirectory else .notFound)

/-- The place that a path leads to, when something is there.  This is what a path comes to when all
its `..` and `.` are resolved. -/
def existing (tree : FileTree) (path : Text) : Except FileProblem Place :=
  match tree.locate path with
  | .error problem => .error problem
  | .ok place =>
    if (tree.fileAt? place).isSome || tree.isDirectoryAt place then .ok place
    else .error .notFound

def isFile (tree : FileTree) (path : Text) : Bool :=
  match tree.read path with
  | .ok _ => true
  | .error _ => false

def isDirectory (tree : FileTree) (path : Text) : Bool :=
  match tree.locate path with
  | .ok place => (tree.fileAt? place).isNone && tree.isDirectoryAt place
  | .error _ => false

def pathExists (tree : FileTree) (path : Text) : Bool :=
  match tree.existing path with
  | .ok _ => true
  | .error _ => false

/-- The tree with a file written at a path.  Its directory must be there, and the path must not
lead to a directory; a slash at the end says that it does. -/
def write (tree : FileTree) (path : Text) (bytes : Bytes) : Except FileProblem FileTree :=
  if path.isEmpty then .error .notFound
  else
    let names := (Path.names path).reverse.dropWhile List.isEmpty |>.reverse
    match tree.walk (if Path.isAbsolute path then [] else tree.workingDirectory) names with
    | .error problem => .error problem
    | .ok place =>
      match tree.enter place.dropLast with
      | .error problem => .error problem
      | .ok () =>
        if tree.isDirectoryAt place || path.endsWith ['/'] then .error .isDirectory
        else
          .ok { tree with
            files := (place, bytes) :: tree.files.filter fun file => file.1 != place }

theorem mem_files_of_read {tree : FileTree} {path : Text} {bytes : Bytes}
    (found : tree.read path = .ok bytes) : bytes ∈ tree.files.map Prod.snd := by
  unfold read at found
  split at found
  · cases found
  · next place _ =>
    split at found
    · next contents there =>
      cases found
      obtain ⟨earlier, later, shape, _⟩ := List.lookup_eq_some_iff.1 there
      simp [shape]
    · cases found

end FileTree

end ScriptPreprocessor
