import ScriptPreprocessor.FileTree

namespace ScriptPreprocessor

/-!
# File sources

Includes are read from files through a file source: a function from paths to what reading them
gives.  A source holds finitely many contents, and it says so: `contents` lists whatever it can
give.  This is what bounds the work of a session that follows includes from file to file.
-/

/-- What reading a path gives.  A file that is not there sends the search on to the next place in
silence; one that may not be read does too, but is remembered. -/
inductive FileRead where
  | contents (bytes : Bytes)
  | notFound
  | denied (reason : Text)
  deriving DecidableEq, Repr

/-- Something that includes are read from.  It does not change while a session runs, so that two
look-ups of one path agree. -/
structure FileSource where
  read : Text → FileRead
  contents : List Bytes
  mem_contents : ∀ path bytes, read path = .contents bytes → bytes ∈ contents

namespace FileSource

def bytes? : FileRead → Option Bytes
  | .contents bytes => some bytes
  | _ => none

/-- The source that knows some paths exactly as they are written.  Two spellings of one path are two
entries here. -/
def ofEntries (entries : List (Text × FileRead)) : FileSource where
  read path := (entries.lookup path).getD .notFound
  contents := entries.filterMap fun entry => bytes? entry.2
  mem_contents := by
    intro path bytes found
    cases known : entries.lookup path with
    | none => simp [known] at found
    | some entry =>
      obtain ⟨earlier, later, rfl, _⟩ := List.lookup_eq_some_iff.1 known
      simp only [known, Option.getD_some] at found
      subst found
      simp [bytes?]

/-- The source that reads the files of a tree.  A directory in the place of a file counts as
nothing, and the search goes on behind it. -/
def ofTree (tree : FileTree) : FileSource where
  read path :=
    match tree.read path with
    | .ok bytes => .contents bytes
    | .error _ => .notFound
  contents := tree.files.map Prod.snd
  mem_contents := by
    intro path bytes found
    split at found
    · next contents there =>
      cases found
      exact FileTree.mem_files_of_read there
    · cases found

def empty : FileSource :=
  ofEntries []

end FileSource

end ScriptPreprocessor
