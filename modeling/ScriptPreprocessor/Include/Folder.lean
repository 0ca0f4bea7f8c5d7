import ScriptPreprocessor.Text.Search

namespace ScriptPreprocessor

/-!
# Inventory folders

Items of an inventory are addressed by display names with bars in between: `|Scripts|lib` is the
item `lib` of the folder `Scripts` at the top.  Display names are free texts; the identity of an
item is never assumed to be stable, so every look-up goes by name.
-/

/-- A folder of the inventory, as a path that begins and ends with a bar. -/
structure Folder where
  path : Text
  deriving DecidableEq, Repr

namespace Folder

def separator : Char := '|'

def top : Folder := ⟨[separator]⟩

/-- The folder of a path, which may lack the bar at either end.  The empty path is the top
folder. -/
def ofPath (path : Text) : Folder :=
  let begun := if path.startsWith [separator] then path else separator :: path
  ⟨if begun.endsWith [separator] then begun else begun ++ [separator]⟩

/-- The folder of a search path: from the top when it begins with a bar, otherwise from a base
folder, when there is one.  Without one it is taken from the top as well. -/
def ofSearch (search : Text) (base : Option Folder) : Folder :=
  if search.startsWith [separator] then ofPath search
  else
    match base with
    | some folder => ofPath (folder.path ++ search)
    | none => ofPath search

def item (folder : Folder) (name : Text) : Text :=
  folder.path ++ name

/-- The folder part of an item's path, up to its last bar; the top folder when there is no bar.
Includes inside the item are looked up there. -/
def partOf (itemPath : Text) : Text :=
  match itemPath.splitLast? separator with
  | some (before, _) => before ++ [separator]
  | none => top.path

/-- The display names in a path.  Empty ones do not count, so bars at the ends and repeated ones
make no difference. -/
def segments (path : Text) : List Text :=
  (path.splitOn (· == separator)).filter fun segment => !segment.isEmpty

end Folder

end ScriptPreprocessor
