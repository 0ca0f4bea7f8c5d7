import ScriptPreprocessor.Toml.Basic

namespace ScriptPreprocessor

/-!
# Trees of TOML tables

A document defines its tables piece by piece: by headers, by headers of tables inside of them, and
by keys with dots.  The tree remembers how each table came to be, because a table may be defined
only once and by one of these means.
-/

/-- How a table came to be.  This decides what may still be added to it, and by which means. -/
inductive TableOrigin where
  /-- On the way to a table with a header. -/
  | implicit
  /-- By its header. -/
  | header
  /-- By keys with dots. -/
  | dotted
  deriving DecidableEq, Repr

/-- A node of a tree of tables. -/
inductive TomlNode where
  | value (value : Toml)
  | table (origin : TableOrigin) (members : List (Text × TomlNode))
  /-- The tables of an array of tables; the last one comes first. -/
  | tables (elements : List TomlNode)

/-- The members of a table that is being defined. -/
abbrev TomlMembers := List (Text × TomlNode)

namespace TomlMembers

def put (members : TomlMembers) (name : Text) (node : TomlNode) : TomlMembers :=
  if members.any fun member => member.1 == name then
    members.map fun member => if member.1 == name then (name, node) else member
  else members ++ [(name, node)]

/-- Defines a table by its header.  A table that is only on the way to another one can still be
defined so, once. -/
def defineTable? : List Text → TomlMembers → Option TomlMembers
  | [], _ => none
  | [name], members =>
    match members.lookup name with
    | none => some (members.put name (.table .header []))
    | some (.table .implicit inner) => some (members.put name (.table .header inner))
    | some _ => none
  | name :: next :: path, members =>
    match members.lookup name with
    | none => do
      let inner ← defineTable? (next :: path) []
      return members.put name (.table .implicit inner)
    | some (.table origin inner) => do
      let inner ← defineTable? (next :: path) inner
      return members.put name (.table origin inner)
    | some (.tables (.table origin inner :: earlier)) => do
      let inner ← defineTable? (next :: path) inner
      return members.put name (.tables (.table origin inner :: earlier))
    | some _ => none

/-- Adds a table to an array of tables.  The array must have come from such headers; one that was
written as a value is closed. -/
def appendTable? : List Text → TomlMembers → Option TomlMembers
  | [], _ => none
  | [name], members =>
    match members.lookup name with
    | none => some (members.put name (.tables [.table .header []]))
    | some (.tables elements) => some (members.put name (.tables (.table .header [] :: elements)))
    | some _ => none
  | name :: next :: path, members =>
    match members.lookup name with
    | none => do
      let inner ← appendTable? (next :: path) []
      return members.put name (.table .implicit inner)
    | some (.table origin inner) => do
      let inner ← appendTable? (next :: path) inner
      return members.put name (.table origin inner)
    | some (.tables (.table origin inner :: earlier)) => do
      let inner ← appendTable? (next :: path) inner
      return members.put name (.tables (.table origin inner :: earlier))
    | some _ => none

/-- Adds a value under a key, which may have dots.  A dotted key may only go on with a table that
dotted keys have made. -/
def insert? (value : Toml) : List Text → TomlMembers → Option TomlMembers
  | [], _ => none
  | [name], members =>
    match members.lookup name with
    | none => some (members.put name (.value value))
    | some _ => none
  | name :: next :: path, members =>
    match members.lookup name with
    | none => do
      let inner ← insert? value (next :: path) []
      return members.put name (.table .dotted inner)
    | some (.table .dotted inner) => do
      let inner ← insert? value (next :: path) inner
      return members.put name (.table .dotted inner)
    | some (.table .implicit inner) =>
      if path.isEmpty then none
      else do
        let inner ← insert? value (next :: path) inner
        return members.put name (.table .implicit inner)
    | some _ => none

/-- Changes the table that a header has opened.  Behind a header of an array of tables that is the
table that was added last. -/
def changeAt? (change : TomlMembers → Option TomlMembers) :
    List Text → TomlMembers → Option TomlMembers
  | [], members => change members
  | name :: path, members =>
    match members.lookup name with
    | some (.table origin inner) => do
      let inner ← changeAt? change path inner
      return members.put name (.table origin inner)
    | some (.tables (.table origin inner :: earlier)) => do
      let inner ← changeAt? change path inner
      return members.put name (.tables (.table origin inner :: earlier))
    | _ => none

end TomlMembers

namespace TomlNode

mutual

def toToml : TomlNode → Toml
  | .value held => held
  | .table _ members => .table (membersToToml members)
  | .tables elements => .array (elementsToToml elements).reverse

def membersToToml : List (Text × TomlNode) → List (Text × Toml)
  | [] => []
  | (name, node) :: members => (name, node.toToml) :: membersToToml members

def elementsToToml : List TomlNode → List Toml
  | [] => []
  | node :: elements => node.toToml :: elementsToToml elements

end

end TomlNode

end ScriptPreprocessor
