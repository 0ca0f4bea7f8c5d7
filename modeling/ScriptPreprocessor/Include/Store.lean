import ScriptPreprocessor.Document.Form
import ScriptPreprocessor.Failure
import ScriptPreprocessor.FileTree
import ScriptPreprocessor.Include.Folder
import ScriptPreprocessor.SourceUnit

namespace ScriptPreprocessor

/-!
# Asset stores

An asset store holds the items of an inventory.  Finding an item is immediate; its bytes are at
hand only when they are cached, and otherwise must be fetched, which may fail.  A successful fetch
fills the cache, and an include takes its item out of the cache again, so that the next run sees
what the item then holds.

The items are either given as a table, or they are the files below a directory: `|Scripts|lib` is
then the file `Scripts/lib`, or `Scripts/lib.lsl`.
-/

/-- An item of an inventory: its path, and the handle under which its bytes are fetched.  The path
tells the folder in which the item's own includes are looked up; only the store knows what a handle
means. -/
structure InventoryItem where
  path : Text
  handle : Text
  deriving DecidableEq, Repr

/-- The items of an inventory.  The two kinds answer the same questions, and the rest of the store
does not know which one it has. -/
inductive Catalog where
  /-- Items given by their paths; fetching some of them fails. -/
  | table (assets : List (Text × Bytes)) (failures : List (Text × Text))
  /-- The files below a directory. -/
  | directory (tree : FileTree) (root : Text)

def setEntry {α : Type} (entries : List (Text × α)) (key : Text) (value : α) :
    List (Text × α) :=
  (key, value) :: entries.filter fun entry => entry.1 != key

def eraseEntry {α : Type} (entries : List (Text × α)) (key : Text) : List (Text × α) :=
  entries.filter fun entry => entry.1 != key

namespace Catalog

/-! ## Items in a directory -/

/-- Whether a display name is the name of one file or directory.  A name with a slash, or one that
climbs, would lead out of the directory that stands for the inventory. -/
def isPlainName (segment : Text) : Bool :=
  match Path.components segment with
  | [.normal _] => true
  | _ => false

/-- A file name with its extension replaced, or added when it has none.  A dot at the beginning
does not begin an extension. -/
def replaceExtension (extension name : Text) : Text :=
  match name.splitLast? '.' with
  | some (stem, _) => if stem.isEmpty then name ++ '.' :: extension else stem ++ '.' :: extension
  | none => name ++ '.' :: extension

/-- A path with the extension of its file name replaced, and nothing behind that name.  What is
before the name stays as it was written, and a path without a file name stays as a whole. -/
def withExtension (extension path : Text) : Text :=
  match Path.fileName? path, Path.dropSilent (Path.names path).reverse with
  | some _, name :: before =>
    Text.join ['/'] (replaceExtension extension name :: before).reverse
  | _, _ => path

/-- The file that an item's path stands for below a directory.  The name as it is written comes
first, so that an item may have any extension or none. -/
def fileFor? (tree : FileTree) (root path : Text) : Option Text :=
  let segments := Folder.segments path
  if segments.all isPlainName then
    let file := segments.foldl Path.join root
    if tree.isFile file then some file
    else
      let extended := withExtension "lsl".toList file
      if tree.isFile extended then some extended else none
  else none

/-! ## Looking up and retrieving -/

def find? (catalog : Catalog) (path : Text) : Option InventoryItem :=
  match catalog with
  | .table assets _ => (assets.lookup path).map fun _ => ⟨path, path⟩
  | .directory tree root => (fileFor? tree root path).map fun file => ⟨path, file⟩

/-- The bytes of an item, or why they cannot be had.  An item that is found may fail to be fetched,
and one may be gone by the time it is. -/
def retrieve (catalog : Catalog) (item : InventoryItem) : Except Failure Bytes :=
  match catalog with
  | .table assets failures =>
    match failures.lookup item.handle with
    | some reason => .error (.includeFetchFailed item.path reason)
    | none =>
      match assets.lookup item.handle with
      | some bytes => .ok bytes
      | none => .error (.includeNotFound item.path)
  | .directory tree _ =>
    match tree.read item.handle with
    | .ok bytes => .ok bytes
    | .error problem => .error (.file item.handle problem.message)

def contents : Catalog → List Bytes
  | .table assets _ => assets.map Prod.snd
  | .directory tree _ => tree.files.map Prod.snd

theorem mem_map_of_lookup_eq_some {entries : List (Text × Bytes)} {key : Text} {bytes : Bytes}
    (found : entries.lookup key = some bytes) : bytes ∈ entries.map Prod.snd := by
  obtain ⟨earlier, later, rfl, _⟩ := List.lookup_eq_some_iff.1 found
  simp

/-- What is retrieved is one of the contents. -/
theorem mem_contents_of_retrieve {catalog : Catalog} {item : InventoryItem} {bytes : Bytes}
    (given : catalog.retrieve item = .ok bytes) : bytes ∈ catalog.contents := by
  unfold retrieve at given
  split at given
  · split at given
    · cases given
    · split at given
      · next found =>
        cases given
        exact mem_map_of_lookup_eq_some found
      · cases given
  · split at given
    · next found =>
      cases given
      exact FileTree.mem_files_of_read found
    · cases given

/-- The catalog with an item added to its table.  A directory has only the items that its files
are. -/
def insert (catalog : Catalog) (path : Text) (bytes : Bytes) : Catalog :=
  match catalog with
  | .table assets failures => .table (setEntry assets path bytes) failures
  | .directory _ _ => catalog

/-- The catalog in which fetching an item fails.  The item is still found, since a failure is told
only by the fetch. -/
def failFetch (catalog : Catalog) (path reason : Text) : Catalog :=
  match catalog with
  | .table assets failures => .table assets (setEntry failures path reason)
  | .directory _ _ => catalog

end Catalog

/-- An asset store: its items, the bytes it holds in its cache, and the number of fetches so
far. -/
structure AssetStore where
  catalog : Catalog := .table [] []
  cache : List (Text × Bytes) := []
  fetches : Nat := 0

namespace AssetStore

def find? (store : AssetStore) (path : Text) : Option InventoryItem :=
  store.catalog.find? path

def cached? (store : AssetStore) (item : InventoryItem) : Option Bytes :=
  store.cache.lookup item.handle

/-- Fetches an item.  Its bytes go into the cache besides being the outcome; a failed fetch leaves
the cache as it was, and counts as a fetch all the same. -/
def fetch (store : AssetStore) (item : InventoryItem) : Except Failure Bytes × AssetStore :=
  let outcome := store.catalog.retrieve item
  (outcome, { store with
    fetches := store.fetches + 1
    cache :=
      match outcome with
      | .ok bytes => setEntry store.cache item.handle bytes
      | .error _ => store.cache })

def invalidate (store : AssetStore) (item : InventoryItem) : AssetStore :=
  { store with cache := eraseEntry store.cache item.handle }

/-- The store with an item that must be fetched.  What the cache holds under its path stays
there. -/
def insert (store : AssetStore) (path : Text) (bytes : Bytes) : AssetStore :=
  { store with catalog := store.catalog.insert path bytes }

/-- The store with an item that is cached, too.  It can be included without being fetched, once. -/
def insertCached (store : AssetStore) (path : Text) (bytes : Bytes) : AssetStore :=
  { store.insert path bytes with cache := setEntry store.cache path bytes }

def failFetch (store : AssetStore) (path reason : Text) : AssetStore :=
  { store with catalog := store.catalog.failFetch path reason }

def contents (store : AssetStore) : List Bytes :=
  store.catalog.contents ++ store.cache.map Prod.snd

/-! ## The contents of a store -/

theorem mem_contents_of_cached {store : AssetStore} {item : InventoryItem} {bytes : Bytes}
    (held : store.cached? item = some bytes) : bytes ∈ store.contents :=
  List.mem_append_right _ (Catalog.mem_map_of_lookup_eq_some held)

theorem mem_contents_of_fetch {store : AssetStore} {item : InventoryItem} {bytes : Bytes}
    (given : (store.fetch item).1 = .ok bytes) : bytes ∈ store.contents :=
  List.mem_append_left _ (Catalog.mem_contents_of_retrieve given)

/-- A fetch adds nothing to what a store can give. -/
theorem contents_fetch (store : AssetStore) (item : InventoryItem) :
    (store.fetch item).2.contents ⊆ store.contents := by
  cases found : store.catalog.retrieve item with
  | error failure =>
    intro other member
    simpa [fetch, contents, found] using member
  | ok bytes =>
    have given := Catalog.mem_contents_of_retrieve found
    intro other member
    simp only [fetch, contents, found, setEntry, List.map_cons, List.mem_append,
      List.mem_cons] at member ⊢
    rcases member with inCatalog | rfl | inCache
    · exact .inl inCatalog
    · exact .inl given
    · obtain ⟨entry, kept, rfl⟩ := List.mem_map.1 inCache
      exact .inr (List.mem_map_of_mem (List.mem_filter.1 kept).1)

/-- Forgetting adds nothing to what a store can give. -/
theorem contents_invalidate (store : AssetStore) (item : InventoryItem) :
    (store.invalidate item).contents ⊆ store.contents := by
  intro other member
  simp only [contents, invalidate, eraseEntry, List.mem_append] at member ⊢
  refine member.imp id fun inCache => ?_
  obtain ⟨entry, kept, rfl⟩ := List.mem_map.1 inCache
  exact List.mem_map_of_mem (List.mem_filter.1 kept).1

end AssetStore

/-- The unit that an item's bytes are spliced as: the source that the stored document holds, found
in the folder of the item.  Its name is the one that was asked for, not its path in the
inventory. -/
def assetUnit (target : Text) (item : InventoryItem) (bytes : Bytes) : SourceUnit :=
  { name := target
    text := Document.includeSource (Utf8.decode bytes)
    location := some (.inventory (Folder.partOf item.path)) }

end ScriptPreprocessor
