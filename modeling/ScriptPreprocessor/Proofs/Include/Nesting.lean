import ScriptPreprocessor.Proofs.Include.Precedence
import ScriptPreprocessor.Proofs.Session.SplicedUnits

namespace ScriptPreprocessor

/-!
# Includes inside included items

The unit of an item is located in the folder that its path names up to the last bar.  Reading a
folder from a search path, putting a name behind it, and cutting the folder off the path again fit
together: the location of a unit is always a folder as `Folder.ofPath` writes it, the item's path
goes on behind it without a bar, and what the unit itself includes is looked up there first.

Nothing is asked of the folders and names on the way.  They may have bars of their own, lack them at
the ends, or double them.  Only the store has to find an item under the path that it was asked for
(`IsFaithful`).
-/

/-! ## Folders -/

namespace Folder

/-- A text with a bar at its end, which is put there if it lacks one. -/
def ended (path : Text) : Text :=
  if path.endsWith [separator] then path else path ++ [separator]

theorem ofPath_path (path : Text) :
    (ofPath path).path =
      ended (if path.startsWith [separator] then path else separator :: path) :=
  rfl

theorem head?_ended {path : Text} (begins : path.head? = some separator) :
    (ended path).head? = some separator := by
  unfold ended
  split
  · exact begins
  · rw [List.head?_append, begins, Option.some_or]

theorem head?_ofPath (path : Text) : (ofPath path).path.head? = some separator := by
  rw [ofPath_path]
  apply head?_ended
  split
  · next begins => exact Text.startsWith_singleton_iff.1 begins
  · rfl

/-- A path with bars at both ends is the folder that it names. -/
theorem ofPath_of_bars {path : Text} (begins : path.head? = some separator)
    (ends : path.getLast? = some separator) : (ofPath path).path = path := by
  rw [ofPath_path, if_pos (Text.startsWith_singleton_iff.2 begins), ended,
    if_pos (Text.endsWith_singleton_iff.2 ends)]

theorem exists_ofSearch (search : Text) (base : Option Folder) :
    ∃ path, ofSearch search base = ofPath path := by
  unfold ofSearch
  split
  · exact ⟨_, rfl⟩
  · cases base <;> exact ⟨_, rfl⟩

theorem head?_item (path name : Text) : ((ofPath path).item name).head? = some separator := by
  rw [item, List.head?_append, head?_ofPath]
  rfl

/-- The folder that an item's path names up to its last bar. -/
structure IsHomeOf (folder itemPath : Text) : Prop where
  begins : folder.head? = some separator
  ends : folder.getLast? = some separator
  fixed : (ofPath folder).path = folder
  rest : ∃ last, separator ∉ last ∧ itemPath = folder ++ last

theorem isHomeOf_partOf {itemPath : Text} (begins : itemPath.head? = some separator) :
    IsHomeOf (partOf itemPath) itemPath := by
  cases divided : itemPath.splitLast? separator with
  | none =>
    have member : separator ∈ itemPath := List.mem_of_mem_head? begins
    exact absurd member (Text.splitLast?_eq_none_iff.1 divided)
  | some parts =>
    rcases parts with ⟨before, last⟩
    rcases Text.eq_of_splitLast? divided with ⟨rfl, unbarred⟩
    have folder : partOf (before ++ separator :: last) = before ++ [separator] := by
      rw [partOf, divided]
    have front : (before ++ [separator]).head? = some separator := by
      rw [List.head?_append] at begins ⊢
      exact begins
    rw [folder]
    exact ⟨front, List.getLast?_concat, ofPath_of_bars front List.getLast?_concat, last, unbarred,
      by rw [List.append_assoc, List.singleton_append]⟩

end Folder

namespace IncludeTarget

variable {settings : IncludeSettings} {hasStore : Bool} {request : IncludeRequest}

theorem eq_inventoryCandidates {candidates : List Text}
    (looked : ofRequest settings hasStore request = .inventory candidates) :
    candidates = inventoryCandidates settings request := by
  cases looksIn_of_eq looked
  rfl

/-- Every item that is tried has a path that begins with a bar. -/
theorem head?_of_mem_inventoryCandidates {candidate : Text}
    (member : candidate ∈ inventoryCandidates settings request) :
    candidate.head? = some Folder.separator := by
  rcases List.mem_map.1 (mem_of_mem_distinctBy member) with ⟨folder, listed, rfl⟩
  have named : ∃ path, folder = Folder.ofPath path := by
    rcases List.mem_append.1 listed with given | default
    · rcases List.mem_append.1 given with searched | beside
      · rcases List.mem_map.1 searched with ⟨search, -, rfl⟩
        exact Folder.exists_ofSearch search _
      · split at beside
        · exact ⟨_, List.mem_singleton.1 beside⟩
        · cases beside
    · exact ⟨_, List.mem_singleton.1 default⟩
  rcases named with ⟨path, rfl⟩
  exact Folder.head?_item path request.target

/-- Without a search path, a name is looked up beside its includer first. -/
theorem inventoryCandidates_beside {folder : Text}
    (located : request.location = some (.inventory folder)) (noSearch : request.searchPath = none) :
    ∃ more, inventoryCandidates settings request =
      (Folder.ofPath folder).item request.target :: more := by
  have beside : includerFolder? request = some (Folder.ofPath folder) := by
    rw [includerFolder?, located]
  rw [inventoryCandidates_eq, itemsInOrder, noSearch, beside]
  exact ⟨_, List.eraseDups_cons⟩

theorem ofRequest_of_noSearch (accepted : nameFault? request.target = none)
    (noSearch : request.searchPath = none) :
    ofRequest settings true request = .inventory (inventoryCandidates settings request) := by
  unfold ofRequest
  simp only [accepted, noSearch, Option.bind_none, if_true]

theorem ofRequest_beside {folder : Text} (fixed : (Folder.ofPath folder).path = folder)
    (located : request.location = some (.inventory folder)) (noSearch : request.searchPath = none)
    (accepted : nameFault? request.target = none) :
    ∃ more, ofRequest settings true request = .inventory ((folder ++ request.target) :: more) := by
  rcases inventoryCandidates_beside located noSearch with ⟨more, candidates⟩
  refine ⟨more, ?_⟩
  rw [ofRequest_of_noSearch accepted noSearch, candidates, Folder.item, fixed]

end IncludeTarget

/-! ## Chains of includes -/

/-- A store finds an item under the path that it was asked for. -/
def IsFaithful (find? : Text → Option InventoryItem) : Prop :=
  ∀ path item, find? path = some item → item.path = path

/-- An include that is looked up in an inventory, with the settings of its time, the item that
decides it, and the bytes that the item has. -/
structure InventoryInclude (find? : Text → Option InventoryItem) where
  settings : IncludeSettings
  request : IncludeRequest
  candidates : List Text
  item : InventoryItem
  bytes : Bytes
  looked : IncludeTarget.ofRequest settings true request = .inventory candidates
  found : candidates.findSome? find? = some item

namespace InventoryInclude

variable {find? : Text → Option InventoryItem}

/-- The unit that an include brings. -/
def unit (link : InventoryInclude find?) : SourceUnit :=
  assetUnit link.request.target link.item link.bytes

theorem isHomeOf (faithful : IsFaithful find?) (link : InventoryInclude find?) :
    Folder.IsHomeOf (Folder.partOf link.item.path) link.item.path := by
  rcases List.exists_of_findSome?_eq_some link.found with ⟨path, member, there⟩
  rw [IncludeTarget.eq_inventoryCandidates link.looked] at member
  apply Folder.isHomeOf_partOf
  rw [faithful path link.item there]
  exact IncludeTarget.head?_of_mem_inventoryCandidates member

/-- Includes one inside the other: each stands in the unit that the one before has brought, the
first in a unit that may be located anywhere.  The chain ends at the location of the last unit. -/
inductive Nested (start : Option Location) :
    List (InventoryInclude find?) → Option Location → Prop
  | start : Nested start [] start
  | inside {links : List (InventoryInclude find?)} {here : Option Location}
      (outer : Nested start links here) (link : InventoryInclude find?)
      (within : link.request.location = here) :
      Nested start (links ++ [link]) link.unit.location

theorem Nested.eq_location {start here : Option Location}
    {links : List (InventoryInclude find?)} (nested : Nested start links here)
    {earlier : List (InventoryInclude find?)} {last : InventoryInclude find?}
    (shape : links = earlier ++ [last]) : here = last.unit.location := by
  cases nested with
  | start => simp at shape
  | inside outer link within =>
    cases (List.append_inj' shape rfl).2
    rfl

/-- How the units of a chain are located. -/
structure KeepFolders (links : List (InventoryInclude find?)) (here : Option Location) :
    Prop where
  /-- Every unit is located in the folder of its item. -/
  located : ∀ link ∈ links, ∃ folder, link.unit.location = some (.inventory folder) ∧
    Folder.IsHomeOf folder link.item.path
  /-- An include without a search path is looked up beside the unit that it stands in, which is the
  last of the chain, under every default folder. -/
  beside : links ≠ [] → ∃ folder, here = some (.inventory folder) ∧
    ∀ (settings : IncludeSettings) (request : IncludeRequest), request.location = here →
      request.searchPath = none → IncludeTarget.nameFault? request.target = none →
        ∃ more, IncludeTarget.ofRequest settings true request =
          .inventory ((folder ++ request.target) :: more)
  /-- So is every include of the chain itself that has no search path. -/
  inner : ∀ earlier outer inner later, links = earlier ++ outer :: inner :: later →
    inner.request.searchPath = none → ∃ folder more,
      outer.unit.location = some (.inventory folder) ∧
        inner.candidates = (folder ++ inner.request.target) :: more

theorem exists_folder (faithful : IsFaithful find?) (link : InventoryInclude find?) :
    ∃ folder, link.unit.location = some (.inventory folder) ∧
      Folder.IsHomeOf folder link.item.path :=
  ⟨_, rfl, link.isHomeOf faithful⟩

theorem KeepFolders.inside (faithful : IsFaithful find?) {start here : Option Location}
    {links : List (InventoryInclude find?)} (outer : Nested start links here)
    (kept : KeepFolders links here) (link : InventoryInclude find?)
    (within : link.request.location = here) :
    KeepFolders (links ++ [link]) link.unit.location where
  located other member := by
    rcases List.mem_append.1 member with before | new
    · exact kept.located other before
    · rw [List.mem_singleton.1 new]
      exact link.exists_folder faithful
  beside _ := by
    rcases link.exists_folder faithful with ⟨folder, located, home⟩
    refine ⟨folder, located, fun settings request place noSearch accepted => ?_⟩
    rw [located] at place
    exact IncludeTarget.ofRequest_beside home.fixed place noSearch accepted
  inner earlier first inner later shape noSearch := by
    -- The two are the last of the chain, or they were in it before.
    rcases List.eq_nil_or_concat later with rfl | ⟨front, last, rfl⟩
    · have pair : links ++ [link] = (earlier ++ [first]) ++ [inner] := by
        rw [shape, List.append_assoc]
        rfl
      rcases List.append_inj' pair rfl with ⟨before, same⟩
      cases same
      rcases kept.located first (by rw [before]; simp) with ⟨folder, located, home⟩
      rw [outer.eq_location before, located] at within
      rcases IncludeTarget.inventoryCandidates_beside within noSearch with ⟨more, candidates⟩
      refine ⟨folder, more, located, ?_⟩
      rw [IncludeTarget.eq_inventoryCandidates link.looked, candidates, Folder.item, home.fixed]
    · have longer : links ++ [link] = (earlier ++ first :: inner :: front) ++ [last] := by
        rw [shape]
        simp
      exact kept.inner earlier first inner front (List.append_inj' longer rfl).1 noSearch

/-- However includes are nested in an inventory, each unit is located in the folder of its item, and
what it includes is looked up there first. -/
theorem Nested.keepFolders (faithful : IsFaithful find?) {start here : Option Location}
    {links : List (InventoryInclude find?)} (nested : Nested start links here) :
    KeepFolders links here := by
  induction nested with
  | start =>
    refine ⟨?_, ?_, ?_⟩
    · intro link impossible
      cases impossible
    · intro filled
      exact absurd rfl filled
    · intro earlier outer inner later impossible
      simp at impossible
  | inside outer link within ih => exact ih.inside faithful outer link within

/-- A store with an item whose name has a bar, in a folder whose name is doubled in between. -/
def barredCatalog : Catalog :=
  .table [("|A||b|x|y".toList, []), ("|A||b|x|z".toList, [])] []

/-- An include along a search path without bars at its ends. -/
def barredOuter : InventoryInclude barredCatalog.find? where
  settings := {}
  request := ⟨"x|y".toList, some "A||b".toList, "main".toList, none, 1⟩
  candidates := ["|A||b|x|y".toList, "|Scripts|x|y".toList]
  item := ⟨"|A||b|x|y".toList, "|A||b|x|y".toList⟩
  bytes := []
  looked := by decide
  found := by decide

/-- An include inside that one, whose search path leads on from there and finds nothing, with
another default folder. -/
def barredInner : InventoryInclude barredCatalog.find? where
  settings := { defaultFolder := "B".toList }
  request := ⟨"z".toList, some "c|".toList, "x|y".toList, some (.inventory "|A||b|x|".toList), 1⟩
  candidates := ["|A||b|x|c|z".toList, "|A||b|x|z".toList, "|B|z".toList]
  item := ⟨"|A||b|x|z".toList, "|A||b|x|z".toList⟩
  bytes := []
  looked := by decide
  found := by decide

end InventoryInclude

theorem Catalog.isFaithful_find? (catalog : Catalog) : IsFaithful catalog.find? := by
  intro path item there
  cases catalog with
  | table | directory =>
    rcases Option.map_eq_some_iff.1 there with ⟨_, -, rfl⟩
    rfl

/-- The units of both includes are located beside each other, below the bar in the name. -/
theorem InventoryInclude.keepFolders_barred :
    IsFaithful barredCatalog.find? ∧
      Nested none [barredOuter, barredInner] (some (.inventory "|A||b|x|".toList)) ∧
      KeepFolders [barredOuter, barredInner] (some (.inventory "|A||b|x|".toList)) := by
  have nested : Nested none [barredOuter, barredInner] (some (.inventory "|A||b|x|".toList)) :=
    (Nested.start.inside barredOuter rfl).inside barredInner rfl
  exact ⟨barredCatalog.isFaithful_find?, nested,
    Nested.keepFolders barredCatalog.isFaithful_find? nested⟩

/-! ## Includes of sessions -/

namespace IncludeSources

/-- What is located in the inventory has been included from there. -/
theorem exists_inventoryInclude {asked settling : IncludeSources} {request : IncludeRequest}
    {unit : SourceUnit} {folder : Text} (found : asked.answerTo settling request = .ok unit)
    (located : unit.location = some (.inventory folder)) :
    ∃ store, asked.store = some store ∧
      ∃ link : InventoryInclude store.find?,
        link.settings = asked.settings ∧ link.request = request ∧ link.unit = unit := by
  have included {candidates : List Text} {store : AssetStore} {item : InventoryItem}
      (places : asked.target request = .inventory candidates) (held : asked.store = some store)
      (there : candidates.findSome? store.find? = some item) (bytes : Bytes) :
      ∃ store, asked.store = some store ∧
        ∃ link : InventoryInclude store.find?, link.settings = asked.settings ∧
          link.request = request ∧ link.unit = assetUnit request.target item bytes := by
    rw [IncludeSources.target, held] at places
    exact ⟨store, held, ⟨asked.settings, request, candidates, item, bytes, places, there⟩,
      rfl, rfl, rfl⟩
  unfold answerTo at found
  cases resolved : asked.resolve request with
  | mk resolution after =>
    rw [resolved] at found
    cases resolves_of_resolve resolved with
    | missing | unserved => cases found
    | file _ read =>
      rcases exists_read_of_firstReadable (read.trans found) with ⟨_, _, _, rfl⟩
      cases located
    | cached places held there _ =>
      cases found
      exact included places held there _
    | @fetch candidates store item places held there =>
      rcases endsWith_settle settling ⟨request.target, item, asked.queue.nextTicket⟩ with
        ⟨bytes, ended⟩ | ⟨reason, ended⟩
      · cases ended.symm.trans found
        exact included places held there bytes
      · cases ended.symm.trans found

end IncludeSources

namespace Session

variable {options : RunOptions} {environment : Environment} {main : SourceUnit}
  {brought : List IncludeSources} {splices : List Splice} {session : Session}

/-- Every unit that has come onto the stack came first as the one that is found for its
directive. -/
theorem Shows.exists_origin
    (shows : Shows options environment main brought splices session) {splice : Splice}
    (member : splice ∈ splices) :
    ∃ origin ∈ splices, origin.target = splice.target ∧ origin.IsOwn ∧
      splice.unit = origin.unit := by
  have named : (splices.find? (·.target == splice.target)).isSome = true :=
    List.find?_isSome.2 ⟨splice, member, beq_self_eq_true _⟩
  rcases Option.isSome_iff_exists.1 named with ⟨origin, first⟩
  rcases List.find?_eq_some_iff_append.1 first with ⟨same, earlier, later, rfl, others⟩
  have fresh : ∀ other ∈ earlier, other.target ≠ splice.target := by simpa using others
  rw [beq_iff_eq] at same
  have own := (shows.right earlier origin later rfl).first (by rwa [same])
  refine ⟨origin, by simp, same, own, ?_⟩
  rcases List.mem_append.1 member with before | behind
  · exact absurd rfl (fresh splice before)
  · rcases List.mem_cons.1 behind with rfl | inLater
    · rfl
    · rcases List.append_of_mem inLater with ⟨front, back, rfl⟩
      have right := shows.right (earlier ++ origin :: front) splice back (by simp)
      exact right.again origin (by simp) same

/-- However a session unfolds, a unit on its stack that is located in the inventory is the one of an
include there, and it is located in the folder of its item. -/
theorem Shows.exists_home (shows : Shows options environment main brought splices session)
    {splice : Splice} (member : splice ∈ splices) {folder : Text}
    (located : splice.unit.location = some (.inventory folder)) :
    ∃ origin ∈ splices, origin.target = splice.target ∧ ∃ store,
      origin.asked.store = some store ∧
        ∃ link : InventoryInclude store.find?,
          link.settings = origin.asked.settings ∧
          link.request = origin.reading.request origin.target ∧
          splice.unit = link.unit.withFinalNewline ∧
          Folder.IsHomeOf folder link.item.path := by
  rcases shows.exists_origin member with ⟨origin, inside, same, ⟨unit, found, shape⟩, equal⟩
  rw [equal, shape] at located
  rcases IncludeSources.exists_inventoryInclude found located with
    ⟨store, held, link, settings, request, rfl⟩
  rcases link.exists_folder store.catalog.isFaithful_find? with ⟨home, here, isHome⟩
  cases here.symm.trans located
  exact ⟨origin, inside, same, store, held, link, settings, request, equal.trans shape, isHome⟩

end Session

end ScriptPreprocessor
