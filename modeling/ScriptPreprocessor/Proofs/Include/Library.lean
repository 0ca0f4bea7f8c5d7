import ScriptPreprocessor.Include.Sources
import ScriptPreprocessor.Proofs.Text.Entries

namespace ScriptPreprocessor

/-!
# One outcome for every request

A look-up in the inventory settles at once when its item is cached, and starts a fetch when it is
not.  Both ways change the cache, and so does every fetch.  As long as the cache holds nothing but
what a fetch would bring, none of this shows in an outcome: it is decided by the settings, the files
and the catalog (`IncludeLibrary.outcome`), and sources that serve such a library go on serving it.

A fetch is good for its outcome from the time it is started.  `FetchQueue.coming` lists the outcomes
that a queue has together with those that it will have, and running the queue leaves the list as it
is.
-/

/-! ## Entries -/

theorem lookup_eraseEntry {α : Type} (entries : List (Text × α)) (key other : Text) :
    (eraseEntry entries key).lookup other =
      if other = key then none else entries.lookup other :=
  Entries.lookup_filter_ne entries key other

theorem lookup_setEntry {α : Type} (entries : List (Text × α)) (key other : Text) (value : α) :
    (setEntry entries key value).lookup other =
      if other = key then some value else entries.lookup other := by
  change ((key, value) :: eraseEntry entries key).lookup other = _
  rw [List.lookup_cons, lookup_eraseEntry]
  by_cases same : other = key
  · rw [if_pos same, if_pos same, beq_iff_eq.2 same]
  · rw [if_neg same, if_neg same, beq_eq_false_iff_ne.2 same]

/-! ## Caches that show nothing -/

/-- What can be retrieved under a handle can be retrieved for every item with that handle. -/
theorem Catalog.retrieve_of_handle {catalog : Catalog} {item other : InventoryItem} {bytes : Bytes}
    (given : catalog.retrieve item = .ok bytes) (same : other.handle = item.handle) :
    catalog.retrieve other = .ok bytes := by
  unfold retrieve at given ⊢
  rw [same]
  cases catalog with
  | table assets failures =>
    cases failed : failures.lookup item.handle with
    | some reason => simp [failed] at given
    | none =>
      cases found : assets.lookup item.handle with
      | none => simp [failed, found] at given
      | some held => simpa [failed, found] using given
  | directory tree root =>
    cases found : tree.read item.handle with
    | error problem => simp [found] at given
    | ok held => simpa [found] using given

namespace AssetStore

/-- A store caches nothing but what its catalog has. -/
structure Mirrors (store : AssetStore) (catalog : Catalog) : Prop where
  sameCatalog : store.catalog = catalog
  cached : ∀ item bytes, store.cached? item = some bytes → catalog.retrieve item = .ok bytes

variable {store : AssetStore} {catalog : Catalog}

theorem Mirrors.fetch (mirrors : store.Mirrors catalog) (item : InventoryItem) :
    (store.fetch item).1 = catalog.retrieve item ∧ (store.fetch item).2.Mirrors catalog := by
  have outcome : (store.fetch item).1 = catalog.retrieve item := by
    rw [← mirrors.sameCatalog]
    rfl
  refine ⟨outcome, mirrors.sameCatalog, ?_⟩
  intro other bytes held
  cases retrieved : catalog.retrieve item with
  | error failure =>
    apply mirrors.cached other bytes
    simpa [AssetStore.fetch, cached?, mirrors.sameCatalog, retrieved] using held
  | ok fetched =>
    simp only [AssetStore.fetch, cached?, mirrors.sameCatalog, retrieved, lookup_setEntry] at held
    by_cases same : other.handle = item.handle
    · rw [if_pos same] at held
      cases held
      exact Catalog.retrieve_of_handle retrieved same
    · rw [if_neg same] at held
      exact mirrors.cached other bytes held

theorem Mirrors.invalidate (mirrors : store.Mirrors catalog) (item : InventoryItem) :
    (store.invalidate item).Mirrors catalog := by
  refine ⟨mirrors.sameCatalog, ?_⟩
  intro other bytes held
  simp only [AssetStore.invalidate, cached?, lookup_eraseEntry] at held
  by_cases same : other.handle = item.handle
  · rw [if_pos same] at held
    cases held
  · rw [if_neg same] at held
    exact mirrors.cached other bytes held

/-- A table of items none of which fails is mirrored by every cache with bytes of the table. -/
theorem mirrors_table {assets cache : List (Text × Bytes)}
    (same : ∀ path bytes, cache.lookup path = some bytes → assets.lookup path = some bytes)
    (fetches : Nat) : Mirrors ⟨.table assets [], cache, fetches⟩ (.table assets []) := by
  refine ⟨rfl, ?_⟩
  intro item bytes held
  simp [Catalog.retrieve, same item.handle bytes held]

end AssetStore

/-! ## Outcomes that are coming -/

namespace FetchQueue

variable {store : AssetStore} {catalog : Catalog}

/-- The outcomes that a queue has, and those that it will have. -/
def coming (queue : FetchQueue) (catalog : Catalog) : List (Nat × Except Failure Bytes) :=
  queue.outcomes ++ queue.waiting.map fun entry => (entry.1, catalog.retrieve entry.2)

theorem fetchAll_of_mirrors (mirrors : store.Mirrors catalog)
    (items : List (Nat × InventoryItem)) :
    (fetchAll store items).1.Mirrors catalog ∧
      (fetchAll store items).2 = items.map fun entry => (entry.1, catalog.retrieve entry.2) := by
  induction items generalizing store with
  | nil => exact ⟨mirrors, rfl⟩
  | cons head rest ih =>
    rcases mirrors.fetch head.2 with ⟨outcome, kept⟩
    rcases ih kept with ⟨keptByRest, outcomes⟩
    refine ⟨keptByRest, ?_⟩
    change (head.1, (store.fetch head.2).1) :: (fetchAll (store.fetch head.2).2 rest).2 = _
    rw [outcome, outcomes, List.map_cons]

/-- A queue that is run has everything that was coming. -/
theorem outcomes_run (mirrors : store.Mirrors catalog) (queue : FetchQueue) :
    (queue.run store).2.outcomes = queue.coming catalog := by
  rw [coming, ← (fetchAll_of_mirrors mirrors queue.waiting).2]
  rfl

theorem coming_run (mirrors : store.Mirrors catalog) (queue : FetchQueue) :
    (queue.run store).2.coming catalog = queue.coming catalog := by
  rw [← outcomes_run mirrors queue]
  exact List.append_nil _

theorem coming_enqueue (queue : FetchQueue) (item : InventoryItem) (catalog : Catalog) :
    (queue.enqueue item).coming catalog =
      queue.coming catalog ++ [(queue.nextTicket, catalog.retrieve item)] := by
  simp [coming, enqueue]

end FetchQueue

/-! ## Libraries -/

/-- Where includes are looked up, apart from what is cached and what is being fetched. -/
structure IncludeLibrary where
  settings : IncludeSettings
  files : FileSource
  catalog : Catalog

namespace IncludeLibrary

/-- What an item comes to as the unit of a name. -/
def itemOutcome (library : IncludeLibrary) (target : Text) (item : InventoryItem) :
    IncludeOutcome :=
  match library.catalog.retrieve item with
  | .ok bytes => .ok (assetUnit target item bytes)
  | .error failure => .error (.fetchFailed target failure.message)

/-- What a request comes to in the end. -/
def outcome (library : IncludeLibrary) (request : IncludeRequest) : IncludeOutcome :=
  match IncludeTarget.ofRequest library.settings true request with
  | .invalid _ => .error (.notFound request.target)
  | .filesystem candidates => library.files.firstReadable request.target none candidates
  | .inventory candidates =>
    match candidates.findSome? library.catalog.find? with
    | none => .error (.notFound request.target)
    | some item => library.itemOutcome request.target item

/-- The sources look up in a library, and carry out every fetch. -/
structure Serves (library : IncludeLibrary) (sources : IncludeSources) : Prop where
  settings : sources.settings = library.settings
  files : sources.files = library.files
  store : ∃ store, sources.store = some store ∧ store.Mirrors library.catalog
  isRunning : sources.queue.isRunning = true
  /-- No fetch has the ticket of the next one. -/
  tickets : ∀ entry ∈ sources.queue.coming library.catalog, entry.1 < sources.queue.nextTicket

/-- The outcome of a fetch is there, or it is coming. -/
def Promises (library : IncludeLibrary) (sources : IncludeSources) (fetch : Fetch) : Prop :=
  (sources.queue.coming library.catalog).lookup fetch.ticket =
    some (library.catalog.retrieve fetch.item)

variable {library : IncludeLibrary} {sources after : IncludeSources} {request : IncludeRequest}
  {outcome : IncludeOutcome} {fetch : Fetch}

theorem Serves.invalidate (serves : library.Serves sources) (item : InventoryItem) :
    library.Serves (sources.invalidate item) := by
  rcases serves.store with ⟨store, held, mirrors⟩
  refine ⟨serves.settings, serves.files, ⟨store.invalidate item, ?_, mirrors.invalidate item⟩,
    serves.isRunning, serves.tickets⟩
  rw [IncludeSources.invalidate, held, Option.map_some]

theorem Serves.runFetches (serves : library.Serves sources) :
    library.Serves sources.runFetches ∧
      sources.runFetches.queue.outcomes = sources.queue.coming library.catalog ∧
      sources.runFetches.queue.coming library.catalog = sources.queue.coming library.catalog := by
  rcases serves.store with ⟨store, held, mirrors⟩
  have shape : sources.runFetches =
      { sources with
        store := some (sources.queue.run store).1
        queue := (sources.queue.run store).2 } := by
    rw [IncludeSources.runFetches, held]
  have coming := FetchQueue.coming_run mirrors sources.queue
  rw [shape]
  refine ⟨⟨serves.settings, serves.files,
    ⟨_, rfl, (FetchQueue.fetchAll_of_mirrors mirrors sources.queue.waiting).1⟩,
    serves.isRunning, ?_⟩, FetchQueue.outcomes_run mirrors sources.queue, coming⟩
  intro entry member
  rw [coming] at member
  exact serves.tickets entry member

theorem Promises.runFetches (serves : library.Serves sources)
    (promised : library.Promises sources fetch) : library.Promises sources.runFetches fetch := by
  unfold Promises at promised ⊢
  rwa [serves.runFetches.2.2]

/-! ## Looking up -/

/-- A fetch that is started has its outcome coming. -/
theorem Serves.enqueue (serves : library.Serves sources) (target : Text) (item : InventoryItem) :
    library.Serves { sources with queue := sources.queue.enqueue item } ∧
      library.Promises { sources with queue := sources.queue.enqueue item }
        ⟨target, item, sources.queue.nextTicket⟩ := by
  have coming := sources.queue.coming_enqueue item library.catalog
  have fresh : (sources.queue.coming library.catalog).lookup sources.queue.nextTicket = none := by
    apply List.lookup_eq_none_iff.2
    intro entry member
    have earlier := serves.tickets entry member
    exact bne_iff_ne.2 (Nat.ne_of_gt earlier)
  constructor
  · refine ⟨serves.settings, serves.files, serves.store, serves.isRunning, ?_⟩
    intro entry member
    rw [coming, List.mem_append, List.mem_singleton] at member
    rcases member with earlier | rfl
    · exact Nat.lt_succ_of_lt (serves.tickets entry earlier)
    · exact Nat.lt_succ_self _
  · unfold Promises
    rw [coming, List.lookup_append, fresh]
    simp

/-- An item that is there settles with its outcome when it is cached, and is fetched otherwise. -/
theorem Serves.resolve (serves : library.Serves sources) (request : IncludeRequest) :
    (∃ after, sources.resolve request = (.settled (library.outcome request), after) ∧
      library.Serves after) ∨
    (∃ fetch after, sources.resolve request = (.started fetch, after) ∧ library.Serves after ∧
      library.Promises after fetch ∧
      library.itemOutcome fetch.target fetch.item = library.outcome request) := by
  rcases serves.store with ⟨store, held, mirrors⟩
  have places : sources.target request = .ofRequest library.settings true request := by
    rw [IncludeSources.target, serves.settings, held]
    rfl
  have finds : store.find? = library.catalog.find? := by
    funext path
    rw [AssetStore.find?, mirrors.sameCatalog]
  unfold IncludeSources.resolve IncludeLibrary.outcome
  rw [places, held, serves.files]
  cases IncludeTarget.ofRequest library.settings true request with
  | invalid fault => exact .inl ⟨sources, rfl, serves⟩
  | filesystem candidates => exact .inl ⟨sources, rfl, serves⟩
  | inventory candidates =>
    simp only [IncludeSources.resolveItem, finds]
    cases candidates.findSome? library.catalog.find? with
    | none => exact .inl ⟨sources, rfl, serves⟩
    | some item =>
      -- Nowhere else is the cache looked at, and both ways lead to the outcome of the item.
      cases cached : store.cached? item with
      | some bytes =>
        left
        refine ⟨sources.invalidate item, ?_, serves.invalidate item⟩
        simp only [itemOutcome, mirrors.cached item bytes cached, cached,
          IncludeSources.invalidate, held, Option.map_some]
      | none =>
        right
        rcases serves.enqueue request.target item with ⟨servesNext, promised⟩
        refine ⟨_, _, ?_, servesNext, promised, rfl⟩
        simp only [cached, serves.isRunning, if_true]

/-! ## Fetching -/

/-- A fetch settles with the outcome of its item, once it has come to its end. -/
theorem Serves.settle? (serves : library.Serves sources)
    (promised : library.Promises sources fetch)
    (settled : sources.settle? fetch = some (outcome, after)) :
    outcome = library.itemOutcome fetch.target fetch.item ∧ library.Serves after := by
  unfold IncludeSources.settle? at settled
  cases found : sources.queue.outcome? fetch.ticket with
  | none => simp [found, serves.isRunning] at settled
  | some retrieved =>
    have same : retrieved = library.catalog.retrieve fetch.item := by
      have given : (sources.queue.coming library.catalog).lookup fetch.ticket = some retrieved := by
        rw [FetchQueue.coming, List.lookup_append]
        unfold FetchQueue.outcome? at found
        rw [found, Option.some_or]
      exact Option.some.inj (given.symm.trans promised)
    unfold itemOutcome
    rw [← same]
    cases retrieved with
    | ok bytes =>
      simp only [found] at settled
      cases settled
      exact ⟨rfl, serves.invalidate fetch.item⟩
    | error failure =>
      simp only [found] at settled
      cases settled
      exact ⟨rfl, serves⟩

/-- A fetch that is waited for settles with the outcome of its item. -/
theorem Serves.settle (serves : library.Serves sources)
    (promised : library.Promises sources fetch) :
    (sources.settle fetch).1 = library.itemOutcome fetch.target fetch.item ∧
      library.Serves (sources.settle fetch).2 := by
  unfold IncludeSources.settle
  cases early : sources.settle? fetch with
  | some pair => exact serves.settle? promised early
  | none =>
    rcases serves.runFetches with ⟨servesNext, outcomes, _⟩
    have there : sources.runFetches.queue.outcome? fetch.ticket =
        some (library.catalog.retrieve fetch.item) := by
      rw [FetchQueue.outcome?, outcomes]
      exact promised
    cases late : sources.runFetches.settle? fetch with
    | some pair =>
      simp only [late, Option.getD_some]
      exact servesNext.settle? (promised.runFetches serves) late
    | none =>
      -- The queue has what was coming, so the fetch cannot still be under way.
      unfold IncludeSources.settle? at late
      rw [there] at late
      cases retrieved : library.catalog.retrieve fetch.item <;> simp [retrieved] at late

end IncludeLibrary

end ScriptPreprocessor
