import ScriptPreprocessor.Include.Fetch
import ScriptPreprocessor.Include.FileSource
import ScriptPreprocessor.Include.Target

namespace ScriptPreprocessor

/-!
# Sources of includes

Where the units come from that includes ask for: files, and an inventory when there is one.  Files
and cached items are at hand.  Any other item must be fetched, so a look-up either settles at once
or starts a fetch, which settles later.

`IncludeSources.texts` lists every text that a unit can have; looking up and fetching add nothing
to it.
-/

/-- The places where includes are looked up, and the fetches that are under way.  Without an
inventory every include is a file, and then nothing is ever fetched. -/
structure IncludeSources where
  settings : IncludeSettings := {}
  files : FileSource := .empty
  store : Option AssetStore := none
  queue : FetchQueue := {}

/-- What a look-up leads to.  Either the engine can go on at once, or it has to be paused until the
fetch has ended. -/
inductive Resolution where
  | settled (outcome : IncludeOutcome)
  | started (fetch : Fetch)

/-- The first file that can be read.  When there is none, the last reason why one cannot be read
counts, if there is any. -/
def FileSource.firstReadable (files : FileSource) (target : Text) (denial : Option Text) :
    List Text → IncludeOutcome
  | [] =>
    match denial with
    | some reason => .error (.fetchFailed target reason)
    | none => .error (.notFound target)
  | path :: paths =>
    match files.read path with
    | .contents bytes =>
      .ok { SourceUnit.ofBytes target bytes with
        location := some (.filesystem (Path.directory path)) }
    | .notFound => files.firstReadable target denial paths
    | .denied reason => files.firstReadable target (some reason) paths

namespace IncludeSources

/-! ## Looking up -/

def noService : Text :=
  "no async runtime to fetch the asset".toList

def noOutcome : Text :=
  "fetch ended without a result".toList

/-- Looks a name up in the inventory.  The first candidate that is there decides, also when it
cannot be fetched: a later one of the same name would be another script. -/
def resolveItem (sources : IncludeSources) (store : AssetStore) (target : Text)
    (candidates : List Text) : Resolution × IncludeSources :=
  match candidates.findSome? store.find? with
  | none => (.settled (.error (.notFound target)), sources)
  | some item =>
    match store.cached? item with
    | some bytes =>
      (.settled (.ok (assetUnit target item bytes)),
        { sources with store := some (store.invalidate item) })
    | none =>
      if sources.queue.isRunning then
        (.started ⟨target, item, sources.queue.nextTicket⟩,
          { sources with queue := sources.queue.enqueue item })
      else (.settled (.error (.fetchFailed target noService)), sources)

def target (sources : IncludeSources) (request : IncludeRequest) : IncludeTarget :=
  .ofRequest sources.settings sources.store.isSome request

/-- Looks a request up.  An unfit name is not found, without a look at any place. -/
def resolve (sources : IncludeSources) (request : IncludeRequest) :
    Resolution × IncludeSources :=
  match sources.target request with
  | .invalid _ => (.settled (.error (.notFound request.target)), sources)
  | .filesystem candidates =>
    (.settled (sources.files.firstReadable request.target none candidates), sources)
  | .inventory candidates =>
    match sources.store with
    | some store => sources.resolveItem store request.target candidates
    | none => (.settled (.error (.notFound request.target)), sources)

/-! ## Fetching -/

def runFetches (sources : IncludeSources) : IncludeSources :=
  match sources.store with
  | some store =>
    let (store, queue) := sources.queue.run store
    { sources with store := some store, queue }
  | none => sources

/-- The sources without their fetching service.  Items in the cache can still be included. -/
def stop (sources : IncludeSources) : IncludeSources :=
  { sources with queue := sources.queue.stop }

/-- The sources when an item has been taken out of the cache, so that what is included next time is
fetched anew. -/
def invalidate (sources : IncludeSources) (item : InventoryItem) : IncludeSources :=
  { sources with store := sources.store.map fun store => store.invalidate item }

/-- Settles a fetch, if it has come to its end.  It has come to its end without an outcome when the
service was stopped before. -/
def settle? (sources : IncludeSources) (fetch : Fetch) :
    Option (IncludeOutcome × IncludeSources) :=
  match sources.queue.outcome? fetch.ticket with
  | some (.ok bytes) =>
    some (.ok (assetUnit fetch.target fetch.item bytes), sources.invalidate fetch.item)
  | some (.error failure) => some (.error (.fetchFailed fetch.target failure.message), sources)
  | none =>
    if sources.queue.isRunning then none
    else some (.error (.fetchFailed fetch.target noOutcome), sources)

/-- Settles a fetch, waiting for it when it is still under way.  Waiting lets everything run that is
in the queue, not only this fetch. -/
def settle (sources : IncludeSources) (fetch : Fetch) : IncludeOutcome × IncludeSources :=
  match sources.settle? fetch with
  | some settled => settled
  | none =>
    let sources := sources.runFetches
    (sources.settle? fetch).getD (.error (.fetchFailed fetch.target noOutcome), sources)

/-! ## What becomes of a look-up -/

/-- What a look-up leads to, and the sources behind it. -/
inductive Resolves (sources : IncludeSources) (request : IncludeRequest) :
    Resolution → IncludeSources → Prop
  /-- Nothing is there. -/
  | missing : Resolves sources request (.settled (.error (.notFound request.target))) sources
  /-- The name leads to files. -/
  | file {candidates : List Text} {outcome : IncludeOutcome}
      (places : sources.target request = .filesystem candidates)
      (read : sources.files.firstReadable request.target none candidates = outcome) :
      Resolves sources request (.settled outcome) sources
  /-- The name leads to an item that is in the cache, and the item is taken out of it. -/
  | cached {candidates : List Text} {store : AssetStore} {item : InventoryItem} {bytes : Bytes}
      (places : sources.target request = .inventory candidates)
      (held : sources.store = some store) (there : candidates.findSome? store.find? = some item)
      (known : store.cached? item = some bytes) :
      Resolves sources request (.settled (.ok (assetUnit request.target item bytes)))
        (sources.invalidate item)
  /-- The name leads to an item that is fetched. -/
  | fetch {candidates : List Text} {store : AssetStore} {item : InventoryItem}
      (places : sources.target request = .inventory candidates)
      (held : sources.store = some store) (there : candidates.findSome? store.find? = some item) :
      Resolves sources request (.started ⟨request.target, item, sources.queue.nextTicket⟩)
        { sources with queue := sources.queue.enqueue item }
  /-- The name leads to an item that cannot be fetched. -/
  | unserved : Resolves sources request
      (.settled (.error (.fetchFailed request.target noService))) sources

theorem resolves_of_resolve {sources after : IncludeSources} {request : IncludeRequest}
    {resolution : Resolution} (found : sources.resolve request = (resolution, after)) :
    sources.Resolves request resolution after := by
  unfold resolve at found
  split at found
  · cases found
    exact .missing
  · next candidates places =>
    cases found
    exact .file places rfl
  · next candidates places =>
    split at found
    · next store held =>
      unfold resolveItem at found
      split at found
      · cases found
        exact .missing
      · next item there =>
        split at found
        · next bytes known =>
          cases found
          have cached := Resolves.cached places held there known
          rwa [invalidate, held, Option.map_some] at cached
        · split at found
          · cases found
            exact .fetch places held there
          · cases found
            exact .unserved
    · cases found
      exact .missing

/-- How a fetch comes to its end, and the sources behind it. -/
inductive Settles (sources : IncludeSources) (fetch : Fetch) :
    IncludeOutcome → IncludeSources → Prop
  | fetched {bytes : Bytes} (held : sources.queue.outcome? fetch.ticket = some (.ok bytes)) :
      Settles sources fetch (.ok (assetUnit fetch.target fetch.item bytes))
        (sources.invalidate fetch.item)
  | failed {failure : Failure}
      (held : sources.queue.outcome? fetch.ticket = some (.error failure)) :
      Settles sources fetch (.error (.fetchFailed fetch.target failure.message)) sources
  /-- There is no service any more. -/
  | stopped (off : sources.queue.isRunning = false) :
      Settles sources fetch (.error (.fetchFailed fetch.target noOutcome)) sources

theorem settles_of_settle? {sources after : IncludeSources} {fetch : Fetch}
    {outcome : IncludeOutcome} (settled : sources.settle? fetch = some (outcome, after)) :
    sources.Settles fetch outcome after := by
  unfold settle? at settled
  split at settled
  · next bytes held =>
    cases settled
    exact .fetched held
  · next failure held =>
    cases settled
    exact .failed held
  · split at settled
    · cases settled
    · next off =>
      cases settled
      exact .stopped (Bool.eq_false_iff.2 off)

theorem settle_of_settle? {sources after : IncludeSources} {fetch : Fetch}
    {outcome : IncludeOutcome} (settled : sources.settle? fetch = some (outcome, after)) :
    sources.settle fetch = (outcome, after) := by
  unfold settle
  rw [settled]

/-- A fetch that is waited for has come to its end before, or behind all fetches, or never. -/
theorem settle_cases {sources after : IncludeSources} {fetch : Fetch} {outcome : IncludeOutcome}
    (settled : sources.settle fetch = (outcome, after)) :
    sources.settle? fetch = some (outcome, after) ∨
      sources.runFetches.settle? fetch = some (outcome, after) ∨
      outcome = .error (.fetchFailed fetch.target noOutcome) ∧ after = sources.runFetches := by
  unfold settle at settled
  split at settled
  · next early => exact .inl (settled ▸ early)
  · cases late : sources.runFetches.settle? fetch with
    | none =>
      simp only [late, Option.getD_none, Prod.mk.injEq] at settled
      exact .inr (.inr ⟨settled.1.symm, settled.2.symm⟩)
    | some pair =>
      simp only [late, Option.getD_some] at settled
      exact .inr (.inl (congrArg some settled))

/-! ## The texts of units -/

def assetTexts (assets : List Bytes) : List Text :=
  assets.map fun bytes => Document.includeSource (Utf8.decode bytes)

/-- Every text that a unit can have.  It is a finite list that no look-up and no fetch makes longer,
and this is why a session cannot go on forever. -/
def texts (sources : IncludeSources) : List Text :=
  sources.files.contents.map Utf8.decode ++
    assetTexts (sources.store.toList.flatMap AssetStore.contents ++ sources.queue.contents)

theorem assetTexts_subset {fewer more : List Bytes} (contained : fewer ⊆ more) :
    assetTexts fewer ⊆ assetTexts more :=
  List.map_subset _ contained

/-- A unit that is found among files has the contents of one that can be read. -/
theorem exists_read_of_firstReadable {files : FileSource} {target : Text} {denial : Option Text}
    {paths : List Text} {unit : SourceUnit}
    (found : files.firstReadable target denial paths = .ok unit) :
    ∃ path bytes, files.read path = .contents bytes ∧
      unit = { SourceUnit.ofBytes target bytes with
        location := some (.filesystem (Path.directory path)) } := by
  induction paths generalizing denial with
  | nil =>
    unfold FileSource.firstReadable at found
    split at found <;> cases found
  | cons path paths ih =>
    unfold FileSource.firstReadable at found
    split at found
    · next bytes there =>
      cases found
      exact ⟨path, bytes, there, rfl⟩
    · exact ih found
    · exact ih found

/-- A unit that a look-up finds has one of the texts. -/
theorem text_mem_texts_of_resolve {sources after : IncludeSources} {request : IncludeRequest}
    {unit : SourceUnit} (found : sources.resolve request = (.settled (.ok unit), after)) :
    unit.text ∈ sources.texts := by
  cases resolves_of_resolve found with
  | file _ read =>
    obtain ⟨path, bytes, there, rfl⟩ := exists_read_of_firstReadable read
    exact List.mem_append_left _ (List.mem_map_of_mem (sources.files.mem_contents path bytes there))
  | cached _ held _ known =>
    refine List.mem_append_right _ (List.mem_map_of_mem ?_)
    simp [held, AssetStore.mem_contents_of_cached known]

/-- Taking an item out of the cache adds no text. -/
theorem texts_invalidate (sources : IncludeSources) (item : InventoryItem) :
    (sources.invalidate item).texts ⊆ sources.texts := by
  refine List.append_subset.2 ⟨List.subset_append_left _ _, ?_⟩
  refine fun _ member => List.mem_append_right _ (assetTexts_subset ?_ member)
  intro bytes inAfter
  cases held : sources.store with
  | none => simpa [invalidate, held] using inAfter
  | some store =>
    have fewer := store.contents_invalidate item
    simp only [invalidate, held, Option.map_some, Option.toList_some, List.flatMap_cons,
      List.flatMap_nil, List.append_nil, List.mem_append] at inAfter ⊢
    exact inAfter.imp (fun kept => fewer kept) id

/-- A look-up adds no text. -/
theorem texts_of_resolve {sources after : IncludeSources} {request : IncludeRequest}
    {resolution : Resolution} (found : sources.resolve request = (resolution, after)) :
    after.texts ⊆ sources.texts := by
  have same : sources.texts ⊆ sources.texts := fun _ member => member
  cases resolves_of_resolve found with
  | missing | file _ _ | fetch _ _ _ | unserved => exact same
  | cached _ _ _ _ => exact sources.texts_invalidate _

/-- Fetching adds no text. -/
theorem texts_runFetches (sources : IncludeSources) : sources.runFetches.texts ⊆ sources.texts := by
  unfold runFetches
  split
  · next store held =>
    have fetched := FetchQueue.contents_fetchAll store sources.queue.waiting
    refine List.append_subset.2 ⟨List.subset_append_left _ _, ?_⟩
    refine fun _ member => List.mem_append_right _ (assetTexts_subset ?_ member)
    intro bytes inAfter
    simp only [FetchQueue.run, FetchQueue.contents, Option.toList_some, List.flatMap_cons,
      List.flatMap_nil, List.append_nil, List.mem_append, List.filterMap_append, held]
      at inAfter ⊢
    rcases inAfter with inStore | inOutcomes | inFetched
    · exact .inl (fetched.1 inStore)
    · exact .inr inOutcomes
    · exact .inl (fetched.2 inFetched)
  · exact fun _ member => member

/-- A fetch that settles with a unit gives it one of the texts, and adds no text. -/
theorem texts_of_settle? {sources after : IncludeSources} {fetch : Fetch}
    {outcome : IncludeOutcome} (settled : sources.settle? fetch = some (outcome, after)) :
    after.texts ⊆ sources.texts ∧ ∀ unit, outcome = .ok unit → unit.text ∈ sources.texts := by
  have same : sources.texts ⊆ sources.texts := fun _ member => member
  cases settles_of_settle? settled with
  | fetched held =>
    refine ⟨sources.texts_invalidate fetch.item, fun unit found => ?_⟩
    cases found
    refine List.mem_append_right _ (List.mem_map_of_mem ?_)
    exact List.mem_append_right _ (FetchQueue.mem_contents_of_outcome held)
  | failed _ => exact ⟨same, fun _ found => by cases found⟩
  | stopped _ => exact ⟨same, fun _ found => by cases found⟩

/-- The same holds of a fetch that is waited for. -/
theorem texts_of_settle {sources after : IncludeSources} {fetch : Fetch}
    {outcome : IncludeOutcome} (settled : sources.settle fetch = (outcome, after)) :
    after.texts ⊆ sources.texts ∧ ∀ unit, outcome = .ok unit → unit.text ∈ sources.texts := by
  have fetched := sources.texts_runFetches
  rcases settle_cases settled with early | late | ⟨rfl, rfl⟩
  · exact texts_of_settle? early
  · obtain ⟨fewer, known⟩ := texts_of_settle? late
    exact ⟨fun _ member => fetched (fewer member), fun unit found => fetched (known unit found)⟩
  · exact ⟨fetched, fun _ found => by cases found⟩

end IncludeSources

end ScriptPreprocessor
