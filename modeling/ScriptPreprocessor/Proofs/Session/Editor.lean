import ScriptPreprocessor.Proofs.Session.Lines
import ScriptPreprocessor.Proofs.Session.Schedules

namespace ScriptPreprocessor

/-!
# Sessions that share a store

An editor starts sessions, polls them, waits for them and drops them; all of them look up in the
same store, and now and then an item of the store is given new contents.  The fetches that were
started are carried out at any time, also for sessions that were dropped.

Whatever the editor does, its sources go on looking up in the same library, apart from the new
contents (`IncludeLibrary.Backs`).  Only the cache can fall behind: the outcome of a fetch that
nobody takes stays in it, and when its item is given new contents, the cache still has the old ones
(`IncludeSources.IsStale`).  As long as nothing in the cache is stale, no later session sees
anything of the sessions before it (`Editor.output_of_fresh_cache`).
-/

/-! ## What sources keep -/

namespace IncludeSources

/-- A property of sources that outlasts everything that sessions and fetches do to them. -/
structure IsKept (Holds : IncludeSources → Prop) : Prop where
  invalidate : ∀ {sources : IncludeSources}, Holds sources → ∀ item,
    Holds (sources.invalidate item)
  enqueue : ∀ {sources : IncludeSources}, Holds sources → ∀ item,
    Holds { sources with queue := sources.queue.enqueue item }
  runFetches : ∀ {sources : IncludeSources}, Holds sources → Holds sources.runFetches

variable {Holds : IncludeSources → Prop} {sources after : IncludeSources}

theorem IsKept.resolve (kept : IsKept Holds) (holds : Holds sources) {request : IncludeRequest}
    {resolution : Resolution} (found : sources.resolve request = (resolution, after)) :
    Holds after := by
  cases resolves_of_resolve found with
  | missing | file _ _ | unserved => exact holds
  | cached _ _ _ _ => exact kept.invalidate holds _
  | fetch _ _ _ => exact kept.enqueue holds _

theorem IsKept.settle? (kept : IsKept Holds) (holds : Holds sources) {fetch : Fetch}
    {outcome : IncludeOutcome} (settled : sources.settle? fetch = some (outcome, after)) :
    Holds after := by
  cases settles_of_settle? settled with
  | fetched _ => exact kept.invalidate holds fetch.item
  | failed _ => exact holds
  | stopped _ => exact holds

theorem IsKept.settle (kept : IsKept Holds) (holds : Holds sources) {fetch : Fetch}
    {outcome : IncludeOutcome} (settled : sources.settle fetch = (outcome, after)) :
    Holds after := by
  rcases settle_cases settled with early | late | ⟨_, rfl⟩
  · exact kept.settle? holds early
  · exact kept.settle? (kept.runFetches holds) late
  · exact kept.runFetches holds

theorem IsKept.drive (kept : IsKept Holds) (holds : Holds sources) (patient : Bool)
    (source : SourceUnit) (preprocessor : Preprocessor) :
    Holds (Session.drive patient source sources preprocessor).2 := by
  fun_induction Session.drive patient source sources preprocessor with
  | case1 => exact holds
  | case2 sources preprocessor paused request _ outcome after resolved ih =>
    exact ih (kept.resolve holds resolved)
  | case3 sources preprocessor paused request _ fetch fetching resolved _ outcome after settled
      ih =>
    exact ih (kept.settle (kept.resolve holds resolved) settled)
  | case4 sources preprocessor paused request _ fetch fetching resolved =>
    exact kept.resolve holds resolved

theorem IsKept.poll (kept : IsKept Holds) (holds : Holds sources) (session : Session) :
    Holds (session.poll sources).2 := by
  unfold Session.poll
  split
  · exact holds
  · split
    · exact holds
    · next settled => exact kept.drive (kept.settle? holds settled) _ _ _

theorem IsKept.wait (kept : IsKept Holds) (holds : Holds sources) (session : Session) :
    Holds (session.wait sources).2 := by
  unfold Session.wait
  split
  · exact holds
  · exact kept.drive (kept.settle holds rfl) _ _ _

end IncludeSources

/-! ## Libraries behind sources -/

namespace FetchQueue

theorem map_fst_fetchAll (store : AssetStore) (items : List (Nat × InventoryItem)) :
    (fetchAll store items).2.map Prod.fst = items.map Prod.fst := by
  induction items generalizing store with
  | nil => rfl
  | cons head rest ih => exact congrArg (head.1 :: ·) (ih (store.fetch head.2).2)

theorem catalog_fetchAll (store : AssetStore) (items : List (Nat × InventoryItem)) :
    (fetchAll store items).1.catalog = store.catalog := by
  induction items generalizing store with
  | nil => rfl
  | cons head rest ih => exact ih (store.fetch head.2).2

/-- The tickets of all fetches that have an outcome or wait for one. -/
def tickets (queue : FetchQueue) : List Nat :=
  queue.outcomes.map Prod.fst ++ queue.waiting.map Prod.fst

theorem map_fst_coming (queue : FetchQueue) (catalog : Catalog) :
    (queue.coming catalog).map Prod.fst = queue.tickets := by
  simp [coming, tickets, Function.comp_def]

theorem tickets_run (queue : FetchQueue) (store : AssetStore) :
    (queue.run store).2.tickets = queue.tickets := by
  simp [tickets, run, map_fst_fetchAll]

end FetchQueue

namespace IncludeLibrary

/-- The sources look up in a library and carry out every fetch; nothing is said of the cache. -/
structure Backs (library : IncludeLibrary) (sources : IncludeSources) : Prop where
  settings : sources.settings = library.settings
  files : sources.files = library.files
  store : ∃ store, sources.store = some store ∧ store.catalog = library.catalog
  isRunning : sources.queue.isRunning = true
  tickets : ∀ ticket ∈ sources.queue.tickets, ticket < sources.queue.nextTicket

variable {library : IncludeLibrary} {sources : IncludeSources}

/-- Sources serve a library when they look up in it and cache nothing but what it has. -/
theorem Backs.serves (backs : library.Backs sources) {store : AssetStore}
    (held : sources.store = some store) (mirrors : store.Mirrors library.catalog) :
    library.Serves sources := by
  refine ⟨backs.settings, backs.files, ⟨store, held, mirrors⟩, backs.isRunning, ?_⟩
  intro entry member
  apply backs.tickets
  rw [← FetchQueue.map_fst_coming _ library.catalog]
  exact List.mem_map_of_mem member

theorem isKept_backs : IncludeSources.IsKept library.Backs where
  invalidate backs item := by
    rcases backs.store with ⟨store, held, catalog⟩
    refine ⟨backs.settings, backs.files, ⟨store.invalidate item, ?_, catalog⟩, backs.isRunning,
      backs.tickets⟩
    rw [IncludeSources.invalidate, held, Option.map_some]
  enqueue := by
    intro sources backs item
    refine ⟨backs.settings, backs.files, backs.store, backs.isRunning, ?_⟩
    intro ticket member
    have cases : ticket ∈ sources.queue.tickets ∨ ticket = sources.queue.nextTicket := by
      simpa [FetchQueue.tickets, FetchQueue.enqueue, or_assoc] using member
    rcases cases with earlier | rfl
    · exact Nat.lt_succ_of_lt (backs.tickets ticket earlier)
    · exact Nat.lt_succ_self _
  runFetches := by
    intro sources backs
    rcases backs.store with ⟨store, held, catalog⟩
    have shape : sources.runFetches =
        { sources with
          store := some (sources.queue.run store).1
          queue := (sources.queue.run store).2 } := by
      rw [IncludeSources.runFetches, held]
    rw [shape]
    refine ⟨backs.settings, backs.files, ⟨_, rfl, ?_⟩, backs.isRunning, ?_⟩
    · exact (FetchQueue.catalog_fetchAll store sources.queue.waiting).trans catalog
    · intro ticket member
      rw [FetchQueue.tickets_run] at member
      exact backs.tickets ticket member

/-- Sources that serve a library go on serving it, and what they promised they still promise. -/
theorem isKept_promises (before : IncludeSources) :
    IncludeSources.IsKept fun sources => library.Serves sources ∧
      ∀ fetch, library.Promises before fetch → library.Promises sources fetch where
  invalidate kept item := ⟨kept.1.invalidate item, kept.2⟩
  enqueue := by
    intro sources kept item
    refine ⟨(kept.1.enqueue [] item).1, fun fetch promised => ?_⟩
    have earlier := kept.2 fetch promised
    unfold Promises at earlier ⊢
    rw [FetchQueue.coming_enqueue, List.lookup_append, earlier, Option.some_or]
  runFetches kept :=
    ⟨kept.1.runFetches.1, fun fetch promised => (kept.2 fetch promised).runFetches kept.1⟩

end IncludeLibrary

/-! ## Editors -/

/-- Whether the bytes of an item that are cached are no longer those that it holds. -/
def IncludeSources.IsStale (sources : IncludeSources) (item : InventoryItem) : Prop :=
  ∃ store bytes, sources.store = some store ∧ store.cached? item = some bytes ∧
    store.catalog.retrieve item ≠ .ok bytes

/-- The sessions that were started, each at the place of its number, and the sources that all of
them look up in.  A session that is dropped leaves its place empty. -/
structure Editor where
  sessions : Nat → Option Session := fun _ => none
  /-- The number of sessions that were started. -/
  started : Nat := 0
  sources : IncludeSources

/-- What can happen in an editor. -/
inductive EditorEvent where
  /-- An item is given new contents. -/
  | insert (path : Text) (bytes : Bytes)
  | start (options : RunOptions) (environment : Environment) (main : SourceUnit)
  | poll (place : Nat)
  | wait (place : Nat)
  /-- The fetches that were started are carried out. -/
  | tick
  | drop (place : Nat)

def EditorEvent.isInsert : EditorEvent → Bool
  | .insert _ _ => true
  | _ => false

namespace Editor

/-- An editor in which nothing has happened yet; its store is empty. -/
def opened (settings : IncludeSettings) (files : FileSource) : Editor :=
  { sources := { settings, files, store := some {} } }

/-- The session at a place takes a turn. -/
def turn (editor : Editor) (place : Nat)
    (take : Session → IncludeSources → Session × IncludeSources) : Editor :=
  match editor.sessions place with
  | none => editor
  | some session =>
    { editor with
      sessions := Function.update editor.sessions place (some (take session editor.sources).1)
      sources := (take session editor.sources).2 }

def after (editor : Editor) : EditorEvent → Editor
  | .insert path bytes =>
    { editor with
      sources :=
        { editor.sources with
          store := editor.sources.store.map fun store => store.insert path bytes } }
  | .start options environment main =>
    let started := Session.start editor.sources options environment main
    { sessions := Function.update editor.sessions editor.started (some started.1)
      started := editor.started + 1
      sources := started.2 }
  | .poll place => editor.turn place Session.poll
  | .wait place => editor.turn place Session.wait
  | .tick => { editor with sources := editor.sources.runFetches }
  | .drop place => { editor with sessions := Function.update editor.sessions place none }

/-- The editor when some things have happened. -/
def behind (editor : Editor) (events : List EditorEvent) : Editor :=
  events.foldl after editor

end Editor

/-- The library when an item has been given new contents. -/
def IncludeLibrary.insert (library : IncludeLibrary) (path : Text) (bytes : Bytes) :
    IncludeLibrary :=
  { library with catalog := library.catalog.insert path bytes }

/-- The library when something has happened: only new contents count. -/
def IncludeLibrary.after (library : IncludeLibrary) : EditorEvent → IncludeLibrary
  | .insert path bytes => library.insert path bytes
  | _ => library

def IncludeLibrary.behind (library : IncludeLibrary) (events : List EditorEvent) :
    IncludeLibrary :=
  events.foldl after library

theorem IncludeLibrary.after_of_other (library : IncludeLibrary) {event : EditorEvent}
    (noInsert : event.isInsert = false) : library.after event = library := by
  cases event with
  | insert path bytes => cases noInsert
  | start | poll | wait | tick | drop => rfl

namespace Editor

variable {Holds : IncludeSources → Prop} {library : IncludeLibrary} {editor : Editor}

/-- What sources keep, they keep through everything but new contents. -/
theorem kept_after (kept : IncludeSources.IsKept Holds) (holds : Holds editor.sources)
    {event : EditorEvent} (noInsert : event.isInsert = false) :
    Holds (editor.after event).sources := by
  cases event with
  | insert path bytes => cases noInsert
  | start options environment main => exact kept.drive holds _ _ _
  | poll place =>
    simp only [after, turn]
    split
    · exact holds
    · exact kept.poll holds _
  | wait place =>
    simp only [after, turn]
    split
    · exact holds
    · exact kept.wait holds _
  | tick => exact kept.runFetches holds
  | drop place => exact holds

theorem serves_after (serves : library.Serves editor.sources) {event : EditorEvent}
    (noInsert : event.isInsert = false) : library.Serves (editor.after event).sources :=
  (kept_after (IncludeLibrary.isKept_promises editor.sources)
    ⟨serves, fun _ promised => promised⟩ noInsert).1

theorem backs_insert (backs : library.Backs editor.sources) (path : Text) (bytes : Bytes) :
    (library.insert path bytes).Backs (editor.after (.insert path bytes)).sources := by
  rcases backs.store with ⟨store, held, catalog⟩
  refine ⟨backs.settings, backs.files, ⟨store.insert path bytes, ?_, ?_⟩, backs.isRunning,
    backs.tickets⟩
  · rw [after, held, Option.map_some]
  · rw [AssetStore.insert, catalog]
    rfl

/-- The library that an editor's sources look up in is that of its inserts. -/
theorem backs_behind (backs : library.Backs editor.sources) (events : List EditorEvent) :
    (library.behind events).Backs (editor.behind events).sources := by
  induction events generalizing library editor with
  | nil => exact backs
  | cons event later ih =>
    cases isInsert : event.isInsert with
    | false =>
      apply ih
      rw [IncludeLibrary.after_of_other library isInsert]
      exact kept_after IncludeLibrary.isKept_backs backs isInsert
    | true =>
      cases event with
      | insert path bytes => exact ih (backs_insert backs path bytes)
      | start | poll | wait | tick | drop => cases isInsert

theorem backs_opened (settings : IncludeSettings) (files : FileSource) :
    (⟨settings, files, .table [] []⟩ : IncludeLibrary).Backs (opened settings files).sources := by
  refine ⟨rfl, rfl, ⟨{}, rfl, rfl⟩, rfl, ?_⟩
  intro ticket member
  cases member

/-- Without anything stale in the cache, the sources serve their library. -/
theorem serves_of_fresh (backs : library.Backs editor.sources)
    (fresh : ∀ item, ¬ editor.sources.IsStale item) : library.Serves editor.sources := by
  rcases backs.store with ⟨store, held, catalog⟩
  refine backs.serves held ⟨catalog, ?_⟩
  intro item bytes cached
  by_contra differs
  exact fresh item ⟨store, bytes, held, cached, catalog ▸ differs⟩

/-! ## A session and what happens beside it -/

/-- How far the session at a place has come. -/
def phase? (editor : Editor) (place : Nat) : Option SessionPhase :=
  (editor.sessions place).map Session.phase

/-- Whatever happens, short of new contents: if the session at a place comes to its end, it is with
an output, and it comes to its end when it is waited for and not dropped. -/
def ComesTo (editor : Editor) (place : Nat) (output : RunOutput) : Prop :=
  ∀ events : List EditorEvent, (∀ event ∈ events, event.isInsert = false) →
    (∀ other, (editor.behind events).phase? place = some (.done other) → other = output) ∧
    (.wait place ∈ events → .drop place ∉ events →
      (editor.behind events).phase? place = some (.done output))

/-- The sources serve a library, and the session at a place, if it is still there, is under way. -/
structure IsOnCourse (library : IncludeLibrary) (output : RunOutput) (place : Nat)
    (editor : Editor) : Prop where
  serves : library.Serves editor.sources
  wasStarted : place < editor.started
  underWay : ∀ session, editor.sessions place = some session →
    Session.IsUnderWay library output (session, editor.sources)

variable {output : RunOutput} {place : Nat}

/-- What happens to other sessions does not bring a session off its way. -/
theorem IsOnCourse.beside (onCourse : IsOnCourse library output place editor) {next : Editor}
    (same : next.sessions place = editor.sessions place) (more : editor.started ≤ next.started)
    (kept : library.Serves next.sources ∧ ∀ fetch, library.Promises editor.sources fetch →
      library.Promises next.sources fetch) :
    IsOnCourse library output place next := by
  refine ⟨kept.1, Nat.lt_of_lt_of_le onCourse.wasStarted more, ?_⟩
  intro session found
  rw [same] at found
  cases onCourse.underWay session found with
  | done phase => exact .done phase
  | waiting phase serves promised later =>
    exact .waiting phase kept.1 (kept.2 _ promised) later

theorem turn_of_session {session : Session} (found : editor.sessions place = some session)
    (take : Session → IncludeSources → Session × IncludeSources) :
    editor.turn place take =
      { editor with
        sessions := Function.update editor.sessions place (some (take session editor.sources).1)
        sources := (take session editor.sources).2 } := by
  rw [turn, found]

theorem IsOnCourse.turn (onCourse : IsOnCourse library output place editor) (other : Nat)
    {take : Session → IncludeSources → Session × IncludeSources}
    (kept : library.Serves (editor.turn other take).sources ∧
      ∀ fetch, library.Promises editor.sources fetch →
        library.Promises (editor.turn other take).sources fetch)
    (leads : ∀ state, Session.IsUnderWay library output state →
      Session.IsUnderWay library output (take state.1 state.2)) :
    IsOnCourse library output place (editor.turn other take) := by
  by_cases same : place = other
  · subst other
    cases found : editor.sessions place with
    | none =>
      have still : editor.turn place take = editor := by rw [Editor.turn, found]
      rw [still]
      exact onCourse
    | some session =>
      rw [turn_of_session found] at kept ⊢
      refine ⟨kept.1, onCourse.wasStarted, ?_⟩
      intro after there
      have taken := (Function.update_self place _ editor.sessions).symm.trans there
      cases taken
      exact leads _ (onCourse.underWay session found)
  · refine onCourse.beside ?_ ?_ kept
    · unfold Editor.turn
      split
      · rfl
      · exact Function.update_of_ne same _ _
    · unfold Editor.turn
      split <;> exact Nat.le_refl _

theorem IsOnCourse.after (onCourse : IsOnCourse library output place editor)
    {event : EditorEvent} (noInsert : event.isInsert = false) :
    IsOnCourse library output place (editor.after event) := by
  have kept := kept_after (IncludeLibrary.isKept_promises editor.sources)
    ⟨onCourse.serves, fun _ promised => promised⟩ noInsert
  cases event with
  | insert path bytes => cases noInsert
  | start options environment main =>
    exact onCourse.beside (Function.update_of_ne onCourse.wasStarted.ne _ _) (Nat.le_succ _) kept
  | poll other => exact onCourse.turn other kept fun _ underWay => underWay.afterTurn .poll
  | wait other => exact onCourse.turn other kept fun _ underWay => underWay.afterTurn .wait
  | tick => exact onCourse.beside rfl (Nat.le_refl _) kept
  | drop other =>
    refine ⟨kept.1, onCourse.wasStarted, ?_⟩
    intro session found
    by_cases same : place = other
    · subst other
      simp [Editor.after] at found
    · exact onCourse.underWay session ((Function.update_of_ne same _ _).symm.trans found)

theorem IsOnCourse.behind (onCourse : IsOnCourse library output place editor)
    {events : List EditorEvent} (noInserts : ∀ event ∈ events, event.isInsert = false) :
    IsOnCourse library output place (editor.behind events) := by
  induction events generalizing editor with
  | nil => exact onCourse
  | cons event later ih =>
    rw [List.forall_mem_cons] at noInserts
    exact ih (onCourse.after noInserts.1) noInserts.2

/-! ## The end of a session -/

/-- A turn leaves other sessions as they are. -/
theorem sessions_turn_of_ne {other : Nat} (differs : place ≠ other)
    (take : Session → IncludeSources → Session × IncludeSources) :
    (editor.turn other take).sessions place = editor.sessions place := by
  unfold turn
  split
  · rfl
  · exact Function.update_of_ne differs _ _

/-- A session that stays what it is in a turn is so behind the turn of any session. -/
theorem exists_session_turn {Is : Session → Prop} {session : Session}
    (found : editor.sessions place = some session) (is : Is session)
    (wasStarted : place < editor.started) (other : Nat)
    {take : Session → IncludeSources → Session × IncludeSources}
    (keeps : ∀ session sources, Is session → Is (take session sources).1) :
    place < (editor.turn other take).started ∧
      ∃ later, (editor.turn other take).sessions place = some later ∧ Is later := by
  by_cases same : place = other
  · subst other
    rw [turn_of_session found]
    exact ⟨wasStarted, _, Function.update_self _ _ _, keeps session editor.sources is⟩
  · refine ⟨?_, session, (sessions_turn_of_ne same take).trans found, is⟩
    unfold turn
    split <;> exact wasStarted

/-- A session that stays what it is in its turns is so until it is dropped. -/
theorem exists_session_behind (Is : Session → Prop)
    (poll : ∀ session sources, Is session → Is (session.poll sources).1)
    (wait : ∀ session sources, Is session → Is (session.wait sources).1)
    {session : Session} (found : editor.sessions place = some session) (is : Is session)
    (wasStarted : place < editor.started) {events : List EditorEvent}
    (kept : .drop place ∉ events) :
    place < (editor.behind events).started ∧
      ∃ later, (editor.behind events).sessions place = some later ∧ Is later := by
  induction events generalizing editor session with
  | nil => exact ⟨wasStarted, session, found, is⟩
  | cons event rest ih =>
    rw [List.mem_cons, not_or] at kept
    cases event with
    | insert path bytes => exact ih found is wasStarted kept.2
    | start options environment main =>
      refine ih ?_ is (Nat.lt_succ_of_lt wasStarted) kept.2
      exact (Function.update_of_ne wasStarted.ne _ _).trans found
    | poll other =>
      rcases exists_session_turn found is wasStarted other poll with ⟨still, later, there, isLater⟩
      exact ih there isLater still kept.2
    | wait other =>
      rcases exists_session_turn found is wasStarted other wait with ⟨still, later, there, isLater⟩
      exact ih there isLater still kept.2
    | tick => exact ih found is wasStarted kept.2
    | drop other =>
      have differs : place ≠ other := fun same => kept.1 (congrArg EditorEvent.drop same)
      exact ih ((Function.update_of_ne differs _ _).trans found) is wasStarted kept.2

/-- A session that is waited for is done from then on, until it is dropped. -/
theorem exists_phase_of_wait {session : Session} (found : editor.sessions place = some session)
    (wasStarted : place < editor.started) {events : List EditorEvent}
    (waited : .wait place ∈ events) (kept : .drop place ∉ events) :
    ∃ output, (editor.behind events).phase? place = some (.done output) := by
  rcases List.append_of_mem waited with ⟨earlier, later, rfl⟩
  rw [List.mem_append, not_or, List.mem_cons, not_or] at kept
  rcases exists_session_behind (fun _ => True) (fun _ _ _ => trivial) (fun _ _ _ => trivial)
    found trivial wasStarted kept.1 with ⟨stillStarted, before, there, _⟩
  rcases Session.exists_phase_wait before (editor.behind earlier).sources with ⟨output, ended⟩
  have waiting := turn_of_session there Session.wait
  have thereDone : ((editor.behind earlier).turn place Session.wait).sessions place =
      some (before.wait (editor.behind earlier).sources).1 := by
    rw [waiting]
    exact Function.update_self _ _ _
  have startedThere : place < ((editor.behind earlier).turn place Session.wait).started := by
    rw [waiting]
    exact stillStarted
  rcases exists_session_behind (fun session => session.phase = .done output)
    (fun session sources done => by rw [Session.poll_of_done done]; exact done)
    (fun session sources done => by rw [Session.wait_of_done done]; exact done)
    thereDone ended startedThere kept.2.2 with ⟨_, last, found, done⟩
  refine ⟨output, ?_⟩
  have shape : editor.behind (earlier ++ .wait place :: later) =
      ((editor.behind earlier).turn place Session.wait).behind later := by
    simp [behind, after]
  rw [shape, phase?, found, Option.map_some, done]

theorem IsOnCourse.comesTo (onCourse : IsOnCourse library output place editor) {session : Session}
    (found : editor.sessions place = some session) : editor.ComesTo place output := by
  intro events noInserts
  have only : ∀ other, (editor.behind events).phase? place = some (.done other) →
      other = output := by
    intro other ended
    rcases Option.map_eq_some_iff.1 ended with ⟨last, there, done⟩
    exact ((onCourse.behind noInserts).underWay last there).eq_of_done done
  refine ⟨only, fun waited kept => ?_⟩
  rcases exists_phase_of_wait found onCourse.wasStarted waited kept with ⟨other, ended⟩
  rw [ended, only other ended]

/-- A session that is started where a library is served comes to what its run yields. -/
theorem comesTo_of_serves (serves : library.Serves editor.sources) {options : RunOptions}
    {environment : Environment} {main : SourceUnit}
    (yields : library.Yields (Session.opening options environment main) output) :
    (editor.after (.start options environment main)).ComesTo editor.started output := by
  have found : (editor.after (.start options environment main)).sessions editor.started =
      some (Session.start editor.sources options environment main).1 :=
    Function.update_self _ _ _
  refine IsOnCourse.comesTo ⟨serves_after serves rfl, Nat.lt_succ_self _, ?_⟩ found
  intro session there
  cases found.symm.trans there
  exact Session.isUnderWay_drive yields serves false main

/-! ## Later sessions -/

theorem behind_filter_isInsert (library : IncludeLibrary) (events : List EditorEvent) :
    library.behind (events.filter EditorEvent.isInsert) = library.behind events := by
  induction events generalizing library with
  | nil => rfl
  | cons event later ih =>
    cases event with
    | insert path bytes => exact ih (library.insert path bytes)
    | start | poll | wait | tick | drop => exact ih library

/-- New contents alone bring nothing into a cache. -/
theorem cache_behind_inserts {events : List EditorEvent}
    (inserts : ∀ event ∈ events, event.isInsert = true)
    (empty : ∃ store, editor.sources.store = some store ∧ store.cache = []) :
    ∃ store, (editor.behind events).sources.store = some store ∧ store.cache = [] := by
  induction events generalizing editor with
  | nil => exact empty
  | cons event later ih =>
    rw [List.forall_mem_cons] at inserts
    refine ih inserts.2 ?_
    rcases empty with ⟨store, held, none⟩
    cases event with
    | insert path bytes =>
      refine ⟨store.insert path bytes, ?_, none⟩
      rw [after, held, Option.map_some]
    | start | poll | wait | tick | drop => cases inserts.1

theorem phase?_start (editor : Editor) (options : RunOptions) (environment : Environment)
    (main : SourceUnit) :
    (editor.after (.start options environment main)).phase? editor.started =
      some (Session.start editor.sources options environment main).1.phase := by
  simp [after, phase?]

theorem phase?_turn {session : Session} (found : editor.sessions place = some session)
    (take : Session → IncludeSources → Session × IncludeSources) :
    (editor.turn place take).phase? place = some (take session editor.sources).1.phase := by
  simp [turn_of_session found, phase?]

/-- The text of a run that has copied one line of a unit. -/
theorem expanded_of_single {last : Preprocessor} {origin : Origin} {line : Text}
    (emissions : last.emissions.toList =
      [⟨origin, ((⟨[], Environment.bare.builtins, 32⟩ : MacroTable).expand origin line).segments⟩])
    (absent : ((⟨[], Environment.bare.builtins, 32⟩ : MacroTable).expand origin line).text = line) :
    last.output.expanded = line := by
  rw [last.expanded_output, emissions, List.flatMap_singleton, Emission.text_mk, absent]

/-- As long as nothing in the cache is stale, a session comes to the output that it would come to
in an editor in which the items were given the same contents and nothing else has happened. -/
theorem output_of_fresh_cache (settings : IncludeSettings) (files : FileSource)
    (history : List EditorEvent)
    (fresh : ∀ item, ¬ ((opened settings files).behind history).sources.IsStale item)
    (options : RunOptions) (environment : Environment) (main : SourceUnit) :
    let before := (opened settings files).behind history
    let untouched := (opened settings files).behind (history.filter EditorEvent.isInsert)
    ∃ output,
      (before.after (.start options environment main)).ComesTo before.started output ∧
      (untouched.after (.start options environment main)).ComesTo untouched.started output := by
  intro before untouched
  have backs := backs_behind (backs_opened settings files) history
  have serves := serves_of_fresh backs fresh
  rcases IncludeLibrary.exists_yields serves (Session.opening options environment main) with
    ⟨output, yields⟩
  refine ⟨output, comesTo_of_serves serves yields, ?_⟩
  have alone := backs_behind (backs_opened settings files) (history.filter EditorEvent.isInsert)
  rw [behind_filter_isInsert] at alone
  refine comesTo_of_serves (serves_of_fresh alone ?_) yields
  rintro item ⟨store, bytes, held, cached, _⟩
  have nothing : ∃ store, (opened settings files).sources.store = some store ∧ store.cache = [] :=
    ⟨{}, rfl, rfl⟩
  rcases cache_behind_inserts (fun _ member => (List.mem_filter.1 member).2) nothing with
    ⟨other, same, empty⟩
  cases held.symm.trans same
  rw [AssetStore.cached?, empty] at cached
  cases cached

/-- A session was dropped while it waited, and its item was given new contents before its fetch was
carried out: what is cached then is what the item holds. -/
theorem output_of_fresh_cache_dropped :
    let path : Text := "|Scripts|lib".toList
    let main : SourceUnit := ⟨"main".toList, "#include \"lib\"\n".toList, none⟩
    let history : List EditorEvent :=
      [.insert path [111, 108, 100, 59, 10], .start {} .bare main, .drop 0,
        .insert path [110, 101, 119, 59, 10], .tick]
    let before := (opened {} .empty).behind history
    let untouched := (opened {} .empty).behind (history.filter EditorEvent.isInsert)
    (∃ store, before.sources.store = some store ∧
      store.cache = [(path, [110, 101, 119, 59, 10])]) ∧
    ∃ output,
      (before.after (.start {} .bare main)).ComesTo before.started output ∧
      (untouched.after (.start {} .bare main)).ComesTo untouched.started output := by
  intro path main history before untouched
  have steps : ∃ paused request fetch fetching,
      (Session.opening {} .bare main).step = .pause paused request ∧
      ((opened {} .empty).after (.insert path [111, 108, 100, 59, 10])).sources.resolve request =
        (.started fetch, fetching) ∧
      ({ fetching with
        store := fetching.store.map fun store => store.insert path [110, 101, 119, 59, 10]
        : IncludeSources }).runFetches.store =
          some ⟨.table [(path, [110, 101, 119, 59, 10])] [], [(path, [110, 101, 119, 59, 10])],
            1⟩ :=
    ⟨_, _, _, _, rfl, rfl, rfl⟩
  rcases steps with ⟨paused, request, fetch, fetching, asks, missing, filled⟩
  have dropped := Session.start_of_started (Preprocessor.run_of_pause asks) missing
  have left : before.sources.store =
      some ⟨.table [(path, [110, 101, 119, 59, 10])] [], [(path, [110, 101, 119, 59, 10])], 1⟩ := by
    rw [← filled]
    exact congrArg (fun state : Session × IncludeSources =>
      ({ state.2 with
        store := state.2.store.map fun store => store.insert path [110, 101, 119, 59, 10]
        : IncludeSources }).runFetches.store) dropped
  have fresh : ∀ item, ¬ before.sources.IsStale item := by
    rintro item ⟨store, bytes, held, cached, differs⟩
    cases held.symm.trans left
    exact differs ((AssetStore.mirrors_table (fun _ _ held => held) 1).cached item bytes cached)
  exact ⟨⟨_, left, rfl⟩, output_of_fresh_cache {} .empty history fresh {} .bare main⟩

/-- A session was dropped while it waited, its fetch was carried out, and then its item was given
new contents.  The next session still splices the old ones. -/
theorem output_of_stale_cache_ne :
    let path : Text := "|Scripts|lib".toList
    let main : SourceUnit := ⟨"main".toList, "#include \"lib\"\n".toList, none⟩
    let history : List EditorEvent :=
      [.insert path [111, 108, 100, 59, 10], .start {} .bare main, .drop 0, .tick,
        .insert path [110, 101, 119, 59, 10]]
    let before := (opened {} .empty).behind history
    let untouched := (opened {} .empty).behind (history.filter EditorEvent.isInsert)
    ∃ stale right : RunOutput,
      (before.after (.start {} .bare main)).phase? before.started = some (.done stale) ∧
      ((untouched.after (.start {} .bare main)).behind [.tick, .poll 0]).phase?
        untouched.started = some (.done right) ∧
      stale.expanded = "old;\n".toList ∧ right.expanded = "new;\n".toList := by
  intro path main history before untouched
  have steps : ∃ paused request fetch fetching sources after outcome first second last,
      (Session.opening {} .bare main).step = .pause paused request ∧
      ((opened {} .empty).after (.insert path [111, 108, 100, 59, 10])).sources.resolve request =
        (.started fetch, fetching) ∧
      sources = ({ fetching.runFetches with
        store := fetching.runFetches.store.map
          fun store => store.insert path [110, 101, 119, 59, 10] } : IncludeSources) ∧
      sources.resolve request = (.settled outcome, after) ∧
      (paused.answered request outcome).step = .next first ∧ first.step = .next second ∧
      second.step = .next last ∧ last.step = .finish ∧
      last.emissions.toList =
        [⟨⟨"lib".toList, 1⟩, ((⟨[], Environment.bare.builtins, 32⟩ : MacroTable).expand
          ⟨"lib".toList, 1⟩ "old;\n".toList).segments⟩] :=
    ⟨_, _, _, _, _, _, _, _, _, _, rfl, rfl, rfl, rfl, rfl, rfl, rfl, rfl, rfl⟩
  have alone : ∃ paused request fetch fetching after outcome first second last,
      (Session.opening {} .bare main).step = .pause paused request ∧
      untouched.sources.resolve request = (.started fetch, fetching) ∧
      fetching.runFetches.settle? fetch = some (outcome, after) ∧
      (Session.answerPending paused outcome).step = .next first ∧ first.step = .next second ∧
      second.step = .next last ∧ last.step = .finish ∧
      last.emissions.toList =
        [⟨⟨"lib".toList, 1⟩, ((⟨[], Environment.bare.builtins, 32⟩ : MacroTable).expand
          ⟨"lib".toList, 1⟩ "new;\n".toList).segments⟩] :=
    ⟨_, _, _, _, _, _, _, _, _, rfl, rfl, rfl, rfl, rfl, rfl, rfl, rfl⟩
  rcases steps with ⟨paused, request, fetch, fetching, sources, after, outcome, first, second, last,
    asks, missing, shape, found, toFirst, toSecond, toLast, ends, emissions⟩
  rcases alone with ⟨pausedAlone, requestAlone, fetchAlone, fetchingAlone, afterAlone, outcomeAlone,
    firstAlone, secondAlone, lastAlone, asksAlone, missingAlone, settledAlone, toFirstAlone,
    toSecondAlone, toLastAlone, endsAlone, emissionsAlone⟩
  refine ⟨last.output, lastAlone.output, ?_, ?_,
    expanded_of_single emissions (MacroTable.text_expandActive_of_absent (by decide)),
    expanded_of_single emissionsAlone (MacroTable.text_expandActive_of_absent (by decide))⟩
  · have ran := (Preprocessor.run_of_next toFirst).trans ((Preprocessor.run_of_next toSecond).trans
      ((Preprocessor.run_of_next toLast).trans (Preprocessor.run_of_finish ends)))
    have left : before.sources = sources := by
      have dropped := Session.start_of_started (Preprocessor.run_of_pause asks) missing
      rw [shape]
      exact congrArg (fun state : Session × IncludeSources =>
        ({ state.2.runFetches with
          store := state.2.runFetches.store.map
            fun store => store.insert path [110, 101, 119, 59, 10] } : IncludeSources)) dropped
    rw [phase?_start, left, Session.start_eq,
      Session.drive_of_settled (Preprocessor.run_of_pause asks) found,
      Session.drive_of_finished ran]
  · have ran := (Preprocessor.run_of_next toFirstAlone).trans
      ((Preprocessor.run_of_next toSecondAlone).trans
        ((Preprocessor.run_of_next toLastAlone).trans (Preprocessor.run_of_finish endsAlone)))
    have started := Session.start_of_started (Preprocessor.run_of_pause asksAlone) missingAlone
    have there : ((untouched.after (.start {} .bare main)).after .tick).sessions 0 =
        some (Session.start untouched.sources {} .bare main).1 := rfl
    refine (phase?_turn there Session.poll).trans ?_
    change some ((Session.start untouched.sources {} .bare main).1.poll
      (Session.start untouched.sources {} .bare main).2.runFetches).1.phase = _
    rw [started, Session.poll_of_settled rfl settledAlone, Session.drive_of_finished ran]

end Editor

end ScriptPreprocessor
