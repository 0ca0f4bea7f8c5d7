import ScriptPreprocessor.Include.Store

namespace ScriptPreprocessor

/-!
# Fetches

An item that is not cached is fetched in the background.  Starting a fetch puts the item into a
queue and gives out a ticket; running the queue fetches what is waiting in it, in order, and keeps
each outcome under its ticket.  A queue that has been stopped fetches nothing any more, and a
fetch that was still waiting then never has an outcome.
-/

/-- A fetch that was started for an include.  The item is kept beside the ticket, because the
fetched bytes alone do not tell which item to take out of the cache. -/
structure Fetch where
  /-- The name that the include asks for. -/
  target : Text
  item : InventoryItem
  ticket : Nat
  deriving DecidableEq, Repr

/-- The items that wait to be fetched, and the outcomes of those that were.  An outcome is kept when
nobody asks for it any more: a fetch cannot know whether its session is still there. -/
structure FetchQueue where
  isRunning : Bool := true
  waiting : List (Nat × InventoryItem) := []
  outcomes : List (Nat × Except Failure Bytes) := []
  /-- The ticket of the next fetch. -/
  nextTicket : Nat := 0

namespace FetchQueue

/-- The queue with one more item waiting; its ticket is `nextTicket`.  The same item may wait twice,
and is then fetched twice. -/
def enqueue (queue : FetchQueue) (item : InventoryItem) : FetchQueue :=
  { queue with
    waiting := queue.waiting ++ [(queue.nextTicket, item)]
    nextTicket := queue.nextTicket + 1 }

def outcome? (queue : FetchQueue) (ticket : Nat) : Option (Except Failure Bytes) :=
  queue.outcomes.lookup ticket

/-- The queue without its service: what waits is dropped, what was fetched stays.  Those who still
hold a ticket for a dropped item learn that there will be no outcome. -/
def stop (queue : FetchQueue) : FetchQueue :=
  { queue with isRunning := false, waiting := [] }

/-- Fetches items in order.  The store is passed on from one to the next, since what one fetch
brings is in the cache when the next one starts. -/
def fetchAll (store : AssetStore) :
    List (Nat × InventoryItem) → AssetStore × List (Nat × Except Failure Bytes)
  | [] => (store, [])
  | (ticket, item) :: rest =>
    let (outcome, store) := store.fetch item
    let (store, outcomes) := fetchAll store rest
    (store, (ticket, outcome) :: outcomes)

def run (queue : FetchQueue) (store : AssetStore) : AssetStore × FetchQueue :=
  let (store, outcomes) := fetchAll store queue.waiting
  (store, { queue with waiting := [], outcomes := queue.outcomes ++ outcomes })

/-! ## What was fetched -/

def bytes? : Nat × Except Failure Bytes → Option Bytes
  | (_, .ok bytes) => some bytes
  | (_, .error _) => none

def contents (queue : FetchQueue) : List Bytes :=
  queue.outcomes.filterMap bytes?

theorem mem_contents_of_outcome {queue : FetchQueue} {ticket : Nat} {bytes : Bytes}
    (found : queue.outcome? ticket = some (.ok bytes)) : bytes ∈ queue.contents := by
  obtain ⟨earlier, later, shape, _⟩ := List.lookup_eq_some_iff.1 found
  simp [contents, shape, bytes?]

/-- Fetching brings nothing but what the store can give, and adds nothing to it. -/
theorem contents_fetchAll (store : AssetStore) (items : List (Nat × InventoryItem)) :
    (fetchAll store items).1.contents ⊆ store.contents ∧
      (fetchAll store items).2.filterMap bytes? ⊆ store.contents := by
  induction items generalizing store with
  | nil => exact ⟨fun _ member => member, by simp [fetchAll]⟩
  | cons head rest ih =>
    obtain ⟨ticket, item⟩ := head
    have kept := store.contents_fetch item
    obtain ⟨storeKept, outcomesKnown⟩ := ih (store.fetch item).2
    refine ⟨fun _ member => kept (storeKept member), fun bytes member => ?_⟩
    simp only [fetchAll, List.filterMap_cons] at member
    cases given : (store.fetch item).1 with
    | ok fetched =>
      simp only [given, bytes?, List.mem_cons] at member
      rcases member with rfl | inRest
      · exact AssetStore.mem_contents_of_fetch given
      · exact kept (outcomesKnown inRest)
    | error failure =>
      simp only [given, bytes?] at member
      exact kept (outcomesKnown member)

end FetchQueue

end ScriptPreprocessor
