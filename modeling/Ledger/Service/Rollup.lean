import Ledger.Postgres.Tables
import Ledger.Shared.Runs

namespace Ledger.Service

open Core Postgres Shared

structure RollupQueueItem where
  id : Nat
  dim : Dimension
  claimedUntil : Int
deriving DecidableEq

def queueItem (token : Int) (row : QueueRow) : RollupQueueItem := ⟨row.id, row.dim, token⟩

/-- `ProcessBatch`, stopped between two of its statements. `sides` are the classification rows it
loaded for the batch. -/
inductive Worker where
  | idle
  | dequeued (items : List RollupQueueItem)
  | releasing (items : List RollupQueueItem)
  | looping (sides : List ClassificationRow) (items : List RollupQueueItem)
  | checkpointRead (sides : List ClassificationRow) (item : RollupQueueItem) (rest : List RollupQueueItem)
      (cp : Option CheckpointRow)
  | entriesSummed (sides : List ClassificationRow) (item : RollupQueueItem) (rest : List RollupQueueItem)
      (cp : Option CheckpointRow) (sums : EntrySums)
  | checkpointWritten (sides : List ClassificationRow) (item : RollupQueueItem) (rest : List RollupQueueItem)
      (maxEntryID : Nat)
  | marked (sides : List ClassificationRow) (item : RollupQueueItem) (rest : List RollupQueueItem) (maxEntryID : Nat)
  | rechecked (sides : List ClassificationRow) (item : RollupQueueItem) (rest : List RollupQueueItem)
  | failed (sides : List ClassificationRow) (item : RollupQueueItem) (rest : List RollupQueueItem)

def normalSideOf (sides : List ClassificationRow) (id : Nat) : NormalSide :=
  match sides.find? (·.id == id) with
  | some row => row.normalSide.normalSide
  | none => .unknown []

def currentBalance (cp : Option CheckpointRow) : Decimal :=
  (cp.map fun row => numericToDecimal row.balance).getD Decimal.zero

def sinceEntryID (cp : Option CheckpointRow) : Nat := (cp.map (·.lastEntryID)).getD 0

def nextCheckpoint (sides : List ClassificationRow) (dim : Dimension) (cp : Option CheckpointRow)
    (sums : EntrySums) : Result CheckpointRow := do
  let debit := (sums.debitByClass dim.classification).getD Decimal.zero
  let credit := (sums.creditByClass dim.classification).getD Decimal.zero
  let d ← delta (normalSideOf sides dim.classification) debit credit
  let balance ← decimalToNumeric ((currentBalance cp).add d)
  return ⟨balance, sums.maxEntryID, sums.maxEntryAt.getD 0⟩

def Worker.advance (db : LedgerTables) (now : Int) : Worker → LedgerTables × Worker
  | .idle => (db, .idle)
  | .dequeued items => (db, .looping db.classifications items)
  | .releasing [] => (db, .idle)
  | .releasing (item :: rest) => (db.releaseRollupClaim item.id item.claimedUntil, .releasing rest)
  | .looping _ [] => (db, .idle)
  | .looping sides (item :: rest) =>
    (db, .checkpointRead sides item rest (db.getBalanceCheckpoint item.dim))
  | .checkpointRead sides item rest cp =>
    (db, .entriesSummed sides item rest cp (sumEntriesSince db item.dim.pair (sinceEntryID cp)))
  | .entriesSummed sides item rest cp sums =>
    if sums.maxEntryID = 0 ∨ sums.maxEntryID ≤ sinceEntryID cp then
      ((db.markRollupProcessed now item.id item.claimedUntil).1, .looping sides rest)
    else
      match nextCheckpoint sides item.dim cp sums with
      | .error _ => (db, .failed sides item rest)
      | .ok row => (db.upsertBalanceCheckpoint item.dim row, .checkpointWritten sides item rest sums.maxEntryID)
  | .checkpointWritten sides item rest maxEntryID =>
    let result := db.markRollupProcessed now item.id item.claimedUntil
    (result.1, if result.2 then .marked sides item rest maxEntryID else .looping sides rest)
  | .marked sides item rest maxEntryID =>
    let fresh := sumEntriesSince db item.dim.pair maxEntryID
    let dirty := (fresh.debitByClass item.dim.classification).isSome ||
      (fresh.creditByClass item.dim.classification).isSome
    (db, if dirty then .rechecked sides item rest else .looping sides rest)
  | .rechecked sides item rest => (db.enqueueRollup now item.dim, .looping sides rest)
  | .failed sides item rest =>
    (db.releaseRollupClaim item.id item.claimedUntil, .looping sides rest)

def Worker.fault : Worker → Worker
  | .idle => .idle
  | .dequeued items => .releasing items
  | .releasing [] => .idle
  | .releasing (_ :: rest) => .releasing rest
  | .looping _ [] => .idle
  | .looping sides (item :: rest) => .failed sides item rest
  | .checkpointRead sides item rest _ => .failed sides item rest
  | .entriesSummed sides item rest _ _ => .failed sides item rest
  | .checkpointWritten sides item rest _ => .failed sides item rest
  -- The re-check is best effort: its errors are logged and swallowed.
  | .marked sides _ rest _ => .looping sides rest
  | .rechecked sides _ rest => .looping sides rest
  | .failed sides _ rest => .looping sides rest

structure EntryDraft where
  dim : Dimension
  entryType : Side
  amount : Int
  effectiveAt : Int
deriving DecidableEq

/-- A transaction that posts journals: for each one it takes the balance locks of all its entries in
the canonical order, then inserts the entries, each drawing its id from the sequence. -/
structure Posting where
  journals : List (Nat × List EntryDraft)
  journal : Nat
  locking : List Pair
  inserting : List EntryDraft
  written : List EntryRow
  startedAt : Int

def commitEntries (db : LedgerTables) (post : Posting) : LedgerTables :=
  (post.written.map (·.dim)).dedup.foldl (fun db dim => db.enqueueRollup post.startedAt dim)
    { db with entries := db.entries ++ post.written }

structure System where
  db : LedgerTables
  now : Int
  nextEntryID : Nat
  locks : Pair → Option Nat
  posts : Nat → Option Posting
  workers : Nat → Worker

namespace System

variable (s : System)

def setPost (t : Nat) (post : Option Posting) : System :=
  { s with posts := Function.update s.posts t post }

def setWorker (w : Nat) (worker : Worker) : System :=
  { s with workers := Function.update s.workers w worker }

def takeLock (t : Nat) (p : Pair) : System := { s with locks := Function.update s.locks p (some t) }

def dropLocks (t : Nat) : System :=
  { s with locks := fun p => if s.locks p = some t then none else s.locks p }

def lockable (t : Nat) (p : Pair) : Prop := s.locks p = none ∨ s.locks p = some t

def entryRow (post : Posting) (draft : EntryDraft) : EntryRow :=
  ⟨s.nextEntryID, post.journal, draft.dim, draft.entryType, draft.amount,
    post.startedAt, draft.effectiveAt⟩

end System

/-- The statement has the classification rows it needs; their `normal_side` never changes. -/
def KeepsSides (db db' : LedgerTables) : Prop :=
  ∀ id row, db.getClassification id = some row →
    ∃ row', db'.getClassification id = some row' ∧ row'.normalSide = row.normalSide

inductive Step : System → System → Prop where
  | tick (s : System) (now : Int) (later : s.now ≤ now) : Step s { s with now := now }
  | configure (s : System) (rows : List ClassificationRow)
      (keeps : KeepsSides s.db { s.db with classifications := rows }) :
      Step s { s with db := { s.db with classifications := rows } }
  | start (s : System) (t : Nat) (journals : List (Nat × List EntryDraft)) (unused : s.posts t = none)
      (unlocked : ∀ p, s.locks p ≠ some t) :
      Step s (s.setPost t (some ⟨journals, 0, [], [], [], s.now⟩))
  | nextJournal (s : System) (t : Nat) (post : Posting) (journal : Nat) (drafts : List EntryDraft)
      (rest : List (Nat × List EntryDraft)) (running : s.posts t = some post)
      (todo : post.journals = (journal, drafts) :: rest)
      (locked : post.locking = []) (inserted : post.inserting = []) :
      Step s (s.setPost t (some { post with
        journals := rest, journal := journal, inserting := drafts,
        locking := sortedUniquePairs (drafts.map (·.dim.pair)) }))
  | lock (s : System) (t : Nat) (post : Posting) (p : Pair) (rest : List Pair)
      (running : s.posts t = some post) (todo : post.locking = p :: rest) (free : s.lockable t p) :
      Step s ((s.takeLock t p).setPost t (some { post with locking := rest }))
  | insert (s : System) (t : Nat) (post : Posting) (draft : EntryDraft) (rest : List EntryDraft)
      (running : s.posts t = some post) (locked : post.locking = [])
      (todo : post.inserting = draft :: rest)
      (positive : 0 < draft.amount) (known : (s.db.getClassification draft.dim.classification).isSome) :
      Step s ({ s with nextEntryID := s.nextEntryID + 1 }.setPost t
        (some { post with inserting := rest, written := post.written ++ [s.entryRow post draft] }))
  | commit (s : System) (t : Nat) (post : Posting) (running : s.posts t = some post)
      (posted : post.journals = []) (locked : post.locking = []) (inserted : post.inserting = []) :
      Step s ((({ s with db := commitEntries s.db post }).dropLocks t).setPost t none)
  | rollback (s : System) (t : Nat) (post : Posting) (running : s.posts t = some post) :
      Step s ((s.dropLocks t).setPost t none)
  -- Other transactions (Reserve, RebuildCheckpoint) take the same locks and insert no entries.
  | lockOther (s : System) (t : Nat) (p : Pair) (other : s.posts t = none) (free : s.lockable t p) :
      Step s (s.takeLock t p)
  | unlockOther (s : System) (t : Nat) (other : s.posts t = none) : Step s (s.dropLocks t)
  | dequeue (s : System) (w : Nat) (limit : Nat) (token : Int) (skipped : List Nat)
      (idle : s.workers w = .idle) :
      Step s ({ s with db := (s.db.dequeueRollupBatch s.now limit token skipped).1 }.setWorker w
        (.dequeued ((s.db.dequeueRollupBatch s.now limit token skipped).2.map (queueItem token))))
  | advance (s : System) (w : Nat) :
      Step s ({ s with db := ((s.workers w).advance s.db s.now).1 }.setWorker w ((s.workers w).advance s.db s.now).2)
  | fault (s : System) (w : Nat) : Step s (s.setWorker w (s.workers w).fault)
  | crash (s : System) (w : Nat) : Step s (s.setWorker w .idle)
  | resetClaim (s : System) (id : Nat) : Step s { s with db := s.db.resetRollupClaim id }

structure Initial (s : System) : Prop where
  entries : s.db.entries = []
  checkpoints : ∀ dim, s.db.checkpoints dim = none
  sequence : 0 < s.nextEntryID
  posts : ∀ t, s.posts t = none
  workers : ∀ w, s.workers w = .idle

def Reachable (s : System) : Prop := ∃ s₀, Initial s₀ ∧ Run Step s₀ s

end Ledger.Service
