import Ledger.Core.Amount
import Ledger.Shared.Uuid

namespace Ledger.Postgres

open Core Shared

structure Pair where
  holder : Int
  currency : Nat
deriving DecidableEq

structure Dimension where
  holder : Int
  currency : Nat
  classification : Nat
deriving DecidableEq

def Dimension.pair (d : Dimension) : Pair := ⟨d.holder, d.currency⟩

structure ClassificationRow where
  id : Nat
  uid : Uuid
  code : GoString
  normalSide : Side
  isSystem : Bool
  isActive : Bool
  balanceRole : BalanceRole
deriving DecidableEq

structure EntryRow where
  id : Nat
  journal : Nat
  dim : Dimension
  entryType : Side
  amount : Int
  createdAt : Int
  effectiveAt : Int
deriving DecidableEq

structure CheckpointRow where
  balance : Int
  lastEntryID : Nat
  lastEntryAt : Int
deriving DecidableEq

structure QueueRow where
  id : Nat
  dim : Dimension
  claimedUntil : Option Int
  processedAt : Option Int
  createdAt : Int
  failedAttempts : Nat
deriving DecidableEq

structure LedgerTables where
  classifications : List ClassificationRow
  entries : List EntryRow
  checkpoints : Dimension → Option CheckpointRow
  queue : List QueueRow
  nextQueueID : Nat

def numericToDecimal (units : Int) : Decimal := ofUnits 18 units

theorem numericToDecimal_units (units : Int) : (numericToDecimal units).val * 10 ^ 18 = units := by
  rw [numericToDecimal, ofUnits_val]
  field_simp

def decimalToNumeric (d : Decimal) : Result Int :=
  if fitsUnits 30 (toUnits 18 d) then .ok (toUnits 18 d)
    else .error ⟨.other, "numeric field overflow"⟩

namespace LedgerTables

def getClassification (db : LedgerTables) (id : Nat) : Option ClassificationRow :=
  db.classifications.find? (·.id == id)

def getBalanceCheckpoint (db : LedgerTables) (dim : Dimension) :
    Option CheckpointRow := db.checkpoints dim

def upsertBalanceCheckpoint (db : LedgerTables) (dim : Dimension) (row : CheckpointRow) :
    LedgerTables :=
  match db.checkpoints dim with
  | some old => if old.lastEntryID < row.lastEntryID then
      { db with checkpoints := Function.update db.checkpoints dim (some row) } else db
  | none => { db with checkpoints := Function.update db.checkpoints dim (some row) }

def dimEntries (db : LedgerTables) (dim : Dimension) : List EntryRow :=
  db.entries.filter (·.dim == dim)

def pairEntriesSince (db : LedgerTables) (pair : Pair) (since : Nat) : List EntryRow :=
  db.entries.filter fun e => e.dim.pair == pair && decide (since < e.id)

def sumSide (entries : List EntryRow) (side : Side) : Option Int :=
  let rows := entries.filter (·.entryType == side)
  if rows.isEmpty then none else some (rows.map (·.amount)).sum

def sumEntriesSinceForClassification (db : LedgerTables) (dim : Dimension) (since : Nat)
    (side : Side) : Option Int :=
  sumSide ((db.dimEntries dim).filter fun e => since < e.id) side

/-- `GetMaxEntryForAccountCurrencySince`: 0 and the epoch when there is no such entry. -/
def getMaxEntryForAccountCurrencySince (db : LedgerTables) (pair : Pair)
    (since : Nat) : Nat × Int :=
  let rows := db.pairEntriesSince pair since
  (rows.foldl (fun m e => max m e.id) 0, (rows.map (·.createdAt)).max?.getD 0)

def enqueueRollup (db : LedgerTables) (now : Int) (dim : Dimension) : LedgerTables :=
  if db.queue.any fun r => r.dim == dim && r.processedAt.isNone then
    { db with queue := db.queue.map fun r =>
        if r.dim = dim ∧ r.processedAt = none then { r with claimedUntil := none } else r }
  else
    { db with
      queue := db.queue ++ [⟨db.nextQueueID, dim, none, none, now, 0⟩]
      nextQueueID := db.nextQueueID + 1 }

def claimable (now : Int) (r : QueueRow) : Bool :=
  r.processedAt.isNone && (match r.claimedUntil with | none => true | some t => t < now) && decide
    (r.failedAttempts < 10)

def dequeueRollupBatch (db : LedgerTables) (now : Int) (limit : Nat) (token : Int)
    (locked : List Nat) : LedgerTables × List QueueRow :=
  let free := db.queue.filter fun r => claimable now r && !locked.contains r.id
  let order := fun a b : QueueRow => a.createdAt < b.createdAt ∨ a.createdAt =
    b.createdAt ∧ a.id ≤ b.id
  let claimed := (free.insertionSort order).take limit
  ({ db with queue := db.queue.map fun r =>
      if r.id ∈ claimed.map (·.id) then { r with claimedUntil := some token } else r },
    claimed.map fun r => { r with claimedUntil := some token })

def markRollupProcessed (db : LedgerTables) (now : Int) (id : Nat) (token : Int) :
    LedgerTables × Bool :=
  ({ db with queue := db.queue.map fun r =>
      if r.id = id ∧ r.claimedUntil = some token then
        { r with processedAt := some now, claimedUntil := none } else r },
    db.queue.any fun r => r.id == id && r.claimedUntil == some token)

def releaseRollupClaim (db : LedgerTables) (id : Nat) (token : Int) : LedgerTables :=
  { db with queue := db.queue.map fun r =>
      if r.id = id ∧ r.processedAt = none ∧ r.claimedUntil = some token then
        { r with claimedUntil := none, failedAttempts := r.failedAttempts + 1 } else r }

def resetRollupClaim (db : LedgerTables) (id : Nat) : LedgerTables :=
  { db with queue := db.queue.map fun r =>
      if r.id = id ∧ r.processedAt = none then { r with claimedUntil := none, failedAttempts := 0 } else r }

end LedgerTables

structure EntrySums where
  debitByClass : Nat → Option Decimal
  creditByClass : Nat → Option Decimal
  maxEntryID : Nat
  maxEntryAt : Option Int

/-- `SumEntriesSince`: both reads run in one REPEATABLE READ transaction, so on one state. A Go map
reads a missing key as the zero decimal; `none` here is the missing key. -/
def sumEntriesSince (db : LedgerTables) (pair : Pair) (since : Nat) : EntrySums :=
  let byClass := fun side classification =>
    ((db.pairEntriesSince pair since).filter (·.dim.classification == classification) |>
      (LedgerTables.sumSide · side)).map fun total => Decimal.zero.add (numericToDecimal total)
  let top := db.getMaxEntryForAccountCurrencySince pair since
  { debitByClass := byClass .debit
    creditByClass := byClass .credit
    maxEntryID := top.1
    maxEntryAt := if top.1 = 0 then none else some top.2 }

def entrySum (db : LedgerTables) (dim : Dimension) (since : Nat) (side : Side) : Decimal :=
  ((db.sumEntriesSinceForClassification dim since side).map fun total =>
    Decimal.zero.add (numericToDecimal total)).getD Decimal.zero

/-- `getBalanceWithQueries`. Its three statements may see three snapshots: the checkpoint's, the
sums' and the classification's. -/
def getBalanceWithQueries (atCheckpoint atSums atClass : LedgerTables) (dim : Dimension) :
    Result Decimal := do
  let cp := atCheckpoint.getBalanceCheckpoint dim
  let checkpointBalance := (cp.map fun row => numericToDecimal row.balance).getD Decimal.zero
  let since := (cp.map (·.lastEntryID)).getD 0
  match atClass.getClassification dim.classification with
  | none => throw ⟨.other, "postgres: get balance: get classification %d"⟩
  | some cls =>
    match delta cls.normalSide.normalSide (entrySum atSums dim since .debit)
      (entrySum atSums dim since .credit) with
    | .error err => throw (err.wrap "postgres: get balance: classification %d")
    | .ok d => return checkpointBalance.add d

def pairLe (a b : Pair) : Prop := a.holder < b.holder ∨ a.holder = b.holder ∧
    a.currency ≤ b.currency

instance (a b : Pair) : Decidable (pairLe a b) := inferInstanceAs (Decidable (_ ∨ _ ∧ _))

def sortedUniquePairs (pairs : List Pair) : List Pair := pairs.dedup.insertionSort pairLe

theorem mem_sortedUniquePairs {p : Pair} {pairs : List Pair} : p ∈ sortedUniquePairs pairs ↔
    p ∈ pairs := by
  rw [sortedUniquePairs, List.mem_insertionSort, List.mem_dedup]

end Ledger.Postgres
