import Ledger.Postgres.ReversalRuns

namespace Ledger.Core

open Shared

structure Balance where
  accountHolder : Int
  currencyUID : GoString
  classificationUID : GoString
  balance : Decimal
deriving DecidableEq

structure BalanceSnapshot where
  accountHolder : Int
  currencyUID : GoString
  classificationUID : GoString
  snapshotDate : Int
  balance : Decimal
deriving DecidableEq

end Ledger.Core

namespace Ledger.Postgres

open Core Shared

def dayMicros : Int := 86400000000

def endOfDay (date : Int) : Int := (date + 1) * dayMicros

def normalizeDay (t : Instant) : Int := toMicros t / dayMicros

def epochMicros : Int := 62135596800000000

structure SnapshotRow where
  dim : Dimension
  snapshotDate : Int
  balance : Int
  createdAt : Int
deriving DecidableEq

structure SnapshotStore where
  store : Store
  snapshots : List SnapshotRow

def dimLe (a b : Dimension) : Prop :=
  a.holder < b.holder ∨ a.holder = b.holder ∧
    (a.currency < b.currency ∨ a.currency = b.currency ∧ a.classification ≤ b.classification)

instance (a b : Dimension) : Decidable (dimLe a b) := inferInstanceAs
    (Decidable (_ ∨ _ ∧ (_ ∨ _ ∧ _)))

def entriesBefore (db : LedgerTables) (dim : Dimension) (cutoff : Int) : List EntryRow :=
  db.entries.filter fun e => e.dim == dim && decide (e.effectiveAt < cutoff)

def balanceBefore (db : LedgerTables) (cls : ClassificationRow)
    (dim : Dimension) (cutoff : Int) : Int :=
  ((entriesBefore db dim cutoff).map fun e => ledgerSignedAmount cls.normalSide
    e.entryType e.amount).sum

/-- The groups of `ListBalancesAt`. Its join with the classifications drops nothing that the foreign
key does not already forbid. -/
def dimsBefore (db : LedgerTables) (cutoff : Int) : List Dimension :=
  ((db.entries.filter fun e => decide (e.effectiveAt < cutoff) &&
    (db.getClassification e.dim.classification).isSome).map
    (·.dim)).dedup.insertionSort dimLe

def listBalancesAt (s : Store) (cutoff : Int) : Result (List Balance) :=
  collect (fun dim => do
    let cur ← s.currencyByIDOrErr dim.currency
    let cls ← s.classByIDOrErr dim.classification
    return ⟨dim.holder, pgToUID cur.uid, pgToUID cls.uid, numericToDecimal
      (balanceBefore s.ledger cls dim cutoff)⟩)
    (dimsBefore s.ledger cutoff)

def SnapshotRow.isFor (r : SnapshotRow) (dim : Dimension) (date : Int) :
    Bool := r.dim == dim && r.snapshotDate == date

/-- `InsertSnapshot`: a conflict updates the balance and nothing else. -/
def insertSnapshot (rows : List SnapshotRow) (now : Int) (dim : Dimension) (date balance : Int) :
    List SnapshotRow :=
  if rows.any (·.isFor dim date) then rows.map fun r =>
    if r.isFor dim date then { r with balance := balance } else r
  else rows ++ [⟨dim, date, balance, now⟩]

def getLatestSnapshotBefore (rows : List SnapshotRow) (dim : Dimension) (date : Int) :
    Option SnapshotRow :=
  ((rows.filter fun r => r.dim == dim && decide (r.snapshotDate < date)).insertionSort
    fun a b => b.snapshotDate ≤ a.snapshotDate).head?

def upsertSnapshotSparse (s : SnapshotStore) (now : Int) (snap : BalanceSnapshot) :
    Result (SnapshotStore × Bool) := do
  let cur ← s.store.currencyByUIDOrErr snap.currencyUID
  let cls ← s.store.classByUIDOrErr snap.classificationUID
  let dim : Dimension := ⟨snap.accountHolder, cur.id, cls.id⟩
  let unchanged := match getLatestSnapshotBefore s.snapshots dim snap.snapshotDate with
    | none => false
    | some prev => snap.balance.equal (numericToDecimal prev.balance)
  if unchanged then return (s, false)
  else
    let balance ← within "postgres: snapshot_extra: insert snapshot" (decimalToNumeric snap.balance)
    return ({ s with snapshots := insertSnapshot s.snapshots now dim snap.snapshotDate balance }, true)

def writeSnapshots (clock : Nat → Int) (date : Int) : Nat → SnapshotStore → List Balance →
    Result SnapshotStore
  | _, s, [] => .ok s
  | i, s, b :: rest => do
    let (s, _) ← within "service: snapshot: sparse insert"
      (upsertSnapshotSparse s (clock i) ⟨b.accountHolder, b.currencyUID, b.classificationUID, date, b.balance⟩)
    writeSnapshots clock date (i + 1) s rest

def createDailySnapshot (clock : Nat → Int) (s : SnapshotStore) (t : Instant) :
    Result SnapshotStore := do
  let date := normalizeDay t
  let balances ← within "service: snapshot: list balances at %s"
    (listBalancesAt s.store (endOfDay date))
  writeSnapshots clock date 0 s balances

def pairEntriesBefore (db : LedgerTables) (pair : Pair) (cutoff : Int) : List EntryRow :=
  db.entries.filter fun e => e.dim.pair == pair && decide (e.effectiveAt < cutoff)

def snapshotIsStale (db : LedgerTables) (pair : Pair) (cutoff snapshotCreatedAt : Int) : Bool :=
  decide (snapshotCreatedAt < ((pairEntriesBefore db pair cutoff).map (·.createdAt)).max?.getD
    epochMicros)

def liveBalancesByClassificationAt (db : LedgerTables) (pair : Pair) (cutoff : Int) :
    List (Nat × Int) :=
  let ids := ((pairEntriesBefore db pair cutoff).map
    (·.dim.classification)).dedup.insertionSort (· ≤ ·)
  ids.filterMap fun id =>
    (db.getClassification id).map fun cls =>
      (id, balanceBefore db cls ⟨pair.holder, pair.currency, id⟩ cutoff)

def snapshotRows (rows : List SnapshotRow) (pair : Pair) (date : Int) : List SnapshotRow :=
  rows.filter fun r => r.dim.pair == pair && r.snapshotDate == date

def getSnapshotBalances (s : SnapshotStore) (holder : Int) (currencyUID : GoString) (date : Int) :
    Result (List Balance) := do
  let cur ← s.store.currencyByUIDOrErr currencyUID
  let pair : Pair := ⟨holder, cur.id⟩
  let cutoff := endOfDay date
  match snapshotRows s.snapshots pair date with
  | [] => return []
  | first :: rest =>
    let oldestSnapshotAt := rest.foldl (fun oldest r => min oldest r.createdAt) first.createdAt
    if snapshotIsStale s.store.ledger pair cutoff oldestSnapshotAt then
      let live := liveBalancesByClassificationAt s.store.ledger pair cutoff
      -- Cached classifications first, then the live ones that have no row.
      let cached := firstSeen ((first :: rest).map (·.dim.classification))
      let extra := (live.map Prod.fst).filter (· ∉ cached)
      collect (fun id => do
        let cls ← s.store.classByIDOrErr id
        return ⟨holder, currencyUID, pgToUID cls.uid,
          ((live.find? (·.1 == id)).map fun p => numericToDecimal p.2).getD Decimal.zero⟩) (cached ++ extra)
    else
      collect (fun r => do
        let cls ← s.store.classByIDOrErr r.dim.classification
        return ⟨r.dim.holder, currencyUID, pgToUID cls.uid, numericToDecimal r.balance⟩) (first :: rest)

end Ledger.Postgres
