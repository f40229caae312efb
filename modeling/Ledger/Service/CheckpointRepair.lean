import Ledger.Service.Rollup

namespace Ledger.Postgres.LedgerTables

open Core Shared

def countPendingRollupForDimension (db : LedgerTables) (dim : Dimension) : Nat :=
  (db.queue.filter fun r => r.dim == dim && r.processedAt.isNone && decide
    (r.failedAttempts < 10)).length

def recomputeCheckpointFromEntries (db : LedgerTables) (dim : Dimension) : Option CheckpointRow :=
  (db.getClassification dim.classification).map fun cls =>
    { balance := ((db.dimEntries dim).map fun e => ledgerSignedAmount cls.normalSide
      e.entryType e.amount).sum
      lastEntryID := (db.dimEntries dim).foldl (fun m e => max m e.id) 0
      lastEntryAt := ((db.dimEntries dim).map (·.createdAt)).max?.getD 0 }

def rebuildBalanceCheckpoint (db : LedgerTables) (dim : Dimension) (row : CheckpointRow) :
    LedgerTables :=
  { db with checkpoints := Function.update db.checkpoints dim (some row) }

end Ledger.Postgres.LedgerTables

namespace Ledger.Service

open Core Postgres Shared

inductive RebuildPhase where
  | begun
  | locked
  | counted
  | previousRead (previous : Option CheckpointRow)
  | recomputed (previous : Option CheckpointRow) (row : CheckpointRow)

def RebuildPhase.holdsLock : RebuildPhase → Bool
  | .begun => false
  | _ => true

structure Rebuild where
  dim : Dimension
  actorID : Int
  phase : RebuildPhase

structure RebuildAudit where
  dim : Dimension
  previousBalance : Int
  previousLastEntryID : Nat
  newBalance : Int
  newLastEntryID : Nat
  drift : Int
  actorID : Int
deriving DecidableEq

def rebuildAudit (r : Rebuild) (previous : Option CheckpointRow) (row : CheckpointRow) :
    Result RebuildAudit := do
  let previousBalance := currentBalance previous
  let drift ← decimalToNumeric (previousBalance.sub (numericToDecimal row.balance))
  return ⟨r.dim, (previous.map (·.balance)).getD 0, sinceEntryID previous, row.balance,
    row.lastEntryID, drift, r.actorID⟩

structure RepairSystem where
  sys : System
  rebuilds : Nat → Option Rebuild
  audits : List RebuildAudit

namespace RepairSystem

def setRebuild (s : RepairSystem) (t : Nat) (r : Option Rebuild) : RepairSystem :=
  { s with rebuilds := Function.update s.rebuilds t r }

def finish (s : RepairSystem) (t : Nat) (dim : Dimension) (row : CheckpointRow)
    (audit : RebuildAudit) : RepairSystem :=
  { sys := ({ s.sys with db := s.sys.db.rebuildBalanceCheckpoint dim row } : System).dropLocks t
    rebuilds := Function.update s.rebuilds t none
    audits := s.audits ++ [audit] }

def overwrite (s : RepairSystem) (dim : Dimension) (row : Option CheckpointRow) : RepairSystem :=
  { s with sys := { s.sys with db :=
    { s.sys.db with checkpoints := Function.update s.sys.db.checkpoints dim row } } }

end RepairSystem

/-- A step of a post, a worker or another transaction: it neither takes nor releases a rebuild's
lock and starts no posting under a rebuild's transaction id. -/
structure Beside (s : RepairSystem) (sys : System) : Prop where
  step : Step s.sys sys
  posts : ∀ t r, s.rebuilds t = some r → sys.posts t = none
  locks : ∀ t r, s.rebuilds t = some r → ∀ p, s.sys.locks p = some t ↔ sys.locks p = some t

inductive Rebuilt (s : RepairSystem) (dim : Dimension) : RepairSystem → Prop where
  | commit (t : Nat) (r : Rebuild) (previous : Option CheckpointRow) (row : CheckpointRow) (audit : RebuildAudit)
      (running : s.rebuilds t = some r) (same : r.dim = dim) (phase : r.phase = .recomputed previous row)
      (fits : fitsUnits 30 row.balance = true) (recorded : rebuildAudit r previous row = .ok audit) :
      Rebuilt s dim (s.finish t dim row audit)

/-- One statement of anything. `free` says which dimensions may be written by other means. -/
inductive RepairStep (free : Dimension → Prop) : RepairSystem → RepairSystem → Prop where
  | beside (s : RepairSystem) (sys : System) (move : Beside s sys) : RepairStep free s { s with sys := sys }
  | begin (s : RepairSystem) (t : Nat) (dim : Dimension) (actorID : Int) (unused : s.rebuilds t = none)
      (posting : s.sys.posts t = none) (unlocked : ∀ p, s.sys.locks p ≠ some t) :
      RepairStep free s (s.setRebuild t (some ⟨dim, actorID, .begun⟩))
  | lock (s : RepairSystem) (t : Nat) (r : Rebuild) (running : s.rebuilds t = some r) (phase : r.phase = .begun)
      (open_ : s.sys.lockable t r.dim.pair) :
      RepairStep free s ({ s with sys := s.sys.takeLock t r.dim.pair }.setRebuild t (some { r with phase := .locked }))
  -- A pending row makes the call fail with `ErrRollupPending`, which is an `abort`.
  | count (s : RepairSystem) (t : Nat) (r : Rebuild) (running : s.rebuilds t = some r) (phase : r.phase = .locked)
      (drained : s.sys.db.countPendingRollupForDimension r.dim = 0) :
      RepairStep free s (s.setRebuild t (some { r with phase := .counted }))
  | previous (s : RepairSystem) (t : Nat) (r : Rebuild) (running : s.rebuilds t = some r) (phase : r.phase = .counted) :
      RepairStep free s (s.setRebuild t (some { r with phase := .previousRead (s.sys.db.getBalanceCheckpoint r.dim) }))
  | recompute (s : RepairSystem) (t : Nat) (r : Rebuild) (previous : Option CheckpointRow) (row : CheckpointRow)
      (running : s.rebuilds t = some r) (phase : r.phase = .previousRead previous)
      (answer : s.sys.db.recomputeCheckpointFromEntries r.dim = some row) :
      RepairStep free s (s.setRebuild t (some { r with phase := .recomputed previous row }))
  | commit (s s' : RepairSystem) (dim : Dimension) (done : Rebuilt s dim s') : RepairStep free s s'
  | abort (s : RepairSystem) (t : Nat) (r : Rebuild) (running : s.rebuilds t = some r) :
      RepairStep free s ({ s with sys := s.sys.dropLocks t }.setRebuild t none)
  | overwrite (s : RepairSystem) (dim : Dimension) (row : Option CheckpointRow) (allowed : free dim) :
      RepairStep free s (s.overwrite dim row)

def RepairSystem.Reachable (s : RepairSystem) : Prop :=
  ∃ s₀ : RepairSystem, Initial s₀.sys ∧ (∀ t, s₀.rebuilds t = none) ∧
    Run (RepairStep fun _ => True) s₀ s

end Ledger.Service
