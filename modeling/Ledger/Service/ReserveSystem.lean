import Ledger.Postgres.Reserve
import Ledger.Service.RollupSoundness

namespace Ledger.Service

open Core Postgres Shared

inductive ReservePhase where
  | opened
  | keyLocked
  | keyed
  | locked
  | admitted
  | summed (availableBase : Decimal)
  | checked
  | inserted (row : ReservationRow)

def ReservePhase.holdsLock : ReservePhase → Bool
  | .opened | .keyLocked | .keyed => false
  | _ => true

structure Reserving where
  input : ReserveInput
  currencyID : Nat
  phase : ReservePhase

def Reserving.pair (r : Reserving) : Pair := ⟨r.input.accountHolder, r.currencyID⟩

structure Bank where
  sys : System
  tables : ReserverTables
  policies : List AccountPolicyRow
  keyLocks : GoString → Option Nat
  reserves : Nat → Option Reserving
  nextReservationID : Nat

namespace Bank

def setReserve (b : Bank) (t : Nat) (r : Option Reserving) : Bank :=
  { b with reserves := Function.update b.reserves t r }

def moveTo (b : Bank) (t : Nat) (r : Reserving) (phase : ReservePhase) : Bank :=
  b.setReserve t (some { r with phase := phase })

def finish (b : Bank) (t : Nat) : Bank :=
  { b with sys := b.sys.dropLocks t, keyLocks := fun k => if b.keyLocks k = some t then none
    else b.keyLocks k }.setReserve t none

def commitReserve (b : Bank) (t : Nat) (row : ReservationRow) : Bank :=
  { b with tables := { b.tables with reservations := b.tables.reservations ++ [row] } }.finish t

def inFlight (b : Bank) (row : ReservationRow) : Prop := ∃ t r, b.reserves t = some r ∧
    r.phase = .inserted row

end Bank

def LeavesAlone (s s' : System) (t : Nat) : Prop := s'.posts t = s.posts t ∧ ∀ p, s'.locks p =
    some t ↔ s.locks p = some t

def KeepsRoles (db db' : LedgerTables) : Prop :=
  ∀ id row row', db.getClassification id = some row → db'.getClassification id = some row' →
    row'.balanceRole = row.balanceRole

inductive BankStep (hash : DischargePayload → GoString) : Bank → Bank → Prop where
  | ledger (b : Bank) (sys : System) (step : Step b.sys sys) (roles : KeepsRoles b.sys.db sys.db)
      (others : ∀ t, (b.reserves t).isSome → LeavesAlone b.sys sys t) : BankStep hash b { b with sys := sys }
  | discharge (b : Bank) (c : DischargeCall) (tables : ReserverTables) (ok : c.run hash b.tables = .ok tables) :
      BankStep hash b { b with tables := tables }
  | configure (b : Bank) (currencies : List CurrencyRow) (policies : List AccountPolicyRow) :
      BankStep hash b { b with tables := { b.tables with currencies := currencies }, policies := policies }
  | open_ (b : Bank) (t : Nat) (input : ReserveInput) (cur : CurrencyRow)
      (ungated : input.requireVerifiedBalance = false) (admitted : admitReserve b.tables input = .ok cur)
      (new : b.tables.getReservationByIdempotencyKey input.idempotencyKey = .ok none)
      (unused : b.reserves t = none) (other : b.sys.posts t = none) (unlocked : ∀ p, b.sys.locks p ≠ some t) :
      BankStep hash b (b.setReserve t (some ⟨input, cur.id, .opened⟩))
  | lockKey (b : Bank) (t : Nat) (r : Reserving) (running : b.reserves t = some r) (phase : r.phase = .opened)
      (free : b.keyLocks r.input.idempotencyKey = none) :
      BankStep hash b
        ({ b with keyLocks := Function.update b.keyLocks r.input.idempotencyKey (some t) }.moveTo t r .keyLocked)
  | recheckKey (b : Bank) (t : Nat) (r : Reserving) (running : b.reserves t = some r) (phase : r.phase = .keyLocked)
      (new : b.tables.getReservationByIdempotencyKey r.input.idempotencyKey = .ok none) :
      BankStep hash b (b.moveTo t r .keyed)
  | lockBalance (b : Bank) (t : Nat) (r : Reserving) (running : b.reserves t = some r) (phase : r.phase = .keyed)
      (free : b.sys.lockable t r.pair) :
      BankStep hash b ({ b with sys := b.sys.takeLock t r.pair }.moveTo t r .locked)
  | checkPolicy (b : Bank) (t : Nat) (r : Reserving) (running : b.reserves t = some r) (phase : r.phase = .locked)
      (ok : checkReservePolicy b.policies r.pair = .ok ()) : BankStep hash b (b.moveTo t r .admitted)
  | sumBalances (b : Bank) (t : Nat) (r : Reserving) (running : b.reserves t = some r) (phase : r.phase = .admitted) :
      BankStep hash b (b.moveTo t r (.summed (b.sys.db.sumBalancesByRole r.pair .available)))
  | sumHolds (b : Bank) (t : Nat) (r : Reserving) (base : Decimal) (running : b.reserves t = some r)
      (phase : r.phase = .summed base)
      (enough : checkAvailable base
        (numericToDecimal (b.tables.sumActiveReservations r.pair.holder r.pair.currency)) r.input.amount = .ok ()) :
      BankStep hash b (b.moveTo t r .checked)
  | insert (b : Bank) (t : Nat) (r : Reserving) (uid : Uuid) (now : Instant) (row : ReservationRow)
      (running : b.reserves t = some r) (phase : r.phase = .checked)
      (ok : insertReservation b.nextReservationID uid now r.input r.currencyID = .ok row)
      (unique : ∀ other, other ∈ b.tables.reservations ∨ b.inFlight other →
        other.uid ≠ row.uid ∧ other.idempotencyKey ≠ row.idempotencyKey) :
      BankStep hash b ({ b with nextReservationID := b.nextReservationID + 1 }.moveTo t r (.inserted row))
  | commit (b : Bank) (t : Nat) (r : Reserving) (row : ReservationRow) (running : b.reserves t = some r)
      (phase : r.phase = .inserted row) : BankStep hash b (b.commitReserve t row)
  -- Any error, the replay of a known key included, ends the transaction.
  | rollback (b : Bank) (t : Nat) (r : Reserving) (running : b.reserves t = some r) : BankStep hash b (b.finish t)

structure Bank.Initial (b : Bank) : Prop where
  sys : Service.Initial b.sys
  tables : b.tables.Empty
  reserves : ∀ t, b.reserves t = none

def Bank.Reachable (hash : DischargePayload → GoString) (b : Bank) : Prop :=
  ∃ start, Bank.Initial start ∧ Run (BankStep hash) start b

def hold (r : ReservationRow) : Int := if r.status.terminal then 0
    else r.reservedAmount - r.settledAmount

def rowPair (r : ReservationRow) : Pair := ⟨r.accountHolder, r.currencyID⟩

def outstanding (t : ReserverTables) (pair : Pair) : Int := sumAt rowPair hold t.reservations pair

def availableEntry (db : LedgerTables) (e : EntryRow) : Int :=
  match db.getClassification e.dim.classification with
  | some c => if c.balanceRole = .available then signedEntry c.normalSide e else 0
  | none => 0

def availableTotal (db : LedgerTables) (pair : Pair) :
    Int := sumAt (·.dim.pair) (availableEntry db) db.entries pair

theorem sumActiveReservations_eq {t : ReserverTables} (inv : ReserverInv t) (pair : Pair) :
    t.sumActiveReservations pair.holder pair.currency = outstanding t pair := by
  have active : ∀ r ∈ t.reservations, r.status = .active → r.settledAmount = 0 := inv.active
  unfold ReserverTables.sumActiveReservations outstanding
  generalize t.reservations = rows at active
  induction rows with
  | nil => rfl
  | cons r rest ih =>
    have tail := ih fun r' member => active r' (List.mem_cons_of_mem _ member)
    have head := active r List.mem_cons_self
    rw [sumAt_cons, ← tail]
    by_cases same : rowPair r = pair
    · subst same
      cases status : r.status <;> simp_all [rowPair, hold, ReservationStatus.terminal]
    · have other : (r.accountHolder == pair.holder && r.currencyID == pair.currency) = false := by
        cases pair
        simp only [rowPair, Pair.mk.injEq] at same
        simpa using same
      simp [same, other]

end Ledger.Service
