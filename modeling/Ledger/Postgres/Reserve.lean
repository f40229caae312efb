import Ledger.Postgres.ReservationRuns
import Ledger.Shared.LooseScan

namespace Ledger.Postgres

open Core Shared

structure ReserveInput where
  accountHolder : Int
  currencyUID : GoString
  amount : Decimal
  idempotencyKey : GoString
  expiresIn : Int
  requireVerifiedBalance : Bool
deriving DecidableEq

def ReserveInput.validate (i : ReserveInput) : Result Unit := do
  validateAmountMagnitude i.amount
  require (i.accountHolder ≠ 0) ⟨.invalidInput, "core: reserve: account_holder required"⟩
  require (i.currencyUID ≠ []) ⟨.invalidInput, "core: reserve: currency_uid required"⟩
  require i.amount.isPositive ⟨.invalidInput, "core: reserve: amount must be positive"⟩
  require (i.idempotencyKey ≠ []) ⟨.invalidInput, "core: reserve: idempotency key required"⟩
  require (0 ≤ i.expiresIn) ⟨.invalidInput, "core: reserve: expires_in must not be negative"⟩

def reservationDefaultExpiresIn : Int := 15 * 60 * 1000000000

def resolveReservationExpiresIn (d : Int) : Int := if d = 0 then reservationDefaultExpiresIn else d

structure ComputedBalance where
  classification : ClassificationRow
  balance : Int

namespace LedgerTables

def pairEntries (db : LedgerTables) (pair : Pair) : List EntryRow := db.entries.filter
    (·.dim.pair == pair)

def computedBalance (db : LedgerTables) (dim : Dimension) (normalSide : Side) : Int :=
  let cp := db.checkpoints dim
  let since := (cp.map (·.lastEntryID)).getD 0
  (cp.map (·.balance)).getD 0 +
    (((db.dimEntries dim).filter (since < ·.id)).map fun e => ledgerSignedAmount normalSide
      e.entryType e.amount).sum

def listComputedBalances (db : LedgerTables) (pair : Pair) : List ComputedBalance :=
  (looseScan ((db.pairEntries pair).map (·.dim.classification))).filterMap fun id =>
    (db.getClassification id).map fun c =>
      ⟨c, db.computedBalance ⟨pair.holder, pair.currency, id⟩ c.normalSide⟩

def sumBalancesByRole (db : LedgerTables) (pair : Pair) (role : BalanceRole) : Decimal :=
  sumDecimals (((db.listComputedBalances pair).filter (·.classification.balanceRole == role)).map
    (numericToDecimal ·.balance))

end LedgerTables

/-- A reservation is tied to no classification, so only the wildcard tiers apply. -/
def checkReservePolicy (policies : List AccountPolicyRow) (pair : Pair) : Result Unit :=
  match (getEffectiveAccountPolicy policies ⟨pair.holder, pair.currency, 0⟩).map
    AccountPolicyRow.status with
  | some .closed => .error ⟨.accountClosed, "postgres: reserve: account %d currency %s is closed (policy %d)"⟩
  | some .frozen => .error ⟨.accountFrozen, "postgres: reserve: account %d currency %s is frozen (policy %d)"⟩
  | _ => .ok ()

def checkAvailable (availableBase held amount : Decimal) : Result Unit :=
  require (!amount.greaterThan (availableBase.sub held))
    ⟨.insufficientBalance, "postgres: reserve: available %s < requested %s"⟩

def insertReservation (id : Nat) (uid : Uuid) (now : Instant) (input : ReserveInput)
    (currencyID : Nat) : Result ReservationRow := do
  let expiresAt := toMicros (now + resolveReservationExpiresIn input.expiresIn)
  let reserved ← within "postgres: reserve: insert" (numericColumn input.amount)
  textParam input.idempotencyKey
  require (timestampFits expiresAt) ⟨.other, "postgres: reserve: insert: timestamp out of range"⟩
  return { id := id, uid := uid, accountHolder := input.accountHolder, currencyID := currencyID
           reservedAmount := reserved, settledAmount := 0, status := .active, journalID := none
           idempotencyKey := input.idempotencyKey, expiresAt := expiresAt, createdAt := toMicros now }

def admitReserve (t : ReserverTables) (input : ReserveInput) : Result CurrencyRow := do
  within "postgres: reserve" input.validate
  let cur ← t.currencyByUIDOrErr input.currencyUID
  checkAmountPrecision input.amount cur
  return cur

def ReserverTables.getReservationByIdempotencyKey (t : ReserverTables) (key : GoString) :
    Result (Option ReservationRow) := do
  textParam key
  return t.reservations.find? (·.idempotencyKey == key)

end Ledger.Postgres
