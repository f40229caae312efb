import Ledger.Postgres.Reserve
import Ledger.Postgres.SignedJournals
import Ledger.Service.AttestedLedger

namespace Ledger.Postgres

open Ledger.Core Shared

structure ReserverStore where
  pool : Bool
  verifiedBalance : Int → GoString → GoString → Result Decimal

def requireVerifiedAvailableBalance (p : ReserverStore) (db : LedgerTables) (pair : Pair)
    (currencyUID : GoString) : Result Decimal := do
  let parts ← collect (fun row =>
    within "postgres: reserve: verified balance check failed for classification %s"
      (p.verifiedBalance pair.holder currencyUID (pgToUID row.classification.uid)))
    ((db.listComputedBalances pair).filter (·.classification.balanceRole == .available))
  return sumDecimals parts

def verifiedAvailableBase (p : ReserverStore) (db : LedgerTables) (cur : CurrencyRow)
    (input : ReserveInput) : Result (Option Decimal) :=
  if input.requireVerifiedBalance then do
    require p.pool ⟨.invalidInput,
      "postgres: reserve: called on a transaction-bound store with RequireVerifiedBalance=true; the verified-balance gate may call a remote AuthVerifier and financial.md forbids that inside an open transaction -- call Reserve with RequireVerifiedBalance set BEFORE opening a RunInTx, not from inside its callback"⟩
    let verified ← requireVerifiedAvailableBalance p db ⟨input.accountHolder, cur.id⟩ input.currencyUID
    return some verified
  else return none

def ensureReservationMatchesInput (existing : ReservationRow) (input : ReserveInput)
    (currencyID : Nat) : Result ReservationRow := do
  let drift := (existing.expiresAt - existing.createdAt) * 1000 - resolveReservationExpiresIn
    input.expiresIn
  require (-1000000000 ≤ drift ∧ drift ≤ 1000000000)
    ⟨.conflict, "postgres: reserve: idempotency key %q payload mismatch"⟩
  require (existing.accountHolder = input.accountHolder ∧ existing.currencyID = currencyID ∧
      (numericToDecimal existing.reservedAmount).equal input.amount)
    ⟨.conflict, "postgres: reserve: idempotency key %q payload mismatch"⟩
  return existing

/-- `Reserve`; `create` is the transaction under a new key. -/
def reserve (p : ReserverStore) (db : LedgerTables) (t : ReserverTables) (input : ReserveInput)
    (create : CurrencyRow → Option Decimal → Result (ReserverTables × ReservationRow)) :
    Result (ReserverTables × ReservationRow) := do
  let cur ← admitReserve t input
  let base ← verifiedAvailableBase p db cur input
  match ← within "postgres: reserve: check idempotency"
    (t.getReservationByIdempotencyKey input.idempotencyKey) with
  | some existing => do
    let row ← ensureReservationMatchesInput existing input cur.id
    return (t, row)
  | none => create cur base

/-- The row under the input's key was inserted for it; its status and what is settled may have
changed. -/
structure CreatedFor (t : ReserverTables) (input : ReserveInput) (cur : CurrencyRow)
    (row : ReservationRow) : Prop where
  admitted : admitReserve t input = .ok cur
  stored : t.reservations.find? (·.idempotencyKey == input.idempotencyKey) = some row
  created : ∃ now row₀, insertReservation row.id row.uid now input cur.id = .ok row₀ ∧
    row.accountHolder = row₀.accountHolder ∧
    row.currencyID = row₀.currencyID ∧ row.reservedAmount = row₀.reservedAmount ∧ row.expiresAt =
      row₀.expiresAt ∧ row.createdAt = row₀.createdAt

variable {t : ReserverTables} {input : ReserveInput} {cur : CurrencyRow} {row : ReservationRow}

theorem CreatedFor.lookup (made : CreatedFor t input cur row) :
    t.getReservationByIdempotencyKey input.idempotencyKey = .ok (some row) ∧
    ensureReservationMatchesInput row input cur.id = .ok row := by
  obtain ⟨admitted, stored, now, row₀, inserted, holder, currency, units, expires, created⟩ := made
  simp only [insertReservation, bind_eq_ok, within_eq_ok, require_eq_ok, pure_eq_ok] at inserted
  obtain ⟨reserved, amount, _, key, _, -, rfl⟩ := inserted
  simp only [admitReserve, bind_eq_ok, within_eq_ok, ReserveInput.validate, pure_eq_ok] at admitted
  obtain ⟨_, ⟨_, magnitude, -⟩, -⟩ := admitted
  refine ⟨by rw [ReserverTables.getReservationByIdempotencyKey, key, ok_bind, stored]; rfl, ?_⟩
  have equal : (numericToDecimal row.reservedAmount).equal input.amount = true := by
    rw [Decimal.equal_iff, units, numericToDecimal, ofUnits_val, numericColumn_ok amount,
      validateAmountMagnitude_units magnitude]
    simp
  simp only [ensureReservationMatchesInput, bind_eq_ok, require_eq_ok, decide_eq_true_eq,
    pure_eq_ok, expires, created, toMicros]
  exact ⟨(), by omega, (), ⟨holder, currency, equal⟩, trivial⟩

theorem reserve_replay_iff {p : ReserverStore} {db : LedgerTables}
    {create : CurrencyRow → Option Decimal → Result (ReserverTables × ReservationRow)}
    (made : CreatedFor t input cur row) :
    reserve p db t input create = .ok (t, row) ↔ input.requireVerifiedBalance = true →
      p.pool = true ∧ (requireVerifiedAvailableBalance p db ⟨input.accountHolder, cur.id⟩
        input.currencyUID).isOk = true := by
  obtain ⟨lookup, same⟩ := made.lookup
  simp only [reserve, made.admitted, ok_bind, lookup, within, same, bind_eq_ok, pure_eq_ok,
    and_true, verifiedAvailableBase]
  split
  next gated =>
    simp only [bind_eq_ok, require_eq_ok, pure_eq_ok, gated, forall_const, isOk_iff]
    constructor
    · rintro ⟨-, -, pool, verified, ok, -⟩
      exact ⟨pool, verified, ok⟩
    · rintro ⟨pool, verified, ok⟩
      exact ⟨_, (), pool, verified, ok, rfl⟩
  next open_ => simp [open_, pure_eq_ok]

namespace Sample

def request (gated : Bool) : ReserveInput := ⟨7, (uid 3).print, ⟨10, 0⟩, lit "hold", 0, gated⟩

def held : ReservationRow :=
  ⟨1, uid 9, 7, 1, 10 * 10 ^ 18, 0, .active, none, lit "hold", 900000000, 0⟩

def holds : ReserverTables := ⟨store.currencies, [held], [], []⟩

def money : CurrencyRow := (store.currencies.find? (·.id == 1)).get (by decide +kernel)

theorem held_created (gated : Bool) : CreatedFor holds (request gated) money held :=
  ⟨by cases gated <;> decide +kernel, by cases gated <;> decide +kernel, 0, held,
    by cases gated <;> decide +kernel, rfl, rfl, rfl, rfl, rfl⟩

/-- The gate over the signed deposit: its journal is checked on each read. -/
def gate : ReserverStore :=
  ⟨true, Attested.verifiedBalance signing.hash (some ReserverSample.verifier)
    ⟨signedDeposit, [], [], [], (0, [])⟩⟩

end Sample

theorem reserve_replay_iff_verified : reserve Sample.gate Sample.signedDeposit.ledger Sample.holds
    (Sample.request true)
    (fun _ _ => .error ⟨.other, "unavailable"⟩) = .ok (Sample.holds, Sample.held) :=
  (reserve_replay_iff (Sample.held_created true)).mpr fun _ => ⟨rfl, by decide +kernel⟩

/-- The reservation exists under its key, and the verifier does not answer. -/
theorem gated_replay_refused : CreatedFor Sample.holds (Sample.request true)
    Sample.money Sample.held ∧
    (reserve ⟨true, fun _ _ _ => .error ⟨.other, "unavailable"⟩⟩ Sample.deposited.ledger
      Sample.holds (Sample.request true)
      fun _ _ => .error ⟨.other, "unavailable"⟩).isOk = false :=
  ⟨Sample.held_created true, by decide +kernel⟩

end Ledger.Postgres
