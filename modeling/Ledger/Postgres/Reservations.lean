import Ledger.Core.Auth
import Ledger.Postgres.PostingGates

namespace Ledger.Postgres

open Core Shared

inductive ReservationStatus where
  | active | settling | settled | released
deriving DecidableEq

def reservationTransitions : ReservationStatus → List ReservationStatus
  | .active => [.settling, .settled, .released]
  | .settling => [.settled, .released]
  | _ => []

def ReservationStatus.canTransitionTo (status target : ReservationStatus) : Bool :=
  (reservationTransitions status).contains target

def ReservationStatus.terminal : ReservationStatus → Bool
  | .settled | .released => true
  | _ => false

inductive ReservationOp where
  | settle | release | finalizeSettlement | settlePartial
deriving DecidableEq

def ReservationOp.text : ReservationOp → GoString
  | .settle => lit "settle"
  | .release => lit "release"
  | .finalizeSettlement => lit "finalize_settlement"
  | .settlePartial => lit "settle_partial"

structure ReservationRow where
  id : Nat
  uid : Uuid
  accountHolder : Int
  currencyID : Nat
  reservedAmount : Int
  settledAmount : Int
  status : ReservationStatus
  journalID : Option Nat
  idempotencyKey : GoString
  expiresAt : Int
  createdAt : Int
deriving DecidableEq

structure ClaimAuth where
  digest : GoString
  signature : GoString
  keyID : GoString
deriving DecidableEq

structure LegRow where
  reservationID : Nat
  idempotencyKey : GoString
  amount : Int
  createdAt : Int
  auth : ClaimAuth
deriving DecidableEq

structure ReceiptRow where
  reservationID : Nat
  operation : ReservationOp
  idempotencyKey : GoString
  amount : Int
  createdAt : Int
  auth : ClaimAuth
deriving DecidableEq

structure ReserverTables where
  currencies : List CurrencyRow
  reservations : List ReservationRow
  legs : List LegRow
  receipts : List ReceiptRow

namespace ReserverTables

variable (t : ReserverTables)

def getReservationByUID (uid : Uuid) : Option ReservationRow := t.reservations.find? (·.uid == uid)

def getSettlementLegByIdempotencyKey (key : GoString) : Result (Option LegRow) := do
  textParam key
  return t.legs.find? (·.idempotencyKey == key)

def getReceiptByIdempotencyKey (key : GoString) : Result (Option ReceiptRow) := do
  textParam key
  return t.receipts.find? (·.idempotencyKey == key)

def updateReservation (id : Nat) (change : ReservationRow → ReservationRow) : ReserverTables :=
  { t with reservations := t.reservations.map fun r => if r.id = id then change r else r }

def currencyByUIDOrErr (uid : GoString) : Result CurrencyRow :=
  orError (t.currencies.find? (pgToUID ·.uid == uid)) ⟨.notFound, "postgres: currency %q"⟩

def currencyByIDOrErr (id : Nat) : Result CurrencyRow :=
  orError (t.currencies.find? (·.id == id)) ⟨.notFound, "postgres: currency id %d"⟩

def sumActiveReservations (holder : Int) (currencyID : Nat) : Int :=
  ((t.reservations.filter fun r => r.accountHolder == holder && r.currencyID == currencyID &&
    (r.status == .active || r.status == .settling)).map fun r =>
      if r.status = .active then r.reservedAmount else r.reservedAmount - r.settledAmount).sum

end ReserverTables

structure SettleInput where
  reservationUID : GoString
  amount : Decimal
  idempotencyKey : GoString
deriving DecidableEq

structure ReleaseInput where
  reservationUID : GoString
  idempotencyKey : GoString
deriving DecidableEq

def SettleInput.validate (op : String) (i : SettleInput) : Result Unit := do
  validateAmountMagnitude i.amount
  require (i.reservationUID ≠ []) ⟨.invalidInput, "core: " ++ op ++ ": reservation_uid required"⟩
  require i.amount.isPositive ⟨.invalidInput, "core: " ++ op ++ ": amount must be positive"⟩
  require (i.idempotencyKey ≠ []) ⟨.invalidInput, "core: " ++ op ++ ": idempotency key required"⟩

def ReleaseInput.validate (op : String) (i : ReleaseInput) : Result Unit := do
  require (i.reservationUID ≠ []) ⟨.invalidInput, "core: " ++ op ++ ": reservation_uid required"⟩
  require (i.idempotencyKey ≠ []) ⟨.invalidInput, "core: " ++ op ++ ": idempotency key required"⟩

/-- The clocks a call reads: Go's `time.Now()`, the server's `now()` at the start of the transaction
and its `clock_timestamp()`. -/
structure Clocks where
  app : Instant
  txStart : Instant
  server : Instant

def unixEpoch : Instant := 62135596800 * 1000000000

structure DischargeAuth where
  createdAt : Instant
  claim : ClaimAuth
deriving DecidableEq

def unsignedDischarge : DischargeAuth := ⟨unixEpoch, ⟨[], [], []⟩⟩

def recordedAt (now : Clocks) (auth : DischargeAuth) : Int :=
  if toMicros auth.createdAt = toMicros unixEpoch then toMicros now.txStart
    else toMicros auth.createdAt

def ensureReservationOperationReceiptMatches (receipt : ReceiptRow) (reservationID : Nat)
    (operation : ReservationOp)
    (amount : Decimal) : Result Unit := do
  require (receipt.reservationID = reservationID)
    ⟨.conflict, "postgres: %s: idempotency key %q already used for a different reservation"⟩
  require (receipt.operation = operation)
    ⟨.conflict, "postgres: %s: idempotency key %q already used for a different operation (%s)"⟩
  require ((numericToDecimal receipt.amount).equal amount)
    ⟨.conflict, "postgres: %s: idempotency key %q payload mismatch (recorded %s, got %s)"⟩

def ensureSettlementLegMatches (leg : LegRow) (reservationID : Nat) (amount : Decimal) :
    Result Unit := do
  require (leg.reservationID = reservationID)
    ⟨.conflict, "postgres: settle partial: idempotency key %q already used for a different reservation"⟩
  require ((numericToDecimal leg.amount).equal amount)
    ⟨.conflict, "postgres: settle partial: idempotency key %q payload mismatch (recorded %s, got %s)"⟩

def refuseExpiredSettlement (now : Clocks) (res : ReservationRow) : Result Unit :=
  require (toMicros now.server < res.expiresAt)
    ⟨.invalidTransition,
      "postgres: %s: reservation %q has expired and can no longer be settled (release it, or reserve again)"⟩

def recordReservationOperationReceipt (now : Clocks) (t : ReserverTables) (reservationID : Nat)
    (operation : ReservationOp)
    (amount : Decimal) (key : GoString) (auth : DischargeAuth) : Result ReserverTables := do
  let units ← within "postgres: %s: record receipt" (numericColumn amount)
  textParam auth.claim.keyID
  return { t with receipts := t.receipts ++
    [⟨reservationID, operation, key, units, recordedAt now auth, auth.claim⟩] }

def lockReservation (t : ReserverTables) (reservationUID : GoString) (missing : String) :
    Result ReservationRow := do
  let pgUID ← uidToPG reservationUID
  orError (t.getReservationByUID pgUID) ⟨.notFound, missing⟩

def settleWithQueries (now : Clocks) (t : ReserverTables) (input : SettleInput)
    (auth : DischargeAuth) : Result ReserverTables := do
  require input.amount.isPositive
    ⟨.invalidInput, "postgres: settle: actual amount must be positive, got %s"⟩
  let res ← lockReservation t input.reservationUID "postgres: settle: reservation %q"
  match ← within "postgres: settle: check idempotency"
    (t.getReceiptByIdempotencyKey input.idempotencyKey) with
  | some receipt => do
    ensureReservationOperationReceiptMatches receipt res.id .settle input.amount
    return t
  | none => do
    refuseExpiredSettlement now res
    require (res.status ≠ .settling)
      ⟨.invalidTransition,
        "postgres: settle: reservation %q is partially settled (status settling); use FinalizeSettlement, not Settle"⟩
    require (res.status.canTransitionTo .settled)
      ⟨.invalidTransition, "postgres: settle: from %q to settled"⟩
    let cur ← within "postgres: settle" (t.currencyByIDOrErr res.currencyID)
    within "postgres: settle" (checkAmountPrecision input.amount cur)
    require (!input.amount.greaterThan (numericToDecimal res.reservedAmount))
      ⟨.invalidInput, "postgres: settle: actual amount %s exceeds reserved amount %s"⟩
    let settled ← within "postgres: settle: update" (numericColumn input.amount)
    let t := t.updateReservation res.id fun r =>
      { r with status := .settled, settledAmount := settled, journalID := none }
    recordReservationOperationReceipt now t res.id .settle input.amount input.idempotencyKey auth

def settlePartialWithQueries (now : Clocks) (t : ReserverTables) (input : SettleInput)
    (auth : DischargeAuth) :
    Result ReserverTables := do
  require input.amount.isPositive
    ⟨.invalidInput, "postgres: settle partial: amount must be positive, got %s"⟩
  let res ← lockReservation t input.reservationUID "postgres: settle partial: reservation %q"
  match ← within "postgres: settle partial: check idempotency"
    (t.getSettlementLegByIdempotencyKey input.idempotencyKey) with
  | some leg => do
    ensureSettlementLegMatches leg res.id input.amount
    return t
  | none => do
    refuseExpiredSettlement now res
    let cur ← within "postgres: settle partial" (t.currencyByIDOrErr res.currencyID)
    within "postgres: settle partial" (checkAmountPrecision input.amount cur)
    require (res.status = .active ∨ res.status = .settling)
      ⟨.invalidTransition, "postgres: settle partial: from %q"⟩
    let newSettled := (numericToDecimal res.settledAmount).add input.amount
    require (!newSettled.greaterThan (numericToDecimal res.reservedAmount))
      ⟨.invalidInput, "postgres: settle partial: cumulative settled %s exceeds reserved %s"⟩
    let units ← within "postgres: settle partial: record leg" (numericColumn input.amount)
    textParam auth.claim.keyID
    let leg : LegRow := ⟨res.id, input.idempotencyKey, units, recordedAt now auth, auth.claim⟩
    let t : ReserverTables := { t with legs := t.legs ++ [leg] }
    return t.updateReservation res.id fun r =>
      { r with status := .settling, settledAmount := r.settledAmount + units }

def finalizeSettlementWithQueries (now : Clocks) (t : ReserverTables) (input : ReleaseInput)
    (auth : DischargeAuth) :
    Result ReserverTables := do
  let res ← lockReservation t input.reservationUID "postgres: finalize settlement: reservation %q"
  match ← within "postgres: finalize settlement: check idempotency"
    (t.getReceiptByIdempotencyKey input.idempotencyKey) with
  | some receipt => do
    ensureReservationOperationReceiptMatches receipt res.id .finalizeSettlement .zero
    return t
  | none => do
    require (res.status = .settling)
      ⟨.invalidTransition,
        "postgres: finalize settlement: reservation %q has status %q, not settling (use Settle for a one-shot settlement that never called SettlePartial)"⟩
    let t := t.updateReservation res.id fun r => { r with status := .settled }
    recordReservationOperationReceipt now t res.id .finalizeSettlement .zero input.idempotencyKey auth

def releaseWithQueries (now : Clocks) (t : ReserverTables) (input : ReleaseInput)
    (auth : DischargeAuth) : Result ReserverTables := do
  let res ← lockReservation t input.reservationUID "postgres: release: reservation %q"
  match ← within "postgres: release: check idempotency"
    (t.getReceiptByIdempotencyKey input.idempotencyKey) with
  | some receipt => do
    ensureReservationOperationReceiptMatches receipt res.id .release .zero
    return t
  | none => do
    require (res.status.canTransitionTo .released)
      ⟨.invalidTransition, "postgres: release: from %q to released"⟩
    let t := t.updateReservation res.id fun r => { r with status := .released }
    recordReservationOperationReceipt now t res.id .release .zero input.idempotencyKey auth

def heldAmount (t : ReserverTables) (holder : Int) (currencyUID : GoString) : Result Decimal := do
  let cur ← t.currencyByUIDOrErr currencyUID
  return numericToDecimal (t.sumActiveReservations holder cur.id)

structure DischargeIntent where
  reservationUID : GoString
  operation : ReservationOp
  amount : Decimal
  idempotencyKey : GoString
  recordedAt : Instant

structure DischargePayload where
  reservationUID : GoString
  operation : GoString
  idempotencyKey : GoString
  recordedAt : Int
  amount : Int
deriving DecidableEq

def canonicalDischargeDigest (hash : DischargePayload → GoString) (intent : DischargeIntent) :
    Result GoString := do
  let amount ← within "core: canonical reservation discharge digest" (encodeAmount intent.amount)
  return hash ⟨intent.reservationUID, intent.operation.text, intent.idempotencyKey,
    toMicros intent.recordedAt, amount⟩

def dischargeClaimExists (t : ReserverTables) (operation : ReservationOp)
    (key : GoString) : Result Bool :=
  within "postgres: %s: check idempotency before signing"
    (if operation = .settlePartial then (t.getSettlementLegByIdempotencyKey key).map Option.isSome
    else (t.getReceiptByIdempotencyKey key).map Option.isSome)

def attestDischarge (hash : DischargePayload → GoString) (mode : Mode) (now : Clocks)
    (t : ReserverTables)
    (operation : ReservationOp) (reservationUID : GoString) (amount : Decimal) (key : GoString) :
    Result DischargeAuth :=
  match mode with
  | .tx => .ok unsignedDischarge
  | .pool none => .ok unsignedDischarge
  | .pool (some sign) => do
    if ← dischargeClaimExists t operation key then return unsignedDischarge
    else
      let digest ← within "postgres: %s: canonical discharge digest"
        (canonicalDischargeDigest hash ⟨reservationUID, operation, amount, key, now.app⟩)
      match sign digest with
      | .ok (signature, keyID) => return ⟨now.app, ⟨digest, signature, keyID⟩⟩
      | .error _ => .error ⟨.attestorUnavailable, "postgres: %s: attestor sign"⟩

def settle (hash : DischargePayload → GoString) (mode : Mode) (now : Clocks) (t : ReserverTables)
    (input : SettleInput) :
    Result ReserverTables := do
  input.validate "settle"
  let auth ← attestDischarge hash mode now t .settle input.reservationUID input.amount
    input.idempotencyKey
  settleWithQueries now t input auth

def settlePartial (hash : DischargePayload → GoString) (mode : Mode) (now : Clocks)
    (t : ReserverTables)
    (input : SettleInput) : Result ReserverTables := do
  input.validate "settle partial"
  let auth ← attestDischarge hash mode now t .settlePartial input.reservationUID input.amount
    input.idempotencyKey
  settlePartialWithQueries now t input auth

def finalizeSettlement (hash : DischargePayload → GoString) (mode : Mode) (now : Clocks)
    (t : ReserverTables)
    (input : ReleaseInput) : Result ReserverTables := do
  input.validate "finalize settlement"
  let auth ← attestDischarge hash mode now t .finalizeSettlement input.reservationUID .zero
    input.idempotencyKey
  finalizeSettlementWithQueries now t input auth

def release (hash : DischargePayload → GoString) (mode : Mode) (now : Clocks) (t : ReserverTables)
    (input : ReleaseInput) :
    Result ReserverTables := do
  input.validate "release"
  let auth ← attestDischarge hash mode now t .release input.reservationUID .zero
    input.idempotencyKey
  releaseWithQueries now t input auth

end Ledger.Postgres
