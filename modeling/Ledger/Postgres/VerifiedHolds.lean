import Ledger.Postgres.ReservationRuns

namespace Ledger.Postgres

open Core Shared

abbrev AuthVerifier := GoString → GoString → GoString → Result Unit

/-- A row of either claim table as the gate reads it, joined to its reservation's uid. -/
structure Claim where
  reservationID : Nat
  reservationUID : Uuid
  operation : ReservationOp
  amount : Int
  idempotencyKey : GoString
  createdAt : Int
  auth : ClaimAuth
deriving DecidableEq

def Claim.intent (c : Claim) : DischargeIntent :=
  ⟨pgToUID c.reservationUID, c.operation, numericToDecimal c.amount,
    c.idempotencyKey, c.createdAt * 1000⟩

def verifyReservationDischargeAuth (hash : DischargePayload → GoString)
    (verifier : Option AuthVerifier)
    (intent : DischargeIntent) (auth : ClaimAuth) : Result Unit := do
  let verify ← orError verifier
    ⟨.other, "core: verify reservation discharge auth: no auth verifier configured"⟩
  require (auth.digest ≠ [])
    ⟨.other, "core: verify reservation discharge auth: claim %q has no stored digest"⟩
  let recomputed ← within "core: verify reservation discharge auth: recompute digest"
    (canonicalDischargeDigest hash intent)
  require (recomputed = auth.digest)
    ⟨.other, "core: verify reservation discharge auth: claim %q stored digest does not match recomputed digest"⟩
  require (auth.signature ≠ [] ∧ auth.keyID ≠ [])
    ⟨.other, "core: verify reservation discharge auth: claim %q has no signature"⟩
  within "core: verify reservation discharge auth: claim %q signature invalid"
    (verify recomputed auth.signature auth.keyID)

def Claim.verifies (hash : DischargePayload → GoString)
    (verify : AuthVerifier) (c : Claim) : Bool :=
  (verifyReservationDischargeAuth hash (some verify) c.intent c.auth).isOk

namespace ReserverTables

variable (t : ReserverTables)

def listUnexpiredReservationHolds (now : Int) (holder : Int) (currencyID : Nat) :
    List ReservationRow :=
  (t.reservations.filter fun r => r.accountHolder == holder && r.currencyID == currencyID && decide
    (now < r.expiresAt)).insertionSort
    (·.id ≤ ·.id)

def uidOf (reservationID : Nat) : Option Uuid :=
  (t.reservations.find? (·.id == reservationID)).map (·.uid)

def receiptClaim (o : ReceiptRow) : Option Claim :=
  (t.uidOf o.reservationID).map fun uid =>
    ⟨o.reservationID, uid, o.operation, o.amount, o.idempotencyKey, o.createdAt, o.auth⟩

def legClaim (l : LegRow) : Option Claim :=
  (t.uidOf l.reservationID).map fun uid =>
    ⟨l.reservationID, uid, .settlePartial, l.amount, l.idempotencyKey, l.createdAt, l.auth⟩

def listOperationReceipts (ids : List Nat) : List Claim :=
  (t.receipts.filter (ids.contains ·.reservationID)).filterMap t.receiptClaim

def listSettlementLegs (ids : List Nat) : List Claim :=
  (t.legs.filter (ids.contains ·.reservationID)).filterMap t.legClaim

end ReserverTables

section

variable (hash : DischargePayload → GoString) (verify : AuthVerifier)

def dischargeOf (receipts legs : List Claim) (r : ReservationRow) : Decimal :=
  -- One claim that does not verify disqualifies the whole reservation.
  if (receipts ++ legs).any (fun c => c.reservationID == r.id && !c.verifies hash verify) then .zero
  else if receipts.any (fun c => c.reservationID == r.id && c.verifies hash verify) then
    numericToDecimal r.reservedAmount
  else decimalMin (sumDecimals
    ((legs.filter fun c => c.reservationID == r.id && c.verifies hash verify).map
    (numericToDecimal ·.amount))) (numericToDecimal r.reservedAmount)

def verifiedDischarges (t : ReserverTables) (now : Int) (holder : Int) (currencyID : Nat) :
    List (Nat × Decimal) :=
  let reservations := t.listUnexpiredReservationHolds now holder currencyID
  let ids := reservations.map (·.id)
  reservations.map fun r =>
    (r.id, dischargeOf hash verify (t.listOperationReceipts ids) (t.listSettlementLegs ids) r)

end

def dischargeFor (discharges : List (Nat × Decimal)) (id : Nat) : Decimal :=
  ((discharges.find? (·.1 == id)).map (·.2)).getD .zero

def holdNetOf (discharges : List (Nat × Decimal)) (r : ReservationRow) : Decimal :=
  let outstanding := (numericToDecimal r.reservedAmount).sub (dischargeFor discharges r.id)
  if outstanding.isNegative then .zero else outstanding

def sumHoldsNetOfVerifiedDischarge (t : ReserverTables) (now : Int)
    (holder : Int) (currencyID : Nat)
    (discharges : List (Nat × Decimal)) : Decimal :=
  sumDecimals ((t.listUnexpiredReservationHolds now holder currencyID).map (holdNetOf discharges))

def sumHoldsIgnoringDischarge (t : ReserverTables) (now : Int) (holder : Int)
    (currencyID : Nat) : Decimal :=
  numericToDecimal ((t.listUnexpiredReservationHolds now holder currencyID).map
    (·.reservedAmount)).sum

/-- The hold a gated `Reserve` takes: with both halves of signing configured, net of the discharges
verified before the transaction (at `before`, when the clock read `then_`). -/
def gatedHold (hash : DischargePayload → GoString) (attestor : Option Attestor)
    (verifier : Option AuthVerifier)
    (before : ReserverTables) (then_ : Int) (t : ReserverTables) (now : Int) (holder : Int)
    (currencyID : Nat) : Decimal :=
  match attestor, verifier with
  | some _, some verify =>
    sumHoldsNetOfVerifiedDischarge t now holder currencyID
      (verifiedDischarges hash verify before then_ holder currencyID)
  | _, _ => sumHoldsIgnoringDischarge t now holder currencyID

end Ledger.Postgres
