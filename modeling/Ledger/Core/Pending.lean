import Ledger.Core.Journal

namespace Ledger.Core

open Shared

structure PendingInput where
  accountHolder : Int
  currencyUID : GoString
  amount : Decimal
  idempotencyKey : GoString
  actorID : Int
  source : GoString
  metadata : Metadata
deriving DecidableEq

def PendingInput.validateFor (operation : String) (i : PendingInput) : Result Unit := do
  validateAmountMagnitude i.amount
  validateFreeformFields i.source i.metadata
  require (i.accountHolder ≠ 0) ⟨.invalidInput, operation ++ ": account_holder required"⟩
  require (i.currencyUID ≠ []) ⟨.invalidInput, operation ++ ": currency_uid required"⟩
  require i.amount.isPositive ⟨.invalidInput, operation ++ ": amount must be positive"⟩
  require (i.idempotencyKey ≠ []) ⟨.invalidInput, operation ++ ": idempotency_key required"⟩

structure AddPendingInput extends PendingInput
deriving DecidableEq

structure ConfirmPendingInput extends PendingInput
deriving DecidableEq

structure CancelPendingInput extends PendingInput where
  reason : GoString
deriving DecidableEq

def AddPendingInput.validate (i : AddPendingInput) : Result Unit := i.validateFor "pending: add"

def ConfirmPendingInput.validate (i : ConfirmPendingInput) : Result Unit :=
  i.validateFor "pending: confirm"

def CancelPendingInput.validate (i : CancelPendingInput) : Result Unit :=
  i.validateFor "pending: cancel"

theorem PendingInput.validateFor_ok {operation : String} {i : PendingInput}
    (ok : i.validateFor operation = .ok ()) :
    0 < i.amount.val ∧ (toUnits 18 i.amount : ℚ) = i.amount.val * 10 ^ 18 := by
  simp only [PendingInput.validateFor, bind_eq_ok, require_eq_ok, Decimal.isPositive_iff] at ok
  obtain ⟨_, magnitude, _, -, _, -, _, -, _, positive, -⟩ := ok
  exact ⟨positive, validateAmountMagnitude_units magnitude⟩

end Ledger.Core
