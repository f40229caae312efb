import Ledger.Core.Amount

namespace Ledger.Core

open Shared

def validateMoneyExponent (exponent minExponent : Int) : Result Unit :=
  require (minExponent ≤ exponent ∧ exponent ≤ maxAmountWorkingFractionalDigits)
    ⟨.invalidInput, "core: %s: target exponent %d must be in [%d, %d]"⟩

def roundHalfUp (d : Decimal) (exponent : Int) : Result Decimal := do
  validateMoneyExponent exponent (-maxAmountWorkingFractionalDigits)
  validateAmountIsRescalable d
  return d.round exponent

structure Allocation where
  idx : Nat
  floor : Int
  remainder : ℚ
deriving DecidableEq

def allocation (absUnits : Int) (totalWeight : ℚ) (idx : Nat) (w : Decimal) : Allocation :=
  let idealUnits : ℚ := absUnits * w.val / totalWeight
  ⟨idx, idealUnits.floor, idealUnits - idealUnits.floor⟩

def allocations (absUnits : Int) (weights : List Decimal) : List Allocation :=
  let totalWeight := (weights.foldl Decimal.add .zero).val
  weights.zipIdx.map fun (w, i) => allocation absUnits totalWeight i w

def allocationOrder (a b : Allocation) : Prop := b.remainder < a.remainder ∨ a.remainder =
    b.remainder ∧ a.idx ≤ b.idx

instance (a b : Allocation) : Decidable (allocationOrder a b) := inferInstanceAs
    (Decidable (_ ∨ _ ∧ _))

def allocateUnits (absUnits : Int) (weights : List Decimal) : List Int :=
  let allocations := allocations absUnits weights
  let leftover := absUnits - (allocations.map (·.floor)).sum
  let raised := ((allocations.insertionSort allocationOrder).take leftover.toNat).map (·.idx)
  allocations.map fun a => if a.idx ∈ raised then a.floor + 1 else a.floor

def allocate (total : Decimal) (weights : List Decimal) (exponent : Int) :
    Result (List Decimal) := do
  require (weights ≠ []) ⟨.invalidInput, "core: allocate: weights must not be empty"⟩
  validateMoneyExponent exponent 0
  validateAmountIsRescalable total
  require (total.equal (total.truncate exponent))
    ⟨.invalidInput, "core: allocate: total %s has more than %d decimal place(s)"⟩
  checkAll (fun w => do
    validateAmountIsRescalable w
    require (!w.isNegative) ⟨.invalidInput, "core: allocate: weight[%d] must not be negative"⟩) weights
  require (weights.foldl Decimal.add .zero).isPositive
    ⟨.invalidInput, "core: allocate: weights must not all be zero"⟩
  let units := allocateUnits (total.abs.shift exponent).bigInt weights
  return units.map fun n => if total.isNegative then ⟨-n, -exponent⟩ else ⟨n, -exponent⟩

end Ledger.Core
