import Ledger.Shared.Decimal

namespace Ledger.Shared

def ofUnits (scale : Nat) (units : Int) : Decimal := ⟨units, -(scale : Int)⟩

def toUnits (scale : Nat) (d : Decimal) : Int :=
  if -(scale : Int) ≤ d.exp then d.coeff * 10 ^ (d.exp + scale).toNat
  else
    let unit : Nat := 10 ^ (-(scale : Int) - d.exp).toNat
    d.coeff.sign * ((2 * d.coeff.natAbs + unit) / (2 * unit) : Nat)

def fitsUnits (precision : Nat) (units : Int) : Bool := units.natAbs < 10 ^ precision

theorem ofUnits_val (scale : Nat) (units : Int) : (ofUnits scale units).val =
    units / (10 : ℚ) ^ scale := by
  simp [Decimal.val, ofUnits, div_eq_mul_inv]

variable {scale : Nat} {d : Decimal}

theorem toUnits_val_of_fine (fine : -(scale : Int) ≤ d.exp) :
    (toUnits scale d : ℚ) = d.val * (10 : ℚ) ^ scale := by
  simp only [toUnits, fine, if_true, Decimal.val]
  push_cast
  rw [mul_assoc, ← zpow_natCast, ← zpow_natCast, ← zpow_add₀ (by norm_num : (10 : ℚ) ≠ 0)]
  congr 2
  omega

theorem toUnits_of_val {units : Int} (exact_ : d.val = units / (10 : ℚ) ^ scale) :
    toUnits scale d = units := by
  have nonzero : (10 : ℚ) ^ scale ≠ 0 := by positivity
  by_cases fine : -(scale : Int) ≤ d.exp
  · have value := toUnits_val_of_fine fine
    rw [exact_, div_mul_cancel₀ _ nonzero] at value
    exact_mod_cast value
  · -- The coefficient is the number of units times the power of ten that is cut off.
    have whole : d.coeff = units * (10 ^ (-(scale : Int) - d.exp).toNat : Nat) := by
      have value : (d.coeff : ℚ) * (10 : ℚ) ^ d.exp = units / (10 : ℚ) ^ scale := exact_
      have split : (10 : ℚ) ^ (-(scale : Int) - d.exp).toNat * (10 : ℚ) ^ d.exp * (10 : ℚ) ^ scale = 1 := by
        rw [← zpow_natCast, ← zpow_natCast, ← zpow_add₀ (by norm_num), ← zpow_add₀ (by norm_num)]
        have : ((-(scale : Int) - d.exp).toNat : Int) + d.exp + scale = 0 := by omega
        rw [this, zpow_zero]
      rw [eq_div_iff nonzero] at value
      have scaled : (d.coeff : ℚ) = units * (10 : ℚ) ^ (-(scale : Int) - d.exp).toNat := by
        rw [← value]
        calc (d.coeff : ℚ) = d.coeff * 1 := by ring
          _ = _ := by rw [← split]; ring
      exact_mod_cast scaled
    simp only [toUnits, fine, if_false]
    generalize unitEq : 10 ^ (-(scale : Int) - d.exp).toNat = unit at whole
    have positive : 0 < unit := by rw [← unitEq]; positivity
    rw [whole, Int.natAbs_mul, Int.natAbs_natCast, Int.sign_mul, Int.sign_natCast_of_ne_zero (by omega),
      mul_one]
    have quotient : (2 * (units.natAbs * unit) + unit) / (2 * unit) = units.natAbs := by
      have regroup : units.natAbs * (2 * unit) = 2 * (units.natAbs * unit) := by ring
      rw [Nat.div_eq_iff (by omega)]
      constructor <;> omega
    rw [quotient, Int.sign_mul_natAbs]

theorem toUnits_ofUnits (scale : Nat) (units : Int) : toUnits scale (ofUnits scale units) = units :=
  toUnits_of_val (ofUnits_val scale units)

end Ledger.Shared
