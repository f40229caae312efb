import Mathlib.Tactic

namespace Ledger.Shared

structure Decimal where
  coeff : Int
  exp : Int
deriving DecidableEq

namespace Decimal

def val (d : Decimal) : ℚ := d.coeff * (10 : ℚ) ^ d.exp

def zero : Decimal := ⟨0, 0⟩

def rescale (d : Decimal) (exp : Int) : Decimal :=
  if d.exp ≤ exp then ⟨d.coeff.tdiv (10 ^ (exp - d.exp).toNat), exp⟩
  else ⟨d.coeff * 10 ^ (d.exp - exp).toNat, exp⟩

def add (d e : Decimal) : Decimal :=
  let exp := min d.exp e.exp
  ⟨(d.rescale exp).coeff + (e.rescale exp).coeff, exp⟩

def neg (d : Decimal) : Decimal := ⟨-d.coeff, d.exp⟩

def sub (d e : Decimal) : Decimal := d.add e.neg

def isZero (d : Decimal) : Bool := d.coeff == 0

def isPositive (d : Decimal) : Bool := 0 < d.coeff

def isNegative (d : Decimal) : Bool := d.coeff < 0

def mul (d e : Decimal) : Decimal := ⟨d.coeff * e.coeff, d.exp + e.exp⟩

def abs (d : Decimal) : Decimal := ⟨d.coeff.natAbs, d.exp⟩

def shift (d : Decimal) (places : Int) : Decimal := ⟨d.coeff, d.exp + places⟩

def bigInt (d : Decimal) : Int := (d.rescale 0).coeff

def equal (d e : Decimal) : Bool := (d.rescale (min d.exp e.exp)).coeff ==
    (e.rescale (min d.exp e.exp)).coeff

def greaterThan (d e : Decimal) : Bool := (e.rescale (min d.exp e.exp)).coeff <
    (d.rescale (min d.exp e.exp)).coeff

def truncate (d : Decimal) (places : Int) : Decimal :=
  if 0 ≤ places ∧ d.exp < -places then d.rescale (-places) else d

def round (d : Decimal) (places : Int) : Decimal :=
  if d.exp = -places then d
  else
    let ret := d.rescale (-places - 1)
    ⟨if ret.coeff < 0 then (ret.coeff - 5).tdiv 10 else (ret.coeff + 5).tdiv 10, -places⟩

/-- The quotient cut off at `places` digits, then one unit away from zero when twice the remainder
reaches the divisor. -/
def divRound (d e : Decimal) (places : Int) : Decimal :=
  let shift := d.exp - e.exp + places
  let a := if shift < 0 then d.coeff else d.coeff * 10 ^ shift.toNat
  let b := if shift < 0 then e.coeff * 10 ^ (-shift).toNat else e.coeff
  let q : Decimal := ⟨a.tdiv b, -places⟩
  if 2 * (a.tmod b).natAbs < b.natAbs then q
  else if d.coeff.sign * e.coeff.sign < 0 then q.sub ⟨1, -places⟩
  else q.add ⟨1, -places⟩

def stripZeros : Nat → Int → Int → Decimal
  | 0, coeff, exp => ⟨coeff, exp⟩
  | fuel + 1, coeff, exp =>
    if coeff % 10 = 0 then stripZeros fuel (coeff / 10) (exp + 1) else ⟨coeff, exp⟩

def reduced (d : Decimal) : Decimal := if d.coeff = 0 then zero
    else stripZeros d.coeff.natAbs d.coeff d.exp

@[simp] theorem val_zero : zero.val = 0 := by simp [val, zero]

@[simp] theorem val_neg (d : Decimal) : d.neg.val = -d.val := by
  simp [val, neg]

variable {d e : Decimal}

theorem rescale_coeff_of_le {exp : Int} (le : exp ≤ d.exp) :
    (d.rescale exp).coeff = d.coeff * 10 ^ (d.exp - exp).toNat := by
  unfold rescale
  split
  · have same : d.exp = exp := by omega
    simp [same]
  · rfl

theorem rescale_val_of_le {exp : Int} (le : exp ≤ d.exp) :
    ((d.rescale exp).coeff : ℚ) * (10 : ℚ) ^ exp = d.val := by
  rw [rescale_coeff_of_le le, val]
  push_cast
  rw [mul_assoc, ← zpow_natCast, ← zpow_add₀ (by norm_num)]
  congr 2
  omega

@[simp] theorem val_add (d e : Decimal) : (d.add e).val = d.val + e.val := by
  change (((d.rescale (min d.exp e.exp)).coeff + (e.rescale (min d.exp e.exp)).coeff : Int) : ℚ) *
    (10 : ℚ) ^ (min d.exp e.exp) = _
  push_cast
  rw [add_mul, rescale_val_of_le (min_le_left _ _), rescale_val_of_le (min_le_right _ _)]

theorem foldl_add_val (l : List Decimal) (d : Decimal) : (l.foldl add d).val = d.val +
    (l.map val).sum := by
  induction l generalizing d with
  | nil => simp
  | cons e rest ih => simp [ih, add_assoc]

@[simp] theorem val_sub (d e : Decimal) : (d.sub e).val = d.val - e.val := by
  rw [sub, val_add, val_neg, sub_eq_add_neg]

theorem isPositive_iff : d.isPositive = true ↔ 0 < d.val := by
  have power : (0 : ℚ) < 10 ^ d.exp := by positivity
  simp [isPositive, val, mul_pos_iff_of_pos_right power]

theorem isNegative_iff : d.isNegative = true ↔ d.val < 0 := by
  have pos : (0 : ℚ) < 10 ^ d.exp := by positivity
  rw [isNegative, decide_eq_true_eq, val, mul_neg_iff]
  constructor
  · intro negative
    exact .inr ⟨by exact_mod_cast negative, pos⟩
  · rintro (⟨-, impossible⟩ | ⟨negative, -⟩)
    · exact absurd impossible (not_lt.mpr pos.le)
    · exact_mod_cast negative

theorem equal_iff : d.equal e = true ↔ d.val = e.val := by
  have power : (10 : ℚ) ^ min d.exp e.exp ≠ 0 := by positivity
  rw [equal, beq_iff_eq, ← rescale_val_of_le (min_le_left d.exp e.exp), ← rescale_val_of_le
    (min_le_right d.exp e.exp)]
  constructor
  · intro same
    rw [same]
  · intro same
    exact_mod_cast mul_right_cancel₀ power same

theorem greaterThan_iff : d.greaterThan e = true ↔ e.val < d.val := by
  have power : (0 : ℚ) < 10 ^ min d.exp e.exp := by positivity
  rw [greaterThan, decide_eq_true_iff, ← rescale_val_of_le (min_le_left d.exp e.exp),
    ← rescale_val_of_le (min_le_right d.exp e.exp), mul_lt_mul_iff_left₀ power]
  exact_mod_cast Iff.rfl

theorem stripZeros_spec {fuel : Nat} {coeff exp : Int} (nonzero : coeff ≠ 0)
    (enough : coeff.natAbs ≤ fuel) :
    (stripZeros fuel coeff exp).val = (⟨coeff, exp⟩ : Decimal).val ∧
    ¬ (10 : Int) ∣ (stripZeros fuel coeff exp).coeff := by
  induction fuel generalizing coeff exp with
  | zero => omega
  | succ fuel ih =>
    unfold stripZeros
    split
    · next divides =>
      obtain ⟨val, last⟩ := @ih (coeff / 10) (exp + 1) (by omega) (by omega)
      refine ⟨?_, last⟩
      have whole : coeff = 10 * (coeff / 10) := by omega
      rw [val]
      conv_rhs => rw [whole]
      simp only [Decimal.val]
      push_cast
      rw [zpow_add_one₀ (by norm_num : (10 : ℚ) ≠ 0)]
      ring
    · next odd => exact ⟨rfl, fun divides => odd (Int.emod_eq_zero_of_dvd divides)⟩

theorem eq_of_val_of_not_dvd (same : d.val = e.val) (hd : ¬ (10 : Int) ∣ d.coeff)
    (he : ¬ (10 : Int) ∣ e.coeff) : d = e := by
  have exponents (d e : Decimal) (same : d.val = e.val) (hd : ¬ (10 : Int) ∣ d.coeff) :
    e.exp ≤ d.exp := by
    by_contra less
    apply hd
    have scaled := rescale_val_of_le (show d.exp ≤ e.exp by omega)
    rw [← same, val] at scaled
    have coeffs : (e.rescale d.exp).coeff = d.coeff := by
      exact_mod_cast mul_right_cancel₀ (by positivity : (10 : ℚ) ^ d.exp ≠ 0) scaled
    rw [← coeffs, rescale_coeff_of_le (by omega)]
    exact Dvd.dvd.mul_left (dvd_pow_self _ (by omega)) _
  have exp : d.exp = e.exp := le_antisymm (exponents e d same.symm he) (exponents d e same hd)
  have coeff : d.coeff = e.coeff := by
    rw [val, val, exp] at same
    exact_mod_cast mul_right_cancel₀ (by positivity : (10 : ℚ) ^ e.exp ≠ 0) same
  cases d
  cases e
  simp only at exp coeff
  rw [exp, coeff]

theorem val_eq_zero_iff : d.val = 0 ↔ d.coeff = 0 := by
  have power : (10 : ℚ) ^ d.exp ≠ 0 := by positivity
  simp [val, power]

theorem reduced_eq_iff : d.reduced = e.reduced ↔ d.val = e.val := by
  have value (d : Decimal) : d.reduced.val = d.val := by
    unfold reduced
    split
    · next zero_ => rw [val_zero, eq_comm, val_eq_zero_iff.mpr zero_]
    · next nonzero => exact (stripZeros_spec nonzero le_rfl).1
  refine ⟨fun same => by rw [← value d, ← value e, same], fun same => ?_⟩
  by_cases hd : d.coeff = 0
  · have he : e.coeff = 0 := val_eq_zero_iff.mp (same ▸ val_eq_zero_iff.mpr hd)
    simp [reduced, hd, he]
  · have he : e.coeff ≠ 0 := fun zero_ => hd (val_eq_zero_iff.mp (same ▸ val_eq_zero_iff.mpr zero_))
    apply eq_of_val_of_not_dvd
    · rw [value, value, same]
    · simpa [reduced, hd] using (stripZeros_spec hd le_rfl).2
    · simpa [reduced, he] using (stripZeros_spec he le_rfl).2

end Decimal

def decimalMin (first item : Decimal) : Decimal := if first.greaterThan item then item else first

theorem decimalMin_val (d e : Decimal) : (decimalMin d e).val = min d.val e.val := by
  unfold decimalMin
  split
  · next greater => exact (min_eq_right (Decimal.greaterThan_iff.mp greater).le).symm
  · next not => exact (min_eq_left (not_lt.mp (mt Decimal.greaterThan_iff.mpr not))).symm

end Ledger.Shared
