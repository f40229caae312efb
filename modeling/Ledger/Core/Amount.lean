import Ledger.Core.Types
import Ledger.Shared.Numeric

namespace Ledger.Core

open Shared

def sign (normalSide : NormalSide) (entryType : EntryType) : Result Int :=
  match normalSide, entryType with
  | .unknown _, _ => .error ⟨.invalidInput, "core: unknown normal_side %q"⟩
  | _, .unknown _ => .error ⟨.invalidInput, "core: unknown entry_type %q"⟩
  | .debit, .debit => .ok 1
  | .credit, .credit => .ok 1
  | .debit, .credit => .ok (-1)
  | .credit, .debit => .ok (-1)

def signedAmount (normalSide : NormalSide) (entryType : EntryType) (amount : Decimal) :
    Result Decimal := do
  let s ← sign normalSide entryType
  if s < 0 then return amount.neg
  return amount

def maxAmountIntegerDigits : Int := 30 - 18
def maxAmountFractionalDigits : Int := 18
def maxAmountWorkingFractionalDigits : Int := 2 * maxAmountFractionalDigits

def numDigits (coeff : Int) : Int := Nat.log 10 coeff.natAbs + 1

def validateAmountDigits (fractionalDigits : Int) (fractionalText : String)
    (amount : Decimal) : Result Unit :=
  if 0 < amount.exp ∧ maxAmountIntegerDigits < amount.exp then
    .error ⟨.invalidInput,
      "core: %s: %s has an exponent of %d, and this ledger stores NUMERIC(30,18) -- at most %d integer digits"⟩
  else if amount.exp < -fractionalDigits then .error ⟨.invalidInput, fractionalText⟩
  else if maxAmountIntegerDigits < numDigits amount.coeff + amount.exp then
    .error ⟨.invalidInput,
      "core: %s: %s needs %d integer digits, and this ledger stores NUMERIC(30,18) -- at most %d"⟩
  else .ok ()

def validateAmountIsRescalable : Decimal → Result Unit :=
  validateAmountDigits maxAmountWorkingFractionalDigits
    "core: %s: %s has %d fractional digits, which is beyond the %d this ledger will compute on (NUMERIC(30,18) stores %d; the rest is working precision)"

def validateAmountMagnitude : Decimal → Result Unit :=
  validateAmountDigits maxAmountFractionalDigits
    "core: %s: %s has %d fractional digits, and this ledger stores NUMERIC(30,18) -- at most %d"

def delta (normalSide : NormalSide) (debitSum creditSum : Decimal) : Result Decimal := do
  validateAmountIsRescalable debitSum
  validateAmountIsRescalable creditSum
  let debitPart ← signedAmount normalSide .debit debitSum
  let creditPart ← signedAmount normalSide .credit creditSum
  return debitPart.add creditPart

def ledgerSignedAmount (normalSide entryType : Side) (amount : Int) :
    Int := Side.signed normalSide entryType amount

theorem Side.signed_div (normalSide entryType : Side) (amount : Int) (d : ℚ) :
    Side.signed normalSide entryType ((amount : ℚ) / d) =
    (ledgerSignedAmount normalSide entryType amount : ℚ) / d := by
  unfold ledgerSignedAmount Side.signed
  split
  · rfl
  · push_cast
    ring

theorem ledgerSignedAmount_add (normalSide entryType : Side) (a b : Int) :
    ledgerSignedAmount normalSide entryType (a + b) =
      ledgerSignedAmount normalSide entryType a + ledgerSignedAmount normalSide entryType b := by
  unfold ledgerSignedAmount Side.signed
  split <;> omega

@[simp] theorem ledgerSignedAmount_zero (normalSide entryType : Side) :
    ledgerSignedAmount normalSide entryType 0 = 0 := by
  simp [ledgerSignedAmount, Side.signed]

theorem signedAmount_side (normalSide entryType : Side) (amount : Decimal) :
    ∃ r, signedAmount normalSide.normalSide entryType.entryType amount = .ok r ∧
      r.val = Side.signed normalSide entryType amount.val := by
  cases normalSide <;> cases entryType <;>
    simp [signedAmount, sign, Side.normalSide, Side.entryType, Side.signed, bind,
      Except.bind, pure, Except.pure]

theorem signedAmount_unknown (text : GoString) (entryType : EntryType) (amount : Decimal) :
    signedAmount (.unknown text) entryType amount =
    .error ⟨.invalidInput, "core: unknown normal_side %q"⟩ := by
  simp [signedAmount, sign, bind, Except.bind]

theorem NormalSide.cases_side (normalSide : NormalSide) :
    (∃ side : Side, normalSide = side.normalSide) ∨ ∃ text, normalSide = .unknown text := by
  cases normalSide with
  | debit => exact .inl ⟨.debit, rfl⟩
  | credit => exact .inl ⟨.credit, rfl⟩
  | unknown text => exact .inr ⟨text, rfl⟩

variable {debitSum creditSum : Decimal}

theorem delta_side (normalSide : Side) (debitOk : validateAmountIsRescalable debitSum = .ok ())
    (creditOk : validateAmountIsRescalable creditSum = .ok ()) :
    ∃ r, delta normalSide.normalSide debitSum creditSum = .ok r ∧
      r.val = Side.signed normalSide .debit debitSum.val +
      Side.signed normalSide .credit creditSum.val := by
  obtain ⟨debitPart, debitEq, debitVal⟩ := signedAmount_side normalSide .debit debitSum
  obtain ⟨creditPart, creditEq, creditVal⟩ := signedAmount_side normalSide .credit creditSum
  refine ⟨debitPart.add creditPart, ?_, by rw [Decimal.val_add, debitVal, creditVal]⟩
  simp only [Side.entryType] at debitEq creditEq
  simp [delta, debitOk, creditOk, debitEq, creditEq, bind, Except.bind, pure, Except.pure]

theorem delta_ok {normalSide : NormalSide} {r : Decimal}
    (ok : delta normalSide debitSum creditSum = .ok r) :
    ∃ side : Side, normalSide = side.normalSide ∧
      r.val = Side.signed side .debit debitSum.val + Side.signed side .credit creditSum.val := by
  cases debitOk : validateAmountIsRescalable debitSum with
  | error e => simp [delta, debitOk, bind, Except.bind] at ok
  | ok u =>
    cases creditOk : validateAmountIsRescalable creditSum with
    | error e => simp [delta, debitOk, creditOk, bind, Except.bind] at ok
    | ok v =>
      rcases normalSide.cases_side with ⟨side, rfl⟩ | ⟨text, rfl⟩
      · obtain ⟨r', same, value⟩ := delta_side side debitOk creditOk
        rw [same, Except.ok.injEq] at ok
        exact ⟨side, rfl, ok ▸ value⟩
      · simp [delta, debitOk, creditOk, signedAmount_unknown, bind, Except.bind] at ok

theorem delta_isOk_iff (normalSide : Side) (debitSum creditSum : Decimal) :
    (∃ r, delta normalSide.normalSide debitSum creditSum = .ok r) ↔
      validateAmountIsRescalable debitSum = .ok () ∧ validateAmountIsRescalable creditSum = .ok () := by
  constructor
  · rintro ⟨r, ok⟩
    simp only [delta, bind_eq_ok] at ok
    obtain ⟨_, debitOk, _, creditOk, -⟩ := ok
    exact ⟨debitOk, creditOk⟩
  · rintro ⟨debitOk, creditOk⟩
    obtain ⟨r, ok, -⟩ := delta_side normalSide debitOk creditOk
    exact ⟨r, ok⟩

theorem numDigits_le_iff (coeff : Int) (k : Nat) (positive : 0 < k) : numDigits coeff ≤ k ↔
    coeff.natAbs < 10 ^ k := by
  have log : Nat.log 10 coeff.natAbs < k ↔ coeff.natAbs < 10 ^ k :=
    ⟨Nat.lt_pow_of_log_lt (by norm_num), Nat.log_lt_of_lt_pow' (by omega)⟩
  rw [numDigits, ← log]
  omega

variable {amount : Decimal}

theorem numDigits_add_le_iff :
    numDigits amount.coeff + amount.exp ≤ 12 ↔ amount.exp ≤ 11 ∧ |amount.val| < 10 ^ 12 := by
  have some_digit : 1 ≤ numDigits amount.coeff := by unfold numDigits; omega
  by_cases small : amount.exp ≤ 11
  · obtain ⟨k, digits⟩ : ∃ k : Nat, (k : Int) = 12 - amount.exp := ⟨(12 - amount.exp).toNat, by omega⟩
    have power : (0 : ℚ) < 10 ^ amount.exp := by positivity
    have split_ : (10 : ℚ) ^ 12 = 10 ^ k * 10 ^ amount.exp := by
      rw [← zpow_natCast, ← zpow_natCast, ← zpow_add₀ (by norm_num), digits]
      norm_num
    rw [show numDigits amount.coeff + amount.exp ≤ 12 ↔ numDigits amount.coeff ≤ k by omega,
      numDigits_le_iff _ _ (by omega),
      Decimal.val, abs_mul, abs_of_pos power, split_, mul_lt_mul_iff_left₀ power, ← Int.cast_abs, Int.abs_eq_natAbs]
    simp only [small, true_and]
    exact_mod_cast Iff.rfl
  · simp only [small, false_and, iff_false]
    omega

theorem validateAmountDigits_ok_iff {fractionalDigits : Int} {text : String} :
    validateAmountDigits fractionalDigits text amount = .ok () ↔
      -fractionalDigits ≤ amount.exp ∧ amount.exp ≤ 11 ∧ |amount.val| < 10 ^ 12 := by
  have some_digit : 1 ≤ numDigits amount.coeff := by unfold numDigits; omega
  rw [← numDigits_add_le_iff, validateAmountDigits, maxAmountIntegerDigits]
  split_ifs with large fine digits
  · simp only [false_iff]
    omega
  · simp only [false_iff]
    omega
  · simp only [false_iff]
    omega
  · simp only [true_iff]
    omega

theorem validateAmountIsRescalable_ok_iff (low : -36 ≤ amount.exp) (high : amount.exp ≤ 0) :
    validateAmountIsRescalable amount = .ok () ↔ |amount.val| < 10 ^ 12 := by
  rw [validateAmountIsRescalable, validateAmountDigits_ok_iff]
  exact ⟨fun ok => ok.2.2, fun small => ⟨low, by omega, small⟩⟩

theorem validateAmountMagnitude_units (ok : validateAmountMagnitude amount = .ok ()) :
    (toUnits 18 amount : ℚ) = amount.val * 10 ^ 18 :=
  toUnits_val_of_fine (validateAmountDigits_ok_iff.mp ok).1

end Ledger.Core
