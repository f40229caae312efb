import Ledger.Core.Digests

namespace Ledger.Core

open Shared

def authAmountEncodedLen : Nat := 16

def encodeAmountBytes (amount : Decimal) : Result GoString := do
  let v ← encodeAmount amount
  return be authAmountEncodedLen (if 0 ≤ v then v else 2 ^ (authAmountEncodedLen * 8) + v)

variable {d : Decimal}

theorem encodeAmount_ok {units : Int} (ok : encodeAmount d = .ok units) :
    (units : ℚ) = d.val * 10 ^ 18 ∧ Signed 16 units := by
  simp only [encodeAmount, bind_eq_ok, require_eq_ok, pure_eq_ok, Decimal.equal_iff,
    decide_eq_true_eq] at ok
  obtain ⟨_, -, _, exact_, _, range, rfl⟩ := ok
  refine ⟨?_, by constructor <;> norm_num at range ⊢ <;> omega⟩
  rw [exact_, ofUnits_val]
  field_simp

theorem encodeAmountBytes_eq_ok {bytes : GoString} :
    encodeAmountBytes d = .ok bytes ↔ ∃ units, encodeAmount d = .ok units ∧
    be 16 units = bytes := by
  have complement (units : Int) : be 16 (if 0 ≤ units then units else 2 ^ 128 + units) =
    be 16 units := by
    split
    · rfl
    · exact be_add_pow 16 units
  simp only [encodeAmountBytes, bind_eq_ok, pure_eq_ok, authAmountEncodedLen]
  exact exists_congr fun units => and_congr_right fun _ => by rw [← complement units]

theorem encodeAmount_of_magnitude (ok : validateAmountMagnitude d = .ok ()) :
    ∃ units, encodeAmount d = .ok units := by
  obtain ⟨fine, integral, small⟩ := validateAmountDigits_ok_iff.mp ok
  unfold maxAmountFractionalDigits at fine
  have rescalable : validateAmountIsRescalable d = .ok () :=
    validateAmountDigits_ok_iff.mpr
      ⟨by unfold maxAmountWorkingFractionalDigits maxAmountFractionalDigits; omega, integral, small⟩
  have value : ((d.rescale (-18)).coeff : ℚ) = d.val * 10 ^ 18 := by
    rw [← Decimal.rescale_val_of_le fine]
    simp
  have bound : |((d.rescale (-18)).coeff : ℚ)| < 10 ^ 30 := by
    rw [value, abs_mul, abs_of_pos (by positivity : (0 : ℚ) < 10 ^ 18)]
    norm_num at small ⊢
    linarith
  have range : |(d.rescale (-18)).coeff| < 10 ^ 30 := by exact_mod_cast bound
  rw [abs_lt] at range
  refine ⟨(d.rescale (-18)).coeff, ?_⟩
  simp only [encodeAmount, rescalable, bind_eq_ok, require_eq_ok, pure_eq_ok, Decimal.equal_iff,
    decide_eq_true_eq, ofUnits_val]
  refine ⟨(), trivial, (), ?_, (), by constructor <;> omega, trivial⟩
  rw [value]
  field_simp

theorem encodeAmountBytes_canonical :
    (∀ {a b : Decimal} {x y : GoString}, encodeAmountBytes a = .ok x → encodeAmountBytes b = .ok y →
      (x = y ↔ a.val = b.val)) ∧
      (∀ {a : Decimal} {x : GoString}, encodeAmountBytes a = .ok x → x.length = 16 ∧
        (readSigned x : ℚ) = a.val * 10 ^ 18) ∧
      ∀ {a : Decimal}, validateAmountMagnitude a = .ok () → ∃ x, encodeAmountBytes a = .ok x := by
  have reads {a : Decimal} {x : GoString} (ok : encodeAmountBytes a = .ok x) :
      x.length = 16 ∧ (readSigned x : ℚ) = a.val * 10 ^ 18 := by
    obtain ⟨units, encoded, rfl⟩ := encodeAmountBytes_eq_ok.mp ok
    obtain ⟨value, range⟩ := encodeAmount_ok encoded
    exact ⟨be_length 16 units, by rw [readSigned_be range, value]⟩
  refine ⟨fun {a b x y} left right => ⟨fun same => ?_, fun same => ?_⟩, reads, fun accepted => ?_⟩
  · have value := (reads left).2
    rw [same, (reads right).2] at value
    exact (mul_right_cancel₀ (by positivity) value).symm
  · obtain ⟨m, encoded, rfl⟩ := encodeAmountBytes_eq_ok.mp left
    obtain ⟨n, encoded', rfl⟩ := encodeAmountBytes_eq_ok.mp right
    have units : (m : ℚ) = n := by rw [(encodeAmount_ok encoded).1, (encodeAmount_ok encoded').1, same]
    rw [show m = n by exact_mod_cast units]
  · obtain ⟨units, encoded⟩ := encodeAmount_of_magnitude accepted
    exact ⟨_, encodeAmountBytes_eq_ok.mpr ⟨units, encoded, rfl⟩⟩

theorem encodeAmountBytes_half : ∃ x, encodeAmountBytes ⟨-5, -1⟩ = .ok x ∧
    encodeAmountBytes ⟨-500, -3⟩ = .ok x ∧
    readSigned x = -500000000000000000 := by
  obtain ⟨x, left⟩ := encodeAmountBytes_canonical.2.2
    (show validateAmountMagnitude ⟨-5, -1⟩ = .ok () by decide +kernel)
  obtain ⟨y, right⟩ := encodeAmountBytes_canonical.2.2
    (show validateAmountMagnitude ⟨-500, -3⟩ = .ok () by decide +kernel)
  have same := (encodeAmountBytes_canonical.1 left right).mpr (by norm_num [Decimal.val])
  have value := (encodeAmountBytes_canonical.2.1 left).2
  norm_num [Decimal.val] at value
  exact ⟨x, left, by rw [right, same], by exact_mod_cast value⟩

end Ledger.Core
