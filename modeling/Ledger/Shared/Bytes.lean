import Ledger.Shared.Checks
import Ledger.Shared.GoString

namespace Ledger.Shared

def be : Nat → Int → GoString
  | 0, _ => []
  | width + 1, n => be width (n / 256) ++ [Fin.ofNat 256 (n % 256).toNat]

variable (width : Nat)

@[simp] theorem be_length (n : Int) : (be width n).length = width := by
  induction width generalizing n with
  | zero => rfl
  | succ width ih => simp [be, ih]

theorem emod_split (n q : Int) (positive : 0 < q) : n % (256 * q) = n % 256 +
    256 * (n / 256 % q) := by
  have high := Int.emod_add_mul_ediv (n / 256) q
  have low := Int.emod_add_mul_ediv n 256
  have small := Int.emod_lt_of_pos (n / 256) positive
  have nonneg := Int.emod_nonneg (n / 256) positive.ne'
  refine ((Int.ediv_emod_unique (by omega : 0 < 256 * q)).mpr ⟨?_, by omega, by omega⟩ :
    n / (256 * q) = n / 256 / q ∧ _).2
  rw [mul_assoc]
  omega

theorem be_add_pow (n : Int) : be width (256 ^ width + n) = be width n := by
  induction width generalizing n with
  | zero => rfl
  | succ width ih =>
    have high : (256 ^ (width + 1) + n) / 256 = 256 ^ width + n / 256 := by rw [pow_succ']; omega
    have low : (256 ^ (width + 1) + n) % 256 = n % 256 := by rw [pow_succ']; omega
    rw [be, be, high, low, ih]

def readUnsigned (bytes : GoString) : Nat := bytes.foldl (fun n b => 256 * n + b.val) 0

theorem readUnsigned_be (n : Int) : (readUnsigned (be width n) : Int) = n % 256 ^ width := by
  induction width generalizing n with
  | zero => simp [be, readUnsigned]
  | succ width ih =>
    have lowest : ((Fin.ofNat 256 (n % 256).toNat).val : Int) = n % 256 := by
      simp only [Fin.ofNat]
      omega
    rw [be, readUnsigned, List.foldl_append, ← readUnsigned, List.foldl_cons, List.foldl_nil]
    push_cast
    rw [ih, lowest, pow_succ', emod_split n _ (by positivity)]
    omega

def readSigned (bytes : GoString) : Int :=
  if 2 * readUnsigned bytes < 256 ^ bytes.length then readUnsigned bytes
    else readUnsigned bytes - 256 ^ bytes.length

def Signed (width : Nat) (n : Int) : Prop := -256 ^ width ≤ 2 * n ∧ 2 * n < 256 ^ width

instance (width : Nat) (n : Int) : Decidable (Signed width n) := inferInstanceAs (Decidable (_ ∧ _))

theorem readSigned_be {width : Nat} {n : Int} (fits : Signed width n) :
    readSigned (be width n) = n := by
  obtain ⟨low, high⟩ := fits
  have spelled := readUnsigned_be width n
  have positive : (0 : Int) < 256 ^ width := by positivity
  have cast : ((256 ^ width : Nat) : Int) = 256 ^ width := by norm_cast
  rw [readSigned, be_length]
  by_cases negative : n < 0
  · have shifted : n % 256 ^ width = n + 256 ^ width := by
      rw [← Int.add_emod_right, Int.emod_eq_of_lt (by omega) (by omega)]
    rw [if_neg (by omega)]
    omega
  · rw [Int.emod_eq_of_lt (by omega) (by omega)] at spelled
    rw [if_pos (by omega)]
    exact spelled

theorem be_injective {width : Nat} {a b : Int} (left : Signed width a) (right : Signed width b)
    (same : be width a = be width b) :
    a = b := by
  rw [← readSigned_be left, same, readSigned_be right]

def wrap64 (x : Int) : Int := x.bmod (2 ^ 64)

theorem wrap64_eq {x : Int} (low : -2 ^ 63 ≤ x) (high : x < 2 ^ 63) : wrap64 x = x :=
  Int.bmod_eq_of_le (by norm_num at low ⊢; omega) (by norm_num at high ⊢; omega)

theorem wrap64_le {x : Int} (low : -2 ^ 63 ≤ x) : wrap64 x ≤ x := by
  unfold wrap64
  rw [Int.bmod_def]
  split <;> omega

def lenPrefixed (s : GoString) : GoString := be 4 s.length ++ s

/-- Two encoded values of `valid` followed by anything are equal only if the values and what follows
are. -/
def Delimits {α : Type} (valid : α → Prop) (encode : α → GoString) : Prop :=
  ∀ {a b : α} {x y : GoString}, valid a → valid b → encode a ++ x = encode b ++ y → a = b ∧ x = y

theorem delimits_be : Delimits (Signed width) (be width) := by
  intro a b x y left right same
  obtain ⟨bytes, rest⟩ := List.append_inj same (by simp)
  exact ⟨be_injective left right bytes, rest⟩

theorem delimits_lenPrefixed : Delimits (fun s => s.length < 2 ^ 32) lenPrefixed := by
  intro a b x y left right same
  rw [lenPrefixed, lenPrefixed, List.append_assoc, List.append_assoc] at same
  obtain ⟨lengths, rest⟩ := List.append_inj same (by simp)
  have spelled := congrArg (fun bytes => (readUnsigned bytes : Int)) lengths
  simp only [readUnsigned_be] at spelled
  exact List.append_inj rest (by omega)

theorem Delimits.flatMap {α : Type} {valid : α → Prop} {encode : α → GoString}
    (delimits : Delimits valid encode) {l m : List α}
    {x y : GoString} (length : l.length = m.length) (left : ∀ a ∈ l, valid a)
    (right : ∀ a ∈ m, valid a)
    (same : l.flatMap encode ++ x = m.flatMap encode ++ y) : l = m ∧ x = y := by
  induction l generalizing m with
  | nil =>
    cases m with
    | nil => exact ⟨rfl, same⟩
    | cons b m => cases length
  | cons a l ih =>
    cases m with
    | nil => cases length
    | cons b m =>
      simp only [List.flatMap_cons, List.append_assoc] at same
      obtain ⟨rfl, rest⟩ := delimits (left a (by simp)) (right b (by simp)) same
      obtain ⟨rfl, rfl⟩ := ih (Nat.succ.inj length) (fun a member => left a (by simp [member]))
        (fun a member => right a (by simp [member])) rest
      exact ⟨rfl, rfl⟩

theorem split_at_separator {c : Byte} {l m x y : GoString} (left : c ∉ l) (right : c ∉ m)
    (same : l ++ c :: x = m ++ c :: y) :
    l = m ∧ x = y := by
  induction l generalizing m with
  | nil =>
    cases m with
    | nil => exact ⟨rfl, (List.cons.inj same).2⟩
    | cons b m => exact absurd ((List.cons.inj same).1 ▸ List.mem_cons_self) right
  | cons a l ih =>
    cases m with
    | nil => exact absurd ((List.cons.inj same).1 ▸ List.mem_cons_self) left
    | cons b m =>
      obtain ⟨rfl, rest⟩ := List.cons.inj same
      obtain ⟨rfl, rfl⟩ := ih (fun h => left (List.mem_cons_of_mem _ h))
        (fun h => right (List.mem_cons_of_mem _ h)) rest
      exact ⟨rfl, rfl⟩

end Ledger.Shared
