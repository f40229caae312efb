import Mathlib.Algebra.BigOperators.Group.List.Basic
import Mathlib.Tactic.Abel

namespace Ledger.Shared

section

variable {α M : Type} [AddCommGroup M] (key : α → Nat) (weight : α → M)

def sumUpTo (log : List α) (w : Nat) : M := ((log.filter fun x => key x ≤ w).map weight).sum

def sumAfter (log : List α) (w : Nat) : M := ((log.filter fun x => w < key x).map weight).sum

theorem sumUpTo_add_sumAfter (log : List α) (w : Nat) :
    sumUpTo key weight log w + sumAfter key weight log w = (log.map weight).sum := by
  induction log with
  | nil => simp [sumUpTo, sumAfter]
  | cons x log ih =>
    simp only [sumUpTo, sumAfter] at ih ⊢
    rw [List.map_cons, List.sum_cons, ← ih]
    by_cases le : key x ≤ w
    · simp [le, Nat.not_lt.mpr le, add_assoc]
    · simp [le, Nat.lt_of_not_le le, add_left_comm]

theorem sumUpTo_append_of_above (log new : List α) (w : Nat) (above : ∀ x ∈ new, w < key x) :
    sumUpTo key weight (log ++ new) w = sumUpTo key weight log w := by
  have none : new.filter (fun x => key x ≤ w) = [] := by
    simpa [List.filter_eq_nil_iff] using above
  simp [sumUpTo, none]

theorem sumUpTo_of_bounded (log : List α) (w : Nat) (bounded : ∀ x ∈ log, key x ≤ w) :
    sumUpTo key weight log w = (log.map weight).sum := by
  rw [sumUpTo, List.filter_eq_self.mpr (by simpa using bounded)]

theorem sumUpTo_advance (log : List α) (w top : Nat) (bounded : ∀ x ∈ log, key x ≤ top) :
    sumUpTo key weight log w + sumAfter key weight log w = sumUpTo key weight log top := by
  rw [sumUpTo_add_sumAfter, sumUpTo_of_bounded key weight log top bounded]

end

end Ledger.Shared
