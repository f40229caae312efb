import Mathlib.Tactic

namespace Ledger.Shared

def above (last : Option Nat) (v : Nat) : Bool :=
  match last with
  | none => true
  | some l => l < v

-- Every round takes at least one value out of reach, so the length of the column is enough fuel.
def scanFrom (column : List Nat) : Nat → Option Nat → List Nat
  | 0, _ => []
  | fuel + 1, last =>
    match (column.filter (above last)).min? with
    | none => []
    | some v => v :: scanFrom column fuel (some v)

def looseScan (column : List Nat) : List Nat := scanFrom column column.length none

variable {column : List Nat} {last : Option Nat} {v w : Nat}

theorem above_of_min (least : (column.filter (above last)).min? = some v) :
    v ∈ column ∧ above last v = true ∧ ∀ w ∈ column, above last w = true → v ≤ w := by
  obtain ⟨member, bound⟩ := List.min?_eq_some_iff.mp least
  obtain ⟨inside, beyond⟩ := List.mem_filter.mp member
  exact ⟨inside, beyond, fun w inside beyond => bound w (List.mem_filter.mpr ⟨inside, beyond⟩)⟩

theorem above_trans (first : above last v = true) (second : v < w) : above last w = true := by
  cases last with
  | none => rfl
  | some l =>
    simp only [above, decide_eq_true_eq] at first ⊢
    omega

theorem remaining_lt (inside : v ∈ column) (beyond : above last v = true) :
    (column.filter (above (some v))).length < (column.filter (above last)).length := by
  have narrower : column.filter (above (some v)) = (column.filter (above last)).filter
    (above (some v)) := by
    rw [List.filter_filter]
    apply List.filter_congr
    intro w _
    cases passed : above (some v) w with
    | false => rfl
    | true => simp [above_trans beyond (by simpa [above] using passed)]
  rw [narrower]
  refine List.length_filter_lt_length_iff_exists.mpr ⟨v, List.mem_filter.mpr ⟨inside, beyond⟩, ?_⟩
  simp [above]

theorem mem_scanFrom {fuel : Nat} (enough : (column.filter (above last)).length ≤ fuel) :
    w ∈ scanFrom column fuel last ↔ w ∈ column ∧ above last w = true := by
  induction fuel generalizing last with
  | zero =>
    have none_ : column.filter (above last) = [] := List.length_eq_zero_iff.mp (by omega)
    rw [← List.mem_filter, none_, scanFrom]
  | succ fuel ih =>
    rw [scanFrom]
    cases least : (column.filter (above last)).min? with
    | none =>
      rw [List.min?_eq_none_iff] at least
      rw [← List.mem_filter, least]
    | some v =>
      obtain ⟨inside, beyond, bound⟩ := above_of_min least
      have fewer := remaining_lt inside beyond
      simp only [List.mem_cons, ih (show (column.filter (above (some v))).length ≤ fuel by omega)]
      constructor
      · rintro (rfl | ⟨member, later⟩)
        · exact ⟨inside, beyond⟩
        · exact ⟨member, above_trans beyond (by simpa [above] using later)⟩
      · rintro ⟨member, later⟩
        rcases Nat.lt_or_eq_of_le (bound w member later) with lt | same
        · exact .inr ⟨member, by simpa [above] using lt⟩
        · exact .inl same.symm

@[simp] theorem mem_looseScan : w ∈ looseScan column ↔ w ∈ column := by
  rw [looseScan, mem_scanFrom (List.length_filter_le _ _)]
  simp [above]

theorem nodup_scanFrom (column : List Nat) (fuel : Nat) (last : Option Nat) :
    (scanFrom column fuel last).Nodup ∧ ∀ w ∈ scanFrom column fuel last, above last w = true := by
  induction fuel generalizing last with
  | zero => simp [scanFrom]
  | succ fuel ih =>
    rw [scanFrom]
    cases least : (column.filter (above last)).min? with
    | none => simp
    | some v =>
      obtain ⟨nodup, later⟩ := ih (some v)
      have beyond := (above_of_min least).2.1
      have after : ∀ w ∈ scanFrom column fuel (some v), v < w := fun w member => by simpa [above] using later w member
      refine ⟨List.nodup_cons.mpr ⟨fun member => (after v member).false, nodup⟩, ?_⟩
      intro w member
      rcases List.mem_cons.mp member with rfl | member
      · exact beyond
      · exact above_trans beyond (after w member)

theorem nodup_looseScan (column : List Nat) : (looseScan column).Nodup :=
  (nodup_scanFrom column _ none).1

end Ledger.Shared
