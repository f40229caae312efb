import Mathlib.Tactic

namespace Ledger.Shared

variable {K V : Type} [DecidableEq K]

def firstSeen : List K → List K
  | [] => []
  | k :: rest => k :: (firstSeen rest).filter (· ≠ k)

@[simp] theorem mem_firstSeen {k : K} {l : List K} : k ∈ firstSeen l ↔ k ∈ l := by
  induction l with
  | nil => simp [firstSeen]
  | cons a rest ih =>
    by_cases same : k = a
    · simp [firstSeen, same]
    · simp [firstSeen, same, ih]

theorem nodup_firstSeen (l : List K) : (firstSeen l).Nodup := by
  induction l with
  | nil => exact List.nodup_nil
  | cons a rest ih => exact List.nodup_cons.mpr ⟨by simp, ih.filter _⟩

variable {M : Type} [AddCommMonoid M]

theorem sum_filter (p : V → Bool) (value : V → M) (l : List V) :
    ((l.filter p).map value).sum = (l.map fun v => if p v then value v else 0).sum := by
  induction l with
  | nil => rfl
  | cons v rest ih => by_cases kept : p v <;> simp [kept, ih]

def sumAt (key : V → K) (value : V → M) (l : List V) (k : K) : M :=
  ((l.filter (key · = k)).map value).sum

@[simp] theorem sumAt_nil (key : V → K) (value : V → M) (k : K) : sumAt key value [] k = 0 := rfl

theorem sumAt_cons (key : V → K) (value : V → M) (v : V) (l : List V) (k : K) :
    sumAt key value (v :: l) k = (if key v = k then value v else 0) + sumAt key value l k := by
  unfold sumAt
  by_cases same : key v = k <;> simp [same]

theorem sumAt_append (key : V → K) (value : V → M) (l l' : List V) (k : K) :
    sumAt key value (l ++ l') k = sumAt key value l k + sumAt key value l' k := by
  simp [sumAt, List.filter_append]

variable {l : List V} {key : V → K}

theorem sumAt_of_not_mem {value : V → M} {k : K} (absent : k ∉ l.map key) :
    sumAt key value l k = 0 := by
  have none_ : l.filter (key · = k) = [] := by
    rw [List.filter_eq_nil_iff]
    intro v member same
    exact absent (List.mem_map.mpr ⟨v, member, by simpa using same⟩)
  simp [sumAt, none_]

variable {v : V}

theorem sumAt_of_nodup {value : V → M} (nodup : (l.map key).Nodup) (member : v ∈ l) :
    sumAt key value l (key v) = value v := by
  induction l with
  | nil => cases member
  | cons a rest ih =>
    rw [List.map_cons, List.nodup_cons] at nodup
    rw [sumAt_cons]
    rcases List.mem_cons.mp member with rfl | later
    · rw [if_pos rfl, sumAt_of_not_mem nodup.1, add_zero]
    · have other : key a ≠ key v := fun same => nodup.1 (same ▸ List.mem_map_of_mem later)
      rw [if_neg other, zero_add, ih nodup.2 later]

theorem sumAt_map {W : Type} (f : V → W) (key : W → K) (value : W → M) (l : List V) (k : K) :
    sumAt key value (l.map f) k = sumAt (key ∘ f) (value ∘ f) l k := by
  induction l with
  | nil => rfl
  | cons v rest ih => rw [List.map_cons, sumAt_cons, sumAt_cons, ih, Function.comp_apply, Function.comp_apply]

theorem sumAt_congr {value value' : V → M} (same : ∀ v ∈ l, value v = value' v) (k : K) :
    sumAt key value l k = sumAt key value' l k := by
  unfold sumAt
  congr 1
  apply List.map_congr_left
  intro v member
  exact same v (List.mem_of_mem_filter member)

theorem sumAt_forall₂ {W : Type} {key' : W → K} {value : V → ℚ} {value' : W → Int}
    {c : ℚ} {m : List W}
    (related : List.Forall₂ (fun v w => key' w = key v ∧
      (value' w : ℚ) = value v * c) l m) (k : K) :
    ((sumAt key' value' m k : Int) : ℚ) = sumAt key value l k * c := by
  induction related with
  | nil => simp
  | cons head _ ih =>
    rw [sumAt_cons, sumAt_cons, head.1]
    split
    · push_cast
      rw [head.2, ih]
      ring
    · simpa using ih

theorem sum_single {keys : List K} (nodup : keys.Nodup) {k : K} (member : k ∈ keys) (m : M) :
    (keys.map fun k' => if k = k' then m else 0).sum = m := by
  induction keys with
  | nil => cases member
  | cons a rest ih =>
    obtain ⟨absent, nodup⟩ := List.nodup_cons.mp nodup
    rw [List.map_cons, List.sum_cons]
    rcases List.mem_cons.mp member with rfl | later
    · have zero : (rest.map fun k' => if k = k' then m else 0).sum = 0 := by
        apply List.sum_eq_zero
        intro x inside
        obtain ⟨k', there, rfl⟩ := List.mem_map.mp inside
        exact if_neg fun (same : k = k') => absent (same ▸ there)
      rw [if_pos rfl, zero, add_zero]
    · have other : k ≠ a := fun same => absent (same ▸ later)
      rw [if_neg other, zero_add, ih nodup later]

theorem sum_sumAt (value : V → M) {keys : List K} (nodup : keys.Nodup)
    (covered : ∀ v ∈ l, key v ∈ keys) :
    (keys.map (sumAt key value l)).sum = (l.map value).sum := by
  induction l with
  | nil => exact List.sum_eq_zero (by simp)
  | cons v rest ih =>
    have split : keys.map (sumAt key value (v :: rest)) =
        keys.map fun k => (if key v = k then value v else 0) + sumAt key value rest k :=
      List.map_congr_left fun k _ => sumAt_cons key value v rest k
    rw [split, List.sum_map_add, sum_single nodup (covered v List.mem_cons_self),
      ih fun u member => covered u (List.mem_cons_of_mem _ member), List.map_cons, List.sum_cons]

theorem sumAt_le {key' : V → K} {value value' : V → Int} (keys : ∀ v ∈ l, key v = key' v)
    (le : ∀ v ∈ l, value v ≤ value' v) (k : K) : sumAt key value l k ≤ sumAt key' value' l k := by
  induction l with
  | nil => exact le_rfl
  | cons v rest ih =>
    have tail := ih (fun u member => keys u (List.mem_cons_of_mem _ member)) fun u member =>
      le u (List.mem_cons_of_mem _ member)
    have head := le v List.mem_cons_self
    rw [sumAt_cons, sumAt_cons, keys v List.mem_cons_self]
    split <;> omega

theorem sumAt_nonneg {value : V → Int} (nonneg : ∀ v ∈ l, 0 ≤ value v) (k : K) :
    0 ≤ sumAt key value l k := by
  apply List.sum_nonneg
  intro n member
  obtain ⟨v, inside, rfl⟩ := List.mem_map.mp member
  exact nonneg v (List.mem_of_mem_filter inside)

theorem sumAt_pos {value : V → Int} (positive : ∀ v ∈ l, 0 < value v) (member : v ∈ l) :
    0 < sumAt key value l (key v) := by
  induction l with
  | nil => cases member
  | cons a rest ih =>
    have rest_ : ∀ u ∈ rest, 0 < value u := fun u inside => positive u (List.mem_cons_of_mem _ inside)
    have nonneg : 0 ≤ sumAt key value rest (key v) := sumAt_nonneg
      (fun u inside => (rest_ u inside).le) _
    have head := positive a List.mem_cons_self
    rw [sumAt_cons]
    rcases List.mem_cons.mp member with rfl | later
    · rw [if_pos rfl]
      omega
    · have tail := ih rest_ later
      split <;> omega

theorem sum_map_sub {α : Type} (l : List α) (f g : α → Int) : (l.map fun a => f a - g a).sum =
    (l.map f).sum - (l.map g).sum := by
  simpa using Multiset.sum_map_sub (m := (l : Multiset α)) (f := f) (g := g)

theorem exists_taking {l : List Nat} (nodup : l.Nodup) (f : Nat → Int)
    (nonneg : ∀ i ∈ l, 0 ≤ f i) {amount : Int}
    (positive : 0 ≤ amount) (enough : amount ≤ (l.map f).sum) :
    ∃ g : Nat → Int, (∀ i ∈ l, 0 ≤ g i ∧ g i ≤ f i) ∧ (l.map f).sum - (l.map g).sum = amount := by
  induction l generalizing amount with
  | nil =>
    refine ⟨f, by simp, ?_⟩
    simp only [List.map_nil, List.sum_nil] at enough ⊢
    omega
  | cons i rest ih =>
    rw [List.nodup_cons] at nodup
    rw [List.map_cons, List.sum_cons] at enough
    have here := nonneg i List.mem_cons_self
    have others : 0 ≤ (rest.map f).sum := by
      apply List.sum_nonneg
      intro v member
      obtain ⟨k, later, rfl⟩ := List.mem_map.mp member
      exact nonneg k (List.mem_cons_of_mem _ later)
    obtain ⟨g, bounds, total⟩ := ih nodup.2 (fun k member => nonneg k (List.mem_cons_of_mem _ member))
      (show 0 ≤ amount - min amount (f i) by omega) (by omega)
    refine ⟨Function.update g i (f i - min amount (f i)), ?_, ?_⟩
    · intro k member
      rcases List.mem_cons.mp member with rfl | later
      · rw [Function.update_self]
        omega
      · rw [Function.update_of_ne (ne_of_mem_of_not_mem later nodup.1)]
        exact bounds k later
    · have untouched : rest.map (Function.update g i (f i - min amount (f i))) = rest.map g := by
        apply List.map_congr_left
        intro k later
        exact Function.update_of_ne (ne_of_mem_of_not_mem later nodup.1) _ _
      rw [List.map_cons, List.sum_cons, List.map_cons, List.sum_cons, Function.update_self, untouched]
      omega

end Ledger.Shared
