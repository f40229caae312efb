import Mathlib.Logic.Relation

namespace Ledger.Shared

variable {σ : Type} {step : σ → σ → Prop}

def Preserved (step : σ → σ → Prop) (inv : σ → Prop) : Prop := ∀ s s', inv s → step s s' → inv s'

abbrev Run (step : σ → σ → Prop) : σ → σ → Prop := Relation.ReflTransGen step

theorem Preserved.run {inv : σ → Prop} (preserved : Preserved step inv) {s s' : σ} (start : inv s)
    (run : Run step s s') : inv s' := by
  induction run with
  | refl => exact start
  | tail _ last ih => exact preserved _ _ ih last

theorem Preserved.run_rel {inv : σ → Prop} (preserved : Preserved step inv) (rel : σ → σ → Prop)
    (refl : ∀ s, rel s s) (trans : ∀ s t u, rel s t → rel t u → rel s u)
    (across : ∀ s s', inv s → step s s' → rel s s') {s s' : σ} (start : inv s)
    (run : Run step s s') : rel s s' := by
  induction run with
  | refl => exact refl s
  | tail before last ih => exact trans _ _ _ ih (across _ _ (preserved.run start before) last)

theorem split_concat {γ : Type} {l earlier later : List γ} {x a : γ}
    (split : l ++ [x] = earlier ++ a :: later) :
    (earlier = l ∧ a = x) ∨ ∃ more, l = earlier ++ a :: more := by
  rcases List.eq_nil_or_concat later with rfl | ⟨more, last, rfl⟩
  · obtain ⟨rfl, same⟩ := List.append_inj' split rfl
    exact .inl ⟨rfl, (List.cons.inj same).1.symm⟩
  · rw [List.concat_eq_append, ← List.cons_append, ← List.append_assoc] at split
    exact .inr ⟨more, (List.append_inj' split rfl).1⟩

end Ledger.Shared
