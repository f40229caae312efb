import Mathlib.Data.List.Sort
import Mathlib.Data.List.Dedup

namespace Ledger.Shared

section

variable {α κ : Type} [DecidableEq κ] (key : α → κ)

def distinctOn : List α → List α
  | [] => []
  | a :: rest => a :: (distinctOn rest).filter (key · ≠ key a)

variable {l : List α} {a : α}

theorem mem_of_mem_distinctOn (member : a ∈ distinctOn key l) : a ∈ l := by
  induction l with
  | nil => exact member
  | cons b rest ih =>
    rcases List.mem_cons.mp member with rfl | later
    · exact List.mem_cons_self
    · exact List.mem_cons_of_mem _ (ih (List.mem_of_mem_filter later))

theorem nodup_distinctOn (l : List α) : ((distinctOn key l).map key).Nodup := by
  induction l with
  | nil => exact List.nodup_nil
  | cons a rest ih =>
    rw [distinctOn, List.map_cons, List.nodup_cons]
    constructor
    · -- The filter has dropped every later row with this key.
      intro again
      obtain ⟨b, member, same⟩ := List.mem_map.mp again
      have other := (List.mem_filter.mp member).2
      simp [same] at other
    · exact ih.sublist (List.filter_sublist.map key)

theorem distinctOn_least {r : α → α → Prop} (sorted : l.Pairwise r) (refl : ∀ a, r a a) {b : α}
    (kept : a ∈ distinctOn key l) (member : b ∈ l) (same : key b = key a) : r a b := by
  induction l with
  | nil => cases member
  | cons c rest ih =>
    obtain ⟨first, tail⟩ := List.pairwise_cons.mp sorted
    rcases List.mem_cons.mp kept with rfl | later
    · rcases List.mem_cons.mp member with rfl | inside
      · exact refl _
      · exact first b inside
    · obtain ⟨inside, other⟩ := List.mem_filter.mp later
      rcases List.mem_cons.mp member with rfl | memberRest
      · simp [same] at other
      · exact ih tail inside memberRest

end

end Ledger.Shared
