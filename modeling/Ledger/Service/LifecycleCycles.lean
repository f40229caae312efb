import Ledger.Core.Booking
import Ledger.Shared.CycleSearch

namespace Ledger.Service

open Core Shared

def Lifecycle.starts (l : Lifecycle) : List Status :=
  (l.initial :: l.transitions.entries.map Prod.fst).insertionSort (· ≤ ·)

def Lifecycle.statuses (l : Lifecycle) : List Status :=
  l.initial :: l.transitions.entries.map Prod.fst ++ l.transitions.entries.flatMap Prod.snd

/-- `none` is a search that has not ended in the given rounds, `some none` the nil of the source. -/
def lifecycleCycle (l : Lifecycle) : Option (Option (List Status)) :=
  match walkStarts l.targets (Lifecycle.statuses l).length.succ ⟨[], []⟩ (Lifecycle.starts l) with
  | none => none
  | some (.ok _) => some none
  | some (.error cycle) => some (some cycle)

theorem targets_mem {l : Lifecycle} {a b : Status} (edge : b ∈ l.targets a) :
    a ∈ l.transitions.entries.map Prod.fst ∧ b ∈ l.transitions.entries.flatMap Prod.snd := by
  unfold Lifecycle.targets at edge
  cases found : l.transitions.get a with
  | none => simp [found] at edge
  | some targets =>
    rw [found] at edge
    have member := SortedMap.mem_of_get_eq_some found
    exact ⟨List.mem_map.mpr ⟨_, member, rfl⟩, List.mem_flatMap.mpr ⟨_, member, edge⟩⟩

/-- The search ends. It returns nil exactly if no status leads back to itself, and otherwise a
cycle. -/
theorem lifecycleCycle_decides (l : Lifecycle) : ∃ r, lifecycleCycle l = some r ∧
    (r = none ↔ ∀ s, ¬ Relation.TransGen (fun a b => b ∈ l.targets a) s s) ∧
    ∀ c, r = some c → c.IsChain (fun a b => b ∈ l.targets a) ∧ ∃ s inner, c =
    s :: inner ++ [s] := by
  have closed : ∀ a ∈ (Lifecycle.statuses l).toFinset, ∀ b ∈ l.targets a, b ∈
    (Lifecycle.statuses l).toFinset := fun a _ b edge =>
    List.mem_toFinset.mpr (List.mem_append_right _ (targets_mem edge).2)
  have sources : ∀ a, l.targets a ≠ [] → a ∈ Lifecycle.starts l := by
    intro a some_
    obtain ⟨b, edge⟩ := List.exists_mem_of_ne_nil _ some_
    exact (List.mem_insertionSort _).mpr (List.mem_cons_of_mem _ (targets_mem edge).1)
  have inside : ∀ a ∈ Lifecycle.starts l, a ∈ (Lifecycle.statuses l).toFinset := fun a member =>
    List.mem_toFinset.mpr (List.mem_append_left _ ((List.mem_insertionSort _).mp member))
  have enough := Nat.lt_succ_iff.mpr (List.toFinset_card_le (Lifecycle.statuses l))
  rcases walkStarts_decides closed enough inside sources
    with ⟨s, ended, acyclic⟩ | ⟨c, ended, cycle⟩
  · exact ⟨none, by rw [lifecycleCycle, ended], iff_of_true rfl acyclic, nofun⟩
  · refine ⟨some c, by rw [lifecycleCycle, ended], iff_of_false nofun cycle.not_acyclic,
      fun c' same => ?_⟩
    cases same
    exact cycle

end Ledger.Service
