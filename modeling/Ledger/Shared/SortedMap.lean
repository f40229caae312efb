import Mathlib.Tactic

namespace Ledger.Shared

structure SortedMap (K V : Type) [LinearOrder K] where
  entries : List (K × V)
  sorted : entries.Pairwise fun a b => a.1 < b.1

namespace SortedMap

variable {K V : Type} [LinearOrder K]

theorem ext_entries {m n : SortedMap K V} (same : m.entries = n.entries) : m = n := by
  cases m
  cases n
  congr

instance [DecidableEq V] : DecidableEq (SortedMap K V) := fun m n =>
  decidable_of_iff (m.entries = n.entries) ⟨ext_entries, fun h => by rw [h]⟩

def empty : SortedMap K V := ⟨[], .nil⟩

def lookupList (k : K) : List (K × V) → Option V
  | [] => none
  | (k', v) :: rest => if k = k' then some v else lookupList k rest

def get (m : SortedMap K V) (k : K) : Option V := lookupList k m.entries

def insertList (k : K) (v : V) : List (K × V) → List (K × V)
  | [] => [(k, v)]
  | (k', v') :: rest =>
    if k < k' then (k, v) :: (k', v') :: rest
    else if k = k' then (k, v) :: rest
    else (k', v') :: insertList k v rest

theorem mem_insertList {k : K} {v : V} {p : K × V} {l : List (K × V)}
    (member : p ∈ insertList k v l) : p = (k, v) ∨ p ∈ l := by
  induction l with
  | nil => simpa [insertList] using member
  | cons head rest ih =>
    obtain ⟨k', v'⟩ := head
    unfold insertList at member
    split_ifs at member with lt same
    · simpa using member
    · rcases List.mem_cons.mp member with here | later
      · exact .inl here
      · exact .inr (by simp [later])
    · rcases List.mem_cons.mp member with here | later
      · exact .inr (by simp [here])
      · exact (ih later).imp_right fun h => by simp [h]

theorem insertList_sorted (k : K) (v : V) {l : List (K × V)}
    (sorted : l.Pairwise fun a b => a.1 < b.1) :
    (insertList k v l).Pairwise fun a b => a.1 < b.1 := by
  induction l with
  | nil => simp [insertList]
  | cons head rest ih =>
    obtain ⟨k', v'⟩ := head
    obtain ⟨above, sortedRest⟩ := List.pairwise_cons.mp sorted
    unfold insertList
    split_ifs with lt same
    · refine List.pairwise_cons.mpr ⟨fun p member => ?_, sorted⟩
      rcases List.mem_cons.mp member with rfl | later
      · exact lt
      · exact lt.trans (above p later)
    · subst same
      exact List.pairwise_cons.mpr ⟨above, sortedRest⟩
    · refine List.pairwise_cons.mpr ⟨fun p member => ?_, ih sortedRest⟩
      rcases mem_insertList member with rfl | later
      · exact lt_of_le_of_ne (not_lt.mp lt) (Ne.symm same)
      · exact above p later

def insert (m : SortedMap K V) (k : K) (v : V) : SortedMap K V :=
  ⟨insertList k v m.entries, insertList_sorted k v m.sorted⟩

def erase (m : SortedMap K V) (k : K) : SortedMap K V :=
  ⟨m.entries.filter fun p => p.1 ≠ k, m.sorted.sublist List.filter_sublist⟩

def ofList (pairs : List (K × V)) : SortedMap K V := pairs.foldl (fun m p => m.insert p.1 p.2) empty

def copy (dst src : SortedMap K V) : SortedMap K V := src.entries.foldl
    (fun m p => m.insert p.1 p.2) dst

theorem lookupList_insertList (k k' : K) (v : V) (l : List (K × V)) :
    lookupList k' (insertList k v l) = if k' = k then some v else lookupList k' l := by
  induction l with
  | nil => rfl
  | cons head rest ih =>
    obtain ⟨k'', v''⟩ := head
    by_cases lt : k < k''
    · simp [insertList, lt, lookupList]
    · by_cases same : k = k''
      · subst same
        by_cases target : k' = k <;> simp [insertList, lookupList, target]
      · by_cases target : k' = k
        · subst target
          simp [insertList, lt, same, lookupList, ih]
        · simp [insertList, lt, same, lookupList, ih, target]

@[simp] theorem get_empty (k : K) : (empty : SortedMap K V).get k = none := rfl

theorem get_insert (m : SortedMap K V) (k k' : K) (v : V) : (m.insert k v).get k' =
    if k' = k then some v else m.get k' :=
  lookupList_insertList k k' v m.entries

theorem get_erase (m : SortedMap K V) (k k' : K) : (m.erase k).get k' =
    if k' = k then none else m.get k' := by
  have filtered (l : List (K × V)) :
      lookupList k' (l.filter fun p => p.1 ≠ k) = if k' = k then none else lookupList k' l := by
    induction l with
    | nil => simp [lookupList]
    | cons head rest ih =>
      by_cases same : head.1 = k
      · rw [List.filter_cons_of_neg (by simpa using same), ih]
        by_cases target : k' = k
        · simp [target]
        · simp [lookupList, target, same]
      · rw [List.filter_cons_of_pos (by simpa using same)]
        simp only [lookupList, ih]
        by_cases here : k' = head.1
        · simp [here, same]
        · simp [here]
  exact filtered m.entries

theorem get_eq_some_of_mem {m : SortedMap K V} {p : K × V} (member : p ∈ m.entries) :
    m.get p.1 = some p.2 := by
  have search (l : List (K × V)) (sorted : l.Pairwise fun a b => a.1 < b.1) (member : p ∈ l) :
      lookupList p.1 l = some p.2 := by
    induction l with
    | nil => cases member
    | cons head rest ih =>
      obtain ⟨above, sortedRest⟩ := List.pairwise_cons.mp sorted
      rcases List.mem_cons.mp member with rfl | later
      · simp [lookupList]
      · simp [lookupList, (above p later).ne', ih sortedRest later]
  exact search m.entries m.sorted member

theorem mem_of_get_eq_some {m : SortedMap K V} {k : K} {v : V} (found : m.get k = some v) :
    (k, v) ∈ m.entries := by
  have search (l : List (K × V)) (found : lookupList k l = some v) : (k, v) ∈ l := by
    induction l with
    | nil => cases found
    | cons head rest ih =>
      simp only [lookupList] at found
      split_ifs at found with same
      · cases found
        simp [same]
      · exact List.mem_cons_of_mem _ (ih found)
  exact search m.entries found

theorem ext {m n : SortedMap K V} (same : ∀ k, m.get k = n.get k) : m = n := by
  have subset (m n : SortedMap K V) (same : ∀ k, m.get k = n.get k) : m.entries ⊆ n.entries := by
    intro p member
    have found := get_eq_some_of_mem member
    rw [same] at found
    exact mem_of_get_eq_some found
  have nodup (m : SortedMap K V) : m.entries.Nodup := m.sorted.imp fun lt same =>
    lt.ne (congrArg Prod.fst same)
  have perm : m.entries.Perm n.entries :=
    (List.subperm_of_subset (nodup m) (subset m n same)).antisymm
      (List.subperm_of_subset (nodup n) (subset n m fun k => (same k).symm))
  exact ext_entries (perm.eq_of_pairwise
    (fun a b _ _ ab ba => absurd ab ba.asymm) m.sorted n.sorted)

theorem get_copy (dst src : SortedMap K V) (k : K) : (dst.copy src).get k =
    (src.get k).or (dst.get k) := by
  have fold (l : List (K × V)) (sorted : l.Pairwise fun a b => a.1 < b.1) (m : SortedMap K V) :
      (l.foldl (fun m p => m.insert p.1 p.2) m).get k = (lookupList k l).or (m.get k) := by
    induction l generalizing m with
    | nil => rfl
    | cons head rest ih =>
      obtain ⟨above, sortedRest⟩ := List.pairwise_cons.mp sorted
      rw [List.foldl_cons, ih sortedRest, get_insert]
      by_cases here : k = head.1
      · -- The key does not come again further down the sorted list.
        have absent : lookupList k rest = none := by
          cases found : lookupList k rest with
          | none => rfl
          | some v =>
            have member : (k, v) ∈ rest := mem_of_get_eq_some
              (show (⟨rest, sortedRest⟩ : SortedMap K V).get k = some v from found)
            exact absurd (above _ member) (by simp [here])
        simp [lookupList, here, here ▸ absent]
      · simp [lookupList, here]
  exact fold src.entries src.sorted dst

theorem ofList_entries (m : SortedMap K V) : ofList m.entries = m := by
  apply ext
  intro k
  calc (ofList m.entries).get k = (empty.copy m).get k := rfl
    _ = m.get k := by rw [get_copy, get_empty, Option.or_none]

theorem mem_ofList {l : List (K × V)} {p : K × V} (member : p ∈ (ofList l).entries) : p ∈ l := by
  have fold (l : List (K × V)) (m : SortedMap K V)
      (member : p ∈ (l.foldl (fun m p => m.insert p.1 p.2) m).entries) : p ∈ l ∨ p ∈ m.entries := by
    induction l generalizing m with
    | nil => exact .inr member
    | cons head rest ih =>
      rcases ih (m.insert head.1 head.2) member with later | earlier
      · exact .inl (List.mem_cons_of_mem _ later)
      · rcases mem_insertList earlier with here | before
        · exact .inl (by simp [here])
        · exact .inr before
  rcases fold l empty member with found | absurd_
  · exact found
  · cases absurd_

end SortedMap

end Ledger.Shared
