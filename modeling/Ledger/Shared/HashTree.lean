import Mathlib.Data.List.Basic
import Mathlib.Data.Nat.Log

namespace Ledger.Shared

def Collision {M H : Type} (digest : M → H) (ours theirs : List M) : Prop :=
  ∃ a ∈ ours, ∃ b ∈ theirs, a ≠ b ∧ digest a = digest b

theorem Collision.mono {M H : Type} {digest : M → H} {ours ours' theirs theirs' : List M}
    (found : Collision digest ours theirs) (more : ours ⊆ ours') (more' : theirs ⊆ theirs') :
    Collision digest ours' theirs' := by
  obtain ⟨a, left, b, right, differ⟩ := found
  exact ⟨a, more left, b, more' right, differ⟩

inductive HashTree (α : Type) where
  | leaf (a : α)
  | fork (left right : HashTree α)
deriving DecidableEq

structure PairHash (M H : Type) where
  digest : M → H
  pair : H → H → M

/-- Two `Sized` digests can be read back from the message of the pair. -/
structure PairHash.Lawful {M H : Type} (hash : PairHash M H) (Sized : H → Prop) : Prop where
  digest_sized : ∀ m, Sized (hash.digest m)
  pair_injective : ∀ {a b c d : H}, Sized a → Sized b → Sized c → Sized d → hash.pair a b =
    hash.pair c d → a = c ∧ b = d

theorem zip_reverse {α β : Type} {xs : List α} {ys : List β} (length : xs.length = ys.length) :
    xs.zip ys.reverse = (xs.reverse.zip ys).reverse := by
  rw [← List.zip_unzip (xs.reverse.zip ys).reverse]
  simp [List.unzip_eq_map, List.map_reverse, List.map_fst_zip, List.map_snd_zip, length]

namespace HashTree

variable {α M H : Type}

def leaves : HashTree α → List α
  | .leaf a => [a]
  | .fork left right => left.leaves ++ right.leaves

def size (t : HashTree α) : Nat := t.leaves.length

@[simp] theorem size_leaf (a : α) : (leaf a).size = 1 := rfl

@[simp] theorem size_fork (left right : HashTree α) :
    (fork left right).size = left.size + right.size := by
  simp [size, leaves]

theorem size_pos (t : HashTree α) : 0 < t.size := by
  induction t with
  | leaf a => exact Nat.one_pos
  | fork left right ihl ihr =>
    rw [size_fork]
    omega

def turns : HashTree α → Nat → List Bool
  | .leaf _, _ => []
  | .fork left right, i =>
    if i < left.size then true :: left.turns i else false :: right.turns (i - left.size)

def shape : HashTree α → HashTree Unit
  | .leaf _ => .leaf ()
  | .fork left right => .fork left.shape right.shape

/-- Every fork has `split n` of its `n` leaves on the left. -/
inductive SplitBy (split : Nat → Nat) : HashTree α → Prop
  | leaf (a : α) : SplitBy split (.leaf a)
  | fork {left right : HashTree α} (at_split : left.size = split (left.size + right.size))
      (splitLeft : SplitBy split left) (splitRight : SplitBy split right) : SplitBy split (.fork left right)

variable {split : Nat → Nat}

theorem exists_splitBy (inside : ∀ n, 2 ≤ n → 0 < split n ∧ split n < n) (xs : List α)
    (some_leaf : xs ≠ []) :
    ∃ t : HashTree α, t.leaves = xs ∧ t.SplitBy split := by
  induction length : xs.length using Nat.strong_induction_on generalizing xs with
  | _ n ih =>
    match xs, some_leaf with
    | [a], _ => exact ⟨.leaf a, rfl, .leaf a⟩
    | a :: b :: rest, _ =>
      have atLeast : 2 ≤ n := by
        rw [← length, List.length_cons, List.length_cons]
        omega
      obtain ⟨low, high⟩ := inside n atLeast
      generalize a :: b :: rest = xs at length
      have lengthLeft : (xs.take (split n)).length = split n := by
        rw [List.length_take]
        omega
      have lengthRight : (xs.drop (split n)).length = n - split n := by rw [List.length_drop, length]
      obtain ⟨left, leavesLeft, splitLeft⟩ :=
        ih (split n) high (xs.take (split n)) (List.ne_nil_of_length_pos (by omega)) lengthLeft
      obtain ⟨right, leavesRight, splitRight⟩ :=
        ih (n - split n) (by omega) (xs.drop (split n)) (List.ne_nil_of_length_pos (by omega)) lengthRight
      refine ⟨.fork left right, ?_, .fork ?_ splitLeft splitRight⟩
      · rw [leaves, leavesLeft, leavesRight, List.take_append_drop]
      · rw [size, size, leavesLeft, leavesRight, lengthLeft, lengthRight, Nat.add_sub_cancel' high.le]

variable {t : HashTree α}

theorem SplitBy.shape_eq {u : HashTree α} (treeSplit : t.SplitBy split)
    (splitOther : u.SplitBy split) (sizes : t.size = u.size) :
    t.shape = u.shape := by
  induction treeSplit generalizing u with
  | leaf a =>
    cases splitOther with
    | leaf b => rfl
    | @fork left' right' at_split splitLeft splitRight =>
      have := left'.size_pos
      have := right'.size_pos
      rw [size_leaf, size_fork] at sizes
      omega
  | @fork left right at_split splitLeft splitRight ihl ihr =>
    cases splitOther with
    | leaf b =>
      have := left.size_pos
      have := right.size_pos
      rw [size_leaf, size_fork] at sizes
      omega
    | @fork left' right' at_split' splitLeft' splitRight' =>
      rw [size_fork, size_fork] at sizes
      have sizeLeft : left.size = left'.size := by rw [at_split, at_split', sizes]
      have sizeRight : right.size = right'.size := by omega
      rw [shape, shape, ihl splitLeft' sizeLeft, ihr splitRight' sizeRight]

section

variable (hash : PairHash M H) (value : α → H)

def root : HashTree α → H
  | .leaf a => value a
  | .fork left right => hash.digest (hash.pair left.root right.root)

def messages : HashTree α → List M
  | .leaf _ => []
  | .fork left right =>
    hash.pair (left.root hash value) (right.root hash value) :: (left.messages ++ right.messages)

def siblings : HashTree α → Nat → List H
  | .leaf _, _ => []
  | .fork left right, i =>
    if i < left.size then right.root hash value :: left.siblings i
    else left.root hash value :: right.siblings (i - left.size)

def climb (current : H) : List (H × Bool) → H
  | [] => current
  | (sibling, true) :: below => hash.digest (hash.pair (climb current below) sibling)
  | (sibling, false) :: below => hash.digest (hash.pair sibling (climb current below))

def climbed (current : H) : List (H × Bool) → List M
  | [] => []
  | (sibling, true) :: below =>
    hash.pair (climb hash current below) sibling :: climbed current below
  | (sibling, false) :: below =>
    hash.pair sibling (climb hash current below) :: climbed current below

theorem messages_left (left right : HashTree α) :
    left.messages hash value ⊆ (fork left right).messages hash value :=
  fun _ inside => List.mem_cons_of_mem _ (List.mem_append_left _ inside)

theorem messages_right (left right : HashTree α) :
    right.messages hash value ⊆ (fork left right).messages hash value :=
  fun _ inside => List.mem_cons_of_mem _ (List.mem_append_right _ inside)

theorem all_left (bytes : α → M) (left right : HashTree α) :
    left.leaves.map bytes ++ left.messages hash value ⊆ (fork left right).leaves.map bytes ++
    (fork left right).messages hash value := by
  rw [leaves, List.map_append]
  exact List.append_subset.mpr
    ⟨fun _ inside => List.mem_append_left _ (List.mem_append_left _ inside),
    fun _ inside => List.mem_append_right _ (messages_left hash value _ _ inside)⟩

theorem all_right (bytes : α → M) (left right : HashTree α) :
    right.leaves.map bytes ++ right.messages hash value ⊆ (fork left right).leaves.map bytes ++
    (fork left right).messages hash value := by
  rw [leaves, List.map_append]
  exact List.append_subset.mpr
    ⟨fun _ inside => List.mem_append_left _ (List.mem_append_right _ inside),
    fun _ inside => List.mem_append_right _ (messages_right hash value _ _ inside)⟩

end

variable {hash : PairHash M H} {value : α → H}

theorem siblings_length (t : HashTree α) (i : Nat) : (t.siblings hash value i).length =
    (t.turns i).length := by
  induction t generalizing i with
  | leaf a => rfl
  | fork left right ihl ihr =>
    unfold siblings turns
    by_cases low : i < left.size
    · simp [low, ihl]
    · simp [low, ihr]

variable {i : Nat}

theorem climb_siblings {a : α} (at_i : t.leaves[i]? = some a) :
    climb hash (value a) ((t.siblings hash value i).zip (t.turns i)) = t.root hash value := by
  induction t generalizing i with
  | leaf b =>
    rw [leaves, List.getElem?_singleton] at at_i
    split at at_i
    · rw [Option.some.inj at_i]
      rfl
    · cases at_i
  | fork left right ihl ihr =>
    unfold siblings turns
    by_cases low : i < left.size
    · rw [if_pos low, if_pos low, List.zip_cons_cons, climb, root, ihl]
      rwa [leaves, List.getElem?_append_left low] at at_i
    · rw [if_neg low, if_neg low, List.zip_cons_cons, climb, root, ihr]
      rwa [leaves, List.getElem?_append_right (Nat.le_of_not_lt low)] at at_i

section

variable {Sized : H → Prop} (lawful : hash.Lawful Sized)
include lawful

variable {t : HashTree α}

theorem root_sized (sized : ∀ a ∈ t.leaves, Sized (value a)) : Sized (t.root hash value) := by
  cases t with
  | leaf a => exact sized a (List.mem_singleton_self a)
  | fork left right => exact lawful.digest_sized _

theorem climb_sized {current : H} (sized : Sized current) (steps : List (H × Bool)) :
    Sized (climb hash current steps) := by
  match steps with
  | [] => exact sized
  | (_, true) :: _ | (_, false) :: _ => exact lawful.digest_sized _

omit lawful in
theorem same_or_collision {a b : M} {ours theirs : List M} (left : a ∈ ours) (right : b ∈ theirs)
    (same : hash.digest a = hash.digest b) : a = b ∨ Collision hash.digest ours theirs := by
  by_cases equal : a = b
  · exact .inl equal
  · exact .inr ⟨a, left, b, right, equal, same⟩

theorem climb_sound {a : α} {current : H} {siblings : List H} (at_i : t.leaves[i]? = some a)
    (sized : ∀ a ∈ t.leaves, Sized (value a))
    (start : Sized current) (given : ∀ s ∈ siblings, Sized s)
    (length : siblings.length = (t.turns i).length)
    (accepted : climb hash current (siblings.zip (t.turns i)) = t.root hash value) :
    current = value a ∨
      Collision hash.digest (climbed hash current (siblings.zip (t.turns i)))
      (t.messages hash value) := by
  induction t generalizing i siblings with
  | leaf b =>
    rw [turns, List.zip_nil_right, climb, root] at accepted
    rw [leaves, List.getElem?_singleton] at at_i
    split at at_i
    · rw [← Option.some.inj at_i]
      exact .inl accepted
    · cases at_i
  | fork left right ihl ihr =>
    have sizedLeft : ∀ a ∈ left.leaves, Sized (value a) := fun a inside =>
      sized a (List.mem_append_left _ inside)
    have sizedRight : ∀ a ∈ right.leaves, Sized (value a) := fun a inside =>
      sized a (List.mem_append_right _ inside)
    -- The top step: its two arguments are the two roots, or this is the collision.
    unfold turns at length accepted ⊢
    by_cases low : i < left.size
    · simp only [if_pos low, List.length_cons] at length accepted ⊢
      obtain ⟨s, siblings, rfl⟩ := List.exists_cons_of_length_eq_add_one length
      rw [List.zip_cons_cons] at accepted ⊢
      rw [climb, root] at accepted
      rcases same_or_collision (List.mem_cons_self ..) (List.mem_cons_self ..) accepted with same | found
      · obtain ⟨below, -⟩ := lawful.pair_injective (climb_sized lawful start _) (given s (List.mem_cons_self ..))
          (root_sized lawful sizedLeft) (root_sized lawful sizedRight) same
        rw [leaves, List.getElem?_append_left low] at at_i
        refine (ihl at_i sizedLeft (fun s inside => given s (List.mem_cons_of_mem _ inside)) (Nat.succ.inj length)
          below).imp_right fun found => ?_
        exact found.mono (List.subset_cons_self ..) (messages_left ..)
      · exact .inr found
    · simp only [if_neg low, List.length_cons] at length accepted ⊢
      obtain ⟨s, siblings, rfl⟩ := List.exists_cons_of_length_eq_add_one length
      rw [List.zip_cons_cons] at accepted ⊢
      rw [climb, root] at accepted
      rcases same_or_collision (List.mem_cons_self ..) (List.mem_cons_self ..) accepted with same | found
      · obtain ⟨-, below⟩ := lawful.pair_injective (given s (List.mem_cons_self ..)) (climb_sized lawful start _)
          (root_sized lawful sizedLeft) (root_sized lawful sizedRight) same
        rw [leaves, List.getElem?_append_right (Nat.le_of_not_lt low)] at at_i
        refine (ihr at_i sizedRight (fun s inside => given s (List.mem_cons_of_mem _ inside)) (Nat.succ.inj length)
          below).imp_right fun found => ?_
        exact found.mono (List.subset_cons_self ..) (messages_right ..)
      · exact .inr found

variable {u : HashTree α}

theorem values_of_root_eq (shapes : t.shape = u.shape) (sized : ∀ a ∈ t.leaves, Sized (value a))
    (sized' : ∀ a ∈ u.leaves, Sized (value a)) (same : t.root hash value = u.root hash value) :
    t.leaves.map value = u.leaves.map value ∨ Collision hash.digest (t.messages hash value)
    (u.messages hash value) := by
  induction t generalizing u with
  | leaf a =>
    cases u with
    | leaf b => exact .inl (congrArg (fun v => [v]) same)
    | fork left right => cases shapes
  | fork left right ihl ihr =>
    cases u with
    | leaf b => cases shapes
    | fork left' right' =>
      obtain ⟨shapeLeft, shapeRight⟩ := HashTree.fork.inj shapes
      simp only [leaves, List.mem_append, or_imp, forall_and] at sized sized'
      rcases same_or_collision (List.mem_cons_self ..) (List.mem_cons_self ..) same with equal | found
      · obtain ⟨rootLeft, rootRight⟩ := lawful.pair_injective (root_sized lawful sized.1) (root_sized lawful sized.2)
          (root_sized lawful sized'.1) (root_sized lawful sized'.2) equal
        rcases ihl shapeLeft sized.1 sized'.1 rootLeft with valuesLeft | found
        · rcases ihr shapeRight sized.2 sized'.2 rootRight with valuesRight | found
          · exact .inl (by rw [leaves, leaves, List.map_append, List.map_append, valuesLeft, valuesRight])
          · exact .inr (found.mono (messages_right ..) (messages_right ..))
        · exact .inr (found.mono (messages_left ..) (messages_left ..))
      · exact .inr found

theorem eq_of_root_eq {bytes : α → M} (injective : Function.Injective bytes)
    (kinds : ∀ a x y, bytes a ≠ hash.pair x y)
    (same : t.root hash (hash.digest ∘ bytes) = u.root hash (hash.digest ∘ bytes)) :
    t = u ∨ Collision hash.digest (t.leaves.map bytes ++ t.messages hash (hash.digest ∘ bytes))
      (u.leaves.map bytes ++ u.messages hash (hash.digest ∘ bytes)) := by
  have sized : ∀ v : HashTree α, ∀ a ∈ v.leaves, Sized ((hash.digest ∘ bytes) a) := fun _ _ _ =>
    lawful.digest_sized _
  induction t generalizing u with
  | leaf a =>
    cases u with
    | leaf b =>
      rcases same_or_collision (List.mem_cons_self ..) (List.mem_cons_self ..) same with equal | found
      · exact .inl (congrArg leaf (injective equal))
      · exact .inr found
    | fork left right =>
      refine .inr ⟨bytes a, List.mem_cons_self .., _, List.mem_append_right _
        (List.mem_cons_self ..), kinds a _ _, same⟩
  | fork left right ihl ihr =>
    cases u with
    | leaf b =>
      refine .inr ⟨_, List.mem_append_right _ (List.mem_cons_self ..), bytes b, List.mem_cons_self .., ?_, same⟩
      exact fun equal => kinds b _ _ equal.symm
    | fork left' right' =>
      rcases same_or_collision (List.mem_append_right _ (List.mem_cons_self ..))
        (List.mem_append_right _ (List.mem_cons_self ..)) same with equal | found
      · obtain ⟨rootLeft, rootRight⟩ := lawful.pair_injective (root_sized lawful (sized _))
          (root_sized lawful (sized _))
          (root_sized lawful (sized _)) (root_sized lawful (sized _)) equal
        rcases ihl rootLeft with equalLeft | found
        · rcases ihr rootRight with equalRight | found
          · exact .inl (by rw [equalLeft, equalRight])
          · exact .inr (found.mono (all_right ..) (all_right ..))
        · exact .inr (found.mono (all_left ..) (all_left ..))
      · exact .inr found

end

section

variable [DecidableEq H]

def differences (xs ys : List H) (offset : Nat) : List Nat :=
  (((xs.zip ys).zipIdx offset).filter fun p => p.1.1 ≠ p.1.2).map Prod.snd

theorem differences_append {xs ys : List H} (length : xs.length = ys.length)
    (xs' ys' : List H) (offset : Nat) :
    differences (xs ++ xs') (ys ++ ys') offset = differences xs ys offset ++ differences xs' ys'
    (offset + xs.length) := by
  rw [differences, List.zip_append length, List.zipIdx_append, List.filter_append, List.map_append,
    List.length_zip, ← length, min_self]
  rfl

theorem differences_self (xs : List H) (offset : Nat) : differences xs xs offset = [] := by
  rw [differences, List.map_eq_nil_iff, List.filter_eq_nil_iff]
  intro p member
  have pair : p.1 ∈ xs.zip xs := List.zipIdx_map_fst offset (xs.zip xs) ▸ List.mem_map_of_mem member
  rw [List.zip, List.zipWith_self] at pair
  obtain ⟨x, -, same⟩ := List.mem_map.mp pair
  simp [← same]

theorem differences_sorted (xs ys : List H) (offset : Nat) :
    (differences xs ys offset).Pairwise (· < ·) := by
  have sub : (differences xs ys offset).Sublist (List.range' offset (xs.zip ys).length) := by
    rw [← List.zipIdx_map_snd]
    exact List.filter_sublist.map _
  exact List.Pairwise.sublist sub List.pairwise_lt_range'

theorem mem_differences {xs ys : List H} (length : xs.length = ys.length) :
    i ∈ differences xs ys 0 ↔ xs[i]? ≠ ys[i]? := by
  simp only [differences, List.mem_map, List.mem_filter, decide_eq_true_eq]
  constructor
  · rintro ⟨p, ⟨member, different⟩, rfl⟩
    rw [List.mem_zipIdx_iff_getElem?, List.getElem?_zip_eq_some] at member
    rw [member.1, member.2, ne_eq, Option.some.injEq]
    exact different
  · intro different
    by_cases inside : i < xs.length
    · have left := List.getElem?_eq_getElem inside
      have right := List.getElem?_eq_getElem (length ▸ inside)
      refine ⟨((xs[i], ys[i]), i),
        ⟨?_, fun same => different (left.trans ((congrArg some same).trans right.symm))⟩, rfl⟩
      rw [List.mem_zipIdx_iff_getElem?, List.getElem?_zip_eq_some]
      exact ⟨left, right⟩
    · rw [List.getElem?_eq_none (by omega), List.getElem?_eq_none (by omega)] at different
      exact absurd rfl different

variable (hash : PairHash M H) (value : α → H)

def mismatches : HashTree α → HashTree α → Nat → List Nat
  | .leaf a, u, offset => if value a = u.root hash value then [] else [offset]
  | .fork left right, u, offset =>
    if (fork left right).root hash value = u.root hash value then []
    else
      match u with
      | .leaf _ => []
      | .fork left' right' => mismatches left left' offset ++ mismatches right right' (offset + left.size)

variable {hash value} {t u : HashTree α}

theorem shape_length (shapes : t.shape = u.shape) : t.size = u.size := by
  induction t generalizing u with
  | leaf a =>
    cases u with
    | leaf b => rfl
    | fork left right => cases shapes
  | fork left right ihl ihr =>
    cases u with
    | leaf b => cases shapes
    | fork left' right' =>
      obtain ⟨shapeLeft, shapeRight⟩ := HashTree.fork.inj shapes
      rw [size_fork, size_fork, ihl shapeLeft, ihr shapeRight]

theorem mismatches_nil_iff (shapes : t.shape = u.shape) (offset : Nat) :
    mismatches hash value t u offset = [] ↔ t.root hash value = u.root hash value := by
  induction t generalizing u offset with
  | leaf a =>
    rw [mismatches, root]
    split <;> simp_all
  | fork left right ihl ihr =>
    cases u with
    | leaf b => cases shapes
    | fork left' right' =>
      obtain ⟨shapeLeft, shapeRight⟩ := HashTree.fork.inj shapes
      rw [mismatches]
      split
      · next same => exact iff_of_true rfl same
      · next differ =>
        refine iff_of_false (fun empty => differ ?_) differ
        obtain ⟨emptyLeft, emptyRight⟩ := List.append_eq_nil_iff.mp empty
        rw [root, root, (ihl shapeLeft offset).mp emptyLeft, (ihr shapeRight _).mp emptyRight]

theorem mismatches_sublist (shapes : t.shape = u.shape) (offset : Nat) :
    (mismatches hash value t u offset).Sublist
    (differences (t.leaves.map value) (u.leaves.map value) offset) := by
  induction t generalizing u offset with
  | leaf a =>
    cases u with
    | leaf b =>
      rw [mismatches, root]
      split
      · exact List.nil_sublist _
      · next differ => simp [leaves, differences, differ]
    | fork left right => cases shapes
  | fork left right ihl ihr =>
    cases u with
    | leaf b => cases shapes
    | fork left' right' =>
      obtain ⟨shapeLeft, shapeRight⟩ := HashTree.fork.inj shapes
      have length : (left.leaves.map value).length = (left'.leaves.map value).length := by
        rw [List.length_map, List.length_map]
        exact shape_length shapeLeft
      rw [mismatches]
      split
      · exact List.nil_sublist _
      · rw [leaves, leaves, List.map_append, List.map_append, differences_append length, List.length_map]
        exact (ihl shapeLeft offset).append (ihr shapeRight _)

theorem mismatches_exact {Sized : H → Prop} (lawful : hash.Lawful Sized)
    (shapes : t.shape = u.shape)
    (sized : ∀ a ∈ t.leaves, Sized (value a)) (sized' : ∀ a ∈ u.leaves, Sized (value a))
    (offset : Nat) :
    mismatches hash value t u offset = differences (t.leaves.map value)
    (u.leaves.map value) offset ∨
      Collision hash.digest (t.messages hash value) (u.messages hash value) := by
  induction t generalizing u offset with
  | leaf a =>
    cases u with
    | leaf b =>
      left
      by_cases same : value a = value b <;> simp [mismatches, root, leaves, differences, same]
    | fork left right => cases shapes
  | fork left right ihl ihr =>
    cases u with
    | leaf b => cases shapes
    | fork left' right' =>
      obtain ⟨shapeLeft, shapeRight⟩ := HashTree.fork.inj shapes
      by_cases same : (fork left right).root hash value = (fork left' right').root hash value
      · -- A pruned subtree has no difference in it.
        rw [(mismatches_nil_iff shapes offset).mpr same]
        refine (values_of_root_eq lawful shapes sized sized' same).imp_left fun values => ?_
        rw [values, differences_self]
      · have length : (left.leaves.map value).length = (left'.leaves.map value).length := by
          rw [List.length_map, List.length_map]
          exact shape_length shapeLeft
        simp only [leaves, List.mem_append, or_imp, forall_and] at sized sized'
        rw [mismatches, if_neg same]
        rcases ihl shapeLeft sized.1 sized'.1 offset with exactLeft | found
        · rcases ihr shapeRight sized.2 sized'.2 (offset + left.size) with exactRight | found
          · left
            rw [exactLeft, exactRight, leaves, leaves, List.map_append, List.map_append,
              differences_append length, List.length_map]
            rfl
          · exact .inr (found.mono (messages_right ..) (messages_right ..))
        · exact .inr (found.mono (messages_left ..) (messages_left ..))

end

end HashTree

end Ledger.Shared
