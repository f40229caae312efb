import Ledger.Core.MerkleLoops
import Ledger.Shared.HashTree

namespace Ledger.Core

open Shared

def nodeScheme (sha256 : GoString → GoString) : PairHash GoString GoString where
  digest := sha256
  pair left right := merkleNodePrefix :: (left ++ right)

theorem nodeScheme_lawful {sha256 : GoString → GoString}
    (sized : ∀ bytes, (sha256 bytes).length = 32) :
    (nodeScheme sha256).Lawful (fun h => h.length = 32) where
  digest_sized := sized
  pair_injective a _ c _ same := List.append_inj (List.cons.inj same).2 (a.trans c.symm)

abbrev Split {α : Type} (t : HashTree α) : Prop := t.SplitBy largestPowerOfTwoLessThan

theorem exists_split {α : Type} (xs : List α) (some_leaf : xs ≠ []) : ∃ t :
    HashTree α, t.leaves = xs ∧ Split t := by
  refine HashTree.exists_splitBy (fun n several => ?_) xs some_leaf
  rw [largestPowerOfTwoLessThan_eq several]
  exact ⟨by positivity, split_lt several⟩

theorem split_size {α : Type} {left right : HashTree α}
    (at_split : left.size = largestPowerOfTwoLessThan (left.size + right.size)) :
    left.size = 2 ^ splitLog (left.size + right.size) := by
  have := left.size_pos
  have := right.size_pos
  rwa [largestPowerOfTwoLessThan_eq (by omega)] at at_split

theorem splitTurns_eq {α : Type} {t : HashTree α} (split : Split t) (fuel i : Nat)
    (bound : t.size ≤ fuel) :
    splitTurns fuel i t.size = t.turns i := by
  induction split generalizing fuel i with
  | leaf a =>
    cases fuel <;> simp [splitTurns, HashTree.turns]
  | @fork left right at_split splitLeft splitRight ihl ihr =>
    have sizeLeft := split_size at_split
    have := left.size_pos
    have := right.size_pos
    rw [HashTree.size_fork] at bound ⊢
    obtain _ | fuel := fuel
    · omega
    have several : ¬left.size + right.size ≤ 1 := by omega
    rw [splitTurns, if_neg several, ← sizeLeft, Nat.add_sub_cancel_left, HashTree.turns]
    by_cases low : i < left.size
    · rw [if_pos low, if_pos low, ihl fuel i (by omega)]
    · rw [if_neg low, if_neg low, ihr fuel (i - left.size) (by omega)]

section

variable {α : Type} (sha256 : GoString → GoString) (value : α → GoString)

def nodeOf : HashTree α → MerkleNode
  | .leaf a => .tip (value a) 1
  | .fork left right =>
    .fork ((HashTree.fork left right).root (nodeScheme sha256) value) (left.size + right.size)
      (nodeOf left) (nodeOf right)

@[simp] theorem nodeOf_hash (t : HashTree α) : (nodeOf sha256 value t).hash =
    t.root (nodeScheme sha256) value := by
  cases t <;> rfl

@[simp] theorem nodeOf_leafCount (t : HashTree α) : (nodeOf sha256 value t).leafCount = t.size := by
  cases t with
  | leaf h => rfl
  | fork left right => exact (HashTree.size_fork left right).symm

theorem nodeOf_hashed (t : HashTree α) : (nodeOf sha256 value t).hashed =
    t.messages (nodeScheme sha256) value := by
  induction t with
  | leaf h => rfl
  | fork left right ihl ihr =>
    rw [nodeOf, MerkleNode.hashed, HashTree.messages, ihl, ihr, nodeOf_hash, nodeOf_hash]
    rfl

theorem buildNodes_eq {t : HashTree α} (split : Split t) (depth : Nat) (bound : t.size ≤ depth) :
    buildNodes sha256 depth (t.leaves.map fun a => .tip (value a) 1) = nodeOf sha256 value t := by
  induction split generalizing depth with
  | leaf h =>
    cases depth <;> rfl
  | @fork left right at_split splitLeft splitRight ihl ihr =>
    have posLeft := left.size_pos
    have posRight := right.size_pos
    rw [HashTree.size_fork] at bound
    obtain _ | depth := depth
    · omega
    have length : ((left.fork right).leaves.map fun a => MerkleNode.tip (value a) 1).length =
      left.size + right.size := by
      rw [List.length_map, HashTree.leaves, List.length_append]
      rfl
    have several : ∀ nodes : List MerkleNode, nodes.length = left.size + right.size →
        buildNodes sha256 (depth + 1) nodes =
          let k := largestPowerOfTwoLessThan nodes.length
          let left := buildNodes sha256 depth (nodes.take k)
          let right := buildNodes sha256 depth (nodes.drop k)
          .fork (merkleNodeHash sha256 left.hash right.hash) (left.leafCount + right.leafCount) left right := by
      intro nodes length
      obtain _ | ⟨a, _ | ⟨b, rest⟩⟩ := nodes
      · rw [List.length_nil] at length
        omega
      · rw [List.length_singleton] at length
        omega
      · rfl
    rw [several _ length, length, ← at_split]
    have take : (((left.fork right).leaves.map fun a => MerkleNode.tip (value a) 1).take left.size) =
        left.leaves.map fun a => .tip (value a) 1 := by
      rw [HashTree.leaves, List.map_append, List.take_left' (by rw [List.length_map]; rfl)]
    have drop : (((left.fork right).leaves.map fun a => MerkleNode.tip (value a) 1).drop left.size) =
        right.leaves.map fun a => .tip (value a) 1 := by
      rw [HashTree.leaves, List.map_append, List.drop_left' (by rw [List.length_map]; rfl)]
    simp only [take, drop, ihl depth (by omega), ihr depth (by omega), nodeOf_hash, nodeOf_leafCount]
    rfl

theorem nodeTree_eq {t : HashTree α} (split : Split t) :
    nodeTree sha256 (t.leaves.map value) =
    ⟨nodeOf sha256 value t, t.leaves.map fun a => .tip (value a) 1⟩ := by
  have leaves : ((t.leaves.map value).map fun h => MerkleNode.tip h 1) = t.leaves.map fun a =>
    .tip (value a) 1 := List.map_map ..
  rw [nodeTree, leaves, List.length_map]
  exact congrArg (NodeTree.mk · _) (buildNodes_eq sha256 value split _ le_rfl)

theorem nodeTree_leaves {t : HashTree GoString} (split : Split t) :
    nodeTree sha256 t.leaves = ⟨nodeOf sha256 id t, t.leaves.map fun h => .tip h 1⟩ := by
  have built := nodeTree_eq sha256 id split
  rwa [List.map_id] at built

theorem descend_eq (t : HashTree α) (i : Nat) (path : List GoString) :
    descend (nodeOf sha256 value t) i path =
    (t.siblings (nodeScheme sha256) value i).reverse ++ path := by
  induction t generalizing i path with
  | leaf h => rfl
  | fork left right ihl ihr =>
    rw [nodeOf, descend, HashTree.siblings, nodeOf_leafCount]
    by_cases low : i < left.size
    · rw [if_pos (by exact_mod_cast low), if_pos low, ihl, List.reverse_cons, List.append_assoc, nodeOf_hash]
      rfl
    · rw [if_neg (by exact_mod_cast low), if_neg low, ← Nat.cast_sub (Nat.le_of_not_lt low), ihr, List.reverse_cons,
        List.append_assoc, nodeOf_hash]
      rfl

omit value in
theorem climb_eq (steps : List (GoString × Bool)) (current : GoString) :
    steps.reverse.foldl (fun h step => sha256 (Bounded.mergeMessage h step)) current =
      HashTree.climb (nodeScheme sha256) current steps := by
  induction steps with
  | nil => rfl
  | cons step steps ih =>
    rw [List.reverse_cons, List.foldl_append, ih]
    match step with
    | (sibling, true) => rfl
    | (sibling, false) => rfl

theorem climbed_eq (steps : List (GoString × Bool)) (current : GoString) :
    Bounded.pathHashed sha256 current steps.reverse =
    (HashTree.climbed (nodeScheme sha256) current steps).reverse := by
  have last : ∀ (steps : List (GoString × Bool)) (step : GoString × Bool) (current : GoString),
      Bounded.pathHashed sha256 current (steps ++ [step]) = Bounded.pathHashed sha256 current steps ++
        [Bounded.mergeMessage (steps.foldl (fun h step => sha256 (Bounded.mergeMessage h step)) current) step] := by
    intro steps step
    induction steps with
    | nil => exact fun _ => rfl
    | cons first steps ih => exact fun current => congrArg (_ :: ·) (ih _)
  induction steps with
  | nil => rfl
  | cons step steps ih =>
    rw [List.reverse_cons, last, ih, climb_eq]
    match step with
    | (sibling, true) | (sibling, false) => rw [HashTree.climbed, List.reverse_cons]; rfl

end

variable (sha256 : GoString → GoString)

theorem accepted_iff {α : Type} {wrap : Int → Int} {t : HashTree α} (split : Split t) {i : Nat}
    (inside : i < t.size)
    (exact : Exact wrap (2 * t.size)) (budget : Budget) (leafHash : GoString)
    (path : List GoString) (root : GoString) :
    Bounded.verifyInclusion sha256 wrap budget leafHash ⟨i, t.size, path⟩ root = some true ↔
      (2 * path.length ≤ budget.rounds ∧ splitDoublings t.size i t.size ≤ budget.doublings) ∧
      path.length = (t.turns i).length ∧
        HashTree.climb (nodeScheme sha256) leafHash (path.reverse.zip (t.turns i)) = root := by
  rw [Bounded.verifyInclusion_eq sha256 exact inside, splitTurns_eq split _ _ le_rfl]
  by_cases length : path.length = (t.turns i).length
  · rw [← length, zip_reverse length, climb_eq, if_neg (not_not.mpr rfl)]
    by_cases fits : 2 * path.length ≤ budget.rounds ∧ splitDoublings t.size i t.size ≤ budget.doublings
    · rw [if_pos (by omega), if_pos (by omega)]
      simp [fits]
    · split
      · rw [if_neg (by omega)]
        simp [fits]
      · simp [fits]
  · rw [if_pos (Ne.symm length)]
    simp [length]

theorem root_treeHash {α : Type} (value : α → GoString) {t : HashTree α} (split : Split t) :
    TreeHash sha256 value t.leaves (t.root (nodeScheme sha256) value) := by
  induction split with
  | leaf a => exact .leaf a
  | @fork left right at_split splitLeft splitRight ihl ihr =>
    have sizeLeft := split_size at_split
    have largest : right.size ≤ 2 ^ splitLog (left.size + right.size) := by
      have := le_two_split (left.size + right.size)
      omega
    exact .node _ sizeLeft (List.ne_nil_of_length_pos right.size_pos) largest ihl ihr

/-- The proof taken from a tree for one of its leaves is accepted, has no more siblings than the
tree is deep, and the root is the tree hash of RFC 6962. The accepting call is the same on unbounded
integers and, for as many leaves as a slice can hold, on wrapping ones. -/
theorem inclusion_complete (sha256 : GoString → GoString) {α : Type} (leafHash : α → GoString)
    (data : List α) (i : Fin data.length) :
    let tree := nodeTree sha256 (data.map leafHash)
    ∃ h proof, tree.leafHash i = .ok h ∧ tree.generateInclusionProof i = .ok proof ∧
      (∃ budget, Bounded.verifyInclusion sha256 id budget h proof tree.root.hash = some true) ∧
      (data.length ≤ 2 ^ 62 → ∃ budget, Bounded.verifyInclusion sha256 wrap64 budget h proof
        tree.root.hash = some true) ∧
      proof.path.length ≤ Nat.clog 2 data.length ∧ TreeHash sha256 leafHash data tree.root.hash := by
  obtain ⟨i, inside⟩ := i
  obtain ⟨t, rfl, split⟩ := exists_split data (List.ne_nil_of_length_pos (by omega))
  intro tree
  have built : tree = ⟨nodeOf sha256 leafHash t, t.leaves.map fun a => .tip (leafHash a) 1⟩ :=
    nodeTree_eq sha256 leafHash split
  have found : t.leaves[i]? = some t.leaves[i] := List.getElem?_eq_getElem inside
  have size : t.leaves.length = t.size := rfl
  let path := (t.siblings (nodeScheme sha256) leafHash i).reverse
  have length : path.length = (t.turns i).length := by
    rw [List.length_reverse, HashTree.siblings_length]
  have climbs : HashTree.climb (nodeScheme sha256) (leafHash t.leaves[i])
    (path.reverse.zip (t.turns i)) =
      t.root (nodeScheme sha256) leafHash := by
    rw [List.reverse_reverse]
    exact HashTree.climb_siblings found
  have accepts : ∀ wrap, Exact wrap (2 * t.size) → ∃ budget,
      Bounded.verifyInclusion sha256 wrap budget (leafHash t.leaves[i]) ⟨i, t.size, path⟩
        tree.root.hash = some true := by
    intro wrap exact
    refine ⟨⟨_, _⟩, (accepted_iff sha256 split inside exact _ _ _ _).mpr ⟨⟨le_rfl, le_rfl⟩, length, ?_⟩⟩
    rw [built, nodeOf_hash, climbs]
  refine ⟨leafHash t.leaves[i], ⟨i, t.size, path⟩, ?_, ?_, accepts id (exact_id _),
    fun small => ?_, ?_, ?_⟩
  · have low : ¬(i : Int) < 0 := by omega
    simp [built, NodeTree.leafHash, found, low]
  · have positive := t.size_pos
    rw [NodeTree.generateInclusionProof, built]
    simp only [nodeOf_leafCount]
    rw [require_of (by omega), require_of (by omega)]
    exact congrArg (fun path => Except.ok (InclusionProof.mk i t.size path))
      ((descend_eq sha256 leafHash t i []).trans (List.append_nil _))
  · exact accepts wrap64 (exact_wrap64.mono (by omega))
  · rw [length, ← splitTurns_eq split _ _ le_rfl]
    exact splitTurns_length _ _ _
  · rw [built, nodeOf_hash]
    exact root_treeHash sha256 leafHash split

variable {hashes : List GoString} {t : HashTree GoString}

theorem payloadsHashed_eq (split : Split t) : payloadsHashed sha256 t.leaves =
      t.leaves.map (merkleLeafPrefix :: ·) ++ t.messages (nodeScheme sha256)
      (merkleLeafHash sha256) := by
  have nonempty : t.leaves.isEmpty = false := by
    rw [List.isEmpty_eq_false_iff]
    exact List.ne_nil_of_length_pos t.size_pos
  rw [payloadsHashed, nonempty, buildMerkleTreeFromPayloads,
    nodeTree_eq sha256 _ split, nodeOf_hashed]
  rfl

theorem root_message (split : Split t) : ∃ message ∈ payloadsHashed sha256 t.leaves, message ≠ [] ∧
      (buildMerkleTreeFromPayloads sha256 t.leaves).root.hash = sha256 message := by
  rw [payloadsHashed_eq sha256 split, buildMerkleTreeFromPayloads,
    nodeTree_eq sha256 _ split, nodeOf_hash]
  cases t with
  | leaf a => exact ⟨merkleLeafPrefix :: a, List.mem_cons_self .., List.cons_ne_nil _ _, rfl⟩
  | fork left right =>
    exact ⟨_, List.mem_append_right _ (List.mem_cons_self ..), List.cons_ne_nil _ _, rfl⟩

section

variable {sha256} (sized : ∀ bytes, (sha256 bytes).length = 32)
include sized

theorem accepted_sound (leaves : ∀ h ∈ hashes, h.length = 32) {leafHash : GoString}
    (leaf : leafHash.length = 32) {i : Nat} (inside : i < hashes.length)
    {path : List GoString} (given : ∀ h ∈ path, h.length = 32) {budget : Budget}
    (accepted : Bounded.verifyInclusion sha256 wrap64 budget leafHash ⟨i, hashes.length, path⟩
      (nodeTree sha256 hashes).root.hash =
      some true) : hashes[i]? = some leafHash ∨
      Collision sha256 (Bounded.inclusionHashed sha256 wrap64 budget leafHash ⟨i, hashes.length, path⟩)
        (nodeTree sha256 hashes).root.hashed := by
  obtain ⟨t, rfl, split⟩ := exists_split hashes (List.ne_nil_of_length_pos (by omega))
  have size : t.leaves.length = t.size := rfl
  rw [size] at inside accepted ⊢
  -- Beyond the last doubling there is no verdict at all.
  have small : t.size ≤ 2 ^ 62 := by
    by_contra beyond
    have inRange : ¬Bounded.OutOfRange ⟨i, t.size, path⟩ := by
      simp only [Bounded.OutOfRange]
      omega
    have large : (2 : Int) ^ 62 < t.size := by omega
    rw [Bounded.verifyInclusion_endless sha256 inRange large] at accepted
    cases accepted
  have exact : Exact wrap64 (2 * t.size) := exact_wrap64.mono (by omega)
  rw [nodeTree_leaves sha256 split, accepted_iff sha256 split inside exact, nodeOf_hash] at accepted
  obtain ⟨⟨rounds, doublings⟩, length, climbs⟩ := accepted
  have found : t.leaves[i]? = some t.leaves[i] := List.getElem?_eq_getElem inside
  have hashed : Bounded.inclusionHashed sha256 wrap64 budget leafHash ⟨i, t.size, path⟩ =
      (HashTree.climbed (nodeScheme sha256) leafHash (path.reverse.zip (t.turns i))).reverse := by
    rw [← climbed_eq, ← zip_reverse length, Bounded.inclusionHashed, Bounded.computeMerkleDirections,
      Bounded.directionLoop_eq exact t.size _ _ i inside le_rfl, splitTurns_eq split _ _ le_rfl,
        Bounded.paid, if_pos (by omega)]
  rw [nodeTree_leaves sha256 split, hashed, nodeOf_hashed, found, Option.some.injEq, eq_comm]
  refine (HashTree.climb_sound (nodeScheme_lawful sized) found leaves leaf
    (fun h member => given h (List.mem_reverse.mp member))
    (by rw [List.length_reverse, length]) climbs).imp_right fun collision => ?_
  exact collision.mono (fun _ member => List.mem_reverse.mpr member) (List.Subset.refl _)

theorem leafHashes_bound {hashes' : List GoString}
    (leaves : ∀ h ∈ hashes, h.length = 32) (leaves' : ∀ h ∈ hashes', h.length = 32)
    (length : hashes.length = hashes'.length)
    (same : (nodeTree sha256 hashes).root.hash = (nodeTree sha256 hashes').root.hash) :
    hashes = hashes' ∨ Collision sha256 (nodeTree sha256 hashes).root.hashed
    (nodeTree sha256 hashes').root.hashed := by
  by_cases empty : hashes = []
  · subst empty
    exact .inl (List.eq_nil_of_length_eq_zero length.symm).symm
  have nonempty' : hashes' ≠ [] := by
    rintro rfl
    exact empty (List.eq_nil_of_length_eq_zero length)
  obtain ⟨t, rfl, split⟩ := exists_split hashes empty
  obtain ⟨u, rfl, split'⟩ := exists_split hashes' nonempty'
  rw [nodeTree_leaves sha256 split, nodeTree_leaves sha256 split', nodeOf_hash, nodeOf_hash] at same
  rw [nodeTree_leaves sha256 split, nodeTree_leaves sha256 split', nodeOf_hashed, nodeOf_hashed]
  have equal : t.leaves.map id = u.leaves.map id ∨ _ := HashTree.values_of_root_eq
    (nodeScheme_lawful sized) (split.shape_eq split' length) leaves leaves' same
  rwa [List.map_id, List.map_id] at equal

theorem payloads_bound {payloads payloads' : List GoString}
    (same : (buildMerkleTreeFromPayloads sha256 payloads).root.hash =
      (buildMerkleTreeFromPayloads sha256 payloads').root.hash) :
    payloads = payloads' ∨ Collision sha256 (payloadsHashed sha256 payloads)
    (payloadsHashed sha256 payloads') := by
  by_cases empty : payloads = []
  · subst empty
    by_cases empty' : payloads' = []
    · exact .inl empty'.symm
    · obtain ⟨u, rfl, split'⟩ := exists_split payloads' empty'
      obtain ⟨message, member, nonempty, root⟩ := root_message sha256 split'
      exact .inr ⟨[], List.mem_singleton_self _, message, member, nonempty.symm, same.trans root⟩
  obtain ⟨t, rfl, split⟩ := exists_split payloads empty
  by_cases empty' : payloads' = []
  · subst empty'
    obtain ⟨message, member, nonempty, root⟩ := root_message sha256 split
    exact .inr ⟨message, member, [], List.mem_singleton_self _, nonempty, root.symm.trans same⟩
  obtain ⟨u, rfl, split'⟩ := exists_split payloads' empty'
  -- Both trees have leaves: the prefixes keep leaves and interior nodes apart.
  rw [buildMerkleTreeFromPayloads, buildMerkleTreeFromPayloads, nodeTree_eq sha256 _ split,
    nodeTree_eq sha256 _ split',
    nodeOf_hash, nodeOf_hash] at same
  rw [payloadsHashed_eq sha256 split, payloadsHashed_eq sha256 split']
  have injective : Function.Injective (merkleLeafPrefix :: · : GoString → GoString) :=
    List.cons_injective
  have kinds : ∀ a x y, merkleLeafPrefix :: a ≠ (nodeScheme sha256).pair x y :=
    fun a x y equal => absurd (List.cons.inj equal).1 (by decide)
  exact (HashTree.eq_of_root_eq (nodeScheme_lawful sized) injective kinds same).imp_left
    (congrArg HashTree.leaves)

end

/-- An accepted proof is one for the leaf of the tree, and a root belongs to one list of leaves,
unless the computations have hashed two different byte strings alike. -/
theorem merkle_sound {sha256 : GoString → GoString} (sized : ∀ bytes, (sha256 bytes).length = 32) :
    (∀ (hashes : List GoString) (leafHash : GoString) (proof : InclusionProof) (budget : Budget),
      (∀ h ∈ hashes, h.length = 32) →
      leafHash.length = 32 → (∀ h ∈ proof.path, h.length = 32) → proof.treeSize = hashes.length →
      ∀ i < hashes.length,
        proof.leafIndex = i →
        Bounded.verifyInclusion sha256 wrap64 budget leafHash proof (nodeTree sha256 hashes).root.hash = some true →
        hashes[i]? = some leafHash ∨
          Collision sha256 (Bounded.inclusionHashed sha256 wrap64 budget leafHash proof)
          (nodeTree sha256 hashes).root.hashed) ∧
    (∀ payloads payloads', payloads ≠ payloads' →
      (buildMerkleTreeFromPayloads sha256 payloads).root.hash =
      (buildMerkleTreeFromPayloads sha256 payloads').root.hash →
        Collision sha256 (payloadsHashed sha256 payloads) (payloadsHashed sha256 payloads')) ∧
    (∀ hashes hashes' : List GoString, (∀ h ∈ hashes, h.length = 32) →
      (∀ h ∈ hashes', h.length = 32) →
      hashes.length = hashes'.length → hashes ≠ hashes' → (nodeTree sha256 hashes).root.hash =
      (nodeTree sha256 hashes').root.hash →
        Collision sha256 (nodeTree sha256 hashes).root.hashed (nodeTree sha256 hashes').root.hashed) := by
  refine ⟨?_, ?_, ?_⟩
  · rintro hashes leafHash ⟨_, _, path⟩ budget leaves leaf given rfl i inside rfl accepted
    exact accepted_sound sized leaves leaf inside given accepted
  · intro payloads payloads' differ same
    exact (payloads_bound sized same).resolve_left differ
  · intro hashes hashes' leaves leaves' length differ same
    exact (leafHashes_bound sized leaves leaves' length same).resolve_left differ

namespace MerkleSample

def digest (bytes : GoString) : GoString := (bytes ++ List.replicate 32 0).take 32

theorem digest_sized (bytes : GoString) : (digest bytes).length = 32 := by
  rw [digest, List.length_take, List.length_append, List.length_replicate]
  omega

def leaf : GoString := List.replicate 32 1

def sibling : GoString := List.replicate 32 2

end MerkleSample

theorem merkle_sound_sibling :
    Bounded.verifyInclusion MerkleSample.digest wrap64 ⟨0, 2⟩ MerkleSample.leaf
    ⟨0, 2, [MerkleSample.sibling]⟩
        (nodeTree MerkleSample.digest [MerkleSample.leaf, MerkleSample.sibling]).root.hash = some true ∧
      ([MerkleSample.leaf, MerkleSample.sibling][0]? = some MerkleSample.leaf ∨
        Collision MerkleSample.digest
          (Bounded.inclusionHashed MerkleSample.digest wrap64 ⟨0, 2⟩ MerkleSample.leaf ⟨0, 2, [MerkleSample.sibling]⟩)
          (nodeTree MerkleSample.digest [MerkleSample.leaf, MerkleSample.sibling]).root.hashed) := by
  have accepted : Bounded.verifyInclusion MerkleSample.digest wrap64 ⟨0, 2⟩ MerkleSample.leaf
    ⟨0, 2, [MerkleSample.sibling]⟩
      (nodeTree MerkleSample.digest [MerkleSample.leaf, MerkleSample.sibling]).root.hash = some true := by decide
  exact ⟨accepted, (merkle_sound MerkleSample.digest_sized).1 _ _ _ _ (by decide) (by decide)
    (by decide) rfl 0 (by decide) rfl accepted⟩

end Ledger.Core
