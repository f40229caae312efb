import Ledger.Core.MerkleProofs

namespace Ledger.Core

open Shared

/-- `none` is the nil dereference below a fork that stands across from a leaf. -/
def walk : MerkleNode → MerkleNode → Nat → Option (List Nat)
  | .tip h _, act, offset => if h = act.hash then some [] else some [offset]
  | .fork h _ left right, act, offset =>
    if h = act.hash then some []
    else
      match act with
      | .tip _ _ => none
      | .fork _ _ left' right' => do
        let first ← walk left left' offset
        let second ← walk right right' (offset + left.leafCount)
        return first ++ second

def locateMismatches (reference actual : NodeTree) : Option (Result (List Nat)) :=
  if reference.root.leafCount ≠ actual.root.leafCount then
    some (.error ⟨.invalidInput,
      "core: locate mismatches: tree sizes differ (reference=%d, actual=%d); localization requires equal leaf counts -- an entry-count mismatch is a deletion/insertion, already caught by CanonicalBatchDigest's recount"⟩)
  else if reference.root.leafCount = 0 then some (.ok [])
  else (walk reference.root actual.root 0).map .ok

variable {u t : HashTree GoString}

theorem walk_eq (sha256 : GoString → GoString) (shapes : t.shape = u.shape) (offset : Nat) :
    walk (nodeOf sha256 id t) (nodeOf sha256 id u) offset =
    some (t.mismatches (nodeScheme sha256) id u offset) := by
  induction t generalizing u offset with
  | leaf a =>
    rw [nodeOf, walk, HashTree.mismatches, nodeOf_hash]
    split <;> rfl
  | fork left right ihl ihr =>
    cases u with
    | leaf b => cases shapes
    | fork left' right' =>
      obtain ⟨shapeLeft, shapeRight⟩ := HashTree.fork.inj shapes
      simp only [nodeOf, walk, HashTree.mismatches, MerkleNode.hash_fork, nodeOf_leafCount,
        ihl shapeLeft, ihr shapeRight]
      split <;> rfl

section

variable {sha256 : GoString → GoString} {hashes hashes' : List GoString}

theorem locateMismatches_eq (length : hashes.length = hashes'.length) (split : Split t)
    (split' : Split u) (leaves : t.leaves = hashes)
    (leaves' : u.leaves = hashes') :
    locateMismatches (nodeTree sha256 hashes) (nodeTree sha256 hashes') =
    some (.ok (t.mismatches (nodeScheme sha256) id u 0)) := by
  subst leaves leaves'
  have sizes : t.size = u.size := length
  have some_leaf : t.size ≠ 0 := t.size_pos.ne'
  rw [locateMismatches, nodeTree_leaves sha256 split, nodeTree_leaves sha256 split',
    nodeOf_leafCount, nodeOf_leafCount,
    if_neg (not_not.mpr sizes), if_neg some_leaf, walk_eq sha256 (split.shape_eq split' sizes)]
  rfl

theorem locateMismatches_exact (sized : ∀ bytes, (sha256 bytes).length = 32)
    (leaves : ∀ h ∈ hashes, h.length = 32)
    (leaves' : ∀ h ∈ hashes', h.length = 32) (length : hashes.length = hashes'.length) :
    ∃ indices, locateMismatches (nodeTree sha256 hashes) (nodeTree sha256 hashes') =
    some (.ok indices) ∧
      indices.Pairwise (· < ·) ∧ (∀ i ∈ indices, hashes[i]? ≠ hashes'[i]?) ∧
      ((∀ i, hashes[i]? ≠ hashes'[i]? → i ∈ indices) ∨
        Collision sha256 (nodeTree sha256 hashes).root.hashed (nodeTree sha256 hashes').root.hashed) ∧
      (indices = [] ↔ (nodeTree sha256 hashes).root.hash = (nodeTree sha256 hashes').root.hash) := by
  by_cases empty : hashes = []
  · subst empty
    obtain rfl := List.eq_nil_of_length_eq_zero length.symm
    exact ⟨[], rfl, .nil, by simp, .inl (by simp), by simp⟩
  have nonempty' : hashes' ≠ [] := by
    rintro rfl
    exact empty (List.eq_nil_of_length_eq_zero length)
  obtain ⟨t, rfl, split⟩ := exists_split hashes empty
  obtain ⟨u, rfl, split'⟩ := exists_split hashes' nonempty'
  have shapes := split.shape_eq split' length
  have sub : (t.mismatches (nodeScheme sha256) id u 0).Sublist _ :=
    HashTree.mismatches_sublist shapes 0
  have exact_ := HashTree.mismatches_exact (nodeScheme_lawful sized) shapes
    (show ∀ h ∈ t.leaves, (id h).length = 32 from leaves) leaves' 0
  rw [List.map_id, List.map_id] at sub exact_
  refine ⟨_, locateMismatches_eq length split split' rfl rfl,
    (HashTree.differences_sorted _ _ _).sublist sub,
    fun i member => (HashTree.mem_differences length).mp (sub.subset member), ?_, ?_⟩
  · rw [nodeTree_leaves sha256 split, nodeTree_leaves sha256 split', nodeOf_hashed, nodeOf_hashed]
    refine exact_.imp_left fun all i different => ?_
    rw [all]
    exact (HashTree.mem_differences length).mpr different
  · rw [HashTree.mismatches_nil_iff shapes, nodeTree_leaves sha256 split, nodeTree_leaves sha256
      split', nodeOf_hash, nodeOf_hash]

end

theorem locateMismatches_exact_three :
    locateMismatches (nodeTree MerkleSample.digest
      [MerkleSample.leaf, MerkleSample.leaf, MerkleSample.leaf])
        (nodeTree MerkleSample.digest [MerkleSample.sibling, MerkleSample.leaf,
          MerkleSample.sibling]) = some (.ok [0, 2]) ∧
      ([0, 2] : List Nat).Pairwise (· < ·) := by
  have found : locateMismatches
    (nodeTree MerkleSample.digest [MerkleSample.leaf, MerkleSample.leaf, MerkleSample.leaf])
      (nodeTree MerkleSample.digest [MerkleSample.sibling, MerkleSample.leaf, MerkleSample.sibling])
        = some (.ok [0, 2]) := by
    decide +kernel
  obtain ⟨indices, ok, sorted, -⟩ := @locateMismatches_exact MerkleSample.digest
    [MerkleSample.leaf, MerkleSample.leaf, MerkleSample.leaf]
      [MerkleSample.sibling, MerkleSample.leaf, MerkleSample.sibling]
    MerkleSample.digest_sized (by decide) (by decide) rfl
  rw [found, Option.some.injEq, Except.ok.injEq] at ok
  exact ⟨found, ok ▸ sorted⟩

end Ledger.Core
