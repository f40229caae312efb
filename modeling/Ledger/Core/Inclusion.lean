import Ledger.Core.Merkle

namespace Ledger.Core

open Shared

/-- A node with its hash. A tip has no children; that of an empty tree counts no leaf. -/
inductive MerkleNode where
  | tip (hash : GoString) (leafCount : Nat)
  | fork (hash : GoString) (leafCount : Nat) (left right : MerkleNode)
deriving DecidableEq

namespace MerkleNode

def hash : MerkleNode → GoString
  | .tip h _ => h
  | .fork h _ _ _ => h

def leafCount : MerkleNode → Nat
  | .tip _ n => n
  | .fork _ n _ _ => n

@[simp] theorem hash_tip (h : GoString) (n : Nat) : (tip h n).hash = h := rfl

@[simp] theorem hash_fork (h : GoString) (n : Nat) (left right : MerkleNode) :
    (fork h n left right).hash = h := rfl

def hashed : MerkleNode → List GoString
  | .tip _ _ => []
  | .fork _ _ left right =>
    (merkleNodePrefix :: (left.hash ++ right.hash)) :: (left.hashed ++ right.hashed)

end MerkleNode

structure NodeTree where
  root : MerkleNode
  leaves : List MerkleNode

def NodeTree.leafHash (t : NodeTree) (index : Int) : Result GoString :=
  match if index < 0 then none else t.leaves[index.toNat]? with
  | some leaf => .ok leaf.hash
  | none => .error ⟨.invalidInput, "core: leaf hash: index %d out of range [0,%d)"⟩

structure InclusionProof where
  leafIndex : Int
  treeSize : Int
  path : List GoString

def descend : MerkleNode → Int → List GoString → List GoString
  | .tip _ _, _, path => path
  | .fork _ _ left right, i, path =>
    if i < left.leafCount then descend left i (right.hash :: path)
    else descend right (i - left.leafCount) (left.hash :: path)

def NodeTree.generateInclusionProof (t : NodeTree) (index : Int) : Result InclusionProof := do
  let n := t.root.leafCount
  require (n ≠ 0) ⟨.invalidInput, "core: generate inclusion proof: empty tree has no leaves"⟩
  require (¬(index < 0 ∨ n ≤ index))
    ⟨.invalidInput, "core: generate inclusion proof: index %d out of range [0,%d)"⟩
  return ⟨index, n, descend t.root index []⟩

/-- Loop rounds that a call may still make: those of the helper and those of the other two loops. -/
structure Budget where
  doublings : Nat
  rounds : Nat

namespace Bounded

section

variable (wrap : Int → Int)

def doublingLoop (n : Int) : Nat → Int → Option (Int × Nat)
  | 0, k => if wrap (k * 2) < n then none else some (k, 0)
  | left + 1, k => if wrap (k * 2) < n then doublingLoop n left (wrap (k * 2)) else some (k, left + 1)

def largestPowerOfTwoLessThan (left : Nat) (n : Int) : Option (Int × Nat) :=
  doublingLoop wrap n left 1

def directionLoop : Nat → Nat → Int → Int → Option (List Bool × Budget)
  | 0, doublings, _, treeSize => if 1 < treeSize then none else some ([], ⟨doublings, 0⟩)
  | rounds + 1, doublings, index, treeSize =>
    if 1 < treeSize then do
      let (k, doublings) ← largestPowerOfTwoLessThan wrap doublings treeSize
      if index < k then
        (directionLoop rounds doublings index k).map fun (dirs, left) => (true :: dirs, left)
      else
        (directionLoop rounds doublings (wrap (index - k)) (wrap (treeSize - k))).map
          fun (dirs, left) => (false :: dirs, left)
    else some ([], ⟨doublings, rounds + 1⟩)

def computeMerkleDirections (budget : Budget) (index treeSize : Int) :
    Option (List Bool × Budget) :=
  directionLoop wrap budget.rounds budget.doublings index treeSize

end

end Bounded

section

variable (sha256 : GoString → GoString)

def buildNodes : Nat → List MerkleNode → MerkleNode
  | _, [] => .tip (emptyMerkleRoot sha256) 0
  | _, [node] => node
  | 0, _ => .tip (emptyMerkleRoot sha256) 0
  | depth + 1, nodes =>
    let k := largestPowerOfTwoLessThan nodes.length
    let left := buildNodes depth (nodes.take k)
    let right := buildNodes depth (nodes.drop k)
    .fork (merkleNodeHash sha256 left.hash right.hash) (left.leafCount + right.leafCount) left right

def nodeTree (leafHashes : List GoString) : NodeTree :=
  let leaves := leafHashes.map fun h => MerkleNode.tip h 1
  ⟨buildNodes sha256 leaves.length leaves, leaves⟩

def buildMerkleTreeFromPayloads (payloads : List GoString) : NodeTree :=
  nodeTree sha256 (payloads.map (merkleLeafHash sha256))

theorem buildNodes_hash (depth : Nat) (leafHashes : List GoString) :
    (buildNodes sha256 depth (leafHashes.map fun h => .tip h 1)).hash =
    mth sha256 depth leafHashes := by
  induction depth generalizing leafHashes with
  | zero => obtain _ | ⟨h, _ | ⟨h', rest⟩⟩ := leafHashes <;> rfl
  | succ depth ih =>
    obtain _ | ⟨h, _ | ⟨h', rest⟩⟩ := leafHashes
    · rfl
    · rfl
    · rw [mth, ← ih, ← ih, List.map_take, List.map_drop]
      · simp [buildNodes]
      · simp
      · simp

/-- The tree with nodes and the one that keeps the root and the leaf hashes are of one source type.
-/
theorem nodeTree_view (leafHashes : List GoString) :
    (⟨(nodeTree sha256 leafHashes).root.hash, (nodeTree sha256 leafHashes).leaves.map
      (·.hash)⟩ : MerkleTree) =
      ⟨buildMTH sha256 leafHashes, leafHashes⟩ := by
  simp [nodeTree, buildMTH, buildNodes_hash, Function.comp_def]

theorem buildMerkleTree_view {entries : List AttestedEntry} {t : MerkleTree}
    (ok : buildMerkleTree sha256 entries = .ok t) :
    ∃ payloads, List.Forall₂ (fun e payload => encodeAttestedEntry e =
      .ok payload) entries payloads ∧
      t = ⟨(buildMerkleTreeFromPayloads sha256 payloads).root.hash,
        (buildMerkleTreeFromPayloads sha256 payloads).leaves.map (·.hash)⟩ := by
  simp only [buildMerkleTree, bind_eq_ok, pure_eq_ok] at ok
  obtain ⟨payloads, encoded, rfl⟩ := ok
  refine ⟨payloads, ?_, (nodeTree_view sha256 _).symm⟩
  simpa only [within_eq_ok] using collect_eq_ok.mp encoded

def payloadsHashed (payloads : List GoString) : List GoString :=
  if payloads.isEmpty then [[]]
  else payloads.map (merkleLeafPrefix :: ·) ++
    (buildMerkleTreeFromPayloads sha256 payloads).root.hashed

namespace Bounded

def mergeMessage (current : GoString) : GoString × Bool → GoString
  | (sibling, true) => merkleNodePrefix :: (current ++ sibling)
  | (sibling, false) => merkleNodePrefix :: (sibling ++ current)

def pathLoop : Nat → GoString → List (GoString × Bool) → Option GoString
  | _, current, [] => some current
  | 0, _, _ :: _ => none
  | rounds + 1, current, step :: steps => pathLoop rounds (sha256 (mergeMessage current step)) steps

def pathHashed : GoString → List (GoString × Bool) → List GoString
  | _, [] => []
  | current, step :: steps =>
    mergeMessage current step :: pathHashed (sha256 (mergeMessage current step)) steps

variable (wrap : Int → Int) (budget : Budget) (leafHash : GoString) (proof : InclusionProof)

def verifyInclusion (root : GoString) : Option Bool :=
  if proof.treeSize ≤ 0 ∨ proof.leafIndex < 0 ∨ proof.treeSize ≤ proof.leafIndex then some false
  else do
    let (directions, left) ← computeMerkleDirections wrap budget proof.leafIndex proof.treeSize
    if directions.length ≠ proof.path.length then return false
    -- The path starts at the leaf and the directions at the root.
    let current ← pathLoop sha256 left.rounds leafHash (proof.path.zip directions.reverse)
    return current = root

def inclusionHashed : List GoString :=
  match computeMerkleDirections wrap budget proof.leafIndex proof.treeSize with
  | some (directions, _) => pathHashed sha256 leafHash (proof.path.zip directions.reverse)
  | none => []

end Bounded

/-- The tree hash of RFC 6962: `k` is the largest power of two below the number of leaves. -/
inductive TreeHash {α : Type} (leafHash : α → GoString) : List α → GoString → Prop
  | empty : TreeHash leafHash [] (sha256 [])
  | leaf (d : α) : TreeHash leafHash [d] (leafHash d)
  | node {left right : List α} {a b : GoString} (e : Nat) (size : left.length = 2 ^ e) (below : right ≠ [])
      (largest : right.length ≤ 2 ^ e) (hashLeft : TreeHash leafHash left a) (hashRight : TreeHash leafHash right b) :
      TreeHash leafHash (left ++ right) (sha256 (merkleNodePrefix :: (a ++ b)))

end

end Ledger.Core
