import Ledger.Core.Digests

namespace Ledger.Core

open Shared

def powerLoop (n : Nat) : Nat → Nat → Nat
  | 0, k => k
  | fuel + 1, k => if k * 2 < n then powerLoop n fuel (k * 2) else k

def largestPowerOfTwoLessThan (n : Nat) : Nat := powerLoop n n 1

section

variable (sha256 : GoString → GoString)

def emptyMerkleRoot : GoString := sha256 []

/-- Both halves of a split are shorter than the whole, so the number of leaves bounds the depth. -/
def mth : Nat → List GoString → GoString
  | _, [] => emptyMerkleRoot sha256
  | _, [leaf] => leaf
  | 0, _ => emptyMerkleRoot sha256
  | depth + 1, leaves =>
    let k := largestPowerOfTwoLessThan leaves.length
    merkleNodeHash sha256 (mth depth (leaves.take k)) (mth depth (leaves.drop k))

def buildMTH (leaves : List GoString) : GoString := mth sha256 leaves.length leaves

structure MerkleTree where
  root : GoString
  leafHashes : List GoString
deriving DecidableEq

def buildMerkleTree (entries : List AttestedEntry) : Result MerkleTree := do
  let payloads ← collect (fun e => within "core: build merkle tree: entry[%d] (id=%d)"
    (encodeAttestedEntry e)) entries
  let leaves := payloads.map (merkleLeafHash sha256)
  return ⟨buildMTH sha256 leaves, leaves⟩

def buildMerkleTreeFromLeafHashes (leafHashes : List GoString) : Result MerkleTree := do
  checkAll (fun h => require (h.length = 32)
    ⟨.invalidInput, "core: build merkle tree from leaf hashes: leafHashes[%d] must be %d bytes, got %d"⟩) leafHashes
  return ⟨buildMTH sha256 leafHashes, leafHashes⟩

end

end Ledger.Core
