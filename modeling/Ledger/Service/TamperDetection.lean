import Ledger.Service.AttestationHashes
import Ledger.Service.AttestationRuns
import Ledger.Service.VerdictHealth
import Ledger.Service.VerifyLedgerSpec

namespace Ledger.Attested

open Ledger.Core Postgres Shared

structure Passed (sha256 : GoString → GoString) (t : AttestedTables) (anchor : Int × GoString)
    (prevRoot : GoString) (seq : Int)
    (a : Attestation) : Prop where
  stored : a ∈ t.attestations
  seq : a.seq = seq
  linked : a.prevRoot = prevRoot
  content : ∃ entries, collect AttestedRow.read (t.batchRows a.seq) = .ok entries ∧
    (entries.length : Int) = a.entryCount ∧
    canonicalBatchDigest sha256 entries = .ok a.batchDigest
  root : rootHashOf sha256 a.prevRoot a = .ok a.rootHash
  anchored : a.seq = anchor.1 → a.rootHash = anchor.2

structure Trail (sha256 : GoString → GoString) (t : AttestedTables) (anchor : Int × GoString)
    (rows : List Attestation) (w : Walk) :
    Prop where
  expectedSeq : w.expectedSeq = rows.length + 1
  maxSeqSeen : w.maxSeqSeen = rows.length
  prevRoot : w.prevRoot = rootAfter rows
  passed : ∀ k a, rows[k]? = some a → Passed sha256 t anchor (rootAfter (rows.take k)) (k + 1) a

variable {t : AttestedTables} {a : Attestation}

structure Reads {W : Type} (ports : Ports W) (w : W) (t : AttestedTables)
    (anchor : Int × GoString) : Prop where
  anchorHead : ports.anchorHead w = .ok anchor
  attestations : ∀ fromSeq limit, ports.listAttestationsFrom w fromSeq limit =
    t.listAttestationsFrom fromSeq limit
  entries : ∀ seq, ports.entriesForAttestation w seq = t.entriesForAttestation seq

section

variable {W : Type} {ports : Ports W} {w : W} {t : AttestedTables}
  {anchor : Int × GoString} {keys : Keys}
  {a : Attestation}

variable {i j : Nat}

end

structure AttestedTables.Fits (t : AttestedTables) : Prop where
  entries : ∀ r ∈ t.entries, r.Fits
  entryCount : ∀ a ∈ t.attestations, Signed 8 a.entryCount

instance (t : AttestedTables) : Decidable t.Fits :=
  decidable_of_iff ((∀ r ∈ t.entries, r.Fits) ∧ ∀ a ∈ t.attestations, Signed 8 a.entryCount)
    ⟨fun h => ⟨h.1, h.2⟩, fun h => ⟨h.1, h.2⟩⟩

inductive Hashed (t : AttestedTables) (x : GoString) : Prop
  | root (a : Attestation) (stored : a ∈ t.attestations) (hashed : rootHashOf id a.prevRoot a = .ok x)
  | batch (seq : Int) (entries : List AttestedEntry) (read : t.entriesForAttestation seq = .ok entries)
      (hashed : canonicalBatchDigest id entries = .ok x)

def Collides (sha256 : GoString → GoString) (t t' : AttestedTables) : Prop :=
  ∃ x y, Hashed t x ∧ Hashed t' y ∧ x ≠ y ∧ sha256 x = sha256 y

theorem mem_batchRows {seq : Int} {r : AttestedRow} (member : r ∈ t.batchRows seq) :
    r ∈ t.entries := by
  rw [AttestedTables.batchRows, List.mem_insertionSort, List.mem_flatMap] at member
  obtain ⟨c, -, inside⟩ := member
  exact (List.mem_filter.mp inside).1

section

variable {p : Parties} {Q : Batch → Prop} {t t' : AttestedTables} {anchor : Int × GoString}
  {rows : List Attestation}
  {walk : Walk} {k : Nat} {a a' : Attestation}

theorem Trail.compare (trail : Trail p.sha256 t' anchor rows walk)
    (chain : Chain p Q t) (fits : t.Fits)
    (fits' : t'.Fits) (original : t.attestations[k]? = some a) (row : rows[k]? = some a')
    (same : a'.rootHash = a.rootHash) :
    Collides p.sha256 t t' ∨ a'.prevRoot = a.prevRoot ∧ t'.batchRows (k + 1) =
    t.batchRows (k + 1) := by
  have passed := trail.passed k a' row
  obtain ⟨batch, us, link⟩ := chain.links k a original
  obtain ⟨now, attests⟩ := link.attests
  have stored := List.mem_of_getElem? original
  have seq := chain.seq original
  obtain ⟨x, hashed, root⟩ := rootHashOf_eq_ok.mp attests.rootHash
  obtain ⟨x', hashed', root'⟩ := rootHashOf_eq_ok.mp passed.root
  by_cases preimages : x = x'
  · subst preimages
    obtain ⟨prevRoots, digests, counts⟩ := rootHashOf_injective hashed hashed' (fits.entryCount a stored)
      (fits'.entryCount a' passed.stored)
    obtain ⟨entries', read', length', digest'⟩ := passed.content
    obtain ⟨y, batched, digest⟩ := canonicalBatchDigest_eq_ok.mp attests.batchDigest
    obtain ⟨y', batched', digested'⟩ := canonicalBatchDigest_eq_ok.mp digest'
    have current : t.batchRows a.seq = us := link.covers.batchRows chain.nodup
    rw [passed.seq] at read'
    by_cases payloads : y = y'
    · subst payloads
      refine .inr ⟨prevRoots.symm, ?_⟩
      have lengths : (t'.batchRows (k + 1)).length = us.length := by
        have here := (collect_eq_ok.mp link.read).length_eq
        have there := (collect_eq_ok.mp read').length_eq
        have count := attests.entryCount
        omega
      rw [← seq, current, seq]
      refine canonicalBatchDigest_injective (fun u member => fits'.entries u (mem_batchRows member))
        (fun u member => fits.entries u (link.covers.stored u member)) read' link.read lengths batched' batched
    · refine .inl ⟨y, y', .batch a.seq batch.entries ?_ batched, .batch (k + 1) entries' ?_ batched', payloads, ?_⟩
      · rw [AttestedTables.entriesForAttestation, current, within_eq_ok]
        exact link.read
      · rw [AttestedTables.entriesForAttestation, within_eq_ok]
        exact read'
      · rw [digest, digested', digests]
  · refine .inl ⟨x, x', .root a stored hashed, .root a' passed.stored hashed', preimages, ?_⟩
    rw [root, root', same]

theorem Trail.roots (trail : Trail p.sha256 t' anchor rows walk) (chain : Chain p Q t)
    (fits : t.Fits) (fits' : t'.Fits)
    {n : Nat} {head : Attestation} (anchored : t.attestations[n]? = some head)
    (anchorIs : anchor = (head.seq, head.rootHash)) (reached : n < rows.length)
    {d : Nat} (depth : k + d = n)
    (original : t.attestations[k]? = some a) (row : rows[k]? = some a') : Collides p.sha256 t t' ∨
    a'.rootHash = a.rootHash := by
  induction d generalizing k a a' with
  | zero =>
    obtain rfl : k = n := by omega
    have passed := trail.passed k a' row
    rw [anchored] at original
    cases original
    refine .inr ?_
    have head' := passed.anchored (by rw [passed.seq, anchorIs, chain.seq anchored])
    rw [head', anchorIs]
  | succ d ih =>
    obtain ⟨next, after⟩ : ∃ b, t.attestations[k + 1]? = some b :=
      ⟨_, List.getElem?_eq_getElem (by have := (List.getElem?_eq_some_iff.mp anchored).1; omega)⟩
    obtain ⟨next', after'⟩ : ∃ b, rows[k + 1]? = some b := ⟨_, List.getElem?_eq_getElem (by omega)⟩
    rcases ih (by omega) after after' with collides | same
    · exact .inl collides
    · rcases trail.compare chain fits fits' after after' same with collides | ⟨prevRoots, -⟩
      · exact .inl collides
      · refine .inr ?_
        have linked := (trail.passed (k + 1) next' after').linked
        rw [rootAfter, getLast_take (by omega), row, Option.map_some, Option.getD_some] at linked
        have prev := chain.prevRoot after
        rw [rootAfter, getLast_take (List.getElem?_eq_some_iff.mp original).1, original,
          Option.map_some, Option.getD_some] at prev
        rw [← linked, prevRoots, prev]

end

section

variable {W : Type} {ports : Ports W} {w : W} {t : AttestedTables} {anchor : Int × GoString}
  {keys : Keys} {walk : Walk}

variable {walk' : Walk} {i j : Nat}

variable {pageSize fuel : Nat}

end

namespace Sample

def raised : AttestedTables := { batch.1.tables with entries := batch.1.tables.entries.map fun r =>
    { r with amount := r.amount + 1 } }

variable {t : AttestedTables}

end Sample

end Ledger.Attested
