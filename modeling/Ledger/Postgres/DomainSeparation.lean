import Mathlib
import Ledger.Core.Digests
import Ledger.Postgres.Reservations

namespace Ledger.Postgres

open Ledger.Core Shared

def reservationDischargeDigestDomain : Byte := 0x11

def DischargePayload.encode (p : DischargePayload) : GoString :=
  reservationDischargeDigestDomain :: (lenPrefixed p.reservationUID ++ (lenPrefixed p.operation ++
    (lenPrefixed p.idempotencyKey ++ (lenPrefixed (formatRFC3339Nano p.recordedAt) ++ be 16 p.amount))))

inductive Construction where
  | journalDigest | batchDigest | rootHash | rootHashV2 | rootHashV3 | authVerdictDigest | dischargeDigest
  | merkleLeaf | merkleNode
deriving DecidableEq

namespace Construction

def preimages : Construction → Set GoString
  | journalDigest => {p | ∃ input effectiveAt, canonicalJournalDigest DigestPayload.encode input effectiveAt = .ok p}
  | batchDigest => {p | ∃ entries, canonicalBatchDigest id entries = .ok p}
  | rootHash =>
    {p | ∃ seq prevRoot batchDigest entryCount, attestationRootHash id seq prevRoot batchDigest entryCount = .ok p}
  | rootHashV2 => {p | ∃ seq prevRoot batchDigest merkleRoot entryCount,
      attestationRootHashV2 id seq prevRoot batchDigest merkleRoot entryCount = .ok p}
  | rootHashV3 => {p | ∃ seq prevRoot batchDigest merkleRoot verdictDigest entryCount,
      attestationRootHashV3 id seq prevRoot batchDigest merkleRoot verdictDigest entryCount = .ok p}
  | authVerdictDigest =>
    {p | ∃ entries verdicts, Core.authVerdictDigest id entries verdicts = .ok p}
  | dischargeDigest =>
    {p | ∃ intent, canonicalDischargeDigest DischargePayload.encode intent = .ok p}
  | merkleLeaf => {p | ∃ payload, merkleLeafHash id payload = p}
  | merkleNode => {p | ∃ left right, merkleNodeHash id left right = p}

def domain : Construction → Byte
  | journalDigest => authDigestDomain
  | batchDigest => batchDigestDomain
  | rootHash => rootHashDomain
  | rootHashV2 => rootHashDomainV2
  | rootHashV3 => rootHashDomainV3
  | authVerdictDigest => authVerdictDigestDomain
  | dischargeDigest => reservationDischargeDigestDomain
  | merkleLeaf => merkleLeafPrefix
  | merkleNode => merkleNodePrefix

theorem head_of_mem {c : Construction} {p : GoString} (member : p ∈ c.preimages) :
    p.head? = some c.domain := by
  cases c with
  | journalDigest =>
    obtain ⟨input, effectiveAt, ok⟩ := member
    simp only [canonicalJournalDigest, bind_eq_ok, pure_eq_ok] at ok
    obtain ⟨_, -, rfl⟩ := ok
    rfl
  | batchDigest =>
    obtain ⟨entries, ok⟩ := member
    simp only [canonicalBatchDigest, bind_eq_ok, pure_eq_ok, id] at ok
    obtain ⟨_, -, rfl⟩ := ok
    rfl
  | rootHash =>
    obtain ⟨seq, prevRoot, digest, count, ok⟩ := member
    simp only [attestationRootHash, bind_eq_ok, pure_eq_ok, id] at ok
    obtain ⟨_, -, _, -, rfl⟩ := ok
    rfl
  | rootHashV2 =>
    obtain ⟨seq, prevRoot, digest, root, count, ok⟩ := member
    simp only [attestationRootHashV2, bind_eq_ok, pure_eq_ok, id] at ok
    obtain ⟨_, -, _, -, _, -, rfl⟩ := ok
    rfl
  | rootHashV3 =>
    obtain ⟨seq, prevRoot, digest, root, verdicts, count, ok⟩ := member
    simp only [attestationRootHashV3, bind_eq_ok, pure_eq_ok, id] at ok
    obtain ⟨_, -, _, -, _, -, _, -, rfl⟩ := ok
    rfl
  | authVerdictDigest =>
    obtain ⟨entries, verdicts, ok⟩ := member
    simp only [Core.authVerdictDigest, bind_eq_ok, pure_eq_ok, id] at ok
    obtain ⟨_, -, rfl⟩ := ok
    rfl
  | dischargeDigest =>
    obtain ⟨intent, ok⟩ := member
    simp only [canonicalDischargeDigest, bind_eq_ok, pure_eq_ok] at ok
    obtain ⟨_, -, rfl⟩ := ok
    rfl
  | merkleLeaf =>
    obtain ⟨payload, rfl⟩ := member
    rfl
  | merkleNode =>
    obtain ⟨left, right, rfl⟩ := member
    rfl

def SharedByte (c d : Construction) : Prop := c = rootHashV2 ∧ d = dischargeDigest ∨
    c = dischargeDigest ∧ d = rootHashV2

theorem sharedByte_of_domain_eq {c d : Construction} (different : c ≠ d)
    (same : c.domain = d.domain) : SharedByte c d := by
  cases c <;> cases d <;> first
    | exact absurd rfl different
    | exact .inl ⟨rfl, rfl⟩
    | exact .inr ⟨rfl, rfl⟩
    | exact absurd same (by decide)

def settlement : DischargeIntent :=
  ⟨lit "00000000-0000-4000-8000-000000000001", .settle, ⟨1, 0⟩, lit "settle-invoice-001", 0⟩

def shared : GoString := okOr [] (canonicalDischargeDigest DischargePayload.encode settlement)

theorem shared_mem : shared ∈ rootHashV2.preimages ∧ shared ∈ dischargeDigest.preimages := by
  refine ⟨⟨0x2430303030, (shared.drop 9).take 32, (shared.drop 41).take 32,
    (shared.drop 73).take 32, 10 ^ 18, ?_⟩, settlement, ?_⟩
  · decide +kernel
  · decide +kernel

end Construction

/-- The preimages of two constructions are told apart by their first byte, and so disjoint, for
every pair of constructions but one. -/
theorem domain_separation_iff {c d : Construction} (different : c ≠ d) :
    (Disjoint c.preimages d.preimages ∧ ∀ p ∈ c.preimages, ∀ q ∈ d.preimages, p.head? ≠ q.head?) ↔
    ¬c.SharedByte d := by
  constructor
  · rintro ⟨disjoint, -⟩ pair
    obtain ⟨root, discharge⟩ := Construction.shared_mem
    rcases pair with ⟨rfl, rfl⟩ | ⟨rfl, rfl⟩
    · exact Set.disjoint_left.mp disjoint root discharge
    · exact Set.disjoint_left.mp disjoint discharge root
  · intro separate
    have heads : ∀ p ∈ c.preimages, ∀ q ∈ d.preimages, p.head? ≠ q.head? := by
      intro p inC q inD same
      rw [Construction.head_of_mem inC, Construction.head_of_mem inD, Option.some.injEq] at same
      exact separate (Construction.sharedByte_of_domain_eq different same)
    exact ⟨Set.disjoint_left.mpr fun p inC inD => heads p inC p inD rfl, heads⟩

theorem domain_separation_journal : Disjoint Construction.journalDigest.preimages
    Construction.rootHashV3.preimages :=
  ((domain_separation_iff (by decide)).mpr (by unfold Construction.SharedByte; decide)).1

/-- The bytes hashed for a settlement are also those of a second version root hash. -/
theorem rootHashV2_and_discharge_share_preimage : Construction.rootHashV2 ≠ .dischargeDigest ∧
    Construction.shared.length = 113 ∧
      Construction.shared ∈ Construction.rootHashV2.preimages ∧ Construction.shared ∈
      Construction.dischargeDigest.preimages :=
  ⟨by decide, by decide +kernel, Construction.shared_mem.1, Construction.shared_mem.2⟩

end Ledger.Postgres
