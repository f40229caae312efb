import Ledger.Core.Merkle
import Ledger.Postgres.AuthMaterial

namespace Ledger.Attested

open Core Postgres Shared

structure Attestation where
  seq : Int
  entryCount : Int
  batchDigest : GoString
  merkleRoot : GoString
  authVerdictDigest : GoString
  prevRoot : GoString
  rootHash : GoString
  signature : GoString
  keyID : GoString
  -- `none` is infinity.
  createdAt : Option Int
deriving DecidableEq

structure AttestedRow where
  id : Int
  journalID : Int
  accountHolder : Int
  currencyID : Int
  classificationID : Int
  entryType : EntryType
  amount : Int
  effectiveAt : Option Int
deriving DecidableEq

structure CoverageRow where
  entryID : Int
  seq : Int
  leafHash : GoString
  authVerdict : JournalAuthVerdict
deriving DecidableEq

structure AttestedTables where
  entries : List AttestedRow
  coverage : List CoverageRow
  attestations : List Attestation
deriving DecidableEq

def scanInstant (column : Option Int) : Result Instant :=
  match column with
  | some micros => .ok (micros * 1000)
  | none => .error ⟨.other, "cannot scan Infinity into *time.Time"⟩

def AttestedRow.read (r : AttestedRow) : Result AttestedEntry := do
  let effectiveAt ← scanInstant r.effectiveAt
  return ⟨r.id, r.journalID, r.accountHolder, r.currencyID, r.classificationID, r.entryType,
    numericToDecimal r.amount, effectiveAt⟩

namespace AttestedTables

variable (t : AttestedTables)

def covered (id : Int) : Bool := t.coverage.any (·.entryID == id)

def uncoveredRows (limit : Nat) : List AttestedRow :=
  ((t.entries.filter fun e => !t.covered e.id).insertionSort fun a b => a.id ≤ b.id).take limit

def batchRows (seq : Int) : List AttestedRow :=
  ((t.coverage.filter (·.seq == seq)).flatMap fun c => t.entries.filter
    (·.id == c.entryID)).insertionSort fun a b => a.id ≤ b.id

def uncoveredEntries (limit : Nat) : Result (List AttestedEntry) :=
  within "postgres: uncovered entries" (collect AttestedRow.read (t.uncoveredRows limit))

def entriesForAttestation (seq : Int) : Result (List AttestedEntry) :=
  within "postgres: entries for attestation" (collect AttestedRow.read (t.batchRows seq))

def leafHashesForAttestation (seq : Int) : List (Int × GoString) :=
  ((t.coverage.filter (·.seq == seq)).insertionSort fun a b => a.entryID ≤ b.entryID).map fun c =>
    (c.entryID, c.leafHash)

def attestationsFrom (fromSeq : Int) : List Attestation :=
  (t.attestations.filter fun a => fromSeq ≤ a.seq).insertionSort fun a b => a.seq ≤ b.seq

def listAttestationsFrom (fromSeq : Int) (limit : Nat) : Result (List Attestation) :=
  within "postgres: list attestations"
    (collect (fun a => (fun _ => a) <$> scanInstant a.createdAt)
      ((t.attestationsFrom fromSeq).take limit))

def latestAttestation : Result (Option Attestation) :=
  match (t.attestations.insertionSort fun a b => b.seq ≤ a.seq).head? with
  | none => .ok none
  | some a => within "postgres: latest attestation" ((fun _ => some a) <$> scanInstant a.createdAt)

end AttestedTables

def verdictFor (hash : DigestPayload → GoString) (verify : AuthVerifier)
    (materials : List (Int × JournalAuthMaterial))
    (journalID : Int) : JournalAuthVerdict :=
  match materials.lookup journalID with
  | none => .unauthorized
  | some m => if (m.verify hash verify).isOk then .authorized else .unauthorized

def distinctJournals (entries : List AttestedEntry) :
    List Int := firstSeen (entries.map (·.journalID))

structure Batch where
  entries : List AttestedEntry
  verdicts : Option (List JournalAuthVerdict)

section

variable (sha256 : GoString → GoString)

def rootHashOf (prevRoot : GoString) (a : Attestation) : Result GoString :=
  if a.authVerdictDigest ≠ [] then
    attestationRootHashV3 sha256 a.seq prevRoot a.batchDigest a.merkleRoot
      a.authVerdictDigest a.entryCount
  else if a.merkleRoot ≠ [] then attestationRootHashV2 sha256 a.seq prevRoot a.batchDigest
    a.merkleRoot a.entryCount
  else attestationRootHash sha256 a.seq prevRoot a.batchDigest a.entryCount

def batchVerdictDigest (batch : Batch) : Result GoString :=
  match batch.verdicts with
  | none => .ok []
  | some verdicts =>
    within "service: attestation: auth verdict digest" (authVerdictDigest sha256 batch.entries verdicts)

def attestBatch (sign : Attestor) (now : Int) (latest : Option Attestation) (batch : Batch) :
    Result (Attestation × List CoverageRow) := do
  let latestSeq := (latest.map (·.seq)).getD 0
  let seq := latestSeq + 1
  let prevRoot := if latestSeq = 0 then genesisRoot else (latest.map (·.rootHash)).getD []
  let batchDigest ← within "service: attestation: batch digest"
    (canonicalBatchDigest sha256 batch.entries)
  let tree ← within "service: attestation: merkle tree" (buildMerkleTree sha256 batch.entries)
  let authVerdictDigest ← batchVerdictDigest sha256 batch
  let entryCount : Int := batch.entries.length
  let rootHash ← within "service: attestation: root hash"
    (match batch.verdicts with
      | some _ => attestationRootHashV3 sha256 seq prevRoot batchDigest tree.root authVerdictDigest entryCount
      | none => attestationRootHashV2 sha256 seq prevRoot batchDigest tree.root entryCount)
  match sign rootHash with
  | .error _ => .error ⟨.attestorUnavailable, "service: attestation: attestor sign"⟩
  | .ok (signature, keyID) =>
    let verdicts := batch.verdicts.getD (batch.entries.map fun _ => .unknown)
    return (⟨seq, entryCount, batchDigest, tree.root, authVerdictDigest, prevRoot, rootHash,
      signature, keyID, some now⟩,
      (batch.entries.zip (tree.leafHashes.zip verdicts)).map fun (e, leafHash, verdict) =>
        ⟨e.entryID, seq, leafHash, verdict⟩)

end

def insertAttestation (t : AttestedTables) (a : Attestation) (rows : List CoverageRow) :
    Result AttestedTables := do
  require (t.attestations.all (·.seq != a.seq))
    ⟨.conflict, "postgres: insert attestation: insert ledger_attestations"⟩
  require (rows.all fun c => !t.covered c.entryID)
    ⟨.conflict, "postgres: insert attestation: insert entry_attestations"⟩
  return { t with attestations := t.attestations ++ [a], coverage := t.coverage ++ rows }

end Ledger.Attested
