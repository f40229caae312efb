import Ledger.Service.Attestation

namespace Ledger.Attested

open Core Postgres Shared

inductive VerifyStatus where
  | verified | drift | tampered | notRun
deriving DecidableEq

structure VerifyReport where
  status : VerifyStatus
  reasons : List String
deriving DecidableEq

structure VerifyConfig where
  journalSampleSize : Int
  chainPageSize : Int
  uncoveredProbeLimit : Int
  uncoveredGracePeriod : Int

def defaultVerifyConfig : VerifyConfig := ⟨20, 500, 1000, 5 * minute⟩

def VerifyConfig.normalized (cfg : VerifyConfig) : VerifyConfig where
  journalSampleSize := if cfg.journalSampleSize ≤ 0 then defaultVerifyConfig.journalSampleSize
    else cfg.journalSampleSize
  chainPageSize := if cfg.chainPageSize ≤ 0 then defaultVerifyConfig.chainPageSize
    else cfg.chainPageSize
  uncoveredProbeLimit := if cfg.uncoveredProbeLimit ≤ 0 then defaultVerifyConfig.uncoveredProbeLimit
    else cfg.uncoveredProbeLimit
  uncoveredGracePeriod := if cfg.uncoveredGracePeriod ≤ 0 then
    defaultVerifyConfig.uncoveredGracePeriod else cfg.uncoveredGracePeriod

structure Ports (W : Type) where
  anchorHead : W → Result (Int × GoString)
  listAttestationsFrom : W → Int → Nat → Result (List Attestation)
  entriesForAttestation : W → Int → Result (List AttestedEntry)
  leafHashesForAttestation : W → Int → Result (List (Int × GoString))
  journalAuthMaterial : W → List Int → Result (List (Int × JournalAuthMaterial))
  highestObservedAnchorSeq : W → Result Int
  uncoveredEntries : W → Nat → Result (List AttestedEntry)
  listRecentJournals : W → Nat → Result (List Journal)
  getJournal : W → GoString → Result (List EntryInput)

structure Keys where
  sha256 : GoString → GoString
  hash : DigestPayload → GoString
  verify : AuthVerifier

abbrev Session (α : Type) := StateT Nat Result α

section

variable {W α : Type} (world : Nat → W)

def observe (context : String) (read : W → Result α) : Session α := fun i =>
    (·, i + 1) <$> within context (read (world i))

def attempt (read : W → Result α) : Session (Result α) := fun i => .ok (read (world i), i + 1)

end

structure Walk where
  expectedSeq : Int
  prevRoot : GoString
  maxSeqSeen : Int
  reasons : List String

def reasonIf (found : Bool) (text : String) : List String := if found then [text] else []

section

variable (keys : Keys) (a : Attestation)

def Attestation.isV2 (a : Attestation) : Bool := a.merkleRoot ≠ []

def Attestation.isV3 (a : Attestation) : Bool := a.authVerdictDigest ≠ []

def linkReasons (w : Walk) : List String :=
  reasonIf (a.seq ≠ w.expectedSeq) "seq gap: expected %d, got %d" ++
  reasonIf (a.prevRoot ≠ w.prevRoot) "prev_root mismatch at seq %d" ++
  reasonIf (!(keys.verify a.rootHash a.signature a.keyID).isOk) "invalid signature at seq %d: %v"

def contentReasons (entries : List AttestedEntry) : List String :=
  reasonIf ((entries.length : Int) ≠ a.entryCount)
    "seq %d: entry_count=%d but only %d entries still exist (deleted row?)" ++
  match canonicalBatchDigest keys.sha256 entries with
  | .error _ => ["seq %d: recompute batch digest: %v"]
  | .ok digest =>
    reasonIf (digest ≠ a.batchDigest) "seq %d: batch_digest mismatch (entry content changed after attestation)"

def merkleReasons (entries : List AttestedEntry) : List String :=
  match buildMerkleTree keys.sha256 entries with
  | .error _ => ["seq %d: recompute merkle root: %v"]
  | .ok tree => reasonIf (tree.root ≠ a.merkleRoot) "seq %d: merkle_root mismatch (entry content or order changed after attestation)"

/-- Stored leaf hashes are checked only where all of them are there. -/
def leafReasons (stored : Result (List (Int × GoString))) : List String :=
  match stored with
  | .error _ => ["seq %d: fetch stored leaf hashes: %v"]
  | .ok leaves =>
    if leaves = [] ∨ leaves.any (·.2 = []) then []
    else
      match buildMerkleTreeFromLeafHashes keys.sha256 (leaves.map Prod.snd) with
      | .error _ => ["seq %d: rebuild tree from stored leaf hashes: %v"]
      | .ok tree => reasonIf (tree.root ≠ a.merkleRoot)
          "seq %d: entry_attestations.leaf_hash inconsistent with attested merkle_root (leaf-level tamper)"

def verdictReasons (entries : List AttestedEntry)
    (materials : Result (List (Int × JournalAuthMaterial))) : List String :=
  match materials with
  | .error _ => ["seq %d: recompute auth verdicts: %v"]
  | .ok found =>
    let verdict := verdictFor keys.hash keys.verify found
    (match authVerdictDigest keys.sha256 entries (entries.map fun e => verdict e.journalID) with
      | .error _ => ["seq %d: recompute auth verdict digest: %v"]
      | .ok digest => reasonIf (digest ≠ a.authVerdictDigest)
          "seq %d: auth_verdict_digest mismatch (a cached journal authorization verdict no longer matches a live recheck)") ++
    reasonIf ((distinctJournals entries).any fun id => verdict id = .unauthorized)
      "seq %d: %d attested journal(s) carry an UNAUTHORIZED authorization verdict (internal journal ids %v) -- a journal live in this batch has no valid signature"

def rootReasons (w : Walk) : List String :=
  match rootHashOf keys.sha256 w.prevRoot a with
  | .error _ => ["seq %d: root_hash does not match its own stored fields"]
  | .ok digest => reasonIf (digest ≠ a.rootHash) "seq %d: root_hash does not match its own stored fields"

def anchorReasons (anchor : Int × GoString) : List String :=
  reasonIf (a.seq = anchor.1 ∧ a.rootHash ≠ anchor.2)
    "seq %d: DB root_hash does not match the externally anchored head"

end

section

variable {W : Type} (ports : Ports W) (world : Nat → W) (keys : Keys)

def readLeaves (a : Attestation) : Session (Result (List (Int × GoString))) :=
  if a.isV2 then attempt world (ports.leafHashesForAttestation · a.seq) else pure (.ok [])

def readMaterial (a : Attestation) (entries : List AttestedEntry) :
    Session (Result (List (Int × JournalAuthMaterial))) :=
  if a.isV3 ∧ distinctJournals entries ≠ [] then
    attempt world (ports.journalAuthMaterial · (distinctJournals entries))
  else pure (.ok [])

def checkRow (anchor : Int × GoString) (w : Walk) (a : Attestation) : Session Walk := do
  let entries ← observe world "recheck entries for seq %d" (ports.entriesForAttestation · a.seq)
  let leaves ← readLeaves ports world a
  let materials ← readMaterial ports world a entries
  return {
    expectedSeq := a.seq + 1
    prevRoot := a.rootHash
    maxSeqSeen := a.seq
    reasons := w.reasons ++ (linkReasons keys a w ++ contentReasons keys a entries ++
      (if a.isV2 then merkleReasons keys a entries ++ leafReasons keys a leaves else []) ++
      (if a.isV3 then verdictReasons keys a entries materials else []) ++ rootReasons keys a w ++
        anchorReasons a anchor) }

/-- The pages of the chain. A run that outlasts its fuel gives no report. -/
def walkChain (anchor : Int × GoString) (pageSize : Nat) : Nat → Walk → Session Walk
  | 0, _ => throw ⟨.other, "out of fuel"⟩
  | fuel + 1, w => do
    let page ← observe world "list attestations from seq %d"
      (ports.listAttestationsFrom · w.expectedSeq pageSize)
    if page = [] then return w
    else
      let w' ← page.foldlM (checkRow ports world keys anchor) w
      if page.length < pageSize then return w' else walkChain anchor pageSize fuel w'

def unaccounted (cfg : VerifyConfig) (now : Instant) (materials : List (Int × JournalAuthMaterial))
    (journalID : Int) : Bool :=
  match materials.lookup journalID with
  | none => true
  | some m =>
    if m.authStatus = .signed then !(m.verify keys.hash keys.verify).isOk
    else
      let age := now - m.effectiveAt
      !(m.authStatus ≠ .unsignedNoAttestor ∧ 0 ≤ age ∧ age < cfg.uncoveredGracePeriod)

def uncoveredFindings (cfg : VerifyConfig) (now : Instant) (uncovered : List AttestedEntry)
    (materials : List (Int × JournalAuthMaterial)) : List String × List String :=
  (reasonIf ((distinctJournals uncovered).any (unaccounted keys cfg now materials))
      "%d of the %d entries no attestation covers belong to %d journal(s) with no valid authorization (internal journal ids %v) -- an unattested, unauthorized entry is what a direct-SQL forgery looks like, and a journal's own auth_status is not an account of itself: it is a plain column the app credential writes",
    ["%d entr(ies) across %d journal(s) are not covered by any attestation yet (%d of those journals cannot be verified by signature and are inside the %s grace window); the next attestation run covers them"] ++
      reasonIf (cfg.uncoveredProbeLimit.toNat ≤ uncovered.length)
        "uncovered-entry probe hit its limit of %d, so the real number may be higher -- this run can only speak for the %d it looked at")

def checkUncovered (cfg : VerifyConfig) (now : Instant) : Session (List String × List String) := do
  let uncovered ← observe world "probe uncovered entries"
    (ports.uncoveredEntries · cfg.uncoveredProbeLimit.toNat)
  if uncovered = [] then return ([], [])
  else
    let materials ← observe world "auth material for uncovered entries"
      (ports.journalAuthMaterial · (distinctJournals uncovered))
    return uncoveredFindings keys cfg now uncovered materials

def checkSampled (reasons : List String) (j : Journal) : Session (List String) := do
  if j.authStatus ≠ .signed then return reasons
  else
    match ← attempt world (ports.getJournal · j.uid) with
    | .error _ => return reasons ++ ["journal %s: refetch for sampling: %v"]
    | .ok entries =>
      let input := { journalInputFromRecord j entries with eventUID := j.eventUID }
      return reasons ++ reasonIf
        (!(verifyJournalAuth keys.hash keys.verify input (j.effectiveAt * 1000) j.authDigest
          j.authSignature j.authKeyID).isOk)
        "journal %s: signature verification failed: %v"

def unsignedReasons (journals : List Journal) : List String :=
  reasonIf (journals.any fun j => j.authStatus ≠ .signed ∧ j.authStatus ≠ .unsignedTxMode)
    "%d of the %d most recent journal(s) carry no signature (auth_status=%s) while signing is configured -- either forged, or posted before the key was wired; an operator has to tell which"

def checkSample (cfg : VerifyConfig) : Session (List String) := do
  let journals ← observe world "list recent journals for sampling"
    (ports.listRecentJournals · cfg.journalSampleSize.toNat)
  let reasons ← journals.foldlM (checkSampled ports world keys) []
  return reasons ++ unsignedReasons journals

def headReasons (anchorSeq maxSeqSeen lastObserved : Int) : List String :=
  reasonIf (maxSeqSeen < anchorSeq)
    "anchor knows about seq %d but the DB chain only reaches seq %d" ++
  reasonIf (anchorSeq < lastObserved)
    "anchor head regressed: it now reports seq %d but this deployment previously recorded seeing seq %d -- no benign mechanism moves an anchor backwards; the carrier's own version history is the forensic record"

def verifySteps (cfg : VerifyConfig) (now : Instant) (fuel : Nat) :
    Session (List String × List String × Int × Int) := do
  let anchor ← observe world "anchor head unavailable" ports.anchorHead
  let w ← walkChain ports world keys anchor cfg.chainPageSize.toNat fuel ⟨1, genesisRoot, 0, []⟩
  let lastObserved ← observe world "highest observed anchor seq unavailable"
    ports.highestObservedAnchorSeq
  let (uncovered, backlog) ← checkUncovered ports world keys cfg now
  let sampled ← checkSample ports world keys cfg
  return (w.reasons ++ headReasons anchor.1 w.maxSeqSeen lastObserved ++ uncovered ++ sampled,
    backlog ++ reasonIf (0 < anchor.1 ∧ anchor.1 < w.maxSeqSeen)
      "anchor is behind the DB chain by %d attestation(s) (catch-up pending)",
    anchor.1, w.maxSeqSeen)

def verifyLedger (cfg : VerifyConfig) (now : Instant) (fuel : Nat) : VerifyReport :=
  match (verifySteps ports world keys cfg.normalized now fuel).run 0 with
  | .error err => ⟨.notRun, [err.text]⟩
  | .ok ((reasons, driftReasons, anchorSeq, maxSeqSeen), _) =>
    if reasons ≠ [] then ⟨.tampered, reasons ++ driftReasons⟩
    else if anchorSeq = 0 ∧ 0 < maxSeqSeen then
      ⟨.notRun, "anchor reports empty while the DB chain reaches seq %d: nothing external corroborates the chain, and an erased anchor is indistinguishable from one that was never published to (no prior observation recorded a higher seq)" :: driftReasons⟩
    else if driftReasons ≠ [] then ⟨.drift, driftReasons⟩
    else ⟨.verified, []⟩

end

end Ledger.Attested
