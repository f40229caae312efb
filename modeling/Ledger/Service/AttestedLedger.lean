import Ledger.Postgres.Pending
import Ledger.Service.VerifyLedger

namespace Ledger.Attested

open Core Postgres Shared

structure World where
  store : Store
  coverage : List CoverageRow
  attestations : List Attestation
  -- `anchor_observations`, their seqs.
  observations : List Int
  -- The highest seq published and its head; seq 0 while the anchor is empty.
  anchor : Int × GoString

def attestedRow (e : EntryRow) : AttestedRow :=
  ⟨e.id, e.journal, e.dim.holder, e.dim.currency, e.dim.classification, e.entryType.entryType,
    e.amount, some e.effectiveAt⟩

namespace World

def tables (w : World) : AttestedTables :=
  ⟨w.store.ledger.entries.map attestedRow, w.coverage, w.attestations⟩

def journalAuthMaterial (w : World) (journalIDs : List Int) :
    Result (List (Int × JournalAuthMaterial)) := do
  let found ← fetchJournalAuthMaterial w.store (journalIDs.map Int.toNat)
  return found.map fun (id, m) => ((id : Int), m)

def highestObservedAnchorSeq (w : World) : Int := w.observations.foldl max 0

def listRecentJournals (w : World) (limit : Nat) : Result (List Journal) :=
  collect (journalFromRow w.store)
    ((w.store.journals.insertionSort fun a b => b.id ≤ a.id).take limit)

def getJournal (w : World) (uid : GoString) : Result (List EntryInput) := do
  let pgUID ← uidToPG uid
  let row ← orError (w.store.getJournalByUID pgUID) ⟨.notFound, "postgres: get journal %q"⟩
  let entries ← collect (entryInputFromRow w.store) (w.store.listJournalEntries row.id)
  let _ ← journalFromRow w.store row
  return entries

def ports : Ports World where
  anchorHead w := .ok w.anchor
  listAttestationsFrom w := w.tables.listAttestationsFrom
  entriesForAttestation w := w.tables.entriesForAttestation
  leafHashesForAttestation w seq := .ok (w.tables.leafHashesForAttestation seq)
  journalAuthMaterial := journalAuthMaterial
  highestObservedAnchorSeq w := .ok w.highestObservedAnchorSeq
  uncoveredEntries w := w.tables.uncoveredEntries
  listRecentJournals := listRecentJournals
  getJournal := getJournal

end World

def verdictMaterial (w : World) (journalIDs : List Int) :
    Result (List (Int × JournalAuthMaterial)) :=
  if journalIDs = [] then .ok [] else within "service: attestation: journal auth material"
    (w.journalAuthMaterial journalIDs)

def computeAuthVerdicts (hash : DigestPayload → GoString) (verify : AuthVerifier) (w : World)
    (entries : List AttestedEntry) :
    Result (List JournalAuthVerdict) := do
  let materials ← verdictMaterial w (distinctJournals entries)
  return entries.map fun e => verdictFor hash verify materials e.journalID

def batchVerdicts (hash : DigestPayload → GoString) (verifier : Option AuthVerifier) (w : World)
    (entries : List AttestedEntry) :
    Result (Option (List JournalAuthVerdict)) :=
  match verifier with
  | none => .ok none
  | some verify => some <$> within "service: attestation: auth verdicts" (computeAuthVerdicts hash verify w entries)

section

variable (sha256 : GoString → GoString) (hash : DigestPayload → GoString)
  (verifier : Option AuthVerifier) (sign : Attestor)

/-- `RunAttestBatch` between its catch-up and its publish. It reads the latest attestation in `w₁`,
the uncovered entries in `w₂` and the journals' signatures in `w₃`, and inserts in `w`. -/
def runAttestBatch (now : Int) (batchSize : Nat) (w₁ w₂ w₃ w : World) :
    Result (World × Attestation) := do
  let latest ← within "service: attestation: latest attestation" w₁.tables.latestAttestation
  let entries ← within "service: attestation: uncovered entries"
    (w₂.tables.uncoveredEntries batchSize)
  let verdicts ← batchVerdicts hash verifier w₃ entries
  let (a, rows) ← attestBatch sha256 sign now latest ⟨entries, verdicts⟩
  let t ← within "service: attestation: insert" (insertAttestation w.tables a rows)
  return ({ w with coverage := t.coverage, attestations := t.attestations }, a)

end

def contributingVerdicts (w : World) (dim : Dimension) : List (Nat × JournalAuthVerdict) :=
  (w.store.ledger.dimEntries dim).map fun e =>
    (e.journal, ((w.coverage.find? (·.entryID == e.id)).map (·.authVerdict)).getD .unknown)

def verifyJournalsNaively (hash : DigestPayload → GoString) (verify : AuthVerifier) (w : World)
    (journalIDs : List Nat) :
    Result Unit := do
  let materials ← within "postgres: verified balance" (fetchJournalAuthMaterial w.store journalIDs)
  checkAll (fun id => do
    let m ← orError (materials.lookup id)
      ⟨.unauthorizedJournal, "postgres: verified balance: journal id %d: no journal row found"⟩
    within "postgres: verified balance: journal id %d" (m.verify hash verify)) journalIDs

def verifiedBalance (hash : DigestPayload → GoString) (verifier : Option AuthVerifier)
    (w : World) (holder : Int)
    (currencyUID classificationUID : GoString) : Result Decimal := do
  let cur ← w.store.currencyByUIDOrErr currencyUID
  let cls ← w.store.classByUIDOrErr classificationUID
  let dim : Dimension := ⟨holder, cur.id, cls.id⟩
  let rows := contributingVerdicts w dim
  require (rows.all (·.2 ≠ .unauthorized))
    ⟨.unauthorizedJournal,
      "postgres: verified balance: journal id %d: cached attestation verdict is unauthorized"⟩
  let needsLiveCheck := firstSeen (rows.map Prod.fst)
  if needsLiveCheck ≠ [] then
    let verify ← orError verifier
      ⟨.unauthorizedJournal,
        "postgres: verified balance: no AuthVerifier configured (ledger.WithAttestor was never called), so journal cannot be confirmed authorized"⟩
    verifyJournalsNaively hash verify w needsLiveCheck
  return numericToDecimal (recomputeFromEntries w.store.ledger cls.normalSide dim)

end Ledger.Attested
