import Ledger.Postgres.PostJournal
import Ledger.Postgres.VerifiedHolds

namespace Ledger.Postgres

open Core Shared

/-- `VerifyJournalAuth`. A verifier's error of any kind comes out as an unauthorized journal. -/
def verifyJournalAuth (hash : DigestPayload → GoString) (verify : AuthVerifier)
    (input : JournalInput) (effectiveAt : Instant)
    (storedDigest signature keyID : GoString) : Result Unit := do
  require (storedDigest ≠ [])
    ⟨.unauthorizedJournal, "core: verify journal auth: journal has no stored digest"⟩
  let recomputed ← within "core: verify journal auth: recompute digest"
    (canonicalJournalDigest hash input effectiveAt)
  require (recomputed = storedDigest)
    ⟨.unauthorizedJournal, "core: verify journal auth: stored digest does not match recomputed digest"⟩
  require (signature ≠ [] ∧ keyID ≠ [])
    ⟨.unauthorizedJournal, "core: verify journal auth: journal has no signature"⟩
  match verify recomputed signature keyID with
  | .ok () => return ()
  | .error _ => .error ⟨.unauthorizedJournal, "core: verify journal auth: signature invalid"⟩

def entryInputFromRow (s : Store) (row : EntryRow) : Result EntryInput := do
  let cur ← s.currencyByIDOrErr row.dim.currency
  let cls ← s.classByIDOrErr row.dim.classification
  return ⟨row.dim.holder, pgToUID cur.uid, pgToUID cls.uid, row.entryType.entryType,
    numericToDecimal row.amount⟩

/-- `JournalInputFromRecord`. The event link and the metadata are not covered by the digest. -/
def journalInputFromRecord (j : Journal) (entries : List EntryInput) : JournalInput :=
  { journalTypeUID := j.journalTypeUID
    idempotencyKey := j.idempotencyKey
    entries := entries
    metadata := .empty
    actorID := j.actorID
    source := j.source
    reversalOfUID := j.reversalOfUID
    eventUID := []
    effectiveAt := 0 }

structure JournalAuthMaterial where
  input : JournalInput
  effectiveAt : Instant
  authDigest : GoString
  authSignature : GoString
  authKeyID : GoString
  authStatus : AuthStatus
deriving DecidableEq

def JournalAuthMaterial.verify (hash : DigestPayload → GoString) (verify : AuthVerifier)
    (m : JournalAuthMaterial) : Result Unit :=
  verifyJournalAuth hash verify m.input m.effectiveAt m.authDigest m.authSignature m.authKeyID

/-- The two reads of `fetchJournalAuthMaterial` for one journal; the journal type is an inner join
and the reversed journal an outer one. -/
def journalAuthMaterial (s : Store) (journalID : Nat) : Result (Option JournalAuthMaterial) :=
  match s.getJournalByID journalID with
  | none => .ok none
  | some j =>
    match s.journalTypes.find? (·.id == j.journalTypeID) with
    | none => .ok none
    | some jt => do
      let entries ← collect (fun e => within "postgres: journal auth material: journal %d" (entryInputFromRow s e))
        (s.listJournalEntries j.id)
      return some {
        input :=
          { journalTypeUID := pgToUID jt.uid
            idempotencyKey := j.idempotencyKey
            entries := entries
            metadata := .empty
            actorID := j.actorID
            source := j.source
            reversalOfUID := ((j.reversalOf.bind s.getJournalByID).map fun original => pgToUID original.uid).getD []
            eventUID := []
            effectiveAt := 0 }
        effectiveAt := j.effectiveAt * 1000
        authDigest := j.authDigest
        authSignature := j.authSignature
        authKeyID := j.authKeyID
        authStatus := j.authStatus }

def fetchJournalAuthMaterial (s : Store) (journalIDs : List Nat) :
    Result (List (Nat × JournalAuthMaterial)) := do
  let found ← collect (fun id => (fun m => m.map (id, ·)) <$> journalAuthMaterial s id) journalIDs
  return found.reduceOption

end Ledger.Postgres
