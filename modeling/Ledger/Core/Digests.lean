import Ledger.Core.Auth
import Ledger.Shared.Calendar

namespace Ledger.Core

open Shared

def DigestEntry.encode (e : DigestEntry) : GoString :=
  be 8 e.accountHolder ++ (lenPrefixed e.currencyUID ++ (lenPrefixed e.classificationUID ++
    (lenPrefixed e.entryType ++ be 16 e.amount)))

def authDigestDomain : Byte := 0x10

def DigestPayload.encode (p : DigestPayload) : GoString :=
  authDigestDomain :: (lenPrefixed p.journalTypeUID ++
    (lenPrefixed p.idempotencyKey ++ (be 8 p.actorID ++
      (lenPrefixed p.source ++ (lenPrefixed (formatRFC3339Nano p.effectiveAt) ++
        (lenPrefixed p.reversalOfUID ++
      (be 8 p.entries.length ++ p.entries.flatMap DigestEntry.encode)))))))

structure AttestedEntry where
  entryID : Int
  journalID : Int
  accountHolder : Int
  currencyID : Int
  classificationID : Int
  entryType : EntryType
  amount : Decimal
  effectiveAt : Instant
deriving DecidableEq

def encodeAttestedEntry (e : AttestedEntry) : Result GoString := do
  let amount ← encodeAmount e.amount
  return be 8 e.entryID ++
    (be 8 e.journalID ++ (be 8 e.accountHolder ++ (be 8 e.currencyID ++ (be 8 e.classificationID ++
      (lenPrefixed e.entryType.text ++
        (be 16 amount ++ lenPrefixed (formatRFC3339Nano (e.effectiveAt / 1000))))))))

def genesisRootHashLen : Nat := 32

def genesisRoot : GoString := List.replicate genesisRootHashLen 0

def batchDigestDomain : Byte := 0x02
def rootHashDomain : Byte := 0x03
def rootHashDomainV2 : Byte := 0x11
def rootHashDomainV3 : Byte := 0x12
def authVerdictDigestDomain : Byte := 0x13
def merkleLeafPrefix : Byte := 0x00
def merkleNodePrefix : Byte := 0x01

inductive JournalAuthVerdict where
  | unknown | authorized | unauthorized
deriving DecidableEq

def JournalAuthVerdict.text : JournalAuthVerdict → GoString
  | .unknown => []
  | .authorized => lit "authorized"
  | .unauthorized => lit "unauthorized"

section

variable (sha256 : GoString → GoString)

def canonicalBatchDigest (entries : List AttestedEntry) : Result GoString := do
  let payloads ← collect (fun e => within "core: canonical batch digest: entry[%d] (id=%d)"
    (encodeAttestedEntry e)) entries
  return sha256 (batchDigestDomain :: (be 8 entries.length ++ payloads.flatten))

def authVerdictDigest (entries : List AttestedEntry) (verdicts : List JournalAuthVerdict) :
    Result GoString := do
  require (entries.length = verdicts.length)
    ⟨.invalidInput, "core: auth verdict digest: entries (%d) and verdicts (%d) length mismatch"⟩
  return sha256 (authVerdictDigestDomain :: (be 8 entries.length ++
    (entries.zip verdicts).flatMap fun (e, verdict) => be 8 e.entryID ++ lenPrefixed verdict.text))

/-- `err` where a field of a root hash has not the width of a hash. -/
def requireHash (field : GoString) (err : String) : Result Unit :=
  require (field.length = genesisRootHashLen) ⟨.invalidInput, err⟩

def attestationRootHash (seq : Int) (prevRoot batchDigest : GoString) (entryCount : Int) :
    Result GoString := do
  requireHash prevRoot "core: attestation root hash: prevRoot must be %d bytes, got %d"
  requireHash batchDigest "core: attestation root hash: batchDigest must be %d bytes, got %d"
  return sha256 (rootHashDomain :: (be 8 seq ++ (prevRoot ++ (batchDigest ++ be 8 entryCount))))

def attestationRootHashV2 (seq : Int) (prevRoot batchDigest merkleRoot : GoString)
    (entryCount : Int) : Result GoString := do
  requireHash prevRoot "core: attestation root hash v2: prevRoot must be %d bytes, got %d"
  requireHash batchDigest "core: attestation root hash v2: batchDigest must be %d bytes, got %d"
  requireHash merkleRoot "core: attestation root hash v2: merkleRoot must be %d bytes, got %d"
  return sha256 (rootHashDomainV2 ::
    (be 8 seq ++ (prevRoot ++ (batchDigest ++ (merkleRoot ++ be 8 entryCount)))))

def attestationRootHashV3 (seq : Int) (prevRoot batchDigest merkleRoot authVerdictDigest : GoString)
    (entryCount : Int) :
    Result GoString := do
  requireHash prevRoot "core: attestation root hash v3: prevRoot must be %d bytes, got %d"
  requireHash batchDigest "core: attestation root hash v3: batchDigest must be %d bytes, got %d"
  requireHash merkleRoot "core: attestation root hash v3: merkleRoot must be %d bytes, got %d"
  requireHash authVerdictDigest
    "core: attestation root hash v3: authVerdictDigest must be %d bytes, got %d"
  return sha256 (rootHashDomainV3 ::
    (be 8 seq ++ (prevRoot ++ (batchDigest ++ (merkleRoot ++ (authVerdictDigest ++ be 8 entryCount))))))

def merkleLeafHash (payload : GoString) : GoString := sha256 (merkleLeafPrefix :: payload)

def merkleNodeHash (left right : GoString) :
    GoString := sha256 (merkleNodePrefix :: (left ++ right))

end

end Ledger.Core
