import Ledger.Core.Journal

namespace Ledger.Core

open Shared

def EntryType.text : EntryType → GoString
  | .debit => lit "debit"
  | .credit => lit "credit"
  | .unknown text => text

def encodeAmount (amount : Decimal) : Result Int := do
  validateAmountIsRescalable amount
  require (amount.equal (ofUnits 18 (amount.rescale (-18)).coeff))
    ⟨.invalidInput, "core: encode amount: %s has more than %d fractional digits"⟩
  let scaled := (amount.rescale (-18)).coeff
  require (-2 ^ 127 ≤ scaled ∧ scaled < 2 ^ 127)
    ⟨.invalidInput, "core: encode amount: scaled value out of range for %d-byte two's complement"⟩
  return scaled

structure DigestEntry where
  accountHolder : Int
  currencyUID : GoString
  classificationUID : GoString
  entryType : GoString
  amount : Int
deriving DecidableEq

def DigestEntry.key (e : DigestEntry) : Int ×ₗ GoString ×ₗ GoString ×ₗ GoString ×ₗ Int :=
  toLex (e.accountHolder,
    toLex (e.currencyUID, toLex (e.classificationUID, toLex (e.entryType, e.amount))))

structure DigestPayload where
  journalTypeUID : GoString
  idempotencyKey : GoString
  actorID : Int
  source : GoString
  effectiveAt : Int
  reversalOfUID : GoString
  entries : List DigestEntry
deriving DecidableEq

def digestEntry (e : EntryInput) : Result DigestEntry := do
  let amount ← within "core: canonical journal digest: entry[%d]" (encodeAmount e.amount)
  return ⟨e.accountHolder, e.currencyUID, e.classificationUID, e.entryType.text, amount⟩

/-- Metadata and the event link are not covered. -/
def canonicalJournalDigest (hash : DigestPayload → GoString) (input : JournalInput)
    (effectiveAt : Instant) : Result GoString := do
  let entries ← collect digestEntry input.entries
  return hash
    { journalTypeUID := input.journalTypeUID
      idempotencyKey := input.idempotencyKey
      actorID := input.actorID
      source := input.source
      effectiveAt := effectiveAt / 1000
      reversalOfUID := input.reversalOfUID
      entries := entries.insertionSort fun a b => a.key ≤ b.key }

end Ledger.Core
