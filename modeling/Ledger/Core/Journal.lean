import Ledger.Core.Amount
import Ledger.Shared.Json

namespace Ledger.Core

open Shared

abbrev Instant := Int

abbrev Metadata := SortedMap GoString GoString

structure EntryInput where
  accountHolder : Int
  currencyUID : GoString
  classificationUID : GoString
  entryType : EntryType
  amount : Decimal
deriving DecidableEq

structure JournalInput where
  journalTypeUID : GoString
  idempotencyKey : GoString
  entries : List EntryInput
  metadata : Metadata
  actorID : Int
  source : GoString
  reversalOfUID : GoString
  eventUID : GoString
  effectiveAt : Instant
deriving DecidableEq

def minute : Int := 60 * 1000000000

def effectiveAtFutureTolerance : Int := 5 * minute

def maxSourceLen : Nat := 256
def maxMetadataKeys : Nat := 64
def maxMetadataKeyLen : Nat := 128
def maxMetadataValueLen : Nat := 2048
def maxMetadataTotalLen : Nat := 16384

def validateFreeformFields (source : GoString) (metadata : Metadata) : Result Unit := do
  require (source.length ≤ maxSourceLen) ⟨.invalidInput, "core: %s: source is %d bytes, limit %d"⟩
  require (metadata.entries.length ≤ maxMetadataKeys)
    ⟨.invalidInput, "core: %s: metadata has %d keys, limit %d"⟩
  -- Go visits the map in no fixed order; the order only picks which bound is named.
  checkAll (fun entry => do
    require (entry.1.length ≤ maxMetadataKeyLen)
      ⟨.invalidInput, "core: %s: metadata key is %d bytes, limit %d"⟩
    require (entry.2.length ≤ maxMetadataValueLen)
      ⟨.invalidInput, "core: %s: metadata[%q] is %d bytes, limit %d"⟩)
    metadata.entries
  require ((metadata.entries.map fun entry => entry.1.length + entry.2.length).sum ≤
    maxMetadataTotalLen)
    ⟨.invalidInput, "core: %s: metadata totals %d bytes, limit %d"⟩

def totalOf (entryType : EntryType) (entries : List EntryInput) : Decimal :=
  entries.foldl (fun total e => if e.entryType = entryType then total.add e.amount else total) .zero

def JournalInput.totals (j : JournalInput) : Decimal × Decimal :=
  (totalOf .debit j.entries, totalOf .credit j.entries)

def JournalInput.totalsByCurrency (j : JournalInput) (currencyUID : GoString) : Decimal × Decimal :=
  let entries := j.entries.filter (·.currencyUID == currencyUID)
  (totalOf .debit entries, totalOf .credit entries)

def JournalInput.currencyUIDs (j : JournalInput) : List GoString :=
  (j.entries.map (·.currencyUID)).dedup.insertionSort (· ≤ ·)

def validateEntry (e : EntryInput) : Result Unit := do
  validateAmountMagnitude e.amount
  require (e.accountHolder ≠ 0)
    ⟨.invalidInput, "core: journal: entry[%d]: account_holder must not be zero"⟩
  require e.entryType.isValid ⟨.invalidInput, "core: journal: entry[%d]: invalid entry type %q"⟩
  require (e.currencyUID ≠ []) ⟨.invalidInput, "core: journal: entry[%d]: currency_uid required"⟩
  require (e.classificationUID ≠ [])
    ⟨.invalidInput, "core: journal: entry[%d]: classification_uid required"⟩
  require e.amount.isPositive ⟨.invalidInput, "core: journal: entry[%d]: amount must be positive"⟩

def conversionQuotesMetadataKey : GoString := lit "conversion_quotes"

def validateConversionQuotesMetadata (decodeQuotes : GoString → Result Unit)
    (metadata : Metadata) : Result Unit :=
  match metadata.get conversionQuotesMetadataKey with
  | none => .ok ()
  | some encoded => within "core: %s: metadata[%q]" (decodeQuotes encoded)

def JournalInput.validate (decodeQuotes : GoString → Result Unit) (now : Instant)
    (j : JournalInput) : Result Unit := do
  require (j.idempotencyKey ≠ []) ⟨.invalidInput, "core: journal: idempotency key required"⟩
  validateFreeformFields j.source j.metadata
  validateConversionQuotesMetadata decodeQuotes j.metadata
  require (j.entries ≠ []) ⟨.invalidInput, "core: journal: entries must not be empty"⟩
  require (j.effectiveAt = 0 ∨ j.effectiveAt ≤ now + effectiveAtFutureTolerance)
    ⟨.invalidInput, "core: journal: effective_at %s is too far in the future"⟩
  checkAll validateEntry j.entries
  checkAll (fun uid => require ((j.totalsByCurrency uid).1.equal (j.totalsByCurrency uid).2)
    ⟨.unbalancedJournal, "core: journal: currency %s unbalanced, debit=%s credit=%s"⟩) j.currencyUIDs

end Ledger.Core
