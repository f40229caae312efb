import Ledger.Core.Money
import Ledger.Postgres.PostingGates

namespace Ledger.Postgres

open Core Shared

structure EntryDimKey where
  holder : Int
  currencyID : Nat
  classificationID : Nat
  entryType : EntryType
deriving DecidableEq

def flipEntryType : EntryType → EntryType
  | .credit => .debit
  | _ => .credit

def EntryRow.dimKey (e : EntryRow) : EntryDimKey :=
  ⟨e.dim.holder, e.dim.currency, e.dim.classification, e.entryType.entryType⟩

def EntryRow.reversedKey (e : EntryRow) : EntryDimKey :=
  { e.dimKey with entryType := flipEntryType e.entryType.entryType }

def ResolvedEntry.reversedKey (e : ResolvedEntry) : EntryDimKey :=
  ⟨e.input.accountHolder, e.currencyID, e.classificationID, flipEntryType e.input.entryType⟩

def sumByDim {α : Type} (key : α → EntryDimKey) (amount : α → Decimal) (l : List α)
    (k : EntryDimKey) : Decimal :=
  sumDecimals ((l.filter (key · = k)).map amount)

def EntryRow.decimal (e : EntryRow) : Decimal := numericToDecimal e.amount

def entriesByDimension (entries : List EntryRow) : EntryDimKey → Decimal :=
  sumByDim EntryRow.dimKey EntryRow.decimal entries

variable (s : Store)

def assertReversalChainIsWellFormed (original : JournalRow) (originalEntries : List EntryRow)
    (rows : List EntryRow) : Result Unit := do
  checkAll (fun r : JournalRow => checkAll (fun e : EntryRow =>
      require (originalEntries.any (·.dimKey == e.reversedKey))
        ⟨.conflict, "postgres: reversal chain of journal %q is corrupt: journal %q is linked as a reversal but its entry (holder %d, currency %d, classification %d, %s) reverses nothing the original posted; the amount already-reversed figure derived from it is therefore not a reversal history. Refusing to derive a reversal from it -- see docs/RUNBOOK.md \"Corrupt reversal chain\""⟩)
      (rows.filter (·.journal == r.id)))
    (s.listReversalsByOriginalJournalID original.id)
  checkAll (fun key =>
    require (!(sumByDim EntryRow.reversedKey EntryRow.decimal rows key).greaterThan
        (entriesByDimension originalEntries key))
      ⟨.conflict, "postgres: reversal chain of journal %q is corrupt: dimension (holder %d, currency %d, classification %d, %s) has already been reversed by %s, more than the original's %s. Refusing to derive a reversal from it -- see docs/RUNBOOK.md \"Corrupt reversal chain\""⟩)
    (firstSeen (rows.map EntryRow.reversedKey))

def cumulativeReversedByDimension (original : JournalRow) (originalEntries : List EntryRow) :
    Result (EntryDimKey → Decimal) := do
  let rows := s.listReversalEntriesByOriginal original.id
  if rows ≠ [] then assertReversalChainIsWellFormed s original originalEntries rows
  return sumByDim EntryRow.reversedKey EntryRow.decimal rows

def reversalScaleGuardDigits : Int := 12

def scaleByFraction (total : Decimal) (num den : Int) (exponent : Int) : Result Decimal :=
  roundHalfUp ((total.mul ⟨num, 0⟩).divRound ⟨den, 0⟩
    (exponent + reversalScaleGuardDigits)) exponent

def reversalLine (e : EntryRow) (amount : Decimal) : Result EntryInput := do
  let cur ← s.currencyByIDOrErr e.dim.currency
  let cls ← s.classByIDOrErr e.dim.classification
  return ⟨e.dim.holder, pgToUID cur.uid, pgToUID cls.uid, e.entryType.flip.entryType, amount⟩

def remainingEntries (entries : List EntryRow) (alreadyReversed : EntryDimKey → Decimal) :
    Result (List EntryInput) := do
  let remaining := fun key => (entriesByDimension entries key).sub (alreadyReversed key)
  let open_ := (firstSeen (entries.map EntryRow.dimKey)).filter fun key =>
    (remaining key).isPositive
  -- `find?` returns the representative: the first entry on the dimension.
  let lines ← collect (fun key => do
    let e ← orError (entries.find? (·.dimKey == key)) ⟨.other, ""⟩
    reversalLine s e (remaining key)) open_
  require (lines ≠ [])
    ⟨.conflict, "postgres: reverse journal fraction: journal is already fully reversed"⟩
  return lines

def groupShares (entries : List (EntryRow × Nat)) (num den : Int) (group : Nat × Side) :
    Result (List (Nat × Decimal)) := do
  let members := entries.filter fun e => e.1.dim.currency == group.1 && e.1.entryType == group.2
  let currency ← within "postgres: reverse journal fraction" (s.currencyByIDOrErr group.1)
  let weights := members.map (·.1.decimal)
  let scaledTotal ← within "postgres: reverse journal fraction: scale currency %d %s"
    (scaleByFraction (sumDecimals weights) num den currency.exponent)
  let shares ← within "postgres: reverse journal fraction: allocate currency %d %s"
    (allocate scaledTotal weights currency.exponent)
  return (members.map (·.2)).zip shares

def reversedAmounts (entries : List EntryRow) (num den : Int) :
    Result (List (EntryRow × Decimal)) := do
  let groups ← collect (groupShares s entries.zipIdx num den)
    (firstSeen (entries.map fun e => (e.dim.currency, e.entryType)))
  return entries.zipIdx.map fun e => (e.1, (groups.flatten.lookup e.2).getD .zero)

def scaledEntries (entries : List EntryRow) (alreadyReversed : EntryDimKey → Decimal)
    (num den : Int) : Result (List EntryInput) := do
  let amounts ← reversedAmounts s entries num den
  let lines := amounts.filter (·.2.isPositive)
  let newByDim := sumByDim (fun line : EntryRow × Decimal => line.1.dimKey) Prod.snd lines
  checkAll (fun key => require (!((alreadyReversed key).add (newByDim key)).greaterThan
    (entriesByDimension entries key))
      ⟨.conflict, "postgres: reverse journal fraction: dimension (holder %d, currency %d, classification %d, %s): cumulative reversed %s + this reversal's %s would exceed original amount %s"⟩)
    (firstSeen (entries.map EntryRow.dimKey))
  let reversed ← collect (fun line => reversalLine s line.1 line.2) lines
  require (reversed ≠ [])
    ⟨.invalidInput, "postgres: reverse journal fraction: fraction %d/%d rounds to zero on every entry"⟩
  return reversed

def reversalEntriesFor (entries : List EntryRow) (alreadyReversed : EntryDimKey → Decimal)
    (num den : Int) : Result (List EntryInput) :=
  if num = den then remainingEntries s entries alreadyReversed
    else scaledEntries s entries alreadyReversed num den

def validateReversalOfInput (original : JournalRow)
    (resolved : List ResolvedEntry) : Result Unit := do
  require original.reversalOf.isNone
    ⟨.conflict, "postgres: post journal: reversal_of %q is itself a reversal; reverse the original journal instead"⟩
  let originalEntries := s.listJournalEntries original.id
  require (originalEntries ≠ [])
    ⟨.invalidInput, "postgres: post journal: reversal_of %q has no entries; there is nothing to reverse"⟩
  let alreadyReversed ← within "postgres: post journal: reversal_of"
    (cumulativeReversedByDimension s original originalEntries)
  let newByDim := sumByDim ResolvedEntry.reversedKey (·.input.amount) resolved
  checkAll (fun key => do
    require (originalEntries.any (·.dimKey == key))
      ⟨.invalidInput, "postgres: post journal: reversal_of %q: entry (holder %d, currency %d, classification %d, %s) does not reverse any entry of the referenced journal"⟩
    require (!((alreadyReversed key).add (newByDim key)).greaterThan
      (entriesByDimension originalEntries key))
      ⟨.conflict, "postgres: post journal: reversal_of %q: dimension (holder %d, currency %d, classification %d, %s): cumulative reversed %s + this journal's %s would exceed original amount %s"⟩)
    (firstSeen (resolved.map ResolvedEntry.reversedKey))

end Ledger.Postgres
