import Ledger.Postgres.PostJournal

namespace Ledger.Postgres

open Core Shared

structure TrialBalanceRow where
  classificationUID : GoString
  classificationCode : GoString
  normalSide : NormalSide
  totalDebit : Decimal
  totalCredit : Decimal
  net : Decimal

structure TrialBalanceReport where
  currencyUID : GoString
  asOf : Instant
  rows : List TrialBalanceRow
  totalDebit : Decimal
  totalCredit : Decimal
  balanced : Bool

def trialEntries (db : LedgerTables) (currencyID : Nat) (asOf : Int) (cls : ClassificationRow) :
    List EntryRow :=
  db.entries.filter fun e => e.dim.currency == currencyID && decide (e.effectiveAt ≤ asOf) &&
    e.dim.classification == cls.id

def codeLe (a b : ClassificationRow) : Prop := a.code ≤ b.code

instance (a b : ClassificationRow) : Decidable (codeLe a b) := inferInstanceAs
    (Decidable (a.code ≤ b.code))

/-- `TrialBalanceRows`: a classification without a matching entry forms no group. -/
def trialBalanceRows (db : LedgerTables) (currencyID : Nat) (asOf : Int) :
    List (ClassificationRow × Int × Int) :=
  ((db.classifications.filter fun cls =>
    !(trialEntries db currencyID asOf cls).isEmpty).insertionSort codeLe).map
    fun cls => (cls, (LedgerTables.sumSide (trialEntries db currencyID asOf cls) .debit).getD 0,
      (LedgerTables.sumSide (trialEntries db currencyID asOf cls) .credit).getD 0)

def trialBalanceRow (s : Store) (row : ClassificationRow × Int × Int) : Result TrialBalanceRow := do
  let debit := numericToDecimal row.2.1
  let credit := numericToDecimal row.2.2
  let net ← within "postgres: trial balance: classification %d"
    (delta row.1.normalSide.normalSide debit credit)
  let cls ← s.classByIDOrErr row.1.id
  return ⟨pgToUID cls.uid, row.1.code, row.1.normalSide.normalSide, debit, credit, net⟩

def trialBalance (s : Store) (currencyUID : GoString) (asOf : Instant) :
    Result TrialBalanceReport := do
  let cur ← s.currencyByUIDOrErr currencyUID
  require (timestampFits (toMicros asOf)) ⟨.other, "postgres: trial balance"⟩
  let rows ← collect (trialBalanceRow s) (trialBalanceRows s.ledger cur.id (toMicros asOf))
  let totalDebit := sumDecimals (rows.map (·.totalDebit))
  let totalCredit := sumDecimals (rows.map (·.totalCredit))
  return ⟨currencyUID, asOf, rows, totalDebit, totalCredit, totalDebit.equal totalCredit⟩

end Ledger.Postgres
