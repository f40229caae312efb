import Ledger.Postgres.Store
import Ledger.Shared.Grouping

namespace Ledger.Postgres

open Core Shared

structure ResolvedEntry where
  input : EntryInput
  currencyID : Nat
  classificationID : Nat
  exponent : Nat
  normalSide : NormalSide
deriving DecidableEq

def ResolvedEntry.dim (e : ResolvedEntry) : Dimension :=
  ⟨e.input.accountHolder, e.currencyID, e.classificationID⟩

variable (s : Store)

def resolveEntry (e : EntryInput) : Result ResolvedEntry := do
  let cur ← within "postgres: entry[%d]" (s.currencyByUIDOrErr e.currencyUID)
  let cls ← within "postgres: entry[%d]" (s.classByUIDOrErr e.classificationUID)
  return ⟨e, cur.id, cls.id, cur.exponent, cls.normalSide.normalSide⟩

def resolveEntries (entries : List EntryInput) : Result (List ResolvedEntry) :=
  collect (resolveEntry s) entries

def balancePairsFromEntries (entries : List ResolvedEntry) : List Pair := sortedUniquePairs
    (entries.map (·.dim.pair))

def checkAmountPrecision (amount : Decimal) (currency : CurrencyRow) : Result Unit :=
  require (amount.equal (amount.truncate currency.exponent))
    ⟨.precisionExceeded, "postgres: amount %s exceeds currency %s (%s) exponent %d"⟩

def validateEntriesPrecision (entries : List ResolvedEntry) : Result Unit :=
  checkAll (fun e => within "postgres: entry[%d]" do
    let cur ← s.currencyByIDOrErr e.currencyID
    checkAmountPrecision e.input.amount cur) entries

def inactiveDims (journalTypeID : Nat) (entries : List ResolvedEntry) : List GoString :=
  ((s.currencies.filter fun c => entries.any (·.currencyID == c.id) && !c.isActive).map (·.code)) ++
    ((s.ledger.classifications.filter fun c => entries.any (·.classificationID == c.id) &&
      !c.isActive).map (·.code)) ++
    ((s.journalTypes.filter fun t => t.id == journalTypeID && !t.isActive).map (·.code))

def assertDimsActive (journalTypeID : Nat) (entries : List ResolvedEntry) : Result Unit :=
  require (inactiveDims s journalTypeID entries).isEmpty
    ⟨.invalidInput, "postgres: %s is deactivated and cannot be used in a new journal"⟩

def specificity (p : AccountPolicyRow) : Nat :=
  (if p.currencyID ≠ 0 then 1 else 0) + if p.classificationID ≠ 0 then 1 else 0

def policyOrder (a b : AccountPolicyRow) : Prop :=
  specificity b < specificity a ∨ specificity a = specificity b ∧
    (b.currencyID < a.currencyID ∨ a.currencyID = b.currencyID ∧
      b.classificationID ≤ a.classificationID)

instance (a b : AccountPolicyRow) : Decidable (policyOrder a b) := inferInstanceAs
    (Decidable (_ ∨ _ ∧ _))

def getEffectiveAccountPolicy (policies : List AccountPolicyRow) (dim : Dimension) :
    Option AccountPolicyRow :=
  ((policies.filter fun p => p.accountHolder == dim.holder &&
    (p.currencyID == dim.currency || p.currencyID == 0) &&
    (p.classificationID == dim.classification || p.classificationID == 0)).insertionSort
      policyOrder).head?

structure PolicyDelta where
  entry : ResolvedEntry
  delta : Decimal
  policy : Option AccountPolicyRow

def sumDecimals (l : List Decimal) : Decimal := l.foldl Decimal.add .zero

theorem val_sumDecimals (l : List Decimal) : (sumDecimals l).val = (l.map Decimal.val).sum := by
  rw [sumDecimals, Decimal.foldl_add_val, Decimal.val_zero, zero_add]

theorem totalOf_eq_sumDecimals (entryType : EntryType) (entries : List EntryInput) :
    totalOf entryType entries =
    sumDecimals ((entries.filter (·.entryType = entryType)).map (·.amount)) := by
  rw [totalOf, sumDecimals, List.foldl_map, List.foldl_filter]
  simp only [decide_eq_true_eq]

def policyDelta (e : ResolvedEntry) : Result PolicyDelta := do
  let delta ← within "postgres: post journal"
    (signedAmount e.normalSide e.input.entryType e.input.amount)
  let policy := getEffectiveAccountPolicy s.policies e.dim
  require (policy.map (·.status) ≠ some .closed)
    ⟨.accountClosed, "postgres: post journal: account %d currency %d classification %d is closed (policy %d)"⟩
  return ⟨e, delta, policy⟩

def PolicyDelta.frozenKey (d : PolicyDelta) : Option (Nat × Nat) :=
  match d.policy with
  | some p => if p.status = .frozen then some (p.id, d.entry.currencyID) else none
  | none => none

def checkFrozen (deltas : List PolicyDelta) (key : Nat × Nat) : Result Unit :=
  require (!(sumDecimals ((deltas.filter (·.frozenKey == some key)).map (·.delta))).isNegative)
    ⟨.accountFrozen, "postgres: post journal: account %d currency %d is frozen — net decrease %s under policy %d"⟩

def checkMinBalance (deltas : List PolicyDelta) (dim : Dimension) : Result Unit :=
  match getEffectiveAccountPolicy s.policies dim with
  | none => .ok ()
  | some p =>
    if p.enforceMinBalance then do
      let before ← within "postgres: post journal: account policy: get balance"
        (getBalanceWithQueries s.ledger s.ledger s.ledger dim)
      let after := before.add (sumDecimals ((deltas.filter (·.entry.dim == dim)).map (·.delta)))
      require (!(numericToDecimal p.minBalance).greaterThan after)
        ⟨.insufficientBalance,
          "postgres: post journal: account %d currency %d classification %d balance %s would fall below min_balance %s (policy %d)"⟩
    else .ok ()

def enforceAccountPolicies (entries : List ResolvedEntry) : Result Unit := do
  let deltas ← collect (policyDelta s) entries
  checkAll (checkFrozen deltas) (firstSeen (deltas.filterMap (·.frozenKey)))
  checkAll (checkMinBalance s deltas) (firstSeen (entries.map (·.dim)))

end Ledger.Postgres
