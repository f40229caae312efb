import Ledger.Core.Pending
import Ledger.Postgres.ReverseJournal
import Ledger.Shared.DistinctOn

namespace Ledger.Postgres

open Core Shared

abbrev VerifiedBalanceReader := Store → Int → GoString → GoString → Result Decimal

structure PendingStore where
  cfg : Config
  mode : Mode
  verifiedBalance : Option VerifiedBalanceReader

structure PendingClassIDs where
  pending : GoString
  suspense : GoString
  mainWallet : GoString
  custodial : GoString

variable (s : Store)

def Store.getClassificationByCode (code : GoString) : Option ClassificationRow :=
  s.ledger.classifications.find? (·.code == code)

def Store.getJournalTypeByCode (code : GoString) : Option JournalTypeRow :=
  s.journalTypes.find? (·.code == code)

def resolveClassificationID (code : String) : Result GoString := do
  let cls ← orError (s.getClassificationByCode (lit code))
    ⟨.notFound, "classification %q not found — install pending bundle first"⟩
  return pgToUID cls.uid

def resolveClassificationIDs : Result PendingClassIDs := do
  let pending ← resolveClassificationID s "pending"
  let suspense ← resolveClassificationID s "suspense"
  let mainWallet ← resolveClassificationID s "main_wallet"
  let custodial ← resolveClassificationID s "custodial"
  return ⟨pending, suspense, mainWallet, custodial⟩

def pendingLeg (i : PendingInput) (holder : Int) (classificationUID : GoString)
    (entryType : EntryType) : EntryInput :=
  ⟨holder, i.currencyUID, classificationUID, entryType, i.amount⟩

def pendingJournal (i : PendingInput) (jt : JournalTypeRow) (metadata : Metadata)
    (entries : List EntryInput) : JournalInput :=
  { journalTypeUID := pgToUID jt.uid
    idempotencyKey := i.idempotencyKey
    entries := entries
    metadata := metadata
    actorID := i.actorID
    source := i.source
    reversalOfUID := []
    eventUID := []
    effectiveAt := 0 }

def buildAddPendingJournalInput (i : AddPendingInput) (cls : PendingClassIDs)
    (jt : JournalTypeRow) : JournalInput :=
  pendingJournal i.toPendingInput jt i.metadata
    [pendingLeg i.toPendingInput (systemAccountHolder i.accountHolder) cls.suspense .debit,
      pendingLeg i.toPendingInput i.accountHolder cls.pending .credit]

def buildConfirmPendingJournalInput (i : ConfirmPendingInput) (cls : PendingClassIDs)
    (jt : JournalTypeRow) : JournalInput :=
  pendingJournal i.toPendingInput jt i.metadata
    [pendingLeg i.toPendingInput i.accountHolder cls.pending .debit,
      pendingLeg i.toPendingInput i.accountHolder cls.mainWallet .debit,
      pendingLeg i.toPendingInput (systemAccountHolder i.accountHolder) cls.suspense .credit,
      pendingLeg i.toPendingInput (systemAccountHolder i.accountHolder) cls.custodial .credit]

def cancelReason (i : CancelPendingInput) : GoString :=
  if i.reason = [] then lit "cancelled" else i.reason

def buildCancelPendingJournalInput (i : CancelPendingInput) (cls : PendingClassIDs)
    (jt : JournalTypeRow) : JournalInput :=
  pendingJournal i.toPendingInput jt (i.metadata.insert (lit "reason") (cancelReason i))
    [pendingLeg i.toPendingInput i.accountHolder cls.pending .debit,
      pendingLeg i.toPendingInput (systemAccountHolder i.accountHolder) cls.suspense .credit]

def recomputeFromEntries (db : LedgerTables) (normalSide : Side) (dim : Dimension) : Int :=
  ((db.dimEntries dim).map fun e => ledgerSignedAmount normalSide e.entryType e.amount).sum

def pendingBalanceFromEntries (holder : Int) (currencyID : Nat) (pendingClsUID : GoString) :
    Result Decimal :=
  within "recompute pending balance from entries" do
    let cls ← s.classByUIDOrErr pendingClsUID
    return numericToDecimal (recomputeFromEntries s.ledger cls.normalSide ⟨holder, currencyID, cls.id⟩)

def checkPendingBalance (errPrefix : String) (i : PendingInput) (currencyID : Nat)
    (pendingClsUID : GoString)
    (verifiedPendingBase : Option Decimal) : Result Unit := do
  let entriesBalance ← within errPrefix
    (pendingBalanceFromEntries s i.accountHolder currencyID pendingClsUID)
  let bal := (verifiedPendingBase.map fun verified =>
    decimalMin verified entriesBalance).getD entriesBalance
  require (!i.amount.greaterThan bal)
    ⟨.insufficientBalance, errPrefix ++ ": insufficient pending balance: available=%s required=%s"⟩

/-- `PostAuthorized`. What `Authorize` learnt about a replay is not carried over. -/
def postAuthorized (cfg : Config) (env : Env) (s : Store) (a : AuthorizedJournal) :
    Result (Store × Journal) := do
  require (a.status ≠ .empty)
    ⟨.invalidInput, "postgres: post authorized: AuthorizedJournal.Status is empty; it must come from Authorize, not be constructed by hand"⟩
  within "postgres: post authorized" (a.input.validate cfg.decodeQuotes env.now)
  postJournalWithQueries cfg env s a.input a.effectiveAt
    ⟨a.digest, a.signature, a.keyID, a.status, false⟩

/-- The closure `run` of `checkPendingBalanceAndPost`; its locks are taken in this order and held to
the end of the transaction. -/
def runPending (cfg : Config) (env : Env) (s : Store) (errPrefix : String) (i : PendingInput)
    (pendingClsUID : GoString)
    (input : JournalInput) (verifiedPendingBase : Option Decimal)
    (authorized : Option AuthorizedJournal) :
    Result (Store × Journal) := do
  let cur ← within errPrefix (s.currencyByUIDOrErr i.currencyUID)
  let resolved ← within (errPrefix ++ ": resolve entries for lock order")
    (resolveEntries s input.entries)
  require (decide ((⟨i.accountHolder, cur.id⟩ : Pair) ∈ balancePairsFromEntries resolved))
    ⟨.invalidInput, errPrefix ++
      ": internal: journal entries do not touch (holder %d, currency %s), so the pending-balance check below would read an unlocked balance"⟩
  match ← within (errPrefix ++ ": idempotency recheck")
    (s.getJournalByIdempotencyKey input.idempotencyKey) with
  | some existing => do
    let journal ← ensureJournalMatchesInput s existing input
    return (s, journal)
  | none => do
    checkPendingBalance s errPrefix i cur.id pendingClsUID verifiedPendingBase
    match authorized with
    | some a => postAuthorized cfg env s a
    | none => postJournal cfg .tx env s input

def checkPendingBalanceAndPost (p : PendingStore) (env : Env) (s : Store)
    (errPrefix : String) (i : PendingInput)
    (pendingClsUID : GoString) (input : JournalInput) (verifiedPendingBase : Option Decimal) :
    Result (Store × Journal) :=
  match p.mode with
  | .tx => runPending p.cfg env s errPrefix i pendingClsUID input verifiedPendingBase none
  | .pool attestor => do
    -- Signing comes before the transaction is opened.
    let authorized ← within (errPrefix ++ ": authorize") (authorize p.cfg attestor env s input)
    runPending p.cfg env s errPrefix i pendingClsUID input verifiedPendingBase (some authorized)

namespace PendingStore

variable (p : PendingStore)

def addPending (env : Env) (s : Store) (i : AddPendingInput) : Result (Store × Journal) := do
  i.validate
  let cls ← within "pending: add" (resolveClassificationIDs s)
  let jt ← orError (s.getJournalTypeByCode (lit "deposit_pending"))
    ⟨.notFound, "pending: add: journal type 'deposit_pending' not found — install pending bundle first"⟩
  postJournal p.cfg p.mode env s (buildAddPendingJournalInput i cls jt)

def isTx : Mode → Bool
  | .tx => true
  | .pool _ => false

def verifiedPendingBase (s : Store) (i : ConfirmPendingInput) (pendingClsUID : GoString) :
    Result (Option Decimal) :=
  match p.verifiedBalance with
  | none => .ok none
  | some reader => do
    let verified ← within "pending: confirm: verified pending balance"
      (reader s i.accountHolder i.currencyUID pendingClsUID)
    return some verified

def confirmPending (env : Env) (s : Store) (i : ConfirmPendingInput) :
    Result (Store × Journal) := do
  i.validate
  let cls ← within "pending: confirm" (resolveClassificationIDs s)
  let jt ← orError (s.getJournalTypeByCode (lit "deposit_confirm_pending"))
    ⟨.notFound, "pending: confirm: journal type 'deposit_confirm_pending' not found"⟩
  let input := buildConfirmPendingJournalInput i cls jt
  require (!(isTx p.mode && p.verifiedBalance.isSome))
    ⟨.invalidInput, "pending: confirm: called on a transaction-bound store while the verified-balance gate is configured; the gate may call a remote AuthVerifier and financial.md forbids that inside an open transaction -- call ConfirmPending on the top-level Service BEFORE opening a RunInTx, not from inside its callback"⟩
  match ← within "pending: confirm: idempotency check"
    (s.getJournalByIdempotencyKey i.idempotencyKey) with
  | some existing => do
    let journal ← ensureJournalMatchesInput s existing input
    return (s, journal)
  | none => do
    let verifiedPendingBase ← p.verifiedPendingBase s i cls.pending
    checkPendingBalanceAndPost p env s "pending: confirm" i.toPendingInput cls.pending
      input verifiedPendingBase

def cancelPending (env : Env) (s : Store) (i : CancelPendingInput) : Result (Store × Journal) := do
  i.validate
  let cls ← within "pending: cancel" (resolveClassificationIDs s)
  let jt ← orError (s.getJournalTypeByCode (lit "deposit_release_pending"))
    ⟨.notFound, "pending: cancel: journal type 'deposit_release_pending' not found"⟩
  let input := buildCancelPendingJournalInput i cls jt
  match ← within "pending: cancel: idempotency check"
    (s.getJournalByIdempotencyKey i.idempotencyKey) with
  | some existing => do
    let journal ← ensureJournalMatchesInput s existing input
    return (s, journal)
  | none => checkPendingBalanceAndPost p env s "pending: cancel" i.toPendingInput cls.pending input none

end PendingStore

structure PendingJournalRow where
  journalID : Nat
  accountHolder : Int
  currencyID : Nat
  amount : Int
deriving DecidableEq

def PendingJournalRow.pair (r : PendingJournalRow) : Pair := ⟨r.accountHolder, r.currencyID⟩

def pendingJournalOrder (a b : PendingJournalRow) : Prop :=
  a.accountHolder < b.accountHolder ∨ a.accountHolder = b.accountHolder ∧
    (a.currencyID < b.currencyID ∨ a.currencyID = b.currencyID ∧ a.journalID ≤ b.journalID)

instance (a b : PendingJournalRow) : Decidable (pendingJournalOrder a b) := inferInstanceAs
    (Decidable (_ ∨ _ ∧ _))

/-- The joined rows before `DISTINCT ON`. The statement looks at no balance. -/
def stalePendingJournals (s : Store) (pendingClassificationID : Nat) (cutoff : Int) :
    List PendingJournalRow :=
  (s.journals.filter fun j => decide (j.createdAt < cutoff) &&
      s.journalTypes.any fun jt => jt.id == j.journalTypeID && jt.code == lit "deposit_pending").flatMap fun j =>
    ((s.listJournalEntries j.id).filter fun e =>
      e.dim.classification == pendingClassificationID && e.entryType == .credit).map fun e =>
        ⟨j.id, e.dim.holder, e.dim.currency, j.totalDebit⟩

def listPendingJournalsOlderThan (s : Store) (pendingClassificationID : Nat) (cutoff : Int) :
    List PendingJournalRow :=
  (distinctOn PendingJournalRow.pair
    ((stalePendingJournals s pendingClassificationID cutoff).insertionSort
      pendingJournalOrder)).take 1000

def Store.getBalance (s : Store) (holder : Int) (currencyUID classificationUID : GoString) :
    Result Decimal := do
  let cur ← s.currencyByUIDOrErr currencyUID
  let cls ← s.classByUIDOrErr classificationUID
  getBalanceWithQueries s.ledger s.ledger s.ledger ⟨holder, cur.id, cls.id⟩

def expireKey (journalID : Nat) : GoString := lit "pending:expire:journal=" ++ intText journalID

def expireInput (row : PendingJournalRow) (currencyUID : GoString) (amount : Decimal) :
    CancelPendingInput :=
  { accountHolder := row.accountHolder
    currencyUID := currencyUID
    amount := amount
    idempotencyKey := expireKey row.journalID
    actorID := 0
    source := lit "pending_timeout_sweeper"
    metadata := .empty
    reason := lit "expired" }

structure Sweep where
  store : Store
  cancelled : Nat
  errs : List Error

namespace PendingStore

def cancelStale (p : PendingStore) (env : Env) (s : Store) (row : PendingJournalRow)
    (currencyUID : GoString)
    (bal : Decimal) : Result (Store × Journal) :=
  p.cancelPending env s (expireInput row currencyUID (decimalMin (numericToDecimal row.amount) bal))

def expireRow (p : PendingStore) (env : Env) (pendingClsUID : GoString) (w : Sweep)
    (row : PendingJournalRow) : Sweep :=
  match w.store.currencyByIDOrErr row.currencyID with
  | .error err => { w with errs := w.errs ++ [err.wrap "holder=%d resolve currency"] }
  | .ok rowCur =>
    match w.store.getBalance row.accountHolder (pgToUID rowCur.uid) pendingClsUID with
    | .error err => { w with errs := w.errs ++ [err.wrap "holder=%d currency=%s get balance"] }
    | .ok bal =>
      if bal.isPositive then
        match p.cancelStale env w.store row (pgToUID rowCur.uid) bal with
        | .error err =>
          { w with errs := w.errs ++ [err.wrap "pending: expire: cancel journal_id=%d holder=%d currency=%s"] }
        | .ok (store, _) => { w with store := store, cancelled := w.cancelled + 1 }
      else w

/-- `ExpirePendingOlderThan`. Each cancellation is its own transaction, with its own clock reading
and journal uid. -/
def expirePendingOlderThan (p : PendingStore) (now : Instant)
    (draw : PendingJournalRow → Env) (s : Store)
    (threshold : Int) : Result Sweep := do
  let cls ← within "pending: expire" (resolveClassificationIDs s)
  let cutoff := now - threshold
  let pendingCls ← within "pending: expire" (s.classByUIDOrErr cls.pending)
  require (timestampFits (toMicros cutoff))
    ⟨.other, "pending: expire: list stale journals: timestamp out of range"⟩
  let rows := listPendingJournalsOlderThan s pendingCls.id (toMicros cutoff)
  return rows.foldl (fun w row => p.expireRow (draw row) cls.pending w row) ⟨s, 0, []⟩

end PendingStore

end Ledger.Postgres
