import Ledger.Core.Journal
import Ledger.Postgres.Tables

namespace Ledger.Postgres

open Core Shared

structure CurrencyRow where
  id : Nat
  uid : Uuid
  code : GoString
  exponent : Nat
  isActive : Bool
deriving DecidableEq

structure JournalTypeRow where
  id : Nat
  uid : Uuid
  code : GoString
  isActive : Bool
deriving DecidableEq

/-- `core.AuthStatus`; `empty` is the Go zero value, which no column admits. -/
inductive AuthStatus where
  | empty | signed | unsignedNoAttestor | unsignedTxMode
deriving DecidableEq

structure JournalRow where
  id : Nat
  uid : Uuid
  journalTypeID : Nat
  idempotencyKey : GoString
  totalDebit : Int
  totalCredit : Int
  metadata : Metadata
  actorID : Int
  source : GoString
  reversalOf : Option Nat
  eventID : Option Nat
  effectiveAt : Int
  createdAt : Int
  authDigest : GoString
  authSignature : GoString
  authKeyID : GoString
  authStatus : AuthStatus
deriving DecidableEq

structure EventRow where
  id : Nat
  uid : Uuid
  classificationCode : GoString
  -- 0 stands for no booking.
  bookingID : Nat
  accountHolder : Int
  currencyID : Nat
  fromStatus : GoString
  toStatus : GoString
  amount : Int
  settledAmount : Int
  journalID : Option Nat
  metadata : Metadata
  actorID : Int
  source : GoString
deriving DecidableEq

structure BookingRow where
  id : Nat
  uid : Uuid
  classificationID : Nat
  accountHolder : Int
  currencyID : Nat
  amount : Int
  settledAmount : Int
  status : GoString
  channelName : GoString
  channelRef : GoString
  reservationID : Option Nat
  journalID : Option Nat
  idempotencyKey : GoString
  metadata : Metadata
  expiresAt : Int
  createdAt : Int
deriving DecidableEq

inductive AccountPolicyStatus where
  | active | frozen | closed
deriving DecidableEq

structure AccountPolicyRow where
  id : Nat
  accountHolder : Int
  -- 0 is the wildcard in both columns.
  currencyID : Nat
  classificationID : Nat
  status : AccountPolicyStatus
  minBalance : Int
  enforceMinBalance : Bool
deriving DecidableEq

structure PeriodCloseRow where
  id : Nat
  closeBefore : Int
  createdAt : Int
deriving DecidableEq

structure Store where
  ledger : LedgerTables
  currencies : List CurrencyRow
  journalTypes : List JournalTypeRow
  journals : List JournalRow
  events : List EventRow
  bookings : List BookingRow
  policies : List AccountPolicyRow
  periodCloses : List PeriodCloseRow
  nextJournalID : Nat
  nextEntryID : Nat

abbrev Attestor := GoString → Result (GoString × GoString)

/-- A store on a pool owns its transactions and may sign; one bound to a transaction does not. -/
inductive Mode where
  | tx
  | pool (attestor : Option Attestor)

def toMicros (t : Instant) : Int := t / 1000

def timestampFits (micros : Int) : Bool := decide (-148731206400000000 ≤ micros) && decide
    (micros < 9286453612800000000)

def textFits (s : GoString) : Bool := validUtf8 s && !s.contains 0

def textParam (s : GoString) : Result Unit := require (textFits s)
    ⟨.other, "invalid byte sequence for encoding \"UTF8\""⟩

def jsonbFits (m : Metadata) : Bool := m.entries.all fun e => !e.1.contains 0 && !e.2.contains 0

def numericColumn (d : Decimal) : Result Int :=
  if fitsUnits 30 (toUnits 18 d) then .ok (toUnits 18 d)
  else .error ⟨.invalidInput, "value out of range for column (%s)"⟩

theorem numericColumn_ok {d : Decimal} {units : Int} (ok : numericColumn d = .ok units) :
    units = toUnits 18 d := by
  unfold numericColumn at ok
  split at ok
  · exact (Except.ok.inj ok).symm
  · cases ok

theorem numericColumn_fits {d : Decimal} {units : Int} (ok : numericColumn d = .ok units) :
    fitsUnits 30 (toUnits 18 d) = true := by
  unfold numericColumn at ok
  split at ok
  · assumption
  · cases ok

def pgToUID (u : Uuid) : GoString := u.print

def uidToPG (uid : GoString) : Result Uuid := orError (Uuid.parse uid)
    ⟨.notFound, "postgres: invalid uid %q"⟩

namespace Store

variable (s : Store)

def currencyByUIDOrErr (uid : GoString) : Result CurrencyRow :=
  orError (s.currencies.find? (pgToUID ·.uid == uid)) ⟨.notFound, "postgres: currency %q"⟩

def currencyByIDOrErr (id : Nat) : Result CurrencyRow :=
  orError (s.currencies.find? (·.id == id)) ⟨.notFound, "postgres: currency id %d"⟩

def classByUIDOrErr (uid : GoString) : Result ClassificationRow :=
  orError (s.ledger.classifications.find? (pgToUID ·.uid == uid))
    ⟨.notFound, "postgres: classification %q"⟩

def classByIDOrErr (id : Nat) : Result ClassificationRow :=
  orError (s.ledger.getClassification id) ⟨.notFound, "postgres: classification id %d"⟩

def jtByUIDOrErr (uid : GoString) : Result JournalTypeRow :=
  orError (s.journalTypes.find? (pgToUID ·.uid == uid)) ⟨.notFound, "postgres: journal type %q"⟩

def jtByIDOrErr (id : Nat) : Result JournalTypeRow :=
  orError (s.journalTypes.find? (·.id == id)) ⟨.notFound, "postgres: journal type id %d"⟩

def getJournalByIdempotencyKey (key : GoString) : Result (Option JournalRow) := do
  textParam key
  return s.journals.find? (·.idempotencyKey == key)

def getJournalByUID (uid : Uuid) : Option JournalRow := s.journals.find? (·.uid == uid)

def getJournalByID (id : Nat) : Option JournalRow := s.journals.find? (·.id == id)

def listJournalEntries (journalID : Nat) : List EntryRow := s.ledger.entries.filter
    (·.journal == journalID)

def listReversalsByOriginalJournalID (journalID : Nat) : List JournalRow :=
  s.journals.filter (·.reversalOf == some journalID)

def listReversalEntriesByOriginal (journalID : Nat) : List EntryRow :=
  s.ledger.entries.filter fun e => (s.listReversalsByOriginalJournalID journalID).any
    (·.id == e.journal)

def getEventByUID (uid : Uuid) : Option EventRow := s.events.find? (·.uid == uid)

def getEvent (id : Nat) : Option EventRow := s.events.find? (·.id == id)

def getBooking (id : Nat) : Option BookingRow := s.bookings.find? (·.id == id)

def getActivePeriodClose : Option PeriodCloseRow :=
  (s.periodCloses.insertionSort fun a b => b.createdAt < a.createdAt ∨ b.createdAt =
    a.createdAt ∧ b.id ≤ a.id).head?

end Store

structure Journal where
  uid : GoString
  journalTypeUID : GoString
  idempotencyKey : GoString
  totalDebit : Decimal
  totalCredit : Decimal
  metadata : Metadata
  actorID : Int
  source : GoString
  reversalOfUID : GoString
  eventUID : GoString
  effectiveAt : Int
  createdAt : Int
  authDigest : GoString
  authSignature : GoString
  authKeyID : GoString
  authStatus : AuthStatus
deriving DecidableEq

variable (s : Store)

def reversalOfUID (row : JournalRow) : Result GoString :=
  match row.reversalOf with
  | none => .ok []
  | some id => do
    let original ← orError (s.getJournalByID id) ⟨.other, "postgres: resolve reversal_of uid"⟩
    return pgToUID original.uid

def eventUID (row : JournalRow) : Result GoString :=
  match row.eventID with
  | none => .ok []
  | some id => do
    let event ← orError (s.getEvent id) ⟨.other, "postgres: resolve event uid"⟩
    return pgToUID event.uid

def journalFromRow (row : JournalRow) : Result Journal := do
  let jt ← s.jtByIDOrErr row.journalTypeID
  let reversalOfUID ← reversalOfUID s row
  let eventUID ← eventUID s row
  return {
    uid := pgToUID row.uid
    journalTypeUID := pgToUID jt.uid
    idempotencyKey := row.idempotencyKey
    totalDebit := numericToDecimal row.totalDebit
    totalCredit := numericToDecimal row.totalCredit
    metadata := row.metadata
    actorID := row.actorID
    source := row.source
    reversalOfUID := reversalOfUID
    eventUID := eventUID
    effectiveAt := row.effectiveAt
    createdAt := row.createdAt
    authDigest := row.authDigest
    authSignature := row.authSignature
    authKeyID := row.authKeyID
    authStatus := row.authStatus }

/-- What a comparison of entries looks at. The amount is compared in its printed form. -/
structure EntryFingerprint where
  holder : Int
  currencyID : Nat
  classificationID : Nat
  entryType : EntryType
  amount : Decimal
deriving DecidableEq

def EntryRow.fingerprint (row : EntryRow) : EntryFingerprint :=
  ⟨row.dim.holder, row.dim.currency, row.dim.classification, row.entryType.entryType,
    (numericToDecimal row.amount).reduced⟩

def inputFingerprint (entry : EntryInput) : Result EntryFingerprint := do
  let cur ← s.currencyByUIDOrErr entry.currencyUID
  let cls ← s.classByUIDOrErr entry.classificationUID
  return ⟨entry.accountHolder, cur.id, cls.id, entry.entryType, entry.amount.reduced⟩

/-- Both lists are sorted by every field of the fingerprint and compared place by place, which is
equality up to order. -/
def sameJournalEntries (rows : List EntryRow) (input : List EntryInput) : Result Bool := do
  if rows.length ≠ input.length then return false
  let right ← collect (inputFingerprint s) input
  return decide ((rows.map EntryRow.fingerprint).Perm right)

def ensureJournalMatchesInput (existing : JournalRow) (input : JournalInput) : Result Journal := do
  let existingCore ← journalFromRow s existing
  require (existingCore.journalTypeUID = input.journalTypeUID ∧ existing.actorID = input.actorID ∧
      existing.source = input.source ∧ existingCore.eventUID = input.eventUID ∧
      existingCore.reversalOfUID = input.reversalOfUID ∧
      (input.effectiveAt = 0 ∨ existing.effectiveAt = toMicros input.effectiveAt) ∧
      (numericToDecimal existing.totalDebit).equal (totalOf .debit input.entries) = true ∧
      (numericToDecimal existing.totalCredit).equal (totalOf .credit input.entries) = true ∧
      encodeObject existingCore.metadata = encodeObject input.metadata)
    ⟨.conflict, "postgres: post journal: idempotency key %q payload mismatch"⟩
  let same ← sameJournalEntries s (s.listJournalEntries existing.id) input.entries
  require same ⟨.conflict, "postgres: post journal: idempotency key %q entries mismatch"⟩
  return existingCore

end Ledger.Postgres
