import Ledger.Core.Booking
import Ledger.Postgres.PostJournal

namespace Ledger.Postgres

open Core Shared

structure TransitionReceiptRow where
  bookingID : Nat
  idempotencyKey : GoString
  toStatus : Status
  channelRef : GoString
  amount : Int
  eventID : Nat
deriving DecidableEq

structure BookingTables where
  store : Store
  -- `classifications.lifecycle`, where it is not the empty object.
  lifecycles : List (Nat × Lifecycle)
  reservationUIDs : List (Nat × Uuid)
  receipts : List TransitionReceiptRow
  nextBookingID : Nat
  nextEventID : Nat

namespace BookingTables

variable (s : BookingTables)

def lifecycle (classificationID : Nat) : Option Lifecycle :=
  (s.lifecycles.find? (·.1 == classificationID)).map Prod.snd

def getBookingByUID (uid : Uuid) : Option BookingRow := s.store.bookings.find? (·.uid == uid)

def getBookingByIdempotencyKey (key : GoString) : Result (Option BookingRow) := do
  textParam key
  return s.store.bookings.find? (·.idempotencyKey == key)

def getReceipt (key : GoString) : Result (Option TransitionReceiptRow) := do
  textParam key
  return s.receipts.find? (·.idempotencyKey == key)

def getLatestEventForBooking (bookingID : Nat) : Option EventRow :=
  ((s.store.events.filter (·.bookingID == bookingID)).insertionSort fun a b => b.id ≤ a.id).head?

end BookingTables

def journalUIDOf (s : Store) : Option Nat → Result GoString
  | none => .ok []
  | some id => do
    let j ← orError (s.getJournalByID id) ⟨.other, "postgres: resolve booking journal uid"⟩
    return pgToUID j.uid

variable (s : BookingTables)

def reservationUIDOf : Option Nat → Result GoString
  | none => .ok []
  | some id => do
    let r ← orError (s.reservationUIDs.find? (·.1 == id))
      ⟨.other, "postgres: resolve booking reservation uid"⟩
    return pgToUID r.2

def bookingFromRow (row : BookingRow) : Result Booking := do
  let cls ← s.store.classByIDOrErr row.classificationID
  let cur ← s.store.currencyByIDOrErr row.currencyID
  let reservationUID ← reservationUIDOf s row.reservationID
  let journalUID ← journalUIDOf s.store row.journalID
  return {
    uid := pgToUID row.uid
    classificationUID := pgToUID cls.uid
    accountHolder := row.accountHolder
    currencyUID := pgToUID cur.uid
    amount := numericToDecimal row.amount
    settledAmount := numericToDecimal row.settledAmount
    status := row.status
    channelName := row.channelName
    channelRef := row.channelRef
    reservationUID := reservationUID
    journalUID := journalUID
    idempotencyKey := row.idempotencyKey
    metadata := row.metadata
    expiresAt := row.expiresAt
    createdAt := row.createdAt }

def bookingUIDOf (s : Store) (bookingID : Nat) : Result GoString :=
  if bookingID = 0 then .ok []
  else do
    let b ← orError (s.getBooking bookingID) ⟨.other, "postgres: resolve event booking uid"⟩
    return pgToUID b.uid

def eventFromRow (s : Store) (row : EventRow) : Result Event := do
  let cur ← s.currencyByIDOrErr row.currencyID
  let bookingUID ← bookingUIDOf s row.bookingID
  let journalUID ← journalUIDOf s row.journalID
  return {
    uid := pgToUID row.uid
    bookingUID := bookingUID
    currencyUID := pgToUID cur.uid
    journalUID := journalUID
    classificationCode := row.classificationCode
    accountHolder := row.accountHolder
    fromStatus := row.fromStatus
    toStatus := row.toStatus
    amount := numericToDecimal row.amount
    settledAmount := numericToDecimal row.settledAmount
    metadata := row.metadata
    actorID := row.actorID
    source := row.source }

def depositIdentity (m : Metadata) : Option (GoString × GoString × GoString) := do
  let chain ← m.get (lit "chain_id")
  let tx ← m.get (lit "tx_hash")
  let seq ← m.get (lit "txlog_seq")
  return (chain, tx, seq)

def bookingUnique (row : BookingRow) : Bool :=
  (s.store.bookings.filter (·.id != row.id)).all fun other =>
    (row.channelRef == [] || !(other.channelName == row.channelName && other.channelRef
      == row.channelRef)) &&
      (depositIdentity row.metadata == none || depositIdentity other.metadata != depositIdentity row.metadata)

def bookingMetadataObservationVariantKeys : List GoString :=
  [lit "block_number", lit "review_reason", lit "reject_reason",
    lit "approved_by", lit "rejected_by"]

def stripVariant (m : Metadata) : Metadata := bookingMetadataObservationVariantKeys.foldl
    (fun m k => m.erase k) m

def bookingMetadataMatches (existing input : Metadata) :
    Bool := stripVariant existing = stripVariant input

def ensureBookingMatchesInput (existing : BookingRow) (input : CreateBookingInput) :
    Result Booking := do
  let cls ← orError (s.store.ledger.getClassification existing.classificationID)
    ⟨.other, "postgres: create booking: load existing classification"⟩
  let cur ← within "postgres: create booking" (s.store.currencyByUIDOrErr input.currencyUID)
  require (cls.code = input.classificationCode ∧ existing.accountHolder = input.accountHolder ∧
      existing.currencyID = cur.id ∧ existing.channelName = input.channelName ∧
      (numericToDecimal existing.amount).equal input.amount ∧ existing.expiresAt * 1000 = input.expiresAt ∧
      bookingMetadataMatches existing.metadata input.metadata)
    ⟨.conflict, "postgres: create booking: idempotency key %q payload mismatch"⟩
  bookingFromRow s existing

def insertBooking (env : Env) (s : BookingTables) (cls : ClassificationRow)
    (cur : CurrencyRow) (initial : Status)
    (input : CreateBookingInput) : Result BookingRow := within "postgres: create booking" do
  let amount ← numericColumn input.amount
  textParam initial
  textParam input.channelName
  textParam input.idempotencyKey
  require (jsonbFits input.metadata) ⟨.other, "unsupported Unicode escape sequence"⟩
  require (timestampFits (toMicros input.expiresAt)) ⟨.other, "timestamp out of range"⟩
  require (0 < amount) ⟨.invalidInput, "check constraint %q violated"⟩
  let row : BookingRow :=
    { id := s.nextBookingID, uid := env.uid, classificationID := cls.id,
      accountHolder := input.accountHolder
      currencyID := cur.id, amount := amount, settledAmount := 0, status := initial, channelName := input.channelName
      channelRef := [], reservationID := none, journalID := none, idempotencyKey := input.idempotencyKey
      metadata := readBack input.metadata, expiresAt := toMicros input.expiresAt, createdAt := toMicros env.now }
  require ((s.getBookingByUID env.uid).isNone && bookingUnique s row)
    ⟨.conflict, "unique constraint %q violated"⟩
  return row

def createBooking (env : Env) (s : BookingTables) (input : CreateBookingInput) :
    Result (BookingTables × Booking) := do
  within "postgres: create booking" input.validate
  match ← within "postgres: create booking: check idempotency"
    (s.getBookingByIdempotencyKey input.idempotencyKey) with
  | some existing => do
    let booking ← ensureBookingMatchesInput s existing input
    return (s, booking)
  | none => do
    let cls ← orError (s.store.ledger.classifications.find? (·.code == input.classificationCode))
      ⟨.notFound, "postgres: create booking: classification %q"⟩
    let lifecycle ← orError (s.lifecycle cls.id)
      ⟨.noLifecycle, "postgres: create booking: classification %q has no lifecycle"⟩
    within "postgres: create booking: invalid lifecycle" lifecycle.validate
    let cur ← within "postgres: create booking" (s.store.currencyByUIDOrErr input.currencyUID)
    within "postgres: create booking" (checkAmountPrecision input.amount cur)
    let row ← insertBooking env s cls cur lifecycle.initial input
    let s' := { s with
      store := { s.store with bookings := s.store.bookings ++ [row] }
      nextBookingID := s.nextBookingID + 1 }
    let booking ← bookingFromRow s' row
    return (s', booking)

def ensureBookingTransitionReceiptMatches (receipt : TransitionReceiptRow) (bookingID : Nat)
    (input : TransitionInput) :
    Result Event := do
  require (receipt.bookingID = bookingID)
    ⟨.conflict, "postgres: transition: idempotency key %q already used for a different booking"⟩
  require (receipt.toStatus = input.toStatus)
    ⟨.conflict, "postgres: transition: idempotency key %q already used for a different to_status (%s)"⟩
  require (input.channelRef = [] ∨ receipt.channelRef = input.channelRef)
    ⟨.conflict, "postgres: transition: idempotency key %q payload mismatch on channel_ref"⟩
  require (input.amount.isZero ∨ (numericToDecimal receipt.amount).equal input.amount)
    ⟨.conflict, "postgres: transition: idempotency key %q payload mismatch on amount (recorded %s, got %s)"⟩
  let event ← orError (s.store.getEvent receipt.eventID)
    ⟨.other, "postgres: transition: load original event"⟩
  eventFromRow s.store event

def idempotentTransitionEvent (current : Booking) (latest : Event) (input : TransitionInput) :
    Result (Option Event) :=
  if current.status ≠ input.toStatus ∨ latest.toStatus ≠ input.toStatus then .ok none
  else do
    require (input.channelRef = [] ∨ input.channelRef = current.channelRef)
      ⟨.conflict, "postgres: transition: channel_ref mismatch on repeated callback"⟩
    require (input.amount.isZero ∨ input.amount.equal current.settledAmount)
      ⟨.conflict, "postgres: transition: settled_amount mismatch on repeated callback"⟩
    return some latest

def repeatedCallback (op : BookingRow) (input : TransitionInput) : Result (Option Event) :=
  if op.status ≠ input.toStatus then .ok none
  else
    match s.getLatestEventForBooking op.id with
    | none => .ok none
    | some latest => do
      let current ← bookingFromRow s op
      let latestCore ← eventFromRow s.store latest
      idempotentTransitionEvent current latestCore input

def updateBookingTransition (op : BookingRow) (input : TransitionInput) : Result BookingRow :=
  within "postgres: transition: update" do
    let metadata := op.metadata.copy input.metadata
    let channelRef := if input.channelRef = [] then op.channelRef else input.channelRef
    let settled ← numericColumn (if input.amount.isZero then numericToDecimal op.settledAmount
      else input.amount)
    textParam input.toStatus
    textParam channelRef
    require (jsonbFits metadata) ⟨.other, "unsupported Unicode escape sequence"⟩
    require (op.settledAmount ≤ settled ∧ 0 ≤ settled) ⟨.invalidInput, "check constraint %q violated"⟩
    let row := { op with status := input.toStatus, channelRef := channelRef, settledAmount := settled,
                         metadata := readBack metadata }
    require (bookingUnique s row) ⟨.conflict, "unique constraint %q violated"⟩
    return row

def insertEvent (env : Env) (s : BookingTables) (cls : ClassificationRow) (op updated : BookingRow)
    (input : TransitionInput) :
    Result EventRow := within "postgres: transition: insert event" do
  textParam input.source
  require (s.store.events.all (·.uid != env.uid)) ⟨.conflict, "unique constraint %q violated"⟩
  return {
    id := s.nextEventID
    uid := env.uid
    classificationCode := cls.code
    bookingID := op.id
    accountHolder := op.accountHolder
    currencyID := op.currencyID
    fromStatus := op.status
    toStatus := input.toStatus
    amount := op.amount
    settledAmount := updated.settledAmount
    journalID := none
    metadata := updated.metadata
    actorID := input.actorID
    source := input.source }

def setBooking (row : BookingRow) : BookingTables :=
  { s with store := { s.store with bookings := s.store.bookings.map fun b =>
    if b.id = row.id then row else b } }

def applyTransition (env : Env) (s : BookingTables) (cls : ClassificationRow) (op : BookingRow)
    (input : TransitionInput) :
    Result (BookingTables × Event) := do
  let updated ← updateBookingTransition s op input
  let event ← insertEvent env s cls op updated input
  let amount ← within "postgres: transition: record receipt" (numericColumn input.amount)
  let moved := setBooking s updated
  let s' := { moved with
    store := { moved.store with events := s.store.events ++ [event] }
    receipts := s.receipts ++
      [⟨op.id, input.idempotencyKey, input.toStatus, input.channelRef, amount, event.id⟩]
    nextEventID := s.nextEventID + 1 }
  let evt ← eventFromRow s'.store event
  return (s', evt)

/-- Zero means that the transition carries no amount. -/
def checkSettledPrecision (op : BookingRow) (input : TransitionInput) : Result Unit :=
  if input.amount.isZero then .ok ()
  else within "postgres: transition" do
    let cur ← s.store.currencyByIDOrErr op.currencyID
    checkAmountPrecision input.amount cur

def transition (env : Env) (s : BookingTables) (input : TransitionInput) :
    Result (BookingTables × Event) := do
  within "postgres: transition" input.validate
  let pgUID ← uidToPG input.bookingUID
  let op ← orError (s.getBookingByUID pgUID) ⟨.notFound, "postgres: transition: booking %q"⟩
  match ← within "postgres: transition: check idempotency" (s.getReceipt input.idempotencyKey) with
  | some receipt => do
    let evt ← ensureBookingTransitionReceiptMatches s receipt op.id input
    return (s, evt)
  | none => do
    let cls ← orError (s.store.ledger.getClassification op.classificationID)
      ⟨.notFound, "postgres: transition: classification %d"⟩
    let lifecycle := (s.lifecycle cls.id).getD .zero
    within "postgres: transition: invalid lifecycle" lifecycle.validate
    checkSettledPrecision s op input
    match ← repeatedCallback s op input with
    | some evt => return (s, evt)
    | none => do
      require (lifecycle.canTransition op.status input.toStatus) ⟨.invalidTransition, "postgres: transition: %s -> %s"⟩
      applyTransition env s cls op input

end Ledger.Postgres
