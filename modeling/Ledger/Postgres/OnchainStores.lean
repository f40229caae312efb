import Ledger.Core.Onchain
import Ledger.Core.Template
import Ledger.Postgres.Bookings
import Ledger.Postgres.Pending

namespace Ledger.Postgres

open Core Shared

structure BookingFilter where
  accountHolder : Int
  classificationUID : GoString
  status : Status
  -- The id after which the page starts.
  cursor : Nat
  limit : Nat
deriving DecidableEq

namespace BookingTables

variable (s : BookingTables)

def getBooking (uid : GoString) : Result Booking := do
  let pgUID ← uidToPG uid
  let row ← orError (s.getBookingByUID pgUID) ⟨.notFound, "postgres: get booking %q"⟩
  bookingFromRow s row

def pageOf (classificationID : Nat) (filter : BookingFilter) : List BookingRow :=
  ((s.store.bookings.filter fun row =>
    (filter.accountHolder == 0 || row.accountHolder == filter.accountHolder) &&
    (classificationID == 0 || row.classificationID == classificationID) &&
    (filter.status == [] || row.status == filter.status) && decide
      (filter.cursor < row.id)).insertionSort
      fun a b => a.id ≤ b.id).take filter.limit

def listBookings (filter : BookingFilter) : Result (List Booking × Option Nat) := do
  let classificationID ←
    if filter.classificationUID = [] then pure 0
      else (s.store.classByUIDOrErr filter.classificationUID).map (·.id)
  textParam filter.status
  let rows := s.pageOf classificationID filter
  let bookings ← collect (bookingFromRow s) rows
  return (bookings, if 0 < filter.limit ∧
    rows.length = filter.limit then rows.getLast?.map (·.id) else none)

def bookingsForDepositIdentity (chainID : Int) (txHash : GoString) (txLogSeq : Int) :
    Result (List Booking) := do
  textParam txHash
  collect (bookingFromRow s) ((s.store.bookings.filter fun row =>
    depositIdentity row.metadata == some (intText chainID, txHash, intText txLogSeq)).insertionSort
      fun a b => a.id ≤ b.id)

end BookingTables

def renderTemplate (cfg : Config) (now : Instant) (templates : List EntryTemplate) (code : GoString)
    (params : TemplateParams) :
    Result JournalInput := do
  let template ← orError (templates.find? (·.code == code))
    ⟨.notFound, "postgres: execute template: template %q"⟩
  within "postgres: execute template: render" (template.render cfg.decodeQuotes now params)

def transitionAndPost (cfg : Config) (forEvent forJournal : Env) (s : BookingTables)
    (input : TransitionInput)
    (authorized : AuthorizedJournal) : Result BookingTables := do
  let (moved, evt) ← transition forEvent s input
  let (posted, _) ← postAuthorized cfg forJournal moved.store
    { authorized with input := { authorized.input with eventUID := evt.uid } }
  return { moved with store := posted }

structure DepositAddressRow where
  uid : Uuid
  accountHolder : Int
  address : GoString
  factory : GoString
  initHash : GoString
deriving DecidableEq

def depositAddressFromRow (row : DepositAddressRow) : DepositAddress :=
  ⟨pgToUID row.uid, row.accountHolder, row.address, row.factory, row.initHash⟩

def ensureAddress (k : Keccak) (uid : Uuid) (rows : List DepositAddressRow)
    (input : AddressRegistrationInput) :
    Result (List DepositAddressRow × DepositAddress) := do
  within "postgres: ensure deposit address" input.validate
  let address ← within "postgres: ensure deposit address" (checksumAddress k input.address)
  textParam input.factory
  textParam input.initHash
  match rows.find? (·.accountHolder == input.accountHolder) with
  | some row => return (rows, depositAddressFromRow row)
  | none => do
    require (rows.all fun row => row.uid != uid && row.address != address)
      ⟨.conflict, "postgres: ensure deposit address"⟩
    let row : DepositAddressRow := ⟨uid, input.accountHolder, address, input.factory, input.initHash⟩
    return (rows ++ [row], depositAddressFromRow row)

def getByAddress (k : Keccak) (rows : List DepositAddressRow) (address : GoString) :
    Result DepositAddress := do
  let addr ← within "postgres: get deposit address %q" (checksumAddress k address)
  let row ← orError (rows.find? (·.address == addr)) ⟨.notFound, "postgres: get deposit address %q"⟩
  return depositAddressFromRow row

structure DeadLetterRow where
  uid : Uuid
  idempotencyKey : GoString
  reason : String
  payload : DepositSighting
deriving DecidableEq

def payloadFits (s : DepositSighting) : Bool :=
  !(s.txHash.contains 0 || s.token.contains 0 || s.from_.contains 0 || s.to_.contains 0)

def recordDeadLetter (uid : Uuid) (rows : List DeadLetterRow) (sighting : DepositSighting)
    (key : GoString) (reason : String) :
    Result (List DeadLetterRow) := within "postgres: record dead letter" do
  textParam sighting.txHash
  textParam key
  require (payloadFits sighting) ⟨.other, "unsupported Unicode escape sequence"⟩
  if rows.any (·.idempotencyKey == key) then return rows
  else do
    require (rows.all (·.uid != uid)) ⟨.conflict, "unique constraint %q violated"⟩
    return rows ++ [⟨uid, key, reason, sighting⟩]

def getDeadLetter (rows : List DeadLetterRow) (uid : GoString) : Result IngestDeadLetter := do
  let pgUID ← uidToPG uid
  let row ← orError (rows.find? (·.uid == pgUID)) ⟨.notFound, "postgres: get dead letter %s"⟩
  return ⟨pgToUID row.uid, row.idempotencyKey, row.reason, row.payload⟩

def setChainCursor (cursors : Int → Option Int) (chainID block : Int) : Int → Option Int :=
  match cursors chainID with
  | none => Function.update cursors chainID (some block)
  | some last => if last < block then Function.update cursors chainID (some block) else cursors

inductive RescanStatus where
  | pending | running | completed
deriving DecidableEq

structure RescanRow where
  id : Nat
  uid : Uuid
  chainID : Int
  address : GoString
  nextBlock : Int
  status : RescanStatus
  attempts : Int
  availableAt : Int
  claimedUntil : Option Int
deriving DecidableEq

structure RescanTable where
  rows : List RescanRow
  nextID : Nat
deriving DecidableEq

namespace RescanTable

def insert (now : Int) (uid : Uuid) (t : RescanTable) (job : RegistrationRescan) :
    Result RescanTable := do
  require (0 < job.chainID ∧ job.address ≠ [] ∧ 0 ≤ job.nextBlock)
    ⟨.invalidInput, "postgres: enqueue registration rescans: invalid job"⟩
  if t.rows.any fun row => row.chainID == job.chainID && row.address == job.address then return t
  else do
    require (t.rows.all (·.uid != uid)) ⟨.conflict, "postgres: enqueue registration rescans"⟩
    return ⟨t.rows ++ [⟨t.nextID, uid, job.chainID, job.address, job.nextBlock, .pending, 0, now,
      none⟩], t.nextID + 1⟩

def enqueue (now : Int) : List Uuid → RescanTable → List RegistrationRescan → Result RescanTable
  | _, t, [] => .ok t
  | [], _, _ :: _ => .error ⟨.other, "postgres: enqueue registration rescans"⟩
  | uid :: uids, t, job :: jobs => do
    let t ← t.insert now uid job
    enqueue now uids t jobs

def claimable (now : Int) (row : RescanRow) : Bool :=
  row.status != .completed && decide (row.availableAt ≤ now) &&
    (row.status == .pending || row.claimedUntil.any (· < now))

def candidates (now : Int) (limit : Nat) (locked : List Nat) (t : RescanTable) : List Nat :=
  (((t.rows.filter fun row => claimable now row && !locked.contains row.id).insertionSort fun a b =>
    a.availableAt < b.availableAt ∨ a.availableAt = b.availableAt ∧ a.id ≤ b.id).take limit).map (·.id)

def claimRow (now lease : Int) (row : RescanRow) : RescanRow :=
  { row with status := .running, claimedUntil := some (now + lease), attempts := row.attempts + 1 }

def jobOf (row : RescanRow) : RegistrationRescan :=
  ⟨pgToUID row.uid, row.chainID, row.address, row.nextBlock, row.attempts⟩

def claim (now : Int) (limit : Nat) (lease : Int) (locked : List Nat) (t : RescanTable) :
    Result (RescanTable × List RegistrationRescan) := do
  require (0 < limit ∧ 0 < lease)
    ⟨.invalidInput, "postgres: claim registration rescans: invalid limit or lease"⟩
  let ids := t.candidates now limit locked
  let rows := t.rows.map fun row => if row.id ∈ ids then claimRow now lease row else row
  return (⟨rows, t.nextID⟩, (rows.filter (·.id ∈ ids)).map jobOf)

def holds (uid : GoString) (expectedAttempts : Int) (row : RescanRow) : Bool :=
  pgToUID row.uid == uid && row.attempts == expectedAttempts

def updateHeld (t : RescanTable) (uid : GoString) (expectedAttempts : Int)
    (f : RescanRow → RescanRow) (missing : Error) :
    Result RescanTable := do
  require (t.rows.any (holds uid expectedAttempts)) missing
  return ⟨t.rows.map fun row => if holds uid expectedAttempts row then f row else row, t.nextID⟩

def advance (now : Int) (t : RescanTable) (uid : GoString) (nextBlock : Int) (completed : Bool)
    (expectedAttempts : Int) :
    Result RescanTable := do
  require (0 ≤ nextBlock) ⟨.other, "postgres: advance registration rescan"⟩
  t.updateHeld uid expectedAttempts
    (fun row => { row with
      nextBlock := nextBlock, status := if completed then .completed else .pending,
      availableAt := now, claimedUntil := none })
    ⟨.other, "postgres: advance registration rescan"⟩

def retry (t : RescanTable) (uid : GoString) (retryAt : Int) (expectedAttempts : Int) :
    Result RescanTable :=
  t.updateHeld uid expectedAttempts
    (fun row => { row with status := .pending, availableAt := retryAt, claimedUntil := none })
    ⟨.other, "postgres: retry registration rescan"⟩

end RescanTable

end Ledger.Postgres
