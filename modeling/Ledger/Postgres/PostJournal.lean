import Ledger.Core.Auth
import Ledger.Postgres.ReversalHistory

namespace Ledger.Postgres

open Core Shared

structure Config where
  decodeQuotes : GoString → Result Unit
  hash : DigestPayload → GoString

structure Env where
  now : Instant
  uid : Uuid

structure JournalAuth where
  digest : GoString
  signature : GoString
  keyID : GoString
  status : AuthStatus
  replay : Bool
deriving DecidableEq

def JournalAuth.unsigned (status : AuthStatus) : JournalAuth := ⟨[], [], [], status, false⟩

def resolveEffectiveAt (now t : Instant) : Instant := if t = 0 then now else t

variable (s : Store)

def eventPair (event : EventRow) : Result Pair :=
  if event.bookingID = 0 then .ok ⟨event.accountHolder, event.currencyID⟩
  else do
    let booking ← orError (s.getBooking event.bookingID)
      ⟨.notFound, "postgres: post journal: booking %d from event %q"⟩
    return ⟨booking.accountHolder, booking.currencyID⟩

def checkEventLink (eventUID : GoString) (resolved : List ResolvedEntry) :
    Result (Option EventRow) :=
  if eventUID = [] then .ok none
  else do
    let pgUID ← orError (Uuid.parse eventUID) ⟨.notFound, "postgres: post journal: event %q"⟩
    let event ← orError (s.getEventByUID pgUID) ⟨.notFound, "postgres: post journal: event %q"⟩
    require event.journalID.isNone
      ⟨.conflict, "postgres: post journal: event %q is already linked to a journal"⟩
    let link ← eventPair s event
    require (link.holder ≠ 0 ∧ link.currency ≠ 0)
      ⟨.invalidInput, "postgres: post journal: event %q has no account dimension to link against"⟩
    require (link ∈ balancePairsFromEntries resolved)
      ⟨.invalidInput, "postgres: post journal: event %q belongs to (holder %d, currency %d), which none of this journal's entries touch"⟩
    return some event

def checkReversalOf (reversalOfUID : GoString) (resolved : List ResolvedEntry) :
    Result (Option JournalRow) :=
  if reversalOfUID = [] then .ok none
  else do
    let pgUID ← orError (Uuid.parse reversalOfUID) ⟨.notFound, "postgres: post journal: reversal_of %q"⟩
    let orig ← orError (s.getJournalByUID pgUID) ⟨.notFound, "postgres: post journal: reversal_of %q"⟩
    validateReversalOfInput s orig resolved
    return some orig

def checkPeriodClose (effectiveAt : Instant) : Result Unit :=
  match s.getActivePeriodClose with
  | none => .ok ()
  | some line => require (line.closeBefore * 1000 ≤ effectiveAt)
      ⟨.periodClosed, "postgres: post journal: effective_at %s is before the period close line %s"⟩

structure Gated where
  resolved : List ResolvedEntry
  jt : JournalTypeRow
  event : Option EventRow
  reversalOf : Option JournalRow

def gates (input : JournalInput) (effectiveAt : Instant) (auth : JournalAuth) : Result Gated := do
  let resolved ← within "postgres: post journal" (resolveEntries s input.entries)
  let jt ← within "postgres: post journal" (s.jtByUIDOrErr input.journalTypeUID)
  let event ← checkEventLink s input.eventUID resolved
  validateEntriesPrecision s resolved
  within "postgres: post journal" (assertDimsActive s jt.id resolved)
  let reversalOf ← checkReversalOf s input.reversalOfUID resolved
  checkPeriodClose s effectiveAt
  enforceAccountPolicies s resolved
  require (auth.status ≠ .empty)
    ⟨.invalidInput, "postgres: post journal: internal: journalAuth.status is empty -- every caller of postJournalWithQueries must set it"⟩
  require (!auth.replay)
    ⟨.conflict, "postgres: post journal: internal: idempotency key %q was reported as an already-posted replay but the locked recheck did not find that journal; refusing to insert an unsigned row in its place"⟩
  return ⟨resolved, jt, event, reversalOf⟩

def insertJournal (env : Env) (s : Store) (input : JournalInput) (effectiveAt : Instant)
    (auth : JournalAuth) (g : Gated) :
    Result JournalRow := within "postgres: post journal: insert journal" do
  let totalDebit ← numericColumn input.totals.1
  let totalCredit ← numericColumn input.totals.2
  textParam input.idempotencyKey
  textParam input.source
  textParam auth.keyID
  require (jsonbFits input.metadata) ⟨.other, "unsupported Unicode escape sequence"⟩
  require (timestampFits (toMicros effectiveAt)) ⟨.other, "timestamp out of range"⟩
  require (totalDebit = totalCredit ∧ 0 < totalDebit)
    ⟨.invalidInput, "check constraint %q violated"⟩
  require ((s.getJournalByUID env.uid).isNone) ⟨.conflict, "unique constraint %q violated"⟩
  return {
    id := s.nextJournalID
    uid := env.uid
    journalTypeID := g.jt.id
    idempotencyKey := input.idempotencyKey
    totalDebit := totalDebit
    totalCredit := totalCredit
    metadata := readBack input.metadata
    actorID := input.actorID
    source := input.source
    reversalOf := g.reversalOf.map (·.id)
    eventID := g.event.map (·.id)
    effectiveAt := toMicros effectiveAt
    createdAt := toMicros env.now
    authDigest := auth.digest
    authSignature := auth.signature
    authKeyID := auth.keyID
    authStatus := auth.status }

def sideOf : EntryType → Option Side
  | .debit => some .debit
  | .credit => some .credit
  | .unknown _ => none

def insertJournalEntry (row : JournalRow) (id : Nat) (e : ResolvedEntry) : Result EntryRow :=
  within "postgres: post journal: insert entry[%d]" do
    let amount ← numericColumn e.input.amount
    let side ← orError (sideOf e.input.entryType) ⟨.invalidInput, "check constraint %q violated"⟩
    require (0 < amount ∧ e.input.accountHolder ≠ 0) ⟨.invalidInput, "check constraint %q violated"⟩
    return ⟨id, row.id, e.dim, side, amount, row.createdAt, row.effectiveAt⟩

def currencyNet (rows : List EntryRow) (currency : Nat) : Int :=
  ((rows.filter (·.dim.currency == currency)).map fun e => ledgerSignedAmount .debit
    e.entryType e.amount).sum

def verifyJournalBalanced (rows : List EntryRow) : Result Unit :=
  require ((rows.map (·.dim.currency)).all fun currency => currencyNet rows currency == 0)
    ⟨.unbalancedJournal, "postgres: post journal: journal %d unbalanced in currency %d"⟩

def linkJournalToEventAndBooking (event : EventRow) (journalID : Nat) : Result Store := do
  let current ← orError (s.getEvent event.id) ⟨.notFound, "postgres: post journal: event %d"⟩
  require (current.journalID = none ∨ current.journalID = some journalID)
    ⟨.conflict, "postgres: post journal: event %d already linked to journal %d"⟩
  let s := { s with events := s.events.map fun e =>
    if e.id = event.id then { e with journalID := some journalID } else e }
  if current.bookingID = 0 then return s
  else
    let booking ← orError (s.getBooking current.bookingID)
      ⟨.notFound, "postgres: post journal: booking %d from event %d"⟩
    require (booking.journalID = none ∨ booking.journalID = some journalID)
      ⟨.conflict, "postgres: post journal: booking %d already linked to journal %d"⟩
    return { s with bookings := s.bookings.map fun b =>
      if b.id = booking.id then { b with journalID := some journalID } else b }

def appendJournal (now : Int) (row : JournalRow) (rows : List EntryRow) : Store :=
  { s with
    journals := s.journals ++ [row]
    ledger := (firstSeen (rows.map (·.dim))).foldl (fun db dim => db.enqueueRollup now dim)
      { s.ledger with entries := s.ledger.entries ++ rows }
    nextJournalID := s.nextJournalID + 1
    nextEntryID := s.nextEntryID + rows.length }

def insertEntries (row : JournalRow) (resolved : List ResolvedEntry) : Result (List EntryRow) :=
  collect (fun e => insertJournalEntry row (s.nextEntryID + e.2) e.1) resolved.zipIdx

def writeJournal (env : Env) (s : Store) (input : JournalInput) (effectiveAt : Instant)
    (auth : JournalAuth) (g : Gated) :
    Result (Store × JournalRow) := do
  let row ← insertJournal env s input effectiveAt auth g
  let rows ← insertEntries s row g.resolved
  let posted := appendJournal s row.createdAt row rows
  verifyJournalBalanced rows
  match g.event with
  | none => return (posted, row)
  | some event => do
    let linked ← linkJournalToEventAndBooking posted event row.id
    return (linked, row)

def postJournalWithQueries (cfg : Config) (env : Env) (s : Store) (input : JournalInput)
    (effectiveAt : Instant)
    (auth : JournalAuth) : Result (Store × Journal) := do
  within "postgres: post journal" (input.validate cfg.decodeQuotes env.now)
  match ← within "postgres: post journal: check idempotency"
    (s.getJournalByIdempotencyKey input.idempotencyKey) with
  | some existing => do
    let journal ← ensureJournalMatchesInput s existing input
    return (s, journal)
  | none => do
    let g ← gates s input effectiveAt auth
    let (posted, row) ← writeJournal env s input effectiveAt auth g
    let journal ← journalFromRow posted row
    return (posted, journal)

/-- `attestJournal` on a pool store. A key that is already posted is not signed again. -/
def attestJournal (cfg : Config) (attestor : Option Attestor) (s : Store) (input : JournalInput)
    (effectiveAt : Instant) :
    Result JournalAuth :=
  match attestor with
  | none => .ok (.unsigned .unsignedNoAttestor)
  | some sign => do
    match ← within "postgres: post journal: check idempotency before signing"
        (s.getJournalByIdempotencyKey input.idempotencyKey) with
    | some existing => return ⟨[], [], [], existing.authStatus, true⟩
    | none => do
      let digest ← within "postgres: post journal: canonical digest" (canonicalJournalDigest cfg.hash input effectiveAt)
      match sign digest with
      | .ok (signature, keyID) => return ⟨digest, signature, keyID, .signed, false⟩
      | .error _ => .error ⟨.attestorUnavailable, "postgres: post journal: attestor sign"⟩

def postJournal (cfg : Config) (mode : Mode) (env : Env) (s : Store) (input : JournalInput) :
    Result (Store × Journal) := do
  within "postgres: post journal" (input.validate cfg.decodeQuotes env.now)
  let effectiveAt := resolveEffectiveAt env.now input.effectiveAt
  match mode with
  | .tx => postJournalWithQueries cfg env s input effectiveAt (.unsigned .unsignedTxMode)
  | .pool attestor => do
    let auth ← attestJournal cfg attestor s input effectiveAt
    postJournalWithQueries cfg env s input effectiveAt auth

namespace Sample

/-! A store with one currency, one wallet and one custody account, on which closed statements are
evaluated. -/

def uid (n : Nat) : Uuid := ⟨List.replicate 31 0 ++ [Fin.ofNat 16 n], by simp⟩

def config : Config := ⟨fun _ => .ok (), fun _ => []⟩

def store : Store :=
  { ledger :=
      { classifications :=
          [⟨1, uid 1, lit "wallet", .credit, false, true, .available⟩,
            ⟨2, uid 2, lit "custody", .debit, true, true, .none⟩]
        entries := []
        checkpoints := fun _ => none
        queue := []
        nextQueueID := 1 }
    currencies := [⟨1, uid 3, lit "USD", 2, true⟩]
    journalTypes := [⟨1, uid 4, lit "deposit", true⟩]
    journals := []
    events := []
    bookings := []
    policies := []
    periodCloses := []
    nextJournalID := 1
    nextEntryID := 1 }

def deposit : JournalInput :=
  { journalTypeUID := (uid 4).print
    idempotencyKey := lit "deposit"
    entries := [⟨7, (uid 3).print, (uid 1).print, .credit, ⟨10, 0⟩⟩,
      ⟨-7, (uid 3).print, (uid 2).print, .debit, ⟨10, 0⟩⟩]
    metadata := .empty
    actorID := 1
    source := lit "api"
    reversalOfUID := []
    eventUID := []
    effectiveAt := 0 }

def env (uidOf : Nat) : Env := ⟨1000000 * (uidOf + 1), uid uidOf⟩

def deposited : Store := okOr store ((postJournal config .tx (env 5) store deposit).map Prod.fst)

end Sample

end Ledger.Postgres
