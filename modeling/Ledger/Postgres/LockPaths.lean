import Ledger.Core.Template
import Ledger.Postgres.Bookings
import Ledger.Postgres.Pending
import Ledger.Postgres.Reserve
import Ledger.Shared.Locking

namespace Ledger.Postgres

open Core Shared

/-- The advisory locks `idem:` and `bal:` and the row locks of `FOR UPDATE`. -/
inductive Lock where
  | key (idempotencyKey : GoString)
  | booking (id : Nat)
  | journal (id : Nat)
  | balance (pair : Pair)
deriving DecidableEq

structure View where
  bookings : BookingTables
  reserver : ReserverTables

def View.store (v : View) : Store := v.bookings.store

abbrev LockPath := Locking View Lock

structure CallEnv where
  cfg : Config
  env : Env

def replayJournal (input : JournalInput) (existing : JournalRow) (next : LockPath) : LockPath :=
  .check (fun v => ensureJournalMatchesInput v.store existing input) fun _ => next

/-- The event a journal is linked to. Its booking's row is locked before the balances are. -/
def lockEvent (eventUID : GoString) (resolved : List ResolvedEntry) (next : LockPath) : LockPath :=
  if eventUID = [] then next
  else
    .check (fun v => do
      let pgUID ← orError (Uuid.parse eventUID) (⟨.notFound, "postgres: post journal: event %q"⟩ : Error)
      let event ← orError (v.store.getEventByUID pgUID) ⟨.notFound, "postgres: post journal: event %q"⟩
      require event.journalID.isNone ⟨.conflict, "postgres: post journal: event %q is already linked to a journal"⟩
      return event) fun event =>
    if event.bookingID = 0 then .check (fun v => checkEventLink v.store eventUID resolved) fun _ => next
    else
      .check (fun v => orError (v.store.getBooking event.bookingID)
        (⟨.notFound, "postgres: post journal: booking %d from event %q"⟩ : Error)) fun _ =>
      .acquire (.booking event.bookingID) <|
      .check (fun v => checkEventLink v.store eventUID resolved) fun _ => next

def lockReversed (reversalOfUID : GoString) (resolved : List ResolvedEntry)
    (next : LockPath) : LockPath :=
  if reversalOfUID = [] then next
  else
    .check (fun v => do
      let pgUID ← orError (Uuid.parse reversalOfUID) (⟨.notFound, "postgres: post journal: reversal_of %q"⟩ : Error)
      orError (v.store.getJournalByUID pgUID) ⟨.notFound, "postgres: post journal: reversal_of %q"⟩) fun orig =>
    .acquire (.journal orig.id) <|
    .check (fun v => validateReversalOfInput v.store orig resolved) fun _ => next

def acquireBalanceLocks (pairs : List Pair) (next : LockPath) :
    LockPath := .acquireAll (pairs.map .balance) next

variable (c : CallEnv)

/-- `postJournalWithQueries`, followed by what its transaction does next. The rows it writes at its
end are locked already. -/
def postJournalLocks (input : JournalInput) (next : LockPath) : LockPath :=
  .check (fun _ => input.validate c.cfg.decodeQuotes c.env.now) fun _ =>
  .check (fun v => v.store.getJournalByIdempotencyKey input.idempotencyKey) fun
  | some existing => replayJournal input existing next
  | none =>
    .acquire (.key input.idempotencyKey) <|
    .check (fun v => v.store.getJournalByIdempotencyKey input.idempotencyKey) fun
    | some existing => replayJournal input existing next
    | none =>
      .check (fun v => resolveEntries v.store input.entries) fun resolved =>
      .check (fun v => v.store.jtByUIDOrErr input.journalTypeUID) fun jt =>
      lockEvent input.eventUID resolved <|
      .check (fun v => validateEntriesPrecision v.store resolved) fun _ =>
      .check (fun v => assertDimsActive v.store jt.id resolved) fun _ =>
      lockReversed input.reversalOfUID resolved <|
      .check (fun v => checkPeriodClose v.store (resolveEffectiveAt c.env.now input.effectiveAt)) fun _ =>
      acquireBalanceLocks (balancePairsFromEntries resolved) <|
      .check (fun v => enforceAccountPolicies v.store resolved) fun _ => next

def batchPairs (inputs : List JournalInput) (next : List Pair → LockPath) : LockPath :=
  match inputs with
  | [] => next []
  | input :: rest =>
    .check (fun v => resolveEntries v.store input.entries) fun resolved =>
    batchPairs rest fun pairs => next (balancePairsFromEntries resolved ++ pairs)

def batchKeys (inputs : List JournalInput) : List GoString :=
  (inputs.map (·.idempotencyKey)).dedup.insertionSort (· ≤ ·)

def preacquireBatchLocks (inputs : List JournalInput) (next : LockPath) : LockPath :=
  .acquireAll ((batchKeys inputs).map .key) <|
  batchPairs inputs fun pairs => acquireBalanceLocks (sortedUniquePairs pairs) next

def postAll (c : CallEnv) : List JournalInput → LockPath
  | [] => .done
  | input :: rest => postJournalLocks c input (postAll c rest)

def executeTemplateBatchLocks (inputs : List JournalInput) :
    LockPath := preacquireBatchLocks inputs (postAll c inputs)

def lockOriginal (journalUID : GoString) (missing : Error)
    (next : JournalRow → LockPath) : LockPath :=
  .check (fun v => do
    let pgUID ← uidToPG journalUID
    orError (v.store.getJournalByUID pgUID) missing) fun original =>
  .acquire (.journal original.id) (next original)

def reverseJournalLocks (journalUID reason : GoString) : LockPath :=
  lockOriginal journalUID ⟨.notFound, "postgres: reverse journal: journal %q"⟩ fun original =>
  .check (fun _ => require original.reversalOf.isNone
    (⟨.conflict, "postgres: reverse journal: journal %q is already a reversal"⟩ : Error)) fun _ =>
  -- A journal with reversals is answered or refused without another lock.
  .check (fun v => require (v.store.listReversalsByOriginalJournalID original.id).isEmpty
    (⟨.conflict, "postgres: reverse journal: journal %q already has %d reversal(s) recorded; use ReverseJournalFraction for further partial reversals"⟩ : Error)) fun _ =>
  .check (fun v => reversalEntriesFor v.store (v.store.listJournalEntries original.id)
    (fun _ => .zero) 1 1) fun entries =>
  .check (fun v => v.store.jtByIDOrErr original.journalTypeID) fun jt =>
  postJournalLocks c (reversalInput jt (reversalKey journalUID reason) entries journalUID
    (reversalMetadata reason)) .done

def reverseJournalFractionLocks (journalUID : GoString) (num den : Int)
    (reason key : GoString) : LockPath :=
  .check (fun _ => validateReversalFraction num den) fun _ =>
  .check (fun _ => require (key ≠ [])
    (⟨.invalidInput, "postgres: reverse journal fraction: idempotency key required"⟩ : Error)) fun _ =>
  lockOriginal journalUID ⟨.notFound, "postgres: reverse journal fraction: journal %q"⟩
    fun original =>
  .check (fun v => v.store.getJournalByIdempotencyKey key) fun
  | some _ => .done
  | none =>
    .check (fun _ => require original.reversalOf.isNone
      (⟨.conflict, "postgres: reverse journal fraction: journal %q is already a reversal"⟩ : Error)) fun _ =>
    .check (fun v => do
      let entries := v.store.listJournalEntries original.id
      require (entries ≠ []) ⟨.notFound, "postgres: reverse journal fraction: journal %d has no entries"⟩
      let alreadyReversed ← cumulativeReversedByDimension v.store original entries
      reversalEntriesFor v.store entries alreadyReversed num den) fun entries =>
    .check (fun v => v.store.jtByIDOrErr original.journalTypeID) fun jt =>
    postJournalLocks c (reversalInput jt key entries journalUID (fractionMetadata reason num den)) .done

def reserveLocks (input : ReserveInput) : LockPath :=
  .check (fun v => admitReserve v.reserver input) fun cur =>
  .check (fun v => v.reserver.getReservationByIdempotencyKey input.idempotencyKey) fun
  | some _ => .done
  | none =>
    .acquire (.key input.idempotencyKey) <|
    .check (fun v => v.reserver.getReservationByIdempotencyKey input.idempotencyKey) fun
    | some _ => .done
    | none => acquireBalanceLocks [⟨input.accountHolder, cur.id⟩] .done

def pendingLocks (errPrefix : String) (i : PendingInput) (pendingClsUID : GoString)
    (input : JournalInput)
    (verifiedPendingBase : Option Decimal) : LockPath :=
  .check (fun v => v.store.currencyByUIDOrErr i.currencyUID) fun cur =>
  .check (fun v => resolveEntries v.store input.entries) fun resolved =>
  .check (fun _ => require
    (decide ((⟨i.accountHolder, cur.id⟩ : Pair) ∈ balancePairsFromEntries resolved))
    (⟨.invalidInput, errPrefix ++
      ": internal: journal entries do not touch (holder %d, currency %s), so the pending-balance check below would read an unlocked balance"⟩ : Error)) fun _ =>
  .acquire (.key input.idempotencyKey) <|
  acquireBalanceLocks (balancePairsFromEntries resolved) <|
  .check (fun v => v.store.getJournalByIdempotencyKey input.idempotencyKey) fun
  | some existing => replayJournal input existing .done
  | none =>
    .check (fun v => checkPendingBalance v.store errPrefix i cur.id pendingClsUID
      verifiedPendingBase) fun _ =>
    postJournalLocks c input .done

def drainLocks (errPrefix : String) (i : PendingInput) (journalType : GoString) (missing : Error)
    (build : PendingClassIDs → JournalTypeRow → JournalInput)
    (verifiedPendingBase : Option Decimal) : LockPath :=
  .check (fun v => resolveClassificationIDs v.store) fun cls =>
  .check (fun v => orError (v.store.getJournalTypeByCode journalType) missing) fun jt =>
  .check (fun v => v.store.getJournalByIdempotencyKey i.idempotencyKey) fun
  | some existing => replayJournal (build cls jt) existing .done
  | none => pendingLocks c errPrefix i cls.pending (build cls jt) verifiedPendingBase

def confirmPendingLocks (i : ConfirmPendingInput)
    (verifiedPendingBase : Option Decimal) : LockPath :=
  .check (fun _ => i.validate) fun _ =>
  drainLocks c "pending: confirm" i.toPendingInput (lit "deposit_confirm_pending")
    ⟨.notFound, "pending: confirm: journal type 'deposit_confirm_pending' not found"⟩
      (buildConfirmPendingJournalInput i)
    verifiedPendingBase

def cancelPendingLocks (i : CancelPendingInput) : LockPath :=
  .check (fun _ => i.validate) fun _ =>
  drainLocks c "pending: cancel" i.toPendingInput (lit "deposit_release_pending")
    ⟨.notFound, "pending: cancel: journal type 'deposit_release_pending' not found"⟩
      (buildCancelPendingJournalInput i) none

def transitionLocks (input : TransitionInput) (next : LockPath) : LockPath :=
  .check (fun _ => input.validate) fun _ =>
  .check (fun v => do
    let pgUID ← uidToPG input.bookingUID
    orError (v.bookings.getBookingByUID pgUID)
      ⟨.notFound, "postgres: transition: booking %q"⟩) fun op =>
  .acquire (.booking op.id) <|
  .check (fun v => transition c.env v.bookings input) fun _ => next

inductive WriteCall where
  | postJournal (input : JournalInput)
  | executeTemplateBatch (inputs : List JournalInput)
  | reverseJournal (journalUID reason : GoString)
  | reverseJournalFraction (journalUID : GoString) (num den : Int) (reason key : GoString)
  | reserve (input : ReserveInput)
  | confirmPending (input : ConfirmPendingInput) (verifiedPendingBase : Option Decimal)
  | cancelPending (input : CancelPendingInput)
  -- `Transition` and then `PostJournal` in the transaction of `RunInTx`.
  | transitionPostJournal (transition : TransitionInput) (input : JournalInput)

def WriteCall.locks : WriteCall → LockPath
  | .postJournal input => postJournalLocks c input .done
  | .executeTemplateBatch inputs => executeTemplateBatchLocks c inputs
  | .reverseJournal journalUID reason => reverseJournalLocks c journalUID reason
  | .reverseJournalFraction journalUID num den reason key =>
    reverseJournalFractionLocks c journalUID num den reason key
  | .reserve input => reserveLocks input
  | .confirmPending input verifiedPendingBase => confirmPendingLocks c input verifiedPendingBase
  | .cancelPending input => cancelPendingLocks c input
  | .transitionPostJournal transition input =>
    transitionLocks c transition (postJournalLocks c input .done)

structure Invocation where
  env : CallEnv
  call : WriteCall
  sees : View → Prop

structure Invocation.Consistent (i : Invocation) : Prop where
  entries : ∀ v v', i.sees v → i.sees v' → ∀ e r r',
    resolveEntry v.store e = .ok r → resolveEntry v'.store e = .ok r' → r = r'
  journals : ∀ v v', i.sees v → i.sees v' → ∀ uid j j',
    v.store.getJournalByUID uid = some j → v'.store.getJournalByUID uid = some j' → j.id = j'.id

def Invocation.takes (i : Invocation) (locks : List Lock) : Prop :=
  (i.call.locks i.env).Takes i.sees locks

def OwnEvent (sees : View → Prop) (transition : TransitionInput) (input : JournalInput) : Prop :=
  ∀ v v', sees v → sees v' → ∀ uid op uid' event, Uuid.parse transition.bookingUID = some uid →
    v.bookings.getBookingByUID uid = some op → Uuid.parse input.eventUID = some uid' →
    v'.store.getEventByUID uid' = some event → event.bookingID = 0 ∨ event.bookingID = op.id

inductive WritePath where
  | postJournal (event reversal : Bool)
  | executeTemplateBatch (event : Bool)
  | reverseJournal
  | reverseJournalFraction
  | reserve
  | confirmPending
  | cancelPending
  -- `other`: the journal may name an event of another booking.
  | transitionPostJournal (other reversal : Bool)
deriving DecidableEq

def RenderedBatch (inputs : List JournalInput) : Prop :=
  ∀ input ∈ inputs, ∃ (t : EntryTemplate) (params : TemplateParams) (now : Instant),
    t.render c.cfg.decodeQuotes now params = .ok input

def WritePath.admits (i : Invocation) : WritePath → Prop
  | .postJournal event reversal => ∃ input, i.call = .postJournal input ∧
      (input.eventUID ≠ [] → event = true) ∧ (input.reversalOfUID ≠ [] → reversal = true)
  | .executeTemplateBatch event =>
    ∃ inputs, i.call = .executeTemplateBatch inputs ∧ RenderedBatch i.env inputs ∧
      ∀ input ∈ inputs, input.eventUID ≠ [] → event = true
  | .reverseJournal => ∃ journalUID reason, i.call = .reverseJournal journalUID reason
  | .reverseJournalFraction =>
    ∃ journalUID num den reason key, i.call = .reverseJournalFraction journalUID num den reason key
  | .reserve => ∃ input, i.call = .reserve input
  | .confirmPending => ∃ input verified, i.call = .confirmPending input verified
  | .cancelPending => ∃ input, i.call = .cancelPending input
  | .transitionPostJournal other reversal =>
    ∃ transition input, i.call = .transitionPostJournal transition input ∧
      (¬OwnEvent i.sees transition input → other = true) ∧ (input.reversalOfUID ≠ [] → reversal = true)

def OneLockOrder (paths : WritePath → Prop) : Prop :=
  ∃ order : LinearOrder Lock, ∀ path, paths path → ∀ i, path.admits i → i.Consistent →
    ∀ locks, i.takes locks → (firstSeen locks).Pairwise order.lt

end Ledger.Postgres
