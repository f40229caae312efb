import Ledger.Chains.Evm
import Ledger.Postgres.OnchainStores
import Ledger.Shared.Interaction

namespace Ledger.Service

open Chains Core Postgres Shared

structure OnchainConfig where
  ledger : Config
  attestor : Option Attestor
  keccak : Keccak
  text : CaseFolding
  chains : ChainSet
  hasReader : Bool
  hasConfirmer : Bool
  shallowReorgMisses : Int
  confirmEvidenceMisses : Int
  watcherStallAlertAfter : Int
  maxBlocksPerScan : Int
  rescanLookback : Int
  registrationRescanTimeout : Int
  maxConcurrentRescans : Nat
  -- `NewOnchain` replaces a window that is not positive by its default.
  windowPositive : 0 < maxBlocksPerScan

structure Memory where
  shallowMiss : GoString → Int
  evidenceMiss : GoString → Int
  reconcileFailures : GoString → Int
  scanFailures : Int → Int

def Memory.fresh : Memory := ⟨fun _ => 0, fun _ => 0, fun _ => 0, fun _ => 0⟩

structure World where
  bookings : BookingTables
  templates : List EntryTemplate
  addresses : List DepositAddressRow
  deadLetters : List DeadLetterRow
  cursors : Int → Option Int
  rescans : RescanTable
  memory : Nat → Memory
  chains : Int → Chain
  -- The second source a deposit may be reconciled against.
  secondSource : Int → GoString → Int → Decimal × Bool

inductive PortCall where
  | currencyUID (code : GoString)
  | classificationUID (code : GoString)
  | getByAddress (address : GoString)
  | listAddresses
  | ensureAddress (input : AddressRegistrationInput)
  | createBooking (input : CreateBookingInput)
  | transition (input : TransitionInput)
  | getBooking (uid : GoString)
  | listBookings (filter : BookingFilter)
  | bookingsForDepositIdentity (chainID : Int) (txHash : GoString) (txLogSeq : Int)
  | authorizeTemplate (code : GoString) (params : TemplateParams)
  | runInTx (input : TransitionInput) (authorized : AuthorizedJournal)
  | latestBlock (chainID : Int)
  | txIncluded (chainID : Int) (txHash : GoString)
  | fetchDeposits (chainID fromBlock toBlock : Int) (addresses : List GoString)
  | confirmDeposit (chainID : Int) (txHash : GoString) (txLogSeq : Int)
  | recordDeadLetter (sighting : DepositSighting) (key : GoString) (reason : String)
  | getDeadLetter (uid : GoString)
  | getCursor (chainID : Int)
  | setCursor (chainID block : Int)
  | enqueueRescans (jobs : List RegistrationRescan)
  | claimRescans (limit : Nat) (lease : Int)
  | advanceRescan (uid : GoString) (nextBlock : Int) (completed : Bool) (expectedAttempts : Int)
  | retryRescan (uid : GoString) (delay : Int) (expectedAttempts : Int)
  | recordShallowMiss (replica : Nat) (uid : GoString)
  | clearShallowMiss (replica : Nat) (uid : GoString)
  | recordEvidenceMiss (replica : Nat) (uid : GoString)
  | clearEvidenceMiss (replica : Nat) (uid : GoString)
  | recordReconcileFailure (replica : Nat) (uid : GoString) (limit : Int)
  | clearReconcileFailure (replica : Nat) (uid : GoString)
  | recordScanFailure (replica : Nat) (chainID : Int)
  | clearScanFailures (replica : Nat) (chainID : Int)

@[reducible] def PortCall.Answer : PortCall → Type
  | .currencyUID _ | .classificationUID _ => Result GoString
  | .getByAddress _ | .ensureAddress _ => Result DepositAddress
  | .listAddresses => Result (List DepositAddress)
  | .createBooking _ | .getBooking _ => Result Booking
  | .transition _ => Result Event
  | .listBookings _ => Result (List Booking × Option Nat)
  | .bookingsForDepositIdentity .. => Result (List Booking)
  | .authorizeTemplate .. => Result AuthorizedJournal
  | .runInTx .. | .recordDeadLetter .. | .setCursor .. | .enqueueRescans _ | .advanceRescan ..
  | .retryRescan .. => Result Unit
  | .latestBlock _ | .getCursor _ => Result Int
  | .txIncluded .. => Result Bool
  | .fetchDeposits .. => Result (List DepositSighting)
  | .confirmDeposit .. => Result (Decimal × Bool)
  | .getDeadLetter _ => Result IngestDeadLetter
  | .claimRescans .. => Result (List RegistrationRescan)
  | .recordShallowMiss .. | .recordEvidenceMiss .. | .recordScanFailure .. => Int
  | .recordReconcileFailure .. => Bool
  | .clearShallowMiss .. | .clearEvidenceMiss .. | .clearReconcileFailure .. | .clearScanFailures .. => Unit

structure Draw where
  now : Instant
  uids : List Uuid
  -- The rescan rows another claim has locked.
  locked : List Nat

def Draw.env (d : Draw) (i : Nat) : Env := ⟨d.now, d.uids.getD i .nil⟩

namespace World

def write {α β : Type} (w : World) (result : Result (β × α)) (put : β → World) : Result α × World :=
  match result with
  | .ok (rows, answer) => (.ok answer, put rows)
  | .error err => (.error err, w)

def remember (w : World) (replica : Nat) (m : Memory) : World :=
  { w with memory := Function.update w.memory replica m }

end World

def perform (cfg : OnchainConfig) (d : Draw) (w : World) : (c : PortCall) → c.Answer × World
  | .currencyUID code =>
    ((orError (w.bookings.store.currencies.find? (·.code == code))
      ⟨.notFound, "service: onchain: currency code %q not registered"⟩).map (pgToUID ·.uid), w)
  | .classificationUID code =>
    ((orError (w.bookings.store.ledger.classifications.find? (·.code == code))
      ⟨.notFound, "service: onchain: resolve classification %q"⟩).map (pgToUID ·.uid), w)
  | .getByAddress address => (Postgres.getByAddress cfg.keccak w.addresses address, w)
  | .listAddresses => (.ok (w.addresses.map depositAddressFromRow), w)
  | .ensureAddress input =>
    w.write (Postgres.ensureAddress cfg.keccak (d.env 0).uid w.addresses input) fun rows =>
      { w with addresses := rows }
  | .createBooking input =>
    w.write (Postgres.createBooking (d.env 0) w.bookings input) fun rows =>
    { w with bookings := rows }
  | .transition input =>
    w.write (Postgres.transition (d.env 0) w.bookings input) fun rows => { w with bookings := rows }
  | .getBooking uid => (w.bookings.getBooking uid, w)
  | .listBookings filter => (w.bookings.listBookings filter, w)
  | .bookingsForDepositIdentity chainID txHash txLogSeq =>
    (w.bookings.bookingsForDepositIdentity chainID txHash txLogSeq, w)
  | .authorizeTemplate code params =>
    (do let input ← renderTemplate cfg.ledger d.now w.templates code params
        authorize cfg.ledger cfg.attestor (d.env 0) w.bookings.store input, w)
  | .runInTx input authorized =>
    w.write ((transitionAndPost cfg.ledger (d.env 0) (d.env 1) w.bookings input authorized).map (·, ()))
      fun rows => { w with bookings := rows }
  | .latestBlock chainID => (.ok (Chains.latestBlock (w.chains chainID)), w)
  | .txIncluded chainID txHash => (.ok (Chains.txIncluded (w.chains chainID) txHash), w)
  | .fetchDeposits chainID fromBlock toBlock addresses =>
    (do let chain ← orError (cfg.chains.get chainID) ⟨.other, "evm: chain %d not configured"⟩
        Chains.fetchDeposits cfg.keccak chain chainID (w.chains chainID) fromBlock toBlock addresses, w)
  | .confirmDeposit chainID txHash txLogSeq => (.ok (w.secondSource chainID txHash txLogSeq), w)
  | .recordDeadLetter sighting key reason =>
    w.write ((Postgres.recordDeadLetter (d.env 0).uid w.deadLetters sighting key reason).map (·, ()))
      fun rows => { w with deadLetters := rows }
  | .getDeadLetter uid => (Postgres.getDeadLetter w.deadLetters uid, w)
  | .getCursor chainID =>
    (orError (w.cursors chainID) ⟨.notFound, "postgres: get chain cursor %d"⟩, w)
  | .setCursor chainID block =>
    (.ok (), { w with cursors := setChainCursor w.cursors chainID block })
  | .enqueueRescans jobs =>
    w.write ((RescanTable.enqueue (toMicros d.now) d.uids w.rescans jobs).map (·, ())) fun t =>
      { w with rescans := t }
  | .claimRescans limit lease =>
    w.write (w.rescans.claim (toMicros d.now) limit lease d.locked) fun t => { w with rescans := t }
  | .advanceRescan uid nextBlock completed expectedAttempts =>
    w.write ((w.rescans.advance (toMicros d.now) uid nextBlock completed expectedAttempts).map
      (·, ())) fun t => { w with rescans := t }
  | .retryRescan uid delay expectedAttempts =>
    w.write ((w.rescans.retry uid (toMicros d.now + delay) expectedAttempts).map (·, ())) fun t =>
      { w with rescans := t }
  | .recordShallowMiss replica uid =>
    let m := w.memory replica
    (m.shallowMiss uid + 1,
      w.remember replica { m with shallowMiss := Function.update m.shallowMiss uid (m.shallowMiss uid + 1) })
  | .clearShallowMiss replica uid =>
    let m := w.memory replica
    ((), w.remember replica { m with shallowMiss := Function.update m.shallowMiss uid 0 })
  | .recordEvidenceMiss replica uid =>
    let m := w.memory replica
    (m.evidenceMiss uid + 1, w.remember replica
      { m with evidenceMiss := Function.update m.evidenceMiss uid (m.evidenceMiss uid + 1) })
  | .clearEvidenceMiss replica uid =>
    let m := w.memory replica
    ((), w.remember replica { m with evidenceMiss := Function.update m.evidenceMiss uid 0 })
  | .recordReconcileFailure replica uid limit =>
    let m := w.memory replica
    if limit ≤ 0 then (false, w)
    else
      let count := m.reconcileFailures uid + 1
      let reached := decide (limit ≤ count)
      (reached, w.remember replica { m with
        reconcileFailures := Function.update m.reconcileFailures uid (if reached then 0 else count) })
  | .clearReconcileFailure replica uid =>
    let m := w.memory replica
    ((), w.remember replica { m with reconcileFailures := Function.update m.reconcileFailures uid 0 })
  | .recordScanFailure replica chainID =>
    let m := w.memory replica
    (m.scanFailures chainID + 1, w.remember replica
      { m with scanFailures := Function.update m.scanFailures chainID (m.scanFailures chainID + 1) })
  | .clearScanFailures replica chainID =>
    let m := w.memory replica
    ((), w.remember replica { m with scanFailures := Function.update m.scanFailures chainID 0 })

def PortCall.refuse (err : Error) : (c : PortCall) → Option c.Answer
  | .currencyUID _ | .classificationUID _ | .getByAddress _ | .ensureAddress _ | .listAddresses
  | .createBooking _ | .getBooking _
  | .transition _ | .listBookings _ | .bookingsForDepositIdentity .. | .authorizeTemplate ..
  | .runInTx .. | .recordDeadLetter ..
  | .setCursor .. | .enqueueRescans _ | .advanceRescan .. | .retryRescan .. | .latestBlock _
  | .getCursor _ | .txIncluded ..
  | .fetchDeposits .. | .confirmDeposit .. | .getDeadLetter _ | .claimRescans .. =>
    some (.error err)
  | .recordShallowMiss .. | .recordEvidenceMiss .. | .recordScanFailure ..
  | .recordReconcileFailure .. | .clearShallowMiss ..
  | .clearEvidenceMiss .. | .clearReconcileFailure .. | .clearScanFailures .. => none

/-- A database that cannot be reached wraps no domain error, or the transient one. -/
def isOutage (err : Error) : Bool := err.sentinel == .other || err.sentinel == .transient

/-- How a call can be answered. An outage leaves the tables as they were, or hides that the write
was made. -/
inductive Serves (cfg : OnchainConfig) (w : World) (c : PortCall) : c.Answer → World → Prop where
  | answered (d : Draw) : Serves cfg w c (perform cfg d w c).1 (perform cfg d w c).2
  | outage (err : Error) (ans : c.Answer) (refused : c.refuse err = some ans)
      (outage : isOutage err = true) : Serves cfg w c ans w
  | hidden (d : Draw) (err : Error) (ans : c.Answer) (refused : c.refuse err = some ans)
      (outage : isOutage err = true) :
      Serves cfg w c ans (perform cfg d w c).2

end Ledger.Service
