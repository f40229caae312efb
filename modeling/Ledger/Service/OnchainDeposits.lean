import Ledger.Service.OnchainPorts

namespace Ledger.Service

open Chains Core Postgres Shared

abbrev Goroutine (α : Type) := Prog PortCall PortCall.Answer α

def ask (c : PortCall) : Goroutine c.Answer := Prog.ask c

abbrev Fallible (α : Type) := ExceptT Error (Prog PortCall PortCall.Answer) α

namespace Fallible

variable {α : Type}

def ofResult (r : Result α) : Fallible α := ExceptT.mk (pure r)

def context (text : String) (t : Fallible α) :
    Fallible α := ExceptT.mk (t.run >>= fun r => pure (within text r))

def observe (t : Fallible α) : Fallible (Result α) := ExceptT.mk (t.run >>= fun r => pure (.ok r))

end Fallible

namespace Port

def currencyUID (code : GoString) : Fallible GoString := ExceptT.mk (ask (.currencyUID code))
def classificationUID (code : GoString) : Fallible GoString :=
  ExceptT.mk (ask (.classificationUID code))
def getByAddress (address : GoString) : Fallible DepositAddress :=
  ExceptT.mk (ask (.getByAddress address))
def listAddresses : Fallible (List DepositAddress) := ExceptT.mk (ask .listAddresses)
def createBooking (input : CreateBookingInput) : Fallible Booking :=
  ExceptT.mk (ask (.createBooking input))
def transition (input : TransitionInput) : Fallible Event := ExceptT.mk (ask (.transition input))
def getBooking (uid : GoString) : Fallible Booking := ExceptT.mk (ask (.getBooking uid))
def listBookings (filter : BookingFilter) : Fallible (List Booking × Option Nat) :=
  ExceptT.mk (ask (.listBookings filter))
def bookingsForDepositIdentity (chainID : Int) (txHash : GoString) (txLogSeq : Int) :
    Fallible (List Booking) :=
  ExceptT.mk (ask (.bookingsForDepositIdentity chainID txHash txLogSeq))
def authorizeTemplate (code : GoString) (params : TemplateParams) : Fallible AuthorizedJournal :=
  ExceptT.mk (ask (.authorizeTemplate code params))
def runInTx (input : TransitionInput) (authorized : AuthorizedJournal) : Fallible Unit :=
  ExceptT.mk (ask (.runInTx input authorized))
def latestBlock (chainID : Int) : Fallible Int := ExceptT.mk (ask (.latestBlock chainID))
def txIncluded (chainID : Int) (txHash : GoString) : Fallible Bool :=
  ExceptT.mk (ask (.txIncluded chainID txHash))
def fetchDeposits (chainID fromBlock toBlock : Int) (addresses : List GoString) :
    Fallible (List DepositSighting) :=
  ExceptT.mk (ask (.fetchDeposits chainID fromBlock toBlock addresses))
def confirmDeposit (chainID : Int) (txHash : GoString) (txLogSeq : Int) :
    Fallible (Decimal × Bool) :=
  ExceptT.mk (ask (.confirmDeposit chainID txHash txLogSeq))
def recordDeadLetter (sighting : DepositSighting) (key : GoString) (reason : String) :
    Fallible Unit :=
  ExceptT.mk (ask (.recordDeadLetter sighting key reason))
def getDeadLetter (uid : GoString) : Fallible IngestDeadLetter :=
  ExceptT.mk (ask (.getDeadLetter uid))
def count {α : Type} (p : Goroutine α) : Fallible α := ExceptT.mk (p >>= fun a => pure (.ok a))

end Port

open Fallible

def depositConfirmTemplate : GoString := lit "deposit_confirm"
def onchainChannelName : GoString := lit "onchain"
def onchainSource : GoString := lit "onchain"

def depositIdempotencyKey (chainID : Int) (txHash : GoString) (txLogSeq : Int) : GoString :=
  lit "deposit-" ++ intText chainID ++ lit "-" ++ txHash ++ lit "-" ++ intText txLogSeq

def depositChannelRef (txHash : GoString) (txLogSeq : Int) : GoString := txHash ++
    lit "#" ++ intText txLogSeq

def depositTransitionKey (bookingUID : GoString) (toStatus : Status) : GoString :=
  lit "deposit-" ++ toStatus ++ lit "-" ++ bookingUID

def depositConfirmKey (bookingUID : GoString) : GoString := lit "deposit-confirm-" ++ bookingUID

def reviewReasonOverCeiling : GoString := lit "over_ceiling"
def reviewReasonReconcileMismatch : GoString := lit "reconcile_mismatch"
def reviewReasonReconcileUnavailable : GoString := lit "reconcile_unavailable"
def reviewReasonTokenUnconfigured : GoString := lit "token_unconfigured"
def reviewReasonOnchainUnverified : GoString := lit "onchain_unverified"

structure DepositMeta where
  chainID : Int
  txHash : GoString
  txLogSeq : Int
  blockNumber : Int
deriving DecidableEq

def parseDepositMeta (m : Metadata) : Option DepositMeta := do
  let chain ← m.get (lit "chain_id")
  let txHash ← m.get (lit "tx_hash")
  let seq ← m.get (lit "txlog_seq")
  let block ← m.get (lit "block_number")
  if txHash = [] then none
  else do
    let chainID ← parseInt 64 chain
    let txLogSeq ← parseInt 32 seq
    let blockNumber ← parseInt 64 block
    return ⟨chainID, txHash, txLogSeq, blockNumber⟩

def depositTransition (bookingUID : GoString) (toStatus : Status) (channelRef : GoString)
    (amount : Decimal) (metadata : Metadata) :
    TransitionInput :=
  ⟨bookingUID, toStatus, channelRef, amount, metadata, 0, onchainSource,
    depositTransitionKey bookingUID toStatus⟩

/-- `none` when the booking may be credited, the reason for review otherwise. The token's
configuration is absent when it is no longer on the allow list. -/
def reviewGate (cfg : OnchainConfig) (replica : Nat) (booking : Booking)
    (token : Option TokenConfig) : Fallible (Option GoString) :=
  match token with
  | none => return some reviewReasonTokenUnconfigured
  | some tc =>
    if tc.autoCreditCeiling.isPositive ∧ booking.amount.greaterThan tc.autoCreditCeiling then
      return some reviewReasonOverCeiling
    else if !cfg.hasConfirmer ∨ !tc.reconcileCeiling.isPositive ∨
      !booking.amount.greaterThan tc.reconcileCeiling then
      return none
    else
      match parseDepositMeta booking.metadata with
      | none => throw ⟨.other, "reconcile: booking %s missing identity metadata"⟩
      | some m => do
        match ← observe (Port.confirmDeposit m.chainID m.txHash m.txLogSeq) with
        | .error err =>
          if ← Port.count (ask (.recordReconcileFailure replica booking.uid tc.reconcileFailureLimit)) then
            return some reviewReasonReconcileUnavailable
          else throw (err.wrap "reconcile")
        | .ok (amount, included) => do
          Port.count (ask (.clearReconcileFailure replica booking.uid))
          if !included ∨ !amount.equal booking.amount then return some reviewReasonReconcileMismatch
          else return none

def routeToReview (booking : Booking) (channelRef reason : GoString) : Fallible Booking := do
  let _ ← context "route to review" <| Port.transition <|
    depositTransition booking.uid review channelRef .zero (.ofList [(lit "review_reason", reason)])
  context "route to review: reload booking" (Port.getBooking booking.uid)

def approvedBy (actor : GoString) : Metadata := if actor = [] then .empty
    else .ofList [(lit "approved_by", actor)]

def confirmParams (booking : Booking) (actor : GoString) : TemplateParams :=
  { holderID := booking.accountHolder
    currencyUID := booking.currencyUID
    idempotencyKey := depositConfirmKey booking.uid
    eventUID := []
    amounts := fun key => if key = lit "amount" then some booking.amount else none
    actorID := 0
    source := onchainSource
    metadata := approvedBy actor
    effectiveAt := 0 }

def postDepositConfirmedJournal (booking : Booking) (channelRef actor : GoString) :
    Fallible Booking := do
  let authorized ← context "authorize deposit confirm journal" <|
    Port.authorizeTemplate depositConfirmTemplate (confirmParams booking actor)
  Port.runInTx (depositTransition booking.uid confirmed channelRef booking.amount
    (approvedBy actor)) authorized
  context "reload booking" (Port.getBooking booking.uid)

def confirmDeposit (cfg : OnchainConfig) (replica : Nat) (booking : Booking) (confirmations : Int)
    (channelRef : GoString)
    (chain : ChainConfig) : Fallible Booking :=
  if confirmations < chain.confirmations then return booking
  else do
    let token := chain.creditTokens.get ((booking.metadata.get (lit "token")).getD [])
    match ← context "advance to confirmed: review gate" (reviewGate cfg replica booking token) with
    | some reason => routeToReview booking channelRef reason
    | none => context "advance to confirmed" (postDepositConfirmedJournal booking channelRef [])

def advanceConfirmation (cfg : OnchainConfig) (replica : Nat) (booking : Booking)
    (confirmations : Int) (channelRef : GoString)
    (chain : ChainConfig) : Fallible Booking :=
  if booking.status = pending then do
    let _ ← context "advance to confirming" <| Port.transition <|
      depositTransition booking.uid confirming channelRef .zero .empty
    confirmDeposit cfg replica { booking with status := confirming } confirmations channelRef chain
  else if booking.status = confirming then confirmDeposit cfg replica booking
    confirmations channelRef chain
  -- confirmed, failed, expired and review are left alone, and so is any other status.
  else return booking

def recordIngestDeadLetter (cfg : OnchainConfig) (s : DepositSighting) (cause : Error) :
    Fallible Unit := do
  let _ ← observe (Port.recordDeadLetter s
    (depositIdempotencyKey s.chainID (cfg.text.toLower s.txHash) s.txLogSeq) cause.text)
  return ()

def classifyIngestConflict (s : DepositSighting) (txHash idemKey : GoString) (cause : Error) :
    Fallible Error := do
  match ← observe (Port.bookingsForDepositIdentity s.chainID txHash s.txLogSeq) with
  | .error _ => return cause
  | .ok holders =>
    if holders.any (·.idempotencyKey != idemKey) then
      return ⟨cause.sentinel,
        "another booking already holds this transfer: booking %s (status %s, key %s) claims %s#%d: "
        ++ cause.text⟩
    else return cause

def depositMetadata (s : DepositSighting) (txHash token : GoString) : Metadata :=
  .ofList [(lit "chain_id", intText s.chainID), (lit "tx_hash", txHash),
    (lit "txlog_seq", intText s.txLogSeq),
    (lit "token", token), (lit "block_number", intText s.blockNumber)]

/-- `none` for a sighting this ledger has no business booking. -/
def ingestDeposit (cfg : OnchainConfig) (replica : Nat) (s : DepositSighting) :
    Fallible (Option Booking) := do
  ofResult (within "service: onchain: ingest deposit" s.validate)
  match cfg.chains.get s.chainID with
  | none => return none
  | some chain =>
    let token := cfg.text.toLower s.token
    match chain.creditTokens.get token with
    | none => return none
    | some tokenCfg => do
      let addr ← ofResult (within "service: onchain: ingest deposit" (checksumAddress cfg.keccak s.to_))
      let txHash := cfg.text.toLower s.txHash
      match ← observe (Port.getByAddress addr) with
      | .error err =>
        if err.sentinel = .notFound then return none else throw (err.wrap "service: onchain: ingest deposit")
      | .ok da => do
        let currencyUID ← context "service: onchain: ingest deposit" (Port.currencyUID tokenCfg.currencyCode)
        let idemKey := depositIdempotencyKey s.chainID txHash s.txLogSeq
        match ← observe (Port.createBooking
            ⟨depositClassificationCode, da.accountHolder, currencyUID, s.amount, idemKey, onchainChannelName,
              depositMetadata s txHash token, 0⟩) with
        | .error err => do
          if err.sentinel = .conflict then
            recordIngestDeadLetter cfg s (← classifyIngestConflict s txHash idemKey err)
          throw (err.wrap "service: onchain: ingest deposit: create booking")
        | .ok booking => do
          let advanced ← advanceConfirmation cfg replica booking s.confirmations
            (depositChannelRef txHash s.txLogSeq) chain
          return some advanced

def replayDeadLetter (cfg : OnchainConfig) (replica : Nat) (uid : GoString) : Fallible Booking := do
  let dl ← context "service: onchain: replay dead letter %s" (Port.getDeadLetter uid)
  match ← context "service: onchain: replay dead letter %s (recorded reason: %s)"
    (ingestDeposit cfg replica dl.sighting) with
  | some booking => return booking
  | none => throw ⟨.invalidInput, "service: onchain: replay dead letter %s: this ledger has nothing to book for that sighting -- its address is not registered, or its token is not in chain %d's CreditTokens"⟩

def requireDepositBooking (bookingUID : GoString) : Fallible Booking := do
  let booking ← Port.getBooking bookingUID
  let depositUID ← context "resolve deposit classification"
    (Port.classificationUID depositClassificationCode)
  if booking.classificationUID ≠ depositUID then throw ⟨.conflict, "booking %s is not a deposit booking"⟩
  else return booking

def approveReview (bookingUID actor : GoString) : Fallible Booking := do
  let booking ← context "service: onchain: approve review" (requireDepositBooking bookingUID)
  if booking.status = confirmed then return booking
  else if booking.status = review then
    context "service: onchain: approve review"
      (postDepositConfirmedJournal booking booking.channelRef actor)
  else throw ⟨.conflict, "service: onchain: approve review: booking %s is %s, not review"⟩

def rejectMetadata (actor reason : GoString) : Metadata :=
  if actor = [] then .ofList [(lit "reject_reason", reason)]
  else .ofList [(lit "reject_reason", reason), (lit "rejected_by", actor)]

def rejectReview (bookingUID actor reason : GoString) : Fallible Booking := do
  let booking ← context "service: onchain: reject review" (requireDepositBooking bookingUID)
  if booking.status = failed then return booking
  else if booking.status = review then do
    let _ ← context "service: onchain: reject review" <| Port.transition <|
      depositTransition booking.uid failed booking.channelRef .zero (rejectMetadata actor reason)
    context "service: onchain: reject review: reload booking" (Port.getBooking booking.uid)
  else throw ⟨.conflict, "service: onchain: reject review: booking %s is %s, not review"⟩

/-- What one tick has read so far. A failure to list the addresses is remembered, one to read a head
is not. -/
structure TickCache where
  heads : List (Int × Int)
  addresses : Option (Result (List GoString))

def TickCache.empty : TickCache := ⟨[], none⟩

def latestBlockOnce (cache : TickCache) (chainID : Int) : Goroutine (TickCache × Result Int) :=
  match cache.heads.find? (·.1 == chainID) with
  | some head => return (cache, .ok head.2)
  | none => do
    match ← (Port.latestBlock chainID).run with
    | .ok head => return ({ cache with heads := (chainID, head) :: cache.heads }, .ok head)
    | .error err => return (cache, .error err)

def registeredAddresses (cache : TickCache) : Goroutine (TickCache × Result (List GoString)) :=
  match cache.addresses with
  | some addresses => return (cache, addresses)
  | none => do
    let addresses := (← Port.listAddresses.run).map fun rows => rows.map (·.address)
    return ({ cache with addresses := some addresses }, addresses)

inductive DepositEvidence where
  | unavailable (detail : String)
  | corroborated
  | contradicted (detail : String)
deriving DecidableEq

def compareSighting (cfg : OnchainConfig) (b : Booking) (s : DepositSighting) : Goroutine DepositEvidence := do
  if cfg.text.toLower s.token ≠ cfg.text.toLower ((b.metadata.get (lit "token")).getD []) then
    return .contradicted "the log at %s#%d is token %s, the booking claims %s"
  else if !s.amount.equal b.amount then
    return .contradicted "the log at %s#%d moved %s, the booking claims %s"
  else
    match checksumAddress cfg.keccak s.to_ with
    | .error _ => return .unavailable "normalize recipient %q: %v"
    | .ok addr => do
      match ← (Port.getByAddress addr).run with
      | .error err =>
        if err.sentinel = .notFound then return .contradicted "the log at %s#%d paid %s, which is not a registered deposit address"
        else return .unavailable "resolve recipient %s: %v"
      | .ok da =>
        if da.accountHolder ≠ b.accountHolder then
          return .contradicted "the log at %s#%d paid holder %d's address, the booking credits holder %d"
        else return .corroborated

def corroborateBeforeConfirm (cfg : OnchainConfig) (cache : TickCache)
    (b : Booking) (m : DepositMeta) :
    Goroutine (TickCache × DepositEvidence) := do
  match ← (Port.bookingsForDepositIdentity m.chainID m.txHash m.txLogSeq).run with
  | .error _ => return (cache, .unavailable "look up bookings for %s#%d failed: %v")
  | .ok siblings =>
    if siblings.any (·.uid != b.uid) then
      return (cache, .contradicted
        "booking %s (status %s%s) already holds transfer %s#%d -- one on-chain log may be booked once")
    else do
      match ← (Port.txIncluded m.chainID m.txHash).run with
      | .error _ => return (cache, .unavailable "tx inclusion check failed: %v")
      | .ok false => return (cache, .contradicted "the transaction is not on chain")
      | .ok true => do
        let (cache, listed) ← registeredAddresses cache
        match listed with
        | .error _ => return (cache, .unavailable "list registered addresses failed: %v")
        | .ok [] => return (cache, .unavailable "no registered deposit addresses to re-read the chain against")
        | .ok addrs => do
          match ← (Port.fetchDeposits m.chainID m.blockNumber m.blockNumber addrs).run with
          | .error _ => return (cache, .unavailable "re-read of block %d failed: %v")
          | .ok sightings =>
            match sightings.find? fun s => cfg.text.equalFold s.txHash m.txHash && s.txLogSeq == m.txLogSeq with
            | none => return (cache, .contradicted "block %d carries no transfer %s#%d to any registered address")
            | some s => do
              let evidence ← compareSighting cfg b s
              return (cache, evidence)

def recheckShallow (cfg : OnchainConfig) (replica : Nat) (b : Booking) (m : DepositMeta) :
    Fallible Unit := do
  let included ← context "recheck booking %s: tx included on chain %d"
    (Port.txIncluded m.chainID m.txHash)
  if included then Port.count (ask (.clearShallowMiss replica b.uid))
  else do
    let misses ← Port.count (ask (.recordShallowMiss replica b.uid))
    if misses < cfg.shallowReorgMisses then return ()
    else do
      let _ ← context "recheck booking %s: transition to failed" <| Port.transition <|
        depositTransition b.uid failed (depositChannelRef m.txHash m.txLogSeq) .zero .empty
      Port.count (ask (.clearShallowMiss replica b.uid))

def recheckContradicted (cfg : OnchainConfig) (replica : Nat) (b : Booking) (m : DepositMeta) :
    Fallible Unit := do
  let misses ← Port.count (ask (.recordEvidenceMiss replica b.uid))
  if misses < cfg.confirmEvidenceMisses then return ()
  else do
    let unverifiedRef := depositChannelRef m.txHash m.txLogSeq ++ lit "#unverified-" ++ b.uid
    if b.status = pending then do
      let _ ← context "recheck booking %s: advance uncorroborated deposit to confirming before review" <| Port.transition <|
        depositTransition b.uid confirming unverifiedRef .zero .empty
    let _ ← context "recheck booking %s: route uncorroborated deposit to review" <|
      routeToReview b unverifiedRef reviewReasonOnchainUnverified
    Port.count (ask (.clearEvidenceMiss replica b.uid))

def confirmationsAt (latest blockNumber : Int) : Int := max 0 (wrap64 (latest - blockNumber + 1))

def recheckOneDeposit (cfg : OnchainConfig) (replica : Nat) (cache : TickCache) (b : Booking) :
    Goroutine (TickCache × Result Unit) :=
  match parseDepositMeta b.metadata with
  | none => return (cache, .ok ())
  | some m =>
    match cfg.chains.get m.chainID with
    | none => return (cache, .ok ())
    | some chain => do
      let (cache, head) ← latestBlockOnce cache m.chainID
      match head with
      | .error err => return (cache, .error (err.wrap "recheck booking %s: latest block on chain %d"))
      | .ok latest =>
        let confirmations := toInt32 (confirmationsAt latest m.blockNumber)
        if confirmations < chain.confirmations then do
          let done ← (recheckShallow cfg replica b m).run
          return (cache, done)
        else do
          let _ ← ask (.clearShallowMiss replica b.uid)
          let (cache, evidence) ← corroborateBeforeConfirm cfg cache b m
          match evidence with
          | .unavailable detail =>
            return (cache, .error ⟨.transient,
              "recheck booking %s: corroborate before confirm: " ++ detail⟩)
          | .contradicted _ => do
            let done ← (recheckContradicted cfg replica b m).run
            return (cache, done)
          | .corroborated => do
            let _ ← ask (.clearEvidenceMiss replica b.uid)
            let done ← (context "recheck booking %s: advance confirmation"
              (advanceConfirmation cfg replica b confirmations (depositChannelRef m.txHash m.txLogSeq) chain)).run
            return (cache, done.map fun _ => ())

def recheckBookings (cfg : OnchainConfig) (replica : Nat) : TickCache → List Booking →
    Goroutine (TickCache × List Error)
  | cache, [] => return (cache, [])
  | cache, b :: rest => do
    let (cache, done) ← recheckOneDeposit cfg replica cache b
    let (cache, errs) ← recheckBookings cfg replica cache rest
    return (cache, (match done with | .ok _ => [] | .error err => [err]) ++ errs)

def recheckStatus (cfg : OnchainConfig) (replica : Nat) (depositUID : GoString) (status : Status) :
    Nat → TickCache → Nat → Goroutine (TickCache × List Error)
  | 0, cache, _ => return (cache, [])
  | pages + 1, cache, cursor => do
    match ← (Port.listBookings ⟨0, depositUID, status, cursor, 200⟩).run with
    | .error err => return (cache, [err.wrap "recheck: list %s bookings"])
    | .ok (bookings, next) => do
      let (cache, errs) ← recheckBookings cfg replica cache bookings
      match next with
      | none => return (cache, errs)
      | some cursor => do
        let (cache, more) ← recheckStatus cfg replica depositUID status pages cache cursor
        return (cache, errs ++ more)

def recheckPendingDeposits (cfg : OnchainConfig) (replica pages : Nat) :
    Goroutine (List Error) := do
  match ← (Port.classificationUID depositClassificationCode).run with
  | .error err => return [err.wrap "recheck: resolve deposit classification"]
  | .ok depositUID => do
    let (cache, errs) ← recheckStatus cfg replica depositUID pending pages .empty 0
    let (_, more) ← recheckStatus cfg replica depositUID confirming pages cache 0
    return errs ++ more

end Ledger.Service
