import Ledger.Service.OnchainDeposits

namespace Ledger.Service

open Chains Core Postgres Shared Fallible

namespace Port

def getCursor (chainID : Int) : Fallible Int := ExceptT.mk (ask (.getCursor chainID))
def setCursor (chainID block : Int) : Fallible Unit := ExceptT.mk (ask (.setCursor chainID block))
def ensureAddress (input : AddressRegistrationInput) : Fallible DepositAddress :=
  ExceptT.mk (ask (.ensureAddress input))
def enqueueRescans (jobs : List RegistrationRescan) : Fallible Unit :=
  ExceptT.mk (ask (.enqueueRescans jobs))
def claimRescans (limit : Nat) (lease : Int) : Fallible (List RegistrationRescan) :=
  ExceptT.mk (ask (.claimRescans limit lease))
def advanceRescan (uid : GoString) (nextBlock : Int) (completed : Bool) (expectedAttempts : Int) :
    Fallible Unit :=
  ExceptT.mk (ask (.advanceRescan uid nextBlock completed expectedAttempts))
def retryRescan (uid : GoString) (delay expectedAttempts : Int) : Fallible Unit :=
  ExceptT.mk (ask (.retryRescan uid delay expectedAttempts))

end Port

def confirmationDepth (chain : ChainConfig) : Int := max 1 chain.confirmations

def safeTip (chain : ChainConfig) (latest : Int) : Int := latest - confirmationDepth chain + 1

def permanentIngestFailure (err : Error) : Bool := !isRetryable err

def ingestWindow (cfg : OnchainConfig) (replica : Nat) : List DepositSighting →
    Goroutine (List (DepositSighting × Error))
  | [] => return []
  | s :: rest => do
    match ← (ingestDeposit cfg replica s).run with
    | .ok _ => ingestWindow cfg replica rest
    | .error err =>
      if permanentIngestFailure err then do
        let _ ← (recordIngestDeadLetter cfg s err).run
        ingestWindow cfg replica rest
      else do
        let blocked ← ingestWindow cfg replica rest
        return (s, err) :: blocked

def deadLetterAll (cfg : OnchainConfig) (cause : Error) : List DepositSighting → Goroutine Unit
  | [] => return ()
  | s :: rest => do
    let _ ← (recordIngestDeadLetter cfg s cause).run
    deadLetterAll cfg cause rest

def escalateWatcherStall (cfg : OnchainConfig) (replica : Nat) (chainID : Int)
    (blocked : List DepositSighting) : Goroutine Unit := do
  let failures ← ask (.recordScanFailure replica chainID)
  if failures < cfg.watcherStallAlertAfter then return ()
  else
    let cause : Error :=
      ⟨.other, "watcher wedged on chain %d for %d consecutive ticks: ingest keeps failing for this sighting"⟩
    deadLetterAll cfg cause blocked

def scanFrom (chainID : Int) : Fallible Int := do
  match ← observe (Port.getCursor chainID) with
  | .ok last => return last + 1
  | .error err => if err.sentinel = .notFound then return 0 else throw (err.wrap "get cursor")

/-- Every tick covers the last blocks below the safe tip again, whatever the cursor says. -/
def withLookback (cfg : OnchainConfig) (tip from_ : Int) : Int :=
  if 0 < cfg.rescanLookback ∧ tip - cfg.rescanLookback + 1 < from_ then max 0
    (tip - cfg.rescanLookback + 1) else from_

def windowEnd (cfg : OnchainConfig) (from_ tip : Int) : Int :=
  if cfg.maxBlocksPerScan < tip - from_ + 1 then from_ + cfg.maxBlocksPerScan - 1 else tip

def scanChainOnce (cfg : OnchainConfig) (replica : Nat) (chainID : Int) : Fallible Unit :=
  match cfg.chains.get chainID with
  | none => throw ⟨.invalidInput, "service: onchain: run watch once: chain %d not configured"⟩
  | some chain => do
    let cursor ← scanFrom chainID
    let latest ← context "latest block" (Port.latestBlock chainID)
    let tip := safeTip chain latest
    let from_ := withLookback cfg tip cursor
    if tip < from_ then return ()
    else do
      let to_ := windowEnd cfg from_ tip
      let rows ← context "list addresses" Port.listAddresses
      if rows = [] then context "set cursor" (Port.setCursor chainID to_)
      else do
        let sightings ← context "fetch deposits" (Port.fetchDeposits chainID from_ to_ (rows.map (·.address)))
        match ← Port.count (ingestWindow cfg replica sightings) with
        | [] => do
          context "set cursor" (Port.setCursor chainID to_)
          Port.count (ask (.clearScanFailures replica chainID))
        | (s, err) :: blocked => do
          Port.count (escalateWatcherStall cfg replica chainID (s :: blocked.map Prod.fst))
          throw (err.wrap "service: onchain: watcher: %d of %d sightings in [%d,%d] on chain %d could not be ingested, cursor left at %d")

def canonicalFactory (chains : ChainSet) : Result (GoString × GoString) := do
  checkAll (fun entry => require (0 ≤ entry.2.scanStartBlock)
    ⟨.invalidInput, "service: onchain: scan_start_block must not be negative for chain %d"⟩)
      chains.entries
  match chains.entries with
  | [] => .error ⟨.invalidInput, "service: onchain: no chains configured"⟩
  | (_, first) :: rest => do
    require (rest.all fun entry => entry.2.factory = first.factory ∧ entry.2.initHash = first.initHash)
      ⟨.invalidInput, "service: onchain: chain set factory/init_hash must match across all chains"⟩
    return (first.factory, first.initHash)

def rescanJobs (chains : ChainSet) (address : GoString) : List RegistrationRescan :=
  chains.entries.map fun entry => ⟨[], entry.1, address, entry.2.scanStartBlock, 0⟩

def ensureDepositAddress (cfg : OnchainConfig) (holder : Int) : Fallible DepositAddress := do
  let (factory, initHash) ← ofResult (canonicalFactory cfg.chains)
  let addr ← ofResult (within "service: onchain: ensure deposit address"
    (deriveDepositAddress cfg.keccak factory initHash holder))
  let da ← context "service: onchain: ensure deposit address"
    (Port.ensureAddress ⟨holder, addr, factory, initHash⟩)
  if cfg.hasReader then
    context "service: onchain: ensure deposit address: enqueue registration rescan"
      (Port.enqueueRescans (rescanJobs cfg.chains da.address))
  return da

def ingestRescan (cfg : OnchainConfig) (replica : Nat) : List DepositSighting → Fallible Unit
  | [] => return ()
  | s :: rest => do
    match ← observe (ingestDeposit cfg replica s) with
    | .ok _ => ingestRescan cfg replica rest
    | .error err =>
      if permanentIngestFailure err then do
        recordIngestDeadLetter cfg s err
        ingestRescan cfg replica rest
      else throw (err.wrap "ingest deposit %s/%d")

/-- The configuration of a chain that is not in the set is Go's zero value. -/
def rescanTip (cfg : OnchainConfig) (chainID latest : Int) : Int :=
  match cfg.chains.get chainID with
  | some chain => safeTip chain latest
  | none => latest

def processRegistrationRescan (cfg : OnchainConfig) (replica : Nat) (job : RegistrationRescan) :
    Fallible Unit := do
  let latest ← context "latest block" (Port.latestBlock job.chainID)
  let tip := rescanTip cfg job.chainID latest
  if tip < job.nextBlock then Port.advanceRescan job.uid job.nextBlock true job.attempts
  else do
    let to_ := min (job.nextBlock + cfg.maxBlocksPerScan - 1) tip
    let sightings ← context "fetch deposits [%d,%d]"
      (Port.fetchDeposits job.chainID job.nextBlock to_ [job.address])
    ingestRescan cfg replica sightings
    Port.advanceRescan job.uid (to_ + 1) (tip ≤ to_) job.attempts

/-- The goroutine of one claimed job; what it waits before a retry doubles up to a minute. -/
def rescanGoroutine (cfg : OnchainConfig) (replica : Nat) (job : RegistrationRescan) :
    Goroutine Unit := do
  match ← (processRegistrationRescan cfg replica job).run with
  | .ok _ => return ()
  | .error _ => do
    let _ ← (Port.retryRescan job.uid (1000000 * 2 ^ (min job.attempts 6).toNat) job.attempts).run
    return ()

inductive Operation where
  | ingest (replica : Nat) (s : DepositSighting)
  | recheck (replica pages : Nat)
  | replay (replica : Nat) (uid : GoString)
  | approve (uid actor : GoString)
  | reject (uid actor reason : GoString)
  -- A booking created by a consumer of the library.
  | append (input : CreateBookingInput)
  | register (holder : Int)
  | scan (replica : Nat) (chainID : Int)
  | claimRescans
  | rescan (replica : Nat) (job : RegistrationRescan)

def Operation.automatic : Operation → Bool
  | .approve .. | .reject .. => false
  | _ => true

def Operation.program (cfg : OnchainConfig) : Operation → Goroutine Unit
  | .ingest replica s => do let _ ← (ingestDeposit cfg replica s).run
  | .recheck replica pages => do let _ ← recheckPendingDeposits cfg replica pages
  | .replay replica uid => do let _ ← (replayDeadLetter cfg replica uid).run
  | .approve uid actor => do let _ ← (approveReview uid actor).run
  | .reject uid actor reason => do let _ ← (rejectReview uid actor reason).run
  | .append input => do let _ ← (Port.createBooking input).run
  | .register holder => do let _ ← (ensureDepositAddress cfg holder).run
  | .scan replica chainID => do let _ ← (scanChainOnce cfg replica chainID).run
  | .claimRescans => do let _ ← (Port.claimRescans cfg.maxConcurrentRescans cfg.registrationRescanTimeout).run
  | .rescan replica job => rescanGoroutine cfg replica job

abbrev OnchainAct := Act Operation World PortCall PortCall.Answer
abbrev OnchainPool := Pool Operation World PortCall PortCall.Answer

def OnchainAct.claimed (a : OnchainAct) : List RegistrationRescan :=
  match a.op, a.ans with
  | .claimRescans .., .ok jobs => jobs
  | _, _ => []

def Operation.admitted (op : Operation) (trace : List OnchainAct) : Prop :=
  match op with
  | .rescan _ job => ∃ a ∈ trace, job ∈ OnchainAct.claimed a
  | _ => True

/-- A process forgets its counters when it restarts; the chains and the second source move on their
own. -/
inductive Outside (chainMoves : (Int → Chain) → (Int → Chain) → Prop)
    (w : World) : World → Prop where
  | restart (replica : Nat) : Outside chainMoves w (w.remember replica .fresh)
  | chain (chains : Int → Chain) (secondSource : Int → GoString → Int → Decimal × Bool)
      (moved : chainMoves w.chains chains) :
      Outside chainMoves w { w with chains := chains, secondSource := secondSource }

def onchainSystem (cfg : OnchainConfig) (chainMoves : (Int → Chain) → (Int → Chain) → Prop) :
    Interleaving Operation World PortCall PortCall.Answer where
  program := Operation.program cfg
  serves := Serves cfg
  outside := Outside chainMoves
  admits := Operation.admitted

end Ledger.Service
