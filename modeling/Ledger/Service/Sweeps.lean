import Ledger.Service.OnchainDeposits
import Ledger.Service.SweepPorts

namespace Ledger.Service

open Chains Core Postgres Shared

abbrev Sweep (α : Type) := ExceptT Error (Prog SweepRequest SweepRequest.Answer) α

namespace Sweep

variable {α : Type}

def call (c : SweepRequest) : Sweep c.Answer := ExceptT.mk (.call c fun ans => .done (.ok ans))

def try_ (c : SweepRequest) (answer : c.Answer → Result α) :
    Sweep α := ExceptT.mk (.call c fun ans => .done (answer ans))

def ofResult (r : Result α) : Sweep α := ExceptT.mk (.done r)

def context (text : String) (t : Sweep α) :
    Sweep α := ExceptT.mk (t.run >>= fun r => .done (within text r))

end Sweep

open Sweep

def gasBumpNumerator : Nat := 1125
def gasBumpDenominator : Nat := 1000
def weiGweiDecimals : Int := 9
def defaultSweepGasLimit : Nat := 500000

def feeCapBasis (baseFee tip : Nat) : Nat := baseFee * 2 + tip

def bumpFee (prior : Nat) : Nat := (prior * gasBumpNumerator + (gasBumpDenominator - 1))
    / gasBumpDenominator

def gwei (wei : Nat) : Decimal := normalizeAmount wei weiGweiDecimals

def suggestGasTipCap (chainID : Int) : Sweep Nat := try_ (.suggestGasTipCap chainID) id

def headerBaseFee (chainID : Int) : Sweep Nat := try_ (.headerBaseFee chainID) fun ans =>
    ans.map (·.getD 0)

def gasPrice (chainID : Int) : Sweep Decimal := do
  let tip ← context "evm: sweeper: gas price: suggest gas tip cap: chain %d"
    (suggestGasTipCap chainID)
  let baseFee ← context "evm: sweeper: gas price: header: chain %d" (headerBaseFee chainID)
  return gwei (feeCapBasis baseFee tip)

def nextNonce (chainID : Int) : Sweep Nat := context "evm: sweeper: next nonce: chain %d"
    (try_ (.pendingNonceAt chainID) id)

def priorFeeFloor (chainID : Int) (signerNonce : Nat) (priorTxHash : GoString) :
    Sweep (Option FeeQuote) := do
  if priorTxHash = [] then call (.lastFee chainID signerNonce)
  else
    match ← call (.transactionByHash chainID priorTxHash) with
    | some fee => return some fee
    | none => call (.lastFee chainID signerNonce)

def bidOver (baseFee tip : Nat) : Option FeeQuote → FeeQuote
  | none => ⟨feeCapBasis baseFee tip, tip⟩
  | some prior => ⟨max (feeCapBasis baseFee tip) (bumpFee prior.gasFeeCap), max tip (bumpFee prior.gasTipCap)⟩

def quoteFee (chainID : Int) (signerNonce : Nat) (priorTxHash : GoString) : Sweep FeeQuote := do
  let tip ← context "evm: sweeper: suggest gas tip cap: chain %d" (suggestGasTipCap chainID)
  let baseFee ← context "evm: sweeper: header: chain %d" (headerBaseFee chainID)
  let prior ← priorFeeFloor chainID signerNonce priorTxHash
  return bidOver baseFee tip prior

def replacementGasPrice (chainID : Int) (signerNonce : Nat) (priorTxHash : GoString) :
    Sweep Decimal := do
  let fee ← quoteFee chainID signerNonce priorTxHash
  return gwei fee.gasFeeCap

def checkTargets (k : Keccak) (chain : ChainConfig) (targets : List SweepTarget) : Result Unit :=
  checkAll (fun t => do
    let derived ← within "evm: sweeper: batch sweep: target %d: derive address"
      (deriveDepositAddress k chain.factory chain.initHash t.accountHolder)
    require (derived = t.address) ⟨.invalidInput,
      "evm: sweeper: batch sweep: target %d: address %q does not match holder %d's derived address %q, refusing to sweep"⟩) targets

/-- `bookingUID` is on record only: the sweeper does not know the booking. -/
def batchSweep (cfg : SweepConfig) (bookingUID : GoString) (chainID : Int) (token : GoString)
    (targets : List SweepTarget)
    (signerNonce : Nat) (priorTxHash : GoString) : Sweep GoString := do
  ofResult (require (targets ≠ []) ⟨.invalidInput, "evm: sweeper: batch sweep: no targets"⟩)
  let chain ← ofResult (orError (cfg.onchain.chains.get chainID) ⟨.other, "evm: chain %d"⟩)
  ofResult (checkTargets cfg.onchain.keccak chain targets)
  ofResult (require (chain.factory ≠ [])
    ⟨.invalidInput, "evm: sweeper: batch sweep: chain %d has no factory configured"⟩)
  let fee ← quoteFee chainID signerNonce priorTxHash
  let draft : SweepTx := ⟨chainID, signerNonce, fee, 0, targets.map (·.accountHolder), token⟩
  let gasLimit ← context "evm: sweeper: batch sweep: estimate gas: chain %d"
    (try_ (.estimateGas draft) id)
  let tx := { draft with gas := if gasLimit = 0 then defaultSweepGasLimit else gasLimit }
  let hash ← context "evm: sweeper: batch sweep: sign" (try_ (.signTx tx) id)
  context "evm: sweeper: batch sweep: send: chain %d"
    (try_ (.sendTransaction ⟨bookingUID, tx, hash⟩) id)
  call (.recordFee chainID signerNonce fee)
  return hash

def sweepClassificationCode : GoString := lit "sweep"

def sent : Status := lit "sent"

def sweepLifecycle : Lifecycle :=
  ⟨0, pending, [confirmed], .ofList [(pending, [sent]), (sent, [confirmed, failed]),
    (failed, [pending])]⟩

def sweepSystemHolder (chainID : Int) : Int := -(9000000000000 + chainID)

def sweepSentKey (bookingUID txHash : GoString) : GoString := lit "sweep-sent-" ++
    bookingUID ++ lit "-" ++ txHash
def sweepConfirmedKey (bookingUID txHash : GoString) : GoString := lit "sweep-confirmed-" ++
    bookingUID ++ lit "-" ++ txHash
def sweepFailedKey (bookingUID cycleChannelRef : GoString) : GoString := lit "sweep-failed-" ++
    bookingUID ++ lit "-" ++ cycleChannelRef
def sweepReviveKey (failedBookingUID failedCycleChannelRef : GoString) : GoString :=
  lit "sweep-revive-" ++ failedBookingUID ++ lit "-" ++ failedCycleChannelRef

def parseUint64 (s : GoString) : Option Nat := do
  let n ← parseDigits s
  if n < 2 ^ 64 then some n else none

def sweepTransition (uid : GoString) (toStatus : Status) (channelRef : GoString)
    (metadata : Metadata) (key : GoString) : TransitionInput :=
  { bookingUID := uid, toStatus := toStatus, channelRef := channelRef, amount := .zero,
    metadata := metadata
    actorID := 0, source := onchainSource, idempotencyKey := key }

def transitionSweep (input : TransitionInput) : Sweep Event := try_ (.port (.transition input)) id

def findSweepBookingByStatus (chainID : Int) (token : GoString) (statuses : List Status) :
    Sweep (Option Booking) := do
  let sweepUID ← context "sweep: resolve sweep classification"
    (try_ (.port (.classificationUID sweepClassificationCode)) id)
  let rec search : List Status → Sweep (Option Booking)
    | [] => return none
    | status :: rest => do
      let bookings ← context "sweep: list bookings (status=%s)" (try_ (.listBookings sweepUID status) id)
      match bookings.find? fun b => b.metadata.get (lit "chain_id") = some (intText chainID) &&
        b.metadata.get (lit "token") = some token with
      | some booking => return some booking
      | none => search rest
  search statuses

def findInFlightSweep (chainID : Int) (token : GoString) : Sweep (Option Booking) :=
  findSweepBookingByStatus chainID token [pending, sent]

def findFailedSweep (chainID : Int) (token : GoString) : Sweep (Option Booking) :=
  findSweepBookingByStatus chainID token [failed]

def sweepTargets : List GoString → Sweep (List SweepTarget)
  | [] => return []
  | addr :: rest => do
    let da ← context "resolve sweep target %s" (try_ (.port (.getByAddress addr)) id)
    let targets ← sweepTargets rest
    return ⟨da.address, da.accountHolder⟩ :: targets

inductive SweepOrigin where
  | justCreated
  | resumed
deriving DecidableEq

def orphanedBroadcast : Error := ⟨.conflict,
  "sweep: booking %s is pending at nonce %d but the signer's pending nonce is already %d -- the earlier broadcast's tx hash was lost; recover it manually per RUNBOOK §15 before this (chain,token) can sweep again"⟩

def verifyNonce (chainID : Int) (nonce : Nat) : Sweep Unit := do
  let pendingNonce ← context "sweep: verify nonce before rebroadcast" (nextNonce chainID)
  ofResult (require (¬nonce < pendingNonce) orphanedBroadcast)

def broadcastSweep (cfg : SweepConfig) (b : Booking) (policy : SweepPolicy) (chainID : Int)
    (token : GoString) (nonce : Nat)
    (addrs : List GoString) : Sweep Unit := do
  let targets ← context "sweep: resolve targets" (sweepTargets addrs)
  let dispatchPrice ← context "sweep: dispatch gas price" (replacementGasPrice chainID nonce [])
  if dispatchPrice.greaterThan policy.gasCeiling then return
  let txHash ← context "sweep: batch sweep" (batchSweep cfg b.uid chainID token targets nonce [])
  call (.markSweepBroadcast b.uid)
  let _ ← context "sweep: transition sent"
    (transitionSweep (sweepTransition b.uid sent txHash .empty (sweepSentKey b.uid txHash)))
  call (.trackSweepTx b.uid txHash)

def dispatchSweep (cfg : SweepConfig) (b : Booking) (policy : SweepPolicy) (origin : SweepOrigin)
    (chainID : Int) (token : GoString)
    (nonce : Nat) (addrs : List GoString) : Sweep Unit := do
  if origin = .resumed then verifyNonce chainID nonce
  broadcastSweep cfg b policy chainID token nonce addrs

def recheckSweepSent (cfg : SweepConfig) (b : Booking) (policy : SweepPolicy) (chainID : Int)
    (token : GoString) (nonce : Nat)
    (addrs : List GoString) : Sweep Unit := do
  let tracked ← call (.currentSweepTx b.uid)
  let txHash := if tracked = [] then b.channelRef else tracked
  let included ← context "sweep: tx included" (try_ (.port (.txIncluded chainID txHash)) id)
  if included then
    let _ ← context "sweep: transition confirmed"
      (transitionSweep (sweepTransition b.uid confirmed txHash .empty (sweepConfirmedKey b.uid txHash)))
    call (.forgetSweepTx b.uid)
  else
    match ← call (.sweepWaited b.uid) with
    | none => call (.markSweepBroadcast b.uid)
    | some waited =>
      if waited < cfg.sweepStuckAfter then return
      let bumps ← call (.sweepBumpCount b.uid)
      if cfg.maxSweepBumps ≤ bumps then
        let _ ← context "sweep: transition failed"
          (transitionSweep (sweepTransition b.uid failed b.channelRef .empty (sweepFailedKey b.uid b.channelRef)))
        call (.forgetSweepTx b.uid)
      else
        let bumpPrice ← context "sweep: replacement gas price" (replacementGasPrice chainID nonce txHash)
        if bumpPrice.greaterThan policy.gasCeiling then return
        let targets ← context "sweep: resolve targets for gas-bump" (sweepTargets addrs)
        let newTxHash ← context "sweep: gas-bump rebroadcast" (batchSweep cfg b.uid chainID token targets nonce txHash)
        call (.trackSweepTx b.uid newTxHash)
        call (.bumpSweep b.uid)
        call (.markSweepBroadcast b.uid)

def advanceSweep (cfg : SweepConfig) (b : Booking) (policy : SweepPolicy) (origin : SweepOrigin) :
    Sweep Unit := do
  let chainID ← ofResult (orError ((b.metadata.get (lit "chain_id")).bind (parseInt 64))
    ⟨.invalidInput, "sweep: booking %s missing chain_id metadata"⟩)
  let token := (b.metadata.get (lit "token")).getD []
  let nonce ← ofResult (orError ((b.metadata.get (lit "nonce")).bind parseUint64)
    ⟨.invalidInput, "sweep: booking %s missing nonce metadata"⟩)
  let addrs := ((b.metadata.get (lit "addresses")).getD []).splitOn 0x2C
  if b.status = pending then dispatchSweep cfg b policy origin chainID token nonce addrs
  else if b.status = sent then recheckSweepSent cfg b policy chainID token nonce addrs
  else return

def batchMetadata (nonce : Nat) (eligible : List GoString) : Metadata :=
  .ofList [(lit "nonce", intText nonce), (lit "addresses", List.intercalate (lit ",") eligible)]

def reviveFailedSweep (cfg : SweepConfig) (failed : Booking) (nonce : Nat)
    (eligible : List GoString) (policy : SweepPolicy) : Sweep Unit := do
  let _ ← context "sweep: revive failed booking %s"
    (transitionSweep (sweepTransition failed.uid pending [] (batchMetadata nonce eligible)
    (sweepReviveKey failed.uid failed.channelRef)))
  let revived ← context "sweep: revive failed booking %s: reload"
    (try_ (.port (.getBooking failed.uid)) id)
  advanceSweep cfg revived policy .justCreated

def resolveSweepCurrency (cfg : SweepConfig) (chainID : Int) (token : GoString) :
    Sweep GoString := do
  let tc ← ofResult (orError (cfg.sweepTokens chainID token)
    ⟨.invalidInput, "sweep: token %q not in chain %d sweep_tokens allowlist"⟩)
  context "sweep" (try_ (.port (.currencyUID tc.currencyCode)) id)

def eligibleAddresses (policy : SweepPolicy) (balances : SortedMap GoString Decimal) :
    List (GoString × Decimal) :=
  let eligible := balances.entries.filter fun e => !policy.minThreshold.greaterThan e.2
  if policy.batchLimit < eligible.length then eligible.take policy.batchLimit.toNat else eligible

def createSweepInput (policy : SweepPolicy) (currencyUID : GoString) (nonce : Nat)
    (eligible : List (GoString × Decimal)) :
    CreateBookingInput :=
  { classificationCode := sweepClassificationCode
    accountHolder := sweepSystemHolder policy.chainID
    currencyUID := currencyUID
    amount := eligible.foldl (fun total e => total.add e.2) .zero
    idempotencyKey := lit "sweep-" ++ intText policy.chainID ++ lit "-" ++ policy.token ++
      lit "-" ++ intText nonce
    channelName := onchainChannelName
    metadata := .ofList [(lit "chain_id", intText policy.chainID), (lit "token", policy.token),
      (lit "nonce", intText nonce),
      (lit "addresses", List.intercalate (lit ",") (eligible.map (·.1)))]
    expiresAt := 0 }

def startSweep (cfg : SweepConfig) (policy : SweepPolicy) (failed : Option Booking)
    (eligible : List (GoString × Decimal)) : Sweep Unit := do
  let nonce ← context "sweep: next nonce" (nextNonce policy.chainID)
  let currencyUID ← resolveSweepCurrency cfg policy.chainID policy.token
  match failed with
  | some booking => reviveFailedSweep cfg booking nonce (eligible.map (·.1)) policy
  | none => do
    let booking ← context "sweep: create booking"
      (try_ (.port (.createBooking (createSweepInput policy currencyUID nonce eligible))) id)
    advanceSweep cfg booking policy .justCreated

def collectSweep (cfg : SweepConfig) (policy : SweepPolicy) : Sweep Unit := do
  let failed ← findFailedSweep policy.chainID policy.token
  let addrRows ← context "sweep: list addresses" (try_ (.port .listAddresses) id)
  if addrRows = [] then return
  let (balances, _) ← context "sweep: scan balances"
    (try_ (.scanBalances policy.chainID policy.token (addrRows.map (·.address))) id)
  let eligible := eligibleAddresses policy balances
  if eligible = [] then return
  startSweep cfg policy failed eligible

def sweepTick (cfg : SweepConfig) (policy : SweepPolicy) : Sweep Unit := do
  ofResult (require cfg.hasSweeper ⟨.invalidInput, "sweep: scanner/sweeper not configured"⟩)
  let _ ← ofResult (orError (cfg.onchain.chains.get policy.chainID)
    ⟨.invalidInput, "sweep: chain %d not configured"⟩)
  let price ← context "sweep: gas price" (gasPrice policy.chainID)
  if price.greaterThan policy.gasCeiling then return
  match ← findInFlightSweep policy.chainID policy.token with
  | some inFlight => advanceSweep cfg inFlight policy .resumed
  | none => collectSweep cfg policy

end Ledger.Service
