import Ledger.Service.OnchainPorts
import Ledger.Shared.SerialRuns

namespace Ledger.Service

open Chains Core Postgres Shared

structure SweepPolicy where
  chainID : Int
  token : GoString
  minThreshold : Decimal
  gasCeiling : Decimal
  batchLimit : Int

structure SweepConfig where
  onchain : OnchainConfig
  hasSweeper : Bool
  -- `ChainConfig.SweepTokens`, by chain and token.
  sweepTokens : Int → GoString → Option TokenConfig
  sweepStuckAfter : Int
  maxSweepBumps : Int

structure FeeQuote where
  gasFeeCap : Nat
  gasTipCap : Nat
deriving DecidableEq

structure SweepTarget where
  address : GoString
  accountHolder : Int

structure SweepTx where
  chainID : Int
  nonce : Nat
  fee : FeeQuote
  gas : Nat
  holders : List Int
  token : GoString
deriving DecidableEq

/-- A transaction handed to the node. The booking it was made for is kept for the record only. -/
structure Broadcast where
  bookingUID : GoString
  tx : SweepTx
  hash : GoString
deriving DecidableEq

structure Node where
  pendingNonce : Nat
  accepted : List Broadcast

def Node.accept (n : Node) (b : Broadcast) : Node :=
  ⟨if b.tx.nonce = n.pendingNonce then n.pendingNonce + 1 else n.pendingNonce, n.accepted ++ [b]⟩

structure SweepMemory where
  sweepTx : GoString → GoString
  sweepBump : GoString → Int
  sweepClock : GoString → Option Instant
  lastFee : Int → Nat → Option FeeQuote

def SweepMemory.fresh : SweepMemory := ⟨fun _ => [], fun _ => 0, fun _ => none, fun _ _ => none⟩

structure SweepWorld where
  base : World
  memory : SweepMemory
  node : Int → Node

inductive SweepRequest where
  | port (c : PortCall)
  -- All pages of `ListBookings`.
  | listBookings (classificationUID : GoString) (status : Status)
  | scanBalances (chainID : Int) (token : GoString) (addresses : List GoString)
  | suggestGasTipCap (chainID : Int)
  | headerBaseFee (chainID : Int)
  | transactionByHash (chainID : Int) (hash : GoString)
  | pendingNonceAt (chainID : Int)
  | estimateGas (tx : SweepTx)
  | signTx (tx : SweepTx)
  | sendTransaction (b : Broadcast)
  | currentSweepTx (uid : GoString)
  | trackSweepTx (uid hash : GoString)
  | forgetSweepTx (uid : GoString)
  | markSweepBroadcast (uid : GoString)
  | sweepWaited (uid : GoString)
  | sweepBumpCount (uid : GoString)
  | bumpSweep (uid : GoString)
  | lastFee (chainID : Int) (nonce : Nat)
  | recordFee (chainID : Int) (nonce : Nat) (fee : FeeQuote)

@[reducible] def SweepRequest.Answer : SweepRequest → Type
  | .port c => c.Answer
  | .listBookings .. => Result (List Booking)
  | .scanBalances .. => Result (SortedMap GoString Decimal × List GoString)
  | .suggestGasTipCap _ | .pendingNonceAt _ | .estimateGas _ => Result Nat
  | .headerBaseFee _ => Result (Option Nat)
  -- Nothing for an error, for no transaction and for one without a fee cap.
  | .transactionByHash .. | .lastFee .. => Option FeeQuote
  | .signTx _ => Result GoString
  | .sendTransaction _ => Result Unit
  | .currentSweepTx _ => GoString
  | .trackSweepTx .. | .forgetSweepTx _ | .markSweepBroadcast _ | .bumpSweep _ | .recordFee .. =>
    Unit
  -- How long the booking has waited, if this process knows.
  | .sweepWaited _ => Option Int
  | .sweepBumpCount _ => Int

def sweepBookings (s : BookingTables) (classificationUID : GoString) (status : Status) :
    Result (List Booking) := do
  let cls ← s.store.classByUIDOrErr classificationUID
  textParam status
  collect (bookingFromRow s)
    ((s.store.bookings.filter fun row => row.classificationID == cls.id && row.status ==
      status).insertionSort
    fun a b => a.id ≤ b.id)

namespace SweepWorld

def remember (w : SweepWorld) (m : SweepMemory) : SweepWorld := { w with memory := m }

def accept (w : SweepWorld) (b : Broadcast) : SweepWorld :=
  { w with node := Function.update w.node b.tx.chainID ((w.node b.tx.chainID).accept b) }

end SweepWorld

def SweepMemory.recordFee (m : SweepMemory) (chainID : Int) (nonce : Nat)
    (fee : FeeQuote) : SweepMemory :=
  { m with lastFee := Function.update m.lastFee chainID fun n =>
      if n = nonce then some fee else if n < nonce then none else m.lastFee chainID n }

/-- How a call can be answered. An error of `SendTransaction` may hide that the node has the
transaction. -/
def SweepServes (cfg : SweepConfig) (w : SweepWorld) : (c : SweepRequest) →
    c.Answer → SweepWorld → Prop
  | .port c, ans, w' => ∃ base, Serves cfg.onchain w.base c ans base ∧ w' = { w with base := base }
  | .listBookings uid status, ans, w' =>
    w' = w ∧ (ans = sweepBookings w.base.bookings uid status ∨ ∃ err, ans = .error err)
  | .scanBalances .., _, w' | .suggestGasTipCap _, _, w' | .headerBaseFee _, _, w' | .transactionByHash .., _, w'
  | .estimateGas _, _, w' | .signTx _, _, w' => w' = w
  | .pendingNonceAt chainID, ans, w' =>
    w' = w ∧ (ans = .ok (w.node chainID).pendingNonce ∨ ∃ err, ans = .error err)
  | .sendTransaction b, ans, w' => w' = w.accept b ∨ w' = w ∧ ∃ err, ans = .error err
  | .currentSweepTx uid, ans, w' => w' = w ∧ ans = w.memory.sweepTx uid
  | .trackSweepTx uid hash, _, w' =>
    w' = w.remember { w.memory with sweepTx := Function.update w.memory.sweepTx uid hash }
  | .forgetSweepTx uid, _, w' =>
    w' = w.remember { w.memory with
      sweepTx := Function.update w.memory.sweepTx uid []
      sweepBump := Function.update w.memory.sweepBump uid 0
      sweepClock := Function.update w.memory.sweepClock uid none }
  | .markSweepBroadcast uid, _, w' =>
    ∃ now, w' = w.remember { w.memory with sweepClock := Function.update w.memory.sweepClock uid (some now) }
  | .sweepWaited uid, ans, w' => w' = w ∧ ∃ now, ans = (w.memory.sweepClock uid).map (now - ·)
  | .sweepBumpCount uid, ans, w' => w' = w ∧ ans = w.memory.sweepBump uid
  | .bumpSweep uid, _, w' =>
    w' = w.remember { w.memory with sweepBump := Function.update w.memory.sweepBump uid (w.memory.sweepBump uid + 1) }
  | .lastFee chainID nonce, ans, w' => w' = w ∧ ans = w.memory.lastFee chainID nonce
  | .recordFee chainID nonce fee, _, w' => w' = w.remember (w.memory.recordFee chainID nonce fee)

end Ledger.Service
