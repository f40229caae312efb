import Ledger.Service.OnchainRuns
import Ledger.Service.Sweeps

namespace Ledger.Service

open Chains Core Postgres Shared Sweep

abbrev SweepAnswers := List (Exchange SweepRequest SweepRequest.Answer)

section

variable {α : Type} {guar : SweepAnswers → SweepRequest → Prop} {ok : α → SweepAnswers → Prop}
  {err : Error → SweepAnswers → Prop} {h : SweepAnswers} {c : SweepRequest}

theorem sweep_call {ok : c.Answer → SweepAnswers → Prop} :
    Returns guar (call c) ok err h ↔ guar h c ∧ ∀ ans, ok ans (h ++ [⟨c, ans⟩]) := Iff.rfl

theorem sweep_try {answer : c.Answer → Result α} :
    Returns guar (try_ c answer) ok err h ↔ guar h c ∧ ∀ ans,
    (∀ a, answer ans = .ok a → ok a (h ++ [⟨c, ans⟩])) ∧
      ∀ e, answer ans = .error e → err e (h ++ [⟨c, ans⟩]) := by
  rw [try_, returns_mk]
  refine and_congr Iff.rfl (forall_congr' fun ans => ?_)
  rw [meets_done]
  cases answer ans <;> simp

theorem sweep_ofResult {r : Result α} :
    Returns guar (ofResult r) ok err h ↔ (∀ a, r = .ok a → ok a h) ∧
    ∀ e, r = .error e → err e h := by
  rw [ofResult, returns_mk]
  cases r <;> simp

theorem sweep_context {text : String} {t : Sweep α} :
    Returns guar (context text t) ok err h ↔ Returns guar t ok (fun e => err (e.wrap text)) h := by
  have unfolded : (context text t).run = t.run >>= fun r => .done (within text r) := rfl
  rw [Returns, unfolded, meets_bind, meets_run]
  exact Iff.rfl

end

structure Quotes where
  tip : Nat
  baseFee : Nat
  floor : Option FeeQuote
  before : FeeQuote

namespace Quotes

def bid (q : Quotes) : FeeQuote := bidOver q.baseFee q.tip q.floor

def see (q : Quotes) : Exchange SweepRequest SweepRequest.Answer → Quotes
  | ⟨.suggestGasTipCap _, .ok tip⟩ => ⟨tip, 0, none, q.bid⟩
  | ⟨.headerBaseFee _, .ok baseFee⟩ => { q with baseFee := baseFee.getD 0 }
  | ⟨.transactionByHash .., floor⟩ | ⟨.lastFee .., floor⟩ => { q with floor := floor }
  | _ => q

end Quotes

def quotes (h : SweepAnswers) : Quotes := h.foldl Quotes.see ⟨0, 0, none, ⟨0, 0⟩⟩

theorem quotes_append (h : SweepAnswers) (e : Exchange SweepRequest SweepRequest.Answer) :
    quotes (h ++ [e]) = (quotes h).see e := by
  rw [quotes, List.foldl_append]
  rfl

def Affordable (policy : SweepPolicy) (fee : FeeQuote) : Prop := (fee.gasFeeCap : ℚ) / 10 ^ 9 ≤
    policy.gasCeiling.val

theorem gwei_val (wei : Nat) : (gwei wei).val = (wei : ℚ) / 10 ^ 9 := by
  simp [gwei, normalizeAmount, weiGweiDecimals, Decimal.val, zpow_neg, div_eq_mul_inv]

theorem affordable_of_not_greaterThan {policy : SweepPolicy} {fee : FeeQuote}
    (below : ¬(gwei fee.gasFeeCap).greaterThan policy.gasCeiling = true) :
    Affordable policy fee := by
  rwa [Decimal.greaterThan_iff, not_lt, gwei_val] at below

theorem Affordable.mono {policy : SweepPolicy} {fee fee' : FeeQuote}
    (affordable : Affordable policy fee)
    (le : fee'.gasFeeCap ≤ fee.gasFeeCap) : Affordable policy fee' := by
  have le : (fee'.gasFeeCap : ℚ) ≤ fee.gasFeeCap := by exact_mod_cast le
  calc (fee'.gasFeeCap : ℚ) / 10 ^ 9 ≤ fee.gasFeeCap / 10 ^ 9 := by gcongr
    _ ≤ policy.gasCeiling.val := affordable

def FeeGate (policy : SweepPolicy) (h : SweepAnswers) : SweepRequest → Prop
  | .sendTransaction b => b.tx.fee = (quotes h).bid ∧ Affordable policy (quotes h).before
  | _ => True

def GateKept (policy : SweepPolicy) {α : Type} (t : Sweep α) (h : SweepAnswers) : Prop :=
  Returns (FeeGate policy) t (fun _ _ => True) (fun _ _ => True) h

variable {policy : SweepPolicy}

section

variable {α β : Type} {t : Sweep α} {f : α → Sweep β} {h : SweepAnswers} {text : String}

theorem GateKept.after {post : α → SweepAnswers → Prop}
    (first : Returns (FeeGate policy) t post (fun _ _ => True) h)
    (rest : ∀ a h', post a h' → GateKept policy (f a) h') : GateKept policy (t >>= f) h :=
  returns_bind.mpr (first.mono (fun a h' _ => rest a h') fun _ _ _ _ => trivial)

theorem GateKept.afterIn {post : α → SweepAnswers → Prop}
    (first : Returns (FeeGate policy) t post (fun _ _ => True) h)
    (rest : ∀ a h', post a h' → GateKept policy (f a) h') :
    GateKept policy (context text t >>= f) h :=
  .after (sweep_context.mpr first) rest

theorem gate_result (r : Result α) : GateKept policy (ofResult r) h := sweep_ofResult.mpr
    ⟨fun _ _ => trivial, fun _ _ => trivial⟩

variable {c : SweepRequest}

theorem gate_call (plain : FeeGate policy h c) : GateKept policy (call c) h := sweep_call.mpr
    ⟨plain, fun _ => trivial⟩

theorem gate_try {answer : c.Answer → Result α} (plain : FeeGate policy h c) :
    GateKept policy (try_ c answer) h :=
  sweep_try.mpr ⟨plain, fun _ => ⟨fun _ _ => trivial, fun _ _ => trivial⟩⟩

end

variable (chainID : Int)

theorem suggestGasTipCap_gated (h : SweepAnswers) :
    Returns (FeeGate policy) (suggestGasTipCap chainID)
    (fun tip h' => quotes h' = ⟨tip, 0, none, (quotes h).bid⟩) (fun _ _ => True) h := by
  refine sweep_try.mpr ⟨trivial, fun ans => ⟨fun tip answered => ?_, fun _ _ => trivial⟩⟩
  rw [quotes_append, show ans = .ok tip from answered]
  rfl

theorem headerBaseFee_gated (h : SweepAnswers) :
    Returns (FeeGate policy) (headerBaseFee chainID)
    (fun baseFee h' => quotes h' = { quotes h with baseFee := baseFee })
      (fun _ _ => True) h := by
  refine sweep_try.mpr ⟨trivial, fun ans => ⟨fun baseFee answered => ?_, fun _ _ => trivial⟩⟩
  obtain ⟨found, rfl, rfl⟩ := map_eq_ok.mp answered
  rw [quotes_append]
  rfl

theorem priorFeeFloor_gated (nonce : Nat) (prior : GoString) (h : SweepAnswers) :
    Returns (FeeGate policy) (priorFeeFloor chainID nonce prior)
    (fun floor h' => quotes h' = { quotes h with floor := floor })
      (fun _ _ => True) h := by
  have memory : ∀ h' : SweepAnswers, (∃ floor, quotes h' = { quotes h with floor := floor }) →
      Returns (FeeGate policy) (call (.lastFee chainID nonce))
        (fun floor h' => quotes h' = { quotes h with floor := floor })
        (fun _ _ => True) h' := by
    rintro h' ⟨floor, seen⟩
    refine sweep_call.mpr ⟨trivial, fun ans => ?_⟩
    rw [quotes_append, seen]
    rfl
  unfold priorFeeFloor
  split
  · exact memory h ⟨(quotes h).floor, rfl⟩
  · refine returns_bind.mpr (sweep_call.mpr ⟨trivial, fun ans => ?_⟩)
    have seen : quotes (h ++ [⟨.transactionByHash chainID prior, ans⟩]) =
      { quotes h with floor := ans } := by
      rw [quotes_append]
      rfl
    cases ans with
    | some fee => exact seen
    | none => exact memory _ ⟨none, seen⟩

theorem quoteFee_gated (nonce : Nat) (prior : GoString) (h : SweepAnswers) :
    Returns (FeeGate policy) (quoteFee chainID nonce prior)
      (fun fee h' => fee = (quotes h').bid ∧ (quotes h').before = (quotes h).bid)
      (fun _ _ => True) h := by
  unfold quoteFee
  refine returns_bind.mpr
    (sweep_context.mpr ((suggestGasTipCap_gated chainID h).mono (fun tip h₁ _ first => ?_)
      fun _ _ _ _ => trivial))
  refine returns_bind.mpr
    (sweep_context.mpr ((headerBaseFee_gated chainID h₁).mono (fun base h₂ _ second => ?_)
      fun _ _ _ _ => trivial))
  refine returns_bind.mpr ((priorFeeFloor_gated chainID nonce prior h₂).mono
    (fun floor h₃ _ third => ?_) fun _ _ _ _ => trivial)
  rw [returns_pure, third, second, first]
  exact ⟨rfl, rfl⟩

theorem sweepTargets_gated (addrs : List GoString) (h : SweepAnswers) :
    Returns (FeeGate policy) (sweepTargets addrs) (fun _ h' => quotes h' = quotes h)
    (fun _ _ => True) h := by
  induction addrs generalizing h with
  | nil => exact rfl
  | cons addr rest ih =>
    refine returns_bind.mpr
      (sweep_context.mpr (sweep_try.mpr ⟨trivial, fun ans => ⟨fun da _ => ?_, fun _ _ => trivial⟩⟩))
    refine returns_bind.mpr ((ih _).mono (fun targets h' _ kept => ?_) fun _ _ _ _ => trivial)
    rw [returns_pure, kept, quotes_append]
    rfl

variable {h : SweepAnswers} (cfg : SweepConfig)

theorem batchSweep_gated (uid : GoString) (chainID : Int) (token : GoString)
    (targets : List SweepTarget) (nonce : Nat)
    (prior : GoString) (gate : Affordable policy (quotes h).bid) :
    GateKept policy (batchSweep cfg uid chainID token targets nonce prior) h := by
  unfold batchSweep
  refine returns_bind.mpr (sweep_ofResult.mpr ⟨fun _ _ => ?_, fun _ _ => trivial⟩)
  refine returns_bind.mpr (sweep_ofResult.mpr ⟨fun chain _ => ?_, fun _ _ => trivial⟩)
  refine returns_bind.mpr (sweep_ofResult.mpr ⟨fun _ _ => ?_, fun _ _ => trivial⟩)
  refine returns_bind.mpr (sweep_ofResult.mpr ⟨fun _ _ => ?_, fun _ _ => trivial⟩)
  refine GateKept.after (quoteFee_gated chainID nonce prior h) fun fee h₁ quoted => ?_
  refine returns_bind.mpr
    (sweep_context.mpr (sweep_try.mpr ⟨trivial, fun estimate =>
      ⟨fun gas _ => ?_, fun _ _ => trivial⟩⟩))
  refine returns_bind.mpr
    (sweep_context.mpr (sweep_try.mpr ⟨trivial, fun signature =>
      ⟨fun hash _ => ?_, fun _ _ => trivial⟩⟩))
  -- Neither the estimate nor the signature is part of a quote.
  have kept : quotes ((h₁ ++ [⟨_, estimate⟩]) ++ [⟨_, signature⟩]) = quotes h₁ := by
    rw [quotes_append, quotes_append]
    rfl
  refine GateKept.afterIn (gate_try ?_) fun _ _ _ => .after (gate_call trivial) fun _ _ _ => trivial
  show fee = (quotes _).bid ∧ Affordable policy (quotes _).before
  rw [kept, quoted.2]
  exact ⟨quoted.1, gate⟩

theorem replacementGasPrice_gated (nonce : Nat) (prior : GoString) (h : SweepAnswers) :
    Returns (FeeGate policy) (replacementGasPrice chainID nonce prior)
      (fun price h' => ¬price.greaterThan policy.gasCeiling = true →
        Affordable policy (quotes h').bid) (fun _ _ => True) h := by
  refine returns_bind.mpr ((quoteFee_gated chainID nonce prior h).mono (fun fee h' _ quoted => ?_)
    fun _ _ _ _ => trivial)
  rw [returns_pure, quoted.1]
  exact affordable_of_not_greaterThan

section

variable (cfg : SweepConfig) (b : Booking) (chainID : Int) (token : GoString) (nonce : Nat)
  (addrs : List GoString) (h : SweepAnswers)

theorem broadcastSweep_gated :
    GateKept policy (broadcastSweep cfg b policy chainID token nonce addrs) h := by
  unfold broadcastSweep
  refine .afterIn (sweepTargets_gated addrs h) fun targets h₁ _ => ?_
  refine .afterIn (replacementGasPrice_gated chainID nonce [] h₁) fun price h₂ gate => ?_
  split
  · trivial
  rename_i below
  refine .afterIn (batchSweep_gated cfg b.uid chainID token targets nonce []
    (gate below)) fun hash h₃ _ => ?_
  refine .after (gate_call trivial) fun _ _ _ => ?_
  exact .afterIn (gate_try trivial) fun _ _ _ => gate_call trivial

theorem dispatchSweep_gated (origin : SweepOrigin) :
    GateKept policy (dispatchSweep cfg b policy origin chainID token nonce addrs) h := by
  unfold dispatchSweep verifyNonce
  split
  · refine .after (GateKept.afterIn (sweep_context.mpr (gate_try trivial)) fun _ _ _ =>
      gate_result _) fun _ h₁ _ => ?_
    exact broadcastSweep_gated cfg b chainID token nonce addrs h₁
  · exact broadcastSweep_gated cfg b chainID token nonce addrs h

theorem recheckSweepSent_gated :
    GateKept policy (recheckSweepSent cfg b policy chainID token nonce addrs) h := by
  unfold recheckSweepSent
  refine .after (gate_call trivial) fun tracked h₁ _ => ?_
  refine .afterIn (gate_try trivial) fun included h₂ _ => ?_
  split
  · exact .afterIn (gate_try trivial) fun _ _ _ => gate_call trivial
  refine .after (gate_call trivial) fun waited h₃ _ => ?_
  cases waited with
  | none => exact gate_call trivial
  | some waited =>
    dsimp only
    split
    · trivial
    refine .after (gate_call trivial) fun bumps h₄ _ => ?_
    split
    · exact .afterIn (gate_try trivial) fun _ _ _ => gate_call trivial
    refine .afterIn (replacementGasPrice_gated chainID nonce _ h₄) fun price h₅ gate => ?_
    split
    · trivial
    rename_i below
    refine .afterIn (sweepTargets_gated addrs h₅) fun targets h₆ kept => ?_
    rw [← kept] at gate
    refine .afterIn (batchSweep_gated cfg b.uid chainID token targets nonce _
      (gate below)) fun hash h₇ _ => ?_
    refine .after (gate_call trivial) fun _ _ _ => ?_
    exact .after (gate_call trivial) fun _ _ _ => gate_call trivial

theorem advanceSweep_gated (origin : SweepOrigin) :
    GateKept policy (advanceSweep cfg b policy origin) h := by
  unfold advanceSweep
  refine .after (gate_result _) fun chainID h₁ _ => .after (gate_result _) fun nonce h₂ _ => ?_
  split
  · exact dispatchSweep_gated cfg b chainID _ nonce _ h₂ origin
  split
  · exact recheckSweepSent_gated cfg b chainID _ nonce _ h₂
  · trivial

end

theorem search_gated (token classUID : GoString) (statuses : List Status) (h : SweepAnswers) :
    GateKept policy (findSweepBookingByStatus.search chainID token classUID statuses) h := by
  induction statuses generalizing h with
  | nil => trivial
  | cons status rest ih =>
    refine .afterIn (gate_try trivial) fun bookings h₁ _ => ?_
    split
    · trivial
    · exact ih h₁

theorem findSweepBookingByStatus_gated (token : GoString) (statuses : List Status)
    (h : SweepAnswers) :
    GateKept policy (findSweepBookingByStatus chainID token statuses) h :=
  .afterIn (gate_try trivial) fun classUID h₁ _ => search_gated chainID token classUID statuses h₁

theorem startSweep_gated (failed : Option Booking) (eligible : List (GoString × Decimal))
    (h : SweepAnswers) :
    GateKept policy (startSweep cfg policy failed eligible) h := by
  unfold startSweep resolveSweepCurrency
  refine .afterIn (sweep_context.mpr (gate_try trivial)) fun nonce h₁ _ => ?_
  refine .after (GateKept.after (gate_result _) fun tc _ _ => sweep_context.mpr (gate_try trivial))
    fun currencyUID h₂ _ => ?_
  cases failed with
  | some booking =>
    refine .afterIn (gate_try trivial) fun _ h₃ _ => .afterIn (gate_try trivial) fun revived h₄ _ => ?_
    exact advanceSweep_gated cfg revived h₄ .justCreated
  | none => exact .afterIn (gate_try trivial) fun booking h₃ _ => advanceSweep_gated cfg booking h₃ .justCreated

theorem collectSweep_gated (h : SweepAnswers) : GateKept policy (collectSweep cfg policy) h := by
  refine .after (findSweepBookingByStatus_gated policy.chainID policy.token [failed] h)
    fun failed h₁ _ => ?_
  refine .afterIn (gate_try trivial) fun addrRows h₂ _ => ?_
  split
  · trivial
  refine .afterIn (gate_try trivial) fun scanned h₃ _ => ?_
  dsimp only
  split
  · trivial
  · exact startSweep_gated cfg failed _ h₃

theorem sweepTick_gated (h : SweepAnswers) : GateKept policy (sweepTick cfg policy) h := by
  have price : ∀ h, GateKept policy (gasPrice policy.chainID) h := fun h =>
    .afterIn (gate_try trivial) fun _ _ _ => .afterIn (gate_try trivial) fun _ _ _ => trivial
  unfold sweepTick
  refine .after (gate_result _) fun _ h₁ _ => .after (gate_result _) fun _ h₂ _ => ?_
  refine .afterIn (price h₂) fun price h₃ _ => ?_
  split
  · trivial
  refine .after (findSweepBookingByStatus_gated policy.chainID policy.token [pending, sent] h₃)
    fun inFlight h₄ _ => ?_
  cases inFlight with
  | some booking => exact advanceSweep_gated cfg booking h₄ .resumed
  | none => exact collectSweep_gated cfg h₄

def SentAfter (h before : SweepAnswers) (b : Broadcast) : Prop := ∃ ans after, h = before ++
    ⟨.sendTransaction b, ans⟩ :: after

theorem SentAfter.gated {cfg : SweepConfig} {before : SweepAnswers} {b : Broadcast}
    (follows : Follows (sweepTick cfg policy).run h) (sent : SentAfter h before b) :
    b.tx.fee = (quotes before).bid ∧ Affordable policy (quotes before).before := by
  obtain ⟨ans, after, split⟩ := sent
  exact Meets.follows (sweepTick_gated cfg []) follows split

/-- The quote that is signed is not the quote that was compared with the ceiling. The ceiling bounds
every transaction of a tick in which no second quote is above the one compared, and a transaction is
within every ceiling that lets its compared quote pass only then. -/
theorem gas_ceiling_iff (cfg : SweepConfig) (policy : SweepPolicy) (h : SweepAnswers)
    (follows : Follows (sweepTick cfg policy).run h) :
    ((∀ before b, SentAfter h before b →
        (quotes before).bid.gasFeeCap ≤ (quotes before).before.gasFeeCap) →
      ∀ before b, SentAfter h before b → Affordable policy b.tx.fee) ∧
    ∀ before b, SentAfter h before b →
      ((∀ policy', Affordable policy' (quotes before).before → Affordable policy' b.tx.fee) ↔
        (quotes before).bid.gasFeeCap ≤ (quotes before).before.gasFeeCap) := by
  constructor
  · intro steady before b sent
    obtain ⟨fee, gate⟩ := sent.gated follows
    rw [fee]
    exact gate.mono (steady before b sent)
  · intro before b sent
    rw [(sent.gated follows).1]
    constructor
    · intro bounded
      -- The ceiling that is just met by the compared quote.
      have met := bounded { policy with gasCeiling := gwei (quotes before).before.gasFeeCap }
        (gwei_val _).ge
      rw [Affordable, gwei_val, div_le_div_iff_of_pos_right (by positivity)] at met
      exact_mod_cast met
    · intro le policy' affordable
      exact affordable.mono le

/-! Two tokens on one chain, one signer, and one deposit address that holds enough of both. -/

namespace SweepSample

open OnchainSample

def tokenA : GoString := lit "0xa"
def tokenB : GoString := lit "0xb"

def chain : ChainConfig :=
  { chainConfig with factory := lit "0x" ++ List.replicate 40 0x30, initHash := lit "0x" ++ List.replicate 64 0x30 }

def config : SweepConfig :=
  { onchain := { OnchainSample.config with chains := .ofList [(1, chain)] }
    hasSweeper := true
    sweepTokens := fun _ _ => some tokenConfig
    sweepStuckAfter := 60
    maxSweepBumps := 2 }

def policyOf (token : GoString) : SweepPolicy := ⟨1, token, ⟨1, 0⟩, ⟨1, 0⟩, 10⟩

def address : GoString := toChecksumAddress keccak (List.replicate 40 0)

def world : SweepWorld where
  base := { OnchainSample.world with
    bookings := { OnchainSample.world.bookings with
      store := { OnchainSample.store with ledger := { OnchainSample.store.ledger with
        classifications := OnchainSample.store.ledger.classifications ++
          [⟨4, uid 9, sweepClassificationCode, .credit, false, true, .none⟩] } }
      lifecycles := [(3, depositLifecycle), (4, sweepLifecycle)] }
    addresses := [⟨uid 7, 7, address, [], []⟩] }
  memory := .fresh
  node := fun _ => ⟨0, []⟩

structure Script where
  -- Of call number `n`, in wei.
  tip : Nat → Nat
  hash : GoString
  now : Instant
  -- The store cannot be reached for call number `n`.
  down : Nat → Bool

variable (script : Script)

def askPort (n : Nat) (w : World) (c : PortCall) : c.Answer × World :=
  match script.down n, c.refuse ⟨.other, "connection refused"⟩ with
  | true, some ans => (ans, w)
  | _, _ => perform config.onchain (draw n) w c

theorem askPort_serves (n : Nat) (w : World) (c : PortCall) :
    Serves config.onchain w c (askPort script n w c).1 (askPort script n w c).2 := by
  unfold askPort
  split
  · rename_i ans _ refused
    exact .outage _ ans refused rfl
  · exact .answered (draw n)

def answer (n : Nat) (w : SweepWorld) : (c : SweepRequest) → c.Answer × SweepWorld
  | .port c => ((askPort script n w.base c).1, { w with base := (askPort script n w.base c).2 })
  | .listBookings uid status => (sweepBookings w.base.bookings uid status, w)
  | .scanBalances .. => (.ok (.ofList [(address, ⟨5, 0⟩)], []), w)
  | .suggestGasTipCap _ => (.ok (script.tip n), w)
  | .headerBaseFee _ => (.ok (some 0), w)
  | .transactionByHash .. => (none, w)
  | .pendingNonceAt chainID => (.ok (w.node chainID).pendingNonce, w)
  | .estimateGas _ => (.ok 0, w)
  | .signTx _ => (.ok script.hash, w)
  | .sendTransaction b => (.ok (), w.accept b)
  | .currentSweepTx uid => (w.memory.sweepTx uid, w)
  | .trackSweepTx uid txHash =>
    ((), w.remember { w.memory with sweepTx := Function.update w.memory.sweepTx uid txHash })
  | .forgetSweepTx uid => ((), w.remember { w.memory with
      sweepTx := Function.update w.memory.sweepTx uid []
      sweepBump := Function.update w.memory.sweepBump uid 0
      sweepClock := Function.update w.memory.sweepClock uid none })
  | .markSweepBroadcast uid =>
    ((), w.remember { w.memory with sweepClock := Function.update w.memory.sweepClock uid (some script.now) })
  | .sweepWaited uid => ((w.memory.sweepClock uid).map (script.now - ·), w)
  | .sweepBumpCount uid => (w.memory.sweepBump uid, w)
  | .bumpSweep uid =>
    ((), w.remember { w.memory with sweepBump := Function.update w.memory.sweepBump uid (w.memory.sweepBump uid + 1) })
  | .lastFee chainID nonce => (w.memory.lastFee chainID nonce, w)
  | .recordFee chainID nonce fee => ((), w.remember (w.memory.recordFee chainID nonce fee))

theorem answer_serves (n : Nat) (w : SweepWorld) (c : SweepRequest) :
    SweepServes config w c (answer script n w c).1 (answer script n w c).2 := by
  cases c with
  | port c => exact ⟨_, askPort_serves script n w.base c, rfl⟩
  | listBookings uid status | pendingNonceAt chainID => exact ⟨rfl, .inl rfl⟩
  | sendTransaction b => exact .inl rfl
  | markSweepBroadcast uid => exact ⟨script.now, rfl⟩
  | sweepWaited uid => exact ⟨rfl, script.now, rfl⟩
  | currentSweepTx uid | sweepBumpCount uid | lastFee chainID nonce => exact ⟨rfl, rfl⟩
  | _ => exact rfl

def tick (n : Nat) (token : GoString) (w : SweepWorld) : Result Unit × SweepWorld × SweepAnswers :=
  (sweepTick config (policyOf token)).run.play (answer script) n w

def jump : Script := ⟨fun n => if n < 15 then 1000000000 else 5000000000, lit "0xh1", 0, fun _ =>
    false⟩

def sends : SweepAnswers → List Broadcast
  | [] => []
  | ⟨.sendTransaction b, _⟩ :: rest => b :: sends rest
  | _ :: rest => sends rest

theorem sentAfter_of_mem_sends {b : Broadcast} (member : b ∈ sends h) :
    ∃ before, SentAfter h before b := by
  fun_induction sends h with
  | case1 => exact absurd member List.not_mem_nil
  | case2 b' ans rest ih =>
    cases member with
    | head => exact ⟨[], ans, rest, rfl⟩
    | tail _ member =>
      obtain ⟨before, ans', after, split⟩ := ih member
      exact ⟨⟨.sendTransaction b', ans⟩ :: before, ans', after, by rw [split]; rfl⟩
  | case3 e rest _ ih =>
    obtain ⟨before, ans, after, split⟩ := ih member
    exact ⟨e :: before, ans, after, by rw [split]; rfl⟩

/-- Whether the answer number `i` is to a broadcast whose quote is not above the one compared. -/
def steadyAt (h : SweepAnswers) (i : Nat) : Bool :=
  match h[i]? with
  | some ⟨.sendTransaction _, _⟩ =>
    decide ((quotes (h.take i)).bid.gasFeeCap ≤ (quotes (h.take i)).before.gasFeeCap)
  | _ => true

theorem steady_of_all {before : SweepAnswers} {b : Broadcast}
    (all : (List.range h.length).all (steadyAt h) = true) (sent : SentAfter h before b) :
    (quotes before).bid.gasFeeCap ≤ (quotes before).before.gasFeeCap := by
  obtain ⟨ans, after, rfl⟩ := sent
  have here := List.all_eq_true.mp all before.length (List.mem_range.mpr (by simp))
  simpa [steadyAt] using here

def calm : Script := ⟨fun _ => 1000000000, lit "0xh1", 0, fun _ => false⟩

def calmed : SweepAnswers := (tick calm 0 tokenA world).2.2

def jumped : SweepAnswers := (tick jump 0 tokenA world).2.2

theorem follows_jumped : Follows (sweepTick config (policyOf tokenA)).run jumped := follows_play ..

theorem sends_jumped : ∃ before b, SentAfter jumped before b ∧ b.tx.fee = ⟨5000000000, 5000000000⟩ := by
  have fees : (sends jumped).map (·.tx.fee) = [⟨5000000000, 5000000000⟩] := by decide +kernel
  obtain ⟨b, member, fee⟩ := List.mem_map.mp (fees ▸ List.mem_singleton_self _)
  obtain ⟨before, sent⟩ := sentAfter_of_mem_sends member
  exact ⟨before, b, sent, fee⟩

end SweepSample

open SweepSample in
theorem gas_ceiling_iff_calmed : (∃ before b, SentAfter calmed before b) ∧
    ∀ before b, SentAfter calmed before b → Affordable (policyOf tokenA) b.tx.fee := by
  have fees : (sends calmed).map (·.tx.fee) = [⟨1000000000, 1000000000⟩] := by decide +kernel
  obtain ⟨b, member, -⟩ := List.mem_map.mp (fees ▸ List.mem_singleton_self _)
  obtain ⟨before, sent⟩ := sentAfter_of_mem_sends member
  refine ⟨⟨before, b, sent⟩, (gas_ceiling_iff config _ _ (follows_play ..)).1 fun before b sent => ?_⟩
  exact steady_of_all (by decide +kernel) sent

open SweepSample in
/-- The tip rises between the quote that is compared with the ceiling and the quote that is signed.
-/
theorem fee_above_ceiling : ∃ before b,
    Follows (sweepTick config (policyOf tokenA)).run jumped ∧ SentAfter jumped before b ∧
      ¬Affordable (policyOf tokenA) b.tx.fee := by
  obtain ⟨before, b, sent, fee⟩ := sends_jumped
  refine ⟨before, b, follows_jumped, sent, ?_⟩
  rw [fee]
  norm_num [Affordable, policyOf, Decimal.val]

end Ledger.Service
