import Ledger.Service.SweepNonces

namespace Ledger.Service

open Chains Core Postgres Shared Sweep

def Included (w : SweepWorld) (chainID : Int) (hash : GoString) :
    Bool := Chains.txIncluded (w.base.chains chainID) hash

def trackedHash (w : SweepWorld) (row : BookingRow) : GoString :=
  if w.memory.sweepTx (pgToUID row.uid) = [] then row.channelRef
    else w.memory.sweepTx (pgToUID row.uid)

def NonceSpent (w : SweepWorld) (chainID : Int) (nonce : Nat) : Prop :=
  ∃ b ∈ (w.node chainID).accepted, b.tx.nonce = nonce ∧ Included w chainID b.hash = true

def Accepts (s : BookingTables) (input : TransitionInput) :
    Prop := ∃ (d : Draw) (s' : BookingTables) (evt : Event), transition
    (d.env 0) s input = .ok (s', evt)

def PortCall.Willing (s : BookingTables) : (c : PortCall) → c.Answer → Prop
  | .transition input, ans => Accepts s input → ∃ evt, ans = .ok evt
  | _, _ => True

structure Market where
  tip : Nat
  baseFee : Nat

/-- Calls with a working store, node and signer at the instant `now`. A transaction is refused
exactly at a nonce that is spent, and a new one is not mined yet. -/
def WorkServes (cfg : SweepConfig) (market : Market) (now : Instant) (w : SweepWorld) :
    (c : SweepRequest) → c.Answer → SweepWorld → Prop
  | .port c, ans, w' =>
  (∃ d, ans = (perform cfg.onchain d w.base c).1 ∧ w' =
  { w with base := (perform cfg.onchain d w.base c).2 }) ∧
      c.Willing w.base.bookings ans
  | .listBookings uid status, ans, w' => w' = w ∧ ans = sweepBookings w.base.bookings uid status
  | .scanBalances .., ans, w' => w' = w ∧ ∃ scanned, ans = .ok scanned
  | .suggestGasTipCap _, ans, w' => w' = w ∧ ∃ tip, tip ≤ market.tip ∧ ans = .ok tip
  | .headerBaseFee _, ans, w' =>
    w' = w ∧ ∃ fee : Option Nat, fee.getD 0 ≤ market.baseFee ∧ ans = .ok fee
  | .transactionByHash .., _, w' => w' = w
  | .pendingNonceAt chainID, ans, w' => w' = w ∧ ans = .ok (w.node chainID).pendingNonce
  | .estimateGas _, ans, w' => w' = w ∧ ∃ gas, ans = .ok gas
  | .signTx tx, ans, w' =>
    w' = w ∧ ∃ hash, hash ≠ [] ∧
    (Included w tx.chainID hash = true → NonceSpent w tx.chainID tx.nonce) ∧
      ans = .ok hash
  | .sendTransaction b, ans, w' =>
    (NonceSpent w b.tx.chainID b.tx.nonce ∧ w' = w ∧ ∃ err, ans = .error err) ∨
      (¬NonceSpent w b.tx.chainID b.tx.nonce ∧ w' = w.accept b ∧ ans = .ok ())
  | .markSweepBroadcast uid, _, w' =>
    w' = w.remember
      { w.memory with sweepClock := Function.update w.memory.sweepClock uid (some now) }
  | .sweepWaited uid, ans, w' => w' = w ∧ ans = (w.memory.sweepClock uid).map (now - ·)
  | c, ans, w' => SweepServes cfg w c ans w'

variable {w : SweepWorld}

theorem WorkServes.serves {cfg : SweepConfig} {market : Market} {now : Instant}
    {w' : SweepWorld} {c : SweepRequest}
    {ans : c.Answer} (served : WorkServes cfg market now w c ans w') :
    SweepServes cfg w c ans w' := by
  cases c with
  | port c =>
    obtain ⟨⟨d, rfl, rfl⟩, -⟩ := served
    exact ⟨_, .answered d, rfl⟩
  | listBookings uid status | pendingNonceAt chainID => exact ⟨served.1, .inl served.2⟩
  | sendTransaction b =>
    rcases served with ⟨-, same, failed⟩ | ⟨-, sent, -⟩
    · exact .inr ⟨same, failed⟩
    · exact .inl sent
  | markSweepBroadcast uid => exact ⟨now, served⟩
  | sweepWaited uid => exact ⟨served.1, now, served.2⟩
  | scanBalances | suggestGasTipCap | headerBaseFee | estimateGas | signTx => exact served.1
  | _ => exact served

def WorkingTick (cfg : SweepConfig) (policy : SweepPolicy) (market : Market) (now : Instant)
    (w w' : SweepWorld) : Prop :=
  ∃ r, Ran (WorkServes cfg market now) (sweepTick cfg policy).run w (some r) w'

def Finished (policy : SweepPolicy) (uid : Uuid) (w : SweepWorld) : Prop :=
  (∃ row ∈ w.base.bookings.store.bookings, row.uid = uid ∧ row.status = confirmed) ∧
    Searched w.base.bookings policy.chainID policy.token [pending, sent] none

def Completes (cfg : SweepConfig) (policy : SweepPolicy) (market : Market) (uid : Uuid)
    (w : SweepWorld) : Prop :=
  ∀ (now : Nat → Instant) (σ : Nat → SweepWorld), (∀ i, now i ≤ now (i + 1)) →
    (∀ t, ∃ i, t ≤ now i) → σ 0 = w →
    (∀ i, WorkingTick cfg policy market (now i) (σ i) (σ (i + 1))) → ∃ i, Finished policy uid (σ i)

def confirmation (w : SweepWorld) (row : BookingRow) : TransitionInput :=
  sweepTransition (pgToUID row.uid) confirmed (trackedHash w row) .empty
    (sweepConfirmedKey (pgToUID row.uid) (trackedHash w row))

structure SweepBooking (cfg : SweepConfig) (policy : SweepPolicy) (market : Market) (w : SweepWorld)
    (row : BookingRow) : Prop where
  rows : DepositRows w.base.bookings
  classes : UniqueClasses w.base.bookings.store
  readable : ∀ r ∈ w.base.bookings.store.bookings, ∃ b, bookingFromRow w.base.bookings r = .ok b
  member : row ∈ w.base.bookings.store.bookings
  sweep : IsSweep w.base.bookings.store row
  token : ForToken policy.chainID policy.token row.metadata
  nonce : ∃ n, (row.metadata.get (lit "nonce")).bind parseUint64 = some n
  -- No other sweep of the token is open.
  alone : ∀ r ∈ w.base.bookings.store.bookings, IsSweep w.base.bookings.store r →
    ForToken policy.chainID policy.token r.metadata →
    r.status = pending ∨ r.status = sent → r = row
  -- A cycle that is still sent has not been closed before.
  unclosed : row.status = sent → ∀ r ∈ w.base.bookings.receipts,
    r.idempotencyKey ≠ sweepFailedKey (pgToUID row.uid) row.channelRef ∧
      r.idempotencyKey ≠ sweepConfirmedKey (pgToUID row.uid) (trackedHash w row)
  lifecycle : ∀ cls, w.base.bookings.store.ledger.getClassification
    row.classificationID = some cls →
    w.base.bookings.lifecycle cls.id = some sweepLifecycle
  -- The transaction's hash is text that no other booking of the channel has for its channel_ref.
  storable : row.status = sent → Storable w.base.bookings row (confirmation w row) ∧
    textFits (confirmation w row).idempotencyKey = true
  -- The uids of events are not exhausted.
  unnamed : ∃ uid, ∀ e ∈ w.base.bookings.store.events, e.uid ≠ uid
  -- The hashes are not exhausted.
  fresh : ∃ hash, hash ≠ [] ∧ (∀ chainID, Included w chainID hash = false) ∧
    ∀ r ∈ w.base.bookings.receipts, r.idempotencyKey ≠ sweepFailedKey (pgToUID row.uid) hash
  sweeper : cfg.hasSweeper = true
  configured : (cfg.onchain.chains.get policy.chainID).isSome = true
  inRange : -2 ^ 63 ≤ policy.chainID ∧ policy.chainID < 2 ^ 63
  affordable : ¬(gwei (feeCapBasis market.baseFee market.tip)).greaterThan policy.gasCeiling = true

structure Silent (w w' : SweepWorld) : Prop where
  bookings : w'.base.bookings = w.base.bookings
  chains : w'.base.chains = w.base.chains
  sweepTx : w'.memory.sweepTx = w.memory.sweepTx

instance : IsPreorder SweepWorld Silent where
  refl _ := ⟨rfl, rfl, rfl⟩
  trans _ _ _ first second :=
    ⟨second.bookings.trans first.bookings, second.chains.trans first.chains,
      second.sweepTx.trans first.sweepTx⟩

def Barren (hash : GoString) : (c : SweepRequest) → c.Answer → Prop
  | .scanBalances .., ans => ans = .ok (.empty, [])
  | .signTx _, ans => ans = .ok hash
  | _, _ => True

def BarrenServes (cfg : SweepConfig) (market : Market) (now : Instant) (hash : GoString)
    (w : SweepWorld) (c : SweepRequest) (ans : c.Answer)
    (w' : SweepWorld) : Prop := WorkServes cfg market now w c ans w' ∧ Barren hash c ans

section

variable {cfg : SweepConfig} {market : Market} {now : Instant} {hash : GoString} {w w' : SweepWorld}

theorem perform_chains (cfg : OnchainConfig) (d : Draw) (w : World) (c : PortCall) :
    (perform cfg d w c).2.chains = w.chains := by
  have written := @perform_written cfg w d c
  generalize (perform cfg d w c).2 = after at written
  cases written <;> rfl

theorem reads_working : Reads (WorkServes cfg market now) Silent := by
  intro c reads w ans w' served
  have still := still_of_quiet (SweepRequest.isQuiet_of_isRead reads) served.serves
  cases c with
  | port c =>
    obtain ⟨⟨d, -, rfl⟩, -⟩ := served
    exact ⟨still.bookings, perform_chains ..,  rfl⟩
  | transactionByHash =>
    obtain rfl := served
    exact refl_of Silent _
  | listBookings | scanBalances | suggestGasTipCap | headerBaseFee | pendingNonceAt | estimateGas
  | signTx | currentSweepTx | sweepWaited
  | sweepBumpCount | lastFee =>
    obtain rfl := served.1
    exact refl_of Silent _
  | _ => cases reads

theorem reads_silent : Reads (BarrenServes cfg market now hash) Silent :=
  fun c reads w ans w' served => reads_working c reads w ans w' served.1

theorem barren_total (nonempty : hash ≠ []) (w : SweepWorld) (c : SweepRequest)
    (unmined : ∀ chainID, Included w chainID hash = false) :
    ∃ ans w', BarrenServes cfg market now hash w c ans w' ∧
    ∀ chainID, Included w' chainID hash = false := by
  cases c with
  | port c =>
    have drawn : ∃ d, c.Willing w.base.bookings (perform cfg.onchain d w.base c).1 := by
      cases c with
      | transition input =>
        by_cases accepted : Accepts w.base.bookings input
        · obtain ⟨d, s', evt, ok⟩ := accepted
          refine ⟨d, fun _ => ⟨evt, ?_⟩⟩
          simp only [perform, ok, World.write]
        · exact ⟨⟨0, [], []⟩, fun accepts => absurd accepts accepted⟩
      | _ => exact ⟨⟨0, [], []⟩, trivial⟩
    obtain ⟨d, willing⟩ := drawn
    refine ⟨_, _, ⟨⟨⟨d, rfl, rfl⟩, willing⟩, trivial⟩, fun chainID => ?_⟩
    rw [Included, perform_chains]
    exact unmined chainID
  | sendTransaction b =>
    by_cases spent : NonceSpent w b.tx.chainID b.tx.nonce
    · exact ⟨.error ⟨.other, "nonce too low"⟩, w, ⟨.inl ⟨spent, rfl, _, rfl⟩, trivial⟩, unmined⟩
    · exact ⟨.ok (), w.accept b, ⟨.inr ⟨spent, rfl, rfl⟩, trivial⟩, unmined⟩
  | listBookings uid status => exact ⟨_, w, ⟨⟨rfl, rfl⟩, trivial⟩, unmined⟩
  | scanBalances => exact ⟨_, w, ⟨⟨rfl, _, rfl⟩, rfl⟩, unmined⟩
  | suggestGasTipCap => exact ⟨.ok 0, w, ⟨⟨rfl, 0, Nat.zero_le _, rfl⟩, trivial⟩, unmined⟩
  | headerBaseFee => exact ⟨.ok none, w, ⟨⟨rfl, none, Nat.zero_le _, rfl⟩, trivial⟩, unmined⟩
  | transactionByHash => exact ⟨none, w, ⟨rfl, trivial⟩, unmined⟩
  | pendingNonceAt => exact ⟨_, w, ⟨⟨rfl, rfl⟩, trivial⟩, unmined⟩
  | estimateGas => exact ⟨.ok 0, w, ⟨⟨rfl, 0, rfl⟩, trivial⟩, unmined⟩
  | signTx tx => exact ⟨_, w, ⟨⟨rfl, hash, nonempty, fun mined => absurd mined (by simp [unmined]), rfl⟩, rfl⟩, unmined⟩
  | currentSweepTx | sweepWaited | sweepBumpCount | lastFee =>
    exact ⟨_, w, ⟨⟨rfl, rfl⟩, trivial⟩, unmined⟩
  | trackSweepTx | forgetSweepTx | markSweepBroadcast | bumpSweep | recordFee =>
    exact ⟨(), _, ⟨rfl, trivial⟩, unmined⟩

def Unfailed (s : BookingTables) (uid : Uuid) (ref : GoString) : Prop :=
  ∀ r ∈ s.receipts, r.idempotencyKey ≠ sweepFailedKey (pgToUID uid) ref

structure Stalled (policy : SweepPolicy) (uid : Uuid) (hash : GoString)
    (w : SweepWorld) : Prop where
  rows : DepositRows w.base.bookings
  classes : UniqueClasses w.base.bookings.store
  unmined : ∀ chainID, Included w chainID hash = false
  only : ∀ r ∈ w.base.bookings.store.bookings, IsSweep w.base.bookings.store r →
    ForToken policy.chainID policy.token r.metadata →
    r.status = pending ∨ r.status = sent → r.uid = uid
  state : ∀ r ∈ w.base.bookings.store.bookings, r.uid = uid → r.status ≠ confirmed ∧
    (r.status = sent → Included w policy.chainID (trackedHash w r) = false ∧
      Unfailed w.base.bookings uid r.channelRef) ∧
    (r.status = pending → Unfailed w.base.bookings uid hash)

variable {policy : SweepPolicy} {uid : Uuid}

theorem Stalled.silent (stalled : Stalled policy uid hash w) (silent : Silent w w') :
    Stalled policy uid hash w' := by
  obtain ⟨rows, classes, unmined, only, state⟩ := stalled
  have included : ∀ chainID h, Included w' chainID h = Included w chainID h := fun _ _ => by
    rw [Included, silent.chains, Included]
  refine ⟨?_, ?_, fun chainID => by rw [included, unmined], ?_, ?_⟩ <;> rw [silent.bookings]
  · exact rows
  · exact classes
  · exact only
  · intro r member named
    rw [included, trackedHash, silent.sweepTx]
    exact state r member named

theorem Stalled.tracked (stalled : Stalled policy uid hash w) (nonempty : hash ≠ []) :
    Stalled policy uid hash (w.remember { w.memory with
      sweepTx := Function.update w.memory.sweepTx (pgToUID uid) hash }) := by
  refine ⟨stalled.rows, stalled.classes, stalled.unmined, stalled.only, fun r member named => ?_⟩
  obtain ⟨unconfirmed, sent_, pending_⟩ := stalled.state r member named
  refine ⟨unconfirmed, fun isSent => ⟨?_, (sent_ isSent).2⟩, pending_⟩
  have asked : trackedHash (w.remember { w.memory with
      sweepTx := Function.update w.memory.sweepTx (pgToUID uid) hash }) r = hash := by
    rw [trackedHash, named]
    simp only [SweepWorld.remember, Function.update_self, if_neg nonempty]
  rw [asked]
  exact stalled.unmined _

variable {input : TransitionInput} {op : BookingRow}

theorem Stalled.moved (stalled : Stalled policy uid hash w) (after : SweepWorld) {op' : BookingRow}
    (moved : RowMoved w.base.bookings after.base.bookings input op op')
    (member : op ∈ w.base.bookings.store.bookings)
    (named : op.uid = uid) (silent : input.metadata = .empty)
    (chains : after.base.chains = w.base.chains)
    (state : op'.status ≠ confirmed ∧
      (op'.status = sent → Included after policy.chainID (trackedHash after op') = false ∧
        Unfailed after.base.bookings uid op'.channelRef) ∧
      (op'.status = pending → Unfailed after.base.bookings uid hash)) :
      Stalled policy uid hash after := by
  obtain ⟨_, _, store⟩ := moved.store
  have ledger : after.base.bookings.store.ledger = w.base.bookings.store.ledger := by rw [store]
  have rows := (moved.keeps stalled.rows member (by rw [silent]; exact besides_empty)).1
  have inside : op' ∈ after.base.bookings.store.bookings := by
    rw [moved.bookings]
    exact List.mem_map.mpr ⟨op, member, if_pos rfl⟩
  refine ⟨rows, ?_, fun chainID => ?_, fun r here sweep token isOpen => ?_, fun r here same => ?_⟩
  · obtain ⟨ids, uids, codes⟩ := stalled.classes
    rw [← ledger] at ids uids codes
    exact ⟨ids, uids, codes⟩
  · rw [Included, chains]
    exact stalled.unmined chainID
  · rw [moved.bookings] at here
    obtain ⟨old, was, is⟩ := List.mem_map.mp here
    split at is
    · rw [← is, moved.same.uid, named]
    · subst is
      rw [IsSweep, ledger] at sweep
      exact stalled.only old was sweep token isOpen
  · obtain rfl := List.inj_on_of_nodup_map rows.uids here inside (by rw [same, moved.same.uid, named])
    exact state

theorem transition_worked {ans : SweepRequest.Answer (.port (.transition input))}
    (served : WorkServes cfg market now w (.port (.transition input)) ans w') :
    w'.memory = w.memory ∧ w'.base.chains = w.base.chains ∧
      ((w'.base.bookings = w.base.bookings ∧
        ((∃ err, ans = .error err) ∨
      (∃ r ∈ w.base.bookings.receipts, r.idempotencyKey = input.idempotencyKey) ∨
          ∃ op ∈ w.base.bookings.store.bookings, Uuid.parse input.bookingUID = some op.uid ∧
          op.status = input.toStatus)) ∨
        (∃ evt, ans = .ok evt) ∧ ∃ op ∈ w.base.bookings.store.bookings, Uuid.parse input.bookingUID = some op.uid ∧
          ∃ op', RowMoved w.base.bookings w'.base.bookings input op op' ∧
            op'.channelRef = (if input.channelRef = [] then op.channelRef else input.channelRef) ∧
            ∃ r, w'.base.bookings.receipts = w.base.bookings.receipts ++ [r] ∧ r.idempotencyKey =
            input.idempotencyKey) := by
  obtain ⟨⟨d, rfl, rfl⟩, -⟩ := served
  refine ⟨rfl, perform_chains .., ?_⟩
  simp only [perform, World.write]
  cases ok : transition (d.env 0) w.base.bookings input with
  | error err => exact .inl ⟨rfl, .inl ⟨err, rfl⟩⟩
  | ok result =>
    obtain ⟨s', evt⟩ := result
    obtain ⟨op, member, parsed, ⟨rfl, receipt | status⟩ | moved⟩ := transition_effect ok
    · exact .inl ⟨rfl, .inr (.inl receipt)⟩
    · exact .inl ⟨rfl, .inr (.inr ⟨op, member, parsed, status⟩)⟩
    · exact .inr ⟨⟨evt, rfl⟩, op, member, parsed, moved⟩

theorem sweepSentKey_ne_failed (a b c d : GoString) : sweepSentKey a b ≠ sweepFailedKey c d := by
  intro same
  have heads : (lit "sweep-sent-").take 7 = (lit "sweep-failed-").take 7 := by
    have cut := congrArg (List.take 7) same
    simp only [sweepSentKey, sweepFailedKey, List.append_assoc] at cut
    rwa [List.take_append_of_le_length (by decide), List.take_append_of_le_length (by decide)] at cut
  revert heads
  decide

variable {row : BookingRow} {b : Booking}

theorem parsed_uid (read : ReadAs row b) (parsed : Uuid.parse b.uid = some op.uid) :
    op.uid = row.uid := by
  rw [read.uid, show Uuid.parse (pgToUID row.uid) = some row.uid from Uuid.parse_print _] at parsed
  exact (Option.some.inj parsed).symm

theorem batchSweep_silent (uidText : GoString) (chainID : Int) (token : GoString)
    (targets : List SweepTarget) (n : Nat) (prior : GoString) :
    Tries (BarrenServes cfg market now hash) (batchSweep cfg uidText chainID token targets n prior)
      (fun h w' => h = hash ∧ Silent w w') (fun _ => Silent w) (fun _ => True) w := by
  unfold batchSweep
  refine (keeps_ofResult _).then (fun _ _ => trivial) (fun _ _ s => s) fun _ w₁ s₁ => ?_
  refine (keeps_ofResult _).then (fun _ _ => trivial)
    (fun _ _ s => trans_of Silent s₁ s) fun _ w₂ s => ?_
  have s₂ := trans_of Silent s₁ s
  refine (keeps_ofResult _).then (fun _ _ => trivial)
    (fun _ _ s => trans_of Silent s₂ s) fun _ w₃ s => ?_
  have s₃ := trans_of Silent s₂ s
  refine (keeps_ofResult _).then (fun _ _ => trivial)
    (fun _ _ s => trans_of Silent s₃ s) fun _ w₄ s => ?_
  have s₄ := trans_of Silent s₃ s
  refine (keeps_quoteFee reads_silent chainID n prior).then (fun _ _ => trivial)
    (fun _ _ s => trans_of Silent s₄ s) fun fee w₅ s => ?_
  have s₅ := trans_of Silent s₄ s
  refine keeps_thenIn (keeps_try (reads_silent _ (by rfl))) (fun _ _ => trivial)
    (fun _ _ s => trans_of Silent s₅ s) fun gas w₆ s => ?_
  have s₆ := trans_of Silent s₅ s
  refine tries_bind.mpr
    (tries_context (tries_try.mpr ⟨trivial, fun ans w₇ served =>
      ⟨⟨fun signed ok => ?_, fun _ _ => ?_⟩, trivial⟩⟩))
  · have s₇ := trans_of Silent s₆ (reads_silent _ (by rfl) _ _ _ served)
    have same : signed = hash := Except.ok.inj (ok.symm.trans served.2)
    refine tries_bind.mpr (tries_context (tries_try.mpr ⟨trivial, fun ans w₈ served => ?_⟩))
    have s₈ : Silent w w₈ := by
      rcases served.1 with ⟨-, rfl, -⟩ | ⟨-, rfl, -⟩
      · exact s₇
      · exact ⟨s₇.bookings, s₇.chains, s₇.sweepTx⟩
    refine ⟨⟨fun _ _ => ?_, fun _ _ => s₈⟩, trivial⟩
    refine tries_bind.mpr (tries_call.mpr ⟨trivial, fun _ w₉ served => ⟨⟨⟨same, ?_⟩, trivial⟩, trivial⟩⟩)
    obtain ⟨rfl, -⟩ := served
    exact ⟨s₈.bookings, s₈.chains, s₈.sweepTx⟩
  · exact trans_of Silent s₆ (reads_silent _ (by rfl) _ _ _ served)

theorem silent_of_memory {c : SweepRequest} {ans : c.Answer}
    (other : (∃ uid, c = .markSweepBroadcast uid) ∨ (∃ uid, c = .bumpSweep uid) ∨
      ∃ chainID nonce fee, c = .recordFee chainID nonce fee)
    (served : BarrenServes cfg market now hash w c ans w') : Silent w w' := by
  rcases other with ⟨uid, rfl⟩ | ⟨uid, rfl⟩ | ⟨chainID, nonce, fee, rfl⟩ <;>
  · obtain ⟨rfl, -⟩ := served
    exact ⟨rfl, rfl, rfl⟩

section

variable (stalled : Stalled policy row.uid hash w)
include stalled

theorem markSent_stalled (nonempty : hash ≠ []) (member : row ∈ w.base.bookings.store.bookings)
    (isPending : row.status = pending) (read : ReadAs row b) (text : String) :
    Tries (BarrenServes cfg market now hash) (do
      let _ ← context text (transitionSweep (sweepTransition b.uid sent hash .empty (sweepSentKey b.uid hash)))
      call (.trackSweepTx b.uid hash)) (fun _ => Stalled policy row.uid hash)
      (fun _ => Stalled policy row.uid hash) (fun _ => True) w := by
  refine tries_bind.mpr (tries_context (tries_try.mpr ⟨trivial, fun ans w₁ served => ?_⟩))
  obtain ⟨memory, chains, same | ⟨⟨evt, rfl⟩, op, memberOp, parsed, op', moved, ref, receipt,
    receipts, key⟩⟩ := transition_worked served.1
  · have stalled₁ : Stalled policy row.uid hash w₁ := stalled.silent ⟨same.1, chains, by rw [memory]⟩
    refine ⟨⟨fun _ _ => tries_call.mpr ⟨trivial, fun _ w₂ served => ⟨?_, trivial⟩⟩,
      fun _ _ => stalled₁⟩, trivial⟩
    obtain ⟨rfl, -⟩ := served
    rw [read.uid]
    exact stalled₁.tracked nonempty
  · obtain rfl := List.inj_on_of_nodup_map stalled.rows.uids memberOp member (parsed_uid read parsed)
    refine ⟨⟨fun _ _ => tries_call.mpr ⟨trivial, fun _ w₂ served => ⟨?_, trivial⟩⟩, nofun⟩, trivial⟩
    obtain ⟨rfl, -⟩ := served
    refine stalled.moved (w₁.remember _) moved member rfl rfl chains
      ⟨?_, fun _ => ⟨?_, ?_⟩, fun wrong => ?_⟩
    · rw [moved.status]
      exact (by decide : sent ≠ confirmed)
    · have asked : trackedHash
        (w₁.remember { w₁.memory with sweepTx := Function.update w₁.memory.sweepTx b.uid hash })
        op' = hash := by
        rw [trackedHash, moved.same.uid, read.uid]
        simp only [SweepWorld.remember, Function.update_self, if_neg nonempty]
      rw [asked, Included, SweepWorld.remember, chains]
      exact stalled.unmined _
    · intro r inside
      rw [ref, sweepTransition, if_neg nonempty]
      simp only [SweepWorld.remember] at inside
      rw [receipts, List.mem_append, List.mem_singleton] at inside
      rcases inside with old | rfl
      · exact (stalled.state op member rfl).2.2 isPending r old
      · rw [key]
        exact sweepSentKey_ne_failed _ _ _ _
    · rw [moved.status] at wrong
      exact absurd wrong (by decide : sent ≠ pending)

theorem broadcastSweep_stalled (nonempty : hash ≠ [])
    (member : row ∈ w.base.bookings.store.bookings)
    (isPending : row.status = pending) (read : ReadAs row b) (chainID : Int) (token : GoString)
    (n : Nat) (addrs : List GoString) :
    Tries (BarrenServes cfg market now hash) (broadcastSweep cfg b policy chainID token n addrs)
    (fun _ => Stalled policy row.uid hash)
      (fun _ => Stalled policy row.uid hash) (fun _ => True) w := by
  unfold broadcastSweep
  refine keeps_thenIn (keeps_sweepTargets reads_silent addrs) (fun _ _ => trivial)
    (fun _ _ => stalled.silent) fun targets w₁ s₁ => ?_
  refine keeps_thenIn (keeps_replacementGasPrice reads_silent chainID n []) (fun _ _ => trivial)
    (fun _ _ s => stalled.silent (trans_of Silent s₁ s)) fun price w₂ s => ?_
  have s₂ := trans_of Silent s₁ s
  split
  · exact ⟨stalled.silent s₂, trivial⟩
  refine tries_bind.mpr
    (tries_context ((batchSweep_silent b.uid chainID token targets n []).mono (fun _ => id)
    (fun h w₃ _ launched => ?_) fun _ _ _ s => stalled.silent (trans_of Silent s₂ s)))
  obtain ⟨rfl, s⟩ := launched
  have s₃ := trans_of Silent s₂ s
  refine tries_bind.mpr (tries_call.mpr ⟨trivial, fun _ w₄ served => ⟨?_, trivial⟩⟩)
  have s₄ := trans_of Silent s₃ (silent_of_memory (.inl ⟨_, rfl⟩) served)
  exact markSent_stalled (stalled.silent s₄) nonempty (by rw [s₄.bookings]; exact member) isPending read _

theorem dispatchSweep_stalled (nonempty : hash ≠ []) (member : row ∈ w.base.bookings.store.bookings)
    (isPending : row.status = pending) (read : ReadAs row b) (origin : SweepOrigin)
    (chainID : Int) (token : GoString)
    (n : Nat) (addrs : List GoString) :
    Tries (BarrenServes cfg market now hash)
    (dispatchSweep cfg b policy origin chainID token n addrs) (fun _ => Stalled policy row.uid hash)
      (fun _ => Stalled policy row.uid hash) (fun _ => True) w := by
  unfold dispatchSweep
  have verify : Keeps (BarrenServes cfg market now hash) Silent (verifyNonce chainID n) :=
    keeps_bind (keeps_context (keeps_context (keeps_try (reads_silent _ (by rfl))))) fun _ =>
      keeps_ofResult _
  split
  · refine verify.then (fun _ _ => trivial) (fun _ _ => stalled.silent) fun _ w₁ s₁ => ?_
    exact broadcastSweep_stalled (stalled.silent s₁) nonempty (by rw [s₁.bookings]; exact member)
      isPending read chainID token n addrs
  · exact broadcastSweep_stalled stalled nonempty member isPending read chainID token n addrs

end

theorem txIncluded_worked {chainID : Int} {h : GoString}
    {ans : SweepRequest.Answer (.port (.txIncluded chainID h))}
    (served : WorkServes cfg market now w (.port (.txIncluded chainID h)) ans w') :
    ans = .ok (Included w chainID h) := by
  obtain ⟨⟨d, rfl, -⟩, -⟩ := served
  rfl

theorem asked_hash (read : ReadAs row b) :
    (if w.memory.sweepTx b.uid = [] then b.channelRef else w.memory.sweepTx b.uid) =
    trackedHash w row := by
  rw [trackedHash, read.uid, read.channelRef]

theorem recheckSweepSent_stalled (stalled : Stalled policy row.uid hash w) (nonempty : hash ≠ [])
    (member : row ∈ w.base.bookings.store.bookings) (isSent : row.status = sent)
    (read : ReadAs row b) (token : GoString) (n : Nat)
    (addrs : List GoString) : Tries (BarrenServes cfg market now hash)
    (recheckSweepSent cfg b policy policy.chainID token n addrs)
      (fun _ => Stalled policy row.uid hash) (fun _ => Stalled policy row.uid hash)
      (fun _ => True) w := by
  obtain ⟨-, asked, -⟩ := stalled.state row member rfl
  obtain ⟨unmined, unfailed⟩ := asked isSent
  unfold recheckSweepSent
  refine tries_bind.mpr (tries_call.mpr ⟨trivial, fun tracked w₁ served => ⟨?_, trivial⟩⟩)
  obtain ⟨⟨rfl, rfl⟩, -⟩ := served
  refine tries_bind.mpr (tries_context (tries_try.mpr ⟨trivial, fun ans w₂ served => ?_⟩))
  have s₂ := reads_silent _ (by rfl) _ _ _ served
  refine ⟨⟨fun included ok => ?_, fun _ _ => stalled.silent s₂⟩, trivial⟩
  have missing : included = false := by
    have answer := Except.ok.inj (ok.symm.trans (txIncluded_worked served.1))
    rw [answer, asked_hash read, unmined]
  rw [missing, if_neg (by decide)]
  refine tries_bind.mpr (tries_call.mpr ⟨trivial, fun waited w₃ served => ⟨?_, trivial⟩⟩)
  have s₃ := trans_of Silent s₂ (reads_silent _ (by rfl) _ _ _ served)
  cases waited with
  | none =>
    refine tries_call.mpr ⟨trivial, fun _ w₄ served => ⟨?_, trivial⟩⟩
    exact stalled.silent (trans_of Silent s₃ (silent_of_memory (.inl ⟨_, rfl⟩) served))
  | some waited =>
    dsimp only
    split
    · exact ⟨stalled.silent s₃, trivial⟩
    refine tries_bind.mpr (tries_call.mpr ⟨trivial, fun bumps w₄ served => ⟨?_, trivial⟩⟩)
    have s₄ := trans_of Silent s₃ (reads_silent _ (by rfl) _ _ _ served)
    split
    · refine tries_bind.mpr (tries_context (tries_try.mpr ⟨trivial, fun ans w₅ served => ?_⟩))
      obtain ⟨memory, chains, ⟨same, why⟩ | ⟨⟨evt, rfl⟩, op, memberOp, parsed, op', moved, -⟩⟩ :=
        transition_worked served.1
      · have stalled₅ := stalled.silent (trans_of Silent s₄ ⟨same, chains, by rw [memory]⟩)
        refine ⟨⟨fun evt ok => ?_, fun _ _ => stalled₅⟩, trivial⟩
        -- A receipt or the same status would have answered for another cycle.
        exfalso
        rcases why with ⟨err, failed⟩ | ⟨r, inside, key⟩ | ⟨op, memberOp, parsed, status⟩
        · cases ok.symm.trans failed
        · rw [s₄.bookings] at inside
          rw [sweepTransition, read.uid, read.channelRef] at key
          exact unfailed r inside key
        · rw [s₄.bookings] at memberOp
          rw [List.inj_on_of_nodup_map stalled.rows.uids memberOp member (parsed_uid read parsed), isSent] at status
          exact absurd status (by decide : sent ≠ failed)
      · refine ⟨⟨fun _ _ => tries_call.mpr ⟨trivial, fun _ w₆ served => ⟨?_, trivial⟩⟩,
          by intros; contradiction⟩, trivial⟩
        obtain ⟨rfl, -⟩ := served
        have stalled₄ := stalled.silent s₄
        have same : op.uid = row.uid := parsed_uid read parsed
        refine stalled₄.moved (w₅.remember _) moved memberOp same rfl chains ⟨?_, fun wrong => ?_, fun wrong => ?_⟩
        · rw [moved.status]
          exact (by decide : failed ≠ confirmed)
        · rw [moved.status] at wrong
          exact absurd wrong (by decide : failed ≠ sent)
        · rw [moved.status] at wrong
          exact absurd wrong (by decide : failed ≠ pending)
    · refine keeps_thenIn (keeps_replacementGasPrice reads_silent policy.chainID n _) (fun _ _ => trivial)
        (fun _ _ s => stalled.silent (trans_of Silent s₄ s)) fun price w₅ s => ?_
      have s₅ := trans_of Silent s₄ s
      split
      · exact ⟨stalled.silent s₅, trivial⟩
      refine keeps_thenIn (keeps_sweepTargets reads_silent addrs) (fun _ _ => trivial)
        (fun _ _ s => stalled.silent (trans_of Silent s₅ s))
        fun targets w₆ s => ?_
      have s₆ := trans_of Silent s₅ s
      refine tries_bind.mpr
        (tries_context ((batchSweep_silent b.uid policy.chainID token
          targets n _).mono (fun _ => id)
        (fun h w₇ _ launched => ?_) fun _ _ _ s => stalled.silent (trans_of Silent s₆ s)))
      obtain ⟨rfl, s⟩ := launched
      have stalled₇ := stalled.silent (trans_of Silent s₆ s)
      refine tries_bind.mpr (tries_call.mpr ⟨trivial, fun _ w₈ served => ⟨?_, trivial⟩⟩)
      have stalled₈ : Stalled policy row.uid h w₈ := by
        obtain ⟨rfl, -⟩ := served
        rw [read.uid]
        exact stalled₇.tracked nonempty
      refine tries_bind.mpr (tries_call.mpr ⟨trivial, fun _ w₉ served => ⟨?_, trivial⟩⟩)
      have s₉ := silent_of_memory (.inr (.inl ⟨_, rfl⟩)) served
      refine tries_call.mpr ⟨trivial, fun _ w₁₀ served => ⟨?_, trivial⟩⟩
      exact stalled₈.silent (trans_of Silent s₉ (silent_of_memory (.inl ⟨_, rfl⟩) served))

theorem advanceSweep_stalled (stalled : Stalled policy row.uid hash w) (nonempty : hash ≠ [])
    (member : row ∈ w.base.bookings.store.bookings)
    (chain : row.metadata.get (lit "chain_id") = some (intText policy.chainID))
    (read : ReadAs row b) (origin : SweepOrigin) :
    Tries (BarrenServes cfg market now hash) (advanceSweep cfg b policy origin)
    (fun _ => Stalled policy row.uid hash)
      (fun _ => Stalled policy row.uid hash) (fun _ => True) w := by
  unfold advanceSweep
  refine tries_bind.mpr (tries_ofResult.mpr ⟨⟨fun c parsed => ?_, fun _ _ => stalled⟩, trivial⟩)
  rw [orError_eq_ok, read.metadata, chain] at parsed
  obtain rfl := eq_of_parseInt_intText
    (show parseInt 64 (intText policy.chainID) = some c from parsed)
  refine tries_bind.mpr (tries_ofResult.mpr ⟨⟨fun n _ => ?_, fun _ _ => stalled⟩, trivial⟩)
  dsimp only
  rw [read.status]
  split
  · rename_i isPending
    exact dispatchSweep_stalled stalled nonempty member isPending read origin _ _ n _
  · split
    · rename_i isSent
      exact recheckSweepSent_stalled stalled nonempty member isSent read _ n _
    · exact ⟨stalled, trivial⟩

section

variable (stalled : Stalled policy uid hash w)
include stalled

theorem sweepTick_stalled (nonempty : hash ≠ []) :
    Tries (BarrenServes cfg market now hash) (sweepTick cfg policy)
    (fun _ => Stalled policy uid hash) (fun _ => Stalled policy uid hash)
      (fun _ => True) w := by
  have search : ∀ statuses, Keeps (BarrenServes cfg market now hash) Silent
    (findSweepBookingByStatus policy.chainID policy.token statuses) := by
    intro statuses
    refine keeps_bind (keeps_context (keeps_try (reads_silent _ (by rfl)))) fun classUID => ?_
    induction statuses with
    | nil => exact keeps_pure _
    | cons status rest ih =>
      refine keeps_bind (keeps_context (keeps_try (reads_silent _ (by rfl)))) fun bookings => ?_
      split
      · exact keeps_pure _
      · exact ih
  unfold sweepTick
  refine (keeps_ofResult _).then (fun _ _ => trivial) (fun _ _ => stalled.silent) fun _ w₁ s₁ => ?_
  refine (keeps_ofResult _).then (fun _ _ => trivial)
    (fun _ _ s => stalled.silent (trans_of Silent s₁ s)) fun _ w₂ s => ?_
  have s₂ := trans_of Silent s₁ s
  refine keeps_thenIn (keeps_gasPrice reads_silent policy.chainID) (fun _ _ => trivial)
    (fun _ _ s => stalled.silent (trans_of Silent s₂ s))
    fun price w₃ s => ?_
  have s₃ := trans_of Silent s₂ s
  have stalled₃ := stalled.silent s₃
  split
  · exact ⟨stalled₃, trivial⟩
  -- The search is told of the rows by one lemma, and that nothing else has changed by another.
  have searched := (@findSweepBookingByStatus_tries cfg _ _ policy.chainID policy.token
    stalled₃.classes [pending, sent] (.refl w₃)).ofServes
    (fun _ _ _ _ (served : BarrenServes cfg market now hash _ _ _ _) => served.1.serves)
  refine tries_bind.mpr ((Safe.and searched (search [pending, sent] w₃)).mono (fun _ _ => trivial)
    fun found w₄ _ both => ?_)
  cases found with
  | error e => exact stalled₃.silent both.2
  | ok found =>
    obtain ⟨⟨still, found_⟩, s₄⟩ := both
    have stalled₄ := stalled₃.silent s₄
    cases found with
    | some b =>
      obtain ⟨row, member, sweep, isOpen, token, read, -⟩ := found_
      obtain rfl := stalled₃.only row member sweep token (by simpa using isOpen)
      exact advanceSweep_stalled stalled₄ nonempty (by rw [s₄.bookings]; exact member) token.1
        (readAs_of_ok read) .resumed
    | none =>
      show Tries _ (collectSweep cfg policy) _ _ _ _
      unfold collectSweep
      refine (search [failed]).then (fun _ _ => trivial) (fun _ _ => stalled₄.silent) fun failed w₅ s₅ => ?_
      refine keeps_thenIn (keeps_try (reads_silent _ (by rfl))) (fun _ _ => trivial)
        (fun _ _ s => stalled₄.silent (trans_of Silent s₅ s))
        fun addrRows w₆ s => ?_
      have stalled₆ := stalled₄.silent (trans_of Silent s₅ s)
      split
      · exact ⟨stalled₆, trivial⟩
      refine tries_bind.mpr (tries_context (tries_try.mpr ⟨trivial, fun ans w₇ served => ?_⟩))
      have stalled₇ := stalled₆.silent (reads_silent _ (by rfl) _ _ _ served)
      refine ⟨⟨fun scanned ok => ?_, fun _ _ => stalled₇⟩, trivial⟩
      obtain rfl : scanned = (.empty, []) := Except.ok.inj (ok.symm.trans served.2)
      have none : eligibleAddresses policy .empty = [] := by
        simp [eligibleAddresses, SortedMap.empty]
      simp only [none, if_true]
      exact ⟨stalled₇, trivial⟩

theorem Stalled.tick (nonempty : hash ≠ []) (cfg : SweepConfig) (market : Market) (now : Instant) :
    ∃ w', WorkingTick cfg policy market now w w' ∧ Stalled policy uid hash w' := by
  have total : ∀ w c, (∀ chainID, Included w chainID hash = false) →
      ∃ ans w', BarrenServes cfg market now hash w c ans w' ∧ ∀ chainID, Included w' chainID hash =
        false := barren_total nonempty
  obtain ⟨r, w', ran⟩ := exists_ran total (sweepTick cfg policy).run stalled.unmined
  refine ⟨w', ⟨r, ran.mono fun _ _ _ _ served => served.1⟩, ?_⟩
  have held := (Safe.ran (sweepTick_stalled stalled nonempty) ran).2 r rfl
  cases r with
  | ok _ => exact held
  | error _ => exact held

theorem Stalled.not_finished : ¬Finished policy uid w := by
  rintro ⟨⟨row, member, named, isConfirmed⟩, -⟩
  exact (stalled.state row member named).1 isConfirmed

theorem Stalled.not_completes (nonempty : hash ≠ []) (cfg : SweepConfig) (market : Market) :
    ¬Completes cfg policy market uid w := by
  intro completes
  choose next ticks stays using fun (i : Nat) (s : { w // Stalled policy uid hash w }) =>
    s.2.tick nonempty cfg market (i : Int)
  let run : Nat → { w // Stalled policy uid hash w } := Nat.rec ⟨w, stalled⟩ fun i s =>
    ⟨next i s, stays i s⟩
  obtain ⟨i, finished⟩ := completes (fun i => (i : Int)) (fun i => (run i).1) (fun i => by simp)
    (fun t => ⟨t.toNat, Int.self_le_toNat t⟩) rfl (fun i => ticks i (run i))
  exact (run i).2.not_finished finished

end

end

section

variable {cfg : SweepConfig} {policy : SweepPolicy} {market : Market} {now : Instant}
  {w w' : SweepWorld} {row : BookingRow} {b : Booking}

theorem gasPrice_affordable (affordable :
    ¬(gwei (feeCapBasis market.baseFee market.tip)).greaterThan policy.gasCeiling = true)
    (chainID : Int) :
    Tries (WorkServes cfg market now) (gasPrice chainID)
      (fun price w' => Silent w w' ∧ ¬price.greaterThan policy.gasCeiling = true) (fun _ _ => False)
      (fun _ => True) w := by
  unfold gasPrice
  refine tries_bind.mpr (tries_context (tries_try.mpr ⟨trivial, fun ans w₁ served => ?_⟩))
  obtain ⟨rfl, tip, low, rfl⟩ := served
  refine ⟨⟨fun t ok => ?_, nofun⟩, trivial⟩
  obtain rfl : tip = t := Except.ok.inj ok
  refine tries_bind.mpr (tries_context (tries_try.mpr ⟨trivial, fun ans w₂ served => ?_⟩))
  obtain ⟨rfl, fee, lowFee, rfl⟩ := served
  refine ⟨⟨fun base ok => ⟨⟨refl_of Silent _, ?_⟩, trivial⟩, nofun⟩, trivial⟩
  obtain rfl : fee.getD 0 = base := Except.ok.inj ok
  rw [Decimal.greaterThan_iff, not_lt] at affordable ⊢
  refine le_trans ?_ affordable
  have basis : feeCapBasis (fee.getD 0) tip ≤ feeCapBasis market.baseFee market.tip := by
    unfold feeCapBasis
    omega
  simp only [gwei, normalizeAmount, weiGweiDecimals, Decimal.val]
  gcongr

variable {cls : ClassificationRow}

theorem sweepBookings_total {s : BookingTables} (member : cls ∈ s.store.ledger.classifications)
    (readable : ∀ r ∈ s.store.bookings, ∃ b, bookingFromRow s r = .ok b) {status : Status}
    (text : textParam status = .ok ()) : ∃ bookings, sweepBookings s (pgToUID cls.uid) status =
    .ok bookings := by
  have found : ∃ c, s.store.classByUIDOrErr (pgToUID cls.uid) = .ok c := by
    cases lookup : s.store.ledger.classifications.find? (pgToUID ·.uid == pgToUID cls.uid) with
    | none =>
      have absent := List.find?_eq_none.mp lookup cls member
      simp at absent
    | some c => exact ⟨c, by rw [Store.classByUIDOrErr, lookup]; rfl⟩
  obtain ⟨c, found⟩ := found
  obtain ⟨bookings, read⟩ := (collect_isOk_iff (f := bookingFromRow s)
    (l := (s.store.bookings.filter fun row => row.classificationID == c.id && row.status ==
      status).insertionSort fun a b => a.id ≤ b.id)).mpr
    fun r inside => readable r (List.mem_filter.mp ((List.mem_insertionSort _).mp inside)).1
  refine ⟨bookings, ?_⟩
  rw [sweepBookings, found]
  exact (congrArg (· >>= fun _ => _) text).trans read

theorem search_succeeds (chainID : Int) (token : GoString)
    (readable : ∀ r ∈ w.base.bookings.store.bookings, ∃ b, bookingFromRow w.base.bookings r = .ok b)
    (member : cls ∈ w.base.bookings.store.ledger.classifications) (statuses : List Status)
    (texts : ∀ status ∈ statuses, textParam status = .ok ()) :
    Tries (WorkServes cfg market now)
    (findSweepBookingByStatus.search chainID token (pgToUID cls.uid) statuses)
      (fun _ => Silent w) (fun _ _ => False) (fun _ => True) w := by
  induction statuses with
  | nil => exact ⟨refl_of Silent w, trivial⟩
  | cons status rest ih =>
    refine tries_bind.mpr (tries_context (tries_try.mpr ⟨trivial, fun ans w₁ served => ?_⟩))
    obtain ⟨rfl, rfl⟩ := served
    obtain ⟨bookings, ok⟩ := sweepBookings_total member readable (texts status List.mem_cons_self)
    refine ⟨⟨fun found _ => ?_, fun e failed => absurd (ok.symm.trans failed) nofun⟩, trivial⟩
    split
    · exact ⟨refl_of Silent _, trivial⟩
    · exact ih fun status inside => texts status (List.mem_cons_of_mem _ inside)

section

variable (booking : SweepBooking cfg policy market w row)
include booking

theorem find_succeeds :
    Tries (WorkServes cfg market now) (findInFlightSweep policy.chainID policy.token)
    (fun _ => Silent w) (fun _ _ => False) (fun _ => True) w := by
  obtain ⟨cls, found, code⟩ := booking.sweep
  have listed := List.mem_of_find?_eq_some found
  refine tries_bind.mpr (tries_context (tries_try.mpr ⟨trivial, fun ans w₁ served => ?_⟩))
  have silent := reads_working _ (by rfl) _ _ _ served
  obtain ⟨⟨d, rfl, -⟩, -⟩ := served
  cases lookup : w.base.bookings.store.ledger.classifications.find?
    (·.code == sweepClassificationCode) with
  | none =>
    have absent := List.find?_eq_none.mp lookup cls listed
    simp [code] at absent
  | some first =>
    have answer : (perform cfg.onchain d w.base (.classificationUID sweepClassificationCode)).1 =
      .ok (pgToUID first.uid) := by
      simp only [perform, lookup]
      rfl
    refine ⟨⟨fun uid ok => ?_, fun e failed => by cases answer.symm.trans failed⟩, trivial⟩
    obtain rfl : pgToUID first.uid = uid := Except.ok.inj (answer.symm.trans ok)
    refine (search_succeeds policy.chainID policy.token ?_ ?_ [pending, sent] ?_).mono (fun _ => id)
      (fun _ _ _ => trans_of Silent silent)
      fun _ _ _ => id
    · rw [silent.bookings]
      exact booking.readable
    · rw [silent.bookings]
      exact List.mem_of_find?_eq_some lookup
    · decide

omit booking in
theorem sent_confirmed : sweepLifecycle.canTransition sent confirmed = true := by decide

theorem SweepBooking.accepts (isSent : row.status = sent) :
    Accepts w.base.bookings (confirmation w row) := by
  obtain ⟨uid, unnamed⟩ := booking.unnamed
  obtain ⟨cls, class_, -⟩ := booking.sweep
  obtain ⟨storable, key⟩ := booking.storable isSent
  have named : uidToPG (pgToUID row.uid) = .ok row.uid := by
    rw [uidToPG, pgToUID, Uuid.parse_print]
    rfl
  have unused : w.base.bookings.getReceipt (confirmation w row).idempotencyKey = .ok none := by
    refine bind_eq_ok.mpr ⟨(), require_eq_ok.mpr key, congrArg _ (List.find?_eq_none.mpr ?_)⟩
    intro r inside
    simpa [confirmation, sweepTransition] using (booking.unclosed isSent r inside).2
  have valid : (confirmation w row).validate = .ok () := by
    have freeform : validateFreeformFields onchainSource .empty = .ok () := by decide
    have nonempty : pgToUID row.uid ≠ [] := by
      intro empty
      have parsed := Uuid.parse_print row.uid
      rw [← pgToUID, empty] at parsed
      cases parsed
    have magnitude : validateAmountMagnitude .zero = .ok () := by decide
    have keyed : sweepConfirmedKey (pgToUID row.uid) (trackedHash w row) ≠ [] := by
      simp [sweepConfirmedKey, show lit "sweep-confirmed-" ≠ [] by decide]
    simp only [TransitionInput.validate, confirmation, sweepTransition, magnitude, freeform, ok_bind,
      bind_eq_ok, require_eq_ok]
    exact ⟨(), decide_eq_true nonempty, (), rfl, (), rfl, decide_eq_true keyed⟩
  have lifecycle := booking.lifecycle cls class_
  have call : FreshCall ⟨0, uid⟩ w.base.bookings (confirmation w row) row cls := by
    refine ⟨valid, ⟨row.uid, named, find_of_nodup booking.rows.uids booking.member⟩, unused, class_,
      by rw [lifecycle]; decide, by rw [lifecycle, isSent]; exact sent_confirmed, rfl,
      booking.readable row booking.member, fun same => ?_, storable, unnamed⟩
    rw [isSent] at same
    exact absurd same (by decide : sent ≠ confirmed)
  obtain ⟨s', evt, -, peeled⟩ := call.transition_eq
  refine ⟨⟨0, [uid], []⟩, s', evt, peeled.trans ?_⟩
  rw [repeatedCallback, if_pos]
  · rfl
  · rw [isSent]
    exact (by decide : sent ≠ confirmed)

theorem confirm_finishes (isSent : row.status = sent) (silent : Silent w w')
    (read : ReadAs row b) (text : String) :
    Tries (WorkServes cfg market now) (do
      let _ ← context text (transitionSweep (sweepTransition b.uid confirmed (trackedHash w row) .empty
        (sweepConfirmedKey b.uid (trackedHash w row))))
      call (.forgetSweepTx b.uid)) (fun _ => Finished policy row.uid) (fun _ _ => False)
      (fun _ => True) w' := by
  refine tries_bind.mpr (tries_context (tries_try.mpr ⟨trivial, fun ans w₁ served => ?_⟩))
  obtain ⟨evt, accepted⟩ : ∃ evt, ans = .ok evt := by
    have willing := served.2
    rw [PortCall.Willing, silent.bookings, read.uid] at willing
    exact willing (booking.accepts isSent)
  obtain ⟨-, -, ⟨-, why⟩ | ⟨-, op, memberOp, parsed, op', moved, -⟩⟩ := transition_worked served
  · exfalso
    rcases why with ⟨err, failed⟩ | ⟨r, inside, key⟩ | ⟨op, memberOp, parsed, status⟩
    · cases accepted.symm.trans failed
    · rw [silent.bookings] at inside
      rw [sweepTransition, read.uid] at key
      exact (booking.unclosed isSent r inside).2 key
    · rw [silent.bookings] at memberOp
      rw [List.inj_on_of_nodup_map booking.rows.uids memberOp booking.member (parsed_uid read parsed), isSent] at status
      exact absurd status (by decide : sent ≠ confirmed)
  · rw [silent.bookings] at memberOp moved
    obtain rfl := List.inj_on_of_nodup_map booking.rows.uids memberOp booking.member
      (parsed_uid read parsed)
    refine ⟨⟨fun _ _ => tries_call.mpr ⟨trivial, fun _ w₂ served => ⟨?_, trivial⟩⟩,
      fun e failed => by cases accepted.symm.trans failed⟩,
      trivial⟩
    obtain rfl := served
    refine ⟨⟨op', ?_, moved.same.uid, moved.status⟩, fun r inside sweep isOpen token => ?_⟩
    · show op' ∈ w₁.base.bookings.store.bookings
      rw [moved.bookings]
      exact List.mem_map.mpr ⟨op, memberOp, if_pos rfl⟩
    · change r ∈ w₁.base.bookings.store.bookings at inside
      change IsSweep w₁.base.bookings.store r at sweep
      obtain ⟨_, _, store⟩ := moved.store
      rw [moved.bookings] at inside
      obtain ⟨old, was, is⟩ := List.mem_map.mp inside
      split at is
      · rw [← is, moved.status] at isOpen
        exact absurd isOpen (by decide : confirmed ∉ [pending, sent])
      · rename_i away
        subst is
        rw [IsSweep, store] at sweep
        exact away (by rw [booking.alone old was sweep token (by simpa using isOpen)])

theorem SweepBooking.silent (silent : Silent w w') :
    SweepBooking cfg policy market w' row ∧ trackedHash w' row = trackedHash w row := by
  have same : trackedHash w' row = trackedHash w row := by
    rw [trackedHash, silent.sweepTx, trackedHash]
  refine ⟨⟨?_, ?_, ?_, ?_, ?_, booking.token, booking.nonce, ?_, ?_, ?_, ?_, ?_,
    ?_, booking.sweeper,
    booking.configured, booking.inRange, booking.affordable⟩, same⟩ <;>
    simp only [silent.bookings, same, confirmation, Included, silent.chains]
  · exact booking.rows
  · exact booking.classes
  · exact booking.readable
  · exact booking.member
  · exact booking.sweep
  · exact booking.alone
  · exact booking.unclosed
  · exact booking.lifecycle
  · exact booking.storable
  · exact booking.unnamed
  · exact booking.fresh

theorem advanceSweep_finishes (isSent : row.status = sent)
    (mined : Included w policy.chainID (trackedHash w row) = true) (read : ReadAs row b)
    (origin : SweepOrigin) :
    Tries (WorkServes cfg market now) (advanceSweep cfg b policy origin)
    (fun _ => Finished policy row.uid) (fun _ _ => False)
      (fun _ => True) w := by
  obtain ⟨n, nonce⟩ := booking.nonce
  have chain : (b.metadata.get (lit "chain_id")).bind (parseInt 64) = some policy.chainID := by
    rw [read.metadata, booking.token.1]
    exact parseInt_intText booking.inRange.1 booking.inRange.2
  unfold advanceSweep
  rw [chain, read.metadata, nonce, read.status, isSent]
  show Tries _ (recheckSweepSent cfg b policy policy.chainID _ n _) _ _ _ w
  unfold recheckSweepSent
  refine tries_bind.mpr (tries_call.mpr ⟨trivial, fun tracked w₁ served => ⟨?_, trivial⟩⟩)
  obtain ⟨rfl, rfl⟩ := served
  refine tries_bind.mpr (tries_context (tries_try.mpr ⟨trivial, fun ans w₂ served => ?_⟩))
  have silent := reads_working _ (by rfl) _ _ _ served
  have answer := txIncluded_worked served
  rw [asked_hash read, mined] at answer
  refine ⟨⟨fun included ok => ?_, fun e failed => absurd (answer.symm.trans failed) nofun⟩, trivial⟩
  obtain rfl : true = included := Except.ok.inj (answer.symm.trans ok)
  rw [if_pos rfl, asked_hash read]
  exact confirm_finishes booking isSent silent read _

theorem sweepTick_finishes (isSent : row.status = sent)
    (mined : Included w policy.chainID (trackedHash w row) = true) :
    Tries (WorkServes cfg market now) (sweepTick cfg policy) (fun _ => Finished policy row.uid)
    (fun _ _ => False) (fun _ => True) w := by
  unfold sweepTick
  refine tries_bind.mpr (tries_ofResult.mpr ⟨⟨fun _ _ => ?_, fun e failed => ?_⟩, trivial⟩)
  · refine tries_bind.mpr (tries_ofResult.mpr ⟨⟨fun _ _ => ?_, fun e failed => ?_⟩, trivial⟩)
    · refine tries_bind.mpr (tries_context ((gasPrice_affordable booking.affordable policy.chainID).mono (fun _ => id)
        (fun price w₁ _ cheap => ?_) fun _ _ _ => id))
      obtain ⟨s₁, cheap⟩ := cheap
      rw [if_neg cheap]
      obtain ⟨booking₁, asked₁⟩ := booking.silent s₁
      have searched := (@findSweepBookingByStatus_tries cfg _ _ policy.chainID policy.token
        booking₁.classes [pending, sent] (.refl w₁)).ofServes
        (fun _ _ _ _ (served : WorkServes cfg market now _ _ _ _) => served.serves)
      refine tries_bind.mpr ((Safe.and searched (find_succeeds booking₁)).mono (fun _ _ => trivial)
        fun found w₂ _ both => ?_)
      cases found with
      | error e => exact both.2
      | ok found =>
        obtain ⟨⟨-, found_⟩, s⟩ := both
        cases found with
        | none => exact absurd booking₁.token (found_ row booking₁.member booking₁.sweep (by simp [isSent]))
        | some b =>
          obtain ⟨r, member, sweep, isOpen, token, ok, -⟩ := found_
          obtain rfl := booking₁.alone r member sweep token (by simpa using isOpen)
          have s₂ := trans_of Silent s₁ s
          obtain ⟨booking₂, asked₂⟩ := booking.silent s₂
          refine advanceSweep_finishes booking₂ isSent ?_ (readAs_of_ok ok) .resumed
          rw [asked₂, Included, s₂.chains]
          exact mined
    · obtain ⟨chain, found⟩ := Option.isSome_iff_exists.mp booking.configured
      rw [found] at failed
      cases failed
  · rw [booking.sweeper] at failed
    cases failed

end

end

def Mined (policy : SweepPolicy) (uid : Uuid) (w : SweepWorld) : Prop :=
  ∃ b ∈ (w.node policy.chainID).accepted, b.bookingUID = pgToUID uid ∧
    Included w policy.chainID b.hash = true

def Noticed (policy : SweepPolicy) (w : SweepWorld) (row : BookingRow) : Prop :=
  row.status = confirmed ∨ row.status = sent ∧ Included w policy.chainID (trackedHash w row) = true

variable {cfg : SweepConfig} {policy : SweepPolicy} {row : BookingRow}

theorem stalled_of_not_noticed {market : Market} (booking : SweepBooking cfg policy market w row)
    (unnoticed : ¬Noticed policy w row)
    {hash : GoString} (unmined : ∀ chainID, Included w chainID hash = false)
    (unused : Unfailed w.base.bookings row.uid hash) :
    Stalled policy row.uid hash w := by
  obtain ⟨unconfirmed, unasked⟩ := not_or.mp unnoticed
  refine ⟨booking.rows, booking.classes, unmined, fun r inside sweep token isOpen => ?_,
    fun r inside named => ?_⟩
  · rw [booking.alone r inside sweep token isOpen]
  · rw [List.inj_on_of_nodup_map booking.rows.uids inside booking.member named]
    refine ⟨unconfirmed, fun isSent => ⟨?_, fun r inside => (booking.unclosed isSent r inside).1⟩,
      fun _ => unused⟩
    exact Bool.eq_false_iff.mpr fun mined => unasked ⟨isSent, mined⟩

theorem completes_of_noticed {market : Market} (booking : SweepBooking cfg policy market w row)
    (noticed : Noticed policy w row) :
    Completes cfg policy market row.uid w := by
  intro now σ _ _ start ticks
  rcases noticed with isConfirmed | ⟨isSent, mined⟩
  · refine ⟨0, ?_⟩
    rw [start]
    refine ⟨⟨row, booking.member, rfl, isConfirmed⟩, fun r inside sweep isOpen token => ?_⟩
    rw [booking.alone r inside sweep token (by simpa using isOpen), isConfirmed] at isOpen
    exact absurd isOpen (by decide)
  · obtain ⟨r, ran⟩ := ticks 0
    rw [start] at ran
    have finished := (Safe.ran (sweepTick_finishes booking isSent mined) ran).2 r rfl
    cases r with
    | ok _ => exact ⟨1, finished⟩
    | error _ => exact finished.elim

theorem mined_sweep_completes_iff (cfg : SweepConfig) (policy : SweepPolicy) (market : Market)
    (w : SweepWorld) (row : BookingRow)
    (booking : SweepBooking cfg policy market w row) :
    (Mined policy row.uid w → Completes cfg policy market row.uid w) ↔
    (Mined policy row.uid w → Noticed policy w row) := by
  refine imp_congr_right fun _ => ⟨fun completes => ?_, completes_of_noticed booking⟩
  by_contra unnoticed
  obtain ⟨hash, nonempty, unmined, unused⟩ := booking.fresh
  exact (stalled_of_not_noticed booking unnoticed unmined unused).not_completes nonempty
    cfg market completes

namespace SweepSample

def cheap (hash : GoString) (now : Instant) : Script :=
  ⟨fun _ => 500000000, hash, now, fun _ => false⟩

def launched : SweepWorld := (tick (cheap (lit "0x11") 0) 0 tokenA world).2.1

def bumped : SweepWorld := (tick (cheap (lit "0x22") 100) 40 tokenA launched).2.1

def mineFirst (w : SweepWorld) : SweepWorld :=
  { w with base := { w.base with chains := fun _ =>
    { OnchainSample.oneLog with otherTransactions := [hexToHash (lit "0x11")] } } }

def bookingUID : Uuid := OnchainSample.uid 38

def market : Market := ⟨1000000000, 0⟩

theorem run_launched : Run (SweepStep config 1 fun _ _ => True) world launched :=
  .single (step_tick (cheap (lit "0x11") 0) 0 tokenA _ trivial)

theorem launched_owned : NoncesOwned 1 launched :=
  sweepStep_owned config 1 _ _ world_start.owned (step_tick (cheap (lit "0x11") 0) 0 tokenA _
    fun row n holds => absurd holds (world_start.none row n))

theorem bumped_owned : NoncesOwned 1 bumped := by
  refine sweepStep_owned config 1 _ _ launched_owned
    (step_tick (cheap (lit "0x22") 100) 40 tokenA _ fun row n holds differs => ?_)
  have all : launched.base.bookings.store.bookings.all fun row => row.metadata.get (lit "token") ==
    some tokenA := by decide +kernel
  exact absurd (beq_iff_eq.mp (List.all_eq_true.mp all row holds.member)) differs

variable {w : SweepWorld}

theorem step_mineFirst {may : SweepPolicy → SweepWorld → Prop} (owned : NoncesOwned 1 w) :
    SweepStep config 1 may w (mineFirst w) :=
    .outside owned.rows owned.classes rfl fun _ _ => Iff.rfl

def minedFor (w : SweepWorld) : Bool := (w.node 1).accepted.any fun b =>
    b.bookingUID == pgToUID bookingUID && Included w 1 b.hash

theorem mined_of_minedFor (is : minedFor w = true) : Mined (policyOf tokenA) bookingUID w := by
  obtain ⟨b, accepted, both⟩ := List.any_eq_true.mp is
  rw [Bool.and_eq_true, beq_iff_eq] at both
  exact ⟨b, accepted, both⟩

theorem bumped_stalled : Stalled (policyOf tokenA) bookingUID (lit "0x33") (mineFirst bumped) := by
  have all : (mineFirst bumped).base.bookings.store.bookings.all fun r => r.uid == bookingUID &&
    (r.status == sent &&
      (Included (mineFirst bumped) 1 (trackedHash (mineFirst bumped) r) == false &&
        (mineFirst bumped).base.bookings.receipts.all fun x => x.idempotencyKey != sweepFailedKey
          (pgToUID bookingUID) r.channelRef)) := by
    decide +kernel
  have each := List.all_eq_true.mp all
  simp only [Bool.and_eq_true, beq_iff_eq, List.all_eq_true, bne_iff_ne] at each
  refine ⟨bumped_owned.rows, bumped_owned.classes, fun _ => show Included (mineFirst bumped) 1
    (lit "0x33") = false by decide +kernel,
    fun r inside _ _ _ => (each r inside).1, fun r inside _ => ?_⟩
  obtain ⟨-, status, unmined, unfailed⟩ := each r inside
  rw [status]
  exact ⟨by decide, fun _ => ⟨unmined, unfailed⟩, fun wrong => absurd wrong (by decide)⟩

theorem launched_booking : ∃ row, row.uid = bookingUID ∧ SweepBooking config (policyOf tokenA)
    market (mineFirst launched) row := by
  obtain ⟨row, one⟩ := List.length_eq_one_iff.mp
    (show launched.base.bookings.store.bookings.length = 1 by decide +kernel)
  have member : row ∈ launched.base.bookings.store.bookings := by
    rw [one]; exact List.mem_singleton_self row
  have all : launched.base.bookings.store.bookings.all fun r => r.uid == bookingUID &&
    (r.channelRef == lit "0x11" &&
      (trackedHash launched r == lit "0x11" && ((bookingFromRow launched.base.bookings r).isOk &&
        ((launched.base.bookings.store.ledger.getClassification r.classificationID).any
          (·.code == sweepClassificationCode) &&
          (r.metadata.get (lit "chain_id") == some (intText 1) && (r.metadata.get (lit "token") == some tokenA &&
            (r.metadata.get (lit "nonce") == some (lit "0")))))))) := by
    decide +kernel
  have facts := List.all_eq_true.mp all row member
  simp only [Bool.and_eq_true, beq_iff_eq, Option.any_eq_true, isOk_iff] at facts
  obtain ⟨uid, ref, tracked, readable, sweep, chain, token, nonce⟩ := facts
  have only : ∀ r ∈ launched.base.bookings.store.bookings, r = row := fun r inside =>
    List.mem_singleton.mp (one ▸ inside)
  have asked : trackedHash (mineFirst launched) row = lit "0x11" := tracked
  have receipts : launched.base.bookings.receipts.all fun x => x.idempotencyKey != sweepFailedKey
    (pgToUID bookingUID) (lit "0x11") &&
      (x.idempotencyKey != sweepConfirmedKey (pgToUID bookingUID) (lit "0x11") &&
        x.idempotencyKey != sweepFailedKey (pgToUID bookingUID) (lit "0x33")) := by decide +kernel
  have keys := List.all_eq_true.mp receipts
  simp only [Bool.and_eq_true, bne_iff_ne] at keys
  have columns : ∀ r ∈ launched.base.bookings.store.bookings,
      launched.base.bookings.lifecycle r.classificationID = some sweepLifecycle ∧
        textFits (movedRef r (confirmation (mineFirst launched) r)) = true ∧
        jsonbFits (r.metadata.copy .empty) = true ∧
        (fitsUnits 30 r.settledAmount = true ∧ 0 ≤ r.settledAmount) ∧
        textFits (confirmation (mineFirst launched) r).idempotencyKey = true := by decide +kernel
  obtain ⟨lifecycle, reference, metadata, settled, key⟩ := columns row member
  refine ⟨row, uid, launched_owned.rows, launched_owned.classes, fun r inside => ?_, member, sweep,
    ⟨chain, token⟩, ⟨0, ?_⟩, fun r inside _ _ _ => only r inside, fun _ r inside => ?_,
    fun cls found => ?_, fun _ =>
      ⟨⟨(by decide : textFits confirmed = true), (by decide : textFits onchainSource = true),
        reference, metadata, (by decide : fitsUnits 30 (toUnits 18 .zero) = true), settled, nofun,
        fun _ r inside other => absurd (by rw [only r inside]) other,
      fun _ r inside other => absurd (by rw [only r inside]) other⟩, key⟩,
    ⟨OnchainSample.uid 250, by decide +kernel⟩,
    ⟨lit "0x33", by decide, fun _ => ?_, fun r inside => ?_⟩, rfl, rfl, by decide, ?_⟩
  · rw [only r inside]
    exact readable
  · rw [nonce]
    decide
  · rw [asked, uid, ref]
    exact ⟨(keys r inside).1, (keys r inside).2.1⟩
  · rw [show cls.id = row.classificationID by simpa using List.find?_some found]
    exact lifecycle
  · show Included (mineFirst launched) 1 (lit "0x33") = false
    decide +kernel
  · rw [uid]
    exact (keys r inside).2.2
  · decide

end SweepSample

theorem mined_sweep_completes_iff_launched : ∃ row, SweepBooking SweepSample.config
    (SweepSample.policyOf SweepSample.tokenA)
    SweepSample.market (SweepSample.mineFirst SweepSample.launched) row ∧
    Mined (SweepSample.policyOf SweepSample.tokenA) row.uid
    (SweepSample.mineFirst SweepSample.launched) ∧
    Completes SweepSample.config (SweepSample.policyOf SweepSample.tokenA)
    SweepSample.market row.uid
      (SweepSample.mineFirst SweepSample.launched) := by
  obtain ⟨row, uid, booking⟩ := SweepSample.launched_booking
  have mined : Mined (SweepSample.policyOf SweepSample.tokenA) row.uid
    (SweepSample.mineFirst SweepSample.launched) := by
    rw [uid]
    exact SweepSample.mined_of_minedFor (by decide +kernel)
  have all : SweepSample.launched.base.bookings.store.bookings.all fun r => r.status == sent &&
      Included (SweepSample.mineFirst SweepSample.launched) 1
        (trackedHash (SweepSample.mineFirst SweepSample.launched) r) := by
    decide +kernel
  have noticed := List.all_eq_true.mp all row booking.member
  rw [Bool.and_eq_true, beq_iff_eq] at noticed
  exact ⟨row, booking, mined, (mined_sweep_completes_iff _ _ _ _ _ booking).mpr
    (fun _ => .inr noticed) mined⟩

/-- The first transaction is mined while the job asks for the replacement, and the booking may stay
sent for ever. -/
theorem mined_sweep_unnoticed :
    Run (SweepStep SweepSample.config 1 fun _ _ => True) SweepSample.world
      (SweepSample.mineFirst SweepSample.bumped) ∧
    Mined (SweepSample.policyOf SweepSample.tokenA) SweepSample.bookingUID
    (SweepSample.mineFirst SweepSample.bumped) ∧
    ¬Completes SweepSample.config (SweepSample.policyOf SweepSample.tokenA) SweepSample.market
    SweepSample.bookingUID
      (SweepSample.mineFirst SweepSample.bumped) := by
  refine ⟨?_, SweepSample.mined_of_minedFor (by decide +kernel),
    SweepSample.bumped_stalled.not_completes (by decide) _ _⟩
  exact .tail (.tail SweepSample.run_launched
    (SweepSample.step_tick (SweepSample.cheap (lit "0x22") 100) 40 SweepSample.tokenA _ trivial))
    (SweepSample.step_mineFirst SweepSample.bumped_owned)

end Ledger.Service
