import Ledger.Service.SweepRuns

namespace Ledger.Service

open Chains Core Postgres Shared Sweep

structure Holding (s : BookingTables) (chainID : Int) (row : BookingRow) (nonce : Nat) : Prop where
  member : row ∈ s.store.bookings
  sweep : IsSweep s.store row
  chain : row.metadata.get (lit "chain_id") = some (intText chainID)
  nonce : (row.metadata.get (lit "nonce")).bind parseUint64 = some nonce
  isOpen : row.status = pending ∨ row.status = sent

def Node.Has (node : Node) (uid : Uuid) (nonce : Nat) : Prop := ∃ b ∈ node.accepted, b.bookingUID =
    pgToUID uid ∧ b.tx.nonce = nonce

structure NoncesOwned (chainID : Int) (w : SweepWorld) : Prop where
  rows : DepositRows w.base.bookings
  classes : UniqueClasses w.base.bookings.store
  below : ∀ b ∈ (w.node chainID).accepted, b.tx.nonce < (w.node chainID).pendingNonce
  owner : ∀ b ∈ (w.node chainID).accepted, ∀ b' ∈ (w.node chainID).accepted, b.tx.nonce =
    b'.tx.nonce → b.bookingUID = b'.bookingUID
  -- Either the broadcast was made, or it would be the next transaction of the signer.
  held : ∀ row n, Holding w.base.bookings chainID row n → (w.node chainID).Has row.uid n ∨ n =
    (w.node chainID).pendingNonce
  waiting : ∀ row row', Holding w.base.bookings chainID row (w.node chainID).pendingNonce →
    Holding w.base.bookings chainID row' (w.node chainID).pendingNonce → row = row'

section

variable {cfg : SweepConfig} {chainID : Int} {w w' : SweepWorld}

section

variable (owned : NoncesOwned chainID w)
include owned

theorem NoncesOwned.still (still : Still w w') : NoncesOwned chainID w' := by
  obtain ⟨rows, classes, below, owner, held, waiting⟩ := owned
  rw [← still.bookings] at rows classes held waiting
  rw [← still.node] at below owner held waiting
  exact ⟨rows, classes, below, owner, held, waiting⟩

variable {n : Nat}

theorem NoncesOwned.has_lt {uid : Uuid} (has : (w.node chainID).Has uid n) : n <
    (w.node chainID).pendingNonce := by
  obtain ⟨b, member, -, rfl⟩ := has
  exact owned.below b member

variable {row : BookingRow}

theorem NoncesOwned.distinct {row' : BookingRow} (holds : Holding w.base.bookings chainID row n)
    (holds' : Holding w.base.bookings chainID row' n) : row = row' := by
  rcases owned.held row n holds with has | next <;>
    rcases owned.held row' n holds' with has' | next'
  · obtain ⟨b, member, uid, nonce⟩ := has
    obtain ⟨b', member', uid', nonce'⟩ := has'
    have same := owned.owner b member b' member' (by rw [nonce, nonce'])
    rw [uid, uid'] at same
    exact List.inj_on_of_nodup_map owned.rows.uids holds.member holds'.member (pgToUID_injective same)
  · have := owned.has_lt has
    omega
  · have := owned.has_lt has'
    omega
  · subst next
    exact owned.waiting row row' holds holds'

theorem NoncesOwned.accept {b : Broadcast} (holds : Holding w.base.bookings chainID row b.tx.nonce)
    (uid : b.bookingUID = pgToUID row.uid) (chain : b.tx.chainID = chainID) :
    NoncesOwned chainID (w.accept b) ∧ ((w.accept b).node chainID).Has row.uid b.tx.nonce := by
  have node : (w.accept b).node chainID = (w.node chainID).accept b := by
    subst chain
    exact Function.update_self ..
  have accepted : ∀ c, c ∈ ((w.accept b).node chainID).accepted ↔ c ∈
    (w.node chainID).accepted ∨ c = b := by
    intro c
    rw [node, Node.accept, List.mem_append, List.mem_singleton]
  have has : ((w.accept b).node chainID).Has row.uid b.tx.nonce :=
    ⟨b, (accepted b).mpr (.inr rfl), uid, rfl⟩
  have kept : ∀ uid n, (w.node chainID).Has uid n → ((w.accept b).node chainID).Has uid n := by
    rintro u n ⟨c, member, more⟩
    exact ⟨c, (accepted c).mpr (.inl member), more⟩
  -- An earlier transaction at this nonce was for this booking too.
  have owner : ∀ c ∈ (w.node chainID).accepted, c.tx.nonce = b.tx.nonce →
    c.bookingUID = b.bookingUID := by
    intro c member same
    rcases owned.held row _ holds with ⟨d, memberD, uidD, nonceD⟩ | next
    · rw [owned.owner c member d memberD (by rw [same, nonceD]), uidD, uid]
    · have := owned.below c member
      omega
  have next : ((w.accept b).node chainID).pendingNonce =
      if b.tx.nonce = (w.node chainID).pendingNonce then (w.node chainID).pendingNonce + 1
        else (w.node chainID).pendingNonce := by
    rw [node, Node.accept]
  refine ⟨⟨owned.rows, owned.classes, ?_, ?_, ?_, ?_⟩, has⟩
  · intro c member
    rw [next]
    rcases (accepted c).mp member with old | rfl
    · have := owned.below c old
      split <;> omega
    · split
      · omega
      · rcases owned.held row _ holds with has | other
        · exact owned.has_lt has
        · contradiction
  · intro c memberC d memberD same
    rcases (accepted c).mp memberC with oldC | rfl <;> rcases (accepted d).mp memberD with oldD | rfl
    · exact owned.owner c oldC d oldD same
    · exact owner c oldC same
    · exact (owner d oldD same.symm).symm
    · rfl
  · intro other n holdsOther
    rcases owned.held other n holdsOther with hasOther | rfl
    · exact .inl (kept _ _ hasOther)
    · rw [next]
      split
      · rename_i at_
        rw [at_] at holds has
        left
        rw [owned.waiting other row holdsOther holds]
        exact has
      · exact .inr rfl
  · intro other other' holdsOther holdsOther'
    rw [next] at holdsOther holdsOther'
    split at holdsOther
    · rcases owned.held other _ holdsOther with hasOther | wrong
      · have := owned.has_lt hasOther
        omega
      · omega
    · rename_i away
      rw [if_neg away] at holdsOther'
      exact owned.waiting other other' holdsOther holdsOther'

theorem NoncesOwned.rewrite (node : w'.node = w.node) (rows : DepositRows w'.base.bookings)
    (classes : UniqueClasses w'.base.bookings.store) (new : BookingRow)
    (changed : ∀ row n, Holding w'.base.bookings chainID row n →
      Holding w.base.bookings chainID row n ∨
      row = new ∧ ((w.node chainID).Has new.uid n ∨ n = (w.node chainID).pendingNonce ∧
        ∀ row, ¬Holding w.base.bookings chainID row n)) :
    NoncesOwned chainID w' := by
  refine ⟨rows, classes, ?_, ?_, ?_, ?_⟩ <;> rw [node]
  · exact owned.below
  · exact owned.owner
  · intro row n holds
    rcases changed row n holds with old | ⟨rfl, has | ⟨next, -⟩⟩
    · exact owned.held row n old
    · exact .inl has
    · exact .inr next
  · intro row row' holds holds'
    rcases changed row _ holds with old | ⟨rfl, has | ⟨-, free⟩⟩
    · rcases changed row' _ holds' with old' | ⟨rfl, has | ⟨-, free⟩⟩
      · exact owned.waiting row row' old old'
      · exact absurd (owned.has_lt has) (lt_irrefl _)
      · exact absurd old (free row)
    · exact absurd (owned.has_lt has) (lt_irrefl _)
    · rcases changed row' _ holds' with old' | ⟨rfl, -⟩
      · exact absurd old' (free row')
      · rfl

theorem NoncesOwned.moved (node : w'.node = w.node) {input : TransitionInput} {op op' : BookingRow}
    (moved : RowMoved w.base.bookings w'.base.bookings input op op')
    (member : op ∈ w.base.bookings.store.bookings)
    (besides : Besides input.metadata) (fits : ∀ n, Holding w'.base.bookings chainID op' n →
      (w.node chainID).Has op.uid n ∨
      n = (w.node chainID).pendingNonce ∧ ∀ row, ¬Holding w.base.bookings chainID row n) :
      NoncesOwned chainID w' := by
  obtain ⟨_, _, store⟩ := moved.store
  have ledger : w'.base.bookings.store.ledger = w.base.bookings.store.ledger := by rw [store]
  refine owned.rewrite node (moved.keeps owned.rows member besides).1 ?_ op' fun row n holds => ?_
  · obtain ⟨ids, uids, codes⟩ := owned.classes
    rw [← ledger] at ids uids codes
    exact ⟨ids, uids, codes⟩
  · have inside := holds.member
    rw [moved.bookings] at inside
    obtain ⟨old, was, is⟩ := List.mem_map.mp inside
    split at is
    · subst is
      rw [moved.same.uid]
      exact .inr ⟨rfl, fits n holds⟩
    · subst is
      refine .inl ⟨was, ?_, holds.chain, holds.nonce, holds.isOpen⟩
      have sweep := holds.sweep
      rw [IsSweep, ledger] at sweep
      exact sweep

theorem NoncesOwned.created (node : w'.node = w.node) {input : CreateBookingInput}
    (created : RowCreated w.base.bookings w'.base.bookings input row)
    (free : ∀ other, ¬Holding w.base.bookings chainID other (w.node chainID).pendingNonce)
    (fits : ∀ n, Holding w'.base.bookings chainID row n → n = (w.node chainID).pendingNonce) :
    NoncesOwned chainID w' := by
  obtain ⟨_, store⟩ := created.store
  have ledger : w'.base.bookings.store.ledger = w.base.bookings.store.ledger := by rw [store]
  refine owned.rewrite node (created.keeps owned.rows).1 ?_ row fun other n holds => ?_
  · obtain ⟨ids, uids, codes⟩ := owned.classes
    rw [← ledger] at ids uids codes
    exact ⟨ids, uids, codes⟩
  · have inside := holds.member
    rw [created.bookings, List.mem_append, List.mem_singleton] at inside
    rcases inside with old | rfl
    · refine .inl ⟨old, ?_, holds.chain, holds.nonce, holds.isOpen⟩
      have sweep := holds.sweep
      rw [IsSweep, ledger] at sweep
      exact sweep
    · obtain rfl := fits n holds
      exact .inr ⟨rfl, .inr ⟨rfl, free⟩⟩

end

theorem transition_served {input : TransitionInput}
    {ans : SweepRequest.Answer (.port (.transition input))}
    (served : SweepServes cfg w (.port (.transition input)) ans w') :
    Still w w' ∨ w'.node = w.node ∧
      ∃ op ∈ w.base.bookings.store.bookings, Uuid.parse input.bookingUID = some op.uid ∧
        ∃ op', RowMoved w.base.bookings w'.base.bookings input op op' := by
  obtain ⟨base, answered, rfl⟩ := served
  cases answered.written with
  | nothing | counted | queued => exact .inl ⟨rfl, rfl⟩
  | moved env input s evt ok =>
    obtain ⟨op, member, uid, rfl | moved⟩ := transition_rows ok
    · exact .inl ⟨rfl, rfl⟩
    · exact .inr ⟨rfl, op, member, uid, moved⟩

theorem NoncesOwned.transition (owned : NoncesOwned chainID w) {input : TransitionInput}
    {ans : SweepRequest.Answer (.port (.transition input))}
    (served : SweepServes cfg w (.port (.transition input)) ans w') {row : BookingRow} {n : Nat}
    (holds : Holding w.base.bookings chainID row n) (uid : input.bookingUID = pgToUID row.uid)
    (silent : input.metadata = .empty)
    (fits : input.toStatus = pending ∨ input.toStatus = sent → (w.node chainID).Has row.uid n) :
    NoncesOwned chainID w' := by
  rcases transition_served served with still | ⟨node, op, member, parsed, op', moved⟩
  · exact owned.still still
  · have same : op = row := by
      rw [uid, show Uuid.parse (pgToUID row.uid) = some row.uid from Uuid.parse_print _] at parsed
      exact List.inj_on_of_nodup_map owned.rows.uids member holds.member (Option.some.inj parsed).symm
    subst same
    refine owned.moved node moved member (by rw [silent]; exact besides_empty) fun m held => .inl ?_
    have opens := held.isOpen
    rw [moved.status] at opens
    -- The metadata is written back as it was.
    have nonce := held.nonce
    rw [moved.metadata, silent, get_merged (owned.rows.valid op member)
      (fun e absent => (List.not_mem_nil absent).elim)
      (SortedMap.get_empty _), holds.nonce] at nonce
    rw [← Option.some.inj nonce]
    exact fits opens

end

section

variable {cfg : SweepConfig} {chainID : Int} {w : SweepWorld} {row : BookingRow}
  {b : Booking} {n : Nat}

structure Launched (chainID : Int) (row : BookingRow) (n : Nat) (w : SweepWorld) : Prop where
  owned : NoncesOwned chainID w
  holds : Holding w.base.bookings chainID row n
  has : (w.node chainID).Has row.uid n

variable {w' : SweepWorld}

theorem Holding.still (holds : Holding w.base.bookings chainID row n) (still : Still w w') :
    Holding w'.base.bookings chainID row n := by
  rw [still.bookings]
  exact holds

theorem Launched.still (launched : Launched chainID row n w) (still : Still w w') :
    Launched chainID row n w' := by
  refine ⟨launched.owned.still still, launched.holds.still still, ?_⟩
  rw [still.node]
  exact launched.has

section

variable (owned : NoncesOwned chainID w)
include owned

section

variable (holds : Holding w.base.bookings chainID row n)
include holds

theorem batchSweep_launches {uid : GoString} (named : uid = pgToUID row.uid) (token : GoString)
    (targets : List SweepTarget) (prior : GoString) :
    Tries (SweepServes cfg) (batchSweep cfg uid chainID token targets n prior)
    (fun _ => Launched chainID row n) (fun _ _ => True)
      (NoncesOwned chainID) w := by
  have reading : ∀ w', Still w w' → NoncesOwned chainID w' := fun _ => owned.still
  unfold batchSweep
  refine (keeps_ofResult _).then reading (fun _ _ _ => trivial) fun _ w₁ still₁ => ?_
  refine (keeps_ofResult _).then (fun _ s => reading _ (still₁.trans s))
    (fun _ _ _ => trivial) fun _ w₂ s => ?_
  have still₂ := still₁.trans s
  refine (keeps_ofResult _).then (fun _ s => reading _ (still₂.trans s))
    (fun _ _ _ => trivial) fun _ w₃ s => ?_
  have still₃ := still₂.trans s
  refine (keeps_ofResult _).then (fun _ s => reading _ (still₃.trans s))
    (fun _ _ _ => trivial) fun _ w₄ s => ?_
  have still₄ := still₃.trans s
  refine (keeps_quoteFee (reads_still cfg) chainID n prior).then
    (fun _ s => reading _ (still₄.trans s)) (fun _ _ _ => trivial) fun fee w₅ s => ?_
  have still₅ := still₄.trans s
  refine keeps_thenIn (keeps_try (reads_still cfg _ (by rfl)))
    (fun _ s => reading _ (still₅.trans s)) (fun _ _ _ => trivial) fun gas w₆ s => ?_
  have still₆ := still₅.trans s
  refine keeps_thenIn (keeps_try (reads_still cfg _ (by rfl)))
    (fun _ s => reading _ (still₆.trans s)) (fun _ _ _ => trivial) fun hash w₇ s => ?_
  have still₇ := still₆.trans s
  have owned₇ := owned.still still₇
  have holds₇ := holds.still still₇
  refine tries_bind.mpr (tries_context (tries_try.mpr ⟨owned₇, fun ans w₈ served => ?_⟩))
  rcases served with rfl | ⟨rfl, err, failed⟩
  · obtain ⟨owned₈, has⟩ :=
      owned₇.accept (b := ⟨uid, ⟨chainID, n, fee, if gas = 0 then defaultSweepGasLimit else gas,
      targets.map (·.accountHolder), token⟩, hash⟩) holds₇ named rfl
    refine ⟨⟨fun _ _ => ?_, fun _ _ => trivial⟩, owned₈⟩
    have launched : Launched chainID row n _ := ⟨owned₈, holds₇, has⟩
    exact call_then rfl (fun _ s => owned₈.still s) fun _ w₉ _ s => ⟨launched.still s, owned₈.still s⟩
  · refine ⟨⟨fun _ ok => ?_, fun _ _ => trivial⟩, owned₇⟩
    rw [failed] at ok
    cases ok

theorem transitionSweep_owned {status : Status} {uid ref key : GoString}
    (named : uid = pgToUID row.uid)
    (fits : status = pending ∨ status = sent → (w.node chainID).Has row.uid n) :
    Tries (SweepServes cfg) (transitionSweep (sweepTransition uid status ref .empty key))
    (fun _ => NoncesOwned chainID)
      (fun _ _ => True) (NoncesOwned chainID) w := by
  refine tries_try.mpr ⟨owned, fun ans w' served => ?_⟩
  have owned' := owned.transition served holds named rfl fits
  exact ⟨⟨fun _ _ => owned', fun _ _ => trivial⟩, owned'⟩

theorem broadcastSweep_owned (read : ReadAs row b) (policy : SweepPolicy) (token : GoString)
    (addrs : List GoString) :
    Tries (SweepServes cfg) (broadcastSweep cfg b policy chainID token n addrs) (fun _ _ => True)
    (fun e _ => e ≠ orphanedBroadcast)
      (NoncesOwned chainID) w := by
  unfold broadcastSweep
  refine keeps_thenIn (keeps_sweepTargets (reads_still cfg) addrs) (fun _ => owned.still)
    (fun _ _ _ => wrap_ne_orphaned (by decide +kernel))
    fun targets w₁ still₁ => ?_
  refine keeps_thenIn (keeps_replacementGasPrice (reads_still cfg) chainID n [])
    (fun _ s => owned.still (still₁.trans s))
    (fun _ _ _ => wrap_ne_orphaned (by decide +kernel)) fun price w₂ s => ?_
  have still₂ := still₁.trans s
  have owned₂ := owned.still still₂
  split
  · exact ⟨trivial, owned₂⟩
  refine tries_bind.mpr
    (tries_context ((batchSweep_launches owned₂ (holds.still still₂) read.uid token
      targets []).mono (fun _ => id)
    (fun hash w₃ _ launched => ?_) fun _ _ _ _ => wrap_ne_orphaned (by decide +kernel)))
  refine call_then rfl (fun _ s => (launched.still s).owned) fun _ w₄ _ s => ?_
  have launched₄ := launched.still s
  refine tries_bind.mpr
    (tries_context ((transitionSweep_owned launched₄.owned launched₄.holds read.uid fun _ =>
      launched₄.has).mono (fun _ => id)
    (fun _ w₅ _ owned₅ => ?_) fun _ _ _ _ => wrap_ne_orphaned (by decide +kernel)))
  exact call_last rfl (fun _ => owned₅.still) fun _ _ _ => trivial

theorem dispatchSweep_owned (read : ReadAs row b) (policy : SweepPolicy)
    (origin : SweepOrigin) (token : GoString)
    (addrs : List GoString) :
    Tries (SweepServes cfg) (dispatchSweep cfg b policy origin chainID token n addrs)
    (fun _ _ => True)
      (fun e _ => e = orphanedBroadcast → origin = .resumed ∧ (w.node chainID).Has row.uid n)
      (NoncesOwned chainID) w := by
  have broadcast : ∀ w', Still w w' →
    Tries (SweepServes cfg) (broadcastSweep cfg b policy chainID token n addrs) (fun _ _ => True)
      (fun e _ => e = orphanedBroadcast → origin = .resumed ∧ (w.node chainID).Has row.uid n)
        (NoncesOwned chainID) w' := fun w' still =>
    (broadcastSweep_owned (owned.still still) (holds.still still) read policy token addrs).mono
      (fun _ => id) (fun _ _ _ => id)
      fun _ _ _ differs same => absurd same differs
  unfold dispatchSweep
  split
  · rename_i resumed
    refine tries_bind.mpr
      (tries_bind.mpr (tries_context
        (tries_context (tries_try.mpr ⟨owned, fun ans w₁ served => ?_⟩))))
    obtain ⟨rfl, answered⟩ := served
    refine ⟨⟨fun next ok => ?_, fun _ _ same =>
      absurd same (wrap_ne_orphaned (by decide +kernel))⟩, owned⟩
    refine tries_ofResult.mpr ⟨⟨fun _ _ => broadcast _ (.refl _), fun e refused _ => ⟨resumed, ?_⟩⟩,
      owned⟩
    -- The answer is the node's own count, and the guard failed.
    have own : next = (w₁.node chainID).pendingNonce := by
      rcases answered with answered | ⟨err, failed⟩
      · exact Except.ok.inj (ok.symm.trans answered)
      · exact absurd (ok.symm.trans failed) nofun
    have spent : n < next := by
      by_contra fresh
      rw [require, if_pos (decide_eq_true fresh)] at refused
      cases refused
    rcases owned.held row n holds with has | waits
    · exact has
    · omega
  · exact broadcast w (.refl w)

theorem recheckSweepSent_owned (read : ReadAs row b) (policy : SweepPolicy) (token : GoString)
    (addrs : List GoString) :
    Tries (SweepServes cfg) (recheckSweepSent cfg b policy chainID token n addrs) (fun _ _ => True)
      (fun e _ => e ≠ orphanedBroadcast) (NoncesOwned chainID) w := by
  have closes : ∀ {w' : SweepWorld} (_ : Still w w') {text : String} {status : Status}
    {ref key : GoString},
      9 ≤ text.toList.length ∧ text.toList.take 9 ≠ refusalHead → status ≠ pending → status ≠ sent →
      Tries (SweepServes cfg) (do
        let _ ← context text (transitionSweep (sweepTransition b.uid status ref .empty key))
        call (.forgetSweepTx b.uid)) (fun _ _ => True) (fun e _ => e ≠ orphanedBroadcast) (NoncesOwned chainID) w' := by
    intro w' still text status ref key differs open₁ open₂
    have owned' := owned.still still
    refine tries_bind.mpr
      (tries_context ((transitionSweep_owned owned' (holds.still still)
        read.uid ?_).mono (fun _ => id)
      (fun _ w₅ _ owned₅ => call_last rfl (fun _ => owned₅.still) fun _ _ _ => trivial) fun _ _ _
        _ => wrap_ne_orphaned differs))
    rintro (same | same)
    · exact absurd same open₁
    · exact absurd same open₂
  unfold recheckSweepSent
  refine call_then rfl (fun _ => owned.still) fun tracked w₁ _ still₁ => ?_
  refine keeps_thenIn (keeps_try (reads_still cfg _ (by rfl)))
    (fun _ s => owned.still (still₁.trans s)) (fun _ _ _ => wrap_ne_orphaned (by decide +kernel))
    fun included w₂ s => ?_
  have still₂ := still₁.trans s
  split
  · exact closes still₂ (by decide +kernel) (by decide) (by decide)
  refine call_then rfl (fun _ s => owned.still (still₂.trans s)) fun waited w₃ _ s => ?_
  have still₃ := still₂.trans s
  cases waited with
  | none => exact call_last rfl (fun _ s => owned.still (still₃.trans s)) fun _ _ _ => trivial
  | some waited =>
    dsimp only
    split
    · exact ⟨trivial, owned.still still₃⟩
    refine call_then rfl (fun _ s => owned.still (still₃.trans s)) fun bumps w₄ _ s => ?_
    have still₄ := still₃.trans s
    split
    · exact closes still₄ (by decide +kernel) (by decide) (by decide)
    refine keeps_thenIn (keeps_replacementGasPrice (reads_still cfg) chainID n _)
      (fun _ s => owned.still (still₄.trans s))
      (fun _ _ _ => wrap_ne_orphaned (by decide +kernel)) fun price w₅ s => ?_
    have still₅ := still₄.trans s
    split
    · exact ⟨trivial, owned.still still₅⟩
    refine keeps_thenIn (keeps_sweepTargets (reads_still cfg) addrs)
      (fun _ s => owned.still (still₅.trans s)) (fun _ _ _ => wrap_ne_orphaned (by decide +kernel))
      fun targets w₆ s => ?_
    have still₆ := still₅.trans s
    refine tries_bind.mpr
      (tries_context ((batchSweep_launches (owned.still still₆) (holds.still still₆) read.uid
        token targets _).mono
      (fun _ => id) (fun hash w₇ _ launched => ?_) fun _ _ _ _ => wrap_ne_orphaned (by decide +kernel)))
    refine call_then rfl (fun _ s => (launched.still s).owned) fun _ w₈ _ s₈ => ?_
    refine call_then rfl (fun _ s => (launched.still (s₈.trans s)).owned) fun _ w₉ _ s₉ => ?_
    exact call_last rfl (fun _ s => (launched.still ((s₈.trans s₉).trans s)).owned) fun _ _ _ => trivial

end

end

theorem error_of_orError {α : Type} {value : Option α} {err e : Error}
    (failed : orError value err = .error e) : e = err := by
  cases value with
  | none => exact (Except.error.inj failed).symm
  | some a => cases failed

theorem advanceSweep_owned (owned : NoncesOwned chainID w) (read : ReadAs row b)
    (chain : row.metadata.get (lit "chain_id") = some (intText chainID))
    (holds : row.status = pending ∨ row.status = sent → ∀ n, (row.metadata.get (lit "nonce")).bind
      parseUint64 = some n →
      Holding w.base.bookings chainID row n) (policy : SweepPolicy) (origin : SweepOrigin) :
    Tries (SweepServes cfg) (advanceSweep cfg b policy origin) (fun _ _ => True)
      (fun e _ => e = orphanedBroadcast → origin = .resumed ∧ ∃ n, Holding w.base.bookings chainID
        row n ∧ row.status = pending ∧
        (w.node chainID).Has row.uid n) (NoncesOwned chainID) w := by
  unfold advanceSweep
  refine tries_bind.mpr (tries_ofResult.mpr ⟨⟨fun c parsed => ?_, fun e failed same => ?_⟩, owned⟩)
  · rw [orError_eq_ok, read.metadata, chain] at parsed
    obtain rfl := eq_of_parseInt_intText (show parseInt 64 (intText chainID) = some c from parsed)
    refine tries_bind.mpr
      (tries_ofResult.mpr ⟨⟨fun n parsedNonce => ?_, fun e failed same => ?_⟩, owned⟩)
    · rw [orError_eq_ok, read.metadata] at parsedNonce
      dsimp only
      split
      · rename_i isPending
        rw [read.status] at isPending
        have held := holds (.inl isPending) n parsedNonce
        exact (dispatchSweep_owned owned held read policy origin _ _).mono (fun _ => id) (fun _ _ _ => id)
          fun e _ _ refused same => ⟨(refused same).1, n, held, isPending, (refused same).2⟩
      · split
        · rename_i isSent
          rw [read.status] at isSent
          exact (recheckSweepSent_owned owned (holds (.inr isSent) n parsedNonce) read policy _
            _).mono (fun _ => id) (fun _ _ _ => id)
            fun e _ _ differs same => absurd same differs
        · exact ⟨trivial, owned⟩
    · rw [error_of_orError failed] at same
      cases same
  · rw [error_of_orError failed] at same
    cases same

theorem eq_of_parseUint64_intText {m : Nat}
    (parsed : parseUint64 (intText n) = some m) : m = n := by
  have text : intText (n : Int) = digitsFuel (n + 1) n := if_neg (by omega)
  rw [parseUint64, text, parseDigits_digits] at parsed
  change (if n < 2 ^ 64 then some n else none) = some m at parsed
  split at parsed
  · exact (Option.some.inj parsed).symm
  · cases parsed

variable {k : GoString}

theorem get_of_matches {existing input : Metadata}
    (matching : bookingMetadataMatches existing input = true)
    (compared : k ∉ bookingMetadataObservationVariantKeys) : existing.get k = input.get k := by
  have kept : ∀ m : Metadata, (stripVariant m).get k = m.get k := by
    intro m
    unfold stripVariant
    generalize bookingMetadataObservationVariantKeys = keys at compared
    induction keys generalizing m with
    | nil => rfl
    | cons key rest ih =>
      rw [List.foldl_cons, ih _ (fun inside => compared (List.mem_cons_of_mem _ inside)), SortedMap.get_erase, if_neg]
      rintro rfl
      exact compared List.mem_cons_self
  rw [← kept existing, ← kept input, of_decide_eq_true matching]

theorem get_stored {pairs : List (GoString × GoString)} {v : GoString}
    (keys : ∀ p ∈ pairs, validUtf8 p.1 = true)
    (found : (SortedMap.ofList pairs).get k = some v) (text : validUtf8 v = true) :
    (readBack (.ofList pairs)).get k = some v := by
  rw [get_readBack (fun e member => keys e (SortedMap.mem_ofList member)), found, Option.map_some,
    repair_of_valid text]

theorem validUtf8_intText (n : Int) : validUtf8 (intText n) = true :=
  validUtf8_ascii (intText_ascii n)

theorem batchMetadata_besides (nonce : Nat) (eligible : List GoString) :
    Besides (batchMetadata nonce eligible) :=
  besides_ofList [lit "nonce", lit "addresses"] rfl (by decide)

theorem get_nonce_revived {m : Metadata} (valid : validMembers m = true) (nonce : Nat)
    (eligible : List GoString) :
    (readBack (m.copy (batchMetadata nonce eligible))).get (lit "nonce") =
    some (intText nonce) := by
  have keys : ∀ e ∈ (m.copy (batchMetadata nonce eligible)).entries, validUtf8 e.1 = true := by
    intro e member
    have found := SortedMap.get_eq_some_of_mem member
    rw [SortedMap.get_copy] at found
    rcases Option.or_eq_some_iff.mp found with new | ⟨-, old⟩
    · exact (batchMetadata_besides nonce eligible).keys _ (SortedMap.mem_of_get_eq_some new)
    · exact (Bool.and_eq_true_iff.mp (List.all_eq_true.mp valid _ (SortedMap.mem_of_get_eq_some old))).1
  have named : (batchMetadata nonce eligible).get (lit "nonce") = some (intText nonce) := by
    simp only [batchMetadata, SortedMap.ofList, List.foldl, SortedMap.get_insert]
    rfl
  rw [get_readBack keys, SortedMap.get_copy, named, Option.some_or, Option.map_some, repair_of_valid
    (validUtf8_intText _)]

theorem createBooking_served {input : CreateBookingInput}
    {ans : SweepRequest.Answer (.port (.createBooking input))}
    (served : SweepServes cfg w (.port (.createBooking input)) ans w') : w'.node = w.node ∧
      (Still w w' ∨ ∃ row, RowCreated w.base.bookings w'.base.bookings input row) ∧ ∀ b, ans =
      .ok b → ∃ row, ReadAs row b ∧
        ((Still w w' ∧ row ∈ w.base.bookings.store.bookings ∧
          bookingMetadataMatches row.metadata input.metadata = true ∧
            ∃ cls, w.base.bookings.store.ledger.getClassification row.classificationID = some cls ∧
            cls.code = input.classificationCode) ∨
          RowCreated w.base.bookings w'.base.bookings input row ∧
            ∃ cls ∈ w.base.bookings.store.ledger.classifications, cls.code =
            input.classificationCode ∧ row.classificationID = cls.id) := by
  obtain ⟨base, answered, rfl⟩ := served
  refine ⟨rfl, ?_, ?_⟩
  · cases answered.written with
    | nothing | counted | queued => exact .inl ⟨rfl, rfl⟩
    | created env input s b ok =>
      rcases (createBooking_rows ok).1 with rfl | created
      · exact .inl ⟨rfl, rfl⟩
      · exact .inr created
  · rintro b rfl
    rcases answered.answer with ⟨d, answer, rfl⟩ | ⟨err, refused, -⟩
    · obtain ⟨s, ok, put⟩ := World.write_ok answer.symm
      rw [perform, put]
      obtain ⟨row, read, -, ⟨rfl, more⟩ | more⟩ := createBooking_answered ok
      · exact ⟨row, readAs_of_ok read, .inl ⟨⟨rfl, rfl⟩, more⟩⟩
      · exact ⟨row, readAs_of_ok read, .inr more⟩
    · cases refused

section

variable {policy : SweepPolicy} {eligible : List (GoString × Decimal)}

theorem createSweepInput_get (currencyUID : GoString) (nonce : Nat) :
    (createSweepInput policy currencyUID nonce eligible).metadata.get (lit "chain_id") =
    some (intText policy.chainID) ∧
    (createSweepInput policy currencyUID nonce eligible).metadata.get (lit "token") =
    some policy.token ∧
    (createSweepInput policy currencyUID nonce eligible).metadata.get (lit "nonce") =
    some (intText nonce) := by
  simp only [createSweepInput, SortedMap.ofList, List.foldl, SortedMap.get_insert]
  exact ⟨rfl, rfl, rfl⟩

theorem createSweepInput_stored (currencyUID : GoString) (nonce : Nat) {v : GoString}
    (found : (createSweepInput policy currencyUID nonce eligible).metadata.get k = some v)
    (text : validUtf8 v = true) :
    (readBack (createSweepInput policy currencyUID nonce eligible).metadata).get k = some v := by
  refine get_stored (fun p member => ?_) found text
  have named : p.1 ∈ [lit "chain_id", lit "token", lit "nonce", lit "addresses"] :=
    List.mem_map_of_mem (f := Prod.fst) member
  revert named
  generalize p.1 = key
  revert key
  decide

variable {w' : SweepWorld}

theorem getBooking_served {uid : GoString} {ans : SweepRequest.Answer (.port (.getBooking uid))}
    (served : SweepServes cfg w (.port (.getBooking uid)) ans w') (ok : ans = .ok b) :
    ∃ row ∈ w.base.bookings.store.bookings, Uuid.parse uid = some row.uid ∧ ReadAs row b := by
  obtain ⟨base, answered, -⟩ := served
  rcases answered.answer with ⟨d, answer, -⟩ | ⟨err, refused, -⟩
  · have got : w.base.bookings.getBooking uid = .ok b := answer.symm.trans ok
    simp only [BookingTables.getBooking, uidToPG, bind_eq_ok, orError_eq_ok] at got
    obtain ⟨pgUID, parsed, row, found, read⟩ := got
    have same : row.uid = pgUID := by simpa using List.find?_some found
    exact ⟨row, List.mem_of_find?_eq_some found, by rw [same]; exact parsed, readAs_of_ok read⟩
  · rw [ok] at refused
    cases refused

structure Idle (policy : SweepPolicy) (w : SweepWorld) : Prop where
  owned : NoncesOwned policy.chainID w
  free : ∀ row, ¬Holding w.base.bookings policy.chainID row (w.node policy.chainID).pendingNonce
  none : Searched w.base.bookings policy.chainID policy.token [pending, sent] none

theorem Idle.still (idle : Idle policy w) (still : Still w w') : Idle policy w' := by
  refine ⟨idle.owned.still still, ?_, ?_⟩
  · rw [still.bookings, still.node]
    exact idle.free
  · rw [still.bookings]
    exact idle.none

theorem reviveFailedSweep_owned (idle : Idle policy w) {booking : Booking}
    (found : Searched w.base.bookings policy.chainID policy.token [failed] (some booking))
    (addrs : List GoString) :
    Tries (SweepServes cfg) (reviveFailedSweep cfg booking (w.node policy.chainID).pendingNonce
      addrs policy) (fun _ _ => True)
      (fun e _ => e ≠ orphanedBroadcast) (NoncesOwned policy.chainID) w := by
  obtain ⟨row, member, sweep, status, ⟨chain, -⟩, read, -⟩ := found
  have named : Uuid.parse booking.uid = some row.uid := by
    rw [(readAs_of_ok read).uid]
    exact Uuid.parse_print _
  unfold reviveFailedSweep
  refine tries_bind.mpr (tries_context (tries_try.mpr ⟨idle.owned, fun ans w₁ served => ?_⟩))
  -- The row is as it was, or pending at the next nonce.
  have revived : NoncesOwned policy.chainID w₁ ∧ ∀ row₁ ∈ w₁.base.bookings.store.bookings,
    row₁.uid = row.uid →
      row₁.metadata.get (lit "chain_id") = some (intText policy.chainID) ∧
        (row₁.status = pending ∨ row₁.status = sent → IsSweep w₁.base.bookings.store row₁) := by
    rcases transition_served served with still | ⟨node, op, memberOp, parsed, op', moved⟩
    · refine ⟨idle.owned.still still, fun row₁ inside same => ?_⟩
      rw [still.bookings] at inside
      rw [List.inj_on_of_nodup_map idle.owned.rows.uids inside member same, still.bookings]
      exact ⟨chain, fun _ => sweep⟩
    · obtain rfl : op = row :=
        List.inj_on_of_nodup_map idle.owned.rows.uids memberOp member (Option.some.inj (parsed.symm.trans named))
      have besides := batchMetadata_besides (w.node policy.chainID).pendingNonce addrs
      have valid := idle.owned.rows.valid op member
      have owned₁ := idle.owned.moved node moved member besides fun n holds => by
        have nonce := holds.nonce
        rw [moved.metadata, sweepTransition, get_nonce_revived valid] at nonce
        obtain rfl := eq_of_parseUint64_intText nonce
        exact .inr ⟨rfl, idle.free⟩
      refine ⟨owned₁, fun row₁ inside same => ?_⟩
      have here : op' ∈ w₁.base.bookings.store.bookings := by
        rw [moved.bookings]
        exact List.mem_map.mpr ⟨op, member, if_pos rfl⟩
      obtain rfl : row₁ = op' := List.inj_on_of_nodup_map owned₁.rows.uids inside here (by rw [same, moved.same.uid])
      obtain ⟨_, _, store⟩ := moved.store
      refine ⟨?_, fun _ => ?_⟩
      · rw [moved.metadata]
        exact (get_merged valid besides.keys besides.chain).trans chain
      · rw [IsSweep, moved.same.classification, store]
        exact sweep
  obtain ⟨owned₁, rows₁⟩ := revived
  refine ⟨⟨fun _ _ => ?_, fun _ _ => wrap_ne_orphaned (by decide +kernel)⟩, owned₁⟩
  refine tries_bind.mpr (tries_context (tries_try.mpr ⟨owned₁, fun ans w₂ served => ?_⟩))
  have still := still_of_quiet rfl served
  refine ⟨⟨fun b ok => ?_, fun _ _ => wrap_ne_orphaned (by decide +kernel)⟩, owned₁.still still⟩
  obtain ⟨row₁, member₁, parsed, readB⟩ := getBooking_served served ok
  obtain ⟨chain₁, sweep₁⟩ := rows₁ row₁ member₁ (Option.some.inj (parsed.symm.trans named))
  have advance := @advanceSweep_owned cfg _ _ _ _ (owned₁.still still) readB chain₁
    (fun isOpen n nonce => Holding.still ⟨member₁, sweep₁ isOpen, chain₁, nonce, isOpen⟩ still)
      policy .justCreated
  exact advance.mono (fun _ => id) (fun _ _ _ => id) fun e _ _ refused same =>
    absurd (refused same).1 nofun

theorem createSweep_owned (idle : Idle policy w) (currencyUID : GoString) :
    Tries (SweepServes cfg) (do
      let booking ← context "sweep: create booking"
        (try_ (.port (.createBooking
          (createSweepInput policy currencyUID (w.node policy.chainID).pendingNonce eligible))) id)
      advanceSweep cfg booking policy .justCreated) (fun _ _ => True)
      (fun e _ => e ≠ orphanedBroadcast) (NoncesOwned policy.chainID) w := by
  obtain ⟨getChain, getToken, getNonce⟩ := @createSweepInput_get policy eligible currencyUID
    (w.node policy.chainID).pendingNonce
  have stored : ∀ {w' : SweepWorld} {row : BookingRow}, RowCreated w.base.bookings w'.base.bookings
      (createSweepInput policy currencyUID (w.node policy.chainID).pendingNonce eligible) row →
      row.metadata.get (lit "chain_id") = some (intText policy.chainID) ∧
      row.metadata.get (lit "nonce") = some (intText (w.node policy.chainID).pendingNonce) := by
    intro w' row created
    rw [created.metadata]
    exact ⟨createSweepInput_stored currencyUID _ getChain (validUtf8_intText _),
      createSweepInput_stored currencyUID _ getNonce (validUtf8_intText _)⟩
  refine tries_bind.mpr (tries_context (tries_try.mpr ⟨idle.owned, fun ans w₁ served => ?_⟩))
  obtain ⟨node, rows, answer⟩ := createBooking_served served
  have owned₁ : NoncesOwned policy.chainID w₁ := by
    rcases rows with still | ⟨row, created⟩
    · exact idle.owned.still still
    · refine idle.owned.created node created idle.free fun n holds => ?_
      have nonce := holds.nonce
      rw [(stored created).2] at nonce
      exact eq_of_parseUint64_intText nonce
  refine ⟨⟨fun b ok => ?_, fun _ _ => wrap_ne_orphaned (by decide +kernel)⟩, owned₁⟩
  have advance : ∀ row, ReadAs row b → row.metadata.get (lit "chain_id") =
    some (intText policy.chainID) →
      (row.status = pending ∨ row.status = sent → row ∈ w₁.base.bookings.store.bookings ∧
        IsSweep w₁.base.bookings.store row) →
      Tries (SweepServes cfg) (advanceSweep cfg b policy .justCreated) (fun _ _ => True)
        (fun e _ => e ≠ orphanedBroadcast)
        (NoncesOwned policy.chainID) w₁ := fun row read chain isOpen =>
    (advanceSweep_owned owned₁ read chain
      (fun opens n nonce => ⟨(isOpen opens).1, (isOpen opens).2, chain, nonce, opens⟩) policy
      .justCreated).mono (fun _ => id) (fun _ _ _ => id) fun e _ _ refused same => absurd (refused same).1 nofun
  obtain ⟨row, read, ⟨still, member, matching, sweep⟩ | ⟨created, cls, listed, code,
    classID⟩⟩ := answer b ok
  · -- An earlier booking of this key is closed, or the search had found it.
    have chain := (get_of_matches matching (by decide)).trans getChain
    have named : ForToken policy.chainID policy.token row.metadata :=
      ⟨chain, (get_of_matches matching (by decide)).trans getToken⟩
    exact advance row read chain fun isOpen =>
      absurd named (idle.none row member sweep (by simpa using isOpen))
  · refine advance row read (stored created).1 fun _ => ⟨?_, ?_⟩
    · rw [created.bookings]
      exact List.mem_append_right _ (List.mem_singleton_self row)
    · obtain ⟨_, store⟩ := created.store
      rw [IsSweep, store]
      exact (isSweep_iff idle.owned.classes listed code).mpr classID

theorem currencyUID_sentinel {code : GoString}
    {ans : SweepRequest.Answer (.port (.currencyUID code))}
    (served : SweepServes cfg w (.port (.currencyUID code)) ans w') {e : Error}
    (failed : ans = .error e) : e.sentinel ≠ .conflict := by
  obtain ⟨base, answered, -⟩ := served
  rcases answered.answer with ⟨d, answer, -⟩ | ⟨err, refused, outage⟩
  · have lookup : (orError (w.base.bookings.store.currencies.find? (·.code == code))
        (⟨.notFound, "service: onchain: currency code %q not registered"⟩ : Error)).map
          (pgToUID ·.uid) = .error e := answer.symm.trans failed
    cases found : w.base.bookings.store.currencies.find? (·.code == code) with
    | none =>
      rw [found] at lookup
      cases lookup
      nofun
    | some cur =>
      rw [found] at lookup
      cases lookup
  · rw [failed] at refused
    cases refused
    intro conflict
    rw [isOutage, conflict] at outage
    cases outage

theorem startSweep_owned (idle : Idle policy w) {found : Option Booking}
    (searched : Searched w.base.bookings policy.chainID policy.token [failed] found) :
    Tries (SweepServes cfg) (startSweep cfg policy found eligible) (fun _ _ => True)
    (fun e _ => e ≠ orphanedBroadcast)
      (NoncesOwned policy.chainID) w := by
  unfold startSweep
  refine tries_bind.mpr
    (tries_context (tries_context (tries_try.mpr ⟨idle.owned, fun ans w₁ served => ?_⟩)))
  obtain ⟨rfl, answered⟩ := served
  refine ⟨⟨fun nonce ok => ?_, fun _ _ => wrap_ne_orphaned (by decide +kernel)⟩, idle.owned⟩
  have own : nonce = (w₁.node policy.chainID).pendingNonce := by
    rcases answered with answered | ⟨err, failed⟩
    · exact Except.ok.inj (ok.symm.trans answered)
    · exact absurd (ok.symm.trans failed) nofun
  refine tries_bind.mpr
    (tries_bind.mpr (tries_ofResult.mpr ⟨⟨fun tc _ => ?_, fun e failed same => ?_⟩, idle.owned⟩))
  · refine tries_context (tries_try.mpr ⟨idle.owned, fun ans w₂ served => ?_⟩)
    have still := still_of_quiet rfl served
    have idle₂ := idle.still still
    refine ⟨⟨fun currencyUID _ => ?_, fun e failed => ?_⟩, idle₂.owned⟩
    · rw [own, ← still.node]
      cases found with
      | some booking =>
        rw [← still.bookings] at searched
        exact reviveFailedSweep_owned idle₂ searched _
      | none => exact createSweep_owned idle₂ currencyUID
    · -- The context begins the text of the refusal here, but no lookup of a currency is a conflict.
      intro same
      exact currencyUID_sentinel served failed (congrArg (·.sentinel) same)
  · rw [error_of_orError failed] at same
    cases same

def OthersBroadcast (policy : SweepPolicy) (w : SweepWorld) : Prop :=
  ∀ row n, Holding w.base.bookings policy.chainID row n →
    row.metadata.get (lit "token") ≠ some policy.token →
    (w.node policy.chainID).Has row.uid n

theorem idle_of_others (owned : NoncesOwned policy.chainID w) (others : OthersBroadcast policy w)
    (none : Searched w.base.bookings policy.chainID policy.token [pending, sent] none) :
    Idle policy w := by
  refine ⟨owned, fun row holds => ?_, none⟩
  by_cases token : row.metadata.get (lit "token") = some policy.token
  · exact none row holds.member holds.sweep (by simpa using holds.isOpen) ⟨holds.chain, token⟩
  · exact absurd (owned.has_lt (others row _ holds token)) (lt_irrefl _)

theorem collectSweep_owned (idle : Idle policy w) :
    Tries (SweepServes cfg) (collectSweep cfg policy) (fun _ _ => True)
    (fun e _ => e ≠ orphanedBroadcast) (NoncesOwned policy.chainID) w := by
  refine tries_bind.mpr
    ((findSweepBookingByStatus_tries policy.chainID policy.token idle.owned.classes
      [failed] (.refl w)).mono
    (fun _ => idle.owned.still) (fun found w₁ _ searched => ?_) fun e _ _ failed => failed.2)
  obtain ⟨still₁, searched⟩ := searched
  refine keeps_thenIn (keeps_try (reads_still cfg _ (by rfl)))
    (fun _ s => idle.owned.still (still₁.trans s))
    (fun _ _ _ => wrap_ne_orphaned (by decide +kernel))
    fun addrRows w₂ s => ?_
  have still₂ := still₁.trans s
  split
  · exact ⟨trivial, idle.owned.still still₂⟩
  refine keeps_thenIn (keeps_try (reads_still cfg _ (by rfl)))
    (fun _ s => idle.owned.still (still₂.trans s))
    (fun _ _ _ => wrap_ne_orphaned (by decide +kernel))
    fun scanned w₃ s => ?_
  have still₃ := still₂.trans s
  dsimp only
  split
  · exact ⟨trivial, idle.owned.still still₃⟩
  · rw [← still₃.bookings] at searched
    exact startSweep_owned (idle.still still₃) searched

/-- The booking that the tick resumes, the first pending one for the token, was broadcast. -/
def RefusedRightly (policy : SweepPolicy) (w : SweepWorld) : Prop :=
  ∃ row n, Holding w.base.bookings policy.chainID row n ∧ row.status = pending ∧
    row.metadata.get (lit "token") = some policy.token ∧
    FirstOf w.base.bookings policy.chainID policy.token row ∧ (w.node policy.chainID).Has row.uid n

theorem sweepTick_owned (owned : NoncesOwned policy.chainID w) (others : OthersBroadcast policy w) :
    Tries (SweepServes cfg) (sweepTick cfg policy) (fun _ _ => True)
    (fun e _ => e = orphanedBroadcast → RefusedRightly policy w)
      (NoncesOwned policy.chainID) w := by
  unfold sweepTick
  refine tries_bind.mpr (tries_ofResult.mpr ⟨⟨fun _ _ => ?_, fun e failed same => ?_⟩, owned⟩)
  · refine tries_bind.mpr (tries_ofResult.mpr ⟨⟨fun _ _ => ?_, fun e failed same => ?_⟩, owned⟩)
    · refine keeps_thenIn (keeps_gasPrice (reads_still cfg) policy.chainID) (fun _ => owned.still)
        (fun _ _ _ same => absurd same (wrap_ne_orphaned (by decide +kernel)))
        fun price w₁ still₁ => ?_
      split
      · exact ⟨trivial, owned.still still₁⟩
      refine tries_bind.mpr
        ((findSweepBookingByStatus_tries policy.chainID policy.token owned.classes
          [pending, sent] still₁).mono
        (fun _ => owned.still) (fun found w₂ _ searched => ?_) fun e _ _ failed same => absurd same failed.2)
      obtain ⟨still₂, searched⟩ := searched
      cases found with
      | none =>
        exact (collectSweep_owned ((idle_of_others owned others searched).still still₂)).mono
          (fun _ => id) (fun _ _ _ => id)
          fun _ _ _ differs same => absurd same differs
      | some b =>
        obtain ⟨row, member, sweep, isOpen, ⟨chain, token⟩, read, first⟩ := searched
        have advance := @advanceSweep_owned cfg _ _ _ _ (owned.still still₂) (readAs_of_ok read) chain
          (fun isOpen n nonce => Holding.still ⟨member, sweep, chain, nonce, isOpen⟩ still₂) policy .resumed
        refine advance.mono (fun _ => id) (fun _ _ _ => id) fun e _ _ refused same => ?_
        obtain ⟨-, n, holds, isPending, has⟩ := refused same
        rw [still₂.bookings] at holds
        rw [still₂.node] at has
        exact ⟨row, n, holds, isPending, token, first, has⟩
    · rw [error_of_orError failed] at same
      cases same
  · rw [require] at failed
    split at failed
    · cases failed
    · rw [← Except.error.inj failed] at same
      cases same

end

end

/-- A tick that `may` admits, stopped anywhere, or anything that leaves the open sweeps and the
signer alone: restarts, other classes, other chains. -/
inductive SweepStep (cfg : SweepConfig) (chainID : Int) (may : SweepPolicy → SweepWorld → Prop) :
    SweepWorld → SweepWorld → Prop where
  | tick (policy : SweepPolicy) {w w' : SweepWorld} {r : Option (Result Unit)}
      (on : policy.chainID = chainID) (admitted : may policy w)
      (ran : Ran (SweepServes cfg) (sweepTick cfg policy).run w r w') : SweepStep cfg chainID may w w'
  | outside {w w' : SweepWorld} (rows : DepositRows w'.base.bookings) (classes : UniqueClasses w'.base.bookings.store)
      (node : w'.node chainID = w.node chainID)
      (open_ : ∀ row n, Holding w'.base.bookings chainID row n ↔
        Holding w.base.bookings chainID row n) : SweepStep cfg chainID may w w'

structure SweepStart (chainID : Int) (w : SweepWorld) : Prop where
  rows : DepositRows w.base.bookings
  classes : UniqueClasses w.base.bookings.store
  unused : (w.node chainID).accepted = []
  none : ∀ row n, ¬Holding w.base.bookings chainID row n

theorem SweepStart.owned {chainID : Int} {w : SweepWorld} (start : SweepStart chainID w) :
    NoncesOwned chainID w where
  rows := start.rows
  classes := start.classes
  below := by simp [start.unused]
  owner := by simp [start.unused]
  held row n holds := absurd holds (start.none row n)
  waiting row _ holds := absurd holds (start.none row _)

theorem sweepStep_owned (cfg : SweepConfig) (chainID : Int) :
    Preserved (SweepStep cfg chainID OthersBroadcast) (NoncesOwned chainID) := by
  intro w w' owned step
  cases step with
  | tick policy on others ran =>
    subst on
    exact (Safe.ran (sweepTick_owned owned others) ran).1
  | outside rows classes node open_ =>
    refine ⟨rows, classes, ?_, ?_, ?_, ?_⟩ <;> rw [node]
    · exact owned.below
    · exact owned.owner
    · intro row n holds
      exact owned.held row n ((open_ row n).mp holds)
    · intro row row' holds holds'
      exact owned.waiting row row' ((open_ row _).mp holds) ((open_ row' _).mp holds')

/-- If ticks run only while the open sweeps of the other tokens have been broadcast, then nonces are
held by one booking each, and a refusal is right. -/
theorem nonce_ownership (cfg : SweepConfig) (chainID : Int) {w₀ w : SweepWorld}
    (start : SweepStart chainID w₀)
    (run : Run (SweepStep cfg chainID OthersBroadcast) w₀ w) :
    (∀ row row' n, Holding w.base.bookings chainID row n →
      Holding w.base.bookings chainID row' n → row = row') ∧
    ∀ policy w', policy.chainID = chainID → OthersBroadcast policy w →
      Ran (SweepServes cfg) (sweepTick cfg policy).run w (some (.error orphanedBroadcast)) w' →
      RefusedRightly policy w := by
  have owned := (sweepStep_owned cfg chainID).run start.owned run
  refine ⟨fun row row' n => owned.distinct, ?_⟩
  rintro policy w' rfl others ran
  exact (Safe.ran (sweepTick_owned owned others) ran).2 _ rfl rfl

namespace SweepSample

def holders (s : BookingTables) (chainID : Int) (n : Nat) : List BookingRow :=
  s.store.bookings.filter fun row => (s.store.ledger.getClassification row.classificationID).any
    (·.code == sweepClassificationCode) &&
    row.metadata.get (lit "chain_id") == some (intText chainID) &&
      (row.metadata.get (lit "nonce")).bind parseUint64 == some n &&
    (row.status == pending || row.status == sent)

theorem mem_holders {s : BookingTables} {chainID : Int} {n : Nat} {row : BookingRow} :
    row ∈ holders s chainID n ↔ Holding s chainID row n := by
  simp only [holders, List.mem_filter, Bool.and_eq_true, Bool.or_eq_true,
    beq_iff_eq, Option.any_eq_true]
  constructor
  · rintro ⟨member, ⟨⟨sweep, chain⟩, nonce⟩, isOpen⟩
    exact ⟨member, sweep, chain, nonce, isOpen⟩
  · rintro ⟨member, sweep, chain, nonce, isOpen⟩
    exact ⟨member, ⟨⟨sweep, chain⟩, nonce⟩, isOpen⟩

theorem world_start : SweepStart 1 world :=
  ⟨⟨.nil, nofun, .nil, nofun, nofun⟩, ⟨by decide, by decide, by decide⟩, rfl, fun _ _ holds =>
  nomatch holds.member⟩

theorem step_tick {may : SweepPolicy → SweepWorld → Prop} (script : Script) (n : Nat)
    (token : GoString) (w : SweepWorld)
    (admitted : may (policyOf token) w) : SweepStep config 1 may w (tick script n token w).2.1 :=
  .tick (policyOf token) rfl admitted (ran_play (answer script) (answer_serves script) _ n w)

def skip : Script := ⟨fun n => if n < 13 then 1000000000 else 5000000000, lit "0xh1", 0, fun _ =>
    false⟩

def steady : Script := ⟨fun _ => 1000000000, lit "0xh2", 0, fun _ => false⟩

def lost : Script := ⟨fun _ => 1000000000, lit "0xh1", 0, fun n => n == 24⟩

def broadcastLost : SweepWorld := (tick lost 0 tokenA world).2.1

def overtaken : SweepWorld := (tick steady 40 tokenB (tick skip 0 tokenA world).2.1).2.1

def isOrphaned : Result Unit → Bool
  | .error e => e == orphanedBroadcast
  | .ok _ => false

theorem eq_of_isOrphaned {r : Result Unit} (is : isOrphaned r = true) :
    r = .error orphanedBroadcast := by
  cases r with
  | ok => cases is
  | error e => rw [beq_iff_eq.mp is]

end SweepSample

theorem nonce_ownership_lost : ∃ w', Ran (SweepServes SweepSample.config)
    (sweepTick SweepSample.config (SweepSample.policyOf SweepSample.tokenA)).run
    SweepSample.broadcastLost (some (.error orphanedBroadcast)) w' ∧
    RefusedRightly (SweepSample.policyOf SweepSample.tokenA) SweepSample.broadcastLost := by
  have refused : (SweepSample.tick SweepSample.steady 40 SweepSample.tokenA
    SweepSample.broadcastLost).1 = .error orphanedBroadcast :=
    SweepSample.eq_of_isOrphaned (by decide +kernel)
  have others : ∀ row n, Holding SweepSample.broadcastLost.base.bookings 1 row n →
      row.metadata.get (lit "token") = some SweepSample.tokenA := by
    intro row n holds
    have all : SweepSample.broadcastLost.base.bookings.store.bookings.all
      fun row => row.metadata.get (lit "token") == some SweepSample.tokenA := by decide +kernel
    exact beq_iff_eq.mp (List.all_eq_true.mp all row holds.member)
  have ran := ran_play (SweepSample.answer SweepSample.steady)
    (SweepSample.answer_serves SweepSample.steady)
    (sweepTick SweepSample.config (SweepSample.policyOf SweepSample.tokenA)).run 40
      SweepSample.broadcastLost
  rw [show (Prog.play _ _ _ _).1 = _ from refused] at ran
  refine ⟨_, ran, ?_⟩
  refine (nonce_ownership SweepSample.config 1 SweepSample.world_start
    (.single (SweepSample.step_tick SweepSample.lost 0 SweepSample.tokenA _
      fun row n holds => absurd holds (SweepSample.world_start.none row n)))).2 _ _ rfl
      (fun row n holds differs => ?_) ran
  exact absurd (others row n holds) differs

/-- Two bookings hold nonce 0, and the one that was never broadcast is refused as if it had been. -/
theorem nonce_taken_twice : SweepStart 1 SweepSample.world ∧
    Run (SweepStep SweepSample.config 1 fun _ _ => True) SweepSample.world SweepSample.overtaken ∧
    (∃ row row', Holding SweepSample.overtaken.base.bookings 1 row 0 ∧
      Holding SweepSample.overtaken.base.bookings 1 row' 0 ∧ row ≠ row') ∧
    ∃ w', Ran (SweepServes SweepSample.config)
    (sweepTick SweepSample.config (SweepSample.policyOf SweepSample.tokenA)).run
        SweepSample.overtaken (some (.error orphanedBroadcast)) w' ∧
      ¬RefusedRightly (SweepSample.policyOf SweepSample.tokenA) SweepSample.overtaken := by
  refine ⟨SweepSample.world_start, ?_, ?_, ?_⟩
  · exact .tail (.single (SweepSample.step_tick SweepSample.skip 0 SweepSample.tokenA _ trivial))
      (SweepSample.step_tick SweepSample.steady 40 SweepSample.tokenB _ trivial)
  · have both : (SweepSample.holders SweepSample.overtaken.base.bookings 1 0).map (·.id) =
      [1, 2] := by decide +kernel
    obtain ⟨row, member, first⟩ := List.mem_map.mp (show 1 ∈ _ from both ▸ List.mem_cons_self)
    obtain ⟨row', member', second⟩ := List.mem_map.mp
      (show 2 ∈ _ from both ▸ List.mem_cons_of_mem _ List.mem_cons_self)
    refine ⟨row, row', SweepSample.mem_holders.mp member, SweepSample.mem_holders.mp member', ?_⟩
    rintro rfl
    rw [first] at second
    cases second
  · have refused : (SweepSample.tick SweepSample.steady 80 SweepSample.tokenA
      SweepSample.overtaken).1 = .error orphanedBroadcast :=
      SweepSample.eq_of_isOrphaned (by decide +kernel)
    have ran := ran_play (SweepSample.answer SweepSample.steady)
      (SweepSample.answer_serves SweepSample.steady)
      (sweepTick SweepSample.config (SweepSample.policyOf SweepSample.tokenA)).run 80 SweepSample.overtaken
    rw [show (Prog.play _ _ _ _).1 = _ from refused] at ran
    refine ⟨_, ran, ?_⟩
    rintro ⟨row, n, holds, -, token, -, b, accepted, uid, -⟩
    have never : SweepSample.overtaken.base.bookings.store.bookings.all fun row =>
        row.metadata.get (lit "token") != some SweepSample.tokenA ||
          (SweepSample.overtaken.node 1).accepted.all fun b => b.bookingUID != pgToUID row.uid := by decide +kernel
    have here := List.all_eq_true.mp never row holds.member
    rw [token, Bool.or_eq_true] at here
    rcases here with wrong | none
    · simp [SweepSample.policyOf] at wrong
    · have := List.all_eq_true.mp none b accepted
      rw [uid] at this
      simp at this

end Ledger.Service
