import Ledger.Core.AmountBytes
import Ledger.Postgres.VerifiedHoldsSpec

namespace Ledger.Postgres

open Core Shared

def Paired (sign : Attestor) (verify : AuthVerifier) : Prop :=
  ∀ digest signature keyID, sign digest = .ok (signature, keyID) →
    signature ≠ [] ∧ keyID ≠ [] ∧ verify digest signature keyID = .ok ()

/-- The call spells the reservation as the store prints it, and its clock does not read the epoch,
which the insert takes for "no instant given". -/
def Canonical (c : DischargeCall) : Prop :=
  (∃ uid, c.reservationUID = pgToUID uid) ∧
    (toMicros c.now.app = toMicros unixEpoch → toMicros c.now.txStart = toMicros unixEpoch)

structure Wrote (hash : DischargePayload → GoString) (sign : Attestor) (c : DischargeCall)
    (claim : Claim) : Prop where
  uid : Uuid.parse c.reservationUID = some claim.reservationUID
  operation : claim.operation = c.op
  key : claim.idempotencyKey = c.key
  fits : fitsUnits 30 claim.amount = true
  signed : claim.auth.digest =
    hash ⟨c.reservationUID, c.op.text, c.key, toMicros c.now.app, claim.amount⟩ ∧
    sign claim.auth.digest = .ok (claim.auth.signature, claim.auth.keyID)
  createdAt : claim.createdAt =
    if toMicros c.now.app = toMicros unixEpoch then toMicros c.now.txStart else toMicros c.now.app

variable {hash : DischargePayload → GoString} {sign : Attestor} {verify : AuthVerifier}

theorem encodeAmount_stored {units : Int} (fits : fitsUnits 30 units = true) :
    encodeAmount (numericToDecimal units) = .ok units := by
  have small : |units| < 10 ^ 30 := by
    rw [Int.abs_eq_natAbs]
    exact_mod_cast show units.natAbs < 10 ^ 30 by simpa [fitsUnits] using fits
  have bound : |(units : ℚ)| < 10 ^ 30 := by exact_mod_cast small
  have magnitude : validateAmountMagnitude (numericToDecimal units) = .ok () := by
    refine validateAmountDigits_ok_iff.mpr ⟨le_rfl, by simp [numericToDecimal, ofUnits], ?_⟩
    rw [numericToDecimal, ofUnits_val, abs_div, abs_of_pos (by positivity : (0 : ℚ) < 10 ^ 18),
      div_lt_iff₀ (by positivity)]
    norm_num at bound ⊢
    exact bound
  obtain ⟨encoded, ok⟩ := encodeAmount_of_magnitude magnitude
  have value := (encodeAmount_ok ok).1
  rw [numericToDecimal, ofUnits_val, div_mul_cancel₀ _ (by positivity)] at value
  rw [ok, show encoded = units by exact_mod_cast value]

def DischargeCall.payload (c : DischargeCall) (units : Int) : DischargePayload :=
  ⟨c.reservationUID, c.op.text, c.key, toMicros c.now.app, units⟩

def Claim.payload (claim : Claim) : DischargePayload :=
  ⟨pgToUID claim.reservationUID, claim.operation.text, claim.idempotencyKey,
    claim.createdAt, claim.amount⟩

variable {c : DischargeCall}

theorem Wrote.payload_eq_iff {claim : Claim} (wrote : Wrote hash sign c claim) :
    claim.payload = c.payload claim.amount ↔ Canonical c := by
  have spelled : pgToUID claim.reservationUID = c.reservationUID ↔
    ∃ uid, c.reservationUID = pgToUID uid := by
    constructor
    · intro same
      exact ⟨_, same.symm⟩
    · rintro ⟨uid, same⟩
      have parsed := wrote.uid
      rw [same, pgToUID, Uuid.parse_print, Option.some.injEq] at parsed
      rw [same, ← parsed]
  have timed : claim.createdAt = toMicros c.now.app ↔
      (toMicros c.now.app = toMicros unixEpoch → toMicros c.now.txStart = toMicros unixEpoch) := by
    rw [wrote.createdAt]
    split
    · next epoch => simp [epoch]
    · next other => simp [other]
  rw [Claim.payload, DischargeCall.payload, wrote.operation, wrote.key, DischargePayload.mk.injEq,
    Canonical, ← spelled, ← timed]
  tauto

theorem Wrote.verifies_iff_hash {claim : Claim} (wrote : Wrote hash sign c claim)
    (nonempty : ∀ payload, hash payload ≠ []) (paired : Paired sign verify) :
    claim.verifies hash verify = true ↔ hash claim.payload = hash (c.payload claim.amount) := by
  obtain ⟨digest, signature⟩ := wrote.signed
  obtain ⟨signed, keyed, accepted⟩ := paired _ _ _ signature
  have recomputed : canonicalDischargeDigest hash claim.intent = .ok (hash claim.payload) := by
    have micros : toMicros (claim.createdAt * 1000) = claim.createdAt := by unfold toMicros; omega
    rw [canonicalDischargeDigest, Claim.intent, encodeAmount_stored wrote.fits, micros]
    rfl
  have present : claim.auth.digest ≠ [] := by rw [digest]; exact nonempty _
  rw [show hash (c.payload claim.amount) = claim.auth.digest from digest.symm,
    Claim.verifies, isOk_iff]
  simp only [verifyReservationDischargeAuth, orError, bind_eq_ok, within_eq_ok, require_eq_ok,
    decide_eq_true_eq, recomputed,
    Except.ok.injEq, exists_eq_left', ok_bind]
  constructor
  · rintro ⟨_, _, -, _, matches_, -⟩
    exact matches_
  · intro matches_
    refine ⟨(), (), present, (), matches_, (), ⟨signed, keyed⟩, ?_⟩
    rw [matches_]
    exact accepted

/-- The digest the call signed is the digest of the claim's row: the call is canonical, or the hash
collides on the fields signed and the fields stored. -/
def Signs (hash : DischargePayload → GoString) (c : DischargeCall) (claim : Claim) : Prop :=
  Canonical c ∨
    claim.payload ≠ c.payload claim.amount ∧ hash claim.payload = hash (c.payload claim.amount)

theorem Wrote.verifies_iff {claim : Claim} (wrote : Wrote hash sign c claim)
    (nonempty : ∀ payload, hash payload ≠ []) (paired : Paired sign verify) :
    claim.verifies hash verify = true ↔ Signs hash c claim := by
  rw [wrote.verifies_iff_hash nonempty paired, Signs, ← wrote.payload_eq_iff]
  by_cases equal : claim.payload = c.payload claim.amount
  · simp [equal]
  · simp [equal]

/-- `calls` are the calls that wrote a claim, in order. -/
inductive SignedRun (hash : DischargePayload → GoString) (sign : Attestor) : List DischargeCall →
    ReserverTables → Prop
  | empty {t : ReserverTables} : t.Empty → SignedRun hash sign [] t
  | call {calls : List DischargeCall} {t t' : ReserverTables} (c : DischargeCall) : SignedRun hash sign calls t →
      c.mode = .pool (some sign) → c.run hash t = .ok t' → t.recorded c.op c.key = none →
      SignedRun hash sign (calls ++ [c]) t'
  | replay {calls : List DischargeCall} {t t' : ReserverTables} (c : DischargeCall) : SignedRun hash sign calls t →
      c.run hash t = .ok t' → (t.recorded c.op c.key).isSome = true → SignedRun hash sign calls t'
  | reserve {calls : List DischargeCall} {t : ReserverTables} (row : ReservationRow) : SignedRun hash sign calls t →
      Opened t row → SignedRun hash sign calls { t with reservations := t.reservations ++ [row] }
  | elsewhere {calls : List DischargeCall} {t : ReserverTables} (currencies : List CurrencyRow) :
      SignedRun hash sign calls t →
      SignedRun hash sign calls { t with currencies := currencies }

def ReserverTables.Has (t : ReserverTables) (claim : Claim) : Prop :=
  (claim.operation ≠ .settlePartial ∧ ∃ o ∈ t.receipts, t.receiptClaim o = some claim) ∨
    (claim.operation = .settlePartial ∧ ∃ l ∈ t.legs, t.legClaim l = some claim)

structure SignedInv (hash : DischargePayload → GoString) (sign : Attestor)
    (calls : List DischargeCall) (t : ReserverTables) :
    Prop where
  base : ReserverInv t
  receipts : ∀ o ∈ t.receipts, ∃ claim, t.receiptClaim o = some claim ∧
    ∃ c ∈ calls, Wrote hash sign c claim
  legs : ∀ l ∈ t.legs, ∃ claim, t.legClaim l = some claim ∧ ∃ c ∈ calls, Wrote hash sign c claim

variable {t : ReserverTables}

theorem uidOf_eq_some (ids : (t.reservations.map (·.id)).Nodup) {id : Nat} {uid : Uuid} :
    t.uidOf id = some uid ↔ ∃ r ∈ t.reservations, r.id = id ∧ r.uid = uid := by
  rw [ReserverTables.uidOf, Option.map_eq_some_iff]
  constructor
  · rintro ⟨r, found, same⟩
    exact ⟨r, List.mem_of_find?_eq_some found, by simpa using List.find?_some found, same⟩
  · rintro ⟨r, member, own, same⟩
    cases found : t.reservations.find? (·.id == id) with
    | none => exact absurd (List.find?_eq_none.mp found r member) (by simp [own])
    | some r' =>
      have own' : r'.id = id := by simpa using List.find?_some found
      exact ⟨r', rfl, by rw [eq_of_id ids (List.mem_of_find?_eq_some found) member (own'.trans own.symm), same]⟩

def KeepsUIDs (t t' : ReserverTables) : Prop := ∀ id uid, t.uidOf id = some uid →
    t'.uidOf id = some uid

variable {t' : ReserverTables}

theorem KeepsUIDs.receiptClaim (keeps : KeepsUIDs t t') {o : ReceiptRow} {claim : Claim}
    (joined : t.receiptClaim o = some claim) : t'.receiptClaim o = some claim := by
  obtain ⟨uid, found, same⟩ := Option.map_eq_some_iff.mp joined
  rw [ReserverTables.receiptClaim, keeps _ _ found]
  exact congrArg some same

theorem KeepsUIDs.legClaim (keeps : KeepsUIDs t t') {l : LegRow} {claim : Claim}
    (joined : t.legClaim l = some claim) :
    t'.legClaim l = some claim := by
  obtain ⟨uid, found, same⟩ := Option.map_eq_some_iff.mp joined
  rw [ReserverTables.legClaim, keeps _ _ found]
  exact congrArg some same

variable {res : ReservationRow}

theorem Discharged.keepsUIDs {after : ReservationRow} (done : Discharged t res after c t')
    (inv : ReserverInv t)
    (member : res ∈ t.reservations) : KeepsUIDs t t' := by
  intro id uid known
  obtain ⟨r, inside, own, same⟩ := (uidOf_eq_some inv.ids).mp known
  rw [uidOf_eq_some (done.ids ▸ inv.ids)]
  by_cases target : r.id = res.id
  · have : r = res := eq_of_id inv.ids inside member target
    exact ⟨after, (done.rows inv.ids after).mpr (.inr rfl), done.id.trans (target ▸ own),
      by rw [done.uid, ← this, same]⟩
  · exact ⟨r, (done.rows inv.ids r).mpr (.inl ⟨inside, target⟩), own, same⟩

theorem SignedInv.grow {calls new : List DischargeCall} (inv : SignedInv hash sign calls t)
    (base : ReserverInv t')
    (keeps : KeepsUIDs t t')
    (receipts : ∀ o ∈ t'.receipts, o ∈ t.receipts ∨ ∃ claim, t'.receiptClaim o = some claim ∧
      ∃ c ∈ new, Wrote hash sign c claim)
    (legs : ∀ l ∈ t'.legs, l ∈ t.legs ∨ ∃ claim, t'.legClaim l = some claim ∧
      ∃ c ∈ new, Wrote hash sign c claim) :
    SignedInv hash sign (calls ++ new) t' := by
  refine ⟨base, fun o member => ?_, fun l member => ?_⟩
  · rcases receipts o member with old | ⟨claim, joined, c, inside, wrote⟩
    · obtain ⟨claim, joined, c, inside, wrote⟩ := inv.receipts o old
      exact ⟨claim, keeps.receiptClaim joined, c, List.mem_append_left _ inside, wrote⟩
    · exact ⟨claim, joined, c, List.mem_append_right _ inside, wrote⟩
  · rcases legs l member with old | ⟨claim, joined, c, inside, wrote⟩
    · obtain ⟨claim, joined, c, inside, wrote⟩ := inv.legs l old
      exact ⟨claim, keeps.legClaim joined, c, List.mem_append_left _ inside, wrote⟩
    · exact ⟨claim, joined, c, List.mem_append_right _ inside, wrote⟩

variable {uid : GoString} {auth : DischargeAuth} {calls : List DischargeCall}

theorem attestDischarge_fresh {now : Clocks} {op : ReservationOp} {amount : Decimal}
    {key : GoString} (fits : textFits key = true)
    (fresh : t.recorded op key = none)
    (ok : attestDischarge hash (.pool (some sign)) now t op uid amount key = .ok auth) :
    ∃ units, encodeAmount amount = .ok units ∧ auth.createdAt = now.app ∧
      auth.claim.digest = hash ⟨uid, op.text, key, toMicros now.app, units⟩ ∧
      sign auth.claim.digest = .ok (auth.claim.signature, auth.claim.keyID) := by
  have absent : dischargeClaimExists t op key = .ok false := by
    rw [dischargeClaimExists, within_eq_ok]
    unfold ReserverTables.recorded at fresh
    split at fresh
    · next partial_ =>
      rw [if_pos partial_, getSettlementLegByIdempotencyKey_eq_ok.mpr ⟨fits, Option.map_eq_none_iff.mp fresh⟩]
      rfl
    · next other =>
      rw [if_neg other, getReceiptByIdempotencyKey_eq_ok.mpr ⟨fits, Option.map_eq_none_iff.mp fresh⟩]
      rfl
  rw [attestDischarge, absent, ok_bind, if_neg Bool.false_ne_true] at ok
  simp only [canonicalDischargeDigest, bind_eq_ok, within_eq_ok, pure_eq_ok] at ok
  obtain ⟨digest, ⟨units, encoded, rfl⟩, ok⟩ := ok
  split at ok
  · next signature keyID signed =>
    rw [pure_eq_ok] at ok
    subst ok
    exact ⟨units, encoded, rfl, rfl, signed⟩
  · cases ok

theorem Discharge.claim (done : Discharge t res c auth t') :
    ∃ units, fitsUnits 30 units = true ∧ (units : ℚ) = c.claimed.val * 10 ^ 18 ∧
    ((c.op ≠ .settlePartial ∧ t'.legs = t.legs ∧
          t'.receipts = t.receipts ++ [⟨res.id, c.op, c.key, units, recordedAt c.now auth, auth.claim⟩]) ∨
        (c.op = .settlePartial ∧ t'.receipts = t.receipts ∧
          t'.legs = t.legs ++ [⟨res.id, c.key, units, recordedAt c.now auth, auth.claim⟩])) := by
  cases done with
  | settle units op active positive bounded fits exact_ =>
    exact ⟨units, fits, exact_, .inl ⟨by rw [op]; decide, rfl, by rw [op]; rfl⟩⟩
  | settlePartial units op from_ positive bounded fits exact_ =>
    exact ⟨units, fits, exact_, .inr ⟨op, rfl, rfl⟩⟩
  | finalizeSettlement op settling =>
    refine ⟨0, by decide, ?_, .inl ⟨by rw [op]; decide, rfl, by rw [op]; rfl⟩⟩
    simp [DischargeCall.claimed, op]
  | release op from_ =>
    refine ⟨0, by decide, ?_, .inl ⟨by rw [op]; decide, rfl, by rw [op]; rfl⟩⟩
    simp [DischargeCall.claimed, op]

theorem ReserverTables.named_uid (named : t.named uid = some res) :
    Uuid.parse uid = some res.uid := by
  obtain ⟨u, parsed, found⟩ := Option.bind_eq_some_iff.mp named
  have same : res.uid = u := by simpa using List.find?_some found
  rw [parsed, same]

theorem SignedInv.call (inv : SignedInv hash sign calls t) (pool : c.mode = .pool (some sign))
    (ok : c.run hash t = .ok t')
    (fresh : t.recorded c.op c.key = none) :
    SignedInv hash sign (calls ++ [c]) t' := by
  obtain ⟨res, named, fits, ⟨r, found, -⟩ | ⟨-, auth, attested, done⟩⟩ := c.outcome ok
  · rw [fresh] at found
    cases found
  have member := ReserverTables.named_mem named
  obtain ⟨after, discharged⟩ := done.discharged member
  have keeps := discharged.keepsUIDs inv.base member
  have uid : t'.uidOf res.id = some res.uid :=
    keeps _ _ ((uidOf_eq_some inv.base.ids).mpr ⟨res, member, rfl, rfl⟩)
  rw [pool] at attested
  obtain ⟨encoded, encodes, at_, digest, signed⟩ := attestDischarge_fresh fits fresh attested
  obtain ⟨units, small, exact_, written⟩ := done.claim
  have sameUnits : encoded = units := by
    have : (encoded : ℚ) = units := (encodeAmount_ok encodes).1.trans exact_.symm
    exact_mod_cast this
  have wrote : Wrote hash sign c ⟨res.id, res.uid, c.op, units, c.key,
    recordedAt c.now auth, auth.claim⟩ :=
    ⟨ReserverTables.named_uid named, rfl, rfl, small, ⟨sameUnits ▸ digest, signed⟩,
      by rw [recordedAt, at_]⟩
  have base := discharged.inv member fits inv.base
  rcases written with ⟨op, legs, receipts⟩ | ⟨op, receipts, legs⟩
  · have joined : t'.receiptClaim ⟨res.id, c.op, c.key, units, recordedAt c.now auth, auth.claim⟩ = some
        ⟨res.id, res.uid, c.op, units, c.key, recordedAt c.now auth, auth.claim⟩ := by
      rw [ReserverTables.receiptClaim, uid]
      rfl
    refine inv.grow base keeps (fun o inside => ?_) (fun l inside => .inl (legs ▸ inside))
    rw [receipts, List.mem_append, List.mem_singleton] at inside
    rcases inside with old | rfl
    · exact .inl old
    · exact .inr ⟨_, joined, c, List.mem_singleton_self c, wrote⟩
  · have joined : t'.legClaim ⟨res.id, c.key, units, recordedAt c.now auth, auth.claim⟩ = some
        ⟨res.id, res.uid, c.op, units, c.key, recordedAt c.now auth, auth.claim⟩ := by
      rw [ReserverTables.legClaim, uid, op]
      rfl
    refine inv.grow base keeps (fun o inside => .inl (receipts ▸ inside)) (fun l inside => ?_)
    rw [legs, List.mem_append, List.mem_singleton] at inside
    rcases inside with old | rfl
    · exact .inl old
    · exact .inr ⟨_, joined, c, List.mem_singleton_self c, wrote⟩

theorem SignedRun.inv (run : SignedRun hash sign calls t) : SignedInv hash sign calls t := by
  induction run with
  | empty empty =>
    refine ⟨empty.inv, ?_, ?_⟩
    · simp [empty.receipts]
    · simp [empty.legs]
  | call c _ pool ok fresh ih => exact ih.call pool ok fresh
  | replay c _ ok known ih =>
    obtain ⟨-, ⟨rfl, -⟩ | ⟨fresh, -⟩⟩ := c.cases_ok ok
    · exact ih
    · rw [fresh] at known
      cases known
  | @reserve calls t row _ opened ih =>
    have base := ih.base.reserve opened
    have keeps : KeepsUIDs t { t with reservations := t.reservations ++ [row] } := by
      intro id uid known
      obtain ⟨r, inside, own, same⟩ := (uidOf_eq_some ih.base.ids).mp known
      exact (uidOf_eq_some base.ids).mpr ⟨r, List.mem_append_left _ inside, own, same⟩
    have grown := @SignedInv.grow hash sign _ _ calls [] ih base keeps (fun _ inside => .inl inside)
      (fun _ inside => .inl inside)
    rwa [List.append_nil] at grown
  | elsewhere currencies _ ih =>
    exact ⟨@ReserverInv.preserved hash _ _ ih.base (.elsewhere currencies), ih.receipts, ih.legs⟩

theorem mem_listUnexpired {now : Int} {holder : Int} {currencyID : Nat} {r : ReservationRow} :
    r ∈ t.listUnexpiredReservationHolds now holder currencyID ↔
      r ∈ t.reservations ∧ r.accountHolder = holder ∧ r.currencyID = currencyID ∧
      now < r.expiresAt := by
  rw [ReserverTables.listUnexpiredReservationHolds, List.mem_insertionSort, List.mem_filter]
  simp [and_assoc]

/-- What the claim tables leave of a reservation: nothing after a terminal claim, else what its legs
have not taken. -/
def ReserverTables.expectedHold (t : ReserverTables) (r : ReservationRow) : Int :=
  if t.receipts.any (·.reservationID == r.id) then 0 else r.reservedAmount - t.legsTotal r.id

theorem filterMap_amounts {α : Type} {join : α → Option Claim} (amount : α → Int)
    (keeps : ∀ a c, join a = some c → c.amount = amount a) {rows : List α}
    (joined : ∀ a ∈ rows, ∃ c, join a = some c) :
    (rows.filterMap join).map (·.amount) = rows.map amount := by
  induction rows with
  | nil => rfl
  | cons a rest ih =>
    obtain ⟨c, found⟩ := joined a List.mem_cons_self
    rw [List.filterMap_cons_some found, List.map_cons, List.map_cons, keeps a c found,
      ih fun b member => joined b (List.mem_cons_of_mem _ member)]

section

variable {calls : List DischargeCall} {t : ReserverTables} {r : ReservationRow}

theorem SignedInv.legsOf_sum (inv : SignedInv hash sign calls t) (id : Nat) :
    ((t.legsOf id).map (·.amount)).sum = t.legsTotal id := by
  rw [ReserverTables.legsOf, filterMap_amounts LegRow.amount]
  · rfl
  · intro l c joined
    obtain ⟨_, -, rfl⟩ := Option.map_eq_some_iff.mp joined
    rfl
  · intro l member
    obtain ⟨claim, joined, -⟩ := inv.legs l (List.mem_of_mem_filter member)
    exact ⟨claim, joined⟩

theorem sumDecimals_units (units : List Int) : (sumDecimals (units.map numericToDecimal)).val * 10 ^
    18 = units.sum := by
  rw [val_sumDecimals, List.map_map]
  induction units with
  | nil => simp
  | cons u rest ih =>
    rw [List.map_cons, List.sum_cons, add_mul, ih, Function.comp_apply,
      numericToDecimal_units, List.sum_cons]
    push_cast
    rfl

theorem SignedInv.receiptsOf_any (inv : SignedInv hash sign calls t) (id : Nat) :
    t.receipts.any (·.reservationID == id) = true ↔ ∃ c, c ∈ t.receiptsOf id := by
  rw [List.any_eq_true]
  constructor
  · rintro ⟨o, member, own⟩
    obtain ⟨claim, joined, -⟩ := inv.receipts o member
    exact ⟨claim, List.mem_filterMap.mpr ⟨o, List.mem_filter.mpr ⟨member, own⟩, joined⟩⟩
  · rintro ⟨c, member⟩
    obtain ⟨o, inside, -⟩ := List.mem_filterMap.mp member
    exact ⟨o, (List.mem_filter.mp inside).1, (List.mem_filter.mp inside).2⟩

variable {c : Claim}

theorem receiptsOf_id {id : Nat} (member : c ∈ t.receiptsOf id) : c.reservationID = id := by
  obtain ⟨o, inside, joined⟩ := List.mem_filterMap.mp member
  rw [receiptClaim_id joined]
  simpa using (List.mem_filter.mp inside).2

theorem legsOf_id {id : Nat} (member : c ∈ t.legsOf id) : c.reservationID = id := by
  obtain ⟨l, inside, joined⟩ := List.mem_filterMap.mp member
  rw [legClaim_id joined]
  simpa using (List.mem_filter.mp inside).2

theorem dischargeFor_listed {before now : Int} (ids : (t.reservations.map (·.id)).Nodup)
    (order : before ≤ now) {holder : Int}
    {currencyID : Nat} (listed : r ∈ t.listUnexpiredReservationHolds now holder currencyID) :
    dischargeFor (verifiedDischarges hash verify t before holder currencyID) r.id =
      dischargeOf hash verify (t.receiptsOf r.id) (t.legsOf r.id) r := by
  obtain ⟨member, holds, currency, unexpired⟩ := mem_listUnexpired.mp listed
  have earlier : r ∈ t.listUnexpiredReservationHolds before holder currencyID :=
    mem_listUnexpired.mpr ⟨member, holds, currency, order.trans_lt unexpired⟩
  rw [dischargeFor_verified]
  cases found : (t.listUnexpiredReservationHolds before holder currencyID).find? (·.id == r.id) with
  | none => exact absurd (List.find?_eq_none.mp found r earlier) (by simp)
  | some r' =>
    have same : r'.id = r.id := by simpa using List.find?_some found
    have : r' = r := eq_of_id ids (mem_listUnexpired.mp (List.mem_of_find?_eq_some found)).1 member same
    rw [this]
    rfl

variable (inv : SignedInv hash sign calls t)
include inv

theorem SignedInv.discharge (member : r ∈ t.reservations) :
    (dischargeOf hash verify (t.receiptsOf r.id) (t.legsOf r.id) r).val * 10 ^ 18 =
      if ∀ c ∈ t.receiptsOf r.id ++ t.legsOf r.id, c.verifies hash verify = true then
        ((r.reservedAmount - t.expectedHold r : Int) : ℚ) else 0 := by
  unfold dischargeOf
  by_cases good : ∀ c ∈ t.receiptsOf r.id ++ t.legsOf r.id, c.verifies hash verify = true
  · have trusted : (t.receiptsOf r.id ++ t.legsOf r.id).any
      (fun c => c.reservationID == r.id && !c.verifies hash verify) = false := by
      rw [List.any_eq_false]
      intro c inside
      simp [good c inside]
    rw [if_neg (by rw [trusted]; exact Bool.false_ne_true), if_pos good, ReserverTables.expectedHold]
    by_cases terminal : ∃ c, c ∈ t.receiptsOf r.id
    · have found : (t.receiptsOf r.id).any (fun c => c.reservationID == r.id && c.verifies hash verify) = true := by
        obtain ⟨c, inside⟩ := terminal
        exact List.any_eq_true.mpr ⟨c, inside, by simp [receiptsOf_id inside, good c (List.mem_append_left _ inside)]⟩
      rw [if_pos found, if_pos ((inv.receiptsOf_any r.id).mpr terminal), numericToDecimal_units, sub_zero]
    · have none_ : (t.receiptsOf r.id).any (fun c => c.reservationID == r.id && c.verifies hash verify) = false := by
        rw [List.any_eq_false]
        exact fun c inside => absurd ⟨c, inside⟩ terminal
      have all : (t.legsOf r.id).filter (fun c => c.reservationID == r.id && c.verifies hash verify)
        = t.legsOf r.id := by
        rw [List.filter_eq_self]
        intro c inside
        simp [legsOf_id inside, good c (List.mem_append_right _ inside)]
      have bound := inv.base.legsBound r member
      have amounts : (sumDecimals ((t.legsOf r.id).map (numericToDecimal ·.amount))).val * 10 ^ 18 =
        t.legsTotal r.id := by
        rw [← inv.legsOf_sum r.id, ← sumDecimals_units, List.map_map]
        rfl
      rw [if_neg (by rw [none_]; exact Bool.false_ne_true), all, if_neg (mt (inv.receiptsOf_any r.id).mp terminal),
        decimalMin_val, min_mul_of_nonneg _ _ (by positivity), amounts, numericToDecimal_units, sub_sub_cancel]
      exact min_eq_left (by exact_mod_cast bound)
  · have distrusted : (t.receiptsOf r.id ++ t.legsOf r.id).any
      (fun c => c.reservationID == r.id && !c.verifies hash verify) = true := by
      push Not at good
      obtain ⟨c, inside, forged⟩ := good
      have own : c.reservationID = r.id := (List.mem_append.mp inside).elim receiptsOf_id legsOf_id
      exact List.any_eq_true.mpr ⟨c, inside, by simp [own, forged]⟩
    rw [if_pos distrusted, if_neg good, Decimal.val_zero, zero_mul]

theorem SignedInv.hold {before now : Int} (order : before ≤ now) {holder : Int}
    {currencyID : Nat} (listed : r ∈ t.listUnexpiredReservationHolds now holder currencyID) :
    (holdNetOf (verifiedDischarges hash verify t before holder currencyID) r).val * 10 ^ 18 =
      if ∀ c ∈ t.receiptsOf r.id ++ t.legsOf r.id, c.verifies hash verify = true
      then (t.expectedHold r : ℚ)
      else (r.reservedAmount : ℚ) := by
  have member := (mem_listUnexpired.mp listed).1
  have positive := inv.base.reserved r member
  have discharge := @SignedInv.discharge hash sign verify calls t r inv member
  rw [holdNetOf_val, dischargeFor_listed inv.base.ids order listed, max_mul_of_nonneg _ _
    (by positivity), zero_mul, sub_mul,
    numericToDecimal_units, discharge]
  split
  · have nonneg : 0 ≤ t.expectedHold r := by
      rw [ReserverTables.expectedHold]
      split
      · exact le_rfl
      · exact sub_nonneg.mpr (inv.base.legsBound r member)
    push_cast
    rw [sub_sub_cancel]
    exact max_eq_right (by exact_mod_cast nonneg)
  · rw [sub_zero]
    exact max_eq_right (by exact_mod_cast positive.le)

theorem SignedInv.expectedHold_lt (member : r ∈ t.reservations)
    (some_ : ∃ c, c ∈ t.receiptsOf r.id ++ t.legsOf r.id) : t.expectedHold r <
    r.reservedAmount := by
  have positive := inv.base.reserved r member
  rw [ReserverTables.expectedHold]
  split
  · exact positive
  · next terminal =>
    obtain ⟨c, inside⟩ := some_
    rcases List.mem_append.mp inside with receipt | leg
    · exact absurd ((inv.receiptsOf_any r.id).mpr ⟨c, receipt⟩) terminal
    · obtain ⟨l, there, -⟩ := List.mem_filterMap.mp leg
      obtain ⟨row, own⟩ := List.mem_filter.mp there
      have some_ : 0 < t.legsTotal l.reservationID := sumAt_pos inv.base.legsPositive row
      rw [beq_iff_eq.mp own] at some_
      omega

theorem SignedInv.verifies_iff (nonempty : ∀ payload, hash payload ≠ [])
    (paired : Paired sign verify) :
    (∀ claim ∈ t.receiptsOf r.id ++ t.legsOf r.id, claim.verifies hash verify = true) ↔
      ∀ claim ∈ t.receiptsOf r.id ++ t.legsOf r.id, ∀ c ∈ calls,
        Wrote hash sign c claim → Signs hash c claim := by
  constructor
  · intro good claim inside c _ wrote
    exact (wrote.verifies_iff nonempty paired).mp (good claim inside)
  · intro signs claim inside
    -- Every claim in the tables was written by one of the calls.
    have written : ∃ c ∈ calls, Wrote hash sign c claim := by
      rcases List.mem_append.mp inside with receipt | leg
      · obtain ⟨o, there, joined⟩ := List.mem_filterMap.mp receipt
        obtain ⟨claim', joined', written⟩ := inv.receipts o (List.mem_of_mem_filter there)
        rw [joined, Option.some.injEq] at joined'
        exact joined' ▸ written
      · obtain ⟨l, there, joined⟩ := List.mem_filterMap.mp leg
        obtain ⟨claim', joined', written⟩ := inv.legs l (List.mem_of_mem_filter there)
        rw [joined, Option.some.injEq] at joined'
        exact joined' ▸ written
    obtain ⟨c, call, wrote⟩ := written
    exact (wrote.verifies_iff nonempty paired).mpr (signs claim inside c call wrote)

end

theorem sum_eq_iff_of_le {α : Type} {f g : α → ℚ} {l : List α} (le : ∀ a ∈ l, f a ≤ g a) :
    (l.map g).sum = (l.map f).sum ↔ ∀ a ∈ l, g a = f a := by
  induction l with
  | nil => simp
  | cons a rest ih =>
    have head := le a List.mem_cons_self
    have tail : ∀ b ∈ rest, f b ≤ g b := fun b member => le b (List.mem_cons_of_mem _ member)
    have total : (rest.map f).sum ≤ (rest.map g).sum := List.sum_le_sum tail
    rw [List.map_cons, List.map_cons, List.sum_cons, List.sum_cons, List.forall_mem_cons, ← ih tail]
    constructor
    · intro same
      constructor <;> linarith
    · rintro ⟨first, others⟩
      rw [first, others]

theorem gated_hold_sound (hash : DischargePayload → GoString) (sign : Attestor)
    (verify : AuthVerifier) :
    -- Rows that do not verify never lower the hold.
    (∀ before before', Forged hash verify before before' → before.Checks →
      ∀ then_ t now holder currencyID,
      (gatedHold hash (some sign) (some verify) before then_ t now holder currencyID).val ≤
        (gatedHold hash (some sign) (some verify) before' then_ t now holder currencyID).val) ∧
    -- A reservation's hold is not negative and is decided by its own claims.
    (∀ discharges r, 0 ≤ (holdNetOf discharges r).val) ∧
    (∀ before before' then_ holder currencyID r, before'.reservations = before.reservations →
      before'.receipts.filter (·.reservationID == r.id) = before.receipts.filter
      (·.reservationID == r.id) →
      before'.legs.filter (·.reservationID == r.id) = before.legs.filter (·.reservationID == r.id) →
      holdNetOf (verifiedDischarges hash verify before' then_ holder currencyID) r =
        holdNetOf (verifiedDischarges hash verify before then_ holder currencyID) r) ∧
    -- Where the store signed every claim, the hold is what the claims leave exactly when the calls
    -- that wrote the claims of the unexpired reservations named them in canonical spelling, or the
    -- hash collides on what such a call signed and what its row reads.
    ((∀ payload, hash payload ≠ []) → Paired sign verify → ∀ calls t, SignedRun hash sign calls t →
      ∀ then_ now holder currencyID, then_ ≤ now →
      ((gatedHold hash (some sign) (some verify) t then_ t now holder currencyID).val * 10 ^ 18 =
          (((t.listUnexpiredReservationHolds now holder currencyID).map t.expectedHold).sum : Int) ↔
        ∀ r ∈ t.listUnexpiredReservationHolds now holder currencyID,
          ∀ claim ∈ t.receiptsOf r.id ++ t.legsOf r.id, ∀ c ∈ calls,
            Wrote hash sign c claim → Signs hash c claim)) := by
  refine ⟨?_, ?_, ?_, ?_⟩
  · intro before before' forged checks then_ t now holder currencyID
    exact sumHolds_mono (forged.discharge_le checks then_ holder currencyID) t now holder currencyID
  · intro discharges r
    rw [holdNetOf_val]
    exact le_max_left _ _
  · intro before before' then_ holder currencyID r reservations receipts legs
    have same : dischargeFor (verifiedDischarges hash verify before' then_ holder currencyID) r.id =
        dischargeFor (verifiedDischarges hash verify before then_ holder currencyID) r.id := by
      rw [dischargeFor_verified, dischargeFor_verified, listUnexpired_congr reservations, ReserverTables.receiptsOf,
        ReserverTables.legsOf, receipts, legs, receiptClaim_congr reservations, legClaim_congr reservations,
        ReserverTables.receiptsOf, ReserverTables.legsOf]
    rw [holdNetOf, same, holdNetOf]
  · intro nonempty paired calls t run then_ now holder currencyID order
    have inv := run.inv
    have each (r : ReservationRow)
      (listed : r ∈ t.listUnexpiredReservationHolds now holder currencyID) :=
      @SignedInv.hold hash sign verify calls t r inv then_ now order holder currencyID listed
    have sum : (gatedHold hash (some sign) (some verify) t then_ t now holder
      currencyID).val * 10 ^ 18 =
        ((t.listUnexpiredReservationHolds now holder currencyID).map fun r =>
          (holdNetOf (verifiedDischarges hash verify t then_ holder currencyID) r).val * 10 ^ 18).sum := by
      rw [List.sum_map_mul_right]
      simp only [gatedHold, sumHoldsNetOfVerifiedDischarge, val_sumDecimals, List.map_map, Function.comp_def]
    have cast : ((((t.listUnexpiredReservationHolds now holder currencyID).map
      t.expectedHold).sum : Int) : ℚ) =
        ((t.listUnexpiredReservationHolds now holder currencyID).map fun r => (t.expectedHold r : ℚ)).sum := by
      generalize t.listUnexpiredReservationHolds now holder currencyID = rows
      induction rows with
      | nil => simp
      | cons r rest ih => simp [ih]
    have lower (r : ReservationRow)
      (listed : r ∈ t.listUnexpiredReservationHolds now holder currencyID) :
        (t.expectedHold r : ℚ) ≤
          (holdNetOf (verifiedDischarges hash verify t then_ holder
            currencyID) r).val * 10 ^ 18 := by
      rw [each r listed]
      split
      · exact le_rfl
      · next bad =>
        push Not at bad
        obtain ⟨c, inside, -⟩ := bad
        exact_mod_cast (inv.expectedHold_lt (mem_listUnexpired.mp listed).1 ⟨c, inside⟩).le
    rw [sum, cast, sum_eq_iff_of_le lower]
    refine forall₂_congr fun r listed => ?_
    have member := (mem_listUnexpired.mp listed).1
    rw [← @SignedInv.verifies_iff hash sign verify calls t r inv nonempty paired, each r listed]
    split
    · next good => exact ⟨fun _ => good, fun _ => rfl⟩
    · next bad =>
      refine ⟨fun same => ?_, fun good => absurd good bad⟩
      push Not at bad
      obtain ⟨c, inside, -⟩ := bad
      have less := inv.expectedHold_lt member ⟨c, inside⟩
      have : r.reservedAmount = t.expectedHold r := by exact_mod_cast same
      omega

namespace ReserverSample

def signer : Attestor := fun _ => .ok ([1], [1])

def verifier : AuthVerifier := fun _ _ _ => .ok ()

def releaseAs (spelling : GoString) : DischargeCall :=
  ⟨.release, .pool (some signer), ⟨1000, 1000, 1000⟩, spelling, .zero, lit "k"⟩

def digest (p : DischargePayload) : GoString :=
  List.replicate (Encodable.encode (p.reservationUID, p.operation, p.idempotencyKey,
    p.recordedAt, p.amount)) 0 ++ [1]

def released : ReserverTables := okOr reserved ((releaseAs (pgToUID .nil)).run digest reserved)

theorem run_released : SignedRun digest signer [releaseAs (pgToUID .nil)] released := by
  have opened : Opened start reservation := ⟨by decide, by decide, rfl, rfl, by decide⟩
  exact .call _ (.reserve reservation (.empty ⟨rfl, rfl, rfl⟩) opened) rfl
    (eq_ok_of_isOk (by decide +kernel) _) rfl

def spelled (p : DischargePayload) : GoString := 1 :: p.reservationUID

def bare : GoString := List.replicate 32 0x30

end ReserverSample

open ReserverSample in
theorem gated_hold_sound_released :
    (gatedHold digest (some signer) (some verifier) released 0 released 0 7 1).val * 10 ^ 18 =
      (((released.listUnexpiredReservationHolds 0 7 1).map released.expectedHold).sum : Int) := by
  refine ((gated_hold_sound digest signer verifier).2.2.2 ?_ ?_ _ _ run_released 0 0 7 1
    le_rfl).mpr ?_
  · intro payload
    simp [digest]
  · intro digest signature keyID signed
    cases signed
    exact ⟨by decide, by decide, rfl⟩
  · intro r _ claim _ c member _
    rw [List.mem_singleton] at member
    subst member
    exact .inl ⟨⟨.nil, rfl⟩, by decide⟩

open ReserverSample in
/-- Released under another spelling of its uid, the reservation keeps its whole hold. -/
theorem bare_uid_keeps_hold :
    ((releaseAs bare).run spelled reserved).map (fun t =>
      (t.reservations.map (·.status), t.listUnexpiredReservationHolds 0 7 1 |>.map t.expectedHold,
        (gatedHold spelled (some signer) (some verifier) t 0 t 0 7 1).val)) =
      .ok ([.released], [0], 100) := by
  decide +kernel

end Ledger.Postgres
