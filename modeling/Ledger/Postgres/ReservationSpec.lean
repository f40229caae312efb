import Ledger.Postgres.Reservations

namespace Ledger.Postgres

open Core Shared

structure DischargeCall where
  op : ReservationOp
  mode : Mode
  now : Clocks
  reservationUID : GoString
  -- Read by the two settle operations only.
  amount : Decimal
  key : GoString

namespace DischargeCall

def run (hash : DischargePayload → GoString) (t : ReserverTables) (c : DischargeCall) :
    Result ReserverTables :=
  match c.op with
  | .settle => settle hash c.mode c.now t ⟨c.reservationUID, c.amount, c.key⟩
  | .settlePartial => settlePartial hash c.mode c.now t ⟨c.reservationUID, c.amount, c.key⟩
  | .finalizeSettlement => finalizeSettlement hash c.mode c.now t ⟨c.reservationUID, c.key⟩
  | .release => release hash c.mode c.now t ⟨c.reservationUID, c.key⟩

def validate (c : DischargeCall) : Result Unit :=
  match c.op with
  | .settle => SettleInput.validate "settle" ⟨c.reservationUID, c.amount, c.key⟩
  | .settlePartial => SettleInput.validate "settle partial" ⟨c.reservationUID, c.amount, c.key⟩
  | .finalizeSettlement => ReleaseInput.validate "finalize settlement" ⟨c.reservationUID, c.key⟩
  | .release => ReleaseInput.validate "release" ⟨c.reservationUID, c.key⟩

def claimed (c : DischargeCall) : Decimal :=
  match c.op with
  | .settle | .settlePartial => c.amount
  | .finalizeSettlement | .release => .zero

end DischargeCall

structure Recorded where
  reservationID : Nat
  operation : ReservationOp
  amount : Int
deriving DecidableEq

namespace ReserverTables

def recorded (t : ReserverTables) (op : ReservationOp) (key : GoString) : Option Recorded :=
  if op = .settlePartial then
    (t.legs.find? (·.idempotencyKey == key)).map fun leg =>
      ⟨leg.reservationID, .settlePartial, leg.amount⟩
  else (t.receipts.find? (·.idempotencyKey == key)).map fun r =>
    ⟨r.reservationID, r.operation, r.amount⟩

def legsTotal (t : ReserverTables) (reservationID : Nat) :
    Int := sumAt LegRow.reservationID LegRow.amount t.legs reservationID

def withLeg (t : ReserverTables) (leg : LegRow) : ReserverTables :=
  { t with legs := t.legs ++ [leg] }

def withReceipt (t : ReserverTables) (receipt : ReceiptRow) : ReserverTables :=
  { t with receipts := t.receipts ++ [receipt] }

end ReserverTables

/-- The four ways a reservation is discharged, with what the code established first. -/
inductive Discharge (t : ReserverTables) (res : ReservationRow) (c : DischargeCall)
    (auth : DischargeAuth) :
    ReserverTables → Prop
  | settle (units : Int) : c.op = .settle → res.status = .active → 0 < units → units ≤ res.reservedAmount →
      fitsUnits 30 units = true → (units : ℚ) = c.claimed.val * 10 ^ 18 → Discharge t res c auth
        ((t.updateReservation res.id fun r =>
          { r with status := .settled, settledAmount := units, journalID := none }).withReceipt
          ⟨res.id, .settle, c.key, units, recordedAt c.now auth, auth.claim⟩)
  | settlePartial (units : Int) : c.op = .settlePartial → res.status = .active ∨ res.status = .settling → 0 < units →
      res.settledAmount + units ≤ res.reservedAmount → fitsUnits 30 units = true →
        (units : ℚ) = c.claimed.val * 10 ^ 18 →
      Discharge t res c auth
        ((t.withLeg ⟨res.id, c.key, units, recordedAt c.now auth,
          auth.claim⟩).updateReservation res.id
        fun r => { r with status := .settling, settledAmount := r.settledAmount + units })
  | finalizeSettlement : c.op = .finalizeSettlement → res.status = .settling →
      Discharge t res c auth ((t.updateReservation res.id fun r => { r with status := .settled }).withReceipt
        ⟨res.id, .finalizeSettlement, c.key, 0, recordedAt c.now auth, auth.claim⟩)
  | release : c.op = .release → res.status = .active ∨ res.status = .settling →
      Discharge t res c auth ((t.updateReservation res.id fun r => { r with status := .released }).withReceipt
        ⟨res.id, .release, c.key, 0, recordedAt c.now auth, auth.claim⟩)

def ReserverTables.named (t : ReserverTables) (reservationUID : GoString) : Option ReservationRow :=
  (Uuid.parse reservationUID).bind t.getReservationByUID

variable {res : ReservationRow}

@[simp] theorem lockReservation_eq_ok {t : ReserverTables} {uid : GoString} {missing : String} :
    lockReservation t uid missing = .ok res ↔ t.named uid = some res := by
  simp [lockReservation, uidToPG, ReserverTables.named, Option.bind_eq_some_iff]

variable {key : GoString} {now : Clocks} {op : ReservationOp} {amount : Decimal}
  {receipt : ReceiptRow} {mode : Mode}
  {input : ReleaseInput}

@[simp] theorem getReceiptByIdempotencyKey_eq_ok {t : ReserverTables} {found : Option ReceiptRow} :
    t.getReceiptByIdempotencyKey key = .ok found ↔ textFits key ∧
    t.receipts.find? (·.idempotencyKey == key) = found := by
  simp [ReserverTables.getReceiptByIdempotencyKey, textParam]

@[simp] theorem getSettlementLegByIdempotencyKey_eq_ok {t : ReserverTables}
    {found : Option LegRow} :
    t.getSettlementLegByIdempotencyKey key = .ok found ↔ textFits key ∧
    t.legs.find? (·.idempotencyKey == key) = found := by
  simp [ReserverTables.getSettlementLegByIdempotencyKey, textParam]

def Recorded.Matches (r : Recorded) (res : ReservationRow) (c : DischargeCall) : Prop :=
  r.reservationID = res.id ∧ r.operation = c.op ∧ (r.amount : ℚ) = c.claimed.val * 10 ^ 18

variable {d : Decimal} {units : Int}

theorem numericToDecimal_equal_iff : (numericToDecimal units).equal d = true ↔
    (units : ℚ) = d.val * 10 ^ 18 := by
  rw [Decimal.equal_iff, ← numericToDecimal_units units]
  exact (mul_left_inj' (by positivity)).symm

theorem not_greaterThan_numericToDecimal_iff :
    (!d.greaterThan (numericToDecimal units)) = true ↔ d.val * 10 ^ 18 ≤ units := by
  rw [Bool.not_eq_true', ← Bool.not_eq_true, Decimal.greaterThan_iff,
    not_lt, ← numericToDecimal_units units]
  exact (mul_le_mul_iff_left₀ (by positivity)).symm

theorem recordReservationOperationReceipt_ok {t t' : ReserverTables} {reservationID : Nat}
    {auth : DischargeAuth}
    (ok : recordReservationOperationReceipt now t reservationID op amount key auth = .ok t') :
    t' = t.withReceipt ⟨reservationID, op, key, toUnits 18 amount,
      recordedAt now auth, auth.claim⟩ := by
  simp only [recordReservationOperationReceipt, bind_eq_ok, within_eq_ok, pure_eq_ok] at ok
  obtain ⟨units, stored, _, -, rfl⟩ := ok
  rw [numericColumn_ok stored]
  rfl

def DischargeCall.Outcome (hash : DischargePayload → GoString) (t : ReserverTables)
    (c : DischargeCall) (t' : ReserverTables) : Prop :=
  ∃ res, t.named c.reservationUID = some res ∧ textFits c.key = true ∧
    ((∃ r, t.recorded c.op c.key = some r ∧ r.Matches res c ∧ t' = t) ∨
      t.recorded c.op c.key = none ∧ ∃ auth,
        attestDischarge hash c.mode c.now t c.op c.reservationUID c.claimed c.key = .ok auth ∧
          Discharge t res c auth t')

variable {c : DischargeCall}

theorem ensureReservationOperationReceiptMatches_eq_ok :
    ensureReservationOperationReceiptMatches receipt res.id c.op c.claimed = .ok () ↔
      Recorded.Matches ⟨receipt.reservationID, receipt.operation, receipt.amount⟩ res c := by
  simp [ensureReservationOperationReceiptMatches, Recorded.Matches, numericToDecimal_equal_iff]

variable {leg : LegRow}

theorem ensureSettlementLegMatches_eq_ok (op : c.op = .settlePartial) :
    ensureSettlementLegMatches leg res.id c.claimed = .ok () ↔
      Recorded.Matches ⟨leg.reservationID, .settlePartial, leg.amount⟩ res c := by
  simp [ensureSettlementLegMatches, Recorded.Matches, numericToDecimal_equal_iff, op]

variable {i : SettleInput} {u : Unit}

theorem SettleInput.validate_ok {op : String} (ok : i.validate op = .ok u) :
    (toUnits 18 i.amount : ℚ) = i.amount.val * 10 ^ 18 ∧ 0 < toUnits 18 i.amount := by
  simp only [SettleInput.validate, bind_eq_ok, require_eq_ok] at ok
  obtain ⟨_, magnitude, _, -, _, positive, -⟩ := ok
  have units := validateAmountMagnitude_units magnitude
  rw [Decimal.isPositive_iff] at positive
  have : (0 : ℚ) < toUnits 18 i.amount := units ▸ by positivity
  exact ⟨units, by exact_mod_cast this⟩

variable {hash : DischargePayload → GoString} {t t' : ReserverTables}

theorem receipt_replayed (op : c.op ≠ .settlePartial)
    (search : t.receipts.find? (·.idempotencyKey == c.key) = some receipt)
    (same : ensureReservationOperationReceiptMatches receipt res.id c.op c.claimed = .ok ()) :
    ∃ r, t.recorded c.op c.key = some r ∧ r.Matches res c ∧ t = t :=
  ⟨_, by rw [ReserverTables.recorded, if_neg op, search]; rfl,
    ensureReservationOperationReceiptMatches_eq_ok.mp same, rfl⟩

theorem settle_outcome {input : SettleInput} (ok : settle hash mode now t input = .ok t') :
    DischargeCall.Outcome hash t ⟨.settle, mode, now, input.reservationUID, input.amount,
      input.idempotencyKey⟩ t' := by
  simp only [settle, bind_eq_ok, settleWithQueries, within_eq_ok, lockReservation_eq_ok,
    getReceiptByIdempotencyKey_eq_ok, require_eq_ok] at ok
  obtain ⟨_, valid, auth, signed, _, -, res, named, found, ⟨key, search⟩, ok⟩ := ok
  refine ⟨res, named, key, ?_⟩
  cases found with
  | some receipt =>
    simp only [bind_eq_ok, pure_eq_ok] at ok
    obtain ⟨_, same, rfl⟩ := ok
    exact .inl (receipt_replayed (by simp) search same)
  | none =>
    right
    refine ⟨by simp [ReserverTables.recorded, search], auth, signed, ?_⟩
    simp only [bind_eq_ok, require_eq_ok, within_eq_ok, decide_eq_true_eq] at ok
    obtain ⟨_, -, _, notSettling, _, allowed, cur, -, _, -, _, bounded, units, stored, ok⟩ := ok
    obtain ⟨exact_, positive⟩ := SettleInput.validate_ok valid
    rw [not_greaterThan_numericToDecimal_iff, ← exact_] at bounded
    rw [recordReservationOperationReceipt_ok ok, numericColumn_ok stored]
    refine .settle _ rfl ?_ positive (by exact_mod_cast bounded) (numericColumn_fits stored) exact_
    cases status : res.status <;> simp_all [ReservationStatus.canTransitionTo, reservationTransitions]

theorem settlePartial_outcome {input : SettleInput}
    (ok : settlePartial hash mode now t input = .ok t') :
    DischargeCall.Outcome hash t ⟨.settlePartial, mode, now, input.reservationUID, input.amount,
      input.idempotencyKey⟩ t' := by
  simp only [settlePartial, bind_eq_ok, settlePartialWithQueries, within_eq_ok,
    lockReservation_eq_ok,
    getSettlementLegByIdempotencyKey_eq_ok, require_eq_ok] at ok
  obtain ⟨_, valid, auth, signed, _, -, res, named, found, ⟨key, search⟩, ok⟩ := ok
  refine ⟨res, named, key, ?_⟩
  cases found with
  | some leg =>
    simp only [bind_eq_ok, pure_eq_ok] at ok
    obtain ⟨_, same, rfl⟩ := ok
    exact .inl ⟨⟨leg.reservationID, .settlePartial, leg.amount⟩,
      by simp [ReserverTables.recorded, search],
      (ensureSettlementLegMatches_eq_ok rfl).mp same, rfl⟩
  | none =>
    right
    refine ⟨by simp [ReserverTables.recorded, search], auth, signed, ?_⟩
    simp only [bind_eq_ok, require_eq_ok, within_eq_ok, decide_eq_true_eq, pure_eq_ok] at ok
    obtain ⟨_, -, cur, -, _, -, _, allowed, _, bounded, units, stored, _, -, rfl⟩ := ok
    obtain ⟨exact_, positive⟩ := SettleInput.validate_ok valid
    rw [not_greaterThan_numericToDecimal_iff, Decimal.val_add, add_mul,
      numericToDecimal_units, ← exact_] at bounded
    rw [numericColumn_ok stored]
    exact .settlePartial _ rfl allowed positive (by exact_mod_cast bounded)
      (numericColumn_fits stored) exact_

theorem finalizeSettlement_outcome (ok : finalizeSettlement hash mode now t input = .ok t') :
    DischargeCall.Outcome hash t ⟨.finalizeSettlement, mode, now, input.reservationUID, amount,
      input.idempotencyKey⟩ t' := by
  simp only [finalizeSettlement, bind_eq_ok, finalizeSettlementWithQueries, within_eq_ok,
    lockReservation_eq_ok,
    getReceiptByIdempotencyKey_eq_ok] at ok
  obtain ⟨_, -, auth, signed, res, named, found, ⟨key, search⟩, ok⟩ := ok
  refine ⟨res, named, key, ?_⟩
  cases found with
  | some receipt =>
    simp only [bind_eq_ok, pure_eq_ok] at ok
    obtain ⟨_, same, rfl⟩ := ok
    exact .inl (receipt_replayed (by simp) search same)
  | none =>
    right
    refine ⟨by simp [ReserverTables.recorded, search], auth, signed, ?_⟩
    simp only [bind_eq_ok, require_eq_ok, decide_eq_true_eq] at ok
    obtain ⟨_, settling, ok⟩ := ok
    rw [recordReservationOperationReceipt_ok ok]
    exact .finalizeSettlement rfl settling

theorem release_outcome (ok : release hash mode now t input = .ok t') :
    DischargeCall.Outcome hash t ⟨.release, mode, now, input.reservationUID, amount,
      input.idempotencyKey⟩ t' := by
  simp only [release, bind_eq_ok, releaseWithQueries, within_eq_ok, lockReservation_eq_ok,
    getReceiptByIdempotencyKey_eq_ok] at ok
  obtain ⟨_, -, auth, signed, res, named, found, ⟨key, search⟩, ok⟩ := ok
  refine ⟨res, named, key, ?_⟩
  cases found with
  | some receipt =>
    simp only [bind_eq_ok, pure_eq_ok] at ok
    obtain ⟨_, same, rfl⟩ := ok
    exact .inl (receipt_replayed (by simp) search same)
  | none =>
    right
    refine ⟨by simp [ReserverTables.recorded, search], auth, signed, ?_⟩
    simp only [bind_eq_ok, require_eq_ok] at ok
    obtain ⟨_, allowed, ok⟩ := ok
    rw [recordReservationOperationReceipt_ok ok]
    refine .release rfl ?_
    cases status : res.status <;> simp_all [ReservationStatus.canTransitionTo, reservationTransitions]

theorem DischargeCall.outcome (ok : c.run hash t = .ok t') : c.Outcome hash t t' := by
  obtain ⟨op, mode, now, uid, amount, key⟩ := c
  cases op with
  | settle => exact settle_outcome ok
  | settlePartial => exact settlePartial_outcome ok
  | finalizeSettlement => exact finalizeSettlement_outcome ok
  | release => exact release_outcome ok

variable {r : Recorded}

theorem attestDischarge_of_recorded {op : ReservationOp} {key : GoString}
    (fits : textFits key = true)
    (found : t.recorded op key = some r) (mode : Mode) (now : Clocks) (uid : GoString)
    (amount : Decimal) :
    attestDischarge hash mode now t op uid amount key = .ok unsignedDischarge := by
  have exists_ : dischargeClaimExists t op key = .ok true := by
    rw [dischargeClaimExists, within_eq_ok]
    unfold ReserverTables.recorded at found
    split at found
    · next partial_ =>
      obtain ⟨leg, search, -⟩ := Option.map_eq_some_iff.mp found
      rw [if_pos partial_, getSettlementLegByIdempotencyKey_eq_ok.mpr ⟨fits, search⟩]
      rfl
    · next other =>
      obtain ⟨receipt, search, -⟩ := Option.map_eq_some_iff.mp found
      rw [if_neg other, getReceiptByIdempotencyKey_eq_ok.mpr ⟨fits, search⟩]
      rfl
  cases mode with
  | tx => rfl
  | pool attestor =>
    cases attestor with
    | none => rfl
    | some sign =>
      rw [attestDischarge, exists_]
      rfl

variable {e : Error}

theorem ensureReservationOperationReceiptMatches_error {id : Nat}
    (failed : ensureReservationOperationReceiptMatches receipt id op amount = .error e) :
    e.sentinel = .conflict := by
  simp only [ensureReservationOperationReceiptMatches, bind_eq_error, require_eq_error] at failed
  rcases failed with ⟨-, rfl⟩ | ⟨_, -, ⟨-, rfl⟩ | ⟨_, -, -, rfl⟩⟩ <;> rfl

theorem ensureSettlementLegMatches_error {id : Nat}
    (failed : ensureSettlementLegMatches leg id amount = .error e) :
    e.sentinel = .conflict := by
  simp only [ensureSettlementLegMatches, bind_eq_error, require_eq_error] at failed
  rcases failed with ⟨-, rfl⟩ | ⟨_, -, -, rfl⟩ <;> rfl

theorem SettleInput.isPositive_of_validate {op : String} (ok : i.validate op = .ok u) :
    i.amount.isPositive = true := by
  simp only [SettleInput.validate, bind_eq_ok, require_eq_ok] at ok
  obtain ⟨_, -, _, -, _, positive, -⟩ := ok
  exact positive

theorem DischargeCall.run_of_recorded (valid : c.validate = .ok ()) (fits : textFits c.key = true)
    (named : t.named c.reservationUID = some res) (found : t.recorded c.op c.key = some r) :
    ∃ check : Result Unit, c.run hash t = (check >>= fun _ => .ok t) ∧
    (check = .ok () ↔ r.Matches res c) ∧
      ∀ e, check = .error e → e.sentinel = .conflict := by
  obtain ⟨op, mode, now, uid, amount, key⟩ := c
  have signed := @attestDischarge_of_recorded hash t r op key fits found mode now uid
  have lock (missing : String) : lockReservation t uid missing = .ok res :=
    lockReservation_eq_ok.mpr named
  -- The three operations that write receipts differ in what they do when the key is new, not here.
  have receipts (other : op ≠ .settlePartial) : ∃ receipt, t.getReceiptByIdempotencyKey key =
    .ok (some receipt) ∧
      ⟨receipt.reservationID, receipt.operation, receipt.amount⟩ = r := by
    rw [ReserverTables.recorded, if_neg other] at found
    obtain ⟨receipt, search, same⟩ := Option.map_eq_some_iff.mp found
    exact ⟨receipt, getReceiptByIdempotencyKey_eq_ok.mpr ⟨fits, search⟩, same⟩
  cases op with
  | settle =>
    obtain ⟨receipt, search, rfl⟩ := receipts (by decide)
    refine ⟨_, ?_, ensureReservationOperationReceiptMatches_eq_ok, fun _ =>
      ensureReservationOperationReceiptMatches_error⟩
    rw [run, settle, show SettleInput.validate _ _ = _ from valid, ok_bind, signed,
      ok_bind, settleWithQueries,
      SettleInput.isPositive_of_validate valid, lock, search]
    rfl
  | settlePartial =>
    obtain ⟨leg, search, rfl⟩ := Option.map_eq_some_iff.mp found
    refine ⟨_, ?_, ensureSettlementLegMatches_eq_ok rfl, fun _ => ensureSettlementLegMatches_error⟩
    rw [run, settlePartial, show SettleInput.validate _ _ = _ from valid, ok_bind, signed, ok_bind,
      settlePartialWithQueries, SettleInput.isPositive_of_validate valid, lock,
      getSettlementLegByIdempotencyKey_eq_ok.mpr ⟨fits, search⟩]
    rfl
  | finalizeSettlement =>
    obtain ⟨receipt, search, rfl⟩ := receipts (by decide)
    refine ⟨_, ?_, ensureReservationOperationReceiptMatches_eq_ok, fun _ =>
      ensureReservationOperationReceiptMatches_error⟩
    rw [run, finalizeSettlement, show ReleaseInput.validate _ _ = _ from valid,
      ok_bind, signed, ok_bind,
      finalizeSettlementWithQueries, lock, search]
    rfl
  | release =>
    obtain ⟨receipt, search, rfl⟩ := receipts (by decide)
    refine ⟨_, ?_, ensureReservationOperationReceiptMatches_eq_ok, fun _ =>
      ensureReservationOperationReceiptMatches_error⟩
    rw [run, release, show ReleaseInput.validate _ _ = _ from valid, ok_bind, signed,
      ok_bind, releaseWithQueries,
      lock, search]
    rfl

end Ledger.Postgres
