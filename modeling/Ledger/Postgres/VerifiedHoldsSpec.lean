import Ledger.Postgres.VerifiedHolds

namespace Ledger.Postgres

open Core Shared

variable {hash : DischargePayload → GoString} {verify : AuthVerifier}

theorem holdNetOf_val (discharges : List (Nat × Decimal)) (r : ReservationRow) :
    (holdNetOf discharges r).val =
    max 0 ((numericToDecimal r.reservedAmount).val - (dischargeFor discharges r.id).val) := by
  simp only [holdNetOf]
  split
  · next negative =>
    rw [Decimal.isNegative_iff, Decimal.val_sub] at negative
    rw [Decimal.val_zero, max_eq_left negative.le]
  · next not =>
    rw [Decimal.isNegative_iff, not_lt, Decimal.val_sub] at not
    rw [Decimal.val_sub, max_eq_right not]

def ReserverTables.receiptsOf (t : ReserverTables) (id : Nat) : List Claim :=
  (t.receipts.filter (·.reservationID == id)).filterMap t.receiptClaim

def ReserverTables.legsOf (t : ReserverTables) (id : Nat) : List Claim :=
  (t.legs.filter (·.reservationID == id)).filterMap t.legClaim

variable {t : ReserverTables} {c : Claim}

theorem receiptClaim_id {o : ReceiptRow} (joined : t.receiptClaim o = some c) : c.reservationID =
    o.reservationID := by
  obtain ⟨_, -, rfl⟩ := Option.map_eq_some_iff.mp joined
  rfl

theorem legClaim_id {l : LegRow} (joined : t.legClaim l = some c) : c.reservationID =
    l.reservationID := by
  obtain ⟨_, -, rfl⟩ := Option.map_eq_some_iff.mp joined
  rfl

theorem filter_filterMap_id {α : Type} {join : α → Option Claim} {idOf : α → Nat}
    (keeps : ∀ a c, join a = some c → c.reservationID = idOf a) (rows : List α)
    (ids : List Nat) {id : Nat}
    (member : id ∈ ids) :
    (((rows.filter fun a => ids.contains (idOf a)).filterMap join).filter (·.reservationID == id)) =
      (rows.filter (idOf · == id)).filterMap join := by
  simp only [List.contains_eq_mem]
  induction rows with
  | nil => rfl
  | cons a rest ih =>
    by_cases own : idOf a = id
    · cases joined : join a with
      | none => simp [own, member, joined, ih]
      | some c => simp [own, member, joined, ih, keeps a c joined]
    · by_cases listed : idOf a ∈ ids
      · cases joined : join a with
        | none => simp [own, listed, joined, ih]
        | some c => simp [own, listed, joined, ih, keeps a c joined]
      · simp [own, listed, ih]

theorem dischargeOf_filter (receipts legs : List Claim) (r : ReservationRow) :
    dischargeOf hash verify receipts legs r = dischargeOf hash verify
    (receipts.filter (·.reservationID == r.id))
      (legs.filter (·.reservationID == r.id)) r := by
  have same (l : List Claim) (p : Claim → Bool) : (l.filter (·.reservationID == r.id)).any
    (fun c => c.reservationID == r.id && p c) =
      l.any (fun c => c.reservationID == r.id && p c) := by
    rw [List.any_filter]
    congr 1
    funext c
    cases c.reservationID == r.id <;> rfl
  simp only [dischargeOf, List.any_append, same, List.filter_filter]
  congr 5
  apply List.filter_congr
  intro c _
  cases c.reservationID == r.id <;> simp

variable {r : ReservationRow}

theorem dischargeOf_listed (t : ReserverTables) {ids : List Nat} (member : r.id ∈ ids) :
    dischargeOf hash verify (t.listOperationReceipts ids) (t.listSettlementLegs ids) r =
      dischargeOf hash verify (t.receiptsOf r.id) (t.legsOf r.id) r := by
  rw [dischargeOf_filter, ReserverTables.listOperationReceipts, ReserverTables.listSettlementLegs,
    filter_filterMap_id (fun _ _ => receiptClaim_id) _ _ member, filter_filterMap_id
      (fun _ _ => legClaim_id) _ _ member]
  rfl

theorem dischargeFor_verified (t : ReserverTables) (now : Int) (holder : Int)
    (currencyID id : Nat) :
    dischargeFor (verifiedDischarges hash verify t now holder currencyID) id =
      (((t.listUnexpiredReservationHolds now holder currencyID).find? (·.id == id)).map fun r =>
        dischargeOf hash verify (t.receiptsOf id) (t.legsOf id) r).getD .zero := by
  unfold dischargeFor verifiedDischarges
  rw [List.find?_map]
  cases found : (t.listUnexpiredReservationHolds now holder currencyID).find? (·.id == id) with
  | none =>
    simp only [Function.comp_def, found, Option.map_none, Option.getD_none]
  | some r =>
    have same : r.id = id := by simpa using List.find?_some found
    subst same
    simp only [Function.comp_def, found, Option.map_some, Option.getD_some]
    exact dischargeOf_listed t (List.mem_map_of_mem (List.mem_of_find?_eq_some found))

structure ReserverTables.Checks (t : ReserverTables) : Prop where
  reserved : ∀ r ∈ t.reservations, 0 < r.reservedAmount
  legs : ∀ l ∈ t.legs, 0 < l.amount

structure Forged (hash : DischargePayload → GoString) (verify : AuthVerifier)
    (t t' : ReserverTables) : Prop where
  reservations : t'.reservations = t.reservations
  receipts : ∃ new, t'.receipts.Perm (t.receipts ++ new) ∧
    ∀ o ∈ new, ∀ c, t.receiptClaim o = some c → c.verifies hash verify = false
  legs : ∃ new, t'.legs.Perm (t.legs ++ new) ∧ ∀ l ∈ new, ∀ c, t.legClaim l = some c →
    c.verifies hash verify = false

theorem numericToDecimal_nonneg {units : Int} (nonneg : 0 ≤ units) : 0 ≤
    (numericToDecimal units).val := by
  rw [numericToDecimal, ofUnits_val]
  have : (0 : ℚ) ≤ units := by exact_mod_cast nonneg
  positivity

variable {receipts legs : List Claim}

theorem dischargeOf_nonneg (reserved : 0 ≤ r.reservedAmount) (amounts : ∀ c ∈ legs, 0 ≤ c.amount) :
    0 ≤ (dischargeOf hash verify receipts legs r).val := by
  unfold dischargeOf
  split
  · exact Decimal.val_zero.ge
  · split
    · exact numericToDecimal_nonneg reserved
    · rw [decimalMin_val]
      refine le_min ?_ (numericToDecimal_nonneg reserved)
      rw [val_sumDecimals]
      apply List.sum_nonneg
      intro v member
      simp only [List.map_map, List.mem_map, Function.comp_apply] at member
      obtain ⟨c, inside, rfl⟩ := member
      exact numericToDecimal_nonneg (amounts c (List.mem_of_mem_filter inside))

theorem dischargeOf_perm {receipts' legs' : List Claim} (sameReceipts : receipts'.Perm receipts)
    (sameLegs : legs'.Perm legs)
    (r : ReservationRow) :
    (dischargeOf hash verify receipts' legs' r).val =
    (dischargeOf hash verify receipts legs r).val := by
  have any_ {l l' : List Claim} (perm : l'.Perm l) (p : Claim → Bool) : l'.any p = l.any p := by
    rw [Bool.eq_iff_iff, List.any_eq_true, List.any_eq_true]
    exact exists_congr fun c => and_congr_left fun _ => perm.mem_iff
  unfold dischargeOf
  rw [any_ (sameReceipts.append sameLegs), any_ sameReceipts]
  split
  · rfl
  · split
    · rfl
    · rw [decimalMin_val, decimalMin_val, val_sumDecimals, val_sumDecimals,
        ((((sameLegs.filter _).map _).map Decimal.val)).sum_eq]

theorem dischargeOf_antitone {newReceipts newLegs : List Claim} (reserved : 0 ≤ r.reservedAmount)
    (amounts : ∀ c ∈ legs, 0 ≤ c.amount)
    (forgedReceipts : ∀ c ∈ newReceipts, c.verifies hash verify = false)
    (forgedLegs : ∀ c ∈ newLegs, c.verifies hash verify = false) :
    (dischargeOf hash verify (receipts ++ newReceipts) (legs ++ newLegs) r).val ≤
    (dischargeOf hash verify receipts legs r).val := by
  by_cases mine : ∃ c ∈ newReceipts ++ newLegs, c.reservationID = r.id
  · have distrusted : ((receipts ++ newReceipts) ++ (legs ++ newLegs)).any
        (fun c => c.reservationID == r.id && !c.verifies hash verify) = true := by
      obtain ⟨c, member, own⟩ := mine
      have forged : c.verifies hash verify = false := (List.mem_append.mp member).elim (forgedReceipts c) (forgedLegs c)
      refine List.any_eq_true.mpr ⟨c, ?_, by simp [own, forged]⟩
      simp only [List.mem_append] at member ⊢
      tauto
    have zero : dischargeOf hash verify (receipts ++ newReceipts) (legs ++ newLegs) r = .zero := by
      rw [dischargeOf, if_pos distrusted]
    rw [zero, Decimal.val_zero]
    exact dischargeOf_nonneg reserved amounts
  · -- Nothing was added to this reservation.
    have none_ (new : List Claim) (sub : ∀ c ∈ new, c ∈ newReceipts ++ newLegs) :
      new.filter (·.reservationID == r.id) = [] := by
      rw [List.filter_eq_nil_iff]
      intro c member own
      exact mine ⟨c, sub c member, by simpa using own⟩
    rw [dischargeOf_filter, dischargeOf_filter receipts, List.filter_append, List.filter_append,
      none_ newReceipts (by simp +contextual), none_ newLegs (by simp +contextual), List.append_nil, List.append_nil]

section

variable {t t' : ReserverTables} (same : t'.reservations = t.reservations)
include same

theorem listUnexpired_congr (now : Int) (holder : Int) (currencyID : Nat) :
    t'.listUnexpiredReservationHolds now holder currencyID = t.listUnexpiredReservationHolds now
    holder currencyID := by
  simp only [ReserverTables.listUnexpiredReservationHolds, same]

theorem receiptClaim_congr : t'.receiptClaim = t.receiptClaim := by
  funext o
  simp only [ReserverTables.receiptClaim, ReserverTables.uidOf, same]

theorem legClaim_congr : t'.legClaim = t.legClaim := by
  funext l
  simp only [ReserverTables.legClaim, ReserverTables.uidOf, same]

end

theorem Forged.discharge_le {t' : ReserverTables} (forged : Forged hash verify t t')
    (checks : t.Checks) (now : Int)
    (holder : Int) (currencyID id : Nat) :
    (dischargeFor (verifiedDischarges hash verify t' now holder currencyID) id).val ≤
      (dischargeFor (verifiedDischarges hash verify t now holder currencyID) id).val := by
  rw [dischargeFor_verified, dischargeFor_verified, listUnexpired_congr forged.reservations]
  cases found : (t.listUnexpiredReservationHolds now holder currencyID).find? (·.id == id) with
  | none => exact le_rfl
  | some r =>
    have member : r ∈ t.reservations := by
      have := List.mem_of_find?_eq_some found
      rw [ReserverTables.listUnexpiredReservationHolds, List.mem_insertionSort] at this
      exact List.mem_of_mem_filter this
    obtain ⟨newReceipts, receipts, forgedReceipts⟩ := forged.receipts
    obtain ⟨newLegs, legs, forgedLegs⟩ := forged.legs
    have receiptsPerm : (t'.receiptsOf id).Perm (t.receiptsOf id ++
      (newReceipts.filter (·.reservationID == id)).filterMap t.receiptClaim) := by
      rw [ReserverTables.receiptsOf, receiptClaim_congr forged.reservations,
        ReserverTables.receiptsOf, ← List.filterMap_append, ← List.filter_append]
      exact (receipts.filter _).filterMap _
    have legsPerm : (t'.legsOf id).Perm
      (t.legsOf id ++ (newLegs.filter (·.reservationID == id)).filterMap t.legClaim) := by
      rw [ReserverTables.legsOf, legClaim_congr forged.reservations,
        ReserverTables.legsOf, ← List.filterMap_append, ← List.filter_append]
      exact (legs.filter _).filterMap _
    simp only [Option.map_some, Option.getD_some]
    rw [dischargeOf_perm receiptsPerm legsPerm]
    refine dischargeOf_antitone (checks.reserved r member).le ?_ ?_ ?_
    · intro c inside
      obtain ⟨l, there, joined⟩ := List.mem_filterMap.mp inside
      obtain ⟨_, -, rfl⟩ := Option.map_eq_some_iff.mp joined
      exact (checks.legs l (List.mem_of_mem_filter there)).le
    · intro c inside
      obtain ⟨o, there, joined⟩ := List.mem_filterMap.mp inside
      exact forgedReceipts o (List.mem_of_mem_filter there) c joined
    · intro c inside
      obtain ⟨l, there, joined⟩ := List.mem_filterMap.mp inside
      exact forgedLegs l (List.mem_of_mem_filter there) c joined

theorem sumHolds_mono {discharges discharges' : List (Nat × Decimal)}
    (lower : ∀ id, (dischargeFor discharges' id).val ≤ (dischargeFor discharges id).val)
    (t : ReserverTables) (now : Int)
    (holder : Int) (currencyID : Nat) :
    (sumHoldsNetOfVerifiedDischarge t now holder currencyID discharges).val ≤
      (sumHoldsNetOfVerifiedDischarge t now holder currencyID discharges').val := by
  rw [sumHoldsNetOfVerifiedDischarge, sumHoldsNetOfVerifiedDischarge, val_sumDecimals,
    val_sumDecimals, List.map_map, List.map_map]
  apply List.sum_le_sum
  intro r _
  rw [Function.comp_apply, Function.comp_apply, holdNetOf_val, holdNetOf_val]
  exact max_le_max_left 0 (sub_le_sub_left (lower r.id) _)

end Ledger.Postgres
