import Ledger.Postgres.ReservationSpec
import Ledger.Shared.Runs

namespace Ledger.Postgres

open Core Shared

variable {hash : DischargePayload → GoString} {t t' : ReserverTables}

structure Opened (t : ReserverTables) (row : ReservationRow) : Prop where
  id : row.id ∉ t.reservations.map (·.id)
  uid : row.uid ∉ t.reservations.map (·.uid)
  status : row.status = .active
  settled : row.settledAmount = 0
  reserved : 0 < row.reservedAmount

inductive ReserverStep (hash : DischargePayload → GoString) (t : ReserverTables) :
    ReserverTables → Prop
  | call {t' : ReserverTables} (c : DischargeCall) : c.run hash t = .ok t' → ReserverStep hash t t'
  | reserve (row : ReservationRow) : Opened t row → ReserverStep hash t
      { t with reservations := t.reservations ++ [row] }
  | elsewhere (currencies : List CurrencyRow) : ReserverStep hash t { t with currencies := currencies }

structure ReserverTables.Empty (t : ReserverTables) : Prop where
  reservations : t.reservations = []
  legs : t.legs = []
  receipts : t.receipts = []

structure ReserverInv (t : ReserverTables) : Prop where
  ids : (t.reservations.map (·.id)).Nodup
  uids : (t.reservations.map (·.uid)).Nodup
  reserved : ∀ r ∈ t.reservations, 0 < r.reservedAmount
  bounds : ∀ r ∈ t.reservations, 0 ≤ r.settledAmount ∧ r.settledAmount ≤ r.reservedAmount
  active : ∀ r ∈ t.reservations, r.status = .active → r.settledAmount = 0
  legs : ∀ r ∈ t.reservations, r.status.terminal = false → r.settledAmount = t.legsTotal r.id
  legsPositive : ∀ leg ∈ t.legs, 0 < leg.amount
  legsBound : ∀ r ∈ t.reservations, t.legsTotal r.id ≤ r.reservedAmount
  owned : ∀ leg ∈ t.legs, leg.reservationID ∈ t.reservations.map (·.id)
  legKeys : ∀ leg ∈ t.legs, textFits leg.idempotencyKey = true
  receiptKeys : ∀ r ∈ t.receipts, textFits r.idempotencyKey = true

variable {res r' : ReservationRow} {c : DischargeCall} {r : Recorded}

theorem ReserverTables.named_mem {uid : GoString} (named : t.named uid = some res) :
    res ∈ t.reservations := by
  obtain ⟨_, -, found⟩ := Option.bind_eq_some_iff.mp named
  exact List.mem_of_find?_eq_some found

variable {rows : List ReservationRow} {change : ReservationRow → ReservationRow}
  {after : ReservationRow} {op : ReservationOp}
  {key : GoString}

theorem eq_of_id (ids : (rows.map (·.id)).Nodup) {r : ReservationRow} (member : r ∈ rows)
    (member' : r' ∈ rows) (same : r.id = r'.id) :
    r = r' :=
  List.inj_on_of_nodup_map ids member member' same

theorem mem_updateReservation (ids : (t.reservations.map (·.id)).Nodup)
    (member : res ∈ t.reservations) :
    r' ∈ (t.updateReservation res.id change).reservations ↔ (r' ∈ t.reservations ∧ r'.id ≠ res.id) ∨
    r' = change res := by
  simp only [ReserverTables.updateReservation, List.mem_map]
  constructor
  · rintro ⟨r, inside, rfl⟩
    split
    · next same => exact .inr (by rw [eq_of_id ids inside member same])
    · next other => exact .inl ⟨inside, other⟩
  · rintro (⟨inside, other⟩ | rfl)
    · exact ⟨r', inside, if_neg other⟩
    · exact ⟨res, member, if_pos rfl⟩

theorem updateReservation_map {β : Type} (column : ReservationRow → β) {id : Nat}
    (keeps : ∀ r, column (change r) = column r) :
    (t.updateReservation id change).reservations.map column = t.reservations.map column := by
  rw [ReserverTables.updateReservation, List.map_map]
  apply List.map_congr_left
  intro r _
  rw [Function.comp_apply]
  split
  · exact keeps r
  · rfl

structure Discharged (t : ReserverTables) (res after : ReservationRow) (c : DischargeCall)
    (t' : ReserverTables) : Prop where
  ids : t'.reservations.map (·.id) = t.reservations.map (·.id)
  uids : t'.reservations.map (·.uid) = t.reservations.map (·.uid)
  rows : (t.reservations.map (·.id)).Nodup → ∀ r', r' ∈ t'.reservations ↔
    (r' ∈ t.reservations ∧ r'.id ≠ res.id) ∨ r' = after
  -- The whole table, for sums over it.
  update : ∃ change : ReservationRow → ReservationRow, change res = after ∧
    t'.reservations = t.reservations.map fun r => if r.id = res.id then change r else r
  id : after.id = res.id
  frame : after.accountHolder = res.accountHolder ∧ after.currencyID = res.currencyID ∧
    after.reservedAmount = res.reservedAmount
  uid : after.uid = res.uid
  open_ : res.status.terminal = false
  legs : (c.op ≠ .settlePartial ∧ t'.legs = t.legs ∧ after.status.terminal = true ∧
    ∃ receipt : ReceiptRow,
      receipt.reservationID = res.id ∧ receipt.operation = c.op ∧ receipt.idempotencyKey = c.key ∧
      t'.receipts = t.receipts ++ [receipt]) ∨
    (c.op = .settlePartial ∧ t'.receipts = t.receipts ∧ after.status = .settling ∧ ∃ leg : LegRow,
      leg.reservationID = res.id ∧ leg.idempotencyKey = c.key ∧ 0 < leg.amount ∧
      after.settledAmount = res.settledAmount + leg.amount ∧ t'.legs = t.legs ++ [leg])
  bounds : 0 ≤ res.settledAmount → res.settledAmount ≤ res.reservedAmount →
    0 ≤ after.settledAmount ∧ after.settledAmount ≤ after.reservedAmount

theorem Discharge.discharged {auth : DischargeAuth} (member : res ∈ t.reservations)
    (done : Discharge t res c auth t') :
    ∃ after, Discharged t res after c t' := by
  cases done with
  | settle units op active positive bounded fits exact_ =>
    refine ⟨{ res with status := .settled, settledAmount := units, journalID := none }, ?_, ?_, ?_,
      ⟨_, rfl, rfl⟩, rfl, ⟨rfl, rfl, rfl⟩, rfl, ?_, ?_, ?_⟩
    iterate 2 exact updateReservation_map _ fun _ => rfl
    · exact fun ids r' => mem_updateReservation ids member
    · rw [active]; rfl
    · exact .inl ⟨by rw [op]; decide, rfl, rfl, _, rfl, op.symm, rfl, rfl⟩
    · exact fun _ _ => ⟨positive.le, bounded⟩
  | settlePartial units op from_ positive bounded fits exact_ =>
    refine ⟨{ res with status := .settling, settledAmount := res.settledAmount + units }, ?_, ?_,
      ?_, ⟨_, rfl, rfl⟩, rfl, ⟨rfl, rfl, rfl⟩, rfl, ?_, ?_, ?_⟩
    iterate 2 exact updateReservation_map _ fun _ => rfl
    · exact fun ids r' => mem_updateReservation ids member
    · rcases from_ with status | status <;> rw [status] <;> rfl
    · exact .inr ⟨op, rfl, rfl, _, rfl, rfl, positive, rfl, rfl⟩
    · exact fun nonneg _ => ⟨by simp only; omega, bounded⟩
  | finalizeSettlement op settling =>
    refine ⟨{ res with status := .settled }, ?_, ?_, ?_, ⟨_, rfl, rfl⟩, rfl,
      ⟨rfl, rfl, rfl⟩, rfl, ?_, ?_, ?_⟩
    iterate 2 exact updateReservation_map _ fun _ => rfl
    · exact fun ids r' => mem_updateReservation ids member
    · rw [settling]; rfl
    · exact .inl ⟨by rw [op]; decide, rfl, rfl, _, rfl, op.symm, rfl, rfl⟩
    · exact fun nonneg below => ⟨nonneg, below⟩
  | release op from_ =>
    refine ⟨{ res with status := .released }, ?_, ?_, ?_, ⟨_, rfl, rfl⟩, rfl,
      ⟨rfl, rfl, rfl⟩, rfl, ?_, ?_, ?_⟩
    iterate 2 exact updateReservation_map _ fun _ => rfl
    · exact fun ids r' => mem_updateReservation ids member
    · rcases from_ with status | status <;> rw [status] <;> rfl
    · exact .inl ⟨by rw [op]; decide, rfl, rfl, _, rfl, op.symm, rfl, rfl⟩
    · exact fun nonneg below => ⟨nonneg, below⟩

theorem DischargeCall.cases_ok (ok : c.run hash t = .ok t') : textFits c.key = true ∧
    ((t' = t ∧ (t.recorded c.op c.key).isSome) ∨
      (t.recorded c.op c.key = none ∧ ∃ res ∈ t.reservations, ∃ after,
        Discharged t res after c t')) := by
  obtain ⟨res, named, fits, ⟨r, found, -, same⟩ | ⟨fresh, auth, -, done⟩⟩ := outcome ok
  · exact ⟨fits, .inl ⟨same, by rw [found]; rfl⟩⟩
  · have member := ReserverTables.named_mem named
    exact ⟨fits, .inr ⟨fresh, res, member, done.discharged member⟩⟩

theorem ReserverTables.legsTotal_append {leg : LegRow}
    (appended : t'.legs = t.legs ++ [leg]) (id : Nat) :
    t'.legsTotal id = t.legsTotal id + if leg.reservationID = id then leg.amount else 0 := by
  rw [legsTotal, appended, sumAt_append, sumAt_cons, sumAt_nil, add_zero]
  rfl

theorem Discharged.inv (done : Discharged t res after c t') (member : res ∈ t.reservations)
    (fits : textFits c.key = true)
    (inv : ReserverInv t) : ReserverInv t' := by
  have rows := done.rows inv.ids
  have bound := done.bounds (inv.bounds res member).1 (inv.bounds res member).2
  refine ⟨done.ids ▸ inv.ids, done.uids ▸ inv.uids, ?_, ?_, ?_, ?_, ?_, ?_, ?_, ?_, ?_⟩
  · intro r' inside
    rcases (rows r').mp inside with ⟨old, -⟩ | rfl
    · exact inv.reserved r' old
    · rw [done.frame.2.2]; exact inv.reserved res member
  · intro r' inside
    rcases (rows r').mp inside with ⟨old, -⟩ | rfl
    · exact inv.bounds r' old
    · exact bound
  · intro r' inside active
    rcases (rows r').mp inside with ⟨old, -⟩ | rfl
    · exact inv.active r' old active
    · rcases done.legs with ⟨-, -, terminal, -⟩ | ⟨-, -, settling, -⟩
      · rw [active] at terminal; cases terminal
      · rw [active] at settling; cases settling
  · intro r' inside nonterminal
    rcases done.legs with ⟨-, legs, terminal, -⟩ | ⟨-, -, -, leg, owner, -, -, settled, legs⟩
    · rcases (rows r').mp inside with ⟨old, -⟩ | rfl
      · rw [inv.legs r' old nonterminal, ReserverTables.legsTotal, ReserverTables.legsTotal, legs]
      · rw [nonterminal] at terminal; cases terminal
    · rw [ReserverTables.legsTotal_append legs]
      rcases (rows r').mp inside with ⟨old, other⟩ | rfl
      · rw [if_neg (by rw [owner]; exact other.symm), add_zero, inv.legs r' old nonterminal]
      · rw [if_pos (by rw [owner, done.id]), settled, done.id, inv.legs res member done.open_]
  · rcases done.legs with ⟨-, legs, -⟩ | ⟨-, -, -, leg, -, -, positive, -, legs⟩
    · rw [legs]; exact inv.legsPositive
    · intro l inside
      rw [legs, List.mem_append, List.mem_singleton] at inside
      rcases inside with old | rfl
      · exact inv.legsPositive l old
      · exact positive
  · intro r' inside
    rcases done.legs with ⟨-, legs, -⟩ | ⟨-, -, -, leg, owner, -, -, settled, legs⟩
    · rw [ReserverTables.legsTotal, legs]
      rcases (rows r').mp inside with ⟨old, -⟩ | rfl
      · exact inv.legsBound r' old
      · rw [done.frame.2.2, done.id]; exact inv.legsBound res member
    · rw [ReserverTables.legsTotal_append legs]
      rcases (rows r').mp inside with ⟨old, other⟩ | rfl
      · rw [if_neg (by rw [owner]; exact other.symm), add_zero]
        exact inv.legsBound r' old
      · -- The legs of an open reservation are its settled column.
        rw [if_pos (by rw [owner, done.id]), done.id, ← inv.legs res member done.open_, ← settled]
        exact bound.2
  · rw [done.ids]
    rcases done.legs with ⟨-, legs, -⟩ | ⟨-, -, -, leg, owner, -, -, -, legs⟩
    · rw [legs]; exact inv.owned
    · intro l inside
      rw [legs, List.mem_append, List.mem_singleton] at inside
      rcases inside with old | rfl
      · exact inv.owned l old
      · rw [owner]; exact List.mem_map_of_mem member
  · rcases done.legs with ⟨-, legs, -⟩ | ⟨-, -, -, leg, -, key, -, -, legs⟩
    · rw [legs]; exact inv.legKeys
    · intro l inside
      rw [legs, List.mem_append, List.mem_singleton] at inside
      rcases inside with old | rfl
      · exact inv.legKeys l old
      · rw [key]; exact fits
  · rcases done.legs with ⟨-, -, -, receipt, -, -, key, receipts⟩ | ⟨-, receipts, -⟩
    · intro r inside
      rw [receipts, List.mem_append, List.mem_singleton] at inside
      rcases inside with old | rfl
      · exact inv.receiptKeys r old
      · rw [key]; exact fits
    · rw [receipts]; exact inv.receiptKeys

theorem nodup_append_fresh {α : Type} {column : ReservationRow → α} {row : ReservationRow}
    (nodup : (rows.map column).Nodup)
    (fresh : column row ∉ rows.map column) : ((rows ++ [row]).map column).Nodup := by
  rw [List.map_append, List.nodup_append]
  refine ⟨nodup, List.nodup_singleton _, ?_⟩
  rintro value inside _ last rfl
  rw [List.map_singleton, List.mem_singleton] at last
  exact fresh (last ▸ inside)

theorem ReserverInv.reserve {row : ReservationRow} (inv : ReserverInv t) (opened : Opened t row) :
    ReserverInv { t with reservations := t.reservations ++ [row] } := by
  have none_ : t.legsTotal row.id = 0 := by
    apply sumAt_of_not_mem
    intro inside
    obtain ⟨leg, member, same⟩ := List.mem_map.mp inside
    exact opened.id (same ▸ inv.owned leg member)
  refine ⟨nodup_append_fresh inv.ids opened.id, nodup_append_fresh inv.uids opened.uid, ?_, ?_, ?_,
    ?_, inv.legsPositive, ?_, ?_,
    inv.legKeys, inv.receiptKeys⟩
  all_goals simp only [List.mem_append, List.mem_singleton, List.map_append, List.map_singleton]
  · rintro r (old | rfl)
    · exact inv.reserved r old
    · exact opened.reserved
  · rintro r (old | rfl)
    · exact inv.bounds r old
    · rw [opened.settled]
      exact ⟨le_rfl, opened.reserved.le⟩
  · rintro r (old | rfl)
    · exact inv.active r old
    · exact fun _ => opened.settled
  · rintro r (old | rfl)
    · exact inv.legs r old
    · exact fun _ => opened.settled.trans none_.symm
  · rintro r (old | rfl)
    · exact inv.legsBound r old
    · exact none_.trans_le opened.reserved.le
  · exact fun leg member => .inl (inv.owned leg member)

theorem ReserverInv.preserved : Preserved (ReserverStep hash) ReserverInv := by
  intro t t' inv step
  cases step with
  | call c ok =>
    obtain ⟨fits, ⟨rfl, -⟩ | ⟨-, res, member, after, done⟩⟩ := c.cases_ok ok
    · exact inv
    · exact done.inv member fits inv
  | reserve row opened => exact inv.reserve opened
  | elsewhere currencies =>
    exact ⟨inv.ids, inv.uids, inv.reserved, inv.bounds, inv.active, inv.legs, inv.legsPositive,
      inv.legsBound, inv.owned,
      inv.legKeys, inv.receiptKeys⟩

theorem ReserverTables.Empty.inv (empty : t.Empty) : ReserverInv t := by
  obtain ⟨reservations, legs, receipts⟩ := empty
  constructor <;> simp [reservations, legs, receipts]

structure Kept (t t' : ReserverTables) : Prop where
  recorded : ∀ op key r, t.recorded op key = some r → t'.recorded op key = some r
  terminal : ∀ r ∈ t.reservations, r.status.terminal = true → r ∈ t'.reservations

theorem recorded_append {legs : List LegRow} {receipts : List ReceiptRow}
    (grownLegs : t'.legs = t.legs ++ legs)
    (grownReceipts : t'.receipts = t.receipts ++ receipts) (found : t.recorded op key = some r) :
    t'.recorded op key = some r := by
  unfold ReserverTables.recorded at found ⊢
  split
  · next partial_ =>
    rw [if_pos partial_] at found
    obtain ⟨leg, search, rfl⟩ := Option.map_eq_some_iff.mp found
    rw [grownLegs, List.find?_append, search]
    rfl
  · next other =>
    rw [if_neg other] at found
    obtain ⟨receipt, search, rfl⟩ := Option.map_eq_some_iff.mp found
    rw [grownReceipts, List.find?_append, search]
    rfl

theorem Kept.step (inv : ReserverInv t) (step : ReserverStep hash t t') : Kept t t' := by
  cases step with
  | call c ok =>
    obtain ⟨-, ⟨rfl, -⟩ | ⟨-, res, member, after, done⟩⟩ := c.cases_ok ok
    · exact ⟨fun _ _ _ found => found, fun _ member _ => member⟩
    · refine ⟨fun op key r found => ?_, fun r inside terminal => ?_⟩
      · rcases done.legs with ⟨-, legs, -, receipt, -, -, -, receipts⟩ | ⟨-, receipts, -, leg, -, -, -, -, legs⟩
        · exact recorded_append (legs.trans (List.append_nil _).symm) receipts found
        · exact recorded_append legs (receipts.trans (List.append_nil _).symm) found
      · refine (done.rows inv.ids r).mpr (.inl ⟨inside, fun same => ?_⟩)
        rw [eq_of_id inv.ids inside member same, done.open_] at terminal
        cases terminal
  | reserve row opened =>
    exact ⟨fun _ _ _ found => found, fun _ member _ => List.mem_append_left _ member⟩
  | elsewhere currencies => exact ⟨fun _ _ _ found => found, fun _ member _ => member⟩

theorem Kept.run (inv : ReserverInv t) (run : Shared.Run (ReserverStep hash) t t') : Kept t t' :=
  ReserverInv.preserved.run_rel Kept (fun _ => ⟨fun _ _ _ found => found, fun _ member _ => member⟩)
    (fun _ _ _ first second =>
      ⟨fun op key r found => second.recorded op key r (first.recorded op key r found),
      fun r member terminal => second.terminal r (first.terminal r member terminal) terminal⟩)
    (fun _ _ => Kept.step) inv run

theorem Discharged.recorded (done : Discharged t res after c t')
    (fresh : t.recorded c.op c.key = none) :
    ∃ r, t'.recorded c.op c.key = some r := by
  unfold ReserverTables.recorded at fresh ⊢
  rcases done.legs with ⟨other, -, -, receipt, -, -, key, receipts⟩ | ⟨partial_, -, -,
    leg, -, key, -, -, legs⟩
  · rw [if_neg other, Option.map_eq_none_iff] at fresh
    rw [if_neg other, receipts, List.find?_append, fresh]
    simp [key]
  · rw [if_pos partial_, Option.map_eq_none_iff] at fresh
    rw [if_pos partial_, legs, List.find?_append, fresh]
    simp [key]

theorem ReserverInv.textFits_of_recorded (inv : ReserverInv t)
    (found : t.recorded op key = some r) : textFits key = true := by
  unfold ReserverTables.recorded at found
  split at found
  · obtain ⟨leg, search, -⟩ := Option.map_eq_some_iff.mp found
    have same : leg.idempotencyKey = key := by simpa using List.find?_some search
    exact same ▸ inv.legKeys leg (List.mem_of_find?_eq_some search)
  · obtain ⟨receipt, search, -⟩ := Option.map_eq_some_iff.mp found
    have same : receipt.idempotencyKey = key := by simpa using List.find?_some search
    exact same ▸ inv.receiptKeys receipt (List.mem_of_find?_eq_some search)

def ReserverTables.openHolds (t : ReserverTables) (holder : Int) (currencyID : Nat) : Int :=
  ((t.reservations.filter fun r => r.accountHolder == holder && r.currencyID == currencyID &&
    !r.status.terminal).map
    fun r => r.reservedAmount - t.legsTotal r.id).sum

theorem ReserverInv.sumActiveReservations_eq (inv : ReserverInv t) (holder : Int)
    (currencyID : Nat) :
    t.sumActiveReservations holder currencyID = t.openHolds holder currencyID := by
  have open_ (status : ReservationStatus) : (status == .active || status == .settling) =
    !status.terminal := by
    cases status <;> rfl
  simp only [ReserverTables.sumActiveReservations, ReserverTables.openHolds, open_]
  congr 1
  apply List.map_congr_left
  intro r member
  obtain ⟨inside, -, nonterminal⟩ : r ∈ t.reservations ∧
    (r.accountHolder = holder ∧ r.currencyID = currencyID) ∧
      r.status.terminal = false := by simpa using member
  rw [← inv.legs r inside nonterminal]
  split
  · next active => rw [inv.active r inside active, sub_zero]
  · rfl

theorem reservation_discharges_exact {start : ReserverTables} (empty : start.Empty)
    (run : Shared.Run (ReserverStep hash) start t) :
    -- The columns of every reservation.
    (∀ r ∈ t.reservations, 0 ≤ r.settledAmount ∧ r.settledAmount ≤ r.reservedAmount ∧
      (r.status = .settling → r.settledAmount = t.legsTotal r.id) ∧
      (r.status = .settled ∨ r.status = .released → ∀ t', Shared.Run (ReserverStep hash) t t' →
        ∀ r', r' ∈ t'.reservations ∧ r'.id = r.id ↔ r' = r)) ∧
    -- A change is made under a key that is new to the table its operation writes, and is recorded there for good.
    (∀ (c : DischargeCall) t', c.run hash t = .ok t' → t' ≠ t →
      t.recorded c.op c.key = none ∧ ∃ r, t'.recorded c.op c.key = some r) ∧
    (∀ (c : DischargeCall) r, t.recorded c.op c.key = some r →
      (∀ t', Shared.Run (ReserverStep hash) t t' → t'.recorded c.op c.key = some r) ∧
      -- A recorded key changes nothing again: the same content succeeds, other content conflicts.
      ∀ res, c.validate = .ok () → t.named c.reservationUID = some res →
        (r.Matches res c → c.run hash t = .ok t) ∧
          (¬ r.Matches res c → ∃ e, c.run hash t = .error e ∧ e.sentinel = .conflict)) ∧
    (∀ holder currencyUID cur, t.currencyByUIDOrErr currencyUID = .ok cur →
      ∃ held, heldAmount t holder currencyUID = .ok held ∧ held.val * 10 ^ 18 =
      t.openHolds holder cur.id) := by
  have inv := ReserverInv.preserved.run empty.inv run
  refine ⟨fun r member => ?_, fun c t' ok changed => ?_, fun c r found => ?_,
    fun holder currencyUID cur known => ?_⟩
  · refine ⟨(inv.bounds r member).1, (inv.bounds r member).2, fun settling => inv.legs r member
      (by rw [settling]; rfl), ?_⟩
    intro terminal t' later r'
    have kept : r ∈ t'.reservations := (Kept.run inv later).terminal r member
      (by rcases terminal with h | h <;> rw [h] <;> rfl)
    constructor
    · rintro ⟨inside, same⟩
      exact eq_of_id (ReserverInv.preserved.run inv later).ids inside kept same
    · rintro rfl
      exact ⟨kept, rfl⟩
  · obtain ⟨-, ⟨same, -⟩ | ⟨fresh, res, -, after, done⟩⟩ := c.cases_ok ok
    · exact absurd same changed
    · exact ⟨fresh, done.recorded fresh⟩
  · refine ⟨fun t' later => (Kept.run inv later).recorded _ _ _ found, fun res valid named => ?_⟩
    obtain ⟨check, runs, matches_, conflict⟩ :=
      @DischargeCall.run_of_recorded res c hash t r valid (inv.textFits_of_recorded found) named found
    rw [runs]
    constructor
    · intro same
      rw [matches_.mpr same]
      rfl
    · intro different
      cases result : check with
      | ok u => exact absurd (matches_.mp result) different
      | error e => exact ⟨e, rfl, conflict e result⟩
  · refine ⟨numericToDecimal (t.sumActiveReservations holder cur.id), ?_, ?_⟩
    · rw [heldAmount, known]
      rfl
    · rw [numericToDecimal_units, inv.sumActiveReservations_eq]

namespace ReserverSample

def start : ReserverTables :=
  { currencies := [⟨1, .nil, lit "USD", 2, true⟩], reservations := [], legs := [], receipts := [] }

def reservation : ReservationRow :=
  { id := 1, uid := .nil, accountHolder := 7, currencyID := 1,
    reservedAmount := 100 * 10 ^ 18, settledAmount := 0, status := .active, journalID := none,
    idempotencyKey := lit "hold", expiresAt := 2000, createdAt := 0 }

def reserved : ReserverTables := { start with reservations := [reservation] }

def claim (op : ReservationOp) : DischargeCall :=
  ⟨op, .tx, ⟨1000, 1000, 1000⟩, pgToUID .nil, ⟨40, 0⟩, lit "k"⟩

def settling : ReserverTables := okOr reserved ((claim .settlePartial).run (fun _ => []) reserved)

theorem run_settling : Shared.Run (ReserverStep fun _ => []) start settling := by
  have opened : Opened start reservation := ⟨by decide, by decide, rfl, rfl, by decide⟩
  refine (Relation.ReflTransGen.single (.reserve reservation opened)).tail (.call (claim .settlePartial) ?_)
  exact eq_ok_of_isOk (by decide +kernel) _

end ReserverSample

theorem reservation_discharges_exact_partial : ReserverSample.settling.reservations.map
    (·.settledAmount) = [40 * 10 ^ 18] ∧
      ∀ r ∈ ReserverSample.settling.reservations, r.settledAmount =
      ReserverSample.settling.legsTotal r.id := by
  have settling : ∀ r ∈ ReserverSample.settling.reservations, r.status = .settling := by decide +kernel
  refine ⟨by decide +kernel, fun r member => ?_⟩
  exact ((reservation_discharges_exact ⟨rfl, rfl, rfl⟩ ReserverSample.run_settling).1 r member).2.2.1
    (settling r member)

/-- The key of a leg is new to the receipts: finalizing under it succeeds and moves the status. -/
theorem leg_key_finalizes :
    ReserverSample.settling.recorded .settlePartial (lit "k") = some ⟨1, .settlePartial, 40 * 10 ^ 18⟩ ∧
      ReserverSample.settling.reservations.map (·.status) = [.settling] ∧
      ((ReserverSample.claim .finalizeSettlement).run (fun _ => []) ReserverSample.settling).map
        (fun t => t.reservations.map (·.status)) = .ok [.settled] := by
  decide +kernel

end Ledger.Postgres
