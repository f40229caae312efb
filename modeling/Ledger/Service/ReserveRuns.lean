import Ledger.Service.PostedEntries
import Ledger.Service.ReserveSystem

namespace Ledger.Service

open Core Postgres Shared

variable {hash : DischargePayload → GoString}

theorem computedBalance_exact {db : LedgerTables} {dim : Dimension} {row : ClassificationRow}
    (positive : ∀ e ∈ db.entries, 0 < e.id) (ok : CheckpointOk db dim (db.checkpoints dim))
    (found : db.getClassification dim.classification = some row) :
    db.computedBalance dim row.normalSide = signedTotal db row.normalSide dim :=
  calc db.computedBalance dim row.normalSide
    _ = ((db.checkpoints dim).map (·.balance)).getD 0 + sumAfter EntryRow.id (signedEntry row.normalSide)
          (db.dimEntries dim) (sinceEntryID (db.checkpoints dim)) := rfl
    _ = signedTotal db row.normalSide dim := by
      rw [checkpointBalance_eq positive ok found, signedSumUpTo, sumUpTo_add_sumAfter, signedTotal]

variable (db : LedgerTables)

theorem dimEntries_eq (pair : Pair) (id : Nat) :
    db.dimEntries ⟨pair.holder, pair.currency, id⟩ = (db.pairEntries pair).filter
    (·.dim.classification = id) := by
  rw [LedgerTables.dimEntries, LedgerTables.pairEntries, List.filter_filter]
  apply List.filter_congr
  intro e _
  obtain ⟨holder, currency, classification⟩ := e.dim
  obtain ⟨holder', currency'⟩ := pair
  rw [Bool.eq_iff_iff]
  simp only [Dimension.pair, Bool.and_eq_true, beq_iff_eq, decide_eq_true_eq,
    Dimension.mk.injEq, Pair.mk.injEq]
  tauto

theorem availableShare_eq (pair : Pair) (id : Nat) : (match db.getClassification id with
      | some c => if c.balanceRole = .available then signedTotal db c.normalSide ⟨pair.holder, pair.currency, id⟩ else 0
      | none => 0) = sumAt (·.dim.classification) (availableEntry db) (db.pairEntries pair) id := by
  have share : ∀ e ∈ db.dimEntries ⟨pair.holder, pair.currency, id⟩, availableEntry db e =
      match db.getClassification id with
      | some c => if c.balanceRole = .available then signedEntry c.normalSide e else 0
      | none => 0 := by
    intro e member
    have same : e.dim.classification = id := by
      rw [dimEntries_eq, List.mem_filter] at member
      simpa using member.2
    subst same
    rfl
  rw [sumAt, ← dimEntries_eq, List.map_congr_left share]
  cases db.getClassification id with
  | none => simp
  | some c =>
    by_cases role : c.balanceRole = .available
    · simp [role, signedTotal]
    · simp [role]

variable {s s' : System} {p : Pair} {t : Nat} {b b₁ : Bank} {r : Reserving} {c : DischargeCall}

theorem sumBalancesByRole_exact (inv : Inv s) (pair : Pair) :
    (s.db.sumBalancesByRole pair .available).val * 10 ^ 18 = availableTotal s.db pair := by
  have exact_ (id : Nat) (c : ClassificationRow) (found : s.db.getClassification id = some c) :
      s.db.computedBalance ⟨pair.holder, pair.currency, id⟩ c.normalSide =
        signedTotal s.db c.normalSide ⟨pair.holder, pair.currency, id⟩ := by
    refine computedBalance_exact (fun e member => (inv.committed e member).1) ?_ found
    cases stored : s.db.checkpoints ⟨pair.holder, pair.currency, id⟩ with
    | none => trivial
    | some cp => exact inv.checkpoints _ cp stored
  -- One classification after the other, each contributing its share.
  have scan (ids : List Nat) :
      (((ids.filterMap fun id => (s.db.getClassification id).map fun c =>
          (⟨c, s.db.computedBalance ⟨pair.holder, pair.currency, id⟩ c.normalSide⟩ : ComputedBalance)).filter
            (·.classification.balanceRole == .available)).map (·.balance)).sum =
        (ids.map (sumAt (·.dim.classification) (availableEntry s.db) (s.db.pairEntries pair))).sum := by
    induction ids with
    | nil => rfl
    | cons id rest ih =>
      rw [List.map_cons, List.sum_cons, ← ih, ← availableShare_eq, List.filterMap_cons]
      cases found : s.db.getClassification id with
      | none => simp
      | some c =>
        by_cases role : c.balanceRole = .available
        · simp [role, exact_ id c found]
        · simp [role]
  have total : (((s.db.listComputedBalances pair).filter
    (·.classification.balanceRole == .available)).map (·.balance)).sum =
      availableTotal s.db pair := by
    rw [LedgerTables.listComputedBalances, scan, sum_sumAt _ (nodup_looseScan _) (by
      intro e member
      rw [mem_looseScan]
      exact List.mem_map_of_mem member), availableTotal, sumAt, LedgerTables.pairEntries]
    rfl
  rw [LedgerTables.sumBalancesByRole, val_sumDecimals, List.map_map, ← total]
  generalize (s.db.listComputedBalances pair).filter
    (·.classification.balanceRole == .available) = rows
  induction rows with
  | nil => simp
  | cons row rest ih =>
    simp only [List.map_cons, List.sum_cons, Function.comp_apply, add_mul, ih, numericToDecimal_units]
    push_cast
    rfl

theorem step_pairEntries (inv : Inv s) (step : Step s s') (held : s.locks p = some t)
    (other : s.posts t = none) :
    s'.db.pairEntries p = s.db.pairEntries p :=
  inv.tidy.filter_entries step held other _ fun _ => beq_iff_eq.mp

theorem availableTotal_eq (p : Pair) : availableTotal db p =
    ((db.pairEntries p).map (availableEntry db)).sum := rfl

theorem step_availableTotal (inv : Inv s) (known : Known s) (step : Step s s')
    (roles : KeepsRoles s.db s'.db)
    (held : s.locks p = some t) (other : s.posts t = none) : availableTotal s'.db p =
    availableTotal s.db p := by
  rw [availableTotal_eq, availableTotal_eq, step_pairEntries inv step held other]
  congr 1
  apply List.map_congr_left
  intro e member
  obtain ⟨row, found⟩ := Option.isSome_iff_exists.mp
    (known.committed e (List.mem_of_mem_filter member))
  obtain ⟨row', found', side⟩ := (step_grows inv step).1.sides _ row found
  simp only [availableEntry, found, found', side, roles _ row row' found found']

structure ReservingOk (b : Bank) (t : Nat) (r : Reserving) : Prop where
  other : b.sys.posts t = none
  valid : r.input.validate = .ok ()
  lock : r.phase.holdsLock = true → b.sys.locks r.pair = some t
  summed : ∀ base, r.phase = .summed base → base.val * 10 ^ 18 = availableTotal b.sys.db r.pair
  covered : (r.phase = .checked ∨ ∃ row, r.phase = .inserted row) →
    outstanding b.tables r.pair + toUnits 18 r.input.amount ≤ availableTotal b.sys.db r.pair
  inserted : ∀ row, r.phase = .inserted row → Opened b.tables row ∧ row.id < b.nextReservationID ∧
    rowPair row = r.pair ∧
    row.reservedAmount = toUnits 18 r.input.amount

structure BankInv (b : Bank) : Prop where
  sys : Inv b.sys
  known : Known b.sys
  tables : ReserverInv b.tables
  ids : ∀ r ∈ b.tables.reservations, r.id < b.nextReservationID
  reserves : ∀ t r, b.reserves t = some r → ReservingOk b t r
  apart : ∀ t u r r' row row', t ≠ u → b.reserves t = some r → b.reserves u = some r' →
    r.phase = .inserted row →
    r'.phase = .inserted row' → row.id ≠ row'.id ∧ row.uid ≠ row'.uid

theorem ReservingOk.keep {b' : Bank} (ok : ReservingOk b t r)
    (posts : b'.sys.posts t = b.sys.posts t)
    (lock : ∀ p, b.sys.locks p = some t → b'.sys.locks p = some t)
    (available : r.phase.holdsLock = true → availableTotal b'.sys.db r.pair =
      availableTotal b.sys.db r.pair)
    (holds : r.phase.holdsLock = true → outstanding b'.tables r.pair ≤ outstanding b.tables r.pair)
    (opened : ∀ row, r.phase = .inserted row → Opened b.tables row → Opened b'.tables row)
    (next : b.nextReservationID ≤ b'.nextReservationID) : ReservingOk b' t r where
  other := posts.trans ok.other
  valid := ok.valid
  lock held := lock _ (ok.lock held)
  summed base phase := by
    rw [available (by rw [phase]; rfl)]
    exact ok.summed base phase
  covered phase := by
    have held : r.phase.holdsLock = true := by rcases phase with h | ⟨row, h⟩ <;> rw [h] <;> rfl
    have before := ok.covered phase
    have fewer := holds held
    rw [available held]
    omega
  inserted row phase := by
    obtain ⟨fresh, below, pair, amount⟩ := ok.inserted row phase
    exact ⟨opened row phase fresh, below.trans_le next, pair, amount⟩

theorem BankInv.move (inv : BankInv b) {new : Option Reserving}
    (reserves : b₁.reserves = b.reserves) (sys : Inv b₁.sys)
    (known : Known b₁.sys) (tables : ReserverInv b₁.tables)
    (ids : ∀ r ∈ b₁.tables.reservations, r.id < b₁.nextReservationID)
    (others : ∀ u r, u ≠ t → b.reserves u = some r → ReservingOk b₁ u r)
    (own : ∀ r, new = some r → ReservingOk b₁ t r)
    (apart : ∀ r row, new = some r → r.phase = .inserted row → ∀ u r' row', u ≠ t →
      b.reserves u = some r' →
      r'.phase = .inserted row' → row.id ≠ row'.id ∧ row.uid ≠ row'.uid) :
      BankInv (b₁.setReserve t new) := by
  have at_ (u : Nat) : (b₁.setReserve t new).reserves u = if u = t then new else b.reserves u := by
    simp only [Bank.setReserve, Function.update_apply, reserves]
  refine ⟨sys, known, tables, ids, fun u r running => ?_, fun u v r r' row row' different running
    running' phase phase' => ?_⟩
  · rw [at_] at running
    have ok : ReservingOk b₁ u r := by
      split at running
      · next same => exact same ▸ own r running
      · next other => exact others u r other running
    exact ⟨ok.other, ok.valid, ok.lock, ok.summed, ok.covered, ok.inserted⟩
  · rw [at_] at running running'
    split at running
    · next same =>
      subst same
      rw [if_neg different.symm] at running'
      exact apart r row running phase v r' row' different.symm running' phase'
    · next other =>
      split at running'
      · next same =>
        obtain ⟨id, uid⟩ := apart r' row' running' phase' u r row other running phase
        exact ⟨id.symm, uid.symm⟩
      · exact inv.apart u v r r' row row' different running running' phase phase'

theorem outstanding_append (t : ReserverTables) (row : ReservationRow) (p : Pair) :
    outstanding { t with reservations := t.reservations ++ [row] } p =
      outstanding t p + if rowPair row = p then hold row else 0 := by
  rw [outstanding, sumAt_append, sumAt_cons, sumAt_nil, add_zero]
  rfl

theorem outstanding_discharged {t t' : ReserverTables} {res after : ReservationRow}
    (inv : ReserverInv t)
    (member : res ∈ t.reservations) (done : Discharged t res after c t') (p : Pair) :
    outstanding t' p ≤ outstanding t p := by
  obtain ⟨change, becomes, rows⟩ := done.update
  obtain ⟨holder, currency, reserved⟩ := done.frame
  have lower : hold after ≤ hold res := by
    obtain ⟨nonneg, bound⟩ := inv.bounds res member
    rw [hold, hold, done.open_]
    rcases done.legs with ⟨-, -, terminal, -⟩ | ⟨-, -, settling, leg, -, -, positive, settled, -⟩
    · rw [terminal, if_pos rfl, if_neg Bool.false_ne_true]
      omega
    · rw [settling, settled, reserved]
      simp only [ReservationStatus.terminal, Bool.false_eq_true, if_false]
      omega
  rw [outstanding, rows, sumAt_map]
  apply sumAt_le
  · intro r inside
    rw [Function.comp_apply]
    split
    · next same =>
      rw [eq_of_id inv.ids inside member same, becomes, rowPair, rowPair, holder, currency]
    · rfl
  · intro r inside
    rw [Function.comp_apply]
    split
    · next same => rw [eq_of_id inv.ids inside member same, becomes]; exact lower
    · exact le_rfl

theorem BankInv.ledger (inv : BankInv b) {sys : System} (step : Step b.sys sys)
    (roles : KeepsRoles b.sys.db sys.db)
    (others : ∀ t, (b.reserves t).isSome → LeavesAlone b.sys sys t) :
    BankInv { b with sys := sys } := by
  refine ⟨Inv.step _ _ inv.sys step, inv.known.step inv.sys step, inv.tables, inv.ids,
    fun t r running => ?_, inv.apart⟩
  have ok := inv.reserves t r running
  obtain ⟨posts, locks⟩ := others t (by rw [running]; rfl)
  refine ok.keep posts (fun p => (locks p).mpr) (fun held => ?_) (fun _ => le_rfl)
    (fun _ _ fresh => fresh) le_rfl
  exact step_availableTotal inv.sys inv.known step roles (ok.lock held) ok.other

theorem BankInv.discharge (inv : BankInv b) {tables : ReserverTables}
    (ok : c.run hash b.tables = .ok tables) :
    BankInv { b with tables := tables } := by
  obtain ⟨fits, ⟨rfl, -⟩ | ⟨-, res, member, after, done⟩⟩ := c.cases_ok ok
  · exact inv
  · refine ⟨inv.sys, inv.known, done.inv member fits inv.tables, fun r inside => ?_,
      fun t r running => ?_, inv.apart⟩
    · have there : r.id ∈ b.tables.reservations.map (·.id) := done.ids ▸ List.mem_map_of_mem inside
      obtain ⟨r', inside', same⟩ := List.mem_map.mp there
      exact same ▸ inv.ids r' inside'
    · refine (inv.reserves t r running).keep rfl (fun _ held => held) (fun _ => rfl)
        (fun _ => outstanding_discharged inv.tables member done _) (fun row _ fresh => ?_) le_rfl
      exact ⟨done.ids ▸ fresh.id, done.uids ▸ fresh.uid, fresh.status, fresh.settled, fresh.reserved⟩

theorem BankInv.configure (inv : BankInv b) (currencies : List CurrencyRow)
    (policies : List AccountPolicyRow) :
    BankInv { b with tables := { b.tables with currencies := currencies }, policies := policies } := by
  have tables : ReserverInv { b.tables with currencies := currencies } :=
    @ReserverInv.preserved (fun _ => []) _ _ inv.tables (.elsewhere currencies)
  refine ⟨inv.sys, inv.known, tables, inv.ids, fun t r running => ?_, inv.apart⟩
  exact (inv.reserves t r running).keep rfl (fun _ held => held) (fun _ => rfl) (fun _ => le_rfl)
    (fun _ _ fresh => ⟨fresh.id, fresh.uid, fresh.status, fresh.settled, fresh.reserved⟩) le_rfl

theorem BankInv.stay (inv : BankInv b) (reserves : b₁.reserves = b.reserves) (sys : b₁.sys = b.sys)
    (tables : b₁.tables = b.tables) (next : b₁.nextReservationID = b.nextReservationID)
    (own : ReservingOk b t r)
    (notInserted : ∀ row, r.phase ≠ .inserted row) : BankInv (b₁.setReserve t (some r)) := by
  have same {u : Nat} {r : Reserving} (ok : ReservingOk b u r) : ReservingOk b₁ u r :=
    ok.keep (by rw [sys]) (by rw [sys]; exact fun _ held => held) (by rw [sys]; exact fun _ => rfl)
      (by rw [tables]; exact fun _ => le_rfl) (by rw [tables]; exact fun _ _ fresh => fresh) next.ge
  refine inv.move reserves (sys ▸ inv.sys) (sys ▸ inv.known) (tables ▸ inv.tables) ?_ ?_ ?_ ?_
  · rw [tables, next]; exact inv.ids
  · exact fun u r _ running => same (inv.reserves u r running)
  · rintro _ ⟨⟩; exact same own
  · rintro _ row ⟨⟩ phase; exact absurd phase (notInserted row)

theorem ReservingOk.early (other : b.sys.posts t = none) (valid : r.input.validate = .ok ())
    (lock : r.phase.holdsLock = true → b.sys.locks r.pair = some t)
    (notSummed : ∀ base, r.phase ≠ .summed base)
    (notChecked : r.phase ≠ .checked) (notInserted : ∀ row, r.phase ≠ .inserted row) :
    ReservingOk b t r where
  other := other
  valid := valid
  lock := lock
  summed base phase := absurd phase (notSummed base)
  covered phase := by
    rcases phase with h | ⟨row, h⟩
    · exact absurd h notChecked
    · exact absurd h (notInserted row)
  inserted row phase := absurd phase (notInserted row)

theorem BankInv.lockBalance (inv : BankInv b) (running : b.reserves t = some r)
    (free : b.sys.lockable t r.pair) :
    BankInv ({ b with sys := b.sys.takeLock t r.pair }.moveTo t r .locked) := by
  have ok := inv.reserves t r running
  have step : Step b.sys (b.sys.takeLock t r.pair) := .lockOther b.sys t r.pair ok.other free
  refine inv.move rfl (Inv.step _ _ inv.sys step) (inv.known.step inv.sys step)
    inv.tables inv.ids ?_ ?_ ?_
  · intro u r' different running'
    exact (inv.reserves u r' running').keep rfl
      (fun p held => takeLock_keeps free held different) (fun _ => rfl)
      (fun _ => le_rfl) (fun _ _ fresh => fresh) le_rfl
  · rintro _ ⟨⟩
    refine .early ok.other ok.valid (fun _ => ?_) (by simp) (by simp) (by simp)
    exact Function.update_self ..
  · rintro _ row ⟨⟩ phase
    cases phase

theorem checkAvailable_ok {base amount : Decimal} {held : Int} {total : Int}
    (exact_ : base.val * 10 ^ 18 = total)
    (units : (toUnits 18 amount : ℚ) = amount.val * 10 ^ 18)
    (ok : checkAvailable base (numericToDecimal held) amount = .ok ()) :
    held + toUnits 18 amount ≤ total := by
  rw [checkAvailable, require_eq_ok, Bool.not_eq_true', ← Bool.not_eq_true,
    Decimal.greaterThan_iff, not_lt,
    Decimal.val_sub] at ok
  have scaled : amount.val * 10 ^ 18 ≤ (base.val - (numericToDecimal held).val) * 10 ^ 18 :=
    mul_le_mul_of_nonneg_right ok (by positivity)
  rw [sub_mul, exact_, numericToDecimal_units, ← units] at scaled
  have : (toUnits 18 amount : ℚ) + held ≤ total := by linarith
  have : toUnits 18 amount + held ≤ total := by exact_mod_cast this
  omega

theorem ReserveInput.validate_units {input : ReserveInput} (valid : input.validate = .ok ()) :
    (toUnits 18 input.amount : ℚ) = input.amount.val * 10 ^ 18 ∧ 0 < toUnits 18 input.amount := by
  simp only [ReserveInput.validate, bind_eq_ok, require_eq_ok] at valid
  obtain ⟨_, magnitude, _, -, _, -, _, positive, -⟩ := valid
  have units := validateAmountMagnitude_units magnitude
  rw [Decimal.isPositive_iff] at positive
  have : (0 : ℚ) < toUnits 18 input.amount := units ▸ by positivity
  exact ⟨units, by exact_mod_cast this⟩

theorem BankInv.insert (inv : BankInv b) {uid : Uuid} {now : Instant} {row : ReservationRow}
    (running : b.reserves t = some r) (phase : r.phase = .checked)
    (ok : insertReservation b.nextReservationID uid now r.input r.currencyID = .ok row)
    (unique : ∀ other, other ∈ b.tables.reservations ∨ b.inFlight other →
      other.uid ≠ row.uid ∧ other.idempotencyKey ≠ row.idempotencyKey) :
    BankInv ({ b with nextReservationID := b.nextReservationID + 1 }.moveTo t r (.inserted row)) := by
  have before := inv.reserves t r running
  simp only [insertReservation, bind_eq_ok, within_eq_ok, pure_eq_ok] at ok
  obtain ⟨units, stored, _, -, _, -, made⟩ := ok
  have amount := numericColumn_ok stored
  have positive := (ReserveInput.validate_units before.valid).2
  have number : row.id = b.nextReservationID := by rw [← made]
  have fresh : Opened b.tables row := by
    refine ⟨fun inside => ?_, fun inside => ?_, by rw [← made], by rw [← made],
      by rw [← made]; simpa [amount] using positive⟩
    · obtain ⟨r', member, same⟩ := List.mem_map.mp inside
      have := inv.ids r' member
      omega
    · obtain ⟨r', member, same⟩ := List.mem_map.mp inside
      exact (unique r' (.inl member)).1 same
  refine inv.move rfl inv.sys inv.known inv.tables
    (fun r' member => (inv.ids r' member).trans (Nat.lt_succ_self _)) ?_ ?_ ?_
  · intro u r' _ running'
    exact (inv.reserves u r' running').keep rfl (fun _ held => held) (fun _ => rfl) (fun _ => le_rfl)
      (fun _ _ fresh => fresh) (Nat.le_succ _)
  · rintro _ ⟨⟩
    refine ⟨before.other, before.valid, fun _ => before.lock (by rw [phase]; rfl), by simp, fun _ =>
      before.covered (.inl phase), ?_⟩
    rintro _ ⟨⟩
    exact ⟨fresh, by rw [number]; exact Nat.lt_succ_self _, by rw [← made]; rfl,
      by rw [← made]; exact amount⟩
  · rintro _ _ ⟨⟩ ⟨⟩ u r' row' different running' phase'
    have below := ((inv.reserves u r' running').inserted row' phase').2.1
    exact ⟨by omega, (unique row' (.inr ⟨u, r', running', phase'⟩)).1.symm⟩

theorem BankInv.finish (inv : BankInv b) (running : b.reserves t = some r)
    (reserves : b₁.reserves = b.reserves)
    (sys : b₁.sys = b.sys) (tables : ReserverInv b₁.tables)
    (ids : ∀ r ∈ b₁.tables.reservations, r.id < b₁.nextReservationID)
    (holds : ∀ u r, u ≠ t → b.reserves u = some r → r.phase.holdsLock = true →
      outstanding b₁.tables r.pair ≤ outstanding b.tables r.pair)
    (opened : ∀ u r row, u ≠ t → b.reserves u = some r → r.phase = .inserted row →
      Opened b.tables row → Opened b₁.tables row)
    (next : b.nextReservationID ≤ b₁.nextReservationID) : BankInv (b₁.finish t) := by
  have step : Step b.sys (b.sys.dropLocks t) := .unlockOther b.sys t
    (inv.reserves t r running).other
  refine inv.move reserves (sys ▸ Inv.step _ _ inv.sys step)
    (sys ▸ inv.known.step inv.sys step) tables ids ?_ ?_ ?_
  · intro u r' different running'
    refine (inv.reserves u r' running').keep (by simp [sys, System.dropLocks]) (fun p held => ?_)
      (by simp [sys, System.dropLocks])
      (holds u r' different running') (fun row => opened u r' row different running') next
    rw [sys]
    exact dropLocks_keeps held different
  · simp
  · simp

theorem BankInv.commit (inv : BankInv b) {row : ReservationRow} (running : b.reserves t = some r)
    (phase : r.phase = .inserted row) : BankInv (b.commitReserve t row) := by
  have ok := inv.reserves t r running
  obtain ⟨fresh, below, pair, -⟩ := ok.inserted row phase
  have mine : b.sys.locks r.pair = some t := ok.lock (by rw [phase]; rfl)
  refine inv.finish running rfl rfl (inv.tables.reserve fresh) ?_ ?_ ?_ le_rfl
  · intro r' member
    rcases List.mem_append.mp member with old | new
    · exact inv.ids r' old
    · exact List.mem_singleton.mp new ▸ below
  · -- Another `Reserve` past its lock is on another pair.
    intro u r' different running' holds
    have theirs := (inv.reserves u r' running').lock holds
    have apart : rowPair row ≠ r'.pair := by
      rw [pair]
      intro same
      rw [← same, mine, Option.some.injEq] at theirs
      exact different theirs.symm
    rw [outstanding_append, if_neg apart, add_zero]
  · intro u r' row' different running' phase' fresh'
    obtain ⟨id, uid⟩ := inv.apart u t r' r row' row different running' running phase' phase
    refine ⟨?_, ?_, fresh'.status, fresh'.settled, fresh'.reserved⟩
    · simpa [id] using fresh'.id
    · simpa [uid] using fresh'.uid

theorem BankInv.preserved : Preserved (BankStep hash) BankInv := by
  intro b b' inv step
  cases step with
  | ledger sys step roles others => exact inv.ledger step roles others
  | discharge c tables ok => exact inv.discharge ok
  | configure currencies policies => exact inv.configure currencies policies
  | open_ t input cur ungated admitted new unused other unlocked =>
    have valid : input.validate = .ok () := by
      simp only [admitReserve, bind_eq_ok, within_eq_ok] at admitted
      obtain ⟨_, valid, -⟩ := admitted
      exact valid
    exact inv.stay rfl rfl rfl rfl (.early other valid (by simp [ReservePhase.holdsLock]) (by simp)
      (by simp) (by simp)) (by simp)
  | lockKey t r running phase free =>
    have ok := inv.reserves t r running
    exact inv.stay rfl rfl rfl rfl (.early ok.other ok.valid (by simp [ReservePhase.holdsLock])
      (by simp) (by simp) (by simp)) (by simp)
  | recheckKey t r running phase new =>
    have ok := inv.reserves t r running
    exact inv.stay rfl rfl rfl rfl (.early ok.other ok.valid (by simp [ReservePhase.holdsLock])
      (by simp) (by simp) (by simp)) (by simp)
  | lockBalance t r running phase free => exact inv.lockBalance running free
  | checkPolicy t r running phase ok' =>
    have ok := inv.reserves t r running
    have lock : b.sys.locks r.pair = some t := ok.lock (by rw [phase]; rfl)
    exact inv.stay rfl rfl rfl rfl
      (.early ok.other ok.valid (fun _ => lock) (by simp) (by simp) (by simp)) (by simp)
  | sumBalances t r running phase =>
    have ok := inv.reserves t r running
    have lock : b.sys.locks r.pair = some t := ok.lock (by rw [phase]; rfl)
    refine inv.stay rfl rfl rfl rfl ⟨ok.other, ok.valid, fun _ => lock, ?_, by simp, by simp⟩ (by simp)
    rintro _ ⟨⟩
    exact sumBalancesByRole_exact inv.sys r.pair
  | sumHolds t r base running phase enough =>
    have ok := inv.reserves t r running
    have lock : b.sys.locks r.pair = some t := ok.lock (by rw [phase]; rfl)
    refine inv.stay rfl rfl rfl rfl ⟨ok.other, ok.valid, fun _ => lock, by simp, fun _ =>
      ?_, by simp⟩ (by simp)
    rw [sumActiveReservations_eq inv.tables] at enough
    exact checkAvailable_ok (ok.summed base phase) (ReserveInput.validate_units ok.valid).1 enough
  | insert t r uid now row running phase ok unique => exact inv.insert running phase ok unique
  | commit t r row running phase => exact inv.commit running phase
  | rollback t r running =>
    exact inv.finish running rfl rfl inv.tables inv.ids (fun _ _ _ _ _ => le_rfl)
      (fun _ _ _ _ _ _ fresh => fresh) le_rfl

theorem Bank.Reachable.inv (reachable : b.Reachable hash) : BankInv b := by
  obtain ⟨start, initial, run⟩ := reachable
  refine BankInv.preserved.run ⟨.initial initial.sys, ⟨?_, ?_⟩, initial.tables.inv, ?_, ?_, ?_⟩ run
  · intro e member
    rw [initial.sys.entries] at member
    cases member
  · intro t post running
    rw [initial.sys.posts] at running
    cases running
  · intro r member
    rw [initial.tables.reservations] at member
    cases member
  · intro t r running
    rw [initial.reserves] at running
    cases running
  · intro t u r r' row row' _ running
    rw [initial.reserves] at running
    cases running

theorem reserve_never_overcommits {b : Bank} (reachable : b.Reachable hash) :
    -- At the commit of a `Reserve`, what the pair's open reservations hold, the new one included, is covered.
    (∀ t r row, b.reserves t = some r → r.phase = .inserted row →
      row ∈ (b.commitReserve t row).tables.reservations ∧ rowPair row = r.pair ∧ hold row =
      toUnits 18 r.input.amount ∧
        outstanding (b.commitReserve t row).tables r.pair ≤ availableTotal (b.commitReserve t row).sys.db r.pair) ∧
    -- Two of one pair are never both between their balance lock and their commit.
    (∀ t u r r', b.reserves t = some r → b.reserves u = some r' → r.phase.holdsLock = true →
      r'.phase.holdsLock = true →
      r.pair = r'.pair → t = u) := by
  have inv := reachable.inv
  constructor
  · intro t r row running phase
    have ok := inv.reserves t r running
    obtain ⟨fresh, -, pair, amount⟩ := ok.inserted row phase
    have held : hold row = toUnits 18 r.input.amount := by
      rw [hold, fresh.status, fresh.settled, amount]
      exact sub_zero _
    refine ⟨List.mem_append_right _ (List.mem_singleton.mpr rfl), pair, held, ?_⟩
    have covered := ok.covered (.inr ⟨row, phase⟩)
    calc outstanding (b.commitReserve t row).tables r.pair
      _ = outstanding b.tables r.pair + toUnits 18 r.input.amount := by
        rw [← held]
        exact (outstanding_append b.tables row r.pair).trans (by rw [if_pos pair])
      _ ≤ availableTotal b.sys.db r.pair := covered
  · intro t u r r' running running' holds holds' same
    have mine := (inv.reserves t r running).lock holds
    have theirs := (inv.reserves u r' running').lock holds'
    rw [same, theirs, Option.some.injEq] at mine
    exact mine.symm

def sampleBank : Bank where
  sys := sampleSystem
  tables := { currencies := [⟨1, .nil, lit "USD", 18, true⟩], reservations := [], legs := [], receipts := [] }
  policies := []
  keyLocks := fun _ => none
  reserves := fun _ => none
  nextReservationID := 1

def sampleReserve : ReserveInput := ⟨7, pgToUID .nil, ⟨3, -18⟩, lit "hold", 0, false⟩

theorem ledger_step (idle : ∀ t, b.reserves t = none) {sys : System} (step : Step b.sys sys)
    (same : sys.db.classifications = b.sys.db.classifications) :
    BankStep hash b { b with sys := sys } := by
  refine .ledger b sys step ?_ fun t running => ?_
  · intro id row row' found found'
    rw [LedgerTables.getClassification, same, ← LedgerTables.getClassification, found,
      Option.some.injEq] at found'
    rw [found']
  · rw [idle] at running
    cases running

theorem sample_reserving : ∃ b : Bank, b.Reachable (fun _ => []) ∧ ∃ r row, b.reserves 1 = some r ∧
    r.phase = .inserted row := by
  refine ⟨_, ⟨sampleBank, ⟨⟨rfl, fun _ => rfl, by decide, fun _ => rfl, fun _ => rfl⟩,
    ⟨rfl, rfl, rfl⟩, fun _ => rfl⟩,
    .head (ledger_step (fun _ => rfl)
      (.start _ 0 [(1, sampleDeposit)] rfl (by simp [sampleBank, sampleSystem])) rfl) <|
    .head (ledger_step (fun _ => rfl) (.nextJournal _ 0 _ 1 sampleDeposit [] rfl rfl rfl rfl) rfl) <|
    .head (ledger_step (fun _ => rfl) (.lock _ 0 _ sampleCustody.pair [sampleWallet.pair] rfl
      rfl (.inl rfl)) rfl) <|
    .head (ledger_step (fun _ => rfl) (.lock _ 0 _ sampleWallet.pair [] rfl rfl (.inl rfl)) rfl) <|
    .head (ledger_step (fun _ => rfl)
      (.insert _ 0 _ ⟨sampleWallet, .debit, 5, 0⟩ [⟨sampleCustody, .credit, 5, 0⟩] rfl rfl rfl (by decide) rfl) rfl) <|
    .head (ledger_step (fun _ => rfl) (.insert _ 0 _ ⟨sampleCustody, .credit, 5, 0⟩ [] rfl rfl rfl
      (by decide) rfl) rfl) <|
    .head (ledger_step (fun _ => rfl) (.commit _ 0 _ rfl rfl rfl rfl) rfl) <|
    .head (.open_ _ 1 sampleReserve ⟨1, .nil, lit "USD", 18, true⟩ rfl (by decide +kernel) (by decide +kernel) rfl rfl
      (fun p => by
        simp only [System.dropLocks, System.setPost, System.takeLock, sampleBank, sampleSystem, Function.update_apply]
        split <;> simp_all)) <|
    .head (.lockKey _ 1 _ rfl rfl rfl) <|
    .head (.recheckKey _ 1 _ rfl rfl (by decide +kernel)) <|
    .head (.lockBalance _ 1 _ rfl rfl (.inl (by decide +kernel))) <|
    .head (.checkPolicy _ 1 _ rfl rfl (by decide +kernel)) <|
    .head (.sumBalances _ 1 _ rfl rfl) <|
    .head (.sumHolds _ 1 _ _ rfl rfl (by decide +kernel)) <|
    .head (.insert _ 1 _ .nil 0 _ rfl rfl rfl (by
      rintro other (member | ⟨t, r, running, phase⟩)
      · cases member
      · by_cases own : t = 1
        · subst own
          cases running
          cases phase
        · simp [Bank.moveTo, Bank.setReserve, Function.update_of_ne own, sampleBank] at running)) .refl⟩, _, _, rfl, rfl⟩

theorem reserve_never_overcommits_deposit : ∃ (b : Bank) (r : Reserving) (row : ReservationRow),
    r.phase = .inserted row ∧
    outstanding (b.commitReserve 1 row).tables r.pair ≤ availableTotal
    (b.commitReserve 1 row).sys.db r.pair := by
  obtain ⟨b, reachable, r, row, running, phase⟩ := sample_reserving
  exact ⟨b, r, row, phase, ((reserve_never_overcommits reachable).1 1 r row running phase).2.2.2⟩

end Ledger.Service
