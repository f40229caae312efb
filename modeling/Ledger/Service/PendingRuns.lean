import Ledger.Postgres.PendingSpec
import Ledger.Service.RollupSoundness

namespace Ledger.Service

open Core Postgres Shared

def pendingDim (c : Nat) (pair : Pair) : Dimension := ⟨pair.holder, pair.currency, c⟩

def deposits (s : Store) (c : Nat) (pair : Pair) : List EntryRow :=
  (s.ledger.dimEntries (pendingDim c pair)).filter (·.entryType == .credit)

def drained (s : Store) (c : Nat) (pair : Pair) :
    Int := sideSum (s.ledger.dimEntries (pendingDim c pair)) .debit

def pendingBalance (s : Store) (c : Nat) (pair : Pair) :
    Int := signedTotal s.ledger .credit (pendingDim c pair)

theorem pendingBalance_eq (s : Store) (c : Nat) (pair : Pair) :
    pendingBalance s c pair = ((deposits s c pair).map (·.amount)).sum - drained s c pair := by
  rw [pendingBalance, signedTotal, sum_signedEntry]
  simp only [ledgerSignedAmount, Side.signed, reduceCtorEq, if_true, if_false,
    deposits, drained, sideSum]
  ring

structure LedgerOk (s : Store) (c : Nat) : Prop where
  wired : Wired s
  bundle : PendingBundle s c
  sequence : 0 < s.nextEntryID
  entryIDs : ∀ e ∈ s.ledger.entries, 0 < e.id ∧ e.id < s.nextEntryID
  checkpoints : ∀ dim cp, s.ledger.checkpoints dim = some cp →
    Covers s.ledger dim cp.balance cp.lastEntryID

def isDeposit (c : Nat) (e : EntryRow) : Bool := e.dim.classification == c && e.entryType == .credit

def DepositJournal (s : Store) (e : EntryRow) : Prop :=
  ∃ j ∈ s.journals, j.id = e.journal ∧ j.totalDebit = e.amount ∧ j.createdAt = e.createdAt ∧
    ∃ jt ∈ s.journalTypes, jt.id = j.journalTypeID ∧ jt.code = lit "deposit_pending"

structure PendingTables (s : Store) (c : Nat) : Prop extends LedgerOk s c where
  journals : ∀ e ∈ s.ledger.entries, isDeposit c e = true → DepositJournal s e
  single : ((s.ledger.entries.filter (isDeposit c)).map (·.journal)).Nodup

variable {s : Store} {c : Nat}

theorem mem_deposits {pair : Pair} {e : EntryRow} :
    e ∈ deposits s c pair ↔ e ∈ s.ledger.entries ∧ isDeposit c e = true ∧ e.dim.pair = pair := by
  rcases e with ⟨_, _, ⟨holder, currency, classification⟩, side, _⟩
  rcases pair with ⟨holder', currency'⟩
  simp only [deposits, LedgerTables.dimEntries, List.mem_filter, isDeposit, pendingDim,
    Dimension.pair, beq_iff_eq,
    Bool.and_eq_true, Dimension.mk.injEq, Pair.mk.injEq]
  tauto

theorem filter_pendingDim (c : Nat) (pair : Pair) (entries : List EntryRow) :
    entries.filter (·.dim == pendingDim c pair) =
      (entries.filter (·.dim.classification == c)).filter (·.dim == pendingDim c pair) := by
  rw [List.filter_filter]
  apply List.filter_congr
  intro e _
  rw [Bool.eq_iff_iff, Bool.and_eq_true, beq_iff_eq, beq_iff_eq]
  constructor
  · intro dim
    exact ⟨dim, by rw [dim]; rfl⟩
  · exact And.left

theorem filter_deposits (c : Nat) (entries : List EntryRow) :
    entries.filter (isDeposit c) = (entries.filter (·.dim.classification == c)).filter
    (·.entryType == .credit) := by
  rw [List.filter_filter]
  exact List.filter_congr fun e _ => Bool.and_comm _ _

section

variable {env : Env} {s s' : Store} {c : Nat} {input : JournalInput} {effectiveAt : Instant}
  {auth : JournalAuth}
  {g : Gated} {row : JournalRow} {rows : List EntryRow}

section

variable (fresh : Fresh env s input effectiveAt auth g row rows s')
include fresh

theorem fresh_grows (ok : LedgerOk s c) : Grows s.ledger s'.ledger := by
  refine ⟨⟨rows, fresh.entries_eq, ?_⟩, .of_eq fresh.catalog_eq.2.1⟩
  intro e member old present _
  have := (insertEntries_ids fresh.entries e member).1
  have := (ok.entryIDs old present).2
  omega

theorem fresh_ledgerOk (ok : LedgerOk s c) : LedgerOk s' c := by
  obtain ⟨currencies, classes, types⟩ := fresh.catalog_eq
  have next : s'.nextEntryID = s.nextEntryID + rows.length := by
    obtain ⟨_, _, rfl⟩ := fresh.appended
    rfl
  refine ⟨fresh.wired ok.wired, ok.bundle.of_catalog currencies classes types, ?_, ?_, ?_⟩
  · have := ok.sequence
    omega
  · intro e member
    rw [fresh.entries_eq] at member
    rcases List.mem_append.mp member with old | new
    · have := ok.entryIDs e old
      omega
    · have := insertEntries_ids fresh.entries e new
      have := ok.sequence
      omega
  · have checkpoints : s'.ledger.checkpoints = s.ledger.checkpoints := by
      obtain ⟨_, _, rfl⟩ := fresh.appended
      exact (enqueueAll_frame _ _ _).2.2
    intro dim cp stored
    rw [checkpoints] at stored
    exact (ok.checkpoints dim cp stored).grow (fresh_grows fresh ok)

variable {i : PendingInput} {r : EntryRow} {side : Side}

section

variable (only : PendingRow s c i side row rows r)
include only

theorem dimEntries_eq_of_row (pair : Pair) :
    s'.ledger.dimEntries (pendingDim c pair) = s.ledger.dimEntries (pendingDim c pair) ++
    if r.dim.pair = pair then [r] else [] := by
  rw [LedgerTables.dimEntries, fresh.entries_eq, List.filter_append, LedgerTables.dimEntries]
  congr 1
  obtain ⟨cur, -, dim⟩ := only.currency
  rw [filter_pendingDim, only.only]
  rcases pair with ⟨holder, currency⟩
  simp only [dim, pendingDim, Dimension.pair, Pair.mk.injEq]
  split
  · next same => simp [dim, same.1, same.2]
  · next other => simpa [dim] using other

theorem deposits_eq_of_row (pair : Pair) :
    deposits s' c pair = deposits s c pair ++
    if side = .credit ∧ r.dim.pair = pair then [r] else [] := by
  rw [deposits, dimEntries_eq_of_row fresh only, List.filter_append, deposits]
  congr 1
  by_cases credit : side = .credit <;> by_cases here : r.dim.pair = pair <;>
    simp [only.entryType, credit, here]

theorem drained_eq_of_row (pair : Pair) :
    drained s' c pair = drained s c pair +
    if side = .debit ∧ r.dim.pair = pair then r.amount else 0 := by
  rw [drained, dimEntries_eq_of_row fresh only, sideSum, List.filter_append, List.map_append,
    List.sum_append, drained,
    sideSum]
  congr 1
  by_cases debit : side = .debit <;> by_cases here : r.dim.pair = pair <;>
    simp [only.entryType, debit, here]

theorem row_amount_pos : 0 < r.amount := by
  have member : r ∈ rows.filter (·.dim.classification == c) := by
    rw [only.only]
    exact List.mem_singleton_self r
  exact fresh.rows_positive r (List.mem_of_mem_filter member)

end

theorem pendingBalance_of_debit (only : PendingRow s c i .debit row rows r) (pair : Pair) :
    deposits s' c pair = deposits s c pair ∧
      pendingBalance s' c pair = pendingBalance s c pair -
      if r.dim.pair = pair then r.amount else 0 := by
  have same : deposits s' c pair = deposits s c pair := by
    simpa using deposits_eq_of_row fresh only pair
  refine ⟨same, ?_⟩
  rw [pendingBalance_eq s', same, drained_eq_of_row fresh only pair, ← sub_sub, ← pendingBalance_eq]
  simp

theorem depositJournal_grows {e : EntryRow} (journal : DepositJournal s e) :
    DepositJournal s' e := by
  obtain ⟨j, member, id, total, created, jt, known, type_, code⟩ := journal
  refine ⟨j, by rw [fresh.journals_eq]; exact List.mem_append_left _ member, id, total, created,
    jt, ?_, type_, code⟩
  rw [fresh.catalog_eq.2.2]
  exact known

end

variable {i : PendingInput} {r : EntryRow}

theorem filter_isDeposit {side : Side} (only : PendingRow s c i side row rows r) :
    rows.filter (isDeposit c) = if side = .credit then [r] else [] := by
  rw [filter_deposits, only.only]
  by_cases credit : side = .credit <;> simp [only.entryType, credit]

theorem PendingTables.fresh {side : Side} (tables : PendingTables s c)
    (fresh : Fresh env s input effectiveAt auth g row rows s')
    (only : PendingRow s c i side row rows r)
    (recorded : side = .credit → DepositJournal s' r) : PendingTables s' c := by
  refine ⟨fresh_ledgerOk fresh tables.toLedgerOk, ?_, ?_⟩
  · intro e member deposit
    rw [fresh.entries_eq] at member
    rcases List.mem_append.mp member with old | new
    · exact depositJournal_grows fresh (tables.journals e old deposit)
    · have kept : e ∈ rows.filter (isDeposit c) := List.mem_filter.mpr ⟨new, deposit⟩
      rw [filter_isDeposit only] at kept
      split at kept
      · next credit =>
        rw [List.mem_singleton.mp kept]
        exact recorded credit
      · cases kept
  · rw [fresh.entries_eq, List.filter_append, List.map_append, filter_isDeposit only, List.nodup_append]
    refine ⟨tables.single, by split <;> simp, ?_⟩
    -- The new journal's id is above those of all earlier rows.
    intro old oldMember new newMember same
    obtain ⟨e, inside, rfl⟩ := List.mem_map.mp oldMember
    have below := tables.wired.owned e (List.mem_of_mem_filter inside)
    split at newMember
    · simp only [List.map_cons, List.map_nil, List.mem_singleton] at newMember
      have := only.journal
      have := fresh.row_id
      omega
    · cases newMember

end

structure StepEffect (c : Nat) (s s' : Store) : Prop where
  tables : PendingTables s' c
  next : s.nextJournalID ≤ s'.nextJournalID
  deposits : ∀ pair, ∃ new, deposits s' c pair = deposits s c pair ++ new ∧
    ∀ e ∈ new, s.nextJournalID ≤ e.journal

theorem StepEffect.refl (tables : PendingTables s c) : StepEffect c s s :=
  ⟨tables, le_rfl, fun _ => ⟨[], by simp, by simp⟩⟩

theorem StepEffect.trans {s₁ s₂ s₃ : Store} (first : StepEffect c s₁ s₂)
    (second : StepEffect c s₂ s₃) : StepEffect c s₁ s₃ := by
  refine ⟨second.tables, first.next.trans second.next, fun pair => ?_⟩
  obtain ⟨new, appended, above⟩ := first.deposits pair
  obtain ⟨new', appended', above'⟩ := second.deposits pair
  refine ⟨new ++ new', by rw [appended', appended, List.append_assoc], ?_⟩
  intro e member
  rcases List.mem_append.mp member with early | late
  · exact above e early
  · exact first.next.trans (above' e late)

variable {s' : Store}

theorem StepEffect.fresh {env : Env} {input : JournalInput} {effectiveAt : Instant}
    {auth : JournalAuth} {g : Gated}
    {row : JournalRow} {rows : List EntryRow} {i : PendingInput} {side : Side} {r : EntryRow}
    (tables : PendingTables s c) (fresh : Fresh env s input effectiveAt auth g row rows s')
    (only : PendingRow s c i side row rows r) (recorded : side = .credit → DepositJournal s' r) :
    StepEffect c s s' := by
  refine ⟨tables.fresh fresh only recorded, by rw [fresh.nextJournalID_eq]; omega, fun pair =>
    ⟨_, deposits_eq_of_row fresh only pair, ?_⟩⟩
  intro e member
  split at member
  · rw [List.mem_singleton.mp member, only.journal, fresh.row_id]
  · cases member

section

variable {c : Nat} {p : PendingStore} {env : Env} {s s' : Store} {j : Journal}

theorem addPending_effect (tables : PendingTables s c) {i : AddPendingInput}
    (ok : p.addPending env s i = .ok (s', j)) :
    StepEffect c s s' := by
  obtain ⟨valid, cls, jt, resolved, type_, outcome⟩ := PendingStore.addPending_outcome ok
  cases outcome with
  | replay existing journal found matches_ same =>
    subst same
    exact .refl tables
  | @fresh _ _ _ row _ fresh =>
    obtain ⟨r, only⟩ := fresh.deposit_row tables.bundle resolved
    refine .fresh tables fresh only fun _ => ?_
    obtain ⟨total, typeID, known, code, -⟩ := fresh.deposit_journal valid type_
      tables.wired.catalog.journalTypes
    refine ⟨row, by simp [fresh.journals_eq], only.journal.symm, by rw [total, only.amount],
      only.createdAt.symm, jt, ?_,
      typeID.symm, code⟩
    rw [fresh.catalog_eq.2.2]
    exact known

theorem confirmPending_effect (tables : PendingTables s c) {i : ConfirmPendingInput}
    (ok : p.confirmPending env s i = .ok (s', j)) : StepEffect c s s' := by
  obtain ⟨-, cls, jt, resolved, outcome, -⟩ := PendingStore.confirmPending_outcome ok
  cases outcome with
  | replay existing journal found matches_ same =>
    subst same
    exact .refl tables
  | fresh fresh =>
    obtain ⟨r, only⟩ := fresh.confirm_row tables.bundle resolved
    exact .fresh tables fresh only (by simp)

theorem cancelPending_effect (tables : PendingTables s c) {i : CancelPendingInput}
    (ok : p.cancelPending env s i = .ok (s', j)) : StepEffect c s s' := by
  obtain ⟨-, cls, jt, resolved, outcome, -⟩ := PendingStore.cancelPending_outcome ok
  cases outcome with
  | replay existing journal found matches_ same =>
    subst same
    exact .refl tables
  | fresh fresh =>
    obtain ⟨r, only⟩ := fresh.cancel_row tables.bundle resolved
    exact .fresh tables fresh only (by simp)

end

variable {d : Decimal} {units : Int}

theorem decimalMin_units {units' : Int} (value : d.val = units' / (10 : ℚ) ^ 18) :
    toUnits 18 (decimalMin (numericToDecimal units) d) = min units units' := by
  apply toUnits_of_val
  have scaled : (numericToDecimal units).val = units / (10 : ℚ) ^ 18 := ofUnits_val 18 units
  rw [decimalMin_val, scaled, value, min_div_div_right (by positivity), ← Int.cast_min]

theorem isPositive_iff_units (value : d.val = units / (10 : ℚ) ^ 18) : d.isPositive =
    true ↔ 0 < units := by
  rw [Decimal.isPositive_iff, value, div_pos_iff_of_pos_right (by positivity)]
  exact Int.cast_pos

variable {cls : PendingClassIDs} {bal : Decimal}

theorem getBalance_pending (ok : LedgerOk s c)
    (resolved : resolveClassificationIDs s = .ok cls) {holder : Int}
    {currencyUID : GoString} (read : s.getBalance holder currencyUID cls.pending = .ok bal) :
    ∃ cur, s.currencyByUIDOrErr currencyUID = .ok cur ∧ bal.val = pendingBalance s c
    ⟨holder, cur.id⟩ / (10 : ℚ) ^ 18 := by
  simp only [Store.getBalance, bind_eq_ok] at read
  obtain ⟨cur, currency, row, class_, answered⟩ := read
  have id : row.id = c := (ok.bundle.id_eq_iff (resolveClassificationIDs_ok resolved).1 class_).mpr
    rfl
  obtain ⟨known, found, credit⟩ := ok.bundle.getClassification
  have checkpoint : CheckpointOk s.ledger ⟨holder, cur.id, c⟩
    (s.ledger.checkpoints ⟨holder, cur.id, c⟩) := by
    cases stored : s.ledger.checkpoints ⟨holder, cur.id, c⟩ with
    | none => trivial
    | some cp => exact ok.checkpoints _ cp stored
  rw [id] at answered
  have exact_ := (getBalance_exact (fun e member => (ok.entryIDs e member).1) checkpoint found
    (.of_eq rfl)).1 bal answered
  rw [credit] at exact_
  exact ⟨cur, currency, exact_⟩

theorem getBalance_row (ok : LedgerOk s c) (resolved : resolveClassificationIDs s = .ok cls)
    {row : PendingJournalRow}
    {rowCur : CurrencyRow} (currency : s.currencyByIDOrErr row.currencyID = .ok rowCur)
    (read : s.getBalance row.accountHolder (pgToUID rowCur.uid) cls.pending = .ok bal) :
    s.currencyByUIDOrErr (pgToUID rowCur.uid) = .ok rowCur ∧ rowCur.id = row.currencyID ∧
      bal.val = pendingBalance s c row.pair / (10 : ℚ) ^ 18 := by
  obtain ⟨cur, named, value⟩ := getBalance_pending ok resolved read
  rw [Store.currencyByIDOrErr, orError_eq_ok] at currency
  have sameID : rowCur.id = row.currencyID := by simpa using List.find?_some currency
  -- The lookup by uid finds the currency of the row again.
  have back : cur = rowCur := by
    obtain ⟨member, print⟩ := currencyByUIDOrErr_mem named
    exact List.inj_on_of_nodup_map ok.bundle.currencyUIDs member (List.mem_of_find?_eq_some currency)
      (Uuid.print_injective print)
  refine ⟨back ▸ named, sameID, ?_⟩
  rw [value, back, sameID]
  rfl

def KeyUnused (s : Store) (journalID : Nat) : Prop :=
  ∀ j ∈ s.journals, j.idempotencyKey ≠ expireKey journalID

inductive RowEffect (c : Nat) (s s' : Store) (row : PendingJournalRow) : Prop
  | kept (same : s' = s)
  | cancelled {env : Env} {input : JournalInput} {effectiveAt : Instant} {auth : JournalAuth} {g : Gated}
      {journal : JournalRow} {rows : List EntryRow} {i : PendingInput} {r : EntryRow}
      (fresh : Fresh env s input effectiveAt auth g journal rows s') (only : PendingRow s c i .debit journal rows r)
      (pair : r.dim.pair = row.pair) (positive : 0 < pendingBalance s c row.pair)
      (amount : r.amount = min row.amount (pendingBalance s c row.pair))
      (unused : KeyUnused s row.journalID)

section

variable {c : Nat} {p : PendingStore} {cls : PendingClassIDs} {w : Postgres.Sweep}

theorem expireRow_effect (tables : PendingTables w.store c)
    (resolved : resolveClassificationIDs w.store = .ok cls)
    (env : Env) (row : PendingJournalRow) :
    RowEffect c w.store (p.expireRow env cls.pending w row).store row := by
  unfold PendingStore.expireRow
  split
  · exact .kept rfl
  next rowCur currency =>
  split
  · exact .kept rfl
  next bal read =>
  split
  · next positive =>
    split
    · exact .kept rfl
    next store _ cancelled =>
    obtain ⟨-, cls', jt, resolved', outcome, -⟩ := PendingStore.cancelPending_outcome cancelled
    cases outcome with
    | replay existing journal found matches_ same => exact .kept same
    | fresh fresh =>
      obtain ⟨r, only⟩ := fresh.cancel_row tables.bundle resolved'
      obtain ⟨named, sameID, value⟩ := getBalance_row tables.toLedgerOk resolved currency read
      obtain ⟨cur, named', dim⟩ := only.currency
      have again : cur = rowCur := Except.ok.inj (named'.symm.trans named)
      refine .cancelled fresh only ?_ ?_ ?_ fresh.unused
      · rw [dim, again, sameID]
        rfl
      · exact (isPositive_iff_units value).mp positive
      · rw [only.amount]
        exact decimalMin_units value
  · exact .kept rfl

variable {s s' : Store} {row : PendingJournalRow}

theorem RowEffect.step (effect : RowEffect c s s' row) (tables : PendingTables s c) :
    StepEffect c s s' := by
  cases effect with
  | kept same =>
    subst same
    exact .refl tables
  | cancelled fresh only => exact .fresh tables fresh only (by simp)

theorem RowEffect.keys (effect : RowEffect c s s' row) {journalID : Nat}
    (unused : KeyUnused s' journalID) : KeyUnused s journalID := by
  cases effect with
  | kept same => exact same ▸ unused
  | cancelled fresh =>
    intro j member
    exact unused j (by rw [fresh.journals_eq]; exact List.mem_append_left _ member)

theorem RowEffect.classifications (effect : RowEffect c s s' row) :
    s'.ledger.classifications = s.ledger.classifications := by
  cases effect with
  | kept same => rw [same]
  | cancelled fresh => exact fresh.catalog_eq.2.1

theorem RowEffect.account (effect : RowEffect c s s' row) (pair : Pair) :
    deposits s' c pair = deposits s c pair ∧
      (pendingBalance s' c pair = pendingBalance s c pair ∨ row.pair = pair ∧
        KeyUnused s row.journalID ∧
        0 < pendingBalance s c pair ∧
        pendingBalance s' c pair = pendingBalance s c pair - min row.amount (pendingBalance s c pair)) := by
  cases effect with
  | kept same =>
    rw [same]
    exact ⟨rfl, .inl rfl⟩
  | cancelled fresh only here positive amount unused =>
    obtain ⟨same, drop⟩ := pendingBalance_of_debit fresh only pair
    refine ⟨same, ?_⟩
    rw [here] at drop
    by_cases this : row.pair = pair
    · subst this
      rw [if_pos rfl, amount] at drop
      exact .inr ⟨rfl, unused, positive, drop⟩
    · rw [if_neg this, sub_zero] at drop
      exact .inl drop

theorem resolveClassificationIDs_congr (same : s'.ledger.classifications =
    s.ledger.classifications) :
    resolveClassificationIDs s' = resolveClassificationIDs s := by
  have each (code : String) : resolveClassificationID s' code = resolveClassificationID s code := by
    simp only [resolveClassificationID, Store.getClassificationByCode, same]
  simp only [resolveClassificationIDs, each]

theorem sweepRows_effect (draw : PendingJournalRow → Env) (rows : List PendingJournalRow)
    (nodup : (rows.map (·.pair)).Nodup) (tables : PendingTables w.store c)
    (resolved : resolveClassificationIDs w.store = .ok cls) :
    let w' := rows.foldl (fun w row => p.expireRow (draw row) cls.pending w row) w
    StepEffect c w.store w'.store ∧ ∀ pair, deposits w'.store c pair = deposits w.store c pair ∧
      (pendingBalance w'.store c pair = pendingBalance w.store c pair ∨ ∃ row ∈ rows, row.pair = pair ∧
        KeyUnused w.store row.journalID ∧ 0 < pendingBalance w.store c pair ∧
        pendingBalance w'.store c pair =
          pendingBalance w.store c pair - min row.amount (pendingBalance w.store c pair)) := by
  induction rows generalizing w with
  | nil => exact ⟨.refl tables, fun pair => ⟨rfl, .inl rfl⟩⟩
  | cons row rest ih =>
    rw [List.map_cons, List.nodup_cons] at nodup
    have effect := expireRow_effect (p := p) tables resolved (draw row) row
    have step := effect.step tables
    obtain ⟨later, accounts⟩ := ih nodup.2 step.tables
      ((resolveClassificationIDs_congr effect.classifications).trans resolved)
    refine ⟨step.trans later, fun pair => ?_⟩
    obtain ⟨same, first⟩ := effect.account pair
    obtain ⟨same', second⟩ := accounts pair
    refine ⟨same'.trans same, ?_⟩
    rcases first with unchanged | ⟨here, unused, positive, drop⟩
    · rw [unchanged] at second
      rcases second with untouched | ⟨row', member, here', unused', rest'⟩
      · exact .inl untouched
      · exact .inr ⟨row', List.mem_cons_of_mem _ member, here', effect.keys unused', rest'⟩
    · -- The account was this row's, so no later row has it.
      rcases second with untouched | ⟨row', member, here', -⟩
      · exact .inr ⟨row, List.mem_cons_self, here, unused, positive, untouched.trans drop⟩
      · exact absurd (List.mem_map.mpr ⟨row', member, here'.trans here.symm⟩) nodup.1

end

instance : Std.Total pendingJournalOrder where
  total a b := by
    unfold pendingJournalOrder
    omega

instance : IsTrans PendingJournalRow pendingJournalOrder where
  trans a b d := by
    unfold pendingJournalOrder
    omega

theorem nodup_listPendingJournals (s : Store) (c : Nat) (cutoff : Int) :
    ((listPendingJournalsOlderThan s c cutoff).map (·.pair)).Nodup :=
  (nodup_distinctOn PendingJournalRow.pair _).sublist ((List.take_sublist _ _).map _)

variable {row : PendingJournalRow} {now : Instant} {draw : PendingJournalRow → Env} {cutoff : Int}

theorem mem_stalePendingJournals (tables : PendingTables s c) :
    row ∈ stalePendingJournals s c cutoff ↔ ∃ e ∈ s.ledger.entries, isDeposit c e = true ∧
    e.createdAt < cutoff ∧
      row = ⟨e.journal, e.dim.holder, e.dim.currency, e.amount⟩ := by
  simp only [stalePendingJournals, List.mem_flatMap, List.mem_map, List.mem_filter,
    Store.listJournalEntries,
    Bool.and_eq_true, decide_eq_true_eq, List.any_eq_true, beq_iff_eq]
  constructor
  · rintro ⟨j, ⟨member, old, -⟩, e, ⟨⟨stored, owner⟩, deposit⟩, rfl⟩
    have isOne : isDeposit c e = true := by simp [isDeposit, deposit.1, deposit.2]
    obtain ⟨j', member', id, total, created, -⟩ := tables.journals e stored isOne
    have same : j' = j := List.inj_on_of_nodup_map tables.wired.distinct member' member (id.trans owner)
    subst same
    exact ⟨e, stored, isOne, created ▸ old, by rw [total, owner]⟩
  · rintro ⟨e, stored, isOne, old, rfl⟩
    obtain ⟨j, member, id, total, created, jt, known, type_, code⟩ := tables.journals e stored isOne
    refine ⟨j, ⟨member, created ▸ old, jt, known, type_, code⟩, e,
      ⟨⟨stored, id.symm⟩, ?_⟩, by rw [total, id]⟩
    simpa [isDeposit] using isOne

theorem listPendingJournals_oldest (tables : PendingTables s c)
    (member : row ∈ listPendingJournalsOlderThan s c cutoff) :
    ∃ e ∈ deposits s c row.pair, e.createdAt < cutoff ∧ e.journal = row.journalID ∧
    e.amount = row.amount ∧
      ∀ e' ∈ deposits s c row.pair, e'.createdAt < cutoff → e.journal ≤ e'.journal := by
  have kept := List.mem_of_mem_take member
  have inside := List.mem_insertionSort _ |>.mp (mem_of_mem_distinctOn _ kept)
  obtain ⟨e, stored, isOne, old, rfl⟩ := (mem_stalePendingJournals tables).mp inside
  refine ⟨e, mem_deposits.mpr ⟨stored, isOne, rfl⟩, old, rfl, rfl, ?_⟩
  intro e' member' old'
  obtain ⟨stored', isOne', pair⟩ := mem_deposits.mp member'
  have row' := (mem_stalePendingJournals tables).mpr ⟨e', stored', isOne', old', rfl⟩
  have order := distinctOn_least PendingJournalRow.pair
    (List.pairwise_insertionSort pendingJournalOrder _)
    (fun a => Or.inr ⟨rfl, .inr ⟨rfl, le_rfl⟩⟩) kept (List.mem_insertionSort _ |>.mpr row') pair
  have holder : e'.dim.holder = e.dim.holder := congrArg Pair.holder pair
  have currency : e'.dim.currency = e.dim.currency := congrArg Pair.currency pair
  simp only [pendingJournalOrder, holder, currency] at order
  omega

variable {p : PendingStore} {threshold : Int} {w : Postgres.Sweep}

theorem expirePending_ok (bundle : PendingBundle s c)
    (ok : p.expirePendingOlderThan now draw s threshold = .ok w) :
    ∃ cls, resolveClassificationIDs s = .ok cls ∧
      w = (listPendingJournalsOlderThan s c (toMicros (now - threshold))).foldl
        (fun w row => p.expireRow (draw row) cls.pending w row) ⟨s, 0, []⟩ := by
  simp only [PendingStore.expirePendingOlderThan, bind_eq_ok, within_eq_ok, pure_eq_ok] at ok
  obtain ⟨cls, resolved, row, class_, _, -, rfl⟩ := ok
  have id : row.id = c := (bundle.id_eq_iff (resolveClassificationIDs_ok resolved).1 class_).mpr rfl
  exact ⟨cls, resolved, by rw [id]⟩

theorem expirePending_effect (tables : PendingTables s c)
    (ok : p.expirePendingOlderThan now draw s threshold = .ok w) :
    StepEffect c s w.store ∧ ∀ pair, deposits w.store c pair = deposits s c pair ∧
      (pendingBalance w.store c pair = pendingBalance s c pair ∨
        ∃ row ∈ listPendingJournalsOlderThan s c (toMicros (now - threshold)), row.pair = pair ∧
          KeyUnused s row.journalID ∧ 0 < pendingBalance s c pair ∧
          pendingBalance w.store c pair =
            pendingBalance s c pair - min row.amount (pendingBalance s c pair)) := by
  obtain ⟨cls, resolved, rfl⟩ := expirePending_ok tables.bundle ok
  exact @sweepRows_effect c p cls ⟨s, 0, []⟩ draw _
    (nodup_listPendingJournals s c _) tables resolved

/-- Whatever else the ledger does appends: it keeps journals, types and pending entries. -/
structure PendingElsewhere (c : Nat) (s s' : Store) : Prop where
  ledger : LedgerOk s' c
  journals : ∀ j ∈ s.journals, j ∈ s'.journals
  types : ∀ jt ∈ s.journalTypes, ∃ jt' ∈ s'.journalTypes, jt'.id = jt.id ∧ jt'.code = jt.code
  entries : s'.ledger.entries.filter (·.dim.classification == c) = s.ledger.entries.filter
    (·.dim.classification == c)
  next : s.nextJournalID ≤ s'.nextJournalID

/-- The calls that succeed. One that fails changes nothing. -/
inductive PendingStep (c : Nat) : Store → Store → Prop
  | add {p : PendingStore} {env : Env} {s s' : Store} {j : Journal} (i : AddPendingInput) :
      p.addPending env s i = .ok (s', j) → PendingStep c s s'
  | confirm {p : PendingStore} {env : Env} {s s' : Store} {j : Journal} (i : ConfirmPendingInput) :
      p.confirmPending env s i = .ok (s', j) → PendingStep c s s'
  | cancel {p : PendingStore} {env : Env} {s s' : Store} {j : Journal} (i : CancelPendingInput) :
      p.cancelPending env s i = .ok (s', j) → PendingStep c s s'
  | sweep {p : PendingStore} {now : Instant} {draw : PendingJournalRow → Env} {s : Store}
      {w : Postgres.Sweep} (threshold : Int) :
      p.expirePendingOlderThan now draw s threshold = .ok w → PendingStep c s w.store
  | other {s s' : Store} : PendingElsewhere c s s' → PendingStep c s s'

/-- The tables, and what is left of each deposit under the choice made so far. A deposit goes by the
id of its journal. -/
structure History where
  store : Store
  left : Nat → Int

/-- A choice for one step: new deposits are whole, and what was drained is taken from old ones. -/
structure Attributed (c : Nat) (x y : History) : Prop where
  added : ∀ e ∈ y.store.ledger.entries, isDeposit c e = true → x.store.nextJournalID ≤ e.journal →
    y.left e.journal = e.amount
  kept : ∀ e ∈ x.store.ledger.entries, isDeposit c e = true → 0 ≤ y.left e.journal ∧
    y.left e.journal ≤ x.left e.journal
  taken : ∀ pair, ((deposits x.store c pair).map fun e => x.left e.journal - y.left e.journal).sum =
    drained y.store c pair - drained x.store c pair

def HistoryStep (c : Nat) (x y : History) : Prop := PendingStep c x.store y.store ∧ Attributed c x y

structure HistoryStart (c : Nat) (x : History) : Prop where
  ledger : LedgerOk x.store c
  clean : ∀ e ∈ x.store.ledger.entries, e.dim.classification ≠ c

structure HistoryInv (c : Nat) (x : History) : Prop where
  tables : PendingTables x.store c
  bounds : ∀ e ∈ x.store.ledger.entries, isDeposit c e = true → 0 ≤ x.left e.journal ∧
    x.left e.journal ≤ e.amount
  balance : ∀ pair, ((deposits x.store c pair).map fun e => x.left e.journal).sum =
    pendingBalance x.store c pair

theorem dimEntries_of_class
    (same : s'.ledger.entries.filter (·.dim.classification == c) = s.ledger.entries.filter
      (·.dim.classification == c))
    (pair : Pair) : s'.ledger.dimEntries (pendingDim c pair) = s.ledger.dimEntries
    (pendingDim c pair) := by
  rw [LedgerTables.dimEntries, LedgerTables.dimEntries, filter_pendingDim,
    same, ← filter_pendingDim]

theorem PendingElsewhere.effect (tables : PendingTables s c) (other : PendingElsewhere c s s') :
    StepEffect c s s' := by
  have deposits_ : s'.ledger.entries.filter (isDeposit c) =
    s.ledger.entries.filter (isDeposit c) := by
    rw [filter_deposits, other.entries, ← filter_deposits]
  refine ⟨⟨other.ledger, ?_, by rw [deposits_]; exact tables.single⟩, other.next,
    fun pair => ⟨[], ?_, by simp⟩⟩
  · intro e member deposit
    have stored : e ∈ s.ledger.entries.filter (isDeposit c) := deposits_ ▸
      List.mem_filter.mpr ⟨member, deposit⟩
    obtain ⟨j, inside, id, total, created, jt, known, type_, code⟩ := tables.journals e
      (List.mem_of_mem_filter stored) deposit
    obtain ⟨jt', known', sameID, sameCode⟩ := other.types jt known
    exact ⟨j, other.journals j inside, id, total, created, jt', known', sameID.trans type_,
      sameCode.trans code⟩
  · rw [deposits, dimEntries_of_class other.entries, List.append_nil, deposits]

theorem PendingStep.effect (tables : PendingTables s c) (step : PendingStep c s s') :
    StepEffect c s s' := by
  cases step with
  | add i ok => exact addPending_effect tables ok
  | confirm i ok => exact confirmPending_effect tables ok
  | cancel i ok => exact cancelPending_effect tables ok
  | sweep threshold ok => exact (expirePending_effect tables ok).1
  | other elsewhere => exact elsewhere.effect tables

variable {x : History}

theorem HistoryInv.step {y : History} (inv : HistoryInv c x) (step : HistoryStep c x y) :
    HistoryInv c y := by
  obtain ⟨call, choice⟩ := step
  have effect := call.effect inv.tables
  refine ⟨effect.tables, ?_, fun pair => ?_⟩
  · intro e member deposit
    obtain ⟨new, appended, above⟩ := effect.deposits e.dim.pair
    have listed : e ∈ deposits y.store c e.dim.pair := mem_deposits.mpr ⟨member, deposit, rfl⟩
    rw [appended, List.mem_append] at listed
    rcases listed with old | fresh
    · obtain ⟨stored, -, -⟩ := mem_deposits.mp old
      have kept := choice.kept e stored deposit
      have before := inv.bounds e stored deposit
      exact ⟨kept.1, kept.2.trans before.2⟩
    · rw [choice.added e member deposit (above e fresh)]
      exact ⟨(effect.tables.wired.positive e member).le, le_rfl⟩
  · -- The old deposits gave what was drained, the new ones are whole.
    obtain ⟨new, appended, above⟩ := effect.deposits pair
    have fresh : (new.map fun e => y.left e.journal) = new.map (·.amount) := by
      apply List.map_congr_left
      intro e member
      obtain ⟨stored, deposit, -⟩ := mem_deposits.mp (appended ▸ List.mem_append_right _ member)
      exact choice.added e stored deposit (above e member)
    have taken := choice.taken pair
    rw [sum_map_sub, inv.balance pair, pendingBalance_eq] at taken
    rw [pendingBalance_eq, appended, List.map_append, List.sum_append, fresh,
      List.map_append, List.sum_append]
    linarith

theorem HistoryStart.inv (begins : HistoryStart c x) : HistoryInv c x := by
  have noDeposit : ∀ e ∈ x.store.ledger.entries, isDeposit c e ≠ true := by
    intro e member deposit
    simp only [isDeposit, Bool.and_eq_true, beq_iff_eq] at deposit
    exact begins.clean e member deposit.1
  have empty (pair : Pair) : x.store.ledger.dimEntries (pendingDim c pair) = [] := by
    rw [LedgerTables.dimEntries, List.filter_eq_nil_iff]
    intro e member
    simp only [beq_iff_eq]
    intro dim
    exact begins.clean e member (by rw [dim]; rfl)
  refine ⟨⟨begins.ledger, fun e member deposit => absurd deposit (noDeposit e member), ?_⟩,
    fun e member deposit => absurd deposit (noDeposit e member), fun pair => ?_⟩
  · rw [List.filter_eq_nil_iff.mpr noDeposit]
    exact List.nodup_nil
  · simp [deposits, pendingBalance, signedTotal, empty]

theorem HistoryInv.run {start : History} (begins : HistoryStart c start)
    (history : Run (HistoryStep c) start x) : HistoryInv c x :=
  Preserved.run (fun _ _ inv step => inv.step step) begins.inv history

end Ledger.Service
