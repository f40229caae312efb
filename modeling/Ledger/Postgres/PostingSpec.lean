import Ledger.Postgres.ReverseJournal

namespace Ledger.Postgres

open Core Shared

theorem enqueueRollup_frame (db : LedgerTables) (now : Int) (dim : Dimension) :
    (db.enqueueRollup now dim).entries = db.entries ∧ (db.enqueueRollup now dim).classifications =
    db.classifications ∧
      (db.enqueueRollup now dim).checkpoints = db.checkpoints := by
  unfold LedgerTables.enqueueRollup
  split <;> exact ⟨rfl, rfl, rfl⟩

theorem enqueueAll_frame (dims : List Dimension) (now : Int) (db : LedgerTables) :
    (dims.foldl (fun db dim => db.enqueueRollup now dim) db).entries = db.entries ∧
      (dims.foldl (fun db dim => db.enqueueRollup now dim) db).classifications = db.classifications ∧
      (dims.foldl (fun db dim => db.enqueueRollup now dim) db).checkpoints = db.checkpoints := by
  induction dims generalizing db with
  | nil => exact ⟨rfl, rfl, rfl⟩
  | cons dim rest ih =>
    obtain ⟨entries, classes, checkpoints⟩ := ih (db.enqueueRollup now dim)
    obtain ⟨entries', classes', checkpoints'⟩ := enqueueRollup_frame db now dim
    exact ⟨entries.trans entries', classes.trans classes', checkpoints.trans checkpoints'⟩

variable {s s' : Store} {g : Gated} {e : EntryInput}

theorem link_frame {event : EventRow} {journalID : Nat}
    (linked : linkJournalToEventAndBooking s event journalID = .ok s') :
    (∃ events bookings, s' = { s with events := events, bookings := bookings }) ∧
      s'.events.map (fun e => (e.id, e.uid)) = s.events.map fun e => (e.id, e.uid) := by
  simp only [linkJournalToEventAndBooking, bind_eq_ok, orError_eq_ok, require_eq_ok,
    decide_eq_true_eq] at linked
  obtain ⟨current, -, -, -, rest⟩ := linked
  have names : (s.events.map fun e =>
      if e.id = event.id then { e with journalID := some journalID } else e).map
      (fun e => (e.id, e.uid)) = s.events.map fun e => (e.id, e.uid) := by
    rw [List.map_map]
    apply List.map_congr_left
    intro e _
    simp only [Function.comp_apply]
    split <;> rfl
  split at rest
  · cases pure_eq_ok.mp rest
    exact ⟨⟨_, _, rfl⟩, names⟩
  · simp only [bind_eq_ok, orError_eq_ok, require_eq_ok, decide_eq_true_eq, pure_eq_ok] at rest
    obtain ⟨booking, -, -, -, rfl⟩ := rest
    exact ⟨⟨_, _, rfl⟩, names⟩

structure Fresh (env : Env) (s : Store) (input : JournalInput) (effectiveAt : Instant)
    (auth : JournalAuth) (g : Gated)
    (row : JournalRow) (rows : List EntryRow) (s' : Store) : Prop where
  unused : ∀ j ∈ s.journals, j.idempotencyKey ≠ input.idempotencyKey
  gated : gates s input effectiveAt auth = .ok g
  journal : insertJournal env s input effectiveAt auth g = .ok row
  entries : insertEntries s row g.resolved = .ok rows
  balanced : verifyJournalBalanced rows = .ok ()
  appended : ∃ events bookings,
    s' = { appendJournal s row.createdAt row rows with events := events, bookings := bookings }
  events : s'.events.map (fun e => (e.id, e.uid)) = s.events.map fun e => (e.id, e.uid)

variable {env : Env} {input : JournalInput} {effectiveAt now : Instant} {auth : JournalAuth}
  {row : JournalRow} {key : GoString}
  {entries : List EntryInput} {resolved : List ResolvedEntry} {rows : List EntryRow}
    {decodeQuotes : GoString → Result Unit}

theorem writeJournal_ok (ok : writeJournal env s input effectiveAt auth g = .ok (s', row)) :
    insertJournal env s input effectiveAt auth g = .ok row ∧
    ∃ rows, insertEntries s row g.resolved = .ok rows ∧
      verifyJournalBalanced rows = .ok () ∧
      (∃ events bookings, s' = { appendJournal s row.createdAt row rows with events := events, bookings := bookings }) ∧
      s'.events.map (fun e => (e.id, e.uid)) = s.events.map fun e => (e.id, e.uid) := by
  simp only [writeJournal, bind_eq_ok] at ok
  obtain ⟨row', inserted, rows, entries, _, balanced, rest⟩ := ok
  split at rest
  · simp only [pure_eq_ok, Prod.mk.injEq] at rest
    obtain ⟨rfl, rfl⟩ := rest
    exact ⟨inserted, rows, entries, balanced, ⟨_, _, rfl⟩, rfl⟩
  · simp only [bind_eq_ok, pure_eq_ok, Prod.mk.injEq] at rest
    obtain ⟨linked, link, rfl, rfl⟩ := rest
    exact ⟨inserted, rows, entries, balanced, link_frame link⟩

theorem getJournalByIdempotencyKey_ok {found : Option JournalRow}
    (ok : s.getJournalByIdempotencyKey key = .ok found) :
    found = s.journals.find? (·.idempotencyKey == key) := by
  simp only [Store.getJournalByIdempotencyKey, bind_eq_ok, pure_eq_ok] at ok
  obtain ⟨-, -, found⟩ := ok
  exact found.symm

theorem find_key_none (none_ : s.journals.find? (·.idempotencyKey == key) = none) :
    ∀ j ∈ s.journals, j.idempotencyKey ≠ key := by
  intro j member same
  have := List.find?_eq_none.mp none_ j member
  simp [same] at this

theorem postJournalWithQueries_ok {cfg : Config} {j : Journal}
    (ok : postJournalWithQueries cfg env s input effectiveAt auth = .ok (s', j)) :
    input.validate cfg.decodeQuotes env.now = .ok () ∧
      ((∃ existing, s.journals.find? (·.idempotencyKey == input.idempotencyKey) = some existing ∧
          ensureJournalMatchesInput s existing input = .ok j ∧ s' = s) ∨
        ∃ g row rows, Fresh env s input effectiveAt auth g row rows s' ∧ journalFromRow s' row = .ok j) := by
  simp only [postJournalWithQueries, bind_eq_ok, within_eq_ok] at ok
  obtain ⟨_, valid, found, lookup, rest⟩ := ok
  refine ⟨valid, ?_⟩
  have found_ := getJournalByIdempotencyKey_ok lookup
  cases found with
  | some existing =>
    simp only [bind_eq_ok, pure_eq_ok, Prod.mk.injEq] at rest
    obtain ⟨journal, same, rfl, rfl⟩ := rest
    exact .inl ⟨existing, found_.symm, same, rfl⟩
  | none =>
    simp only [bind_eq_ok, pure_eq_ok, Prod.mk.injEq] at rest
    obtain ⟨g, gated, ⟨posted, row⟩, written, journal, read, rfl, rfl⟩ := rest
    obtain ⟨inserted, rows, entries, balanced, appended, events⟩ := writeJournal_ok written
    exact .inr ⟨g, row, rows, ⟨find_key_none found_.symm, gated, inserted, entries, balanced,
      appended, events⟩, read⟩

theorem gates_ok (ok : gates s input effectiveAt auth = .ok g) :
    resolveEntries s input.entries = .ok g.resolved ∧
    s.jtByUIDOrErr input.journalTypeUID = .ok g.jt ∧
      checkEventLink s input.eventUID g.resolved = .ok g.event ∧
      checkReversalOf s input.reversalOfUID g.resolved = .ok g.reversalOf ∧
      checkPeriodClose s effectiveAt = .ok () ∧ enforceAccountPolicies s g.resolved = .ok () := by
  simp only [gates, bind_eq_ok, within_eq_ok, pure_eq_ok] at ok
  obtain ⟨resolved, resolve, jt, type_, event, link, _, -, _, -, reversalOf, original, _, period, _,
    policies, _, -, _, -,
    rfl⟩ := ok
  exact ⟨resolve, type_, link, original, period, policies⟩

theorem insertJournal_ok (ok : insertJournal env s input effectiveAt auth g = .ok row) :
    s.getJournalByUID env.uid = none ∧ textFits input.idempotencyKey = true ∧
    jsonbFits input.metadata = true ∧
      timestampFits (toMicros effectiveAt) = true ∧ row =
      { id := s.nextJournalID, uid := env.uid, journalTypeID := g.jt.id, idempotencyKey := input.idempotencyKey
        totalDebit := toUnits 18 input.totals.1, totalCredit := toUnits 18 input.totals.2
        metadata := readBack input.metadata, actorID := input.actorID, source := input.source
        reversalOf := g.reversalOf.map (·.id), eventID := g.event.map (·.id), effectiveAt := toMicros effectiveAt
        createdAt := toMicros env.now, authDigest := auth.digest, authSignature := auth.signature
        authKeyID := auth.keyID, authStatus := auth.status } := by
  simp only [insertJournal, within_eq_ok, bind_eq_ok, pure_eq_ok, require_eq_ok, textParam,
    Option.isNone_iff_eq_none] at ok
  obtain ⟨debit, debitEq, credit, creditEq, _, key, _, -, _, -, _, json, _, time, _,
    -, _, uid, rfl⟩ := ok
  exact ⟨uid, key, json, time, by rw [numericColumn_ok debitEq, numericColumn_ok creditEq]⟩

theorem resolveEntry_ok {r : ResolvedEntry} (ok : resolveEntry s e = .ok r) :
    ∃ cur cls, s.currencyByUIDOrErr e.currencyUID = .ok cur ∧
    s.classByUIDOrErr e.classificationUID = .ok cls ∧
      r = ⟨e, cur.id, cls.id, cur.exponent, cls.normalSide.normalSide⟩ := by
  simp only [resolveEntry, bind_eq_ok, within_eq_ok, pure_eq_ok] at ok
  obtain ⟨cur, currency, cls, classification, rfl⟩ := ok
  exact ⟨cur, cls, currency, classification, rfl⟩

theorem resolveEntries_input (ok : resolveEntries s entries = .ok resolved) :
    resolved.map (·.input) = entries := by
  rw [resolveEntries, collect_eq_ok] at ok
  rw [← List.map_id entries]
  refine (forall₂_map_eq ok ?_).symm
  intro e _ r resolves
  obtain ⟨_, _, -, -, rfl⟩ := resolveEntry_ok resolves
  rfl

structure RowOf (row : JournalRow) (e : ResolvedEntry) (r : EntryRow) : Prop where
  journal : r.journal = row.id
  dim : r.dim = e.dim
  entryType : r.entryType.entryType = e.input.entryType
  amount : r.amount = toUnits 18 e.input.amount
  positive : 0 < r.amount
  fits : fitsUnits 30 r.amount = true
  createdAt : r.createdAt = row.createdAt
  effectiveAt : r.effectiveAt = row.effectiveAt

theorem insertJournalEntry_ok {id : Nat} {e : ResolvedEntry} {r : EntryRow}
    (ok : insertJournalEntry row id e = .ok r) :
    RowOf row e r ∧ r.id = id := by
  simp only [insertJournalEntry, within_eq_ok, bind_eq_ok, pure_eq_ok, require_eq_ok, orError_eq_ok,
    decide_eq_true_eq] at ok
  obtain ⟨amount, stored, side, known, _, checks, rfl⟩ := ok
  refine ⟨⟨rfl, rfl, ?_, numericColumn_ok stored, checks.1, numericColumn_ok stored ▸
    numericColumn_fits stored, rfl, rfl⟩, rfl⟩
  revert known
  cases e.input.entryType <;> simp only [sideOf, Option.some.injEq, reduceCtorEq, false_implies]
  · rintro rfl
    rfl
  · rintro rfl
    rfl

theorem insertEntries_ok (ok : insertEntries s row resolved = .ok rows) :
    List.Forall₂ (RowOf row) resolved rows := by
  rw [insertEntries, collect_eq_ok] at ok
  have unzip : ∀ (l : List ResolvedEntry) (n : Nat) (rows : List EntryRow),
      List.Forall₂ (fun e r => insertJournalEntry row (s.nextEntryID + e.2) e.1 = .ok r) (l.zipIdx n) rows →
        List.Forall₂ (RowOf row) l rows := by
    intro l
    induction l with
    | nil =>
      intro n rows written
      cases written
      exact .nil
    | cons e rest ih =>
      intro n rows written
      cases written with
      | cons head tail => exact .cons (insertJournalEntry_ok head).1 (ih _ _ tail)
  exact unzip resolved 0 rows ok

theorem insertEntries_range (ok : insertEntries s row resolved = .ok rows) :
    rows.map (·.id) = List.range' s.nextEntryID rows.length := by
  rw [insertEntries, collect_eq_ok] at ok
  have shifted : ∀ (l : List ResolvedEntry) (n : Nat) (rows : List EntryRow),
      List.Forall₂ (fun e r => insertJournalEntry row (s.nextEntryID + e.2) e.1 = .ok r) (l.zipIdx n) rows →
        rows.map (·.id) = List.range' (s.nextEntryID + n) rows.length := by
    intro l
    induction l with
    | nil =>
      intro n rows written
      cases written
      rfl
    | cons e rest ih =>
      intro n rows written
      cases written with
      | cons head tail =>
        rw [List.map_cons, (insertJournalEntry_ok head).2, ih _ _ tail, List.length_cons, List.range'_succ]
        rfl
  exact shifted resolved 0 rows ok

theorem insertEntries_ids (ok : insertEntries s row resolved = .ok rows) :
    ∀ r ∈ rows, s.nextEntryID ≤ r.id ∧ r.id < s.nextEntryID + rows.length := by
  intro r member
  have inside : r.id ∈ rows.map (·.id) := List.mem_map_of_mem member
  rw [insertEntries_range ok] at inside
  simpa using List.mem_range'_1.mp inside

theorem validate_entry (valid : input.validate decodeQuotes now = .ok ()) : ∀ e ∈ input.entries,
    validateEntry e = .ok () := by
  simp only [JournalInput.validate, bind_eq_ok, checkAll_eq_ok] at valid
  obtain ⟨_, -, _, -, _, -, _, -, _, -, _, entries, -⟩ := valid
  exact entries

theorem validate_nonempty (valid : input.validate decodeQuotes now = .ok ()) :
    input.entries ≠ [] := by
  simp only [JournalInput.validate, bind_eq_ok, require_eq_ok, decide_eq_true_eq] at valid
  obtain ⟨_, -, _, -, _, -, _, nonempty, -⟩ := valid
  exact nonempty

theorem verifyJournalBalanced_eq_ok : verifyJournalBalanced rows = .ok () ↔
    ∀ currency, currencyNet rows currency = 0 := by
  simp only [verifyJournalBalanced, require_eq_ok, List.all_eq_true, beq_iff_eq]
  refine ⟨fun nets currency => ?_, fun nets currency _ => nets currency⟩
  by_cases used : currency ∈ rows.map (·.dim.currency)
  · exact nets currency used
  · -- A currency with no row nets to the empty sum.
    have none_ : rows.filter (·.dim.currency == currency) = [] := by
      rw [List.filter_eq_nil_iff]
      intro e member same
      exact used (List.mem_map.mpr ⟨e, member, by simpa using same⟩)
    rw [currencyNet, none_]
    rfl

theorem validateEntry_bounds (valid : validateEntry e = .ok ()) :
    validateAmountMagnitude e.amount = .ok () ∧ 0 < e.amount.val ∧ ∃ side : Side, e.entryType =
    side.entryType := by
  simp only [validateEntry, bind_eq_ok, require_eq_ok] at valid
  obtain ⟨_, magnitude, _, -, _, known, _, -, _, -, positive⟩ := valid
  refine ⟨magnitude, Decimal.isPositive_iff.mp positive, ?_⟩
  cases kind : e.entryType with
  | debit => exact ⟨.debit, rfl⟩
  | credit => exact ⟨.credit, rfl⟩
  | unknown text => simp [kind, EntryType.isValid] at known

theorem validateEntry_units (valid : validateEntry e = .ok ()) : (toUnits 18 e.amount : ℚ) =
    e.amount.val * 10 ^ 18 :=
  validateAmountMagnitude_units (validateEntry_bounds valid).1

theorem totalOf_units (valid : ∀ e ∈ entries, validateEntry e = .ok ()) (entryType : EntryType) :
    (toUnits 18 (totalOf entryType entries) : ℚ) = (totalOf entryType entries).val * 10 ^ 18 := by
  have total : (totalOf entryType entries).val =
      ((((entries.filter (·.entryType = entryType)).map fun e => toUnits 18 e.amount).sum : Int) : ℚ) / 10 ^ 18 := by
    rw [totalOf_eq_sumDecimals, val_sumDecimals, List.map_map, eq_div_iff
      (by norm_num), ← List.sum_map_mul_right, Int.cast_list_sum,
      List.map_map]
    refine congrArg List.sum (List.map_congr_left fun e member => ?_)
    exact (validateEntry_units (valid e (List.mem_of_mem_filter member))).symm
  rw [toUnits_of_val total, total]
  field_simp

end Ledger.Postgres
