import Ledger.Postgres.JournalTables

namespace Ledger.Postgres

open Core Shared

def originalUnits (s : Store) (journalID : Nat) : EntryDimKey → Int :=
  sumAt EntryRow.dimKey (·.amount) (s.listJournalEntries journalID)

def reversedUnits (s : Store) (journalID : Nat) : EntryDimKey → Int :=
  sumAt EntryRow.reversedKey (·.amount) (s.listReversalEntriesByOriginal journalID)

def Exhausted (s : Store) (journalID : Nat) : Prop := ∀ key, reversedUnits s journalID key =
    originalUnits s journalID key

def Ceiling (s : Store) : Prop := ∀ journalID key, reversedUnits s journalID key ≤
    originalUnits s journalID key

def dimKeyOf (dim : Dimension) (side : Side) : EntryDimKey :=
  ⟨dim.holder, dim.currency, dim.classification, side.entryType⟩

def netOn (normalSide : Side) (rows : List EntryRow) (dim : Dimension) : Int :=
  sumAt EntryRow.dim (fun e => ledgerSignedAmount normalSide e.entryType e.amount) rows dim

theorem netOn_own (normalSide : Side) (rows : List EntryRow) (dim : Dimension) :
    netOn normalSide rows dim = sumAt EntryRow.dimKey (·.amount) rows (dimKeyOf dim normalSide) -
      sumAt EntryRow.dimKey (·.amount) rows (dimKeyOf dim normalSide.flip) := by
  unfold netOn
  induction rows with
  | nil => rfl
  | cons e rest ih =>
    rw [sumAt_cons, sumAt_cons, sumAt_cons, ih]
    obtain ⟨_, _, ⟨h, c, k⟩, side, amount, _, _⟩ := e
    obtain ⟨h', c', k'⟩ := dim
    cases side <;> cases normalSide <;>
      simp only [EntryRow.dimKey, dimKeyOf, Side.flip, Side.entryType, ledgerSignedAmount,
        Side.signed, Dimension.mk.injEq,
        EntryDimKey.mk.injEq, reduceCtorEq, and_true, and_false, if_false, if_true] <;> split <;> omega

theorem netOn_reversed (normalSide : Side) (rows : List EntryRow) (dim : Dimension) :
    netOn normalSide rows dim = sumAt EntryRow.reversedKey (·.amount) rows
    (dimKeyOf dim normalSide.flip) -
      sumAt EntryRow.reversedKey (·.amount) rows (dimKeyOf dim normalSide) := by
  unfold netOn
  induction rows with
  | nil => rfl
  | cons e rest ih =>
    rw [sumAt_cons, sumAt_cons, sumAt_cons, ih]
    obtain ⟨_, _, ⟨h, c, k⟩, side, amount, _, _⟩ := e
    obtain ⟨h', c', k'⟩ := dim
    cases side <;> cases normalSide <;>
      simp only [EntryRow.reversedKey, EntryRow.dimKey, flipEntryType, dimKeyOf, Side.flip,
        Side.entryType, ledgerSignedAmount,
        Side.signed, Dimension.mk.injEq, EntryDimKey.mk.injEq, reduceCtorEq, and_true, and_false, if_false, if_true] <;>
      split <;> omega

variable {s : Store}

theorem Exhausted.net {i : Nat} (exhausted : Exhausted s i) (normalSide : Side) (dim : Dimension) :
    netOn normalSide (s.listJournalEntries i ++ s.listReversalEntriesByOriginal i) dim = 0 := by
  have own := netOn_own normalSide (s.listJournalEntries i) dim
  have back := netOn_reversed normalSide (s.listReversalEntriesByOriginal i) dim
  have same := exhausted (dimKeyOf dim normalSide)
  have flipped := exhausted (dimKeyOf dim normalSide.flip)
  simp only [netOn, sumAt_append, originalUnits, reversedUnits] at *
  omega

theorem val_sumByDim {α : Type} (key : α → EntryDimKey) (amount : α → Decimal)
    (l : List α) (k : EntryDimKey) :
    (sumByDim key amount l k).val = sumAt key (fun a => (amount a).val) l k := by
  rw [sumByDim, val_sumDecimals, List.map_map]
  rfl

theorem sumAt_units {α : Type} {key : α → EntryDimKey} {amount : α → Decimal}
    {units : α → Int} {l : List α}
    (exact_ : ∀ a ∈ l, (units a : ℚ) = (amount a).val * 10 ^ 18) (k : EntryDimKey) :
    (sumByDim key amount l k).val * 10 ^ 18 = ((sumAt key units l k : Int) : ℚ) := by
  rw [val_sumByDim]
  induction l with
  | nil => simp
  | cons a rest ih =>
    rw [sumAt_cons, sumAt_cons, add_mul, ih fun b member => exact_ b (List.mem_cons_of_mem _ member)]
    push_cast
    congr 1
    split
    · rw [exact_ a List.mem_cons_self]
    · simp

theorem EntryRow.units_exact (e : EntryRow) : (e.amount : ℚ) = e.decimal.val * 10 ^ 18 := by
  rw [EntryRow.decimal, numericToDecimal, ofUnits_val]
  field_simp

theorem val_entriesByDimension (rows : List EntryRow) (k : EntryDimKey) :
    (entriesByDimension rows k).val * 10 ^ 18 =
    ((sumAt EntryRow.dimKey (·.amount) rows k : Int) : ℚ) :=
  sumAt_units (fun e _ => e.units_exact) k

theorem val_reversedByDimension (rows : List EntryRow) (k : EntryDimKey) :
    (sumByDim EntryRow.reversedKey EntryRow.decimal rows k).val * 10 ^ 18 =
      ((sumAt EntryRow.reversedKey (·.amount) rows k : Int) : ℚ) :=
  sumAt_units (fun e _ => e.units_exact) k

variable {original : JournalRow} {already : EntryDimKey → Decimal}
  {entries : List EntryRow} {resolved : List ResolvedEntry} {lines : List EntryInput}

theorem cumulativeReversed_ok (ok : cumulativeReversedByDimension s original entries = .ok already)
    (k : EntryDimKey) :
    (already k).val * 10 ^ 18 = (reversedUnits s original.id k : ℚ) := by
  simp only [cumulativeReversedByDimension] at ok
  have same : sumByDim EntryRow.reversedKey EntryRow.decimal
    (s.listReversalEntriesByOriginal original.id) = already := by
    split at ok
    · simp only [bind_eq_ok, pure_eq_ok] at ok
      exact ok.choose_spec.2
    · exact pure_eq_ok.mp ok
  rw [← same]
  exact val_reversedByDimension _ k

theorem validateReversalOfInput_ok (valid : ∀ e ∈ resolved, validateEntry e.input = .ok ())
    (ok : validateReversalOfInput s original resolved = .ok ()) {k : EntryDimKey}
    (used : k ∈ resolved.map ResolvedEntry.reversedKey) :
    reversedUnits s original.id k + sumAt ResolvedEntry.reversedKey
    (fun e => toUnits 18 e.input.amount) resolved k ≤
      originalUnits s original.id k := by
  simp only [validateReversalOfInput, bind_eq_ok, within_eq_ok, checkAll_eq_ok, mem_firstSeen,
    require_eq_ok] at ok
  obtain ⟨_, -, _, -, already, history, checks⟩ := ok
  obtain ⟨_, -, below⟩ := checks k used
  rw [Bool.not_eq_true', ← Bool.not_eq_true, Decimal.greaterThan_iff, not_lt,
    Decimal.val_add] at below
  have scaled := mul_le_mul_of_nonneg_right below (by positivity : (0 : ℚ) ≤ 10 ^ 18)
  rw [add_mul, cumulativeReversed_ok history, val_entriesByDimension,
    sumAt_units fun e member => validateEntry_units (valid e member)] at scaled
  exact_mod_cast scaled

theorem CatalogOk.currency (catalog : CatalogOk s) {id : Nat} {cur cur' : CurrencyRow}
    (byID : s.currencyByIDOrErr id = .ok cur)
    (byUID : s.currencyByUIDOrErr (pgToUID cur.uid) = .ok cur') : cur'.id = id := by
  simp only [Store.currencyByIDOrErr, Store.currencyByUIDOrErr, orError_eq_ok] at byID byUID
  have printed : cur'.uid = cur.uid := Uuid.print_injective
    (by simpa [pgToUID] using List.find?_some byUID)
  rw [List.inj_on_of_nodup_map catalog.currencies (List.mem_of_find?_eq_some byUID)
    (List.mem_of_find?_eq_some byID) printed]
  simpa using List.find?_some byID

theorem CatalogOk.classification (catalog : CatalogOk s) {id : Nat} {cls cls' : ClassificationRow}
    (byID : s.classByIDOrErr id = .ok cls)
    (byUID : s.classByUIDOrErr (pgToUID cls.uid) = .ok cls') : cls'.id = id := by
  simp only [Store.classByIDOrErr, Store.classByUIDOrErr, LedgerTables.getClassification,
    orError_eq_ok] at byID byUID
  have printed : cls'.uid = cls.uid := Uuid.print_injective
    (by simpa [pgToUID] using List.find?_some byUID)
  rw [List.inj_on_of_nodup_map catalog.classifications (List.mem_of_find?_eq_some byUID)
    (List.mem_of_find?_eq_some byID)
    printed]
  simpa using List.find?_some byID

theorem flipEntryType_flip (side : Side) : flipEntryType side.flip.entryType = side.entryType := by
  cases side <;> rfl

theorem reversalLine_resolved (catalog : CatalogOk s) {e : EntryRow}
    {amount : Decimal} {line : EntryInput}
    {r : ResolvedEntry} (made : reversalLine s e amount = .ok line)
    (resolves : resolveEntry s line = .ok r) :
    r.reversedKey = e.dimKey ∧ r.input.amount = amount := by
  simp only [reversalLine, bind_eq_ok, pure_eq_ok] at made
  obtain ⟨cur, currency, cls, classification, rfl⟩ := made
  obtain ⟨cur', cls', currency', classification', rfl⟩ := resolveEntry_ok resolves
  refine ⟨?_, rfl⟩
  simp only [ResolvedEntry.reversedKey, EntryRow.dimKey, catalog.currency currency currency',
    catalog.classification classification classification', flipEntryType_flip]

def remainingOf (entries : List EntryRow) (already : EntryDimKey → Decimal)
    (k : EntryDimKey) : Decimal :=
  (entriesByDimension entries k).sub (already k)

def openKeys (entries : List EntryRow) (already : EntryDimKey → Decimal) : List EntryDimKey :=
  (firstSeen (entries.map EntryRow.dimKey)).filter fun k =>
    (remainingOf entries already k).isPositive

theorem reversalLines_resolved (catalog : CatalogOk s) {α : Type} {key : α → EntryDimKey}
    {amount : α → Decimal} {xs : List α}
    (made : List.Forall₂ (fun x line => ∃ e, e.dimKey = key x ∧
      reversalLine s e (amount x) = .ok line) xs lines)
    (resolves : resolveEntries s lines = .ok resolved) :
    resolved.map (fun r => (r.reversedKey, r.input.amount)) = xs.map fun x =>
    (key x, amount x) := by
  rw [resolveEntries, collect_eq_ok] at resolves
  induction made generalizing resolved with
  | nil =>
    cases resolves
    rfl
  | cons head _ ih =>
    cases resolves with
    | cons resolves tail =>
      obtain ⟨e, same, line⟩ := head
      obtain ⟨reversed, amount_⟩ := reversalLine_resolved catalog line resolves
      rw [List.map_cons, List.map_cons, ih tail, reversed, same, amount_]

theorem remainingEntries_resolved (catalog : CatalogOk s)
    (ok : remainingEntries s entries already = .ok lines)
    (resolves : resolveEntries s lines = .ok resolved) :
    resolved.map (fun r => (r.reversedKey, r.input.amount)) =
      (openKeys entries already).map fun k => (k, remainingOf entries already k) := by
  simp only [remainingEntries, bind_eq_ok, collect_eq_ok, pure_eq_ok, orError_eq_ok] at ok
  obtain ⟨lines', made, _, -, rfl⟩ := ok
  refine reversalLines_resolved catalog (made.imp fun k line => ?_) resolves
  rintro ⟨e, found, line_⟩
  exact ⟨e, by simpa using List.find?_some found, line_⟩

namespace Fresh

variable {cfg : Config} {env : Env} {s s' : Store} {input : JournalInput} {effectiveAt : Instant}
  {auth : JournalAuth}
  {g : Gated} {row : JournalRow} {rows : List EntryRow}

section

variable (fresh : Fresh env s input effectiveAt auth g row rows s')
include fresh

theorem resolved_valid (valid : input.validate cfg.decodeQuotes env.now = .ok ()) :
    ∀ e ∈ g.resolved, validateEntry e.input = .ok () := by
  intro e member
  apply validate_entry valid
  rw [← resolveEntries_input (gates_ok fresh.gated).1]
  exact List.mem_map_of_mem member

theorem rows_nonempty (valid : input.validate cfg.decodeQuotes env.now = .ok ()) : rows ≠ [] := by
  rintro rfl
  have empty : g.resolved = [] := by
    cases resolved : g.resolved with
    | nil => rfl
    | cons e rest =>
      have related := fresh.rowOf
      rw [resolved] at related
      cases related
  apply validate_nonempty valid
  rw [← resolveEntries_input (gates_ok fresh.gated).1, empty]
  rfl

theorem sumAt_rows (k : EntryDimKey) : sumAt EntryRow.reversedKey (·.amount) rows k =
      sumAt ResolvedEntry.reversedKey (fun e => toUnits 18 e.input.amount) g.resolved k := by
  have pairs : g.resolved.map (fun e => (e.reversedKey, toUnits 18 e.input.amount)) =
      rows.map fun r => (r.reversedKey, r.amount) := by
    apply forall₂_map_eq fresh.rowOf
    intro e _ r written
    rw [written.amount, ResolvedEntry.reversedKey, EntryRow.reversedKey, EntryRow.dimKey,
      written.dim, written.entryType]
    rfl
  have left := sumAt_map (fun e : ResolvedEntry => (e.reversedKey, toUnits 18 e.input.amount))
    Prod.fst Prod.snd g.resolved k
  have right := sumAt_map (fun r : EntryRow => (r.reversedKey, r.amount)) Prod.fst Prod.snd rows k
  rw [pairs] at left
  exact right.symm.trans left

theorem reversedUnits_eq (wired : Wired s) (i : Nat) (k : EntryDimKey) : reversedUnits s' i k =
      reversedUnits s i k + if row.reversalOf = some i then sumAt EntryRow.reversedKey
      (·.amount) rows k else 0 := by
  rw [reversedUnits, fresh.listReversalEntries_eq wired, sumAt_append]
  congr 1
  split <;> rfl

variable {i : Nat}

theorem originalUnits_eq (older : i < s.nextJournalID) (k : EntryDimKey) : originalUnits s' i k =
    originalUnits s i k := by
  have next := fresh.row_id
  rw [originalUnits, fresh.listJournalEntries_eq, if_neg (by omega), List.append_nil]
  rfl

section

variable (valid : input.validate cfg.decodeQuotes env.now = .ok ())
include valid

theorem ceiling (wired : Wired s) (ceiling : Ceiling s) : Ceiling s' := by
  intro i k
  rw [fresh.reversedUnits_eq wired]
  -- The original side can only grow, and for the new journal it does.
  have grows : originalUnits s i k ≤ originalUnits s' i k := by
    rw [originalUnits, originalUnits, fresh.listJournalEntries_eq, sumAt_append]
    have nonneg : 0 ≤ sumAt EntryRow.dimKey (·.amount) (if i = row.id then rows else []) k := by
      apply sumAt_nonneg
      intro e member
      split at member
      · exact (fresh.rows_positive e member).le
      · cases member
    omega
  have old := ceiling i k
  split
  · next linked =>
    obtain ⟨original, -, id, -, -, gate⟩ := fresh.original_of_link linked
    rw [fresh.sumAt_rows]
    by_cases used : k ∈ g.resolved.map ResolvedEntry.reversedKey
    · have bound := validateReversalOfInput_ok (fresh.resolved_valid valid) gate used
      rw [id] at bound
      omega
    · rw [sumAt_of_not_mem used]
      omega
  · omega

theorem not_exhausted (wired : Wired s) (below : Ceiling s) (linked : row.reversalOf = some i) :
    ¬ Exhausted s i := by
  intro exhausted
  obtain ⟨e, member⟩ := List.exists_mem_of_ne_nil rows (fresh.rows_nonempty valid)
  obtain ⟨original, lookup, id, -⟩ := fresh.original_of_link linked
  have older : i < s.nextJournalID := id ▸ wired.ids original (getJournalByUID_mem lookup).1
  have after := fresh.ceiling valid wired below i e.reversedKey
  rw [fresh.reversedUnits_eq wired, if_pos linked, fresh.originalUnits_eq older,
    exhausted e.reversedKey] at after
  have new : 0 < sumAt EntryRow.reversedKey (·.amount) rows e.reversedKey :=
    sumAt_pos fresh.rows_positive member
  omega

theorem exhausted (wired : Wired s) (below : Ceiling s) (older : i < s.nextJournalID)
    (exhausted : Exhausted s i) : Exhausted s' i := by
  intro k
  have unlinked : row.reversalOf ≠ some i := fun linked => fresh.not_exhausted valid wired
    below linked exhausted
  rw [fresh.reversedUnits_eq wired, if_neg unlinked, add_zero,
    fresh.originalUnits_eq older, exhausted k]

theorem exhausts (wired : Wired s) (below : Ceiling s) (linked : row.reversalOf = some i)
    (history : ∀ k, (already k).val * 10 ^ 18 = (reversedUnits s i k : ℚ))
    (lines : remainingEntries s (s.listJournalEntries i) already = .ok input.entries) :
    Exhausted s' i := by
  obtain ⟨original, lookup, id, -⟩ := fresh.original_of_link linked
  have older : i < s.nextJournalID := id ▸ wired.ids original (getJournalByUID_mem lookup).1
  have resolved := remainingEntries_resolved wired.catalog lines (gates_ok fresh.gated).1
  have left (k : EntryDimKey) : (remainingOf (s.listJournalEntries i) already k).val * 10 ^ 18 =
      (originalUnits s i k - reversedUnits s i k : ℚ) := by
    rw [remainingOf, Decimal.val_sub, sub_mul, history, val_entriesByDimension]
    rfl
  -- The new amounts, read as a map from the open keys.
  have new (k : EntryDimKey) : sumAt EntryRow.reversedKey (·.amount) rows k =
      sumAt (fun k => k) (fun k => toUnits 18 (remainingOf (s.listJournalEntries i) already k))
        (openKeys (s.listJournalEntries i) already) k := by
    have source := sumAt_map (fun r : ResolvedEntry => (r.reversedKey, r.input.amount)) Prod.fst
      (fun p => toUnits 18 p.2)
      g.resolved k
    rw [resolved, sumAt_map] at source
    rw [fresh.sumAt_rows]
    exact source.symm
  intro k
  rw [fresh.reversedUnits_eq wired, if_pos linked, fresh.originalUnits_eq older, new]
  by_cases isOpen : k ∈ openKeys (s.listJournalEntries i) already
  · have nodup : ((openKeys (s.listJournalEntries i) already).map fun k => k).Nodup := by
      rw [List.map_id']
      exact (nodup_firstSeen _).filter _
    have pairs : (k, remainingOf (s.listJournalEntries i) already k) ∈
        g.resolved.map fun r => (r.reversedKey, r.input.amount) := by
      rw [resolved]
      exact List.mem_map.mpr ⟨k, isOpen, rfl⟩
    obtain ⟨r, member, pair⟩ := List.mem_map.mp pairs
    have exact_ := validateEntry_units (fresh.resolved_valid valid r member)
    rw [(Prod.mk.inj pair).2, left] at exact_
    have units : toUnits 18 (remainingOf (s.listJournalEntries i) already k) =
      originalUnits s i k - reversedUnits s i k := by
      exact_mod_cast exact_
    rw [sumAt_of_nodup nodup isOpen, units]
    omega
  · rw [sumAt_of_not_mem (by simpa using isOpen), add_zero]
    apply le_antisymm (below i k)
    by_cases used : k ∈ (s.listJournalEntries i).map EntryRow.dimKey
    · -- The key is closed because nothing positive remains of it.
      have closed : ¬ 0 < (remainingOf (s.listJournalEntries i) already k).val := by
        rw [← Decimal.isPositive_iff]
        intro positive
        exact isOpen (List.mem_filter.mpr ⟨mem_firstSeen.mpr used, positive⟩)
      have scaled := mul_le_mul_of_nonneg_right (not_lt.mp closed) (by positivity : (0 : ℚ) ≤ 10 ^ 18)
      rw [left, zero_mul, sub_nonpos] at scaled
      exact_mod_cast scaled
    · rw [originalUnits, sumAt_of_not_mem used]
      apply sumAt_nonneg
      intro e member
      exact (wired.positive e (List.mem_of_mem_filter member)).le

end

end

end Fresh

end Ledger.Postgres
