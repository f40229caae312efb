import Ledger.Postgres.LedgerRuns

namespace Ledger.Postgres

open Ledger.Core Shared

/-- A step that links nothing to the journal `uid`. -/
def ApartStep (cfg : Config) (uid : Uuid) (s s' : Store) : Prop :=
  (∃ env c j, Call.run cfg env s c = .ok (s', j) ∧ c.target ≠ some uid) ∨ Beside s s'

structure SameRates (s s' : Store) : Prop where
  currencies : ∀ id cur, s.currencyByIDOrErr id = .ok cur →
    ∃ cur', s'.currencyByIDOrErr id = .ok cur' ∧ cur'.uid = cur.uid ∧ cur'.exponent = cur.exponent
  classifications : ∀ id cls, s.classByIDOrErr id = .ok cls → ∃ cls', s'.classByIDOrErr id =
    .ok cls' ∧ cls'.uid = cls.uid

theorem SameRates.refl (s : Store) : SameRates s s :=
  ⟨fun _ cur found => ⟨cur, found, rfl, rfl⟩, fun _ cls found => ⟨cls, found, rfl⟩⟩

variable {s s' s'' : Store}

theorem SameRates.trans (first : SameRates s s') (second : SameRates s' s'') : SameRates s s'' := by
  refine ⟨fun id cur found => ?_, fun id cls found => ?_⟩
  · obtain ⟨cur', found', uid, exponent⟩ := first.currencies id cur found
    obtain ⟨cur'', found'', uid', exponent'⟩ := second.currencies id cur' found'
    exact ⟨cur'', found'', uid'.trans uid, exponent'.trans exponent⟩
  · obtain ⟨cls', found', uid⟩ := first.classifications id cls found
    obtain ⟨cls'', found'', uid'⟩ := second.classifications id cls' found'
    exact ⟨cls'', found'', uid'.trans uid⟩

structure Untouched (o : JournalRow) (s s' : Store) : Prop where
  later : Later s s'
  rates : SameRates s s'
  reversals : s'.listReversalEntriesByOriginal o.id = s.listReversalEntriesByOriginal o.id

theorem Untouched.refl (o : JournalRow) (s : Store) : Untouched o s s := ⟨.refl s, .refl s, rfl⟩

variable {o : JournalRow}

theorem Untouched.trans (first : Untouched o s s') (second : Untouched o s' s'') :
    Untouched o s s'' :=
  ⟨first.later.trans second.later, first.rates.trans second.rates,
    second.reversals.trans first.reversals⟩

theorem Untouched.units (untouched : Untouched o s s') (member : o ∈ s.journals) :
    reversedUnits s' o.id = reversedUnits s o.id ∧ originalUnits s' o.id =
    originalUnits s o.id := by
  rw [reversedUnits, reversedUnits, untouched.reversals, originalUnits, originalUnits,
    untouched.later.entries o member]
  exact ⟨rfl, rfl⟩

structure Reversible (o : JournalRow) (s : Store) : Prop where
  keyed : Keyed s
  ceiling : Ceiling s
  member : o ∈ s.journals

section

variable {cfg : Config} {env : Env} {s s' : Store} {input : JournalInput} {effectiveAt : Instant}
  {auth : JournalAuth} {g : Gated}
  {row : JournalRow} {rows : List EntryRow} {o : JournalRow}

section

variable (fresh : Fresh env s input effectiveAt auth g row rows s')
include fresh

theorem Fresh.reversible (valid : input.validate cfg.decodeQuotes env.now = .ok ())
    (inv : Reversible o s) : Reversible o s' :=
  ⟨fresh.keyed inv.keyed, fresh.ceiling valid inv.keyed.wired inv.ceiling,
    by simp [fresh.journals_eq, inv.member]⟩

theorem Fresh.rates : SameRates s s' := by
  obtain ⟨currencies, classes, -⟩ := fresh.catalog_eq
  refine ⟨fun id cur found => ⟨cur, ?_, rfl, rfl⟩, fun id cls found => ⟨cls, ?_, rfl⟩⟩
  · rw [Store.currencyByIDOrErr, currencies]
    exact found
  · rw [Store.classByIDOrErr, LedgerTables.getClassification, classes]
    exact found

theorem Fresh.untouched (inv : Reversible o s)
    (other : Uuid.parse input.reversalOfUID ≠ some o.uid) : Untouched o s s' := by
  have unlinked : row.reversalOf ≠ some o.id := by
    intro linked
    obtain ⟨original, lookup, id, parsed, -⟩ := fresh.original_of_link linked
    have same : original = o := List.inj_on_of_nodup_map inv.keyed.wired.distinct
      (getJournalByUID_mem lookup).1 inv.member id
    exact other (same ▸ parsed)
  refine ⟨fresh.later inv.keyed.wired, fresh.rates, ?_⟩
  rw [fresh.listReversalEntries_eq inv.keyed.wired, if_neg unlinked, List.append_nil]

end

theorem Beside.untouched (other : Beside s s') (o : JournalRow) : Untouched o s s' := by
  refine ⟨other.later, ⟨fun id cur found => ?_, fun id cls found => ?_⟩, ?_⟩
  · simp only [Store.currencyByIDOrErr, orError_eq_ok] at found ⊢
    obtain ⟨cur', found', same⟩ := find_of_prefix other.currencies (fun names => names.1 == id) found
    simp only [Prod.mk.injEq] at same
    exact ⟨cur', found', same.2.1, same.2.2⟩
  · simp only [Store.classByIDOrErr, LedgerTables.getClassification, orError_eq_ok] at found ⊢
    obtain ⟨cls', found', same⟩ := find_of_prefix other.classifications
      (fun names => names.1 == id) found
    exact ⟨cls', found', congrArg Prod.snd same⟩
  · simp only [Store.listReversalEntriesByOriginal, Store.listReversalsByOriginalJournalID,
      other.elsewhere.entries,
      other.elsewhere.journals]

theorem ApartStep.keeps (step : ApartStep cfg o.uid s s') (inv : Reversible o s) : Reversible o s' ∧
    Untouched o s s' := by
  rcases step with ⟨env, c, j, ok, other⟩ | other
  · cases Call.outcome ok with
    | replay r member key linked same =>
      subst same
      exact ⟨inv, .refl _ _⟩
    | fresh fresh valid key target remaining =>
      exact ⟨fresh.reversible valid inv, fresh.untouched inv (target ▸ other)⟩
  · have step : LedgerStep cfg s s' := .inr other
    have keyed := (step.keeps inv.keyed).1
    refine ⟨⟨keyed, fun i k => ?_, other.elsewhere.journals ▸ inv.member⟩, other.untouched o⟩
    have below := inv.ceiling i k
    simp only [reversedUnits, originalUnits, Store.listJournalEntries,
      Store.listReversalEntriesByOriginal,
      Store.listReversalsByOriginalJournalID, other.elsewhere.entries, other.elsewhere.journals] at below ⊢
    exact below

theorem run_untouched (inv : Reversible o s) (run : Shared.Run (ApartStep cfg o.uid) s s') :
    Reversible o s' ∧ Untouched o s s' := by
  have preserved : Preserved (ApartStep cfg o.uid) (Reversible o) := fun _ _ inv step =>
    (step.keeps inv).1
  exact ⟨preserved.run inv run, preserved.run_rel (Untouched o) (.refl o) (fun _ _ _ => .trans)
    (fun _ _ inv step => (step.keeps inv).2)
    inv run⟩

end

theorem Reversible.cumulative (inv : Reversible o s) :
    ∃ already, cumulativeReversedByDimension s o (s.listJournalEntries o.id) = .ok already := by
  unfold cumulativeReversedByDimension
  simp only
  split
  · simp only [bind_eq_ok, pure_eq_ok]
    refine ⟨_, (), ?_, rfl⟩
    have wired := inv.keyed.wired
    simp only [assertReversalChainIsWellFormed, bind_eq_ok, checkAll_eq_ok, require_eq_ok]
    refine ⟨(), fun r linked e inside => ?_, fun k _ => ?_⟩
    · -- An entry that takes back what the original never posted would be above the ceiling.
      have stored : e ∈ s.listReversalEntriesByOriginal o.id := List.mem_of_mem_filter inside
      have positive : 0 < reversedUnits s o.id e.reversedKey :=
        sumAt_pos (fun e member => wired.positive e (List.mem_of_mem_filter member)) stored
      have below := inv.ceiling o.id e.reversedKey
      by_contra absent
      have none_ : e.reversedKey ∉ (s.listJournalEntries o.id).map EntryRow.dimKey := by
        intro member
        obtain ⟨e', inside', same⟩ := List.mem_map.mp member
        exact absent (List.any_eq_true.mpr ⟨e', inside', by simpa using same⟩)
      rw [originalUnits, sumAt_of_not_mem none_] at below
      omega
    · rw [Bool.not_eq_true', ← Bool.not_eq_true, Decimal.greaterThan_iff, not_lt]
      have below : (reversedUnits s o.id k : ℚ) ≤ originalUnits s o.id k := by exact_mod_cast inv.ceiling o.id k
      have scaled : (sumByDim EntryRow.reversedKey EntryRow.decimal
        (s.listReversalEntriesByOriginal o.id) k).val * 10 ^ 18 ≤
          (entriesByDimension (s.listJournalEntries o.id) k).val * 10 ^ 18 := by
        rw [val_reversedByDimension, val_entriesByDimension]
        exact below
      exact le_of_mul_le_mul_right scaled (by positivity)
  · exact ⟨_, rfl⟩

variable {already : EntryDimKey → Decimal}

theorem remainingEntries_exhausted (exhausted : Exhausted s o.id)
    (history : cumulativeReversedByDimension s o (s.listJournalEntries o.id) = .ok already)
    (lines : List EntryInput) :
    remainingEntries s (s.listJournalEntries o.id) already ≠ .ok lines := by
  intro ok
  simp only [remainingEntries, bind_eq_ok, collect_eq_ok, pure_eq_ok, require_eq_ok,
    decide_eq_true_eq] at ok
  obtain ⟨lines', made, _, nonempty, -⟩ := ok
  have closed : openKeys (s.listJournalEntries o.id) already = [] := by
    rw [openKeys, List.filter_eq_nil_iff]
    intro k _
    rw [Decimal.isPositive_iff, not_lt]
    have left : (remainingOf (s.listJournalEntries o.id) already k).val * 10 ^ 18 = 0 := by
      have same : (reversedUnits s o.id k : ℚ) = originalUnits s o.id k := by rw [exhausted k]
      rw [remainingOf, Decimal.val_sub, sub_mul, cumulativeReversed_ok history, val_entriesByDimension, same]
      exact sub_self _
    have zero := (mul_eq_zero.mp left).resolve_right (by norm_num)
    exact zero.le
  change List.Forall₂ _ (openKeys (s.listJournalEntries o.id) already) lines' at made
  rw [closed] at made
  cases made
  exact nonempty rfl

variable {num den : Int} {attestor : Option Attestor}
  {journalUID reason key : GoString} {cfg : Config}

theorem authorizeReversal_ok {env : Env} {pre : AuthorizedJournal}
    (ok : authorizeReversal cfg attestor env s journalUID num den reason key = .ok pre) :
    ∃ pgUID o already lines, Uuid.parse journalUID = some pgUID ∧ s.getJournalByUID pgUID = some o ∧
      cumulativeReversedByDimension s o (s.listJournalEntries o.id) = .ok already ∧
      reversalEntriesFor s (s.listJournalEntries o.id) already num den = .ok lines := by
  simp only [authorizeReversal, bind_eq_ok, within_eq_ok, orError_eq_ok] at ok
  obtain ⟨_, -, _, -, pgUID, parsed, o, found, _, -, _, -, already, history,
    lines, derived, -⟩ := ok
  exact ⟨pgUID, o, already, lines, uidToPG_ok parsed, found, history, derived⟩

theorem authorizeReversal_exhausted {env : Env} (inv : Reversible o s)
    (exhausted : Exhausted s o.id)
    (parsed : Uuid.parse journalUID = some o.uid) (full : num = den) (pre : AuthorizedJournal) :
    authorizeReversal cfg attestor env s journalUID num den reason key ≠ .ok pre := by
  intro ok
  obtain ⟨pgUID, o', already, lines, parsed', found, history, derived⟩ := authorizeReversal_ok ok
  cases parsed.symm.trans parsed'
  rw [inv.keyed.wired.getJournalByUID inv.member] at found
  cases found
  rw [reversalEntriesFor, if_pos full] at derived
  exact remainingEntries_exhausted exhausted history lines derived

def shareOf (amounts : List (EntryRow × Decimal)) : EntryDimKey → Decimal :=
  sumByDim (fun line : EntryRow × Decimal => line.1.dimKey) Prod.snd
    (amounts.filter (·.2.isPositive))

def Room (entries : List EntryRow) (already : EntryDimKey → Decimal)
    (amounts : List (EntryRow × Decimal)) : Prop :=
  ∀ k ∈ entries.map EntryRow.dimKey, (already k).val + (shareOf amounts k).val ≤
    (entriesByDimension entries k).val

theorem scaledEntries_eq_ok {entries : List EntryRow} {lines : List EntryInput} :
    scaledEntries s entries already num den = .ok lines ↔
      ∃ amounts, reversedAmounts s entries num den = .ok amounts ∧ Room entries already amounts ∧
        collect (fun line => reversalLine s line.1 line.2) (amounts.filter (·.2.isPositive)) =
        .ok lines ∧ lines ≠ [] := by
  simp only [scaledEntries, bind_eq_ok, checkAll_eq_ok, mem_firstSeen, require_eq_ok,
    decide_eq_true_eq, pure_eq_ok,
    Bool.not_eq_true', ← Bool.not_eq_true, Decimal.greaterThan_iff, not_lt, Decimal.val_add]
  constructor
  · rintro ⟨amounts, shares, _, room, _, made, _, nonempty, rfl⟩
    exact ⟨amounts, shares, room, made, nonempty⟩
  · rintro ⟨amounts, shares, room, made, nonempty⟩
    exact ⟨amounts, shares, (), room, lines, made, (), nonempty, rfl⟩

section

variable {s s' : Store}

theorem reversalLine_later (rates : SameRates s s') {e : EntryRow}
    {amount : Decimal} {line : EntryInput}
    (made : reversalLine s e amount = .ok line) : reversalLine s' e amount = .ok line := by
  simp only [reversalLine, bind_eq_ok, pure_eq_ok] at made ⊢
  obtain ⟨cur, currency, cls, class_, rfl⟩ := made
  obtain ⟨cur', currency', uid, -⟩ := rates.currencies _ cur currency
  obtain ⟨cls', class', uid'⟩ := rates.classifications _ cls class_
  exact ⟨cur', currency', cls', class', by rw [uid, uid']⟩

variable {num den : Int}

theorem groupShares_later (rates : SameRates s s') {entries : List (EntryRow × Nat)}
    {group : Nat × Side}
    {shares : List (Nat × Decimal)} (ok : groupShares s entries num den group = .ok shares) :
    groupShares s' entries num den group = .ok shares := by
  simp only [groupShares, bind_eq_ok, within_eq_ok, pure_eq_ok] at ok ⊢
  obtain ⟨cur, currency, total, scaled, parts, allocated, rfl⟩ := ok
  obtain ⟨cur', currency', -, exponent⟩ := rates.currencies _ cur currency
  exact ⟨cur', currency', total, by rw [exponent]; exact scaled, parts,
    by rw [exponent]; exact allocated, rfl⟩

variable {entries : List EntryRow} {amounts : List (EntryRow × Decimal)}

theorem reversedAmounts_later (rates : SameRates s s')
    (ok : reversedAmounts s entries num den = .ok amounts) :
    reversedAmounts s' entries num den = .ok amounts := by
  simp only [reversedAmounts, bind_eq_ok, pure_eq_ok, collect_eq_ok] at ok ⊢
  obtain ⟨groups, shares, rfl⟩ := ok
  exact ⟨groups, shares.imp fun _ _ ok => groupShares_later rates ok, rfl⟩

theorem scaledEntries_repeat (rates : SameRates s s') {already' : EntryDimKey → Decimal}
    {lines lines' : List EntryInput}
    (shares : reversedAmounts s entries num den = .ok amounts)
    (first : scaledEntries s entries already num den = .ok lines) :
    scaledEntries s' entries already' num den = .ok lines' ↔ Room entries already' amounts ∧
    lines' = lines := by
  obtain ⟨_, shares', -, made, nonempty⟩ := scaledEntries_eq_ok.mp first
  cases shares.symm.trans shares'
  have again := reversedAmounts_later rates shares
  have lines_ : collect (fun line => reversalLine s' line.1 line.2)
    (amounts.filter (·.2.isPositive)) = .ok lines :=
    collect_eq_ok.mpr ((collect_eq_ok.mp made).imp fun _ _ made => reversalLine_later rates made)
  rw [scaledEntries_eq_ok]
  constructor
  · rintro ⟨_, shares'', room, made', -⟩
    cases again.symm.trans shares''
    cases lines_.symm.trans made'
    exact ⟨room, rfl⟩
  · rintro ⟨room, rfl⟩
    exact ⟨amounts, again, room, lines_, nonempty⟩

end

variable {amounts : List (EntryRow × Decimal)} {input : JournalInput}

theorem Fresh.share_units {env : Env} {effectiveAt : Instant} {auth : JournalAuth} {g : Gated}
    {row : JournalRow} {rows : List EntryRow}
    (fresh : Fresh env s input effectiveAt auth g row rows s')
    (valid : input.validate cfg.decodeQuotes env.now = .ok ())
    (wired : Wired s) (made : collect (fun line => reversalLine s line.1 line.2)
      (amounts.filter (·.2.isPositive)) = .ok input.entries)
    (k : EntryDimKey) : (shareOf amounts k).val * 10 ^ 18 =
    ((sumAt EntryRow.reversedKey (·.amount) rows k : Int) : ℚ) := by
  have lines : List.Forall₂ (fun (x : EntryRow × Decimal) line => ∃ e : EntryRow, e.dimKey =
    x.1.dimKey ∧ reversalLine s e x.2 = .ok line)
      (amounts.filter (·.2.isPositive)) input.entries :=
    (collect_eq_ok.mp made).imp fun line _ made => ⟨line.1, rfl, made⟩
  have pairs := reversalLines_resolved wired.catalog lines (gates_ok fresh.gated).1
  have left := sumAt_map (fun line : EntryRow × Decimal => (line.1.dimKey, line.2))
    Prod.fst (fun p => p.2.val)
    (amounts.filter (·.2.isPositive)) k
  have right := sumAt_map (fun r : ResolvedEntry => (r.reversedKey, r.input.amount)) Prod.fst
    (fun p => p.2.val) g.resolved k
  rw [← pairs] at left
  have same : (shareOf amounts k).val =
    (sumByDim ResolvedEntry.reversedKey (·.input.amount) g.resolved k).val := by
    rw [shareOf, val_sumByDim, val_sumByDim]
    exact left.symm.trans right
  rw [same, sumAt_units fun e member => validateEntry_units (fresh.resolved_valid valid e member),
    fresh.sumAt_rows]

theorem validate_now {decodeQuotes : GoString → Result Unit} (unset : input.effectiveAt = 0)
    (now now' : Instant) :
    input.validate decodeQuotes now = input.validate decodeQuotes now' := by
  simp [JournalInput.validate, unset]

theorem fraction_posted {sign : Attestor} {env : Env} {j : Journal}
    (unused : ∀ j ∈ s.journals, j.idempotencyKey ≠ key)
    (ok : reverseJournalFraction cfg (.pool (some sign)) env s journalUID num den
      reason key = .ok (s', j)) :
    validateReversalFraction num den = .ok () ∧ key ≠ [] ∧
    ∃ o already lines jt effectiveAt auth g row rows,
      Uuid.parse journalUID = some o.uid ∧ s.getJournalByUID o.uid = some o ∧ o.reversalOf = none ∧
      s.listJournalEntries o.id ≠ [] ∧ reversalEntriesFor s (s.listJournalEntries o.id) already
      num den = .ok lines ∧
      s.jtByIDOrErr o.journalTypeID = .ok jt ∧
      (reversalInput jt key lines journalUID (fractionMetadata reason num den)).validate
      cfg.decodeQuotes env.now = .ok () ∧
      Fresh env s (reversalInput jt key lines journalUID (fractionMetadata reason num den))
      effectiveAt auth g row rows s' ∧
      journalFromRow s' row = .ok j := by
  simp only [reverseJournalFraction, bind_eq_ok, require_eq_ok,
    decide_eq_true_eq, within_eq_ok] at ok
  obtain ⟨_, fraction, _, named, pre, -, ok⟩ := ok
  refine ⟨fraction, named, ?_⟩
  simp only [reverseJournalFractionWithQueries, bind_eq_ok, orError_eq_ok, within_eq_ok] at ok
  obtain ⟨pgUID, parsed, o, lookup, found, key_, rest⟩ := ok
  have parsed := uidToPG_ok parsed
  obtain ⟨-, uid⟩ := getJournalByUID_mem lookup
  subst uid
  have none_ : s.journals.find? (·.idempotencyKey == key) = none := by simpa using unused
  rw [getJournalByIdempotencyKey_ok key_, none_] at rest
  simp only [bind_eq_ok, require_eq_ok, decide_eq_true_eq, Option.isNone_iff_eq_none] at rest
  obtain ⟨_, original, _, nonempty, already, -, lines, derived, jt, type_, posted⟩ := rest
  obtain ⟨effectiveAt, auth, posted⟩ := postReversal_ok posted
  obtain ⟨valid, ⟨existing, found, -⟩ | ⟨g, row, rows, fresh, read⟩⟩ :=
    postJournalWithQueries_ok posted
  · exact absurd (by simpa [reversalInput] using List.find?_some found)
      (unused existing (List.mem_of_find?_eq_some found))
  · exact ⟨o, already, lines, jt, effectiveAt, auth, g, row, rows, parsed, lookup, original,
      nonempty, derived, type_, valid, fresh,
      read⟩

theorem validUtf8_fractionText (num den : Int) : validUtf8 (fractionText num den) = true := by
  apply validUtf8_ascii
  intro b member
  simp only [fractionText, List.mem_append] at member
  rcases member with (front | slash) | back
  · exact intText_ascii num b front
  · have ascii : ∀ b ∈ lit "/", b < 0x80 := by decide +kernel
    exact ascii b slash
  · exact intText_ascii den b back

theorem fractionMetadata_entries (reason : GoString) (num den : Int) :
    (fractionMetadata reason num den).entries =
    [(reasonKey, reason), (reversalFractionKey, fractionText num den)] := by
  have order : ¬reversalFractionKey < reasonKey ∧ reversalFractionKey ≠
    reasonKey := by decide +kernel
  simp [fractionMetadata, SortedMap.ofList, SortedMap.insert, SortedMap.insertList,
    SortedMap.empty, order]

theorem fractionMetadata_stored (reason : GoString) (num den : Int) :
    (readBack (fractionMetadata reason num den)).get reasonKey = some (repair reason) ∧
      (readBack (fractionMetadata reason num den)).get reversalFractionKey =
      some (fractionText num den) := by
  have keys : repair reasonKey = reasonKey ∧ repair reversalFractionKey =
    reversalFractionKey := by decide +kernel
  have order : reversalFractionKey ≠ reasonKey := by decide +kernel
  rw [readBack, fractionMetadata_entries]
  simp [repairMember, SortedMap.ofList, SortedMap.get_insert, keys, order.symm, repair_of_valid
    (validUtf8_fractionText num den)]

section

variable {cfg : Config} {sign : Attestor} {env : Env} {s : Store} {o row : JournalRow}
  {jt : JournalTypeRow} {journalUID : GoString}
  {num den : Int} {reason key : GoString} {already : EntryDimKey → Decimal} {j : Journal}

theorem authorizeReversal_isOk_iff (inv : Reversible o s)
    (fraction : validateReversalFraction num den = .ok ()) (named : key ≠ [])
    (parsed : Uuid.parse journalUID = some o.uid) (original : o.reversalOf = none)
    (nonempty : s.listJournalEntries o.id ≠ [])
    (history : cumulativeReversedByDimension s o (s.listJournalEntries o.id) = .ok already)
    (type_ : s.jtByIDOrErr o.journalTypeID = .ok jt)
    (taken : s.getJournalByIdempotencyKey key = .ok (some row)) :
    (∃ pre, authorizeReversal cfg (some sign) env s journalUID num den reason key = .ok pre) ↔
      ∃ lines, reversalEntriesFor s (s.listJournalEntries o.id) already num den = .ok lines ∧
        (reversalInput jt key lines journalUID (fractionMetadata reason num den)).validate
        cfg.decodeQuotes env.now = .ok () := by
  have lookup := inv.keyed.wired.getJournalByUID inv.member
  have parsed : uidToPG journalUID = .ok o.uid := by rw [uidToPG, parsed]; rfl
  have attested (input : JournalInput) (same : input.idempotencyKey = key) (effectiveAt : Instant) :
      attestJournal cfg (some sign) s input effectiveAt = .ok ⟨[], [], [], row.authStatus, true⟩ := by
    simp only [attestJournal, same, taken, within, ok_bind, pure, Except.pure]
  simp only [authorizeReversal, authorize, bind_eq_ok, within_eq_ok, require_eq_ok,
    decide_eq_true_eq, orError_eq_ok, pure_eq_ok,
    Option.isNone_iff_eq_none]
  constructor
  · rintro ⟨_, _, -, _, -, pgUID, parsed', o', lookup', _, -, _, -, already', history', lines,
      derived, jt', type', _, valid, -⟩
    cases parsed.symm.trans parsed'
    cases lookup.symm.trans lookup'
    cases history.symm.trans history'
    cases type_.symm.trans type'
    exact ⟨lines, derived, valid⟩
  · rintro ⟨lines, derived, valid⟩
    exact ⟨_, (), fraction, (), named, o.uid, parsed, o, lookup, (), original, (), nonempty,
      already, history, lines, derived, jt, type_,
      (), valid, _, attested _ rfl _, rfl⟩

theorem fractionWithQueries_found (inv : Reversible o s)
    (parsed : Uuid.parse journalUID = some o.uid)
    (taken : s.getJournalByIdempotencyKey key = .ok (some row))
    (linked : row.reversalOf = some o.id)
    (metadata : row.metadata = readBack (fractionMetadata reason num den))
    (read : journalFromRow s row = .ok j)
    (pre : Option AuthorizedJournal) (fallback : JournalAuth) :
    reverseJournalFractionWithQueries cfg env s journalUID num den reason key pre fallback =
    .ok (s, j) ↔ validUtf8 reason = true := by
  have lookup := inv.keyed.wired.getJournalByUID inv.member
  have parsed : uidToPG journalUID = .ok o.uid := by rw [uidToPG, parsed]; rfl
  obtain ⟨reason_, fraction⟩ := fractionMetadata_stored reason num den
  simp only [reverseJournalFractionWithQueries, parsed, lookup, orError, taken, within, ok_bind,
    linked, metadata, reason_, fraction,
    Option.getD_some, read, require, if_true, and_true, repair_eq_self_iff, decide_eq_true_eq]
  split
  · next valid => simp [valid, pure, Except.pure]
  · next invalid => simp [invalid, bind, Except.bind]

end

namespace Call

def signs (sign : Attestor) : Call → Prop
  | reverse mode _ _ => mode = .pool (some sign)
  | fraction mode _ _ _ _ _ => mode = .pool (some sign)
  | _ => False

def repeatable : Call → Bool
  | fraction _ _ num den reason _ => num != den && validUtf8 reason
  | _ => false

end Call

section

variable {cfg : Config} {sign : Attestor} {env : Env} {s posted s' : Store}
  {o : JournalRow} {j : Journal}

theorem full_exhausts (inv : Reversible o s) {c : Call} (full : c.full = true)
    (target : c.target = some o.uid)
    (unused : ∀ j ∈ s.journals, j.idempotencyKey ≠ c.key) (ok : c.run cfg env s = .ok (posted, j))
    (run : Shared.Run (ApartStep cfg o.uid) posted s') : Reversible o s' ∧ Exhausted s' o.id := by
  cases Call.outcome ok with
  | replay r member key linked same => exact absurd key (unused r member)
  | fresh fresh valid key parsed remaining =>
    have linked := fresh.linked inv.keyed.wired inv.member (parsed.trans target)
    obtain ⟨already, history, lines⟩ := remaining full _ linked
    have exhausted := fresh.exhausts valid inv.keyed.wired inv.ceiling linked history lines
    have inv' := fresh.reversible valid inv
    obtain ⟨inv'', untouched⟩ := run_untouched inv' run
    obtain ⟨reversed, original⟩ := untouched.units inv'.member
    refine ⟨inv'', fun k => ?_⟩
    rw [reversed, original]
    exact exhausted k

theorem room_iff (inv : Reversible o s)
    (history : cumulativeReversedByDimension s o (s.listJournalEntries o.id) = .ok already)
    {units : EntryDimKey → Int} (share : ∀ k, (shareOf amounts k).val * 10 ^ 18 = (units k : ℚ))
    (within_ : ∀ k, k ∉ (s.listJournalEntries o.id).map EntryRow.dimKey → units k = 0) :
    Room (s.listJournalEntries o.id) already amounts ↔ ∀ k, reversedUnits s o.id k + units k ≤
    originalUnits s o.id k := by
  have scaled (k : EntryDimKey) : (already k).val + (shareOf amounts k).val ≤
    (entriesByDimension (s.listJournalEntries o.id) k).val ↔
      reversedUnits s o.id k + units k ≤ originalUnits s o.id k := by
    rw [← mul_le_mul_iff_of_pos_right (by norm_num : (0 : ℚ) < 10 ^ 18), add_mul, share,
      cumulativeReversed_ok history,
      val_entriesByDimension]
    exact_mod_cast Iff.rfl
  constructor
  · intro room k
    by_cases used : k ∈ (s.listJournalEntries o.id).map EntryRow.dimKey
    · exact (scaled k).mp (room k used)
    · rw [within_ k used, add_zero]
      exact inv.ceiling o.id k
  · intro below k _
    exact (scaled k).mpr (below k)

theorem share_repeat_iff (inv : Reversible o s) (part : num ≠ den)
    (target : Uuid.parse journalUID = some o.uid)
    (unused : ∀ j ∈ s.journals, j.idempotencyKey ≠ key)
    (ok : reverseJournalFraction cfg (.pool (some sign)) env s journalUID num den reason key =
      .ok (posted, j))
    (run : Shared.Run (ApartStep cfg o.uid) posted s') (env' : Env) :
    reverseJournalFraction cfg (.pool (some sign)) env' s' journalUID num den reason key =
    .ok (s', j) ↔ validUtf8 reason = true ∧
        ∀ k, reversedUnits posted o.id k + (reversedUnits posted o.id k - reversedUnits s o.id k) ≤
        originalUnits posted o.id k := by
  obtain ⟨fraction, named, o', already, lines, jt, effectiveAt, auth, g, row, rows, parsed, lookup,
    original, nonempty, derived, type_,
    valid, fresh, read⟩ := fraction_posted unused ok
  have same : o' = o := by
    have uids : o'.uid = o.uid := Option.some.inj (parsed.symm.trans target)
    rw [uids, inv.keyed.wired.getJournalByUID inv.member] at lookup
    exact (Option.some.inj lookup).symm
  subst same
  rw [reversalEntriesFor, if_neg part] at derived
  obtain ⟨amounts, shares, -, made, -⟩ := scaledEntries_eq_ok.mp derived
  -- The state of the repetition: the journal, its history and the rates are those after the first
  -- call.
  have inv' := fresh.reversible valid inv
  obtain ⟨inv'', untouched⟩ := run_untouched inv' run
  have later := (fresh.later inv.keyed.wired).trans untouched.later
  have rates := fresh.rates.trans untouched.rates
  have entries := later.entries o' inv.member
  obtain ⟨reversed, original_⟩ := untouched.units inv'.member
  obtain ⟨-, fits, -, -, rowEq⟩ := insertJournal_ok fresh.journal
  have linked : row.reversalOf = some o'.id := fresh.linked inv.keyed.wired inv.member target
  have taken : s'.getJournalByIdempotencyKey key = .ok (some row) := by
    have found := untouched.later.keys _ row fresh.found
    simp only [reversalInput] at found fits
    simp [Store.getJournalByIdempotencyKey, textParam, fits, require, found, pure, Except.pure]
  obtain ⟨jt', type', uid⟩ := later.types _ jt type_
  obtain ⟨already', history⟩ := inv''.cumulative
  -- What the first call took back.
  have units (k : EntryDimKey) : sumAt EntryRow.reversedKey (·.amount) rows k =
    reversedUnits posted o'.id k - reversedUnits s o'.id k := by
    rw [fresh.reversedUnits_eq inv.keyed.wired, if_pos linked]
    omega
  have nothing (k : EntryDimKey) (unused : k ∉ (s'.listJournalEntries o'.id).map EntryRow.dimKey) :
      reversedUnits posted o'.id k - reversedUnits s o'.id k = 0 := by
    have above := inv'.ceiling o'.id k
    have nonneg : 0 ≤ reversedUnits s o'.id k :=
      sumAt_nonneg (fun e member => (inv.keyed.wired.positive e (List.mem_of_mem_filter member)).le) k
    have more : 0 ≤ sumAt EntryRow.reversedKey (·.amount) rows k :=
      sumAt_nonneg (fun e member => (fresh.rows_positive e member).le) k
    rw [← original_, originalUnits, sumAt_of_not_mem unused] at above
    rw [units] at more
    omega
  have room := room_iff inv'' history
    (fun k => by rw [fresh.share_units valid inv.keyed.wired made, units]) nothing
  rw [reversed, original_] at room
  have again (lines' : List EntryInput) : reversalEntriesFor s' (s'.listJournalEntries o'.id)
    already' num den = .ok lines' ↔
      Room (s'.listJournalEntries o'.id) already' amounts ∧ lines' = lines := by
    rw [reversalEntriesFor, if_neg part, entries]
    exact scaledEntries_repeat rates shares derived
  have authorized : (∃ pre, authorizeReversal cfg (some sign) env' s' journalUID num den
    reason key = .ok pre) ↔
      Room (s'.listJournalEntries o'.id) already' amounts := by
    rw [authorizeReversal_isOk_iff inv'' fraction named target original (entries ▸ nonempty)
      history type' taken]
    have sameInput : reversalInput jt' key lines journalUID (fractionMetadata reason num den) =
        reversalInput jt key lines journalUID (fractionMetadata reason num den) := by
      rw [reversalInput, reversalInput, uid]
    constructor
    · rintro ⟨lines', derived', -⟩
      exact ((again lines').mp derived').1
    · intro fits
      refine ⟨lines, (again lines).mpr ⟨fits, rfl⟩, ?_⟩
      rw [sameInput, validate_now rfl env'.now env.now]
      exact valid
  have answered (pre : AuthorizedJournal) : reverseJournalFractionWithQueries cfg env' s' journalUID
    num den reason key (some pre)
      (.unsigned .unsignedNoAttestor) = .ok (s', j) ↔ validUtf8 reason = true :=
    fractionWithQueries_found inv'' target taken linked (by rw [rowEq]; rfl)
      (journalFromRow_later untouched.later read) _ _
  rw [← room, ← authorized]
  simp only [reverseJournalFraction, fraction, bind_eq_ok, within_eq_ok,
    require_eq_ok, decide_eq_true_eq]
  constructor
  · rintro ⟨_, -, _, -, pre, passed, found⟩
    exact ⟨(answered pre).mp found, pre, passed⟩
  · rintro ⟨valid, pre, passed⟩
    exact ⟨(), trivial, (), named, pre, passed, (answered pre).mpr valid⟩

/-- A signed reversal is posted, and other operations follow that reverse other journals. Repeated,
the call returns its journal exactly if it asked for a share, with a reason that is valid UTF-8, and
on every dimension there is room for that share once more. A reversal of everything is never
answered again. -/
theorem signed_reversal_replay_iff {c : Call} (inv : Reversible o s) (signs : c.signs sign)
    (target : c.target = some o.uid)
    (unused : ∀ j ∈ s.journals, j.idempotencyKey ≠ c.key) (ok : c.run cfg env s = .ok (posted, j))
    (run : Shared.Run (ApartStep cfg o.uid) posted s') (env' : Env) : c.run cfg env' s' =
    .ok (s', j) ↔ c.repeatable = true ∧
      ∀ k, reversedUnits posted o.id k + (reversedUnits posted o.id k - reversedUnits s o.id k) ≤
      originalUnits posted o.id k := by
  cases c with
  | post mode input => exact absurd signs id
  | postWith input effectiveAt auth => exact absurd signs id
  | reverse mode journalUID reason =>
    cases signs
    obtain ⟨inv', exhausted⟩ := full_exhausts inv rfl target unused ok run
    simp only [Call.run, reverseJournal, Call.repeatable, bind_eq_ok, within_eq_ok,
      Bool.false_eq_true, false_and, iff_false]
    rintro ⟨pre, passed, -⟩
    exact authorizeReversal_exhausted inv' exhausted target rfl pre passed
  | fraction mode journalUID num den reason key =>
    cases signs
    by_cases part : num = den
    · obtain ⟨inv', exhausted⟩ := full_exhausts inv (by simpa [Call.full] using part) target unused ok run
      simp only [Call.run, reverseJournalFraction, Call.repeatable, part, bne_self_eq_false,
        Bool.false_and, bind_eq_ok, within_eq_ok,
        Bool.false_eq_true, false_and, iff_false]
      rintro ⟨_, -, _, -, pre, passed, -⟩
      exact authorizeReversal_exhausted inv' exhausted target rfl pre passed
    · have asked : (Call.fraction (.pool (some sign)) journalUID num den reason key).repeatable = validUtf8 reason := by
        simp [Call.repeatable, part]
      rw [asked]
      exact share_repeat_iff inv part target unused ok run env'

end

namespace Sample

def signedCall (num den : Int) : Call := .fraction (.pool (some ReserverSample.signer)) journal num
    den (lit "r") (lit "k")

def signedWhole : Call := .reverse (.pool (some ReserverSample.signer)) journal (lit "r")

def after (c : Call) : Store := okOr store ((c.run signing (env 6) signedDeposit).map Prod.fst)

theorem signedDeposit_step : ∃ j, (Call.post (.pool (some ReserverSample.signer)) deposit).run
    signing (env 5) store =
    .ok (signedDeposit, j) := by
  have ok : ((Call.post (.pool (some ReserverSample.signer)) deposit).run signing
    (env 5) store).isOk = true := by decide +kernel
  obtain ⟨⟨s, j⟩, posted⟩ := isOk_iff.mp ok
  refine ⟨j, ?_⟩
  have same : signedDeposit = s := by
    unfold signedDeposit
    have posted : postJournal signing (.pool (some ReserverSample.signer)) (env 5) store deposit =
      .ok (s, j) := posted
    rw [posted]
    rfl
  rw [same]
  exact posted

theorem reversible (member : o ∈ signedDeposit.journals) : Reversible o signedDeposit := by
  obtain ⟨j, ok⟩ := signedDeposit_step
  have step : LedgerStep signing store signedDeposit := .inl ⟨_, _, j, ok⟩
  have inv := empty.inv.call (Call.outcome ok)
  exact ⟨(step.keeps ⟨wired, primaryKeys, List.nodup_nil⟩).1, inv.ceiling, member⟩

theorem room_of_keys {posted : Store} {i : Nat}
    (room : ∀ k ∈ (posted.listJournalEntries i).map EntryRow.dimKey ++
      (posted.listReversalEntriesByOriginal i).map EntryRow.reversedKey ++
        (s.listReversalEntriesByOriginal i).map EntryRow.reversedKey,
      reversedUnits posted i k + (reversedUnits posted i k - reversedUnits s i k) ≤
      originalUnits posted i k) (k : EntryDimKey) :
    reversedUnits posted i k + (reversedUnits posted i k - reversedUnits s i k) ≤
    originalUnits posted i k := by
  by_cases used : k ∈ (posted.listJournalEntries i).map EntryRow.dimKey ++
      (posted.listReversalEntriesByOriginal i).map EntryRow.reversedKey ++
        (s.listReversalEntriesByOriginal i).map EntryRow.reversedKey
  · exact room k used
  · simp only [List.mem_append, not_or] at used
    rw [reversedUnits, reversedUnits, originalUnits, sumAt_of_not_mem used.1.1,
      sumAt_of_not_mem used.1.2, sumAt_of_not_mem used.2]
    rfl

end Sample

theorem signed_reversal_replay_quarter : ∃ j,
    (Sample.signedCall 1 4).run Sample.signing (Sample.env 7)
    (Sample.after (Sample.signedCall 1 4)) =
      .ok (Sample.after (Sample.signedCall 1 4), j) := by
  have posts : ((Sample.signedCall 1 4).run Sample.signing (Sample.env 6) Sample.signedDeposit).isOk
    = true := by decide +kernel
  have posted : ∃ o ∈ Sample.signedDeposit.journals, (Sample.signedCall 1 4).target = some o.uid ∧
    o.id = 1 := by decide +kernel
  obtain ⟨o, member, target, id⟩ := posted
  obtain ⟨⟨s, j⟩, ok⟩ := isOk_iff.mp posts
  have same : Sample.after (Sample.signedCall 1 4) = s := by
    rw [Sample.after, ok]
    rfl
  refine ⟨j, ?_⟩
  rw [← same] at ok
  have signs : (Sample.signedCall 1 4).signs ReserverSample.signer := rfl
  refine (signed_reversal_replay_iff (Sample.reversible member) signs target (by decide +kernel) ok
    .refl (Sample.env 7)).mpr
    ⟨by decide +kernel, fun k => ?_⟩
  rw [id]
  exact Sample.room_of_keys (by decide +kernel) k

/-- Repeated with nothing in between, a reversal of everything is refused as already done, and a
reversal of two thirds as more than is left. -/
theorem signed_reversal_replay_fails :
    (Sample.signedWhole.run Sample.signing (Sample.env 6) Sample.signedDeposit).isOk = true ∧
    (Sample.signedWhole.run Sample.signing (Sample.env 7) (Sample.after Sample.signedWhole)).map
    Prod.snd = .error ⟨.conflict,
        "postgres: reverse journal: postgres: authorize reversal: postgres: reverse journal fraction: journal is already fully reversed"⟩ ∧
    ((Sample.signedCall 2 3).run Sample.signing (Sample.env 6) Sample.signedDeposit).isOk = true ∧
    ((Sample.signedCall 2 3).run Sample.signing (Sample.env 7)
      (Sample.after (Sample.signedCall 2 3))).map Prod.snd = .error ⟨.conflict,
        "postgres: reverse journal fraction: postgres: authorize reversal: postgres: reverse journal fraction: dimension (holder %d, currency %d, classification %d, %s): cumulative reversed %s + this reversal's %s would exceed original amount %s"⟩ :=
  ⟨by decide +kernel, by decide +kernel, by decide +kernel, by decide +kernel⟩

/-- A posted journal is final: it keeps its row, its key and its entries, which net to zero in every
currency. -/
theorem posted_journals_final {cfg : Config} {s s' : Store} (keyed : Keyed s)
    (run : Shared.Run (LedgerStep cfg) s s')
    {j : JournalRow} (posted : j ∈ s.journals) :
    j ∈ s'.journals ∧ (∀ k ∈ s'.journals, k.idempotencyKey = j.idempotencyKey → k = j) ∧
      s'.listJournalEntries j.id = s.listJournalEntries j.id ∧
      ∀ currency, currencyNet (s'.listJournalEntries j.id) currency = 0 := by
  have later := run_later keyed run
  have wired := ((keyed_preserved cfg).run keyed run).wired
  have kept := later.members j posted
  exact ⟨kept, fun k member same => List.inj_on_of_nodup_map wired.keys member kept same,
    later.entries j posted, wired.balanced j kept⟩

open Sample in
theorem posted_journals_final_reversed : ∃ s' j, (signedCall 1 4).run signing
    (env 6) signedDeposit = .ok (s', j) ∧
    ∀ o ∈ signedDeposit.journals, o ∈ s'.journals := by
  have posts : ((signedCall 1 4).run signing (env 6) signedDeposit).isOk = true := by decide +kernel
  obtain ⟨⟨s', j⟩, ok⟩ := isOk_iff.mp posts
  exact ⟨s', j, ok, fun o posted =>
    (posted_journals_final (reversible posted).keyed (.single (.inl ⟨_, _, j, ok⟩)) posted).1⟩

end Ledger.Postgres
