import Ledger.Postgres.PostingSpec

namespace Ledger.Postgres

open Core Shared

structure CatalogOk (s : Store) : Prop where
  currencies : (s.currencies.map (·.uid)).Nodup
  classifications : (s.ledger.classifications.map (·.uid)).Nodup
  journalTypes : (s.journalTypes.map (·.uid)).Nodup

structure Wired (s : Store) : Prop where
  ids : ∀ j ∈ s.journals, j.id < s.nextJournalID
  distinct : (s.journals.map (·.id)).Nodup
  uids : (s.journals.map (·.uid)).Nodup
  keys : (s.journals.map (·.idempotencyKey)).Nodup
  owned : ∀ e ∈ s.ledger.entries, e.journal < s.nextJournalID
  positive : ∀ e ∈ s.ledger.entries, 0 < e.amount
  originals : ∀ r ∈ s.journals, ∀ i, r.reversalOf = some i → ∃ j ∈ s.journals, j.id =
    i ∧ j.reversalOf = none
  balanced : ∀ j ∈ s.journals, ∀ currency, currencyNet (s.listJournalEntries j.id) currency = 0
  catalog : CatalogOk s

variable {s : Store} {j : JournalRow}

theorem getJournalByUID_mem {uid : Uuid} (found : s.getJournalByUID uid = some j) :
    j ∈ s.journals ∧ j.uid = uid :=
  ⟨List.mem_of_find?_eq_some found, by simpa using List.find?_some found⟩

theorem find_of_nodup {α κ : Type} [DecidableEq κ] {l : List α} {f : α → κ}
    (nodup : (l.map f).Nodup) {a : α}
    (member : a ∈ l) : l.find? (f · == f a) = some a := by
  cases found : l.find? (f · == f a) with
  | none =>
    have differs := List.find?_eq_none.mp found a member
    simp at differs
  | some b =>
    have same : f b = f a := by simpa using List.find?_some found
    rw [List.inj_on_of_nodup_map nodup (List.mem_of_find?_eq_some found) member same]

theorem Wired.getJournalByUID (wired : Wired s) (member : j ∈ s.journals) :
    s.getJournalByUID j.uid = some j :=
  find_of_nodup wired.uids member

theorem checkReversalOf_ok {uid : GoString} {resolved : List ResolvedEntry}
    {found : Option JournalRow}
    (ok : checkReversalOf s uid resolved = .ok found) :
    (uid = [] ∧ found = none) ∨ ∃ pgUID original, uid ≠ [] ∧ Uuid.parse uid = some pgUID ∧
      s.getJournalByUID pgUID = some original ∧ validateReversalOfInput s original resolved =
      .ok () ∧ found = some original := by
  unfold checkReversalOf at ok
  split at ok
  · next empty => exact .inl ⟨empty, (Except.ok.inj ok).symm⟩
  · next nonempty =>
    simp only [bind_eq_ok, orError_eq_ok, pure_eq_ok] at ok
    obtain ⟨pgUID, parsed, original, lookup, _, valid, rfl⟩ := ok
    exact .inr ⟨pgUID, original, nonempty, parsed, lookup, valid, rfl⟩

theorem validateReversalOfInput_original {original : JournalRow} {resolved : List ResolvedEntry}
    (ok : validateReversalOfInput s original resolved = .ok ()) : original.reversalOf = none := by
  simp only [validateReversalOfInput, bind_eq_ok, require_eq_ok, Option.isNone_iff_eq_none] at ok
  exact ok.choose_spec.1

namespace Fresh

variable {env : Env} {s s' : Store} {input : JournalInput} {effectiveAt : Instant}
  {auth : JournalAuth} {g : Gated}
  {row : JournalRow} {rows : List EntryRow}

section

variable (fresh : Fresh env s input effectiveAt auth g row rows s')
include fresh

theorem journals_eq : s'.journals = s.journals ++ [row] := by
  obtain ⟨_, _, rfl⟩ := fresh.appended
  rfl

theorem entries_eq : s'.ledger.entries = s.ledger.entries ++ rows := by
  obtain ⟨_, _, rfl⟩ := fresh.appended
  exact (enqueueAll_frame _ _ _).1

theorem catalog_eq : s'.currencies = s.currencies ∧ s'.ledger.classifications =
    s.ledger.classifications ∧
      s'.journalTypes = s.journalTypes := by
  obtain ⟨_, _, rfl⟩ := fresh.appended
  exact ⟨rfl, (enqueueAll_frame _ _ _).2.1, rfl⟩

theorem nextJournalID_eq : s'.nextJournalID = s.nextJournalID + 1 := by
  obtain ⟨_, _, rfl⟩ := fresh.appended
  rfl

theorem row_id : row.id = s.nextJournalID := by
  rw [(insertJournal_ok fresh.journal).2.2.2.2]

theorem row_key : row.idempotencyKey = input.idempotencyKey := by
  rw [(insertJournal_ok fresh.journal).2.2.2.2]

theorem row_reversalOf : row.reversalOf = g.reversalOf.map (·.id) := by
  rw [(insertJournal_ok fresh.journal).2.2.2.2]

theorem row_uid : ∀ j ∈ s.journals, j.uid ≠ row.uid := by
  obtain ⟨unused, -, -, -, rowEq⟩ := insertJournal_ok fresh.journal
  intro j member same
  have differs := List.find?_eq_none.mp unused j member
  rw [rowEq] at same
  simp [same] at differs

theorem rowOf : List.Forall₂ (RowOf row) g.resolved rows := insertEntries_ok fresh.entries

theorem rows_journal : ∀ e ∈ rows, e.journal = row.id := by
  intro e member
  obtain ⟨_, -, written⟩ := forall₂_of_mem_right fresh.rowOf member
  exact written.journal

theorem rows_positive : ∀ e ∈ rows, 0 < e.amount := by
  intro e member
  obtain ⟨_, -, written⟩ := forall₂_of_mem_right fresh.rowOf member
  exact written.positive

theorem listJournalEntries_eq (i : Nat) : s'.listJournalEntries i = s.listJournalEntries i ++
    if i = row.id then rows else [] := by
  simp only [Store.listJournalEntries, fresh.entries_eq, List.filter_append]
  congr 1
  split
  · next same =>
    rw [List.filter_eq_self]
    intro e member
    simp [fresh.rows_journal e member, same]
  · next other =>
    rw [List.filter_eq_nil_iff]
    intro e member
    simp [fresh.rows_journal e member, Ne.symm other]

theorem listJournalEntries_new (wired : Wired s) : s'.listJournalEntries row.id = rows := by
  rw [fresh.listJournalEntries_eq, if_pos rfl]
  have none_ : s.listJournalEntries row.id = [] := by
    rw [Store.listJournalEntries, List.filter_eq_nil_iff]
    intro e member
    have below := wired.owned e member
    have next := fresh.row_id
    simp only [beq_iff_eq]
    omega
  rw [none_, List.nil_append]

theorem listReversals_eq (i : Nat) : s'.listReversalsByOriginalJournalID i =
      s.listReversalsByOriginalJournalID i ++ if row.reversalOf = some i then [row] else [] := by
  simp only [Store.listReversalsByOriginalJournalID, fresh.journals_eq, List.filter_append]
  congr 1
  by_cases linked : row.reversalOf = some i <;> simp [linked]

theorem listReversalEntries_eq (wired : Wired s) (i : Nat) : s'.listReversalEntriesByOriginal i =
      s.listReversalEntriesByOriginal i ++ if row.reversalOf = some i then rows else [] := by
  have next := fresh.row_id
  simp only [Store.listReversalEntriesByOriginal, fresh.entries_eq,
    fresh.listReversals_eq, List.filter_append]
  congr 1
  · apply List.filter_congr
    intro e member
    have below := wired.owned e member
    have other : row.id ≠ e.journal := by omega
    split <;> simp [other]
  · -- The old journals have other ids than the new rows.
    have others : ((s.listReversalsByOriginalJournalID i).any fun j => j.id == row.id) = false := by
      rw [List.any_eq_false]
      intro j member
      have below := wired.ids j (List.mem_of_mem_filter member)
      simp only [beq_iff_eq]
      omega
    split
    · rw [List.filter_eq_self]
      intro e member
      simp [fresh.rows_journal e member]
    · rw [List.filter_eq_nil_iff]
      intro e member
      simp [fresh.rows_journal e member, others]

theorem original_of_link {i : Nat} (linked : row.reversalOf = some i) :
    ∃ original, s.getJournalByUID original.uid = some original ∧ original.id = i ∧
      Uuid.parse input.reversalOfUID = some original.uid ∧ g.reversalOf = some original ∧
      validateReversalOfInput s original g.resolved = .ok () := by
  obtain ⟨-, -, -, check, -⟩ := gates_ok fresh.gated
  rw [fresh.row_reversalOf] at linked
  rcases checkReversalOf_ok check with ⟨-, none_⟩ | ⟨pgUID, original, -, parsed,
    lookup, valid, found⟩
  · rw [none_] at linked
    cases linked
  · rw [found, Option.map_some, Option.some.injEq] at linked
    have uid := (getJournalByUID_mem lookup).2
    exact ⟨original, uid ▸ lookup, linked, uid ▸ parsed, found, valid⟩

theorem wired (wired : Wired s) : Wired s' := by
  have next := fresh.row_id
  have members : ∀ j, j ∈ s'.journals ↔ j ∈ s.journals ∨ j = row := by
    intro j
    simp [fresh.journals_eq]
  have distinct {α : Type} (f : JournalRow → α) (old : (s.journals.map f).Nodup)
    (new : ∀ j ∈ s.journals, f j ≠ f row) :
      (s'.journals.map f).Nodup := by
    rw [fresh.journals_eq, List.map_append, List.map_singleton, List.nodup_append]
    refine ⟨old, by simp, ?_⟩
    intro a member b single same
    obtain ⟨j, inside, rfl⟩ := List.mem_map.mp member
    exact new j inside (by simpa using same.trans (List.mem_singleton.mp single))
  constructor
  · intro j member
    rw [fresh.nextJournalID_eq]
    rcases (members j).mp member with old | rfl
    · have := wired.ids j old
      omega
    · omega
  · apply distinct _ wired.distinct
    intro j member
    have := wired.ids j member
    omega
  · exact distinct _ wired.uids fresh.row_uid
  · exact distinct _ wired.keys fun j member => fresh.row_key ▸ fresh.unused j member
  · intro e member
    rw [fresh.nextJournalID_eq]
    rw [fresh.entries_eq] at member
    rcases List.mem_append.mp member with old | new
    · have := wired.owned e old
      omega
    · have := fresh.rows_journal e new
      omega
  · intro e member
    rw [fresh.entries_eq] at member
    rcases List.mem_append.mp member with old | new
    · exact wired.positive e old
    · exact fresh.rows_positive e new
  · intro r member i linked
    rcases (members r).mp member with old | rfl
    · obtain ⟨j, inside, rest⟩ := wired.originals r old i linked
      exact ⟨j, (members j).mpr (.inl inside), rest⟩
    · obtain ⟨original, lookup, id, -, -, valid⟩ := fresh.original_of_link linked
      exact ⟨original, (members _).mpr (.inl (getJournalByUID_mem lookup).1), id,
        validateReversalOfInput_original valid⟩
  · intro j member currency
    rcases (members j).mp member with old | rfl
    · have other : j.id ≠ row.id := by
        have := wired.ids j old
        omega
      rw [fresh.listJournalEntries_eq, if_neg other, List.append_nil]
      exact wired.balanced j old currency
    · rw [fresh.listJournalEntries_new wired]
      exact verifyJournalBalanced_eq_ok.mp fresh.balanced currency
  · obtain ⟨currencies, classifications, journalTypes⟩ := fresh.catalog_eq
    exact ⟨currencies ▸ wired.catalog.currencies, classifications ▸ wired.catalog.classifications,
      journalTypes ▸ wired.catalog.journalTypes⟩

end

end Fresh

structure Written (s : Store) (row : JournalRow) (e : EntryInput) (r : EntryRow) : Prop where
  rowOf : ∃ resolved, RowOf row resolved r ∧ resolved.input = e
  currency : ∃ cur, s.currencyByUIDOrErr e.currencyUID = .ok cur ∧ r.dim.currency = cur.id
  classification : ∃ cls, s.classByUIDOrErr e.classificationUID = .ok cls ∧
    r.dim.classification = cls.id
  holder : r.dim.holder = e.accountHolder

theorem Fresh.written {env : Env} {s' : Store} {input : JournalInput} {effectiveAt : Instant}
    {auth : JournalAuth}
    {g : Gated} {row : JournalRow} {rows : List EntryRow}
    (fresh : Fresh env s input effectiveAt auth g row rows s') :
    List.Forall₂ (Written s row) input.entries rows := by
  have resolved := (gates_ok fresh.gated).1
  rw [resolveEntries, collect_eq_ok] at resolved
  -- An entry, the entry as resolved and the row are related place by place.
  have chain : ∀ (entries : List EntryInput) (resolvedEntries : List ResolvedEntry)
    (rows : List EntryRow),
      List.Forall₂ (fun e r => resolveEntry s e = .ok r) entries resolvedEntries →
        List.Forall₂ (RowOf row) resolvedEntries rows → List.Forall₂ (Written s row) entries rows := by
    intro entries
    induction entries with
    | nil =>
      intro resolvedEntries rows first second
      cases first
      cases second
      exact .nil
    | cons e rest ih =>
      intro resolvedEntries rows first second
      cases first with
      | cons head tail =>
        cases second with
        | cons rowHead rowTail =>
          refine .cons ?_ (ih _ _ tail rowTail)
          obtain ⟨cur, cls, currency, classification, rfl⟩ := resolveEntry_ok head
          have dim := rowHead.dim
          exact ⟨⟨_, rowHead, rfl⟩, ⟨cur, currency, by rw [dim]; rfl⟩, ⟨cls, classification, by rw [dim]; rfl⟩,
            by rw [dim]; rfl⟩
  exact chain _ _ _ resolved fresh.rowOf

end Ledger.Postgres
