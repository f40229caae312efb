import Ledger.Postgres.SnapshotSpec
import Ledger.Shared.Runs

namespace Ledger.Postgres

open Core Shared

structure SnapshotSystem where
  tables : SnapshotStore
  -- The dates for which a run of `CreateDailySnapshot` has completed.
  completed : List Int

def appendedEntries (s s' : Store) : List EntryRow := s'.ledger.entries.drop s.ledger.entries.length

inductive SnapshotStep (cfg : Config) (postable : SnapshotSystem → Store → Prop)
    (snapshotable : SnapshotSystem → Int → Prop) :
    SnapshotSystem → SnapshotSystem → Prop
  | post (s : SnapshotSystem) (env : Env) (c : Call) (store : Store) (j : Journal)
      (ok : c.run cfg env s.tables.store = .ok (store, j)) (allowed : postable s store) :
      SnapshotStep cfg postable snapshotable s { s with tables := { s.tables with store := store } }
  | snapshot (s : SnapshotSystem) (clock : Nat → Int) (t : Instant) (tables : SnapshotStore)
      (ok : createDailySnapshot clock s.tables t = .ok tables) (allowed : snapshotable s (normalizeDay t)) :
      SnapshotStep cfg postable snapshotable s ⟨tables, normalizeDay t :: s.completed⟩

/-- Every entry that counts for a completed date finds a row of its (holder, currency) and date that
was written before it. -/
def PostsRecorded (s : SnapshotSystem) (store : Store) : Prop :=
  ∀ e ∈ appendedEntries s.tables.store store, ∀ date ∈ s.completed, e.effectiveAt < endOfDay date →
    ∃ dim r, dim.pair = e.dim.pair ∧ snapshotAt s.tables.snapshots dim date = some r ∧
      r.createdAt < e.createdAt

/-- A run may skip a dimension only where what the date holds for it, zero without a row, is its
balance, or where the pair is recomputed anyway. -/
def SkipsOnlyEqual (s : SnapshotSystem) (date : Int) : Prop :=
  ∀ pair, Overtaken s.tables pair date ∨ ∀ e ∈ pairEntriesBefore s.tables.store.ledger
    pair (endOfDay date),
    Skips s.tables.snapshots e.dim date (balanceOfDim s.tables.store.ledger (endOfDay date) e.dim) →
      cachedBalance s.tables.snapshots e.dim date = balanceOfDim s.tables.store.ledger (endOfDay date) e.dim

structure SnapshotSystem.Initial (s : SnapshotSystem) : Prop where
  empty : EmptyLedger s.tables.store
  snapshots : s.tables.snapshots = []
  completed : s.completed = []

variable {c : Call} {j : Journal} {cfg : Config} {db : LedgerTables} {rows : List EntryRow}

theorem post_frame {env : Env} {s s' : Store} (ok : c.run cfg env s = .ok (s', j)) :
    s'.currencies = s.currencies ∧ s'.ledger.classifications = s.ledger.classifications ∧
      s'.journalTypes = s.journalTypes ∧ ∃ rows, s'.ledger.entries = s.ledger.entries ++ rows ∧
        ∀ e ∈ rows, (∃ cur, s.currencyByIDOrErr e.dim.currency = .ok cur) ∧
          ∃ cls, s.ledger.getClassification e.dim.classification = some cls := by
  rcases Call.outcome ok with ⟨-, -, -, -, rfl⟩ | ⟨fresh, -, -, -, -⟩
  · exact ⟨rfl, rfl, rfl, [], by simp, by simp⟩
  · obtain ⟨currencies, classifications, types⟩ := fresh.catalog_eq
    refine ⟨currencies, classifications, types, _, fresh.entries_eq, fun e member => ?_⟩
    obtain ⟨input, -, written⟩ := forall₂_of_mem_right fresh.written member
    obtain ⟨cur, byUID, curID⟩ := written.currency
    obtain ⟨cls, classByUID, clsID⟩ := written.classification
    simp only [Store.currencyByUIDOrErr, Store.classByUIDOrErr, orError_eq_ok] at byUID classByUID
    constructor
    · have known : (s.currencies.find? (·.id == e.dim.currency)).isSome :=
        List.find?_isSome.mpr ⟨cur, List.mem_of_find?_eq_some byUID, by simp [curID]⟩
      obtain ⟨row, found⟩ := Option.isSome_iff_exists.mp known
      exact ⟨row, by simp [Store.currencyByIDOrErr, found, orError]⟩
    · have known : (s.ledger.classifications.find? (·.id == e.dim.classification)).isSome :=
        List.find?_isSome.mpr ⟨cls, List.mem_of_find?_eq_some classByUID, by simp [clsID]⟩
      exact Option.isSome_iff_exists.mp known

variable {db' : LedgerTables}

theorem getClassification_congr (same : db'.classifications = db.classifications) (id : Nat) :
    db'.getClassification id = db.getClassification id := by
  rw [LedgerTables.getClassification, same, LedgerTables.getClassification]

theorem balanceOfDim_append (classes : db'.classifications = db.classifications)
    (entries : db'.entries = db.entries ++ rows)
    {dim : Dimension} {cutoff : Int}
    (elsewhere : ∀ e ∈ rows, e.dim = dim → cutoff ≤ e.effectiveAt) :
    balanceOfDim db' cutoff dim = balanceOfDim db cutoff dim := by
  have none_ : rows.filter (fun e => e.dim == dim && decide (e.effectiveAt < cutoff)) = [] := by
    rw [List.filter_eq_nil_iff]
    intro e member
    have late := elsewhere e member
    simp only [Bool.and_eq_true, beq_iff_eq, decide_eq_true_eq, not_and, not_lt]
    exact late
  have same : entriesBefore db' dim cutoff = entriesBefore db dim cutoff := by
    rw [entriesBefore, entries, List.filter_append, none_, List.append_nil, entriesBefore]
  rw [balanceOfDim, balanceOfDim, getClassification_congr classes]
  cases db.getClassification dim.classification with
  | none => rfl
  | some cls => simp only [balanceBefore, same]

theorem pairEntriesBefore_append (entries : db'.entries = db.entries ++ rows) {pair : Pair}
    {cutoff : Int} {e : EntryRow} :
    e ∈ pairEntriesBefore db' pair cutoff ↔
      e ∈ pairEntriesBefore db pair cutoff ∨ e ∈ rows ∧ e.dim.pair = pair ∧ e.effectiveAt < cutoff := by
  simp only [mem_pairEntriesBefore, entries, List.mem_append]
  tauto

structure SnapshotInv (s : SnapshotSystem) : Prop where
  ok : SnapshotsOk s.tables
  good : ∀ date ∈ s.completed, ∀ pair, Overtaken s.tables pair date ∨ Cached s.tables pair date

variable {s : SnapshotSystem}

theorem SnapshotSystem.Initial.inv (initial : s.Initial) : SnapshotInv s where
  ok := ⟨initial.empty.catalog, by simp [initial.empty.entries],
    by simp [SnapshotKeys, initial.snapshots],
    by simp [initial.snapshots]⟩
  good := by simp [initial.completed]

theorem SnapshotInv.post {env : Env} {store : Store} (inv : SnapshotInv s)
    (ok : c.run cfg env s.tables.store = .ok (store, j))
    (recorded : PostsRecorded s store) :
    SnapshotInv { s with tables := { s.tables with store := store } } := by
  obtain ⟨currencies, classes, types, rows, entries, known⟩ := post_frame ok
  obtain ⟨catalog, oldKnown, keys, oldRows⟩ := inv.ok
  refine ⟨⟨?_, ?_, keys, ?_⟩, fun date completed pair => ?_⟩
  · exact ⟨currencies ▸ catalog.currencies, classes ▸ catalog.classifications, types ▸
      catalog.journalTypes⟩
  · intro e member
    rw [entries] at member
    rw [Store.currencyByIDOrErr, currencies, getClassification_congr classes]
    rcases List.mem_append.mp member with old | new
    · exact oldKnown e old
    · exact known e new
  · intro r member
    obtain ⟨e, inside, same⟩ := oldRows r member
    exact ⟨e, by rw [entries]; exact List.mem_append_left _ inside, same⟩
  · by_cases backdated : ∃ e ∈ rows, e.dim.pair = pair ∧ e.effectiveAt < endOfDay date
    · -- The new entry is later than some row of the date.
      obtain ⟨e, new, same, before⟩ := backdated
      have appended : e ∈ appendedEntries s.tables.store store := by
        rw [appendedEntries, entries, List.drop_left]
        exact new
      obtain ⟨dim, r, pairs, stored, later⟩ := recorded e appended date completed before
      exact .inl ⟨dim, r, pairs.trans same, stored, e, (pairEntriesBefore_append entries).mpr
        (.inr ⟨new, same, before⟩), later⟩
    · push Not at backdated
      rcases inv.good date completed pair with ⟨dim, r, same, stored, e, entry, later⟩ | cached
      · exact .inl ⟨dim, r, same, stored, e, (pairEntriesBefore_append entries).mpr (.inl entry), later⟩
      · refine .inr fun e entry => ?_
        rcases (pairEntriesBefore_append entries).mp entry with old | ⟨new, same, before⟩
        · rw [balanceOfDim_append classes entries fun e' new same => ?_]
          · exact cached e old
          · exact backdated e' new (by rw [same]; exact (mem_pairEntriesBefore.mp old).2.1)
        · exact absurd before (not_lt.mpr (backdated e new same))

theorem SnapshotInv.snapshot {clock : Nat → Int} {t : Instant} {tables : SnapshotStore}
    (inv : SnapshotInv s)
    (ok : createDailySnapshot clock s.tables t = .ok tables)
    (skips : SkipsOnlyEqual s (normalizeDay t)) :
    SnapshotInv ⟨tables, normalizeDay t :: s.completed⟩ := by
  obtain ⟨catalog, known, keys, oldRows⟩ := inv.ok
  have wrote := createDailySnapshot_ok catalog ok
  obtain ⟨store, snapshots⟩ := tables
  obtain rfl : store = s.tables.store := wrote.store
  have listed {e : EntryRow} {pair : Pair}
      (entry : e ∈ pairEntriesBefore s.tables.store.ledger pair (endOfDay (normalizeDay t))) :
      e.dim ∈ dimsBefore s.tables.store.ledger (endOfDay (normalizeDay t)) := by
    obtain ⟨member, -, before⟩ := mem_pairEntriesBefore.mp entry
    obtain ⟨cls, found⟩ := (known e member).2
    rw [dimsBefore, List.mem_insertionSort, List.mem_dedup]
    exact List.mem_map_of_mem (List.mem_filter.mpr ⟨member, by simp [before, found]⟩)
  refine ⟨⟨catalog, known, wrote.keys keys, fun r member => ?_⟩, fun date completed pair => ?_⟩
  · rcases wrote.rowDims r member with inside | ⟨old, oldMember, same⟩
    · rw [dimsBefore, List.mem_insertionSort, List.mem_dedup] at inside
      obtain ⟨e, entry, same⟩ := List.mem_map.mp inside
      exact ⟨e, (List.mem_filter.mp entry).1, same⟩
    · obtain ⟨e, entry, same'⟩ := oldRows old oldMember
      exact ⟨e, entry, same'.trans same⟩
  · by_cases today : date = normalizeDay t
    · subst today
      rcases skips pair with ⟨dim, r, same, stored, overtaken⟩ | skipped
      · -- Rows of the date keep their time of writing.
        left
        by_cases member : dim ∈ dimsBefore s.tables.store.ledger (endOfDay (normalizeDay t))
        · rcases wrote.written dim member with ⟨-, kept⟩ | ⟨-, r', stored', -, time⟩
          · exact ⟨dim, r, same, kept.trans stored, overtaken⟩
          · exact ⟨dim, r', same, stored', by rw [time r stored]; exact overtaken⟩
        · exact ⟨dim, r, same, (wrote.other dim _ fun both => member both.1).trans stored, overtaken⟩
      · refine .inr fun e entry => ?_
        rcases wrote.written e.dim (listed entry) with ⟨skip, kept⟩ | ⟨-, r, stored, value, -⟩
        · rw [cachedBalance, kept]
          exact skipped e entry skip
        · rw [cachedBalance, stored]
          exact value
    · have same (dim : Dimension) := wrote.other dim date fun both => today both.2
      have done : date ∈ s.completed := (List.mem_cons.mp completed).resolve_left today
      rcases inv.good date done pair with ⟨dim, r, pairs, stored, overtaken⟩ | cached
      · exact .inl ⟨dim, r, pairs, (same dim).trans stored, overtaken⟩
      · refine .inr fun e entry => ?_
        rw [cachedBalance, same]
        exact cached e entry

theorem SnapshotInv.step :
    Preserved (SnapshotStep cfg PostsRecorded SkipsOnlyEqual) SnapshotInv := by
  intro s s' inv step
  cases step with
  | post env c store j ok allowed => exact inv.post ok allowed
  | snapshot clock t tables ok allowed => exact inv.snapshot ok allowed

/-- In every run in which a journal that counts for a completed date is posted after some row of its
(holder, currency) and date was written, and no snapshot run skips a balance the date does not hold,
every completed date is answered exactly. -/
theorem snapshots_exact {cfg : Config} {start s : SnapshotSystem} (initial : start.Initial)
    (run : Shared.Run (SnapshotStep cfg PostsRecorded SkipsOnlyEqual) start s) :
    ∀ date ∈ s.completed, ∀ holder currencyUID, AsOf s.tables holder currencyUID date := by
  have inv := SnapshotInv.step.run initial.inv run
  exact fun date completed _ _ => asOf_of_good inv.ok (inv.good date completed)

namespace SnapshotSample

def start : SnapshotSystem := ⟨⟨Sample.store, []⟩, []⟩

def deposited : SnapshotSystem := ⟨⟨Sample.deposited, []⟩, []⟩

def taken (s : SnapshotSystem) (day : Int) : SnapshotSystem :=
  ⟨okOr s.tables (createDailySnapshot (fun _ => 1000000) s.tables (day * 86400000000000)),
    day :: s.completed⟩

theorem initial : start.Initial := ⟨Sample.empty, rfl, rfl⟩

section

variable {postable : SnapshotSystem → Store → Prop} {snapshotable : SnapshotSystem → Int → Prop}

theorem deposited_step (allowed : postable start Sample.deposited) :
    SnapshotStep Sample.config postable snapshotable start deposited := by
  obtain ⟨j, ok⟩ := Sample.step
    (show ((Call.post .tx Sample.deposit).run Sample.config (Sample.env 5) Sample.store).isOk =
      true by decide +kernel)
  exact .post start (Sample.env 5) (.post .tx Sample.deposit) Sample.deposited j ok allowed

theorem taken_step {day : Int} (allowed : snapshotable s day)
    (ok : (createDailySnapshot (fun _ => 1000000) s.tables (day * 86400000000000)).isOk = true) :
    SnapshotStep Sample.config postable snapshotable s (taken s day) := by
  have date : normalizeDay (day * 86400000000000) = day := by
    simp only [normalizeDay, toMicros, dayMicros]
    omega
  have step := @SnapshotStep.snapshot Sample.config postable snapshotable s _ _ _
    (eq_ok_of_isOk ok s.tables)
    (date.symm ▸ allowed)
  rwa [date] at step

end

end SnapshotSample

namespace SnapshotSample

def posted (s : SnapshotStore) (n : Nat) (input : JournalInput) : SnapshotStore :=
  { s with
    store := okOr s.store ((postJournal Sample.config .tx ⟨86400000000000, Sample.uid n⟩ s.store input).map Prod.fst) }

/-- Ten more, posted on day 1 and counted for day 0. -/
def late : JournalInput :=
  { Sample.deposit with idempotencyKey := lit "late", effectiveAt := 5000000 }

/-- The late deposit stands after the rows of day 0, and day 1 has its own. -/
def backdated : SnapshotSystem :=
  ⟨posted (taken deposited 0).tables 8 late, [0]⟩

theorem backdated_step {postable : SnapshotSystem → Store → Prop}
    {snapshotable : SnapshotSystem → Int → Prop}
    (allowed : postable (taken deposited 0) backdated.tables.store) :
    SnapshotStep Sample.config postable snapshotable (taken deposited 0) backdated := by
  obtain ⟨j, ok⟩ := Sample.step
    (show ((Call.post .tx late).run Sample.config ⟨86400000000000, Sample.uid 8⟩
    (taken deposited 0).tables.store).isOk = true by decide +kernel)
  exact .post _ ⟨86400000000000, Sample.uid 8⟩ (.post .tx late) _ j ok allowed

end SnapshotSample

theorem snapshots_exact_backdated :
    AsOf (SnapshotSample.taken SnapshotSample.backdated 1).tables 7 (Sample.uid 3).print 0 ∧
      AsOf (SnapshotSample.taken SnapshotSample.backdated 1).tables 7 (Sample.uid 3).print 1 := by
  have first : PostsRecorded SnapshotSample.start Sample.deposited := by
    intro e _ date completed
    cases completed
  have unwritten : SkipsOnlyEqual SnapshotSample.deposited 0 := by
    refine fun pair => .inr fun e _ => ?_
    rintro ⟨prev, latest, -⟩
    cases latest
  -- The rows of day 0 are of its first second, the late entries of day 1.
  have recorded : PostsRecorded (SnapshotSample.taken SnapshotSample.deposited 0)
      SnapshotSample.backdated.tables.store := by
    have older : ∀ e ∈ appendedEntries (SnapshotSample.taken SnapshotSample.deposited 0).tables.store
        SnapshotSample.backdated.tables.store,
        ∃ r ∈ snapshotAt (SnapshotSample.taken SnapshotSample.deposited 0).tables.snapshots e.dim 0,
          r.createdAt < e.createdAt := by
      decide +kernel
    intro e appended date completed _
    obtain rfl : date = 0 := by simpa [SnapshotSample.taken, SnapshotSample.deposited] using completed
    obtain ⟨r, stored, earlier⟩ := older e appended
    exact ⟨e.dim, r, rfl, stored, earlier⟩
  -- Day 0 holds ten and day 1 twenty.
  have changed : SkipsOnlyEqual SnapshotSample.backdated 1 := by
    have differs : ∀ e ∈ SnapshotSample.backdated.tables.store.ledger.entries,
        ∀ prev ∈ getLatestSnapshotBefore SnapshotSample.backdated.tables.snapshots e.dim 1,
          prev.balance ≠ balanceOfDim SnapshotSample.backdated.tables.store.ledger (endOfDay 1) e.dim := by
      decide +kernel
    refine fun pair => .inr fun e entry => ?_
    rintro ⟨prev, latest, same⟩
    exact absurd same (differs e (mem_pairEntriesBefore.mp entry).1 prev latest)
  have exact_ := snapshots_exact SnapshotSample.initial
    (.head (SnapshotSample.deposited_step first) <|
    .head (SnapshotSample.taken_step unwritten (by decide +kernel)) <| .head (SnapshotSample.backdated_step recorded) <|
    .head (SnapshotSample.taken_step changed (by decide +kernel)) .refl)
  exact ⟨exact_ 0 (by decide) _ _, exact_ 1 (by decide) _ _⟩

/-- The balance of day 1 is that of day 0, so its run writes no row and its answer is empty. -/
theorem unchanged_day_reads_zero :
    ∃ s, Shared.Run (SnapshotStep Sample.config (fun _ _ => True) fun _ _ => True)
    SnapshotSample.start s ∧ 1 ∈ s.completed ∧ getSnapshotBalances s.tables 7
    (Sample.uid 3).print 1 = .ok [] ∧
      ∃ cls, s.tables.store.ledger.getClassification 1 = some cls ∧
        balanceBefore s.tables.store.ledger cls ⟨7, 1, 1⟩ (endOfDay 1) = 10 * 10 ^ 18 := by
  refine ⟨SnapshotSample.taken (SnapshotSample.taken SnapshotSample.deposited 0) 1,
    .head (SnapshotSample.deposited_step trivial) <|
      .head (SnapshotSample.taken_step trivial (by decide +kernel)) <|
    .head (SnapshotSample.taken_step trivial (by decide +kernel)) .refl,
      by simp [SnapshotSample.taken], by decide +kernel,
    ⟨1, Sample.uid 1, lit "wallet", .credit, false, true, .available⟩,
      by decide +kernel, by decide +kernel⟩

/-- Right after a run, the rows of its date are right exactly if those it leaves alone were right
before: it skips a balance that is the one of the latest earlier row, whatever its own date holds.
-/
theorem snapshot_rerun_exact_iff {s s' : SnapshotStore} {clock : Nat → Int} {t : Instant}
    (catalog : CatalogOk s.store)
    (keys : SnapshotKeys s.snapshots) (ok : createDailySnapshot clock s t = .ok s') :
    (∀ r ∈ s'.snapshots, r.snapshotDate = normalizeDay t → r.balance = balanceOfDim s'.store.ledger
      (endOfDay (normalizeDay t)) r.dim) ↔
      ∀ r ∈ s.snapshots, r.snapshotDate = normalizeDay t →
      (r.dim ∈ dimsBefore s.store.ledger (endOfDay (normalizeDay t)) →
          Skips s.snapshots r.dim (normalizeDay t) (balanceOfDim s.store.ledger (endOfDay (normalizeDay t)) r.dim)) →
        r.balance = balanceOfDim s.store.ledger (endOfDay (normalizeDay t)) r.dim := by
  have wrote := createDailySnapshot_ok catalog ok
  rw [wrote.store]
  constructor
  · intro exact_ r member date left
    have stored : snapshotAt s'.snapshots r.dim (normalizeDay t) = some r := by
      rw [← date, ← snapshotAt_of_mem keys member, date]
      by_cases listed : r.dim ∈ dimsBefore s.store.ledger (endOfDay (normalizeDay t))
      · rcases wrote.written r.dim listed with ⟨-, kept⟩ | ⟨changed, -⟩
        · exact kept
        · exact absurd (left listed) changed
      · exact wrote.other _ _ fun both => listed both.1
    exact exact_ r (snapshotAt_mem stored).1 date
  · intro left r member date
    have stored := snapshotAt_of_mem (wrote.keys keys) member
    rw [date] at stored
    by_cases listed : r.dim ∈ dimsBefore s.store.ledger (endOfDay (normalizeDay t))
    · rcases wrote.written r.dim listed with ⟨skips, kept⟩ | ⟨-, r', stored', value, -⟩
      · exact left r (snapshotAt_mem (kept.symm.trans stored)).1 date fun _ => skips
      · rw [← Option.some.inj (stored'.symm.trans stored)] at value ⊢
        exact value
    · rw [wrote.other _ _ fun both => listed both.1] at stored
      exact left r (snapshotAt_mem stored).1 date fun inside => absurd inside listed

namespace SnapshotSample

def back : JournalInput :=
  { Sample.deposit with
    idempotencyKey := lit "back"
    entries := [⟨7, (Sample.uid 3).print, (Sample.uid 1).print, .debit, ⟨10, 0⟩⟩,
      ⟨-7, (Sample.uid 3).print, (Sample.uid 2).print, .credit, ⟨10, 0⟩⟩] }

/-- Ten on day 0 and ten more on day 1, each with its snapshot. -/
def doubled : SnapshotStore :=
  (taken ⟨posted (taken deposited 0).tables 8
    { Sample.deposit with idempotencyKey := lit "more" }, []⟩ 1).tables

end SnapshotSample

/-- Ten more on day 1, whose rows stand at twenty. -/
def SnapshotSample.grown : SnapshotStore := posted doubled 9
    { Sample.deposit with idempotencyKey := lit "third" }

theorem snapshot_rerun_exact_iff_grown : ∃ s',
    createDailySnapshot (fun _ => 1000000) SnapshotSample.grown 86400000000000 = .ok s' ∧
    cachedBalance SnapshotSample.grown.snapshots ⟨7, 1, 1⟩ 1 = 20 * 10 ^ 18 ∧
    cachedBalance s'.snapshots ⟨7, 1, 1⟩ 1 = 30 * 10 ^ 18 ∧
    ∀ r ∈ s'.snapshots, r.snapshotDate = normalizeDay 86400000000000 →
      r.balance = balanceOfDim s'.store.ledger (endOfDay (normalizeDay 86400000000000)) r.dim := by
  have rewritten : (createDailySnapshot (fun _ => 1000000) SnapshotSample.grown 86400000000000).map
      (fun s' => cachedBalance s'.snapshots ⟨7, 1, 1⟩ 1) = .ok (30 * 10 ^ 18) := by
    decide +kernel
  obtain ⟨s', ok, thirty⟩ := map_eq_ok.mp rewritten
  have catalog : CatalogOk SnapshotSample.grown.store := ⟨by decide +kernel, by decide +kernel, by decide +kernel⟩
  have keys : SnapshotKeys SnapshotSample.grown.snapshots := by
    unfold SnapshotKeys
    decide +kernel
  -- The rows of day 1 are of dimensions whose latest earlier row, of ten, is not their balance of
  -- thirty.
  have changed : ∀ r ∈ SnapshotSample.grown.snapshots, r.snapshotDate =
    normalizeDay 86400000000000 →
      r.dim ∈ dimsBefore SnapshotSample.grown.store.ledger (endOfDay (normalizeDay 86400000000000)) ∧
        ∀ prev ∈ getLatestSnapshotBefore SnapshotSample.grown.snapshots r.dim (normalizeDay 86400000000000),
          prev.balance ≠ balanceOfDim SnapshotSample.grown.store.ledger (endOfDay (normalizeDay 86400000000000)) r.dim := by
    decide +kernel
  refine ⟨s', ok, by decide +kernel, thirty,
    (snapshot_rerun_exact_iff catalog keys ok).mpr fun r member date left => ?_⟩
  obtain ⟨listed, differs⟩ := changed r member date
  obtain ⟨prev, latest, same⟩ := left listed
  exact absurd same (differs prev latest)

/-- The ten of day 1 are taken back on the same day. The balance is again that of day 0, so the new
run of day 1 leaves its row of twenty. -/
theorem snapshot_rerun_keeps_stale :
    let s := SnapshotSample.posted SnapshotSample.doubled 9 SnapshotSample.back
    (createDailySnapshot (fun _ => 1000000) s 86400000000000).map
        (fun s' => cachedBalance s'.snapshots ⟨7, 1, 1⟩ 1) = .ok (20 * 10 ^ 18) ∧
      balanceOfDim s.store.ledger (endOfDay 1) ⟨7, 1, 1⟩ = 10 * 10 ^ 18 := by
  decide +kernel

end Ledger.Postgres
