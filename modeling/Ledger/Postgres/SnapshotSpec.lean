import Ledger.Postgres.Snapshots

namespace Ledger.Postgres

open Core Shared

def snapshotAt (rows : List SnapshotRow) (dim : Dimension) (date : Int) : Option SnapshotRow :=
  rows.find? (·.isFor dim date)

def SnapshotKeys (rows : List SnapshotRow) : Prop :=
  (rows.map fun r => (r.dim, r.snapshotDate)).Nodup

variable {r : SnapshotRow} {date : Int} {dim : Dimension} {rows : List SnapshotRow}

theorem SnapshotRow.isFor_iff : r.isFor dim date = true ↔ r.dim = dim ∧ r.snapshotDate = date := by
  simp [SnapshotRow.isFor]

theorem snapshotAt_mem (found : snapshotAt rows dim date = some r) :
    r ∈ rows ∧ r.dim = dim ∧ r.snapshotDate = date := by
  have here : r.isFor dim date = true := by simpa using List.find?_some found
  exact ⟨List.mem_of_find?_eq_some found, SnapshotRow.isFor_iff.mp here⟩

theorem snapshotAt_of_mem (keys : SnapshotKeys rows) (member : r ∈ rows) :
    snapshotAt rows r.dim r.snapshotDate = some r := by
  have found := find_of_nodup keys member
  rw [← found, snapshotAt]
  congr 1
  funext other
  rw [SnapshotRow.isFor, Bool.eq_iff_iff]
  simp

def cachedBalance (rows : List SnapshotRow) (dim : Dimension) (date : Int) : Int :=
  ((snapshotAt rows dim date).map (·.balance)).getD 0

section

variable {rows : List SnapshotRow} {now : Int} {dim : Dimension} {date balance : Int}

theorem insertSnapshot_self : ∃ r, snapshotAt (insertSnapshot rows now dim date balance) dim date =
    some r ∧
    r.balance = balance ∧ ∀ old, snapshotAt rows dim date = some old →
    r.createdAt = old.createdAt := by
  unfold insertSnapshot snapshotAt
  split
  · next present =>
    obtain ⟨old, found⟩ := Option.isSome_iff_exists.mp
      (List.find?_isSome.mpr (List.any_eq_true.mp present))
    refine ⟨{ old with balance := balance }, ?_, rfl, fun other same => ?_⟩
    · rw [List.find?_map]
      have unchanged : (fun r : SnapshotRow =>
        (if r.isFor dim date then { r with balance := balance } else r).isFor dim date) =
          (·.isFor dim date) := by
        funext r
        split <;> rfl
      have here := List.find?_some found
      simp only [Function.comp_def, unchanged, found, Option.map_some, here, if_true]
    · rw [found, Option.some.injEq] at same
      rw [← same]
  · next absent =>
    have none_ : rows.find? (·.isFor dim date) = none := by simpa using absent
    refine ⟨⟨dim, date, balance, now⟩, ?_, rfl, fun old found => ?_⟩
    · rw [List.find?_append, none_]
      simp [SnapshotRow.isFor]
    · rw [none_] at found
      cases found

theorem insertSnapshot_other {dim' : Dimension} {date' : Int}
    (other : ¬(dim' = dim ∧ date' = date)) :
    snapshotAt (insertSnapshot rows now dim date balance) dim' date' =
    snapshotAt rows dim' date' := by
  have apart (r : SnapshotRow) (here : r.isFor dim' date' = true) : r.isFor dim date = false := by
    rw [SnapshotRow.isFor_iff] at here
    simp only [SnapshotRow.isFor, Bool.and_eq_false_iff, beq_eq_false_iff_ne]
    by_contra both
    push Not at both
    exact other ⟨here.1.symm.trans both.1, here.2.symm.trans both.2⟩
  unfold insertSnapshot snapshotAt
  split
  · rw [List.find?_map]
    have unchanged : (fun r : SnapshotRow => (if r.isFor dim date then { r with balance := balance }
      else r).isFor dim' date') =
        (·.isFor dim' date') := by
      funext r
      split <;> rfl
    simp only [Function.comp_def, unchanged]
    cases found : rows.find? (·.isFor dim' date') with
    | none => rfl
    | some r =>
      have here : r.isFor dim' date' = true := by simpa using List.find?_some found
      simp [apart r here]
  · rw [List.find?_append]
    have new : ([⟨dim, date, balance, now⟩] : List SnapshotRow).find? (·.isFor dim' date') = none := by
      rw [List.find?_eq_none]
      intro r single here
      rw [List.mem_singleton] at single
      subst single
      have := apart _ here
      simp [SnapshotRow.isFor] at this
    rw [new, Option.or_none]

theorem insertSnapshot_keys (keys : SnapshotKeys rows) :
    SnapshotKeys (insertSnapshot rows now dim date balance) := by
  unfold insertSnapshot
  split
  · have same : (rows.map fun r => if r.isFor dim date then { r with balance := balance } else r).map
        (fun r => (r.dim, r.snapshotDate)) = rows.map fun r => (r.dim, r.snapshotDate) := by
      rw [List.map_map]
      apply List.map_congr_left
      intro r _
      simp only [Function.comp_apply]
      split <;> rfl
    rw [SnapshotKeys, same]
    exact keys
  · next absent =>
    rw [SnapshotKeys, List.map_append, List.nodup_append]
    refine ⟨keys, by simp, ?_⟩
    intro key member key' single same
    obtain ⟨r, inside, rfl⟩ := List.mem_map.mp member
    simp only [List.map_cons, List.map_nil, List.mem_singleton] at single
    rw [single] at same
    refine absurd (List.any_eq_true.mpr ⟨r, inside, ?_⟩) absent
    rw [SnapshotRow.isFor_iff]
    exact ⟨congrArg Prod.fst same, congrArg Prod.snd same⟩

theorem insertSnapshot_dims (member : r ∈ insertSnapshot rows now dim date balance) : r.dim = dim ∨
    ∃ old ∈ rows, old.dim = r.dim := by
  unfold insertSnapshot at member
  split at member
  · obtain ⟨old, inside, rfl⟩ := List.mem_map.mp member
    refine .inr ⟨old, inside, ?_⟩
    split <;> rfl
  · rcases List.mem_append.mp member with old | new
    · exact .inr ⟨r, old, rfl⟩
    · rw [List.mem_singleton.mp new]
      exact .inl rfl

theorem insertSnapshot_latest (dim' : Dimension) :
    getLatestSnapshotBefore (insertSnapshot rows now dim date balance) dim' date =
    getLatestSnapshotBefore rows dim' date := by
  have same : (insertSnapshot rows now dim date balance).filter
    (fun r => r.dim == dim' && decide (r.snapshotDate < date)) =
      rows.filter fun r => r.dim == dim' && decide (r.snapshotDate < date) := by
    unfold insertSnapshot
    split
    · rw [List.filter_map]
      have unchanged : (fun r : SnapshotRow =>
          (if r.isFor dim date then { r with balance := balance } else r).dim == dim' &&
            decide ((if r.isFor dim date then { r with balance := balance } else r).snapshotDate < date)) =
          fun r => r.dim == dim' && decide (r.snapshotDate < date) := by
        funext r
        split <;> rfl
      simp only [Function.comp_def, unchanged]
      conv_rhs => rw [← List.map_id (rows.filter _)]
      apply List.map_congr_left
      intro r member
      simp only [List.mem_filter, Bool.and_eq_true, decide_eq_true_eq] at member
      have earlier : r.isFor dim date = false := by
        simp only [SnapshotRow.isFor, Bool.and_eq_false_iff, beq_eq_false_iff_ne]
        omega
      simp [earlier]
    · simp [List.filter_append]
  rw [getLatestSnapshotBefore, same, getLatestSnapshotBefore]

end

def Skips (rows : List SnapshotRow) (dim : Dimension) (date balance : Int) : Prop :=
  ∃ prev, getLatestSnapshotBefore rows dim date = some prev ∧ prev.balance = balance

structure Listed (s : Store) (cutoff : Int) (dim : Dimension) (b : Balance) : Prop where
  currency : ∃ cur, s.currencyByIDOrErr dim.currency = .ok cur ∧ b.currencyUID = pgToUID cur.uid
  classification : ∃ cls, s.classByIDOrErr dim.classification = .ok cls ∧
    b.classificationUID = pgToUID cls.uid ∧
    b.balance = numericToDecimal (balanceBefore s.ledger cls dim cutoff)
  holder : b.accountHolder = dim.holder

variable {bs : List Balance} {cls : ClassificationRow} {s' : SnapshotStore}
  {clock : Nat → Int} {e : EntryRow}
  {r : SnapshotRow} {s : Store} {cutoff : Int} {db : LedgerTables} {dim : Dimension} {pair : Pair}

theorem listBalancesAt_ok (ok : listBalancesAt s cutoff = .ok bs) :
    List.Forall₂ (Listed s cutoff) (dimsBefore s.ledger cutoff) bs := by
  rw [listBalancesAt, collect_eq_ok] at ok
  refine ok.imp fun dim b answer => ?_
  simp only [bind_eq_ok, pure_eq_ok] at answer
  obtain ⟨cur, currency, cls, classification, rfl⟩ := answer
  exact ⟨⟨cur, currency, rfl⟩, ⟨cls, classification, rfl, rfl⟩, rfl⟩

def balanceOfDim (db : LedgerTables) (cutoff : Int) (dim : Dimension) : Int :=
  match db.getClassification dim.classification with
  | none => 0
  | some cls => balanceBefore db cls dim cutoff

theorem balanceOfDim_eq (found : db.getClassification dim.classification = some cls) :
    balanceOfDim db cutoff dim = balanceBefore db cls dim cutoff := by
  rw [balanceOfDim, found]

theorem numericToDecimal_inj {a b : Int} :
    (numericToDecimal a).equal (numericToDecimal b) = true ↔ a = b := by
  rw [Decimal.equal_iff, numericToDecimal, numericToDecimal, ofUnits_val, ofUnits_val,
    div_left_inj' (by positivity)]
  exact_mod_cast Iff.rfl

theorem upsertSnapshotSparse_ok {s : SnapshotStore} {now : Int} {b : Balance} {wrote : Bool}
    (catalog : CatalogOk s.store)
    (listed : Listed s.store cutoff dim b)
    (ok : upsertSnapshotSparse s now ⟨b.accountHolder, b.currencyUID, b.classificationUID, date,
      b.balance⟩ = .ok (s', wrote)) :
    s'.store = s.store ∧ (Skips s.snapshots dim date (balanceOfDim s.store.ledger cutoff dim) ∧
      s'.snapshots = s.snapshots ∨
        ¬Skips s.snapshots dim date (balanceOfDim s.store.ledger cutoff dim) ∧
          s'.snapshots = insertSnapshot s.snapshots now dim date (balanceOfDim s.store.ledger cutoff dim)) := by
  obtain ⟨⟨cur, currency, curUID⟩, ⟨cls, classification, clsUID, value⟩, holder⟩ := listed
  simp only [upsertSnapshotSparse, bind_eq_ok] at ok
  obtain ⟨cur', byUID, cls', classByUID, rest⟩ := ok
  rw [curUID] at byUID
  rw [clsUID] at classByUID
  have found : s.store.ledger.getClassification dim.classification = some cls := by
    simpa [Store.classByIDOrErr, orError_eq_ok] using classification
  have sameDim : (⟨b.accountHolder, cur'.id, cls'.id⟩ : Dimension) = dim := by
    rw [holder, catalog.currency currency byUID, catalog.classification classification classByUID]
  rw [balanceOfDim_eq found]
  simp only [sameDim, value] at rest
  have inserted (write : (do
      let balance ← within "postgres: snapshot_extra: insert snapshot"
        (decimalToNumeric (numericToDecimal (balanceBefore s.store.ledger cls dim cutoff)))
      pure ({ s with snapshots := insertSnapshot s.snapshots now dim date balance }, true)) =
        (.ok (s', wrote) : Result (SnapshotStore × Bool))) :
      s'.store = s.store ∧
        s'.snapshots = insertSnapshot s.snapshots now dim date (balanceBefore s.store.ledger cls dim cutoff) := by
    simp only [bind_eq_ok, within_eq_ok, pure_eq_ok, Prod.mk.injEq] at write
    obtain ⟨units, stored, rfl, -⟩ := write
    unfold decimalToNumeric at stored
    split at stored
    · rw [← Except.ok.inj stored, numericToDecimal, toUnits_ofUnits]
      exact ⟨rfl, rfl⟩
    · cases stored
  cases latest : getLatestSnapshotBefore s.snapshots dim date with
  | none =>
    simp only [latest, Bool.false_eq_true, if_false] at rest
    exact (inserted rest).imp_right fun rows => .inr ⟨by simp [Skips, latest], rows⟩
  | some prev =>
    simp only [latest] at rest
    split at rest
    · next unchanged =>
      cases pure_eq_ok.mp rest
      exact ⟨rfl, .inl ⟨⟨prev, latest, (numericToDecimal_inj.mp unchanged).symm⟩, rfl⟩⟩
    · next changed =>
      refine (inserted rest).imp_right fun rows => .inr ⟨?_, rows⟩
      rintro ⟨prev', latest', same⟩
      rw [latest, Option.some.injEq] at latest'
      exact changed (numericToDecimal_inj.mpr (latest' ▸ same.symm))

structure WroteSnapshots (s s' : SnapshotStore) (date : Int) (dims : List Dimension)
    (balance : Dimension → Int) : Prop where
  store : s'.store = s.store
  keys : SnapshotKeys s.snapshots → SnapshotKeys s'.snapshots
  rowDims : ∀ r ∈ s'.snapshots, r.dim ∈ dims ∨ ∃ old ∈ s.snapshots, old.dim = r.dim
  latest : ∀ dim, getLatestSnapshotBefore s'.snapshots dim date =
    getLatestSnapshotBefore s.snapshots dim date
  other : ∀ dim date', ¬(dim ∈ dims ∧ date' = date) → snapshotAt s'.snapshots dim date' =
    snapshotAt s.snapshots dim date'
  written : ∀ dim ∈ dims,
    Skips s.snapshots dim date (balance dim) ∧ snapshotAt s'.snapshots dim date =
      snapshotAt s.snapshots dim date ∨
      ¬Skips s.snapshots dim date (balance dim) ∧ ∃ r, snapshotAt s'.snapshots dim date = some r ∧
        r.balance = balance dim ∧
        ∀ old, snapshotAt s.snapshots dim date = some old → r.createdAt = old.createdAt

theorem WroteSnapshots.single {s : SnapshotStore} {balance : Dimension → Int} {now : Int}
    (store : s'.store = s.store)
    (wrote : Skips s.snapshots dim date (balance dim) ∧ s'.snapshots = s.snapshots ∨
      ¬Skips s.snapshots dim date (balance dim) ∧ s'.snapshots = insertSnapshot s.snapshots now dim
      date (balance dim)) :
    WroteSnapshots s s' date [dim] balance := by
  rcases wrote with ⟨skips, same⟩ | ⟨changed, inserted⟩
  · refine ⟨store, ?_, ?_, ?_, ?_, ?_⟩ <;> rw [same]
    · exact id
    · exact fun r member => .inr ⟨r, member, rfl⟩
    · exact fun _ => rfl
    · exact fun _ _ _ => rfl
    · intro d member
      rw [List.mem_singleton.mp member]
      exact .inl ⟨skips, rfl⟩
  · refine ⟨store, ?_, ?_, ?_, ?_, ?_⟩ <;> rw [inserted]
    · exact insertSnapshot_keys
    · exact fun r member => (insertSnapshot_dims member).imp_left fun same => by simp [same]
    · exact insertSnapshot_latest
    · exact fun d date' other => insertSnapshot_other (by simpa using other)
    · intro d member
      rw [List.mem_singleton.mp member]
      exact .inr ⟨changed, insertSnapshot_self⟩

theorem WroteSnapshots.cons {s₁ s₂ s₃ : SnapshotStore} {dim : Dimension} {rest : List Dimension}
    {balance : Dimension → Int} (fresh : dim ∉ rest)
    (first : WroteSnapshots s₁ s₂ date [dim] balance)
    (second : WroteSnapshots s₂ s₃ date rest balance) :
    WroteSnapshots s₁ s₃ date (dim :: rest) balance where
  store := second.store.trans first.store
  keys keys := second.keys (first.keys keys)
  rowDims r member := by
    rcases second.rowDims r member with inside | ⟨old, oldMember, same⟩
    · exact .inl (List.mem_cons_of_mem _ inside)
    · rcases first.rowDims old oldMember with here | ⟨older, olderMember, same'⟩
      · exact .inl (by rw [← same, List.mem_singleton.mp here]; exact List.mem_cons_self)
      · exact .inr ⟨older, olderMember, same'.trans same⟩
  latest d := (second.latest d).trans (first.latest d)
  other d date' apart := by
    rw [second.other d date' fun both => apart ⟨List.mem_cons_of_mem _ both.1, both.2⟩]
    exact first.other d date' fun both =>
      apart ⟨by rw [List.mem_singleton.mp both.1]; exact List.mem_cons_self, both.2⟩
  written d member := by
    rcases List.mem_cons.mp member with rfl | later
    · rw [second.other d date fun both => fresh both.1]
      exact first.written d (by simp)
    · have untouched := first.other d date fun both => fresh (List.mem_singleton.mp both.1 ▸ later)
      have wrote := second.written d later
      simp only [Skips, first.latest, untouched] at wrote
      exact wrote

theorem writeSnapshots_ok {dims : List Dimension} {i : Nat} {s : SnapshotStore} {store : Store}
    (same : s.store = store)
    (catalog : CatalogOk store) (distinct : dims.Nodup)
    (listed : List.Forall₂ (Listed store cutoff) dims bs)
    (ok : writeSnapshots clock date i s bs = .ok s') :
    WroteSnapshots s s' date dims (balanceOfDim store.ledger cutoff) := by
  -- The loop writes rows and never touches the store the balances were computed from.
  induction listed generalizing s i with
  | nil =>
    cases ok
    exact ⟨rfl, id, fun r member => .inr ⟨r, member, rfl⟩, fun _ => rfl, fun _ _ _ => rfl, by simp⟩
  | @cons dim b dims bs head tail ih =>
    simp only [writeSnapshots, bind_eq_ok, within_eq_ok] at ok
    obtain ⟨⟨s₁, wrote⟩, first, rest⟩ := ok
    subst same
    obtain ⟨kept, effect⟩ := upsertSnapshotSparse_ok catalog head first
    obtain ⟨new, distinct⟩ := List.nodup_cons.mp distinct
    exact .cons new (.single kept effect) (ih kept distinct rest)

theorem createDailySnapshot_ok {s : SnapshotStore} {t : Instant} (catalog : CatalogOk s.store)
    (ok : createDailySnapshot clock s t = .ok s') :
    WroteSnapshots s s' (normalizeDay t) (dimsBefore s.store.ledger (endOfDay (normalizeDay t)))
      (balanceOfDim s.store.ledger (endOfDay (normalizeDay t))) := by
  simp only [createDailySnapshot, bind_eq_ok, within_eq_ok] at ok
  obtain ⟨bs, listed, wrote⟩ := ok
  refine writeSnapshots_ok rfl catalog ?_ (listBalancesAt_ok listed) wrote
  rw [dimsBefore, (List.perm_insertionSort _ _).nodup_iff]
  exact List.nodup_dedup _

def balanceIn (answer : List Balance) (classificationUID : GoString) : ℚ :=
  ((answer.find? (·.classificationUID == classificationUID)).map (·.balance.val)).getD 0

theorem balanceIn_collect {α : Type} (catalog : CatalogOk s) {l : List α}
    {key : α → Nat} {holder : α → Int}
    {currencyUID : GoString} {value : α → Decimal} {answer : List Balance}
    (ok : collect (fun x => do
      let cls ← s.classByIDOrErr (key x)
      return (⟨holder x, currencyUID, pgToUID cls.uid, value x⟩ : Balance)) l = .ok answer) {id : Nat}
    (found : s.classByIDOrErr id = .ok cls) {v : ℚ}
    (values : ∀ x ∈ l, key x = id → (value x).val = v)
    (absent : (∀ x ∈ l, key x ≠ id) → v = 0) :
    balanceIn answer (pgToUID cls.uid) = v := by
  rw [collect_eq_ok] at ok
  induction ok with
  | nil => exact (absent (by simp)).symm
  | @cons x b rest answer head tail ih =>
    simp only [bind_eq_ok, pure_eq_ok] at head
    obtain ⟨cls', byID, rfl⟩ := head
    by_cases same : key x = id
    · have here : cls' = cls := by
        rw [same, found] at byID
        exact (Except.ok.inj byID).symm
      rw [balanceIn, List.find?_cons_of_pos (by simp [here])]
      exact values x (by simp) same
    · have differs : pgToUID cls'.uid ≠ pgToUID cls.uid := by
        intro uid
        simp only [Store.classByIDOrErr, LedgerTables.getClassification, orError_eq_ok] at found byID
        have rows := List.inj_on_of_nodup_map catalog.classifications (List.mem_of_find?_eq_some byID)
          (List.mem_of_find?_eq_some found) (Uuid.print_injective uid)
        have first : cls'.id = key x := by simpa using List.find?_some byID
        have second : cls.id = id := by simpa using List.find?_some found
        exact same (first.symm.trans ((congrArg _ rows).trans second))
      rw [balanceIn, List.find?_cons_of_neg (by simpa using differs)]
      exact ih (fun y member => values y (List.mem_cons_of_mem _ member)) fun none_ => absent fun y member => by
        rcases List.mem_cons.mp member with rfl | later
        · exact same
        · exact none_ y later

structure SnapshotsOk (s : SnapshotStore) : Prop where
  catalog : CatalogOk s.store
  known : ∀ e ∈ s.store.ledger.entries,
    (∃ cur, s.store.currencyByIDOrErr e.dim.currency = .ok cur) ∧
    ∃ cls, s.store.ledger.getClassification e.dim.classification = some cls
  keys : SnapshotKeys s.snapshots
  rows : ∀ r ∈ s.snapshots, ∃ e ∈ s.store.ledger.entries, e.dim = r.dim

def Overtaken (s : SnapshotStore) (pair : Pair) (date : Int) : Prop :=
  ∃ dim r, dim.pair = pair ∧ snapshotAt s.snapshots dim date = some r ∧
    ∃ e ∈ pairEntriesBefore s.store.ledger pair (endOfDay date), r.createdAt < e.createdAt

def Cached (s : SnapshotStore) (pair : Pair) (date : Int) : Prop :=
  ∀ e ∈ pairEntriesBefore s.store.ledger pair (endOfDay date),
    cachedBalance s.snapshots e.dim date = balanceOfDim s.store.ledger (endOfDay date) e.dim

def AsOf (s : SnapshotStore) (holder : Int) (currencyUID : GoString) (date : Int) : Prop :=
  ∀ cur, s.store.currencyByUIDOrErr currencyUID = .ok cur →
    ∃ answer, getSnapshotBalances s holder currencyUID date = .ok answer ∧
      ∀ e ∈ pairEntriesBefore s.store.ledger ⟨holder, cur.id⟩ (endOfDay date),
        ∃ cls, s.store.ledger.getClassification e.dim.classification = some cls ∧
          balanceIn answer (pgToUID cls.uid) =
            (numericToDecimal (balanceBefore s.store.ledger cls e.dim (endOfDay date))).val

theorem mem_pairEntriesBefore :
    e ∈ pairEntriesBefore db pair cutoff ↔ e ∈ db.entries ∧ e.dim.pair = pair ∧
    e.effectiveAt < cutoff := by
  simp [pairEntriesBefore]

theorem mem_snapshotRows :
    r ∈ snapshotRows rows pair date ↔ r ∈ rows ∧ r.dim.pair = pair ∧ r.snapshotDate = date := by
  simp [snapshotRows]

theorem foldl_min_le (rows : List SnapshotRow) (start : Int) :
    let oldest := rows.foldl (fun oldest r => min oldest r.createdAt) start
    oldest ≤ start ∧ ∀ r ∈ rows, oldest ≤ r.createdAt := by
  induction rows generalizing start with
  | nil => simp
  | cons r rest ih =>
    obtain ⟨first, others⟩ := ih (min start r.createdAt)
    simp only [List.foldl_cons]
    refine ⟨by omega, fun r' member => ?_⟩
    rcases List.mem_cons.mp member with rfl | later
    · omega
    · exact others r' later

variable {rest : List SnapshotRow} {first : SnapshotRow}

theorem stale_of_overtaken (row : r ∈ first :: rest) (entry : e ∈ pairEntriesBefore db pair cutoff)
    (later : r.createdAt < e.createdAt) :
    snapshotIsStale db pair cutoff
    (rest.foldl (fun oldest r => min oldest r.createdAt) first.createdAt) = true := by
  have oldest : rest.foldl (fun oldest r => min oldest r.createdAt) first.createdAt ≤
    r.createdAt := by
    obtain ⟨start, others⟩ := foldl_min_le rest first.createdAt
    rcases List.mem_cons.mp row with rfl | inside
    · exact start
    · exact others r inside
  have times : e.createdAt ∈ (pairEntriesBefore db pair cutoff).map (·.createdAt) :=
    List.mem_map_of_mem entry
  obtain ⟨top, isTop⟩ := Option.isSome_iff_exists.mp (List.isSome_max?_of_mem times)
  have bound := (List.max?_eq_some_iff.mp isTop).2 _ times
  rw [snapshotIsStale, isTop, Option.getD_some, decide_eq_true_eq]
  omega

theorem dim_eq_of_pair (same : dim.pair = pair) :
    (⟨pair.holder, pair.currency, dim.classification⟩ : Dimension) = dim := by
  rw [← same]
  rfl

theorem live_find (entry : e ∈ pairEntriesBefore db pair cutoff)
    (found : db.getClassification e.dim.classification = some cls) :
    (liveBalancesByClassificationAt db pair cutoff).find? (·.1 == e.dim.classification) =
      some (e.dim.classification, balanceBefore db cls e.dim cutoff) := by
  have listed : e.dim.classification ∈
      ((pairEntriesBefore db pair cutoff).map (·.dim.classification)).dedup.insertionSort (· ≤ ·) := by
    rw [List.mem_insertionSort, List.mem_dedup]
    exact List.mem_map_of_mem entry
  have value : (db.getClassification e.dim.classification).map (fun cls =>
      (e.dim.classification, balanceBefore db cls ⟨pair.holder, pair.currency, e.dim.classification⟩ cutoff)) =
        some (e.dim.classification, balanceBefore db cls e.dim cutoff) := by
    rw [found, Option.map_some, dim_eq_of_pair (mem_pairEntriesBefore.mp entry).2.1]
  -- Every element of the list carries the id it was made from.
  have made {p : Nat × Int} (member : p ∈ liveBalancesByClassificationAt db pair cutoff)
      (id : p.1 = e.dim.classification) : p = (e.dim.classification, balanceBefore db cls e.dim cutoff) := by
    obtain ⟨other, -, answer⟩ := List.mem_filterMap.mp member
    obtain ⟨cls', found', rfl⟩ := Option.map_eq_some_iff.mp answer
    simp only at id
    subst id
    rw [found', Option.map_some, Option.some.injEq] at value
    exact value
  have member : (e.dim.classification, balanceBefore db cls e.dim cutoff) ∈
    liveBalancesByClassificationAt db pair cutoff :=
    List.mem_filterMap.mpr ⟨_, listed, value⟩
  cases here : (liveBalancesByClassificationAt db pair cutoff).find?
    (·.1 == e.dim.classification) with
  | none =>
    have differs := List.find?_eq_none.mp here _ member
    simp at differs
  | some p =>
    have id : p.1 = e.dim.classification := by simpa using List.find?_some here
    rw [made (List.mem_of_find?_eq_some here) id]

theorem classByIDOrErr_eq {id : Nat} (found : s.ledger.getClassification id = some cls) :
    s.classByIDOrErr id = .ok cls := by
  simp [Store.classByIDOrErr, found, orError]

theorem collect_classes {α : Type} {l : List α} (key : α → Nat) (holder : α → Int)
    (currencyUID : GoString)
    (value : α → Decimal) (known : ∀ x ∈ l, ∃ cls, s.ledger.getClassification (key x) = some cls) :
    ∃ answer, collect (fun x => do
      let cls ← s.classByIDOrErr (key x)
      return (⟨holder x, currencyUID, pgToUID cls.uid, value x⟩ : Balance)) l = .ok answer := by
  refine collect_isOk_iff.mpr fun x member => ?_
  obtain ⟨cls, found⟩ := known x member
  rw [classByIDOrErr_eq found]
  exact ⟨_, rfl⟩

section

variable {s : SnapshotStore} {holder : Int} {currencyUID : GoString}
  {date : Int} {cur : CurrencyRow}

theorem getSnapshotBalances_nil (currency : s.store.currencyByUIDOrErr currencyUID = .ok cur)
    (rows : snapshotRows s.snapshots ⟨holder, cur.id⟩ date = []) :
    getSnapshotBalances s holder currencyUID date = .ok [] := by
  simp only [getSnapshotBalances, currency, ok_bind, rows]
  rfl

theorem getSnapshotBalances_cons (currency : s.store.currencyByUIDOrErr currencyUID = .ok cur)
    (rows : snapshotRows s.snapshots ⟨holder, cur.id⟩ date = first :: rest) :
    getSnapshotBalances s holder currencyUID date =
      if snapshotIsStale s.store.ledger ⟨holder, cur.id⟩ (endOfDay date)
          (rest.foldl (fun oldest r => min oldest r.createdAt) first.createdAt) then
        let live := liveBalancesByClassificationAt s.store.ledger ⟨holder, cur.id⟩ (endOfDay date)
        let cached := firstSeen ((first :: rest).map (·.dim.classification))
        collect (fun id => do
          let cls ← s.store.classByIDOrErr id
          return ⟨holder, currencyUID, pgToUID cls.uid,
            ((live.find? (·.1 == id)).map fun p => numericToDecimal p.2).getD Decimal.zero⟩)
          (cached ++ (live.map Prod.fst).filter (· ∉ cached))
      else
        collect (fun r => do
          let cls ← s.store.classByIDOrErr r.dim.classification
          return ⟨r.dim.holder, currencyUID, pgToUID cls.uid, numericToDecimal r.balance⟩) (first :: rest) := by
  simp only [getSnapshotBalances, currency, ok_bind, rows]

variable {r : SnapshotRow} {pair : Pair} {dim : Dimension}

theorem snapshotRows_of_snapshotAt (same : dim.pair = pair)
    (stored : snapshotAt s.snapshots dim date = some r) :
    r ∈ snapshotRows s.snapshots pair date := by
  obtain ⟨member, here, day⟩ := snapshotAt_mem stored
  exact mem_snapshotRows.mpr ⟨member, here ▸ same, day⟩

theorem cachedBalance_of_row (keys : SnapshotKeys s.snapshots)
    (row : r ∈ snapshotRows s.snapshots pair date) (same : dim.pair = pair)
    (classification : r.dim.classification = dim.classification) :
    cachedBalance s.snapshots dim date = r.balance := by
  obtain ⟨member, here, day⟩ := mem_snapshotRows.mp row
  have dims : r.dim = dim := by rw [← dim_eq_of_pair here, ← dim_eq_of_pair same, classification]
  rw [cachedBalance, ← dims, ← day, snapshotAt_of_mem keys member]
  rfl

theorem cachedBalance_of_absent (same : dim.pair = pair)
    (absent : ∀ r ∈ snapshotRows s.snapshots pair date, r.dim.classification ≠ dim.classification) :
    cachedBalance s.snapshots dim date = 0 := by
  cases stored : snapshotAt s.snapshots dim date with
  | none => rw [cachedBalance, stored]; rfl
  | some r => exact absurd (congrArg _ (snapshotAt_mem stored).2.1) (absent r (snapshotRows_of_snapshotAt same stored))

theorem SnapshotsOk.rowClass (ok : SnapshotsOk s) (member : r ∈ s.snapshots) :
    ∃ cls, s.store.ledger.getClassification r.dim.classification = some cls := by
  obtain ⟨e, inside, same⟩ := ok.rows r member
  rw [← same]
  exact (ok.known e inside).2

def AnswersAsOf (s : SnapshotStore) (pair : Pair) (date : Int) (answer : List Balance) : Prop :=
  ∀ e ∈ pairEntriesBefore s.store.ledger pair (endOfDay date), ∃ cls,
    s.store.ledger.getClassification e.dim.classification = some cls ∧
    balanceIn answer (pgToUID cls.uid) =
      (numericToDecimal (balanceBefore s.store.ledger cls e.dim (endOfDay date))).val

theorem live_answer (ok : SnapshotsOk s) (stored : ∀ r ∈ rows, r ∈ s.snapshots) :
    let live := liveBalancesByClassificationAt s.store.ledger pair (endOfDay date)
    let cached := firstSeen (rows.map (·.dim.classification))
    ∃ answer, collect (fun id => do
        let cls ← s.store.classByIDOrErr id
        return (⟨holder, currencyUID, pgToUID cls.uid,
          ((live.find? (·.1 == id)).map fun p => numericToDecimal p.2).getD Decimal.zero⟩ : Balance))
        (cached ++ (live.map Prod.fst).filter (· ∉ cached)) = .ok answer ∧ AnswersAsOf s pair date answer := by
  intro live cached
  have known : ∀ id ∈ cached ++ (live.map Prod.fst).filter (· ∉ cached), ∃ cls,
    s.store.ledger.getClassification id = some cls := by
    intro id member
    rcases List.mem_append.mp member with inCache | extra
    · obtain ⟨r, row, rfl⟩ := List.mem_map.mp (mem_firstSeen.mp inCache)
      exact ok.rowClass (stored r row)
    · obtain ⟨p, inLive, rfl⟩ := List.mem_map.mp (List.mem_filter.mp extra).1
      obtain ⟨id, -, made⟩ := List.mem_filterMap.mp inLive
      obtain ⟨cls, found, rfl⟩ := Option.map_eq_some_iff.mp made
      exact ⟨cls, found⟩
  obtain ⟨answer, collected⟩ := collect_classes (fun id => id) (fun _ => holder) currencyUID
    (fun id => ((live.find? (·.1 == id)).map fun p => numericToDecimal p.2).getD Decimal.zero) known
  refine ⟨answer, collected, fun e entry => ?_⟩
  obtain ⟨cls, found⟩ := (ok.known e (mem_pairEntriesBefore.mp entry).1).2
  have value := live_find entry found
  refine ⟨cls, found, balanceIn_collect ok.catalog collected (classByIDOrErr_eq found)
    ?_ fun absent => ?_⟩
  · rintro id - rfl
    rw [value]
    rfl
  · have inLive : e.dim.classification ∈ live.map Prod.fst := List.mem_map.mpr
      ⟨_, List.mem_of_find?_eq_some value, rfl⟩
    exfalso
    by_cases inCache : e.dim.classification ∈ cached
    · exact absent _ (List.mem_append_left _ inCache) rfl
    · exact absent _ (List.mem_append_right _ (List.mem_filter.mpr ⟨inLive, by simpa using inCache⟩)) rfl

theorem cached_answer (ok : SnapshotsOk s) {pair : Pair} (cached : Cached s pair date) :
    ∃ answer, collect (fun r : SnapshotRow => do
        let cls ← s.store.classByIDOrErr r.dim.classification
        return (⟨r.dim.holder, currencyUID, pgToUID cls.uid, numericToDecimal r.balance⟩ : Balance))
        (snapshotRows s.snapshots pair date) = .ok answer ∧ AnswersAsOf s pair date answer := by
  obtain ⟨answer, collected⟩ := collect_classes (fun r : SnapshotRow => r.dim.classification)
    (fun r => r.dim.holder)
    currencyUID (fun r => numericToDecimal r.balance) fun r
      (member : r ∈ snapshotRows s.snapshots pair date) =>
      ok.rowClass (mem_snapshotRows.mp member).1
  refine ⟨answer, collected, fun e entry => ?_⟩
  obtain ⟨member, same, -⟩ := mem_pairEntriesBefore.mp entry
  obtain ⟨cls, found⟩ := (ok.known e member).2
  have value := cached e entry
  rw [balanceOfDim_eq found] at value
  refine ⟨cls, found, balanceIn_collect ok.catalog collected
    (classByIDOrErr_eq found) (fun r row classification => ?_) fun absent => ?_⟩
  · rw [← value, cachedBalance_of_row ok.keys row same classification]
  · rw [← value, cachedBalance_of_absent same absent]
    simp [numericToDecimal, ofUnits_val]

theorem asOf_of_good (ok : SnapshotsOk s)
    (good : ∀ pair, Overtaken s pair date ∨ Cached s pair date) :
    AsOf s holder currencyUID date := by
  intro cur currency
  cases rows : snapshotRows s.snapshots ⟨holder, cur.id⟩ date with
  | nil =>
    rw [getSnapshotBalances_nil currency rows]
    rcases good ⟨holder, cur.id⟩ with ⟨dim, r, same, stored, -⟩ | cached
    · have row := snapshotRows_of_snapshotAt same stored
      rw [rows] at row
      cases row
    · have answered := @cached_answer s currencyUID date ok _ cached
      rw [rows] at answered
      exact answered
  | cons first rest =>
    rw [getSnapshotBalances_cons currency rows]
    split
    · exact live_answer ok fun r member => (mem_snapshotRows.mp (rows ▸ member)).1
    · next fresh =>
      rcases good ⟨holder, cur.id⟩ with ⟨dim, r, same, stored, e, entry, later⟩ | cached
      · have row := snapshotRows_of_snapshotAt same stored
        rw [rows] at row
        exact absurd (stale_of_overtaken row entry later) fresh
      · rw [← rows]
        exact cached_answer ok cached

end

end Ledger.Postgres
