import Ledger.Service.RollupGrowth

namespace Ledger.Service

open Core Postgres Shared

variable {db : LedgerTables} {dim : Dimension} {sides : List ClassificationRow}

theorem signedSumUpTo_zero (positive : ∀ e ∈ db.entries, 0 < e.id)
    (normalSide : Side) (dim : Dimension) :
    signedSumUpTo db normalSide dim 0 = 0 := by
  have none_ : (db.dimEntries dim).filter (fun e => e.id ≤ 0) = [] := by
    rw [List.filter_eq_nil_iff]
    intro e member
    have := positive e (List.mem_of_mem_filter member)
    simp only [decide_eq_true_eq]
    omega
  rw [signedSumUpTo, sumUpTo, none_]
  rfl

variable {cp : Option CheckpointRow} {s s' : System} {t u : Nat} {p q : Pair}

theorem checkpointBalance_eq (positive : ∀ e ∈ db.entries, 0 < e.id) (ok : CheckpointOk db dim cp)
    {row : ClassificationRow}
    (found : db.getClassification dim.classification = some row) :
    (cp.map (·.balance)).getD 0 = signedSumUpTo db row.normalSide dim (sinceEntryID cp) := by
  cases cp with
  | some cp =>
    obtain ⟨row', found', exact_⟩ := ok.summed
    rw [found, Option.some.injEq] at found'
    rw [found']
    exact exact_
  | none => exact (signedSumUpTo_zero positive _ _).symm

theorem currentBalance_val (cp : Option CheckpointRow) :
    (currentBalance cp).val = ((cp.map (·.balance)).getD 0 : Int) / (10 : ℚ) ^ 18 := by
  cases cp <;> simp [currentBalance, numericToDecimal, ofUnits_val]

theorem signedSums_val (db : LedgerTables) (normalSide : Side) (dim : Dimension) (since : Nat) :
    let sums := sumEntriesSince db dim.pair since
    normalSide.signed .debit ((sums.debitByClass dim.classification).getD Decimal.zero).val +
        normalSide.signed .credit ((sums.creditByClass dim.classification).getD Decimal.zero).val =
      sumAfter EntryRow.id (signedEntry normalSide) (db.dimEntries dim) since / (10 : ℚ) ^ 18 := by
  simp only [sumEntriesSince, classEntries_eq, sumSide_val, Side.signed_div,
    sumAfter, sum_signedEntry]
  push_cast
  ring

theorem sumsOk_of_snapshot (sidesOk : SidesOk db sides)
    (base : ∀ row, db.getClassification dim.classification = some row →
      (cp.map (·.balance)).getD 0 = signedSumUpTo db row.normalSide dim (sinceEntryID cp)) :
    SumsOk db sides dim cp (sumEntriesSince db dim.pair (sinceEntryID cp)) := by
  obtain ⟨bounded, reached⟩ := maxEntry_bounds db dim.pair (sinceEntryID cp)
  rcases reached with zero | ⟨e, member, top⟩
  · exact .inl (.inl zero)
  · have newer := List.mem_filter.mp member
    simp only [Bool.and_eq_true, beq_iff_eq, decide_eq_true_eq] at newer
    refine .inr ⟨⟨e, newer.1, newer.2.1, top⟩, fun row found => ?_⟩
    obtain ⟨row', found', side⟩ := sidesOk _ row found
    -- Below the old watermark the checkpoint has counted the entries; the sums count the others.
    have all : ∀ x ∈ db.dimEntries dim, x.id ≤
      (sumEntriesSince db dim.pair (sinceEntryID cp)).maxEntryID := by
      intro x present
      obtain ⟨stored, same⟩ := List.mem_filter.mp present
      rw [beq_iff_eq] at same
      by_cases fresh : sinceEntryID cp < x.id
      · exact bounded x (by simp [LedgerTables.pairEntriesSince, stored, same, fresh])
      · change x.id ≤ (db.getMaxEntryForAccountCurrencySince dim.pair (sinceEntryID cp)).1
        omega
    have advance := sumUpTo_advance EntryRow.id (signedEntry row'.normalSide) (db.dimEntries dim)
      (sinceEntryID cp) _ all
    rw [newBalanceVal, ← side, currentBalance_val, base _ found', signedSums_val, signedSumUpTo,
      signedSumUpTo, ← advance]
    push_cast
    ring

theorem nextCheckpoint_covers {sums : EntrySums} {row : CheckpointRow} (sidesOk : SidesOk db sides)
    (ok : SumsOk db sides dim cp sums)
    (work : ¬(sums.maxEntryID = 0 ∨ sums.maxEntryID ≤ sinceEntryID cp))
    (next : nextCheckpoint sides dim cp sums = .ok row) :
    Covers db dim row.balance row.lastEntryID := by
  rcases ok with nothing | ⟨reached, total⟩
  · exact absurd nothing work
  unfold nextCheckpoint at next
  simp only [bind, Except.bind, pure, Except.pure] at next
  split at next
  · cases next
  next d deltaOk =>
  split at next
  · cases next
  next balance stored =>
  cases next
  obtain ⟨side, sideEq, value⟩ := delta_ok deltaOk
  obtain ⟨cls, found, sameSide⟩ : ∃ cls, sides.find? (·.id == dim.classification) = some cls ∧
      cls.normalSide = side := by
    unfold normalSideOf at sideEq
    split at sideEq
    · next cls found =>
      refine ⟨cls, found, ?_⟩
      cases h : cls.normalSide <;> cases side <;> simp_all [Side.normalSide]
    · cases side <;> cases sideEq
  obtain ⟨cls', found', side'⟩ := sidesOk _ cls found
  have exact_ : ((currentBalance cp).add d).val =
      signedSumUpTo db cls.normalSide dim sums.maxEntryID / (10 : ℚ) ^ 18 := by
    rw [← total cls found, Decimal.val_add, value, newBalanceVal, sameSide]
  refine ⟨reached, cls', found', ?_⟩
  unfold decimalToNumeric at stored
  split at stored
  · cases stored
    rw [toUnits_of_val exact_, side']
  · cases stored

section

variable (db)
include db

variable (now : Int) (worker : Worker)

theorem advance_tables : ((worker.advance db now).1).entries = db.entries ∧
      ((worker.advance db now).1).classifications = db.classifications := by
  unfold Worker.advance
  split <;> try exact ⟨rfl, rfl⟩
  · split
    · exact ⟨rfl, rfl⟩
    · split <;> simp
  · simp

theorem advance_grows : Grows db (worker.advance db now).1 :=
  .of_eq (advance_tables db now worker).1 (advance_tables db now worker).2

theorem advance_cases : ((worker.advance db now).1.checkpoints = db.checkpoints ∧
    (worker.advance db now).2.reading = none) ∨
    (∃ sides item rest, worker = .looping sides (item :: rest) ∧
      worker.advance db now = (db, .checkpointRead sides item rest (db.checkpoints item.dim))) ∨
    (∃ sides item rest cp, worker = .checkpointRead sides item rest cp ∧ worker.advance db now =
        (db, .entriesSummed sides item rest cp (sumEntriesSince db item.dim.pair (sinceEntryID cp)))) ∨
    (∃ sides item rest cp sums row, worker = .entriesSummed sides item rest cp sums ∧
      ¬(sums.maxEntryID = 0 ∨ sums.maxEntryID ≤ sinceEntryID cp) ∧
      nextCheckpoint sides item.dim cp sums = .ok row ∧
      worker.advance db now =
      (db.upsertBalanceCheckpoint item.dim row, .checkpointWritten sides item
        rest sums.maxEntryID)) := by
  cases worker with
  | looping sides items =>
    cases items with
    | nil => exact .inl ⟨rfl, rfl⟩
    | cons item rest => exact .inr (.inl ⟨sides, item, rest, rfl, rfl⟩)
  | checkpointRead sides item rest cp => exact .inr (.inr (.inl ⟨sides, item, rest, cp, rfl, rfl⟩))
  | entriesSummed sides item rest cp sums =>
    by_cases nothing : sums.maxEntryID = 0 ∨ sums.maxEntryID ≤ sinceEntryID cp
    · exact .inl (by simp [Worker.advance, nothing, LedgerTables.markRollupProcessed, Worker.reading])
    · cases next : nextCheckpoint sides item.dim cp sums with
      | error err => exact .inl (by simp [Worker.advance, nothing, next, Worker.reading])
      | ok row =>
        exact .inr (.inr (.inr ⟨sides, item, rest, cp, sums, row, rfl, nothing, next,
          by simp [Worker.advance, nothing, next]⟩))
  | checkpointWritten sides item rest maxEntryID =>
    refine .inl ⟨rfl, ?_⟩
    simp only [Worker.advance]
    split <;> rfl
  | marked sides item rest maxEntryID =>
    refine .inl ⟨rfl, ?_⟩
    simp only [Worker.advance]
    split <;> rfl
  | rechecked sides item rest => exact .inl ⟨by simp [Worker.advance], rfl⟩
  | releasing items => cases items <;> exact .inl ⟨rfl, rfl⟩
  | idle | dequeued items | failed sides item rest => exact .inl ⟨rfl, rfl⟩

theorem advance_sides (loaded : (worker.advance db now).2.sides = some sides) :
    worker.sides = some sides ∨ sides = db.classifications := by
  cases worker with
  | idle => cases loaded
  | dequeued items => exact .inr (Option.some.inj loaded).symm
  | releasing items => cases items <;> cases loaded
  | looping held items =>
    cases items with
    | nil => cases loaded
    | cons item rest => exact .inl loaded
  | checkpointRead => exact .inl loaded
  | entriesSummed =>
    simp only [Worker.advance] at loaded
    split at loaded
    · exact .inl loaded
    · split at loaded <;> exact .inl loaded
  | checkpointWritten =>
    simp only [Worker.advance] at loaded
    split at loaded <;> exact .inl loaded
  | marked =>
    simp only [Worker.advance] at loaded
    split at loaded <;> exact .inl loaded
  | rechecked | failed => exact .inl loaded

theorem advance_monotone {cp : CheckpointRow} (stored : db.checkpoints dim = some cp) :
    ∃ cp', (worker.advance db now).1.checkpoints dim = some cp' ∧ cp.lastEntryID ≤
    cp'.lastEntryID := by
  unfold Worker.advance
  split <;> try exact ⟨cp, stored, le_rfl⟩
  · split
    · exact ⟨cp, stored, le_rfl⟩
    · split
      · exact ⟨cp, stored, le_rfl⟩
      · exact Tables.upsert_advances db _ dim _ cp stored
  · exact ⟨cp, by simpa using stored, le_rfl⟩

end

/-- A transaction holds the balance lock of every entry it has written, and every such entry lies
above all committed entries of its pair. -/
structure PostOk (s : System) (t : Nat) (post : Posting) : Prop where
  pending : ∀ d ∈ post.inserting, d.dim.pair ∈ post.locking ∨ s.locks d.dim.pair = some t
  held : ∀ e ∈ post.written, s.locks e.dim.pair = some t
  drawn : ∀ e ∈ post.written, 0 < e.id ∧ e.id < s.nextEntryID
  above : ∀ e ∈ post.written, ∀ c ∈ s.db.entries, c.dim.pair = e.dim.pair → c.id < e.id

structure Tidy (s : System) : Prop where
  sequence : 0 < s.nextEntryID
  committed : ∀ e ∈ s.db.entries, 0 < e.id ∧ e.id < s.nextEntryID
  posts : ∀ t post, s.posts t = some post → PostOk s t post
  sides : ∀ w sides, (s.workers w).sides = some sides → SidesOk s.db sides

structure Inv (s : System) : Prop where
  sequence : 0 < s.nextEntryID
  committed : ∀ e ∈ s.db.entries, 0 < e.id ∧ e.id < s.nextEntryID
  posts : ∀ t post, s.posts t = some post → PostOk s t post
  checkpoints : ∀ dim cp, s.db.checkpoints dim = some cp → Covers s.db dim cp.balance cp.lastEntryID
  workers : ∀ w, WorkerOk s.db (s.workers w)

variable {post : Posting}

theorem PostOk.keep (ok : PostOk s t post) (entries : s'.db.entries = s.db.entries)
    (sequence : s.nextEntryID ≤ s'.nextEntryID)
    (locks : ∀ p, s.locks p = some t → s'.locks p = some t) : PostOk s' t post where
  pending d member := (ok.pending d member).imp_right (locks _)
  held e member := locks _ (ok.held e member)
  drawn e member := ⟨(ok.drawn e member).1, lt_of_lt_of_le (ok.drawn e member).2 sequence⟩
  above e member c stored := ok.above e member c (entries ▸ stored)

theorem Tidy.initial (initial : Initial s) : Tidy s where
  sequence := initial.sequence
  committed e member := by simp [initial.entries] at member
  posts t post running := by simp [initial.posts] at running
  sides w sides loaded := by simp [initial.workers, Worker.sides] at loaded

theorem Tidy.quiet (tidy : Tidy s) (entries : s'.db.entries = s.db.entries)
    (keeps : KeepsSides s.db s'.db)
    (sequence : s'.nextEntryID = s.nextEntryID) (locks : s'.locks = s.locks)
    (posts : s'.posts = s.posts)
    (sides : ∀ w sides, (s'.workers w).sides = some sides → SidesOk s.db sides) : Tidy s' := by
  have grows : Grows s.db s'.db := ⟨⟨[], by simp [entries], by simp⟩, keeps⟩
  constructor
  · rw [sequence]; exact tidy.sequence
  · rw [entries, sequence]; exact tidy.committed
  · intro t post running
    rw [posts] at running
    exact (tidy.posts t post running).keep entries sequence.ge (by simp [locks])
  · exact fun w held loaded => (sides w held loaded).grow grows

theorem Tidy.posting (tidy : Tidy s) (t : Nat) (db : s'.db = s.db)
    (sequence : s.nextEntryID ≤ s'.nextEntryID)
    (workers : s'.workers = s.workers) (posts : ∀ u, u ≠ t → s'.posts u = s.posts u)
    (locks : ∀ u p, u ≠ t → s.locks p = some u → s'.locks p = some u)
    (own : ∀ post, s'.posts t = some post → PostOk s' t post) : Tidy s' := by
  constructor
  · exact lt_of_lt_of_le tidy.sequence sequence
  · intro e member
    rw [db] at member
    exact ⟨(tidy.committed e member).1, lt_of_lt_of_le (tidy.committed e member).2 sequence⟩
  · intro u post running
    by_cases same : u = t
    · subst same
      exact own post running
    · rw [posts u same] at running
      exact (tidy.posts u post running).keep (by rw [db]) sequence (fun p => locks u p same)
  · rw [db, workers]; exact tidy.sides

theorem takeLock_keeps (free : s.lockable t p) (held : s.locks q = some u) (other : u ≠ t) :
    (s.takeLock t p).locks q = some u := by
  have apart : q ≠ p := by
    rintro rfl
    rcases free with free | free <;> rw [free] at held
    · cases held
    · exact other (Option.some.inj held).symm
  simp [System.takeLock, Function.update_of_ne apart, held]

theorem dropLocks_keeps (held : s.locks q = some u) (other : u ≠ t) :
    (s.dropLocks t).locks q = some u := by
  simp [System.dropLocks, held, other]

theorem commit_grows (ok : PostOk s t post) : Grows s.db (commitEntries s.db post) := by
  obtain ⟨entries, classes, -⟩ := Tables.commitEntries_tables s.db post
  exact ⟨⟨post.written, entries, ok.above⟩, .of_eq classes⟩

theorem Tidy.commit (tidy : Tidy s) {post : Posting} (running : s.posts t = some post) :
    Tidy ((({ s with db := commitEntries s.db post } : System).dropLocks t).setPost t none) := by
  have ok := tidy.posts t post running
  have grows := commit_grows ok
  obtain ⟨entries, -, -⟩ := Tables.commitEntries_tables s.db post
  constructor
  · exact tidy.sequence
  · intro e member
    change e ∈ (commitEntries s.db post).entries at member
    rw [entries, List.mem_append] at member
    exact member.elim (tidy.committed e) (ok.drawn e)
  · intro u post' running'
    have other : u ≠ t := by
      rintro rfl
      simp [System.setPost] at running'
    have ok' := tidy.posts u post' (by simpa [System.setPost, System.dropLocks, other] using running')
    refine ⟨fun d member => (ok'.pending d member).imp_right fun held => ?_,
      fun e member => ?_, ok'.drawn, ?_⟩
    · exact dropLocks_keeps held other
    · exact dropLocks_keeps (ok'.held e member) other
    · intro e member c stored same
      change c ∈ (commitEntries s.db post).entries at stored
      rw [entries, List.mem_append] at stored
      rcases stored with stored | stored
      · exact ok'.above e member c stored same
      · -- Both transactions would hold the lock of the pair.
        have mine := ok.held c stored
        rw [same, ok'.held e member] at mine
        exact absurd (Option.some.inj mine) other
  · exact fun w held loaded => (tidy.sides w held loaded).grow grows

theorem Tidy.insert (tidy : Tidy s) {draft : EntryDraft} {rest : List EntryDraft}
    (running : s.posts t = some post)
    (locked : post.locking = []) (todo : post.inserting = draft :: rest) :
    Tidy (({ s with nextEntryID := s.nextEntryID + 1 } : System).setPost t
      (some { post with inserting := rest, written := post.written ++ [s.entryRow post draft] })) := by
  have ok := tidy.posts t post running
  refine tidy.posting t rfl (Nat.le_succ _) rfl (fun u other => by simp [System.setPost, other])
    (fun u p _ held => held) fun post' running' => ?_
  simp only [System.setPost, Function.update_self, Option.some.injEq] at running'
  subst running'
  have written (e : EntryRow) (member : e ∈ post.written ++ [s.entryRow post draft]) :
      e ∈ post.written ∨ e = s.entryRow post draft := by simpa using member
  have draftHeld : s.locks draft.dim.pair = some t := by
    simpa [locked] using ok.pending draft (by simp [todo])
  constructor
  · intro d member
    exact ok.pending d (by simp [todo, member])
  · intro e member
    rcases written e member with old | rfl
    · exact ok.held e old
    · exact draftHeld
  · intro e member
    rcases written e member with old | rfl
    · exact ⟨(ok.drawn e old).1, Nat.lt_succ_of_lt (ok.drawn e old).2⟩
    · exact ⟨tidy.sequence, Nat.lt_succ_self _⟩
  · intro e member c stored same
    rcases written e member with old | rfl
    · exact ok.above e old c stored same
    · exact (tidy.committed c stored).2

theorem Tidy.lock (tidy : Tidy s) {rest : List Pair} (running : s.posts t = some post)
    (todo : post.locking = p :: rest)
    (free : s.lockable t p) :
    Tidy ((s.takeLock t p).setPost t (some { post with locking := rest })) := by
  have ok := tidy.posts t post running
  have kept (q : Pair) (held : s.locks q = some t) : (s.takeLock t p).locks q = some t := by
    by_cases same : q = p
    · subst same; simp [System.takeLock]
    · simp [System.takeLock, Function.update_of_ne same, held]
  refine tidy.posting t rfl le_rfl rfl
    (fun u other => by simp [System.setPost, System.takeLock, other])
    (fun u q other held => takeLock_keeps free held other) fun post' running' => ?_
  simp only [System.setPost, Function.update_self, Option.some.injEq] at running'
  subst running'
  refine ⟨fun d member => ?_, fun e member => kept _ (ok.held e member), ok.drawn, ok.above⟩
  rcases ok.pending d member with waiting | held
  · rw [todo, List.mem_cons] at waiting
    rcases waiting with same | waiting
    · exact .inr (by simp [System.setPost, System.takeLock, same])
    · exact .inl waiting
  · exact .inr (kept _ held)

theorem setWorker_sides {w : Nat} {worker : Worker}
    (others : ∀ v sides, (s.workers v).sides = some sides → SidesOk db sides)
    (own : ∀ sides, worker.sides = some sides → SidesOk db sides) (v : Nat)
    (sides : List ClassificationRow)
    (loaded : ((s.setWorker w worker).workers v).sides = some sides) : SidesOk db sides := by
  by_cases same : v = w
  · subst same
    exact own sides (by simpa [System.setWorker] using loaded)
  · exact others v sides (by simpa [System.setWorker, Function.update_of_ne same] using loaded)

theorem Tidy.step : Preserved Step Tidy := by
  intro s s' tidy step
  cases step with
  | tick now later => exact tidy.quiet rfl (.of_eq rfl) rfl rfl rfl tidy.sides
  | configure rows keeps => exact tidy.quiet rfl keeps rfl rfl rfl tidy.sides
  | start t journals unused unlocked =>
    refine tidy.posting t rfl le_rfl rfl (fun u other => by simp [System.setPost, other])
      (fun u p _ held => held) fun post running => ?_
    simp only [System.setPost, Function.update_self, Option.some.injEq] at running
    subst running
    constructor <;> simp
  | nextJournal t post journal drafts rest running todo locked inserted =>
    refine tidy.posting t rfl le_rfl rfl (fun u other => by simp [System.setPost, other])
      (fun u p _ held => held) fun post' running' => ?_
    have ok := tidy.posts t post running
    simp only [System.setPost, Function.update_self, Option.some.injEq] at running'
    subst running'
    refine ⟨fun d member => .inl ?_, ok.held, ok.drawn, ok.above⟩
    exact mem_sortedUniquePairs.mpr (List.mem_map_of_mem member)
  | lock t post p rest running todo free => exact tidy.lock running todo free
  | insert t post draft rest running locked todo positive known =>
    exact tidy.insert running locked todo
  | commit t post running posted locked inserted => exact tidy.commit running
  | rollback t post running =>
    refine tidy.posting t rfl le_rfl rfl
      (fun u other => by simp [System.setPost, System.dropLocks, other])
      (fun u p other held => dropLocks_keeps held other) fun post' running' => ?_
    simp [System.setPost] at running'
  | lockOther t p other free =>
    refine tidy.posting t rfl le_rfl rfl (fun u _ => rfl)
      (fun u q differs held => takeLock_keeps free held differs) fun post running => ?_
    simp [System.takeLock, other] at running
  | unlockOther t other =>
    refine tidy.posting t rfl le_rfl rfl (fun u _ => rfl)
      (fun u p differs held => dropLocks_keeps held differs) fun post running => ?_
    simp [System.dropLocks, other] at running
  | dequeue w limit token skipped idle =>
    exact tidy.quiet rfl (.of_eq rfl) rfl rfl rfl (setWorker_sides tidy.sides nofun)
  | advance w =>
    have tables := advance_tables s.db s.now (s.workers w)
    refine tidy.quiet tables.1 (.of_eq tables.2) rfl rfl rfl
      (setWorker_sides tidy.sides fun held loaded => ?_)
    rcases advance_sides s.db s.now (s.workers w) loaded with before | rfl
    · exact tidy.sides w held before
    · exact fun id row found => ⟨row, found, rfl⟩
  | fault w =>
    exact tidy.quiet rfl (.of_eq rfl) rfl rfl rfl
      (setWorker_sides tidy.sides fun held loaded => tidy.sides w held (fault_sides _ loaded))
  | crash w => exact tidy.quiet rfl (.of_eq rfl) rfl rfl rfl (setWorker_sides tidy.sides nofun)
  | resetClaim id => exact tidy.quiet rfl (.of_eq rfl) rfl rfl rfl tidy.sides

theorem Tidy.grows (tidy : Tidy s) (step : Step s s') : Grows s.db s'.db := by
  cases step with
  | configure rows keeps => exact ⟨⟨[], by simp, by simp⟩, keeps⟩
  | commit t post running posted locked inserted => exact commit_grows (tidy.posts t post running)
  | advance w => exact advance_grows s.db s.now (s.workers w)
  | _ => exact .of_eq rfl rfl

theorem Tidy.positive (tidy : Tidy s) : ∀ e ∈ s.db.entries, 0 < e.id := fun e member =>
    (tidy.committed e member).1

theorem step_entries (step : Step s s') :
    s'.db.entries = s.db.entries ∨ ∃ t post, s.posts t = some post ∧ s'.db.entries =
    s.db.entries ++ post.written := by
  cases step with
  | commit t post running posted locked inserted =>
    exact .inr ⟨t, post, running, (Tables.commitEntries_tables s.db post).1⟩
  | advance w => exact .inl (advance_tables s.db s.now (s.workers w)).1
  | _ => exact .inl rfl

theorem Tidy.filter_entries (tidy : Tidy s) (step : Step s s') (held : s.locks p = some t)
    (other : s.posts t = none)
    (f : EntryRow → Bool) (inside : ∀ e, f e = true → e.dim.pair = p) : s'.db.entries.filter f =
    s.db.entries.filter f := by
  rcases step_entries step with same | ⟨u, post, running, appended⟩
  · rw [same]
  · have none_ : post.written.filter f = [] := by
      rw [List.filter_eq_nil_iff]
      intro e member chosen
      have mine := (tidy.posts u post running).held e member
      rw [inside e chosen, held, Option.some.injEq] at mine
      rw [mine, running] at other
      cases other
    rw [appended, List.filter_append, none_, List.append_nil]

/-- What is asked of a checkpoint row is a parameter: it must be exact up to its watermark, stay so
as the entries grow, and admit every row a worker writes from exact sums. -/
structure Standing (good : LedgerTables → Dimension → CheckpointRow → Prop) : Prop where
  exact_ {db : LedgerTables} {dim : Dimension} {cp : CheckpointRow} {row : ClassificationRow} :
    good db dim cp →
    db.getClassification dim.classification = some row → cp.balance =
      signedSumUpTo db row.normalSide dim cp.lastEntryID
  grow {db db' : LedgerTables} {dim : Dimension} {cp : CheckpointRow} :
    (∀ e ∈ db'.entries, 0 < e.id) →
    good db dim cp → Grows db db' → good db' dim cp
  written {db : LedgerTables} {dim : Dimension} {cp : CheckpointRow} :
    Covers db dim cp.balance cp.lastEntryID → good db dim cp

section

variable {good : LedgerTables → Dimension → CheckpointRow → Prop}

def ReadOk (good : LedgerTables → Dimension → CheckpointRow → Prop) (db : LedgerTables)
    (dim : Dimension) : Worker → Prop
  | .checkpointRead _ item _ cp => item.dim = dim → ∀ row, cp = some row → good db dim row
  | .entriesSummed sides item _ cp sums => item.dim = dim → SumsOk db sides dim cp sums
  | _ => True

structure DimOk (good : LedgerTables → Dimension → CheckpointRow → Prop) (s : System)
    (dim : Dimension) : Prop where
  checkpoint : ∀ cp, s.db.checkpoints dim = some cp → good s.db dim cp
  reads : ∀ w, ReadOk good s.db dim (s.workers w)

variable {worker : Worker} {s s' : System} {dim : Dimension}

theorem ReadOk.of_none (nothing : worker.reading ≠ some dim) : ReadOk good db dim worker := by
  cases worker with
  | checkpointRead sides item rest cp => exact fun same => absurd (congrArg some same) nothing
  | entriesSummed sides item rest cp sums => exact fun same => absurd (congrArg some same) nothing
  | _ => trivial

theorem ReadOk.grow (standing : Standing good) {db db' : LedgerTables} {dim : Dimension}
    (positive : ∀ e ∈ db'.entries, 0 < e.id) (ok : ReadOk good db dim worker)
    (grows : Grows db db') : ReadOk good db' dim worker := by
  cases worker with
  | checkpointRead => exact fun same row read => standing.grow positive (ok same row read) grows
  | entriesSummed => exact fun same => (ok same).grow grows
  | _ => trivial

theorem DimOk.advance (standing : Standing good) (tidy : Tidy s) (ok : DimOk good s dim) (w : Nat) :
    (∀ cp, ((s.workers w).advance s.db s.now).1.checkpoints dim = some cp → good s.db dim cp) ∧
      ReadOk good s.db dim ((s.workers w).advance s.db s.now).2 := by
  have own := ok.reads w
  rcases advance_cases s.db s.now (s.workers w) with ⟨same, nothing⟩ | ⟨sides, item,
    rest, before, after⟩ |
    ⟨sides, item, rest, cp, before, after⟩ | ⟨sides, item, rest, cp, sums, row,
      before, work, next, after⟩
  · rw [same]
    exact ⟨ok.checkpoint, .of_none (by simp [nothing])⟩
  · rw [after]
    exact ⟨ok.checkpoint, fun same row read => ok.checkpoint row (same ▸ read)⟩
  · rw [after]
    refine ⟨ok.checkpoint, fun same => ?_⟩
    rw [before] at own
    have sidesOk := tidy.sides w sides (by rw [before]; rfl)
    subst same
    refine sumsOk_of_snapshot sidesOk fun row found => ?_
    cases cp with
    | none => exact (signedSumUpTo_zero tidy.positive _ _).symm
    | some cp => exact standing.exact_ (own rfl cp rfl) found
  · rw [after]
    rw [before] at own
    have sidesOk := tidy.sides w sides (by rw [before]; rfl)
    refine ⟨fun cp' stored => ?_, trivial⟩
    rcases Tables.upsert_checkpoints s.db _ dim row cp' stored with old | ⟨rfl, rfl⟩
    · exact ok.checkpoint cp' old
    · exact standing.written (nextCheckpoint_covers sidesOk (own rfl) work next)

theorem step_reads (step : Step s s') : (s'.db.checkpoints = s.db.checkpoints ∧
      ∀ w, s'.workers w = s.workers w ∨ (s'.workers w).reading = none) ∨
    ∃ w, s' = ({ s with db := ((s.workers w).advance s.db s.now).1 } : System).setWorker w
      ((s.workers w).advance s.db s.now).2 := by
  have set {worker : Worker} (nothing : worker.reading = none) (db : LedgerTables) (w v : Nat) :
      ((({ s with db := db } : System).setWorker w worker).workers v = s.workers v ∨
        (((({ s with db := db } : System).setWorker w worker)).workers v).reading = none) := by
    by_cases same : v = w
    · exact .inr (by simp [System.setWorker, same, nothing])
    · exact .inl (by simp [System.setWorker, Function.update_of_ne same])
  cases step with
  | commit t post running posted locked inserted =>
    exact .inl ⟨(Tables.commitEntries_tables s.db post).2.2, fun _ => .inl rfl⟩
  | dequeue w limit token skipped idle => exact .inl ⟨rfl, set rfl _ w⟩
  | fault w => exact .inl ⟨rfl, set (fault_reading _) _ w⟩
  | crash w => exact .inl ⟨rfl, set rfl _ w⟩
  | advance w => exact .inr ⟨w, rfl⟩
  | _ => exact .inl ⟨rfl, fun _ => .inl rfl⟩

theorem DimOk.step (standing : Standing good) (tidy : Tidy s) (ok : DimOk good s dim)
    (step : Step s s') : DimOk good s' dim := by
  have positive := (Tidy.step _ _ tidy step).positive
  have grows := tidy.grows step
  rcases step_reads step with ⟨checkpoints, workers⟩ | ⟨w, rfl⟩
  · constructor
    · intro cp stored
      exact standing.grow positive (ok.checkpoint cp (checkpoints ▸ stored)) grows
    · intro w
      rcases workers w with same | nothing
      · rw [same]
        exact (ok.reads w).grow standing positive grows
      · exact .of_none (by simp [nothing])
  · obtain ⟨written, own⟩ := ok.advance standing tidy w
    constructor
    · exact fun cp stored => standing.grow positive (written cp stored) grows
    · intro v
      by_cases same : v = w
      · subst same
        simpa [System.setWorker] using own.grow standing positive grows
      · simpa [System.setWorker, Function.update_of_ne same] using (ok.reads v).grow standing positive grows

end

theorem standing_covers : Standing fun db dim cp => Covers db dim cp.balance cp.lastEntryID where
  exact_ covers found := by
    obtain ⟨row', found', total⟩ := covers.summed
    rw [found, Option.some.injEq] at found'
    rw [found']
    exact total
  grow _ covers grows := covers.grow grows
  written covers := covers

variable {db : LedgerTables} {dim : Dimension} {row : ClassificationRow}

theorem workerOk_iff {worker : Worker} :
    WorkerOk db worker ↔ (∀ sides, worker.sides = some sides → SidesOk db sides) ∧
      ∀ dim, ReadOk (fun db dim cp => Covers db dim cp.balance cp.lastEntryID) db dim worker := by
  cases worker with
  | checkpointRead sides item rest cp =>
    cases cp <;> simp [WorkerOk, Worker.sides, ReadOk, CheckpointOk]
  | _ => simp [WorkerOk, Worker.sides, ReadOk]

variable {s s' : System} {db' db'' : LedgerTables}

theorem inv_iff : Inv s ↔ Tidy s ∧
    ∀ dim, DimOk (fun db dim cp => Covers db dim cp.balance cp.lastEntryID) s dim := by
  constructor
  · intro inv
    refine ⟨⟨inv.sequence, inv.committed, inv.posts, fun w =>
      (workerOk_iff.mp (inv.workers w)).1⟩, fun dim => ?_⟩
    exact ⟨inv.checkpoints dim, fun w => (workerOk_iff.mp (inv.workers w)).2 dim⟩
  · rintro ⟨tidy, dims⟩
    refine ⟨tidy.sequence, tidy.committed, tidy.posts, fun dim => (dims dim).checkpoint, fun w => ?_⟩
    exact workerOk_iff.mpr ⟨tidy.sides w, fun dim => (dims dim).reads w⟩

theorem Inv.tidy (inv : Inv s) : Tidy s := (inv_iff.mp inv).1

theorem Inv.initial (initial : Initial s) : Inv s := by
  refine inv_iff.mpr ⟨.initial initial, fun dim => ⟨?_, fun w => .of_none ?_⟩⟩
  · simp [initial.checkpoints]
  · simp [initial.workers, Worker.reading]

theorem Inv.step : Preserved Step Inv := by
  intro s s' inv step
  obtain ⟨tidy, dims⟩ := inv_iff.mp inv
  exact inv_iff.mpr ⟨Tidy.step _ _ tidy step, fun dim => (dims dim).step standing_covers tidy step⟩

theorem Reachable.inv (reachable : Reachable s) : Inv s := by
  obtain ⟨start, initial, run⟩ := reachable
  exact Inv.step.run (Inv.initial initial) run

def Advances (db db' : LedgerTables) : Prop :=
  ∀ dim cp, db.checkpoints dim = some cp → ∃ cp', db'.checkpoints dim = some cp' ∧
    cp.lastEntryID ≤ cp'.lastEntryID

theorem Advances.of_eq (same : db'.checkpoints = db.checkpoints) : Advances db db' :=
  fun _ cp stored => ⟨cp, by rw [same, stored], le_rfl⟩

theorem step_advances (step : Step s s') : Advances s.db s'.db := by
  cases step with
  | commit t post running posted locked inserted =>
    exact .of_eq (Tables.commitEntries_tables s.db post).2.2
  | advance w => exact fun dim cp => advance_monotone s.db s.now (s.workers w)
  | _ => exact .of_eq rfl

theorem step_grows (inv : Inv s) (step : Step s s') : Grows s.db s'.db ∧ Advances s.db s'.db :=
  ⟨inv.tidy.grows step, step_advances step⟩

theorem run_grows (inv : Inv s) (run : Run Step s s') : Grows s.db s'.db ∧ Advances s.db s'.db := by
  refine Inv.step.run_rel (fun s s' => Grows s.db s'.db ∧ Advances s.db s'.db)
    (fun s => ⟨.refl, .of_eq rfl⟩) ?_ (fun s s' => step_grows) inv run
  intro s t u first second
  refine ⟨first.1.trans second.1, fun dim cp stored => ?_⟩
  obtain ⟨cp', stored', le⟩ := first.2 dim cp stored
  obtain ⟨cp'', stored'', le'⟩ := second.2 dim cp' stored'
  exact ⟨cp'', stored'', le.trans le'⟩

def entriesSince (db : LedgerTables) (dim : Dimension) (cp : Option CheckpointRow) :
    List EntryRow :=
  (db.dimEntries dim).filter fun e => sinceEntryID cp < e.id

theorem entrySum_exp (db : LedgerTables) (dim : Dimension) (since : Nat) (side : Side) :
    (entrySum db dim since side).exp = 0 ∨ (entrySum db dim since side).exp = -18 := by
  unfold entrySum
  cases db.sumEntriesSinceForClassification dim since side <;>
    simp [Decimal.zero, Decimal.add, numericToDecimal, ofUnits]

theorem getBalance_eq (found : db''.getClassification dim.classification = some row) :
    getBalanceWithQueries db db' db'' dim =
      match delta row.normalSide.normalSide (entrySum db' dim (sinceEntryID (db.checkpoints dim)) .debit)
        (entrySum db' dim (sinceEntryID (db.checkpoints dim)) .credit) with
      | .error err => .error (err.wrap "postgres: get balance: classification %d")
      | .ok d => .ok ((currentBalance (db.checkpoints dim)).add d) := by
  unfold getBalanceWithQueries
  rw [found]
  rfl

theorem getBalance_exact (positive : ∀ e ∈ db'.entries, 0 < e.id)
    (ok : CheckpointOk db' dim (db.checkpoints dim))
    (found : db'.getClassification dim.classification = some row) (later : KeepsSides db' db'') :
    (∀ b, getBalanceWithQueries db db' db'' dim = .ok b → b.val = signedTotal db' row.normalSide
      dim / (10 : ℚ) ^ 18) ∧
    ((∀ side, (sideSum (entriesSince db' dim (db.checkpoints dim)) side).natAbs < 10 ^ 30) →
      ∃ b, getBalanceWithQueries db db' db'' dim = .ok b) := by
  obtain ⟨row'', found'', side''⟩ := later _ row found
  have base := currentBalance_val (db.checkpoints dim)
  rw [checkpointBalance_eq positive ok found] at base
  have sumVal (side : Side) : (entrySum db' dim (sinceEntryID (db.checkpoints dim)) side).val =
      sideSum (entriesSince db' dim (db.checkpoints dim)) side / (10 : ℚ) ^ 18 := sumSide_val _ side
  rw [getBalance_eq found'', side'']
  constructor
  · intro b answered
    split at answered
    · cases answered
    next d deltaOk =>
    cases answered
    obtain ⟨side, same, value⟩ := delta_ok deltaOk
    have sameSide : side = row.normalSide := by
      cases h : row.normalSide <;> cases side <;> simp_all [Side.normalSide]
    rw [Decimal.val_add, value, sumVal, sumVal, base, sameSide, Side.signed_div,
      Side.signed_div, signedTotal,
      ← sumUpTo_add_sumAfter EntryRow.id _ _ (sinceEntryID (db.checkpoints dim)), sumAfter, sum_signedEntry,
      signedSumUpTo]
    push_cast
    simp only [entriesSince]
    ring
  · intro small
    have rescalable (side : Side) :
        validateAmountIsRescalable (entrySum db' dim (sinceEntryID (db.checkpoints dim)) side) = .ok () := by
      have exponent := entrySum_exp db' dim (sinceEntryID (db.checkpoints dim)) side
      rw [validateAmountIsRescalable_ok_iff (by omega) (by omega), sumVal, abs_div,
        abs_of_pos (by positivity : (0 : ℚ) < 10 ^ 18), div_lt_iff₀ (by positivity), ← Int.cast_abs,
        Int.abs_eq_natAbs]
      have bound := small side
      have cast : ((sideSum (entriesSince db' dim (db.checkpoints dim)) side).natAbs : ℚ) < 10 ^ 30 := by
        exact_mod_cast bound
      norm_num at cast ⊢
      linarith
    obtain ⟨d, deltaOk, -⟩ := delta_side row.normalSide (rescalable .debit) (rescalable .credit)
    rw [deltaOk]
    exact ⟨_, rfl⟩

/-- Along every interleaving of journal transactions, rollup workers and crashes, a stored
checkpoint is the signed sum of its dimension's committed entries up to its watermark, the watermark
never falls, and a balance read answers with the signed sum of all committed entries. The read's
statements may run at three different points of the run; `Delta` refuses a sum of more than twelve
integer digits. -/
theorem rollup_checkpoints_sound {s : System} (reachable : Reachable s) :
    (∀ dim cp, s.db.checkpoints dim = some cp →
      ∃ row, s.db.getClassification dim.classification = some row ∧ cp.balance =
      signedSumUpTo s.db row.normalSide dim cp.lastEntryID) ∧
    (∀ s', Run Step s s' → ∀ dim cp, s.db.checkpoints dim = some cp →
      ∃ cp', s'.db.checkpoints dim = some cp' ∧ cp.lastEntryID ≤ cp'.lastEntryID) ∧
    (∀ s' s'', Run Step s s' → Run Step s' s'' →
      ∀ dim row, s'.db.getClassification dim.classification = some row →
      (∀ b, getBalanceWithQueries s.db s'.db s''.db dim = .ok b →
        b.val = signedTotal s'.db row.normalSide dim / (10 : ℚ) ^ 18) ∧
      ((∀ side, (sideSum (entriesSince s'.db dim (s.db.checkpoints dim)) side).natAbs < 10 ^ 30) →
        ∃ b, getBalanceWithQueries s.db s'.db s''.db dim = .ok b)) := by
  have inv := reachable.inv
  refine ⟨fun dim cp stored => (inv.checkpoints dim cp stored).summed,
    fun s' run => (run_grows inv run).2, fun s' s'' run run' dim row found => ?_⟩
  have inv' := Inv.step.run inv run
  have checkpoint : CheckpointOk s.db dim (s.db.checkpoints dim) := by
    cases stored : s.db.checkpoints dim with
    | none => trivial
    | some cp => exact inv.checkpoints dim cp stored
  exact getBalance_exact (fun e member => (inv'.committed e member).1)
    (checkpoint.grow (run_grows inv run).1) found (run_grows inv' run').1.sides

def sampleWallet : Dimension := ⟨7, 1, 1⟩
def sampleCustody : Dimension := ⟨-7, 1, 2⟩

def sampleSystem : System where
  db := { classifications := [⟨1, .nil, [], .debit, false, true, .available⟩,
    ⟨2, .nil, [], .credit, true, true, .none⟩]
          entries := [], checkpoints := fun _ => none, queue := [], nextQueueID := 1 }
  now := 0
  nextEntryID := 1
  locks := fun _ => none
  posts := fun _ => none
  workers := fun _ => .idle

def sampleDeposit : List EntryDraft :=
  [⟨sampleWallet, .debit, 5, 0⟩, ⟨sampleCustody, .credit, 5, 0⟩]

theorem sampleSystem_initial : Initial sampleSystem :=
  ⟨rfl, fun _ => rfl, by decide, fun _ => rfl, fun _ => rfl⟩

def System.deposited (s : System) : System :=
  { s with
    db := commitEntries s.db ⟨[], 1, [], [], [⟨s.nextEntryID, 1, sampleWallet, .debit, 5, s.now, 0⟩,
      ⟨s.nextEntryID + 1, 1, sampleCustody, .credit, 5, s.now, 0⟩], s.now⟩
    nextEntryID := s.nextEntryID + 2 }

theorem deposited_run (posts : s.posts = fun _ => none) (locks : s.locks = fun _ => none)
    (wallet : (s.db.getClassification 1).isSome)
    (custody : (s.db.getClassification 2).isSome) : Run Step s s.deposited := by
  obtain ⟨db, now, nextEntryID, _, _, workers⟩ := s
  subst posts locks
  refine cast (congrArg _ ?_) (.head (.start _ 0 [(1, sampleDeposit)] rfl nofun) <|
    .head (.nextJournal _ 0 _ 1 sampleDeposit [] rfl rfl rfl rfl) <|
    .head (.lock _ 0 _ sampleCustody.pair [sampleWallet.pair] rfl rfl (.inl rfl)) <|
    .head (.lock _ 0 _ sampleWallet.pair [] rfl rfl (.inl rfl)) <|
    .head (.insert _ 0 _ ⟨sampleWallet, .debit, 5, 0⟩ [⟨sampleCustody, .credit, 5, 0⟩] rfl rfl rfl
      (by decide) wallet) <|
    .head (.insert _ 0 _ ⟨sampleCustody, .credit, 5, 0⟩ [] rfl rfl rfl (by decide) custody) <|
    .head (.commit _ 0 _ rfl rfl rfl rfl) (.refl : Run Step _ _))
  simp only [System.deposited, System.setPost, System.dropLocks, System.takeLock, System.mk.injEq]
  refine ⟨rfl, trivial, trivial, ?_, ?_, trivial⟩
  · funext p
    simp only [Function.update_apply]
    split_ifs <;> simp_all
  · funext t
    by_cases same : t = 0 <;> simp [same]

theorem sample_reachable : ∃ s, Reachable s ∧ s.db.checkpoints sampleWallet = some ⟨5, 1, 0⟩ := by
  have posted : Run Step sampleSystem sampleSystem.deposited := deposited_run rfl rfl rfl rfl
  refine ⟨_, ⟨sampleSystem, sampleSystem_initial, posted.trans <|
    .head (.dequeue _ 0 10 99 [] rfl) <|
    .head (.advance _ 0) <| .head (.advance _ 0) <| .head (.advance _ 0) <|
      .head (.advance _ 0) .refl⟩, ?_⟩
  rfl

theorem rollup_checkpoints_sound_after_deposit : ∃ s : System, Reachable s ∧
    s.db.checkpoints sampleWallet = some ⟨5, 1, 0⟩ ∧
      ∃ row, s.db.getClassification 1 = some row ∧ 5 = signedSumUpTo s.db row.normalSide
      sampleWallet 1 := by
  obtain ⟨s, reachable, stored⟩ := sample_reachable
  exact ⟨s, reachable, stored, (rollup_checkpoints_sound reachable).1 sampleWallet _ stored⟩

end Ledger.Service
