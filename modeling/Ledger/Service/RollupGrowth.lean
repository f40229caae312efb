import Ledger.Service.Rollup
import Ledger.Shared.Watermark

namespace Ledger.Service

open Core Postgres Shared

namespace Tables

variable (db : LedgerTables)

@[simp] theorem enqueueRollup_entries (now : Int) (dim : Dimension) :
    (db.enqueueRollup now dim).entries = db.entries := by
  unfold LedgerTables.enqueueRollup; split <;> rfl

@[simp] theorem enqueueRollup_classifications (now : Int) (dim : Dimension) :
    (db.enqueueRollup now dim).classifications = db.classifications := by
  unfold LedgerTables.enqueueRollup; split <;> rfl

@[simp] theorem enqueueRollup_checkpoints (now : Int) (dim : Dimension) :
    (db.enqueueRollup now dim).checkpoints = db.checkpoints := by
  unfold LedgerTables.enqueueRollup; split <;> rfl

@[simp] theorem upsert_entries (dim : Dimension) (row : CheckpointRow) :
    (db.upsertBalanceCheckpoint dim row).entries = db.entries := by
  unfold LedgerTables.upsertBalanceCheckpoint; split <;> [split <;> rfl; rfl]

@[simp] theorem upsert_classifications (dim : Dimension) (row : CheckpointRow) :
    (db.upsertBalanceCheckpoint dim row).classifications = db.classifications := by
  unfold LedgerTables.upsertBalanceCheckpoint; split <;> [split <;> rfl; rfl]

theorem upsert_checkpoints (dim other : Dimension) (row cp : CheckpointRow)
    (stored : (db.upsertBalanceCheckpoint dim row).checkpoints other = some cp) :
    db.checkpoints other = some cp ∨ other = dim ∧ cp = row := by
  have updated : (Function.update db.checkpoints dim (some row)) other = some cp →
      db.checkpoints other = some cp ∨ other = dim ∧ cp = row := by
    intro found
    by_cases same : other = dim
    · subst same
      simp only [Function.update_self, Option.some.injEq] at found
      exact .inr ⟨rfl, found.symm⟩
    · rw [Function.update_of_ne same] at found
      exact .inl found
  unfold LedgerTables.upsertBalanceCheckpoint at stored
  split at stored
  · split at stored
    · exact updated stored
    · exact .inl stored
  · exact updated stored

theorem upsert_advances (dim other : Dimension) (row cp : CheckpointRow)
    (present : db.checkpoints other = some cp) :
    ∃ cp', (db.upsertBalanceCheckpoint dim row).checkpoints other = some cp' ∧ cp.lastEntryID ≤
    cp'.lastEntryID := by
  unfold LedgerTables.upsertBalanceCheckpoint
  by_cases same : other = dim
  · subst same
    simp only [present]
    split
    · next lower => exact ⟨row, by simp, Nat.le_of_lt lower⟩
    · exact ⟨cp, present, le_rfl⟩
  · split
    · split
      · exact ⟨cp, by simp [Function.update_of_ne same, present], le_rfl⟩
      · exact ⟨cp, present, le_rfl⟩
    · exact ⟨cp, by simp [Function.update_of_ne same, present], le_rfl⟩

theorem commitEntries_tables (post : Posting) : (commitEntries db post).entries =
    db.entries ++ post.written ∧
      (commitEntries db post).classifications = db.classifications ∧
      (commitEntries db post).checkpoints = db.checkpoints := by
  have enqueueAll (dims : List Dimension) (start : LedgerTables) :
      let final := dims.foldl (fun db dim => db.enqueueRollup post.startedAt dim) start
      final.entries = start.entries ∧ final.classifications = start.classifications ∧
        final.checkpoints = start.checkpoints := by
    induction dims generalizing start with
    | nil => exact ⟨rfl, rfl, rfl⟩
    | cons dim dims ih =>
      obtain ⟨entries, classes, checkpoints⟩ := ih (start.enqueueRollup post.startedAt dim)
      simp only [List.foldl_cons]
      exact ⟨by simpa using entries, by simpa using classes, by simpa using checkpoints⟩
  exact enqueueAll _ _

end Tables

def signedEntry (normalSide : Side) (e : EntryRow) :
    Int := ledgerSignedAmount normalSide e.entryType e.amount

def signedSumUpTo (db : LedgerTables) (normalSide : Side) (dim : Dimension) (w : Nat) : Int :=
  sumUpTo EntryRow.id (signedEntry normalSide) (db.dimEntries dim) w

def signedTotal (db : LedgerTables) (normalSide : Side) (dim : Dimension) : Int :=
  ((db.dimEntries dim).map (signedEntry normalSide)).sum

def sideSum (entries : List EntryRow) (side : Side) : Int :=
  ((entries.filter (·.entryType == side)).map (·.amount)).sum

theorem sum_signedEntry (normalSide : Side) (entries : List EntryRow) :
    (entries.map (signedEntry normalSide)).sum =
      ledgerSignedAmount normalSide .debit (sideSum entries .debit) +
        ledgerSignedAmount normalSide .credit (sideSum entries .credit) := by
  induction entries with
  | nil => simp [sideSum]
  | cons e entries ih =>
    rw [List.map_cons, List.sum_cons, ih]
    cases side : e.entryType <;>
      simp [sideSum, signedEntry, side, ledgerSignedAmount_add, add_assoc, add_left_comm]

theorem sumSide_val (entries : List EntryRow) (side : Side) :
    (((LedgerTables.sumSide entries side).map fun total =>
      Decimal.zero.add (numericToDecimal total)).getD Decimal.zero).val =
      sideSum entries side / (10 : ℚ) ^ 18 := by
  unfold LedgerTables.sumSide
  simp only
  split
  · next empty =>
    rw [List.isEmpty_iff] at empty
    simp [sideSum, empty]
  · simp [numericToDecimal, ofUnits_val, sideSum]

variable (db : LedgerTables)

theorem classEntries_eq (dim : Dimension) (since : Nat) :
    (db.pairEntriesSince dim.pair since).filter (·.dim.classification == dim.classification) =
      (db.dimEntries dim).filter fun e => since < e.id := by
  unfold LedgerTables.pairEntriesSince LedgerTables.dimEntries
  rw [List.filter_filter, List.filter_filter]
  congr 1
  funext e
  rcases e with ⟨id, journal, ⟨holder, currency, classification⟩, rest⟩
  rcases dim with ⟨holder', currency', classification'⟩
  rw [Bool.eq_iff_iff]
  simp only [Dimension.pair, Bool.and_eq_true, beq_iff_eq, decide_eq_true_eq,
    Pair.mk.injEq, Dimension.mk.injEq]
  tauto

theorem foldl_max_id (rows : List EntryRow) (m : Nat) :
    let top := rows.foldl (fun m e => max m e.id) m
    m ≤ top ∧ (∀ e ∈ rows, e.id ≤ top) ∧ (top = m ∨ ∃ e ∈ rows, e.id = top) := by
  induction rows generalizing m with
  | nil => simp
  | cons e rows ih =>
    obtain ⟨start, bound, reached⟩ := ih (max m e.id)
    simp only [List.foldl_cons]
    refine ⟨by omega, ?_, ?_⟩
    · intro e' member
      rcases List.mem_cons.mp member with rfl | member
      · omega
      · exact bound e' member
    · rcases reached with top | ⟨e', member, top⟩
      · rcases Nat.le_total m e.id with le | le
        · exact .inr ⟨e, by simp, by omega⟩
        · exact .inl (by omega)
      · exact .inr ⟨e', by simp [member], top⟩

theorem maxEntry_bounds (pair : Pair) (since : Nat) :
    let top := (db.getMaxEntryForAccountCurrencySince pair since).1
    (∀ e ∈ db.pairEntriesSince pair since, e.id ≤ top) ∧
      (top = 0 ∨ ∃ e ∈ db.pairEntriesSince pair since, e.id = top) :=
  (foldl_max_id _ 0).2

/-- All a run does to the committed entries is append to them, and what it appends to a pair comes
after everything the pair already has. That is what the balance lock is for. -/
structure Grows (db db' : LedgerTables) : Prop where
  appends : ∃ new, db'.entries = db.entries ++ new ∧
    ∀ e ∈ new, ∀ old ∈ db.entries, old.dim.pair = e.dim.pair → old.id < e.id
  sides : KeepsSides db db'

variable {db} {db' : LedgerTables}

theorem KeepsSides.of_eq (same : db'.classifications = db.classifications) : KeepsSides db db' := by
  intro id row found
  exact ⟨row, by simpa [LedgerTables.getClassification, same] using found, rfl⟩

theorem Grows.of_eq (entries : db'.entries = db.entries)
    (classes : db'.classifications = db.classifications) : Grows db db' :=
  ⟨⟨[], by simp [entries], by simp⟩, .of_eq classes⟩

theorem Grows.refl : Grows db db := .of_eq rfl rfl

theorem Grows.trans {a b c : LedgerTables} (first : Grows a b) (second : Grows b c) :
    Grows a c := by
  obtain ⟨⟨new, appended, after⟩, sides⟩ := first
  obtain ⟨⟨new', appended', after'⟩, sides'⟩ := second
  constructor
  · refine ⟨new ++ new', by rw [appended', appended, List.append_assoc], ?_⟩
    intro e member old present same
    rcases List.mem_append.mp member with member | member
    · exact after e member old present same
    · exact after' e member old (by simp [appended, present]) same
  · intro id row found
    obtain ⟨row', found', side⟩ := sides id row found
    obtain ⟨row'', found'', side'⟩ := sides' id row' found'
    exact ⟨row'', found'', side'.trans side⟩

/-- `w` is the id of a committed entry of the pair, so every later entry of the pair lies above it.
-/
def Reached (db : LedgerTables) (pair : Pair) (w : Nat) : Prop := ∃ e ∈ db.entries,
    e.dim.pair = pair ∧ e.id = w

variable {w : Nat} {dim : Dimension}

theorem Reached.grow {pair : Pair} (reached : Reached db pair w) (grows : Grows db db') :
    Reached db' pair w := by
  obtain ⟨e, member, same, top⟩ := reached
  obtain ⟨⟨new, appended, -⟩, -⟩ := grows
  exact ⟨e, by simp [appended, member], same, top⟩

theorem signedSumUpTo_grow (normalSide : Side) (reached : Reached db dim.pair w)
    (grows : Grows db db') : signedSumUpTo db' normalSide dim w =
    signedSumUpTo db normalSide dim w := by
  obtain ⟨e, member, same, rfl⟩ := reached
  obtain ⟨⟨new, appended, after⟩, -⟩ := grows
  unfold signedSumUpTo LedgerTables.dimEntries
  rw [appended, List.filter_append]
  apply sumUpTo_append_of_above
  intro x present
  rw [List.mem_filter, beq_iff_eq] at present
  exact after x present.1 e member (by rw [same, present.2])

/-- A materialised balance is exact up to its watermark. -/
structure Covers (db : LedgerTables) (dim : Dimension) (balance : Int) (w : Nat) : Prop where
  reached : Reached db dim.pair w
  summed : ∃ row, db.getClassification dim.classification = some row ∧
    balance = signedSumUpTo db row.normalSide dim w

theorem Covers.grow {balance : Int} (covers : Covers db dim balance w)
    (grows : Grows db db') : Covers db' dim balance w := by
  obtain ⟨reached, row, found, exact_⟩ := covers
  obtain ⟨row', found', side⟩ := grows.sides _ row found
  refine ⟨reached.grow grows, row', found', ?_⟩
  rw [side, signedSumUpTo_grow _ reached grows, exact_]

def CheckpointOk (db : LedgerTables) (dim : Dimension) : Option CheckpointRow → Prop
  | some cp => Covers db dim cp.balance cp.lastEntryID
  | none => True

variable {cp : Option CheckpointRow}

theorem CheckpointOk.grow (ok : CheckpointOk db dim cp) (grows : Grows db db') :
    CheckpointOk db' dim cp := by
  cases cp with
  | none => trivial
  | some cp => exact Covers.grow ok grows

def SidesOk (db : LedgerTables) (sides : List ClassificationRow) : Prop :=
  ∀ id row, sides.find? (·.id == id) = some row →
    ∃ row', db.getClassification id = some row' ∧ row'.normalSide = row.normalSide

theorem SidesOk.grow {sides : List ClassificationRow} (ok : SidesOk db sides)
    (grows : Grows db db') :
    SidesOk db' sides := by
  intro id row found
  obtain ⟨row', found', side⟩ := ok id row found
  obtain ⟨row'', found'', side'⟩ := grows.sides id row' found'
  exact ⟨row'', found'', side'.trans side⟩

def newBalanceVal (dim : Dimension) (cp : Option CheckpointRow) (sums : EntrySums)
    (normalSide : Side) : ℚ :=
  (currentBalance cp).val +
    (normalSide.signed .debit ((sums.debitByClass dim.classification).getD Decimal.zero).val +
      normalSide.signed .credit ((sums.creditByClass dim.classification).getD Decimal.zero).val)

/-- The sums a worker holds either give it nothing to do, or complete its checkpoint up to their
maximum entry id. -/
def SumsOk (db : LedgerTables) (sides : List ClassificationRow) (dim : Dimension)
    (cp : Option CheckpointRow)
    (sums : EntrySums) : Prop :=
  (sums.maxEntryID = 0 ∨ sums.maxEntryID ≤ sinceEntryID cp) ∨
    Reached db dim.pair sums.maxEntryID ∧
      ∀ row, sides.find? (·.id == dim.classification) = some row →
        newBalanceVal dim cp sums row.normalSide = signedSumUpTo db row.normalSide dim sums.maxEntryID / (10 : ℚ) ^ 18

theorem SumsOk.grow {sides : List ClassificationRow} {sums : EntrySums}
    (ok : SumsOk db sides dim cp sums) (grows : Grows db db') : SumsOk db' sides dim cp sums := by
  rcases ok with nothing | ⟨reached, total⟩
  · exact .inl nothing
  · refine .inr ⟨reached.grow grows, fun row found => ?_⟩
    rw [total row found, signedSumUpTo_grow _ reached grows]

def WorkerOk (db : LedgerTables) : Worker → Prop
  | .idle => True
  | .dequeued _ => True
  | .releasing _ => True
  | .looping sides _ => SidesOk db sides
  | .checkpointRead sides item _ cp => SidesOk db sides ∧ CheckpointOk db item.dim cp
  | .entriesSummed sides item _ cp sums => SidesOk db sides ∧ SumsOk db sides item.dim cp sums
  | .checkpointWritten sides _ _ _ => SidesOk db sides
  | .marked sides _ _ _ => SidesOk db sides
  | .rechecked sides _ _ => SidesOk db sides
  | .failed sides _ _ => SidesOk db sides

def Worker.sides : Worker → Option (List ClassificationRow)
  | .idle => none
  | .dequeued _ => none
  | .releasing _ => none
  | .looping sides _ => some sides
  | .checkpointRead sides _ _ _ => some sides
  | .entriesSummed sides _ _ _ _ => some sides
  | .checkpointWritten sides _ _ _ => some sides
  | .marked sides _ _ _ => some sides
  | .rechecked sides _ _ => some sides
  | .failed sides _ _ => some sides

def Worker.reading : Worker → Option Dimension
  | .checkpointRead _ item _ _ => some item.dim
  | .entriesSummed _ item _ _ _ => some item.dim
  | _ => none

theorem fault_sides (worker : Worker) {sides : List ClassificationRow}
    (loaded : worker.fault.sides = some sides) :
    worker.sides = some sides := by
  cases worker with
  | releasing items => cases items <;> cases loaded
  | looping held items =>
    cases items with
    | nil => cases loaded
    | cons => exact loaded
  | _ => exact loaded

theorem fault_reading (worker : Worker) : worker.fault.reading = none := by
  cases worker with
  | releasing items | looping held items => cases items <;> rfl
  | _ => rfl

end Ledger.Service
