import Ledger.Postgres.ReversalRuns
import Ledger.Postgres.TrialBalance
import Ledger.Service.RollupSoundness

namespace Ledger.Service

open Core Postgres Shared

theorem sumDecimals_exp {l : List Decimal} {low : Int} (start : low ≤ 0)
    (fine : ∀ d ∈ l, low ≤ d.exp) :
    low ≤ (sumDecimals l).exp ∧ (sumDecimals l).exp ≤ 0 := by
  have fold : ∀ (l : List Decimal) (d : Decimal), (∀ d ∈ l, low ≤ d.exp) → low ≤ d.exp → d.exp ≤ 0 →
      low ≤ (l.foldl Decimal.add d).exp ∧ (l.foldl Decimal.add d).exp ≤ 0 := by
    intro l
    induction l with
    | nil => exact fun d _ least most => ⟨least, most⟩
    | cons a rest ih =>
      intro d fine least most
      have head := fine a List.mem_cons_self
      refine ih _ (fun d member => fine d (List.mem_cons_of_mem _ member)) (le_min least head) ?_
      exact (min_le_left _ _).trans most
  exact fold l .zero fine start le_rfl

def accountEntries (journals : List JournalInput) (holder : Int)
    (currencyUID classificationUID : GoString) : List EntryInput :=
  (journals.flatMap (·.entries)).filter fun e =>
    e.accountHolder = holder ∧ e.currencyUID = currencyUID ∧ e.classificationUID = classificationUID

variable {entries : List EntryInput} {db : LedgerTables} {dim : Dimension} {row : ClassificationRow}

theorem totalOf_rescalable_iff (valid : ∀ e ∈ entries, validateEntry e = .ok ())
    (entryType : EntryType) :
    validateAmountIsRescalable (totalOf entryType entries) = .ok () ↔
    (totalOf entryType entries).val < 10 ^ 12 := by
  have amounts : ∀ d ∈ (entries.filter (·.entryType = entryType)).map (·.amount), -18 ≤
    d.exp ∧ 0 < d.val := by
    intro d member
    obtain ⟨e, inside, rfl⟩ := List.mem_map.mp member
    have bounds := validateEntry_bounds (valid e (List.mem_of_mem_filter inside))
    exact ⟨(validateAmountDigits_ok_iff.mp bounds.1).1, bounds.2.1⟩
  rw [totalOf_eq_sumDecimals]
  obtain ⟨low, high⟩ := sumDecimals_exp (by norm_num) fun d member => (amounts d member).1
  have nonneg : 0 ≤ (sumDecimals
    ((entries.filter (·.entryType = entryType)).map (·.amount))).val := by
    rw [val_sumDecimals]
    apply List.sum_nonneg
    intro x member
    obtain ⟨d, inside, rfl⟩ := List.mem_map.mp member
    exact (amounts d inside).2.le
  rw [validateAmountIsRescalable_ok_iff (by omega) high, abs_of_nonneg nonneg]

theorem signedAmounts_val (valid : ∀ e ∈ entries, validateEntry e = .ok ()) (normalSide : Side) :
    ∃ amounts, collect (fun e => signedAmount normalSide.normalSide e.entryType
      e.amount) entries = .ok amounts ∧
      (sumDecimals amounts).val = normalSide.signed .debit (totalOf .debit entries).val +
        normalSide.signed .credit (totalOf .credit entries).val := by
  induction entries with
  | nil =>
    refine ⟨[], rfl, ?_⟩
    cases normalSide <;> simp [sumDecimals, totalOf, Side.signed]
  | cons e rest ih =>
    obtain ⟨amounts, collected, total⟩ := ih fun e member => valid e (List.mem_cons_of_mem _ member)
    obtain ⟨-, -, side, kind⟩ := validateEntry_bounds (valid e List.mem_cons_self)
    obtain ⟨amount, signed, value⟩ := signedAmount_side normalSide side e.amount
    refine ⟨amount :: amounts, ?_, ?_⟩
    · rw [collect_eq_ok] at collected ⊢
      exact .cons (by rw [kind]; exact signed) collected
    · rw [val_sumDecimals] at total ⊢
      rw [List.map_cons, List.sum_cons, total, value, totalOf_eq_sumDecimals, totalOf_eq_sumDecimals,
        totalOf_eq_sumDecimals, totalOf_eq_sumDecimals]
      simp only [val_sumDecimals]
      cases side <;> cases normalSide <;> simp [kind, Side.entryType, Side.signed] <;> ring

def VolumeFits (entries : List EntryRow) : Prop := ∀ side, sideSum entries side < 10 ^ 30

theorem amounts_positive {cfg : Config} {start s : Store} {calls : List Call}
    (empty : EmptyLedger start)
    (run : Postgres.Run cfg start calls s) : ∀ e ∈ s.ledger.entries, 0 < e.amount := by
  induction run with
  | refl => simp [empty.entries]
  | call env c _ ok ih =>
    cases Call.outcome ok with
    | replay _ _ _ _ same => exact same ▸ ih
    | fresh fresh _ _ _ _ =>
      intro e member
      rw [fresh.entries_eq, List.mem_append] at member
      exact member.elim (ih e) (fresh.rows_positive e)
  | other _ elsewhere ih => exact elsewhere.entries ▸ ih

theorem sideSum_nonneg {entries : List EntryRow} (positive : ∀ e ∈ entries, 0 < e.amount)
    (side : Side) : 0 ≤ sideSum entries side := by
  apply List.sum_nonneg
  intro amount member
  obtain ⟨e, inside, rfl⟩ := List.mem_map.mp member
  exact (positive e (List.mem_of_mem_filter inside)).le

theorem rescalable_iff_fits {d : Decimal} {total : Int} (exponent : d.exp = 0 ∨ d.exp = -18)
    (value : d.val = total / (10 : ℚ) ^ 18) (nonneg : 0 ≤ total) : validateAmountIsRescalable d =
    .ok () ↔ total < 10 ^ 30 := by
  rw [validateAmountIsRescalable_ok_iff (by omega) (by omega), value,
    abs_of_nonneg (div_nonneg (by exact_mod_cast nonneg) (by positivity)), div_lt_iff₀
      (by positivity), ← pow_add]
  exact_mod_cast Iff.rfl

theorem delta_fits_iff {entries : List EntryRow} (positive : ∀ e ∈ entries, 0 < e.amount)
    (normalSide : Side)
    {sum : Side → Decimal} (exponent : ∀ side, (sum side).exp = 0 ∨ (sum side).exp = -18)
    (value : ∀ side, (sum side).val = sideSum entries side / (10 : ℚ) ^ 18) :
    (∃ d, delta normalSide.normalSide (sum .debit) (sum .credit) = .ok d) ↔ VolumeFits entries := by
  have fits (side : Side) := rescalable_iff_fits (exponent side) (value side)
    (sideSum_nonneg positive side)
  rw [delta_isOk_iff, fits, fits]
  refine ⟨fun both side => ?_, fun all => ⟨all .debit, all .credit⟩⟩
  cases side
  · exact both.1
  · exact both.2

theorem entrySum_val (db : LedgerTables) (dim : Dimension) (cp : Option CheckpointRow)
    (side : Side) :
    (entrySum db dim (sinceEntryID cp) side).val = sideSum (entriesSince db dim cp)
    side / (10 : ℚ) ^ 18 :=
  sumSide_val _ side

theorem sums_eq_entrySum (db : LedgerTables) (dim : Dimension) (since : Nat) :
    ((sumEntriesSince db dim.pair since).debitByClass dim.classification).getD Decimal.zero =
    entrySum db dim since .debit ∧
      ((sumEntriesSince db dim.pair since).creditByClass dim.classification).getD Decimal.zero =
      entrySum db dim since .credit := by
  simp only [sumEntriesSince, classEntries_eq]
  exact ⟨rfl, rfl⟩

theorem getBalance_fits_iff (positive : ∀ e ∈ db.entries, 0 < e.amount)
    (found : db.getClassification dim.classification = some row) :
    (∃ b, getBalanceWithQueries db db db dim = .ok b) ↔
    VolumeFits (entriesSince db dim (db.checkpoints dim)) := by
  have some_ : ∀ e ∈ entriesSince db dim (db.checkpoints dim), 0 < e.amount := fun e member =>
    positive e (List.mem_of_mem_filter (List.mem_of_mem_filter member))
  rw [← delta_fits_iff some_ row.normalSide
    (entrySum_exp db dim (sinceEntryID (db.checkpoints dim)))
    (entrySum_val db dim _)]
  rw [getBalance_eq found]
  split <;> simp_all

def nextBalance (db : LedgerTables) (normalSide : Side) (dim : Dimension) : Int :=
  ((db.checkpoints dim).map (·.balance)).getD 0 +
    ((entriesSince db dim (db.checkpoints dim)).map (signedEntry normalSide)).sum

theorem nextCheckpoint_fits_iff (positive : ∀ e ∈ db.entries, 0 < e.amount)
    (found : db.getClassification dim.classification = some row) :
    (∃ next, nextCheckpoint db.classifications dim (db.checkpoints dim)
        (sumEntriesSince db dim.pair (sinceEntryID (db.checkpoints dim))) = .ok next) ↔
      VolumeFits (entriesSince db dim (db.checkpoints dim)) ∧
      (nextBalance db row.normalSide dim).natAbs < 10 ^ 30 := by
  have some_ : ∀ e ∈ entriesSince db dim (db.checkpoints dim), 0 < e.amount := fun e member =>
    positive e (List.mem_of_mem_filter (List.mem_of_mem_filter member))
  have side : normalSideOf db.classifications dim.classification = row.normalSide.normalSide := by
    unfold normalSideOf
    rw [show db.classifications.find? (·.id == dim.classification) = some row from found]
  -- What `Delta` returns, when it does, is the change of the balance.
  have written (d : Decimal)
      (ok : delta row.normalSide.normalSide (entrySum db dim (sinceEntryID (db.checkpoints dim)) .debit)
        (entrySum db dim (sinceEntryID (db.checkpoints dim)) .credit) = .ok d) :
      toUnits 18 ((currentBalance (db.checkpoints dim)).add d) = nextBalance db row.normalSide dim := by
    obtain ⟨side', same, value⟩ := delta_ok ok
    have sameSide : side' = row.normalSide := by
      cases h : row.normalSide <;> cases side' <;> simp_all [Side.normalSide]
    have base : (currentBalance (db.checkpoints dim)).val =
        (((db.checkpoints dim).map (·.balance)).getD 0 : Int) / (10 : ℚ) ^ 18 := by
      cases db.checkpoints dim <;> simp [currentBalance, numericToDecimal, ofUnits_val]
    apply toUnits_of_val
    rw [Decimal.val_add, value, sameSide, base, entrySum_val, entrySum_val,
      Side.signed_div, Side.signed_div,
      nextBalance, sum_signedEntry]
    push_cast
    ring
  rw [← delta_fits_iff some_ row.normalSide
    (entrySum_exp db dim (sinceEntryID (db.checkpoints dim)))
    (entrySum_val db dim _)]
  simp only [nextCheckpoint, side, (sums_eq_entrySum db dim _).1, (sums_eq_entrySum db dim _).2,
    bind_eq_ok, pure_eq_ok, decimalToNumeric]
  constructor
  · rintro ⟨next, d, ok, balance, stored, -⟩
    refine ⟨⟨d, ok⟩, ?_⟩
    rw [written d ok] at stored
    split at stored
    · next fits => simpa [fitsUnits] using fits
    · cases stored
  · rintro ⟨⟨d, ok⟩, fits⟩
    refine ⟨_, d, ok, nextBalance db row.normalSide dim, ?_, rfl⟩
    rw [written d ok, if_pos (by simpa [fitsUnits] using fits)]

theorem sumSide_getD (entries : List EntryRow) (side : Side) :
    (LedgerTables.sumSide entries side).getD 0 = sideSum entries side := by
  unfold LedgerTables.sumSide sideSum
  simp only
  split
  · next empty => simp [List.isEmpty_iff.mp empty]
  · rfl

theorem trialBalance_fits_iff {s : Store} (positive : ∀ e ∈ s.ledger.entries, 0 < e.amount)
    {currencyUID : GoString}
    {asOf : Instant} {cur : CurrencyRow} (currency : s.currencyByUIDOrErr currencyUID = .ok cur)
    (inRange : timestampFits (toMicros asOf) = true) :
    (∃ report, trialBalance s currencyUID asOf = .ok report) ↔
      ∀ cls ∈ s.ledger.classifications, VolumeFits
      (trialEntries s.ledger cur.id (toMicros asOf) cls) := by
  have group (cls : ClassificationRow) :
      (∃ d, delta cls.normalSide.normalSide
          (numericToDecimal ((LedgerTables.sumSide (trialEntries s.ledger cur.id (toMicros asOf) cls) .debit).getD 0))
          (numericToDecimal ((LedgerTables.sumSide
            (trialEntries s.ledger cur.id (toMicros asOf) cls) .credit).getD 0)) =
        .ok d) ↔ VolumeFits (trialEntries s.ledger cur.id (toMicros asOf) cls) := by
    refine @delta_fits_iff _ ?_ cls.normalSide (fun side => numericToDecimal
      ((LedgerTables.sumSide (trialEntries s.ledger cur.id (toMicros asOf) cls) side).getD 0)) (fun _ => .inr rfl) ?_
    · exact fun e member => positive e (List.mem_of_mem_filter member)
    · intro side
      rw [numericToDecimal, ofUnits_val, sumSide_getD]
  have report : (∃ report, trialBalance s currencyUID asOf = .ok report) ↔
      ∀ row ∈ trialBalanceRows s.ledger cur.id (toMicros asOf), ∃ r, trialBalanceRow s row = .ok r := by
    rw [← collect_isOk_iff]
    simp [trialBalance, currency, inRange, require]
  rw [report]
  simp only [trialBalanceRows, List.forall_mem_map, List.mem_insertionSort,
    List.mem_filter, and_imp]
  refine forall_congr' fun cls => imp_congr_right fun member => ?_
  have known : ∃ row, s.classByIDOrErr cls.id = .ok row := by
    simp only [Store.classByIDOrErr, orError_eq_ok, LedgerTables.getClassification]
    exact Option.isSome_iff_exists.mp (List.find?_isSome.mpr ⟨cls, member, by simp⟩)
  obtain ⟨row, looked⟩ := known
  rw [← group]
  by_cases empty : trialEntries s.ledger cur.id (toMicros asOf) cls = []
  · -- The statement returns no row for the group, and its sums are zero.
    rw [group, empty]
    simp [VolumeFits, sideSum]
  · simp [trialBalanceRow, looked, empty]

/-- Over every sequence of accepted journals, `Delta` answers with the sum of the signed amounts
exactly while both sums of the account stay below `10¹²`. On every ledger the calls reach, with
whatever checkpoints the workers have written, the balance read and the rollup worker answer exactly
while the entries past the checkpoint stay below that on both sides, and the trial balance while the
totals of every classification over all holders do. -/
theorem balance_reads_total_iff {cfg : Config} {start s : Store} {calls : List Call}
    (empty : EmptyLedger start)
    (run : Postgres.Run cfg start calls s) :
    (∀ journals : List JournalInput,
      (∀ j ∈ journals, ∃ now, j.validate cfg.decodeQuotes now = .ok ()) →
      ∀ holder currencyUID classificationUID (normalSide : Side),
        let entries := accountEntries journals holder currencyUID classificationUID
        (∃ d amounts, delta normalSide.normalSide (totalOf .debit entries) (totalOf .credit entries) = .ok d ∧
          collect (fun e => signedAmount normalSide.normalSide e.entryType e.amount) entries = .ok amounts ∧
          d.equal (sumDecimals amounts) = true) ↔
        (totalOf .debit entries).val < 10 ^ 12 ∧ (totalOf .credit entries).val < 10 ^ 12) ∧
    (∀ db : LedgerTables, db.entries = s.ledger.entries → ∀ dim row,
      db.getClassification dim.classification = some row →
        ((∃ b, getBalanceWithQueries db db db dim = .ok b) ↔ VolumeFits (entriesSince db dim (db.checkpoints dim))) ∧
        ((∃ next, nextCheckpoint db.classifications dim (db.checkpoints dim)
            (sumEntriesSince db dim.pair (sinceEntryID (db.checkpoints dim))) = .ok next) ↔
          VolumeFits (entriesSince db dim (db.checkpoints dim)) ∧
            (nextBalance db row.normalSide dim).natAbs < 10 ^ 30)) ∧
    (∀ currencyUID cur asOf, s.currencyByUIDOrErr currencyUID = .ok cur →
      timestampFits (toMicros asOf) = true →
      ((∃ report, trialBalance s currencyUID asOf = .ok report) ↔
        ∀ cls ∈ s.ledger.classifications, VolumeFits (trialEntries s.ledger cur.id (toMicros asOf) cls))) := by
  have positive := amounts_positive empty run
  refine ⟨?_, ?_, fun currencyUID cur asOf currency inRange =>
    trialBalance_fits_iff positive currency inRange⟩
  · intro journals accepted holder currencyUID classificationUID normalSide entries
    have valid : ∀ e ∈ entries, validateEntry e = .ok () := by
      intro e member
      obtain ⟨j, inside, listed⟩ := List.mem_flatMap.mp (List.mem_of_mem_filter member)
      obtain ⟨now, ok⟩ := accepted j inside
      exact validate_entry ok e listed
    rw [← totalOf_rescalable_iff valid, ← totalOf_rescalable_iff valid, ← delta_isOk_iff normalSide]
    constructor
    · rintro ⟨d, _, ok, -⟩
      exact ⟨d, ok⟩
    · rintro ⟨d, ok⟩
      obtain ⟨amounts, collected, total⟩ := signedAmounts_val valid normalSide
      obtain ⟨side, same, value⟩ := delta_ok ok
      have sameSide : side = normalSide := by
        cases normalSide <;> cases side <;> simp_all [Side.normalSide]
      exact ⟨d, amounts, ok, collected, Decimal.equal_iff.mpr (by rw [value, total, sameSide])⟩
  · intro db entries dim row found
    rw [← entries] at positive
    exact ⟨getBalance_fits_iff positive found, nextCheckpoint_fits_iff positive found⟩

namespace VolumeSample

open Postgres.Sample (uid store config env)

def move (wallet custody : EntryType) (key : GoString) : JournalInput :=
  { Sample.deposit with
    idempotencyKey := key
    entries := [⟨7, (uid 3).print, (uid 1).print, wallet, ⟨900000000000, 0⟩⟩,
      ⟨-7, (uid 3).print, (uid 2).print, custody, ⟨900000000000, 0⟩⟩] }

def journals : List JournalInput :=
  [move .credit .debit (lit "in"), move .debit .credit (lit "out"),
    move .credit .debit (lit "again")]

def wallet : List EntryInput := accountEntries journals 7 (uid 3).print (uid 1).print

def post (s : Store) (n : Nat) (input : JournalInput) : Store :=
  okOr s ((postJournal config .tx (env n) s input).map Prod.fst)

/-- In and out: both sums of the wallet are below `10¹²`. -/
def paid : Store := post (post store 5 journals[0]) 6 journals[1]

def ledger : Store := post paid 7 journals[2]

theorem run_post {s : Store} {n : Nat} {input : JournalInput} {calls : List Call}
    (before : Postgres.Run config store calls s)
    (ok : (postJournal config .tx (env n) s input).isOk = true) :
    Postgres.Run config store (calls ++ [.post .tx input]) (post s n input) := by
  obtain ⟨⟨s', j⟩, posted⟩ := isOk_iff.mp ok
  have final : post s n input = s' := by rw [post, posted]; rfl
  exact final ▸ .call (env n) (.post .tx input) before posted

theorem run_paid : Postgres.Run config store ((journals.take 2).map (.post .tx)) paid :=
  run_post (run_post .refl (by decide +kernel)) (by decide +kernel)

theorem run_ledger : Postgres.Run config store (journals.map (.post .tx)) ledger :=
  run_post run_paid (by decide +kernel)

end VolumeSample

theorem balance_reads_total_iff_paid :
    (∃ b, getBalanceWithQueries VolumeSample.paid.ledger VolumeSample.paid.ledger
      VolumeSample.paid.ledger ⟨7, 1, 1⟩ = .ok b) ∧
      ∃ report, trialBalance VolumeSample.paid (Sample.uid 3).print 100000000 = .ok report := by
  obtain ⟨-, balances, trial⟩ := balance_reads_total_iff Sample.empty VolumeSample.run_paid
  have fits : VolumeFits (entriesSince VolumeSample.paid.ledger ⟨7, 1, 1⟩
    (VolumeSample.paid.ledger.checkpoints ⟨7, 1, 1⟩)) := by
    intro side
    cases side <;> decide +kernel
  have classes : ∀ cls ∈ VolumeSample.paid.ledger.classifications,
      VolumeFits (trialEntries VolumeSample.paid.ledger 1 (toMicros 100000000) cls) := by
    intro cls member side
    revert cls
    cases side <;> decide +kernel
  obtain ⟨cur, currency, one⟩ : ∃ cur, VolumeSample.paid.currencyByUIDOrErr (Sample.uid 3).print =
    .ok cur ∧ cur.id = 1 :=
    ⟨⟨1, Sample.uid 3, lit "USD", 2, true⟩, by decide +kernel, rfl⟩
  exact ⟨(balances _ rfl ⟨7, 1, 1⟩ _ rfl).1.mpr fits,
    (trial _ cur 100000000 currency (by decide)).mpr (one.symm ▸ classes)⟩

/-- In, out and in again: every amount and the balance fit the column, and no reader answers. -/
theorem volume_stops_every_reader :
    Postgres.Run Sample.config Sample.store (VolumeSample.journals.map (.post .tx))
    VolumeSample.ledger ∧
      (∀ e ∈ VolumeSample.ledger.ledger.entries, e.amount.natAbs < 10 ^ 30) ∧
      signedTotal VolumeSample.ledger.ledger .credit ⟨7, 1, 1⟩ = 900000000000 * 10 ^ 18 ∧
      ¬ (delta .credit (totalOf .debit VolumeSample.wallet)
        (totalOf .credit VolumeSample.wallet)).isOk ∧
      ¬ (getBalanceWithQueries VolumeSample.ledger.ledger VolumeSample.ledger.ledger
        VolumeSample.ledger.ledger
        ⟨7, 1, 1⟩).isOk ∧ ¬ (nextCheckpoint VolumeSample.ledger.ledger.classifications ⟨7, 1, 1⟩ none
        (sumEntriesSince VolumeSample.ledger.ledger ⟨7, 1⟩ 0)).isOk ∧
      ¬ (trialBalance VolumeSample.ledger (Sample.uid 3).print 100000000).isOk := by
  refine ⟨VolumeSample.run_ledger, ?_⟩
  decide +kernel

section

variable {cfg : Config} {start s : Store} {calls : List Call} (cur : Nat) (cutoff : Int)

def inEffect (e : EntryRow) : Bool := e.dim.currency == cur && decide (e.effectiveAt ≤ cutoff)

/-- Over the entries of all accounts. -/
def effectiveTotal (db : LedgerTables) (side : Side) :
    Int := sideSum (db.entries.filter (inEffect cur cutoff)) side

theorem effectiveTotal_balanced (empty : EmptyLedger start) (run : Postgres.Run cfg start calls s) :
    effectiveTotal cur cutoff s.ledger .debit = effectiveTotal cur cutoff s.ledger .credit := by
  have net : ((s.ledger.entries.filter (inEffect cur cutoff)).map
    (signedEntry .debit)).sum = 0 := by
    induction run with
    | refl => simp [empty.entries]
    | call env c _ ok ih =>
      cases Call.outcome ok with
      | replay _ _ _ _ same => exact same ▸ ih
      | @fresh _ _ _ _ _ row rows fresh _ _ _ _ =>
        rw [fresh.entries_eq, List.filter_append, List.map_append, List.sum_append, ih, zero_add]
        -- The entries of a journal come into effect together, and net to zero in each currency.
        have times : ∀ e ∈ rows, inEffect cur cutoff e =
          (e.dim.currency == cur && decide (row.effectiveAt ≤ cutoff)) := by
          intro e member
          obtain ⟨_, -, written⟩ := forall₂_of_mem_right (insertEntries_ok fresh.entries) member
          rw [inEffect, written.effectiveAt]
        rw [List.filter_congr times]
        by_cases due : row.effectiveAt ≤ cutoff
        · simp only [due, decide_true, Bool.and_true]
          exact verifyJournalBalanced_eq_ok.mp fresh.balanced cur
        · simp [due]
    | other _ elsewhere ih => rw [elsewhere.entries]; exact ih
  rw [sum_signedEntry] at net
  simp only [ledgerSignedAmount, Side.signed] at net
  exact add_neg_eq_zero.mp net

-- The primary key of `classifications`, and the reference of an entry to it.
variable (ids : (s.ledger.classifications.map (·.id)).Nodup)
  (known : ∀ e ∈ s.ledger.entries, e.dim.classification ∈ s.ledger.classifications.map (·.id))
include ids known

theorem trialBalance_total (side : Side) (pick : Int × Int → Int)
    (picks : ∀ sums : Side → Int, pick (sums .debit, sums .credit) = sums side) :
    (sumDecimals ((trialBalanceRows s.ledger cur cutoff).map fun row => numericToDecimal
      (pick row.2))).val =
      effectiveTotal cur cutoff s.ledger side / (10 : ℚ) ^ 18 := by
  let entries := trialEntries s.ledger cur cutoff
  let value (e : EntryRow) := if e.entryType == side then e.amount else 0
  -- A classification without entries forms no group, and adds nothing.
  have group (cls : ClassificationRow) :
    (if !(entries cls).isEmpty then sideSum (entries cls) side else 0) =
      sumAt (·.dim.classification) value (s.ledger.entries.filter (inEffect cur cutoff)) cls.id := by
    have same : entries cls = (s.ledger.entries.filter (inEffect cur cutoff)).filter
      (·.dim.classification = cls.id) := by
      rw [List.filter_filter]
      exact List.filter_congr fun e _ => Bool.and_comm ..
    rw [sumAt, ← same, sideSum, sum_filter]
    split
    · rfl
    · next empty =>
      rw [List.isEmpty_iff.mp (show (entries cls).isEmpty from by simpa using empty)]
      rfl
  have total : ((s.ledger.classifications.filter fun cls => !(entries cls).isEmpty).map fun cls =>
    sideSum (entries cls) side).sum =
      effectiveTotal cur cutoff s.ledger side := by
    rw [sum_filter, effectiveTotal, sideSum, sum_filter,
      ← sum_sumAt value ids fun e member => known e (List.mem_of_mem_filter member), List.map_map]
    exact congrArg List.sum (List.map_congr_left fun cls _ => group cls)
  have read (cls : ClassificationRow) := picks (sideSum (trialEntries s.ledger cur cutoff cls))
  simp only [trialBalanceRows, List.map_map, Function.comp_def, val_sumDecimals, sumSide_getD, read,
    numericToDecimal, ofUnits_val,
    div_eq_mul_inv, List.sum_map_mul_right]
  rw [((List.perm_insertionSort codeLe _).map _).sum_eq, ← total, Int.cast_list_sum, List.map_map]
  rfl

/-- On every ledger the calls reach, a trial balance of any currency as of any time balances, and
its totals miss no entry in effect. -/
theorem trial_balance_balances (empty : EmptyLedger start) (run : Postgres.Run cfg start calls s)
    {currencyUID : GoString}
    {currency : CurrencyRow} (named : s.currencyByUIDOrErr currencyUID = .ok currency)
    {asOf : Instant} {report : TrialBalanceReport}
    (ok : trialBalance s currencyUID asOf = .ok report) : report.balanced = true ∧
      report.totalDebit.val = effectiveTotal currency.id (toMicros asOf) s.ledger .debit
      / (10 : ℚ) ^ 18 := by
  simp only [trialBalance, named, ok_bind, bind_eq_ok, pure_eq_ok] at ok
  obtain ⟨_, -, rows, collected, rfl⟩ := ok
  have read := forall₂_map_eq (collect_eq_ok.mp collected)
    (f := fun row => (numericToDecimal row.2.1, numericToDecimal row.2.2))
    (g := fun r => (r.totalDebit, r.totalCredit)) fun row _ r ok => by
      simp only [trialBalanceRow, bind_eq_ok, pure_eq_ok] at ok
      obtain ⟨_, -, _, -, rfl⟩ := ok
      rfl
  have debits := congrArg (List.map Prod.fst) read
  have credits := congrArg (List.map Prod.snd) read
  simp only [List.map_map, Function.comp_def] at debits credits
  have debit := trialBalance_total currency.id (toMicros asOf) ids known
    .debit Prod.fst fun _ => rfl
  have credit := trialBalance_total currency.id (toMicros asOf) ids known
    .credit Prod.snd fun _ => rfl
  rw [debits] at debit
  rw [credits, ← effectiveTotal_balanced _ _ empty run] at credit
  exact ⟨Decimal.equal_iff.mpr (debit.trans credit.symm), debit⟩

end

theorem trial_balance_balances_deposited : ∃ report, trialBalance Sample.deposited
    (Sample.uid 3).print 100000000 = .ok report ∧
    report.balanced = true := by
  obtain ⟨report, ok⟩ :=
    isOk_iff.mp (show (trialBalance Sample.deposited (Sample.uid 3).print 100000000).isOk =
      true by decide +kernel)
  exact ⟨report, ok, (trial_balance_balances (by decide +kernel) (by decide +kernel) Sample.empty
    Sample.run_deposited rfl ok).1⟩

end Ledger.Service
