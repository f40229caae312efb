import Mathlib.Data.Prod.Lex
import Mathlib.Tactic.IntervalCases

namespace Ledger.Service

/-- `CheckpointAccountKey`, compared as the SQL row `(account_holder, currency_id)`. -/
abbrev CheckpointAccountKey := ℤ ×ₗ ℤ

def cursorStart : CheckpointAccountKey := toLex (-2 ^ 63, -2 ^ 63)

def checkpointScanPageSize : Nat := 200

/-- The distinct pairs of `balance_checkpoints` in key order; currency ids are positive. -/
structure Fleet where
  pairs : List CheckpointAccountKey
  sorted : pairs.Pairwise (· < ·)
  started : ∀ p ∈ pairs, cursorStart < p

def Fleet.listCheckpointAccountsPage (f : Fleet) (after : CheckpointAccountKey) (pageLimit : Nat) :
    List CheckpointAccountKey :=
  (f.pairs.filter (after < ·)).take pageLimit

structure ScanCursor where
  after : CheckpointAccountKey
  lapDirty : Bool
  lapScanned : Nat

def ScanCursor.fresh : ScanCursor := ⟨cursorStart, false, 0⟩

structure Scan where
  after : CheckpointAccountKey
  scanned : Nat
  passed : Bool

structure CheckResult where
  passed : Bool
  complete : Bool

section

variable (f : Fleet) (balanced : CheckpointAccountKey → Bool) (limit : Nat)

def Scan.visit (scan : Scan) (p : CheckpointAccountKey) : Scan :=
  ⟨p, scan.scanned + 1, scan.passed && balanced p⟩

def pageLoop : Nat → Scan → Scan
  | 0, scan => scan
  | fuel + 1, scan =>
    if scan.scanned < limit then
      let pageSize := min checkpointScanPageSize (limit - scan.scanned)
      let pairs := f.listCheckpointAccountsPage scan.after pageSize
      if pairs = [] then scan
      else if pairs.length < pageSize then pairs.foldl (Scan.visit balanced) scan
      else pageLoop fuel (pairs.foldl (Scan.visit balanced) scan)
    else scan

/-- One run without errors or timeouts: the cursor row it leaves and its verdict. -/
def runCheck2GlobalBalance (c : ScanCursor) : ScanCursor × CheckResult :=
  let resumedLap := c.after ≠ cursorStart
  -- every page that does not end the loop scans a pair, so `limit` rounds are enough
  let scan := pageLoop f balanced limit limit ⟨c.after, 0, true⟩
  let lapDirty := c.lapDirty || !scan.passed
  let lapScanned := c.lapScanned + scan.scanned
  if limit ≤ scan.scanned then (⟨scan.after, lapDirty, lapScanned⟩, ⟨!lapDirty, false⟩)
  else if scan.scanned = 0 ∧ resumedLap then (.fresh, ⟨!lapDirty, false⟩)
  else if resumedLap ∧ lapScanned < f.pairs.length then (.fresh, ⟨!lapDirty, false⟩)
  else (.fresh, ⟨!lapDirty, true⟩)

def cursorAfter (runs : Nat) : ScanCursor :=
  (fun c => (runCheck2GlobalBalance f balanced limit c).1)^[runs] .fresh

def reportsComplete (run : Nat) : Bool :=
  (runCheck2GlobalBalance f balanced limit (cursorAfter f balanced limit run)).2.complete

/-- Every lap reports full coverage within `⌈N / limit⌉ + 1` runs. -/
def LapsReport : Prop :=
  ∀ start, cursorAfter f balanced limit start = .fresh →
    ∃ n ≤ (f.pairs.length + limit - 1) / limit, reportsComplete f balanced limit (n + start) = true

end

structure Walked (f : Fleet) (c : ScanCursor) (done rest : List CheckpointAccountKey) : Prop where
  split : f.pairs = done ++ rest
  after : c.after = done.getLastD cursorStart
  count : c.lapScanned = done.length

variable {f : Fleet} {balanced : CheckpointAccountKey → Bool} {limit : Nat} {c : ScanCursor}
  {done rest : List CheckpointAccountKey}

theorem foldl_visit (balanced : CheckpointAccountKey → Bool) (pairs : List CheckpointAccountKey)
    (scan : Scan) :
    (pairs.foldl (Scan.visit balanced) scan).after = pairs.getLastD scan.after ∧
      (pairs.foldl (Scan.visit balanced) scan).scanned = scan.scanned + pairs.length := by
  induction pairs generalizing scan with
  | nil => exact ⟨rfl, rfl⟩
  | cons p pairs ih =>
    obtain ⟨after, scanned⟩ := ih (scan.visit balanced p)
    refine ⟨?_, ?_⟩
    · rw [List.foldl_cons, after]
      cases pairs <;> rfl
    · rw [List.foldl_cons, scanned, List.length_cons, Nat.add_comm pairs.length, ← Nat.add_assoc]
      rfl

theorem last_separates (split : f.pairs = done ++ rest) :
    (∀ p ∈ done, ¬ done.getLastD cursorStart < p) ∧ ∀ p ∈ rest, done.getLastD cursorStart < p := by
  have sorted := f.sorted
  have started := f.started
  rw [split] at sorted started
  rcases List.eq_nil_or_concat done with rfl | ⟨init, x, rfl⟩
  · exact ⟨by simp, started⟩
  · rw [List.concat_eq_append] at *
    obtain ⟨seen, -, ahead⟩ := List.pairwise_append.mp sorted
    have before := (List.pairwise_append.mp seen).2.2
    rw [List.getLastD_concat]
    refine ⟨fun p mem => ?_, ahead x (by simp)⟩
    rcases List.mem_append.mp mem with mem | mem
    · exact lt_asymm (before p mem x (by simp))
    · rw [List.mem_singleton.mp mem]
      exact lt_irrefl x

theorem page_after (split : f.pairs = done ++ rest) (n : Nat) :
    f.listCheckpointAccountsPage (done.getLastD cursorStart) n = rest.take n := by
  obtain ⟨seen, ahead⟩ := last_separates split
  rw [Fleet.listCheckpointAccountsPage, split, List.filter_append,
    List.filter_eq_nil_iff.mpr (by simpa using seen), List.filter_eq_self.mpr
      (by simpa using ahead), List.nil_append]

variable (balanced limit)

theorem pageLoop_spec (fuel : Nat) (scan : Scan) (split : f.pairs = done ++ rest)
    (after : scan.after = done.getLastD cursorStart) (enough : limit ≤ scan.scanned + fuel) :
    (pageLoop f balanced limit fuel scan).scanned = scan.scanned +
    min (limit - scan.scanned) rest.length ∧
      (pageLoop f balanced limit fuel scan).after =
      (done ++ rest.take (limit - scan.scanned)).getLastD cursorStart := by
  induction fuel generalizing done rest scan with
  | zero =>
    have full : limit - scan.scanned = 0 := by omega
    simp [pageLoop, full, after]
  | succ fuel ih =>
    by_cases room : scan.scanned < limit
    · obtain ⟨size, isSize⟩ : ∃ size, size = min checkpointScanPageSize (limit - scan.scanned) := ⟨_, rfl⟩
      have positive : 0 < size := by
        rw [isSize, checkpointScanPageSize]
        omega
      simp only [pageLoop, if_pos room, ← isSize, after, page_after split, List.length_take]
      obtain ⟨last, count⟩ := foldl_visit balanced (rest.take size) scan
      replace last := last.trans (show _ = (done ++ rest.take size).getLastD cursorStart by simp [after])
      rw [List.length_take] at count
      by_cases empty : rest.take size = []
      · have none_left : rest = [] := (List.take_eq_nil_iff.mp empty).resolve_left (by omega)
        simp [none_left, after]
      by_cases short : min size rest.length < size
      · rw [if_neg empty, if_pos short, last, count, List.take_of_length_le (i := size) (by omega),
          List.take_of_length_le (by omega)]
        exact ⟨by omega, rfl⟩
      · have split' : f.pairs = (done ++ rest.take size) ++ rest.drop size := by
          rw [split, List.append_assoc, List.take_append_drop]
        obtain ⟨scanned, reached⟩ := ih _ split' last (by omega)
        have sum : limit - scan.scanned = size + (limit - (scan.scanned + size)) := by omega
        have full : min size rest.length = size := by omega
        rw [if_neg empty, if_neg short, scanned, reached, count, full, List.length_drop, List.append_assoc,
          ← List.take_add, ← sum]
        exact ⟨by omega, rfl⟩
    · have full : limit - scan.scanned = 0 := by omega
      simp [pageLoop, room, full, after]

theorem scan_spec (walked : Walked f c done rest) :
    (pageLoop f balanced limit limit ⟨c.after, 0, true⟩).scanned = min limit rest.length ∧
      (pageLoop f balanced limit limit ⟨c.after, 0, true⟩).after =
      (done ++ rest.take limit).getLastD cursorStart := by
  simpa using pageLoop_spec balanced limit limit ⟨c.after, 0, true⟩ walked.split
    walked.after (by simp)

theorem run_capped (walked : Walked f c done rest) (more : limit ≤ rest.length) :
    (runCheck2GlobalBalance f balanced limit c).2.complete = false ∧
      Walked f (runCheck2GlobalBalance f balanced limit c).1 (done ++ rest.take limit)
      (rest.drop limit) := by
  obtain ⟨scanned, reached⟩ := scan_spec balanced limit walked
  rw [Nat.min_eq_left more] at scanned
  simp only [runCheck2GlobalBalance, if_pos scanned.ge]
  refine ⟨trivial, ?_, reached, ?_⟩
  · rw [walked.split, List.append_assoc, List.take_append_drop]
  · rw [scanned, walked.count, List.length_append, List.length_take_of_le more]

/-- A resumed run that finds nothing does not count as full coverage, every other end of the table
does. -/
theorem run_ended (walked : Walked f c done rest) (short : rest.length < limit) :
    (runCheck2GlobalBalance f balanced limit c).2.complete = true ↔ ¬ (done ≠ [] ∧ rest = []) := by
  obtain ⟨scanned, -⟩ := scan_spec balanced limit walked
  rw [Nat.min_eq_right short.le] at scanned
  have resumed : c.after ≠ cursorStart ↔ done ≠ [] := by
    rw [walked.after]
    rcases List.eq_nil_or_concat done with rfl | ⟨init, x, rfl⟩
    · simp
    · have started := f.started x (by simp [walked.split])
      simpa using started.ne'
  have covered : ¬ c.lapScanned + rest.length < f.pairs.length := by
    rw [walked.split, walked.count, List.length_append]
    omega
  simp only [runCheck2GlobalBalance, scanned, not_le.mpr short, covered, resumed,
    List.length_eq_zero_iff]
  by_cases nothing : rest = [] ∧ done ≠ [] <;> simp [nothing, and_comm]

theorem walked_at (n : Nat) (le : n * limit ≤ f.pairs.length) :
    Walked f (cursorAfter f balanced limit n) (f.pairs.take (n * limit))
    (f.pairs.drop (n * limit)) := by
  induction n with
  | zero => exact ⟨by simp, by simp [cursorAfter, ScanCursor.fresh], by simp [cursorAfter, ScanCursor.fresh]⟩
  | succ n ih =>
    rw [Nat.succ_mul] at le ⊢
    rw [List.take_add, ← List.drop_drop, cursorAfter, Function.iterate_succ_apply']
    exact (run_capped balanced limit (ih (by omega)) (by rw [List.length_drop]; omega)).2

theorem capped_at (n : Nat) (le : (n + 1) * limit ≤ f.pairs.length) :
    reportsComplete f balanced limit n = false := by
  rw [Nat.succ_mul] at le
  exact (run_capped balanced limit (walked_at balanced limit n (by omega))
    (by rw [List.length_drop]; omega)).1

variable {limit}

theorem ended_at (positive : 0 < limit) :
    reportsComplete f balanced limit (f.pairs.length / limit) = true ↔
    ¬ (0 < f.pairs.length ∧ limit ∣ f.pairs.length) := by
  have division := Nat.div_add_mod' f.pairs.length limit
  have small := Nat.mod_lt f.pairs.length positive
  rw [reportsComplete, run_ended balanced limit (walked_at balanced limit _ (by omega))
    (by rw [List.length_drop]; omega),
    not_iff_not, ne_eq, List.take_eq_nil_iff, List.drop_eq_nil_iff, Nat.dvd_iff_mod_eq_zero]
  constructor
  · rintro ⟨some_, all⟩
    exact ⟨List.length_pos_iff.mpr fun none_ => some_ (.inr none_), by omega⟩
  · rintro ⟨some_, divides⟩
    refine ⟨?_, by omega⟩
    rintro (none_ | none_)
    · omega
    · simp [none_] at some_

/-- A lap ends in a report of full coverage exactly if the slices do not fill the table evenly. -/
theorem laps_report_iff (f : Fleet) (balanced : CheckpointAccountKey → Bool) (limit : Nat)
    (positive : 0 < limit) :
    LapsReport f balanced limit ↔ ¬ (0 < f.pairs.length ∧ limit ∣ f.pairs.length) := by
  constructor
  · rintro reports ⟨some_, divides⟩
    obtain ⟨n, le, complete⟩ := reports 0 rfl
    obtain ⟨q, length⟩ := divides
    have quotient : f.pairs.length / limit = q := by rw [length, Nat.mul_div_cancel_left q positive]
    have last : n ≤ q := by
      refine le.trans (Nat.lt_succ_iff.mp ((Nat.div_lt_iff_lt_mul positive).mpr ?_))
      rw [length, Nat.succ_mul, Nat.mul_comm]
      omega
    rcases last.lt_or_eq with earlier | rfl
    · have inside : (n + 1) * limit ≤ f.pairs.length := by
        rw [length, Nat.mul_comm]
        exact Nat.mul_le_mul_left limit earlier
      rw [Nat.add_zero, capped_at balanced limit n inside] at complete
      exact absurd complete (by decide)
    · rw [Nat.add_zero, ← quotient, ended_at balanced positive] at complete
      exact complete ⟨some_, n, length⟩
  · intro uneven start fresh
    refine ⟨f.pairs.length / limit, Nat.div_le_div_right (by omega), ?_⟩
    rw [reportsComplete, cursorAfter, Function.iterate_add_apply]
    rw [cursorAfter] at fresh
    rw [fresh]
    exact (ended_at balanced positive).mpr uneven

def threeAccounts : Fleet where
  pairs := [toLex (1, 1), toLex (2, 1), toLex (3, 1)]
  sorted := by decide
  started := by decide

theorem laps_report_iff_uneven : LapsReport threeAccounts (fun _ => true) 2 :=
  (laps_report_iff threeAccounts (fun _ => true) 2 (by decide)).mpr (by decide)

theorem even_laps_never_report : ¬ LapsReport threeAccounts (fun _ => true) 3 := by
  intro reports
  obtain ⟨n, le, complete⟩ := reports 0 rfl
  have le : n ≤ 1 := le
  interval_cases n
  · exact absurd complete (by decide +kernel)
  · exact absurd complete (by decide +kernel)

end Ledger.Service
