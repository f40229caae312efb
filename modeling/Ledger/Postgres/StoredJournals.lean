import Ledger.Postgres.JournalTables

namespace Ledger.Postgres

open Core Shared

section

variable {decodeQuotes : GoString → Result Unit} {now : Instant} {input : JournalInput}

theorem numericColumn_isOk_iff {d : Decimal} (exact_ : (toUnits 18 d : ℚ) = d.val * 10 ^ 18) :
    (numericColumn d).isOk = true ↔ |d.val| < 10 ^ 12 := by
  have fits : fitsUnits 30 (toUnits 18 d) = true ↔ |d.val| < 10 ^ 12 := by
    have bound : (|toUnits 18 d| : Int) < 10 ^ 30 ↔ |d.val| < 10 ^ 12 := by
      rw [← Int.cast_lt (R := ℚ), Int.cast_abs, exact_, abs_mul, abs_of_pos (by norm_num : (0 : ℚ) < 10 ^ 18)]
      constructor <;> intro less <;> push_cast at * <;> linarith
    rw [← bound, fitsUnits, decide_eq_true_eq, Int.abs_eq_natAbs]
    exact_mod_cast Iff.rfl
  rw [← fits, numericColumn]
  split <;> simp_all [Except.isOk, Except.toBool]

theorem validate_currency (valid : input.validate decodeQuotes now = .ok ()) (uid : GoString) :
    (input.totalsByCurrency uid).1.val = (input.totalsByCurrency uid).2.val := by
  simp only [JournalInput.validate, bind_eq_ok, checkAll_eq_ok, require_eq_ok,
    Decimal.equal_iff] at valid
  obtain ⟨_, -, _, -, _, -, _, -, _, -, _, -, balanced⟩ := valid
  by_cases used : uid ∈ input.currencyUIDs
  · exact balanced uid used
  · have none_ : input.entries.filter (·.currencyUID == uid) = [] := by
      rw [List.filter_eq_nil_iff]
      intro e member same
      refine used ((List.perm_insertionSort _ _).mem_iff.mpr (List.mem_dedup.mpr ?_))
      exact List.mem_map.mpr ⟨e, member, by simpa using same⟩
    simp only [JournalInput.totalsByCurrency, none_]
    rfl

theorem totalOf_val (entryType : EntryType) (entries : List EntryInput) :
    (totalOf entryType entries).val =
    (entries.map fun e => if e.entryType = entryType then e.amount.val else 0).sum := by
  rw [totalOf_eq_sumDecimals, val_sumDecimals, List.map_map, sum_filter]
  simp only [decide_eq_true_eq, Function.comp_apply]

theorem validate_totals (valid : input.validate decodeQuotes now = .ok ()) : input.totals.1.val =
    input.totals.2.val := by
  have spread (entryType : EntryType) : (totalOf entryType input.entries).val =
      ((firstSeen (input.entries.map (·.currencyUID))).map fun uid =>
        (totalOf entryType (input.entries.filter (·.currencyUID == uid))).val).sum := by
    rw [totalOf_val, ← @sum_sumAt _ _ _ _ _ _ (·.currencyUID) _ _
      (nodup_firstSeen (input.entries.map (·.currencyUID)))
      fun e member => mem_firstSeen.mpr (List.mem_map_of_mem member)]
    refine congrArg List.sum (List.map_congr_left fun uid _ => ?_)
    simp only [totalOf_val, sumAt, beq_eq_decide]
  rw [JournalInput.totals, spread, spread]
  exact congrArg List.sum (List.map_congr_left fun uid _ => validate_currency valid uid)

theorem validate_storable_iff (valid : input.validate decodeQuotes now = .ok ()) :
    (∀ uid, (input.totalsByCurrency uid).1.val = (input.totalsByCurrency uid).2.val) ∧
      (∀ e ∈ input.entries, 0 < e.amount.val ∧ (numericColumn e.amount).isOk = true) ∧
      (((numericColumn input.totals.1).isOk = true ∧ (numericColumn input.totals.2).isOk = true) ↔
        input.totals.1.val < 10 ^ 12) := by
  have entries := validate_entry valid
  have fits (entryType : EntryType) :
    (numericColumn (totalOf entryType input.entries)).isOk = true ↔
      (totalOf entryType input.entries).val < 10 ^ 12 := by
    have nonneg : 0 ≤ (totalOf entryType input.entries).val := by
      rw [totalOf_val]
      refine List.sum_nonneg fun x member => ?_
      obtain ⟨e, inside, rfl⟩ := List.mem_map.mp member
      have positive := (validateEntry_bounds (entries e inside)).2.1
      split <;> linarith
    rw [numericColumn_isOk_iff (totalOf_units entries entryType), abs_of_nonneg nonneg]
  refine ⟨validate_currency valid, fun e member => ?_, ?_⟩
  · obtain ⟨magnitude, positive, -⟩ := validateEntry_bounds (entries e member)
    exact ⟨positive, (numericColumn_isOk_iff (validateAmountMagnitude_units magnitude)).mpr
      (validateAmountDigits_ok_iff.mp magnitude).2.2⟩
  · have same : (totalOf .debit input.entries).val = (totalOf .credit input.entries).val :=
      validate_totals valid
    rw [JournalInput.totals, fits, fits, ← same, and_self]

end

theorem validate_storable_iff_deposit : (numericColumn Sample.deposit.totals.1).isOk = true ∧
    (numericColumn Sample.deposit.totals.2).isOk = true := by
  have valid : Sample.deposit.validate Sample.config.decodeQuotes 0 = .ok () := by decide +kernel
  refine (validate_storable_iff valid).2.2.mpr ?_
  have total : Sample.deposit.totals.1 = ⟨10, 0⟩ := by decide +kernel
  rw [total, Decimal.val]
  norm_num

def Sample.heavyDeposit : JournalInput :=
  { Sample.deposit with
    entries := (Sample.deposit.entries ++ Sample.deposit.entries).map ({ · with amount := ⟨900000000000, 0⟩ }) }

theorem validate_accepts_unstorable :
    Sample.heavyDeposit.validate Sample.config.decodeQuotes 0 = .ok () ∧
    ∀ (env : Env) (s : Store) (effectiveAt : Instant) (auth : JournalAuth) (g : Gated),
      insertJournal env s Sample.heavyDeposit effectiveAt auth g =
        within "postgres: post journal: insert journal"
          (.error ⟨.invalidInput, "value out of range for column (%s)"⟩) := by
  refine ⟨by decide +kernel, fun env s effectiveAt auth g => ?_⟩
  have overflow : numericColumn Sample.heavyDeposit.totals.1 =
      .error ⟨.invalidInput, "value out of range for column (%s)"⟩ := by decide +kernel
  rw [insertJournal, overflow]
  rfl

end Ledger.Postgres
