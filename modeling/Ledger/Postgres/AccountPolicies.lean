import Ledger.Postgres.PostingSpec

namespace Ledger.Postgres

open Core Shared

structure AccountPolicyInput where
  accountHolder : Int
  currencyUID : GoString
  classificationUID : GoString
  -- `none` is a string that is no status.
  status : Option AccountPolicyStatus
  minBalance : Decimal
  enforceMinBalance : Bool
  note : GoString
  actorID : Int

def accountPolicyNoteMaxLen : Nat := 2000

def AccountPolicyInput.validate (i : AccountPolicyInput) : Result Unit := do
  validateAmountMagnitude i.minBalance
  require (i.accountHolder ≠ 0)
    ⟨.invalidInput, "core: account policy: account_holder must not be zero"⟩
  require (i.classificationUID = [] ∨ i.currencyUID ≠ [])
    ⟨.invalidInput, "core: account policy: classification_uid requires currency_uid"⟩
  require i.status.isSome ⟨.invalidInput, "core: account policy: invalid status %q"⟩
  require (i.note.length ≤ accountPolicyNoteMaxLen)
    ⟨.invalidInput, "core: account policy: note exceeds %d characters"⟩

def resolvePolicyDim (s : Store) (i : AccountPolicyInput) : Result (Nat × Nat) := do
  let currencyID ← if i.currencyUID = [] then .ok 0
    else (·.id) <$> within "postgres: set account policy" (s.currencyByUIDOrErr i.currencyUID)
  let classificationID ← if i.classificationUID = [] then .ok 0
    else (·.id) <$> within "postgres: set account policy" (s.classByUIDOrErr i.classificationUID)
  return (currencyID, classificationID)

def AccountPolicyRow.sameDim (p q : AccountPolicyRow) : Bool :=
  p.accountHolder == q.accountHolder && p.currencyID == q.currencyID && p.classificationID
    == q.classificationID

def upsertAccountPolicy (policies : List AccountPolicyRow) (row : AccountPolicyRow) :
    List AccountPolicyRow :=
  if policies.any (·.sameDim row) then policies.map fun p =>
    if p.sameDim row then { row with id := p.id } else p
  else policies ++ [row]

def policyRow (nextID : Nat) (i : AccountPolicyInput) (currencyID classificationID : Nat) :
    Result AccountPolicyRow := do
  let status ← orError i.status ⟨.invalidInput, "check constraint %q violated"⟩
  let minBalance ← numericColumn i.minBalance
  textParam i.note
  require (i.accountHolder ≠ 0) ⟨.invalidInput, "check constraint %q violated"⟩
  return ⟨nextID, i.accountHolder, currencyID, classificationID, status, minBalance,
    i.enforceMinBalance⟩

variable {row p : AccountPolicyRow} {policies : List AccountPolicyRow} {dim : Dimension}

theorem policyRow_ok {nextID : Nat} {i : AccountPolicyInput} {currencyID classificationID : Nat}
    (ok : policyRow nextID i currencyID classificationID = .ok row) :
    row.id = nextID ∧ row.accountHolder = i.accountHolder ∧ row.currencyID = currencyID ∧
    row.classificationID = classificationID := by
  simp only [policyRow, bind_eq_ok, pure_eq_ok] at ok
  obtain ⟨_, -, _, -, _, -, _, -, rfl⟩ := ok
  exact ⟨rfl, rfl, rfl, rfl⟩

def governs (p : AccountPolicyRow) (dim : Dimension) : Bool :=
  p.accountHolder == dim.holder && (p.currencyID == dim.currency || p.currencyID == 0) &&
    (p.classificationID == dim.classification || p.classificationID == 0)

theorem getEffectiveAccountPolicy_mem (effective : getEffectiveAccountPolicy policies dim =
    some p) : p ∈ policies := by
  have first := List.mem_of_mem_head? effective
  exact List.mem_of_mem_filter ((List.mem_insertionSort policyOrder).mp first)

theorem getEffectiveAccountPolicy_congr {policies' : List AccountPolicyRow}
    (same : policies'.filter (governs · dim) = policies.filter (governs · dim)) :
    getEffectiveAccountPolicy policies' dim = getEffectiveAccountPolicy policies dim := by
  change ((policies'.filter (governs · dim)).insertionSort policyOrder).head? =
    ((policies.filter (governs · dim)).insertionSort policyOrder).head?
  rw [same]

theorem governs_congr {q : AccountPolicyRow} (same : p.sameDim q = true) (dim : Dimension) :
    governs p dim = governs q dim := by
  simp only [AccountPolicyRow.sameDim, Bool.and_eq_true, beq_iff_eq] at same
  simp only [governs, same.1.1, same.1.2, same.2]

instance : Std.Total policyOrder where
  total a b := by
    unfold policyOrder
    omega

instance : IsTrans AccountPolicyRow policyOrder where
  trans a b c := by
    unfold policyOrder
    omega

def AccountPolicyRow.columns (p : AccountPolicyRow) : Int × Nat × Nat :=
  (p.accountHolder, p.currencyID, p.classificationID)

theorem effective_of_exact (index : (policies.map AccountPolicyRow.columns).Nodup)
    (member : p ∈ policies) (currency : p.currencyID ≠ 0)
    (classification : p.classificationID ≠ 0) :
    getEffectiveAccountPolicy policies ⟨p.accountHolder, p.currencyID,
      p.classificationID⟩ = some p := by
  change ((policies.filter
    (governs · ⟨p.accountHolder, p.currencyID, p.classificationID⟩)).insertionSort
    policyOrder).head? = some p
  have sorted := List.pairwise_insertionSort policyOrder
    (policies.filter (governs · ⟨p.accountHolder, p.currencyID, p.classificationID⟩))
  have chosen (q : AccountPolicyRow) := @List.mem_insertionSort _ policyOrder _
    (policies.filter (governs · ⟨p.accountHolder, p.currencyID, p.classificationID⟩)) q
  generalize (policies.filter
    (governs · ⟨p.accountHolder, p.currencyID,
      p.classificationID⟩)).insertionSort policyOrder = rows
    at sorted chosen
  have inside : p ∈ rows := (chosen p).mpr (List.mem_filter.mpr ⟨member, by simp [governs]⟩)
  cases rows with
  | nil => cases inside
  | cons q rest =>
    obtain ⟨stored, governing⟩ := List.mem_filter.mp ((chosen q).mp List.mem_cons_self)
    rcases List.mem_cons.mp inside with rfl | later
    · rfl
    · -- The first row is at least as specific, so it names the same columns.
      have first := (List.pairwise_cons.mp sorted).1 p later
      simp only [governs, Bool.and_eq_true, Bool.or_eq_true, beq_iff_eq] at governing
      have same : q.columns = p.columns := by
        unfold policyOrder specificity at first
        simp only [AccountPolicyRow.columns, Prod.mk.injEq, governing.1.1, true_and]
        split_ifs at first <;> omega
      rw [List.inj_on_of_nodup_map index stored member same, List.head?_cons]

theorem upsert_columns (index : (policies.map AccountPolicyRow.columns).Nodup)
    (row : AccountPolicyRow) :
    ((upsertAccountPolicy policies row).map AccountPolicyRow.columns).Nodup := by
  have columns_iff (p : AccountPolicyRow) : p.sameDim row = true ↔ p.columns = row.columns := by
    simp [AccountPolicyRow.sameDim, AccountPolicyRow.columns, and_assoc]
  unfold upsertAccountPolicy
  split
  · rw [List.map_map, List.map_congr_left (g := AccountPolicyRow.columns)]
    · exact index
    · intro p _
      simp only [Function.comp_apply]
      split
      · next same => exact ((columns_iff p).mp same).symm
      · rfl
  · next none_ =>
    rw [List.map_append, List.map_cons, List.map_nil, ← List.concat_eq_append]
    refine index.concat ?_
    intro taken
    obtain ⟨p, member, same⟩ := List.mem_map.mp taken
    exact none_ (List.any_eq_true.mpr ⟨p, member, (columns_iff p).mpr same⟩)

theorem upsert_effective (specific : row.currencyID ≠ 0)
    (other : (⟨row.accountHolder, row.currencyID⟩ : Pair) ≠ dim.pair) :
    getEffectiveAccountPolicy (upsertAccountPolicy policies row) dim =
    getEffectiveAccountPolicy policies dim := by
  have outside : governs row dim = false := by
    rw [Bool.eq_false_iff]
    intro inside
    simp only [governs, Bool.and_eq_true, Bool.or_eq_true, beq_iff_eq, specific, or_false] at inside
    exact other (by rw [inside.1.1, inside.1.2]; rfl)
  apply getEffectiveAccountPolicy_congr
  have rewritten : ∀ l : List AccountPolicyRow,
      (l.map fun p => if p.sameDim row then { row with id := p.id } else p).filter (governs · dim) =
        l.filter (governs · dim) := by
    intro l
    induction l with
    | nil => rfl
    | cons p rest ih =>
      rw [List.map_cons, List.filter_cons, List.filter_cons, ih]
      -- Only rows that govern nothing here are rewritten.
      by_cases same : p.sameDim row = true
      · have before : governs p dim = false := (governs_congr same dim).trans outside
        have after : governs { row with id := p.id } dim = false := outside
        simp [same, before, after]
      · simp [same]
  unfold upsertAccountPolicy
  split
  · exact rewritten policies
  · rw [List.filter_append, List.filter_cons_of_neg (by simp [outside]),
      List.filter_nil, List.append_nil]

theorem upsert_ids (policies : List AccountPolicyRow) (row : AccountPolicyRow) :
    (upsertAccountPolicy policies row).map (·.id) = policies.map (·.id) ∨
      (upsertAccountPolicy policies row).map (·.id) = policies.map (·.id) ++ [row.id] := by
  unfold upsertAccountPolicy
  split
  · left
    rw [List.map_map]
    apply List.map_congr_left
    intro p _
    simp only [Function.comp_apply]
    split <;> rfl
  · right
    rw [List.map_append, List.map_cons, List.map_nil]

end Ledger.Postgres
