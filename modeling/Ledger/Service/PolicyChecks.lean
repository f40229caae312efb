import Ledger.Service.PolicySystem

namespace Ledger.Service

open Core Postgres Shared

structure Line where
  journal : Nat
  dim : Dimension
  entryType : Side
  amount : Int

def rowLine (e : EntryRow) : Line := ⟨e.journal, e.dim, e.entryType, e.amount⟩

def draftLine (journal : Nat) (d : EntryDraft) : Line := ⟨journal, d.dim, d.entryType, d.amount⟩

def Line.change (db : LedgerTables) (l : Line) : Int := changeOf db l.dim l.entryType l.amount

def Line.under (policy : Dimension → Option AccountPolicyRow) (l : Line) :
    Nat × Nat × Option AccountPolicyRow :=
  (l.journal, l.dim.currency, policy l.dim)

structure LinesOk (policy : Dimension → Option AccountPolicyRow) (db : LedgerTables)
    (lines : List Line) : Prop where
  known : ∀ l ∈ lines, (sideOfDim db l.dim).isSome = true
  notClosed : ∀ l ∈ lines, (policy l.dim).map (·.status) ≠ some .closed
  notLowered : ∀ p, p.status = .frozen → ∀ journal currency,
    0 ≤ sumAt (Line.under policy) (Line.change db) lines (journal, currency, some p)
  floors : ∀ l ∈ lines, ∀ p, policy l.dim = some p → p.enforceMinBalance = true →
    p.minBalance ≤ balanceOf db l.dim + sumAt Line.dim (Line.change db) lines l.dim

theorem LinesOk.nil (policy : Dimension → Option AccountPolicyRow) (db : LedgerTables) :
    LinesOk policy db [] where
  known := by simp
  notClosed := by simp
  notLowered := by simp
  floors := by simp

variable {db' : LedgerTables} {db : LedgerTables} {dim : Dimension}
  {policy : Dimension → Option AccountPolicyRow}

theorem KeepsSides.sideOfDim (keeps : KeepsSides db db')
    (known : (sideOfDim db dim).isSome = true) :
    Service.sideOfDim db' dim = Service.sideOfDim db dim := by
  obtain ⟨side, found⟩ := Option.isSome_iff_exists.mp known
  obtain ⟨row, stored, rfl⟩ := Option.map_eq_some_iff.mp found
  obtain ⟨row', stored', same⟩ := keeps _ row stored
  simp only [Service.sideOfDim, stored, stored', Option.map_some, same]

theorem changeOf_congr (same : sideOfDim db' dim = sideOfDim db dim)
    (entryType : Side) (amount : Int) :
    changeOf db' dim entryType amount = changeOf db dim entryType amount := by
  rw [changeOf, same, changeOf]

theorem balanceOf_congr (same : sideOfDim db' dim = sideOfDim db dim)
    (entries : db'.dimEntries dim = db.dimEntries dim) :
    balanceOf db' dim = balanceOf db dim := by
  rw [balanceOf, entries, balanceOf]
  simp only [changeOf_congr same]

theorem balanceOf_of_side {side : Side} (found : sideOfDim db dim = some side) :
    balanceOf db dim = signedTotal db side dim := by
  rw [balanceOf, signedTotal]
  congr 1
  apply List.map_congr_left
  intro e _
  rw [changeOf, found]
  rfl

theorem balanceOf_append (same : sideOfDim db' dim = sideOfDim db dim) {rows : List EntryRow}
    (appended : db'.entries = db.entries ++ rows) :
    balanceOf db' dim = balanceOf db dim + sumAt Line.dim (Line.change db)
    (rows.map rowLine) dim := by
  have added : sumAt Line.dim (Line.change db) (rows.map rowLine) dim =
      ((rows.filter (·.dim == dim)).map fun e => changeOf db dim e.entryType e.amount).sum := by
    rw [sumAt_map, sumAt]
    simp only [beq_eq_decide]
    congr 1
    apply List.map_congr_left
    intro e member
    have here : e.dim = dim := of_decide_eq_true (List.mem_filter.mp member).2
    rw [← here]
    rfl
  rw [balanceOf, LedgerTables.dimEntries, appended, List.filter_append, List.map_append,
    List.sum_append, added]
  simp only [changeOf_congr same]
  rfl

theorem LinesOk.keep {policy' : Dimension → Option AccountPolicyRow} {lines : List Line}
    (ok : LinesOk policy db lines)
    (policies : ∀ l ∈ lines, policy' l.dim = policy l.dim)
    (entries : ∀ l ∈ lines, db'.dimEntries l.dim = db.dimEntries l.dim)
    (keeps : KeepsSides db db') : LinesOk policy' db' lines := by
  have sides (l : Line) (member : l ∈ lines) : sideOfDim db' l.dim = sideOfDim db l.dim :=
    keeps.sideOfDim (ok.known l member)
  have changes (l : Line) (member : l ∈ lines) : l.change db' = l.change db := changeOf_congr
    (sides l member) _ _
  refine ⟨?_, ?_, ?_, ?_⟩
  · intro l member
    rw [sides l member]
    exact ok.known l member
  · intro l member
    rw [policies l member]
    exact ok.notClosed l member
  · intro p frozen journal currency
    refine (ok.notLowered p frozen journal currency).trans
      (sumAt_le ?_ (fun l member => (changes l member).ge) _)
    intro l member
    rw [Line.under, Line.under, policies l member]
  · intro l member p governed enforced
    rw [policies l member] at governed
    rw [balanceOf_congr (sides l member) (entries l member), sumAt_congr changes]
    exact ok.floors l member p governed enforced

structure Drafted (db : LedgerTables) (e : ResolvedEntry) (d : EntryDraft) : Prop where
  dim : d.dim = e.dim
  side : ∃ side, sideOfDim db d.dim = some side ∧ e.normalSide = side.normalSide
  entryType : d.entryType.entryType = e.input.entryType
  amount : (d.amount : ℚ) = e.input.amount.val * 10 ^ 18

variable {e : ResolvedEntry}

theorem Drafted.keep {d : EntryDraft} (drafted : Drafted db e d) (keeps : KeepsSides db db') :
    Drafted db' e d := by
  obtain ⟨side, found, normal⟩ := drafted.side
  refine ⟨drafted.dim, ⟨side, ?_, normal⟩, drafted.entryType, drafted.amount⟩
  rw [keeps.sideOfDim (by rw [found]; rfl), found]

structure DeltaOk (policy : Dimension → Option AccountPolicyRow) (d : PolicyDelta) : Prop where
  policy : d.policy = policy d.entry.dim
  notClosed : d.policy.map (·.status) ≠ some .closed
  delta : signedAmount d.entry.normalSide d.entry.input.entryType d.entry.input.amount = .ok d.delta

variable {d : PolicyDelta}

theorem policyDeltaWith_ok {policy : Option AccountPolicyRow}
    (ok : policyDeltaWith policy e = .ok d) :
    d.entry = e ∧ d.policy = policy ∧ policy.map (·.status) ≠ some .closed ∧
      signedAmount e.normalSide e.input.entryType e.input.amount = .ok d.delta := by
  simp only [policyDeltaWith, bind_eq_ok, within_eq_ok, pure_eq_ok, require_eq_ok,
    decide_eq_true_eq] at ok
  obtain ⟨delta, signed, _, status, rfl⟩ := ok
  exact ⟨rfl, rfl, status, signed⟩

theorem DeltaOk.change {draft : EntryDraft} (ok : DeltaOk policy d)
    (drafted : Drafted db d.entry draft) (journal : Nat) :
    (((draftLine journal draft).change db : Int) : ℚ) = d.delta.val * 10 ^ 18 := by
  obtain ⟨side, found, normal⟩ := drafted.side
  have signed := ok.delta
  rw [normal, ← drafted.entryType] at signed
  obtain ⟨delta, same, value⟩ := signedAmount_side side draft.entryType d.entry.input.amount
  rw [Except.ok.inj (signed.symm.trans same), value, Line.change, draftLine, changeOf, found]
  have amount := drafted.amount
  simp only [ledgerSignedAmount, Side.signed]
  split
  · exact amount
  · push_cast
    rw [amount]
    ring

def FloorOk (policy : Dimension → Option AccountPolicyRow) (db : LedgerTables) (lines : List Line)
    (dim : Dimension) : Prop :=
  ∀ p, policy dim = some p → p.enforceMinBalance = true →
    p.minBalance ≤ balanceOf db dim + sumAt Line.dim (Line.change db) lines dim

def drafts (post : Posting) : List Line := post.inserting.map (draftLine post.journal)

def written (post : Posting) : List Line := post.written.map rowLine

structure CheckOk (policy : Dimension → Option AccountPolicyRow) (db : LedgerTables)
    (post : Posting) (c : Checking) : Prop where
  locked : c.read ≠ [] ∨ c.floors ≠ none → post.locking = []
  entries : ¬c.passed → List.Forall₂ (Drafted db) (c.read.map (·.entry) ++ c.unread) post.inserting
  reads : ¬c.passed → ∀ d ∈ c.read, DeltaOk policy d
  netted : ∀ dims, c.floors = some dims → dims ≠ [] → c.unread = [] ∧
    (∀ key, 0 ≤ sumAt PolicyDelta.frozenKey (·.delta.val) c.read (some key)) ∧
    ∀ d ∈ c.read, d.entry.dim ∉ dims → FloorOk policy db (written post ++ drafts post) d.entry.dim
  checkpoint : ∀ seen dim, c.atCheckpoint = some seen → CheckpointOk db dim (seen.checkpoints dim)

theorem checkFrozen_nonneg {deltas : List PolicyDelta}
    (ok : checkAll (checkFrozen deltas) (firstSeen (deltas.filterMap (·.frozenKey))) = .ok ())
    (key : Nat × Nat) :
    0 ≤ sumAt PolicyDelta.frozenKey (·.delta.val) deltas (some key) := by
  by_cases seen : key ∈ deltas.filterMap (·.frozenKey)
  · have checked := (checkAll_eq_ok.mp ok) key (mem_firstSeen.mpr seen)
    simp only [checkFrozen, require_eq_ok, Bool.not_eq_true'] at checked
    have notNegative : ¬(sumDecimals
      ((deltas.filter (·.frozenKey == some key)).map (·.delta))).val < 0 := by
      rw [← Decimal.isNegative_iff, checked]
      exact Bool.false_ne_true
    rw [val_sumDecimals, List.map_map, not_lt] at notNegative
    simpa only [sumAt, beq_eq_decide, Function.comp_def] using notNegative
  · -- No entry is netted under this key.
    rw [sumAt_of_not_mem]
    intro inside
    obtain ⟨d, member, same⟩ := List.mem_map.mp inside
    exact seen (List.mem_filterMap.mpr ⟨d, member, same⟩)

section

variable {policy : Dimension → Option AccountPolicyRow} {db : LedgerTables} {post : Posting}
  {read : List PolicyDelta}

theorem deltas_drafts (entries : List.Forall₂ (Drafted db) (read.map (·.entry)) post.inserting)
    (reads : ∀ d ∈ read, DeltaOk policy d) :
    List.Forall₂ (fun d draft => DeltaOk policy d ∧ Drafted db d.entry draft) read post.inserting :=
  (List.forall₂_and_left _ _).mpr ⟨reads, List.forall₂_map_left_iff.mp entries⟩

def Line.frozenKey (policy : Dimension → Option AccountPolicyRow) (l : Line) : Option (Nat × Nat) :=
  match policy l.dim with
  | some p => if p.status = .frozen then some (p.id, l.dim.currency) else none
  | none => none

section

variable (related : List.Forall₂ (fun d draft => DeltaOk policy d ∧ Drafted db d.entry draft)
  read post.inserting)
include related

theorem sum_deltas (dim : Dimension) :
    ((sumAt Line.dim (Line.change db) (drafts post) dim : Int) : ℚ) =
      sumAt (·.entry.dim) (·.delta.val) read dim * 10 ^ 18 := by
  refine sumAt_forall₂ ?_ dim
  rw [drafts, List.forall₂_map_right_iff]
  refine related.imp ?_
  rintro d draft ⟨ok, drafted⟩
  exact ⟨drafted.dim, ok.change drafted _⟩

theorem sum_frozen (key : Nat × Nat) :
    ((sumAt (Line.frozenKey policy) (Line.change db) (drafts post) (some key) : Int) : ℚ) =
      sumAt PolicyDelta.frozenKey (·.delta.val) read (some key) * 10 ^ 18 := by
  refine sumAt_forall₂ ?_ (some key)
  rw [drafts, List.forall₂_map_right_iff]
  refine related.imp ?_
  rintro d draft ⟨ok, drafted⟩
  refine ⟨?_, ok.change drafted _⟩
  rw [Line.frozenKey, PolicyDelta.frozenKey, ok.policy, draftLine, drafted.dim]
  rfl

variable {p : AccountPolicyRow}

theorem drafts_notLowered (unique : ∀ dim dim' p q, policy dim = some p → policy dim' = some q →
    p.id = q.id → p = q)
    (frozen : ∀ key, 0 ≤ sumAt PolicyDelta.frozenKey (·.delta.val) read (some key))
    (status : p.status = .frozen)
    (journal currency : Nat) : 0 ≤ sumAt (Line.under policy) (Line.change db) (drafts post)
    (journal, currency, some p) := by
  by_cases present : (journal, currency, some p) ∈ (drafts post).map (Line.under policy)
  · obtain ⟨l, member, same⟩ := List.mem_map.mp present
    simp only [Line.under, Prod.mk.injEq] at same
    obtain ⟨sameJournal, -, governed⟩ := same
    have ofPost (l : Line) (member : l ∈ drafts post) : l.journal = post.journal := by
      obtain ⟨d, -, rfl⟩ := List.mem_map.mp member
      rfl
    -- A policy is known by its id, so both keys pick the same drafts.
    have sameSum : sumAt (Line.under policy) (Line.change db) (drafts post)
      (journal, currency, some p) =
        sumAt (Line.frozenKey policy) (Line.change db) (drafts post) (some (p.id, currency)) := by
      unfold sumAt
      congr 2
      apply List.filter_congr
      intro l' member'
      rw [decide_eq_decide]
      have journals : l'.journal = journal := (ofPost l' member').trans ((ofPost l member).symm.trans sameJournal)
      cases found : policy l'.dim with
      | none => simp [Line.under, Line.frozenKey, found]
      | some q =>
        simp only [Line.under, Line.frozenKey, found, Prod.mk.injEq, journals, true_and, Option.some.injEq]
        constructor
        · rintro ⟨rfl, rfl⟩
          rw [if_pos status]
        · intro key
          split at key
          · simp only [Option.some.injEq, Prod.mk.injEq] at key
            exact ⟨key.2, unique _ _ _ _ found governed key.1⟩
          · cases key
    have scaled := sum_frozen related (p.id, currency)
    have nonneg : (0 : ℚ) ≤
      ((sumAt (Line.frozenKey policy) (Line.change db) (drafts post) (some (p.id, currency)) :
        Int) : ℚ) := by
      rw [scaled]
      exact mul_nonneg (frozen _) (by positivity)
    rw [sameSum]
    exact_mod_cast nonneg
  · rw [sumAt_of_not_mem present]

end

theorem LinesOk.pass (ok : LinesOk policy db (written post))
    (unique : ∀ dim dim' p q, policy dim = some p → policy dim' = some q → p.id = q.id → p = q)
    (entries : List.Forall₂ (Drafted db) (read.map (·.entry)) post.inserting)
    (reads : ∀ d ∈ read, DeltaOk policy d)
    (frozen : ∀ key, 0 ≤ sumAt PolicyDelta.frozenKey (·.delta.val) read (some key))
    (floors : ∀ d ∈ read, FloorOk policy db (written post ++ drafts post) d.entry.dim) :
    LinesOk policy db (written post ++ drafts post) := by
  have related := deltas_drafts entries reads
  have read_ (l : Line) (member : l ∈ drafts post) : ∃ d ∈ read, d.entry.dim =
    l.dim ∧ DeltaOk policy d ∧
      (sideOfDim db l.dim).isSome = true := by
    obtain ⟨draft, inside, rfl⟩ := List.mem_map.mp member
    obtain ⟨d, there, ok, drafted⟩ := forall₂_of_mem_right related inside
    obtain ⟨side, found, -⟩ := drafted.side
    exact ⟨d, there, drafted.dim.symm, ok, by rw [draftLine, found]; rfl⟩
  refine ⟨?_, ?_, ?_, ?_⟩
  · intro l member
    rcases List.mem_append.mp member with old | new
    · exact ok.known l old
    · obtain ⟨_, -, -, -, known⟩ := read_ l new
      exact known
  · intro l member
    rcases List.mem_append.mp member with old | new
    · exact ok.notClosed l old
    · obtain ⟨d, -, dim, deltaOk, -⟩ := read_ l new
      rw [← dim, ← deltaOk.policy]
      exact deltaOk.notClosed
  · intro p status journal currency
    rw [sumAt_append]
    exact add_nonneg (ok.notLowered p status journal currency)
      (drafts_notLowered related unique frozen status journal currency)
  · intro l member p governed enforced
    by_cases touched : l.dim ∈ (drafts post).map Line.dim
    · obtain ⟨l', new, same⟩ := List.mem_map.mp touched
      obtain ⟨d, there, dim, -⟩ := read_ l' new
      rw [← same, ← dim] at governed ⊢
      exact floors d there p governed enforced
    · rcases List.mem_append.mp member with old | new
      · rw [sumAt_append, sumAt_of_not_mem touched, add_zero]
        exact ok.floors l old p governed enforced
      · exact absurd (List.mem_map_of_mem new) touched

variable {s : System} {t : Nat}

theorem ownView_grows (ok : PostOk s t post) : Grows s.db (ownView s.db post) :=
  ⟨⟨post.written, rfl, ok.above⟩, .of_eq rfl⟩

theorem ownView_balance {side : Side} (found : sideOfDim db dim = some side) :
    signedTotal (ownView db post) side dim = balanceOf db dim + sumAt Line.dim (Line.change db)
    (written post) dim := by
  have inView : sideOfDim (ownView db post) dim = some side := found
  have appended : (ownView db post).entries = db.entries ++ post.written := rfl
  rw [← balanceOf_of_side inView, balanceOf_append (inView.trans found.symm) appended, written]

theorem floor_of_check (positive : ∀ e ∈ s.db.entries, 0 < e.id) (postOk : PostOk s t post)
    (entries : List.Forall₂ (Drafted s.db) (read.map (·.entry)) post.inserting)
    (reads : ∀ d ∈ read, DeltaOk policy d)
    (touched : dim ∈ read.map (·.entry.dim)) {seen : LedgerTables}
    (checkpoint : CheckpointOk s.db dim (seen.checkpoints dim))
    (ok : checkFloor p seen (ownView s.db post) read dim = .ok ()) :
    p.minBalance ≤ balanceOf s.db dim + sumAt Line.dim (Line.change s.db)
    (written post ++ drafts post) dim := by
  have related := deltas_drafts entries reads
  obtain ⟨side, found⟩ : ∃ side, sideOfDim s.db dim = some side := by
    obtain ⟨d, member, rfl⟩ := List.mem_map.mp touched
    obtain ⟨draft, -, drafted⟩ :=
      forall₂_of_mem_right (List.forall₂_map_left_iff.mp entries).flip member
    obtain ⟨side, found, -⟩ := drafted.side
    exact ⟨side, drafted.dim ▸ found⟩
  obtain ⟨row, stored, rfl⟩ := Option.map_eq_some_iff.mp found
  simp only [checkFloor, bind_eq_ok, within_eq_ok, require_eq_ok, Bool.not_eq_true'] at ok
  obtain ⟨before, balance, gate⟩ := ok
  have grows := ownView_grows postOk
  have above : ∀ e ∈ (ownView s.db post).entries, 0 < e.id := by
    intro e member
    rcases List.mem_append.mp member with old | new
    · exact positive e old
    · exact (postOk.drawn e new).1
  have inView : (ownView s.db post).getClassification dim.classification = some row := stored
  have exact_ := (getBalance_exact above (checkpoint.grow grows) inView
    (.of_eq rfl)).1 before balance
  have net := sum_deltas related dim
  have enough : (numericToDecimal p.minBalance).val ≤
      before.val + sumAt (·.entry.dim) (·.delta.val) read dim := by
    have notBelow : ¬(before.add (sumDecimals ((read.filter (·.entry.dim == dim)).map (·.delta)))).val <
        (numericToDecimal p.minBalance).val := by
      rw [← Decimal.greaterThan_iff, gate]
      exact Bool.false_ne_true
    rw [not_lt, Decimal.val_add, val_sumDecimals, List.map_map] at notBelow
    simpa only [sumAt, beq_eq_decide, Function.comp_def] using notBelow
  rw [sumAt_append, ← add_assoc, ← ownView_balance found]
  have scaled := mul_le_mul_of_nonneg_right enough (by positivity : (0 : ℚ) ≤ 10 ^ 18)
  rw [numericToDecimal_units, add_mul, ← net, exact_, div_mul_cancel₀ _ (by positivity)] at scaled
  exact_mod_cast scaled

end

end Ledger.Service
