import Ledger.Postgres.JournalTables
import Ledger.Postgres.Pending

namespace Ledger.Postgres

open Core Shared

inductive PostOutcome (env : Env) (s : Store) (input : JournalInput) (s' : Store) : Prop
  | replay (existing : JournalRow) (j : Journal)
      (found : s.journals.find? (·.idempotencyKey == input.idempotencyKey) = some existing)
      (matches_ : ensureJournalMatchesInput s existing input = .ok j) (same : s' = s)
  | fresh {effectiveAt : Instant} {auth : JournalAuth} {g : Gated} {row : JournalRow} {rows : List EntryRow}
      (fresh : Fresh env s input effectiveAt auth g row rows s')

variable {s s' : Store} {j : Journal} {cfg : Config} {env : Env} {input : JournalInput}
  {verified : Option Decimal}

theorem postJournalWithQueries_outcome {effectiveAt : Instant} {auth : JournalAuth}
    (ok : postJournalWithQueries cfg env s input effectiveAt auth = .ok (s', j)) :
    PostOutcome env s input s' := by
  rcases (postJournalWithQueries_ok ok).2 with ⟨existing, found, same, rfl⟩ | ⟨g,
    row, rows, fresh, -⟩
  · exact .replay existing j found same rfl
  · exact .fresh fresh

theorem postJournal_outcome {mode : Mode} (ok : postJournal cfg mode env s input = .ok (s', j)) :
    PostOutcome env s input s' := by
  simp only [postJournal, bind_eq_ok] at ok
  obtain ⟨_, -, rest⟩ := ok
  cases mode with
  | tx => exact postJournalWithQueries_outcome rest
  | pool attestor =>
    simp only [bind_eq_ok] at rest
    obtain ⟨auth, -, posted⟩ := rest
    exact postJournalWithQueries_outcome posted

variable {a : AuthorizedJournal} {errPrefix : String} {i : PendingInput} {pendingClsUID : GoString}

theorem authorize_input {attestor : Option Attestor}
    (ok : authorize cfg attestor env s input = .ok a) : a.input = input := by
  simp only [authorize, bind_eq_ok, pure_eq_ok] at ok
  obtain ⟨_, -, auth, -, rfl⟩ := ok
  rfl

theorem postAuthorized_outcome (ok : postAuthorized cfg env s a = .ok (s', j)) :
    PostOutcome env s a.input s' := by
  simp only [postAuthorized, bind_eq_ok] at ok
  obtain ⟨_, -, _, -, posted⟩ := ok
  exact postJournalWithQueries_outcome posted

def PendingCovered (s : Store) (i : PendingInput) (pendingClsUID : GoString) : Prop :=
  ∃ cur bal, s.currencyByUIDOrErr i.currencyUID = .ok cur ∧
    pendingBalanceFromEntries s i.accountHolder cur.id pendingClsUID = .ok bal ∧ i.amount.val ≤ bal.val

theorem checkPendingBalance_ok {currencyID : Nat}
    (ok : checkPendingBalance s errPrefix i currencyID pendingClsUID verified = .ok ()) :
    ∃ bal, pendingBalanceFromEntries s i.accountHolder currencyID pendingClsUID = .ok bal ∧
    i.amount.val ≤ bal.val := by
  simp only [checkPendingBalance, bind_eq_ok, within_eq_ok, require_eq_ok, Bool.not_eq_true'] at ok
  obtain ⟨bal, read, gate⟩ := ok
  refine ⟨bal, read, ?_⟩
  have within_ : i.amount.val ≤ ((verified.map fun v => decimalMin v bal).getD bal).val := by
    rw [← not_lt, ← Decimal.greaterThan_iff, gate]
    exact Bool.false_ne_true
  cases verified with
  | none => exact within_
  | some v =>
    -- The minimum with the verified figure only lowers the gate.
    refine within_.trans ?_
    rw [Option.map_some, Option.getD_some, decimalMin_val]
    exact min_le_right _ _

theorem replayed_outcome {existing : JournalRow} {covered : Prop}
    (lookup : s.getJournalByIdempotencyKey input.idempotencyKey = .ok (some existing))
    (ok : (do let journal ← ensureJournalMatchesInput s existing input; return (s, journal)) =
      Except.ok (s', j)) :
    PostOutcome env s input s' ∧ (s' = s ∨ covered) := by
  simp only [bind_eq_ok, pure_eq_ok, Prod.mk.injEq] at ok
  obtain ⟨journal, same, rfl, rfl⟩ := ok
  exact ⟨.replay existing journal (getJournalByIdempotencyKey_ok lookup).symm same rfl, .inl rfl⟩

theorem runPending_outcome {authorized : Option AuthorizedJournal}
    (signed : ∀ a, authorized = some a → a.input = input)
    (ok : runPending cfg env s errPrefix i pendingClsUID input verified authorized = .ok (s', j)) :
    PostOutcome env s input s' ∧ (s' = s ∨ PendingCovered s i pendingClsUID) := by
  simp only [runPending, bind_eq_ok, within_eq_ok] at ok
  obtain ⟨cur, currency, resolved, -, _, -, found, lookup, rest⟩ := ok
  cases found with
  | some existing => exact replayed_outcome lookup rest
  | none =>
    simp only [bind_eq_ok] at rest
    obtain ⟨_, gate, posted⟩ := rest
    obtain ⟨bal, read, le⟩ := checkPendingBalance_ok gate
    refine ⟨?_, .inr ⟨cur, bal, currency, read, le⟩⟩
    cases authorized with
    | none => exact postJournal_outcome posted
    | some a =>
      have outcome := postAuthorized_outcome posted
      rwa [signed a rfl] at outcome

theorem checkPendingBalanceAndPost_outcome {p : PendingStore}
    (ok : checkPendingBalanceAndPost p env s errPrefix i pendingClsUID input
      verified = .ok (s', j)) :
    PostOutcome env s input s' ∧ (s' = s ∨ PendingCovered s i pendingClsUID) := by
  unfold checkPendingBalanceAndPost at ok
  split at ok
  · refine runPending_outcome ?_ ok
    intro a absurd_
    cases absurd_
  · simp only [bind_eq_ok, within_eq_ok] at ok
    obtain ⟨a, signed, posted⟩ := ok
    refine runPending_outcome ?_ posted
    rintro _ ⟨⟩
    exact authorize_input signed

namespace PendingStore

variable {p : PendingStore} {env : Env} {s s' : Store} {j : Journal}

theorem addPending_outcome {i : AddPendingInput} (ok : p.addPending env s i = .ok (s', j)) :
    i.validate = .ok () ∧ ∃ cls jt, resolveClassificationIDs s = .ok cls ∧
      s.getJournalTypeByCode (lit "deposit_pending") = some jt ∧
      PostOutcome env s (buildAddPendingJournalInput i cls jt) s' := by
  simp only [addPending, bind_eq_ok, within_eq_ok, orError_eq_ok] at ok
  obtain ⟨_, valid, cls, resolved, jt, type_, posted⟩ := ok
  exact ⟨valid, cls, jt, resolved, type_, postJournal_outcome posted⟩

theorem confirmPending_outcome {i : ConfirmPendingInput}
    (ok : p.confirmPending env s i = .ok (s', j)) :
    i.validate = .ok () ∧ ∃ cls jt, resolveClassificationIDs s = .ok cls ∧
      PostOutcome env s (buildConfirmPendingJournalInput i cls jt) s' ∧
      (s' = s ∨ PendingCovered s i.toPendingInput cls.pending) := by
  simp only [confirmPending, bind_eq_ok, within_eq_ok, orError_eq_ok] at ok
  obtain ⟨_, valid, cls, resolved, jt, -, _, -, found, lookup, rest⟩ := ok
  refine ⟨valid, cls, jt, resolved, ?_⟩
  cases found with
  | some existing => exact replayed_outcome lookup rest
  | none =>
    simp only [bind_eq_ok] at rest
    obtain ⟨verified, -, posted⟩ := rest
    exact checkPendingBalanceAndPost_outcome posted

theorem cancelPending_outcome {i : CancelPendingInput}
    (ok : p.cancelPending env s i = .ok (s', j)) :
    i.validate = .ok () ∧ ∃ cls jt, resolveClassificationIDs s = .ok cls ∧
      PostOutcome env s (buildCancelPendingJournalInput i cls jt) s' ∧
      (s' = s ∨ PendingCovered s i.toPendingInput cls.pending) := by
  simp only [cancelPending, bind_eq_ok, within_eq_ok, orError_eq_ok] at ok
  obtain ⟨_, valid, cls, resolved, jt, -, found, lookup, rest⟩ := ok
  refine ⟨valid, cls, jt, resolved, ?_⟩
  cases found with
  | some existing => exact replayed_outcome lookup rest
  | none => exact checkPendingBalanceAndPost_outcome rest

end PendingStore

/-- The unique constraints of the dimension tables, and the pending classification as
`InstallPendingBundle` creates it: `c` is its id. -/
structure PendingBundle (s : Store) (c : Nat) : Prop where
  ids : (s.ledger.classifications.map (·.id)).Nodup
  uids : (s.ledger.classifications.map (·.uid)).Nodup
  codes : (s.ledger.classifications.map (·.code)).Nodup
  currencyIDs : (s.currencies.map (·.id)).Nodup
  currencyUIDs : (s.currencies.map (·.uid)).Nodup
  typeIDs : (s.journalTypes.map (·.id)).Nodup
  pending : ∃ row ∈ s.ledger.classifications, row.code = lit "pending" ∧ row.id = c ∧
    row.normalSide = .credit

variable {uid : GoString}

theorem classByUIDOrErr_mem {cls : ClassificationRow} (ok : s.classByUIDOrErr uid = .ok cls) :
    cls ∈ s.ledger.classifications ∧ pgToUID cls.uid = uid := by
  rw [Store.classByUIDOrErr, orError_eq_ok] at ok
  exact ⟨List.mem_of_find?_eq_some ok, by simpa using List.find?_some ok⟩

theorem currencyByUIDOrErr_mem {cur : CurrencyRow} (ok : s.currencyByUIDOrErr uid = .ok cur) :
    cur ∈ s.currencies ∧ pgToUID cur.uid = uid := by
  rw [Store.currencyByUIDOrErr, orError_eq_ok] at ok
  exact ⟨List.mem_of_find?_eq_some ok, by simpa using List.find?_some ok⟩

variable {code : String}

theorem resolveClassificationID_ok (ok : resolveClassificationID s code = .ok uid) :
    ∃ row ∈ s.ledger.classifications, row.code = lit code ∧ uid = pgToUID row.uid := by
  simp only [resolveClassificationID, bind_eq_ok, orError_eq_ok, pure_eq_ok] at ok
  obtain ⟨row, found, rfl⟩ := ok
  exact ⟨row, List.mem_of_find?_eq_some found, by simpa using List.find?_some found, rfl⟩

theorem resolveClassificationIDs_ok {cls : PendingClassIDs}
    (ok : resolveClassificationIDs s = .ok cls) :
    resolveClassificationID s "pending" = .ok cls.pending ∧ resolveClassificationID s "suspense" =
    .ok cls.suspense ∧
      resolveClassificationID s "main_wallet" = .ok cls.mainWallet ∧
      resolveClassificationID s "custodial" = .ok cls.custodial := by
  simp only [resolveClassificationIDs, bind_eq_ok, pure_eq_ok] at ok
  obtain ⟨pending, pendingOk, suspense, suspenseOk, wallet, walletOk, custodial,
    custodialOk, rfl⟩ := ok
  exact ⟨pendingOk, suspenseOk, walletOk, custodialOk⟩

namespace PendingBundle

variable {s : Store} {c : Nat}

theorem id_eq_iff (bundle : PendingBundle s c) {row : ClassificationRow}
    (resolved : resolveClassificationID s code = .ok uid)
    (found : s.classByUIDOrErr uid = .ok row) :
    row.id = c ↔ lit code = lit "pending" := by
  obtain ⟨named, inside, code_, rfl⟩ := resolveClassificationID_ok resolved
  obtain ⟨member, print⟩ := classByUIDOrErr_mem found
  have same : row = named := List.inj_on_of_nodup_map bundle.uids member inside
    (Uuid.print_injective print)
  obtain ⟨pending, pendingIn, pendingCode, pendingID, -⟩ := bundle.pending
  subst same
  constructor
  · intro id
    have : row = pending := List.inj_on_of_nodup_map bundle.ids member pendingIn
      (id.trans pendingID.symm)
    rw [← code_, this, pendingCode]
  · intro sameCode
    have : row = pending := List.inj_on_of_nodup_map bundle.codes member pendingIn
      (code_.trans (sameCode.trans pendingCode.symm))
    rw [this, pendingID]

theorem getClassification (bundle : PendingBundle s c) : ∃ row, s.ledger.getClassification c =
    some row ∧ row.normalSide = .credit := by
  obtain ⟨row, member, -, id, side⟩ := bundle.pending
  exact ⟨row, id ▸ find_of_nodup bundle.ids member, side⟩

theorem of_catalog (bundle : PendingBundle s c) (currencies : s'.currencies = s.currencies)
    (classes : s'.ledger.classifications = s.ledger.classifications)
    (types : s'.journalTypes = s.journalTypes) :
    PendingBundle s' c := by
  constructor
  · rw [classes]; exact bundle.ids
  · rw [classes]; exact bundle.uids
  · rw [classes]; exact bundle.codes
  · rw [currencies]; exact bundle.currencyIDs
  · rw [currencies]; exact bundle.currencyUIDs
  · rw [types]; exact bundle.typeIDs
  · rw [classes]; exact bundle.pending

end PendingBundle

variable {i : PendingInput} {r : EntryRow} {c : Nat} {row : JournalRow} {uid : GoString}

theorem Written.classification_eq_iff (bundle : PendingBundle s c) {holder : Int}
    {entryType : EntryType}
    (resolved : resolveClassificationID s code = .ok uid)
    (written : Written s row (pendingLeg i holder uid entryType) r) :
    r.dim.classification = c ↔ lit code = lit "pending" := by
  obtain ⟨cls, found, id⟩ := written.classification
  rw [id]
  exact bundle.id_eq_iff resolved found

structure PendingRow (s : Store) (c : Nat) (i : PendingInput) (side : Side) (row : JournalRow)
    (rows : List EntryRow)
    (r : EntryRow) : Prop where
  only : rows.filter (·.dim.classification == c) = [r]
  currency : ∃ cur, s.currencyByUIDOrErr i.currencyUID = .ok cur ∧ r.dim =
    ⟨i.accountHolder, cur.id, c⟩
  entryType : r.entryType = side
  amount : r.amount = toUnits 18 i.amount
  journal : r.journal = row.id
  createdAt : r.createdAt = row.createdAt

theorem PendingRow.of_written {side : Side} {rows : List EntryRow}
    (written : Written s row (pendingLeg i i.accountHolder uid side.entryType) r)
    (class_ : r.dim.classification = c)
    (only : rows.filter (·.dim.classification == c) = [r]) : PendingRow s c i side row rows r := by
  obtain ⟨resolved, rowOf, input⟩ := written.rowOf
  obtain ⟨cur, currency, id⟩ := written.currency
  refine ⟨only, ⟨cur, currency, ?_⟩, ?_, ?_, rowOf.journal, rowOf.createdAt⟩
  · rcases r with ⟨_, _, ⟨holder, currencyID, classID⟩, _⟩
    have sameHolder : holder = i.accountHolder := written.holder
    rw [sameHolder, show currencyID = cur.id from id, show classID = c from class_]
  · have type_ := rowOf.entryType
    rw [input] at type_
    revert type_
    cases r.entryType <;> cases side <;> simp [Side.entryType, pendingLeg]
  · rw [rowOf.amount, input]
    rfl

section

variable {env : Env} {s s' : Store} {c : Nat} {cls : PendingClassIDs} {jt : JournalTypeRow}
  {effectiveAt : Instant}
  {auth : JournalAuth} {g : Gated} {row : JournalRow} {rows : List EntryRow} {i : AddPendingInput}

theorem Fresh.deposit_row (fresh : Fresh env s (buildAddPendingJournalInput i cls jt)
    effectiveAt auth g row rows s')
    (bundle : PendingBundle s c) (resolved : resolveClassificationIDs s = .ok cls) :
    ∃ r, PendingRow s c i.toPendingInput .credit row rows r := by
  obtain ⟨pending, suspense, -, -⟩ := resolveClassificationIDs_ok resolved
  have written := fresh.written
  simp only [buildAddPendingJournalInput, pendingJournal, List.forall₂_cons_left_iff,
    List.forall₂_nil_left_iff] at written
  obtain ⟨r₁, _, first, ⟨r₂, _, second, rfl, rfl⟩, rfl⟩ := written
  have off : r₁.dim.classification ≠ c := fun same =>
    absurd ((first.classification_eq_iff bundle suspense).mp same) (by decide)
  have on := (second.classification_eq_iff bundle pending).mpr rfl
  exact ⟨r₂, .of_written second on (by simp [off, on])⟩

theorem Fresh.confirm_row {i : ConfirmPendingInput}
    (fresh : Fresh env s (buildConfirmPendingJournalInput i cls jt) effectiveAt auth g row rows s')
    (bundle : PendingBundle s c) (resolved : resolveClassificationIDs s = .ok cls) :
    ∃ r, PendingRow s c i.toPendingInput .debit row rows r := by
  obtain ⟨pending, suspense, wallet, custodial⟩ := resolveClassificationIDs_ok resolved
  have written := fresh.written
  simp only [buildConfirmPendingJournalInput, pendingJournal, List.forall₂_cons_left_iff,
    List.forall₂_nil_left_iff] at written
  obtain ⟨r₁, _, first, ⟨r₂, _, second, ⟨r₃, _, third, ⟨r₄, _, fourth, rfl, rfl⟩, rfl⟩, rfl⟩,
    rfl⟩ := written
  have on := (first.classification_eq_iff bundle pending).mpr rfl
  have off₂ : r₂.dim.classification ≠ c := fun same =>
    absurd ((second.classification_eq_iff bundle wallet).mp same) (by decide)
  have off₃ : r₃.dim.classification ≠ c := fun same =>
    absurd ((third.classification_eq_iff bundle suspense).mp same) (by decide)
  have off₄ : r₄.dim.classification ≠ c := fun same =>
    absurd ((fourth.classification_eq_iff bundle custodial).mp same) (by decide)
  exact ⟨r₁, .of_written first on (by simp [on, off₂, off₃, off₄])⟩

theorem Fresh.cancel_row {i : CancelPendingInput}
    (fresh : Fresh env s (buildCancelPendingJournalInput i cls jt) effectiveAt auth g row rows s')
    (bundle : PendingBundle s c) (resolved : resolveClassificationIDs s = .ok cls) :
    ∃ r, PendingRow s c i.toPendingInput .debit row rows r := by
  obtain ⟨pending, suspense, -, -⟩ := resolveClassificationIDs_ok resolved
  have written := fresh.written
  simp only [buildCancelPendingJournalInput, pendingJournal, List.forall₂_cons_left_iff,
    List.forall₂_nil_left_iff] at written
  obtain ⟨r₁, _, first, ⟨r₂, _, second, rfl, rfl⟩, rfl⟩ := written
  have on := (first.classification_eq_iff bundle pending).mpr rfl
  have off : r₂.dim.classification ≠ c := fun same =>
    absurd ((second.classification_eq_iff bundle suspense).mp same) (by decide)
  exact ⟨r₁, .of_written first on (by simp [on, off])⟩

theorem Fresh.deposit_journal (fresh : Fresh env s (buildAddPendingJournalInput i cls jt)
    effectiveAt auth g row rows s')
    (valid : i.validate = .ok ()) (type_ : s.getJournalTypeByCode (lit "deposit_pending") = some jt)
    (uids : (s.journalTypes.map (·.uid)).Nodup) :
    row.totalDebit = toUnits 18 i.amount ∧ row.journalTypeID = jt.id ∧ jt ∈ s.journalTypes ∧
      jt.code = lit "deposit_pending" ∧ row.createdAt = toMicros env.now := by
  have member := List.mem_of_find?_eq_some type_
  have found : g.jt = jt := by
    have lookup := (gates_ok fresh.gated).2.1
    rw [Store.jtByUIDOrErr, orError_eq_ok] at lookup
    have named := List.find?_some lookup
    have same : pgToUID g.jt.uid = pgToUID jt.uid := beq_iff_eq.mp named
    exact List.inj_on_of_nodup_map uids (List.mem_of_find?_eq_some lookup) member
      (Uuid.print_injective same)
  rw [(insertJournal_ok fresh.journal).2.2.2.2]
  refine ⟨?_, by rw [found], member, by simpa using List.find?_some type_, rfl⟩
  have value := (PendingInput.validateFor_ok valid).2
  apply toUnits_of_val
  simp only [JournalInput.totals, totalOf, buildAddPendingJournalInput, pendingJournal, pendingLeg,
    List.foldl_cons, List.foldl_nil, reduceCtorEq, if_true, if_false, Decimal.val_add,
      Decimal.val_zero, zero_add]
  rw [value]
  field_simp

end

end Ledger.Postgres
