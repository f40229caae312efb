import Ledger.Service.PendingRuns

namespace Ledger.Service

open Core Postgres Shared

def staleLeft (x : History) (c : Nat) (cutoff : Int) (pair : Pair) : Int :=
  (((deposits x.store c pair).filter (·.createdAt < cutoff)).map fun e => x.left e.journal).sum

def freshLeft (x : History) (c : Nat) (cutoff : Int) (pair : Pair) : Int :=
  (((deposits x.store c pair).filter (¬ ·.createdAt < cutoff)).map fun e => x.left e.journal).sum

def OldestCovered (x : History) (c : Nat) (cutoff : Int) (pair : Pair) : Prop :=
  ∃ e ∈ deposits x.store c pair, e.createdAt < cutoff ∧
    (∀ e' ∈ deposits x.store c pair, e'.createdAt < cutoff → e.journal ≤ e'.journal) ∧
    e.amount ≤ staleLeft x c cutoff pair

variable {c : Nat} {x : History} {s s' : Store} {cls : PendingClassIDs} {i : PendingInput}

theorem HistoryInv.left_nonneg (inv : HistoryInv c x) (pair : Pair) (keep : EntryRow → Bool) :
    0 ≤ (((deposits x.store c pair).filter keep).map fun e => x.left e.journal).sum := by
  apply List.sum_nonneg
  intro v member
  obtain ⟨e, inside, rfl⟩ := List.mem_map.mp member
  obtain ⟨stored, deposit, -⟩ := mem_deposits.mp (List.mem_of_mem_filter inside)
  exact (inv.bounds e stored deposit).1

theorem HistoryInv.split (inv : HistoryInv c x) (cutoff : Int) (pair : Pair) :
    staleLeft x c cutoff pair + freshLeft x c cutoff pair = pendingBalance x.store c pair := by
  rw [← inv.balance pair, staleLeft, freshLeft, ← List.sum_append, ← List.map_append]
  simp only [decide_not]
  exact ((List.filter_append_perm (fun e : EntryRow => decide (e.createdAt < cutoff))
    (deposits x.store c pair)).map
    fun e => x.left e.journal).sum_eq

theorem HistoryInv.balance_nonneg (inv : HistoryInv c x) (pair : Pair) :
    0 ≤ pendingBalance x.store c pair := by
  rw [← inv.split 0 pair]
  exact add_nonneg (inv.left_nonneg pair _) (inv.left_nonneg pair _)

theorem oldest_unique (tables : PendingTables s c) {pair : Pair} {e e' : EntryRow}
    (member : e ∈ deposits s c pair)
    (member' : e' ∈ deposits s c pair) (same : e.journal = e'.journal) : e = e' := by
  obtain ⟨stored, deposit, -⟩ := mem_deposits.mp member
  obtain ⟨stored', deposit', -⟩ := mem_deposits.mp member'
  exact List.inj_on_of_nodup_map tables.single (List.mem_filter.mpr ⟨stored, deposit⟩)
    (List.mem_filter.mpr ⟨stored', deposit'⟩) same

theorem deposits_nodup (tables : PendingTables s c) (pair : Pair) :
    ((deposits s c pair).map (·.journal)).Nodup := by
  refine tables.single.sublist (List.Sublist.map _ ?_)
  rw [deposits, LedgerTables.dimEntries, filter_pendingDim, filter_deposits, List.filter_filter]
  apply List.monotone_filter_right
  intro e keep
  exact (Bool.and_eq_true_iff.mp keep).1

theorem HistoryInv.attributable (inv : HistoryInv c x) (effect : StepEffect c x.store s')
    (drain : ∀ pair, drained x.store c pair ≤ drained s' c pair ∧
      drained s' c pair - drained x.store c pair ≤ pendingBalance x.store c pair) :
      ∃ left, Attributed c x ⟨s', left⟩ := by
  have choice (pair : Pair) := exists_taking (deposits_nodup inv.tables pair) x.left (by
      intro i member
      obtain ⟨e, inside, rfl⟩ := List.mem_map.mp member
      obtain ⟨stored, deposit, -⟩ := mem_deposits.mp inside
      exact (inv.bounds e stored deposit).1)
    (sub_nonneg.mpr (drain pair).1) (by
      rw [List.map_map]
      exact (drain pair).2.trans (inv.balance pair).ge)
  choose g bounds total using choice
  -- A deposit is found again by its journal, which no other deposit has.
  let left : Nat → Int := fun id =>
    match (s'.ledger.entries.filter (isDeposit c)).find? (·.journal == id) with
    | some e => if e.journal < x.store.nextJournalID then g e.dim.pair id else e.amount
    | none => 0
  have leftOf {e : EntryRow} (member : e ∈ s'.ledger.entries) (deposit : isDeposit c e = true) :
      left e.journal = if e.journal < x.store.nextJournalID then g e.dim.pair e.journal else e.amount := by
    simp only [left, find_of_nodup effect.tables.single (List.mem_filter.mpr ⟨member, deposit⟩)]
  have old {e : EntryRow} (member : e ∈ x.store.ledger.entries) (deposit : isDeposit c e = true) :
      left e.journal = g e.dim.pair e.journal := by
    obtain ⟨new, appended, -⟩ := effect.deposits e.dim.pair
    have listed : e ∈ deposits s' c e.dim.pair :=
      appended ▸ List.mem_append_left _ (mem_deposits.mpr ⟨member, deposit, rfl⟩)
    rw [leftOf (mem_deposits.mp listed).1 deposit, if_pos (inv.tables.wired.owned e member)]
  refine ⟨left, ⟨?_, ?_, fun pair => ?_⟩⟩
  · intro e member deposit above
    change left e.journal = e.amount
    rw [leftOf member deposit, if_neg (by omega)]
  · intro e member deposit
    change 0 ≤ left e.journal ∧ left e.journal ≤ x.left e.journal
    rw [old member deposit]
    exact bounds e.dim.pair e.journal
      (List.mem_map.mpr ⟨e, mem_deposits.mpr ⟨member, deposit, rfl⟩, rfl⟩)
  · have chosen : ((deposits x.store c pair).map fun e => left e.journal) =
        ((deposits x.store c pair).map (·.journal)).map (g pair) := by
      rw [List.map_map]
      apply List.map_congr_left
      intro e member
      obtain ⟨stored, deposit, here⟩ := mem_deposits.mp member
      rw [old stored deposit, here]
      rfl
    have taken := total pair
    rw [List.map_map] at taken
    rw [sum_map_sub, chosen]
    exact taken

def DrainsWithin (c : Nat) (s s' : Store) : Prop :=
  ∀ pair, drained s c pair ≤ drained s' c pair ∧ drained s' c pair - drained s c pair ≤
    pendingBalance s c pair

theorem DrainsWithin.of_eq (inv : HistoryInv c x)
    (same : ∀ pair, drained s' c pair = drained x.store c pair) :
    DrainsWithin c x.store s' := by
  intro pair
  rw [same, sub_self]
  exact ⟨le_rfl, inv.balance_nonneg pair⟩

theorem covered_units (bundle : PendingBundle s c) (resolved : resolveClassificationIDs s = .ok cls)
    (units : (toUnits 18 i.amount : ℚ) = i.amount.val * 10 ^ 18)
    (covered : PendingCovered s i cls.pending)
    {cur : CurrencyRow} (currency : s.currencyByUIDOrErr i.currencyUID = .ok cur) :
    toUnits 18 i.amount ≤ pendingBalance s c ⟨i.accountHolder, cur.id⟩ := by
  obtain ⟨cur', bal, currency', read, le⟩ := covered
  obtain rfl : cur' = cur := Except.ok.inj (currency'.symm.trans currency)
  simp only [pendingBalanceFromEntries, within_eq_ok, bind_eq_ok, pure_eq_ok] at read
  obtain ⟨row, class_, rfl⟩ := read
  have id : row.id = c := (bundle.id_eq_iff (resolveClassificationIDs_ok resolved).1 class_).mpr rfl
  obtain ⟨known, found, credit⟩ := bundle.getClassification
  have same : known = row := by
    have again := find_of_nodup bundle.ids (classByUIDOrErr_mem class_).1
    rw [id] at again
    exact Option.some.inj (found.symm.trans again)
  rw [← same, credit, same, id] at le
  have scaled := numericToDecimal_units
    (recomputeFromEntries s.ledger .credit ⟨i.accountHolder, cur'.id, c⟩)
  have bound : (toUnits 18 i.amount : ℚ) ≤ recomputeFromEntries s.ledger .credit
    ⟨i.accountHolder, cur'.id, c⟩ := by
    rw [units, ← scaled]
    exact mul_le_mul_of_nonneg_right le (by positivity)
  exact_mod_cast bound

theorem drain_within (inv : HistoryInv c x) {env : Env} {input : JournalInput}
    {effectiveAt : Instant}
    {auth : JournalAuth} {g : Gated} {row : JournalRow} {rows : List EntryRow} {r : EntryRow}
    (fresh : Fresh env x.store input effectiveAt auth g row rows s')
    (only : PendingRow x.store c i .debit row rows r)
    (le : r.amount ≤ pendingBalance x.store c r.dim.pair) : DrainsWithin c x.store s' := by
  intro pair
  have drain := drained_eq_of_row fresh only pair
  have positive := row_amount_pos fresh only
  by_cases here : r.dim.pair = pair
  · rw [if_pos ⟨rfl, here⟩] at drain
    rw [← here] at drain ⊢
    omega
  · rw [if_neg (fun both => here both.2), add_zero] at drain
    rw [drain, sub_self]
    exact ⟨le_rfl, inv.balance_nonneg pair⟩

theorem drain_call_within (inv : HistoryInv c x) {env : Env} {input : JournalInput}
    (resolved : resolveClassificationIDs x.store = .ok cls)
    (units : (toUnits 18 i.amount : ℚ) = i.amount.val * 10 ^ 18)
    (outcome : PostOutcome env x.store input s')
    (gate : s' = x.store ∨ PendingCovered x.store i cls.pending)
    (written : ∀ {effectiveAt : Instant} {auth : JournalAuth} {g : Gated} {row : JournalRow}
      {rows : List EntryRow},
      Fresh env x.store input effectiveAt auth g row rows s' →
      ∃ r, PendingRow x.store c i .debit row rows r) :
    DrainsWithin c x.store s' := by
  cases outcome with
  | replay existing journal found matches_ unchanged =>
    exact .of_eq inv fun pair => by rw [unchanged]
  | fresh fresh =>
    obtain ⟨r, only⟩ := written fresh
    rcases gate with unchanged | covered
    · exact .of_eq inv fun pair => by rw [unchanged]
    · obtain ⟨cur, currency, dim⟩ := only.currency
      have le := covered_units inv.tables.bundle resolved units covered currency
      exact drain_within inv fresh only (by rw [only.amount, dim]; exact le)

theorem PendingStep.drainsWithin (inv : HistoryInv c x) (step : PendingStep c x.store s') :
    DrainsWithin c x.store s' := by
  generalize same : x.store = s at step
  cases step with
  | add i ok =>
    subst same
    obtain ⟨-, cls, jt, resolved, -, outcome⟩ := PendingStore.addPending_outcome ok
    cases outcome with
    | replay existing journal found matches_ unchanged => exact .of_eq inv fun pair => by rw [unchanged]
    | fresh fresh =>
      obtain ⟨r, only⟩ := fresh.deposit_row inv.tables.bundle resolved
      exact .of_eq inv fun pair => by simpa using drained_eq_of_row fresh only pair
  | confirm i ok =>
    subst same
    obtain ⟨valid, cls, jt, resolved, outcome, gate⟩ := PendingStore.confirmPending_outcome ok
    exact drain_call_within inv resolved (PendingInput.validateFor_ok valid).2 outcome gate
      fun fresh => fresh.confirm_row inv.tables.bundle resolved
  | cancel i ok =>
    subst same
    obtain ⟨valid, cls, jt, resolved, outcome, gate⟩ := PendingStore.cancelPending_outcome ok
    exact drain_call_within inv resolved (PendingInput.validateFor_ok valid).2 outcome gate
      fun fresh => fresh.cancel_row inv.tables.bundle resolved
  | @sweep _ _ _ _ w threshold ok =>
    subst same
    intro pair
    obtain ⟨deposits_, account⟩ := (expirePending_effect inv.tables ok).2 pair
    have before := pendingBalance_eq x.store c pair
    have after := pendingBalance_eq w.store c pair
    rw [deposits_] at after
    have nonneg := inv.balance_nonneg pair
    rcases account with unchanged | ⟨row, listed, here, -, positive, drop⟩
    · omega
    · obtain ⟨e, member, -, -, amount, -⟩ := listPendingJournals_oldest inv.tables listed
      have := inv.tables.wired.positive e (mem_deposits.mp member).1
      omega
  | other elsewhere =>
    subst same
    exact .of_eq inv fun pair => by rw [drained, dimEntries_of_class elsewhere.entries, drained]

theorem PendingStep.attributable (inv : HistoryInv c x) (step : PendingStep c x.store s') :
    ∃ left, HistoryStep c x ⟨s', left⟩ := by
  obtain ⟨left, choice⟩ := inv.attributable (step.effect inv.tables) (step.drainsWithin inv)
  exact ⟨left, step, choice⟩

theorem exists_history {start : History} (begins : HistoryStart c start)
    (calls : Run (PendingStep c) start.store s) :
    ∃ left, Run (HistoryStep c) start ⟨s, left⟩ := by
  induction calls with
  | refl => exact ⟨start.left, .refl⟩
  | tail _ step ih =>
    obtain ⟨left, history⟩ := ih
    obtain ⟨left', next⟩ := PendingStep.attributable (HistoryInv.run begins history) step
    exact ⟨left', history.tail next⟩

/-- The sweep has no cancellation to post for the account: it lists no stale deposit of it, or the
key it derives from the one it lists is used already. -/
def PassedOver (s : Store) (c : Nat) (cutoff : Int) (pair : Pair) : Prop :=
  ∀ row ∈ listPendingJournalsOlderThan s c cutoff, row.pair = pair → ¬KeyUnused s row.journalID

/-- A sweep takes from an account at most what is left of its stale deposits if no fresh deposit is
outstanding, if the oldest stale deposit is covered by what is left of the stale ones, or if the
account is passed over; a sweep that takes anything from it does so only in the first two cases. -/
theorem sweep_takes_stale_iff {c : Nat} {start x : History} (begins : HistoryStart c start)
    (history : Run (HistoryStep c) start x) {p : PendingStore} {now : Instant}
    {draw : PendingJournalRow → Env} {threshold : Int} {w : Postgres.Sweep}
    (swept : p.expirePendingOlderThan now draw x.store threshold = .ok w) (pair : Pair) :
    let cutoff := toMicros (now - threshold)
    let taken := pendingBalance x.store c pair - pendingBalance w.store c pair
    let covered := freshLeft x c cutoff pair = 0 ∨ OldestCovered x c cutoff pair
    (covered ∨ PassedOver x.store c cutoff pair → taken ≤ staleLeft x c cutoff pair) ∧
      (taken ≠ 0 → (taken ≤ staleLeft x c cutoff pair ↔ covered)) := by
  intro cutoff taken covered
  have inv := HistoryInv.run begins history
  have split := inv.split cutoff pair
  have stale : 0 ≤ staleLeft x c cutoff pair := inv.left_nonneg pair _
  have fresh : 0 ≤ freshLeft x c cutoff pair := inv.left_nonneg pair _
  rcases ((expirePending_effect inv.tables swept).2 pair).2 with
    same | ⟨row, listed, here, unused, positive, drop⟩
  · have none_ : taken = 0 := by simp only [taken, same, sub_self]
    exact ⟨fun _ => none_.trans_le stale, fun some_ => absurd none_ some_⟩
  · obtain ⟨e, member, old, journal, amount, oldest⟩ := listPendingJournals_oldest inv.tables listed
    rw [here] at member oldest
    obtain ⟨stored, -, -⟩ := mem_deposits.mp member
    have whole := inv.tables.wired.positive e stored
    -- Every oldest stale deposit is the one of the row.
    have oldest_iff : OldestCovered x c cutoff pair ↔ row.amount ≤ staleLeft x c cutoff pair := by
      constructor
      · rintro ⟨e', member', old', oldest', le⟩
        have same := oldest_unique inv.tables member member'
          (le_antisymm (oldest e' member' old') (oldest' e member old))
        rw [← amount, same]
        exact le
      · intro le
        exact ⟨e, member, old, oldest, amount ▸ le⟩
    have exact_ : taken ≤ staleLeft x c cutoff pair ↔ covered := by
      simp only [taken, covered, oldest_iff, drop]
      omega
    refine ⟨fun cases_ => exact_.mpr (cases_.resolve_right fun passed => ?_), fun _ => exact_⟩
    exact passed row listed here unused

namespace PendingSample

def uid (n : Nat) : Uuid := .ofByte n

def store : Store :=
  { ledger :=
      { classifications :=
          [⟨1, uid 1, lit "pending", .credit, false, true, .pending⟩,
            ⟨2, uid 2, lit "suspense", .debit, true, true, .none⟩,
            ⟨3, uid 3, lit "main_wallet", .debit, false, true, .available⟩,
            ⟨4, uid 4, lit "custodial", .credit, true, true, .none⟩]
        entries := []
        checkpoints := fun _ => none
        queue := []
        nextQueueID := 1 }
    currencies := [⟨1, uid 5, lit "USD", 2, true⟩]
    journalTypes := [⟨1, uid 6, lit "deposit_pending", true⟩,
      ⟨2, uid 7, lit "deposit_confirm_pending", true⟩,
      ⟨3, uid 8, lit "deposit_release_pending", true⟩]
    journals := []
    events := []
    bookings := []
    policies := []
    periodCloses := []
    nextJournalID := 1
    nextEntryID := 1 }

def pending : PendingStore := ⟨⟨fun _ => .ok (), fun _ => []⟩, .pool none, none⟩

def account : Pair := ⟨7, 1⟩

def input (amount : Int) (key : String) : PendingInput :=
  ⟨7, (uid 5).print, ⟨amount, 0⟩, lit key, 1, lit "api", .empty⟩

def env (t n : Nat) : Env := ⟨1000000000 * t, uid n⟩

def after (s : Store) (call : Result (Store × Journal)) : Store := okOr s (call.map Prod.fst)

def sweep (s : Store) : Result Postgres.Sweep :=
  pending.expirePendingOlderThan 100000000000 (fun _ => env 100 40) s 50000000000

theorem call_ok {s : Store} {call : Result (Store × Journal)} (ok : call.isOk = true) :
    ∃ j, call = .ok (after s call, j) := by
  obtain ⟨⟨s', j⟩, rfl⟩ := isOk_iff.mp ok
  exact ⟨j, rfl⟩

theorem ledgerOk : LedgerOk store 1 where
  wired :=
    { ids := by simp [store], distinct := by simp [store], uids := by simp [store],
      keys := by simp [store]
      owned := by simp [store], positive := by simp [store], originals := by simp [store], balanced := by simp [store]
      catalog := ⟨by decide +kernel, by decide +kernel, by decide +kernel⟩ }
  bundle :=
    { ids := by decide +kernel, uids := by decide +kernel, codes := by decide +kernel,
      currencyIDs := by decide +kernel
      currencyUIDs := by decide +kernel, typeIDs := by decide +kernel
      pending := ⟨_, List.mem_cons_self, rfl, rfl, rfl⟩ }
  sequence := by decide
  entryIDs := by simp [store]
  checkpoints := by simp [store]

def start : History := ⟨store, fun _ => 0⟩

theorem begins : HistoryStart 1 start := ⟨ledgerOk, by simp [start, store]⟩

def deposited : Store := after store (pending.addPending (env 1 20) store ⟨input 100 "a"⟩)

def confirmed : Store := after deposited
    (pending.confirmPending (env 2 21) deposited ⟨input 100 "c"⟩)

def refilled : Store := after confirmed (pending.addPending (env 99 22) confirmed ⟨input 50 "b"⟩)

theorem step_deposited : PendingStep 1 store deposited := by
  obtain ⟨_, ok⟩ := @call_ok store (pending.addPending (env 1 20) store ⟨input 100 "a"⟩)
    (by decide +kernel)
  exact .add _ ok

theorem step_confirmed : PendingStep 1 deposited confirmed := by
  obtain ⟨_, ok⟩ := @call_ok deposited (pending.confirmPending (env 2 21) deposited ⟨input 100 "c"⟩)
    (by decide +kernel)
  exact .confirm _ ok

theorem step_refilled : PendingStep 1 confirmed refilled := by
  obtain ⟨_, ok⟩ := @call_ok confirmed (pending.addPending (env 99 22) confirmed ⟨input 50 "b"⟩)
    (by decide +kernel)
  exact .add _ ok

end PendingSample

open PendingSample in
theorem sweep_takes_stale_iff_deposited : ∃ (x : History) (w : Postgres.Sweep),
    Run (HistoryStep 1) start x ∧ sweep x.store = .ok w ∧
    pendingBalance x.store 1 account - pendingBalance w.store 1 account = 100 * 10 ^ 18 ∧
    pendingBalance x.store 1 account - pendingBalance w.store 1 account ≤
    staleLeft x 1 50000000 account := by
  obtain ⟨left, history⟩ := exists_history begins (.single step_deposited)
  obtain ⟨w, swept⟩ := isOk_iff.mp (show (sweep deposited).isOk = true by decide +kernel)
  have took : (sweep deposited).map
    (fun w => pendingBalance deposited 1 account - pendingBalance w.store 1 account) =
      .ok (100 * 10 ^ 18) := by decide +kernel
  rw [swept] at took
  refine ⟨⟨deposited, left⟩, w, history, swept, Except.ok.inj took, ?_⟩
  refine (sweep_takes_stale_iff begins history swept account).1 (.inl (.inl ?_))
  -- The deposit is stale, so none is fresh.
  have none_ : (deposits deposited 1 account).filter (¬ ·.createdAt < 50000000) =
    [] := by decide +kernel
  change (((deposits deposited 1 account).filter (¬ ·.createdAt < 50000000)).map fun e =>
    left e.journal).sum = 0
  rw [none_]
  rfl

open PendingSample in
/-- The stale deposit is confirmed in full before a fresh one arrives, so nothing stale is left
however the confirmation is attributed. The sweep cancels the fresh deposit. -/
theorem sweep_takes_fresh_deposit : ∃ (x : History) (w : Postgres.Sweep), Run (HistoryStep 1) start
    x ∧ sweep x.store = .ok w ∧
    staleLeft x 1 50000000 account = 0 ∧ pendingBalance x.store 1 account - pendingBalance w.store 1
    account = 50 * 10 ^ 18 := by
  obtain ⟨left, history⟩ := exists_history begins (.tail (.single step_deposited) step_confirmed)
  have inv := HistoryInv.run begins history
  obtain ⟨left', next⟩ := PendingStep.attributable inv step_refilled
  obtain ⟨w, swept⟩ := isOk_iff.mp (show (sweep refilled).isOk = true by decide +kernel)
  have took : (sweep refilled).map
    (fun w => pendingBalance refilled 1 account - pendingBalance w.store 1 account) =
      .ok (50 * 10 ^ 18) := by decide +kernel
  rw [swept] at took
  refine ⟨⟨refilled, left'⟩, w, history.tail next, swept, ?_, Except.ok.inj took⟩
  -- The stale deposits are those there were at the confirmation, and nothing is drained after it.
  have stale : (deposits refilled 1 account).filter (·.createdAt < 50000000) =
    deposits confirmed 1 account := by
    decide +kernel
  have quiet : drained refilled 1 account - drained confirmed 1 account = 0 := by decide +kernel
  have empty : pendingBalance confirmed 1 account = 0 := by decide +kernel
  have taken := next.2.taken account
  rw [sum_map_sub, inv.balance account] at taken
  change pendingBalance confirmed 1 account - _ = drained refilled 1 account - drained
    confirmed 1 account at taken
  rw [quiet, empty, zero_sub, neg_eq_zero] at taken
  rw [staleLeft, stale]
  exact taken

/-- No sequence of calls takes more out of an account than was deposited into it. -/
theorem pending_never_negative {c : Nat} {start : History}
    (begins : HistoryStart c start) {s : Store}
    (calls : Run (PendingStep c) start.store s) (pair : Pair) : 0 ≤ pendingBalance s c pair := by
  obtain ⟨left, history⟩ := exists_history begins calls
  exact (HistoryInv.run begins history).balance_nonneg pair

open PendingSample in
theorem pending_never_negative_confirmed : 0 ≤ pendingBalance confirmed 1 account :=
  pending_never_negative begins (.tail (.single step_deposited) step_confirmed) account

end Ledger.Service
