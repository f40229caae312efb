import Ledger.Postgres.ReversalChain

namespace Ledger.Postgres

open Core Shared

inductive Call where
  | post (mode : Mode) (input : JournalInput)
  -- The writers that share the posting path: templates, authorized journals, pending deposits.
  | postWith (input : JournalInput) (effectiveAt : Instant) (auth : JournalAuth)
  | reverse (mode : Mode) (journalUID reason : GoString)
  | fraction (mode : Mode) (journalUID : GoString) (num den : Int) (reason key : GoString)

namespace Call

def run (cfg : Config) (env : Env) (s : Store) : Call → Result (Store × Journal)
  | post mode input => postJournal cfg mode env s input
  | postWith input effectiveAt auth => postJournalWithQueries cfg env s input effectiveAt auth
  | reverse mode journalUID reason => reverseJournal cfg mode env s journalUID reason
  | fraction mode journalUID num den reason key =>
    reverseJournalFraction cfg mode env s journalUID num den reason key

def key : Call → GoString
  | post _ input => input.idempotencyKey
  | postWith input _ _ => input.idempotencyKey
  | reverse _ journalUID reason => reversalKey journalUID reason
  | fraction _ _ _ _ _ key => key

def target : Call → Option Uuid
  | post _ input => Uuid.parse input.reversalOfUID
  | postWith input _ _ => Uuid.parse input.reversalOfUID
  | reverse _ journalUID _ => Uuid.parse journalUID
  | fraction _ journalUID _ _ _ _ => Uuid.parse journalUID

def full : Call → Bool
  | reverse _ _ _ => true
  | fraction _ _ num den _ _ => num == den
  | _ => false

end Call

/-- What else the ledger does leaves journals and entries alone: both tables refuse updates and
deletes, and postings are calls. -/
structure Elsewhere (s s' : Store) : Prop where
  journals : s'.journals = s.journals
  entries : s'.ledger.entries = s.ledger.entries
  nextJournalID : s.nextJournalID ≤ s'.nextJournalID
  catalog : CatalogOk s'

/-- The calls that succeeded on the way from one store to another. A call that fails changes
nothing. -/
inductive Run (cfg : Config) (start : Store) : List Call → Store → Prop
  | refl : Run cfg start [] start
  | call {calls : List Call} {s s' : Store} {j : Journal} (env : Env) (c : Call) :
      Run cfg start calls s → c.run cfg env s = .ok (s', j) → Run cfg start (calls ++ [c]) s'
  | other {calls : List Call} {s s' : Store} : Run cfg start calls s → Elsewhere s s' → Run cfg start calls s'

structure EmptyLedger (s : Store) : Prop where
  journals : s.journals = []
  entries : s.ledger.entries = []
  catalog : CatalogOk s

inductive Outcome (cfg : Config) (c : Call) (s s' : Store) : Prop
  | replay (r : JournalRow) (member : r ∈ s.journals) (key : r.idempotencyKey = c.key)
      (linked : c.full = true → ∃ o ∈ s.journals, c.target = some o.uid ∧ r.reversalOf = some o.id) (same : s' = s)
  | fresh {env : Env} {input : JournalInput} {effectiveAt : Instant} {auth : JournalAuth} {g : Gated} {row : JournalRow}
      {rows : List EntryRow} (fresh : Fresh env s input effectiveAt auth g row rows s')
      (valid : input.validate cfg.decodeQuotes env.now = .ok ()) (key : input.idempotencyKey = c.key)
      (target : Uuid.parse input.reversalOfUID = c.target)
      (remaining : c.full = true → ∀ i, row.reversalOf = some i → ∃ already : EntryDimKey → Decimal,
        (∀ k, (already k).val * 10 ^ 18 = (reversedUnits s i k : ℚ)) ∧
          remainingEntries s (s.listJournalEntries i) already = .ok input.entries)

section

variable {s s' : Store} {r : Store × Journal} {pre : Option AuthorizedJournal}
  {fallback : JournalAuth} {j : Journal}
  {u : Uuid} {c : Call} {g : Gated} {o : JournalRow}
  {cfg : Config} {mode : Mode} {env : Env} {input : JournalInput} {uid journalUID reason : GoString}
    {effectiveAt : Instant}
  {auth : JournalAuth} {calls before : List Call} {start : Store}

theorem postJournal_ok (ok : postJournal cfg mode env s input = .ok r) :
    ∃ effectiveAt auth, postJournalWithQueries cfg env s input effectiveAt auth = .ok r := by
  simp only [postJournal, bind_eq_ok] at ok
  obtain ⟨_, -, rest⟩ := ok
  cases mode with
  | tx => exact ⟨_, _, rest⟩
  | pool attestor =>
    simp only [bind_eq_ok] at rest
    obtain ⟨auth, -, posted⟩ := rest
    exact ⟨_, auth, posted⟩

theorem postReversal_ok {changed : Error}
    (ok : postReversal cfg env s input pre fallback changed = .ok r) :
    ∃ effectiveAt auth, postJournalWithQueries cfg env s input effectiveAt auth = .ok r := by
  cases pre with
  | none => exact ⟨_, _, ok⟩
  | some pre =>
    simp only [postReversal, bind_eq_ok] at ok
    obtain ⟨_, -, _, -, posted⟩ := ok
    exact ⟨_, _, posted⟩

theorem ensureJournalMatchesInput_link {existing : JournalRow}
    (ok : ensureJournalMatchesInput s existing input = .ok j)
    (linked : input.reversalOfUID ≠ []) :
    ∃ o ∈ s.journals, Uuid.parse input.reversalOfUID = some o.uid ∧
    existing.reversalOf = some o.id := by
  simp only [ensureJournalMatchesInput, journalFromRow, bind_eq_ok, pure_eq_ok, require_eq_ok,
    decide_eq_true_eq] at ok
  obtain ⟨_, ⟨_, -, uid, read, _, -, rfl⟩, _, ⟨-, -, -, -, same, -⟩, -⟩ := ok
  simp only at same
  unfold reversalOfUID at read
  split at read
  · exact absurd ((Except.ok.inj read).trans same).symm linked
  · next i of =>
    simp only [bind_eq_ok, orError_eq_ok, pure_eq_ok] at read
    obtain ⟨o, found, printed⟩ := read
    have id : o.id = i := by simpa using List.find?_some found
    refine ⟨o, List.mem_of_find?_eq_some found, ?_, by rw [of, id]⟩
    rw [← same, ← printed, pgToUID, Uuid.parse_print]

theorem uidToPG_ok (ok : uidToPG uid = .ok u) : Uuid.parse uid = some u := by
  simpa [uidToPG] using ok

theorem eq_of_parse {original : JournalRow} (parsed : Uuid.parse uid = some original.uid)
    (lookup : s.getJournalByUID original.uid = some original)
    (parsed' : Uuid.parse uid = some o.uid)
    (lookup' : s.getJournalByUID o.uid = some o) : o = original := by
  have uids : o.uid = original.uid := Option.some.inj (parsed'.symm.trans parsed)
  rw [uids, lookup] at lookup'
  exact (Option.some.inj lookup').symm

theorem ne_nil_of_parse (parsed : Uuid.parse uid = some u) : uid ≠ [] := by
  rintro rfl
  cases parsed

theorem Outcome.of_post (ok : postJournalWithQueries cfg env s input effectiveAt auth = .ok (s', j))
    (key : input.idempotencyKey = c.key) (target : Uuid.parse input.reversalOfUID = c.target)
    (remaining : c.full = true → input.reversalOfUID ≠ [] ∧ ∀ i,
      (∃ o, Uuid.parse input.reversalOfUID = some o.uid ∧
      s.getJournalByUID o.uid = some o ∧ o.id = i) → ∃ already : EntryDimKey → Decimal,
        (∀ k, (already k).val * 10 ^ 18 = (reversedUnits s i k : ℚ)) ∧
          remainingEntries s (s.listJournalEntries i) already = .ok input.entries) : Outcome cfg c s s' := by
  obtain ⟨valid, ⟨existing, found, same, rfl⟩ | ⟨g, row, rows, fresh, -⟩⟩ :=
    postJournalWithQueries_ok ok
  · have used : existing.idempotencyKey = input.idempotencyKey := by simpa using List.find?_some found
    refine .replay existing (List.mem_of_find?_eq_some found) (used.trans key) (fun full => ?_) rfl
    obtain ⟨o, member, parsed, linked⟩ := ensureJournalMatchesInput_link same (remaining full).1
    exact ⟨o, member, target ▸ parsed, linked⟩
  · refine .fresh fresh valid key target fun full i linked => ?_
    obtain ⟨o, lookup, id, parsed, -⟩ := fresh.original_of_link linked
    exact (remaining full).2 i ⟨o, parsed, lookup, id⟩

theorem reverse_outcome
    (ok : reverseJournalWithQueries cfg env s journalUID reason (reversalKey journalUID reason) pre
      fallback = .ok (s', j)) :
    Outcome cfg (.reverse mode journalUID reason) s s' := by
  simp only [reverseJournalWithQueries, bind_eq_ok, orError_eq_ok] at ok
  obtain ⟨pgUID, parsed, original, lookup, _, -, rest⟩ := ok
  have parsed := uidToPG_ok parsed
  obtain ⟨member, uid⟩ := getJournalByUID_mem lookup
  subst uid
  split at rest
  · split at rest
    · next r found =>
      simp only [bind_eq_ok, pure_eq_ok, Prod.mk.injEq] at rest
      obtain ⟨_, -, rfl, -⟩ := rest
      have inside := List.mem_filter.mp (List.mem_of_find?_eq_some found)
      refine .replay r inside.1 (by simpa [Call.key] using List.find?_some found) (fun _ => ?_) rfl
      exact ⟨original, member, parsed, by simpa using inside.2⟩
    · cases rest
  · next none_ =>
    simp only [bind_eq_ok, within_eq_ok] at rest
    obtain ⟨lines, derived, jt, -, posted⟩ := rest
    obtain ⟨effectiveAt, auth, posted⟩ := postReversal_ok posted
    refine Outcome.of_post posted rfl rfl fun _ => ⟨ne_nil_of_parse parsed, ?_⟩
    rintro i ⟨o, parsed', lookup', rfl⟩
    cases eq_of_parse parsed lookup parsed' lookup'
    -- No journal is linked yet, so nothing is reversed.
    refine ⟨fun _ => .zero, fun k => ?_, derived⟩
    have empty : s.listReversalEntriesByOriginal original.id = [] := by
      rw [Store.listReversalEntriesByOriginal, List.filter_eq_nil_iff]
      intro e _
      simp only [ne_eq, Decidable.not_not] at none_
      simp [none_]
    simp [reversedUnits, empty]

theorem fraction_outcome {num den : Int} {key : GoString}
    (ok : reverseJournalFractionWithQueries cfg env s journalUID num den reason key pre
      fallback = .ok (s', j)) :
    Outcome cfg (.fraction mode journalUID num den reason key) s s' := by
  simp only [reverseJournalFractionWithQueries, bind_eq_ok, orError_eq_ok, within_eq_ok] at ok
  obtain ⟨pgUID, parsed, original, lookup, found, key_, rest⟩ := ok
  have parsed := uidToPG_ok parsed
  obtain ⟨member, uid⟩ := getJournalByUID_mem lookup
  subst uid
  have found_ := getJournalByIdempotencyKey_ok key_
  cases found with
  | some existing =>
    simp only [bind_eq_ok, pure_eq_ok, require_eq_ok, Prod.mk.injEq, decide_eq_true_eq] at rest
    obtain ⟨_, linked, _, -, _, -, rfl, -⟩ := rest
    refine .replay existing (List.mem_of_find?_eq_some found_.symm)
      (by simpa [Call.key] using List.find?_some found_.symm)
      (fun _ => ?_) rfl
    exact ⟨original, member, parsed, linked⟩
  | none =>
    simp only [bind_eq_ok] at rest
    obtain ⟨_, -, _, -, already, history, lines, derived, jt, -, posted⟩ := rest
    obtain ⟨effectiveAt, auth, posted⟩ := postReversal_ok posted
    refine Outcome.of_post posted rfl rfl fun full => ⟨ne_nil_of_parse parsed, ?_⟩
    rintro i ⟨o, parsed', lookup', rfl⟩
    cases eq_of_parse parsed lookup parsed' lookup'
    have whole : num = den := by simpa [Call.full] using full
    rw [reversalEntriesFor, if_pos whole] at derived
    exact ⟨already, cumulativeReversed_ok history, derived⟩

theorem Call.outcome (ok : c.run cfg env s = .ok (s', j)) : Outcome cfg c s s' := by
  cases c with
  | post mode input =>
    obtain ⟨effectiveAt, auth, posted⟩ := postJournal_ok ok
    exact Outcome.of_post posted rfl rfl nofun
  | postWith input effectiveAt auth => exact Outcome.of_post ok rfl rfl nofun
  | reverse mode journalUID reason =>
    rcases mode with _ | _ | attestor
    iterate 2 exact reverse_outcome ok
    · simp only [Call.run, reverseJournal, bind_eq_ok] at ok
      obtain ⟨_, -, posted⟩ := ok
      exact reverse_outcome posted
  | fraction mode journalUID num den reason key =>
    simp only [Call.run, reverseJournalFraction, bind_eq_ok] at ok
    obtain ⟨_, -, _, -, rest⟩ := ok
    rcases mode with _ | _ | attestor
    iterate 2 exact fraction_outcome rest
    · simp only [bind_eq_ok] at rest
      obtain ⟨_, -, posted⟩ := rest
      exact fraction_outcome posted

/-- What a run keeps. A link in the table came from a call on that journal under that key, and when
that call asked for everything, nothing is left since. -/
structure ChainInv (calls : List Call) (s : Store) : Prop where
  wired : Wired s
  ceiling : Ceiling s
  origin : ∀ o ∈ s.journals, ∀ r ∈ s.journals, r.reversalOf = some o.id →
    ∃ c ∈ calls, c.key = r.idempotencyKey ∧ c.target = some o.uid ∧ (c.full = true → Exhausted s o.id)

theorem EmptyLedger.inv (empty : EmptyLedger s) : ChainInv [] s := by
  have noEntries (i : Nat) : s.listJournalEntries i =
    [] := by simp [Store.listJournalEntries, empty.entries]
  refine ⟨?_, ?_, ?_⟩
  · constructor <;> simp [empty.journals, empty.entries, empty.catalog]
  · intro i k
    simp [reversedUnits, originalUnits, noEntries, Store.listReversalEntriesByOriginal, empty.entries]
  · simp [empty.journals]

theorem ChainInv.replay (inv : ChainInv calls s) (c : Call) : ChainInv (calls ++ [c]) s := by
  refine ⟨inv.wired, inv.ceiling, fun o member r inside linked => ?_⟩
  obtain ⟨c', earlier, rest⟩ := inv.origin o member r inside linked
  exact ⟨c', List.mem_append_left _ earlier, rest⟩

theorem Elsewhere.wired (other : Elsewhere s s') (wired : Wired s) : Wired s' where
  ids j member := (wired.ids j (other.journals ▸ member)).trans_le other.nextJournalID
  distinct := other.journals ▸ wired.distinct
  uids := other.journals ▸ wired.uids
  keys := other.journals ▸ wired.keys
  owned e member := (wired.owned e (other.entries ▸ member)).trans_le other.nextJournalID
  positive := other.entries ▸ wired.positive
  originals := other.journals ▸ wired.originals
  balanced j member currency := by
    rw [Store.listJournalEntries, other.entries]
    exact wired.balanced j (other.journals ▸ member) currency
  catalog := other.catalog

theorem ChainInv.elsewhere (inv : ChainInv calls s) (other : Elsewhere s s') :
    ChainInv calls s' := by
  have own (i : Nat) : s'.listJournalEntries i = s.listJournalEntries i := by
    rw [Store.listJournalEntries, other.entries, Store.listJournalEntries]
  have back (i : Nat) : s'.listReversalEntriesByOriginal i = s.listReversalEntriesByOriginal i := by
    simp only [Store.listReversalEntriesByOriginal, Store.listReversalsByOriginalJournalID,
      other.entries, other.journals]
  have reversed (i : Nat) : reversedUnits s' i = reversedUnits s i := by
    rw [reversedUnits, back, reversedUnits]
  have original (i : Nat) : originalUnits s' i = originalUnits s i := by
    rw [originalUnits, own, originalUnits]
  obtain ⟨wired, ceiling, origin⟩ := inv
  refine ⟨other.wired wired, ?_, ?_⟩
  · intro i k
    rw [reversed, original]
    exact ceiling i k
  · intro o member r inside linked
    rw [other.journals] at member inside
    obtain ⟨c, earlier, key, target, exhausted⟩ := origin o member r inside linked
    refine ⟨c, earlier, key, target, fun full k => ?_⟩
    rw [reversed, original]
    exact exhausted full k

theorem ChainInv.fresh {cfg : Config} {calls : List Call} {env : Env} {input : JournalInput}
    {effectiveAt : Instant}
    {auth : JournalAuth} {row : JournalRow} {rows : List EntryRow} (inv : ChainInv calls s)
    (fresh : Fresh env s input effectiveAt auth g row rows s')
    (valid : input.validate cfg.decodeQuotes env.now = .ok ()) (key : input.idempotencyKey = c.key)
    (target : Uuid.parse input.reversalOfUID = c.target)
    (remaining : c.full = true → ∀ i, row.reversalOf = some i → ∃ already : EntryDimKey → Decimal,
      (∀ k, (already k).val * 10 ^ 18 = (reversedUnits s i k : ℚ)) ∧
        remainingEntries s (s.listJournalEntries i) already = .ok input.entries) : ChainInv (calls ++ [c]) s' := by
  have next := fresh.row_id
  refine ⟨fresh.wired inv.wired, fresh.ceiling valid inv.wired inv.ceiling,
    fun o member r inside linked => ?_⟩
  rw [fresh.journals_eq, List.mem_append, List.mem_singleton] at member inside
  -- A link is to an older journal, so the linked one was there before.
  have older : o ∈ s.journals := by
    rcases member with old | rfl
    · exact old
    · exfalso
      rcases inside with old | rfl
      · obtain ⟨j, there, id, -⟩ := inv.wired.originals r old _ linked
        have := inv.wired.ids j there
        omega
      · obtain ⟨j, lookup, id, -⟩ := fresh.original_of_link linked
        have := inv.wired.ids j (getJournalByUID_mem lookup).1
        omega
  rcases inside with old | rfl
  · obtain ⟨c', earlier, key', target', exhausted⟩ := inv.origin o older r old linked
    exact ⟨c', List.mem_append_left _ earlier, key', target', fun full =>
      fresh.exhausted valid inv.wired inv.ceiling (inv.wired.ids o older) (exhausted full)⟩
  · obtain ⟨j, lookup, id, parsed, -⟩ := fresh.original_of_link linked
    have same : j = o := List.inj_on_of_nodup_map inv.wired.distinct
      (getJournalByUID_mem lookup).1 older id
    subst same
    refine ⟨c, by simp, by rw [← key, fresh.row_key], target ▸ parsed, fun full => ?_⟩
    obtain ⟨already, history, lines⟩ := remaining full _ linked
    exact fresh.exhausts valid inv.wired inv.ceiling linked history lines

theorem ChainInv.call (inv : ChainInv calls s) (outcome : Outcome cfg c s s') :
    ChainInv (calls ++ [c]) s' := by
  cases outcome with
  | replay r member key linked same =>
    subst same
    exact inv.replay c
  | fresh fresh valid key target remaining => exact inv.fresh fresh valid key target remaining

theorem Run.inv (inv : ChainInv before start) (run : Run cfg start calls s) :
    ChainInv (before ++ calls) s := by
  induction run with
  | refl => simpa using inv
  | call env c _ ok ih =>
    rw [← List.append_assoc]
    exact ih.call (Call.outcome ok)
  | other _ elsewhere ih => exact ih.elsewhere elsewhere

theorem Fresh.linked {row : JournalRow} {rows : List EntryRow}
    (fresh : Fresh env s input effectiveAt auth g row rows s')
    (wired : Wired s) (member : o ∈ s.journals)
    (parsed : Uuid.parse input.reversalOfUID = some o.uid) :
    row.reversalOf = some o.id := by
  obtain ⟨-, -, -, check, -⟩ := gates_ok fresh.gated
  rcases checkReversalOf_ok check with ⟨empty, -⟩ | ⟨pgUID, original, -, parsed', lookup, -, found⟩
  · exact absurd empty (ne_nil_of_parse parsed)
  · have same : pgUID = o.uid := Option.some.inj (parsed'.symm.trans parsed)
    rw [same, wired.getJournalByUID member] at lookup
    rw [fresh.row_reversalOf, found, ← Option.some.inj lookup]
    rfl

theorem Call.refused (inv : ChainInv calls s) (member : o ∈ s.journals)
    (exhausted : Exhausted s o.id) (target : c.target = some o.uid)
    (unused : ∀ j ∈ s.journals, j.idempotencyKey ≠ c.key) (r : Store × Journal) :
    c.run cfg env s ≠ .ok r := by
  intro ok
  obtain ⟨s', j⟩ := r
  cases Call.outcome ok with
  | replay r inside key _ _ => exact unused r inside key
  | fresh fresh valid _ parsed _ =>
    have linked := fresh.linked inv.wired member (parsed.trans target)
    exact fresh.not_exhausted valid inv.wired inv.ceiling linked exhausted

theorem Run.exhausted (inv : ChainInv before start) (run : Run cfg start calls s)
    (member : o ∈ start.journals)
    (exhausted : Exhausted start o.id) :
    o ∈ s.journals ∧ Exhausted s o.id := by
  induction run with
  | refl => exact ⟨member, exhausted⟩
  | call env c earlier ok ih =>
    have invNow := earlier.inv inv
    cases Call.outcome ok with
    | replay _ _ _ _ same =>
      subst same
      exact ih
    | fresh fresh valid _ _ _ =>
      exact ⟨by simp [fresh.journals_eq, ih.1],
        fresh.exhausted valid invNow.wired invNow.ceiling (invNow.wired.ids o ih.1) ih.2⟩
  | other _ elsewhere ih =>
    refine ⟨elsewhere.journals ▸ ih.1, fun k => ?_⟩
    have same := ih.2 k
    simp only [reversedUnits, originalUnits, Store.listJournalEntries,
      Store.listReversalEntriesByOriginal,
      Store.listReversalsByOriginalJournalID, elsewhere.entries, elsewhere.journals] at same ⊢
    exact same

def KeysApart (uid : Uuid) (calls : List Call) : Prop :=
  ∀ c ∈ calls, ∀ d ∈ calls, c.target = some uid → d.target = some uid → c.key = d.key →
    c.full = true → d.full = true

theorem ChainInv.full (inv : ChainInv calls s) (member : o ∈ s.journals) (full : c.full = true)
    (target : c.target = some o.uid)
    (apart : KeysApart o.uid (calls ++ [c])) (ok : c.run cfg env s = .ok (s', j)) :
    o ∈ s'.journals ∧ Exhausted s' o.id := by
  cases Call.outcome ok with
  | replay r inside key linked same =>
    subst same
    obtain ⟨o', member', target', link⟩ := linked full
    have uids : o'.uid = o.uid := Option.some.inj (target'.symm.trans target)
    have same : o' = o := List.inj_on_of_nodup_map inv.wired.uids member' member uids
    subst same
    -- The journal answered from was itself posted by a full reversal, which left nothing.
    obtain ⟨c', earlier, key', target'', exhausted⟩ := inv.origin o' member r inside link
    have full' := apart c (by simp) c' (by simp [earlier]) target target''
      (key.symm.trans key'.symm) full
    exact ⟨member, exhausted full'⟩
  | fresh fresh valid key parsed remaining =>
    have linked := fresh.linked inv.wired member (parsed.trans target)
    obtain ⟨already, history, lines⟩ := remaining full _ linked
    exact ⟨by simp [fresh.journals_eq, member], fresh.exhausts valid inv.wired inv.ceiling
      linked history lines⟩

/-- In every run: the ceiling and the balance of every reversal hold, and when full reversals keep
their keys to themselves, one that succeeds cancels the journal for good. -/
theorem reversal_chain_exact {cfg : Config} {start s : Store} {calls : List Call}
    (empty : EmptyLedger start)
    (run : Run cfg start calls s) {o : JournalRow} (posted : o ∈ s.journals) :
    (∀ k, reversedUnits s o.id k ≤ originalUnits s o.id k) ∧
      (∀ r ∈ s.listReversalsByOriginalJournalID o.id, ∀ currency, currencyNet
        (s.listJournalEntries r.id) currency = 0) ∧
      ∀ (env : Env) (c : Call) (s' : Store) (j : Journal), c.full = true → c.target = some o.uid →
        KeysApart o.uid (calls ++ [c]) → c.run cfg env s = .ok (s', j) →
        (∀ k, reversedUnits s' o.id k = originalUnits s' o.id k) ∧
          (∀ side dim, netOn side (s'.listJournalEntries o.id ++ s'.listReversalEntriesByOriginal o.id) dim = 0) ∧
          ∀ (later : List Call) (s'' : Store), Run cfg s' later s'' → ∀ (env' : Env) (attempt : Call),
            attempt.target = some o.uid → (∀ j ∈ s''.journals, j.idempotencyKey ≠ attempt.key) →
              ∀ r, attempt.run cfg env' s'' ≠ .ok r := by
  have inv : ChainInv calls s := run.inv empty.inv
  refine ⟨inv.ceiling o.id, fun r member => inv.wired.balanced r
    (List.mem_of_mem_filter member), ?_⟩
  intro env c s' j full target apart ok
  obtain ⟨member, exhausted⟩ := inv.full posted full target apart ok
  refine ⟨exhausted, exhausted.net, ?_⟩
  intro later s'' run' env' attempt target' unused r
  have inv' : ChainInv (calls ++ [c]) s' := inv.call (Call.outcome ok)
  obtain ⟨member', exhausted'⟩ := run'.exhausted inv' member exhausted
  exact Call.refused (run'.inv inv') member' exhausted' target' unused r

end

namespace Sample

def journal : GoString := (uid 5).print

def half : Call := .fraction .tx journal 1 2 (lit "r") (reversalKey journal (lit "r"))

def whole : Call := .reverse .tx journal (lit "r")

def halved : Store := okOr store ((half.run config (env 6) deposited).map Prod.fst)

theorem empty : EmptyLedger store := ⟨rfl, rfl, by constructor <;> decide⟩

theorem step {s : Store} {c : Call} {e : Env} (ok : (c.run config e s).isOk = true) :
    ∃ j, c.run config e s = .ok (okOr store ((c.run config e s).map Prod.fst), j) := by
  cases result : c.run config e s with
  | ok r => exact ⟨r.2, rfl⟩
  | error err =>
    rw [result] at ok
    cases ok

theorem run_deposited : Run config store [.post .tx deposit] deposited := by
  obtain ⟨j, ok⟩ : ∃ j, (Call.post .tx deposit).run config (env 5) store = .ok (deposited, j) :=
    step (by decide +kernel)
  exact .call (env 5) _ .refl ok

theorem run_halved : Run config store [.post .tx deposit, half] halved := by
  obtain ⟨j, ok⟩ : ∃ j, half.run config (env 6) deposited = .ok (halved, j) :=
    step (by decide +kernel)
  exact .call (env 6) _ run_deposited ok

end Sample

theorem reversal_chain_exact_deposit : ∃ o ∈ Sample.deposited.journals, ∃ s' j,
    Sample.whole.run Sample.config (Sample.env 6) Sample.deposited = .ok (s', j) ∧
      ∀ k, reversedUnits s' o.id k = originalUnits s' o.id k := by
  have posted : ∃ o ∈ Sample.deposited.journals, o.uid = Sample.uid 5 := by decide +kernel
  obtain ⟨o, member, uid⟩ := posted
  obtain ⟨j, ok⟩ := Sample.step
    (show (Sample.whole.run Sample.config (Sample.env 6) Sample.deposited).isOk =
      true by decide +kernel)
  refine ⟨o, member, _, j, ok, ?_⟩
  refine ((reversal_chain_exact Sample.empty Sample.run_deposited member).2.2 _
    _ _ _ rfl ?_ ?_ ok).1
  · rw [uid]
    decide +kernel
  · -- The deposit reverses nothing, so the full reversal's key is its own.
    intro c inside d inside' target target' key full
    have other : (Call.post .tx Sample.deposit).target = none := by decide +kernel
    simp only [List.cons_append, List.nil_append, List.mem_cons, List.not_mem_nil, or_false] at inside'
    rcases inside' with rfl | rfl
    · rw [other] at target'
      cases target'
    · rfl

/-- Half of a deposit is reversed under the key that the full reversal derives, and the full
reversal then reports success with half of the deposit still standing. -/
theorem reversal_key_answers_half : ∃ o ∈ Sample.halved.journals, ∃ s' j k,
    EmptyLedger Sample.store ∧ Run Sample.config Sample.store
    [.post .tx Sample.deposit, Sample.half] Sample.halved ∧
      Sample.whole.full = true ∧ Sample.whole.target = some o.uid ∧
      Sample.whole.run Sample.config (Sample.env 7) Sample.halved = .ok (s', j) ∧
      reversedUnits s' o.id k < originalUnits s' o.id k := by
  have posted : ∃ o ∈ Sample.halved.journals, o.uid = Sample.uid 5 ∧ o.id = 1 := by decide +kernel
  obtain ⟨o, member, uid, id⟩ := posted
  obtain ⟨j, ok⟩ := Sample.step
    (show (Sample.whole.run Sample.config (Sample.env 7) Sample.halved).isOk =
      true by decide +kernel)
  refine ⟨o, member, _, j, ⟨7, 1, 1, .credit⟩, Sample.empty, Sample.run_halved, rfl, ?_, ok, ?_⟩
  · rw [uid]
    decide +kernel
  · rw [id]
    decide +kernel

end Ledger.Postgres
