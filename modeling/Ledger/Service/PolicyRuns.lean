import Ledger.Postgres.JournalTables
import Ledger.Service.PolicyChecks
import Ledger.Service.PostedEntries

namespace Ledger.Service

open Core Postgres Shared

def promised (post : Posting) (c : Checking) : List Line := written post ++
    if c.floors = some [] then drafts post else []

structure PostingOk (policy : Dimension → Option AccountPolicyRow) (db : LedgerTables)
    (post : Posting) (c : Checking) : Prop where
  lines : LinesOk policy db (promised post c)
  check : CheckOk policy db post c

variable {c : Checking} {dim : Dimension}

theorem promised_passed {post : Posting} (passed : c.floors = some []) : promised post c =
    written post ++ drafts post := by
  rw [promised, if_pos passed]

theorem promised_unpassed {post : Posting} (unpassed : c.floors ≠ some []) :
    promised post c = written post := by
  rw [promised, if_neg unpassed, List.append_nil]

theorem promised_inserted {post : Posting} (c : Checking) (inserted : post.inserting = []) :
    promised post c = written post := by
  rw [promised, drafts, inserted, List.map_nil, ite_self, List.append_nil]

section

variable {policy policy' : Dimension → Option AccountPolicyRow} {s : System} {db' : LedgerTables}
  {t : Nat} {post : Posting}
  {c : Checking}

theorem PostOk.drafted (postOk : PostOk s t post) (locked : post.locking = []) : ∀ l ∈ drafts post,
    s.locks l.dim.pair = some t := by
  intro l member
  obtain ⟨draft, inside, rfl⟩ := List.mem_map.mp member
  rcases postOk.pending draft inside with waiting | held
  · rw [locked] at waiting
    cases waiting
  · exact held

theorem PostingOk.held (ok : PostingOk policy s.db post c) (postOk : PostOk s t post) :
    ∀ l ∈ promised post c, s.locks l.dim.pair = some t := by
  intro l member
  rcases List.mem_append.mp member with old | new
  · obtain ⟨e, inside, rfl⟩ := List.mem_map.mp old
    exact postOk.held e inside
  · split at new
    · next passed => exact postOk.drafted (ok.check.locked (.inr (by simp [passed]))) l new
    · cases new

theorem CheckOk.read_held (check : CheckOk policy s.db post c) (postOk : PostOk s t post)
    (open_ : ¬c.passed) {d : PolicyDelta}
    (member : d ∈ c.read) : s.locks d.entry.dim.pair = some t ∧
    (sideOfDim s.db d.entry.dim).isSome = true := by
  have locked := check.locked (.inl (List.ne_nil_of_mem member))
  have inside : d.entry ∈ c.read.map (·.entry) ++ c.unread := List.mem_append_left _
    (List.mem_map_of_mem member)
  obtain ⟨draft, there, drafted⟩ := forall₂_of_mem_right (check.entries open_).flip inside
  obtain ⟨side, found, -⟩ := drafted.side
  rw [← drafted.dim]
  exact ⟨postOk.drafted locked _ (List.mem_map_of_mem there), by rw [found]; rfl⟩

theorem FloorOk.keep {db : LedgerTables} {lines : List Line} (ok : FloorOk policy db lines dim)
    (same : policy' dim = policy dim) (entries : db'.dimEntries dim = db.dimEntries dim)
    (keeps : KeepsSides db db')
    (known : (sideOfDim db dim).isSome = true)
    (lines_ : ∀ l ∈ lines, (sideOfDim db l.dim).isSome = true) :
    FloorOk policy' db' lines dim := by
  intro p governed enforced
  have changes (l : Line) (member : l ∈ lines) : l.change db' = l.change db :=
    changeOf_congr (keeps.sideOfDim (lines_ l member)) _ _
  rw [balanceOf_congr (keeps.sideOfDim known) entries, sumAt_congr changes]
  exact ok p (same ▸ governed) enforced

theorem PostingOk.keep (ok : PostingOk policy s.db post c) (postOk : PostOk s t post)
    (policies : ∀ dim : Dimension, s.locks dim.pair = some t → policy' dim = policy dim)
    (entries : ∀ dim : Dimension, s.locks dim.pair = some t → db'.dimEntries dim =
      s.db.dimEntries dim)
    (grows : Grows s.db db') : PostingOk policy' db' post c := by
  have held := ok.held postOk
  refine ⟨ok.lines.keep (fun l member => policies _ (held l member))
    (fun l member => entries _ (held l member)) grows.sides, ?_⟩
  refine ⟨ok.check.locked, ?_, ?_, ?_, ?_⟩
  · intro open_
    exact (ok.check.entries open_).imp fun e d drafted => drafted.keep grows.sides
  · intro open_ d member
    have same := policies _ (ok.check.read_held postOk open_ member).1
    have read := ok.check.reads open_ d member
    exact ⟨read.policy.trans same.symm, read.notClosed, read.delta⟩
  · intro dims phase left
    have open_ : ¬c.passed := by
      rw [Checking.passed, phase, Option.some.injEq]
      exact left
    obtain ⟨unread, frozen, floors⟩ := ok.check.netted dims phase left
    refine ⟨unread, frozen, ?_⟩
    intro d member done
    obtain ⟨mine, known⟩ := ok.check.read_held postOk open_ member
    refine (floors d member done).keep (policies _ mine) (entries _ mine) grows.sides known ?_
    intro l inside
    rcases List.mem_append.mp inside with old | new
    · exact ok.lines.known l (List.mem_append_left _ old)
    · obtain ⟨draft, there, rfl⟩ := List.mem_map.mp new
      obtain ⟨_, -, drafted⟩ := forall₂_of_mem_right (ok.check.entries open_) there
      obtain ⟨side, found, -⟩ := drafted.side
      rw [draftLine, found]
      rfl
  · intro seen dim read
    exact (ok.check.checkpoint seen dim read).grow grows

end

section

variable {policy : Dimension → Option AccountPolicyRow} {db : LedgerTables}
  {post : Posting} {c : Checking}

theorem PostingOk.started (policy : Dimension → Option AccountPolicyRow) (db : LedgerTables)
    (journals : List (Nat × List EntryDraft)) (now : Int) :
    PostingOk policy db ⟨journals, 0, [], [], [], now⟩ .nothing where
  lines := LinesOk.nil policy db
  check := ⟨fun _ => rfl, fun open_ => absurd rfl open_, fun open_ => absurd rfl open_,
    by simp [Checking.nothing], by simp [Checking.nothing]⟩

theorem PostingOk.nextJournal (ok : PostingOk policy db post c) (inserted : post.inserting = [])
    {entries : List ResolvedEntry}
    {drafts : List EntryDraft} (drafted : List.Forall₂ (Drafted db) entries drafts)
    (journals : List (Nat × List EntryDraft))
    (journal : Nat) (locking : List Pair) :
    PostingOk policy db { post with journals := journals, journal := journal, inserting := drafts, locking := locking }
      ⟨entries, [], none, none⟩ where
  lines := by
    have lines := ok.lines
    rw [promised_inserted c inserted] at lines
    rwa [promised_unpassed (by simp)]
  check := by
    refine ⟨by simp, ?_, by simp, by simp, by simp⟩
    intro _
    simpa using drafted

theorem PostingOk.lock (ok : PostingOk policy db post c) {p : Pair} {rest : List Pair}
    (todo : post.locking = p :: rest) :
    PostingOk policy db { post with locking := rest } c where
  lines := ok.lines
  check := by
    refine ⟨?_, ok.check.entries, ok.check.reads, ok.check.netted, ok.check.checkpoint⟩
    intro begun
    rw [ok.check.locked begun] at todo
    cases todo

theorem CheckOk.cached (check : CheckOk policy db post c) (open_ : ¬c.passed)
    {p : Option AccountPolicyRow}
    (known : c.cached dim = some p) : policy dim = p ∧ dim ∈ c.read.map (·.entry.dim) := by
  obtain ⟨d, found, rfl⟩ := Option.map_eq_some_iff.mp known
  have member := List.mem_of_find?_eq_some found
  have here : d.entry.dim = dim := by simpa using List.find?_some found
  rw [← here]
  exact ⟨(check.reads open_ d member).policy.symm, List.mem_map_of_mem member⟩

theorem PostingOk.readPolicy (ok : PostingOk policy db post c)
    (locked : post.locking = []) {e : ResolvedEntry}
    {rest : List ResolvedEntry} {d : PolicyDelta} (todo : c.unread = e :: rest)
    (read : policyDeltaWith ((c.cached e.dim).getD (policy e.dim)) e = .ok d) :
    PostingOk policy db post { c with unread := rest, read := c.read ++ [d] } where
  lines := ok.lines
  check := by
    obtain ⟨rfl, found, notClosed, delta⟩ := policyDeltaWith_ok read
    refine ⟨fun _ => locked, ?_, ?_, ?_, ok.check.checkpoint⟩
    · intro open_
      have entries := ok.check.entries open_
      rw [todo] at entries
      simpa using entries
    · intro open_ d' member
      rcases List.mem_append.mp member with old | new
      · exact ok.check.reads open_ d' old
      · obtain rfl := List.mem_singleton.mp new
        refine ⟨?_, by rwa [found], delta⟩
        rw [found]
        cases known : c.cached d'.entry.dim with
        | none => rfl
        | some p => exact (ok.check.cached open_ known).1.symm
    · intro dims phase left
      rw [(ok.check.netted dims phase left).1] at todo
      cases todo

variable (unique : ∀ dim dim' p q, policy dim = some p → policy dim' = some q → p.id = q.id → p = q)
include unique

theorem PostingOk.compared (lines : LinesOk policy db (written post)) (locked : post.locking = [])
    (entries : List.Forall₂ (Drafted db) (c.read.map (·.entry)) post.inserting)
    (reads : ∀ d ∈ c.read, DeltaOk policy d)
    (unread : c.unread = []) (frozen : ∀ key, 0 ≤ sumAt PolicyDelta.frozenKey
      (·.delta.val) c.read (some key))
    {dims : List Dimension} (phase : c.floors = some dims)
    (floors : ∀ d ∈ c.read, d.entry.dim ∉ dims →
      FloorOk policy db (written post ++ drafts post) d.entry.dim)
    (checkpoint : ∀ seen dim, c.atCheckpoint = some seen →
      CheckpointOk db dim (seen.checkpoints dim)) :
    PostingOk policy db post c where
  lines := by
    cases dims with
    | nil =>
      rw [promised_passed phase]
      exact lines.pass unique entries reads frozen fun d member => floors d member List.not_mem_nil
    | cons dim rest => rwa [promised_unpassed (by simp [phase])]
  check := by
    refine ⟨fun _ => locked, ?_, fun _ => reads, ?_, checkpoint⟩
    · intro _
      rwa [unread, List.append_nil]
    · intro dims' phase' _
      rw [phase, Option.some.injEq] at phase'
      exact ⟨unread, frozen, phase' ▸ floors⟩

theorem PostingOk.net (ok : PostingOk policy db post c) (locked : post.locking = [])
    (unread : c.unread = []) (phase : c.floors = none)
    (checked : checkAll (checkFrozen c.read)
      (firstSeen (c.read.filterMap (·.frozenKey))) = .ok ()) :
    PostingOk policy db post { c with floors := some (firstSeen (c.read.map (·.entry.dim))) } := by
  have open_ : ¬c.passed := by simp [Checking.passed, phase]
  have lines := ok.lines
  rw [promised_unpassed (by simp [phase])] at lines
  have entries := ok.check.entries open_
  rw [unread, List.append_nil] at entries
  refine compared unique lines locked entries (ok.check.reads open_) unread
    (checkFrozen_nonneg checked) rfl ?_ ok.check.checkpoint
  intro d member done
  exact absurd (mem_firstSeen.mpr (List.mem_map_of_mem member)) done

theorem PostingOk.advance (ok : PostingOk policy db post c) {rest : List Dimension}
    (todo : c.floors = some (dim :: rest))
    (floor : FloorOk policy db (written post ++ drafts post) dim)
    {atCheckpoint : Option LedgerTables}
    (checkpoint : ∀ seen dim, atCheckpoint = some seen →
      CheckpointOk db dim (seen.checkpoints dim)) :
    PostingOk policy db post { c with floors := some rest, atCheckpoint := atCheckpoint } := by
  have open_ : ¬c.passed := by simp [Checking.passed, todo]
  have lines := ok.lines
  rw [promised_unpassed (by simp [todo])] at lines
  obtain ⟨unread, frozen, floors⟩ := ok.check.netted _ todo (List.cons_ne_nil dim rest)
  have entries := ok.check.entries open_
  rw [unread, List.append_nil] at entries
  refine compared unique lines (ok.check.locked (.inr (by simp [todo]))) entries
    (ok.check.reads open_) unread frozen rfl ?_ checkpoint
  intro d member done
  by_cases here : d.entry.dim = dim
  · rw [here]
    exact floor
  · exact floors d member (by simp [here, done])

end

theorem PostingOk.insert {policy : Dimension → Option AccountPolicyRow}
    {s : System} {db : LedgerTables}
    {post : Posting} (ok : PostingOk policy db post c) (passed : c.passed) {draft : EntryDraft}
    {rest : List EntryDraft}
    (todo : post.inserting = draft :: rest) :
    PostingOk policy db { post with inserting := rest, written := post.written ++
      [s.entryRow post draft] } c where
  lines := by
    have lines := ok.lines
    rw [promised_passed passed] at lines ⊢
    simpa [written, drafts, todo, System.entryRow, rowLine, draftLine] using lines
  check := by
    refine ⟨ok.check.locked, fun open_ => absurd passed open_, fun open_ => absurd passed open_, ?_,
      ok.check.checkpoint⟩
    intro dims phase left
    rw [passed, Option.some.injEq] at phase
    exact absurd phase.symm left

theorem entryDraft_ok {effectiveAt : Int} {e : ResolvedEntry} {d : EntryDraft}
    (ok : entryDraft effectiveAt e = .ok d) :
    d.dim = e.dim ∧ d.entryType.entryType = e.input.entryType ∧ d.amount =
    toUnits 18 e.input.amount := by
  simp only [entryDraft, bind_eq_ok, pure_eq_ok, orError_eq_ok] at ok
  obtain ⟨amount, column, side, known, _, -, rfl⟩ := ok
  refine ⟨rfl, ?_, numericColumn_ok column⟩
  cases typed : e.input.entryType <;> rw [typed] at known <;> cases known <;> rfl

theorem drafted_of_resolved {s : Store} (ids : (s.ledger.classifications.map (·.id)).Nodup)
    {decodeQuotes : GoString → Result Unit}
    {now : Instant} {input : JournalInput} (valid : input.validate decodeQuotes now = .ok ())
    {entries : List ResolvedEntry}
    (resolved : resolveEntries s input.entries = .ok entries) {effectiveAt : Int}
    {drafts : List EntryDraft}
    (drafted : collect (entryDraft effectiveAt) entries = .ok drafts) :
    List.Forall₂ (Drafted s.ledger) entries drafts := by
  have fromInput : ∀ e ∈ entries, ∃ i ∈ input.entries, resolveEntry s i = .ok e := by
    intro e member
    obtain ⟨i, inside, made⟩ := forall₂_of_mem_right (collect_eq_ok.mp resolved) member
    exact ⟨i, inside, made⟩
  refine ((List.forall₂_and_left _ _).mpr ⟨fromInput, collect_eq_ok.mp drafted⟩).imp ?_
  rintro e d ⟨⟨i, inside, made⟩, ok⟩
  obtain ⟨cur, cls, -, classification, rfl⟩ := resolveEntry_ok made
  obtain ⟨dim, entryType, amount⟩ := entryDraft_ok ok
  refine ⟨dim, ⟨cls.normalSide, ?_, rfl⟩, entryType, ?_⟩
  · simp only [Store.classByUIDOrErr, orError_eq_ok] at classification
    have stored : s.ledger.getClassification cls.id = some cls :=
      find_of_nodup ids (List.mem_of_find?_eq_some classification)
    rw [dim, sideOfDim, ResolvedEntry.dim, stored]
    rfl
  · rw [amount]
    exact validateEntry_units (validate_entry valid i inside)

structure PolicyInv (b : PolicyBank) : Prop where
  sys : Inv b.sys
  ids : (b.sys.db.classifications.map (·.id)).Nodup
  policies : (b.tables.policies.map (·.id)).Nodup
  sequence : ∀ p ∈ b.tables.policies, p.id < b.nextPolicyID
  index : (b.tables.policies.map AccountPolicyRow.columns).Nodup
  settings : ∀ t c, b.settings t = some c →
    b.sys.posts t = none ∧ c.currencyID ≠ 0 ∧ (c.locked = true → b.sys.locks c.pair = some t)
  posts : ∀ t post, b.sys.posts t = some post → PostingOk b.effective b.sys.db post (b.checks t)

variable {b b' : PolicyBank} {p : AccountPolicyRow}

theorem PolicyInv.initial (initial : b.Initial) : PolicyInv b where
  sys := Inv.initial initial.sys
  ids := initial.ids
  policies := initial.policies
  sequence := initial.sequence
  index := initial.index
  settings t c running := by simp [initial.settings] at running
  posts t post running := by simp [initial.sys.posts] at running

section

variable (inv : PolicyInv b)
include inv

theorem PolicyInv.unique (dim dim' : Dimension) (p q : AccountPolicyRow)
    (first : b.effective dim = some p)
    (second : b.effective dim' = some q) (same : p.id = q.id) : p = q :=
  List.inj_on_of_nodup_map inv.policies (getEffectiveAccountPolicy_mem first)
    (getEffectiveAccountPolicy_mem second) same

variable {t : Nat}

theorem PolicyInv.notSetting {post : Posting} (running : b.sys.posts t = some post) :
    b.settings t = none := by
  cases found : b.settings t with
  | none => rfl
  | some c =>
    rw [(inv.settings t c found).1] at running
    cases running

theorem PolicyInv.sys_step (step : PolicyStep b b') : b'.sys = b.sys ∨ Step b.sys b'.sys := by
  cases step with
  | ledger sys step posts ids others => exact .inr step
  | start t journals sys begins unused other unlocked =>
    subst begins
    exact .inr (.start b.sys t journals unused unlocked)
  | nextJournal t post journal drafts rest input decodeQuotes now entries effectiveAt running todo locked inserted =>
    exact .inr (.nextJournal b.sys t post journal drafts rest running todo locked inserted)
  | lock t post p rest running todo free => exact .inr (.lock b.sys t post p rest running todo free)
  | insert t post draft rest running locked todo checked positive known =>
    exact .inr (.insert b.sys t post draft rest running locked todo positive known)
  | commit t post running posted locked inserted =>
    exact .inr (.commit b.sys t post running posted locked inserted)
  | rollback t post running => exact .inr (.rollback b.sys t post running)
  | lockSet t c running free =>
    exact .inr (.lockOther b.sys t c.pair (inv.settings t c running).1 free)
  | commitSet t c row running locked ok | abortSet t c running =>
    exact .inr (.unlockOther b.sys t (inv.settings t c running).1)
  | _ => exact .inl rfl

theorem PolicyInv.sys_inv (step : PolicyStep b b') : Inv b'.sys := by
  rcases inv.sys_step step with same | step
  · rw [same]
    exact inv.sys
  · exact Inv.step _ _ inv.sys step

theorem PolicyInv.move (step : PolicyStep b b') (t : Nat) (db : b'.sys.db = b.sys.db)
    (tables : b'.tables = b.tables)
    (sequence : b'.nextPolicyID = b.nextPolicyID)
    (others : ∀ u, u ≠ t → b'.sys.posts u = b.sys.posts u ∧ b'.checks u = b.checks u ∧
      b'.settings u = b.settings u)
    (locks : ∀ p u, u ≠ t → b.sys.locks p = some u → b'.sys.locks p = some u)
    (posting : ∀ post, b'.sys.posts t = some post →
      PostingOk b.effective b.sys.db post (b'.checks t))
    (setting : ∀ c, b'.settings t = some c →
      b'.sys.posts t = none ∧ c.currencyID ≠ 0 ∧ (c.locked = true → b'.sys.locks c.pair = some t)) :
      PolicyInv b' where
  sys := inv.sys_inv step
  ids := by rw [db]; exact inv.ids
  policies := by rw [tables]; exact inv.policies
  sequence := by rw [tables, sequence]; exact inv.sequence
  index := by rw [tables]; exact inv.index
  settings u c running := by
    by_cases other : u = t
    · subst other
      exact setting c running
    · obtain ⟨samePost, -, sameSetting⟩ := others u other
      obtain ⟨idle, specific, held⟩ := inv.settings u c (sameSetting ▸ running)
      exact ⟨samePost.trans idle, specific, fun locked => locks _ u other (held locked)⟩
  posts u post running := by
    have effective : b'.effective = b.effective := by
      unfold PolicyBank.effective
      rw [tables]
    rw [effective, db]
    by_cases other : u = t
    · subst other
      exact posting post running
    · obtain ⟨samePost, sameCheck, -⟩ := others u other
      rw [sameCheck]
      exact inv.posts u post (samePost ▸ running)

theorem PolicyInv.check {post : Posting} (running : b.sys.posts t = some post)
    (step : PolicyStep b (b.setCheck t c))
    (ok : PostingOk b.effective b.sys.db post c) : PolicyInv (b.setCheck t c) := by
  refine inv.move step t rfl rfl rfl ?_ (fun _ _ _ held => held) ?_ ?_
  · intro u other
    exact ⟨rfl, Function.update_of_ne other _ _, rfl⟩
  · intro post' same
    have samePost : post = post' := Option.some.inj (running.symm.trans same)
    rw [PolicyBank.setCheck_self, ← samePost]
    exact ok
  · intro s found
    exact inv.settings t s found

theorem PolicyInv.post (step : PolicyStep b b') {post : Option Posting} (db : b'.sys.db = b.sys.db)
    (tables : b'.tables = b.tables) (sequence : b'.nextPolicyID = b.nextPolicyID)
    (settings : b'.settings = b.settings)
    (idle : b.settings t = none) (posts : b'.sys.posts = Function.update b.sys.posts t post)
    (checks : ∀ u, u ≠ t → b'.checks u = b.checks u)
    (locks : ∀ p u, u ≠ t → b.sys.locks p = some u → b'.sys.locks p = some u)
    (ok : ∀ now, post = some now → PostingOk b.effective b.sys.db now (b'.checks t)) :
    PolicyInv b' := by
  refine inv.move step t db tables sequence ?_ locks ?_ ?_
  · intro u other
    rw [posts, settings]
    exact ⟨Function.update_of_ne other _ _, checks u other, rfl⟩
  · intro now running
    rw [posts, Function.update_self] at running
    exact ok now running
  · intro c running
    rw [settings, idle] at running
    cases running

theorem PolicyInv.ledger {sys : System} (step : Step b.sys sys) (posts : sys.posts = b.sys.posts)
    (ids : (sys.db.classifications.map (·.id)).Nodup)
    (others : ∀ t, (b.settings t).isSome → ∀ p, b.sys.locks p = some t → sys.locks p = some t) :
    PolicyInv { b with sys := sys } where
  sys := Inv.step _ _ inv.sys step
  ids := ids
  policies := inv.policies
  sequence := inv.sequence
  index := inv.index
  settings t c running := by
    obtain ⟨idle, specific, held⟩ := inv.settings t c running
    exact ⟨(congrFun posts t).trans idle, specific, fun locked =>
      others t (by rw [running]; rfl) _ (held locked)⟩
  posts t post running := by
    have before : b.sys.posts t = some post := (congrFun posts t).symm.trans running
    exact (inv.posts t post before).keep (inv.sys.posts t post before) (fun _ _ => rfl)
      (fun dim _ => dimEntries_congr (step_posts_entries step posts) dim) (inv.sys.tidy.grows step)

theorem PolicyInv.commit {post : Posting} (running : b.sys.posts t = some post)
    (step : PolicyStep b { b with sys :=
      (({ b.sys with db := commitEntries b.sys.db post }).dropLocks t).setPost t none }) :
    PolicyInv { b with sys :=
      (({ b.sys with db := commitEntries b.sys.db post }).dropLocks t).setPost t none } where
  sys := inv.sys_inv step
  ids := by
    have same := (Tables.commitEntries_tables b.sys.db post).2.1
    change ((commitEntries b.sys.db post).classifications.map (·.id)).Nodup
    rw [same]
    exact inv.ids
  policies := inv.policies
  sequence := inv.sequence
  index := inv.index
  settings u c open_ := by
    have other : u ≠ t := by
      rintro rfl
      rw [inv.notSetting running] at open_
      cases open_
    obtain ⟨idle, specific, held⟩ := inv.settings u c open_
    exact ⟨(Function.update_of_ne other _ _).trans idle, specific, fun locked => dropLocks_keeps
      (held locked) other⟩
  posts u post' running' := by
    have other : u ≠ t := by
      rintro rfl
      simp [System.setPost] at running'
    have before : b.sys.posts u = some post' := (Function.update_of_ne other _ _).symm.trans running'
    refine (inv.posts u post' before).keep (inv.sys.posts u post' before) (fun _ _ => rfl) ?_
      (commit_grows (inv.sys.posts t post running))
    -- The committed entries lie on pairs locked by `t`.
    intro dim held
    have none_ : post.written.filter (·.dim == dim) = [] := by
      rw [List.filter_eq_nil_iff]
      intro e member here
      have mine := (inv.sys.posts t post running).held e member
      rw [beq_iff_eq.mp here, held, Option.some.injEq] at mine
      exact other mine
    change (commitEntries b.sys.db post).dimEntries dim = _
    rw [LedgerTables.dimEntries, (Tables.commitEntries_tables b.sys.db post).1, List.filter_append,
      none_, List.append_nil]
    rfl

theorem PolicyInv.commitSet {c : Setting} {row : AccountPolicyRow} (running : b.settings t = some c)
    (locked : c.locked = true) (ok : policyRow b.nextPolicyID c.input c.currencyID
      c.classificationID = .ok row) :
    PolicyInv ({ b with
      sys := b.sys.dropLocks t
      tables := { b.tables with policies := upsertAccountPolicy b.tables.policies row }
      nextPolicyID := b.nextPolicyID + 1 }.setSetting t none) := by
  obtain ⟨id, holder, currency, -⟩ := policyRow_ok ok
  obtain ⟨idle, specific, held⟩ := inv.settings t c running
  have fresh : row.id ∉ b.tables.policies.map (·.id) := by
    intro taken
    obtain ⟨p, member, same⟩ := List.mem_map.mp taken
    have below := inv.sequence p member
    omega
  refine ⟨inv.sys_inv (.commitSet b t c row running locked ok), inv.ids, ?_, ?_,
    upsert_columns inv.index row, ?_, ?_⟩
  · change ((upsertAccountPolicy b.tables.policies row).map (·.id)).Nodup
    rcases upsert_ids b.tables.policies row with same | appended
    · rw [same]
      exact inv.policies
    · rw [appended, ← List.concat_eq_append]
      exact inv.policies.concat fresh
  · intro p member
    have listed : p.id ∈ (upsertAccountPolicy b.tables.policies row).map (·.id) :=
      List.mem_map_of_mem member
    have below (old : p.id ∈ b.tables.policies.map (·.id)) : p.id < b.nextPolicyID + 1 := by
      obtain ⟨q, stored, same⟩ := List.mem_map.mp old
      have := inv.sequence q stored
      omega
    rcases upsert_ids b.tables.policies row with same | appended
    · rw [same] at listed
      exact below listed
    · rw [appended, List.mem_append, List.mem_singleton] at listed
      rcases listed with old | new
      · exact below old
      · change p.id < b.nextPolicyID + 1
        omega
  · intro u c' open_
    by_cases other : u = t
    · subst other
      simp at open_
    · have before : b.settings u = some c' := (Function.update_of_ne other _ _).symm.trans open_
      obtain ⟨idle', specific', held'⟩ := inv.settings u c' before
      exact ⟨idle', specific', fun locked' => dropLocks_keeps (held' locked') other⟩
  · intro u post posting
    have before : b.sys.posts u = some post := posting
    refine (inv.posts u post before).keep (inv.sys.posts u post before) ?_ (fun _ _ => rfl) .refl
    -- `SetPolicy` holds the lock of the pair its policy is for.
    intro dim mine
    refine upsert_effective (by rwa [currency]) ?_
    intro same
    have mine' : b.sys.locks c.pair = some u := by
      rw [Setting.pair, ← holder, ← currency, same]
      exact mine
    rw [held locked, Option.some.injEq] at mine'
    rw [mine', before] at idle
    cases idle

end

theorem PolicyInv.step : Preserved PolicyStep PolicyInv := by
  intro b b' inv step
  cases step with
  | ledger sys step posts ids others => exact inv.ledger step posts ids others
  | configure tables policies =>
    have effective : PolicyBank.effective { b with tables := tables } = b.effective := by
      unfold PolicyBank.effective
      rw [policies]
    refine ⟨inv.sys, inv.ids, policies ▸ inv.policies, policies ▸ inv.sequence, policies ▸
      inv.index, inv.settings, ?_⟩
    intro t post running
    rw [effective]
    exact inv.posts t post running
  | start t journals sys begins unused other unlocked =>
    have step := PolicyStep.start b t journals sys begins unused other unlocked
    subst begins
    refine inv.post step rfl rfl rfl rfl other rfl (fun u ne => Function.update_of_ne ne _ _)
      (fun _ _ _ held => held) ?_
    rintro now ⟨⟩
    rw [PolicyBank.setCheck_self]
    exact .started _ _ _ _
  | nextJournal t post journal drafts rest input decodeQuotes now entries effectiveAt running todo
      locked inserted valid resolved drafted =>
    have step := PolicyStep.nextJournal b t post journal drafts rest input decodeQuotes now entries
      effectiveAt running todo locked
      inserted valid resolved drafted
    refine inv.post step rfl rfl rfl rfl (inv.notSetting running) rfl
      (fun u ne => Function.update_of_ne ne _ _)
      (fun _ _ _ held => held) ?_
    rintro now ⟨⟩
    rw [PolicyBank.setCheck_self]
    exact (inv.posts t post running).nextJournal inserted (drafted_of_resolved inv.ids valid resolved drafted) _ _ _
  | lock t post p rest running todo free =>
    refine inv.post (.lock b t post p rest running todo free) rfl rfl rfl rfl
      (inv.notSetting running) rfl (fun _ _ => rfl)
      (fun q u other held => takeLock_keeps free held other) ?_
    rintro now ⟨⟩
    exact (inv.posts t post running).lock todo
  | readPolicy t post e rest d running locked todo ok =>
    exact inv.check running (.readPolicy b t post e rest d running locked todo ok)
      ((inv.posts t post running).readPolicy locked todo ok)
  | net t post running locked todo phase ok =>
    exact inv.check running (.net b t post running locked todo phase ok)
      ((inv.posts t post running).net inv.unique locked todo phase ok)
  | noFloor t post dim rest policy running todo known free =>
    have posting := inv.posts t post running
    have open_ : ¬(b.checks t).passed := by simp [Checking.passed, todo]
    refine inv.check running (.noFloor b t post dim rest policy running todo known free)
      (posting.advance inv.unique todo ?_ posting.check.checkpoint)
    intro p governed enforced
    rw [(posting.check.cached open_ known).1] at governed
    rw [free p governed] at enforced
    cases enforced
  | readCheckpoint t post dim rest running todo =>
    have posting := inv.posts t post running
    refine inv.check running (.readCheckpoint b t post dim rest running todo) ⟨posting.lines, ?_⟩
    refine ⟨posting.check.locked, posting.check.entries, posting.check.reads, posting.check.netted, ?_⟩
    intro seen dim' read
    obtain rfl := Option.some.inj read
    cases stored : b.sys.db.checkpoints dim' with
    | none => trivial
    | some cp => exact inv.sys.checkpoints dim' cp stored
  | floor t post dim rest p db running todo known enforced seen ok =>
    have posting := inv.posts t post running
    have open_ : ¬(b.checks t).passed := by simp [Checking.passed, todo]
    obtain ⟨governed, touched⟩ := posting.check.cached open_ known
    have entries := posting.check.entries open_
    rw [(posting.check.netted _ todo (List.cons_ne_nil dim rest)).1, List.append_nil] at entries
    refine inv.check running (.floor b t post dim rest p db running todo known enforced seen ok)
      (posting.advance inv.unique todo ?_ (by simp))
    intro q governed' _
    obtain rfl : p = q := Option.some.inj (governed.symm.trans governed')
    exact floor_of_check inv.sys.tidy.positive (inv.sys.posts t post running) entries
      (posting.check.reads open_) touched
      (posting.check.checkpoint db dim seen) ok
  | insert t post draft rest running locked todo checked positive known =>
    refine inv.post (.insert b t post draft rest running locked todo checked
      positive known) rfl rfl rfl rfl
      (inv.notSetting running) rfl (fun _ _ => rfl) (fun _ _ _ held => held) ?_
    rintro now ⟨⟩
    exact (inv.posts t post running).insert checked todo
  | commit t post running posted locked inserted =>
    exact inv.commit running (.commit b t post running posted locked inserted)
  | rollback t post running =>
    refine inv.post (.rollback b t post running) rfl rfl rfl rfl (inv.notSetting running)
      rfl (fun _ _ => rfl)
      (fun q u other held => dropLocks_keeps held other) ?_
    rintro now ⟨⟩
  | openSet t input currencyID classificationID valid resolved specific unused other unlocked =>
    refine inv.move (.openSet b t input currencyID classificationID valid resolved specific unused
      other unlocked) t rfl rfl rfl
      (fun u ne => ⟨rfl, rfl, Function.update_of_ne ne _ _⟩) (fun _ _ _ held => held)
        (fun post running => inv.posts t post running) ?_
    intro c running
    rw [PolicyBank.setSetting_self] at running
    cases running
    exact ⟨other, specific, nofun⟩
  | lockSet t c running free =>
    refine inv.move (.lockSet b t c running free) t rfl rfl rfl
      (fun u ne => ⟨rfl, rfl, Function.update_of_ne ne _ _⟩)
      (fun q u other held => takeLock_keeps free held other) (fun post running => inv.posts t post running) ?_
    intro c' same
    rw [PolicyBank.setSetting_self] at same
    cases same
    obtain ⟨idle, specific, -⟩ := inv.settings t c running
    exact ⟨idle, specific, fun _ => Function.update_self ..⟩
  | commitSet t c row running locked ok => exact inv.commitSet running locked ok
  | abortSet t c running =>
    refine inv.move (.abortSet b t c running) t rfl rfl rfl
      (fun u ne => ⟨rfl, rfl, Function.update_of_ne ne _ _⟩)
      (fun q u other held => dropLocks_keeps held other) (fun post running => inv.posts t post running) ?_
    intro c' same
    rw [PolicyBank.setSetting_self] at same
    cases same

theorem policyStep_entries (step : PolicyStep b b') : b'.sys.db.entries = b.sys.db.entries ∨
      ∃ t post, b.sys.posts t = some post ∧ post.inserting = [] ∧ b'.sys.db =
      commitEntries b.sys.db post := by
  cases step with
  | ledger sys step posts ids others => exact .inl (step_posts_entries step posts)
  | start t journals sys begins unused other unlocked =>
    subst begins
    exact .inl rfl
  | commit t post running posted locked inserted => exact .inr ⟨t, post, running, inserted, rfl⟩
  | _ => exact .inl rfl

theorem PolicyInv.committed (inv : PolicyInv b) {t : Nat} {post : Posting}
    (running : b.sys.posts t = some post)
    (inserted : post.inserting = []) : LinesOk b.effective b.sys.db (written post) := by
  have lines := (inv.posts t post running).lines
  rwa [promised_inserted _ inserted] at lines

structure PolicyRunInv (b : PolicyBank) : Prop where
  policies : PolicyInv b
  known : Known b.sys

theorem PolicyRunInv.step : Preserved PolicyStep PolicyRunInv := by
  intro b b' inv step
  refine ⟨PolicyInv.step b b' inv.policies step, ?_⟩
  rcases inv.policies.sys_step step with same | moved
  · rw [same]
    exact inv.known
  · exact inv.known.step inv.policies.sys moved

theorem PolicyBank.Reachable.inv (reachable : b.Reachable) : PolicyRunInv b := by
  obtain ⟨start, initial, run⟩ := reachable
  exact PolicyRunInv.step.run ⟨.initial initial, .initial initial.sys⟩ run

theorem balanceOf_keep {db db' : LedgerTables}
    (known : ∀ e ∈ db.entries, (db.getClassification e.dim.classification).isSome = true)
    (keeps : KeepsSides db db') (same : db'.entries = db.entries) (dim : Dimension) :
    balanceOf db' dim = balanceOf db dim := by
  have entries := dimEntries_congr same dim
  cases found : sideOfDim db dim with
  | some side => exact balanceOf_congr (keeps.sideOfDim (by rw [found]; rfl)) entries
  | none =>
    -- A dimension without a classification has no entries.
    have empty : db.dimEntries dim = [] := by
      apply List.filter_eq_nil_iff.mpr
      intro e member here
      have row := known e member
      rw [beq_iff_eq.mp here, Option.isSome_iff_exists] at row
      obtain ⟨row, stored⟩ := row
      rw [sideOfDim, stored] at found
      cases found
    rw [balanceOf, balanceOf, entries, empty]
    rfl

theorem PolicyRunInv.floor_step (inv : PolicyRunInv b) (step : PolicyStep b b')
    (governed : b.effective dim = some p) (enforced : p.enforceMinBalance = true)
    (met : p.minBalance ≤ balanceOf b.sys.db dim) : p.minBalance ≤ balanceOf b'.sys.db dim := by
  rcases policyStep_entries step with same | ⟨t, post, running, inserted, committed⟩
  · have keeps : KeepsSides b.sys.db b'.sys.db := by
      rcases inv.policies.sys_step step with still | moved
      · rw [still]
        exact .of_eq rfl
      · exact (inv.policies.sys.tidy.grows moved).sides
    rw [balanceOf_keep inv.known.committed keeps same]
    exact met
  · obtain ⟨entries, classifications, -⟩ := Tables.commitEntries_tables b.sys.db post
    have side : sideOfDim b'.sys.db dim = sideOfDim b.sys.db dim := by
      rw [committed, sideOfDim, LedgerTables.getClassification, classifications]
      rfl
    rw [balanceOf_append side (committed ▸ entries)]
    by_cases touched : dim ∈ (written post).map Line.dim
    · obtain ⟨l, member, rfl⟩ := List.mem_map.mp touched
      exact (inv.policies.committed running inserted).floors l member p governed enforced
    · change _ ≤ _ + sumAt Line.dim (Line.change b.sys.db) (written post) dim
      rw [sumAt_of_not_mem touched, add_zero]
      exact met

theorem PolicyRunInv.floor_run (inv : PolicyRunInv b) (governed : b.effective dim = some p)
    (enforced : p.enforceMinBalance = true) (met : p.minBalance ≤ balanceOf b.sys.db dim)
    (run : Run (fun x y => PolicyStep x y ∧ y.effective dim = some p) b b') : p.minBalance ≤
    balanceOf b'.sys.db dim := by
  -- The invariant along the run: the policy governs and its floor is met.
  have kept : PolicyRunInv b' ∧ b'.effective dim = some p ∧ p.minBalance ≤
    balanceOf b'.sys.db dim := by
    induction run with
    | refl => exact ⟨inv, governed, met⟩
    | tail _ last ih =>
      obtain ⟨inv, governed, met⟩ := ih
      exact ⟨PolicyRunInv.step _ _ inv last.1, last.2, inv.floor_step last.1 governed enforced met⟩
  exact kept.2.2

/-- Along every interleaving of journal transactions and of policy changes for one currency each, a
floor that was met when its policy came into force stays met, nothing is committed to a dimension
under a closed policy, and no journal lowers in a currency what a frozen policy governs. -/
theorem account_policies_hold {b : PolicyBank} (reachable : b.Reachable) :
    (∀ p ∈ b.tables.policies, p.currencyID ≠ 0 → p.classificationID ≠ 0 →
      b.effective ⟨p.accountHolder, p.currencyID, p.classificationID⟩ = some p) ∧
    (∀ dim p, b.effective dim = some p → p.enforceMinBalance = true → p.minBalance ≤
      balanceOf b.sys.db dim →
      ∀ b', Run (fun x y => PolicyStep x y ∧ y.effective dim = some p) b b' → p.minBalance ≤
      balanceOf b'.sys.db dim) ∧
    (∀ b', PolicyStep b b' → ∃ new, b'.sys.db.entries = b.sys.db.entries ++ new ∧
      (∀ e ∈ new, (b.effective e.dim).map (·.status) ≠ some .closed) ∧ ∀ p, p.status =
      .frozen → ∀ journal currency,
        0 ≤ sumAt (Line.under b.effective) (Line.change b.sys.db) (new.map rowLine) (journal, currency, some p)) := by
  have inv := reachable.inv
  refine ⟨fun p => effective_of_exact inv.policies.index, ?_, ?_⟩
  · intro dim p governed enforced met b' run
    exact inv.floor_run governed enforced met run
  · intro b' step
    rcases policyStep_entries step with same | ⟨t, post, running, inserted, committed⟩
    · refine ⟨[], by rw [same, List.append_nil], by simp, ?_⟩
      intro p _ journal currency
      exact le_rfl
    · have lines := inv.policies.committed running inserted
      refine ⟨post.written, by rw [committed, (Tables.commitEntries_tables b.sys.db post).1], ?_, lines.notLowered⟩
      intro e member
      exact lines.notClosed (rowLine e) (List.mem_map_of_mem member)

namespace PolicySample

def bank : PolicyBank where
  sys := { sampleSystem with db := Sample.store.ledger }
  tables := Sample.store
  nextPolicyID := 1
  checks := fun _ => .nothing
  settings := fun _ => none

def floorInput : AccountPolicyInput :=
  ⟨7, (Sample.uid 3).print, (Sample.uid 1).print, some .active, .zero, true, [], 1⟩

def floorRow : AccountPolicyRow := ⟨1, 7, 1, 1, .active, 0, true⟩

def wallet : ResolvedEntry :=
  ⟨⟨7, (Sample.uid 3).print, (Sample.uid 1).print, .credit, ⟨10, 0⟩⟩, 1, 1, 2, .credit⟩
def custody : ResolvedEntry :=
  ⟨⟨-7, (Sample.uid 3).print, (Sample.uid 2).print, .debit, ⟨10, 0⟩⟩, 1, 2, 2, .debit⟩

def drafts : List EntryDraft := [⟨⟨7, 1, 1⟩, .credit, 10 ^ 19, 0⟩, ⟨⟨-7, 1, 2⟩, .debit, 10 ^ 19, 0⟩]

theorem resolves : resolveEntries Sample.store Sample.deposit.entries =
    .ok [wallet, custody] := by decide +kernel

theorem drafts_ok : collect (entryDraft 0) [wallet, custody] = .ok drafts := by decide +kernel

theorem valid : Sample.deposit.validate (fun _ => .ok ()) 0 = .ok () := by decide +kernel

theorem deposited : ∃ b, PolicyBank.Reachable b ∧ b.effective ⟨7, 1, 1⟩ = some floorRow ∧
    balanceOf b.sys.db ⟨7, 1, 1⟩ = 10 ^ 19 := by
  refine ⟨_, ⟨bank, ⟨⟨rfl, fun _ => rfl, by decide, fun _ => rfl, fun _ => rfl⟩, by decide,
    by decide, by decide, by decide, fun _ => rfl⟩,
    .head (.openSet _ 1 floorInput 1 1 (by decide +kernel) (by decide +kernel) (by decide) rfl rfl
      (by simp [bank, sampleSystem])) <|
    .head (.lockSet _ 1 _ rfl (.inl rfl)) <|
    .head (.commitSet _ 1 _ floorRow rfl rfl (by decide +kernel)) <|
    .head (.start _ 0 [(1, drafts)] _ rfl rfl rfl ?_) <|
    .head (.nextJournal _ 0 _ 1 drafts [] Sample.deposit (fun _ => .ok ()) 0 [wallet, custody] 0 rfl
      rfl rfl rfl valid resolves drafts_ok) <|
    .head (.lock _ 0 _ ⟨-7, 1⟩ [⟨7, 1⟩] rfl rfl (.inl rfl)) <|
    .head (.lock _ 0 _ ⟨7, 1⟩ [] rfl rfl (.inl rfl)) <|
    .head (.readPolicy _ 0 _ wallet [custody] ⟨wallet, ⟨10, 0⟩, some floorRow⟩ rfl rfl rfl rfl) <|
    .head (.readPolicy _ 0 _ custody [] ⟨custody, ⟨10, 0⟩, none⟩ rfl rfl rfl rfl) <|
    .head (.net _ 0 _ rfl rfl rfl rfl rfl) <|
    .head (.readCheckpoint _ 0 _ ⟨7, 1, 1⟩ [⟨-7, 1, 2⟩] rfl rfl) <|
    .head (.floor _ 0 _ ⟨7, 1, 1⟩ [⟨-7, 1, 2⟩] floorRow _ rfl rfl rfl rfl rfl rfl) <|
    .head (.noFloor _ 0 _ ⟨-7, 1, 2⟩ [] none rfl rfl rfl nofun) <|
    .head (.insert _ 0 _ ⟨⟨7, 1, 1⟩, .credit, 10 ^ 19, 0⟩ [⟨⟨-7, 1, 2⟩, .debit, 10 ^ 19, 0⟩] rfl rfl
      rfl rfl (by decide) rfl) <|
    .head (.insert _ 0 _ ⟨⟨-7, 1, 2⟩, .debit, 10 ^ 19, 0⟩ [] rfl rfl rfl rfl (by decide) rfl) <|
    .head (.commit _ 0 _ rfl rfl rfl rfl) .refl⟩, rfl, rfl⟩
  -- The first transaction has dropped its lock.
  intro p
  simp only [PolicyBank.setSetting, System.dropLocks, System.takeLock, bank, sampleSystem,
    Function.update_apply]
  split
  · simp
  · next other =>
    intro held
    split at held
    · cases held
    · cases held

end PolicySample
theorem account_policies_hold_deposited : ∃ b, PolicyBank.Reachable b ∧ b.effective ⟨7, 1, 1⟩ =
    some PolicySample.floorRow ∧
    balanceOf b.sys.db ⟨7, 1, 1⟩ = 10 ^ 19 ∧
    ∀ b', Run (fun x y => PolicyStep x y ∧ y.effective ⟨7, 1, 1⟩ =
      some PolicySample.floorRow) b b' →
      0 ≤ balanceOf b'.sys.db ⟨7, 1, 1⟩ := by
  obtain ⟨b, reachable, governed, balance⟩ := PolicySample.deposited
  have met : PolicySample.floorRow.minBalance ≤ balanceOf b.sys.db ⟨7, 1, 1⟩ := by
    rw [balance]
    decide
  exact ⟨b, reachable, governed, balance, (account_policies_hold reachable).2.1
    _ _ governed rfl met⟩

end Ledger.Service
