import Ledger.Postgres.LedgerRuns

namespace Ledger.Postgres

open Ledger.Core Shared

theorem canonicalUID_idem (uid : GoString) : canonicalUID (canonicalUID uid) =
    canonicalUID uid := by
  unfold canonicalUID
  by_cases empty : uid = []
  · simp [empty]
  · rw [if_neg empty]
    cases parsed : Uuid.parse uid with
    | none => simp [empty, parsed]
    | some u =>
      have nonempty : u.print ≠ [] := ne_nil_of_parse (Uuid.parse_print u)
      simp [nonempty, Uuid.parse_print]

def valueOf (e : EntryInput) : EntryInput := { e with amount := e.amount.reduced }

def Known (s : Store) (e : EntryInput) : Prop :=
  (∃ cur, s.currencyByUIDOrErr e.currencyUID = .ok cur) ∧
    ∃ cls, s.classByUIDOrErr e.classificationUID = .ok cls

def restore (s : Store) (f : EntryFingerprint) : EntryInput :=
  ⟨f.holder, ((s.currencies.find? (·.id == f.currencyID)).map (pgToUID ·.uid)).getD [],
    ((s.ledger.classifications.find? (·.id == f.classificationID)).map (pgToUID ·.uid)).getD [],
      f.entryType, f.amount⟩

def fingerprintOf (s : Store) (e : EntryInput) : EntryFingerprint :=
  ⟨e.accountHolder, ((s.currencies.find? (pgToUID ·.uid == e.currencyUID)).map (·.id)).getD 0,
    ((s.ledger.classifications.find? (pgToUID ·.uid == e.classificationUID)).map (·.id)).getD 0,
      e.entryType, e.amount⟩

variable {s : Store} {e : EntryInput}

theorem inputFingerprint_isOk_iff : (∃ f, inputFingerprint s e = .ok f) ↔ Known s e := by
  simp only [inputFingerprint, bind_eq_ok, pure_eq_ok, Known]
  constructor
  · rintro ⟨_, cur, currency, cls, class_, -⟩
    exact ⟨⟨cur, currency⟩, cls, class_⟩
  · rintro ⟨⟨cur, currency⟩, cls, class_⟩
    exact ⟨_, cur, currency, cls, class_, rfl⟩

theorem inputFingerprint_error {err : Error} (failed : inputFingerprint s e = .error err) :
    err.sentinel = .notFound := by
  have lookup {α : Type} {value : Option α} {text : String}
    (failed : orError value ⟨.notFound, text⟩ = .error err) :
      err.sentinel = .notFound := by
    cases value <;> cases failed
    rfl
  simp only [inputFingerprint, bind_eq_error, pure, Except.pure, reduceCtorEq, and_false,
    exists_false, or_false] at failed
  rcases failed with currency | ⟨_, -, class_⟩
  · exact lookup currency
  · exact lookup class_

theorem inputFingerprint_value (keys : PrimaryKeys s) {f : EntryFingerprint}
    (known : inputFingerprint s e = .ok f) :
    restore s f = valueOf e ∧ f = fingerprintOf s (valueOf e) := by
  simp only [inputFingerprint, bind_eq_ok, pure_eq_ok, Store.currencyByUIDOrErr,
    Store.classByUIDOrErr, orError_eq_ok] at known
  obtain ⟨cur, currency, cls, class_, rfl⟩ := known
  have currencyUID : pgToUID cur.uid = e.currencyUID := by simpa using List.find?_some currency
  have classUID : pgToUID cls.uid = e.classificationUID := by simpa using List.find?_some class_
  have byCurrency := find_of_nodup keys.currencies (List.mem_of_find?_eq_some currency)
  have byClass := find_of_nodup keys.classifications (List.mem_of_find?_eq_some class_)
  constructor
  · simp only [restore, byCurrency, byClass, Option.map_some, Option.getD_some, currencyUID, classUID]
    rfl
  · simp only [fingerprintOf, valueOf, currency, class_, Option.map_some, Option.getD_some]

theorem fingerprints_perm_iff (keys : PrimaryKeys s) {entries entries' : List EntryInput}
    {prints prints' : List EntryFingerprint}
    (taken : collect (inputFingerprint s) entries = .ok prints)
    (taken' : collect (inputFingerprint s) entries' = .ok prints') :
    prints.Perm prints' ↔ (entries.map valueOf).Perm (entries'.map valueOf) := by
  have back {entries : List EntryInput} {prints : List EntryFingerprint}
    (taken : collect (inputFingerprint s) entries = .ok prints) :
      prints.map (restore s) = entries.map valueOf ∧ prints = (entries.map valueOf).map (fingerprintOf s) := by
    have related := collect_eq_ok.mp taken
    constructor
    · exact (forall₂_map_eq related fun e _ f known => (inputFingerprint_value keys known).1.symm).symm
    · rw [List.map_map, ← List.map_id prints]
      exact (forall₂_map_eq related fun e _ f known => (inputFingerprint_value keys known).2.symm).symm
  obtain ⟨restored, taken_⟩ := back taken
  obtain ⟨restored', taken'_⟩ := back taken'
  constructor
  · intro same
    rw [← restored, ← restored']
    exact same.map _
  · intro same
    rw [taken_, taken'_]
    exact same.map _

structure PostedAs (s : Store) (input : JournalInput) (effectiveAt : Instant) (row : JournalRow)
    (j : Journal) : Prop where
  found : s.journals.find? (·.idempotencyKey == input.idempotencyKey) = some row
  key : textFits input.idempotencyKey = true
  read : journalFromRow s row = .ok j
  journalTypeUID : j.journalTypeUID = input.journalTypeUID
  actorID : row.actorID = input.actorID
  source : row.source = input.source
  eventUID : j.eventUID = canonicalUID input.eventUID
  reversalOfUID : j.reversalOfUID = canonicalUID input.reversalOfUID
  effectiveAt : row.effectiveAt = toMicros effectiveAt
  totalDebit : (numericToDecimal row.totalDebit).val = (totalOf .debit input.entries).val
  totalCredit : (numericToDecimal row.totalCredit).val = (totalOf .credit input.entries).val
  metadata : j.metadata = readBack input.metadata
  entries : collect (inputFingerprint s) input.entries =
    .ok ((s.listJournalEntries row.id).map EntryRow.fingerprint)

variable {s' : Store} {j : Journal}

theorem PostedAs.later {input : JournalInput} {effectiveAt : Instant} {row : JournalRow}
    (posted : PostedAs s input effectiveAt row j) (later : Later s s') :
    PostedAs s' input effectiveAt row j :=
  { posted with
    found := later.keys _ row posted.found
    read := journalFromRow_later later posted.read
    entries := by
      rw [later.entries row (List.mem_of_find?_eq_some posted.found), collect_eq_ok]
      exact (collect_eq_ok.mp posted.entries).imp fun _ _ known => inputFingerprint_later later known }

section

variable {env : Env} {s s' : Store} {input : JournalInput} {effectiveAt : Instant}
  {auth : JournalAuth} {g : Gated}
  {row : JournalRow} {rows : List EntryRow}

theorem checkEventLink_ok {uid : GoString} {resolved : List ResolvedEntry} {found : Option EventRow}
    (ok : checkEventLink s uid resolved = .ok found) :
    (uid = [] ∧ found = none) ∨ ∃ pgUID event, uid ≠ [] ∧ Uuid.parse uid = some pgUID ∧
    s.getEventByUID pgUID = some event ∧
      found = some event := by
  unfold checkEventLink at ok
  split at ok
  · next empty => exact .inl ⟨empty, (Except.ok.inj ok).symm⟩
  · next nonempty =>
    simp only [bind_eq_ok, orError_eq_ok, pure_eq_ok] at ok
    obtain ⟨pgUID, parsed, event, lookup, _, -, _, -, _, -, _, -, rfl⟩ := ok
    exact .inr ⟨pgUID, event, nonempty, parsed, lookup, rfl⟩

theorem Fresh.eventUID_stored (fresh : Fresh env s input effectiveAt auth g row rows s')
    (keyed : Keyed s) :
    eventUID s' row = .ok (canonicalUID input.eventUID) := by
  have stored : row.eventID = g.event.map (·.id) := by rw [(insertJournal_ok fresh.journal).2.2.2.2]
  rcases checkEventLink_ok (gates_ok fresh.gated).2.2.1 with ⟨empty, none_⟩ | ⟨pgUID, event,
    nonempty, parsed, lookup, some_⟩
  · rw [none_] at stored
    rw [eventUID, stored, canonicalUID, if_pos empty]
    rfl
  · have uid : event.uid = pgUID := by simpa using List.find?_some lookup
    have byID : s.getEvent event.id = some event := find_of_nodup keyed.events
      (List.mem_of_find?_eq_some lookup)
    obtain ⟨event', found, same⟩ := (fresh.later keyed.wired).events _ event byID
    rw [some_] at stored
    simp only [eventUID, stored, Option.map_some, found, orError, ok_bind]
    rw [canonicalUID, if_neg nonempty, parsed, Option.map_some, Option.getD_some, same, uid]
    rfl

theorem Written.fingerprint {r : EntryRow} (written : Written s row e r)
    (valid : validateEntry e = .ok ()) :
    inputFingerprint s e = .ok r.fingerprint := by
  obtain ⟨cur, currency, currencyID⟩ := written.currency
  obtain ⟨cls, class_, classID⟩ := written.classification
  obtain ⟨resolved, rowOf, rfl⟩ := written.rowOf
  have amount : resolved.input.amount.reduced = (numericToDecimal r.amount).reduced := by
    rw [Decimal.reduced_eq_iff, numericToDecimal, ofUnits_val, rowOf.amount, validateEntry_units valid]
    field_simp
  simp only [inputFingerprint, bind_eq_ok, pure_eq_ok]
  refine ⟨cur, currency, cls, class_, ?_⟩
  rw [EntryRow.fingerprint, ← written.holder, ← currencyID, ← classID, rowOf.entryType, amount]

theorem Fresh.postedAs (fresh : Fresh env s input effectiveAt auth g row rows s') (keyed : Keyed s)
    {decodeQuotes : GoString → Result Unit} (valid : input.validate decodeQuotes env.now = .ok ())
    (read : journalFromRow s' row = .ok j) : PostedAs s' input effectiveAt row j := by
  obtain ⟨-, key, -, -, rowEq⟩ := insertJournal_ok fresh.journal
  have entriesValid := validate_entry valid
  have later := fresh.later keyed.wired
  have total {entryType : EntryType} :
    (numericToDecimal (toUnits 18 (totalOf entryType input.entries))).val =
      (totalOf entryType input.entries).val := by
    rw [numericToDecimal, ofUnits_val, totalOf_units entriesValid]
    field_simp
  have prints : collect (inputFingerprint s') input.entries =
    .ok ((s'.listJournalEntries row.id).map EntryRow.fingerprint) := by
    rw [fresh.listJournalEntries_new keyed.wired, collect_eq_ok, List.forall₂_map_right_iff]
    have both := (List.forall₂_and_left _ _).mpr ⟨entriesValid, fresh.written⟩
    exact both.imp fun e r holds => inputFingerprint_later later (holds.2.fingerprint holds.1)
  have type_ := (gates_ok fresh.gated).2.1
  simp only [Store.jtByUIDOrErr, orError_eq_ok] at type_
  have typeUID : pgToUID g.jt.uid = input.journalTypeUID := by simpa using List.find?_some type_
  have typeID : s'.jtByIDOrErr row.journalTypeID = .ok g.jt := by
    rw [Store.jtByIDOrErr, fresh.catalog_eq.2.2, orError_eq_ok, rowEq]
    exact find_of_nodup keyed.primary.journalTypes (List.mem_of_find?_eq_some type_)
  have parts := read
  simp only [journalFromRow, typeID, fresh.eventUID_stored keyed, bind_eq_ok,
    ok_bind, pure_eq_ok] at parts
  obtain ⟨reversal, link, rfl⟩ := parts
  have reversalUID := (reversalOfUID_eq link).symm.trans (fresh.reversalOfUID_stored keyed.wired)
  exact
    { found := fresh.found
      key := key
      read := read
      journalTypeUID := typeUID
      actorID := by rw [rowEq]
      source := by rw [rowEq]
      eventUID := rfl
      reversalOfUID := reversalUID
      effectiveAt := by rw [rowEq]
      totalDebit := by rw [rowEq]; exact total
      totalCredit := by rw [rowEq]; exact total
      metadata := by rw [rowEq]
      entries := prints }

end

variable {cfg : Config} {mode : Mode}

theorem postJournal_of_found {env : Env} {input : JournalInput} {row : JournalRow}
    (valid : input.validate cfg.decodeQuotes env.now = .ok ())
    (key : textFits input.idempotencyKey = true)
    (found : s.journals.find? (·.idempotencyKey == input.idempotencyKey) = some row) :
    postJournal cfg mode env s input = (ensureJournalMatchesInput s row input).map (s, ·) := by
  have lookup : s.getJournalByIdempotencyKey input.idempotencyKey = .ok (some row) := by
    simp [Store.getJournalByIdempotencyKey, textParam, key, require, found, pure, Except.pure]
  have answered (effectiveAt : Instant) (auth : JournalAuth) :
      postJournalWithQueries cfg env s input effectiveAt auth = (ensureJournalMatchesInput s row input).map (s, ·) := by
    rw [postJournalWithQueries, valid, lookup]
    cases ensured : ensureJournalMatchesInput s row input <;>
      simp [within, ensured, Except.map, bind, Except.bind, pure, Except.pure]
  rw [postJournal, valid]
  rcases mode with _ | _ | sign
  · exact answered _ _
  · exact answered _ _
  · simp only [attestJournal, lookup, within, ok_bind, pure, Except.pure, answered]

structure SameHeader (input input' : JournalInput) (effectiveAt : Instant) : Prop where
  journalTypeUID : input'.journalTypeUID = input.journalTypeUID
  actorID : input'.actorID = input.actorID
  source : input'.source = input.source
  eventUID : input'.eventUID = canonicalUID input.eventUID
  reversalOfUID : input'.reversalOfUID = canonicalUID input.reversalOfUID
  effectiveAt : input'.effectiveAt = 0 ∨ toMicros input'.effectiveAt = toMicros effectiveAt
  totalDebit : (totalOf .debit input'.entries).val = (totalOf .debit input.entries).val
  totalCredit : (totalOf .credit input'.entries).val = (totalOf .credit input.entries).val
  metadata : input'.metadata = readBack input.metadata

def SameEntries (entries entries' : List EntryInput) : Prop := (entries'.map valueOf).Perm
    (entries.map valueOf)

section

variable {s : Store} {input input' : JournalInput} {effectiveAt : Instant}
  {row : JournalRow} {j : Journal}

section

variable (posted : PostedAs s input effectiveAt row j)
include posted

theorem PostedAs.header_iff :
    (j.journalTypeUID = input'.journalTypeUID ∧ row.actorID = input'.actorID ∧
      row.source = input'.source ∧
        j.eventUID = input'.eventUID ∧ j.reversalOfUID = input'.reversalOfUID ∧
        (input'.effectiveAt = 0 ∨ row.effectiveAt = toMicros input'.effectiveAt) ∧
        (numericToDecimal row.totalDebit).equal (totalOf .debit input'.entries) = true ∧
        (numericToDecimal row.totalCredit).equal (totalOf .credit input'.entries) = true ∧
        encodeObject j.metadata = encodeObject input'.metadata) ↔ SameHeader input input' effectiveAt := by
  rw [posted.journalTypeUID, posted.actorID, posted.source, posted.eventUID,
    posted.reversalOfUID, posted.effectiveAt,
    Decimal.equal_iff, Decimal.equal_iff, posted.totalDebit, posted.totalCredit, posted.metadata,
      encodeObject_readBack_eq_iff]
  constructor
  all_goals
    rintro ⟨type_, actor, source, event, reversal, time, debit, credit, metadata⟩
    exact ⟨type_.symm, actor.symm, source.symm, event.symm, reversal.symm, time.imp_right Eq.symm,
      debit.symm, credit.symm,
      metadata.symm⟩

theorem PostedAs.length : (s.listJournalEntries row.id).length = input.entries.length := by
  have same := (collect_eq_ok.mp posted.entries).length_eq
  rw [List.length_map] at same
  exact same.symm

theorem PostedAs.ensure_other
    (other : ¬(SameHeader input input' effectiveAt ∧ input'.entries.length =
      input.entries.length)) :
    ∃ text, ensureJournalMatchesInput s row input' = .error ⟨.conflict, text⟩ := by
  unfold ensureJournalMatchesInput
  rw [posted.read, ok_bind]
  by_cases header : SameHeader input input' effectiveAt
  · have length : (s.listJournalEntries row.id).length ≠ input'.entries.length := by
      rw [posted.length]
      exact fun same => other ⟨header, same.symm⟩
    rw [require_of (posted.header_iff.mpr header), ok_bind, sameJournalEntries, if_pos length]
    exact ⟨_, rfl⟩
  · rw [require_of_not (mt posted.header_iff.mp header)]
    exact ⟨_, rfl⟩

theorem PostedAs.ensure_entries (header : SameHeader input input' effectiveAt)
    (length : input'.entries.length = input.entries.length) :
    ensureJournalMatchesInput s row input' = do
      let prints ← collect (inputFingerprint s) input'.entries
      require (decide (((s.listJournalEntries row.id).map EntryRow.fingerprint).Perm prints))
        ⟨.conflict, "postgres: post journal: idempotency key %q entries mismatch"⟩
      return j := by
  have same : (s.listJournalEntries row.id).length = input'.entries.length :=
    posted.length.trans length.symm
  unfold ensureJournalMatchesInput
  rw [posted.read, ok_bind, require_of (posted.header_iff.mpr header), ok_bind, sameJournalEntries,
    if_neg (not_not.mpr same)]
  cases collect (inputFingerprint s) input'.entries <;> rfl

theorem PostedAs.ensure_ok_iff (keys : PrimaryKeys s) :
    ensureJournalMatchesInput s row input' = .ok j ↔
      SameHeader input input' effectiveAt ∧ (∀ e ∈ input'.entries, Known s e) ∧
      SameEntries input.entries input'.entries := by
  by_cases alike : SameHeader input input' effectiveAt ∧ input'.entries.length =
    input.entries.length
  · rw [posted.ensure_entries alike.1 alike.2]
    simp only [bind_eq_ok, require_eq_ok, decide_eq_true_eq, pure_eq_ok, and_true, exists_const]
    constructor
    · rintro ⟨prints, taken, same⟩
      refine ⟨alike.1, fun e member => inputFingerprint_isOk_iff.mp (collect_isOk_iff.mp ⟨prints, taken⟩ e member), ?_⟩
      exact ((fingerprints_perm_iff keys posted.entries taken).mp same).symm
    · rintro ⟨-, known, same⟩
      obtain ⟨prints, taken⟩ := collect_isOk_iff.mpr fun e member => inputFingerprint_isOk_iff.mpr (known e member)
      exact ⟨prints, taken, (fingerprints_perm_iff keys posted.entries taken).mpr same.symm⟩
  · obtain ⟨text, failed⟩ := posted.ensure_other alike
    rw [failed]
    constructor
    · intro ok
      cases ok
    · rintro ⟨header, -, same⟩
      exact absurd ⟨header, by simpa using same.length_eq⟩ alike

theorem PostedAs.ensure_conflict_iff (keys : PrimaryKeys s) :
    (∃ text, ensureJournalMatchesInput s row input' = .error ⟨.conflict, text⟩) ↔
      ¬(SameHeader input input' effectiveAt ∧ input'.entries.length = input.entries.length ∧
        ((∃ e ∈ input'.entries, ¬Known s e) ∨ SameEntries input.entries input'.entries)) := by
  by_cases alike : SameHeader input input' effectiveAt ∧ input'.entries.length =
    input.entries.length
  · rw [posted.ensure_entries alike.1 alike.2]
    simp only [alike, true_and, not_or, not_exists, not_and, not_not]
    cases taken : collect (inputFingerprint s) input'.entries with
    | error err =>
      obtain ⟨e, member, failed⟩ := collect_error taken
      constructor
      · rintro ⟨text, same⟩
        have notFound := inputFingerprint_error failed
        cases same
        cases notFound
      · rintro ⟨known, -⟩
        obtain ⟨f, ok⟩ := inputFingerprint_isOk_iff.mpr (known e member)
        rw [failed] at ok
        cases ok
    | ok prints =>
      have known : ∀ e ∈ input'.entries, Known s e := fun e member =>
        inputFingerprint_isOk_iff.mp (collect_isOk_iff.mp ⟨prints, taken⟩ e member)
      have perm : ((s.listJournalEntries row.id).map EntryRow.fingerprint).Perm prints ↔
          SameEntries input.entries input'.entries :=
        (fingerprints_perm_iff keys posted.entries taken).trans List.perm_comm
      rw [ok_bind]
      by_cases same : SameEntries input.entries input'.entries
      · rw [require_of (perm.mpr same)]
        simp [same, pure, Except.pure]
      · rw [require_of_not (mt perm.mp same)]
        exact ⟨fun _ => ⟨known, same⟩, fun _ => ⟨_, rfl⟩⟩
  · refine ⟨fun _ => ?_, fun _ => posted.ensure_other alike⟩
    rintro ⟨header, length, -⟩
    exact alike ⟨header, length⟩

end

end

/-- Another journal than the one posted: a link is the journal or event that a uid names, in
whatever spelling, an effective time counts where it is given, and entries count up to their order.
-/
def Differs (input input' : JournalInput) (effectiveAt : Instant) : Prop :=
  input'.journalTypeUID ≠ input.journalTypeUID ∨ input'.actorID ≠ input.actorID ∨
    input'.source ≠ input.source ∨
    canonicalUID input'.eventUID ≠ canonicalUID input.eventUID ∨
    canonicalUID input'.reversalOfUID ≠ canonicalUID input.reversalOfUID ∨
    (input'.effectiveAt ≠ 0 ∧ toMicros input'.effectiveAt ≠ toMicros effectiveAt) ∨
      input'.metadata ≠ input.metadata ∨
    ¬SameEntries input.entries input'.entries

theorem Differs.metadata {input input' : JournalInput} {effectiveAt : Instant}
    (differs : Differs input input' effectiveAt)
    (header : SameHeader input input' effectiveAt)
    (entries : SameEntries input.entries input'.entries) :
    validMembers input.metadata = false := by
  rcases differs with type_ | actor | source | event | reversal | ⟨given, time⟩ | metadata | other
  · exact absurd header.journalTypeUID type_
  · exact absurd header.actorID actor
  · exact absurd header.source source
  · exact absurd (by rw [header.eventUID, canonicalUID_idem]) event
  · exact absurd (by rw [header.reversalOfUID, canonicalUID_idem]) reversal
  · exact absurd header.effectiveAt (not_or.mpr ⟨given, time⟩)
  · rw [← Bool.not_eq_true]
    intro valid
    exact metadata (header.metadata.trans (readBack_of_valid valid))
  · exact absurd entries other

theorem postedAs_of_run {env : Env} {posted : Store} {input : JournalInput} (keyed : Keyed s)
    (unused : ∀ j ∈ s.journals, j.idempotencyKey ≠ input.idempotencyKey)
    (ok : postJournal cfg mode env s input = .ok (posted, j))
    (run : Shared.Run (LedgerStep cfg) posted s') :
    Keyed s' ∧ ∃ row, PostedAs s' input (resolveEffectiveAt env.now input.effectiveAt) row j := by
  have step : LedgerStep cfg s posted := .inl ⟨env, .post mode input, j, ok⟩
  have keyed' := (step.keeps keyed).1
  obtain ⟨auth, written⟩ : ∃ auth, postJournalWithQueries cfg env s input
    (resolveEffectiveAt env.now input.effectiveAt) auth =
      .ok (posted, j) := by
    simp only [postJournal, bind_eq_ok] at ok
    obtain ⟨_, -, rest⟩ := ok
    cases mode with
    | tx => exact ⟨_, rest⟩
    | pool attestor =>
      simp only [bind_eq_ok] at rest
      obtain ⟨auth, -, rest⟩ := rest
      exact ⟨auth, rest⟩
  obtain ⟨valid, ⟨existing, found, -⟩ | ⟨g, row, rows, fresh, read⟩⟩ :=
    postJournalWithQueries_ok written
  · exact absurd (by simpa using List.find?_some found)
      (unused existing (List.mem_of_find?_eq_some found))
  · exact ⟨(keyed_preserved cfg).run keyed' run, row, (fresh.postedAs keyed valid read).later
      (run_later keyed' run)⟩

/-- A journal is posted under an unused key, and other operations follow. The same input then
returns that journal exactly if its uids are spelled as the store prints them and its metadata is
valid UTF-8. An input under the key that differs is a conflict, except where it has the stored
header and as many entries and one of them has an unknown uid, and except where it has the header
and entries and only the metadata was changed by storing it. -/
theorem postJournal_replay_iff {cfg : Config} {mode : Mode} {env : Env} {s posted s' : Store}
    {input : JournalInput} {j : Journal}
    (keyed : Keyed s) (unused : ∀ j ∈ s.journals, j.idempotencyKey ≠ input.idempotencyKey)
    (ok : postJournal cfg mode env s input = .ok (posted, j))
    (run : Shared.Run (LedgerStep cfg) posted s') (mode' : Mode) (env' : Env) :
    (input.validate cfg.decodeQuotes env'.now = .ok () →
      (postJournal cfg mode' env' s' input = .ok (s', j) ↔
        canonicalUID input.eventUID = input.eventUID ∧ canonicalUID input.reversalOfUID = input.reversalOfUID ∧
          validMembers input.metadata = true)) ∧
    ∀ input', input'.idempotencyKey = input.idempotencyKey →
    input'.validate cfg.decodeQuotes env'.now = .ok () →
      Differs input input' (resolveEffectiveAt env.now input.effectiveAt) →
      ((∃ text, postJournal cfg mode' env' s' input' = .error ⟨.conflict, text⟩) ↔
        ¬(SameHeader input input' (resolveEffectiveAt env.now input.effectiveAt) ∧
          (input'.entries.length = input.entries.length ∧ (∃ e ∈ input'.entries, ¬Known s' e) ∨
            validMembers input.metadata = false ∧ SameEntries input.entries input'.entries))) := by
  obtain ⟨keyed', row, as⟩ := postedAs_of_run keyed unused ok run
  constructor
  · intro valid
    rw [postJournal_of_found valid as.key as.found]
    have ensured : (ensureJournalMatchesInput s' row input).map (s', ·) = .ok (s', j) ↔
        ensureJournalMatchesInput s' row input = .ok j := by
      cases ensureJournalMatchesInput s' row input <;> simp [Except.map]
    rw [ensured, as.ensure_ok_iff keyed'.primary]
    have known : ∀ e ∈ input.entries, Known s' e := fun e member =>
      inputFingerprint_isOk_iff.mp (collect_isOk_iff.mp ⟨_, as.entries⟩ e member)
    have time : input.effectiveAt = 0 ∨ toMicros input.effectiveAt =
      toMicros (resolveEffectiveAt env.now input.effectiveAt) := by
      unfold resolveEffectiveAt
      split
      · next unset => exact .inl unset
      · exact .inr rfl
    constructor
    · rintro ⟨header, -, -⟩
      exact ⟨header.eventUID.symm, header.reversalOfUID.symm, readBack_eq_self_iff.mp header.metadata.symm⟩
    · rintro ⟨event, reversal, metadata⟩
      exact ⟨⟨rfl, rfl, rfl, event.symm, reversal.symm, time, rfl, rfl,
        (readBack_of_valid metadata).symm⟩, known, List.Perm.refl _⟩
  · intro input' key valid differs
    rw [postJournal_of_found valid (key ▸ as.key) (key ▸ as.found)]
    have ensured : (∃ text, (ensureJournalMatchesInput s' row input').map (s', ·) =
      .error ⟨.conflict, text⟩) ↔
        ∃ text, ensureJournalMatchesInput s' row input' = .error ⟨.conflict, text⟩ := by
      cases ensureJournalMatchesInput s' row input' <;> simp [Except.map]
    rw [ensured, as.ensure_conflict_iff keyed'.primary, not_iff_not]
    constructor
    · rintro ⟨header, length, unknown | entries⟩
      · exact ⟨header, .inl ⟨length, unknown⟩⟩
      · exact ⟨header, .inr ⟨differs.metadata header entries, entries⟩⟩
    · rintro ⟨header, ⟨length, unknown⟩ | ⟨-, entries⟩⟩
      · exact ⟨header, length, .inl unknown⟩
      · exact ⟨header, by simpa using entries.length_eq, .inr entries⟩

namespace Sample

theorem keyed : Keyed store := ⟨wired, primaryKeys, List.nodup_nil⟩

def postedAs (n : Nat) (s : Store) (input : JournalInput) :
    Store := okOr store ((postJournal config .tx (env n) s input).map Prod.fst)

def latin : JournalInput := { deposit with metadata := .ofList [(lit "note", [0xE9])] }

def elsewhere : JournalInput :=
    { deposit with entries := deposit.entries.map fun e => { e with currencyUID := (uid 9).print } }

end Sample

theorem postJournal_replay_deposit : ∃ posted j, postJournal Sample.config .tx (Sample.env 5)
    Sample.store Sample.deposit = .ok (posted, j) ∧
    postJournal Sample.config .tx (Sample.env 6) posted Sample.deposit = .ok (posted, j) ∧
      ∃ text, postJournal Sample.config .tx (Sample.env 6) posted
        { Sample.deposit with actorID := 2 } = .error ⟨.conflict, text⟩ := by
  have posts : (postJournal Sample.config .tx (Sample.env 5) Sample.store Sample.deposit).isOk =
    true := by decide +kernel
  obtain ⟨⟨posted, j⟩, ok⟩ := isOk_iff.mp posts
  obtain ⟨again, other⟩ := postJournal_replay_iff Sample.keyed (by simp [Sample.store]) ok
    .refl .tx (Sample.env 6)
  refine ⟨posted, j, ok, (again (by decide +kernel)).mpr ⟨rfl, rfl, by decide +kernel⟩, ?_⟩
  refine (other { Sample.deposit with actorID := 2 } rfl (by decide +kernel)
    (.inr (.inl (by decide)))).mpr ?_
  rintro ⟨header, -⟩
  exact absurd header.actorID (by decide)

/-- A reversal that names its original without dashes and a journal with a note that is not UTF-8
are posted and conflict with themselves. A deposit in an unknown currency is not found where it
should conflict with the deposit under its key. -/
theorem postJournal_replay_fails :
    (postJournal Sample.config .tx (Sample.env 6) Sample.deposited
      Sample.bareReversal).isOk = true ∧
    (postJournal Sample.config .tx (Sample.env 7)
      (Sample.postedAs 6 Sample.deposited Sample.bareReversal) Sample.bareReversal).map
        Prod.snd = .error ⟨.conflict, "postgres: post journal: idempotency key %q payload mismatch"⟩ ∧
    (postJournal Sample.config .tx (Sample.env 5) Sample.store Sample.latin).isOk = true ∧
    (postJournal Sample.config .tx (Sample.env 6) (Sample.postedAs 5 Sample.store Sample.latin)
      Sample.latin).map Prod.snd =
      .error ⟨.conflict, "postgres: post journal: idempotency key %q payload mismatch"⟩ ∧
    Sample.elsewhere.validate Sample.config.decodeQuotes (Sample.env 6).now = .ok () ∧
    (postJournal Sample.config .tx (Sample.env 6) Sample.deposited Sample.elsewhere).map Prod.snd =
      .error ⟨.notFound, "postgres: currency %q"⟩ :=
  ⟨by decide +kernel, by decide +kernel, by decide +kernel, by decide +kernel,
    by decide +kernel, by decide +kernel⟩

end Ledger.Postgres
