import Ledger.Postgres.Replay
import Ledger.Postgres.ReversalRuns
import Ledger.Postgres.SignedJournals

namespace Ledger.Postgres

open Ledger.Core Shared

structure Keyed (s : Store) : Prop where
  wired : Wired s
  primary : PrimaryKeys s
  events : (s.events.map (·.id)).Nodup

/-- What else the ledger does. Rows of the catalog and events are added and changed, but none loses
its id or uid, nor a currency its exponent. -/
structure Beside (s s' : Store) : Prop where
  elsewhere : Elsewhere s s'
  primary : PrimaryKeys s'
  eventKeys : (s'.events.map (·.id)).Nodup
  currencies : s.currencies.map (fun c => (c.id, c.uid, c.exponent)) <+: s'.currencies.map fun c =>
    (c.id, c.uid, c.exponent)
  classifications : s.ledger.classifications.map (fun c => (c.id, c.uid)) <+:
    s'.ledger.classifications.map fun c => (c.id, c.uid)
  journalTypes : s.journalTypes.map (fun t => (t.id, t.uid)) <+:
    s'.journalTypes.map fun t => (t.id, t.uid)
  events : s.events.map (fun e => (e.id, e.uid)) <+: s'.events.map fun e => (e.id, e.uid)

def LedgerStep (cfg : Config) (s s' : Store) : Prop :=
  (∃ env c j, Call.run cfg env s c = .ok (s', j)) ∨ Beside s s'

variable {s' s : Store}

theorem Beside.later (other : Beside s s') : Later s s' where
  keys key j found := by rw [other.elsewhere.journals]; exact found
  journals id j found := by rw [Store.getJournalByID, other.elsewhere.journals]; exact found
  members j member := by rw [other.elsewhere.journals]; exact member
  entries j _ := by rw [Store.listJournalEntries, other.elsewhere.entries, Store.listJournalEntries]
  currencies uid cur found := by
    simp only [Store.currencyByUIDOrErr, orError_eq_ok] at found ⊢
    obtain ⟨cur', found', same⟩ := find_of_prefix other.currencies
      (fun names => pgToUID names.2.1 == uid) found
    exact ⟨cur', found', congrArg Prod.fst same⟩
  classifications uid cls found := by
    simp only [Store.classByUIDOrErr, orError_eq_ok] at found ⊢
    obtain ⟨cls', found', same⟩ := find_of_prefix other.classifications
      (fun names => pgToUID names.2 == uid) found
    exact ⟨cls', found', congrArg Prod.fst same⟩
  types id jt found := by
    simp only [Store.jtByIDOrErr, orError_eq_ok] at found ⊢
    obtain ⟨jt', found', same⟩ := find_of_prefix other.journalTypes (fun names => names.1 == id) found
    exact ⟨jt', found', congrArg Prod.snd same⟩
  events id e found := by
    obtain ⟨e', found', same⟩ := find_of_prefix other.events (fun names => names.1 == id) found
    exact ⟨e', found', congrArg Prod.snd same⟩

section

variable {env : Env} {s s' : Store} {input : JournalInput} {effectiveAt : Instant}
  {auth : JournalAuth} {g : Gated}
  {row : JournalRow} {rows : List EntryRow}

theorem Fresh.found (fresh : Fresh env s input effectiveAt auth g row rows s') :
    s'.journals.find? (·.idempotencyKey == input.idempotencyKey) = some row := by
  have none_ : s.journals.find? (·.idempotencyKey == input.idempotencyKey) = none := by
    simpa using fresh.unused
  simp [fresh.journals_eq, List.find?_append, none_, fresh.row_key]

theorem Fresh.keyed (fresh : Fresh env s input effectiveAt auth g row rows s')
    (keyed : Keyed s) : Keyed s' := by
  obtain ⟨currencies, classes, types⟩ := fresh.catalog_eq
  refine ⟨fresh.wired keyed.wired, ⟨currencies ▸ keyed.primary.currencies, classes ▸
    keyed.primary.classifications,
    types ▸ keyed.primary.journalTypes⟩, ?_⟩
  have ids : s'.events.map (·.id) = s.events.map (·.id) := by
    have first := congrArg (List.map Prod.fst) fresh.events
    rw [List.map_map, List.map_map] at first
    exact first
  rw [ids]
  exact keyed.events

end

variable {cfg : Config}

theorem LedgerStep.keeps (step : LedgerStep cfg s s') (keyed : Keyed s) :
    Keyed s' ∧ Later s s' := by
  rcases step with ⟨env, c, j, ok⟩ | other
  · cases Call.outcome ok with
    | replay r member key linked same =>
      subst same
      exact ⟨keyed, .refl _⟩
    | fresh fresh valid key target remaining => exact ⟨fresh.keyed keyed, fresh.later keyed.wired⟩
  · exact ⟨⟨other.elsewhere.wired keyed.wired, other.primary, other.eventKeys⟩, other.later⟩

theorem keyed_preserved (cfg : Config) : Preserved (LedgerStep cfg) Keyed := fun _ _ keyed step =>
    (step.keeps keyed).1

theorem run_later (keyed : Keyed s) (run : Shared.Run (LedgerStep cfg) s s') : Later s s' :=
  (keyed_preserved cfg).run_rel Later .refl (fun _ _ _ => .trans)
    (fun _ _ keyed step => (step.keeps keyed).2) keyed run

end Ledger.Postgres
