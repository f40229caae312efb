import Ledger.Postgres.Replay
import Ledger.Service.AttestationRuns
import Ledger.Service.VerdictHealth

namespace Ledger.Attested

open Ledger.Core Postgres Shared

def Posts (cfg : Config) (sign : Attestor) (s s' : Store) : Prop :=
  ∃ env input j, postJournal cfg (.pool (some sign)) env s input = .ok (s', j) ∧
    canonicalUID input.reversalOfUID = input.reversalOfUID

structure Extends (s s' : Store) : Prop where
  later : Later s s'
  uids : ∀ uid j, s.getJournalByUID uid = some j → s'.getJournalByUID uid = some j
  entries : s.ledger.entries <+: s'.ledger.entries
  currencies : s'.currencies = s.currencies
  classifications : s'.ledger.classifications = s.ledger.classifications
  journalTypes : s'.journalTypes = s.journalTypes

theorem Extends.refl (s : Store) : Extends s s :=
  ⟨.refl s, fun _ _ h => h, List.prefix_rfl, rfl, rfl, rfl⟩

variable {s s' : Store}

theorem Extends.trans {s'' : Store} (first : Extends s s') (second : Extends s' s'') :
    Extends s s'' :=
  ⟨first.later.trans second.later, fun uid j found => second.uids uid j (first.uids uid j found),
    first.entries.trans second.entries,
    second.currencies.trans first.currencies, second.classifications.trans first.classifications,
    second.journalTypes.trans first.journalTypes⟩

structure Genuine (hash : DigestPayload → GoString) (sign : Attestor) (s : Store)
    (row : JournalRow) (m : JournalAuthMaterial)
    (j : Journal) (entries : List EntryInput) : Prop where
  member : row ∈ s.journals
  found : s.getJournalByID row.id = some row
  foundUID : s.getJournalByUID row.uid = some row
  signed : row.authStatus = .signed
  intact : Intact hash sign s row.id m
  read : journalFromRow s row = .ok j
  listed : collect (entryInputFromRow s) (s.listJournalEntries row.id) = .ok entries
  input : m.input = journalInputFromRecord j entries

theorem entryInputFromRow_extend (extends_ : Extends s s') : entryInputFromRow s' =
    entryInputFromRow s := by
  funext row
  simp only [entryInputFromRow, Store.currencyByIDOrErr, Store.classByIDOrErr,
    LedgerTables.getClassification, extends_.currencies,
    extends_.classifications]

variable {j : Journal}

theorem journalAuthMaterial_extend (extends_ : Extends s s') {row : JournalRow}
    (member : row ∈ s.journals)
    (found : s.getJournalByID row.id = some row) (read : journalFromRow s row = .ok j) :
    journalAuthMaterial s' row.id = journalAuthMaterial s row.id := by
  simp only [journalFromRow, bind_eq_ok] at read
  obtain ⟨jt, -, reversal, link, -⟩ := read
  have original : row.reversalOf.bind s'.getJournalByID = row.reversalOf.bind s.getJournalByID := by
    unfold reversalOfUID at link
    cases linked : row.reversalOf with
    | none => rfl
    | some id =>
      simp only [linked, bind_eq_ok, orError_eq_ok] at link
      obtain ⟨original, here, -⟩ := link
      rw [Option.bind_some, Option.bind_some, here, extends_.later.journals id original here]
  simp only [journalAuthMaterial, found, extends_.later.journals row.id row found,
    extends_.journalTypes,
    entryInputFromRow_extend extends_, extends_.later.entries row member, original]

theorem Genuine.extend {hash : DigestPayload → GoString} {sign : Attestor} {row : JournalRow}
    {m : JournalAuthMaterial}
    {entries : List EntryInput} (genuine : Genuine hash sign s row m j entries)
    (extends_ : Extends s s') :
    Genuine hash sign s' row m j entries where
  member := extends_.later.members row genuine.member
  found := extends_.later.journals row.id row genuine.found
  foundUID := extends_.uids row.uid row genuine.foundUID
  signed := genuine.signed
  intact := ⟨(journalAuthMaterial_extend extends_ genuine.member genuine.found genuine.read).trans
    genuine.intact.material,
    genuine.intact.content, genuine.intact.signed⟩
  read := journalFromRow_later extends_.later genuine.read
  listed := by
    rw [entryInputFromRow_extend extends_, extends_.later.entries row genuine.member]
    exact genuine.listed
  input := genuine.input

structure Honest (hash : DigestPayload → GoString) (sign : Attestor) (s : Store) : Prop where
  wired : Wired s
  keys : PrimaryKeys s
  ids : ∀ e ∈ s.ledger.entries, e.id < s.nextEntryID
  nodup : (s.ledger.entries.map (·.id)).Nodup
  owners : ∀ e ∈ s.ledger.entries, ∃ row ∈ s.journals, row.id = e.journal
  genuine : ∀ row ∈ s.journals, ∃ m j entries, Genuine hash sign s row m j entries

section

variable {cfg : Config} {sign : Attestor} {env : Env} {s s' : Store} {input : JournalInput}
  {effectiveAt : Instant}
  {auth : JournalAuth} {g : Gated} {row : JournalRow} {rows : List EntryRow}

section

variable (fresh : Fresh env s input effectiveAt auth g row rows s')
include fresh

theorem fresh_extends (wired : Wired s) : Extends s s' := by
  obtain ⟨currencies, classes, types⟩ := fresh.catalog_eq
  refine ⟨fresh.later wired, ?_, ?_, currencies, classes, types⟩
  · intro uid j found
    rw [Store.getJournalByUID, fresh.journals_eq, List.find?_append]
    exact Option.or_eq_some_iff.mpr (.inl found)
  · rw [fresh.entries_eq]
    exact List.prefix_append _ _

theorem fresh_genuine (wired : Wired s) (keys : PrimaryKeys s)
    (canonical : canonicalUID input.reversalOfUID = input.reversalOfUID)
    {digests : List DigestEntry} (digested : collect digestEntry input.entries = .ok digests)
    (digest : auth.digest = cfg.hash (payloadOf input effectiveAt digests))
    (signed : sign auth.digest = .ok (auth.signature, auth.keyID)) (status : auth.status = .signed)
    (read : journalFromRow s' row = .ok j) :
    ∃ m entries, Genuine cfg.hash sign s' row m j entries := by
  obtain ⟨m, material, stored⟩ := fresh.storedAs wired keys digested
  obtain ⟨entries, listed, input_⟩ := fresh.record_input wired read material
  have member : row ∈ s'.journals := by
    rw [fresh.journals_eq]
    simp
  have payload : payloadOf m.input m.effectiveAt digests = payloadOf input effectiveAt digests := by
    rw [stored.payload, canonical]
    rfl
  refine ⟨m, entries, member, fresh.getJournalByID_new wired, (fresh.wired wired).getJournalByUID
    member, ?_, ⟨material, ?_, ?_⟩, read,
    listed, input_⟩
  · rw [(insertJournal_ok fresh.journal).2.2.2.2]
    exact status
  · rw [canonicalJournalDigest_eq_ok]
    exact ⟨digests, stored.entries, by rw [payload, stored.digest, digest]⟩
  · rw [stored.digest, stored.signature, stored.keyID]
    exact signed

theorem fresh_entry_ids (ids : ∀ e ∈ s.ledger.entries, e.id < s.nextEntryID)
    (nodup : (s.ledger.entries.map (·.id)).Nodup) :
    (∀ e ∈ s'.ledger.entries, e.id < s'.nextEntryID) ∧ (s'.ledger.entries.map (·.id)).Nodup := by
  have next : s'.nextEntryID = s.nextEntryID + rows.length := by
    obtain ⟨_, _, rfl⟩ := fresh.appended
    rfl
  have new := insertEntries_ids fresh.entries
  rw [fresh.entries_eq, next]
  constructor
  · intro e member
    rcases List.mem_append.mp member with old | added
    · have := ids e old
      omega
    · exact (new e added).2
  · rw [List.map_append, List.nodup_append]
    refine ⟨nodup, ?_, ?_⟩
    · rw [insertEntries_range fresh.entries]
      exact List.nodup_range'
    · intro a old b added same
      obtain ⟨e, inside, rfl⟩ := List.mem_map.mp old
      obtain ⟨e', inside', rfl⟩ := List.mem_map.mp added
      have := ids e inside
      have := (new e' inside').1
      omega

end

theorem Honest.post (honest : Honest cfg.hash sign s) (posts : Posts cfg sign s s') :
    Honest cfg.hash sign s' ∧ Extends s s' := by
  obtain ⟨env, input, j, ok, canonical⟩ := posts
  by_cases unused : ∀ j ∈ s.journals, j.idempotencyKey ≠ input.idempotencyKey
  · obtain ⟨digests, auth, g, row, rows, digested, fresh, read, digest, signed, status⟩ :=
      postJournal_signed unused ok
    have wired := honest.wired
    have extends_ := fresh_extends fresh wired
    obtain ⟨currencies, classes, types⟩ := fresh.catalog_eq
    have entryIDs := fresh_entry_ids fresh honest.ids honest.nodup
    refine ⟨⟨fresh.wired wired, ⟨currencies ▸ honest.keys.currencies, classes ▸
      honest.keys.classifications,
      types ▸ honest.keys.journalTypes⟩, entryIDs.1, entryIDs.2, ?_, ?_⟩, extends_⟩
    · intro e member
      rw [fresh.entries_eq] at member
      rw [fresh.journals_eq]
      rcases List.mem_append.mp member with old | new
      · obtain ⟨row', inside, id⟩ := honest.owners e old
        exact ⟨row', List.mem_append_left _ inside, id⟩
      · exact ⟨row, by simp, (fresh.rows_journal e new).symm⟩
    · intro row' member
      rw [fresh.journals_eq] at member
      rcases List.mem_append.mp member with old | new
      · obtain ⟨m, j', entries, genuine⟩ := honest.genuine row' old
        exact ⟨m, j', entries, genuine.extend extends_⟩
      · obtain rfl := List.mem_singleton.mp new
        obtain ⟨m, entries, genuine⟩ := fresh_genuine fresh wired honest.keys canonical digested
          digest signed status read
        exact ⟨m, j, entries, genuine⟩
  · -- A replay writes nothing.
    simp only [postJournal, bind_eq_ok, within_eq_ok] at ok
    obtain ⟨_, -, auth, -, ok⟩ := ok
    rcases (postJournalWithQueries_ok ok).2 with ⟨existing, -, -, rfl⟩ | ⟨g, row, rows, fresh, -⟩
    · exact ⟨honest, .refl _⟩
    · exact absurd fresh.unused unused

end

end Ledger.Attested
