import Ledger.Postgres.SignedJournals
import Ledger.Service.AttestationSpec

namespace Ledger.Attested

open Ledger.Core Postgres Shared

/-- A journal whose rows give exactly what the attestor signed. -/
structure Intact (hash : DigestPayload → GoString) (sign : Attestor) (s : Store)
    (journalID : Nat) (m : JournalAuthMaterial) :
    Prop where
  material : journalAuthMaterial s journalID = .ok (some m)
  content : canonicalJournalDigest hash m.input m.effectiveAt = .ok m.authDigest
  signed : sign m.authDigest = .ok (m.authSignature, m.authKeyID)

section

variable {s : Store} {ids : List Nat} {found : List (Nat × JournalAuthMaterial)} {id : Nat}
  {m : JournalAuthMaterial}

theorem fetchJournalAuthMaterial_lookup (fetched : fetchJournalAuthMaterial s ids = .ok found)
    (member : id ∈ ids)
    (material : journalAuthMaterial s id = .ok (some m)) : found.lookup id = some m := by
  simp only [fetchJournalAuthMaterial, bind_eq_ok, pure_eq_ok, collect_eq_ok, map_eq_ok] at fetched
  obtain ⟨rows, reads, rfl⟩ := fetched
  induction reads with
  | nil => cases member
  | @cons id' row ids' rows' head _ ih =>
    obtain ⟨m', read, rfl⟩ := head
    by_cases same : id = id'
    · subst same
      rw [material] at read
      cases read
      change List.lookup id ((id, m) :: rows'.reduceOption) = some m
      rw [List.lookup_cons_self]
    · have later := ih ((List.mem_cons.mp member).resolve_left same)
      have differ : (id == id') = false := by simpa using same
      cases m' with
      | none => exact later
      | some m' =>
        change List.lookup id ((id', m') :: rows'.reduceOption) = some m
        rw [List.lookup_cons, differ]
        exact later

theorem fetchJournalAuthMaterial_isOk (s : Store) (ids : List Nat)
    (materials : ∀ id ∈ ids, ∃ m, journalAuthMaterial s id = .ok m) :
    ∃ found, fetchJournalAuthMaterial s ids = .ok found := by
  simp only [fetchJournalAuthMaterial, bind_eq_ok, pure_eq_ok]
  have collected := (collect_isOk_iff (f := fun id =>
    (fun m => m.map (id, ·)) <$> journalAuthMaterial s id)).mpr fun id member => by
    obtain ⟨m, read⟩ := materials id member
    exact ⟨m.map (id, ·), by rw [read]; rfl⟩
  obtain ⟨rows, reads⟩ := collected
  exact ⟨rows.reduceOption, rows, reads, rfl⟩

theorem lookup_cast (found : List (Nat × JournalAuthMaterial)) (id : Nat) :
    (found.map fun (id, m) => ((id : Int), m)).lookup (id : Int) = found.lookup id := by
  induction found with
  | nil => rfl
  | cons head rest ih =>
    obtain ⟨id', m⟩ := head
    by_cases same : id = id'
    · simp [same]
    · have differ : (id == id') = false := by simpa using same
      have differ' : ((id : Int) == id') = false := by simpa using same
      rw [List.map_cons, List.lookup_cons, List.lookup_cons, differ, differ', ih]

theorem World.journalAuthMaterial_lookup {w : World} {ids : List Int}
    {found : List (Int × JournalAuthMaterial)}
    (fetched : w.journalAuthMaterial ids = .ok found) (member : (id : Int) ∈ ids)
    (material : Postgres.journalAuthMaterial w.store id = .ok (some m)) :
    found.lookup (id : Int) = some m := by
  simp only [World.journalAuthMaterial, bind_eq_ok, pure_eq_ok] at fetched
  obtain ⟨rows, reads, rfl⟩ := fetched
  rw [lookup_cast]
  exact fetchJournalAuthMaterial_lookup reads (List.mem_map.mpr ⟨_, member, rfl⟩) material

theorem World.journalAuthMaterial_isOk (w : World) (ids : List Int)
    (materials : ∀ i ∈ ids, ∃ m, Postgres.journalAuthMaterial w.store i.toNat = .ok m) :
    ∃ found, w.journalAuthMaterial ids = .ok found := by
  have fetched := fetchJournalAuthMaterial_isOk w.store (ids.map Int.toNat) fun id member => by
    obtain ⟨i, inside, rfl⟩ := List.mem_map.mp member
    exact materials i inside
  obtain ⟨rows, reads⟩ := fetched
  exact ⟨rows.map fun (id, m) => ((id : Int), m), by simp [World.journalAuthMaterial, reads]⟩

end

section

variable {hash : DigestPayload → GoString} {sign : Attestor}
  {verify verify' : AuthVerifier} {s : Store}
  {m : JournalAuthMaterial}

theorem Intact.verify_iff {id : Nat} (intact : Intact hash sign s id m)
    (nonempty : ∀ payload, hash payload ≠ [])
    (paired : Paired sign verify') : m.verify hash verify = .ok () ↔
    verify m.authDigest m.authSignature m.authKeyID = .ok () := by
  obtain ⟨present, keyed, -⟩ := paired _ _ _ intact.signed
  have digest : m.authDigest ≠ [] := by
    obtain ⟨entries, -, same⟩ := canonicalJournalDigest_eq_ok.mp intact.content
    rw [← same]
    exact nonempty _
  rw [JournalAuthMaterial.verify, verifyJournalAuth_eq_ok]
  exact ⟨fun h => h.2.2.2.2, fun accepted => ⟨digest, intact.content, present, keyed, accepted⟩⟩

theorem Intact.verdict {id : Nat} (intact : Intact hash sign s id m)
    (nonempty : ∀ payload, hash payload ≠ [])
    (paired : Paired sign verify') {found : List (Int × JournalAuthMaterial)}
    (lookup : found.lookup (id : Int) = some m) : verdictFor hash verify found id =
      if verify m.authDigest m.authSignature m.authKeyID = .ok () then .authorized
      else .unauthorized := by
  have answered : (m.verify hash verify).isOk = true ↔
    verify m.authDigest m.authSignature m.authKeyID = .ok () := by
    rw [← intact.verify_iff nonempty paired, isOk_iff]
    exact ⟨fun ⟨_, ok⟩ => ok, fun ok => ⟨(), ok⟩⟩
  simp only [verdictFor, lookup, answered]

variable {entries : List AttestedEntry}

theorem mem_distinctJournals {id : Int} :
    id ∈ distinctJournals entries ↔ ∃ e ∈ entries, e.journalID = id := by
  rw [distinctJournals, mem_firstSeen, List.mem_map]

theorem computeAuthVerdicts_ok {w : World} {verdicts : List JournalAuthVerdict}
    (ok : computeAuthVerdicts hash verify w entries = .ok verdicts) :
    ∃ found, verdicts = entries.map (fun e => verdictFor hash verify found e.journalID) ∧
      ∀ id m, (∃ e ∈ entries, e.journalID = (id : Nat)) → journalAuthMaterial w.store id = .ok (some m) →
        found.lookup (id : Int) = some m := by
  simp only [computeAuthVerdicts, bind_eq_ok, pure_eq_ok] at ok
  obtain ⟨found, fetched, rfl⟩ := ok
  refine ⟨found, rfl, fun id m inside material => ?_⟩
  have member := mem_distinctJournals.mpr inside
  rw [verdictMaterial, if_neg (List.ne_nil_of_mem member), within_eq_ok] at fetched
  exact World.journalAuthMaterial_lookup fetched member material

theorem Attests.row_iff {sha256 : GoString → GoString} {now : Int} {latest : Option Attestation}
    {verdict : AttestedEntry → JournalAuthVerdict} {a : Attestation} {rows : List CoverageRow}
    (attests : Attests sha256 sign now latest ⟨entries, some (entries.map verdict)⟩ a rows)
    (id : Int) (v : JournalAuthVerdict) :
    (∃ c ∈ rows, c.entryID = id ∧ c.authVerdict = v) ↔ ∃ e ∈ entries, e.entryID =
    id ∧ verdict e = v := by
  have columns : rows.map (fun c => (c.entryID, c.seq, c.authVerdict)) =
      entries.map fun e => (e.entryID, a.seq, verdict e) := by
    have zipped : entries.zip (entries.map verdict) = entries.map fun e => (e, verdict e) := by
      conv_lhs => rw [← List.map_id' entries]
      rw [List.map_map, List.zip_map']
      rfl
    rw [attests.covers]
    simp only [Option.getD_some, zipped, List.map_map]
    rfl
  have memberOf : (id, a.seq, v) ∈ rows.map (fun c => (c.entryID, c.seq, c.authVerdict)) ↔
      (id, a.seq, v) ∈ entries.map fun e => (e.entryID, a.seq, verdict e) := by rw [columns]
  rw [List.mem_map, List.mem_map] at memberOf
  constructor
  · rintro ⟨c, member, rfl, rfl⟩
    obtain ⟨e, inside, same⟩ := memberOf.mp ⟨c, member, by rw [attests.seqs c member]⟩
    simp only [Prod.mk.injEq, true_and] at same
    exact ⟨e, inside, same⟩
  · rintro ⟨e, inside, rfl, rfl⟩
    obtain ⟨c, member, same⟩ := memberOf.mpr ⟨e, inside, rfl⟩
    simp only [Prod.mk.injEq] at same
    exact ⟨c, member, same.1, same.2.2⟩

end

def InBatch (w : World) (batchSize : Nat) (e : EntryRow) : Prop :=
  e ∈ w.store.ledger.entries ∧ attestedRow e ∈ w.tables.uncoveredRows batchSize

def Records (w w' : World) (e : EntryRow) (verdict : JournalAuthVerdict) : Prop :=
  ∃ c ∈ w'.coverage, c ∉ w.coverage ∧ c.entryID = e.id ∧ c.authVerdict = verdict

/-- The verifier accepts the journal's signature; an outage or an unknown key is an error like any
other. -/
def Answers (verify : AuthVerifier) (s : Store) (journalID : Nat) : Prop :=
  ∀ m, journalAuthMaterial s journalID = .ok (some m) →
    verify m.authDigest m.authSignature m.authKeyID = .ok ()

section

variable {sha256 : GoString → GoString} {hash : DigestPayload → GoString} {sign : Attestor}
  {verify verify' : AuthVerifier}
  {now : Int} {batchSize : Nat} {w w' : World} {a : Attestation}

theorem inBatch_of_mem {u : AttestedRow} (member : u ∈ w.tables.uncoveredRows batchSize) :
    ∃ e, InBatch w batchSize e ∧ attestedRow e = u := by
  obtain ⟨e, inside, rfl⟩ := List.mem_map.mp (mem_uncoveredRows member).1
  exact ⟨e, ⟨inside, member⟩, rfl⟩

variable {entries : List AttestedEntry}

theorem inBatch_of_read {x : AttestedEntry}
    (read : collect AttestedRow.read (w.tables.uncoveredRows batchSize) = .ok entries)
    (member : x ∈ entries) :
    ∃ e, InBatch w batchSize e ∧ x.entryID = e.id ∧ x.journalID = e.journal := by
  obtain ⟨u, inside, holds⟩ := forall₂_of_mem_right (collect_eq_ok.mp read) member
  obtain ⟨e, inBatch, rfl⟩ := inBatch_of_mem inside
  obtain ⟨micros, -, rfl⟩ := read_eq_ok.mp holds
  exact ⟨e, inBatch, rfl, rfl⟩

theorem runAttestBatch_records (nodup : (w.store.ledger.entries.map (·.id)).Nodup)
    (ok : runAttestBatch sha256 hash (some verify) sign now batchSize w w w w = .ok (w', a)) :
    ∃ found : List (Int × JournalAuthMaterial),
    (∀ e m, InBatch w batchSize e → journalAuthMaterial w.store e.journal = .ok (some m) →
        found.lookup (e.journal : Int) = some m) ∧
      (∀ e verdict, InBatch w batchSize e →
        (Records w w' e verdict ↔ verdictFor hash verify found e.journal = verdict)) ∧
      (∀ c ∈ w'.coverage, c ∈ w.coverage ∨ ∃ e, InBatch w batchSize e ∧ c.entryID = e.id ∧
        Records w w' e c.authVerdict) := by
  obtain ⟨latest, entries, verdicts, rows, -, read, judged, attests, inserted, rfl⟩ :=
    runAttestBatch_ok ok
  simp only [batchVerdicts, map_eq_ok, within_eq_ok] at judged
  obtain ⟨verdicts, computed, rfl⟩ := judged
  obtain ⟨found, rfl, lookups⟩ := computeAuthVerdicts_ok computed
  have uncovered := (insertAttestation_eq_ok.mp inserted).2.1
  have reads := collect_eq_ok.mp read
  have entryOf : ∀ e, InBatch w batchSize e → ∃ x ∈ entries, x.entryID = e.id ∧
    x.journalID = e.journal := by
    intro e inside
    obtain ⟨x, member, holds⟩ := forall₂_of_mem_right reads.flip inside.2
    obtain ⟨micros, -, rfl⟩ := read_eq_ok.mp holds
    exact ⟨_, member, rfl, rfl⟩
  have fresh : ∀ c ∈ rows, c ∉ w.coverage := by
    intro c member old
    have free := uncovered c member
    rw [AttestedTables.covered, List.any_eq_false] at free
    exact free c old (by simp)
  have sameEntry : ∀ e e', InBatch w batchSize e → InBatch w batchSize e' → e.id = e'.id → e = e' :=
    fun e e' left right same => List.inj_on_of_nodup_map nodup left.1 right.1 same
  have recordsIff : ∀ e verdict, InBatch w batchSize e →
      (Records w { w with coverage := w.coverage ++ rows, attestations := w.attestations ++ [a] } e verdict ↔
        verdictFor hash verify found e.journal = verdict) := by
    intro e verdict inside
    have rowIff := attests.row_iff e.id verdict
    constructor
    · rintro ⟨c, member, new, id, rfl⟩
      have inRows := (List.mem_append.mp member).resolve_left new
      obtain ⟨x, member, sameID, same⟩ := rowIff.mp ⟨c, inRows, id, rfl⟩
      obtain ⟨e', inside', id', journal⟩ := inBatch_of_read read member
      have equal : e = e' := sameEntry e e' inside inside' (by exact_mod_cast sameID.symm.trans id')
      rw [← same, journal, equal]
    · intro same
      obtain ⟨x, member, id, journal⟩ := entryOf e inside
      obtain ⟨c, inRows, id', verdict'⟩ := rowIff.mpr ⟨x, member, id, by rw [journal, same]⟩
      exact ⟨c, List.mem_append_right _ inRows, fresh c inRows, id', verdict'⟩
  refine ⟨found, ?_, recordsIff, ?_⟩
  · intro e m inside material
    obtain ⟨x, member, -, journal⟩ := entryOf e inside
    exact lookups e.journal m ⟨x, member, journal⟩ material
  · intro c member
    rcases List.mem_append.mp member with old | new
    · exact .inl old
    · obtain ⟨x, inside, id, -⟩ := (attests.row_iff _ _).mp ⟨c, new, rfl, rfl⟩
      obtain ⟨e, inBatch, id', -⟩ := inBatch_of_read read inside
      have same : c.entryID = e.id := by rw [← id, id']
      exact .inr ⟨e, inBatch, same, c, member, fresh c new, same, rfl⟩

theorem verdictFor_authorized {s : Store} (verify : AuthVerifier)
    (found : List (Int × JournalAuthMaterial))
    (nonempty : ∀ payload, hash payload ≠ []) (paired : Paired sign verify')
    (rowOf : ∀ x ∈ entries, ∃ e : EntryRow, x.journalID = e.journal ∧
      (∃ m, Intact hash sign s e.journal m) ∧ Answers verify s e.journal)
    (lookups : ∀ id m, (∃ e ∈ entries, e.journalID = (id : Nat)) →
      journalAuthMaterial s id = .ok (some m) →
      found.lookup (id : Int) = some m) : ∀ x ∈ entries, verdictFor hash verify found x.journalID =
      .authorized := by
  intro x member
  obtain ⟨e, journal, ⟨m, intact⟩, answers⟩ := rowOf x member
  have lookup := lookups e.journal m ⟨x, member, journal⟩ intact.material
  rw [journal, intact.verdict nonempty paired lookup, if_pos (answers m intact.material)]

theorem verdictReasons_of_authorized {keys : Keys} {found : List (Int × JournalAuthMaterial)}
    (live : ∀ x ∈ entries, verdictFor keys.hash keys.verify found x.journalID = .authorized)
    (digest : authVerdictDigest keys.sha256 entries (entries.map fun _ => .authorized) =
      .ok a.authVerdictDigest) :
    verdictReasons keys a entries (.ok found) = [] := by
  have verdicts : entries.map (fun e => verdictFor keys.hash keys.verify found e.journalID) =
    entries.map fun _ => .authorized :=
    List.map_congr_left live
  have clean : ((distinctJournals entries).any fun id => verdictFor keys.hash keys.verify found id =
    .unauthorized) = false := by
    rw [List.any_eq_false]
    intro id member
    obtain ⟨x, inside, rfl⟩ := mem_distinctJournals.mp member
    simp [live x inside]
  simp only [verdictReasons, verdicts, digest, clean, reasonIf]
  simp

theorem verdictReasons_nil (nonempty : ∀ payload, hash payload ≠ []) (paired : Paired sign verify')
    (nodup : (w.store.ledger.entries.map (·.id)).Nodup)
    (references : ∀ c ∈ w.coverage, ∃ b ∈ w.attestations, b.seq = c.seq)
    (ok : runAttestBatch sha256 hash (some verify) sign now batchSize w w w w = .ok (w', a))
    (intact : ∀ e, InBatch w batchSize e → ∃ m, Intact hash sign w.store e.journal m)
    (answers : ∀ e, InBatch w batchSize e → Answers verify w.store e.journal) :
    ∃ entries, w'.tables.entriesForAttestation a.seq = .ok entries ∧
      verdictReasons ⟨sha256, hash, verify'⟩ a entries
      (w'.journalAuthMaterial (distinctJournals entries)) = [] := by
  obtain ⟨latest, entries, verdicts, rows, -, read, judged, attests, inserted, rfl⟩ :=
    runAttestBatch_ok ok
  simp only [batchVerdicts, map_eq_ok, within_eq_ok] at judged
  obtain ⟨verdicts, computed, rfl⟩ := judged
  obtain ⟨found, rfl, lookups⟩ := computeAuthVerdicts_ok computed
  have fresh : ∀ c ∈ w.tables.coverage, c.seq ≠ a.seq := by
    intro c member same
    obtain ⟨b, inside, seq⟩ := references c member
    exact (insertAttestation_eq_ok.mp inserted).1 b inside (seq.trans same)
  have covers := attests.insert_covers (fun u member => (mem_uncoveredRows member).1)
    (uncoveredRows_sorted (tables_nodup nodup) batchSize) read fresh inserted
  refine ⟨entries, ?_, ?_⟩
  · rw [AttestedTables.entriesForAttestation, covers.batchRows (tables_nodup nodup), within_eq_ok]
    exact read
  -- Both readings of the material judge every journal authorized, so both digests are over one
  -- list.
  have then_ := verdictFor_authorized verify found nonempty paired
    (fun x member => by
      obtain ⟨e, inBatch, -, journal⟩ := inBatch_of_read read member
      exact ⟨e, journal, intact e inBatch, answers e inBatch⟩) lookups
  have fetched := World.journalAuthMaterial_isOk w (distinctJournals entries) fun i member => by
    obtain ⟨x, inside, rfl⟩ := mem_distinctJournals.mp member
    obtain ⟨e, inBatch, -, journal⟩ := inBatch_of_read read inside
    obtain ⟨m, whole⟩ := intact e inBatch
    exact ⟨some m, by rw [journal]; exact whole.material⟩
  obtain ⟨found', reads⟩ := fetched
  have now_ := verdictFor_authorized verify' found' nonempty paired
    (fun x member => by
      obtain ⟨e, inBatch, -, journal⟩ := inBatch_of_read read member
      obtain ⟨m, whole⟩ := intact e inBatch
      refine ⟨e, journal, ⟨m, whole⟩, fun m' material => ?_⟩
      have same : m = m' := by simpa [whole.material] using material
      rw [← same]
      exact (paired _ _ _ whole.signed).2.2)
    (fun id m inside material => World.journalAuthMaterial_lookup reads
      (mem_distinctJournals.mpr inside) material)
  have material : World.journalAuthMaterial
    { w with coverage := w.coverage ++ rows, attestations := w.attestations ++ [a] }
      (distinctJournals entries) = .ok found' := reads
  rw [material]
  refine verdictReasons_of_authorized now_ ?_
  rw [← List.map_congr_left then_]
  exact attests.verdictDigest _ rfl

theorem verifyJournalsNaively_ok (ids : List Nat) (nonempty : ∀ payload, hash payload ≠ [])
    (paired : Paired sign verify')
    (intact : ∀ id ∈ ids, ∃ m, Intact hash sign w.store id m) :
    verifyJournalsNaively hash verify' w ids = .ok () := by
  obtain ⟨found, fetched⟩ := fetchJournalAuthMaterial_isOk w.store ids fun id member => by
    obtain ⟨m, whole⟩ := intact id member
    exact ⟨some m, whole.material⟩
  simp only [verifyJournalsNaively, bind_eq_ok, within_eq_ok, checkAll_eq_ok, orError_eq_ok]
  refine ⟨found, fetched, fun id member => ?_⟩
  obtain ⟨m, whole⟩ := intact id member
  exact ⟨m, fetchJournalAuthMaterial_lookup fetched member whole.material,
    (whole.verify_iff nonempty paired).mpr (paired _ _ _ whole.signed).2.2⟩

theorem verifiedBalance_isOk (nonempty : ∀ payload, hash payload ≠ [])
    (paired : Paired sign verify') {holder : Int}
    {currencyUID classificationUID : GoString} {cur : CurrencyRow} {cls : ClassificationRow}
    (currency : w.store.currencyByUIDOrErr currencyUID = .ok cur)
    (class_ : w.store.classByUIDOrErr classificationUID = .ok cls)
    (intact : ∀ e ∈ w.store.ledger.dimEntries ⟨holder, cur.id, cls.id⟩, ∃ m,
      Intact hash sign w.store e.journal m)
    (cached : ∀ e ∈ w.store.ledger.dimEntries ⟨holder, cur.id, cls.id⟩, ∀ c ∈
      w.coverage, c.entryID = e.id →
      c.authVerdict ≠ .unauthorized) : verifiedBalance hash (some verify') w holder
      currencyUID classificationUID =
      .ok (numericToDecimal (recomputeFromEntries w.store.ledger cls.normalSide
        ⟨holder, cur.id, cls.id⟩)) := by
  have allowed : (contributingVerdicts w ⟨holder, cur.id, cls.id⟩).all
    (·.2 ≠ .unauthorized) = true := by
    rw [List.all_eq_true]
    intro row member
    obtain ⟨e, inside, rfl⟩ := List.mem_map.mp member
    cases found : w.coverage.find? (·.entryID == (e.id : Int)) with
    | none => simp
    | some c =>
      have id : c.entryID = e.id := by simpa using List.find?_some found
      simpa [found] using cached e inside c (List.mem_of_find?_eq_some found) id
  have live := verifyJournalsNaively_ok
    (firstSeen ((contributingVerdicts w ⟨holder, cur.id, cls.id⟩).map Prod.fst))
    nonempty paired fun id member => by
      rw [mem_firstSeen, contributingVerdicts, List.map_map, List.mem_map] at member
      obtain ⟨e, inside, rfl⟩ := member
      exact intact e inside
  simp only [verifiedBalance, currency, class_, ok_bind, allowed, require, if_true, orError, live]
  split <;> rfl

/-- One run of `RunAttestBatch` over entries of intact journals. It records such a journal
unauthorized exactly if the verifier did not accept its signature at that moment. And it leaves the
batch sound, with no entry recorded unauthorized, every balance over intact journals defined that
was not spoilt before, and no verdict finding for `VerifyLedger` under a verifier that answers,
exactly if the verifier accepted every journal of the batch when it was attested. -/
theorem verdicts_follow_verifier_iff (nonempty : ∀ payload, hash payload ≠ [])
    (paired : Paired sign verify')
    (nodup : (w.store.ledger.entries.map (·.id)).Nodup)
    (references : ∀ c ∈ w.coverage, ∃ b ∈ w.attestations, b.seq = c.seq)
    (ok : runAttestBatch sha256 hash (some verify) sign now batchSize w w w w = .ok (w', a)) :
    (∀ e m, InBatch w batchSize e → Intact hash sign w.store e.journal m →
      (Records w w' e .unauthorized ↔ verify m.authDigest m.authSignature m.authKeyID ≠ .ok ())) ∧
    ((∀ e, InBatch w batchSize e → ∃ m, Intact hash sign w.store e.journal m) →
      ((∀ e, InBatch w batchSize e → ¬Records w w' e .unauthorized) ∧
        (∀ holder currencyUID classificationUID cur cls, w.store.currencyByUIDOrErr currencyUID = .ok cur →
          w.store.classByUIDOrErr classificationUID = .ok cls →
          (∀ e ∈ w.store.ledger.dimEntries ⟨holder, cur.id, cls.id⟩, (∃ m, Intact hash sign w.store e.journal m) ∧
            ∀ c ∈ w.coverage, c.entryID = e.id → c.authVerdict ≠ .unauthorized) →
          (verifiedBalance hash (some verify') w' holder currencyUID classificationUID).isOk = true) ∧
        (∃ entries, w'.tables.entriesForAttestation a.seq = .ok entries ∧
          verdictReasons ⟨sha256, hash, verify'⟩ a entries (w'.journalAuthMaterial (distinctJournals entries)) = []) ↔
      ∀ e, InBatch w batchSize e → Answers verify w.store e.journal)) := by
  obtain ⟨found, lookups, records, coverage⟩ := runAttestBatch_records nodup ok
  have store : w'.store = w.store := by
    obtain ⟨_, _, _, _, -, -, -, -, -, rfl⟩ := runAttestBatch_ok ok
    rfl
  have unauthorized : ∀ e m, InBatch w batchSize e → Intact hash sign w.store e.journal m →
      (Records w w' e .unauthorized ↔ verify m.authDigest m.authSignature m.authKeyID ≠ .ok ()) := by
    intro e m inside intact
    rw [records e _ inside, intact.verdict nonempty paired (lookups e m inside intact.material)]
    split
    · next accepted => simp [accepted]
    · next refused => simp [refused]
  refine ⟨unauthorized, fun intact => ⟨?_, fun answers => ⟨?_, ?_, ?_⟩⟩⟩
  · rintro ⟨never, -, -⟩ e inside m material
    obtain ⟨m', whole⟩ := intact e inside
    have same : m' = m := by simpa [whole.material] using material
    by_contra refused
    exact never e inside ((unauthorized e m' inside whole).mpr (by rw [same]; exact refused))
  · intro e inside recorded
    obtain ⟨m, whole⟩ := intact e inside
    exact (unauthorized e m inside whole).mp recorded (answers e inside m whole.material)
  · intro holder currencyUID classificationUID cur cls currency class_ sound
    have defined := @verifiedBalance_isOk hash sign verify' w' nonempty paired holder _ _ cur cls
      (by rw [store]; exact currency) (by rw [store]; exact class_)
      (by rw [store]; exact fun e inside => (sound e inside).1)
      (by
        rw [store]
        intro e inside c member id recorded
        rcases coverage c member with old | ⟨e', inBatch, id', new⟩
        · exact (sound e inside).2 c old id recorded
        · rw [recorded] at new
          obtain ⟨m, whole⟩ := intact e' inBatch
          exact (unauthorized e' m inBatch whole).mp new (answers e' inBatch m whole.material))
    rw [defined]
    rfl
  · exact verdictReasons_nil nonempty paired nodup references ok intact answers

end

namespace Sample

def attested : World := ⟨Postgres.Sample.signedDeposit, [], [], [], (0, [])⟩

def checksum (s : GoString) : GoString :=
  be 32 (s.foldl (fun sum b => (sum * 257 + b.val + 1) % 2 ^ 256) 0)

def outage : AuthVerifier := fun _ _ _ => .error ⟨.other, "dial tcp: connection refused"⟩

def attestWith (verify : AuthVerifier) : Result (World × Attestation) :=
  runAttestBatch checksum Postgres.Sample.signing.hash (some verify) ReserverSample.signer 6000 100
    attested attested attested attested

def blank : Attestation := ⟨0, 0, [], [], [], [], [], [], [], none⟩

@[irreducible] def batch : World × Attestation := okOr (attested, blank)
    (attestWith ReserverSample.verifier)

theorem attest_batch : attestWith ReserverSample.verifier = .ok batch := by
  have ok : (attestWith ReserverSample.verifier).isOk = true := by decide +kernel
  unfold batch
  exact eq_ok_of_isOk ok _

def reportOn (w : World) (a : Attestation) : VerifyReport :=
  verifyLedger World.ports
    (fun _ => { w with anchor := (a.seq, a.rootHash), observations := [a.seq] })
    ⟨checksum, Postgres.Sample.signing.hash, ReserverSample.verifier⟩ defaultVerifyConfig 7000 5

theorem store_entries : (attested.store.ledger.entries.map (·.id)).Nodup := by decide +kernel

end Sample

theorem verdicts_follow_verifier_deposit :
    ∃ w' a e, Sample.attestWith ReserverSample.verifier = .ok (w', a) ∧
    InBatch Sample.attested 100 e ∧ ¬Records Sample.attested w' e .unauthorized := by
  have attests : (Sample.attestWith ReserverSample.verifier).isOk = true := by decide +kernel
  cases ok : Sample.attestWith ReserverSample.verifier with
  | error err =>
    rw [ok] at attests
    cases attests
  | ok r =>
    have inside : ∃ e ∈ Sample.attested.store.ledger.entries, attestedRow e ∈
      Sample.attested.tables.uncoveredRows 100 ∧
        ∃ m ∈ (okOr none (journalAuthMaterial Sample.attested.store e.journal)),
          journalAuthMaterial Sample.attested.store e.journal = .ok (some m) ∧
          canonicalJournalDigest Postgres.Sample.signing.hash m.input m.effectiveAt = .ok m.authDigest ∧
          ReserverSample.signer m.authDigest = .ok (m.authSignature, m.authKeyID) := by decide +kernel
    obtain ⟨e, stored, uncovered, m, -, material, content, signed⟩ := inside
    have intact : Intact Postgres.Sample.signing.hash ReserverSample.signer
      Sample.attested.store e.journal m :=
      ⟨material, content, signed⟩
    refine ⟨r.1, r.2, e, rfl, ⟨stored, uncovered⟩, fun recorded => ?_⟩
    exact ((verdicts_follow_verifier_iff (fun _ => List.cons_ne_nil _ _) Postgres.Sample.paired
      Sample.store_entries (by simp [Sample.attested]) ok).1 e m ⟨stored, uncovered⟩ intact).mp recorded
        (Postgres.Sample.paired _ _ _ signed).2.2

/-- The deposit's batch attested during an outage of the verifier. Its signature is genuine, both
its entries are recorded unauthorized, and with the verifier back the balance stays undefined and
`VerifyLedger` reports tampering. -/
theorem outage_recorded_as_unauthorized : (journalAuthMaterial Sample.attested.store 1).map
    (fun found => found.map fun m =>
        m.verify Postgres.Sample.signing.hash ReserverSample.verifier) = .ok (some (.ok ())) ∧
      (Sample.attestWith Sample.outage).map (fun r => (r.1.coverage.map (·.authVerdict),
        verifiedBalance Postgres.Sample.signing.hash (some ReserverSample.verifier) r.1 7 (Postgres.Sample.uid 3).print
          (Postgres.Sample.uid 1).print, (Sample.reportOn r.1 r.2).status)) =
        .ok ([.unauthorized, .unauthorized],
          .error ⟨.unauthorizedJournal,
          "postgres: verified balance: journal id %d: cached attestation verdict is unauthorized"⟩,
          .tampered) :=
  ⟨by decide +kernel, by decide +kernel⟩

end Ledger.Attested
