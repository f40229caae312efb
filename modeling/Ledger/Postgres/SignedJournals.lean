import Ledger.Postgres.AuthMaterial
import Ledger.Postgres.DomainSeparation
import Ledger.Postgres.JournalTables
import Ledger.Postgres.SignedClaims

namespace Ledger.Postgres

open Ledger.Core Shared

structure PrimaryKeys (s : Store) : Prop where
  currencies : (s.currencies.map (·.id)).Nodup
  classifications : (s.ledger.classifications.map (·.id)).Nodup
  journalTypes : (s.journalTypes.map (·.id)).Nodup

def canonicalUID (uid : GoString) : GoString := if uid = [] then []
    else ((Uuid.parse uid).map Uuid.print).getD uid

def payloadOf (input : JournalInput) (effectiveAt : Instant) (entries : List DigestEntry) :
    DigestPayload :=
  { journalTypeUID := input.journalTypeUID
    idempotencyKey := input.idempotencyKey
    actorID := input.actorID
    source := input.source
    effectiveAt := toMicros effectiveAt
    reversalOfUID := input.reversalOfUID
    entries := entries.insertionSort fun a b => a.key ≤ b.key }

variable {hash : DigestPayload → GoString} {input : JournalInput} {effectiveAt : Instant}
  {digest : GoString} {row : JournalRow}

theorem canonicalJournalDigest_eq_ok : canonicalJournalDigest hash input effectiveAt = .ok digest ↔
      ∃ entries, collect digestEntry input.entries = .ok entries ∧
      hash (payloadOf input effectiveAt entries) = digest := by
  simp only [canonicalJournalDigest, bind_eq_ok, pure_eq_ok]
  rfl

theorem verifyJournalAuth_eq_ok {verify : AuthVerifier} {signature keyID : GoString} :
    verifyJournalAuth hash verify input effectiveAt digest signature keyID = .ok () ↔
      digest ≠ [] ∧ canonicalJournalDigest hash input effectiveAt = .ok digest ∧
      signature ≠ [] ∧ keyID ≠ [] ∧
        verify digest signature keyID = .ok () := by
  simp only [verifyJournalAuth, bind_eq_ok, within_eq_ok, require_eq_ok, decide_eq_true_eq]
  constructor
  · rintro ⟨_, present, recomputed, hashed, _, rfl, _, ⟨signed, keyed⟩, rest⟩
    refine ⟨present, hashed, signed, keyed, ?_⟩
    split at rest
    · next accepted => exact accepted
    · cases rest
  · rintro ⟨present, hashed, signed, keyed, accepted⟩
    refine ⟨(), present, digest, hashed, (), rfl, (), ⟨signed, keyed⟩, ?_⟩
    rw [accepted]
    rfl

variable {s s' : Store}

theorem Written.digestEntry {e : EntryInput} {r : EntryRow} {d : DigestEntry}
    (written : Written s row e r) (keys : PrimaryKeys s)
    (currencies : s'.currencies = s.currencies)
    (classes : s'.ledger.classifications = s.ledger.classifications)
    (digested : digestEntry e = .ok d) :
    ∃ e', entryInputFromRow s' r = .ok e' ∧ Core.digestEntry e' = .ok d := by
  obtain ⟨cur, currency, currencyID⟩ := written.currency
  obtain ⟨cls, class_, classID⟩ := written.classification
  obtain ⟨resolved, rowOf, rfl⟩ := written.rowOf
  simp only [Store.currencyByUIDOrErr, orError_eq_ok] at currency
  simp only [Store.classByUIDOrErr, orError_eq_ok] at class_
  have currencyUID : pgToUID cur.uid = resolved.input.currencyUID := by
    simpa using List.find?_some currency
  have classUID : pgToUID cls.uid = resolved.input.classificationUID := by
    simpa using List.find?_some class_
  have findCurrency : s'.currencyByIDOrErr r.dim.currency = .ok cur := by
    rw [Store.currencyByIDOrErr, currencies, currencyID, orError_eq_ok]
    exact find_of_nodup keys.currencies (List.mem_of_find?_eq_some currency)
  have findClass : s'.classByIDOrErr r.dim.classification = .ok cls := by
    rw [Store.classByIDOrErr, LedgerTables.getClassification, classes, classID, orError_eq_ok]
    exact find_of_nodup keys.classifications (List.mem_of_find?_eq_some class_)
  refine ⟨_, by simp only [entryInputFromRow, findCurrency, findClass, ok_bind]; rfl, ?_⟩
  -- What was encoded before and what is stored are the same number of units.
  simp only [Core.digestEntry, bind_eq_ok, within_eq_ok, pure_eq_ok] at digested ⊢
  obtain ⟨units, encoded, rfl⟩ := digested
  have same : r.amount = units := by
    rw [rowOf.amount]
    refine toUnits_of_val ?_
    rw [(encodeAmount_ok encoded).1]
    field_simp
  refine ⟨units, same ▸ encodeAmount_stored rowOf.fits, ?_⟩
  rw [written.holder, currencyUID, classUID, rowOf.entryType]

theorem collect_digestEntry_stored {entries : List EntryInput} {rows : List EntryRow}
    {digests : List DigestEntry}
    (written : List.Forall₂ (Written s row) entries rows) (keys : PrimaryKeys s)
    (currencies : s'.currencies = s.currencies)
    (classes : s'.ledger.classifications = s.ledger.classifications)
    (digested : collect digestEntry entries = .ok digests) :
    ∃ rebuilt, collect (fun e => within "postgres: journal auth material: journal %d"
      (entryInputFromRow s' e)) rows = .ok rebuilt ∧
      collect digestEntry rebuilt = .ok digests := by
  simp only [collect_eq_ok] at digested ⊢
  induction written generalizing digests with
  | nil =>
    cases digested
    exact ⟨[], .nil, .nil⟩
  | cons head _ ih =>
    cases digested with
    | cons first rest =>
      obtain ⟨e', read, same⟩ := head.digestEntry keys currencies classes first
      obtain ⟨rebuilt, reads, sames⟩ := ih rest
      exact ⟨e' :: rebuilt, .cons (within_eq_ok.mpr read) reads, .cons same sames⟩

section

variable {env : Env} {s s' : Store} {input : JournalInput} {effectiveAt : Instant}
  {auth : JournalAuth} {g : Gated}
  {row : JournalRow} {rows : List EntryRow}

theorem Fresh.getJournalByID_new (fresh : Fresh env s input effectiveAt auth g row rows s')
    (wired : Wired s) :
    s'.getJournalByID row.id = some row :=
  find_of_nodup (fresh.wired wired).distinct (by rw [fresh.journals_eq]; simp)

theorem Fresh.reversalOfUID_stored (fresh : Fresh env s input effectiveAt auth g row rows s')
    (wired : Wired s) :
    ((row.reversalOf.bind s'.getJournalByID).map fun original => pgToUID original.uid).getD [] =
    canonicalUID input.reversalOfUID := by
  rw [fresh.row_reversalOf]
  rcases checkReversalOf_ok (gates_ok fresh.gated).2.2.2.1 with
    ⟨empty, none_⟩ | ⟨pgUID, original, nonempty, parsed, found, -, some_⟩
  · rw [none_, canonicalUID, if_pos empty]
    rfl
  · obtain ⟨member, uid⟩ := getJournalByUID_mem found
    have again : s'.getJournalByID original.id = some original :=
      find_of_nodup (fresh.wired wired).distinct (by rw [fresh.journals_eq]; exact List.mem_append_left _ member)
    rw [some_, canonicalUID, if_neg nonempty, parsed, Option.map_some, Option.bind_some, again,
      Option.map_some, Option.map_some,
      Option.getD_some, Option.getD_some, pgToUID, uid]

theorem reversalOfUID_eq {uid : GoString} (link : reversalOfUID s row = .ok uid) :
    ((row.reversalOf.bind s.getJournalByID).map fun original =>
      pgToUID original.uid).getD [] = uid := by
  unfold reversalOfUID at link
  split at link
  · next none_ =>
    rw [none_]
    exact Except.ok.inj link
  · next id some_ =>
    simp only [bind_eq_ok, orError_eq_ok, pure_eq_ok] at link
    obtain ⟨original, found, printed⟩ := link
    rw [some_, Option.bind_some, found]
    exact printed

/-- What is read back for a posted journal: every hashed field as it was given, but the spelling of
the reversed journal's uid. -/
structure StoredAs (input : JournalInput) (effectiveAt : Instant) (auth : JournalAuth)
    (digests : List DigestEntry)
    (m : JournalAuthMaterial) : Prop where
  entries : collect digestEntry m.input.entries = .ok digests
  payload : payloadOf m.input m.effectiveAt digests =
    { payloadOf input effectiveAt digests with reversalOfUID := canonicalUID input.reversalOfUID }
  digest : m.authDigest = auth.digest
  signature : m.authSignature = auth.signature
  keyID : m.authKeyID = auth.keyID
  status : m.authStatus = auth.status

theorem Fresh.storedAs (fresh : Fresh env s input effectiveAt auth g row rows s') (wired : Wired s)
    (keys : PrimaryKeys s)
    {digests : List DigestEntry} (digested : collect digestEntry input.entries = .ok digests) :
    ∃ m, journalAuthMaterial s' row.id = .ok (some m) ∧
    StoredAs input effectiveAt auth digests m := by
  obtain ⟨currencies, classes, types⟩ := fresh.catalog_eq
  have type_ := (gates_ok fresh.gated).2.1
  simp only [Store.jtByUIDOrErr, orError_eq_ok] at type_
  have typeUID : pgToUID g.jt.uid = input.journalTypeUID := by simpa using List.find?_some type_
  obtain ⟨-, -, -, -, rowEq⟩ := insertJournal_ok fresh.journal
  have typeID : row.journalTypeID = g.jt.id := by rw [rowEq]
  have findType : s'.journalTypes.find? (·.id == row.journalTypeID) = some g.jt := by
    rw [types, typeID]
    exact find_of_nodup keys.journalTypes (List.mem_of_find?_eq_some type_)
  obtain ⟨rebuilt, reads, same⟩ := collect_digestEntry_stored fresh.written keys
    currencies classes digested
  have own := fresh.listJournalEntries_new wired
  refine ⟨_, by
    rw [journalAuthMaterial, fresh.getJournalByID_new wired]
    simp only [findType, own, reads, ok_bind]
    rfl, ?_⟩
  refine ⟨same, ?_, by rw [rowEq], by rw [rowEq], by rw [rowEq], by rw [rowEq]⟩
  have micros : toMicros (row.effectiveAt * 1000) = toMicros effectiveAt := by
    have stored : row.effectiveAt = toMicros effectiveAt := by rw [rowEq]
    rw [stored, toMicros]
    omega
  have link := fresh.reversalOfUID_stored wired
  simp only [payloadOf, link, typeUID, micros]
  rw [rowEq]

theorem Fresh.record_input (fresh : Fresh env s input effectiveAt auth g row rows s')
    (wired : Wired s) {j : Journal}
    (read : journalFromRow s' row = .ok j) {m : JournalAuthMaterial}
    (material : journalAuthMaterial s' row.id = .ok (some m)) :
    ∃ entries, collect (entryInputFromRow s') (s'.listJournalEntries row.id) = .ok entries ∧
      m.input = journalInputFromRecord j entries := by
  rw [journalAuthMaterial, fresh.getJournalByID_new wired] at material
  simp only [journalFromRow, bind_eq_ok, pure_eq_ok, Store.jtByIDOrErr, orError_eq_ok] at read
  obtain ⟨jt, type_, reversal, link, event, -, rfl⟩ := read
  simp only [type_, bind_eq_ok, pure_eq_ok, Option.some.injEq] at material
  obtain ⟨entries, reads, rfl⟩ := material
  simp only [collect_eq_ok, within_eq_ok] at reads
  refine ⟨entries, collect_eq_ok.mpr reads, ?_⟩
  rw [journalInputFromRecord, reversalOfUID_eq link]

end

variable {sign : Attestor} {input : JournalInput}

theorem postJournal_signed {cfg : Config} {env : Env} {j : Journal}
    (unused : ∀ j ∈ s.journals, j.idempotencyKey ≠ input.idempotencyKey)
    (ok : postJournal cfg (.pool (some sign)) env s input = .ok (s', j)) :
    ∃ digests auth g row rows, collect digestEntry input.entries = .ok digests ∧
      Fresh env s input (resolveEffectiveAt env.now input.effectiveAt) auth g row rows s' ∧
      journalFromRow s' row = .ok j ∧
      auth.digest = cfg.hash (payloadOf input (resolveEffectiveAt env.now input.effectiveAt) digests) ∧
      sign auth.digest = .ok (auth.signature, auth.keyID) ∧ auth.status = .signed := by
  simp only [postJournal, bind_eq_ok, within_eq_ok] at ok
  obtain ⟨_, -, auth, attested, ok⟩ := ok
  have none_ : s.journals.find? (·.idempotencyKey == input.idempotencyKey) = none := by
    rw [List.find?_eq_none]
    intro j member same
    exact unused j member (by simpa using same)
  rcases (postJournalWithQueries_ok ok).2 with ⟨existing, found, -⟩ | ⟨g, row, rows, fresh, read⟩
  · rw [none_] at found
    cases found
  simp only [attestJournal, bind_eq_ok, within_eq_ok] at attested
  obtain ⟨found, lookup, attested⟩ := attested
  rw [getJournalByIdempotencyKey_ok lookup, none_] at attested
  simp only [bind_eq_ok, within_eq_ok] at attested
  obtain ⟨digest, hashed, attested⟩ := attested
  obtain ⟨digests, digested, rfl⟩ := canonicalJournalDigest_eq_ok.mp hashed
  split at attested
  · next signature keyID signed =>
    rw [pure_eq_ok] at attested
    subst attested
    exact ⟨digests, _, g, row, rows, digested, fresh, read, rfl, signed, rfl⟩
  · cases attested

theorem StoredAs.verify_iff {verify : AuthVerifier} {auth : JournalAuth}
    {digests : List DigestEntry} {m : JournalAuthMaterial}
    (stored : StoredAs input effectiveAt auth digests m) (nonempty : ∀ payload, hash payload ≠ [])
    (paired : Paired sign verify)
    (digest : auth.digest = hash (payloadOf input effectiveAt digests))
    (signed : sign auth.digest = .ok (auth.signature, auth.keyID)) :
    m.verify hash verify = .ok () ↔
      hash { payloadOf input effectiveAt digests with reversalOfUID := canonicalUID input.reversalOfUID } =
        hash (payloadOf input effectiveAt digests) := by
  obtain ⟨present, keyed, accepted⟩ := paired _ _ _ signed
  rw [JournalAuthMaterial.verify, verifyJournalAuth_eq_ok, stored.digest,
    stored.signature, stored.keyID,
    canonicalJournalDigest_eq_ok, ← stored.payload, ← digest]
  constructor
  · rintro ⟨-, ⟨entries, rebuilt, same⟩, -⟩
    rw [stored.entries] at rebuilt
    rw [Except.ok.inj rebuilt]
    exact same
  · intro same
    exact ⟨by rw [digest]; exact nonempty _, ⟨digests, stored.entries, same⟩, present, keyed, accepted⟩

/-- Journals and discharge claims that a signing store wrote, checked from their rows. A journal
verifies exactly if its caller spelled the reversed journal's uid as the store prints it, a claim
exactly if its caller so spelled the reservation's and did not sign at the Unix epoch; otherwise it
verifies only where the hash collides on the fields signed and the fields stored. -/
theorem stored_signatures_verify_iff (sign : Attestor) (verify : AuthVerifier)
    (paired : Paired sign verify) :
    (∀ cfg : Config, (∀ payload, cfg.hash payload ≠ []) →
      ∀ (env : Env) (s s' : Store) (input : JournalInput) (j : Journal), Wired s → PrimaryKeys s →
        (∀ j ∈ s.journals, j.idempotencyKey ≠ input.idempotencyKey) →
        postJournal cfg (.pool (some sign)) env s input = .ok (s', j) →
        ∃ digests m entries, collect digestEntry input.entries = .ok digests ∧
        journalAuthMaterial s' s.nextJournalID = .ok (some m) ∧
          collect (entryInputFromRow s') (s'.listJournalEntries s.nextJournalID) = .ok entries ∧
          m.input = journalInputFromRecord j entries ∧
          (m.verify cfg.hash verify = .ok () ↔ canonicalUID input.reversalOfUID = input.reversalOfUID ∨
            let signed := payloadOf input (resolveEffectiveAt env.now input.effectiveAt) digests
            let stored := { signed with reversalOfUID := canonicalUID input.reversalOfUID }
            stored ≠ signed ∧ cfg.hash stored = cfg.hash signed)) ∧
    (∀ hash : DischargePayload → GoString, (∀ payload, hash payload ≠ []) →
      ∀ calls t, SignedRun hash sign calls t → ∀ claim, t.Has claim →
        ∃ c ∈ calls, Wrote hash sign c claim ∧
          (claim.verifies hash verify = true ↔ Canonical c ∨
            claim.payload ≠ c.payload claim.amount ∧ hash claim.payload = hash (c.payload claim.amount))) := by
  refine ⟨?_, ?_⟩
  · intro cfg nonempty env s s' input j wired keys unused ok
    obtain ⟨digests, auth, g, row, rows, digested, fresh, read, digest, signed, -⟩ :=
      postJournal_signed unused ok
    obtain ⟨m, material, stored⟩ := fresh.storedAs wired keys digested
    obtain ⟨entries, reads, same⟩ := fresh.record_input wired read material
    rw [fresh.row_id] at material reads
    refine ⟨digests, m, entries, digested, material, reads, same, ?_⟩
    rw [stored.verify_iff nonempty paired digest signed]
    constructor
    · intro collides
      by_cases canonical : canonicalUID input.reversalOfUID = input.reversalOfUID
      · exact .inl canonical
      · refine .inr ⟨fun equal => canonical ?_, collides⟩
        exact congrArg DigestPayload.reversalOfUID equal
    · rintro (canonical | ⟨-, collides⟩)
      · rw [canonical]
        rfl
      · exact collides
  · intro hash nonempty calls t run claim has
    have inv := run.inv
    have wrote : ∃ c ∈ calls, Wrote hash sign c claim := by
      rcases has with ⟨-, o, member, joined⟩ | ⟨-, l, member, joined⟩
      · obtain ⟨claim', joined', c, inside, wrote⟩ := inv.receipts o member
        rw [joined, Option.some.injEq] at joined'
        exact ⟨c, inside, joined' ▸ wrote⟩
      · obtain ⟨claim', joined', c, inside, wrote⟩ := inv.legs l member
        rw [joined, Option.some.injEq] at joined'
        exact ⟨c, inside, joined' ▸ wrote⟩
    obtain ⟨c, inside, wrote⟩ := wrote
    refine ⟨c, inside, wrote, ?_⟩
    rw [wrote.verifies_iff_hash nonempty paired, ← wrote.payload_eq_iff]
    constructor
    · intro same
      by_cases equal : claim.payload = c.payload claim.amount
      · exact .inl equal
      · exact .inr ⟨equal, same⟩
    · rintro (equal | ⟨-, same⟩)
      · rw [equal]
      · exact same

namespace Sample

def signing : Config := ⟨fun _ => .ok (), DigestPayload.encode⟩

def signedDeposit : Store :=
  okOr store ((postJournal signing (.pool (some ReserverSample.signer))
    (env 5) store deposit).map Prod.fst)

def bareReversal : JournalInput :=
  { deposit with
    idempotencyKey := lit "reversal"
    entries := [⟨7, (uid 3).print, (uid 1).print, .debit, ⟨10, 0⟩⟩,
      ⟨-7, (uid 3).print, (uid 2).print, .credit, ⟨10, 0⟩⟩]
    reversalOfUID := (uid 5).hex }

theorem primaryKeys : PrimaryKeys store := ⟨by decide +kernel, by decide +kernel, by decide +kernel⟩

theorem wired : Wired store where
  ids := by simp [store]
  distinct := by simp [store]
  uids := by simp [store]
  keys := by simp [store]
  owned := by simp [store]
  positive := by simp [store]
  originals := by simp [store]
  balanced := by simp [store]
  catalog := ⟨by decide +kernel, by decide +kernel, by decide +kernel⟩

theorem paired : Paired ReserverSample.signer ReserverSample.verifier := by
  intro digest signature keyID signed
  cases signed
  exact ⟨by decide, by decide, rfl⟩

end Sample

theorem stored_signatures_verify_deposit : ∃ s' j m, postJournal Sample.signing
    (.pool (some ReserverSample.signer)) (Sample.env 5)
    Sample.store Sample.deposit = .ok (s', j) ∧ journalAuthMaterial s' 1 = .ok (some m) ∧
      m.verify Sample.signing.hash ReserverSample.verifier = .ok () := by
  have posted : (postJournal Sample.signing (.pool (some ReserverSample.signer))
    (Sample.env 5) Sample.store
      Sample.deposit).isOk = true := by decide +kernel
  cases ok : postJournal Sample.signing (.pool (some ReserverSample.signer)) (Sample.env 5)
    Sample.store Sample.deposit with
  | error err =>
    rw [ok] at posted
    cases posted
  | ok r =>
    obtain ⟨_, m, _, -, material, -, -, verifies⟩ := (stored_signatures_verify_iff ReserverSample.signer
      ReserverSample.verifier Sample.paired).1 Sample.signing (fun _ => List.cons_ne_nil _ _)
        (Sample.env 5) Sample.store r.1 Sample.deposit r.2
      Sample.wired Sample.primaryKeys (by simp [Sample.store]) ok
    exact ⟨r.1, r.2, m, rfl, material, verifies.mpr (.inl rfl)⟩

/-- A reversal that names its original without dashes is posted and signed, and its signature fails
from its rows. So does the claim of a release that names its reservation without dashes. -/
theorem bare_uid_fails_verification :
    ((postJournal Sample.signing (.pool (some ReserverSample.signer)) (Sample.env 6)
      Sample.signedDeposit Sample.bareReversal).map
        fun posted => (journalAuthMaterial posted.1 2).map fun found => found.map fun m =>
          (m.authStatus, m.verify Sample.signing.hash ReserverSample.verifier)) =
      .ok (.ok (some (.signed,
        .error ⟨.unauthorizedJournal, "core: verify journal auth: stored digest does not match recomputed digest"⟩))) ∧
    ((ReserverSample.releaseAs ReserverSample.bare).run DischargePayload.encode
      ReserverSample.reserved).map
        (fun t => t.receipts.filterMap fun o => (t.receiptClaim o).map fun claim =>
          claim.verifies DischargePayload.encode ReserverSample.verifier) = .ok [false] :=
  ⟨by decide +kernel, by decide +kernel⟩

end Ledger.Postgres
