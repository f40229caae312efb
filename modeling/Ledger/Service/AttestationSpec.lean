import Ledger.Service.AttestedLedger

namespace Ledger.Attested

open Core Postgres Shared

variable {field : GoString}

theorem requireHash_eq_ok {err : String} {u : Unit} : requireHash field err = .ok u ↔ field.length =
    genesisRootHashLen := by
  simp [requireHash]

theorem ne_nil_of_hash (width : field.length = genesisRootHashLen) : field ≠ [] := by
  rintro rfl
  cases width

structure Attests (sha256 : GoString → GoString) (sign : Attestor) (now : Int)
    (latest : Option Attestation) (batch : Batch)
    (a : Attestation) (rows : List CoverageRow) : Prop where
  seq : a.seq = (latest.map (·.seq)).getD 0 + 1
  prevRoot : a.prevRoot = if (latest.map (·.seq)).getD 0 = 0 then genesisRoot
    else (latest.map (·.rootHash)).getD []
  entryCount : a.entryCount = batch.entries.length
  batchDigest : canonicalBatchDigest sha256 batch.entries = .ok a.batchDigest
  tree : ∃ tree, buildMerkleTree sha256 batch.entries = .ok tree ∧ a.merkleRoot = tree.root ∧
    rows.map (·.leafHash) = tree.leafHashes
  verdictDigest : ∀ verdicts, batch.verdicts = some verdicts →
    authVerdictDigest sha256 batch.entries verdicts = .ok a.authVerdictDigest
  isV2 : a.isV2 = true
  isV3 : a.isV3 = batch.verdicts.isSome
  rootHash : rootHashOf sha256 a.prevRoot a = .ok a.rootHash
  signed : sign a.rootHash = .ok (a.signature, a.keyID)
  createdAt : a.createdAt = some now
  covers : rows.map (fun c => (c.entryID, c.seq, c.authVerdict)) =
    (batch.entries.zip (batch.verdicts.getD (batch.entries.map fun _ => .unknown))).map
      fun (e, v) => (e.entryID, a.seq, v)

variable {sha256 : GoString → GoString} {entries : List AttestedEntry}

theorem buildMerkleTree_length {tree : MerkleTree}
    (built : buildMerkleTree sha256 entries = .ok tree) :
    tree.leafHashes.length = entries.length := by
  simp only [buildMerkleTree, bind_eq_ok, pure_eq_ok, collect_eq_ok] at built
  obtain ⟨payloads, encoded, rfl⟩ := built
  rw [List.length_map, encoded.length_eq]

theorem authVerdictDigest_length {verdicts : List JournalAuthVerdict} {digest : GoString}
    (hashed : authVerdictDigest sha256 entries verdicts = .ok digest) :
    entries.length = verdicts.length := by
  simp only [authVerdictDigest, bind_eq_ok, require_eq_ok, decide_eq_true_eq] at hashed
  obtain ⟨_, same, -⟩ := hashed
  exact same

section

variable {α β γ : Type} {l : List α} {m : List β} {n : List γ}

theorem map_zip_first (same : l.length = m.length) :
    (l.zip (m.zip n)).map (fun x => (x.1, x.2.2)) = l.zip n := by
  induction l generalizing m n with
  | nil => rfl
  | cons x rest ih =>
    cases m with
    | nil => cases same
    | cons y more =>
      cases n with
      | nil => rfl
      | cons z others => simp [ih (Nat.succ.inj same)]

theorem map_zip_middle (left : l.length = m.length) (right : l.length = n.length) :
    (l.zip (m.zip n)).map (fun x => x.2.1) = m := by
  have outer : (l.zip (m.zip n)).map Prod.snd = m.zip n := List.map_snd_zip (by simp; omega)
  have inner : (m.zip n).map Prod.fst = m := List.map_fst_zip (by omega)
  calc (l.zip (m.zip n)).map (fun x => x.2.1)
      = ((l.zip (m.zip n)).map Prod.snd).map Prod.fst := by rw [List.map_map]; rfl
    _ = m := by rw [outer, inner]

end

variable {a : Attestation} {sha256 : GoString → GoString} {sign : Attestor} {now : Int}
  {latest : Option Attestation} {batch : Batch}
  {rows : List CoverageRow}

theorem attestBatch_ok (ok : attestBatch sha256 sign now latest batch = .ok (a, rows)) :
    Attests sha256 sign now latest batch a rows := by
  obtain ⟨entries, verdicts⟩ := batch
  simp only [attestBatch, bind_eq_ok, within_eq_ok] at ok
  obtain ⟨batchDigest, digested, tree, built, authDigest, authorised, rootHash, hashed, ok⟩ := ok
  have leaves := buildMerkleTree_length built
  split at ok
  · cases ok
  next signature keyID signed =>
  simp only [pure_eq_ok, Prod.mk.injEq] at ok
  obtain ⟨rfl, rfl⟩ := ok
  -- Without a verifier the verdicts are unknown and the digest is empty.
  cases verdicts with
  | none =>
    have empty : authDigest = [] := (Except.ok.inj authorised).symm
    subst empty
    have v2 := hashed
    simp only [attestationRootHashV2, bind_eq_ok, requireHash_eq_ok] at v2
    obtain ⟨_, -, _, -, _, width, -⟩ := v2
    have present := ne_nil_of_hash width
    refine ⟨rfl, rfl, rfl, digested, ⟨tree, built, rfl, ?_⟩, ?_, ?_, rfl, ?_, signed, rfl, ?_⟩
    · rw [List.map_map]
      exact map_zip_middle leaves.symm (by simp)
    · intro verdicts given
      cases given
    · simpa [Attestation.isV2] using present
    · simpa [rootHashOf, present] using hashed
    · have paired := map_zip_first (l := entries) (n := entries.map fun _ => JournalAuthVerdict.unknown) leaves.symm
      rw [List.map_map]
      simp only [Option.getD, ← paired, List.map_map]
      rfl
  | some verdicts =>
    have v3 := hashed
    simp only [attestationRootHashV3, bind_eq_ok, requireHash_eq_ok] at v3
    obtain ⟨_, -, _, -, _, width, _, verdictWidth, -⟩ := v3
    have present := ne_nil_of_hash width
    have verdictPresent := ne_nil_of_hash verdictWidth
    simp only [batchVerdictDigest, within_eq_ok] at authorised
    refine ⟨rfl, rfl, rfl, digested, ⟨tree, built, rfl, ?_⟩, ?_, ?_, ?_, ?_, signed, rfl, ?_⟩
    · rw [List.map_map]
      exact map_zip_middle leaves.symm (authVerdictDigest_length authorised)
    · intro _ given
      cases given
      exact authorised
    · simpa [Attestation.isV2] using present
    · simpa [Attestation.isV3] using verdictPresent
    · simpa [rootHashOf, verdictPresent] using hashed
    · have paired := map_zip_first (l := entries) (n := verdicts) leaves.symm
      rw [List.map_map]
      simp only [Option.getD, ← paired, List.map_map]
      rfl

theorem Attests.entryIDs (attests : Attests sha256 sign now latest batch a rows) :
    rows.map (·.entryID) = batch.entries.map (·.entryID) := by
  have lengths : batch.entries.length ≤
    (batch.verdicts.getD (batch.entries.map fun _ => .unknown)).length := by
    cases given : batch.verdicts with
    | none => simp
    | some verdicts => exact (authVerdictDigest_length (attests.verdictDigest _ given)).le
  have firsts := congrArg (List.map Prod.fst) attests.covers
  rw [List.map_map, List.map_map] at firsts
  calc rows.map (·.entryID) = _ := firsts
    _ = ((batch.entries.zip _).map Prod.fst).map (·.entryID) := by rw [List.map_map]; rfl
    _ = batch.entries.map (·.entryID) := by rw [List.map_fst_zip lengths]

theorem Attests.seqs (attests : Attests sha256 sign now latest batch a rows) :
    ∀ c ∈ rows, c.seq = a.seq := by
  intro c member
  have inside : (c.entryID, c.seq, c.authVerdict) ∈ rows.map fun c =>
    (c.entryID, c.seq, c.authVerdict) :=
    List.mem_map_of_mem member
  rw [attests.covers, List.mem_map] at inside
  obtain ⟨⟨e, v⟩, -, same⟩ := inside
  exact (congrArg (·.2.1) same).symm

theorem pairwise_sortOn {α : Type} (key : α → Int) (l : List α) :
    (l.insertionSort fun a b => key a ≤ key b).Pairwise fun a b => key a ≤ key b :=
  have : Std.Total fun a b => key a ≤ key b := ⟨fun a b => le_total (key a) (key b)⟩
  have : IsTrans α fun a b => key a ≤ key b := ⟨fun _ _ _ => le_trans⟩
  List.pairwise_insertionSort _ l

theorem pairwise_sortOn_lt {α : Type} {key : α → Int} {l : List α} (nodup : (l.map key).Nodup) :
    (l.insertionSort fun a b => key a ≤ key b).Pairwise fun a b => key a < key b := by
  have distinct : ((l.insertionSort fun a b => key a ≤ key b).map key).Nodup :=
    ((List.perm_insertionSort _ l).map key).nodup_iff.mpr nodup
  have both := (pairwise_sortOn key l).and (List.pairwise_map.mp distinct)
  exact both.imp fun h => lt_of_le_of_ne h.1 h.2

theorem filter_key_eq {α : Type} {key : α → Int} {l : List α} (nodup : (l.map key).Nodup)
    {a : α} (member : a ∈ l) :
    l.filter (key · == key a) = [a] := by
  induction l with
  | nil => cases member
  | cons b rest ih =>
    rw [List.map_cons, List.nodup_cons] at nodup
    by_cases same : key b = key a
    · have others : rest.filter (key · == key a) = [] := by
        rw [List.filter_eq_nil_iff]
        intro c inside equal
        exact nodup.1 (List.mem_map.mpr ⟨c, inside, by rw [same]; simpa using equal⟩)
      rcases List.mem_cons.mp member with rfl | later
      · simp [others]
      · exact absurd (List.mem_map.mpr ⟨a, later, same.symm⟩) nodup.1
    · rcases List.mem_cons.mp member with rfl | later
      · exact absurd rfl same
      · simp [same, ih nodup.2 later]

structure Covers (t : AttestedTables) (seq : Int) (us : List AttestedRow) : Prop where
  stored : ∀ u ∈ us, u ∈ t.entries
  sorted : us.Pairwise fun a b => a.id < b.id
  covered : (t.coverage.filter (·.seq == seq)).map (·.entryID) = us.map (·.id)

namespace Covers

variable {t t' : AttestedTables} {seq : Int} {us : List AttestedRow}

theorem batchRows (covers : Covers t seq us) (nodup : (t.entries.map (·.id)).Nodup) :
    t.batchRows seq = us := by
  have joined : ((t.coverage.filter (·.seq == seq)).flatMap fun c => t.entries.filter
    (·.id == c.entryID)) = us := by
    calc ((t.coverage.filter (·.seq == seq)).flatMap fun c => t.entries.filter (·.id == c.entryID))
        = ((t.coverage.filter (·.seq == seq)).map (·.entryID)).flatMap fun id => t.entries.filter (·.id == id) := by
          rw [List.flatMap_map]
      _ = us.flatMap fun u => t.entries.filter (·.id == u.id) := by rw [covers.covered, List.flatMap_map]
      _ = us.flatMap fun u => [u] := List.flatMap_congr fun u member => filter_key_eq nodup (covers.stored u member)
      _ = us := by simp
  rw [AttestedTables.batchRows, joined]
  exact (covers.sorted.imp fun h => le_of_lt h).insertionSort_eq

theorem leafHashes (covers : Covers t seq us) :
    t.leafHashesForAttestation seq = (t.coverage.filter (·.seq == seq)).map fun c =>
    (c.entryID, c.leafHash) := by
  have sorted : (t.coverage.filter (·.seq == seq)).Pairwise fun a b => a.entryID ≤ b.entryID := by
    have ids : ((t.coverage.filter (·.seq == seq)).map (·.entryID)).Pairwise (· < ·) := by
      rw [covers.covered]
      exact List.pairwise_map.mpr covers.sorted
    exact (List.pairwise_map.mp ids).imp fun h => le_of_lt h
  rw [AttestedTables.leafHashesForAttestation, sorted.insertionSort_eq]

theorem grow (covers : Covers t seq us) {added : List AttestedRow} {rows : List CoverageRow}
    (entries : t'.entries = t.entries ++ added) (coverage : t'.coverage = t.coverage ++ rows)
    (others : ∀ c ∈ rows, c.seq ≠ seq) :
    Covers t' seq us := by
  refine ⟨fun u member => ?_, covers.sorted, ?_⟩
  · rw [entries]
    exact List.mem_append_left _ (covers.stored u member)
  · have none_ : rows.filter (·.seq == seq) = [] := by
      rw [List.filter_eq_nil_iff]
      intro c member
      simpa using others c member
    rw [coverage, List.filter_append, none_, List.append_nil, covers.covered]

end Covers

variable {t : AttestedTables}

theorem uncoveredRows_sorted (nodup : (t.entries.map (·.id)).Nodup) (limit : Nat) :
    (t.uncoveredRows limit).Pairwise fun a b => a.id < b.id :=
  (pairwise_sortOn_lt ((List.filter_sublist.map _).nodup nodup)).sublist (List.take_sublist _ _)

theorem mem_uncoveredRows {limit : Nat} {u : AttestedRow} (member : u ∈ t.uncoveredRows limit) :
    u ∈ t.entries ∧ t.covered u.id = false := by
  have inside := List.mem_of_mem_take member
  rw [List.mem_insertionSort, List.mem_filter] at inside
  exact ⟨inside.1, by simpa using inside.2⟩

theorem read_eq_ok {r : AttestedRow} {e : AttestedEntry} : r.read = .ok e ↔
    ∃ micros, r.effectiveAt = some micros ∧
      e = ⟨r.id, r.journalID, r.accountHolder, r.currencyID, r.classificationID, r.entryType,
        numericToDecimal r.amount,
        micros * 1000⟩ := by
  cases column : r.effectiveAt with
  | none => simp [AttestedRow.read, scanInstant, column, bind, Except.bind]
  | some micros => simp [AttestedRow.read, scanInstant, column, eq_comm]

variable {us : List AttestedRow}

theorem collect_read_ids (read : collect AttestedRow.read us = .ok entries) :
    entries.map (·.entryID) = us.map (·.id) :=
  (forall₂_map_eq (collect_eq_ok.mp read) fun u _ e holds => by
    obtain ⟨micros, -, rfl⟩ := read_eq_ok.mp holds
    rfl).symm

variable {t' : AttestedTables} {rows : List CoverageRow} {latest : Option Attestation}

theorem insertAttestation_eq_ok :
    insertAttestation t a rows = .ok t' ↔ (∀ b ∈ t.attestations, b.seq ≠ a.seq) ∧
    (∀ c ∈ rows, t.covered c.entryID = false) ∧
      t' = { t with attestations := t.attestations ++ [a], coverage := t.coverage ++ rows } := by
  simp only [insertAttestation, bind_eq_ok, require_eq_ok, pure_eq_ok, List.all_eq_true, bne_iff_ne,
    Bool.not_eq_eq_eq_not,
    Bool.not_true]
  constructor
  · rintro ⟨_, seqs, _, uncovered, rfl⟩
    exact ⟨seqs, uncovered, rfl⟩
  · rintro ⟨seqs, uncovered, rfl⟩
    exact ⟨(), seqs, (), uncovered, rfl⟩

theorem Attests.insert_covers (attests : Attests sha256 sign now latest batch a rows)
    (stored : ∀ u ∈ us, u ∈ t.entries)
    (sorted : us.Pairwise fun a b => a.id < b.id)
    (read : collect AttestedRow.read us = .ok batch.entries)
    (fresh : ∀ c ∈ t.coverage, c.seq ≠ a.seq) (inserted : insertAttestation t a rows = .ok t') :
    Covers t' a.seq us := by
  obtain ⟨-, -, rfl⟩ := insertAttestation_eq_ok.mp inserted
  refine ⟨stored, sorted, ?_⟩
  have old : t.coverage.filter (·.seq == a.seq) = [] := by
    rw [List.filter_eq_nil_iff]
    intro c member
    simpa using fresh c member
  have new : rows.filter (·.seq == a.seq) = rows := by
    rw [List.filter_eq_self]
    intro c member
    simpa using attests.seqs c member
  rw [List.filter_append, old, new, List.nil_append, attests.entryIDs, collect_read_ids read]

variable {fromSeq : Int}

theorem listAttestationsFrom_ok {limit : Nat} {page : List Attestation} :
    t.listAttestationsFrom fromSeq limit = .ok page ↔
      page = (t.attestationsFrom fromSeq).take limit ∧ ∀ a ∈ page, a.createdAt ≠ none := by
  have row : ∀ a b : Attestation, ((fun _ => a) <$> scanInstant a.createdAt) = .ok b ↔ a = b ∧
    a.createdAt ≠ none := by
    intro a b
    cases column : a.createdAt with
    | none => simp [scanInstant, Functor.map, Except.map]
    | some micros => simp [scanInstant]
  simp only [AttestedTables.listAttestationsFrom, within_eq_ok, collect_eq_ok, row]
  generalize (t.attestationsFrom fromSeq).take limit = rows
  constructor
  · intro related
    induction related with
    | nil => simp
    | cons head _ ih =>
      obtain ⟨rfl, finite⟩ := head
      exact ⟨by rw [ih.1], List.forall_mem_cons.mpr ⟨finite, ih.2⟩⟩
  · rintro ⟨rfl, finite⟩
    rw [List.forall₂_same]
    exact fun a member => ⟨rfl, finite a member⟩

theorem tables_nodup {w : World} (nodup : (w.store.ledger.entries.map (·.id)).Nodup) :
    (w.tables.entries.map (·.id)).Nodup := by
  have cast : w.tables.entries.map (·.id) = (w.store.ledger.entries.map (·.id)).map Nat.cast := by
    rw [World.tables, List.map_map, List.map_map]
    rfl
  rw [cast]
  exact nodup.map Nat.cast_injective

theorem latestAttestation_mem (ok : t.latestAttestation = .ok latest) :
    ∀ b, latest = some b → b ∈ t.attestations := by
  intro b read
  unfold AttestedTables.latestAttestation at ok
  split at ok
  · cases ok
    cases read
  · next a first =>
    simp only [within_eq_ok, map_eq_ok] at ok
    obtain ⟨_, -, rfl⟩ := ok
    cases read
    exact (List.mem_insertionSort _).mp (List.mem_of_mem_head? first)

section

variable {sha256 : GoString → GoString} {hash : DigestPayload → GoString}
  {verifier : Option AuthVerifier} {sign : Attestor}

theorem runAttestBatch_ok {batchSize : Nat} {w₁ w₂ w₃ w w' : World}
    (ok : runAttestBatch sha256 hash verifier sign now batchSize w₁ w₂ w₃ w = .ok (w', a)) :
    ∃ latest entries verdicts rows, w₁.tables.latestAttestation = .ok latest ∧
      collect AttestedRow.read (w₂.tables.uncoveredRows batchSize) = .ok entries ∧
      batchVerdicts hash verifier w₃ entries = .ok verdicts ∧ Attests sha256 sign now latest
      ⟨entries, verdicts⟩ a rows ∧
      insertAttestation w.tables a rows = .ok w'.tables ∧
      w' = { w with coverage := w.coverage ++ rows, attestations := w.attestations ++ [a] } := by
  simp only [runAttestBatch, AttestedTables.uncoveredEntries, bind_eq_ok, within_eq_ok, pure_eq_ok,
    Prod.mk.injEq] at ok
  obtain ⟨latest, found, entries, read, verdicts, judged, ⟨b, rows⟩, attested, t,
    inserted, rfl, rfl⟩ := ok
  have shape := (insertAttestation_eq_ok.mp inserted).2.2
  refine ⟨latest, entries, verdicts, rows, found, read, judged, attestBatch_ok attested, ?_, ?_⟩
  · rw [inserted, shape]
    rfl
  · rw [shape]
    rfl

end

end Ledger.Attested
