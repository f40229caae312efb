import Ledger.Service.HonestLedger
import Ledger.Service.VerifyLedgerSpec

namespace Ledger.Attested

open Ledger.Core Postgres Shared

def honestParties (sha256 : GoString → GoString) (cfg : Config) (sign : Attestor) : Parties :=
  ⟨sha256, cfg.hash, sign, Posts cfg sign, fun verifier => ∀ verify, verifier =
    some verify → Paired sign verify⟩

def Authorized (batch : Batch) : Prop :=
  ∀ verdicts, batch.verdicts = some verdicts → verdicts = batch.entries.map fun _ => .authorized

structure Quiet (p : Parties) (world : Nat → World) : Prop where
  chain : ∀ i, Chain p Authorized (world i).tables
  grows : ∀ {i j}, i ≤ j → Grows (world i) (world j)
  honest : ∀ i, Honest p.hash p.sign (world i).store
  extends_ : ∀ {i j}, i ≤ j → Extends (world i).store (world j).store
  anchor : ∀ i, (world i).anchor = (0, []) ∨ ∃ a ∈ (world i).attestations,
    (world i).anchor = (a.seq, a.rootHash)

variable {s : Store}

theorem material_fields {row : JournalRow} {m : JournalAuthMaterial}
    (found : s.getJournalByID row.id = some row)
    (material : journalAuthMaterial s row.id = .ok (some m)) :
    m.effectiveAt = row.effectiveAt * 1000 ∧ m.authDigest = row.authDigest ∧
    m.authSignature = row.authSignature ∧
      m.authKeyID = row.authKeyID ∧ m.authStatus = row.authStatus := by
  rw [journalAuthMaterial, found] at material
  simp only at material
  split at material
  · cases material
  · simp only [bind_eq_ok, pure_eq_ok, Option.some.injEq] at material
    obtain ⟨entries, -, rfl⟩ := material
    exact ⟨rfl, rfl, rfl, rfl, rfl⟩

theorem journalFromRow_fields {row : JournalRow} {j : Journal}
    (read : journalFromRow s row = .ok j) :
    j.uid = pgToUID row.uid ∧ j.effectiveAt = row.effectiveAt ∧ j.authDigest = row.authDigest ∧
      j.authSignature = row.authSignature ∧ j.authKeyID = row.authKeyID ∧ j.authStatus =
      row.authStatus := by
  simp only [journalFromRow, bind_eq_ok, pure_eq_ok] at read
  obtain ⟨jt, -, reversal, -, event, -, rfl⟩ := read
  exact ⟨rfl, rfl, rfl, rfl, rfl, rfl⟩

section

variable {p : Parties} {world : Nat → World} {verify : AuthVerifier} {i j : Nat}

theorem Quiet.journal (quiet : Quiet p world) (later : i ≤ j) {u : AttestedRow}
    (stored : u ∈ (world i).tables.entries) :
    ∃ row m journal entries, u.journalID = (row.id : Nat) ∧ Genuine p.hash p.sign (world j).store
    row m journal entries := by
  obtain ⟨e, member, rfl⟩ := List.mem_map.mp stored
  obtain ⟨row, inside, id⟩ := (quiet.honest i).owners e member
  obtain ⟨m, journal, entries, genuine⟩ := (quiet.honest i).genuine row inside
  exact ⟨row, m, journal, entries, congrArg _ id.symm, genuine.extend (quiet.extends_ later)⟩

theorem Quiet.fetch (quiet : Quiet p world) (nonempty : ∀ payload, p.hash payload ≠ [])
    (paired : Paired p.sign verify)
    (later : i ≤ j) {us : List AttestedRow} (stored : ∀ u ∈ us, u ∈ (world i).tables.entries)
    {entries : List AttestedEntry} (read : collect AttestedRow.read us = .ok entries) :
    ∃ found, (world j).journalAuthMaterial (distinctJournals entries) = .ok found ∧
      ∀ x ∈ entries, ∃ m, found.lookup x.journalID = some m ∧ m.verify p.hash verify = .ok () ∧
      m.authStatus = .signed := by
  have owner : ∀ x ∈ entries, ∃ row m journal list, x.journalID = (row.id : Nat) ∧
      Genuine p.hash p.sign (world j).store row m journal list := by
    intro x member
    obtain ⟨u, inside, holds⟩ := forall₂_of_mem_right (collect_eq_ok.mp read) member
    obtain ⟨micros, -, rfl⟩ := read_eq_ok.mp holds
    exact quiet.journal later (stored u inside)
  obtain ⟨found, fetched⟩ := World.journalAuthMaterial_isOk (world j)
    (distinctJournals entries) fun id member => by
    obtain ⟨x, inside, rfl⟩ := mem_distinctJournals.mp member
    obtain ⟨row, m, _, _, journal, genuine⟩ := owner x inside
    exact ⟨some m, by rw [journal]; exact genuine.intact.material⟩
  refine ⟨found, fetched, fun x member => ?_⟩
  obtain ⟨row, m, _, _, journal, genuine⟩ := owner x member
  have asked : ((row.id : Nat) : Int) ∈ distinctJournals entries := mem_distinctJournals.mpr
    ⟨x, member, journal⟩
  refine ⟨m, ?_, (genuine.intact.verify_iff nonempty paired).mpr
    (paired _ _ _ genuine.intact.signed).2.2, ?_⟩
  · rw [journal]
    exact World.journalAuthMaterial_lookup fetched asked genuine.intact.material
  · rw [(material_fields genuine.found genuine.intact.material).2.2.2.2]
    exact genuine.signed

theorem verdictFor_of_verify {found : List (Int × JournalAuthMaterial)}
    {hash : DigestPayload → GoString} {id : Int}
    {m : JournalAuthMaterial} (lookup : found.lookup id = some m)
    (verified : m.verify hash verify = .ok ()) :
    verdictFor hash verify found id = .authorized := by
  simp [verdictFor, lookup, verified, Except.isOk, Except.toBool]

theorem batchVerdicts_authorized (nonempty : ∀ payload, p.hash payload ≠ []) {w w' : World}
    (honest : Honest p.hash p.sign w.store)
    (extends_ : Extends w.store w'.store) {verifier : Option AuthVerifier}
    (allowed : ∀ verify, verifier = some verify → Paired p.sign verify) {batchSize : Nat}
    {entries : List AttestedEntry}
    {verdicts : Option (List JournalAuthVerdict)}
    (read : collect AttestedRow.read (w.tables.uncoveredRows batchSize) = .ok entries)
    (judged : batchVerdicts p.hash verifier w' entries = .ok verdicts) :
    Authorized ⟨entries, verdicts⟩ := by
  intro list given
  cases given
  cases verifier with
  | none => cases judged
  | some verify =>
    simp only [batchVerdicts, map_eq_ok, within_eq_ok, Option.some.injEq] at judged
    obtain ⟨_, computed, rfl⟩ := judged
    obtain ⟨found, rfl, lookups⟩ := computeAuthVerdicts_ok computed
    refine List.map_congr_left fun x member => ?_
    obtain ⟨u, inside, holds⟩ := forall₂_of_mem_right (collect_eq_ok.mp read) member
    obtain ⟨micros, -, rfl⟩ := read_eq_ok.mp holds
    obtain ⟨e, stored, rfl⟩ := List.mem_map.mp (mem_uncoveredRows inside).1
    obtain ⟨row, journal, id⟩ := honest.owners e stored
    obtain ⟨m, _, _, genuine⟩ := honest.genuine row journal
    have whole := (genuine.extend extends_).intact
    have lookup := lookups row.id m ⟨_, member, congrArg _ id.symm⟩ whole.material
    have paired := allowed verify rfl
    rw [id] at lookup
    exact verdictFor_of_verify lookup
      ((whole.verify_iff nonempty paired).mpr (paired _ _ _ whole.signed).2.2)

end

section

variable {sha256 : GoString → GoString} {cfg : Config} {sign : Attestor} {start : Store}
  {trace : Nat → World}

theorem honest_start (journals : start.journals = []) (entries : start.ledger.entries = [])
    (catalog : CatalogOk start)
    (keys : PrimaryKeys start) : Honest cfg.hash sign start where
  wired := by constructor <;> simp [journals, entries, catalog]
  keys := keys
  ids := by simp [entries]
  nodup := by simp [entries]
  owners := by simp [entries]
  genuine := by simp [journals]

variable {i : Nat}

theorem Step.extends_ (step : Step (honestParties sha256 cfg sign) trace i)
    (honest : Honest cfg.hash sign (trace i).store) :
    Honest cfg.hash sign (trace (i + 1)).store ∧ Extends (trace i).store (trace (i + 1)).store := by
  cases step with
  | idle same => rw [same]; exact ⟨honest, .refl _⟩
  | post s' posted next => rw [next]; exact honest.post posted
  | attest verifier now batchSize a i₁ i₂ i₃ order allowed ok =>
    obtain ⟨latest, entries, verdicts, rows, -, -, -, -, -, next⟩ := runAttestBatch_ok ok
    rw [next]
    exact ⟨honest, .refl _⟩
  | publish a stored next | observe seq held next => rw [next]; exact ⟨honest, .refl _⟩

theorem Execution.honest (ex : Execution (honestParties sha256 cfg sign) start trace)
    (begun : Honest cfg.hash sign start) (i : Nat) :
    Honest cfg.hash sign (trace i).store := by
  induction i with
  | zero => rw [ex.start]; exact begun
  | succ i ih => exact ((ex.step i).extends_ ih).1

theorem Execution.extends_ (ex : Execution (honestParties sha256 cfg sign) start trace)
    (begun : Honest cfg.hash sign start) {j : Nat} (later : i ≤ j) :
    Extends (trace i).store (trace j).store := by
  induction j, later using Nat.le_induction with
  | base => exact .refl _
  | succ j _ ih => exact ih.trans ((ex.step j).extends_ (ex.honest begun j)).2

theorem posts_append : Appends (honestParties sha256 cfg sign) := by
  rintro s s' ⟨env, input, j, ok, -⟩
  simp only [postJournal, bind_eq_ok, within_eq_ok] at ok
  obtain ⟨_, -, auth, -, ok⟩ := ok
  rcases (postJournalWithQueries_ok ok).2 with ⟨existing, -, -, rfl⟩ | ⟨g, row, rows, fresh, -⟩
  · exact List.prefix_rfl
  · rw [fresh.entries_eq]
    exact List.prefix_append _ _

theorem Execution.anchor {p : Parties} (ex : Execution p start trace) (i : Nat) :
    (trace i).anchor = (0, []) ∨ ∃ a ∈ (trace i).attestations, (trace i).anchor =
    (a.seq, a.rootHash) := by
  induction i with
  | zero => exact .inl (by rw [ex.start])
  | succ i ih =>
    cases ex.step i with
    | idle same => rw [same]; exact ih
    | post s' posted next => rw [next]; exact ih
    | attest verifier now batchSize a i₁ i₂ i₃ order allowed ok =>
      obtain ⟨latest, entries, verdicts, rows, -, -, -, -, -, next⟩ := runAttestBatch_ok ok
      rw [next]
      exact ih.imp_right fun ⟨b, member, same⟩ => ⟨b, List.mem_append_left _ member, same⟩
    | publish a stored next =>
      rw [next]
      simp only [publish]
      split
      · exact .inr ⟨a, stored, rfl⟩
      · exact ih
    | observe seq held next => rw [next]; exact ih

theorem Execution.quiet (ex : Execution (honestParties sha256 cfg sign) start trace)
    (begun : Honest cfg.hash sign start)
    (nonempty : ∀ payload, cfg.hash payload ≠ []) {time : Nat → Nat} (order : Monotone time) :
    Quiet (honestParties sha256 cfg sign) fun i => trace (time i) where
  chain i := ex.chain posts_append (fun i => (ex.honest begun i).nodup)
    (fun _ _ i₂ _ _ _ allowed later read judged =>
      batchVerdicts_authorized (p := honestParties sha256 cfg sign) nonempty (ex.honest begun i₂)
        (ex.extends_ begun later) allowed read
        judged) (time i)
  grows later := ex.grows posts_append (order later)
  honest i := ex.honest begun (time i)
  extends_ later := ex.extends_ begun (order later)
  anchor i := ex.anchor (time i)

end

section

variable {p : Parties} {world : Nat → World} {verify : AuthVerifier}

structure OnChain (world : Nat → World) (k : Nat) (walk : Walk) (i : Nat) : Prop where
  bound : k ≤ (world i).attestations.length
  expectedSeq : walk.expectedSeq = k + 1
  maxSeqSeen : walk.maxSeqSeen = k
  prevRoot : walk.prevRoot = rootAfter ((world i).attestations.take k)
  clean : walk.reasons = []

variable {i j k : Nat} {a : Attestation}

theorem Quiet.row_later (quiet : Quiet p world) (later : i ≤ j)
    (row : (world i).attestations[k]? = some a) :
    (world j).attestations[k]? = some a := by
  obtain ⟨more, same⟩ := (quiet.grows later).attestations
  rw [← same, List.getElem?_append_left (List.getElem?_eq_some_iff.mp row).1]
  exact row

variable {walk : Walk}

theorem OnChain.later (quiet : Quiet p world) (on : OnChain world k walk i) (later : i ≤ j) :
    OnChain world k walk j := by
  obtain ⟨more, same⟩ := (quiet.grows later).attestations
  have taken : (world j).attestations.take k = (world i).attestations.take k := by
    rw [← same, List.take_append_of_le_length on.bound]
  refine ⟨on.bound.trans (quiet.grows later).attestations.length_le, on.expectedSeq,
    on.maxSeqSeen, ?_, on.clean⟩
  rw [taken]
  exact on.prevRoot

variable {t : AttestedTables}

theorem leafReasons_nil {keys : Keys} (width : ∀ x, (keys.sha256 x).length = 32)
    {entries : List AttestedEntry}
    {us : List AttestedRow} (covers : Covers t a.seq us)
    (tree : ∃ tree, buildMerkleTree keys.sha256 entries = .ok tree ∧ a.merkleRoot = tree.root ∧
      (t.coverage.filter (·.seq == a.seq)).map (·.leafHash) = tree.leafHashes) :
    leafReasons keys a (.ok (t.leafHashesForAttestation a.seq)) = [] := by
  obtain ⟨tree, built, root, leaves⟩ := tree
  have stored : (t.leafHashesForAttestation a.seq).map Prod.snd = tree.leafHashes := by
    rw [covers.leafHashes, List.map_map, ← leaves]
    rfl
  simp only [buildMerkleTree, bind_eq_ok, pure_eq_ok] at built
  obtain ⟨payloads, -, rfl⟩ := built
  have rebuilt : buildMerkleTreeFromLeafHashes keys.sha256
    (payloads.map (merkleLeafHash keys.sha256)) =
      .ok ⟨buildMTH keys.sha256 (payloads.map (merkleLeafHash keys.sha256)), payloads.map
        (merkleLeafHash keys.sha256)⟩ := by
    simp only [buildMerkleTreeFromLeafHashes, bind_eq_ok, checkAll_eq_ok, require_eq_ok,
      decide_eq_true_eq, pure_eq_ok]
    refine ⟨(), fun h member => ?_, trivial⟩
    obtain ⟨payload, -, rfl⟩ := List.mem_map.mp member
    exact width _
  unfold leafReasons
  simp only
  split
  · rfl
  · rw [stored, rebuilt]
    simp [root]

theorem Chain.attestationsFrom {Q : Batch → Prop} (chain : Chain p Q t) (k : Nat) :
    t.attestationsFrom (k + 1) = t.attestations.drop k := by
  have before : (t.attestations.take k).filter (fun a => decide ((k : Int) + 1 ≤ a.seq)) = [] := by
    rw [List.filter_eq_nil_iff]
    intro a member
    obtain ⟨n, row⟩ := List.getElem?_of_mem member
    rw [List.getElem?_take] at row
    split at row
    · have := chain.seq row
      simp only [decide_eq_true_eq]
      omega
    · cases row
  have after : (t.attestations.drop k).filter (fun a => decide ((k : Int) + 1 ≤ a.seq)) =
    t.attestations.drop k := by
    rw [List.filter_eq_self]
    intro a member
    obtain ⟨n, row⟩ := List.getElem?_of_mem member
    rw [List.getElem?_drop] at row
    have := chain.seq row
    simp only [decide_eq_true_eq]
    omega
  have sorted : (t.attestations.drop k).Pairwise fun a b => a.seq ≤ b.seq := by
    rw [List.pairwise_iff_getElem]
    intro m n left right less
    have first := chain.seq (k := k + m) (a := (t.attestations.drop k)[m])
      (by rw [← List.getElem?_drop]; exact List.getElem?_eq_getElem left)
    have second := chain.seq (k := k + n) (a := (t.attestations.drop k)[n])
      (by rw [← List.getElem?_drop]; exact List.getElem?_eq_getElem right)
    omega
  have split_ : t.attestations.filter (fun a => decide ((k : Int) + 1 ≤ a.seq)) =
    t.attestations.drop k := by
    conv_lhs => rw [← List.take_append_drop k t.attestations]
    rw [List.filter_append, before, after, List.nil_append]
  rw [AttestedTables.attestationsFrom, split_]
  exact sorted.insertionSort_eq

variable {walk' : Walk} (quiet : Quiet p world) (nonempty : ∀ payload, p.hash payload ≠ [])
  (width : ∀ x, (p.sha256 x).length = 32)
  (paired : Paired p.sign verify)
include quiet nonempty width paired

theorem Quiet.checkRow (on : OnChain world k walk i) (row : (world i).attestations[k]? = some a)
    (ok : Attested.checkRow World.ports world ⟨p.sha256, p.hash, verify⟩ (world 0).anchor walk a i =
      .ok (walk', j)) :
    OnChain world (k + 1) walk' j ∧ i ≤ j := by
  obtain ⟨entries, leaves, materials, read, leafRead, materialRead, later, rfl⟩ := checkRow_ok ok
  have chain := quiet.chain i
  have seq := chain.seq row
  obtain ⟨batch, us, link⟩ := chain.links k a row
  obtain ⟨now, attests⟩ := link.attests
  -- The entries are the batch's.
  have same : entries = batch.entries := by
    have here := link.read
    rw [← link.covers.batchRows chain.nodup] at here
    have there : (world i).tables.entriesForAttestation a.seq = .ok entries := read
    rw [AttestedTables.entriesForAttestation, within_eq_ok, here] at there
    exact (Except.ok.inj there).symm
  subst same
  have prevRoot : a.prevRoot = walk.prevRoot := by rw [on.prevRoot]; exact chain.prevRoot row
  have linkClean : linkReasons ⟨p.sha256, p.hash, verify⟩ a walk = [] := by
    have signature := (paired _ _ _ attests.signed).2.2
    simp [linkReasons, on.expectedSeq, seq, prevRoot, signature, Except.isOk, Except.toBool]
  have contentClean : contentReasons ⟨p.sha256, p.hash, verify⟩ a batch.entries = [] := by
    simp [contentReasons, attests.entryCount, attests.batchDigest]
  have merkleClean : merkleReasons ⟨p.sha256, p.hash, verify⟩ a batch.entries = [] := by
    obtain ⟨tree, built, root, -⟩ := attests.tree
    simp [merkleReasons, built, root]
  have leafClean : leafReasons ⟨p.sha256, p.hash, verify⟩ a leaves = [] := by
    obtain ⟨l, after, rfl⟩ := leafRead attests.isV2
    obtain ⟨batch', us', link'⟩ := (quiet.chain l).links k a (quiet.row_later after row)
    obtain ⟨now', attests'⟩ := link'.attests
    exact leafReasons_nil width link'.covers attests'.tree
  have verdictClean : (if a.isV3 then verdictReasons ⟨p.sha256, p.hash, verify⟩ a batch.entries
    materials else []) = [] := by
    split
    · next v3 =>
      obtain ⟨l, after, rfl⟩ := materialRead v3
      rw [attests.isV3, Option.isSome_iff_exists] at v3
      obtain ⟨verdicts, given⟩ := v3
      have digest := attests.verdictDigest verdicts given
      rw [link.sound verdicts given] at digest
      obtain ⟨found, fetched, sound⟩ := quiet.fetch nonempty paired after link.covers.stored link.read
      split
      · next none_ =>
        refine verdictReasons_of_authorized (fun x member => ?_) digest
        have asked := mem_distinctJournals.mpr ⟨x, member, rfl⟩
        rw [none_] at asked
        cases asked
      · rw [show World.ports.journalAuthMaterial (world l) (distinctJournals batch.entries) = .ok found from fetched]
        refine verdictReasons_of_authorized (fun x member => ?_) digest
        obtain ⟨m, lookup, verified, -⟩ := sound x member
        exact verdictFor_of_verify lookup verified
    · rfl
  have rootClean : rootReasons ⟨p.sha256, p.hash, verify⟩ a walk = [] := by
    have root := attests.rootHash
    rw [prevRoot] at root
    simp [rootReasons, root]
  have anchorClean : anchorReasons a (world 0).anchor = [] := by
    simp only [anchorReasons, reasonIf_eq_nil, decide_eq_false_iff_not, not_and, not_not]
    intro at_
    rcases quiet.anchor 0 with empty | ⟨b, stored, head⟩
    · rw [empty] at at_
      simp only at at_
      omega
    · rw [head] at at_ ⊢
      obtain ⟨n, inside, number⟩ := (quiet.chain 0).seq_mem stored
      have equal : n = k := by
        simp only at at_
        omega
      subst equal
      have there := quiet.row_later (Nat.zero_le i) inside
      rw [row] at there
      cases there
      rfl
  refine ⟨?_, later.le⟩
  have ahead := quiet.row_later later.le row
  refine ⟨(List.getElem?_eq_some_iff.mp ahead).1, by simp [seq], by simp [seq], ?_, ?_⟩
  · rw [rootAfter, getLast_take (List.getElem?_eq_some_iff.mp ahead).1, ahead]
    rfl
  · simp only [on.clean, linkClean, contentClean, merkleClean, leafClean, verdictClean,
      rootClean, anchorClean]
    simp

theorem Quiet.checkRows {page : List Attestation} (on : OnChain world k walk i)
    (rows : ∀ n a, page[n]? = some a → (world i).attestations[k + n]? = some a)
    (ok : page.foldlM (Attested.checkRow World.ports world ⟨p.sha256, p.hash, verify⟩
      (world 0).anchor) walk i = .ok (walk', j)) :
    OnChain world (k + page.length) walk' j ∧ i ≤ j := by
  induction page generalizing walk i k with
  | nil =>
    rw [List.foldlM_nil, session_pure_ok] at ok
    obtain ⟨rfl, rfl⟩ := ok
    exact ⟨on, le_rfl⟩
  | cons a rest ih =>
    rw [List.foldlM_cons, session_bind_ok] at ok
    obtain ⟨walk₁, l, first, ok⟩ := ok
    obtain ⟨on₁, after⟩ := quiet.checkRow nonempty width paired on (rows 0 a rfl) first
    obtain ⟨on₂, further⟩ := ih on₁ (fun n b row => by
      have there := rows (n + 1) b (by simpa using row)
      have moved : k + 1 + n = k + (n + 1) := by omega
      rw [moved]
      exact quiet.row_later after there) ok
    refine ⟨?_, after.trans further⟩
    have length : k + (a :: rest).length = k + 1 + rest.length := by simp; omega
    rw [length]
    exact on₂

theorem Quiet.walkChain {pageSize fuel : Nat} (positive : 0 < pageSize)
    (on : OnChain world k walk i)
    (ok : Attested.walkChain World.ports world ⟨p.sha256, p.hash, verify⟩ (world 0).anchor pageSize
      fuel walk i = .ok (walk', j)) :
    ∃ n, OnChain world n walk' j ∧ (world i).attestations.length ≤ n := by
  induction fuel generalizing walk i k with
  | zero => exact absurd ok session_throw_ok
  | succ fuel ih =>
    simp only [Attested.walkChain, session_bind_ok, observe_ok] at ok
    obtain ⟨page, _, ⟨read, rfl⟩, ok⟩ := ok
    have pageIs : page = ((world i).attestations.drop k).take pageSize := by
      have listed := (listAttestationsFrom_ok.mp (read : (world i).tables.listAttestationsFrom _ _ = .ok page)).1
      rw [on.expectedSeq, (quiet.chain i).attestationsFrom] at listed
      exact listed
    split at ok
    · next empty =>
      rw [session_pure_ok] at ok
      obtain ⟨rfl, rfl⟩ := ok
      refine ⟨k, on.later quiet (Nat.le_succ i), ?_⟩
      rcases List.take_eq_nil_iff.mp (pageIs.symm.trans empty) with zero | none_
      · omega
      · exact List.drop_eq_nil_iff.mp none_
    · rw [session_bind_ok] at ok
      obtain ⟨walk₁, l, checked, ok⟩ := ok
      have rows : ∀ n a, page[n]? = some a → (world (i + 1)).attestations[k + n]? = some a := by
        intro n a row
        rw [pageIs, List.getElem?_take] at row
        split at row
        · rw [List.getElem?_drop] at row
          exact quiet.row_later (Nat.le_succ i) row
        · cases row
      obtain ⟨on₁, after⟩ := quiet.checkRows nonempty width paired (on.later quiet (Nat.le_succ i)) rows checked
      split at ok
      · next short =>
        rw [session_pure_ok] at ok
        obtain ⟨rfl, rfl⟩ := ok
        refine ⟨k + page.length, on₁, ?_⟩
        rw [pageIs, List.length_take, List.length_drop] at short ⊢
        omega
      · obtain ⟨n, on₂, reached⟩ := ih on₁ ok
        exact ⟨n, on₂, (quiet.grows (by omega : i ≤ l)).attestations.length_le.trans reached⟩

end

section

variable {p : Parties} {world : Nat → World} {verify : AuthVerifier}

theorem Genuine.sampled {hash : DigestPayload → GoString} {sign : Attestor} {w : World}
    {row : JournalRow} {m : JournalAuthMaterial}
    {j : Journal} {entries : List EntryInput} (genuine : Genuine hash sign w.store row m j entries)
    (nonempty : ∀ payload, hash payload ≠ []) (paired : Paired sign verify) :
    w.getJournal j.uid = .ok entries ∧
      verifyJournalAuth hash verify { journalInputFromRecord j entries with eventUID := j.eventUID }
      (j.effectiveAt * 1000)
        j.authDigest j.authSignature j.authKeyID = .ok () := by
  obtain ⟨uid, effectiveAt, digest, signature, keyID, -⟩ := journalFromRow_fields genuine.read
  obtain ⟨effectiveAt', digest', signature', keyID', -⟩ := material_fields genuine.found
    genuine.intact.material
  constructor
  · simp only [World.getJournal, bind_eq_ok, uidToPG, orError_eq_ok, pure_eq_ok]
    exact ⟨row.uid, by rw [uid]; exact Uuid.parse_print row.uid, row, genuine.foundUID, entries,
      genuine.listed, j, genuine.read, rfl⟩
  · have verified := (genuine.intact.verify_iff nonempty paired).mpr
      (paired _ _ _ genuine.intact.signed).2.2
    rw [JournalAuthMaterial.verify, verifyJournalAuth_eq_ok, canonicalJournalDigest_eq_ok] at verified
    rw [verifyJournalAuth_eq_ok, canonicalJournalDigest_eq_ok]
    obtain ⟨present, ⟨digests, collected, hashed⟩, signed, keyed, accepted⟩ := verified
    rw [digest, ← digest', signature, ← signature', keyID, ← keyID', effectiveAt, ← effectiveAt']
    refine ⟨present, ⟨digests, ?_, ?_⟩, signed, keyed, accepted⟩
    · rw [genuine.input] at collected
      exact collected
    · rw [← hashed, genuine.input]
      rfl

variable (quiet : Quiet p world) (nonempty : ∀ payload, p.hash payload ≠ [])
  (paired : Paired p.sign verify)
include quiet nonempty paired

theorem Quiet.checkUncovered (cfg : VerifyConfig) (now : Instant) (i : Nat) :
    ∃ backlog j, Attested.checkUncovered World.ports world ⟨p.sha256, p.hash, verify⟩ cfg now i =
    .ok (([], backlog), j) := by
  have stored : ∀ u ∈ (world i).tables.uncoveredRows cfg.uncoveredProbeLimit.toNat, u ∈
    (world i).tables.entries :=
    fun u member => (mem_uncoveredRows member).1
  obtain ⟨uncovered, read⟩ : ∃ uncovered,
      collect AttestedRow.read ((world i).tables.uncoveredRows cfg.uncoveredProbeLimit.toNat) = .ok uncovered := by
    rw [collect_isOk_iff]
    intro u member
    obtain ⟨e, -, rfl⟩ := List.mem_map.mp (stored u member)
    exact ⟨_, read_eq_ok.mpr ⟨e.effectiveAt, rfl, rfl⟩⟩
  have probed : World.ports.uncoveredEntries (world i) cfg.uncoveredProbeLimit.toNat =
    .ok uncovered := within_eq_ok.mpr read
  by_cases none_ : uncovered = []
  · exact ⟨[], _, checkUncovered_ok.mpr ⟨uncovered, probed, .inl ⟨none_, rfl, rfl⟩⟩⟩
  obtain ⟨found, fetched, sound⟩ := quiet.fetch nonempty paired (Nat.le_succ i) stored read
  have accounted : (distinctJournals uncovered).any
    (unaccounted ⟨p.sha256, p.hash, verify⟩ cfg now found) = false := by
    rw [List.any_eq_false]
    intro id member
    obtain ⟨x, inside, rfl⟩ := mem_distinctJournals.mp member
    obtain ⟨m, lookup, verified, signed⟩ := sound x inside
    simp [unaccounted, lookup, signed, verified, Except.isOk, Except.toBool]
  have findings : ([], (uncoveredFindings ⟨p.sha256, p.hash, verify⟩ cfg now uncovered found).2) =
      uncoveredFindings ⟨p.sha256, p.hash, verify⟩ cfg now uncovered found := by
    simp [uncoveredFindings, accounted, reasonIf]
  exact ⟨_, _, checkUncovered_ok.mpr
    ⟨uncovered, probed, .inr ⟨none_, rfl, found, fetched, findings⟩⟩⟩

theorem Quiet.checkSample (cfg : VerifyConfig) (i : Nat) :
    ∃ j, Attested.checkSample World.ports world ⟨p.sha256, p.hash, verify⟩ cfg i = .ok ([], j) := by
  have honest := quiet.honest i
  obtain ⟨journals, read⟩ : ∃ journals, World.ports.listRecentJournals
    (world i) cfg.journalSampleSize.toNat = .ok journals := by
    show ∃ journals, (world i).listRecentJournals cfg.journalSampleSize.toNat = .ok journals
    rw [World.listRecentJournals, collect_isOk_iff]
    intro row member
    have stored := (List.mem_insertionSort _).mp (List.mem_of_mem_take member)
    obtain ⟨m, j, entries, genuine⟩ := honest.genuine row stored
    exact ⟨j, genuine.read⟩
  have each : ∀ j ∈ journals, ∃ row m entries, Genuine p.hash p.sign (world i).store
    row m j entries := by
    intro j member
    obtain ⟨row, inside, holds⟩ := forall₂_of_mem_right (collect_eq_ok.mp (read :
      collect (journalFromRow (world i).store) _ = .ok journals)) member
    have stored := (List.mem_insertionSort _).mp (List.mem_of_mem_take inside)
    obtain ⟨m, j', entries, genuine⟩ := honest.genuine row stored
    have same := genuine.read
    rw [holds] at same
    cases same
    exact ⟨row, m, entries, genuine⟩
  have signed : ∀ j ∈ journals, j.authStatus = .signed := by
    intro j member
    obtain ⟨row, m, entries, genuine⟩ := each j member
    rw [(journalFromRow_fields genuine.read).2.2.2.2.2]
    exact genuine.signed
  obtain ⟨reasons, j, sampled⟩ := foldlM_session_isOk
    (f := checkSampled World.ports world ⟨p.sha256, p.hash, verify⟩) (l := journals)
    (fun j member reasons i => ⟨_, _, checkSampled_ok.mpr (.inr ⟨signed j member, rfl, rfl⟩)⟩) [] (i + 1)
  have quietly := foldlM_session (P := fun (reasons : List String) k => reasons = [] ∧ i ≤ k)
    (fun j member reasons k reasons' l before ok => by
    obtain ⟨row, m, entries, genuine⟩ := each j member
    rcases checkSampled_ok.mp ok with ⟨unsigned, -⟩ | ⟨-, rfl, same⟩
    · exact absurd (signed j member) unsigned
    · obtain ⟨found, verified⟩ := (genuine.extend (quiet.extends_ before.2)).sampled nonempty paired
      have here : World.ports.getJournal (world k) j.uid = .ok entries := found
      rw [same, before.1, here]
      simp only [verified]
      exact ⟨rfl, by omega⟩) ⟨rfl, Nat.le_succ i⟩ sampled
  refine ⟨j, checkSample_ok.mpr ⟨journals, reasons, read, sampled, ?_⟩⟩
  have none_ : unsignedReasons journals = [] := by
    rw [unsignedReasons, reasonIf_eq_nil, List.any_eq_false]
    intro j member
    simp [signed j member]
  rw [quietly.1, none_]
  rfl

end

theorem Quiet.head_reached {p : Parties} {world : Nat → World} (quiet : Quiet p world) {n : Nat}
    (reached : (world 0).attestations.length ≤ n) : (world 0).anchor.1 ≤ n := by
  rcases quiet.anchor 0 with empty | ⟨a, stored, head⟩
  · rw [empty]
    exact Int.natCast_nonneg n
  · obtain ⟨k, row, number⟩ := (quiet.chain 0).seq_mem stored
    have inside : k < (world 0).attestations.length := (List.getElem?_eq_some_iff.mp row).1
    rw [head, number]
    omega

section

variable {p : Parties} {world : Nat → World} {verify : AuthVerifier}

theorem Quiet.tampered_iff (quiet : Quiet p world) (nonempty : ∀ payload, p.hash payload ≠ [])
    (width : ∀ x, (p.sha256 x).length = 32) (paired : Paired p.sign verify) (cfg : VerifyConfig)
    (now : Instant) (fuel : Nat) :
    (verifyLedger World.ports world ⟨p.sha256, p.hash, verify⟩ cfg now fuel).status = .tampered ↔
      ∃ walk k, Attested.walkChain World.ports world ⟨p.sha256, p.hash, verify⟩ (world 0).anchor
          cfg.normalized.chainPageSize.toNat fuel ⟨1, genesisRoot, 0, []⟩ 1 = .ok (walk, k) ∧
        (world 0).anchor.1 < (world k).highestObservedAnchorSeq := by
  have begun : OnChain world 0 ⟨1, genesisRoot, 0, []⟩ 1 := ⟨Nat.zero_le _, rfl, rfl, rfl, rfl⟩
  rw [verifyLedger_tampered_iff]
  constructor
  · rintro ⟨reasons, drift, anchorSeq, maxSeqSeen, j, ok, found⟩
    obtain ⟨anchor, walk, k, lastObserved, uncovered, backlog, l, sampled, head, walked, observed,
      probed, sample, rfl, -⟩ :=
      verifySteps_ok.mp ok
    cases head
    cases observed
    refine ⟨walk, k, walked, ?_⟩
    by_contra behind
    apply found
    obtain ⟨n, on, reached⟩ := quiet.walkChain nonempty width paired
      (normalized_chainPageSize cfg) begun walked
    obtain ⟨_, _, probed'⟩ := quiet.checkUncovered nonempty paired cfg.normalized now (k + 1)
    rw [probed'] at probed
    cases probed
    obtain ⟨_, sample'⟩ := quiet.checkSample nonempty paired cfg.normalized l
    rw [sample'] at sample
    cases sample
    have ahead : (world 0).anchor.1 ≤ n :=
      quiet.head_reached ((quiet.grows (Nat.zero_le 1)).attestations.length_le.trans reached)
    simp only [on.clean, headReasons, on.maxSeqSeen, List.nil_append, List.append_nil,
      List.append_eq_nil_iff, reasonIf_eq_nil,
      decide_eq_false_iff_not]
    exact ⟨not_lt.mpr ahead, behind⟩
  · rintro ⟨walk, k, walked, ahead⟩
    obtain ⟨backlog, l, probed⟩ := quiet.checkUncovered nonempty paired cfg.normalized now (k + 1)
    obtain ⟨j, sample⟩ := quiet.checkSample nonempty paired cfg.normalized l
    refine ⟨_, _, _, _, j, verifySteps_ok.mpr ⟨_, walk, k, _, [], backlog, l, [], rfl, walked, rfl,
      probed, sample, rfl, rfl, rfl, rfl⟩,
      ?_⟩
    simp only [headReasons, ne_eq, List.append_eq_nil_iff, reasonIf_eq_nil, decide_eq_false_iff_not]
    rintro ⟨⟨⟨-, -, behind⟩, -⟩, -⟩
    exact behind ahead

end

/-- A verification of a ledger nobody tampered with, its reads in any order of time that does not go
back and anything between them. It reports tampering exactly if a seq above the anchor's head as it
was read first is among the observations read after the walk. -/
theorem false_alarm_iff {sha256 : GoString → GoString} {cfg : Config} {sign : Attestor}
    {verify : AuthVerifier} {start : Store}
    {trace : Nat → World} (ex : Execution (honestParties sha256 cfg sign) start trace)
    (journals : start.journals = [])
    (entries : start.ledger.entries = []) (catalog : CatalogOk start) (keys : PrimaryKeys start)
    (nonempty : ∀ payload, cfg.hash payload ≠ []) (width : ∀ x, (sha256 x).length = 32)
    (paired : Paired sign verify)
    {time : Nat → Nat} (order : Monotone time) (vcfg : VerifyConfig) (now : Instant) (fuel : Nat) :
    (verifyLedger World.ports (fun i => trace (time i)) ⟨sha256, cfg.hash, verify⟩ vcfg now
      fuel).status = .tampered ↔
      ∃ walk k, walkChain World.ports (fun i => trace (time i)) ⟨sha256, cfg.hash, verify⟩
      (trace (time 0)).anchor
          vcfg.normalized.chainPageSize.toNat fuel ⟨1, genesisRoot, 0, []⟩ 1 = .ok (walk, k) ∧
        (trace (time 0)).anchor.1 < (trace (time k)).highestObservedAnchorSeq :=
  (ex.quiet (honest_start journals entries catalog keys) nonempty order).tampered_iff nonempty width
    paired vcfg now fuel

namespace Sample

def withHead (w : World) (a : Attestation) : World := { w with anchor := publish w.anchor a }

def withObservation (w : World) (seq : Int) : World :=
  { w with observations := w.observations ++ [seq] }

def attestAgain (w : World) : Result (World × Attestation) :=
  runAttestBatch checksum Postgres.Sample.signing.hash (some ReserverSample.verifier)
    ReserverSample.signer 6500 100 w w w w

def observed : World := withObservation (withHead batch.1 batch.2) 1

@[irreducible] def second : World × Attestation := okOr (attested, blank) (attestAgain observed)

theorem attest_second : attestAgain observed = .ok second := by
  have ok : (attestAgain observed).isOk = true := by decide +kernel
  unfold second
  exact eq_ok_of_isOk ok _

def attestations : Nat → World
  | 0 => ⟨Postgres.Sample.store, [], [], [], (0, [])⟩
  | 1 => attested
  | 2 => batch.1
  | 3 => withHead batch.1 batch.2
  | 4 => observed
  | 5 => second.1
  | 6 => withHead second.1 second.2
  | _ + 7 => withObservation (withHead second.1 second.2) 2

theorem posts_deposit : Posts Postgres.Sample.signing ReserverSample.signer Postgres.Sample.store
    Postgres.Sample.signedDeposit := by
  have ok : (postJournal Postgres.Sample.signing (.pool (some ReserverSample.signer))
    (Postgres.Sample.env 5) Postgres.Sample.store
      Postgres.Sample.deposit).isOk = true := by decide +kernel
  obtain ⟨⟨s', j⟩, posted⟩ := isOk_iff.mp ok
  have same : Postgres.Sample.signedDeposit = s' := by
    unfold Postgres.Sample.signedDeposit
    rw [posted]
    rfl
  exact ⟨_, _, j, by rw [same]; exact posted, by decide +kernel⟩

theorem attestations_execution :
    Execution (honestParties checksum Postgres.Sample.signing ReserverSample.signer)
    Postgres.Sample.store attestations where
  start := rfl
  step i := match i with
    | 0 => .post _ posts_deposit rfl
    | 1 => .attest (some ReserverSample.verifier) 6000 100 batch.2 1 1 1 (by simp)
        (by rintro _ ⟨⟩; exact Postgres.Sample.paired) attest_batch
    | 2 => .publish batch.2 (by decide +kernel) rfl
    | 3 => .observe 1 (by decide +kernel) rfl
    | 4 => .attest (some ReserverSample.verifier) 6500 100 second.2 4 4 4 (by simp)
        (by rintro _ ⟨⟩; exact Postgres.Sample.paired) attest_second
    | 5 => .publish second.2 (by decide +kernel) rfl
    | 6 => .observe 2 (by decide +kernel) rfl
    | _ + 7 => .idle rfl

def reportAt (time : Nat → Nat) : VerifyReport :=
  verifyLedger World.ports (fun i => attestations (time i))
    ⟨checksum, Postgres.Sample.signing.hash, ReserverSample.verifier⟩ defaultVerifyConfig 7000 5

theorem checksum_length (x : GoString) : (checksum x).length = 32 := by
  simp [checksum]

/-- The head is read before the second run publishes and everything else after it has recorded that
it did. -/
def across : Nat → Nat
  | 0 => 4
  | _ + 1 => 7

end Sample

theorem false_alarm_iff_still : (Sample.reportAt fun _ => 7).status ≠ .tampered := by
  intro tampered
  obtain ⟨_, _, -, ahead⟩ :=
    (false_alarm_iff Sample.attestations_execution rfl rfl Postgres.Sample.wired.catalog
      Postgres.Sample.primaryKeys (fun _ => List.cons_ne_nil _ _) Sample.checksum_length
      Postgres.Sample.paired
    (fun _ _ _ => le_rfl : Monotone fun _ => 7) defaultVerifyConfig 7000 5).mp tampered
  revert ahead
  decide +kernel

/-- One attestation run between the read of the head and the read of the observations. -/
theorem attestation_run_raises_alarm :
    Execution (honestParties Sample.checksum Postgres.Sample.signing ReserverSample.signer)
    Postgres.Sample.store Sample.attestations ∧
      Monotone Sample.across ∧ (Sample.reportAt Sample.across).status = .tampered :=
  ⟨Sample.attestations_execution, by
    rintro (_ | i) (_ | j) later
    · exact le_rfl
    · exact (by decide : 4 ≤ 7)
    · cases later
    · exact le_rfl, by decide +kernel⟩

/-- However posts and the attestation runs of several replicas interleave, the attestations form one
chain, and no entry is covered twice. -/
theorem attestations_linear {p : Parties} {start : Store} {trace : Nat → World}
    (ex : Execution p start trace)
    (appends : Appends p) (keys : ∀ i, ((trace i).store.ledger.entries.map (·.id)).Nodup)
    (i : Nat) :
    (∀ (k : Nat) a, (trace i).attestations[k]? = some a → a.seq = k + 1 ∧ a.prevRoot =
      rootAfter ((trace i).attestations.take k)) ∧
      ((trace i).coverage.map (·.entryID)).Nodup ∧ ∀ c ∈ (trace i).coverage, ∃ a ∈
      (trace i).attestations, a.seq = c.seq := by
  have chain : Chain p (fun _ => True) (trace i).tables := ex.chain appends keys
    (fun _ _ _ _ _ _ _ _ _ _ => trivial) i
  refine ⟨fun k a row => ⟨chain.seq row, chain.prevRoot row⟩, ?_, chain.references⟩
  clear chain
  induction i with
  | zero => simp [ex.start]
  | succ i ih =>
    cases ex.step i with
    | idle next | post _ _ next | publish _ _ next | observe _ _ next => rw [next]; exact ih
    | attest verifier now batchSize a i₁ i₂ i₃ order allowed ok =>
      obtain ⟨latest, entries, verdicts, rows, -, read, -, attests, inserted, next⟩ := runAttestBatch_ok ok
      rw [next, List.map_append, List.nodup_append]
      refine ⟨ih, ?_, ?_⟩
      · rw [attests.entryIDs, collect_read_ids read]
        exact List.pairwise_map.mpr ((uncoveredRows_sorted (tables_nodup (keys i₂)) batchSize).imp ne_of_lt)
      · -- The key of the coverage table refuses an entry another run has covered meanwhile.
        rintro id old _ new rfl
        obtain ⟨c, inside, rfl⟩ := List.mem_map.mp new
        obtain ⟨c', before, same⟩ := List.mem_map.mp old
        have free := (insertAttestation_eq_ok.mp inserted).2.1 c inside
        rw [AttestedTables.covered, List.any_eq_false] at free
        exact free c' before (by simpa using same)

theorem attestations_linear_twice : ((Sample.attestations 7).coverage.map (·.entryID)).Nodup :=
  (attestations_linear Sample.attestations_execution posts_append
    (fun i => (Sample.attestations_execution.honest
    (honest_start rfl rfl Postgres.Sample.wired.catalog Postgres.Sample.primaryKeys) i).nodup) 7).2.1

end Ledger.Attested
