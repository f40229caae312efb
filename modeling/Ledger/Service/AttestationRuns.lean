import Ledger.Service.AttestationSpec

namespace Ledger.Attested

open Core Postgres Shared

structure Parties where
  sha256 : GoString → GoString
  hash : DigestPayload → GoString
  sign : Attestor
  posts : Store → Store → Prop
  verifiers : Option AuthVerifier → Prop

def publish (anchor : Int × GoString) (a : Attestation) : Int × GoString :=
  if anchor.1 < a.seq then (a.seq, a.rootHash) else anchor

inductive Step (p : Parties) (trace : Nat → World) (i : Nat) : Prop
  | idle (same : trace (i + 1) = trace i)
  | post (s' : Store) (posted : p.posts (trace i).store s') (next : trace (i + 1) = { trace i with store := s' })
  | attest (verifier : Option AuthVerifier) (now : Int) (batchSize : Nat) (a : Attestation) (i₁ i₂ i₃ : Nat)
      (order : i₁ ≤ i₂ ∧ i₂ ≤ i₃ ∧ i₃ ≤ i) (allowed : p.verifiers verifier)
      (ok : runAttestBatch p.sha256 p.hash verifier p.sign now batchSize (trace i₁) (trace i₂) (trace i₃) (trace i) =
        .ok (trace (i + 1), a))
  -- After its insert, or in the catch-up of a later run.
  | publish (a : Attestation) (stored : a ∈ (trace i).attestations)
      (next : trace (i + 1) = { trace i with anchor := publish (trace i).anchor a })
  -- `RecordAnchorObservation` of a seq the anchor reported or accepted.
  | observe (seq : Int) (held : seq ≤ (trace i).anchor.1)
      (next : trace (i + 1) = { trace i with observations := (trace i).observations ++ [seq] })

structure Execution (p : Parties) (start : Store) (trace : Nat → World) : Prop where
  start : trace 0 = ⟨start, [], [], [], (0, [])⟩
  step : ∀ i, Step p trace i

def Appends (p : Parties) : Prop := ∀ s s', p.posts s s' → s.ledger.entries <+: s'.ledger.entries

structure Grows (w w' : World) : Prop where
  entries : w.store.ledger.entries <+: w'.store.ledger.entries
  coverage : w.coverage <+: w'.coverage
  attestations : w.attestations <+: w'.attestations
  anchor : w.anchor.1 ≤ w'.anchor.1

theorem Grows.refl (w : World) : Grows w w :=
  ⟨List.prefix_rfl, List.prefix_rfl, List.prefix_rfl, le_rfl⟩

theorem Grows.trans {w w' w'' : World} (first : Grows w w') (second : Grows w' w'') : Grows w w'' :=
  ⟨first.entries.trans second.entries, first.coverage.trans second.coverage,
    first.attestations.trans second.attestations,
    first.anchor.trans second.anchor⟩

theorem publish_ge (anchor : Int × GoString) (a : Attestation) : anchor.1 ≤
    (publish anchor a).1 := by
  unfold publish
  split
  · next behind => exact behind.le
  · exact le_rfl

section

variable {p : Parties} {start : Store} {trace : Nat → World} {i : Nat}

theorem Step.grows (step : Step p trace i) (appends : Appends p) :
    Grows (trace i) (trace (i + 1)) := by
  cases step with
  | idle same => rw [same]; exact .refl _
  | post s' posted next =>
    rw [next]
    exact ⟨appends _ _ posted, List.prefix_rfl, List.prefix_rfl, le_rfl⟩
  | attest verifier now batchSize a i₁ i₂ i₃ order allowed ok =>
    obtain ⟨latest, entries, verdicts, rows, -, -, -, -, -, next⟩ := runAttestBatch_ok ok
    rw [next]
    exact ⟨List.prefix_rfl, List.prefix_append _ _, List.prefix_append _ _, le_rfl⟩
  | publish a stored next =>
    rw [next]
    exact ⟨List.prefix_rfl, List.prefix_rfl, List.prefix_rfl, publish_ge _ _⟩
  | observe seq held next =>
    rw [next]
    exact ⟨List.prefix_rfl, List.prefix_rfl, List.prefix_rfl, le_rfl⟩

theorem Execution.grows (ex : Execution p start trace) (appends : Appends p) {j : Nat}
    (later : i ≤ j) : Grows (trace i) (trace j) := by
  induction j, later using Nat.le_induction with
  | base => exact .refl _
  | succ j _ ih => exact ih.trans ((ex.step j).grows appends)

end

theorem Grows.tables_entries {w w' : World} (grows : Grows w w') :
    w.tables.entries <+: w'.tables.entries :=
  grows.entries.map _

def rootAfter (rows : List Attestation) : GoString :=
  (rows.getLast?.map (·.rootHash)).getD genesisRoot

section

variable (p : Parties) (Q : Batch → Prop)

structure Link (t : AttestedTables) (prev : Option Attestation) (a : Attestation) (batch : Batch)
    (us : List AttestedRow) :
    Prop where
  attests : ∃ now, Attests p.sha256 p.sign now prev batch a (t.coverage.filter (·.seq == a.seq))
  covers : Covers t a.seq us
  read : collect AttestedRow.read us = .ok batch.entries
  sound : Q batch

structure Chain (t : AttestedTables) : Prop where
  nodup : (t.entries.map (·.id)).Nodup
  references : ∀ c ∈ t.coverage, ∃ a ∈ t.attestations, a.seq = c.seq
  links : ∀ k a, t.attestations[k]? = some a →
    ∃ batch us, Link p Q t (t.attestations.take k).getLast? a batch us

variable {p Q} {t t' : AttestedTables} {k : Nat} {a : Attestation} {us : List AttestedRow}

theorem getLast_take {α : Type} {l : List α} (bound : k < l.length) :
    (l.take (k + 1)).getLast? = l[k]? := by
  rw [List.getLast?_eq_getElem?, List.length_take, List.getElem?_take]
  rw [if_pos (by omega)]
  congr 1
  omega

theorem Chain.seq (chain : Chain p Q t) (row : t.attestations[k]? = some a) : a.seq = k + 1 := by
  induction k generalizing a with
  | zero =>
    obtain ⟨batch, us, link⟩ := chain.links 0 a row
    obtain ⟨now, attests⟩ := link.attests
    simpa using attests.seq
  | succ k ih =>
    obtain ⟨batch, us, link⟩ := chain.links (k + 1) a row
    obtain ⟨now, attests⟩ := link.attests
    have bound : k + 1 < t.attestations.length := (List.getElem?_eq_some_iff.mp row).1
    obtain ⟨b, before⟩ : ∃ b, t.attestations[k]? = some b := ⟨_, List.getElem?_eq_getElem (by omega)⟩
    have seq := attests.seq
    rw [getLast_take (by omega), before] at seq
    rw [seq, Option.map_some, Option.getD_some, ih before]
    push_cast
    ring

theorem Chain.seq_mem (chain : Chain p Q t) (member : a ∈ t.attestations) : ∃ k :
    Nat, t.attestations[k]? = some a ∧ a.seq = k + 1 := by
  obtain ⟨k, row⟩ := List.getElem?_of_mem member
  exact ⟨k, row, chain.seq row⟩

theorem Chain.prevRoot (chain : Chain p Q t) (row : t.attestations[k]? = some a) :
    a.prevRoot = rootAfter (t.attestations.take k) := by
  obtain ⟨batch, us, link⟩ := chain.links k a row
  obtain ⟨now, attests⟩ := link.attests
  rw [attests.prevRoot, rootAfter]
  cases last : (t.attestations.take k).getLast? with
  | none => simp
  | some b =>
    have member : b ∈ t.attestations := List.mem_of_mem_take (List.mem_of_getLast? last)
    obtain ⟨n, -, number⟩ := chain.seq_mem member
    rw [Option.map_some, Option.getD_some, if_neg (by omega)]
    rfl

theorem Link.grow {prev : Option Attestation} {batch : Batch} (link : Link p Q t prev a batch us)
    (added : List AttestedRow) (rows : List CoverageRow) (entries : t'.entries = t.entries ++ added)
    (coverage : t'.coverage = t.coverage ++ rows) (others : ∀ c ∈ rows, c.seq ≠ a.seq) :
    Link p Q t' prev a batch us := by
  have none_ : rows.filter (·.seq == a.seq) = [] := by
    rw [List.filter_eq_nil_iff]
    intro c member
    simpa using others c member
  refine ⟨?_, link.covers.grow entries coverage others, link.read, link.sound⟩
  rw [coverage, List.filter_append, none_, List.append_nil]
  exact link.attests

theorem Chain.post (chain : Chain p Q t) (entries : t.entries <+: t'.entries)
    (nodup : (t'.entries.map (·.id)).Nodup)
    (coverage : t'.coverage = t.coverage) (attestations : t'.attestations = t.attestations) :
    Chain p Q t' := by
  obtain ⟨added, same⟩ := entries
  refine ⟨nodup, ?_, ?_⟩
  · rw [coverage, attestations]
    exact chain.references
  · intro k a row
    rw [attestations] at row ⊢
    obtain ⟨batch, us, link⟩ := chain.links k a row
    exact ⟨batch, us, link.grow added [] same.symm (by rw [coverage, List.append_nil]) (by simp)⟩

theorem Chain.latest (chain : Chain p Q t) {latest : Option Attestation}
    (known : ∀ b, latest = some b → b ∈ t.attestations)
    (seq : a.seq = (latest.map (·.seq)).getD 0 + 1)
    (free : ∀ b ∈ t.attestations, b.seq ≠ a.seq) : latest = t.attestations.getLast? := by
  cases latest with
  | none =>
    cases rows : t.attestations with
    | nil => rfl
    | cons b rest =>
      have first := chain.seq (k := 0) (a := b) (by rw [rows]; rfl)
      refine absurd ?_ (free b (by rw [rows]; exact List.mem_cons_self))
      simpa using first.trans seq.symm
  | some b =>
    obtain ⟨k, row, number⟩ := chain.seq_mem (known b rfl)
    have bound := (List.getElem?_eq_some_iff.mp row).1
    have last : t.attestations.length = k + 1 := by
      by_contra more
      obtain ⟨c, next⟩ : ∃ c, t.attestations[k + 1]? = some c := ⟨_, List.getElem?_eq_getElem (by omega)⟩
      have after := chain.seq next
      refine free c (List.mem_of_getElem? next) ?_
      rw [after, seq, Option.map_some, Option.getD_some, number]
      push_cast
      ring
    rw [List.getLast?_eq_getElem?, last]
    exact row.symm

theorem Chain.attest (chain : Chain p Q t) {latest : Option Attestation}
    (known : ∀ b, latest = some b → b ∈ t.attestations) {now : Int} {batch : Batch}
    {rows : List CoverageRow}
    (attests : Attests p.sha256 p.sign now latest batch a rows) (stored : ∀ u ∈ us, u ∈ t.entries)
    (sorted : us.Pairwise fun a b => a.id < b.id)
    (read : collect AttestedRow.read us = .ok batch.entries)
    (sound : Q batch) (inserted : insertAttestation t a rows = .ok t') : Chain p Q t' := by
  obtain ⟨free, -, shape⟩ := insertAttestation_eq_ok.mp inserted
  have old : ∀ c ∈ t.coverage, c.seq ≠ a.seq := by
    intro c member same
    obtain ⟨b, inside, seq⟩ := chain.references c member
    exact free b inside (seq.trans same)
  have covers := attests.insert_covers stored sorted read old inserted
  have last := chain.latest known attests.seq free
  subst shape
  refine ⟨chain.nodup, ?_, ?_⟩
  · intro c member
    rcases List.mem_append.mp member with before | new
    · obtain ⟨b, inside, seq⟩ := chain.references c before
      exact ⟨b, List.mem_append_left _ inside, seq⟩
    · exact ⟨a, by simp, (attests.seqs c new).symm⟩
  · intro k b row
    rcases lt_trichotomy k t.attestations.length with inside | end_ | outside
    · simp only [List.getElem?_append_left inside] at row
      simp only [List.take_append_of_le_length inside.le]
      obtain ⟨batch', us', link⟩ := chain.links k b row
      refine ⟨batch', us', link.grow [] rows (by simp) rfl fun c member => ?_⟩
      rw [attests.seqs c member]
      exact (free b (List.mem_of_getElem? row)).symm
    · subst end_
      simp only [List.getElem?_append_right le_rfl, Nat.sub_self, List.getElem?_cons_zero, Option.some.injEq] at row
      subst row
      simp only [List.take_left']
      refine ⟨batch, us, ⟨now, ?_⟩, covers, read, sound⟩
      have none_ : t.coverage.filter (·.seq == a.seq) = [] := by
        rw [List.filter_eq_nil_iff]
        intro c member
        simpa using old c member
      have all : rows.filter (·.seq == a.seq) = rows := by
        rw [List.filter_eq_self]
        intro c member
        simpa using attests.seqs c member
      simp only [List.filter_append, none_, all, List.nil_append]
      rw [← last]
      exact attests
    · have none_ : (t.attestations ++ [a])[k]? = none := List.getElem?_eq_none (by simp; omega)
      rw [none_] at row
      cases row

end

theorem Execution.chain {p : Parties} {Q : Batch → Prop} {start : Store} {trace : Nat → World}
    (ex : Execution p start trace)
    (appends : Appends p) (keys : ∀ i, ((trace i).store.ledger.entries.map (·.id)).Nodup)
    (judged : ∀ verifier batchSize i₂ i₃ entries verdicts, p.verifiers verifier → i₂ ≤ i₃ →
      collect AttestedRow.read ((trace i₂).tables.uncoveredRows batchSize) = .ok entries →
      batchVerdicts p.hash verifier (trace i₃) entries = .ok verdicts →
      Q ⟨entries, verdicts⟩) (i : Nat) :
    Chain p Q (trace i).tables := by
  induction i with
  | zero =>
    refine ⟨tables_nodup (keys 0), ?_, ?_⟩ <;> simp [ex.start, World.tables]
  | succ i ih =>
    have nodup := tables_nodup (keys (i + 1))
    cases ex.step i with
    | idle same => rw [same]; exact ih
    | post s' posted next =>
      have entries := ((ex.step i).grows appends).tables_entries
      exact ih.post entries nodup (by rw [next]; rfl) (by rw [next]; rfl)
    | attest verifier now batchSize a i₁ i₂ i₃ order allowed ok =>
      obtain ⟨latest, entries, verdicts, rows, found, read, verdict, attests, inserted, -⟩ := runAttestBatch_ok ok
      -- What was read earlier is still there.
      have known : ∀ b, latest = some b → b ∈ (trace i).tables.attestations := fun b same =>
        (ex.grows appends (by omega : i₁ ≤ i)).attestations.subset (latestAttestation_mem found b same)
      have stored : ∀ u ∈ (trace i₂).tables.uncoveredRows batchSize, u ∈ (trace i).tables.entries := fun u member =>
        (ex.grows appends (by omega : i₂ ≤ i)).tables_entries.subset (mem_uncoveredRows member).1
      exact ih.attest known attests stored (uncoveredRows_sorted (tables_nodup (keys i₂)) batchSize) read
        (judged verifier batchSize i₂ i₃ entries verdicts allowed order.2.1 read verdict) inserted
    | publish a stored next =>
      exact ih.post (by rw [next]; exact List.prefix_rfl) nodup (by rw [next]; rfl) (by rw [next]; rfl)
    | observe seq held next =>
      exact ih.post (by rw [next]; exact List.prefix_rfl) nodup (by rw [next]; rfl) (by rw [next]; rfl)

end Ledger.Attested
