import Ledger.Service.VerifyLedger

namespace Ledger.Attested

open Core Postgres Shared

section

variable {W α β : Type} {world : Nat → W} {i j : Nat}

@[simp] theorem session_bind_ok {x : Session α} {f : α → Session β} {r : β × Nat} :
    (x >>= f) i = .ok r ↔ ∃ a j, x i = .ok (a, j) ∧ f a j = .ok r := by
  change (x i >>= fun r => f r.1 r.2) = .ok r ↔ _
  simp

variable {a : α}

@[simp] theorem session_pure_ok {b : α} : (pure a : Session α) i = .ok (b, j) ↔ a = b ∧ i = j := by
  change (Except.ok (a, i) : Result (α × Nat)) = .ok (b, j) ↔ _
  simp

@[simp] theorem observe_ok {context : String} {read : W → Result α} :
    observe world context read i = .ok (a, j) ↔ read (world i) = .ok a ∧ j = i + 1 := by
  simp only [observe, map_eq_ok, within_eq_ok, Prod.mk.injEq]
  constructor
  · rintro ⟨b, read, rfl, rfl⟩
    exact ⟨read, rfl⟩
  · rintro ⟨read, rfl⟩
    exact ⟨a, read, rfl, rfl⟩

@[simp] theorem attempt_ok {read : W → Result α} {r : Result α} :
    attempt world read i = .ok (r, j) ↔ r = read (world i) ∧ j = i + 1 := by
  simp [attempt, eq_comm]

@[simp] theorem session_throw_ok {err : Error} {r : α × Nat} :
    ¬(throw err : Session α) i = .ok r := by
  intro h
  cases h

variable {l : List α}

theorem foldlM_session {γ : Type} {f : γ → α → Session γ} {P : γ → Nat → Prop} {c c' : γ}
    (step : ∀ a ∈ l, ∀ c i c' j, P c i → f c a i = .ok (c', j) → P c' j) (start : P c i)
    (ok : l.foldlM f c i = .ok (c', j)) : P c' j := by
  induction l generalizing c i with
  | nil =>
    rw [List.foldlM_nil, session_pure_ok] at ok
    obtain ⟨rfl, rfl⟩ := ok
    exact start
  | cons a rest ih =>
    rw [List.foldlM_cons, session_bind_ok] at ok
    obtain ⟨c₁, k, first, ok⟩ := ok
    exact ih (fun b member => step b (List.mem_cons_of_mem _ member))
      (step a List.mem_cons_self _ _ _ _ start first) ok

theorem foldlM_session_isOk {γ : Type} {f : γ → α → Session γ}
    (step : ∀ a ∈ l, ∀ c i, ∃ c' j, f c a i = .ok (c', j))
    (c : γ) (i : Nat) : ∃ c' j, l.foldlM f c i = .ok (c', j) := by
  induction l generalizing c i with
  | nil => exact ⟨c, i, by simp⟩
  | cons a rest ih =>
    obtain ⟨c₁, k, first⟩ := step a List.mem_cons_self c i
    obtain ⟨c₂, m, more⟩ := ih (fun b member => step b (List.mem_cons_of_mem _ member)) c₁ k
    exact ⟨c₂, m, by rw [List.foldlM_cons, session_bind_ok]; exact ⟨c₁, k, first, more⟩⟩

end

@[simp] theorem reasonIf_eq_nil {found : Bool} {text : String} : reasonIf found text =
    [] ↔ found = false := by
  cases found <;> simp [reasonIf]

section

variable {W : Type} {ports : Ports W} {world : Nat → W} {keys : Keys} {anchor : Int × GoString}
  {a : Attestation}
  {i j : Nat}

theorem readLeaves_ok {r : Result (List (Int × GoString))}
    (ok : readLeaves ports world a i = .ok (r, j)) :
    i ≤ j ∧ (a.isV2 = true → r = ports.leafHashesForAttestation (world i) a.seq) := by
  unfold readLeaves at ok
  split at ok
  · rw [attempt_ok] at ok
    exact ⟨by omega, fun _ => ok.1⟩
  · next plain =>
    rw [session_pure_ok] at ok
    exact ⟨by omega, fun v2 => absurd v2 plain⟩

theorem readMaterial_ok {entries : List AttestedEntry}
    {r : Result (List (Int × JournalAuthMaterial))}
    (ok : readMaterial ports world a entries i = .ok (r, j)) :
    i ≤ j ∧ (a.isV3 = true → r = if distinctJournals entries = [] then .ok []
      else ports.journalAuthMaterial (world i) (distinctJournals entries)) := by
  unfold readMaterial at ok
  split at ok
  · next asked =>
    rw [attempt_ok] at ok
    exact ⟨by omega, fun _ => by rw [ok.1, if_neg asked.2]⟩
  · next plain =>
    rw [session_pure_ok] at ok
    refine ⟨by omega, fun v3 => ?_⟩
    have empty : distinctJournals entries = [] := by
      by_contra some_
      exact plain ⟨v3, some_⟩
    rw [← ok.1, if_pos empty]

variable {w w' : Walk}

theorem checkRow_ok (ok : checkRow ports world keys anchor w a i = .ok (w', j)) :
    ∃ entries leaves materials, ports.entriesForAttestation (world i) a.seq = .ok entries ∧
      (a.isV2 = true → ∃ k, i ≤ k ∧ leaves = ports.leafHashesForAttestation (world k) a.seq) ∧
      (a.isV3 = true → ∃ k, i ≤ k ∧ materials =
        if distinctJournals entries = [] then .ok [] else ports.journalAuthMaterial (world k)
        (distinctJournals entries)) ∧
      i < j ∧ w' = {
        expectedSeq := a.seq + 1
        prevRoot := a.rootHash
        maxSeqSeen := a.seq
        reasons := w.reasons ++ (linkReasons keys a w ++ contentReasons keys a entries ++
          (if a.isV2 then merkleReasons keys a entries ++ leafReasons keys a leaves else []) ++
          (if a.isV3 then verdictReasons keys a entries materials else []) ++
            rootReasons keys a w ++ anchorReasons a anchor) } := by
  unfold checkRow at ok
  simp only [session_bind_ok, observe_ok, session_pure_ok] at ok
  obtain ⟨entries, _, ⟨read, rfl⟩, leaves, k, leafRead, materials, l, materialRead, rfl, rfl⟩ := ok
  have leafAt := readLeaves_ok leafRead
  have materialAt := readMaterial_ok materialRead
  exact ⟨entries, leaves, materials, read, fun v2 => ⟨i + 1, by omega, leafAt.2 v2⟩,
    fun v3 => ⟨k, by omega, materialAt.2 v3⟩, by omega, rfl⟩

variable {fuel : Nat}

variable {cfg : VerifyConfig} {now : Instant}

theorem checkUncovered_ok {r : List String × List String} :
    checkUncovered ports world keys cfg now i = .ok (r, j) ↔
      ∃ uncovered, ports.uncoveredEntries (world i) cfg.uncoveredProbeLimit.toNat = .ok uncovered ∧
        (uncovered = [] ∧ r = ([], []) ∧ j = i + 1 ∨ uncovered ≠ [] ∧ j = i + 2 ∧
            ∃ materials, ports.journalAuthMaterial (world (i + 1)) (distinctJournals uncovered) = .ok materials ∧
              r = uncoveredFindings keys cfg now uncovered materials) := by
  simp only [checkUncovered, session_bind_ok, observe_ok]
  constructor
  · rintro ⟨uncovered, _, ⟨read, rfl⟩, ok⟩
    refine ⟨uncovered, read, ?_⟩
    split at ok
    · next none_ =>
      rw [session_pure_ok] at ok
      exact .inl ⟨none_, ok.1.symm, ok.2.symm⟩
    · next some_ =>
      simp only [session_bind_ok, observe_ok, session_pure_ok] at ok
      obtain ⟨materials, _, ⟨fetched, rfl⟩, same, rfl⟩ := ok
      exact .inr ⟨some_, rfl, materials, fetched, same.symm⟩
  · rintro ⟨uncovered, read, ⟨none_, rfl, rfl⟩ | ⟨some_, rfl, materials, fetched, rfl⟩⟩
    · exact ⟨uncovered, i + 1, ⟨read, rfl⟩, by rw [if_pos none_, session_pure_ok]; exact ⟨rfl, rfl⟩⟩
    · refine ⟨uncovered, i + 1, ⟨read, rfl⟩, ?_⟩
      rw [if_neg some_]
      simp only [session_bind_ok, observe_ok, session_pure_ok]
      exact ⟨materials, i + 2, ⟨fetched, rfl⟩, rfl, rfl⟩

theorem checkSample_ok {r : List String} : checkSample ports world keys cfg i = .ok (r, j) ↔
      ∃ journals reasons, ports.listRecentJournals (world i) cfg.journalSampleSize.toNat = .ok journals ∧
        journals.foldlM (checkSampled ports world keys) [] (i + 1) = .ok (reasons, j) ∧
        r = reasons ++ unsignedReasons journals := by
  simp only [checkSample, session_bind_ok, observe_ok, session_pure_ok]
  constructor
  · rintro ⟨journals, _, ⟨read, rfl⟩, reasons, _, sampled, same, rfl⟩
    exact ⟨journals, reasons, read, sampled, same.symm⟩
  · rintro ⟨journals, reasons, read, sampled, rfl⟩
    exact ⟨journals, i + 1, ⟨read, rfl⟩, reasons, j, sampled, rfl, rfl⟩

theorem checkSampled_ok {reasons reasons' : List String} {j : Journal} {k : Nat} :
    checkSampled ports world keys reasons j i = .ok (reasons', k) ↔
      j.authStatus ≠ .signed ∧ reasons' = reasons ∧ k = i ∨ j.authStatus = .signed ∧ k = i + 1 ∧
      reasons' = reasons ++
        match ports.getJournal (world i) j.uid with
        | .error _ => ["journal %s: refetch for sampling: %v"]
        | .ok entries => reasonIf (!(verifyJournalAuth keys.hash keys.verify
            { journalInputFromRecord j entries with eventUID := j.eventUID } (j.effectiveAt * 1000)
              j.authDigest j.authSignature
            j.authKeyID).isOk) "journal %s: signature verification failed: %v" := by
  unfold checkSampled
  by_cases signed : j.authStatus = .signed
  · simp only [signed, ne_eq, not_true_eq_false, if_false, session_bind_ok, attempt_ok,
      false_and, false_or, true_and]
    constructor
    · rintro ⟨r, _, ⟨rfl, rfl⟩, ok⟩
      cases read : ports.getJournal (world i) j.uid with
      | error err =>
        simp only [read, session_pure_ok] at ok ⊢
        exact ⟨ok.2.symm, ok.1.symm⟩
      | ok entries =>
        simp only [read, session_pure_ok] at ok ⊢
        exact ⟨ok.2.symm, ok.1.symm⟩
    · rintro ⟨rfl, rfl⟩
      refine ⟨_, i + 1, ⟨rfl, rfl⟩, ?_⟩
      cases read : ports.getJournal (world i) j.uid with
      | error err => simp
      | ok entries => simp
  · simp only [ne_eq, signed, not_false_eq_true, if_true, session_pure_ok, true_and, false_and, or_false]
    exact ⟨fun h => ⟨h.1.symm, h.2.symm⟩, fun h => ⟨h.1.symm, h.2.symm⟩⟩

theorem normalized_chainPageSize (cfg : VerifyConfig) : 0 < cfg.normalized.chainPageSize.toNat := by
  simp only [VerifyConfig.normalized, defaultVerifyConfig]
  split
  · decide
  · omega

theorem verifySteps_ok {reasons drift : List String} {anchorSeq maxSeqSeen : Int} :
    verifySteps ports world keys cfg now fuel i = .ok ((reasons, drift, anchorSeq, maxSeqSeen), j) ↔
      ∃ anchor w k lastObserved uncovered backlog l sampled, ports.anchorHead (world i) = .ok anchor ∧
        walkChain ports world keys anchor cfg.chainPageSize.toNat fuel ⟨1, genesisRoot, 0, []⟩ (i + 1) = .ok (w, k) ∧
        ports.highestObservedAnchorSeq (world k) = .ok lastObserved ∧
        checkUncovered ports world keys cfg now (k + 1) = .ok ((uncovered, backlog), l) ∧
        checkSample ports world keys cfg l = .ok (sampled, j) ∧
        reasons = w.reasons ++ headReasons anchor.1 w.maxSeqSeen lastObserved ++ uncovered ++ sampled ∧
        drift = backlog ++ reasonIf (0 < anchor.1 ∧ anchor.1 < w.maxSeqSeen)
          "anchor is behind the DB chain by %d attestation(s) (catch-up pending)" ∧
        anchorSeq = anchor.1 ∧ maxSeqSeen = w.maxSeqSeen := by
  simp only [verifySteps, session_bind_ok, observe_ok, session_pure_ok, Prod.mk.injEq]
  constructor
  · rintro ⟨anchor, _, ⟨head, rfl⟩, w, k, walked, lastObserved, _, ⟨observed, rfl⟩,
      ⟨uncovered, backlog⟩, l, probed, sampled, m,
      sample, ⟨rfl, rfl, rfl, rfl⟩, rfl⟩
    exact ⟨anchor, w, k, lastObserved, uncovered, backlog, l, sampled, head, walked, observed,
      probed, sample, rfl, rfl, rfl, rfl⟩
  · rintro ⟨anchor, w, k, lastObserved, uncovered, backlog, l, sampled, head, walked, observed,
      probed, sample, rfl, rfl, rfl, rfl⟩
    exact ⟨anchor, i + 1, ⟨head, rfl⟩, w, k, walked, lastObserved, k + 1, ⟨observed, rfl⟩,
      (uncovered, backlog), l, probed,
      sampled, j, sample, ⟨rfl, rfl, rfl, rfl⟩, rfl⟩

theorem verifyLedger_tampered_iff :
    (verifyLedger ports world keys cfg now fuel).status = .tampered ↔
    ∃ reasons drift anchorSeq maxSeqSeen j,
      verifySteps ports world keys cfg.normalized now fuel 0 =
      .ok ((reasons, drift, anchorSeq, maxSeqSeen), j) ∧ reasons ≠ [] := by
  simp only [verifyLedger, StateT.run]
  cases ran : verifySteps ports world keys cfg.normalized now fuel 0 with
  | error err => simp
  | ok r =>
    obtain ⟨⟨reasons, drift, anchorSeq, maxSeqSeen⟩, j⟩ := r
    simp only
    constructor
    · intro status
      refine ⟨reasons, drift, anchorSeq, maxSeqSeen, j, rfl, ?_⟩
      rintro rfl
      rw [if_neg (by simp)] at status
      split at status
      · cases status
      · split at status <;> cases status
    · rintro ⟨_, _, _, _, _, same, found⟩
      cases same
      rw [if_pos found]

end

end Ledger.Attested
