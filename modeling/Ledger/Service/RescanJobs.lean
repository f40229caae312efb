import Ledger.Service.OnchainRuns

namespace Ledger.Service

open Chains Core Postgres Shared

def PortCall.isProgress : PortCall → Bool
  | .setCursor .. | .enqueueRescans _ | .claimRescans .. | .advanceRescan .. | .retryRescan .. =>
  true
  | _ => false

variable {h : Answers} {c : PortCall}

theorem Ingests.isProgress {cfg : OnchainConfig} {s : DepositSighting}
    (ingests : Ingests cfg s h c) : c.isProgress = false := by
  cases ingests with
  | books holder currencyUID => rfl
  | buries reason => rfl
  | advances holder currencyUID chain b booked c advances =>
    cases advances with
    | opens isPending => rfl
    | reviews isOpen reason => rfl
    | credits isOpen deep token listed c posts => cases posts; rfl

/-- Each of these calls belongs to one kind of operation. -/
inductive ProgressOf (cfg : OnchainConfig) (h : Answers) : Operation → PortCall → Prop where
  | registers (holder : Int) (input : AddressRegistrationInput) (da : DepositAddress)
      (answer : ⟨.ensureAddress input, .ok da⟩ ∈ h) :
      ProgressOf cfg h (.register holder) (.enqueueRescans (rescanJobs cfg.chains da.address))
  | claims : ProgressOf cfg h .claimRescans (.claimRescans cfg.maxConcurrentRescans cfg.registrationRescanTimeout)
  | scans (replica : Nat) (chainID : Int) (c : PortCall) (scans : Scans cfg chainID h c) :
      ProgressOf cfg h (.scan replica chainID) c
  | rescans (replica : Nat) (job : RegistrationRescan) (c : PortCall) (rescans : Rescans cfg job h c) :
      ProgressOf cfg h (.rescan replica job) c

theorem progress_writes {cfg : OnchainConfig} {l : Operation} (writes : l.writes cfg h c)
    (progress : c.isProgress = true) : ProgressOf cfg h l c := by
  have none : c.isProgress = false → ProgressOf cfg h l c := by
    intro is
    rw [is] at progress
    cases progress
  cases l with
  | ingest replica s => exact none (Ingests.isProgress writes)
  | recheck replica pages =>
    obtain ⟨depositUID, -, status, -, b, -, m, -, rechecks⟩ := writes
    refine none ?_
    cases rechecks with
    | fails | opens isPending | reviews => rfl
    | advances chain configured latest head evidence c advances =>
      cases advances with
      | opens isPending => rfl
      | reviews isOpen reason => rfl
      | credits isOpen deep token listed c posts => cases posts; rfl
  | replay replica uid =>
    obtain ⟨dl, -, ingests⟩ := writes
    exact none ingests.isProgress
  | approve uid actor =>
    obtain ⟨b, -, -, credits⟩ := writes
    cases credits
    exact none rfl
  | reject uid actor reason =>
    obtain ⟨b, -, -, rfl⟩ := writes
    exact none rfl
  | append input =>
    cases writes
    exact none rfl
  | register holder =>
    cases writes with
    | ensures input => exact none rfl
    | enqueues input da answer => exact .registers holder input da answer
  | scan replica chainID => exact .scans replica chainID c writes
  | claimRescans =>
    cases writes
    exact .claims
  | rescan replica job => exact .rescans replica job c writes

/-- What a call leaves of a row: its progress only changes under the token the call names. -/
structure RowStep (c : PortCall) (row row' : RescanRow) : Prop where
  uid : row'.uid = row.uid
  chainID : row'.chainID = row.chainID
  address : row'.address = row.address
  attempts : row.attempts ≤ row'.attempts
  nextBlock : row'.nextBlock = row.nextBlock ∨
    row'.attempts = row.attempts ∧ ∃ completed, c = .advanceRescan (pgToUID row.uid) row'.nextBlock
      completed row.attempts
  completed : row'.status = .completed → row.status = .completed ∨
    c = .advanceRescan (pgToUID row.uid) row'.nextBlock true row.attempts

theorem RowStep.refl (c : PortCall) (row : RescanRow) : RowStep c row row :=
  ⟨rfl, rfl, rfl, le_rfl, .inl rfl, .inl⟩

structure RowQueued (c : PortCall) (row : RescanRow) : Prop where
  job : ∃ jobs, c = .enqueueRescans jobs ∧ ∃ job ∈ jobs, row.chainID = job.chainID ∧ row.address =
    job.address ∧ row.nextBlock = job.nextBlock
  open_ : row.status ≠ .completed

structure QueueStep (c : PortCall) (t t' : RescanTable) : Prop where
  rows : ∃ f new, t'.rows = t.rows.map f ++ new ∧ (∀ row ∈ t.rows, RowStep c row (f row)) ∧
    ∀ row ∈ new, RowQueued c row
  uids : (t.rows.map (·.uid)).Nodup → (t'.rows.map (·.uid)).Nodup

section

variable {t t' : RescanTable} {now : Int} {c : PortCall} {f : RescanRow → RescanRow} {w w' : World}

theorem QueueStep.ofMap (rows : t'.rows = t.rows.map f)
    (steps : ∀ row ∈ t.rows, RowStep c row (f row)) : QueueStep c t t' := by
  refine ⟨⟨f, [], by rw [rows, List.append_nil], steps, nofun⟩, fun nodup => ?_⟩
  have same : t'.rows.map (·.uid) = t.rows.map (·.uid) := by
    rw [rows, List.map_map]
    exact List.map_congr_left fun row member => (steps row member).uid
  rw [same]
  exact nodup

theorem insert_rows {uid : Uuid} {job : RegistrationRescan} (ok : t.insert now uid job = .ok t') :
    t' = t ∨ (∀ row ∈ t.rows, row.uid ≠ uid) ∧
      t'.rows = t.rows ++ [⟨t.nextID, uid, job.chainID, job.address, job.nextBlock, .pending,
        0, now, none⟩] := by
  simp only [RescanTable.insert, bind_eq_ok, require_eq_ok] at ok
  obtain ⟨_, -, rest⟩ := ok
  split at rest
  · exact .inl (pure_eq_ok.mp rest).symm
  · simp only [bind_eq_ok, require_eq_ok, pure_eq_ok, List.all_eq_true, bne_iff_ne] at rest
    obtain ⟨_, fresh, rfl⟩ := rest
    exact .inr ⟨fresh, rfl⟩

variable {jobs : List RegistrationRescan} {cfg : OnchainConfig}

theorem enqueue_rows {uids : List Uuid} (ok : RescanTable.enqueue now uids t jobs = .ok t') :
    (∃ new, t'.rows = t.rows ++ new ∧ ∀ row ∈ new, row.status ≠ .completed ∧
      ∃ job ∈ jobs, row.chainID = job.chainID ∧ row.address = job.address ∧
      row.nextBlock = job.nextBlock) ∧
      ((t.rows.map (·.uid)).Nodup → (t'.rows.map (·.uid)).Nodup) := by
  induction jobs generalizing uids t with
  | nil =>
    rw [RescanTable.enqueue] at ok
    cases ok
    exact ⟨⟨[], (List.append_nil _).symm, by intros; contradiction⟩, id⟩
  | cons job jobs ih =>
    cases uids with
    | nil => cases ok
    | cons uid uids =>
      simp only [RescanTable.enqueue, bind_eq_ok] at ok
      obtain ⟨mid, inserted, rest⟩ := ok
      obtain ⟨⟨new, rows, queued⟩, uids⟩ := ih rest
      have later : ∀ row ∈ new, row.status ≠ .completed ∧ ∃ job' ∈ job :: jobs, row.chainID = job'.chainID ∧
          row.address = job'.address ∧ row.nextBlock = job'.nextBlock := by
        intro row member
        obtain ⟨open_, job', listed, same⟩ := queued row member
        exact ⟨open_, job', List.mem_cons_of_mem job listed, same⟩
      rcases insert_rows inserted with rfl | ⟨fresh, added⟩
      · exact ⟨⟨new, rows, later⟩, uids⟩
      · refine ⟨⟨_ :: new, by rw [rows, added, List.append_assoc, List.singleton_append],
          fun row member => ?_⟩, fun nodup => uids ?_⟩
        · rcases List.mem_cons.mp member with rfl | old
          · exact ⟨by simp, job, List.mem_cons_self, rfl, rfl, rfl⟩
          · exact later row old
        · rw [added, List.map_append, List.nodup_append]
          refine ⟨nodup, by simp, fun u old u' this => ?_⟩
          obtain ⟨row, member, rfl⟩ := List.mem_map.mp old
          rw [List.map_singleton, List.mem_singleton] at this
          rw [this]
          exact fresh row member

theorem updateHeld_rows {uid : GoString} {expectedAttempts : Int} {missing : Error}
    (ok : t.updateHeld uid expectedAttempts f missing = .ok t') :
    t'.rows = t.rows.map fun row => if RescanTable.holds uid expectedAttempts
    row then f row else row := by
  simp only [RescanTable.updateHeld, bind_eq_ok, require_eq_ok, pure_eq_ok] at ok
  obtain ⟨_, -, rfl⟩ := ok
  rfl

theorem Queued.step (queued : Queued t c t') : QueueStep c t t' := by
  cases queued with
  | enqueued now uids jobs t' ok =>
    obtain ⟨⟨new, rows, added⟩, uids⟩ := enqueue_rows ok
    refine ⟨⟨id, new, by rw [rows, List.map_id], fun row _ => .refl _ row, fun row member => ?_⟩, uids⟩
    obtain ⟨open_, job, listed, same⟩ := added row member
    exact ⟨⟨jobs, rfl, job, listed, same⟩, open_⟩
  | claimed now locked limit lease t' jobs ok =>
    simp only [RescanTable.claim, bind_eq_ok, pure_eq_ok, Prod.mk.injEq] at ok
    obtain ⟨_, -, rfl, -⟩ := ok
    refine .ofMap rfl fun row _ => ?_
    split
    · exact ⟨rfl, rfl, rfl, by simp [RescanTable.claimRow], .inl rfl, by intros; contradiction⟩
    · exact .refl _ row
  | advanced now uid nextBlock completed expectedAttempts t' ok =>
    simp only [RescanTable.advance, bind_eq_ok] at ok
    obtain ⟨_, -, updated⟩ := ok
    refine .ofMap (updateHeld_rows updated) fun row _ => ?_
    split
    · rename_i holds
      simp only [RescanTable.holds, Bool.and_eq_true, beq_iff_eq] at holds
      obtain ⟨rfl, rfl⟩ := holds
      refine ⟨rfl, rfl, rfl, le_rfl, .inr ⟨rfl, completed, rfl⟩, fun is => .inr ?_⟩
      cases completed with
      | true => rfl
      | false => cases is
    · exact .refl _ row
  | retried now uid delay expectedAttempts t' ok =>
    refine .ofMap (updateHeld_rows ok) fun row _ => ?_
    split
    · exact ⟨rfl, rfl, rfl, le_rfl, .inl rfl, by intros; contradiction⟩
    · exact .refl _ row

theorem Serves.queueStep {ans : c.Answer} (served : Serves cfg w c ans w') :
    QueueStep c w.rescans w'.rescans := by
  have unchanged : QueueStep c w.rescans w.rescans :=
    .ofMap (List.map_id _).symm fun row _ => .refl c row
  cases served.written with
  | queued c t progress => exact progress.step
  | _ => exact unchanged

theorem claimRescans_answer {limit : Nat} {lease : Int}
    (served : Serves cfg w (.claimRescans limit lease) (.ok jobs) w') :
    ∀ job ∈ jobs, ∃ row ∈ w.rescans.rows, ∃ row' ∈ w'.rescans.rows, job = RescanTable.jobOf row' ∧
    row'.uid = row.uid ∧
      row'.address = row.address ∧ row.attempts < row'.attempts := by
  rcases served.answer with ⟨d, answer, rfl⟩ | ⟨err, refused, -⟩
  · obtain ⟨t, ok, put⟩ := World.write_ok answer.symm
    rw [perform, put]
    simp only [RescanTable.claim, bind_eq_ok, pure_eq_ok, Prod.mk.injEq] at ok
    obtain ⟨_, -, rfl, rfl⟩ := ok
    intro job member
    obtain ⟨row', selected, rfl⟩ := List.mem_map.mp member
    obtain ⟨inside, chosen⟩ := List.mem_filter.mp selected
    obtain ⟨row, old, rfl⟩ := List.mem_map.mp inside
    refine ⟨row, old, _, inside, rfl, ?_⟩
    split
    · exact ⟨rfl, rfl, by simp [RescanTable.claimRow]⟩
    · rename_i other
      rw [if_neg other] at chosen
      exact absurd (of_decide_eq_true chosen) other
  · cases refused

end

def claimedJobs (trace : List OnchainAct) : List RegistrationRescan :=
  trace.flatMap OnchainAct.claimed

structure JobRow (job : RegistrationRescan) (row : RescanRow) : Prop where
  uid : pgToUID row.uid = job.uid
  chainID : row.chainID = job.chainID
  address : row.address = job.address
  attempts : job.attempts ≤ row.attempts
  nextBlock : row.attempts = job.attempts → job.nextBlock ≤ row.nextBlock

structure QueueSound (trace : List OnchainAct) (w : World) : Prop where
  uids : (w.rescans.rows.map (·.uid)).Nodup
  registered : ∀ row ∈ w.rescans.rows, ∃ da ∈ w.addresses, da.address = row.address
  -- Whoever works on a job works on an address that was registered when the job was claimed.
  known : ∀ a ∈ trace, ∀ job ∈ OnchainAct.claimed a, ∃ da ∈ a.after.addresses,
    da.address = job.address
  held : ∀ job ∈ claimedJobs trace, ∃ row ∈ w.rescans.rows, JobRow job row
  tokens : ∀ job ∈ claimedJobs trace, ∀ job' ∈ claimedJobs trace, job.uid = job'.uid →
    job.attempts = job'.attempts → job = job'

theorem queueSound_empty {w : World} (none : w.rescans.rows = []) : QueueSound [] w := by
  refine ⟨?_, ?_, fun a absent => (List.not_mem_nil absent).elim, fun job absent =>
    (List.not_mem_nil absent).elim,
    fun job absent => (List.not_mem_nil absent).elim⟩ <;> rw [none]
  · exact .nil
  · nofun

theorem pgToUID_injective {u v : Uuid} (same : pgToUID u = pgToUID v) :
    u = v := Uuid.print_injective same

theorem row_of_uid {t : RescanTable} (uids : (t.rows.map (·.uid)).Nodup) {row row' : RescanRow}
    (member : row ∈ t.rows)
    (member' : row' ∈ t.rows) (same : pgToUID row.uid = pgToUID row'.uid) : row = row' :=
  List.inj_on_of_nodup_map uids member member' (pgToUID_injective same)

variable {job : RegistrationRescan}

theorem mem_claimed {a : OnchainAct} (member : job ∈ OnchainAct.claimed a) :
    ∃ limit lease jobs, a.exchange = ⟨.claimRescans limit lease, .ok jobs⟩ ∧ job ∈ jobs := by
  obtain ⟨thread, label, history, op, ans, before, after⟩ := a
  cases op with
  | claimRescans limit lease =>
    cases ans with
    | error err => cases member
    | ok jobs => exact ⟨limit, lease, jobs, rfl, member⟩
  | _ => cases member

theorem admitted_job {cfg : OnchainConfig} {chainMoves : (Int → Chain) → (Int → Chain) → Prop}
    {served : List OnchainAct}
    {t replica : Nat} (explained : Interleaving.Explained (onchainSystem cfg chainMoves) served t
      (.rescan replica job) h) :
    job ∈ claimedJobs served := by
  obtain ⟨start, rest, acts, rfl, ⟨a, member, claimed⟩, -, -⟩ := explained
  exact List.mem_flatMap.mpr ⟨a, List.mem_append_left rest member, claimed⟩

section

variable {cfg : OnchainConfig} {chainMoves : (Int → Chain) → (Int → Chain) → Prop}
  {h : Answers} {l : Operation}
  {job : RegistrationRescan} {nextBlock : Int} {completed : Bool}

theorem Advance.forward (advance : Advance cfg job h nextBlock completed) :
    job.nextBlock ≤ nextBlock := by
  have window := cfg.windowPositive
  cases advance with
  | finishes latest above answers => exact le_rfl
  | moves latest below to_ stop sightings rest answers handled => omega

theorem advance_job {uid : GoString} {expectedAttempts : Int}
    (writes : Writes (fun h c => l.writes cfg h c) h
      (.advanceRescan uid nextBlock completed expectedAttempts)) :
    ∃ replica job, l = .rescan replica job ∧ uid = job.uid ∧ expectedAttempts = job.attempts ∧
    Advance cfg job h nextBlock completed := by
  cases progress_writes (writes rfl) rfl with
  | scans replica chainID c scans =>
    cases scans with
    | ingests s c ingests => cases ingests.isProgress
  | rescans replica job c rescans =>
    cases rescans with
    | ingests s c ingests => cases ingests.isProgress
    | advances nextBlock completed advance => exact ⟨replica, job, rfl, rfl, rfl, advance⟩

theorem enqueue_jobs {jobs : List RegistrationRescan}
    (writes : Writes (fun h c => l.writes cfg h c) h (.enqueueRescans jobs)) :
    ∃ input da, ⟨.ensureAddress input, .ok da⟩ ∈ h ∧ jobs = rescanJobs cfg.chains da.address := by
  cases progress_writes (writes rfl) rfl with
  | registers holder input da answer => exact ⟨input, da, answer, rfl⟩
  | scans replica chainID c scans =>
    cases scans with
    | ingests s c ingests => cases ingests.isProgress
  | rescans replica job c rescans =>
    cases rescans with
    | ingests s c ingests => cases ingests.isProgress

theorem rescanJobs_address {chains : ChainSet} {address : GoString}
    (member : job ∈ rescanJobs chains address) :
    job.address = address ∧ ∃ chain, chains.get job.chainID = some chain ∧ job.nextBlock =
    chain.scanStartBlock := by
  obtain ⟨⟨chainID, chain⟩, entry, rfl⟩ := List.mem_map.mp member
  exact ⟨rfl, chain, SortedMap.get_eq_some_of_mem entry, rfl⟩

theorem queueSound_act {q : OnchainPool} {a : OnchainAct} (sound : OnchainSound cfg chainMoves q)
    (here : QueueSound q.trace q.world)
    (addresses : q.world.addresses ⊆ a.after.addresses)
    (served : Serves cfg q.world a.op a.ans a.after)
    (writes : Writes (fun h c => a.label.writes cfg h c) a.history a.op)
    (explained : Interleaving.Explained (onchainSystem cfg chainMoves) q.trace a.thread
      a.label a.history) :
    QueueSound (q.trace ++ [a]) a.after := by
  obtain ⟨⟨f, new, rows, steps, added⟩, uids⟩ := served.queueStep
  have uids' := uids here.uids
  -- A job that was claimed before keeps its row.
  have held : ∀ job ∈ claimedJobs q.trace, ∃ row ∈ a.after.rescans.rows, JobRow job row := by
    intro job claimed
    obtain ⟨row, member, jobRow⟩ := here.held job claimed
    have step := steps row member
    refine ⟨f row, rows ▸ List.mem_append_left new (List.mem_map_of_mem member), ?_⟩
    refine ⟨by rw [step.uid, jobRow.uid], by rw [step.chainID, jobRow.chainID],
      by rw [step.address, jobRow.address],
      jobRow.attempts.trans step.attempts, fun token => ?_⟩
    have same : row.attempts = job.attempts := le_antisymm (token ▸ step.attempts) jobRow.attempts
    rcases step.nextBlock with eq | ⟨-, completed, call⟩
    · rw [eq]
      exact jobRow.nextBlock same
    · rw [call] at writes
      obtain ⟨replica, job', label, uid, attempts, advance⟩ := advance_job writes
      rw [label] at explained
      rw [here.tokens job claimed job' (admitted_job explained) (jobRow.uid.symm.trans uid) (same.symm.trans attempts)]
      exact advance.forward
  -- A job that is claimed now has a token nobody was given before.
  have fresh : ∀ job ∈ OnchainAct.claimed a, ∃ row ∈ q.world.rescans.rows, ∃ row' ∈
    a.after.rescans.rows,
      job = RescanTable.jobOf row' ∧ row'.uid = row.uid ∧ row'.address = row.address ∧
        row.attempts < row'.attempts := by
    intro job claimed
    obtain ⟨limit, lease, jobs, exchange, listed⟩ := mem_claimed claimed
    obtain ⟨thread, label, history, op, ans, before, after⟩ := a
    cases exchange
    exact claimRescans_answer served job listed
  have apart : ∀ job ∈ claimedJobs q.trace, ∀ job' ∈ OnchainAct.claimed a, job.uid = job'.uid →
    job.attempts = job'.attempts → False := by
    intro job old job' claimed uid attempts
    obtain ⟨row, member, jobRow⟩ := here.held job old
    obtain ⟨row₀, member₀, row', -, rfl, same, -, less⟩ := fresh job' claimed
    have eq : row = row₀ := row_of_uid here.uids member member₀ (by rw [jobRow.uid, uid, ← same]; rfl)
    have behind := jobRow.attempts
    rw [eq, attempts] at behind
    exact absurd (lt_of_lt_of_le less behind) (lt_irrefl _)
  have split : ∀ job, job ∈ claimedJobs (q.trace ++ [a]) ↔ job ∈ claimedJobs q.trace ∨
    job ∈ OnchainAct.claimed a := by
    intro job
    simp [claimedJobs]
  refine ⟨uids', fun row member => ?_, fun b member job claimed => ?_, fun job claimed => ?_,
    fun job claimed job' claimed' uid attempts => ?_⟩
  · rw [rows] at member
    rcases List.mem_append.mp member with old | added'
    · obtain ⟨row₀, member₀, rfl⟩ := List.mem_map.mp old
      obtain ⟨da, listed, is⟩ := here.registered row₀ member₀
      exact ⟨da, addresses listed, by rw [is, (steps row₀ member₀).address]⟩
    · -- The registration had its address answered before.
      obtain ⟨⟨jobs, call, job, listed, -, address, -⟩, -⟩ := added row added'
      rw [call] at writes
      obtain ⟨input, da, answer, rfl⟩ := enqueue_jobs writes
      obtain ⟨w, w', answered, -, -, later⟩ := explained_served sound explained answer
      obtain ⟨da', stored, is⟩ := ensureAddress_answer answered
      exact ⟨da', addresses (later.addresses stored), by rw [is, address, (rescanJobs_address listed).1]⟩
  · rcases List.mem_append.mp member with old | this
    · exact here.known b old job claimed
    · cases List.mem_singleton.mp this
      obtain ⟨row, stored, row', -, rfl, -, address, -⟩ := fresh job claimed
      obtain ⟨da, listed, is⟩ := here.registered row stored
      exact ⟨da, addresses listed, by rw [is, ← address]; rfl⟩
  · rcases (split job).mp claimed with old | now
    · exact held job old
    · obtain ⟨row, -, row', member, rfl, -, -⟩ := fresh job now
      exact ⟨row', member, rfl, rfl, rfl, le_rfl, fun _ => le_rfl⟩
  · rcases (split job).mp claimed with old | now <;> rcases (split job').mp claimed' with old' | now'
    · exact here.tokens job old job' old' uid attempts
    · exact (apart job old job' now' uid attempts).elim
    · exact (apart job' old' job now uid.symm attempts.symm).elim
    · obtain ⟨-, -, row, member, rfl, -, -⟩ := fresh job now
      obtain ⟨-, -, row', member', rfl, -, -⟩ := fresh job' now'
      rw [row_of_uid uids' member member' uid]

theorem queue_sound (reflexive : ∀ chains, chainMoves chains chains)
    (transitive : ∀ x y z, chainMoves x y → chainMoves y z → chainMoves x z) {w : World}
    {p : OnchainPool} (sane : Sane cfg w)
    (start : QueueSound [] w) (run : Run (onchainSystem cfg chainMoves).Step (.still w) p) :
    QueueSound p.trace p.world ∧ ∀ earlier a later, p.trace = earlier ++ a :: later →
    QueueSound earlier a.before := by
  refine onchain_traced reflexive transitive sane start ?_ ?_ run
  · intro q a sound here before served writes explained
    have later := (call_keeps reflexive a.label a.history _ a.op a.ans _ sound.holds served writes).2
    exact queueSound_act sound here later.addresses served writes explained
  · intro trace v v' here moved
    cases moved with
    | restart replica | chain chains secondSource moved =>
      exact ⟨here.uids, here.registered, here.known, here.held, here.tokens⟩

end

end Ledger.Service
