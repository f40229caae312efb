import Ledger.Service.ScanCoverage

namespace Ledger.Service

open Chains Core Postgres Shared

def HeadsRise (before after : Int → Chain) : Prop := ∀ chainID, (before chainID).head ≤
    (after chainID).head

theorem HeadsRise.refl (chains : Int → Chain) : HeadsRise chains chains := fun _ => le_rfl

theorem HeadsRise.trans (a b c : Int → Chain) (first : HeadsRise a b) (second : HeadsRise b c) :
    HeadsRise a c :=
  fun chainID => (first chainID).trans (second chainID)

def fetched (trace : List OnchainAct) (chainID : Int) (address : GoString) (block : Int) : Bool :=
  trace.any fun a => fetches chainID address block a.exchange

def ReadTo (cfg : OnchainConfig) (trace : List OnchainAct) (chainID : Int) (address : GoString)
    (bound : Int) : Prop :=
  ∃ chain, cfg.chains.get chainID = some chain ∧
    ∀ block, chain.scanStartBlock ≤ block → block < bound → fetched trace chainID address block = true

def CaughtUp (cfg : OnchainConfig) (trace : List OnchainAct) (chainID : Int)
    (address : GoString) : Prop :=
  ∃ l ∈ trace, ∃ latest, l.exchange = ⟨.latestBlock chainID, .ok latest⟩ ∧
    (∃ da ∈ l.before.addresses, da.address = address) ∧
    ∃ chain, cfg.chains.get chainID = some chain ∧ ReadTo cfg trace chainID address
      (safeTip chain latest + 1)

structure HandedOver (cfg : OnchainConfig) (trace : List OnchainAct) (w : World) : Prop where
  queue : QueueSound trace w
  rows : ∀ row ∈ w.rescans.rows, ReadTo cfg trace row.chainID row.address row.nextBlock
  jobs : ∀ job ∈ claimedJobs trace, ReadTo cfg trace job.chainID job.address job.nextBlock
  done : ∀ row ∈ w.rescans.rows, row.status = .completed →
    CaughtUp cfg trace row.chainID row.address
  -- The cursor stands where the ticks of this run have moved it.
  cursors : ∀ chainID last block, w.cursors chainID = some last → block ≤ last →
    ∃ a ∈ trace, CursorPasses chainID block a

section

variable {cfg : OnchainConfig} {trace trace' : List OnchainAct} {chainID : Int}
  {address : GoString} {bound : Int}

theorem fetched.mono (sub : trace ⊆ trace') {block : Int}
    (read : fetched trace chainID address block = true) :
    fetched trace' chainID address block = true := by
  obtain ⟨a, member, covers⟩ := List.any_eq_true.mp read
  exact List.any_eq_true.mpr ⟨a, sub member, covers⟩

theorem ReadTo.mono (sub : trace ⊆ trace') (read : ReadTo cfg trace chainID address bound) :
    ReadTo cfg trace' chainID address bound := by
  obtain ⟨chain, configured, all⟩ := read
  exact ⟨chain, configured, fun block low high => fetched.mono sub (all block low high)⟩

theorem ReadTo.le {bound' : Int} (less : bound' ≤ bound)
    (read : ReadTo cfg trace chainID address bound) :
    ReadTo cfg trace chainID address bound' := by
  obtain ⟨chain, configured, all⟩ := read
  exact ⟨chain, configured, fun block low high => all block low (lt_of_lt_of_le high less)⟩

theorem CaughtUp.mono (sub : trace ⊆ trace') (caught : CaughtUp cfg trace chainID address) :
    CaughtUp cfg trace' chainID address := by
  obtain ⟨l, member, latest, head, registered, chain, configured, read⟩ := caught
  exact ⟨l, sub member, latest, head, registered, chain, configured, read.mono sub⟩

end

section

variable {cfg : OnchainConfig} {chainMoves : (Int → Chain) → (Int → Chain) → Prop} {q : OnchainPool}
  (sound : OnchainSound cfg chainMoves q) {t replica : Nat} {job : RegistrationRescan} {h : Answers}
  (explained : Interleaving.Explained (onchainSystem cfg chainMoves) q.trace t
    (.rescan replica job) h)

include explained

theorem advance_readTo {nextBlock : Int} {completed : Bool}
    (advance : Advance cfg job h nextBlock completed)
    (read : ReadTo cfg q.trace job.chainID job.address job.nextBlock) :
    ReadTo cfg q.trace job.chainID job.address nextBlock := by
  cases advance with
  | finishes latest above answers => exact read
  | moves latest below to_ stop sightings rest answers handled =>
    obtain ⟨chain, configured, all⟩ := read
    refine ⟨chain, configured, fun block low high => ?_⟩
    by_cases old : block < job.nextBlock
    · exact all block low old
    · obtain ⟨f, member, fetch⟩ :=
        explained.act (e := ⟨.fetchDeposits job.chainID job.nextBlock to_ [job.address],
          .ok sightings⟩)
        (by rw [answers]; simp)
      refine List.any_eq_true.mpr ⟨f, member, ?_⟩
      rw [fetch]
      simp only [fetches, beq_self_eq_true, Bool.true_and, Bool.and_eq_true, decide_eq_true_eq,
        List.contains_eq_mem, List.mem_singleton,
        and_true]
      omega

include sound in
theorem rescan_registered (queue : QueueSound q.trace q.world)
    {e : Exchange PortCall PortCall.Answer} {rest : Answers}
    (first : h = e :: rest) : ∃ l ∈ q.trace, l.exchange = e ∧ ∃ da ∈ l.before.addresses,
    da.address = job.address := by
  obtain ⟨start, after, acts, trace, ⟨c, before, claimed⟩, sub, eq, -⟩ := explained
  rw [first, List.map_eq_cons_iff] at eq
  obtain ⟨l, _, rfl, exchange, -⟩ := eq
  have inside : l ∈ after := sub.subset List.mem_cons_self
  have ordered := sound.ordered
  rw [trace, List.pairwise_append] at ordered
  obtain ⟨da, known, is⟩ := queue.known c (trace ▸ List.mem_append_left after before) job claimed
  exact ⟨l, trace ▸ List.mem_append_right start inside, exchange, da,
    (ordered.2.2 c before l inside).addresses known, is⟩

include sound in
theorem advance_caughtUp (queue : QueueSound q.trace q.world) {nextBlock : Int}
    (advance : Advance cfg job h nextBlock true)
    (read : ReadTo cfg q.trace job.chainID job.address job.nextBlock) :
    CaughtUp cfg q.trace job.chainID job.address := by
  have reached := advance_readTo explained advance read
  obtain ⟨chain, configured, -⟩ := read
  have tip : ∀ latest, rescanTip cfg job.chainID latest = safeTip chain latest := by
    intro latest
    rw [rescanTip, configured]
  generalize complete : true = completed at advance
  cases advance with
  | finishes latest above answers =>
    obtain ⟨l, member, head, registered⟩ := rescan_registered sound explained queue answers
    refine ⟨l, member, latest, head, registered, chain, configured, reached.le ?_⟩
    rw [tip] at above
    omega
  | moves latest below to_ stop sightings rest answers handled =>
    obtain ⟨l, member, head, registered⟩ := rescan_registered sound explained queue answers
    refine ⟨l, member, latest, head, registered, chain, configured, reached.le ?_⟩
    have end_ := of_decide_eq_true complete.symm
    rw [tip] at end_
    omega

end

section

variable {cfg : OnchainConfig} {chainMoves : (Int → Chain) → (Int → Chain) → Prop}

theorem handedOver_act {q : OnchainPool} {a : OnchainAct} (sound : OnchainSound cfg chainMoves q)
    (here : HandedOver cfg q.trace q.world)
    (before : a.before = q.world) (addresses : q.world.addresses ⊆ a.after.addresses)
    (served : Serves cfg q.world a.op a.ans a.after)
    (writes : Writes (fun h c => a.label.writes cfg h c) a.history a.op)
    (explained : Interleaving.Explained (onchainSystem cfg chainMoves) q.trace a.thread
      a.label a.history) :
    HandedOver cfg (q.trace ++ [a]) a.after := by
  have queue := queueSound_act sound here.queue addresses served writes explained
  have longer : q.trace ⊆ q.trace ++ [a] := List.subset_append_left _ _
  obtain ⟨⟨change, new, rows, steps, added⟩, -⟩ := served.queueStep
  -- The job behind an advance of a row.
  have worker : ∀ row ∈ q.world.rescans.rows, ∀ nextBlock completed, a.op = .advanceRescan
    (pgToUID row.uid) nextBlock completed row.attempts →
      ∃ replica job, Interleaving.Explained (onchainSystem cfg chainMoves) q.trace a.thread
        (.rescan replica job) a.history ∧
        Advance cfg job a.history nextBlock completed ∧ job.chainID = row.chainID ∧ job.address = row.address ∧
          ReadTo cfg q.trace job.chainID job.address job.nextBlock := by
    intro row present nextBlock completed call
    rw [call] at writes
    obtain ⟨replica, job, label, uid, -, advance⟩ := advance_job writes
    rw [label] at explained
    have claimed := admitted_job explained
    obtain ⟨row₀, present₀, jobRow⟩ := here.queue.held job claimed
    have same : row₀ = row := row_of_uid here.queue.uids present₀ present (jobRow.uid.trans uid.symm)
    rw [same] at jobRow
    exact ⟨replica, job, explained, advance, jobRow.chainID.symm, jobRow.address.symm,
      here.jobs job claimed⟩
  have read : ∀ row ∈ a.after.rescans.rows, ReadTo cfg (q.trace ++ [a]) row.chainID
    row.address row.nextBlock := by
    intro row' present'
    rw [rows] at present'
    rcases List.mem_append.mp present' with old | fresh
    · obtain ⟨row, present, rfl⟩ := List.mem_map.mp old
      have step := steps row present
      rw [step.chainID, step.address]
      rcases step.nextBlock with same | ⟨-, completed, call⟩
      · rw [same]
        exact (here.rows row present).mono longer
      · obtain ⟨replica, job, mine, advance, chainID, address, done⟩ := worker row present _ completed call
        rw [← chainID, ← address]
        exact (advance_readTo mine advance done).mono longer
    · obtain ⟨⟨jobs, call, job, listed, chainID, address, nextBlock⟩, -⟩ := added row' fresh
      rw [call] at writes
      obtain ⟨input, da, -, rfl⟩ := enqueue_jobs writes
      obtain ⟨-, chain, configured, start⟩ := rescanJobs_address listed
      rw [chainID, nextBlock, start]
      exact ⟨chain, configured, fun block low high => absurd low (not_le.mpr high)⟩
  refine ⟨queue, read, fun job claimed => ?_, fun row' present' completed => ?_,
    fun chainID last block stored reached => ?_⟩
  · obtain ⟨b, member, mine⟩ := List.mem_flatMap.mp claimed
    rcases List.mem_append.mp member with old | this
    · exact (here.jobs job (List.mem_flatMap.mpr ⟨b, old, mine⟩)).mono longer
    · cases List.mem_singleton.mp this
      obtain ⟨limit, lease, jobs, exchange, listed⟩ := mem_claimed mine
      obtain ⟨row', present', rfl⟩ : ∃ row' ∈ a.after.rescans.rows, job = RescanTable.jobOf row' := by
        clear read worker queue longer here explained writes
        obtain ⟨thread, label, history, op, ans, world, after⟩ := a
        cases exchange
        obtain ⟨-, -, row', present', is, -⟩ := claimRescans_answer served job listed
        exact ⟨row', present', is⟩
      exact read row' present'
  · rw [rows] at present'
    rcases List.mem_append.mp present' with old | fresh
    · obtain ⟨row, present, rfl⟩ := List.mem_map.mp old
      have step := steps row present
      rw [step.chainID, step.address]
      rcases step.completed completed with already | call
      · exact (here.done row present already).mono longer
      · obtain ⟨replica, job, mine, advance, chainID, address, done⟩ := worker row present _ true call
        rw [← chainID, ← address]
        exact (advance_caughtUp sound mine here.queue advance done).mono longer
    · exact absurd completed (added row' fresh).open_
  · by_cases passed : ∃ last', q.world.cursors chainID = some last' ∧ block ≤ last'
    · obtain ⟨last', stored', reached'⟩ := passed
      obtain ⟨b, member, passes⟩ := here.cursors chainID last' block stored' reached'
      exact ⟨b, longer member, passes⟩
    · refine ⟨a, List.mem_append_right _ (List.mem_singleton_self a), fun last' stored' => ?_, last, stored, reached⟩
      rw [before] at stored'
      exact not_le.mp fun above => passed ⟨last', stored', above⟩

theorem handed_over (reflexive : ∀ chains, chainMoves chains chains)
    (transitive : ∀ x y z, chainMoves x y → chainMoves y z → chainMoves x z) {w : World}
    {p : OnchainPool} (sane : Sane cfg w)
    (start : HandedOver cfg [] w) (run : Run (onchainSystem cfg chainMoves).Step (.still w) p) :
    HandedOver cfg p.trace p.world := by
  refine (onchain_traced reflexive transitive sane start ?_ ?_ run).1
  · intro q a sound here before served writes explained
    have later := (call_keeps reflexive a.label a.history _ a.op a.ans _ sound.holds served writes).2
    exact handedOver_act sound here before later.addresses served writes explained
  · intro trace v v' here moved
    obtain ⟨queue, rows, jobs, done, cursors⟩ := here
    cases moved with
    | restart replica =>
      exact ⟨⟨queue.uids, queue.registered, queue.known, queue.held, queue.tokens⟩, rows,
        jobs, done, cursors⟩
    | chain chains secondSource moved =>
      exact ⟨⟨queue.uids, queue.registered, queue.known, queue.held, queue.tokens⟩, rows, jobs, done, cursors⟩

end

theorem tick_after_catchUp {cfg : OnchainConfig} {p : OnchainPool}
    (sound : OnchainSound cfg HeadsRise p) {chainID : Int}
    {address : GoString} {chain : ChainConfig} (configured : cfg.chains.get chainID = some chain)
    {l : OnchainAct} (member : l ∈ p.trace)
    {latest : Int} (head : l.exchange = ⟨.latestBlock chainID, .ok latest⟩)
    (registered : ∃ da ∈ l.before.addresses, da.address = address)
    {a : OnchainAct} (moves : a ∈ p.trace) {block : Nat} (passes : CursorPasses chainID block a)
    (beyond : safeTip chain latest < block) :
    fetched p.trace chainID address block = true := by
  obtain ⟨latest', rows, l', li, tick⟩ := tick_of_passes sound moves passes
  obtain ⟨chain', configured', below⟩ := tick.below
  rw [configured] at configured'
  cases configured'
  obtain ⟨member', head'⟩ := tick.readsHead
  obtain ⟨served, -, moved⟩ := exchange_served sound member head
  obtain ⟨served', -, moved'⟩ := exchange_served sound member' head'
  have higher : latest < latest' := by
    unfold safeTip at below beyond
    omega
  -- The tick's head was reported after the one of the rescan.
  have order : Later HeadsRise l.after l'.before := by
    rw [latestBlock_answer served, latestBlock_answer served'] at higher
    rcases sound.order member member' with rfl | first | second
    · exact absurd higher (lt_irrefl _)
    · exact first
    · have := (moved'.chains chainID).trans (second.chains chainID)
      omega
  obtain ⟨inside, list, -⟩ := tick.readsAddresses
  obtain ⟨servedList, -, -⟩ := exchange_served sound inside list
  obtain ⟨da, known, rfl⟩ := registered
  have listed : da ∈ li.before.addresses := tick.order.addresses
    (moved'.addresses (order.addresses (moved.addresses known)))
  have asked : da.address ∈ rows.map (·.address) := by
    rw [listAddresses_answer servedList, List.map_map]
    exact List.mem_map_of_mem (f := (·.address) ∘ depositAddressFromRow) listed
  obtain ⟨f, acts, ingested, -⟩ := tick.ingested (by rintro rfl; nomatch asked)
  have by_ := ingested.fetchedBy asked
  exact List.any_eq_true.mpr ⟨f, by_.served, by_.covers⟩

/-- Once the rescan of an address is complete, every block from the start of the scan to the cursor
has been fetched for it, in that state and in every later one. -/
theorem handover_has_no_gap {cfg : OnchainConfig} {w : World} {p p' : OnchainPool}
    (sane : Sane cfg w) (noJobs : w.rescans.rows = [])
    (unscanned : ∀ chainID, w.cursors chainID = none)
    (run : Run (onchainSystem cfg HeadsRise).Step (.still w) p)
    (later : Run (onchainSystem cfg HeadsRise).Step p p') {row : RescanRow}
    (member : row ∈ p.world.rescans.rows)
    (complete : row.status = .completed) : ∃ chain, cfg.chains.get row.chainID = some chain ∧
    ∀ (block : Nat) (last : Int),
      p'.world.cursors row.chainID = some last → chain.scanStartBlock ≤ block → block ≤ last →
        fetched p'.trace row.chainID row.address block = true := by
  have start : HandedOver cfg [] w := by
    refine ⟨queueSound_empty noJobs, ?_, fun job absent => (List.not_mem_nil absent).elim, ?_,
      fun chainID last block stored => ?_⟩
    · rw [noJobs]
      nofun
    · rw [noJobs]
      nofun
    · rw [unscanned chainID] at stored
      cases stored
  have caught := ((handed_over HeadsRise.refl HeadsRise.trans sane start run).done row
    member complete).mono
    (Interleaving.trace_prefix later).subset
  have whole := run.trans later
  have sound := onchain_sound HeadsRise.refl HeadsRise.trans sane whole
  have cursors := (handed_over HeadsRise.refl HeadsRise.trans sane start whole).cursors
  obtain ⟨l, inside, latest, head, registered, chain, configured, read⟩ := caught
  refine ⟨chain, configured, fun block last stored low high => ?_⟩
  by_cases below : block ≤ safeTip chain latest
  · obtain ⟨chain', configured', all⟩ := read
    rw [configured] at configured'
    cases configured'
    exact all block low (by omega)
  · obtain ⟨a, moves, passes⟩ := cursors row.chainID last block stored high
    exact tick_after_catchUp sound configured inside head registered moves passes (not_le.mp below)

namespace OnchainSample

def factoryConfig : OnchainConfig :=
  { config with chains := .ofList [(1, { chainConfig with
      factory := lit "0x" ++ hexDigits (List.replicate 40 3), initHash := lit "0x" ++
        hexDigits (List.replicate 64 4) })] }

def answerFactory (n : Nat) (w : World) (c : PortCall) : c.Answer × World :=
  perform factoryConfig (draw n) w c

theorem answerFactory_served (n : Nat) (w : World) (c : PortCall) :
    Serves factoryConfig w c (answerFactory n w c).1 (answerFactory n w c).2 := .answered (draw n)

def registration : OnchainPool := launchIn factoryConfig answerFactory
    (.still world) 0 (.register 8) 2

def claim : OnchainPool := launchIn factoryConfig answerFactory registration 1 .claimRescans 1

def job : RegistrationRescan :=
  ⟨(uid 18).print, 1, toChecksumAddress keccak (List.replicate 40 0), 0, 1⟩

def rescanned : OnchainPool := launchIn factoryConfig answerFactory claim 2 (.rescan 0 job) 3

def scanned : OnchainPool := launchIn factoryConfig answerFactory rescanned 3 (.scan 0 1) 40

theorem run_rescanned : Run (onchainSystem factoryConfig HeadsRise).Step
    (.still world) rescanned := by
  have admitted : (Operation.rescan 0 job).admitted claim.trace := by
    have found : job ∈ claimedJobs claim.trace := by decide +kernel
    exact List.mem_flatMap.mp found
  refine .trans (.trans (run_launchIn answerFactory_served _ 0 (.register 8) 2 rfl trivial)
    (run_launchIn answerFactory_served _ 1 .claimRescans 1 ?_ trivial))
      (run_launchIn answerFactory_served _ 2 (.rescan 0 job) 3 ?_ admitted)
  · rw [launchIn_threads (by decide)]
    rfl
  · rw [launchIn_threads (by decide), launchIn_threads (by decide)]
    rfl

theorem run_scanned : Run (onchainSystem factoryConfig HeadsRise).Step rescanned scanned := by
  refine run_launchIn answerFactory_served _ 3 (.scan 0 1) 40 ?_ trivial
  rw [rescanned, launchIn_threads (by decide), claim, launchIn_threads (by decide), registration,
    launchIn_threads (by decide)]
  rfl

end OnchainSample

theorem handover_has_no_gap_registered : ∃ row ∈ OnchainSample.rescanned.world.rescans.rows,
    row.status = .completed ∧
    OnchainSample.scanned.world.cursors row.chainID = some 10 ∧
    ∃ chain, OnchainSample.factoryConfig.chains.get row.chainID = some chain ∧
      ∀ (block : Nat) (last : Int), OnchainSample.scanned.world.cursors row.chainID = some last →
      chain.scanStartBlock ≤ block →
        block ≤ last → fetched OnchainSample.scanned.trace row.chainID row.address block = true := by
  have found : (OnchainSample.rescanned.world.rescans.rows.any fun row =>
    row.status == .completed &&
      OnchainSample.scanned.world.cursors row.chainID == some 10) = true := by decide +kernel
  simp only [List.any_eq_true, Bool.and_eq_true, beq_iff_eq] at found
  obtain ⟨row, member, complete, cursor⟩ := found
  have sane : Sane OnchainSample.factoryConfig OnchainSample.world :=
    ⟨OnchainSample.world_sane.bookings, OnchainSample.world_sane.currencies,
      OnchainSample.world_sane.addresses⟩
  exact ⟨row, member, complete, cursor,
    handover_has_no_gap sane rfl (fun _ => rfl) OnchainSample.run_rescanned
      OnchainSample.run_scanned member complete⟩

end Ledger.Service
