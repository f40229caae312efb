import Ledger.Service.CheckpointRepair
import Ledger.Service.RollupSoundness

namespace Ledger.Service

open Core Postgres Shared

/-- Exact up to the watermark, as `Covers`, or the row of a dimension without entries. -/
structure Settled (db : LedgerTables) (dim : Dimension) (cp : CheckpointRow) : Prop where
  below : cp.lastEntryID = 0 ∨ Reached db dim.pair cp.lastEntryID
  summed : ∃ row, db.getClassification dim.classification = some row ∧
    cp.balance = signedSumUpTo db row.normalSide dim cp.lastEntryID

theorem standing_settled : Standing Settled where
  exact_ settled found := by
    obtain ⟨row', found', total⟩ := settled.summed
    rw [found, Option.some.injEq] at found'
    rw [found']
    exact total
  grow {db db' dim cp} positive settled grows := by
    obtain ⟨below, row, found, total⟩ := settled
    obtain ⟨row', found', side⟩ := grows.sides _ row found
    rcases below with zero | reached
    · have before : ∀ e ∈ db.entries, 0 < e.id := by
        obtain ⟨new, appended, -⟩ := grows.appends
        exact fun e member => positive e (by simp [appended, member])
      refine ⟨.inl zero, row', found', ?_⟩
      rw [total, zero, signedSumUpTo_zero before, signedSumUpTo_zero positive]
    · refine ⟨.inr (reached.grow grows), row', found', ?_⟩
      rw [side, signedSumUpTo_grow _ reached grows, total]
  written covers := ⟨.inr covers.reached, covers.summed⟩

variable {db : LedgerTables} {dim : Dimension} {row : CheckpointRow} {free : Dimension → Prop}

theorem recompute_settled (answer : db.recomputeCheckpointFromEntries dim = some row) :
    Settled db dim row := by
  obtain ⟨cls, found, rfl⟩ := Option.map_eq_some_iff.mp answer
  obtain ⟨-, bounded, reached⟩ := foldl_max_id (db.dimEntries dim) 0
  refine ⟨reached.imp_right ?_, cls, found, (sumUpTo_of_bounded EntryRow.id _ _ _ bounded).symm⟩
  rintro ⟨e, member, top⟩
  obtain ⟨stored, same⟩ := List.mem_filter.mp member
  exact ⟨e, stored, by rw [beq_iff_eq.mp same], top⟩

/-- While a rebuild holds the lock of its pair, no entry of the pair is committed, so the row it
computed stays the one a recomputation would give. -/
structure RebuildOk (s : RepairSystem) (t : Nat) (r : Rebuild) : Prop where
  posting : s.sys.posts t = none
  lock : r.phase.holdsLock = true → s.sys.locks r.dim.pair = some t
  current : ∀ previous row, r.phase = .recomputed previous row →
    s.sys.db.recomputeCheckpointFromEntries r.dim = some row

structure RepairInv (s : RepairSystem) : Prop where
  tidy : Tidy s.sys
  rebuilds : ∀ t r, s.rebuilds t = some r → RebuildOk s t r

theorem recompute_congr {db' : LedgerTables} (entries : db'.dimEntries dim = db.dimEntries dim)
    (keeps : KeepsSides db db')
    (answer : db.recomputeCheckpointFromEntries dim = some row) :
    db'.recomputeCheckpointFromEntries dim = some row := by
  obtain ⟨cls, found, rfl⟩ := Option.map_eq_some_iff.mp answer
  obtain ⟨cls', found', side⟩ := keeps _ cls found
  rw [LedgerTables.recomputeCheckpointFromEntries, found', entries, Option.map_some, side]

variable {s : RepairSystem} {t : Nat}

theorem RebuildOk.beside {sys : System} {r : Rebuild} (inv : RepairInv s)
    (running : s.rebuilds t = some r)
    (move : Beside s sys) : RebuildOk { s with sys := sys } t r := by
  have ok := inv.rebuilds t r running
  refine ⟨move.posts t r running, fun holds => (move.locks t r running _).mp (ok.lock holds), ?_⟩
  intro previous row phase
  have held := ok.lock (by rw [phase]; rfl)
  refine recompute_congr ?_ (inv.tidy.grows move.step).sides (ok.current previous row phase)
  exact inv.tidy.filter_entries move.step held ok.posting _ fun e chosen => by
    rw [beq_iff_eq.mp chosen]

theorem Tidy.withCheckpoints {s : System} (tidy : Tidy s)
    (checkpoints : Dimension → Option CheckpointRow) :
    Tidy { s with db := { s.db with checkpoints := checkpoints } } :=
  tidy.quiet rfl (.of_eq rfl) rfl rfl rfl tidy.sides

theorem Tidy.drop {s : System} (tidy : Tidy s) (other : s.posts t = none) : Tidy (s.dropLocks t) :=
  Tidy.step _ _ tidy (.unlockOther s t other)

variable {s' : RepairSystem}

theorem RepairInv.own (inv : RepairInv s) (t : Nat) (tidy : Tidy s'.sys)
    (posts : s'.sys.posts = s.sys.posts)
    (entries : s'.sys.db.entries = s.sys.db.entries)
    (classes : s'.sys.db.classifications = s.sys.db.classifications)
    (others : ∀ u, u ≠ t → s'.rebuilds u = s.rebuilds u)
    (locks : ∀ u p, u ≠ t → s.sys.locks p = some u → s'.sys.locks p = some u)
    (mine : ∀ r, s'.rebuilds t = some r → RebuildOk s' t r) : RepairInv s' := by
  refine ⟨tidy, fun u r running => ?_⟩
  by_cases same : u = t
  · subst same
    exact mine r running
  · rw [others u same] at running
    have ok := inv.rebuilds u r running
    refine ⟨by rw [posts]; exact ok.posting, fun holds => locks u _ same (ok.lock holds), ?_⟩
    intro previous row phase
    refine recompute_congr ?_ (.of_eq classes) (ok.current previous row phase)
    rw [LedgerTables.dimEntries, entries, LedgerTables.dimEntries]

theorem RepairInv.setRebuild {r : Rebuild} (inv : RepairInv s) (ok : RebuildOk s t r) :
    RepairInv (s.setRebuild t (some r)) := by
  refine inv.own t inv.tidy rfl rfl rfl (fun u other => by simp [RepairSystem.setRebuild, other])
    (fun _ _ _ held => held) fun r' running => ?_
  simp only [RepairSystem.setRebuild, Function.update_self, Option.some.injEq] at running
  exact running ▸ ⟨ok.posting, ok.lock, ok.current⟩

theorem RepairInv.step : Preserved (RepairStep free) RepairInv := by
  intro s s' inv step
  cases step with
  | beside sys move =>
    exact ⟨Tidy.step _ _ inv.tidy move.step, fun t r running => .beside inv running move⟩
  | begin t dim actorID unused posting unlocked =>
    exact inv.setRebuild ⟨posting, by intros; contradiction, by intros; contradiction⟩
  | lock t r running phase open_ =>
    have ok := inv.rebuilds t r running
    refine inv.own t (Tidy.step _ _ inv.tidy (.lockOther s.sys t _ ok.posting open_)) rfl rfl rfl
      (fun u other => by simp [RepairSystem.setRebuild, other])
      (fun u p other held => takeLock_keeps open_ held other) fun r' running' => ?_
    simp only [RepairSystem.setRebuild, Function.update_self, Option.some.injEq] at running'
    subst running'
    exact ⟨ok.posting, fun _ => by simp [RepairSystem.setRebuild, System.takeLock],
      by intros; contradiction⟩
  | count t r running phase drained =>
    have ok := inv.rebuilds t r running
    exact inv.setRebuild ⟨ok.posting, fun _ => ok.lock (by rw [phase]; rfl), by intros; contradiction⟩
  | previous t r running phase =>
    have ok := inv.rebuilds t r running
    exact inv.setRebuild ⟨ok.posting, fun _ => ok.lock (by rw [phase]; rfl), by intros; contradiction⟩
  | recompute t r previous row running phase answer =>
    have ok := inv.rebuilds t r running
    refine inv.setRebuild ⟨ok.posting, fun _ => ok.lock (by rw [phase]; rfl), ?_⟩
    rintro _ _ ⟨⟩
    exact answer
  | commit _ dim done =>
    obtain ⟨t, r, previous, row, audit, running, -, -, -, -⟩ := done
    have ok := inv.rebuilds t r running
    refine inv.own t (Tidy.drop (inv.tidy.withCheckpoints _) ok.posting) rfl rfl rfl
      (fun u other => by simp [RepairSystem.finish, other])
      (fun u p other held => dropLocks_keeps held other) fun r' running' => ?_
    simp [RepairSystem.finish] at running'
  | abort t r running =>
    have ok := inv.rebuilds t r running
    refine inv.own t (Tidy.drop inv.tidy ok.posting) rfl rfl rfl
      (fun u other => by simp [RepairSystem.setRebuild, other])
      (fun u p other held => dropLocks_keeps held other) fun r' running' => ?_
    simp [RepairSystem.setRebuild] at running'
  | overwrite dim row allowed =>
    refine ⟨inv.tidy.withCheckpoints _, fun t r running => ?_⟩
    have ok := inv.rebuilds t r running
    exact ⟨ok.posting, ok.lock, ok.current⟩

theorem RepairSystem.Reachable.inv (reachable : s.Reachable) : RepairInv s := by
  obtain ⟨start, initial, none_, run⟩ := reachable
  refine RepairInv.step.run ⟨.initial initial, fun t r running => ?_⟩ run
  rw [none_ t] at running
  cases running

/-- The dimension has a checkpoint row, it is exact, and so is what workers have read of it. -/
structure Repaired (s : RepairSystem) (dim : Dimension) : Prop where
  present : ∃ cp, s.sys.db.checkpoints dim = some cp
  ok : DimOk Settled s.sys dim

theorem DimOk.of_tables {s s' : System} (ok : DimOk Settled s dim)
    (positive : ∀ e ∈ s'.db.entries, 0 < e.id) (grows : Grows s.db s'.db)
    (workers : s'.workers = s.workers)
    (checkpoint : ∀ cp, s'.db.checkpoints dim = some cp → Settled s.db dim cp) :
    DimOk Settled s' dim where
  checkpoint cp stored := standing_settled.grow positive (checkpoint cp stored) grows
  reads w := by
    rw [workers]
    exact (ok.reads w).grow standing_settled positive grows

theorem rebuilt_repaired (inv : RepairInv s) (done : Rebuilt s dim s')
    (reads : ∀ w, ReadOk Settled s.sys.db dim (s.sys.workers w)) :
    Repaired s' dim := by
  obtain ⟨t, r, previous, row, audit, running, rfl, phase, -, -⟩ := done
  have settled := recompute_settled ((inv.rebuilds t r running).current previous row phase)
  have stored : (s.finish t r.dim row audit).sys.db.checkpoints r.dim = some row := by
    simp [RepairSystem.finish, LedgerTables.rebuildBalanceCheckpoint, System.dropLocks]
  have grows : Grows s.sys.db (s.finish t r.dim row audit).sys.db := .of_eq rfl rfl
  refine ⟨⟨row, stored⟩, fun cp found => ?_, fun w => ?_⟩
  · rw [stored, Option.some.injEq] at found
    subst found
    exact standing_settled.grow inv.tidy.positive settled grows
  · exact (reads w).grow standing_settled inv.tidy.positive grows

theorem Repaired.step (inv : RepairInv s) (repaired : Repaired s dim)
    (step : RepairStep (· ≠ dim) s s') : Repaired s' dim := by
  obtain ⟨⟨cp, stored⟩, ok⟩ := repaired
  have untouched {sys : System} (db : sys.db = s.sys.db) (workers : sys.workers = s.sys.workers) :
      DimOk Settled sys dim := by
    refine ok.of_tables ?_ (db ▸ .refl) workers ?_
    · rw [db]
      exact inv.tidy.positive
    · rw [db]
      exact ok.checkpoint
  cases step with
  | beside sys move =>
    obtain ⟨cp', stored', -⟩ := step_advances move.step dim cp stored
    exact ⟨⟨cp', stored'⟩, ok.step standing_settled inv.tidy move.step⟩
  | commit _ dim' done =>
    by_cases same : dim' = dim
    · subst same
      exact rebuilt_repaired inv done ok.reads
    · obtain ⟨t, r, previous, row, audit, running, rfl, -, -, -⟩ := done
      have other : (s.finish t r.dim row audit).sys.db.checkpoints dim = s.sys.db.checkpoints dim := by
        simp [RepairSystem.finish, LedgerTables.rebuildBalanceCheckpoint, System.dropLocks,
          Function.update_of_ne (Ne.symm same)]
      refine ⟨⟨cp, other.trans stored⟩, ok.of_tables inv.tidy.positive (.of_eq rfl rfl) rfl fun cp' found => ?_⟩
      exact ok.checkpoint cp' (other ▸ found)
  | overwrite dim' row allowed =>
    have other : (s.overwrite dim' row).sys.db.checkpoints dim = s.sys.db.checkpoints dim := by
      simp [RepairSystem.overwrite, Function.update_of_ne (Ne.symm allowed)]
    refine ⟨⟨cp, other.trans stored⟩, ok.of_tables inv.tidy.positive (.of_eq rfl rfl) rfl
      fun cp' found => ?_⟩
    exact ok.checkpoint cp' (other ▸ found)
  | lock t r running phase open_ | abort t r running => exact ⟨⟨cp, stored⟩, untouched rfl rfl⟩
  | _ => exact ⟨⟨cp, stored⟩, ok⟩

/-- Once `RebuildCheckpoint` has returned success for a dimension, the stored checkpoint is the
signed sum of the dimension's entries up to its watermark in every later state, along every
interleaving of posts, workers, rebuilds and writes by other means to other dimensions, provided
that at the commit no worker, lost claims included, held an inexact read of the dimension's
checkpoint. -/
theorem rebuild_permanent {s s' s'' : RepairSystem} {dim : Dimension} (reachable : s.Reachable)
    (done : Rebuilt s dim s') (reads : ∀ w, ReadOk Settled s.sys.db dim (s.sys.workers w))
    (run : Run (RepairStep (· ≠ dim)) s' s'') :
    ∃ cp row, s''.sys.db.checkpoints dim = some cp ∧
    s''.sys.db.getClassification dim.classification = some row ∧
      cp.balance = signedSumUpTo s''.sys.db row.normalSide dim cp.lastEntryID := by
  have inv' := RepairInv.step _ _ reachable.inv (@RepairStep.commit (fun _ => True) s s' dim done)
  have kept : Preserved (RepairStep (· ≠ dim)) fun s => RepairInv s ∧ Repaired s dim :=
    fun _ _ ⟨inv, repaired⟩ step =>
    ⟨RepairInv.step _ _ inv step, repaired.step inv step⟩
  obtain ⟨-, ⟨cp, stored⟩, ok⟩ := kept.run ⟨inv', rebuilt_repaired reachable.inv done reads⟩ run
  obtain ⟨row, found, total⟩ := (ok.checkpoint cp stored).summed
  exact ⟨cp, row, stored, found, total⟩

theorem RepairStep.alone_run (idle : ∀ t, s.rebuilds t = none) {sys : System}
    (run : Run Step s.sys sys) :
    Run (RepairStep free) s { s with sys := sys } := by
  induction run with
  | refl => exact .refl
  | @tail sys sys' _ last ih =>
    refine ih.tail (.beside { s with sys := sys } sys' ⟨last, fun t r running => ?_,
      fun t r running => ?_⟩)
    all_goals
      rw [idle t] at running
      cases running

theorem rebuild_alone {free : Dimension → Prop} {dim : Dimension} {actorID : Int}
    {row : CheckpointRow}
    {audit : RebuildAudit} (idle : s.rebuilds = fun _ => none) (posts : s.sys.posts = fun _ => none)
    (locks : s.sys.locks = fun _ => none)
    (drained : s.sys.db.countPendingRollupForDimension dim = 0)
    (answer : s.sys.db.recomputeCheckpointFromEntries dim = some row)
    (fits : fitsUnits 30 row.balance = true)
    (recorded : rebuildAudit ⟨dim, actorID, .begun⟩
      (s.sys.db.getBalanceCheckpoint dim) row = .ok audit) :
    ∃ s', Run (RepairStep free) s s' ∧ s'.sys.db = s.sys.db ∧ s'.sys.workers =
    s.sys.workers ∧ Rebuilt s' dim
        ⟨{ s.sys with db := s.sys.db.rebuildBalanceCheckpoint dim row }, s.rebuilds, s.audits ++ [audit]⟩ := by
  obtain ⟨⟨db, now, nextEntryID, _, _, workers⟩, _, audits⟩ := s
  subst idle posts locks
  refine ⟨_, .head (.begin _ 0 dim actorID rfl rfl nofun) <|
    .head (.lock _ 0 _ rfl rfl (.inl rfl)) <|
    .head (.count _ 0 _ rfl rfl drained) <| .head (.previous _ 0 _ rfl rfl) <|
    .head (.recompute _ 0 _ _ row rfl rfl answer) .refl, rfl, rfl, ?_⟩
  refine cast (congrArg _ ?_) (Rebuilt.commit 0 _ _ row audit rfl rfl rfl fits recorded)
  simp only [RepairSystem.finish, RepairSystem.setRebuild, System.dropLocks, System.takeLock,
    RepairSystem.mk.injEq,
    System.mk.injEq, true_and, and_true]
  constructor
  · funext p
    by_cases same : p = dim.pair <;> simp [same]
  · funext t
    by_cases same : t = 0 <;> simp [same]

def sampleRepair (sys : System) : RepairSystem := ⟨sys, fun _ => none, []⟩

def tampered (sys : System) : System :=
  { sys with db := { sys.db with checkpoints := Function.update sys.db.checkpoints sampleWallet (some ⟨1000, 0, 0⟩) } }

def System.claim (s : System) (w limit : Nat) (token : Int) : System :=
  { s with db := (s.db.dequeueRollupBatch s.now limit token []).1 }.setWorker w
    (.dequeued ((s.db.dequeueRollupBatch s.now limit token []).2.map (queueItem token)))

def System.work (w : Nat) (s : System) : System :=
  { s with db := ((s.workers w).advance s.db s.now).1 }.setWorker w
    ((s.workers w).advance s.db s.now).2

theorem System.work_run (w n : Nat) (s : System) : Run Step s ((System.work w)^[n] s) := by
  induction n generalizing s with
  | zero => exact .refl
  | succ n ih => exact .head (.advance s w) (ih (s.work w))

def stalled (sys : System) : System := { (System.work 0)^[2] (sys.claim 0 1 10) with now := 20 }

def takenOver (sys : System) : System := (System.work 1)^[5] ((stalled sys).claim 1 1 30)

theorem takenOver_run {sys : System} (early : sys.now ≤ 20) (idle₀ : sys.workers 0 = .idle)
    (idle₁ : sys.workers 1 = .idle) :
    Run Step sys (takenOver sys) := by
  have idle : (stalled sys).workers 1 = .idle := by
    simpa [stalled, System.work, System.claim, System.setWorker] using idle₁
  exact .head (.dequeue _ 0 1 10 [] idle₀) <| (System.work_run 0 2 _).trans <|
    .head (.tick _ 20 early) <| .head (.dequeue _ 1 1 30 [] idle) (System.work_run 1 5 _)

/-- Worker 2 has processed the first deposit. -/
def rolledUp : System := (System.work 2)^[10] (sampleSystem.deposited.claim 2 2 10)

theorem rolledUp_run : Run Step sampleSystem rolledUp :=
  (deposited_run rfl rfl rfl rfl).trans <| .head (.dequeue _ 2 2 10 [] rfl) (System.work_run 2 10 _)

/-- Worker 0 reads the exact checkpoint of the first deposit and loses its claim. The row is
tampered with and rebuilt, and after a third deposit worker 0 goes on. -/
theorem rebuild_permanent_resumed : ∃ s : RepairSystem, s.sys.db.checkpoints sampleWallet =
    some ⟨15, 5, 20⟩ ∧
    ∃ row, s.sys.db.getClassification 1 = some row ∧ 15 = signedSumUpTo s.sys.db row.normalSide
    sampleWallet 5 := by
  obtain ⟨s, run, db, workers, done⟩ :=
    @rebuild_alone (sampleRepair (tampered (takenOver rolledUp.deposited))) (fun _ => True)
    sampleWallet 0 ⟨10, 3, 0⟩ _ rfl rfl rfl rfl rfl (by decide +kernel) rfl
  have before : Run Step sampleSystem (takenOver rolledUp.deposited) :=
    rolledUp_run.trans <| (deposited_run rfl rfl rfl rfl).trans
      (takenOver_run (by decide +kernel) rfl rfl)
  have reachable : s.Reachable := ⟨sampleRepair sampleSystem, sampleSystem_initial, fun _ => rfl,
    (RepairStep.alone_run (fun _ => rfl) before).trans <|
      .head (.overwrite _ sampleWallet (some ⟨1000, 0, 0⟩) trivial) run⟩
  have reads (w : Nat) : ReadOk Settled s.sys.db sampleWallet (s.sys.workers w) := by
    rw [workers, db]
    match w with
    | 0 =>
      rintro - row same
      cases same
      exact ⟨.inr ⟨_, .head _, rfl, rfl⟩, _, rfl, rfl⟩
    | 1 | 2 | w + 3 => trivial
  obtain ⟨cp, row, stored, found, total⟩ := rebuild_permanent reachable done reads <|
    RepairStep.alone_run (fun _ => rfl) <| (deposited_run rfl rfl rfl rfl).trans (System.work_run 0 2 _)
  cases stored
  exact ⟨_, rfl, row, found, total⟩

/-- The rebuild finds nothing pending and succeeds, and after one more deposit worker 0 writes what
it computes from the tampered row. -/
theorem stalled_worker_undoes_rebuild : ∃ s s' s'', s.Reachable ∧ Rebuilt s sampleWallet s' ∧
    s'.sys.db.checkpoints sampleWallet = some ⟨5, 1, 0⟩ ∧ Run (RepairStep fun _ => False) s' s'' ∧
    ∃ row, s''.sys.db.getClassification 1 = some row ∧ s''.sys.db.checkpoints sampleWallet =
    some ⟨1010, 3, 20⟩ ∧
      signedSumUpTo s''.sys.db row.normalSide sampleWallet 3 = 10 := by
  obtain ⟨s, run, -, -, done⟩ :=
    @rebuild_alone (sampleRepair (takenOver (tampered sampleSystem.deposited))) (fun _ => True)
    sampleWallet 0 ⟨5, 1, 0⟩ _ rfl rfl rfl rfl rfl (by decide +kernel) rfl
  have before : Run (RepairStep fun _ => True) (sampleRepair sampleSystem)
      (sampleRepair (takenOver (tampered sampleSystem.deposited))) :=
    (RepairStep.alone_run (fun _ => rfl) (deposited_run rfl rfl rfl rfl)).trans <|
      .head (.overwrite _ sampleWallet (some ⟨1000, 0, 0⟩) trivial) <|
      RepairStep.alone_run (fun _ => rfl) (takenOver_run (by decide) rfl rfl)
  refine ⟨s, _, _, ⟨sampleRepair sampleSystem, sampleSystem_initial, fun _ => rfl,
    before.trans run⟩, done, rfl,
    RepairStep.alone_run (fun _ => rfl) <| (deposited_run rfl rfl rfl rfl).trans
      (System.work_run 0 2 _), _, rfl, ?_, ?_⟩
  · rfl
  · rfl

end Ledger.Service
