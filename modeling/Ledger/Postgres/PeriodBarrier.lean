import Ledger.Postgres.PeriodClose
import Ledger.Postgres.PostingSpec

namespace Ledger.Postgres

open Core Shared

def Newer (a b : PeriodCloseRow) : Prop := b.createdAt < a.createdAt ∨ b.createdAt =
    a.createdAt ∧ b.id ≤ a.id

instance (a b : PeriodCloseRow) : Decidable (Newer a b) := inferInstanceAs (Decidable (_ ∨ _))

instance : Std.Total Newer := ⟨fun a b => by simp only [Newer]; omega⟩

instance : IsTrans PeriodCloseRow Newer :=
  ⟨fun a b c first second => by simp only [Newer] at *; omega⟩

variable {line : PeriodCloseRow}

theorem getActivePeriodClose_some {s : Store} (active : s.getActivePeriodClose = some line) :
    line ∈ s.periodCloses ∧ ∀ other ∈ s.periodCloses, Newer line other := by
  have sorted := List.pairwise_insertionSort Newer s.periodCloses
  have same := List.perm_insertionSort Newer s.periodCloses
  have first : (s.periodCloses.insertionSort Newer).head? = some line := active
  obtain ⟨rest, split⟩ := List.head?_eq_some_iff.mp first
  rw [split] at sorted same
  refine ⟨same.mem_iff.mp (by simp), fun other member => ?_⟩
  rcases List.mem_cons.mp (same.mem_iff.mpr member) with rfl | later
  · exact .inr ⟨rfl, le_rfl⟩
  · exact List.rel_of_pairwise_cons sorted later

theorem getActivePeriodClose_none {s : Store} (none_ : s.getActivePeriodClose = none) :
    s.periodCloses = [] := by
  have empty : s.periodCloses.insertionSort Newer = [] := List.head?_eq_none_iff.mp none_
  have same := List.perm_insertionSort Newer s.periodCloses
  rw [empty] at same
  exact same.nil_eq.symm

theorem getActivePeriodClose_congr {s s' : Store} (closes : s'.periodCloses = s.periodCloses) :
    s'.getActivePeriodClose = s.getActivePeriodClose := by
  rw [Store.getActivePeriodClose, closes, Store.getActivePeriodClose]

variable {g : Gated}

theorem gates_line {s : Store} {env : Env} {input : JournalInput} {effectiveAt : Instant}
    {auth : JournalAuth}
    {row : JournalRow} (gated : gates s input effectiveAt auth = .ok g)
    (inserted : insertJournal env s input effectiveAt auth g = .ok row)
    (active : s.getActivePeriodClose = some line) :
    line.closeBefore ≤ row.effectiveAt := by
  obtain ⟨-, -, -, -, period, -⟩ := gates_ok gated
  obtain ⟨-, -, -, -, rfl⟩ := insertJournal_ok inserted
  simp only [checkPeriodClose, active, require_eq_ok, decide_eq_true_eq] at period
  simp only [toMicros]
  omega

structure PeriodInv (s : PeriodSystem) : Prop where
  alone : ∀ t c, s.closers t = some c → c.exclusive → s.exclusiveFree t
  waiting : ∀ t p, s.posts t = some p → p.shared = false → p.journals = []
  checked : ∀ t p, s.posts t = some p → ∀ row ∈ p.journals, ∀ line,
    s.store.getActivePeriodClose = some line →
    line.closeBefore ≤ row.effectiveAt
  lines : ∀ line ∈ s.store.periodCloses, line.id < s.nextCloseID ∧
    timestampFits line.closeBefore = true
  order : s.store.periodCloses.Pairwise fun a b => a.id < b.id
  pending : ∀ t c row, s.closers t = some c → c.phase = .inserted row → row.id < s.nextCloseID ∧
    timestampFits row.closeBefore = true ∧ ∀ line ∈ s.store.periodCloses, line.id < row.id

variable {c : Closer}

theorem exclusive_of_inserted {row : PeriodCloseRow} (phase : c.phase = .inserted row) :
    c.exclusive := by
  rw [Closer.exclusive, phase]
  nofun

namespace PeriodInv

variable {s : PeriodSystem}

theorem initial (initial : s.Initial) : PeriodInv s where
  alone t c running := by simp [initial.closers] at running
  waiting t p running := by simp [initial.posts] at running
  checked t p running := by simp [initial.posts] at running
  lines := by simp [initial.closes]
  order := by simp [initial.closes]
  pending t c row running := by simp [initial.closers] at running

variable {t : Nat}

section

variable (inv : PeriodInv s)
include inv

theorem sharedFree {p : Poster} (running : s.posts t = some p) (shared : p.shared = true) :
    s.sharedFree := by
  intro u c closing exclusive
  have unshared := (inv.alone u c closing exclusive).2 t p running
  rw [shared] at unshared
  cases unshared

theorem withStore {store : Store} (closes : store.periodCloses = s.store.periodCloses) :
    PeriodInv { s with store := store } where
  alone := inv.alone
  waiting := inv.waiting
  checked := by
    rw [getActivePeriodClose_congr closes]
    exact inv.checked
  lines := closes ▸ inv.lines
  order := closes ▸ inv.order
  pending := closes ▸ inv.pending

theorem withPost (t : Nat) (p : Option Poster)
    (shared : ∀ q, p = some q → q.shared = true → s.sharedFree)
    (waiting : ∀ q, p = some q → q.shared = false → q.journals = [])
    (checked : ∀ q, p = some q → ∀ row ∈ q.journals, ∀ line,
      s.store.getActivePeriodClose = some line →
      line.closeBefore ≤ row.effectiveAt) : PeriodInv (s.setPost t p) where
  alone u c closing exclusive := by
    obtain ⟨closers, posts⟩ := inv.alone u c closing exclusive
    refine ⟨closers, fun v q running => ?_⟩
    by_cases same : v = t
    · subst same
      simp only [PeriodSystem.setPost, Function.update_self] at running
      by_contra held
      exact shared q running (by simpa using held) u c closing exclusive
    · simp only [PeriodSystem.setPost, Function.update_of_ne same] at running
      exact posts v q running
  waiting v q running := by
    by_cases same : v = t
    · subst same
      simp only [PeriodSystem.setPost, Function.update_self] at running
      exact waiting q running
    · simp only [PeriodSystem.setPost, Function.update_of_ne same] at running
      exact inv.waiting v q running
  checked v q running := by
    by_cases same : v = t
    · subst same
      simp only [PeriodSystem.setPost, Function.update_self] at running
      exact checked q running
    · simp only [PeriodSystem.setPost, Function.update_of_ne same] at running
      exact inv.checked v q running
  lines := inv.lines
  order := inv.order
  pending := inv.pending

theorem withCloser (t : Nat) (c : Option Closer)
    (alone : ∀ d, c = some d → d.exclusive → s.exclusiveFree t)
    (pending : ∀ d row, c = some d → d.phase = .inserted row → row.id < s.nextCloseID ∧
      timestampFits row.closeBefore = true ∧ ∀ line ∈ s.store.periodCloses, line.id < row.id) :
      PeriodInv (s.setCloser t c) where
  alone u d closing exclusive := by
    by_cases same : u = t
    · subst same
      simp only [PeriodSystem.setCloser, Function.update_self] at closing
      obtain ⟨closers, posts⟩ := alone d closing exclusive
      refine ⟨fun v e other running => closers v e other ?_, posts⟩
      simpa only [PeriodSystem.setCloser, Function.update_of_ne other] using running
    · simp only [PeriodSystem.setCloser, Function.update_of_ne same] at closing
      obtain ⟨closers, posts⟩ := inv.alone u d closing exclusive
      refine ⟨fun v e other running held => ?_, posts⟩
      by_cases mine : v = t
      · subst mine
        simp only [PeriodSystem.setCloser, Function.update_self] at running
        exact (alone e running held).1 u d same closing exclusive
      · simp only [PeriodSystem.setCloser, Function.update_of_ne mine] at running
        exact closers v e other running held
  waiting := inv.waiting
  checked := inv.checked
  lines := inv.lines
  order := inv.order
  pending u d row closing := by
    by_cases same : u = t
    · subst same
      simp only [PeriodSystem.setCloser, Function.update_self] at closing
      exact pending d row closing
    · simp only [PeriodSystem.setCloser, Function.update_of_ne same] at closing
      exact inv.pending u d row closing

theorem withID : PeriodInv { s with nextCloseID := s.nextCloseID + 1 } where
  alone := inv.alone
  waiting := inv.waiting
  checked := inv.checked
  lines line member := ⟨Nat.lt_succ_of_lt (inv.lines line member).1, (inv.lines line member).2⟩
  order := inv.order
  pending t c row closing phase :=
    ⟨Nat.lt_succ_of_lt (inv.pending t c row closing phase).1, (inv.pending t c row closing phase).2⟩

theorem withLine {row : PeriodCloseRow} (running : s.closers t = some c)
    (phase : c.phase = .inserted row) :
    PeriodInv ({ s with store := { s.store with periodCloses := s.store.periodCloses ++ [row] }
      }.setCloser t none) := by
  obtain ⟨closers, posts⟩ := inv.alone t c running (exclusive_of_inserted phase)
  obtain ⟨below, fits, above⟩ := inv.pending t c row running phase
  have others {u : Nat} {d : Closer} (closing : Function.update s.closers t none u = some d) :
      s.closers u = some d ∧ ¬d.exclusive := by
    by_cases same : u = t
    · subst same
      simp at closing
    · rw [Function.update_of_ne same] at closing
      exact ⟨closing, closers u d same closing⟩
  constructor
  · intro u d closing exclusive
    exact absurd exclusive (others closing).2
  · exact inv.waiting
  · intro u p posting r member
    have none_ := inv.waiting u p posting (posts u p posting)
    rw [none_] at member
    cases member
  · intro line member
    rcases List.mem_append.mp member with old | new
    · exact inv.lines line old
    · rw [List.mem_singleton.mp new]
      exact ⟨below, fits⟩
  · refine List.pairwise_append.mpr ⟨inv.order, by simp, fun line member new single => ?_⟩
    rw [List.mem_singleton.mp single]
    exact above line member
  · intro u d other closing inserted
    exact absurd (exclusive_of_inserted inserted) (others closing).2

end

theorem step : Preserved PeriodStep PeriodInv := by
  intro s s' inv step
  cases step with
  | tick now later => exact ⟨inv.alone, inv.waiting, inv.checked, inv.lines, inv.order, inv.pending⟩
  | other store closes journals => exact inv.withStore closes
  | openClose t input unused valid =>
    refine inv.withCloser t _ ?_ ?_
    · rintro _ ⟨⟩ exclusive
      exact absurd rfl exclusive
    · rintro _ row ⟨⟩ ⟨⟩
  | grant t c running phase free =>
    refine inv.withCloser t _ (fun _ _ _ => free) ?_
    rintro _ row ⟨⟩ ⟨⟩
  | insertLine t c running phase text time =>
    have exclusive : c.exclusive := by
      rw [Closer.exclusive, phase]
      nofun
    refine inv.withID.withCloser t _ (fun _ _ _ => inv.alone t c running exclusive) ?_
    rintro _ row ⟨⟩ ⟨⟩
    exact ⟨Nat.lt_succ_self _, time, fun line member => (inv.lines line member).1⟩
  | commitClose t c row running phase => exact inv.withLine running phase
  | abortClose t c running => exact inv.withCloser t none nofun nofun
  | openPost t unused =>
    refine inv.withPost t _ ?_ ?_ ?_
    · rintro _ ⟨⟩ ⟨⟩
    · rintro _ ⟨⟩ -
      rfl
    · rintro _ ⟨⟩ row member
      cases member
  | readBarrier t p running free =>
    refine inv.withPost t _ (fun _ _ _ => free) ?_ ?_
    · rintro _ ⟨⟩ ⟨⟩
    · rintro _ ⟨⟩
      exact inv.checked t p running
  | journal t p view cfg env input effectiveAt auth g row running barrier lines valid resolved gated inserted =>
    refine inv.withPost t _ (fun _ _ _ => inv.sharedFree running barrier) ?_ ?_
    · rintro _ ⟨⟩ unshared
      rw [barrier] at unshared
      cases unshared
    · rintro _ ⟨⟩ r member line active
      rcases List.mem_append.mp member with old | new
      · exact inv.checked t p running r old line active
      · rw [List.mem_singleton.mp new]
        exact gates_line gated inserted ((getActivePeriodClose_congr lines).trans active)
  | commitPost t p running => exact (inv.withPost t none nofun nofun nofun).withStore rfl
  | abortPost t p running => exact inv.withPost t none nofun nofun nofun

end PeriodInv

variable {s : PeriodSystem}

theorem PeriodSystem.Reachable.inv (reachable : s.Reachable) : PeriodInv s := by
  obtain ⟨start, initial, run⟩ := reachable
  exact PeriodInv.step.run (.initial initial) run

/-- Whatever posting transaction commits next, its journals are not before the line committed last.
-/
def Guarded (s : PeriodSystem) : Prop :=
  ∀ t p, s.posts t = some p → ∀ row ∈ p.journals, ∀ line, s.store.lastCommittedClose = some line →
    line.closeBefore ≤ row.effectiveAt

def LineKept (s : Store) : Prop :=
  ∀ last active, s.lastCommittedClose = some last → s.getActivePeriodClose = some active →
    last.closeBefore ≤ active.closeBefore

theorem PeriodInv.guarded (inv : PeriodInv s) (kept : LineKept s.store) : Guarded s := by
  intro t p running row member last committed
  cases active : s.store.getActivePeriodClose with
  | none =>
    rw [Store.lastCommittedClose, getActivePeriodClose_none active] at committed
    cases committed
  | some line =>
    calc last.closeBefore ≤ line.closeBefore := kept last line committed active
      _ ≤ row.effectiveAt := inv.checked t p running row member line active

theorem PeriodInv.lineKept (inv : PeriodInv s)
    (ordered : s.store.periodCloses.Pairwise fun a b => a.createdAt ≤ b.createdAt) :
    LineKept s.store := by
  intro last active committed activeLine
  obtain ⟨before, split⟩ := List.getLast?_eq_some_iff.mp committed
  obtain ⟨member, newest⟩ := getActivePeriodClose_some activeLine
  have newer := newest last (by simp [split])
  have times := split ▸ ordered
  have ids := split ▸ inv.order
  rw [split] at member
  rcases List.mem_append.mp member with earlier | same
  · have time := (List.pairwise_append.mp times).2.2 active earlier last (by simp)
    have id := (List.pairwise_append.mp ids).2.2 active earlier last (by simp)
    simp only [Newer] at newer
    omega
  · rw [List.mem_singleton.mp same]

def OpenStep (s s' : PeriodSystem) : Prop := PeriodStep s s' ∧ s'.store.periodCloses =
    s.store.periodCloses

variable {s' : PeriodSystem}

theorem OpenStep.run_closes (run : Run OpenStep s s') : s'.store.periodCloses =
    s.store.periodCloses := by
  induction run with
  | refl => rfl
  | tail _ last ih => exact last.2.trans ih

theorem OpenStep.run_inv (inv : PeriodInv s) (run : Run OpenStep s s') : PeriodInv s' :=
  PeriodInv.step.run inv (Relation.ReflTransGen.mono (fun _ _ step => And.left step) _ _ run)

theorem PeriodInv.barrier_opens (inv : PeriodInv s) : ∃ s', Run OpenStep s s' ∧ s'.sharedFree ∧
    s'.store = s.store := by
  by_cases free : s.sharedFree
  · exact ⟨s, .refl, free, rfl⟩
  · simp only [PeriodSystem.sharedFree, not_forall, not_not] at free
    obtain ⟨t, c, closing, exclusive⟩ := free
    refine ⟨_, .single ⟨.abortClose s t c closing, rfl⟩, fun u d running => ?_, rfl⟩
    by_cases same : u = t
    · subst same
      simp [PeriodSystem.setCloser] at running
    · simp only [PeriodSystem.setCloser, Function.update_of_ne same] at running
      exact (inv.alone t c closing exclusive).1 u d same running

theorem sharedFree_opens (free : s.sharedFree) : ∃ s', Run OpenStep s s' ∧ s'.posts 0 =
    some ⟨true, []⟩ ∧ s'.store = s.store := by
  have fresh (s : PeriodSystem) (free : s.sharedFree) (unused : s.posts 0 = none) :
      ∃ s', Run OpenStep s s' ∧ s'.posts 0 = some ⟨true, []⟩ ∧ s'.store = s.store :=
    ⟨_, .head ⟨.openPost s 0 unused, rfl⟩
      (.single ⟨.readBarrier _ 0 ⟨false, []⟩ (by simp [PeriodSystem.setPost]) free, rfl⟩),
      by simp [PeriodSystem.setPost], rfl⟩
  cases running : s.posts 0 with
  | none => exact fresh s free running
  | some p =>
    obtain ⟨s', run, rest⟩ := fresh (s.setPost 0 none) free (by simp [PeriodSystem.setPost])
    exact ⟨s', .head ⟨.abortPost s 0 p running, rfl⟩ run, rest⟩

def sampleView (closes : List PeriodCloseRow) : Store :=
  { Sample.store with periodCloses := closes }
def depositAt (t : Instant) : JournalInput := { Sample.deposit with effectiveAt := t }

theorem validate_at {decodeQuotes : GoString → Result Unit} {now : Instant} {input : JournalInput}
    (valid : input.validate decodeQuotes now = .ok ()) (t : Instant) :
    ({ input with effectiveAt := t }).validate decodeQuotes t = .ok () := by
  simp only [JournalInput.validate, bind_eq_ok] at valid ⊢
  obtain ⟨_, key, _, fields, _, quotes, _, nonempty, _, -, _, entries, balanced⟩ := valid
  refine ⟨(), key, (), fields, (), quotes, (), nonempty, (), ?_, (), entries, balanced⟩
  refine require_eq_ok.mpr (decide_eq_true (.inr ?_))
  have tolerance : 0 ≤ effectiveAtFutureTolerance := by decide
  exact le_add_of_nonneg_right tolerance

theorem depositAt_valid (t : Instant) :
    (depositAt t).validate Sample.config.decodeQuotes t = .ok () :=
  @validate_at _ 0 Sample.deposit (by decide +kernel) t

variable {t : Instant}

theorem depositAt_gated {closes : List PeriodCloseRow}
    (line : checkPeriodClose (sampleView closes) t = .ok ()) :
    ∃ g, gates (sampleView closes) (depositAt t) t (.unsigned .unsignedTxMode) = .ok g := by
  rw [gates, line]
  exact ⟨_, rfl⟩

theorem depositAt_inserted {closes : List PeriodCloseRow} (env : Env)
    (fits : timestampFits (toMicros t) = true) :
    ∃ row, insertJournal env (sampleView closes) (depositAt t) t
    (.unsigned .unsignedTxMode) g = .ok row ∧
      row.effectiveAt = toMicros t := by
  rw [insertJournal, fits]
  exact ⟨_, rfl, rfl⟩

/-- Until the next line commits, every journal that commits is at or after the line committed last,
exactly when the active line is not before it. That is so when the closing transactions began in the
order of their commits. -/
theorem period_barrier_iff {s : PeriodSystem} (reachable : s.Reachable) :
    ((∀ s', Run OpenStep s s' → Guarded s') ↔ LineKept s.store) ∧
      (s.store.periodCloses.Pairwise (fun a b => a.createdAt ≤ b.createdAt) → LineKept s.store) := by
  have inv := reachable.inv
  refine ⟨⟨fun guarded last active committed line => ?_, fun kept s' run => ?_⟩, inv.lineKept⟩
  · -- A transaction that posts right at the active line.
    obtain ⟨s₁, first, free, store₁⟩ := inv.barrier_opens
    obtain ⟨s₂, second, posting, store₂⟩ := sharedFree_opens free
    let t : Instant := active.closeBefore * 1000
    have micros : toMicros t = active.closeBefore := Int.mul_ediv_cancel _ (by decide)
    have allowed : checkPeriodClose (sampleView s.store.periodCloses) t = .ok () := by
      have same : (sampleView s.store.periodCloses).getActivePeriodClose = some active :=
        (getActivePeriodClose_congr rfl).trans line
      rw [checkPeriodClose, same]
      simp [require_eq_ok, t]
    obtain ⟨g, gated⟩ := depositAt_gated allowed
    have fits := (inv.lines active (getActivePeriodClose_some line).1).2
    obtain ⟨row, inserted, time⟩ := @depositAt_inserted g t s.store.periodCloses ⟨t, Sample.uid 5⟩
      (by rw [micros]; exact fits)
    have lines : (sampleView s.store.periodCloses).periodCloses = s₂.store.periodCloses := by
      rw [store₂, store₁, sampleView]
    have resolved : t = resolveEffectiveAt t (depositAt t).effectiveAt := (ite_self t).symm
    have posted : OpenStep s₂ (s₂.setPost 0 (some ⟨true, [row]⟩)) :=
      ⟨.journal s₂ 0 ⟨true, []⟩ (sampleView s.store.periodCloses) Sample.config ⟨t, Sample.uid 5⟩ (depositAt t) t
        (.unsigned .unsignedTxMode) g row posting rfl lines (depositAt_valid t) ⟨t, resolved⟩ gated inserted, rfl⟩
    have bound := guarded _ ((first.trans second).tail posted) 0 ⟨true, [row]⟩
      (by simp [PeriodSystem.setPost]) row (by simp)
      last (by rw [PeriodSystem.setPost, store₂, store₁]; exact committed)
    rwa [time, micros] at bound
  · have closes := OpenStep.run_closes run
    refine (OpenStep.run_inv inv run).guarded fun last active committed line => ?_
    rw [Store.lastCommittedClose, closes] at committed
    rw [getActivePeriodClose_congr closes] at line
    exact kept last active committed line

def periodSample : PeriodSystem := ⟨Sample.store, 0, 1, fun _ => none, fun _ => none⟩

theorem close_run {t : Nat} (running : s.closers t = some c) (phase : c.phase = .polling)
    (free : s.exclusiveFree t)
    (text : textFits c.input.note = true)
    (time : timestampFits (toMicros c.input.closeBefore) = true) : Run PeriodStep s ({ s with
      nextCloseID := s.nextCloseID + 1
      store := { s.store with
        periodCloses := s.store.periodCloses ++ [periodCloseRow s.nextCloseID c.input c.startedAt] }
          }.setCloser t none) := by
  refine cast (congrArg _ ?_) (.head (.grant s t c running phase free) <|
    .head (.insertLine _ t { c with phase := .granted } (Function.update_self ..) rfl text time) <|
    .head (.commitClose _ t _ _ (Function.update_self ..) rfl) (.refl : Run PeriodStep _ _))
  simp [PeriodSystem.setCloser]

def augustClose : ClosePeriodInput := ⟨2000000, [], 1⟩
def julyClose : ClosePeriodInput := ⟨1000000, [], 1⟩

theorem close_alone {s : PeriodSystem} (closers : s.closers = fun _ => none)
    (posts : s.posts = fun _ => none) (now : Instant) (later : s.now ≤ now) (i : ClosePeriodInput)
    (valid : i.validate = .ok ()) (text : textFits i.note = true)
    (time : timestampFits (toMicros i.closeBefore) = true) :
    Run PeriodStep s { s with
      now := now
      nextCloseID := s.nextCloseID + 1
      store := { s.store with
        periodCloses := s.store.periodCloses ++ [periodCloseRow s.nextCloseID i now] } } := by
  have free : ({ s with now := now }.setCloser 0 (some ⟨i, now, .polling⟩)).exclusiveFree 0 := by
    refine ⟨fun u c other closing => ?_, ?_⟩
    · simp [PeriodSystem.setCloser, closers, Function.update_of_ne other] at closing
    · simp [PeriodSystem.setCloser, posts]
  refine cast (congrArg _ ?_) (.head (.tick s now later) <|
    .head (.openClose _ 0 i (by rw [closers]) valid) <|
    close_run (Function.update_self ..) rfl free text time)
  simp [PeriodSystem.setCloser, closers]

/-- July and August are closed in this order. -/
def closedTwice : PeriodSystem :=
  { periodSample with
    now := 20000
    nextCloseID := 3
    store := { Sample.store with periodCloses := [⟨1, 1000, 10⟩, ⟨2, 2000, 20⟩] } }

theorem closedTwice_reachable : closedTwice.Reachable := by
  have july := close_alone (s := periodSample) rfl rfl 10000 (by decide) julyClose (by decide)
    (by decide) (by decide)
  have august := july.trans (close_alone rfl rfl 20000 (by decide) augustClose (by decide)
    (by decide) (by decide))
  exact ⟨periodSample, ⟨rfl, fun _ => rfl, fun _ => rfl⟩, august⟩

theorem period_barrier_iff_closedTwice :
    LineKept closedTwice.store ∧ ∀ s, Run OpenStep closedTwice s → Guarded s := by
  have kept := (period_barrier_iff closedTwice_reachable).2 (by decide)
  exact ⟨kept, (period_barrier_iff closedTwice_reachable).1.mpr kept⟩

def crossed : PeriodSystem :=
  ({ periodSample with now := 20000 }.setCloser 0 (some ⟨augustClose, 10000, .polling⟩)).setCloser 1
    (some ⟨julyClose, 20000, .polling⟩)

def crossedClosed : PeriodSystem :=
  { periodSample with
    now := 20000
    nextCloseID := 3
    store := { Sample.store with periodCloses := [⟨1, 1000, 20⟩, ⟨2, 2000, 10⟩] } }

theorem crossed_run : Run PeriodStep periodSample crossed :=
  .head (.tick _ 10000 (by decide)) <| .head (.openClose _ 0 augustClose rfl (by decide)) <|
  .head (.tick _ 20000 (by simp [PeriodSystem.setCloser])) <|
  .head (.openClose _ 1 julyClose
    (by simp [PeriodSystem.setCloser, periodSample]) (by decide)) .refl

theorem crossedClosed_run : Run PeriodStep crossed crossedClosed := by
  have julyFree : crossed.exclusiveFree 1 := by
    refine ⟨fun u c other closing exclusive => ?_, nofun⟩
    simp only [crossed, PeriodSystem.setCloser, Function.update_of_ne other, Function.update_apply,
      periodSample] at closing
    split at closing
    · cases closing
      exact exclusive rfl
    · cases closing
  have july : Run PeriodStep crossed _ := close_run (t := 1) rfl rfl julyFree
    (by decide) (by decide)
  refine cast (congrArg _ ?_) (july.trans
    (close_run (t := 0) (c := ⟨augustClose, 10000, .polling⟩) rfl rfl ⟨fun u c other closing =>
      ?_, nofun⟩ (by decide)
      (by decide)))
  · simp only [crossed, crossedClosed, PeriodSystem.setCloser, periodSample, PeriodSystem.mk.injEq]
    refine ⟨by simp [periodCloseRow, toMicros, augustClose, julyClose, Sample.store], trivial,
      trivial, ?_, trivial⟩
    funext u
    simp only [Function.update_apply]
    split_ifs <;> rfl
  · simp only [crossed, PeriodSystem.setCloser, Function.update_apply, other, periodSample,
      if_false] at closing
    split at closing <;> simp_all

/-- Transaction 0 committed last, but the journal at 1500 passes the line of transaction 1. -/
theorem late_commit_loses_line : ∃ (s s' : PeriodSystem) (row : JournalRow)
    (last : PeriodCloseRow), s.Reachable ∧
    s.store.lastCommittedClose = some last ∧ PeriodStep s s' ∧ row ∉ s.store.journals ∧
    row ∈ s'.store.journals ∧
    row.effectiveAt < last.closeBefore := by
  obtain ⟨g, gated⟩ := @depositAt_gated 1500000 crossedClosed.store.periodCloses (by decide +kernel)
  obtain ⟨row, inserted, time⟩ := @depositAt_inserted g 1500000 crossedClosed.store.periodCloses
    ⟨1500000, Sample.uid 5⟩ (by decide)
  have posted : Run PeriodStep crossedClosed (crossedClosed.setPost 0 (some ⟨true, [row]⟩)) := by
    refine cast (congrArg _ ?_) (.head (.openPost _ 0 rfl) <|
      .head (.readBarrier _ 0 ⟨false, []⟩ rfl nofun) <|
      .head (.journal _ 0 ⟨true, []⟩ (sampleView crossedClosed.store.periodCloses) Sample.config ⟨1500000, Sample.uid 5⟩
        (depositAt 1500000) 1500000 (.unsigned .unsignedTxMode) g row rfl rfl rfl
          (depositAt_valid 1500000) ⟨1500000, rfl⟩
        gated inserted) (.refl : Run PeriodStep _ _))
    simp [PeriodSystem.setPost]
  refine ⟨_, _, row, ⟨2, 2000, 10⟩, ⟨periodSample, ⟨rfl, fun _ => rfl, fun _ => rfl⟩,
    (crossed_run.trans crossedClosed_run).trans posted⟩, rfl, .commitPost _ 0
      ⟨true, [row]⟩ rfl, ?_, ?_, ?_⟩
  · exact List.not_mem_nil
  · exact List.mem_append_right _ (List.mem_singleton_self row)
  · rw [time]
    decide

end Ledger.Postgres
