import Ledger.Shared.Grouping

namespace Ledger.Shared

variable {σ κ ε α : Type}

/-- A transaction as its locks see it: what it locks next may depend on what its statements read. -/
inductive Locking (σ κ : Type) where
  | done
  | acquire (lock : κ) (next : Locking σ κ)
  | read (next : σ → Locking σ κ)

namespace Locking

def acquireAll (locks : List κ) (next : Locking σ κ) : Locking σ κ := locks.foldr acquire next

def check (f : σ → Except ε α) (next : α → Locking σ κ) : Locking σ κ :=
  .read fun s =>
    match f s with
    | .ok a => next a
    | .error _ => .done

/-- The locks a run asks for. Each statement sees a state of its own, and the run may end anywhere.
-/
inductive Takes (sees : σ → Prop) : Locking σ κ → List κ → Prop where
  | stop (t : Locking σ κ) : Takes sees t []
  | acquire (lock : κ) (next : Locking σ κ) (locks : List κ) (rest : Takes sees next locks) :
      Takes sees (.acquire lock next) (lock :: locks)
  | read (next : σ → Locking σ κ) (s : σ) (locks : List κ) (seen : sees s) (rest : Takes sees (next s) locks) :
      Takes sees (.read next) locks

def locksAt (s : σ) : Locking σ κ → List κ
  | .done => []
  | .acquire lock next => lock :: next.locksAt s
  | .read next => (next s).locksAt s

theorem takes_locksAt {sees : σ → Prop} {s : σ} (seen : sees s) (t : Locking σ κ) :
    Takes sees t (t.locksAt s) := by
  induction t with
  | done => exact .stop _
  | acquire lock next ih => exact .acquire lock next _ ih
  | read next ih => exact .read next s _ seen (ih s)

section

variable [DecidableEq κ] (lt : κ → κ → Prop)

def Rises : List κ → List κ → Prop
  | _, [] => True
  | held, lock :: rest =>
    if lock ∈ held then Rises held rest else (∀ h ∈ held, lt h lock) ∧ Rises (lock :: held) rest

variable {lt}

theorem Rises.pairwise {locks : List κ} (rises : Rises lt [] locks) :
    (firstSeen locks).Pairwise lt := by
  -- Generalised to a run that starts with some locks held: the others follow these.
  have general (locks : List κ) : ∀ held, Rises lt held locks →
      ((firstSeen locks).filter (· ∉ held)).Pairwise lt ∧ ∀ h ∈ held, ∀ l ∈ locks, l ∉ held → lt h l := by
    induction locks with
    | nil => simp [firstSeen]
    | cons lock rest ih =>
      intro held rises
      rw [Rises] at rises
      split at rises
      · next mine =>
        obtain ⟨order, follow⟩ := ih held rises
        have same : (firstSeen (lock :: rest)).filter (· ∉ held) = (firstSeen rest).filter (· ∉ held) := by
          rw [firstSeen, List.filter_cons_of_neg (by simp [mine]), List.filter_filter]
          apply List.filter_congr
          intro l _
          by_cases again : l = lock <;> simp [again, mine]
        refine ⟨same ▸ order, ?_⟩
        intro h isHeld l member notHeld
        rcases List.mem_cons.mp member with rfl | deeper
        · exact absurd mine notHeld
        · exact follow h isHeld l deeper notHeld
      · next new =>
        obtain ⟨order, follow⟩ := ih (lock :: held) rises.2
        have same : (firstSeen (lock :: rest)).filter (· ∉ held) = lock :: (firstSeen rest).filter
          (· ∉ lock :: held) := by
          rw [firstSeen, List.filter_cons_of_pos (by simp [new]), List.filter_filter]
          congr 1
          apply List.filter_congr
          intro l _
          by_cases again : l = lock <;> simp [again]
        rw [same, List.pairwise_cons]
        refine ⟨⟨?_, order⟩, ?_⟩
        · intro l member
          obtain ⟨inside, other⟩ := List.mem_filter.mp member
          exact follow lock List.mem_cons_self l (mem_firstSeen.mp inside) (by simpa using other)
        · intro h isHeld l member notHeld
          by_cases first : l = lock
          · exact first ▸ rises.1 h isHeld
          · rcases List.mem_cons.mp member with again | deeper
            · exact absurd again first
            · exact follow h (List.mem_cons_of_mem _ isHeld) l deeper (by simp [first, notHeld])
  have whole := (general locks [] rises).1
  simpa using whole

variable (lt) in
def Ordered (sees : σ → Prop) (held : List κ) (t : Locking σ κ) :
    Prop := ∀ locks, Takes sees t locks → Rises lt held locks

variable {sees : σ → Prop} {held : List κ}

theorem Ordered.done : Ordered lt sees held .done := by
  intro locks takes
  cases takes
  trivial

theorem Ordered.read {next : σ → Locking σ κ} (each : ∀ s, sees s → Ordered lt sees held (next s)) :
    Ordered lt sees held (.read next) := by
  intro locks takes
  cases takes with
  | stop => trivial
  | read _ s locks seen rest => exact each s seen locks rest

theorem Ordered.check {f : σ → Except ε α} {next : α → Locking σ κ}
    (each : ∀ s a, sees s → f s = .ok a → Ordered lt sees held (next a)) :
    Ordered lt sees held (.check f next) := by
  refine .read ?_
  intro s seen
  split
  · next a answered => exact each s a seen answered
  · exact .done

theorem Ordered.again {lock : κ} {next : Locking σ κ} (mine : lock ∈ held)
    (rest : Ordered lt sees held next) :
    Ordered lt sees held (.acquire lock next) := by
  intro locks takes
  cases takes with
  | stop => trivial
  | acquire _ _ locks takes =>
    rw [Rises, if_pos mine]
    exact rest locks takes

theorem Ordered.acquire {lock : κ} {next : Locking σ κ} (new : lock ∉ held)
    (above : ∀ h ∈ held, lt h lock)
    (rest : Ordered lt sees (lock :: held) next) : Ordered lt sees held (.acquire lock next) := by
  intro locks takes
  cases takes with
  | stop => trivial
  | acquire _ _ locks takes =>
    rw [Rises, if_neg new]
    exact ⟨above, rest locks takes⟩

theorem Ordered.againAll {locks : List κ} {next : Locking σ κ} (mine : ∀ l ∈ locks, l ∈ held)
    (rest : Ordered lt sees held next) : Ordered lt sees held (acquireAll locks next) := by
  induction locks with
  | nil => exact rest
  | cons lock locks ih =>
    exact .again (mine lock List.mem_cons_self) (ih fun l member => mine l (List.mem_cons_of_mem _ member))

theorem Ordered.acquireAll (irrefl : ∀ a, ¬lt a a) {locks : List κ} {next : Locking σ κ}
    (sorted : locks.Pairwise lt)
    (above : ∀ h ∈ held, ∀ l ∈ locks, lt h l)
    (rest : ∀ held', (∀ l, l ∈ held' ↔ l ∈ locks ∨ l ∈ held) → Ordered lt sees held' next) :
    Ordered lt sees held (Locking.acquireAll locks next) := by
  induction locks generalizing held with
  | nil => exact rest held (by simp)
  | cons lock locks ih =>
    obtain ⟨first, sorted⟩ := List.pairwise_cons.mp sorted
    refine .acquire (fun mine => irrefl lock (above lock mine lock List.mem_cons_self))
      (fun h isHeld => above h isHeld lock List.mem_cons_self) (ih sorted ?_ ?_)
    · intro h isHeld l member
      rcases List.mem_cons.mp isHeld with rfl | old
      · exact first l member
      · exact above h old l (List.mem_cons_of_mem _ member)
    · intro held' same
      refine rest held' fun l => ?_
      rw [same, List.mem_cons, List.mem_cons]
      tauto

end

end Locking

structure Waiting (κ : Type) where
  taken : List κ
  wants : κ
  blocked : wants ∉ taken

def Waiting.waitsFor (a b : Waiting κ) : Prop := a.wants ∈ b.taken

theorem firstSeen_concat [DecidableEq κ] {locks : List κ} {lock : κ} (new : lock ∉ locks) :
    firstSeen (locks ++ [lock]) = firstSeen locks ++ [lock] := by
  induction locks with
  | nil => rfl
  | cons first rest ih =>
    simp only [List.mem_cons, not_or] at new
    rw [List.cons_append, firstSeen, ih new.2, List.filter_append, firstSeen, List.cons_append]
    simp [new.1]

theorem no_circular_wait [DecidableEq κ] {lt : κ → κ → Prop} (irrefl : ∀ a, ¬lt a a)
    (trans : ∀ a b c, lt a b → lt b c → lt a c)
    {waiting : Waiting κ → Prop} (ordered : ∀ w, waiting w →
      (firstSeen (w.taken ++ [w.wants])).Pairwise lt) (w : Waiting κ) :
    ¬Relation.TransGen (fun a b => waiting b ∧ a.waitsFor b) w w := by
  -- What a transaction waits for comes before what the holder waits for.
  have step (a b : Waiting κ) (edge : waiting b ∧ a.waitsFor b) : lt a.wants b.wants := by
    have sorted := ordered b edge.1
    rw [firstSeen_concat b.blocked, List.pairwise_append] at sorted
    exact sorted.2.2 a.wants (mem_firstSeen.mpr edge.2) b.wants List.mem_cons_self
  intro cycle
  have rises : ∀ b, Relation.TransGen (fun a b => waiting b ∧ a.waitsFor b) w b →
    lt w.wants b.wants := by
    intro b path
    induction path with
    | single edge => exact step _ _ edge
    | tail _ edge ih => exact trans _ _ _ ih (step _ _ edge)
  exact irrefl _ (rises w cycle)

end Ledger.Shared
