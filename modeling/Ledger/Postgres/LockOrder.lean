import Ledger.Postgres.LockPaths
import Ledger.Postgres.TransitionRuns

namespace Ledger.Postgres

open Core Shared Shared.Locking

structure KindOrder where
  bookingFirst : Bool
  journalFirst : Bool

variable {o : KindOrder}

def Lock.rank (o : KindOrder) : Lock → Int
  | .booking _ => if o.bookingFirst then 0 else 3
  | .journal _ => if o.journalFirst then 1 else 4
  | .key _ => 2
  | .balance _ => 5

def Lock.place : Lock → List Int
  | .booking id => [0, (id : Int)]
  | .journal id => [1, (id : Int)]
  | .key k => 2 :: k.map fun b => (b.val : Int)
  | .balance p => [3, p.holder, (p.currency : Int)]

theorem Lock.place_injective : Function.Injective Lock.place := by
  have bytes : Function.Injective fun b : Byte => (b.val : Int) := by
    intro a b same
    have values : (a.val : Int) = b.val := same
    exact Fin.ext (by exact_mod_cast values)
  intro a b same
  cases a <;> cases b <;> simp only [Lock.place, List.cons.injEq, and_true] at same
  case booking.booking id id' => rw [Int.natCast_inj.mp same.2]
  case journal.journal id id' => rw [Int.natCast_inj.mp same.2]
  case key.key k k' => rw [List.map_injective_iff.mpr bytes same.2]
  case balance.balance p p' =>
    obtain ⟨holder, currency⟩ := p
    obtain ⟨holder', currency'⟩ := p'
    simp only [Int.natCast_inj] at same
    rw [same.2.1, same.2.2]
  all_goals omega

def Lock.code (o : KindOrder) (l : Lock) : List Int := l.rank o :: l.place

theorem Lock.code_injective (o : KindOrder) : Function.Injective (Lock.code o) := by
  intro a b same
  exact Lock.place_injective (List.cons.inj same).2

abbrev lockOrder (o : KindOrder) : LinearOrder Lock := LinearOrder.lift' (Lock.code o)
    (Lock.code_injective o)

def Lock.before (o : KindOrder) (a b : Lock) : Prop := a.code o < b.code o

theorem Lock.before_irrefl (o : KindOrder) (a : Lock) : ¬a.before o a := lt_irrefl _

variable {a b : Lock}

theorem Lock.before_of_rank (less : a.rank o < b.rank o) : a.before o b := List.Lex.rel less

theorem Lock.before_of_place (same : a.rank o = b.rank o) (less : a.place < b.place) :
    a.before o b := by
  rw [Lock.before, Lock.code, Lock.code, same]
  exact List.Lex.cons less

instance : Std.Total pairLe where
  total a b := by
    unfold pairLe
    omega

instance : IsTrans Pair pairLe where
  trans a b c := by
    unfold pairLe
    omega

theorem sortedPairs_before (pairs : List Pair) :
    ((sortedUniquePairs pairs).map Lock.balance).Pairwise (Lock.before o) := by
  have sorted := List.pairwise_insertionSort pairLe pairs.dedup
  have distinct : (pairs.dedup.insertionSort pairLe).Nodup :=
    (List.perm_insertionSort pairLe pairs.dedup).nodup_iff.mpr (List.nodup_dedup pairs)
  rw [List.pairwise_map]
  refine (sorted.and distinct).imp ?_
  rintro ⟨holder, currency⟩ ⟨holder', currency'⟩ ⟨le, other⟩
  refine Lock.before_of_place rfl (List.Lex.cons ?_)
  rcases le with less | ⟨rfl, le⟩
  · exact List.Lex.rel less
  · have less : currency < currency' := lt_of_le_of_ne le fun same => other (by rw [same])
    exact List.Lex.cons (List.Lex.rel (by exact_mod_cast less))

theorem place_key_lt {k k' : GoString} (less : k < k') : (Lock.key k).place <
    (Lock.key k').place := by
  refine List.Lex.cons ?_
  induction less with
  | nil => exact List.Lex.nil
  | cons _ ih => exact List.Lex.cons ih
  | rel less => exact List.Lex.rel (Int.ofNat_lt.mpr (Fin.lt_def.mp less))

theorem batchKeys_before (inputs : List JournalInput) : ((batchKeys inputs).map Lock.key).Pairwise
    (Lock.before o) := by
  have sorted : (batchKeys inputs).Pairwise (· ≤ ·) := List.pairwise_insertionSort _ _
  have distinct : (batchKeys inputs).Nodup := by
    unfold batchKeys
    exact (List.perm_insertionSort _ _).nodup_iff.mpr (List.nodup_dedup _)
  rw [List.pairwise_map]
  refine (sorted.and distinct).imp ?_
  rintro k k' ⟨le, other⟩
  exact Lock.before_of_place rfl (place_key_lt (lt_of_le_of_ne le other))

section

variable {sees : View → Prop} {held : List Lock} {next : LockPath} {lock : Lock}
  {input : JournalInput} {resolved : List ResolvedEntry}

theorem fresh_of_rank (low : ∀ h ∈ held, h.rank o < lock.rank o) : lock ∉ held := by
  intro mine
  exact lt_irrefl _ (low lock mine)

theorem ordered_above (low : ∀ h ∈ held, h.rank o < lock.rank o)
    (rest : Ordered (Lock.before o) sees (lock :: held) next) :
    Ordered (Lock.before o) sees held (.acquire lock next) :=
  .acquire (fresh_of_rank low) (fun h isHeld => Lock.before_of_rank (low h isHeld)) rest

theorem ordered_once {n : Int} (low : ∀ h ∈ held, h.rank o < n)
    (placed : lock ∈ held ∨ lock.rank o = n)
    (rest : ∀ held', held ⊆ held' → (∀ h ∈ held', h.rank o < n + 1) →
      Ordered (Lock.before o) sees held' next) :
    Ordered (Lock.before o) sees held (.acquire lock next) := by
  rcases placed with mine | rfl
  · exact .again mine (rest held (List.Subset.refl _) fun h isHeld =>
      Int.lt_add_one_of_le (low h isHeld).le)
  · refine ordered_above low
      (rest _ (List.subset_cons_self _ _)
        (List.forall_mem_cons.mpr ⟨lt_add_one _, fun h isHeld => ?_⟩))
    exact Int.lt_add_one_of_le (low h isHeld).le

theorem ordered_replay {existing : JournalRow} (rest : Ordered (Lock.before o) sees held next) :
    Ordered (Lock.before o) sees held (replayJournal input existing next) :=
  .check fun _ _ _ _ => rest

def linksTo (sees : View → Prop) (input : JournalInput) (bookingID : Nat) : Prop :=
  ∃ v uid event, sees v ∧ input.eventUID ≠ [] ∧ Uuid.parse input.eventUID = some uid ∧
    v.store.getEventByUID uid = some event ∧ event.bookingID = bookingID ∧ bookingID ≠ 0

def reverses (sees : View → Prop) (input : JournalInput) (journalID : Nat) : Prop :=
  ∃ v uid j, sees v ∧ input.reversalOfUID ≠ [] ∧ Uuid.parse input.reversalOfUID = some uid ∧
    v.store.getJournalByUID uid = some j ∧ j.id = journalID

theorem ordered_lockEvent (low : ∀ h ∈ held, h.rank o < 3)
    (placed : ∀ id, linksTo sees input id → .booking id ∈ held ∨ o.bookingFirst = false)
    (rest : ∀ held', held ⊆ held' → (∀ h ∈ held', h.rank o < 4) →
      Ordered (Lock.before o) sees held' next) :
    Ordered (Lock.before o) sees held (lockEvent input.eventUID resolved next) := by
  have stay := rest held (List.Subset.refl _) fun h isHeld => (low h isHeld).trans (by norm_num)
  unfold lockEvent
  split
  · exact stay
  next named =>
  refine .check ?_
  intro v event seen found
  simp only [bind_eq_ok, orError_eq_ok, pure_eq_ok] at found
  obtain ⟨uid, parsed, event', stored, _, -, rfl⟩ := found
  split
  · exact .check fun _ _ _ _ => stay
  next booked =>
  refine .check fun _ _ _ _ => ?_
  refine ordered_once low ?_ fun held' more low' => .check fun _ _ _ _ => rest held' more low'
  exact (placed _ ⟨v, uid, event', seen, named, parsed, stored, rfl, booked⟩).imp_right
    fun after => by simp [Lock.rank, after]

theorem ordered_lockReversed (low : ∀ h ∈ held, h.rank o < 4)
    (placed : ∀ id, reverses sees input id → .journal id ∈ held ∨ o.journalFirst = false)
    (rest : ∀ held', held ⊆ held' → (∀ h ∈ held', h.rank o < 5) →
      Ordered (Lock.before o) sees held' next) :
    Ordered (Lock.before o) sees held (lockReversed input.reversalOfUID resolved next) := by
  have stay := rest held (List.Subset.refl _) fun h isHeld => (low h isHeld).trans (by norm_num)
  unfold lockReversed
  split
  · exact stay
  next named =>
  refine .check ?_
  intro v orig seen found
  simp only [bind_eq_ok, orError_eq_ok] at found
  obtain ⟨uid, parsed, stored⟩ := found
  refine ordered_once low ?_ fun held' more low' => .check fun _ _ _ _ => rest held' more low'
  exact (placed _ ⟨v, uid, orig, seen, named, parsed, stored, rfl⟩).imp_right fun after => by
    simp [Lock.rank, after]

theorem ordered_balances (low : ∀ h ∈ held, h.rank o < 5) (pairs : List Pair)
    (rest : ∀ held', (∀ l, l ∈ held' ↔ l ∈ (sortedUniquePairs pairs).map Lock.balance ∨ l ∈ held) →
      Ordered (Lock.before o) sees held' next) :
    Ordered (Lock.before o) sees held (acquireBalanceLocks (sortedUniquePairs pairs) next) := by
  refine .acquireAll (Lock.before_irrefl o) (sortedPairs_before pairs) ?_ rest
  intro h isHeld l member
  obtain ⟨p, -, rfl⟩ := List.mem_map.mp member
  exact Lock.before_of_rank (low h isHeld)

variable {c : CallEnv}

theorem ordered_postJournal (low : ∀ h ∈ held, h.rank o < 2)
    (event : ∀ id, linksTo sees input id → .booking id ∈ held ∨ o.bookingFirst = false)
    (reversal : ∀ id, reverses sees input id → .journal id ∈ held ∨ o.journalFirst = false) :
    Ordered (Lock.before o) sees held (postJournalLocks c input .done) := by
  refine .check fun _ _ _ _ => .check fun _ found _ _ => ?_
  cases found with
  | some existing => exact ordered_replay .done
  | none =>
    have below : ∀ h ∈ held, h.rank o < (Lock.key input.idempotencyKey).rank o := low
    refine ordered_above below (.check fun _ found _ _ => ?_)
    cases found with
    | some existing => exact ordered_replay .done
    | none =>
      refine .check fun _ resolved _ _ => .check fun _ jt _ _ => ordered_lockEvent ?_ ?_ ?_
      · intro h isHeld
        rcases List.mem_cons.mp isHeld with rfl | old
        · simp [Lock.rank]
        · have := low h old
          omega
      · intro id linked
        exact (event id linked).imp_left (List.mem_cons_of_mem _)
      · intro held₁ sub low₁
        refine .check fun _ _ _ _ => .check fun _ _ _ _ => ordered_lockReversed low₁ ?_ ?_
        · intro id named
          exact (reversal id named).imp_left fun mine => sub (List.mem_cons_of_mem _ mine)
        · intro held₂ _ low₂
          exact .check fun _ _ _ _ => ordered_balances low₂ _ fun _ _ => .check fun _ _ _ _ => .done

theorem ordered_postHeld (key : .key input.idempotencyKey ∈ held) (event : input.eventUID = [])
    (reversal : input.reversalOfUID = [])
    (pairs : ∀ v resolved, sees v → resolveEntries v.store input.entries = .ok resolved →
      ∀ p ∈ balancePairsFromEntries resolved, .balance p ∈ held)
      (rest : Ordered (Lock.before o) sees held next) :
    Ordered (Lock.before o) sees held (postJournalLocks c input next) := by
  refine .check fun _ _ _ _ => .check fun _ found _ _ => ?_
  cases found with
  | some existing => exact ordered_replay rest
  | none =>
    refine .again key (.check fun _ found _ _ => ?_)
    cases found with
    | some existing => exact ordered_replay rest
    | none =>
      refine .check fun v resolved seen made => .check fun _ jt _ _ => ?_
      rw [lockEvent, if_pos event, lockReversed, if_pos reversal]
      refine .check fun _ _ _ _ => .check fun _ _ _ _ => .check fun _ _ _ _ => .againAll ?_ (.check fun _ _ _ _ => rest)
      intro l member
      obtain ⟨p, inside, rfl⟩ := List.mem_map.mp member
      exact pairs v resolved seen made p inside

end

section

variable {i : Invocation} {v : View} {inputs : List JournalInput} {c : CallEnv}
  {entries : List EntryInput} {held : List Lock} {sees : View → Prop}
    {journalUID : GoString} {missing : Error}

theorem Invocation.Consistent.resolved (consistent : i.Consistent) {v' : View}
    (seen : i.sees v) (seen' : i.sees v')
    {r r' : List ResolvedEntry} (first : resolveEntries v.store entries = .ok r)
    (second : resolveEntries v'.store entries = .ok r') :
    r = r' := by
  have first' := collect_eq_ok.mp first
  have second' := collect_eq_ok.mp second
  clear first second
  induction first' generalizing r' with
  | nil =>
    cases second'
    rfl
  | cons one _ ih =>
    cases second' with
    | cons other rest => rw [consistent.entries v v' seen seen' _ _ _ one other, ih rest]

theorem ordered_batchPairs (consistent : i.Consistent) {next : List Pair → LockPath}
    (rest : ∀ pairs, (∀ input ∈ inputs, ∀ v resolved, i.sees v →
      resolveEntries v.store input.entries = .ok resolved →
      ∀ p ∈ balancePairsFromEntries resolved, p ∈ pairs) →
      Ordered (Lock.before o) i.sees held (next pairs)) :
    Ordered (Lock.before o) i.sees held (batchPairs inputs next) := by
  induction inputs generalizing next with
  | nil => exact rest [] (by simp)
  | cons input inputs ih =>
    refine .check fun v resolved seen made => ih ?_
    intro pairs covers
    refine rest _ ?_
    intro input' member v' resolved' seen' made' p inside
    rcases List.mem_cons.mp member with rfl | later
    · rw [consistent.resolved seen' seen made' made] at inside
      exact List.mem_append_left _ inside
    · exact List.mem_append_right _ (covers input' later v' resolved' seen' made' p inside)

theorem ordered_postAll (each : ∀ input ∈ inputs, .key input.idempotencyKey ∈ held ∧
    input.eventUID = [] ∧ input.reversalOfUID = [] ∧
      ∀ v resolved, sees v → resolveEntries v.store input.entries = .ok resolved →
        ∀ p ∈ balancePairsFromEntries resolved, .balance p ∈ held) :
        Ordered (Lock.before o) sees held (postAll c inputs) := by
  induction inputs with
  | nil => exact .done
  | cons input inputs ih =>
    obtain ⟨key, event, reversal, pairs⟩ := each input List.mem_cons_self
    exact ordered_postHeld key event reversal pairs
      (ih fun input' member => each input' (List.mem_cons_of_mem _ member))

theorem ordered_batch (consistent : i.Consistent)
    (plain : ∀ input ∈ inputs, input.eventUID = [] ∧ input.reversalOfUID = []) :
    Ordered (Lock.before o) i.sees [] (executeTemplateBatchLocks c inputs) := by
  refine .acquireAll (Lock.before_irrefl o) (batchKeys_before inputs) (by simp) ?_
  intro held keys
  refine ordered_batchPairs consistent fun pairs covers => ordered_balances ?_ pairs fun held'
    balances => ordered_postAll ?_
  · intro h isHeld
    rcases (keys h).mp isHeld with key | nothing
    · obtain ⟨k, -, rfl⟩ := List.mem_map.mp key
      simp [Lock.rank]
    · cases nothing
  · intro input member
    obtain ⟨event, reversal⟩ := plain input member
    refine ⟨?_, event, reversal, ?_⟩
    · refine (balances _).mpr (.inr ((keys _).mpr (.inl (List.mem_map_of_mem ?_))))
      rw [batchKeys, List.mem_insertionSort, List.mem_dedup]
      exact List.mem_map_of_mem member
    · intro v resolved seen made p inside
      refine (balances _).mpr (.inl (List.mem_map_of_mem ?_))
      exact mem_sortedUniquePairs.mpr (covers input member v resolved seen made p inside)

theorem ordered_reversal (consistent : i.Consistent) (first : o.journalFirst = true)
    (seen : i.sees v) {uid : Uuid}
    (parsed : Uuid.parse journalUID = some uid) {original : JournalRow}
    (stored : v.store.getJournalByUID uid = some original)
    {jt : JournalTypeRow} {key : GoString} {metadata : Metadata} : Ordered (Lock.before o) i.sees
    [.journal original.id]
      (postJournalLocks c (reversalInput jt key entries journalUID metadata) .done) := by
  refine ordered_postJournal ?_ ?_ ?_
  · intro h isHeld
    rw [List.mem_singleton.mp isHeld]
    simp [Lock.rank, first]
  · rintro id ⟨_, _, _, _, named, -⟩
    exact absurd rfl named
  · rintro id ⟨v', uid', j, seen', -, parsed', stored', rfl⟩
    rw [reversalInput, parsed, Option.some.injEq] at parsed'
    rw [← parsed'] at stored'
    rw [consistent.journals v' v seen' seen uid j original stored' stored]
    exact .inl List.mem_cons_self

theorem ordered_lockOriginal {next : JournalRow → LockPath}
    (rest : ∀ v uid original, sees v → Uuid.parse journalUID = some uid →
      v.store.getJournalByUID uid = some original →
      Ordered (Lock.before o) sees [.journal original.id] (next original)) :
    Ordered (Lock.before o) sees [] (lockOriginal journalUID missing next) := by
  refine .check fun v original seen found => ?_
  simp only [bind_eq_ok, uidToPG, orError_eq_ok] at found
  obtain ⟨uid, parsed, stored⟩ := found
  exact ordered_above (by simp) (rest v uid original seen parsed stored)

theorem ordered_reverseJournal (consistent : i.Consistent) (first : o.journalFirst = true)
    (c : CallEnv) (journalUID reason : GoString) :
    Ordered (Lock.before o) i.sees [] (reverseJournalLocks c journalUID reason) :=
  ordered_lockOriginal fun _ _ _ seen parsed stored =>
    .check fun _ _ _ _ => .check fun _ _ _ _ => .check fun _ _ _ _ => .check fun _ _ _ _ =>
      ordered_reversal consistent first seen parsed stored

theorem ordered_reverseJournalFraction (consistent : i.Consistent)
    (first : o.journalFirst = true) (c : CallEnv)
    (journalUID : GoString) (num den : Int) (reason key : GoString) :
    Ordered (Lock.before o) i.sees []
    (reverseJournalFractionLocks c journalUID num den reason key) := by
  refine .check fun _ _ _ _ => .check fun _ _ _ _ => ordered_lockOriginal fun _ _ _ seen parsed
    stored => .check fun _ found _ _ => ?_
  cases found with
  | some existing => exact .done
  | none =>
    exact .check fun _ _ _ _ => .check fun _ _ _ _ => .check fun _ _ _ _ =>
      ordered_reversal consistent first seen parsed stored

theorem ordered_reserve (sees : View → Prop) (input : ReserveInput) :
    Ordered (Lock.before o) sees [] (reserveLocks input) := by
  refine .check fun _ cur _ _ => .check fun _ found _ _ => ?_
  cases found with
  | some existing => exact .done
  | none =>
    refine ordered_above (by simp) (.check fun _ found _ _ => ?_)
    cases found with
    | some existing => exact .done
    | none =>
      refine ordered_above ?_ .done
      intro h isHeld
      rw [List.mem_singleton.mp isHeld]
      simp [Lock.rank]

theorem ordered_drain (consistent : i.Consistent) {errPrefix : String} {p : PendingInput}
    {journalType : GoString}
    {build : PendingClassIDs → JournalTypeRow → JournalInput} {verified : Option Decimal}
    (plain : ∀ cls jt, (build cls jt).eventUID = [] ∧ (build cls jt).reversalOfUID = []) :
    Ordered (Lock.before o) i.sees []
    (drainLocks c errPrefix p journalType missing build verified) := by
  refine .check fun _ cls _ _ => .check fun _ jt _ _ => .check fun _ found _ _ => ?_
  cases found with
  | some existing => exact ordered_replay .done
  | none =>
    refine .check fun _ cur _ _ => .check fun v resolved seen made => .check fun _ _ _ _ =>
      ordered_above (by simp) (ordered_balances ?_ _ ?_)
    · intro h isHeld
      rw [List.mem_singleton.mp isHeld]
      simp [Lock.rank]
    · intro held same
      refine .check fun _ found _ _ => ?_
      cases found with
      | some existing => exact ordered_replay .done
      | none =>
        refine .check fun _ _ _ _ => ordered_postHeld ((same _).mpr (.inr List.mem_cons_self))
          (plain cls jt).1 (plain cls jt).2 ?_ .done
        intro v' resolved' seen' made' pair inside
        rw [consistent.resolved seen' seen made' made] at inside
        exact (same _).mpr (.inl (List.mem_map_of_mem inside))

theorem ordered_transition (first : o.bookingFirst = true) {transition : TransitionInput}
    {input : JournalInput}
    (own : OwnEvent sees transition input)
    (reversal : input.reversalOfUID ≠ [] → o.journalFirst = false) :
    Ordered (Lock.before o) sees []
    (transitionLocks c transition (postJournalLocks c input .done)) := by
  refine .check fun _ _ _ _ => .check fun v op seen found => ordered_above (by simp)
    (.check fun _ _ _ _ => ordered_postJournal ?_ ?_ ?_)
  · intro h isHeld
    rw [List.mem_singleton.mp isHeld]
    simp [Lock.rank, first]
  · simp only [bind_eq_ok, uidToPG, orError_eq_ok] at found
    obtain ⟨uid, parsed, stored⟩ := found
    rintro id ⟨v', uid', event, seen', -, parsed', stored', rfl, booked⟩
    rw [(own v v' seen seen' uid op uid' event parsed stored parsed' stored').resolve_left booked]
    exact .inl List.mem_cons_self
  · rintro id ⟨_, _, _, _, named, -⟩
    exact .inr (reversal named)

end

/-- Which kinds of calls may run beside each other. -/
structure Compatible (paths : WritePath → Prop) : Prop where
  -- A batch locks the booking rows of its events after all its balances, in the order of its
  -- journals.
  batch : ¬paths (.executeTemplateBatch true)
  other : ∀ reversal, ¬paths (.transitionPostJournal true reversal)
  -- `Transition` locks the booking before the key, `PostJournal` after it.
  event : ∀ reversal reversal', paths (.postJournal true reversal) →
    ¬paths (.transitionPostJournal false reversal')
  -- Reversals lock the journal before the key, `PostJournal` after it.
  reversal : (∃ event, paths (.postJournal event true)) ∨
    paths (.transitionPostJournal false true) →
    ¬paths .reverseJournal ∧ ¬paths .reverseJournalFraction

open Classical in
noncomputable def kindOrder (paths : WritePath → Prop) : KindOrder where
  bookingFirst := decide (∃ reversal, paths (.transitionPostJournal false reversal))
  journalFirst := decide (paths .reverseJournal ∨ paths .reverseJournalFraction)

variable {paths : WritePath → Prop} {i : Invocation}

theorem Compatible.ordered (compatible : Compatible paths) {path : WritePath} (made : paths path)
    (admitted : path.admits i) (consistent : i.Consistent) :
    Ordered (Lock.before (kindOrder paths)) i.sees [] (i.call.locks i.env) := by
  have journalLater (posts : (∃ event, paths (.postJournal event true)) ∨
    paths (.transitionPostJournal false true)) :
      (kindOrder paths).journalFirst = false := by
    have := compatible.reversal posts
    simp [kindOrder, this.1, this.2]
  cases path with
  | postJournal event reversal =>
    obtain ⟨input, same, linked, reversing⟩ := admitted
    rw [same]
    refine ordered_postJournal (by simp) ?_ ?_
    · rintro id ⟨_, _, _, _, named, -⟩
      rw [linked named] at made
      have free := fun reversal' => compatible.event reversal reversal' made
      exact .inr (by simp [kindOrder, free])
    · rintro id ⟨_, _, _, _, named, -⟩
      rw [reversing named] at made
      exact .inr (journalLater (.inl ⟨event, made⟩))
  | executeTemplateBatch event =>
    obtain ⟨inputs, same, rendered, linked⟩ := admitted
    rw [same]
    refine ordered_batch consistent ?_
    intro input member
    obtain ⟨t, params, now, ok⟩ := rendered input member
    refine ⟨?_, (render_ok ok).1.reversal⟩
    by_contra named
    rw [linked input member named] at made
    exact compatible.batch made
  | reverseJournal =>
    obtain ⟨journalUID, reason, same⟩ := admitted
    rw [same]
    exact ordered_reverseJournal consistent (by simp [kindOrder, made]) _ _ _
  | reverseJournalFraction =>
    obtain ⟨journalUID, num, den, reason, key, same⟩ := admitted
    rw [same]
    exact ordered_reverseJournalFraction consistent (by simp [kindOrder, made]) _ _ _ _ _ _
  | reserve =>
    obtain ⟨input, same⟩ := admitted
    rw [same]
    exact ordered_reserve _ _
  | confirmPending =>
    obtain ⟨input, verified, same⟩ := admitted
    rw [same]
    exact .check fun _ _ _ _ => ordered_drain consistent fun _ _ => ⟨rfl, rfl⟩
  | cancelPending =>
    obtain ⟨input, same⟩ := admitted
    rw [same]
    exact .check fun _ _ _ _ => ordered_drain consistent fun _ _ => ⟨rfl, rfl⟩
  | transitionPostJournal other reversal =>
    obtain ⟨transition, input, same, foreign, reversing⟩ := admitted
    rw [same]
    have own : OwnEvent i.sees transition input := by
      by_contra names
      rw [foreign names] at made
      exact compatible.other reversal made
    have notOther : other = false := by
      rw [Bool.eq_false_iff]
      rintro rfl
      exact compatible.other reversal made
    rw [notOther] at made
    refine ordered_transition (by simp only [kindOrder, decide_eq_true_eq]; exact ⟨reversal, made⟩)
      own ?_
    intro named
    rw [reversing named] at made
    exact journalLater (.inr made)

theorem Compatible.oneLockOrder (compatible : Compatible paths) : OneLockOrder paths := by
  refine ⟨lockOrder (kindOrder paths), ?_⟩
  intro path made i admitted consistent locks takes
  exact (compatible.ordered made admitted consistent locks takes).pairwise

theorem OneLockOrder.not_both (one : OneLockOrder paths) {p q : WritePath}
    (hp : paths p) (hq : paths q)
    {j : Invocation} (admits : p.admits i) (admits' : q.admits j) (consistent : i.Consistent)
    (consistent' : j.Consistent) {locks locks' : List Lock} (takes : i.takes locks)
    (takes' : j.takes locks')
    (before : [a, b].Sublist (firstSeen locks))
    (after : [b, a].Sublist (firstSeen locks')) : False := by
  obtain ⟨order, sorted⟩ := one
  have first := List.pairwise_iff_forall_sublist.mp
    (sorted p hp i admits consistent locks takes) before
  have second := List.pairwise_iff_forall_sublist.mp
    (sorted q hq j admits' consistent' locks' takes') after
  exact lt_asymm first second

namespace LockSample

def tables : BookingTables :=
  let first := BookingSample.heldOnce
  let second := okOr first ((createBooking (Sample.env 8) first
    { BookingSample.booking with idempotencyKey := lit "second" }).map Prod.fst)
  let moved := BookingSample.moved second 9 ⟨(Sample.uid 8).print, lit "held", [], .zero,
    .empty, 1, [], lit "k2"⟩
  { moved with
    store := okOr moved.store
      ((postJournal Sample.config .tx (Sample.env 10) moved.store Sample.deposit).map Prod.fst) }

def view : View := ⟨tables, ⟨[], [], [], []⟩⟩

def env : CallEnv := ⟨Sample.config, Sample.env 11⟩

def invocation (call : WriteCall) : Invocation := ⟨env, call, (· = view)⟩

theorem consistent (call : WriteCall) : (invocation call).Consistent where
  entries v v' seen seen' e r r' first second := by
    rw [seen] at first
    rw [seen'] at second
    exact Except.ok.inj (first.symm.trans second)
  journals v v' seen seen' uid j j' first second := by
    rw [seen] at first
    rw [seen'] at second
    rw [Option.some.inj (first.symm.trans second)]

def locksOf (call : WriteCall) : List Lock := (call.locks env).locksAt view

theorem takes (call : WriteCall) : (invocation call).takes (locksOf call) := by
  have seen : (invocation call).sees view := rfl
  exact takes_locksAt seen _

def reversal (key : GoString) : JournalInput :=
  { Sample.deposit with
    idempotencyKey := key
    reversalOfUID := (Sample.uid 10).print
    entries :=
      [⟨7, (Sample.uid 3).print, (Sample.uid 1).print, .debit, ⟨10, 0⟩⟩,
        ⟨-7, (Sample.uid 3).print, (Sample.uid 2).print, .credit, ⟨10, 0⟩⟩] }

def linked (key : GoString) (event : Nat) : JournalInput :=
  { Sample.deposit with idempotencyKey := key, eventUID := (Sample.uid event).print }

def move (booking : Nat) (key : GoString) : TransitionInput :=
  ⟨(Sample.uid booking).print, lit "failed", [], .zero, .empty, 1, [], key⟩

def reason : GoString := lit "r"

def key : GoString := reversalKey (Sample.uid 10).print reason

def reverse : WriteCall := .reverseJournal (Sample.uid 10).print reason
def fraction : WriteCall := .reverseJournalFraction (Sample.uid 10).print 1 2 reason key
def repost : WriteCall := .postJournal (reversal key)
def moveAndRepost : WriteCall := .transitionPostJournal (move 8 (lit "t")) (reversal key)

def post : WriteCall := .postJournal (linked key 7)
def moveAndPost (booking event : Nat) : WriteCall := .transitionPostJournal
    (move booking (lit "t")) (linked key event)

def batch (first second : Nat) : WriteCall := .executeTemplateBatch
    [linked (lit "a") first, linked (lit "b") second]

def template : EntryTemplate :=
  ⟨lit "deposit", lit "Deposit", (Sample.uid 4).print, true,
    [⟨(Sample.uid 1).print, .credit, .user, lit "amount"⟩,
      ⟨(Sample.uid 2).print, .debit, .system, lit "amount"⟩]⟩

def params (key : GoString) (event : Nat) : TemplateParams :=
  ⟨7, (Sample.uid 3).print, key, (Sample.uid event).print, fun _ => some ⟨10, 0⟩, 1,
    lit "api", .empty, 0⟩

theorem batch_admitted (first second : Nat) (rendered : ∀ p ∈ [(lit "a", first), (lit "b", second)],
      template.render Sample.config.decodeQuotes 0 (params p.1 p.2) = .ok (linked p.1 p.2)) :
    (WritePath.executeTemplateBatch true).admits (invocation (batch first second)) := by
  refine ⟨_, rfl, ?_, fun _ _ _ => rfl⟩
  intro input member
  simp only [List.mem_cons, List.not_mem_nil, or_false] at member
  rcases member with rfl | rfl
  · exact ⟨template, _, 0, rendered (lit "a", first) (by simp)⟩
  · exact ⟨template, _, 0, rendered (lit "b", second) (by simp)⟩

theorem ownEvent : OwnEvent (· = view) (move 6 (lit "t")) (linked key 7) := by
  have booking : (view.bookings.getBookingByUID (Sample.uid 6)).map (·.id) = some 1 := by decide +kernel
  have event : (view.store.getEventByUID (Sample.uid 7)).map (·.bookingID) = some 1 := by decide +kernel
  have parsed : Uuid.parse (move 6 (lit "t")).bookingUID = some (Sample.uid 6) := by decide +kernel
  have parsed' : Uuid.parse (linked key 7).eventUID = some (Sample.uid 7) := by decide +kernel
  rintro v v' rfl rfl uid op uid' e first found second found'
  rw [parsed, Option.some.injEq] at first
  rw [parsed', Option.some.injEq] at second
  rw [← first] at found
  rw [← second] at found'
  rw [found] at booking
  rw [found'] at event
  exact .inr ((Option.some.inj event).trans (Option.some.inj booking).symm)

theorem noEvent (booking : Nat) : OwnEvent (· = view) (move booking (lit "t")) (reversal key) := by
  have unparsed : Uuid.parse (reversal key).eventUID = none := by decide +kernel
  intro v v' _ _ uid op uid' e _ _ parsed
  rw [unparsed] at parsed
  cases parsed

end LockSample

section

open LockSample

variable {paths : WritePath → Prop}

section

variable (one : OneLockOrder paths)
include one

theorem OneLockOrder.batch : ¬paths (.executeTemplateBatch true) := by
  intro made
  exact one.not_both made made (batch_admitted 7 9 (by decide +kernel)) (batch_admitted 9 7 (by decide +kernel))
    (consistent _) (consistent _) (takes _) (takes _)
    (by decide +kernel : [Lock.booking 1, .booking 2].Sublist (firstSeen (locksOf (LockSample.batch 7 9))))
    (by decide +kernel)

theorem OneLockOrder.other (reversal : Bool) : ¬paths (.transitionPostJournal true reversal) := by
  intro made
  have admitted (booking event : Nat) :
      (WritePath.transitionPostJournal true reversal).admits (invocation (moveAndPost booking event)) :=
    ⟨_, _, rfl, fun _ => rfl, fun named => absurd rfl named⟩
  exact one.not_both made made (admitted 6 9) (admitted 8 7) (consistent _) (consistent _) (takes _) (takes _)
    (by decide +kernel : [Lock.booking 1, .booking 2].Sublist (firstSeen (locksOf (moveAndPost 6 9))))
    (by decide +kernel)

theorem OneLockOrder.event (reversal reversal' : Bool) (made : paths (.postJournal true reversal)) :
    ¬paths (.transitionPostJournal false reversal') := by
  intro made'
  exact one.not_both made made' (i := invocation post) (j := invocation (moveAndPost 6 7))
    ⟨_, rfl, fun _ => rfl, fun named => absurd rfl named⟩
    ⟨_, _, rfl, fun foreign => absurd ownEvent foreign, fun named => absurd rfl named⟩
    (consistent _) (consistent _) (takes _) (takes _)
    (by decide +kernel : [Lock.key key, .booking 1].Sublist (firstSeen (locksOf post))) (by decide +kernel)

theorem OneLockOrder.reversal {path : WritePath} (made : paths path) {call : WriteCall}
    (admitted : path.admits (invocation call)) (later : [Lock.key key, .journal 1].Sublist (firstSeen (locksOf call))) :
    ¬paths .reverseJournal ∧ ¬paths .reverseJournalFraction := by
  constructor
  · intro made'
    exact one.not_both made made' admitted (j := invocation reverse) ⟨_, _, rfl⟩
      (consistent _) (consistent _) (takes _) (takes _) later
      (by decide +kernel : [Lock.journal 1, .key key].Sublist (firstSeen (locksOf reverse)))
  · intro made'
    exact one.not_both made made' admitted (j := invocation fraction) ⟨_, _, _, _, _, rfl⟩
      (consistent _) (consistent _) (takes _) (takes _)
      later (by decide +kernel : [Lock.journal 1, .key key].Sublist (firstSeen (locksOf fraction)))

theorem OneLockOrder.compatible : Compatible paths where
  batch := one.batch
  other := one.other
  event := one.event
  reversal made := by
    rcases made with ⟨event, made⟩ | made
    · have admitted : (WritePath.postJournal event true).admits (invocation repost) :=
        ⟨_, rfl, fun named => absurd rfl named, fun _ => rfl⟩
      exact one.reversal made admitted (by decide +kernel)
    · have admitted : (WritePath.transitionPostJournal false true).admits (invocation moveAndRepost) :=
        ⟨_, _, rfl, fun foreign => absurd (noEvent 8) foreign, fun _ => rfl⟩
      exact one.reversal made admitted (by decide +kernel)

end

end

def Waits (paths : WritePath → Prop) (w : Waiting Lock) : Prop :=
  ∃ path i, paths path ∧ WritePath.admits i path ∧ i.Consistent ∧ i.takes (w.taken ++ [w.wants])

/-- There is one order for the locks of all calls of the given kinds just if no two kinds among them
lock rows and keys the other way round; then no calls wait for each other in a circle. -/
theorem one_lock_order_iff (paths : WritePath → Prop) : (OneLockOrder paths ↔ Compatible paths) ∧
      (Compatible paths → ∀ w, ¬Relation.TransGen (fun a b => Waits paths b ∧ a.waitsFor b) w w) := by
  refine ⟨⟨OneLockOrder.compatible, Compatible.oneLockOrder⟩, ?_⟩
  intro compatible
  obtain ⟨order, sorted⟩ := compatible.oneLockOrder
  refine no_circular_wait (fun a => lt_irrefl a) (fun a b c => lt_trans) ?_
  rintro w ⟨path, i, made, admitted, consistent, takes⟩
  exact sorted path made i admitted consistent _ takes

open LockSample in
/-- Two ordinary reversals of one journal under one key, a deposit's confirmation beside a journal
for the same booking, and a batch beside such a journal each lock two things in both orders. -/
theorem write_paths_cross : ¬OneLockOrder (fun _ => True) ∧
    ((reverseJournal Sample.config (.pool none) (Sample.env 11) view.store (Sample.uid 10).print
      reason).isOk = true ∧
      (postJournal Sample.config (.pool none) (Sample.env 11) view.store (reversal key)).isOk = true ∧
      (locksOf reverse).take 2 = [.journal 1, .key key] ∧ (locksOf repost).take 2 = [.key key, .journal 1]) ∧
    ((locksOf (moveAndPost 6 7)).take 2 = [.booking 1, .key key] ∧ (locksOf post).take 2 = [.key key, .booking 1]) ∧
    [Lock.balance ⟨7, 1⟩, .booking 1].Sublist (firstSeen (locksOf (batch 7 9))) ∧
      [Lock.booking 1, .balance ⟨7, 1⟩].Sublist (firstSeen (locksOf post)) := by
  refine ⟨fun one => one.batch trivial, ⟨?_, ?_, ?_, ?_⟩, ⟨?_, ?_⟩, ?_, ?_⟩ <;> decide +kernel

end Ledger.Postgres
