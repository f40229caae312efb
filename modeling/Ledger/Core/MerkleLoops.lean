import Ledger.Core.Inclusion

namespace Ledger.Core

open Shared

def splitLog (n : Nat) : Nat := Nat.log 2 (n - 1)

variable {n : Nat}

theorem split_lt (several : 2 ≤ n) : 2 ^ splitLog n < n := by
  have := Nat.pow_log_le_self 2 (x := n - 1) (by omega)
  rw [splitLog]
  omega

theorem le_two_split (n : Nat) : n ≤ 2 * 2 ^ splitLog n := by
  have := Nat.lt_pow_succ_log_self (b := 2) (by decide) (n - 1)
  rw [splitLog, ← Nat.pow_succ']
  omega

theorem double_lt_iff {e : Nat} (several : 2 ≤ n) : 2 ^ e * 2 < n ↔ e < splitLog n := by
  rw [splitLog, ← Nat.pow_succ, Nat.lt_iff_add_one_le (m := e), Nat.le_log_iff_pow_le
    (by decide) (by omega)]
  omega

theorem powerLoop_eq (several : 2 ≤ n) (fuel e : Nat) (low : e ≤ splitLog n)
    (enough : splitLog n ≤ e + fuel) :
    powerLoop n fuel (2 ^ e) = 2 ^ splitLog n := by
  induction fuel generalizing e with
  | zero => rw [powerLoop, Nat.le_antisymm low enough]
  | succ fuel ih =>
    rw [powerLoop]
    by_cases more : e < splitLog n
    · rw [if_pos ((double_lt_iff several).mpr more), ← Nat.pow_succ]
      exact ih (e + 1) more (by omega)
    · rw [if_neg (mt (double_lt_iff several).mp more), Nat.le_antisymm low (Nat.le_of_not_lt more)]

theorem splitLog_le (n : Nat) : splitLog n ≤ n := (Nat.log_le_self 2 (n - 1)).trans (Nat.sub_le n 1)

theorem largestPowerOfTwoLessThan_eq (several : 2 ≤ n) :
    largestPowerOfTwoLessThan n = 2 ^ splitLog n :=
  powerLoop_eq several n 0 (Nat.zero_le _) ((splitLog_le n).trans_eq (Nat.zero_add n).symm)

/-- The turns to leaf `i` among `n`; each split leaves fewer leaves, so `n` bounds their number. -/
def splitTurns : Nat → Nat → Nat → List Bool
  | 0, _, _ => []
  | fuel + 1, i, n =>
    if n ≤ 1 then []
    else if i < 2 ^ splitLog n then true :: splitTurns fuel i (2 ^ splitLog n)
    else false :: splitTurns fuel (i - 2 ^ splitLog n) (n - 2 ^ splitLog n)

def splitDoublings : Nat → Nat → Nat → Nat
  | 0, _, _ => 0
  | fuel + 1, i, n =>
    if n ≤ 1 then 0
    else splitLog n +
      if i < 2 ^ splitLog n then splitDoublings fuel i (2 ^ splitLog n)
      else splitDoublings fuel (i - 2 ^ splitLog n) (n - 2 ^ splitLog n)

theorem splitTurns_length (fuel i n : Nat) : (splitTurns fuel i n).length ≤ Nat.clog 2 n := by
  induction fuel generalizing i n with
  | zero => exact Nat.zero_le _
  | succ fuel ih =>
    rw [splitTurns]
    by_cases single : n ≤ 1
    · rw [if_pos single]
      exact Nat.zero_le _
    have several : 2 ≤ n := by omega
    have deeper : splitLog n + 1 ≤ Nat.clog 2 n := by
      rw [Nat.succ_le_iff, Nat.lt_clog_iff_pow_lt (by decide)]
      exact split_lt several
    rw [if_neg single]
    by_cases low : i < 2 ^ splitLog n
    · rw [if_pos low, List.length_cons]
      have := ih i (2 ^ splitLog n)
      rw [Nat.clog_pow _ _ (by decide)] at this
      omega
    · rw [if_neg low, List.length_cons]
      have rest : Nat.clog 2 (n - 2 ^ splitLog n) ≤ splitLog n := by
        rw [Nat.clog_le_iff_le_pow (by decide)]
        have := le_two_split n
        omega
      have := ih (i - 2 ^ splitLog n) (n - 2 ^ splitLog n)
      omega

def Exact (wrap : Int → Int) (bound : Int) : Prop := ∀ x, 0 ≤ x → x < bound → wrap x = x

theorem Exact.mono {wrap : Int → Int} {bound bound' : Int} (exact : Exact wrap bound)
    (le : bound' ≤ bound) : Exact wrap bound' :=
  fun x low high => exact x low (high.trans_le le)

theorem exact_id (bound : Int) : Exact id bound := fun _ _ _ => rfl

theorem exact_wrap64 : Exact wrap64 (2 ^ 63) := by
  intro x low high
  exact Int.bmod_eq_of_le (by omega) (by omega)

namespace Bounded

variable {wrap : Int → Int} {n e : Nat}

theorem wrap_double (several : 2 ≤ n) (exact : Exact wrap (2 * n)) (low : e ≤ splitLog n) :
    wrap (2 ^ e * 2) = 2 ^ e * 2 ∧ ((2 ^ e * 2 : Int) < n ↔ e < splitLog n) := by
  have small : ((2 ^ e : Nat) : Int) < n := by
    exact_mod_cast (Nat.pow_le_pow_right (by decide) low).trans_lt (split_lt several)
  push_cast at small
  refine ⟨exact _ (by positivity) (by omega), ?_⟩
  rw [← double_lt_iff several]
  exact_mod_cast Iff.rfl

theorem doublingLoop_eq (several : 2 ≤ n) (exact : Exact wrap (2 * n)) (left e : Nat)
    (low : e ≤ splitLog n) :
    doublingLoop wrap n left (2 ^ e) =
      if splitLog n ≤ e + left then some (2 ^ splitLog n, left - (splitLog n - e)) else none := by
  induction left generalizing e with
  | zero =>
    obtain ⟨next, again⟩ := wrap_double several exact low
    rw [doublingLoop, next]
    by_cases more : e < splitLog n
    · rw [if_pos (again.mpr more), if_neg (by omega)]
    · rw [if_neg (mt again.mp more), if_pos (by omega), Nat.le_antisymm low (Nat.le_of_not_lt more), Nat.sub_self]
  | succ left ih =>
    obtain ⟨next, again⟩ := wrap_double several exact low
    rw [doublingLoop, next]
    by_cases more : e < splitLog n
    · have used : left + 1 - (splitLog n - e) = left - (splitLog n - (e + 1)) := by omega
      rw [if_pos (again.mpr more), ← pow_succ, ih (e + 1) more, used, Nat.add_right_comm e 1 left, Nat.add_assoc]
    · rw [if_neg (mt again.mp more), if_pos (by omega), Nat.le_antisymm low (Nat.le_of_not_lt more),
        Nat.sub_self, Nat.sub_zero]

theorem largestPowerOfTwoLessThan_bounded (several : 2 ≤ n)
    (exact : Exact wrap (2 * n)) (left : Nat) :
    largestPowerOfTwoLessThan wrap left n =
      if splitLog n ≤ left then some (2 ^ splitLog n, left - splitLog n) else none := by
  have loop := doublingLoop_eq several exact left 0 (Nat.zero_le _)
  rwa [pow_zero, Nat.zero_add, Nat.sub_zero] at loop

def paid (turns : List Bool) (cost rounds doublings : Nat) : Option (List Bool × Budget) :=
  if turns.length ≤ rounds ∧
    cost ≤ doublings then some (turns, ⟨doublings - cost, rounds - turns.length⟩) else none

theorem paid_cons (turn : Bool) (turns : List Bool) (cost rounds : Nat) {doublings : Nat}
    (found : e ≤ doublings) :
    (paid turns cost rounds (doublings - e)).map (fun (dirs, left) => (turn :: dirs, left)) =
      paid (turn :: turns) (e + cost) (rounds + 1) doublings := by
  by_cases fits : turns.length ≤ rounds ∧ cost ≤ doublings - e
  · have fits' : (turn :: turns).length ≤ rounds + 1 ∧ e + cost ≤ doublings := by
      rw [List.length_cons]
      omega
    rw [paid, paid, if_pos fits, if_pos fits', Nat.sub_sub, List.length_cons, Nat.add_sub_add_right]
    rfl
  · have short : ¬((turn :: turns).length ≤ rounds + 1 ∧ e + cost ≤ doublings) := by
      rw [List.length_cons]
      omega
    rw [paid, paid, if_neg fits, if_neg short]
    rfl

theorem directionLoop_eq (exact : Exact wrap (2 * n)) (fuel rounds doublings i : Nat)
    (inside : i < n) (bound : n ≤ fuel) :
    directionLoop wrap rounds doublings i n = paid (splitTurns fuel i n) (splitDoublings fuel i n)
    rounds doublings := by
  induction fuel generalizing rounds doublings i n with
  | zero => omega
  | succ fuel ih =>
    by_cases single : n ≤ 1
    · have small : ¬1 < (n : Int) := by omega
      cases rounds <;> simp [directionLoop, splitTurns, splitDoublings, paid, single, small]
    have several : 2 ≤ n := by omega
    have large : 1 < (n : Int) := by omega
    have less := split_lt several
    have positive : 0 < 2 ^ splitLog n := by positivity
    cases rounds with
    | zero =>
      rw [directionLoop, if_pos large, splitTurns, if_neg single, paid]
      split <;> simp
    | succ rounds =>
      rw [directionLoop, if_pos large, largestPowerOfTwoLessThan_bounded several exact]
      by_cases found : splitLog n ≤ doublings
      · rw [if_pos found, Option.bind_eq_bind, Option.bind_some, splitTurns, splitDoublings,
          if_neg single, if_neg single]
        by_cases low : i < 2 ^ splitLog n
        · have below : (i : Int) < 2 ^ splitLog n := by exact_mod_cast low
          have rest := @ih (2 ^ splitLog n) (exact.mono (by omega)) rounds (doublings - splitLog n) i low (by omega)
          push_cast at rest
          simp only [if_pos below, if_pos low, rest]
          exact paid_cons true _ _ rounds found
        · have above : ¬(i : Int) < 2 ^ splitLog n := by exact_mod_cast low
          have power : (2 : Int) ^ splitLog n = ((2 ^ splitLog n : Nat) : Int) := by push_cast; rfl
          have index : wrap (i - 2 ^ splitLog n) = ((i - 2 ^ splitLog n : Nat) : Int) := by
            rw [power, Nat.cast_sub (Nat.le_of_not_lt low)]
            exact exact _ (by omega) (by omega)
          have size : wrap (n - 2 ^ splitLog n) = ((n - 2 ^ splitLog n : Nat) : Int) := by
            rw [power, Nat.cast_sub less.le]
            exact exact _ (by omega) (by omega)
          have rest := @ih (n - 2 ^ splitLog n) (exact.mono (by omega)) rounds (doublings - splitLog n)
            (i - 2 ^ splitLog n) (by omega) (by omega)
          simp only [if_neg above, if_neg low, index, size, rest]
          exact paid_cons false _ _ rounds found
      · have dear : ¬splitDoublings (fuel + 1) i n ≤ doublings := by
          rw [splitDoublings, if_neg single]
          omega
        rw [if_neg found, paid, if_neg fun fits => dear fits.2]
        rfl

variable (sha256 : GoString → GoString)

theorem pathLoop_eq (rounds : Nat) (current : GoString) (steps : List (GoString × Bool)) :
    pathLoop sha256 rounds current steps =
      if steps.length ≤ rounds then some
      (steps.foldl (fun h step => sha256 (mergeMessage h step)) current) else none := by
  induction steps generalizing rounds current with
  | nil => simp [pathLoop]
  | cons step steps ih =>
    cases rounds with
    | zero => simp [pathLoop]
    | succ rounds => simp only [pathLoop, ih, List.length_cons, Nat.add_le_add_iff_right, List.foldl_cons]

def OutOfRange (proof : InclusionProof) : Prop :=
  proof.treeSize ≤ 0 ∨ proof.leafIndex < 0 ∨ proof.treeSize ≤ proof.leafIndex

instance (proof : InclusionProof) : Decidable (OutOfRange proof) :=
  inferInstanceAs (Decidable (_ ∨ _))

variable {i : Nat}

theorem verifyInclusion_eq (exact : Exact wrap (2 * n)) (inside : i < n) (budget : Budget)
    (leafHash : GoString)
    (path : List GoString) (root : GoString) :
    verifyInclusion sha256 wrap budget leafHash ⟨i, n, path⟩ root =
      if (splitTurns n i n).length ≤ budget.rounds ∧ splitDoublings n i n ≤ budget.doublings then
        if (splitTurns n i n).length ≠ path.length then some false
        else if path.length ≤ budget.rounds - path.length then
          some (((path.zip (splitTurns n i n).reverse).foldl
            (fun h step => sha256 (mergeMessage h step)) leafHash) = root)
        else none
      else none := by
  have inRange : ¬((n : Int) ≤ 0 ∨ (i : Int) < 0 ∨ (n : Int) ≤ i) := by omega
  rw [verifyInclusion, if_neg inRange, computeMerkleDirections, directionLoop_eq exact n _ _ i
    inside le_rfl, paid]
  by_cases fits : (splitTurns n i n).length ≤ budget.rounds ∧
    splitDoublings n i n ≤ budget.doublings
  · simp only [if_pos fits, Option.bind_eq_bind, Option.bind_some]
    by_cases lengths : (splitTurns n i n).length = path.length
    · have steps : (path.zip (splitTurns n i n).reverse).length = path.length := by simp [lengths]
      simp only [lengths, ne_eq, not_true_eq_false, if_false, pathLoop_eq, steps]
      split <;> rfl
    · simp only [ne_eq, lengths, not_false_eq_true, if_true]
      rfl
  · rw [if_neg fits, if_neg fits]
    rfl

/-- Rounds of the two loops for a proof in range: one for each turn, and one for each sibling if the
numbers agree. -/
def loopRounds (i n siblings : Nat) : Nat :=
  (splitTurns n i n).length + if (splitTurns n i n).length = siblings then siblings else 0

theorem verifyInclusion_isSome (exact : Exact wrap (2 * n)) (inside : i < n) (budget : Budget)
    (leafHash : GoString)
    (path : List GoString) (root : GoString) :
    (verifyInclusion sha256 wrap budget leafHash ⟨i, n, path⟩ root).isSome = true ↔
      loopRounds i n path.length ≤ budget.rounds ∧ splitDoublings n i n ≤ budget.doublings := by
  rw [verifyInclusion_eq sha256 exact inside, loopRounds]
  by_cases fits : (splitTurns n i n).length ≤ budget.rounds ∧
    splitDoublings n i n ≤ budget.doublings
  · rw [if_pos fits]
    by_cases lengths : (splitTurns n i n).length = path.length
    · rw [if_neg (not_not.mpr lengths), if_pos lengths]
      split <;> simp <;> omega
    · rw [if_pos lengths, if_neg lengths]
      simpa using fits
  · rw [if_neg fits]
    simp
    omega

/-- The values the doubling counter takes when it wraps around: the powers of two, the least
integer, then zero for ever. -/
def Doubled (k : Int) : Prop := (∃ e ≤ 62, k = 2 ^ e) ∨ k = -2 ^ 63 ∨ k = 0

variable {k : Int}

theorem Doubled.next {n : Int} (doubled : Doubled k) (beyond : 2 ^ 62 < n) : wrap64 (k * 2) < n ∧
    Doubled (wrap64 (k * 2)) := by
  rcases doubled with ⟨e, le, rfl⟩ | rfl | rfl
  · rcases Nat.lt_or_eq_of_le le with lt | rfl
    · have bound : (2 : Int) ^ (e + 1) ≤ 2 ^ 62 := pow_le_pow_right₀ (by decide) lt
      have next : wrap64 (2 ^ e * 2) = 2 ^ (e + 1) := by
        rw [← pow_succ]
        exact exact_wrap64 _ (by positivity) (bound.trans_lt (by decide))
      rw [next]
      exact ⟨bound.trans_lt beyond, .inl ⟨e + 1, lt, rfl⟩⟩
    · have next : wrap64 (2 ^ 62 * 2) = -2 ^ 63 := by decide
      rw [next]
      exact ⟨by omega, .inr (.inl rfl)⟩
  · have next : wrap64 (-2 ^ 63 * 2) = 0 := by decide
    rw [next]
    exact ⟨by omega, .inr (.inr rfl)⟩
  · have next : wrap64 (0 * 2) = 0 := by decide
    rw [next]
    exact ⟨by omega, .inr (.inr rfl)⟩

theorem doublingLoop_endless {n : Int} (beyond : 2 ^ 62 < n) (left : Nat) (doubled : Doubled k) :
    doublingLoop wrap64 n left k = none := by
  induction left generalizing k with
  | zero => rw [doublingLoop, if_pos (doubled.next beyond).1]
  | succ left ih => rw [doublingLoop, if_pos (doubled.next beyond).1, ih (doubled.next beyond).2]

theorem directions_endless {n : Int} (beyond : 2 ^ 62 < n) (budget : Budget) (index : Int) :
    computeMerkleDirections wrap64 budget index n = none := by
  have large : 1 < n := by omega
  have helper : ∀ left, largestPowerOfTwoLessThan wrap64 left n = none :=
    fun left => doublingLoop_endless beyond left (.inl ⟨0, by decide, rfl⟩)
  rw [computeMerkleDirections]
  cases budget.rounds with
  | zero => rw [directionLoop, if_pos large]
  | succ rounds =>
    rw [directionLoop, if_pos large, helper]
    rfl

theorem verifyInclusion_endless {proof : InclusionProof} (inRange : ¬OutOfRange proof)
    (beyond : 2 ^ 62 < proof.treeSize) (budget : Budget) (leafHash root : GoString) :
    verifyInclusion sha256 wrap64 budget leafHash proof root = none := by
  rw [OutOfRange] at inRange
  rw [verifyInclusion, if_neg inRange, directions_endless beyond]
  rfl

theorem returns_iff (leafHash root : GoString) (proof : InclusionProof) (budget : Budget) :
    (verifyInclusion sha256 wrap64 budget leafHash proof root).isSome = true ↔ OutOfRange proof ∨
    proof.treeSize ≤ 2 ^ 62 ∧
        loopRounds proof.leafIndex.toNat proof.treeSize.toNat proof.path.length ≤ budget.rounds ∧
        splitDoublings proof.treeSize.toNat proof.leafIndex.toNat proof.treeSize.toNat ≤ budget.doublings := by
  by_cases outside : OutOfRange proof
  · have answered : verifyInclusion sha256 wrap64 budget leafHash proof root = some false := by
      rw [OutOfRange] at outside
      rw [verifyInclusion, if_pos outside]
    simp [answered, outside]
  rw [or_iff_right outside]
  by_cases small : proof.treeSize ≤ 2 ^ 62
  · obtain ⟨index, size, path⟩ := proof
    simp only [OutOfRange, not_or, not_le, not_lt] at outside small ⊢
    lift index to Nat using outside.2.1
    lift size to Nat using outside.1.le
    rw [verifyInclusion_isSome sha256 (exact_wrap64.mono (by omega)) (by omega)]
    exact (and_iff_right small).symm
  · rw [verifyInclusion_endless sha256 outside (not_le.mp small)]
    exact ⟨nofun, fun fits => absurd fits.1 small⟩

theorem loopRounds_le (small : n ≤ 2 ^ 62) (siblings : Nat) :
    loopRounds i n siblings ≤ 64 + siblings := by
  have depth : Nat.clog 2 n ≤ 62 := (Nat.clog_le_iff_le_pow (by decide)).mpr small
  have turns := splitTurns_length n i n
  rw [loopRounds]
  split <;> omega

/-- The call returns, and then within the bound, exactly if the index is out of range or the size is
at most `2 ^ 62`. If the doublings of the helper count as rounds too, they have to fit in the bound
as well. -/
theorem verifyInclusion_returns_iff (sha256 : GoString → GoString) (leafHash root : GoString)
    (leafIndex treeSize : Int64)
    (path : List GoString) :
    let proof : InclusionProof := ⟨leafIndex.toInt, treeSize.toInt, path⟩
    let returns := fun budget : Budget =>
      (verifyInclusion sha256 wrap64 budget leafHash proof root).isSome = true
    ((∃ budget, returns budget) ↔ OutOfRange proof ∨ proof.treeSize ≤ 2 ^ 62) ∧
      ((∃ budget, returns budget ∧ budget.rounds ≤ 64 + path.length) ↔ OutOfRange proof ∨ proof.treeSize ≤ 2 ^ 62) ∧
      ((∃ budget, returns budget ∧ budget.rounds + budget.doublings ≤ 64 + path.length) ↔
        OutOfRange proof ∨ proof.treeSize ≤ 2 ^ 62 ∧
          loopRounds leafIndex.toInt.toNat treeSize.toInt.toNat path.length +
            splitDoublings treeSize.toInt.toNat leafIndex.toInt.toNat treeSize.toInt.toNat ≤ 64 + path.length) := by
  intro proof returns
  have each : ∀ budget, returns budget ↔ _ := returns_iff sha256 leafHash root proof
  have small : proof.treeSize ≤ 2 ^ 62 → treeSize.toInt.toNat ≤ 2 ^ 62 := fun le => Int.toNat_le.mpr
    (by exact_mod_cast le)
  simp only [each]
  refine ⟨⟨?_, ?_⟩, ⟨?_, ?_⟩, ⟨?_, ?_⟩⟩
  · rintro ⟨budget, outside | ⟨le, -⟩⟩
    · exact .inl outside
    · exact .inr le
  · rintro (outside | le)
    · exact ⟨⟨0, 0⟩, .inl outside⟩
    · exact ⟨⟨_, _⟩, .inr ⟨le, le_rfl, le_rfl⟩⟩
  · rintro ⟨budget, outside | ⟨le, -⟩, -⟩
    · exact .inl outside
    · exact .inr le
  · rintro (outside | le)
    · exact ⟨⟨0, 0⟩, .inl outside, Nat.zero_le _⟩
    · exact ⟨⟨_, _⟩, .inr ⟨le, le_rfl, le_rfl⟩, loopRounds_le (small le) _⟩
  · rintro ⟨budget, outside | ⟨le, rounds, doublings⟩, bound⟩
    · exact .inl outside
    · exact .inr ⟨le, (Nat.add_le_add rounds doublings).trans bound⟩
  · rintro (outside | ⟨le, bound⟩)
    · exact ⟨⟨0, 0⟩, .inl outside, Nat.zero_le _⟩
    · exact ⟨⟨_, _⟩, .inr ⟨le, le_rfl, le_rfl⟩, bound⟩

/-- A proof without siblings for leaf 0 of `2 ^ 62 + 1`: no number of rounds is enough. -/
theorem verifyInclusion_never_returns :
    ¬∃ budget, (verifyInclusion (fun _ => []) wrap64 budget []
      ⟨0, 2 ^ 62 + 1, []⟩ []).isSome = true := by
  rintro ⟨budget, returned⟩
  rw [verifyInclusion_endless _ (by decide) (by decide)] at returned
  cases returned

end Bounded

end Ledger.Core
