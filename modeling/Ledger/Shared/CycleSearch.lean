import Mathlib.Data.Finset.Card
import Mathlib.Data.List.Chain
import Mathlib.Data.List.TakeWhile

namespace Ledger.Shared

variable {α : Type} [DecidableEq α]

/-- The nodes on the stack are those of the path; `finished` are the done ones, the latest first. -/
structure Search (α : Type) where
  path : List α
  finished : List α

abbrev Outcome (α : Type) := Option (Except (List α) (Search α))

/-- The loop over the targets of a node: it ends with a cycle, with the search after it, or not in
the given rounds. -/
def visitAll (walk : Search α → α → Outcome α) : Search α → List α → Outcome α
  | s, [] => some (.ok s)
  | s, to_ :: rest =>
    if to_ ∈ s.path then some (.error (s.path.dropWhile (· ≠ to_) ++ [to_]))
    else if to_ ∈ s.finished then visitAll walk s rest
    else
      match walk s to_ with
      | some (.ok s) => visitAll walk s rest
      | other => other

def walk (succ : α → List α) : Nat → Search α → α → Outcome α
  | 0, _, _ => none
  | fuel + 1, s, from_ =>
    match visitAll (walk succ fuel) ⟨s.path ++ [from_], s.finished⟩ (succ from_) with
    | some (.ok s) => some (.ok ⟨s.path.dropLast, from_ :: s.finished⟩)
    | other => other

def walkStarts (succ : α → List α) (fuel : Nat) : Search α → List α → Outcome α
  | s, [] => some (.ok s)
  | s, from_ :: rest =>
    if from_ ∈ s.path ∨ from_ ∈ s.finished then walkStarts succ fuel s rest
    else
      match walk succ fuel { s with path := [] } from_ with
      | some (.ok s) => walkStarts succ fuel s rest
      | other => other

def Edge (succ : α → List α) (a b : α) : Prop := b ∈ succ a

def Acyclic (succ : α → List α) : Prop := ∀ a, ¬ Relation.TransGen (Edge succ) a a

/-- Consecutive elements are edges, and the last is the first. -/
def IsCycle (succ : α → List α) (c : List α) : Prop := c.IsChain (Edge succ) ∧
    ∃ a inner, c = a :: inner ++ [a]

/-- Each node leads only to nodes after it. -/
inductive Ordered (succ : α → List α) : List α → Prop
  | nil : Ordered succ []
  | cons {a : α} {rest : List α} (targets : ∀ b ∈ succ a, b ∈ rest) (ordered : Ordered succ rest) :
      Ordered succ (a :: rest)

structure Search.Sound (succ : α → List α) (s : Search α) : Prop where
  once : s.path.Nodup
  chain : s.path.IsChain (Edge succ)
  ordered : Ordered succ s.finished

/-- A walk that found a cycle, or that came back to the path of `s` with `goals` done. -/
inductive Ended (succ : α → List α) (s : Search α) (goals : List α) : Outcome α → Prop
  | cycle (c : List α) (found : IsCycle succ c) : Ended succ s goals (some (.error c))
  | back (s' : Search α) (sound : s'.Sound succ) (path : s'.path = s.path) (reached : goals ⊆ s'.finished)
      (kept : s.finished ⊆ s'.finished) : Ended succ s goals (some (.ok s'))

variable {succ : α → List α} {s : Search α}

omit [DecidableEq α]

theorem IsCycle.not_acyclic {c : List α} (cycle : IsCycle succ c) : ¬ Acyclic succ := by
  obtain ⟨chain, a, inner, rfl⟩ := cycle
  have reach : ∀ (l : List α) (a b : α), (a :: l ++ [b]).IsChain (Edge succ) →
    Relation.TransGen (Edge succ) a b := by
    intro l
    induction l with
    | nil => exact fun a b chain => .single (by simpa using chain)
    | cons x l ih =>
      intro a b chain
      obtain ⟨step, rest⟩ := List.isChain_cons_cons.mp chain
      exact .head step (ih x b rest)
  exact fun acyclic => acyclic a (reach inner a a chain)

theorem Ordered.no_cycle {l : List α} (ordered : Ordered succ l) :
    ∀ a ∈ l, ¬ Relation.TransGen (Edge succ) a a := by
  induction ordered with
  | nil => simp
  | cons targets _ ih =>
    intro a member loop
    rcases List.mem_cons.mp member with rfl | later
    · -- A cycle through the first node is one through a later one.
      obtain ⟨b, edge, back⟩ := Relation.TransGen.head'_iff.mp loop
      exact ih b (targets b edge) (.tail' back edge)
    · exact ih a later loop

theorem Ended.cons {s' : Search α} {a : α} {rest : List α} {o : Outcome α}
    (ended : Ended succ s' rest o) (path : s'.path = s.path)
    (kept : s.finished ⊆ s'.finished) (reached : a ∈ s'.finished) : Ended succ s (a :: rest) o := by
  cases ended with
  | cycle c found => exact .cycle c found
  | back s'' sound path' reached' kept' =>
    exact .back s'' sound (path'.trans path) (List.cons_subset.mpr ⟨kept' reached, reached'⟩)
      (List.Subset.trans kept kept')

variable [DecidableEq α]

theorem cut_isCycle {path : List α} {to_ : α} (chain : (path ++ [to_]).IsChain (Edge succ))
    (member : to_ ∈ path) :
    IsCycle succ (path.dropWhile (· ≠ to_) ++ [to_]) := by
  obtain ⟨before, whole⟩ := List.dropWhile_suffix (l := path) fun x => decide (x ≠ to_)
  refine ⟨chain.suffix ⟨before, by rw [← List.append_assoc, whole]⟩, ?_⟩
  cases cut : path.dropWhile (· ≠ to_) with
  | nil => exact absurd (List.dropWhile_eq_nil_iff.mp cut to_ member) (by simp)
  | cons a inner =>
    have first := List.head?_dropWhile_not (fun x => decide (x ≠ to_)) path
    rw [cut] at first
    exact ⟨to_, inner, by simpa using first⟩

theorem visitAll_ended {visit : Search α → α → Outcome α} {path : List α} (sound : s.Sound succ)
    (here : s.path = path)
    {rest : List α} (visits : ∀ s' : Search α, ∀ to_ ∈ rest, s'.Sound succ → s'.path = path →
      to_ ∉ path → Ended succ s' [to_] (visit s' to_))
    (edges : ∀ b ∈ rest, (path ++ [b]).IsChain (Edge succ)) :
    Ended succ s rest (visitAll visit s rest) := by
  induction rest generalizing s with
  | nil => exact .back s sound rfl (List.nil_subset _) (List.Subset.refl _)
  | cons to_ rest ih =>
    have ih {s : Search α} (sound : s.Sound succ) (here : s.path = path) := ih sound here
      (fun s' to_ member => visits s' to_ (List.mem_cons_of_mem _ member)) fun b member =>
        edges b (List.mem_cons_of_mem _ member)
    unfold visitAll
    split_ifs with stacked done
    · exact .cycle _ (cut_isCycle (here ▸ edges to_ List.mem_cons_self) stacked)
    · exact (ih sound here).cons rfl (List.Subset.refl _) done
    · have visited := visits s to_ List.mem_cons_self sound here (here ▸ stacked)
      generalize visit s to_ = o at visited
      cases visited with
      | cycle c found => exact .cycle c found
      | back s' sound' path' reached kept =>
        exact (ih sound' (path'.trans here)).cons path' kept (reached (List.mem_singleton_self _))

variable {nodes : Finset α} (closed : ∀ a ∈ nodes, ∀ b ∈ succ a, b ∈ nodes)
include closed

/-- The path never repeats a node, so there are rounds left as long as it is inside `nodes`. -/
theorem walk_ended (fuel : Nat) {from_ : α} (sound : s.Sound succ) (off : from_ ∉ s.path)
    (chain : (s.path ++ [from_]).IsChain (Edge succ)) (inside : ∀ a ∈ s.path ++ [from_], a ∈ nodes)
    (enough : nodes.card < fuel + s.path.length) :
    Ended succ s [from_] (walk succ fuel s from_) := by
  induction fuel generalizing s from_ with
  | zero =>
    have few : s.path.toFinset.card ≤ nodes.card :=
      Finset.card_le_card fun a member => inside a (List.mem_append_left _ (List.mem_toFinset.mp member))
    rw [List.toFinset_card_of_nodup sound.once] at few
    omega
  | succ fuel ih =>
    have pushed : Search.Sound succ ⟨s.path ++ [from_], s.finished⟩ :=
      ⟨List.nodup_append_comm.mp (List.nodup_cons.mpr ⟨off, sound.once⟩), chain, sound.ordered⟩
    have edges : ∀ b ∈ succ from_, (s.path ++ [from_] ++ [b]).IsChain (Edge succ) := fun b edge => by
      rw [List.append_assoc]
      exact List.isChain_split.mpr ⟨chain, by simpa [Edge] using edge⟩
    have visited := visitAll_ended pushed rfl (fun s' to_ edge sound' path' off' => by
      refine ih sound' (path' ▸ off') (path' ▸ edges to_ edge) (fun a member => ?_) (by simp [path']; omega)
      rcases List.mem_append.mp member with old | new
      · exact inside a (by simpa only [path'] using old)
      · exact List.mem_singleton.mp new ▸ closed from_ (inside from_ (by simp)) to_ edge) edges
    unfold walk
    generalize visitAll (walk succ fuel) _ _ = o at visited
    cases visited with
    | cycle c found => exact .cycle c found
    | back s' sound' path' reached kept =>
      have popped : s'.path.dropLast = s.path := by simp [path']
      refine .back _ ⟨?_, ?_, .cons (fun _ edge => reached edge) sound'.ordered⟩ popped (by simp)
        (List.Subset.trans kept (List.subset_cons_self ..))
      · exact popped ▸ sound.once
      · exact popped ▸ sound.chain

theorem walkStarts_ended {fuel : Nat} (enough : nodes.card < fuel) (sound : s.Sound succ)
    (empty : s.path = [])
    (starts : List α) (inside : ∀ a ∈ starts, a ∈ nodes) :
    Ended succ s starts (walkStarts succ fuel s starts) := by
  induction starts generalizing s with
  | nil => exact .back s sound rfl (List.nil_subset _) (List.Subset.refl _)
  | cons from_ rest ih =>
    have ih {s : Search α} (sound : s.Sound succ) (empty : s.path = []) :=
      ih sound empty fun a member => inside a (List.mem_cons_of_mem _ member)
    have same : { s with path := [] } = s := by rw [← empty]
    unfold walkStarts
    rw [same]
    split_ifs with visited
    · exact (ih sound empty).cons rfl (List.Subset.refl _) (by simpa [empty] using visited)
    · have walked := walk_ended closed fuel sound (not_or.mp visited).1 (by simp [empty])
        (by simpa [empty] using inside from_ List.mem_cons_self) (by omega)
      generalize walk succ fuel s from_ = o at walked
      cases walked with
      | cycle c found => exact .cycle c found
      | back s' sound' path' reached kept =>
        exact (ih sound' (path'.trans empty)).cons path' kept (reached (List.mem_singleton_self _))

/-- The search ends; it finds a cycle unless there is none. -/
theorem walkStarts_decides {fuel : Nat} (enough : nodes.card < fuel) {starts : List α}
    (inside : ∀ a ∈ starts, a ∈ nodes)
    (sources : ∀ a, succ a ≠ [] → a ∈ starts) :
    (∃ s, walkStarts succ fuel ⟨[], []⟩ starts = some (.ok s) ∧ Acyclic succ) ∨
      ∃ c, walkStarts succ fuel ⟨[], []⟩ starts = some (.error c) ∧ IsCycle succ c := by
  have start : Search.Sound succ ⟨[], []⟩ := ⟨.nil, .nil, .nil⟩
  have ended := walkStarts_ended closed enough start rfl starts inside
  generalize walkStarts succ fuel _ starts = o at ended
  cases ended with
  | cycle c found => exact .inr ⟨c, rfl, found⟩
  | back s' sound _ reached _ =>
    refine .inl ⟨s', rfl, fun a loop => sound.ordered.no_cycle a (reached (sources a ?_)) loop⟩
    obtain ⟨b, edge, -⟩ := Relation.TransGen.head'_iff.mp loop
    exact List.ne_nil_of_mem edge

end Ledger.Shared
