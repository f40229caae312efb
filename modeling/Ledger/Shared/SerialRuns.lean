import Ledger.Shared.Interaction

namespace Ledger.Shared

variable {Op W : Type} {Ans : Op → Type} {α β ε : Type}

section

variable (serves : W → (op : Op) → Ans op → W → Prop)

inductive Ran : Prog Op Ans α → W → Option α → W → Prop
  | stopped (p : Prog Op Ans α) (w : W) : Ran p w none w
  | returned (a : α) (w : W) : Ran (.done a) w (some a) w
  | served {op : Op} {next : Ans op → Prog Op Ans α} {w w' w'' : W} {ans : Ans op} {r : Option α}
      (served : serves w op ans w') (rest : Ran (next ans) w' r w'') : Ran (.call op next) w r w''

/-- `crash` holds wherever the program is stopped, and `post` where it returns. -/
def Safe : Prog Op Ans α → (α → W → Prop) → (W → Prop) → W → Prop
  | .done a, post, crash, w => post a w ∧ crash w
  | .call op next, post, crash, w =>
    crash w ∧ ∀ ans w', serves w op ans w' → Safe (next ans) post crash w'

variable {serves} {p : Prog Op Ans α} {post : α → W → Prop} {crash : W → Prop} {w : W}

theorem Safe.here (safe : Safe serves p post crash w) : crash w := by
  cases p with
  | done a => exact safe.2
  | call op next => exact safe.1

variable {r : Option α} {w' : W}

theorem Safe.ran (safe : Safe serves p post crash w) (ran : Ran serves p w r w') : crash w' ∧
    ∀ a, r = some a → post a w' := by
  induction ran with
  | stopped p w => exact ⟨safe.here, nofun⟩
  | returned a w =>
    refine ⟨safe.2, fun b same => ?_⟩
    rw [← Option.some.inj same]
    exact safe.1
  | served served rest ih => exact ih (safe.2 _ _ served)

theorem safe_bind {f : α → Prog Op Ans β} {post : β → W → Prop} :
    Safe serves (p >>= f) post crash w ↔
    Safe serves p (fun a => Safe serves (f a) post crash) crash w := by
  induction p generalizing w with
  | done a => exact ⟨fun safe => ⟨safe, safe.here⟩, fun safe => safe.1⟩
  | call op next ih => simp only [Prog.call_bind, Safe, ih]

variable {post' : α → W → Prop} {crash' : W → Prop}

theorem Safe.mono (safe : Safe serves p post crash w) (anywhere : ∀ w, crash w → crash' w)
    (weaker : ∀ a w, crash w → post a w → post' a w) : Safe serves p post' crash' w := by
  induction p generalizing w with
  | done a => exact ⟨weaker a w safe.2 safe.1, anywhere w safe.2⟩
  | call op next ih => exact ⟨anywhere w safe.1, fun ans w' served => ih ans (safe.2 ans w' served)⟩

variable {serves' : W → (op : Op) → Ans op → W → Prop}

theorem Safe.ofServes (safe : Safe serves p post crash w)
    (fewer : ∀ w op ans w', serves' w op ans w' → serves w op ans w') :
    Safe serves' p post crash w := by
  induction p generalizing w with
  | done a => exact safe
  | call op next ih =>
    exact ⟨safe.1, fun ans w' served => ih ans (safe.2 ans w' (fewer w op ans w' served))⟩

theorem Safe.and (safe : Safe serves p post crash w) (safe' : Safe serves p post' crash' w) :
    Safe serves p (fun a w => post a w ∧ post' a w) (fun w => crash w ∧ crash' w) w := by
  induction p generalizing w with
  | done a => exact ⟨⟨safe.1, safe'.1⟩, safe.2, safe'.2⟩
  | call op next ih =>
    exact ⟨⟨safe.1, safe'.1⟩, fun ans w' served => ih ans (safe.2 ans w' served)
      (safe'.2 ans w' served)⟩

theorem Ran.mono (more : ∀ w op ans w', serves w op ans w' → serves' w op ans w')
    (ran : Ran serves p w r w') :
    Ran serves' p w r w' := by
  induction ran with
  | stopped p w => exact .stopped p w
  | returned a w => exact .returned a w
  | served served _ ih => exact .served (more _ _ _ _ served) ih

theorem exists_ran {inv : W → Prop}
    (total : ∀ w op, inv w → ∃ ans w', serves w op ans w' ∧ inv w') (p : Prog Op Ans α)
    (start : inv w) : ∃ a w', Ran serves p w (some a) w' := by
  induction p generalizing w with
  | done a => exact ⟨a, w, .returned a w⟩
  | call op next ih =>
    obtain ⟨ans, w', served, held⟩ := total w op start
    obtain ⟨a, w'', rest⟩ := ih ans held
    exact ⟨a, w'', .served served rest⟩

def Tries (serves : W → (op : Op) → Ans op → W → Prop) (t : ExceptT ε (Prog Op Ans) α)
    (ok : α → W → Prop) (err : ε → W → Prop)
    (crash : W → Prop) (w : W) : Prop :=
  Safe serves t.run (fun r w' => match r with | .ok a => ok a w' | .error e => err e w') crash w

variable {t : ExceptT ε (Prog Op Ans) α} {ok : α → W → Prop} {err : ε → W → Prop}

theorem tries_mk {p : Prog Op Ans (Except ε α)} : Tries serves (ExceptT.mk p) ok err crash w ↔
    Safe serves p (fun r w' => match r with | .ok a => ok a w' | .error e => err e w') crash w := Iff.rfl

variable {f : α → ExceptT ε (Prog Op Ans) β}

theorem tries_bind {ok : β → W → Prop} :
    Tries serves (t >>= f) ok err crash w ↔
    Tries serves t (fun a => Tries serves (f a) ok err crash) err crash w := by
  have unfolded : (t >>= f).run = t.run >>= ExceptT.bindCont f := rfl
  rw [Tries, unfolded, safe_bind, Tries]
  constructor
  · refine fun safe => safe.mono (fun _ => id) fun r w' held tail => ?_
    cases r with
    | ok a => exact tail
    | error e => exact tail.1
  · refine fun safe => safe.mono (fun _ => id) fun r w' held tail => ?_
    cases r with
    | ok a => exact tail
    | error e => exact ⟨tail, held⟩

theorem Tries.mono {ok' : α → W → Prop} {err' : ε → W → Prop}
    (tries : Tries serves t ok err crash w)
    (anywhere : ∀ w, crash w → crash' w) (onOk : ∀ a w, crash w → ok a w → ok' a w)
    (onErr : ∀ e w, crash w → err e w → err' e w) : Tries serves t ok' err' crash' w := by
  refine Safe.mono tries anywhere fun r w' held tail => ?_
  cases r with
  | ok a => exact onOk a w' held tail
  | error e => exact onErr e w' held tail

theorem Tries.ofServes (tries : Tries serves t ok err crash w)
    (fewer : ∀ w op ans w', serves' w op ans w' → serves w op ans w') :
    Tries serves' t ok err crash w := Safe.ofServes tries fewer

def Keeps (serves : W → (op : Op) → Ans op → W → Prop) (R : W → W → Prop)
    (t : ExceptT ε (Prog Op Ans) α) : Prop :=
  ∀ w, Tries serves t (fun _ => R w) (fun _ => R w) (R w) w

variable {R : W → W → Prop}

theorem Keeps.then {ok : β → W → Prop} (keeps : Keeps serves R t)
    (anywhere : ∀ w', R w w' → crash w')
    (fails : ∀ e w', R w w' → err e w')
    (rest : ∀ a w', R w w' → Tries serves (f a) ok err crash w') :
    Tries serves (t >>= f) ok err crash w :=
  tries_bind.mpr ((keeps w).mono anywhere (fun a w' _ => rest a w') fun e w' _ => fails e w')

variable [IsPreorder W R]

theorem keeps_pure (a : α) : Keeps serves R (pure a : ExceptT ε (Prog Op Ans) α) := fun w =>
    ⟨refl_of R w, refl_of R w⟩

theorem keeps_bind (first : Keeps serves R t) (rest : ∀ a, Keeps serves R (f a)) :
    Keeps serves R (t >>= f) := by
  intro w
  refine first.then (fun _ => id) (fun _ _ => id) fun a w' before => ?_
  exact (rest a w').mono (fun _ => trans_of R before) (fun _ _ _ => trans_of R before) fun _ _ _ =>
    trans_of R before

end

section

variable (answer : Nat → W → (op : Op) → Ans op × W)

/-- The program to its end, with `answer n` for its call number `n`: its result, the last world, its
exchanges. -/
def Prog.play : Nat → W → Prog Op Ans α → α × W × List (Exchange Op Ans)
  | _, w, .done a => (a, w, [])
  | n, w, .call op next =>
    let (a, w', h) := play (n + 1) (answer n w op).2 (next (answer n w op).1)
    (a, w', ⟨op, (answer n w op).1⟩ :: h)

theorem ran_play {serves : W → (op : Op) → Ans op → W → Prop}
    (truthful : ∀ n w op, serves w op (answer n w op).1 (answer n w op).2)
    (p : Prog Op Ans α) (n : Nat) (w : W) : Ran serves p w (some (p.play answer n w).1)
    (p.play answer n w).2.1 := by
  induction p generalizing n w with
  | done a => exact .returned a w
  | call op next ih => exact .served (truthful n w op) (ih _ _ _)

theorem follows_play (p : Prog Op Ans α) (n : Nat) (w : W) : Follows p (p.play answer n w).2.2 := by
  induction p generalizing n w with
  | done a => exact .nil _
  | call op next ih => exact .cons (ih _ _ _)

end

end Ledger.Shared
