import Mathlib.Tactic

namespace Ledger.Shared

variable {ε α β : Type}

instance decidableEqExcept [DecidableEq ε] [DecidableEq α] : DecidableEq (Except ε α)
  | .ok a, .ok b => decidable_of_iff (a = b) (by simp)
  | .error a, .error b => decidable_of_iff (a = b) (by simp)
  | .ok _, .error _ => isFalse (by simp)
  | .error _, .ok _ => isFalse (by simp)

def require (condition : Bool) (err : ε) : Except ε Unit := if condition then .ok () else .error err

def orError (value : Option α) (err : ε) : Except ε α :=
  match value with
  | some a => .ok a
  | none => .error err

def checkAll (f : α → Except ε Unit) : List α → Except ε Unit
  | [] => .ok ()
  | a :: rest =>
    match f a with
    | .ok _ => checkAll f rest
    | .error err => .error err

def collect (f : α → Except ε β) : List α → Except ε (List β)
  | [] => .ok []
  | a :: rest =>
    match f a with
    | .ok b => (collect f rest).map (b :: ·)
    | .error err => .error err

def okOr (fallback : α) : Except ε α → α
  | .ok a => a
  | .error _ => fallback

variable {x : Except ε α}

theorem eq_ok_of_isOk (ok : x.isOk = true) (fallback : α) : x = .ok (okOr fallback x) := by
  cases x with
  | ok a => rfl
  | error err => cases ok

theorem isOk_iff : x.isOk = true ↔ ∃ a, x = .ok a := by
  cases x <;> simp [Except.isOk, Except.toBool]

variable {f : α → Except ε β} {b : β}

@[simp] theorem bind_eq_ok : (x >>= f) = .ok b ↔ ∃ a, x = .ok a ∧ f a = .ok b := by
  cases x <;> simp [bind, Except.bind]

variable {a : α}

@[simp] theorem pure_eq_ok {b : α} : (pure a : Except ε α) = .ok b ↔ a = b := by
  simp [pure, Except.pure]

@[simp] theorem map_eq_ok {f : α → β} : (f <$> x) = .ok b ↔ ∃ a, x = .ok a ∧ f a = b := by
  cases x <;> simp [Functor.map, Except.map]

variable {condition : Bool} {err : ε} {u : Unit}

@[simp] theorem require_eq_ok : require condition err = .ok u ↔ condition = true := by
  cases condition <;> simp [require]

@[simp] theorem ok_bind (a : α) (f : α → Except ε β) : (Except.ok a >>= f) = f a := rfl

theorem bind_eq_error : (x >>= f) = .error err ↔ x = .error err ∨ ∃ a, x = .ok a ∧
    f a = .error err := by
  cases x <;> simp [bind, Except.bind]

theorem require_eq_error {e : ε} : require condition err = .error e ↔ condition =
    false ∧ err = e := by
  cases condition <;> simp [require]

variable {p : Prop}

theorem require_of [Decidable p] (holds : p) : require (decide p) err = .ok () := by
  simp [require, holds]

theorem require_of_not [Decidable p] (fails : ¬p) : require (decide p) err = .error err := by
  simp [require, fails]

@[simp] theorem orError_eq_ok {value : Option α} : orError value err = .ok a ↔ value = some a := by
  cases value <;> simp [orError]

variable {l : List α}

@[simp] theorem checkAll_eq_ok {f : α → Except ε Unit} : checkAll f l = .ok u ↔
    ∀ a ∈ l, f a = .ok () := by
  induction l with
  | nil => simp [checkAll]
  | cons a rest ih => cases result : f a <;> simp [checkAll, result, ih]

theorem collect_eq_ok {bs : List β} : collect f l = .ok bs ↔
    List.Forall₂ (fun a b => f a = .ok b) l bs := by
  induction l generalizing bs with
  | nil => cases bs <;> simp [collect]
  | cons a rest ih =>
    cases head : f a with
    | error err => cases bs <;> simp [collect, head]
    | ok b =>
      cases tail : collect f rest with
      | error err => cases bs <;> simp_all [collect, Except.map]
      | ok bs' =>
        rw [tail] at ih
        cases bs <;> simp_all [collect, Except.map]

theorem collect_isOk_iff : (∃ bs, collect f l = .ok bs) ↔ ∀ a ∈ l, ∃ b, f a = .ok b := by
  simp only [collect_eq_ok]
  induction l with
  | nil => simp
  | cons a rest ih =>
    rw [List.forall_mem_cons, ← ih]
    constructor
    · rintro ⟨bs, related⟩
      cases related with
      | cons head tail => exact ⟨⟨_, head⟩, _, tail⟩
    · rintro ⟨⟨b, head⟩, bs, tail⟩
      exact ⟨b :: bs, .cons head tail⟩

theorem collect_error (failed : collect f l = .error err) : ∃ a ∈ l, f a = .error err := by
  induction l with
  | nil => cases failed
  | cons a rest ih =>
    cases head : f a with
    | error err' =>
      simp only [collect, head, Except.error.injEq] at failed
      subst failed
      exact ⟨a, List.mem_cons_self, head⟩
    | ok b =>
      simp only [collect, head] at failed
      cases tail : collect f rest with
      | ok bs =>
        rw [tail] at failed
        cases failed
      | error err' =>
        rw [tail] at failed
        cases failed
        obtain ⟨a', member, error⟩ := ih tail
        exact ⟨a', List.mem_cons_of_mem _ member, error⟩

variable {R : α → β → Prop} {m : List β}

theorem forall₂_of_mem_right (related : List.Forall₂ R l m) (member : b ∈ m) : ∃ a ∈ l, R a b := by
  induction related with
  | nil => cases member
  | cons head _ ih =>
    rcases List.mem_cons.mp member with rfl | later
    · exact ⟨_, List.mem_cons_self, head⟩
    · obtain ⟨a, member, holds⟩ := ih later
      exact ⟨a, List.mem_cons_of_mem _ member, holds⟩

theorem forall₂_map_eq {γ : Type} (related : List.Forall₂ R l m) {f : α → γ} {g : β → γ}
    (same : ∀ a ∈ l, ∀ b, R a b → f a = g b) : l.map f = m.map g := by
  induction related with
  | nil => rfl
  | cons head _ ih =>
    rw [List.map_cons, List.map_cons, same _ List.mem_cons_self _ head,
      ih fun a member b holds => same a (List.mem_cons_of_mem _ member) b holds]

end Ledger.Shared
