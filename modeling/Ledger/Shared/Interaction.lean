import Ledger.Shared.Runs
import Mathlib.Data.Set.Basic

namespace Ledger.Shared

inductive Prog (Op : Type) (Ans : Op → Type) (α : Type) : Type where
  | done (value : α)
  | call (op : Op) (next : Ans op → Prog Op Ans α)

variable {Op L W : Type} {Ans : Op → Type} {α β : Type}

namespace Prog

def bind : Prog Op Ans α → (α → Prog Op Ans β) → Prog Op Ans β
  | .done a, f => f a
  | .call op next, f => .call op fun ans => (next ans).bind f

instance : Monad (Prog Op Ans) where
  pure := .done
  bind := .bind

@[simp] theorem pure_eq (a : α) : (pure a : Prog Op Ans α) = .done a := rfl

@[simp] theorem done_bind (a : α) (f : α → Prog Op Ans β) :
    ((.done a : Prog Op Ans α) >>= f) = f a := rfl

@[simp] theorem call_bind (op : Op) (next : Ans op → Prog Op Ans α) (f : α → Prog Op Ans β) :
    (.call op next >>= f) = .call op fun ans => next ans >>= f := rfl

def ask (op : Op) : Prog Op Ans (Ans op) := .call op .done

end Prog

abbrev Exchange (Op : Type) (Ans : Op → Type) : Type := (op : Op) × Ans op

section

variable (guar : List (Exchange Op Ans) → Op → Prop)

/-- Every call the program makes keeps `guar`, and it ends in `post`, whatever it is answered. Both
see the answers so far; how true those are is a matter of the run. -/
def Meets : Prog Op Ans α → (α → List (Exchange Op Ans) → Prop) → List (Exchange Op Ans) → Prop
  | .done a, post, h => post a h
  | .call op next, post, h => guar h op ∧ ∀ ans, Meets (next ans) post (h ++ [⟨op, ans⟩])

variable {guar} {h : List (Exchange Op Ans)} {a : α}

@[simp] theorem meets_done {post : α → List (Exchange Op Ans) → Prop} :
    Meets guar (.done a) post h ↔ post a h := Iff.rfl

variable {p : Prog Op Ans α}

theorem meets_bind {f : α → Prog Op Ans β} {post : β → List (Exchange Op Ans) → Prop} :
    Meets guar (p >>= f) post h ↔ Meets guar p (fun a => Meets guar (f a) post) h := by
  induction p generalizing h with
  | done a => rfl
  | call op next ih => simp only [Prog.call_bind, Meets, ih]

theorem meets_ask {op : Op} {post : Ans op → List (Exchange Op Ans) → Prop} :
    Meets guar (Prog.ask op) post h ↔ guar h op ∧ ∀ ans, post ans (h ++ [⟨op, ans⟩]) := Iff.rfl

theorem Meets.mono {post post' : α → List (Exchange Op Ans) → Prop} (meets : Meets guar p post h)
    (weaker : ∀ a h', h <+: h' → post a h' → post' a h') : Meets guar p post' h := by
  induction p generalizing h with
  | done a => exact weaker a h (List.prefix_refl h) meets
  | call op next ih =>
    refine ⟨meets.1, fun ans => ih ans (meets.2 ans) fun a h' longer => weaker a h' ?_⟩
    exact (List.prefix_append h _).trans longer

variable {guar' : List (Exchange Op Ans) → Op → Prop}

theorem Meets.weaken {post : α → List (Exchange Op Ans) → Prop} (meets : Meets guar p post h)
    (weaker : ∀ h' op, h <+: h' → guar h' op → guar' h' op) : Meets guar' p post h := by
  induction p generalizing h with
  | done a => exact meets
  | call op next ih =>
    refine ⟨weaker h op (List.prefix_refl h) meets.1, fun ans => ih ans (meets.2 ans) fun h' op'
      longer => weaker h' op' ?_⟩
    exact (List.prefix_append h _).trans longer

/-- The calls and answers of a run of the program, whatever answers them, up to some point. -/
inductive Follows : Prog Op Ans α → List (Exchange Op Ans) → Prop
  | nil (p : Prog Op Ans α) : Follows p []
  | cons {op : Op} {next : Ans op → Prog Op Ans α} {ans : Ans op} {h : List (Exchange Op Ans)}
      (rest : Follows (next ans) h) :
      Follows (.call op next) (⟨op, ans⟩ :: h)

theorem Meets.follows {post : α → List (Exchange Op Ans) → Prop} (meets : Meets guar p post h)
    {run : List (Exchange Op Ans)} (follows : Follows p run) {before after : List (Exchange Op Ans)}
    {e : Exchange Op Ans} (split : run = before ++ e :: after) : guar (h ++ before) e.1 := by
  induction follows generalizing h before with
  | nil p => simp at split
  | @cons op next ans rest follows ih =>
    cases before with
    | nil =>
      obtain ⟨rfl, -⟩ := List.cons.inj split
      rw [List.append_nil]
      exact meets.1
    | cons first before =>
      obtain ⟨rfl, tail⟩ := List.cons.inj split
      have later := ih (meets.2 ans) tail
      rwa [List.append_assoc] at later

variable {ε : Type}

/-- `Meets` for a program that returns at its first error. -/
def Returns (guar : List (Exchange Op Ans) → Op → Prop) (t : ExceptT ε (Prog Op Ans) α)
    (ok : α → List (Exchange Op Ans) → Prop)
    (err : ε → List (Exchange Op Ans) → Prop) (h : List (Exchange Op Ans)) : Prop :=
  Meets guar t.run (fun r h' => match r with | .ok a => ok a h' | .error e => err e h') h

variable {ok : α → List (Exchange Op Ans) → Prop} {err : ε → List (Exchange Op Ans) → Prop}
  {t : ExceptT ε (Prog Op Ans) α}

theorem meets_run {post : Except ε α → List (Exchange Op Ans) → Prop} :
    Meets guar t.run post h ↔ Returns guar t (fun a => post (.ok a))
    (fun e => post (.error e)) h := by
  refine ⟨fun meets => meets.mono fun r h' _ held => ?_, fun meets =>
    Meets.mono meets fun r h' _ held => ?_⟩ <;>
    cases r <;> exact held

theorem returns_mk {p : Prog Op Ans (Except ε α)} : Returns guar (ExceptT.mk p) ok err h ↔
    Meets guar p (fun r h' => match r with | .ok a => ok a h' | .error e => err e h') h := Iff.rfl

theorem returns_pure : Returns guar (pure a) ok err h ↔ ok a h := Iff.rfl

theorem returns_throw {e : ε} : Returns guar (throw e : ExceptT ε (Prog Op Ans) α) ok err h ↔
    err e h := Iff.rfl

theorem returns_bind {t : ExceptT ε (Prog Op Ans) β} {f : β → ExceptT ε (Prog Op Ans) α} :
    Returns guar (t >>= f) ok err h ↔
    Returns guar t (fun b => Returns guar (f b) ok err) err h := by
  have unfolded : (t >>= f).run = t.run >>= ExceptT.bindCont f := rfl
  rw [Returns, unfolded, meets_bind, meets_run]
  exact Iff.rfl

theorem Returns.mono {ok' : α → List (Exchange Op Ans) → Prop}
    {err' : ε → List (Exchange Op Ans) → Prop}
    (returns : Returns guar t ok err h) (onOk : ∀ a h', h <+: h' → ok a h' → ok' a h')
    (onErr : ∀ e h', h <+: h' → err e h' → err' e h') : Returns guar t ok' err' h := by
  refine Meets.mono returns fun r h' longer held => ?_
  cases r with
  | ok a => exact onOk a h' longer held
  | error e => exact onErr e h' longer held

theorem Returns.weaken (returns : Returns guar t ok err h)
    (weaker : ∀ h' op, h <+: h' → guar h' op → guar' h' op) :
    Returns guar' t ok err h := Meets.weaken returns weaker

end

structure Thread (L Op : Type) (Ans : Op → Type) where
  label : L
  history : List (Exchange Op Ans)
  rest : Prog Op Ans Unit

/-- One call that was served: whose, what it had been answered before, and the world around it. -/
structure Act (L W Op : Type) (Ans : Op → Type) where
  thread : Nat
  label : L
  history : List (Exchange Op Ans)
  op : Op
  ans : Ans op
  before : W
  after : W

def Act.exchange (a : Act L W Op Ans) : Exchange Op Ans := ⟨a.op, a.ans⟩

structure Pool (L W Op : Type) (Ans : Op → Type) where
  world : W
  threads : Nat → Option (Thread L Op Ans)
  trace : List (Act L W Op Ans)

def Pool.setThread (p : Pool L W Op Ans) (t : Nat) (th : Option (Thread L Op Ans)) :
    Pool L W Op Ans :=
  { p with threads := Function.update p.threads t th }

def Pool.still (w : W) : Pool L W Op Ans := ⟨w, fun _ => none, []⟩

structure Interleaving (L W Op : Type) (Ans : Op → Type) where
  program : L → Prog Op Ans Unit
  serves : W → (op : Op) → Ans op → W → Prop
  -- What moves the world besides the threads.
  outside : W → W → Prop
  -- Which threads may start after what has been served.
  admits : L → List (Act L W Op Ans) → Prop

namespace Interleaving

variable (sys : Interleaving L W Op Ans)

def afterCall (p : Pool L W Op Ans) (t : Nat) (l : L) (h : List (Exchange Op Ans)) (op : Op)
    (next : Ans op → Prog Op Ans Unit) (ans : Ans op) (w : W) : Pool L W Op Ans :=
  ⟨w, Function.update p.threads t (some ⟨l, h ++ [⟨op, ans⟩], next ans⟩), p.trace ++
    [⟨t, l, h, op, ans, p.world, w⟩]⟩

inductive Step : Pool L W Op Ans → Pool L W Op Ans → Prop where
  | start (p : Pool L W Op Ans) (t : Nat) (l : L) (free : p.threads t = none) (admitted : sys.admits l p.trace) :
      Step p (p.setThread t (some ⟨l, [], sys.program l⟩))
  | act (p : Pool L W Op Ans) (t : Nat) (l : L) (h : List (Exchange Op Ans)) (op : Op)
      (next : Ans op → Prog Op Ans Unit)
      (ans : Ans op) (w : W) (running : p.threads t = some ⟨l, h, .call op next⟩)
        (served : sys.serves p.world op ans w) :
      Step p (afterCall p t l h op next ans w)
  -- A thread that has returned, or was killed.
  | stop (p : Pool L W Op Ans) (t : Nat) : Step p (p.setThread t none)
  | outside (p : Pool L W Op Ans) (w : W) (moved : sys.outside p.world w) : Step p { p with world := w }

/-- The thread was admitted, and what it has been answered was served to it after that, in this
order. -/
def Explained (served : List (Act L W Op Ans)) (t : Nat) (l : L)
    (h : List (Exchange Op Ans)) : Prop :=
  ∃ start rest acts, served = start ++ rest ∧ sys.admits l start ∧ List.Sublist acts rest ∧
    acts.map Act.exchange = h ∧
    ∀ a ∈ acts, a.thread = t ∧ a.label = l

variable {sys} {rely : W → W → Prop} {inv : W → Prop}
  {guar : L → List (Exchange Op Ans) → Op → Prop}

section

variable {served : List (Act L W Op Ans)} {t : Nat} {l : L} {h : List (Exchange Op Ans)}
  (explained : Explained sys served t l h)

include explained

theorem Explained.append (more : List (Act L W Op Ans)) : Explained sys (served ++ more) t l h := by
  obtain ⟨start, rest, acts, rfl, admitted, sub, eq, own⟩ := explained
  exact ⟨start, rest ++ more, acts, List.append_assoc .., admitted,
    sub.trans (List.sublist_append_left rest more), eq, own⟩

theorem Explained.answered (a : Act L W Op Ans) (thread : a.thread = t) (label : a.label = l) :
    Explained sys (served ++ [a]) t l (h ++ [a.exchange]) := by
  obtain ⟨start, rest, acts, rfl, admitted, sub, rfl, own⟩ := explained
  refine ⟨start, rest ++ [a], acts ++ [a], List.append_assoc .., admitted, sub.append
    (List.Sublist.refl _), by simp, fun b member => ?_⟩
  rcases List.mem_append.mp member with old | new
  · exact own b old
  · exact List.mem_singleton.mp new ▸ ⟨thread, label⟩

theorem Explained.act {e : Exchange Op Ans} (member : e ∈ h) : ∃ a ∈ served, a.exchange = e := by
  obtain ⟨start, rest, acts, rfl, -, sub, rfl, -⟩ := explained
  obtain ⟨a, inside, rfl⟩ := List.mem_map.mp member
  exact ⟨a, List.mem_append_right _ (sub.subset inside), rfl⟩

end

structure Sound (sys : Interleaving L W Op Ans) (rely : W → W → Prop) (inv : W → Prop)
    (guar : L → List (Exchange Op Ans) → Op → Prop) (p : Pool L W Op Ans) : Prop where
  holds : inv p.world
  served : ∀ a ∈ p.trace, sys.serves a.before a.op a.ans a.after ∧ inv a.before
  kept : ∀ a ∈ p.trace, guar a.label a.history a.op
  moved : ∀ a ∈ p.trace, rely a.before a.after
  since : ∀ a ∈ p.trace, rely a.after p.world
  ordered : p.trace.Pairwise fun a b => rely a.after b.before
  explained : ∀ earlier a later, p.trace = earlier ++ a :: later →
    Explained sys earlier a.thread a.label a.history
  threads : ∀ t th, p.threads t = some th →
    Meets (guar th.label) th.rest (fun _ _ => True) th.history ∧
      Explained sys p.trace t th.label th.history

section

variable (refl : ∀ w, rely w w) (trans : ∀ a b c, rely a b → rely b c → rely a c)
  (keeps : ∀ l h w op ans w', inv w → sys.serves w op ans w' → guar l h op → inv w' ∧ rely w w')
  (outside : ∀ w w', inv w → sys.outside w w' → inv w' ∧ rely w w')
  (programs : ∀ l, Meets (guar l) (sys.program l) (fun _ _ => True) []) {t : Nat}

theorem set_thread {P : Nat → Thread L Op Ans → Prop} {threads : Nat → Option (Thread L Op Ans)}
    {new : Option (Thread L Op Ans)} (others : ∀ t' th, threads t' = some th → P t' th)
    (this : ∀ th, new = some th → P t th) : ∀ t' th, Function.update threads t new t' =
    some th → P t' th := by
  intro t' th running
  by_cases same : t' = t
  · subst same
    rw [Function.update_self] at running
    exact this th running
  · rw [Function.update_of_ne same] at running
    exact others t' th running

variable {p : Pool L W Op Ans} {w : W}

include refl trans keeps in
theorem Sound.act (sound : Sound sys rely inv guar p) {l : L} {h : List (Exchange Op Ans)} {op : Op}
    {next : Ans op → Prog Op Ans Unit} {ans : Ans op}
    (running : p.threads t = some ⟨l, h, .call op next⟩)
    (served : sys.serves p.world op ans w) :
    Sound sys rely inv guar (afterCall p t l h op next ans w) := by
  obtain ⟨⟨kept, rest⟩, explained⟩ := sound.threads t _ running
  obtain ⟨held, move⟩ := keeps l h _ op ans w sound.holds served kept
  -- Each part holds of the calls before and of this one.
  have both : ∀ {P : Act L W Op Ans → Prop}, (∀ a ∈ p.trace, P a) →
    P ⟨t, l, h, op, ans, p.world, w⟩ →
      ∀ a ∈ p.trace ++ [⟨t, l, h, op, ans, p.world, w⟩], P a := by
    intro P old new a member
    rcases List.mem_append.mp member with before | this
    · exact old a before
    · exact List.mem_singleton.mp this ▸ new
  refine ⟨held, both sound.served ⟨served, sound.holds⟩, both sound.kept kept,
    both sound.moved move, ?_, ?_, ?_, ?_⟩
  · exact both (fun a member => trans _ _ _ (sound.since a member) move) (refl w)
  · refine List.pairwise_append.mpr ⟨sound.ordered, List.pairwise_singleton _ _,
      fun a member b this => ?_⟩
    rw [List.mem_singleton.mp this]
    exact sound.since a member
  · intro earlier a later split
    rcases split_concat split with ⟨rfl, rfl⟩ | ⟨more, eq⟩
    · exact explained
    · exact sound.explained earlier a more eq
  · refine set_thread (fun t' th running' => ?_) ?_
    · exact ⟨(sound.threads t' th running').1, (sound.threads t' th running').2.append _⟩
    · rintro th ⟨⟩
      exact ⟨rest ans, explained.answered ⟨t, l, h, op, ans, p.world, w⟩ rfl rfl⟩

include refl trans keeps outside programs in
theorem sound_step : Preserved sys.Step (Sound sys rely inv guar) := by
  intro p p' sound step
  cases step with
  | start t l free admitted =>
    refine ⟨sound.holds, sound.served, sound.kept, sound.moved, sound.since, sound.ordered,
      sound.explained, ?_⟩
    refine set_thread sound.threads ?_
    rintro th ⟨⟩
    exact ⟨programs l, p.trace, [], [], (List.append_nil _).symm, admitted, .slnil, rfl, nofun⟩
  | act t l h op next ans w running served => exact sound.act refl trans keeps running served
  | stop t =>
    refine ⟨sound.holds, sound.served, sound.kept, sound.moved, sound.since, sound.ordered,
      sound.explained, ?_⟩
    exact set_thread sound.threads (by rintro th ⟨⟩)
  | outside w moved =>
    obtain ⟨held, move⟩ := outside _ w sound.holds moved
    exact ⟨held, sound.served, sound.kept, sound.moved, fun a member =>
      trans _ _ _ (sound.since a member) move, sound.ordered,
      sound.explained, sound.threads⟩

include refl trans keeps outside programs in
theorem sound (start : inv w) (run : Run sys.Step (.still w) p) : Sound sys rely inv guar p := by
  refine (sound_step refl trans keeps outside programs).run ?_ run
  exact ⟨start, by simp [Pool.still], by simp [Pool.still], by simp [Pool.still],
    by simp [Pool.still], .nil,
    fun earlier a later split => by simp [Pool.still] at split, by rintro t th ⟨⟩⟩

include refl trans keeps outside programs in
theorem traced {I : List (Act L W Op Ans) → W → Prop} (start : inv w) (initially : I [] w)
    (acts : ∀ (q : Pool L W Op Ans) (a : Act L W Op Ans), Sound sys rely inv guar q →
      I q.trace q.world → a.before = q.world →
      sys.serves q.world a.op a.ans a.after → guar a.label a.history a.op →
      Explained sys q.trace a.thread a.label a.history →
      I (q.trace ++ [a]) a.after) (moves : ∀ trace v v', I trace v → sys.outside v v' → I trace v')
      (run : Run sys.Step (.still w) p) :
    I p.trace p.world ∧ ∀ earlier a later, p.trace = earlier ++ a :: later →
    I earlier a.before := by
  have preserved : Preserved sys.Step fun p => Sound sys rely inv guar p ∧ I p.trace p.world ∧
      ∀ earlier a later, p.trace = earlier ++ a :: later → I earlier a.before := by
    rintro p p' ⟨sound, here, before⟩ step
    refine ⟨sound_step refl trans keeps outside programs p p' sound step, ?_⟩
    cases step with
    | start t l free admitted | stop t => exact ⟨here, before⟩
    | outside w moved => exact ⟨moves _ _ _ here moved, before⟩
    | act t l h op next ans w running served =>
      obtain ⟨⟨kept, -⟩, explained⟩ := sound.threads t _ running
      refine ⟨acts p ⟨t, l, h, op, ans, p.world, w⟩ sound here rfl served kept explained,
        fun earlier a later split => ?_⟩
      rcases split_concat split with ⟨rfl, rfl⟩ | ⟨more, eq⟩
      · exact here
      · exact before earlier a more eq
  refine (preserved.run ⟨?_, initially, fun earlier a later split => by
    simp [Pool.still] at split⟩ run).2
  exact sound refl trans keeps outside programs start .refl

end

variable {p : Pool L W Op Ans} {a : Act L W Op Ans}

theorem Sound.order (sound : Sound sys rely inv guar p) {b : Act L W Op Ans} (first : a ∈ p.trace)
    (second : b ∈ p.trace) : a = b ∨ rely a.after b.before ∨ rely b.after a.before := by
  obtain ⟨i, inside, rfl⟩ := List.mem_iff_getElem.mp first
  obtain ⟨j, inside', rfl⟩ := List.mem_iff_getElem.mp second
  have ordered := List.pairwise_iff_getElem.mp sound.ordered
  rcases Nat.lt_trichotomy i j with less | rfl | more
  · exact .inr (.inl (ordered i j inside inside' less))
  · exact .inl rfl
  · exact .inr (.inr (ordered j i inside' inside more))

theorem Sound.history (sound : Sound sys rely inv guar p) (member : a ∈ p.trace) :
    ∃ start acts, sys.admits a.label start ∧ acts.map Act.exchange = a.history ∧
    (∀ b ∈ acts, b.thread = a.thread ∧ b.label = a.label) ∧
      List.Sublist (start ++ acts ++ [a]) p.trace := by
  obtain ⟨earlier, later, split⟩ := List.append_of_mem member
  obtain ⟨start, rest, acts, rfl, admitted, sub, eq, own⟩ := sound.explained earlier a later split
  refine ⟨start, acts, admitted, eq, own, ?_⟩
  rw [split]
  exact ((List.Sublist.refl start).append sub).append
    (List.singleton_sublist.mpr List.mem_cons_self)

theorem trace_prefix {p' : Pool L W Op Ans} (run : Run sys.Step p p') : p.trace <+: p'.trace := by
  have step : ∀ q q', sys.Step q q' → q.trace <+: q'.trace := by
    intro q q' step
    cases step with
    | start t l free admitted => exact List.prefix_refl _
    | act t l h op next ans w running served => exact List.prefix_append _ _
    | stop t | outside w moved => exact List.prefix_refl _
  induction run with
  | refl => exact List.prefix_refl _
  | tail _ last ih => exact ih.trans (step _ _ last)

section

variable (perform : Nat → W → (op : Op) → Ans op × W)

def advanceOne (p : Pool L W Op Ans) (t : Nat) : Pool L W Op Ans :=
  match p.threads t with
  | some ⟨l, h, .call op next⟩ =>
    let r := perform p.trace.length p.world op
    afterCall p t l h op next r.1 r.2
  | _ => p

def advance (t : Nat) : Nat → Pool L W Op Ans → Pool L W Op Ans
  | 0, p => p
  | n + 1, p => advance t n (advanceOne perform p t)

theorem run_advanceOne (truthful : ∀ n w op, sys.serves w op (perform n w op).1 (perform n w op).2)
    (p : Pool L W Op Ans) (t : Nat) :
    Run sys.Step p (advanceOne perform p t) := by
  unfold advanceOne
  split
  · rename_i l h op next running
    exact .single (.act p t l h op next _ _ running (truthful _ _ _))
  · exact .refl

theorem run_advance (truthful : ∀ n w op, sys.serves w op (perform n w op).1 (perform n w op).2)
    (t n : Nat) (p : Pool L W Op Ans) :
    Run sys.Step p (advance perform t n p) := by
  induction n generalizing p with
  | zero => exact .refl
  | succ n ih => exact (run_advanceOne perform truthful p t).trans (ih _)

theorem advance_threads {t other : Nat} (different : other ≠ t) (n : Nat) (p : Pool L W Op Ans) :
    (advance perform t n p).threads other = p.threads other := by
  induction n generalizing p with
  | zero => rfl
  | succ n ih =>
    rw [advance, ih, advanceOne]
    split
    · exact Function.update_of_ne different ..
    · rfl

end

end Interleaving

end Ledger.Shared
