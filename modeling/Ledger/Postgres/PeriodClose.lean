import Ledger.Postgres.PostJournal
import Ledger.Shared.Runs

namespace Ledger.Core

open Shared

structure ClosePeriodInput where
  closeBefore : Instant
  note : GoString
  actorID : Int

def ClosePeriodInput.validate (c : ClosePeriodInput) : Result Unit :=
  require (c.closeBefore ≠ 0) ⟨.invalidInput, "core: period close: close_before is required"⟩

end Ledger.Core

namespace Ledger.Postgres

open Core Shared

/-- `ClosePeriod`, stopped between two of its statements. A refused `TryAcquirePeriodCloseBarrier`
leaves it polling. -/
inductive ClosePhase where
  | polling
  | granted
  | inserted (row : PeriodCloseRow)

structure Closer where
  input : ClosePeriodInput
  startedAt : Instant
  phase : ClosePhase

def Closer.exclusive (c : Closer) : Prop := c.phase ≠ .polling

structure Poster where
  shared : Bool
  journals : List JournalRow

structure PeriodSystem where
  store : Store
  now : Instant
  nextCloseID : Nat
  closers : Nat → Option Closer
  posts : Nat → Option Poster

namespace PeriodSystem

variable (s : PeriodSystem)

def setCloser (t : Nat) (c : Option Closer) : PeriodSystem :=
  { s with closers := Function.update s.closers t c }

def setPost (t : Nat) (p : Option Poster) : PeriodSystem :=
  { s with posts := Function.update s.posts t p }

def sharedFree : Prop := ∀ u c, s.closers u = some c → ¬c.exclusive

def exclusiveFree (t : Nat) : Prop :=
  (∀ u c, u ≠ t → s.closers u = some c → ¬c.exclusive) ∧ ∀ u p, s.posts u =
    some p → p.shared = false

end PeriodSystem

def periodCloseRow (id : Nat) (input : ClosePeriodInput) (startedAt : Instant) : PeriodCloseRow :=
  ⟨id, toMicros input.closeBefore, toMicros startedAt⟩

inductive PeriodStep : PeriodSystem → PeriodSystem → Prop where
  | tick (s : PeriodSystem) (now : Instant) (later : s.now ≤ now) : PeriodStep s { s with now := now }
  -- Everything that neither closes a period nor commits a journal.
  | other (s : PeriodSystem) (store : Store) (closes : store.periodCloses = s.store.periodCloses)
      (journals : store.journals = s.store.journals) : PeriodStep s { s with store := store }
  | openClose (s : PeriodSystem) (t : Nat) (input : ClosePeriodInput) (unused : s.closers t = none)
      (valid : input.validate = .ok ()) : PeriodStep s (s.setCloser t (some ⟨input, s.now, .polling⟩))
  | grant (s : PeriodSystem) (t : Nat) (c : Closer) (running : s.closers t = some c) (phase : c.phase = .polling)
      (free : s.exclusiveFree t) : PeriodStep s (s.setCloser t (some { c with phase := .granted }))
  | insertLine (s : PeriodSystem) (t : Nat) (c : Closer) (running : s.closers t = some c) (phase : c.phase = .granted)
      (text : textFits c.input.note = true) (time : timestampFits (toMicros c.input.closeBefore) = true) :
      PeriodStep s ({ s with nextCloseID := s.nextCloseID + 1 }.setCloser t
        (some { c with phase := .inserted (periodCloseRow s.nextCloseID c.input c.startedAt) }))
  | commitClose (s : PeriodSystem) (t : Nat) (c : Closer) (row : PeriodCloseRow) (running : s.closers t = some c)
      (phase : c.phase = .inserted row) :
      PeriodStep s ({ s with store := { s.store with periodCloses := s.store.periodCloses ++ [row] } }.setCloser t none)
  -- The budget is exhausted, the context cancelled or a statement failed.
  | abortClose (s : PeriodSystem) (t : Nat) (c : Closer) (running : s.closers t = some c) :
      PeriodStep s (s.setCloser t none)
  | openPost (s : PeriodSystem) (t : Nat) (unused : s.posts t = none) : PeriodStep s (s.setPost t (some ⟨false, []⟩))
  | readBarrier (s : PeriodSystem) (t : Nat) (p : Poster) (running : s.posts t = some p) (free : s.sharedFree) :
      PeriodStep s (s.setPost t (some { p with shared := true }))
  -- The statements of one posting see the tables at different times; `view` is what they saw. Under
  -- the barrier they all saw the lines committed now. The time was resolved when the call began or,
  -- with a prior authorization, earlier.
  | journal (s : PeriodSystem) (t : Nat) (p : Poster) (view : Store) (cfg : Config) (env : Env) (input : JournalInput)
      (effectiveAt : Instant) (auth : JournalAuth) (g : Gated) (row : JournalRow) (running : s.posts t = some p)
      (barrier : p.shared = true) (lines : view.periodCloses = s.store.periodCloses)
      (valid : input.validate cfg.decodeQuotes env.now = .ok ())
      (resolved : ∃ now, effectiveAt = resolveEffectiveAt now input.effectiveAt)
      (gated : gates view input effectiveAt auth = .ok g)
        (inserted : insertJournal env view input effectiveAt auth g = .ok row) :
      PeriodStep s (s.setPost t (some { p with journals := p.journals ++ [row] }))
  | commitPost (s : PeriodSystem) (t : Nat) (p : Poster) (running : s.posts t = some p) :
      PeriodStep s ({ s with store := { s.store with journals := s.store.journals ++ p.journals } }.setPost t none)
  | abortPost (s : PeriodSystem) (t : Nat) (p : Poster) (running : s.posts t = some p) : PeriodStep s (s.setPost t none)

structure PeriodSystem.Initial (s : PeriodSystem) : Prop where
  closes : s.store.periodCloses = []
  closers : ∀ t, s.closers t = none
  posts : ∀ t, s.posts t = none

def PeriodSystem.Reachable (s : PeriodSystem) : Prop := ∃ s₀ :
    PeriodSystem, s₀.Initial ∧ Run PeriodStep s₀ s

/-- The line that became visible last: lines are appended in the order of their commits. -/
def Store.lastCommittedClose (s : Store) : Option PeriodCloseRow := s.periodCloses.getLast?

end Ledger.Postgres
