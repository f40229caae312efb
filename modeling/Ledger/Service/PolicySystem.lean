import Ledger.Postgres.AccountPolicies
import Ledger.Service.RollupSoundness

namespace Ledger.Service

open Core Postgres Shared

def policyDeltaWith (policy : Option AccountPolicyRow) (e : ResolvedEntry) :
    Result PolicyDelta := do
  let delta ← within "postgres: post journal"
    (signedAmount e.normalSide e.input.entryType e.input.amount)
  require (policy.map (·.status) ≠ some .closed)
    ⟨.accountClosed, "postgres: post journal: account %d currency %d classification %d is closed (policy %d)"⟩
  return ⟨e, delta, policy⟩

/-- The comparison with the floor of one policy. The checkpoint may be read before the entries; the
normal side is a column that never changes. -/
def checkFloor (p : AccountPolicyRow) (atCheckpoint atSums : LedgerTables)
    (deltas : List PolicyDelta) (dim : Dimension) :
    Result Unit := do
  let before ← within "postgres: post journal: account policy: get balance"
    (getBalanceWithQueries atCheckpoint atSums atSums dim)
  let after := before.add (sumDecimals ((deltas.filter (·.entry.dim == dim)).map (·.delta)))
  require (!(numericToDecimal p.minBalance).greaterThan after)
    ⟨.insufficientBalance,
      "postgres: post journal: account %d currency %d classification %d balance %s would fall below min_balance %s (policy %d)"⟩

structure Checking where
  unread : List ResolvedEntry
  read : List PolicyDelta
  -- `none` until the frozen check has passed, then the dimensions still to be compared with a
  -- floor.
  floors : Option (List Dimension)
  -- What the checkpoint read of the first of them saw.
  atCheckpoint : Option LedgerTables

def Checking.passed (c : Checking) : Prop := c.floors = some []

def Checking.nothing : Checking := ⟨[], [], some [], none⟩

def Checking.cached (c : Checking) (dim : Dimension) : Option (Option AccountPolicyRow) :=
  (c.read.find? (·.entry.dim == dim)).map (·.policy)

structure Setting where
  input : AccountPolicyInput
  currencyID : Nat
  classificationID : Nat
  locked : Bool

def Setting.pair (c : Setting) : Pair := ⟨c.input.accountHolder, c.currencyID⟩

structure PolicyBank where
  sys : System
  -- The tables beside the ledger's own.
  tables : Store
  nextPolicyID : Nat
  checks : Nat → Checking
  settings : Nat → Option Setting

namespace PolicyBank

variable (b : PolicyBank)

def store : Store := { b.tables with ledger := b.sys.db }

def effective (dim : Dimension) : Option AccountPolicyRow := getEffectiveAccountPolicy
    b.tables.policies dim

def setCheck (t : Nat) (c : Checking) : PolicyBank :=
  { b with checks := Function.update b.checks t c }

def setSetting (t : Nat) (c : Option Setting) : PolicyBank :=
  { b with settings := Function.update b.settings t c }

@[simp] theorem setCheck_self (t : Nat) (c : Checking) : (b.setCheck t c).checks t = c :=
  Function.update_self ..

@[simp] theorem setSetting_self (t : Nat) (c : Option Setting) :
    (b.setSetting t c).settings t = c :=
  Function.update_self ..

end PolicyBank

def ownView (db : LedgerTables) (post : Posting) : LedgerTables :=
  { db with entries := db.entries ++ post.written }

def entryDraft (effectiveAt : Int) (e : ResolvedEntry) : Result EntryDraft := do
  let amount ← numericColumn e.input.amount
  let side ← orError (sideOf e.input.entryType) ⟨.invalidInput, "check constraint %q violated"⟩
  require (0 < amount ∧ e.input.accountHolder ≠ 0) ⟨.invalidInput, "check constraint %q violated"⟩
  return ⟨e.dim, side, amount, effectiveAt⟩

inductive PolicyStep : PolicyBank → PolicyBank → Prop where
  -- Clocks, configuration, rollup workers and transactions that post nothing and set no policy.
  | ledger (b : PolicyBank) (sys : System) (step : Step b.sys sys) (posts : sys.posts = b.sys.posts)
      (ids : (sys.db.classifications.map (·.id)).Nodup)
      (others : ∀ t, (b.settings t).isSome → ∀ p, b.sys.locks p = some t → sys.locks p = some t) :
      PolicyStep b { b with sys := sys }
  -- Everything else in the database: it sets no policy.
  | configure (b : PolicyBank) (tables : Store) (policies : tables.policies = b.tables.policies) :
      PolicyStep b { b with tables := tables }
  | start (b : PolicyBank) (t : Nat) (journals : List (Nat × List EntryDraft)) (sys : System)
      (begins : sys = b.sys.setPost t (some ⟨journals, 0, [], [], [], b.sys.now⟩)) (unused : b.sys.posts t = none)
      (other : b.settings t = none) (unlocked : ∀ p, b.sys.locks p ≠ some t) :
      PolicyStep b ({ b with sys := sys }.setCheck t .nothing)
  -- The journal is validated and resolved before its locks are taken.
  | nextJournal (b : PolicyBank) (t : Nat) (post : Posting) (journal : Nat) (drafts : List EntryDraft)
      (rest : List (Nat × List EntryDraft)) (input : JournalInput)
        (decodeQuotes : GoString → Result Unit) (now : Instant)
      (entries : List ResolvedEntry) (effectiveAt : Int) (running : b.sys.posts t = some post)
      (todo : post.journals = (journal, drafts) :: rest) (locked : post.locking = []) (inserted : post.inserting = [])
      (valid : input.validate decodeQuotes now = .ok ()) (resolved : resolveEntries b.store input.entries = .ok entries)
      (drafted : collect (entryDraft effectiveAt) entries = .ok drafts) :
      PolicyStep b (PolicyBank.setCheck { b with
        sys := b.sys.setPost t (some { post with
          journals := rest, journal := journal, inserting := drafts,
          locking := sortedUniquePairs (drafts.map (·.dim.pair)) }) } t ⟨entries, [], none, none⟩)
  | lock (b : PolicyBank) (t : Nat) (post : Posting) (p : Pair) (rest : List Pair) (running : b.sys.posts t = some post)
      (todo : post.locking = p :: rest) (free : b.sys.lockable t p) :
      PolicyStep b { b with sys := (b.sys.takeLock t p).setPost t (some { post with locking := rest }) }
  -- The loop over the entries. A dimension's policy is read once.
  | readPolicy (b : PolicyBank) (t : Nat) (post : Posting) (e : ResolvedEntry)
      (rest : List ResolvedEntry) (d : PolicyDelta)
      (running : b.sys.posts t = some post) (locked : post.locking = []) (todo : (b.checks t).unread = e :: rest)
      (ok : policyDeltaWith (((b.checks t).cached e.dim).getD (b.effective e.dim)) e = .ok d) :
      PolicyStep b (b.setCheck t { b.checks t with unread := rest, read := (b.checks t).read ++ [d] })
  | net (b : PolicyBank) (t : Nat) (post : Posting) (running : b.sys.posts t = some post) (locked : post.locking = [])
      (todo : (b.checks t).unread = []) (phase : (b.checks t).floors = none)
      (ok : checkAll (checkFrozen (b.checks t).read) (firstSeen ((b.checks t).read.filterMap (·.frozenKey))) = .ok ()) :
      PolicyStep b (b.setCheck t { b.checks t with floors := some (firstSeen ((b.checks t).read.map (·.entry.dim))) })
  | noFloor (b : PolicyBank) (t : Nat) (post : Posting) (dim : Dimension) (rest : List Dimension)
      (policy : Option AccountPolicyRow) (running : b.sys.posts t = some post)
      (todo : (b.checks t).floors = some (dim :: rest)) (known : (b.checks t).cached dim = some policy)
      (free : ∀ p, policy = some p → p.enforceMinBalance = false) :
      PolicyStep b (b.setCheck t { b.checks t with floors := some rest })
  | readCheckpoint (b : PolicyBank) (t : Nat) (post : Posting) (dim : Dimension) (rest : List Dimension)
      (running : b.sys.posts t = some post) (todo : (b.checks t).floors = some (dim :: rest)) :
      PolicyStep b (b.setCheck t { b.checks t with atCheckpoint := some b.sys.db })
  | floor (b : PolicyBank) (t : Nat) (post : Posting) (dim : Dimension) (rest : List Dimension) (p : AccountPolicyRow)
      (db : LedgerTables) (running : b.sys.posts t = some post) (todo : (b.checks t).floors = some (dim :: rest))
      (known : (b.checks t).cached dim = some (some p)) (enforced : p.enforceMinBalance = true)
      (seen : (b.checks t).atCheckpoint = some db)
      (ok : checkFloor p db (ownView b.sys.db post) (b.checks t).read dim = .ok ()) :
      PolicyStep b (b.setCheck t { b.checks t with floors := some rest, atCheckpoint := none })
  | insert (b : PolicyBank) (t : Nat) (post : Posting) (draft : EntryDraft) (rest : List EntryDraft)
      (running : b.sys.posts t = some post) (locked : post.locking = []) (todo : post.inserting = draft :: rest)
      (checked : (b.checks t).passed) (positive : 0 < draft.amount)
      (known : (b.sys.db.getClassification draft.dim.classification).isSome) :
      PolicyStep b { b with
        sys := { b.sys with nextEntryID := b.sys.nextEntryID + 1 }.setPost t
          (some { post with inserting := rest, written := post.written ++ [b.sys.entryRow post draft] }) }
  | commit (b : PolicyBank) (t : Nat) (post : Posting) (running : b.sys.posts t = some post)
      (posted : post.journals = [])
      (locked : post.locking = []) (inserted : post.inserting = []) :
      PolicyStep b { b with sys := (({ b.sys with db := commitEntries b.sys.db post }).dropLocks t).setPost t none }
  | rollback (b : PolicyBank) (t : Nat) (post : Posting) (running : b.sys.posts t = some post) :
      PolicyStep b { b with sys := (b.sys.dropLocks t).setPost t none }
  -- `SetPolicy` for one currency.
  | openSet (b : PolicyBank) (t : Nat) (input : AccountPolicyInput) (currencyID classificationID : Nat)
      (valid : input.validate = .ok ()) (resolved : resolvePolicyDim b.store input = .ok (currencyID, classificationID))
      (specific : currencyID ≠ 0) (unused : b.settings t = none) (other : b.sys.posts t = none)
      (unlocked : ∀ p, b.sys.locks p ≠ some t) :
      PolicyStep b (b.setSetting t (some ⟨input, currencyID, classificationID, false⟩))
  | lockSet (b : PolicyBank) (t : Nat) (c : Setting) (running : b.settings t = some c)
      (free : b.sys.lockable t c.pair) :
      PolicyStep b ({ b with sys := b.sys.takeLock t c.pair }.setSetting t (some { c with locked := true }))
  -- The sequence advances even where the upsert finds a row.
  | commitSet (b : PolicyBank) (t : Nat) (c : Setting) (row : AccountPolicyRow) (running : b.settings t = some c)
      (locked : c.locked = true) (ok : policyRow b.nextPolicyID c.input c.currencyID c.classificationID = .ok row) :
      PolicyStep b ({ b with
        sys := b.sys.dropLocks t
        tables := { b.tables with policies := upsertAccountPolicy b.tables.policies row }
        nextPolicyID := b.nextPolicyID + 1 }.setSetting t none)
  | abortSet (b : PolicyBank) (t : Nat) (c : Setting) (running : b.settings t = some c) :
      PolicyStep b ({ b with sys := b.sys.dropLocks t }.setSetting t none)

structure PolicyBank.Initial (b : PolicyBank) : Prop where
  sys : Service.Initial b.sys
  ids : (b.sys.db.classifications.map (·.id)).Nodup
  policies : (b.tables.policies.map (·.id)).Nodup
  sequence : ∀ p ∈ b.tables.policies, p.id < b.nextPolicyID
  index : (b.tables.policies.map AccountPolicyRow.columns).Nodup
  settings : ∀ t, b.settings t = none

def PolicyBank.Reachable (b : PolicyBank) : Prop := ∃ start, PolicyBank.Initial start ∧
    Run PolicyStep start b

def sideOfDim (db : LedgerTables) (dim : Dimension) : Option Side :=
  (db.getClassification dim.classification).map (·.normalSide)

def changeOf (db : LedgerTables) (dim : Dimension) (entryType : Side) (amount : Int) : Int :=
  match sideOfDim db dim with
  | some side => ledgerSignedAmount side entryType amount
  | none => 0

def balanceOf (db : LedgerTables) (dim : Dimension) : Int :=
  ((db.dimEntries dim).map fun e => changeOf db dim e.entryType e.amount).sum

end Ledger.Service
