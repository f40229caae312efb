import Ledger.Postgres.PostJournal

namespace Ledger.Postgres

open Core Shared

def validateReversalFraction (num den : Int) : Result Unit := do
  require (0 < den) ⟨.invalidInput, "core: reverse journal fraction: den must be positive, got %d"⟩
  require (0 < num ∧ num ≤ den)
    ⟨.invalidInput, "core: reverse journal fraction: num must satisfy 0 < num <= den (den=%d), got %d"⟩

structure AuthorizedJournal where
  input : JournalInput
  effectiveAt : Instant
  digest : GoString
  signature : GoString
  keyID : GoString
  status : AuthStatus

def authorize (cfg : Config) (attestor : Option Attestor) (env : Env) (s : Store)
    (input : JournalInput) :
    Result AuthorizedJournal := do
  within "postgres: authorize" (input.validate cfg.decodeQuotes env.now)
  let effectiveAt := resolveEffectiveAt env.now input.effectiveAt
  let auth ← attestJournal cfg attestor s input effectiveAt
  return ⟨input, effectiveAt, auth.digest, auth.signature, auth.keyID, auth.status⟩

def fractionText (num den : Int) : GoString := intText num ++ lit "/" ++ intText den

def reasonKey : GoString := lit "reason"
def reversalFractionKey : GoString := lit "reversal_fraction"

def reversalMetadata (reason : GoString) : Metadata := SortedMap.ofList [(reasonKey, reason)]

def fractionMetadata (reason : GoString) (num den : Int) : Metadata :=
  SortedMap.ofList [(reasonKey, reason), (reversalFractionKey, fractionText num den)]

def reversalInput (jt : JournalTypeRow) (key : GoString) (entries : List EntryInput)
    (journalUID : GoString)
    (metadata : Metadata) : JournalInput :=
  { journalTypeUID := pgToUID jt.uid
    idempotencyKey := key
    entries := entries
    metadata := metadata
    actorID := 0
    source := lit "reversal"
    reversalOfUID := journalUID
    eventUID := []
    effectiveAt := 0 }

/-- `AuthorizeReversal` on a pool store: it derives the reversal from the history as it is now, with
no look at the key. -/
def authorizeReversal (cfg : Config) (attestor : Option Attestor) (env : Env) (s : Store)
    (journalUID : GoString)
    (num den : Int) (reason key : GoString) : Result AuthorizedJournal := do
  validateReversalFraction num den
  require (key ≠ []) ⟨.invalidInput, "postgres: authorize reversal: idempotency key required"⟩
  let pgUID ← uidToPG journalUID
  let original ← orError (s.getJournalByUID pgUID)
    ⟨.notFound, "postgres: authorize reversal: journal %q"⟩
  require original.reversalOf.isNone
    ⟨.conflict, "postgres: authorize reversal: journal %q is already a reversal"⟩
  let entries := s.listJournalEntries original.id
  require (entries ≠ []) ⟨.notFound, "postgres: authorize reversal: journal %q has no entries"⟩
  let alreadyReversed ← within "postgres: authorize reversal"
    (cumulativeReversedByDimension s original entries)
  let reversedEntries ← within "postgres: authorize reversal"
    (reversalEntriesFor s entries alreadyReversed num den)
  let jt ← within "postgres: authorize reversal" (s.jtByIDOrErr original.journalTypeID)
  authorize cfg attestor env s (reversalInput jt key reversedEntries journalUID
    (fractionMetadata reason num den))

/-- The end both reversals share: what was signed before has to be what is posted now. -/
def postReversal (cfg : Config) (env : Env) (s : Store) (input : JournalInput)
    (preAuth : Option AuthorizedJournal)
    (fallback : JournalAuth) (changed : Error) : Result (Store × Journal) :=
  match preAuth with
  | none => postJournalWithQueries cfg env s input (resolveEffectiveAt env.now input.effectiveAt) fallback
  | some pre => do
    let digest ← canonicalJournalDigest cfg.hash input pre.effectiveAt
    require (digest = pre.digest) changed
    postJournalWithQueries cfg env s input pre.effectiveAt
      ⟨pre.digest, pre.signature, pre.keyID, pre.status, false⟩

def reverseJournalWithQueries (cfg : Config) (env : Env) (s : Store)
    (journalUID reason expectedKey : GoString)
    (preAuth : Option AuthorizedJournal) (fallback : JournalAuth) : Result (Store × Journal) := do
  let pgUID ← uidToPG journalUID
  let original ← orError (s.getJournalByUID pgUID)
    ⟨.notFound, "postgres: reverse journal: journal %q"⟩
  require original.reversalOf.isNone
    ⟨.conflict, "postgres: reverse journal: journal %q is already a reversal"⟩
  let existingReversals := s.listReversalsByOriginalJournalID original.id
  if existingReversals ≠ [] then
    match existingReversals.find? (·.idempotencyKey == expectedKey) with
    | some r => do
      let journal ← journalFromRow s r
      return (s, journal)
    | none => .error ⟨.conflict,
        "postgres: reverse journal: journal %q already has %d reversal(s) recorded; use ReverseJournalFraction for further partial reversals"⟩
  else do
    let entries := s.listJournalEntries original.id
    let reversedEntries ← within "postgres: reverse journal"
      (reversalEntriesFor s entries (fun _ => .zero) 1 1)
    let jt ← within "postgres: reverse journal" (s.jtByIDOrErr original.journalTypeID)
    postReversal cfg env s (reversalInput jt expectedKey reversedEntries journalUID
      (reversalMetadata reason)) preAuth
      fallback ⟨.conflict,
        "postgres: reverse journal: reversal intent changed since AuthorizeReversal ran for journal %q; retry"⟩

def reversalKey (journalUID reason : GoString) : GoString := lit "reversal:" ++
    journalUID ++ lit ":" ++ reason

def reverseJournal (cfg : Config) (mode : Mode) (env : Env) (s : Store)
    (journalUID reason : GoString) : Result (Store × Journal) :=
  let expectedKey := reversalKey journalUID reason
  match mode with
  | .tx => reverseJournalWithQueries cfg env s journalUID reason expectedKey none (.unsigned .unsignedTxMode)
  | .pool none => reverseJournalWithQueries cfg env s journalUID reason expectedKey none (.unsigned .unsignedNoAttestor)
  | .pool (some attestor) => do
    let pre ← within "postgres: reverse journal"
      (authorizeReversal cfg (some attestor) env s journalUID 1 1 reason expectedKey)
    reverseJournalWithQueries cfg env s journalUID reason expectedKey (some pre)
      (.unsigned .unsignedNoAttestor)

def reverseJournalFractionWithQueries (cfg : Config) (env : Env) (s : Store)
    (journalUID : GoString) (num den : Int)
    (reason key : GoString) (preAuth : Option AuthorizedJournal) (fallback : JournalAuth) :
    Result (Store × Journal) := do
  let pgUID ← uidToPG journalUID
  let original ← orError (s.getJournalByUID pgUID)
    ⟨.notFound, "postgres: reverse journal fraction: journal %q"⟩
  match ← within "postgres: reverse journal fraction: check idempotency"
    (s.getJournalByIdempotencyKey key) with
  | some existing => do
    require (existing.reversalOf = some original.id)
      ⟨.conflict, "postgres: reverse journal fraction: idempotency key %q already used for a different journal"⟩
    require ((existing.metadata.get reasonKey).getD [] = reason ∧
        (existing.metadata.get reversalFractionKey).getD [] = fractionText num den)
      ⟨.conflict, "postgres: reverse journal fraction: idempotency key %q payload mismatch"⟩
    let journal ← journalFromRow s existing
    return (s, journal)
  | none => do
    require original.reversalOf.isNone
      ⟨.conflict, "postgres: reverse journal fraction: journal %q is already a reversal"⟩
    let entries := s.listJournalEntries original.id
    require (entries ≠ []) ⟨.notFound, "postgres: reverse journal fraction: journal %d has no entries"⟩
    let alreadyReversed ← cumulativeReversedByDimension s original entries
    let reversedEntries ← reversalEntriesFor s entries alreadyReversed num den
    let jt ← s.jtByIDOrErr original.journalTypeID
    postReversal cfg env s (reversalInput jt key reversedEntries journalUID
      (fractionMetadata reason num den)) preAuth
      fallback ⟨.conflict,
        "postgres: reverse journal fraction: reversal intent changed since AuthorizeReversal ran (a concurrent reversal of journal %q likely landed in between); retry"⟩

def reverseJournalFraction (cfg : Config) (mode : Mode) (env : Env) (s : Store)
    (journalUID : GoString) (num den : Int)
    (reason key : GoString) : Result (Store × Journal) := do
  validateReversalFraction num den
  require (key ≠ []) ⟨.invalidInput, "postgres: reverse journal fraction: idempotency key required"⟩
  match mode with
  | .tx => reverseJournalFractionWithQueries cfg env s journalUID num den reason key none (.unsigned .unsignedTxMode)
  | .pool none =>
    reverseJournalFractionWithQueries cfg env s journalUID num den reason key none
      (.unsigned .unsignedNoAttestor)
  | .pool (some attestor) => do
    let pre ← within "postgres: reverse journal fraction"
      (authorizeReversal cfg (some attestor) env s journalUID num den reason key)
    reverseJournalFractionWithQueries cfg env s journalUID num den reason key (some pre)
      (.unsigned .unsignedNoAttestor)

end Ledger.Postgres
