import Ledger.Service.OnchainRuns

namespace Ledger.Service

open Chains Core Postgres Shared

def logOf (m : Metadata) : Option LogID := do
  let (chain, txHash, seq) ← depositIdentity m
  let chainID ← parseInt 64 chain
  let hash ← hashValue txHash
  let txLogSeq ← parseInt 32 seq
  return ⟨chainID, hash, txLogSeq⟩

def canonicalIdentity (id : LogID) : GoString × GoString × GoString :=
  (intText id.chainID, hashText id.txHash, intText id.txLogSeq)

def spelledCanonically (m : Metadata) : Bool := (logOf m).all fun id =>
    depositIdentity m == some (canonicalIdentity id)

def movedRow (s : BookingTables) (input : TransitionInput) : Option BookingRow :=
  (Uuid.parse input.bookingUID).bind s.getBookingByUID

def creditedLog (a : OnchainAct) : Option LogID :=
  match a.op with
  | .runInTx input _ =>
    if a.after.bookings.store.journals.length = a.before.bookings.store.journals.length then none
    else (movedRow a.before.bookings input).bind fun row => logOf row.metadata
  | _ => none

def automaticCredits (trace : List OnchainAct) : List LogID :=
  trace.filterMap fun a => if a.label.automatic then creditedLog a else none

structure Credited (a : OnchainAct) (row : BookingRow) (key : GoString) : Prop where
  member : row ∈ a.before.bookings.store.bookings
  unused : ∀ j ∈ a.before.bookings.store.journals, j.idempotencyKey ≠ key
  posted : ∃ j ∈ a.after.bookings.store.journals, j.idempotencyKey = key
  key : key = depositConfirmKey (pgToUID row.uid)

variable {authorized : AuthorizedJournal} {input : TransitionInput} {cfg : OnchainConfig}

theorem runInTx_posted {w w' : World} {ans : Result Unit}
    (served : Serves cfg w (.runInTx input authorized) ans w')
    (grew : w'.bookings.store.journals.length ≠ w.bookings.store.journals.length) :
    (∀ j ∈ w.bookings.store.journals, j.idempotencyKey ≠ authorized.input.idempotencyKey) ∧
      ∃ j ∈ w'.bookings.store.journals, j.idempotencyKey = authorized.input.idempotencyKey := by
  cases served.written with
  | nothing | counted | queued c t progress => exact absurd rfl grew
  | posted forEvent forJournal input authorized s ok =>
    obtain ⟨op, -, -, mid, moves, posts⟩ := transitionAndPost_rows ok
    have journals : mid.store.journals = w.bookings.store.journals := by
      rcases moves with rfl | ⟨op', moves⟩
      · rfl
      · obtain ⟨_, _, store⟩ := moves.store
        rw [store]
    rcases posts with rfl | ⟨posted, eventUID, j, rfl, journal⟩
    · exact absurd (by rw [journals]) grew
    · rw [← journals]
      refine ⟨journal.unused, j, ?_, journal.key⟩
      rw [journal.journals]
      exact List.mem_append_right _ (List.mem_singleton_self j)

section

variable {cfg : OnchainConfig} {chainMoves : (Int → Chain) → (Int → Chain) → Prop} {p : OnchainPool}
  (sound : OnchainSound cfg chainMoves p) {a : OnchainAct} (member : a ∈ p.trace)

include sound member

theorem read_uid {b : Booking} (read : Read a.history b) : ∃ u : Uuid, b.uid = pgToUID u := by
  rcases read with ⟨input, answer⟩ | ⟨uid, answer⟩ | ⟨filter, bookings, next, answer, listed⟩
  · obtain ⟨w, w', served, -⟩ := answer_served sound member answer
    obtain ⟨row, -, -, from_⟩ := createBooking_answer served
    exact ⟨row.uid, bookingFromRow_uid from_⟩
  · obtain ⟨w, w', served, -⟩ := answer_served sound member answer
    obtain ⟨row, -, from_⟩ := getBooking_answer served
    exact ⟨row.uid, bookingFromRow_uid from_⟩
  · obtain ⟨w, w', served, -⟩ := answer_served sound member answer
    obtain ⟨row, -, from_, -⟩ := listBookings_answer served b listed
    exact ⟨row.uid, bookingFromRow_uid from_⟩

theorem runInTx_key (is : a.op = .runInTx input authorized) {uid : Uuid}
    (parsed : Uuid.parse input.bookingUID = some uid) :
    authorized.input.idempotencyKey = depositConfirmKey (pgToUID uid) := by
  have writes := sound.kept a member (by rw [is]; rfl)
  rw [is] at writes
  obtain ⟨b, moveOf⟩ := MoveOf.ofWrites writes rfl
  obtain ⟨actor, signed⟩ := moveOf.signed authorized rfl
  obtain ⟨u, bookingUID⟩ := read_uid sound member moveOf.read
  obtain ⟨w, w', served, -⟩ := answer_served sound member signed
  obtain ⟨t, -, -, rendered, -⟩ := authorizeTemplate_answer served
  rw [moveOf.uid, bookingUID, pgToUID, Uuid.parse_print] at parsed
  rw [rendered.key, confirmParams, bookingUID, Option.some.inj parsed]

theorem credited_of_log {id : LogID} (credit : creditedLog a = some id) :
    ∃ row key, Credited a row key ∧ logOf row.metadata = some id := by
  have served := (sound.served a member).1
  have key : ∀ input authorized, a.op = .runInTx input authorized →
    ∀ uid, Uuid.parse input.bookingUID = some uid →
      authorized.input.idempotencyKey = depositConfirmKey (pgToUID uid) :=
    fun input authorized is uid parsed => runInTx_key sound member is parsed
  clear sound member
  obtain ⟨thread, label, history, op, ans, before, after⟩ := a
  cases op with
  | runInTx input authorized =>
    simp only [creditedLog] at credit
    split at credit
    · cases credit
    rename_i grew
    obtain ⟨row, moved, log⟩ := Option.bind_eq_some_iff.mp credit
    obtain ⟨uid, parsed, found⟩ := Option.bind_eq_some_iff.mp moved
    have rowUID : row.uid = uid := by simpa using List.find?_some found
    obtain ⟨unused, posted⟩ := runInTx_posted served grew
    refine ⟨row, _, ⟨List.mem_of_find?_eq_some found, unused, posted, ?_⟩, log⟩
    rw [rowUID]
    exact key input authorized rfl uid parsed
  | _ => cases credit

end

theorem credits_distinct {chainMoves : (Int → Chain) → (Int → Chain) → Prop} {p : OnchainPool}
    (sound : OnchainSound cfg chainMoves p)
    {a b : OnchainAct} (first : a ∈ p.trace) (second : b ∈ p.trace)
    (order : Later chainMoves a.after b.before) {id : LogID}
    (creditA : creditedLog a = some id) (creditB : creditedLog b = some id)
    (canonicalA : ∀ row ∈ a.before.bookings.store.bookings, spelledCanonically row.metadata = true)
    (canonicalB : ∀ row ∈ b.before.bookings.store.bookings, spelledCanonically row.metadata =
      true) : False := by
  obtain ⟨rowA, keyA, creditedA, logA⟩ := credited_of_log sound first creditA
  obtain ⟨rowB, keyB, creditedB, logB⟩ := credited_of_log sound second creditB
  have identity : ∀ {row : BookingRow}, spelledCanonically row.metadata = true →
    logOf row.metadata = some id →
      depositIdentity row.metadata = some (canonicalIdentity id) := by
    intro row canonical log
    rw [spelledCanonically, log] at canonical
    simpa using canonical
  have identityA := identity (canonicalA rowA creditedA.member) logA
  have identityB := identity (canonicalB rowB creditedB.member) logB
  -- The first row is still there, and the index leaves room for one.
  obtain ⟨rowA₁, inside₁, kept₁⟩ := (sound.moved a first).bookings.rows rowA creditedA.member
  obtain ⟨rowA₂, inside₂, kept₂⟩ := order.bookings.rows rowA₁ inside₁
  have sane := (sound.served b second).2
  have row : rowA₂ = rowB := by
    refine sane.bookings.identity rowB creditedB.member rowA₂ inside₂ (by simp [identityB]) ?_
    rw [kept₂.identity, kept₁.identity, identityA, identityB]
  have key : keyA = keyB := by rw [creditedA.key, creditedB.key, ← row, kept₂.uid, kept₁.uid]
  obtain ⟨j, posted, is⟩ := creditedA.posted
  exact creditedB.unused j (order.bookings.journals.subset posted) (is.trans key)

/-- One log is credited at most once without a human's decision, in every run in which each row that
names a log spells it as the watcher does. -/
theorem log_credited_at_most_once {cfg : OnchainConfig} {w : World}
    {p : OnchainPool} (sane : Sane cfg w)
    (run : Run (onchainSystem cfg fun _ _ => True).Step (.still w) p)
    (canonical : ∀ a ∈ p.trace, ∀ row ∈ a.before.bookings.store.bookings,
      spelledCanonically row.metadata = true) :
    (automaticCredits p.trace).Nodup := by
  have sound := onchain_sound (fun _ => trivial) (fun _ _ _ _ _ => trivial) sane run
  rw [automaticCredits, List.Nodup, List.pairwise_filterMap]
  refine (List.Pairwise.and_mem.mp sound.ordered).imp ?_
  rintro a b ⟨first, second, order⟩ id creditA id' creditB rfl
  have credit : ∀ {act : OnchainAct}, (if act.label.automatic then creditedLog act else none) =
    some id → creditedLog act = some id := by
    intro act is
    split at is
    · exact is
    · cases is
  exact credits_distinct sound first second order (credit creditA) (credit creditB)
    (canonical a first) (canonical b second)

namespace OnchainSample

def forged : CreateBookingInput :=
  ⟨depositClassificationCode, 7, (Sample.uid 3).print, ⟨10, 0⟩, lit "forged", lit "manual",
    .ofList [(lit "chain_id", lit "1"), (lit "tx_hash", lit "0x" ++ hash.map hexUpper),
      (lit "txlog_seq", lit "0"),
      (lit "token", tokenKey token), (lit "block_number", lit "5")], 0⟩

def ingested : OnchainPool := launch (.still world) 0 (.ingest 0 sighting) 7

def creditedTwice : OnchainPool :=
  launch (launch (launch (.still world) 0 (.append forged) 1) 1 (.ingest 0 sighting) 7) 2
    (.recheck 0 1) 20

end OnchainSample

theorem log_credited_at_most_once_ingested : automaticCredits OnchainSample.ingested.trace =
    [⟨1, OnchainSample.hash, 0⟩] ∧
    (automaticCredits OnchainSample.ingested.trace).Nodup := by
  refine ⟨by decide +kernel, log_credited_at_most_once OnchainSample.world_sane
    (OnchainSample.run_launch _ _ _ _ rfl trivial) ?_⟩
  decide +kernel

theorem log_credited_twice : Sane OnchainSample.config OnchainSample.world ∧
    Run (onchainSystem OnchainSample.config fun _ _ => True).Step (.still OnchainSample.world)
    OnchainSample.creditedTwice ∧
      ¬(automaticCredits OnchainSample.creditedTwice.trace).Nodup := by
  refine ⟨OnchainSample.world_sane, ?_, by decide +kernel⟩
  have forged : Run (onchainSystem OnchainSample.config fun _ _ => True).Step _ _ :=
    OnchainSample.run_launch (.still OnchainSample.world) 0 (.append OnchainSample.forged) 1 rfl trivial
  refine .trans (forged.trans
    (OnchainSample.run_launch _ 1 (.ingest 0 OnchainSample.sighting) 7 ?_ trivial))
    (OnchainSample.run_launch _ 2 (.recheck 0 1) 20 ?_ trivial)
  · rw [OnchainSample.launch_threads (by decide)]
    rfl
  · rw [OnchainSample.launch_threads (by decide), OnchainSample.launch_threads (by decide)]
    rfl

end Ledger.Service
