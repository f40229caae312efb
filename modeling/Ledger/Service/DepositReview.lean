import Ledger.Service.DepositEvidence

namespace Ledger.Service

open Chains Core Postgres Shared

def isDepositRow (s : BookingTables) (row : BookingRow) : Bool :=
  (s.store.ledger.getClassification row.classificationID).any fun cls =>
    cls.code == depositClassificationCode && s.lifecycle cls.id == some depositLifecycle

def leavesReview (a : OnchainAct) : Bool :=
  a.before.bookings.store.bookings.any fun row => row.status == review && isDepositRow
    a.before.bookings row &&
    a.after.bookings.store.bookings.any fun row' => row'.id == row.id && row'.status != review

def statusesShown (uid : GoString) (e : Exchange PortCall PortCall.Answer) : List Status :=
  match e with
  | ⟨.createBooking _, .ok b⟩ | ⟨.getBooking _, .ok b⟩ => if b.uid = uid then [b.status] else []
  | ⟨.listBookings _, .ok (bookings, _)⟩ => (bookings.filter (·.uid == uid)).map (·.status)
  | _ => []

/-- A call that confirms or fails a booking without a human finds it as the operation has read it,
or moved on from pending to confirming. -/
def upToDate (a : OnchainAct) : Bool :=
  match a.op.move with
  | some input =>
    !(a.label.automatic && (input.toStatus == confirmed || input.toStatus == failed)) ||
      a.before.bookings.store.bookings.all fun row => Uuid.parse input.bookingUID != some row.uid ||
        (a.history.flatMap (statusesShown input.bookingUID)).all fun status =>
          row.status == status || status == pending && row.status == confirming
  | none => true

theorem mem_statusesShown {h : Answers} {b : Booking} (read : Read h b) :
    b.status ∈ h.flatMap (statusesShown b.uid) := by
  rw [List.mem_flatMap]
  rcases read with ⟨input, answer⟩ | ⟨uid, answer⟩ | ⟨filter, bookings, next, answer, listed⟩
  iterate 2 exact ⟨_, answer, by simp [statusesShown]⟩
  · refine ⟨_, answer, List.mem_map_of_mem (List.mem_filter.mpr ⟨listed, by simp⟩)⟩

variable {row row' : BookingRow} {cfg : OnchainConfig}

theorem RowMoved.status_changes {s s' : BookingTables} {input : TransitionInput}
    {op op' : BookingRow}
    (moved : RowMoved s s' input op op') (rows : DepositRows s) (member : op ∈ s.store.bookings)
    (present : row ∈ s.store.bookings)
    (present' : row' ∈ s'.store.bookings) (same : row'.id = row.id)
    (changed : row'.status ≠ row.status) :
    row = op ∧ row'.status = input.toStatus := by
  rw [moved.bookings] at present'
  obtain ⟨r, old, rfl⟩ := List.mem_map.mp present'
  by_cases isOp : r.id = op.id
  · rw [if_pos isOp] at same ⊢
    exact ⟨List.inj_on_of_nodup_map rows.ids present member
      (by rw [← same, moved.same.id]), moved.status⟩
  · rw [if_neg isOp] at same changed
    exact absurd (by rw [List.inj_on_of_nodup_map rows.ids old present same]) changed

theorem status_changes {w w' : World} {c : PortCall} {ans : c.Answer}
    (served : Serves cfg w c ans w') (rows : DepositRows w.bookings)
    (present : row ∈ w.bookings.store.bookings) (present' : row' ∈ w'.bookings.store.bookings)
    (same : row'.id = row.id)
    (changed : row'.status ≠ row.status) :
    ∃ input, c.move = some input ∧ Uuid.parse input.bookingUID = some row.uid ∧
      ∃ cls, w.bookings.store.ledger.getClassification row.classificationID = some cls ∧
        ((w.bookings.lifecycle cls.id).getD .zero).canTransition row.status input.toStatus = true := by
  -- A row that was there before is the row itself.
  have moved : ∀ r ∈ w.bookings.store.bookings, r.id = row.id → r.status ≠ row.status → False := by
    intro r old id differs
    exact differs (by rw [List.inj_on_of_nodup_map rows.ids old present id])
  have unmoved : w'.bookings = w.bookings → False := fun eq =>
    moved row' (eq ▸ present') same changed
  cases served.written with
  | nothing | counted | registered | buried | scanned | queued => exact (unmoved rfl).elim
  | created env input s' b ok =>
    rcases (createBooking_rows ok).1 with rfl | ⟨new, created⟩
    · exact (moved row' present' same changed).elim
    · rw [created.bookings] at present'
      rcases List.mem_append.mp present' with old | fresh
      · exact (moved row' old same changed).elim
      · have below := rows.next row present
        rw [← same, List.mem_singleton.mp fresh, created.id] at below
        omega
  | moved env input s' evt ok =>
    obtain ⟨op, member, uid, rfl | ⟨op', move⟩⟩ := transition_rows ok
    · exact (moved row' present' same changed).elim
    · obtain ⟨rfl, -⟩ := RowMoved.status_changes move rows member present present' same changed
      exact ⟨input, rfl, uid, move.allowed⟩
  | posted forEvent forJournal input authorized s' ok =>
    obtain ⟨op, member, uid, mid, moves, posts⟩ := transitionAndPost_rows ok
    -- The journal is linked to the rows, which keep their status.
    have midway : ∃ r ∈ mid.store.bookings, r.id = row'.id ∧ r.status = row'.status := by
      rcases posts with rfl | ⟨posted, eventUID, j, rfl, journal⟩
      · exact ⟨row', present', rfl, rfl⟩
      · obtain ⟨r, old, link, rfl⟩ := forall₂_of_mem_right journal.bookings present'
        exact ⟨r, old, rfl, rfl⟩
    obtain ⟨r, inMid, id, status⟩ := midway
    rw [← id] at same
    rw [← status] at changed
    rcases moves with rfl | ⟨op', move⟩
    · exact (moved r inMid same changed).elim
    · obtain ⟨rfl, -⟩ := RowMoved.status_changes move rows member present inMid same changed
      exact ⟨input, rfl, uid, move.allowed⟩

theorem readOpen_status {chainMoves : (Int → Chain) → (Int → Chain) → Prop} {p : OnchainPool}
    (sound : OnchainSound cfg chainMoves p)
    {a : OnchainAct} (member : a ∈ p.trace) {b : Booking} (read : ReadOpen a.history b) :
    b.status = pending ∨ b.status = confirming := by
  rcases read with isPending | isConfirming | ⟨filter, bookings, next, asked, answer, listed⟩
  · exact .inl isPending
  · exact .inr isConfirming
  · obtain ⟨w, w', served, -⟩ := answer_served sound member answer
    obtain ⟨row, -, from_, unfiltered | status⟩ := listBookings_answer served b listed
    · rw [unfiltered] at asked
      exact absurd asked (by decide)
    · simp only [bookingFromRow, bind_eq_ok, pure_eq_ok] at from_
      obtain ⟨_, -, _, -, _, -, _, -, rfl⟩ := from_
      rw [← status] at asked
      exact asked

theorem review_targets {target : Status}
    (allowed : depositLifecycle.canTransition review target = true) :
    target = confirmed ∨ target = failed := by
  have targets : depositLifecycle.targets review = [confirmed, failed] := by decide +kernel
  rw [Lifecycle.canTransition, targets, decide_eq_true_eq] at allowed
  simpa using allowed

/-- In every run in which no call closes a booking on a snapshot that has been overtaken, a deposit
leaves review only by a human's decision. -/
theorem review_left_by_human {cfg : OnchainConfig} {w : World} {p : OnchainPool} (sane : Sane cfg w)
    (run : Run (onchainSystem cfg fun _ _ => True).Step (.still w) p)
    (fresh : ∀ a ∈ p.trace, upToDate a = true) :
    ∀ a ∈ p.trace, leavesReview a = true → a.label.automatic = false := by
  intro a member leaves
  have sound := onchain_sound (fun _ => trivial) (fun _ _ _ _ _ => trivial) sane run
  obtain ⟨served, saneHere⟩ := sound.served a member
  simp only [leavesReview, List.any_eq_true, Bool.and_eq_true, beq_iff_eq, bne_iff_ne] at leaves
  obtain ⟨row, present, ⟨inReview, deposit⟩, row', present', same, left⟩ := leaves
  obtain ⟨input, move, uid, cls, classified, allowed⟩ :=
    status_changes served saneHere.bookings present present' same (by rw [inReview]; exact left)
  -- The lifecycle of the deposit leaves two ways out, and both close it.
  have target : input.toStatus = confirmed ∨ input.toStatus = failed := by
    simp only [isDepositRow, classified, Option.any_some, Bool.and_eq_true, beq_iff_eq] at deposit
    rw [deposit.2, Option.getD_some, inReview] at allowed
    exact review_targets allowed
  by_contra automatic
  rw [Bool.not_eq_false] at automatic
  obtain ⟨b, moveOf⟩ := MoveOf.ofWrites (sound.kept a member (PortCall.isWrite_of_move move)) move
  have shown := readOpen_status sound member (moveOf.closes automatic target)
  have current : row.status = b.status ∨ b.status = pending ∧ row.status = confirming := by
    have all := fresh a member
    have closes : (a.label.automatic &&
      (input.toStatus == confirmed || input.toStatus == failed)) = true := by
      simpa [automatic] using target
    simp only [upToDate, move, closes, Bool.not_true, Bool.false_or, List.all_eq_true,
      Bool.or_eq_true, bne_iff_ne, beq_iff_eq,
      Bool.and_eq_true] at all
    rcases all row present with other | each
    · exact absurd uid other
    · rw [moveOf.uid] at each
      exact each _ (mem_statusesShown moveOf.read)
  rw [inReview] at current
  rcases current with eq | ⟨-, eq⟩
  · rw [← eq] at shown
    exact absurd shown (by decide)
  · exact absurd eq (by decide)

namespace OnchainSample

def withoutLog : World := { world with chains := fun _ => ⟨10, 10, 10, [], [], .nil⟩ }

theorem withoutLog_sane : Sane config withoutLog :=
  ⟨world_sane.bookings, world_sane.currencies, world_sane.addresses⟩

def reviewed : OnchainPool :=
  launch (launch (launch (launch (.still withoutLog) 0 (.ingest 0 sighting) 5) 1 (.recheck 1 1) 20)
    2 (.recheck 1 1) 20) 3 (.recheck 1 1) 20

theorem run_reviewed : Run (onchainSystem config fun _ _ => True).Step
    (.still withoutLog) reviewed := by
  refine .trans (.trans (.trans (run_launch _ 0 (.ingest 0 sighting) 5 rfl trivial)
    (run_launch _ 1 (.recheck 1 1) 20 ?_ trivial))
    (run_launch _ 2 (.recheck 1 1) 20 ?_ trivial)) (run_launch _ 3 (.recheck 1 1) 20 ?_ trivial)
  all_goals
    repeat rw [launch_threads (by decide)]
    rfl

def approved : OnchainPool := launch reviewed 4 (.approve (uid 20).print (lit "alice")) 5

theorem run_approved : Run (onchainSystem config fun _ _ => True).Step
    (.still withoutLog) approved := by
  refine run_reviewed.trans (run_launch _ 4 (.approve (uid 20).print (lit "alice")) 5 ?_ trivial)
  unfold reviewed
  repeat rw [launch_threads (by decide)]
  rfl

def resumed : OnchainPool := Interleaving.advance answer 0 1 reviewed

theorem run_resumed : Run (onchainSystem config fun _ _ => True).Step (.still withoutLog) resumed :=
  run_reviewed.trans (Interleaving.run_advance answer
    (fun n _ _ => Serves.answered (draw n)) 0 1 reviewed)

end OnchainSample

theorem review_left_by_human_approved :
    (∃ a ∈ OnchainSample.approved.trace, leavesReview a = true) ∧
    ∀ a ∈ OnchainSample.approved.trace, leavesReview a = true → a.label.automatic = false := by
  refine ⟨List.any_eq_true.mp (by decide +kernel), ?_⟩
  refine review_left_by_human OnchainSample.withoutLog_sane OnchainSample.run_approved ?_
  exact List.all_eq_true.mp (by decide +kernel)

/-- An ingestion that had read the deposit as confirming takes it out of the review it was sent to
meanwhile, and credits it. -/
theorem review_left_by_ingestion : Sane OnchainSample.config OnchainSample.withoutLog ∧
    Run (onchainSystem OnchainSample.config fun _ _ => True).Step (.still OnchainSample.withoutLog)
    OnchainSample.resumed ∧
    ∃ a ∈ OnchainSample.resumed.trace, leavesReview a = true ∧ a.label.automatic = true ∧
      a.after.bookings.store.bookings.map (·.status) = [confirmed] := by
  refine ⟨OnchainSample.withoutLog_sane, OnchainSample.run_resumed, ?_⟩
  have found : (OnchainSample.resumed.trace.any fun a => leavesReview a && (a.label.automatic &&
      a.after.bookings.store.bookings.map (·.status) == [confirmed])) = true := by decide +kernel
  simpa only [List.any_eq_true, Bool.and_eq_true, beq_iff_eq] using found

/-- Its lifecycle has no way out of the status. -/
def isFinal (s : BookingTables) (row : BookingRow) : Bool :=
  (s.store.ledger.getClassification row.classificationID).all fun cls =>
    (((s.lifecycle cls.id).getD .zero).targets row.status).isEmpty

section

variable {w : World} {p : OnchainPool} (sane : Sane cfg w)
  (run : Run (onchainSystem cfg fun _ _ => True).Step (.still w) p)
include sane run

/-- Whatever runs beside it, what a call has left stays: the cursor does not go back, no address or
dead letter is lost, and a booking keeps its holder, its amount and its log. -/
theorem onchain_progress_lasts :
    p.trace.Pairwise (fun a b => Later (fun _ _ => True) a.after b.before) ∧
    ∀ a ∈ p.trace, Later (fun _ _ => True) a.after p.world ∧ Sane cfg p.world := by
  have sound := onchain_sound (fun _ => trivial) (fun _ _ _ _ _ => trivial) sane run
  exact ⟨sound.ordered, fun a member => ⟨sound.since a member, sound.holds⟩⟩

/-- No call of any run moves a booking out of a final status. -/
theorem onchain_final_statuses_stay {a : OnchainAct} (member : a ∈ p.trace)
    (present : row ∈ a.before.bookings.store.bookings)
    (final : isFinal a.before.bookings row = true)
    (present' : row' ∈ a.after.bookings.store.bookings) (same : row'.id = row.id) :
    row'.status = row.status := by
  have sound := onchain_sound (fun _ => trivial) (fun _ _ _ _ _ => trivial) sane run
  obtain ⟨served, here⟩ := sound.served a member
  by_contra changed
  obtain ⟨_, -, -, cls, found, allowed⟩ := status_changes served here.bookings present
    present' same changed
  rw [isFinal, found, Option.all_some, List.isEmpty_iff] at final
  simp [Lifecycle.canTransition, final] at allowed

end

theorem onchain_progress_lasts_approved :
    OnchainSample.approved.trace.Pairwise fun a b => a.after.addresses ⊆ b.before.addresses :=
  (onchain_progress_lasts OnchainSample.withoutLog_sane
    OnchainSample.run_approved).1.imp (·.addresses)

open OnchainSample in
theorem onchain_final_statuses_stay_approved : ∃ a ∈ approved.trace, ∃ row ∈
    a.before.bookings.store.bookings,
    ∃ row' ∈ a.after.bookings.store.bookings, row.status = confirmed ∧
    row'.status = row.status := by
  have found : (approved.trace.any fun a => a.before.bookings.store.bookings.any fun row =>
    isFinal a.before.bookings row &&
      row.status == confirmed && a.after.bookings.store.bookings.any (·.id == row.id)) = true := by decide +kernel
  simp only [List.any_eq_true, Bool.and_eq_true, beq_iff_eq] at found
  obtain ⟨a, member, row, present, ⟨final, status⟩, row', present', same⟩ := found
  exact ⟨a, member, row, present, row', present', status,
    onchain_final_statuses_stay withoutLog_sane run_approved member present final present' same⟩

end Ledger.Service
