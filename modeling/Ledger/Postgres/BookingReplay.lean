import Ledger.Postgres.JournalTables
import Ledger.Postgres.TransitionRuns

namespace Ledger.Postgres

open Core Shared

structure BookingKeys (s : BookingTables) : Prop where
  ids : (s.store.bookings.map (·.id)).Nodup
  next : ∀ b ∈ s.store.bookings, b.id < s.nextBookingID
  uids : (s.store.bookings.map (·.uid)).Nodup
  classifications : (s.store.ledger.classifications.map (·.id)).Nodup

/-- `row` holds the booking of `input`: all a repetition compares but the metadata. -/
structure Booked (s : BookingTables) (input : CreateBookingInput) (row : BookingRow) : Prop where
  found : s.store.bookings.find? (·.idempotencyKey == input.idempotencyKey) = some row
  ids : (s.store.bookings.map (·.id)).Nodup
  uids : (s.store.bookings.map (·.uid)).Nodup
  classification : ∃ cls, s.store.ledger.getClassification row.classificationID = some cls ∧
    cls.code = input.classificationCode
  currency : ∃ cur, s.store.currencyByUIDOrErr input.currencyUID = .ok cur ∧ row.currencyID = cur.id
  known : ∃ cur, s.store.currencyByIDOrErr row.currencyID = .ok cur
  holder : row.accountHolder = input.accountHolder
  channel : row.channelName = input.channelName
  amount : (numericToDecimal row.amount).equal input.amount = true
  expiry : row.expiresAt = toMicros input.expiresAt
  unlinked : row.reservationID = none ∧ row.journalID = none

variable {s s' : BookingTables} {b : Booking} {row op : BookingRow} {env : Env}
  {input : CreateBookingInput}

theorem bookingFromRow_uid (ok : bookingFromRow s row = .ok b) : b.uid = pgToUID row.uid := by
  simp only [bookingFromRow, bind_eq_ok, pure_eq_ok] at ok
  obtain ⟨_, -, _, -, _, -, _, -, rfl⟩ := ok
  rfl

theorem toMicros_exact_iff (t : Instant) : toMicros t * 1000 = t ↔ t % 1000 = 0 := by
  rw [toMicros, ← Int.dvd_iff_emod_eq_zero, Int.mul_comm]
  exact ⟨fun same => ⟨_, same.symm⟩, Int.mul_ediv_cancel'⟩

theorem createBooking_of_found (valid : input.validate = .ok ())
    (found : s.getBookingByIdempotencyKey input.idempotencyKey = .ok (some row)) :
    createBooking env s input = (ensureBookingMatchesInput s row input).map (s, ·) := by
  rw [createBooking, valid, found]
  cases ensured : ensureBookingMatchesInput s row input <;>
    simp [within, ensured, Except.map, bind, Except.bind, pure, Except.pure]

theorem Booked.replay_iff (booked : Booked s input row) (valid : input.validate = .ok ())
    (key : textParam input.idempotencyKey = .ok ()) :
    (∃ b, createBooking env s input = .ok (s, b) ∧ b.uid = pgToUID row.uid) ↔
      input.expiresAt % 1000 = 0 ∧ stripVariant row.metadata = stripVariant input.metadata := by
  obtain ⟨cls, classification, code⟩ := booked.classification
  obtain ⟨cur, currency, currencyID⟩ := booked.currency
  obtain ⟨cur', known⟩ := booked.known
  have lookup : s.getBookingByIdempotencyKey input.idempotencyKey = .ok (some row) := by
    rw [BookingTables.getBookingByIdempotencyKey, key, ok_bind, booked.found]
    rfl
  -- The row is read back without an error: it has neither a reservation nor a journal.
  have read : ∃ b, bookingFromRow s row = .ok b := by
    simp only [bookingFromRow, Store.classByIDOrErr, bind_eq_ok, orError_eq_ok, pure_eq_ok,
      booked.unlinked.1, booked.unlinked.2]
    exact ⟨_, cls, classification, cur', known, [], rfl, [], rfl, rfl⟩
  obtain ⟨b, read⟩ := read
  have compared : (input.expiresAt % 1000 = 0 ∧ stripVariant row.metadata =
    stripVariant input.metadata) ↔
      (cls.code = input.classificationCode ∧ row.accountHolder = input.accountHolder ∧ row.currencyID = cur.id ∧
        row.channelName = input.channelName ∧ (numericToDecimal row.amount).equal input.amount ∧
        row.expiresAt * 1000 = input.expiresAt ∧ bookingMetadataMatches row.metadata input.metadata) := by
    rw [booked.expiry, toMicros_exact_iff]
    simp [code, booked.holder, currencyID, booked.channel, booked.amount, bookingMetadataMatches]
  rw [createBooking_of_found valid lookup, compared]
  constructor
  · rintro ⟨b', ok, -⟩
    obtain ⟨b', ensured, -⟩ := map_eq_ok.mp ok
    simp only [ensureBookingMatchesInput, classification, currency, bind_eq_ok, within_eq_ok,
      orError_eq_ok, require_eq_ok] at ensured
    obtain ⟨_, sameClass, _, sameCurrency, _, matched, -⟩ := ensured
    cases sameClass
    cases sameCurrency
    exact of_decide_eq_true matched
  · intro matched
    refine ⟨b, map_eq_ok.mpr ⟨b, ?_, rfl⟩, bookingFromRow_uid read⟩
    simp only [ensureBookingMatchesInput, bind_eq_ok, within_eq_ok, orError_eq_ok, require_eq_ok]
    exact ⟨cls, classification, cur, currency, (), decide_eq_true matched, read⟩

theorem Booked.created (keys : BookingKeys s)
    (unused : s.store.bookings.find? (·.idempotencyKey == input.idempotencyKey) = none)
    (ok : createBooking env s input = .ok (s', b)) : input.validate = .ok () ∧
    textParam input.idempotencyKey = .ok () ∧
      ∃ row, Booked s' input row ∧ row.uid = env.uid ∧ row.metadata = readBack input.metadata ∧
      b.uid = pgToUID env.uid := by
  simp only [createBooking, bind_eq_ok, within_eq_ok, BookingTables.getBookingByIdempotencyKey,
    pure_eq_ok] at ok
  obtain ⟨⟨⟩, valid, found, ⟨⟨⟩, key, rfl⟩, rest⟩ := ok
  rw [unused] at rest
  simp only [bind_eq_ok, within_eq_ok, orError_eq_ok, pure_eq_ok, Prod.mk.injEq] at rest
  obtain ⟨cls, class_, lifecycle, -, _, -, cur, currency, _, -, row, inserted,
    b, read, rfl, rfl⟩ := rest
  have uid := bookingFromRow_uid read
  simp only [insertBooking, within_eq_ok, bind_eq_ok, require_eq_ok, pure_eq_ok,
    Bool.and_eq_true] at inserted
  obtain ⟨amount, stored, _, -, _, -, _, -, _, -, _, -, _, -, _, ⟨freshUID, -⟩, rowIs⟩ := inserted
  have magnitude : validateAmountMagnitude input.amount = .ok () := by
    simp only [CreateBookingInput.validate, bind_eq_ok] at valid
    obtain ⟨⟨⟩, magnitude, -⟩ := valid
    exact magnitude
  have known : ∃ cur', s.store.currencyByIDOrErr row.currencyID = .ok cur' := by
    simp only [bookingFromRow, bind_eq_ok] at read
    obtain ⟨_, -, cur', known, -⟩ := read
    exact ⟨cur', known⟩
  refine ⟨valid, key, row, ?_, by rw [← rowIs], by rw [← rowIs], by rw [uid, ← rowIs]⟩
  subst rowIs
  exact
    { found := by simp [List.find?_append, unused]
      ids := by
        rw [List.map_append, List.nodup_append]
        refine ⟨keys.ids, by simp, ?_⟩
        intro id member id' single same
        obtain ⟨other, inside, rfl⟩ := List.mem_map.mp member
        have below := keys.next other inside
        simp only [List.map_cons, List.map_nil, List.mem_singleton] at single
        omega
      uids := by
        rw [List.map_append, List.nodup_append]
        refine ⟨keys.uids, by simp, ?_⟩
        intro u member u' single same
        obtain ⟨other, inside, rfl⟩ := List.mem_map.mp member
        have absent := List.find?_eq_none.mp (Option.isNone_iff_eq_none.mp freshUID) other inside
        simp only [List.map_cons, List.map_nil, List.mem_singleton] at single
        exact absent (by simpa using same.trans single)
      classification := by
        have code : cls.code = input.classificationCode := by simpa using List.find?_some class_
        exact ⟨cls, find_of_nodup keys.classifications (List.mem_of_find?_eq_some class_), code⟩
      currency := ⟨cur, currency, rfl⟩
      known := known
      holder := rfl
      channel := rfl
      amount := by
        rw [Decimal.equal_iff, numericColumn_ok stored, numericToDecimal, ofUnits_val,
          validateAmountMagnitude_units magnitude]
        field_simp
      expiry := rfl
      unlinked := ⟨rfl, rfl⟩ }

/-- Transitions of any bookings, with the metadata that those applied to the booking `uid` merged
in. -/
inductive Moves (uid : Uuid) (start : BookingTables) : List Metadata → BookingTables → Prop
  | refl : Moves uid start [] start
  | transition {merged : List Metadata} {s s' : BookingTables} {evt : Event} (env : Env) (input : TransitionInput)
      (before : Moves uid start merged s) (ok : transition env s input = .ok (s', evt)) :
      Moves uid start
        (if s'.store.events.length ≠ s.store.events.length ∧ Uuid.parse input.bookingUID = some uid
          then merged ++ [input.metadata]
          else merged) s'

def mergeMetadata (stored : Metadata) (merged : List Metadata) : Metadata :=
  merged.foldl (fun m added => readBack (m.copy added)) stored

structure SameBooking (row row' : BookingRow) : Prop where
  id : row'.id = row.id
  uid : row'.uid = row.uid
  classification : row'.classificationID = row.classificationID
  holder : row'.accountHolder = row.accountHolder
  currency : row'.currencyID = row.currencyID
  amount : row'.amount = row.amount
  channel : row'.channelName = row.channelName
  reservation : row'.reservationID = row.reservationID
  journal : row'.journalID = row.journalID
  key : row'.idempotencyKey = row.idempotencyKey
  expiry : row'.expiresAt = row.expiresAt

theorem updateBookingTransition_ok {input : TransitionInput}
    (ok : updateBookingTransition s op input = .ok row) :
    SameBooking op row ∧ row.metadata = readBack (op.metadata.copy input.metadata) := by
  simp only [updateBookingTransition, within_eq_ok, bind_eq_ok, pure_eq_ok] at ok
  obtain ⟨_, -, _, -, _, -, _, -, _, -, _, -, rfl⟩ := ok
  exact ⟨⟨rfl, rfl, rfl, rfl, rfl, rfl, rfl, rfl, rfl, rfl, rfl⟩, rfl⟩

theorem Booked.sameBooking {row' : BookingRow} (booked : Booked s input row)
    (same : SameBooking row row')
    (ledger : s'.store.ledger = s.store.ledger)
    (currencies : s'.store.currencies = s.store.currencies)
    (found : s'.store.bookings.find? (·.idempotencyKey == input.idempotencyKey) = some row')
    (ids : (s'.store.bookings.map (·.id)).Nodup) (uids : (s'.store.bookings.map (·.uid)).Nodup) :
    Booked s' input row' where
  found := found
  ids := ids
  uids := uids
  classification := by rw [same.classification, ledger]; exact booked.classification
  currency := by rw [same.currency, Store.currencyByUIDOrErr, currencies]; exact booked.currency
  known := by rw [same.currency, Store.currencyByIDOrErr, currencies]; exact booked.known
  holder := same.holder.trans booked.holder
  channel := same.channel.trans booked.channel
  amount := same.amount ▸ booked.amount
  expiry := same.expiry.trans booked.expiry
  unlinked := ⟨same.reservation.trans booked.unlinked.1, same.journal.trans booked.unlinked.2⟩

theorem Booked.applied {move : TransitionInput} {evt : Event} {event : EventRow} {pgUID : Uuid}
    (booked : Booked s input row)
    (booking : s.getBookingByUID pgUID = some op) (applied : Applied s s' op move evt event) :
    ∃ row', Booked s' input row' ∧ row'.uid = row.uid ∧
      row'.metadata = if pgUID = row.uid then readBack (row.metadata.copy move.metadata)
      else row.metadata := by
  obtain ⟨updated, moved, store⟩ := applied.store
  obtain ⟨same, metadata⟩ := updateBookingTransition_ok moved
  have opIn : op ∈ s.store.bookings := List.mem_of_find?_eq_some booking
  have opUID : op.uid = pgUID := by simpa using List.find?_some booking
  have rowIn : row ∈ s.store.bookings := List.mem_of_find?_eq_some booked.found
  -- The row that the update writes over is `op` itself.
  have target {b : BookingRow} (member : b ∈ s.store.bookings)
    (sameID : b.id = updated.id) : b = op := by
    have first := find_of_nodup booked.ids member
    rw [sameID, same.id, find_of_nodup booked.ids opIn] at first
    exact (Option.some.inj first).symm
  have bookings : s'.store.bookings = s.store.bookings.map fun b =>
    if b.id = updated.id then updated else b := by
    rw [store]
    rfl
  have keeps {α : Type} {f : BookingRow → α} (kept : f updated = f op) :
      s'.store.bookings.map f = s.store.bookings.map f := by
    rw [bookings, List.map_map]
    refine List.map_congr_left fun b member => ?_
    by_cases sameID : b.id = updated.id
    · rw [Function.comp_apply, if_pos sameID, target member sameID, kept]
    · rw [Function.comp_apply, if_neg sameID]
  have found : s'.store.bookings.find? (·.idempotencyKey == input.idempotencyKey) =
      some (if row.id = updated.id then updated else row) := by
    have same_ : s.store.bookings.find?
        ((·.idempotencyKey == input.idempotencyKey) ∘ fun b => if b.id = updated.id then updated
          else b) = some row := by
      rw [← booked.found]
      refine List.find?_congr fun b member => ?_
      by_cases sameID : b.id = updated.id
      · rw [Function.comp_apply, if_pos sameID, same.key, target member sameID]
      · simp only [Function.comp_apply, if_neg sameID]
    rw [bookings, List.find?_map, same_]
    rfl
  have ids : (s'.store.bookings.map (·.id)).Nodup := (keeps same.id).symm ▸ booked.ids
  have uids : (s'.store.bookings.map (·.uid)).Nodup := (keeps same.uid).symm ▸ booked.uids
  have ledger : s'.store.ledger = s.store.ledger := by rw [store]; rfl
  have currencies : s'.store.currencies = s.store.currencies := by rw [store]; rfl
  by_cases own : row.id = updated.id
  · have rowIs := target rowIn own
    rw [if_pos own] at found
    rw [rowIs, if_pos opUID.symm]
    exact ⟨updated, (rowIs ▸ booked).sameBooking same ledger currencies found ids
      uids, same.uid, metadata⟩
  · rw [if_neg own] at found
    have other : pgUID ≠ row.uid := by
      intro equal
      have first := find_of_nodup booked.uids rowIn
      rw [← equal, ← opUID, find_of_nodup booked.uids opIn] at first
      exact own (by rw [same.id, Option.some.inj first])
    rw [if_neg other]
    have unmoved : SameBooking row row := ⟨rfl, rfl, rfl, rfl, rfl, rfl, rfl, rfl, rfl, rfl, rfl⟩
    exact ⟨row, booked.sameBooking unmoved ledger currencies found ids uids, rfl, rfl⟩

theorem Booked.moves {uid : Uuid} {start : BookingTables} {merged : List Metadata}
    (booked : Booked start input row)
    (own : row.uid = uid) (run : Moves uid start merged s) :
    ∃ row', Booked s input row' ∧ row'.uid = uid ∧ row'.metadata =
    mergeMetadata row.metadata merged := by
  induction run with
  | refl => exact ⟨row, booked, own, rfl⟩
  | @transition merged s s' evt env move before ok ih =>
    obtain ⟨row', booked', own', metadata⟩ := ih
    -- Only an applied transition inserts an event.
    rcases transition_ok ok with ⟨r, event, found, stored, uid_, rfl⟩ | ⟨unused, pgUID, op, parsed,
      booking, answered, rfl⟩ |
      ⟨unused, pgUID, op, parsed, booking, event, applied⟩
    iterate 2
      rw [if_neg (fun grew => grew.1 rfl)]
      exact ⟨row', booked', own', metadata⟩
    · obtain ⟨row'', booked'', kept, metadata'⟩ := booked'.applied booking applied
      refine ⟨row'', booked'', kept.trans own', ?_⟩
      have grew : s'.store.events.length ≠ s.store.events.length := by simp [applied.events]
      rw [metadata', own', parsed, metadata]
      by_cases same : pgUID = uid
      · simp [grew, same, mergeMetadata]
      · simp [same]

/-- A booking is created under an unused key and moved by any transitions. The same input then
returns it exactly if its expiry has no digits below the microsecond and the metadata the
transitions left is, but for the five observation keys, the input's. -/
theorem createBooking_replay_iff {env : Env} (env' : Env) {s created s' : BookingTables}
    {input : CreateBookingInput} {b : Booking}
    {merged : List Metadata} (keys : BookingKeys s)
    (unused : s.store.bookings.find? (·.idempotencyKey == input.idempotencyKey) = none)
    (ok : createBooking env s input = .ok (created, b)) (run : Moves env.uid created merged s') :
    (∃ b', createBooking env' s' input = .ok (s', b') ∧ b'.uid = b.uid) ↔
    input.expiresAt % 1000 = 0 ∧
        stripVariant (mergeMetadata (readBack input.metadata) merged) = stripVariant input.metadata := by
  obtain ⟨valid, key, row, booked, own, stored, uid⟩ := Booked.created keys unused ok
  obtain ⟨row', booked', own', metadata⟩ := booked.moves own run
  rw [uid, ← own', booked'.replay_iff valid key, metadata, stored]

namespace BookingSample

theorem keys : BookingKeys tables :=
  ⟨by decide +kernel, by decide +kernel, by decide +kernel, by decide +kernel⟩

def noted : TransitionInput :=
  { move (lit "held") (lit "k1") with metadata := .ofList [(lit "note", lit "x")] }

theorem created_ok : ∃ b, createBooking (Sample.env 6) tables booking = .ok (created, b) := by
  cases ok : createBooking (Sample.env 6) tables booking with
  | error err =>
    have succeeds : (createBooking (Sample.env 6) tables booking).isOk = true := by decide +kernel
    rw [ok] at succeeds
    cases succeeds
  | ok r => exact ⟨r.2, by rw [created, ok]; rfl⟩

theorem moves_one {n : Nat} {input : TransitionInput}
    (uid : Uuid.parse input.bookingUID = some (Sample.uid 6))
    (applied : ((transition (Sample.env n) created input).map (·.1.store.events.length)) = .ok 1) :
    Moves (Sample.env 6).uid created [input.metadata] (moved created n input) := by
  cases ok : transition (Sample.env n) created input with
  | error err =>
    rw [ok] at applied
    cases applied
  | ok r =>
    obtain ⟨s', evt⟩ := r
    rw [ok] at applied
    have grew : s'.store.events.length = 1 := Except.ok.inj applied
    have before : created.store.events.length = 0 := by decide +kernel
    have step := Moves.transition (Sample.env n) input (@Moves.refl (Sample.env 6).uid created) ok
    rw [if_pos ⟨by rw [grew, before]; decide, uid⟩] at step
    rw [moved, ok]
    exact step

end BookingSample

theorem createBooking_replay_held : ∃ b, createBooking (Sample.env 8) BookingSample.heldOnce
    BookingSample.booking =
    .ok (BookingSample.heldOnce, b) := by
  obtain ⟨b, ok⟩ := BookingSample.created_ok
  have run := @BookingSample.moves_one 7 (BookingSample.move (lit "held") (lit "k1"))
    (by decide +kernel) (by decide +kernel)
  obtain ⟨b', again, -⟩ :=
    (createBooking_replay_iff (Sample.env 8) BookingSample.keys (by decide +kernel) ok run).mpr
    ⟨by decide +kernel, by decide +kernel⟩
  exact ⟨b', again⟩

/-- A note merged in by a transition, and likewise an expiry with nanosecond digits, turn the
identical `CreateBooking` into a conflict. -/
theorem createBooking_replay_conflicts : Moves (Sample.env 6).uid BookingSample.created
    [BookingSample.noted.metadata]
      (BookingSample.moved BookingSample.created 7 BookingSample.noted) ∧
    (createBooking (Sample.env 8) (BookingSample.moved BookingSample.created 7 BookingSample.noted)
        BookingSample.booking).map Prod.snd =
        .error ⟨.conflict, "postgres: create booking: idempotency key %q payload mismatch"⟩ ∧
    (let late := { BookingSample.booking with expiresAt := 1 }
     let created := okOr BookingSample.tables ((createBooking (Sample.env 6) BookingSample.tables late).map Prod.fst)
     (createBooking (Sample.env 6) BookingSample.tables late).isOk = true ∧
       (createBooking (Sample.env 8) created late).map Prod.snd =
         .error ⟨.conflict, "postgres: create booking: idempotency key %q payload mismatch"⟩) :=
  ⟨BookingSample.moves_one (by decide +kernel) (by decide +kernel), by decide +kernel, by decide +kernel⟩

end Ledger.Postgres
