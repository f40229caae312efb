import Ledger.Postgres.BookingReplay
import Ledger.Postgres.OnchainStores

namespace Ledger.Postgres

open Core Shared

structure RowKept (row row' : BookingRow) : Prop where
  id : row'.id = row.id
  uid : row'.uid = row.uid
  classification : row'.classificationID = row.classificationID
  holder : row'.accountHolder = row.accountHolder
  currency : row'.currencyID = row.currencyID
  amount : row'.amount = row.amount
  key : row'.idempotencyKey = row.idempotencyKey

theorem RowKept.refl (row : BookingRow) : RowKept row row := ⟨rfl, rfl, rfl, rfl, rfl, rfl, rfl⟩

variable {a b c : BookingRow} {m : Metadata} {s s' : BookingTables} {evt : Event}

theorem RowKept.trans (first : RowKept a b) (second : RowKept b c) : RowKept a c :=
  ⟨second.id.trans first.id, second.uid.trans first.uid, second.classification.trans
    first.classification,
    second.holder.trans first.holder, second.currency.trans first.currency,
      second.amount.trans first.amount,
    second.key.trans first.key⟩

variable {row : BookingRow} {added : Metadata} {env : Env} {input : TransitionInput}

theorem SameBooking.kept {row' : BookingRow} (same : SameBooking row row') : RowKept row row' :=
  ⟨same.id, same.uid, same.classification, same.holder, same.currency, same.amount, same.key⟩

/-- Metadata that a transition adds without touching the identity of a deposit, its token or its
block. -/
structure Besides (added : Metadata) : Prop where
  keys : ∀ e ∈ added.entries, validUtf8 e.1 = true
  chain : added.get (lit "chain_id") = none
  tx : added.get (lit "tx_hash") = none
  seq : added.get (lit "txlog_seq") = none
  token : added.get (lit "token") = none
  block : added.get (lit "block_number") = none

theorem get_merged {k : GoString} (valid : validMembers m = true)
    (keys : ∀ e ∈ added.entries, validUtf8 e.1 = true)
    (absent : added.get k = none) : (readBack (m.copy added)).get k = m.get k := by
  have each := List.all_eq_true.mp valid
  have all : ∀ e ∈ (m.copy added).entries, validUtf8 e.1 = true := by
    intro e member
    have found := SortedMap.get_eq_some_of_mem member
    rw [SortedMap.get_copy] at found
    rcases Option.or_eq_some_iff.mp found with new | ⟨-, old⟩
    · exact keys _ (SortedMap.mem_of_get_eq_some new)
    · exact (Bool.and_eq_true_iff.mp (each _ (SortedMap.mem_of_get_eq_some old))).1
  rw [get_readBack all, SortedMap.get_copy, absent, Option.none_or]
  cases found : m.get k with
  | none => rfl
  | some v =>
    have stored := (Bool.and_eq_true_iff.mp (each _ (SortedMap.mem_of_get_eq_some found))).2
    rw [Option.map_some, repair_of_valid stored]

theorem Besides.depositIdentity (besides : Besides added) (valid : validMembers m = true) :
    depositIdentity (readBack (m.copy added)) = depositIdentity m := by
  simp only [Postgres.depositIdentity, get_merged valid besides.keys besides.chain,
    get_merged valid besides.keys besides.tx,
    get_merged valid besides.keys besides.seq]

structure RowCreated (s s' : BookingTables) (input : CreateBookingInput)
    (row : BookingRow) : Prop where
  bookings : s'.store.bookings = s.store.bookings ++ [row]
  id : row.id = s.nextBookingID
  next : s'.nextBookingID = s.nextBookingID + 1
  uid : ∀ other ∈ s.store.bookings, other.uid ≠ row.uid
  unique : bookingUnique s row = true
  metadata : row.metadata = readBack input.metadata
  key : row.idempotencyKey = input.idempotencyKey
  store : ∃ bookings, s'.store = { s.store with bookings := bookings }
  lifecycles : s'.lifecycles = s.lifecycles

theorem createBooking_answered {input : CreateBookingInput} {b : Booking}
    (ok : createBooking env s input = .ok (s', b)) :
    ∃ row, bookingFromRow s' row = .ok b ∧ row.idempotencyKey = input.idempotencyKey ∧
      ((s' = s ∧ row ∈ s.store.bookings ∧ bookingMetadataMatches row.metadata input.metadata = true ∧
          ∃ cls, s.store.ledger.getClassification row.classificationID = some cls ∧ cls.code =
          input.classificationCode) ∨
        (RowCreated s s' input row ∧
          ∃ cls ∈ s.store.ledger.classifications, cls.code = input.classificationCode ∧
          row.classificationID = cls.id)) := by
  simp only [createBooking, bind_eq_ok, within_eq_ok, BookingTables.getBookingByIdempotencyKey,
    pure_eq_ok] at ok
  obtain ⟨⟨⟩, -, found, ⟨⟨⟩, -, rfl⟩, rest⟩ := ok
  cases lookup : s.store.bookings.find? (·.idempotencyKey == input.idempotencyKey) with
  | some existing =>
    rw [lookup] at rest
    simp only [bind_eq_ok, pure_eq_ok, Prod.mk.injEq, ensureBookingMatchesInput, orError_eq_ok,
      require_eq_ok, decide_eq_true_eq] at rest
    obtain ⟨booking, ⟨cls, class_, _, -, _, ⟨code, -, -, -, -, -, matching⟩, read⟩, rfl, rfl⟩ := rest
    exact ⟨existing, read, by simpa using List.find?_some lookup,
      .inl ⟨rfl, List.mem_of_find?_eq_some lookup, matching, cls, class_, code⟩⟩
  | none =>
    rw [lookup] at rest
    simp only [bind_eq_ok, within_eq_ok, orError_eq_ok, pure_eq_ok, Prod.mk.injEq] at rest
    obtain ⟨cls, named, lifecycle, -, _, -, cur, -, _, -, row, inserted, b, read, rfl, rfl⟩ := rest
    simp only [insertBooking, within_eq_ok, bind_eq_ok, require_eq_ok, pure_eq_ok,
      Bool.and_eq_true] at inserted
    obtain ⟨amount, -, _, -, _, -, _, -, _, -, _, -, _, -, _, ⟨freshUID, unique⟩, rowIs⟩ := inserted
    have uid : ∀ other ∈ s.store.bookings, other.uid ≠ row.uid := by
      intro other inside same
      have absent := List.find?_eq_none.mp (Option.isNone_iff_eq_none.mp freshUID) other inside
      rw [← rowIs] at same
      exact absent (by simpa using same)
    have key : row.idempotencyKey = input.idempotencyKey := by rw [← rowIs]
    refine ⟨row, read, key, .inr ⟨⟨rfl, ?_, rfl, uid, rowIs ▸ unique, ?_, key, ⟨_, rfl⟩, rfl⟩, cls,
      List.mem_of_find?_eq_some named, ?_, ?_⟩⟩
    · rw [← rowIs]
    · rw [← rowIs]
    · simpa using List.find?_some named
    · rw [← rowIs]

theorem createBooking_rows {input : CreateBookingInput} {b : Booking}
    (ok : createBooking env s input = .ok (s', b)) :
    (s' = s ∨ ∃ row, RowCreated s s' input row) ∧
      ∃ row ∈ s'.store.bookings, row.idempotencyKey = input.idempotencyKey ∧
      bookingFromRow s' row = .ok b := by
  obtain ⟨row, read, key, ⟨rfl, member, -⟩ | ⟨created, -⟩⟩ := createBooking_answered ok
  · exact ⟨.inl rfl, row, member, key, read⟩
  · refine ⟨.inr ⟨row, created⟩, row, ?_, key, read⟩
    rw [created.bookings]
    exact List.mem_append_right _ (List.mem_singleton_self row)

structure RowMoved (s s' : BookingTables) (input : TransitionInput)
    (op op' : BookingRow) : Prop where
  same : SameBooking op op'
  status : op'.status = input.toStatus
  metadata : op'.metadata = readBack (op.metadata.copy input.metadata)
  allowed : ∃ cls, s.store.ledger.getClassification op.classificationID = some cls ∧
    ((s.lifecycle cls.id).getD .zero).canTransition op.status input.toStatus = true
  bookings : s'.store.bookings = s.store.bookings.map fun b => if b.id = op.id then op' else b
  next : s'.nextBookingID = s.nextBookingID
  store : ∃ events bookings, s'.store = { s.store with events := events, bookings := bookings }
  lifecycles : s'.lifecycles = s.lifecycles

theorem transition_effect (ok : transition env s input = .ok (s', evt)) :
    ∃ op ∈ s.store.bookings, Uuid.parse input.bookingUID = some op.uid ∧
      ((s' = s ∧ ((∃ r ∈ s.receipts, r.idempotencyKey = input.idempotencyKey) ∨
        op.status = input.toStatus)) ∨
        ∃ op', RowMoved s s' input op op' ∧ op'.channelRef =
        (if input.channelRef = [] then op.channelRef else input.channelRef) ∧
          ∃ r, s'.receipts = s.receipts ++ [r] ∧ r.idempotencyKey = input.idempotencyKey) := by
  simp only [transition, bind_eq_ok, within_eq_ok, orError_eq_ok, BookingTables.getReceipt,
    pure_eq_ok] at ok
  obtain ⟨_, -, pgUID, parsed, op, booking, receipt, ⟨_, -, lookup⟩, rest⟩ := ok
  have uid : op.uid = pgUID := by simpa using List.find?_some booking
  have parsed : Uuid.parse input.bookingUID = some op.uid := by
    rw [uid]; simpa [uidToPG] using parsed
  refine ⟨op, List.mem_of_find?_eq_some booking, parsed, ?_⟩
  cases receipt with
  | some r =>
    simp only [bind_eq_ok, pure_eq_ok, Prod.mk.injEq] at rest
    obtain ⟨answer, -, rfl, -⟩ := rest
    exact .inl ⟨rfl, .inl ⟨r, List.mem_of_find?_eq_some lookup, by simpa using List.find?_some lookup⟩⟩
  | none =>
    simp only [bind_eq_ok, within_eq_ok, orError_eq_ok] at rest
    obtain ⟨cls, class_, _, -, _, -, reused, repeated, rest⟩ := rest
    cases reused with
    | some answer =>
      simp only [pure_eq_ok, Prod.mk.injEq] at rest
      refine .inl ⟨rest.1.symm, .inr ?_⟩
      by_contra differs
      rw [repeatedCallback, if_pos differs] at repeated
      cases repeated
    | none =>
      simp only [bind_eq_ok, require_eq_ok, applyTransition, within_eq_ok, pure_eq_ok, Prod.mk.injEq] at rest
      obtain ⟨_, allowed, op', updated, event, -, amount, -, answer, -, rfl, -⟩ := rest
      obtain ⟨same, metadata⟩ := updateBookingTransition_ok updated
      have written : op'.status = input.toStatus ∧
          op'.channelRef = if input.channelRef = [] then op.channelRef else input.channelRef := by
        simp only [updateBookingTransition, within_eq_ok, bind_eq_ok, pure_eq_ok] at updated
        obtain ⟨_, -, _, -, _, -, _, -, _, -, _, -, rfl⟩ := updated
        exact ⟨rfl, rfl⟩
      refine .inr ⟨op', ⟨same, written.1, metadata, ⟨cls, class_, by simpa using allowed⟩, ?_, rfl,
        ⟨_, _, rfl⟩, rfl⟩, written.2, _, rfl, rfl⟩
      simp only [setBooking, same.id]

theorem transition_rows (ok : transition env s input = .ok (s', evt)) :
    ∃ op ∈ s.store.bookings, Uuid.parse input.bookingUID = some op.uid ∧
    (s' = s ∨ ∃ op', RowMoved s s' input op op') := by
  obtain ⟨op, member, parsed, ⟨same, -⟩ | ⟨op', moved, -⟩⟩ := transition_effect ok
  · exact ⟨op, member, parsed, .inl same⟩
  · exact ⟨op, member, parsed, .inr ⟨op', moved⟩⟩

theorem link_bookings {s s' : Store} {event : EventRow} {journalID : Nat}
    (linked : linkJournalToEventAndBooking s event journalID = .ok s') :
    List.Forall₂ (fun b b' => ∃ j, b' = { b with journalID := j }) s.bookings s'.bookings := by
  have unchanged : ∀ l : List BookingRow, List.Forall₂
    (fun b b' => ∃ j, b' = { b with journalID := j }) l l :=
    fun l => List.forall₂_same.mpr fun b _ => ⟨b.journalID, rfl⟩
  simp only [linkJournalToEventAndBooking, bind_eq_ok, orError_eq_ok, require_eq_ok,
    decide_eq_true_eq] at linked
  obtain ⟨current, -, -, -, rest⟩ := linked
  split at rest
  · cases pure_eq_ok.mp rest
    exact unchanged _
  · simp only [bind_eq_ok, orError_eq_ok, require_eq_ok, pure_eq_ok] at rest
    obtain ⟨booking, -, -, -, rfl⟩ := rest
    rw [List.forall₂_map_right_iff, List.forall₂_same]
    intro b _
    split
    · exact ⟨some journalID, rfl⟩
    · exact ⟨b.journalID, rfl⟩

structure JournalPosted (s s' : Store) (input : JournalInput) (row : JournalRow) : Prop where
  journals : s'.journals = s.journals ++ [row]
  key : row.idempotencyKey = input.idempotencyKey
  unused : ∀ j ∈ s.journals, j.idempotencyKey ≠ input.idempotencyKey
  bookings : List.Forall₂ (fun b b' => ∃ j, b' = { b with journalID := j }) s.bookings s'.bookings
  classifications : s'.ledger.classifications = s.ledger.classifications
  currencies : s'.currencies = s.currencies

theorem postJournalWithQueries_rows {cfg : Config} {s s' : Store} {input : JournalInput}
    {effectiveAt : Instant} {auth : JournalAuth}
    {j : Journal} (ok : postJournalWithQueries cfg env s input effectiveAt auth = .ok (s', j)) :
    s' = s ∨ ∃ row, JournalPosted s s' input row := by
  have bookings : s' = s ∨ List.Forall₂ (fun b b' => ∃ j, b' = { b with journalID := j })
    s.bookings s'.bookings := by
    simp only [postJournalWithQueries, bind_eq_ok, within_eq_ok] at ok
    obtain ⟨_, -, found, -, rest⟩ := ok
    cases found with
    | some existing =>
      simp only [bind_eq_ok, pure_eq_ok, Prod.mk.injEq] at rest
      obtain ⟨_, -, rfl, -⟩ := rest
      exact .inl rfl
    | none =>
      simp only [bind_eq_ok, pure_eq_ok, Prod.mk.injEq, writeJournal] at rest
      obtain ⟨g, -, ⟨posted, row⟩, ⟨row', -, rows, -, _, -, written⟩, _, -, rfl, -⟩ := rest
      split at written
      · simp only [pure_eq_ok, Prod.mk.injEq] at written
        obtain ⟨rfl, -⟩ := written
        exact .inr (List.forall₂_same.mpr fun b _ => ⟨b.journalID, rfl⟩)
      · simp only [bind_eq_ok, pure_eq_ok, Prod.mk.injEq] at written
        obtain ⟨linked, link, rfl, -⟩ := written
        exact .inr (by simpa only [appendJournal] using link_bookings link)
  obtain ⟨-, ⟨_, -, -, same⟩ | ⟨g, row, rows, fresh, -⟩⟩ := postJournalWithQueries_ok ok
  · exact .inl same
  · rcases bookings with same | bookings
    · exact .inl same
    · refine .inr ⟨row, fresh.journals_eq, fresh.row_key, fresh.unused, bookings, ?_, ?_⟩
      · exact (fresh.catalog_eq).2.1
      · exact (fresh.catalog_eq).1

theorem transitionAndPost_rows {cfg : Config} {forEvent forJournal : Env}
    {authorized : AuthorizedJournal}
    (ok : transitionAndPost cfg forEvent forJournal s input authorized = .ok s') :
    ∃ op ∈ s.store.bookings, Uuid.parse input.bookingUID = some op.uid ∧ ∃ moved,
    (moved = s ∨ ∃ op', RowMoved s moved input op op') ∧
        (s' = moved ∨ ∃ posted eventUID row, s' = { moved with store := posted } ∧
          JournalPosted moved.store posted { authorized.input with eventUID := eventUID } row) := by
  simp only [transitionAndPost, bind_eq_ok, pure_eq_ok] at ok
  obtain ⟨⟨moved, evt⟩, step, ⟨posted, j⟩, post, rfl⟩ := ok
  obtain ⟨op, member, uid, rows⟩ := transition_rows step
  refine ⟨op, member, uid, moved, rows, ?_⟩
  simp only [postAuthorized, bind_eq_ok] at post
  obtain ⟨_, -, _, -, post⟩ := post
  rcases postJournalWithQueries_rows post with same | ⟨row, journal⟩
  · exact .inl (by rw [same])
  · exact .inr ⟨posted, evt.uid, row, rfl, journal⟩

structure DepositRows (s : BookingTables) : Prop where
  ids : (s.store.bookings.map (·.id)).Nodup
  next : ∀ row ∈ s.store.bookings, row.id < s.nextBookingID
  uids : (s.store.bookings.map (·.uid)).Nodup
  valid : ∀ row ∈ s.store.bookings, validMembers row.metadata = true
  identity : ∀ row ∈ s.store.bookings, ∀ row' ∈ s.store.bookings,
    depositIdentity row.metadata ≠ none →
    depositIdentity row'.metadata = depositIdentity row.metadata → row' = row

structure DepositKept (row row' : BookingRow) : Prop extends RowKept row row' where
  identity : depositIdentity row'.metadata = depositIdentity row.metadata
  token : row'.metadata.get (lit "token") = row.metadata.get (lit "token")
  block : row'.metadata.get (lit "block_number") = row.metadata.get (lit "block_number")

theorem DepositKept.refl (row : BookingRow) : DepositKept row row := ⟨.refl row, rfl, rfl, rfl⟩

theorem DepositKept.trans (first : DepositKept a b) (second : DepositKept b c) : DepositKept a c :=
  ⟨first.toRowKept.trans second.toRowKept, second.identity.trans first.identity,
    second.token.trans first.token, second.block.trans first.block⟩

structure Lasts (s s' : BookingTables) : Prop where
  rows : ∀ row ∈ s.store.bookings, ∃ row' ∈ s'.store.bookings, DepositKept row row'
  journals : s.store.journals <+: s'.store.journals
  classifications : s'.store.ledger.classifications = s.store.ledger.classifications
  currencies : s'.store.currencies = s.store.currencies
  lifecycles : s'.lifecycles = s.lifecycles

theorem Lasts.refl (s : BookingTables) : Lasts s s :=
  ⟨fun row member => ⟨row, member, .refl row⟩, List.prefix_refl _, rfl, rfl, rfl⟩

theorem Lasts.trans {a b c : BookingTables} (first : Lasts a b) (second : Lasts b c) :
    Lasts a c where
  rows row member := by
    obtain ⟨row', member', kept⟩ := first.rows row member
    obtain ⟨row'', member'', kept'⟩ := second.rows row' member'
    exact ⟨row'', member'', kept.trans kept'⟩
  journals := first.journals.trans second.journals
  classifications := second.classifications.trans first.classifications
  currencies := second.currencies.trans first.currencies
  lifecycles := second.lifecycles.trans first.lifecycles

theorem RowCreated.keeps {input : CreateBookingInput} (created : RowCreated s s' input row)
    (rows : DepositRows s) :
    DepositRows s' ∧ Lasts s s' := by
  have fresh : ∀ other ∈ s.store.bookings, other.id ≠ row.id := by
    intro other member same
    have := rows.next other member
    rw [same, created.id] at this
    omega
  -- The index compares the new row with every other one.
  have distinct : ∀ other ∈ s.store.bookings, depositIdentity row.metadata ≠ none →
      depositIdentity other.metadata ≠ depositIdentity row.metadata := by
    intro other member named
    have unique := List.all_eq_true.mp created.unique other
      (List.mem_filter.mpr ⟨member, by simpa using fresh other member⟩)
    simp only [Bool.and_eq_true, Bool.or_eq_true, beq_iff_eq, bne_iff_ne] at unique
    exact unique.2.resolve_left named
  have members : ∀ r, r ∈ s'.store.bookings ↔ r ∈ s.store.bookings ∨ r = row := by
    intro r
    rw [created.bookings, List.mem_append, List.mem_singleton]
  constructor
  · refine ⟨?_, ?_, ?_, ?_, ?_⟩
    · rw [created.bookings, List.map_append, List.map_singleton, ← List.concat_eq_append]
      refine rows.ids.concat fun member => ?_
      obtain ⟨other, inside, same⟩ := List.mem_map.mp member
      exact fresh other inside same
    · intro r member
      rw [created.next]
      rcases (members r).mp member with old | rfl
      · have := rows.next r old
        omega
      · rw [created.id]
        omega
    · rw [created.bookings, List.map_append, List.map_singleton, ← List.concat_eq_append]
      refine rows.uids.concat fun member => ?_
      obtain ⟨other, inside, same⟩ := List.mem_map.mp member
      exact created.uid other inside same
    · intro r member
      rcases (members r).mp member with old | rfl
      · exact rows.valid r old
      · rw [created.metadata]
        exact validMembers_readBack _
    · intro r member r' member' named same
      rcases (members r).mp member with old | rfl <;> rcases (members r').mp member' with old' | rfl
      · exact rows.identity r old r' old' named same
      · exact absurd same.symm (distinct r old (same ▸ named))
      · exact absurd same (distinct r' old' named)
      · rfl
  · obtain ⟨_, store⟩ := created.store
    refine ⟨fun r member => ⟨r, (members r).mpr (.inl member), .refl r⟩, ?_, ?_, ?_, created.lifecycles⟩
    all_goals rw [store]

theorem RowMoved.keeps {op op' : BookingRow} (moved : RowMoved s s' input op op')
    (rows : DepositRows s)
    (member : op ∈ s.store.bookings) (besides : Besides input.metadata) :
    DepositRows s' ∧ Lasts s s' := by
  have kept : DepositKept op op' := by
    refine ⟨moved.same.kept, ?_, ?_, ?_⟩ <;> rw [moved.metadata]
    · exact besides.depositIdentity (rows.valid op member)
    · exact get_merged (rows.valid op member) besides.keys besides.token
    · exact get_merged (rows.valid op member) besides.keys besides.block
  -- Each row is the one of its id before, moved or not.
  have image : ∀ r' ∈ s'.store.bookings, ∃ r ∈ s.store.bookings, r' =
    (if r.id = op.id then op' else r) ∧ DepositKept r r' ∧
      validMembers r'.metadata = true := by
    intro r' inside
    rw [moved.bookings] at inside
    obtain ⟨r, old, rfl⟩ := List.mem_map.mp inside
    refine ⟨r, old, rfl, ?_⟩
    split
    · rename_i same
      rw [List.inj_on_of_nodup_map rows.ids old member same]
      exact ⟨kept, by rw [moved.metadata]; exact validMembers_readBack _⟩
    · exact ⟨.refl r, rows.valid r old⟩
  have column : ∀ {κ : Type} (f : BookingRow → κ), f op' = f op → s'.store.bookings.map f =
    s.store.bookings.map f := by
    intro κ f same
    rw [moved.bookings, List.map_map]
    refine List.map_congr_left fun r old => ?_
    simp only [Function.comp_apply]
    split
    · rename_i is
      rw [same, List.inj_on_of_nodup_map rows.ids old member is]
    · rfl
  constructor
  · refine ⟨?_, ?_, ?_, fun r' inside => ?_, ?_⟩
    · rw [column (·.id) moved.same.id]
      exact rows.ids
    · intro r' inside
      obtain ⟨r, old, -, kept, -⟩ := image r' inside
      rw [kept.id, moved.next]
      exact rows.next r old
    · rw [column (·.uid) moved.same.uid]
      exact rows.uids
    · obtain ⟨_, _, _, _, valid⟩ := image r' inside
      exact valid
    · intro a inA b inB named same
      obtain ⟨a₀, oldA, imageA, keptA, -⟩ := image a inA
      obtain ⟨b₀, oldB, imageB, keptB, -⟩ := image b inB
      rw [imageA, imageB, rows.identity a₀ oldA b₀ oldB (keptA.identity ▸ named)
        (by rw [← keptA.identity, ← keptB.identity, same])]
  · obtain ⟨_, _, store⟩ := moved.store
    refine ⟨fun r old => ?_, ?_, ?_, ?_, moved.lifecycles⟩
    · have inside : (if r.id = op.id then op' else r) ∈ s'.store.bookings := by
        rw [moved.bookings]
        exact List.mem_map_of_mem (f := fun b => if b.id = op.id then op' else b) old
      obtain ⟨r₀, old₀, is, kept, -⟩ := image _ inside
      have id : r₀.id = r.id := by
        rw [← kept.id]
        split
        · rename_i is
          rw [moved.same.id, is]
        · rfl
      rw [List.inj_on_of_nodup_map rows.ids old₀ old id] at kept
      exact ⟨_, inside, kept⟩
    all_goals rw [store]

theorem JournalPosted.keeps {posted : Store} {input : JournalInput} {row : JournalRow}
    (journal : JournalPosted s.store posted input row) (rows : DepositRows s) :
    DepositRows { s with store := posted } ∧ Lasts s { s with store := posted } := by
  have image : ∀ b' ∈ posted.bookings, ∃ b ∈ s.store.bookings, ∃ j, b' =
    { b with journalID := j } :=
    fun b' inside => forall₂_of_mem_right journal.bookings inside
  have column : ∀ {κ : Type} (f : BookingRow → κ), (∀ b j, f { b with journalID := j } = f b) →
      posted.bookings.map f = s.store.bookings.map f := by
    intro κ f same
    refine (forall₂_map_eq journal.bookings ?_).symm
    rintro b - _ ⟨j, rfl⟩
    exact (same b j).symm
  constructor
  · refine ⟨?_, ?_, ?_, ?_, ?_⟩
    · rw [column (·.id) fun _ _ => rfl]
      exact rows.ids
    · intro b' inside
      obtain ⟨b, old, j, rfl⟩ := image b' inside
      exact rows.next b old
    · rw [column (·.uid) fun _ _ => rfl]
      exact rows.uids
    · intro b' inside
      obtain ⟨b, old, j, rfl⟩ := image b' inside
      exact rows.valid b old
    · intro a inA b inB named same
      obtain ⟨a₀, oldA, j, is⟩ := image a inA
      obtain ⟨b₀, oldB, j', is'⟩ := image b inB
      have ids : (posted.bookings.map (·.id)).Nodup := by
        rw [column (·.id) fun _ _ => rfl]
        exact rows.ids
      refine List.inj_on_of_nodup_map ids inB inA ?_
      rw [is, is'] at same ⊢
      rw [is] at named
      exact congrArg (·.id) (rows.identity a₀ oldA b₀ oldB named same)
  · refine ⟨fun b old => ?_, ?_, journal.classifications, journal.currencies, rfl⟩
    · obtain ⟨b', inside, j, rfl⟩ := forall₂_of_mem_right journal.bookings.flip old
      exact ⟨_, inside, ⟨⟨rfl, rfl, rfl, rfl, rfl, rfl, rfl⟩, rfl, rfl, rfl⟩⟩
    · exact ⟨[row], journal.journals.symm⟩

end Ledger.Postgres
