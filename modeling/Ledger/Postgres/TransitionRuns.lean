import Ledger.Postgres.Bookings

namespace Ledger.Postgres

open Core Shared

def receiptFor (s : BookingTables) (key : GoString) : Option TransitionReceiptRow :=
  s.receipts.find? (·.idempotencyKey == key)

structure Applied (s s' : BookingTables) (op : BookingRow) (input : TransitionInput) (evt : Event)
    (event : EventRow) : Prop where
  store : ∃ updated, updateBookingTransition s op input = .ok updated ∧
    s'.store = { (setBooking s updated).store with events := s.store.events ++ [event] }
  receipts : ∃ r, s'.receipts = s.receipts ++ [r] ∧ r.idempotencyKey = input.idempotencyKey ∧
    r.eventID = event.id
  events : s'.store.events = s.store.events ++ [event]
  id : event.id = s.nextEventID
  next : s'.nextEventID = s.nextEventID + 1
  uid : evt.uid = pgToUID event.uid

inductive Transitioned (s s' : BookingTables) (input : TransitionInput) (evt : Event) : Prop
  | receipt (r : TransitionReceiptRow) (event : EventRow) (found : receiptFor s input.idempotencyKey = some r)
      (stored : s.store.getEvent r.eventID = some event) (uid : evt.uid = pgToUID event.uid) (same : s' = s)
  | status (unused : receiptFor s input.idempotencyKey = none) (pgUID : Uuid) (op : BookingRow)
      (parsed : Uuid.parse input.bookingUID = some pgUID) (booking : s.getBookingByUID pgUID = some op)
      (answered : repeatedCallback s op input = .ok (some evt)) (same : s' = s)
  | applied (unused : receiptFor s input.idempotencyKey = none) (pgUID : Uuid) (op : BookingRow)
      (parsed : Uuid.parse input.bookingUID = some pgUID)
        (booking : s.getBookingByUID pgUID = some op) (event : EventRow)
      (applied : Applied s s' op input evt event)

variable {evt : Event} {s s' : BookingTables}

theorem eventFromRow_uid {s : Store} {row : EventRow} (ok : eventFromRow s row = .ok evt) :
    evt.uid = pgToUID row.uid := by
  simp only [eventFromRow, bind_eq_ok, pure_eq_ok] at ok
  obtain ⟨_, -, _, -, _, -, rfl⟩ := ok
  rfl

variable {cls : ClassificationRow}
  {op : BookingRow} {input : TransitionInput} {event : EventRow} {key uid : GoString}
    {log : List Served} {start : BookingTables}

theorem applyTransition_ok {env : Env} (ok : applyTransition env s cls op input = .ok (s', evt)) :
    ∃ event, Applied s s' op input evt event := by
  simp only [applyTransition, bind_eq_ok, within_eq_ok, pure_eq_ok, Prod.mk.injEq] at ok
  obtain ⟨updated, moved, event, inserted, amount, -, answer, read, rfl, rfl⟩ := ok
  have id : event.id = s.nextEventID := by
    simp only [insertEvent, within_eq_ok, bind_eq_ok, pure_eq_ok] at inserted
    obtain ⟨_, -, _, -, rfl⟩ := inserted
    rfl
  exact ⟨event, ⟨updated, moved, rfl⟩, ⟨_, rfl, rfl, rfl⟩, rfl, id, rfl, eventFromRow_uid read⟩

theorem transition_ok {env : Env} (ok : transition env s input = .ok (s', evt)) :
    Transitioned s s' input evt := by
  simp only [transition, bind_eq_ok, within_eq_ok, orError_eq_ok] at ok
  obtain ⟨_, -, pgUID, parsed, op, booking, found, lookup, rest⟩ := ok
  have parsed : Uuid.parse input.bookingUID = some pgUID := by simpa [uidToPG] using parsed
  have found_ : receiptFor s input.idempotencyKey = found := by
    simp only [BookingTables.getReceipt, bind_eq_ok, pure_eq_ok] at lookup
    obtain ⟨-, -, same⟩ := lookup
    exact same
  cases found with
  | some r =>
    simp only [bind_eq_ok, pure_eq_ok, Prod.mk.injEq, ensureBookingTransitionReceiptMatches,
      orError_eq_ok] at rest
    obtain ⟨answer, ⟨_, -, _, -, _, -, _, -, event, stored, read⟩, rfl, rfl⟩ := rest
    exact .receipt r event found_ stored (eventFromRow_uid read) rfl
  | none =>
    simp only [bind_eq_ok, within_eq_ok, orError_eq_ok] at rest
    obtain ⟨cls, -, _, -, _, -, reused, answered, rest⟩ := rest
    cases reused with
    | some answer =>
      simp only [pure_eq_ok, Prod.mk.injEq] at rest
      obtain ⟨rfl, rfl⟩ := rest
      exact .status found_ pgUID op parsed booking answered rfl
    | none =>
      simp only [bind_eq_ok] at rest
      obtain ⟨_, -, done⟩ := rest
      obtain ⟨event, applied⟩ := applyTransition_ok done
      exact .applied found_ pgUID op parsed booking event applied

structure Served where
  input : TransitionInput
  event : Event
  applied : Bool

structure Aside (s s' : BookingTables) : Prop where
  receipts : s'.receipts = s.receipts
  events : ∀ id e, s.store.getEvent id = some e → ∃ e', s'.store.getEvent id =
    some e' ∧ e'.uid = e.uid
  ids : ∀ e ∈ s'.store.events, e.id < s'.nextEventID

inductive TransitionRun (allowed : BookingTables → TransitionInput → Prop) (start : BookingTables) :
    List Served → BookingTables → Prop
  | refl : TransitionRun allowed start [] start
  | transition {log : List Served} {s s' : BookingTables} {evt : Event} (env : Env) (input : TransitionInput)
      (before : TransitionRun allowed start log s) (guard : allowed s input)
        (ok : transition env s input = .ok (s', evt)) :
      TransitionRun allowed start (log ++ [⟨input, evt, s'.store.events.length != s.store.events.length⟩]) s'
  | other {log : List Served} {s s' : BookingTables} (before : TransitionRun allowed start log s) (aside : Aside s s') :
      TransitionRun allowed start log s'

structure Unmoved (s : BookingTables) : Prop where
  receipts : s.receipts = []
  ids : ∀ e ∈ s.store.events, e.id < s.nextEventID

/-- No call under a key without a receipt finds its booking already at the status it asks for, put
there by a transition. -/
def MovesOn (s : BookingTables) (input : TransitionInput) : Prop :=
  receiptFor s input.idempotencyKey = none → ∀ pgUID op, Uuid.parse input.bookingUID = some pgUID →
    s.getBookingByUID pgUID = some op → op.status ≠ input.toStatus ∨
      s.getLatestEventForBooking op.id = none

theorem MovesOn.not_answered (moves : MovesOn s input)
    (unused : receiptFor s input.idempotencyKey = none) {pgUID : Uuid}
    (parsed : Uuid.parse input.bookingUID = some pgUID)
    (booking : s.getBookingByUID pgUID = some op) :
    repeatedCallback s op input ≠ .ok (some evt) := by
  intro answered
  unfold repeatedCallback at answered
  rcases moves unused pgUID op parsed booking with elsewhere | silent
  · rw [if_pos elsewhere] at answered
    cases answered
  · rw [silent] at answered
    split at answered <;> cases answered

theorem receiptFor_append {r : TransitionReceiptRow}
    (receipts : s'.receipts = s.receipts ++ [r]) (key : GoString) :
    receiptFor s' key = (receiptFor s key).or (if r.idempotencyKey = key then some r else none) := by
  rw [receiptFor, receipts, List.find?_append, receiptFor]
  congr 1
  by_cases same : r.idempotencyKey = key <;> simp [same]

theorem Applied.getEvent_old (applied : Applied s s' op input evt event) {id : Nat} {e : EventRow}
    (stored : s.store.getEvent id = some e) :
    s'.store.getEvent id = some e := by
  rw [Store.getEvent, applied.events, List.find?_append]
  exact Option.or_of_isSome (by rw [← Store.getEvent, stored]; rfl) |>.trans stored

theorem Applied.getEvent_new (applied : Applied s s' op input evt event)
    (ids : ∀ e ∈ s.store.events, e.id < s.nextEventID) :
    s'.store.getEvent event.id = some event := by
  have unused : s.store.events.find? (·.id == event.id) = none := by
    rw [List.find?_eq_none]
    intro e member
    have below := ids e member
    rw [applied.id]
    simp only [beq_iff_eq]
    omega
  rw [Store.getEvent, applied.events, List.find?_append, unused]
  simp

def EventOf (s : BookingTables) (key uid : GoString) : Prop :=
  ∃ r event, receiptFor s key = some r ∧ s.store.getEvent r.eventID = some event ∧
    uid = pgToUID event.uid

theorem EventOf.unique {uid' : GoString} (first : EventOf s key uid) (second : EventOf s key uid') :
    uid = uid' := by
  obtain ⟨r, event, found, stored, rfl⟩ := first
  obtain ⟨r', event', found', stored', rfl⟩ := second
  rw [found, Option.some.injEq] at found'
  subst found'
  rw [stored, Option.some.injEq] at stored'
  rw [stored']

structure Lasting (s s' : BookingTables) : Prop where
  receipts : ∀ key r, receiptFor s key = some r → receiptFor s' key = some r
  events : ∀ id e, s.store.getEvent id = some e → ∃ e', s'.store.getEvent id =
    some e' ∧ e'.uid = e.uid

theorem Lasting.eventOf (lasting : Lasting s s') (stands : EventOf s key uid) :
    EventOf s' key uid := by
  obtain ⟨r, event, found, stored, rfl⟩ := stands
  obtain ⟨event', stored', same⟩ := lasting.events _ _ stored
  exact ⟨r, event', lasting.receipts _ _ found, stored', by rw [same]⟩

theorem Applied.lasting (applied : Applied s s' op input evt event) : Lasting s s' := by
  obtain ⟨r, receipts, -, -⟩ := applied.receipts
  refine ⟨fun key old found => ?_, fun id e stored => ⟨e, applied.getEvent_old stored, rfl⟩⟩
  rw [receiptFor_append receipts, found]
  rfl

theorem Aside.lasting (aside : Aside s s') : Lasting s s' := by
  refine ⟨fun key r found => ?_, aside.events⟩
  rw [receiptFor, aside.receipts]
  exact found

structure ServedInv (log : List Served) (s : BookingTables) : Prop where
  ids : ∀ e ∈ s.store.events, e.id < s.nextEventID
  recorded : ∀ a ∈ log, a.applied = true → ∃ r, receiptFor s a.input.idempotencyKey = some r
  once : ((log.filter (·.applied)).map (·.input.idempotencyKey)).Nodup

theorem ServedInv.unapplied (inv : ServedInv log s) (input : TransitionInput) (evt : Event) :
    ServedInv (log ++ [⟨input, evt, false⟩]) s where
  ids := inv.ids
  recorded a member applied := by
    rcases List.mem_append.mp member with old | new
    · exact inv.recorded a old applied
    · rw [List.mem_singleton.mp new] at applied
      cases applied
  once := by simpa [List.filter_append] using inv.once

theorem ServedInv.applied (inv : ServedInv log s)
    (unused : receiptFor s input.idempotencyKey = none)
    (done : Applied s s' op input evt event) :
    ServedInv (log ++ [⟨input, evt, true⟩]) s' := by
  obtain ⟨r, receipts, key, -⟩ := done.receipts
  refine ⟨fun e member => ?_, fun a member applied => ?_, ?_⟩
  · rw [done.events] at member
    rw [done.next]
    rcases List.mem_append.mp member with old | new
    · exact Nat.lt_succ_of_lt (inv.ids e old)
    · rw [List.mem_singleton.mp new, done.id]
      exact Nat.lt_succ_self _
  · rcases List.mem_append.mp member with old | new
    · obtain ⟨r', found⟩ := inv.recorded a old applied
      exact ⟨r', done.lasting.receipts _ _ found⟩
    · rw [List.mem_singleton.mp new]
      exact ⟨r, by rw [receiptFor_append receipts, unused, if_pos key]; rfl⟩
  · simp only [List.filter_append, List.filter_cons, List.filter_nil, if_true, List.map_append,
      List.map_cons, List.map_nil]
    rw [List.nodup_append]
    refine ⟨inv.once, by simp, fun k member k' single same => ?_⟩
    -- An earlier applied call under this key would have left a receipt.
    obtain ⟨a, inside, rfl⟩ := List.mem_map.mp member
    obtain ⟨r', found⟩ := inv.recorded a (List.mem_filter.mp inside).1 (List.mem_filter.mp inside).2
    rw [List.mem_singleton.mp single] at same
    rw [same, unused] at found
    cases found

theorem TransitionRun.servedInv {allowed : BookingTables → TransitionInput → Prop}
    (unmoved : Unmoved start)
    (run : TransitionRun allowed start log s) : ServedInv log s := by
  induction run with
  | refl => exact ⟨unmoved.ids, by simp, by simp⟩
  | @transition log s s' evt env input before guard ok ih =>
    rcases transition_ok ok with ⟨r, event, found, stored, uid, rfl⟩ | ⟨unused, pgUID, op, parsed,
      booking, answered, rfl⟩ |
      ⟨unused, pgUID, op, parsed, booking, event, applied⟩
    iterate 2 simpa using ih.unapplied input evt
    · have grew : (s'.store.events.length != s.store.events.length) = true := by simp [applied.events]
      rw [grew]
      exact ih.applied unused applied
  | other before aside ih =>
    refine ⟨aside.ids, fun a member applied => ?_, ih.once⟩
    obtain ⟨r, found⟩ := ih.recorded a member applied
    exact ⟨r, aside.lasting.receipts _ _ found⟩

theorem TransitionRun.eventOf (unmoved : Unmoved start) (run : TransitionRun MovesOn start log s) :
    ∀ a ∈ log, EventOf s a.input.idempotencyKey a.event.uid := by
  induction run with
  | refl => simp
  | @transition log s s' evt env input before guard ok ih =>
    have ids := (before.servedInv unmoved).ids
    intro a member
    rcases transition_ok ok with ⟨r, event, found, stored, uid, rfl⟩ | ⟨unused, pgUID, op, parsed,
      booking, answered, rfl⟩ |
      ⟨unused, pgUID, op, parsed, booking, event, applied⟩
    · rcases List.mem_append.mp member with old | new
      · exact ih a old
      · rw [List.mem_singleton.mp new]
        exact ⟨r, event, found, stored, uid⟩
    · exact absurd answered (guard.not_answered unused parsed booking)
    · rcases List.mem_append.mp member with old | new
      · exact applied.lasting.eventOf (ih a old)
      · rw [List.mem_singleton.mp new]
        obtain ⟨r, receipts, key, eventID⟩ := applied.receipts
        refine ⟨r, event, ?_, eventID ▸ applied.getEvent_new ids, applied.uid⟩
        rw [receiptFor_append receipts, unused, if_pos key]
        rfl
  | other before aside ih => exact fun a member => aside.lasting.eventOf (ih a member)

/-- A key never inserts a second event, in any run. In a run in which no call under a key without a
receipt is answered from the booking's current status, all successful calls under one key return the
same event. -/
theorem transition_at_most_once {start : BookingTables} (unmoved : Unmoved start) :
    (∀ log s, TransitionRun (fun _ _ => True) start log s →
      ((log.filter (·.applied)).map (·.input.idempotencyKey)).Nodup) ∧
    ∀ log s, TransitionRun MovesOn start log s → ∀ a ∈ log, ∀ b ∈ log,
      a.input.idempotencyKey = b.input.idempotencyKey → a.event.uid = b.event.uid := by
  refine ⟨fun log s run => (run.servedInv unmoved).once, fun log s run a inLog b inLog' same => ?_⟩
  have first := run.eventOf unmoved a inLog
  rw [same] at first
  exact first.unique (run.eventOf unmoved b inLog')

namespace BookingSample

def cycle : Lifecycle :=
  ⟨1, lit "new", [], .ofList [(lit "new", [lit "held"]), (lit "held", [lit "failed"]),
    (lit "failed", [lit "held"])]⟩

def tables : BookingTables := ⟨Sample.store, [(1, cycle)], [], [], 1, 1⟩

def booking : CreateBookingInput :=
  ⟨lit "wallet", 7, (Sample.uid 3).print, ⟨10, 0⟩, lit "booking", [], .empty, 0⟩

def created : BookingTables :=
  okOr tables ((createBooking (Sample.env 6) tables booking).map Prod.fst)

def move (status key : GoString) : TransitionInput :=
  ⟨(Sample.uid 6).print, status, [], .zero, .empty, 1, [], key⟩

def moved (s : BookingTables) (n : Nat) (input : TransitionInput) : BookingTables :=
  okOr s ((transition (Sample.env n) s input).map Prod.fst)

theorem unmoved : Unmoved created := ⟨by decide +kernel, by decide +kernel⟩

theorem moved_run {allowed : BookingTables → TransitionInput → Prop} {log : List Served} {n : Nat}
    {input : TransitionInput} {uid : GoString} (before : TransitionRun allowed created log s)
    (guard : allowed s input)
    (answer : (transition (Sample.env n) s input).map (·.2.uid) = .ok uid) :
    ∃ a : Served, a.input = input ∧ a.event.uid = uid ∧ TransitionRun allowed created (log ++ [a])
    (moved s n input) := by
  cases ok : transition (Sample.env n) s input with
  | error err =>
    rw [ok] at answer
    cases answer
  | ok r =>
    obtain ⟨s', evt⟩ := r
    rw [ok] at answer
    have final : moved s n input = s' := by rw [moved, ok]; rfl
    rw [final]
    have uid_ : evt.uid = uid := Except.ok.inj answer
    exact ⟨_, rfl, uid_, .transition (Sample.env n) input before guard ok⟩

def heldOnce : BookingTables := moved created 7 (move (lit "held") (lit "k1"))
def heldAgain : BookingTables := moved heldOnce 8 (move (lit "held") (lit "k2"))
def failedOnce : BookingTables := moved heldAgain 9 (move (lit "failed") (lit "k3"))

end BookingSample

theorem transition_at_most_once_repeated : ∃ a b : Served, a.input.idempotencyKey = lit "k1" ∧
    b.input.idempotencyKey = lit "k1" ∧ a.event.uid = b.event.uid := by
  have eventless : BookingSample.created.store.events = [] := by decide +kernel
  obtain ⟨a, first, -, run⟩ := @BookingSample.moved_run BookingSample.created MovesOn [] 7
    (BookingSample.move (lit "held") (lit "k1")) (Sample.uid 7).print .refl
    (fun _ _ op _ _ => .inr (by simp [BookingTables.getLatestEventForBooking, eventless]))
      (by decide +kernel)
  obtain ⟨b, second, -, run⟩ := @BookingSample.moved_run BookingSample.heldOnce MovesOn _ 8
    (BookingSample.move (lit "held") (lit "k1")) (Sample.uid 7).print run
    (fun unused => absurd unused (by decide +kernel)) (by decide +kernel)
  exact ⟨a, b, by rw [first]; rfl, by rw [second]; rfl,
    (transition_at_most_once BookingSample.unmoved).2 _ _ run a (by simp) b (by simp)
      (by rw [first, second])⟩

/-- The key `k2` is answered with the event of `k1` while the booking is held, and applied once the
booking has left that status. -/
theorem key_returns_two_events : ∃ log s, TransitionRun (fun _ _ => True) BookingSample.created log
    s ∧ ∃ a ∈ log, ∃ b ∈ log,
    a.input = b.input ∧ a.event.uid ≠ b.event.uid := by
  obtain ⟨_, -, -, run⟩ := @BookingSample.moved_run BookingSample.created (fun _ _ => True) [] 7
    (BookingSample.move (lit "held") (lit "k1")) (Sample.uid 7).print .refl
    trivial (by decide +kernel)
  obtain ⟨a, input, uid, run⟩ := @BookingSample.moved_run BookingSample.heldOnce _ _ 8
    (BookingSample.move (lit "held") (lit "k2")) (Sample.uid 7).print run trivial
    (by decide +kernel)
  obtain ⟨_, -, -, run⟩ := @BookingSample.moved_run BookingSample.heldAgain _ _ 9
    (BookingSample.move (lit "failed") (lit "k3")) (Sample.uid 9).print run trivial
    (by decide +kernel)
  obtain ⟨b, input', uid', run⟩ := @BookingSample.moved_run BookingSample.failedOnce _ _ 10
    (BookingSample.move (lit "held") (lit "k2")) (Sample.uid 10).print run trivial
    (by decide +kernel)
  refine ⟨_, _, run, a, by simp, b, by simp, input.trans input'.symm, ?_⟩
  rw [uid, uid']
  decide +kernel

/-- A call under an unused key that everything but the comparison with the current status lets pass.
-/
def movedRef (op : BookingRow) (input : TransitionInput) : GoString :=
  if input.channelRef = [] then op.channelRef else input.channelRef

def movedMetadata (op : BookingRow) (input : TransitionInput) : Metadata :=
  readBack (op.metadata.copy input.metadata)

def movedTo (op : BookingRow) (input : TransitionInput) (settled : Int) : BookingRow :=
  { op with
    status := input.toStatus
    channelRef := movedRef op input
    settledAmount := settled
    metadata := movedMetadata op input }

/-- The constraints on the booking, the event and the receipt that a transition writes. -/
structure Storable (s : BookingTables) (op : BookingRow) (input : TransitionInput) : Prop where
  status : textFits input.toStatus = true
  source : textFits input.source = true
  channelRef : textFits (movedRef op input) = true
  metadata : jsonbFits (op.metadata.copy input.metadata) = true
  amount : fitsUnits 30 (toUnits 18 input.amount) = true
  settled : fitsUnits 30 op.settledAmount = true ∧ 0 ≤ op.settledAmount
  -- A settled amount is never lowered; zero leaves it as it is.
  notLowered : input.amount.isZero = false → op.settledAmount ≤ toUnits 18 input.amount
  uniqueRef : movedRef op input ≠ [] → ∀ other ∈ s.store.bookings, other.id ≠ op.id →
    other.channelName = op.channelName → other.channelRef ≠ movedRef op input
  uniqueIdentity : depositIdentity (movedMetadata op input) ≠ none →
    ∀ other ∈ s.store.bookings, other.id ≠ op.id →
      depositIdentity other.metadata ≠ depositIdentity (movedMetadata op input)

theorem Storable.bookingUnique_moved (storable : Storable s op input) (settled : Int) :
    bookingUnique s (movedTo op input settled) = true := by
  refine List.all_eq_true.mpr fun other member => ?_
  obtain ⟨member, different⟩ := List.mem_filter.mp member
  have different : other.id ≠ op.id := by simpa [movedTo] using different
  simp only [movedTo, Bool.and_eq_true, Bool.or_eq_true, beq_iff_eq, bne_iff_ne, Bool.not_eq_true',
    Bool.and_eq_false_iff, beq_eq_false_iff_ne]
  constructor
  · by_cases none_ : movedRef op input = []
    · exact .inl none_
    · refine .inr ?_
      by_cases channel : other.channelName = op.channelName
      · exact .inr (storable.uniqueRef none_ other member different channel)
      · exact .inl channel
  · by_cases none_ : depositIdentity (movedMetadata op input) = none
    · exact .inl none_
    · exact .inr (storable.uniqueIdentity none_ other member different)

theorem Storable.updates (storable : Storable s op input) :
    ∃ settled, updateBookingTransition s op input = .ok (movedTo op input settled) := by
  obtain ⟨fits, nonneg⟩ := storable.settled
  obtain ⟨settled, stored, kept⟩ : ∃ settled,
      numericColumn (if input.amount.isZero then numericToDecimal op.settledAmount else input.amount) =
        .ok settled ∧ op.settledAmount ≤ settled := by
    cases zero : input.amount.isZero with
    | true =>
      refine ⟨op.settledAmount, ?_, le_rfl⟩
      simp [numericColumn, numericToDecimal, toUnits_ofUnits, fits]
    | false =>
      refine ⟨toUnits 18 input.amount, ?_, storable.notLowered zero⟩
      simp [numericColumn, storable.amount]
  refine ⟨settled, ?_⟩
  have text := storable.channelRef
  have unique := storable.bookingUnique_moved settled
  unfold movedRef at text
  unfold movedTo movedRef movedMetadata at unique ⊢
  simp only [updateBookingTransition, within, textParam, require, stored, storable.status,
    storable.metadata, text, unique, kept, nonneg.trans kept, ok_bind, and_self, decide_true, if_true]
  rfl

theorem bookingUIDOf_setBooking (member : op ∈ s.store.bookings) {r : BookingRow}
    (same : r.id = op.id) : ∃ uid, bookingUIDOf (setBooking s r).store op.id = .ok uid := by
  unfold bookingUIDOf
  split
  · exact ⟨_, rfl⟩
  · have inside : r ∈ (setBooking s r).store.bookings :=
      List.mem_map.mpr ⟨op, member, if_pos same.symm⟩
    have found : ((setBooking s r).store.getBooking op.id).isSome = true :=
      List.find?_isSome.mpr ⟨r, inside, by simp [same]⟩
    obtain ⟨b, found⟩ := Option.isSome_iff_exists.mp found
    exact ⟨pgToUID b.uid, bind_eq_ok.mpr ⟨b, orError_eq_ok.mpr found, rfl⟩⟩

theorem Storable.applies (storable : Storable s op input) (member : op ∈ s.store.bookings)
    {cur : CurrencyRow} (currency : s.store.currencyByIDOrErr op.currencyID = .ok cur) {env : Env}
    (unused : ∀ e ∈ s.store.events, e.uid ≠ env.uid) :
    ∃ s' evt, applyTransition env s cls op input = .ok (s', evt) := by
  obtain ⟨settled, updated⟩ := storable.updates
  have free : (s.store.events.all (·.uid != env.uid)) = true := by simpa using unused
  obtain ⟨uid, stored⟩ := bookingUIDOf_setBooking member (r := movedTo op input settled) rfl
  refine ⟨_, _, bind_eq_ok.mpr ⟨_, updated, bind_eq_ok.mpr ⟨_, within_eq_ok.mpr <|
    bind_eq_ok.mpr ⟨(), require_eq_ok.mpr storable.source,
      bind_eq_ok.mpr ⟨(), require_eq_ok.mpr free, rfl⟩⟩, bind_eq_ok.mpr ⟨toUnits 18 input.amount, ?_,
    bind_eq_ok.mpr ⟨_, bind_eq_ok.mpr ⟨cur, currency, bind_eq_ok.mpr ⟨uid, stored,
      bind_eq_ok.mpr ⟨[], rfl, rfl⟩⟩⟩, rfl⟩⟩⟩⟩⟩
  simp [numericColumn, storable.amount, within]

structure FreshCall (env : Env) (s : BookingTables) (input : TransitionInput) (op : BookingRow)
    (cls : ClassificationRow) : Prop where
  valid : input.validate = .ok ()
  booking : ∃ pgUID, uidToPG input.bookingUID = .ok pgUID ∧ s.getBookingByUID pgUID = some op
  unused : s.getReceipt input.idempotencyKey = .ok none
  classification : s.store.ledger.getClassification op.classificationID = some cls
  lifecycle : ((s.lifecycle cls.id).getD .zero).validate = .ok ()
  allowed : ((s.lifecycle cls.id).getD .zero).canTransition op.status input.toStatus = true
  precision : checkSettledPrecision s op input = .ok ()
  current : ∃ current, bookingFromRow s op = .ok current
  latest : op.status = input.toStatus → ∀ e, s.getLatestEventForBooking op.id = some e →
    ∃ latest, eventFromRow s.store e = .ok latest
  storable : Storable s op input
  uid : ∀ e ∈ s.store.events, e.uid ≠ env.uid

theorem FreshCall.applies {env : Env} (call : FreshCall env s input op cls) :
    ∃ s' evt, applyTransition env s cls op input = .ok (s', evt) := by
  obtain ⟨pgUID, -, found⟩ := call.booking
  obtain ⟨current, read⟩ := call.current
  simp only [bookingFromRow, bind_eq_ok] at read
  obtain ⟨_, -, cur, currency, -⟩ := read
  exact call.storable.applies (List.mem_of_find?_eq_some found) currency call.uid

/-- The booking was put where it is by a transition to the status that is asked for. -/
def AlreadyThere (s : BookingTables) (op : BookingRow) (input : TransitionInput) : Prop :=
  op.status = input.toStatus ∧ ∃ e, s.getLatestEventForBooking op.id = some e ∧
    e.toStatus = input.toStatus

theorem FreshCall.repeatedCallback_eq {env : Env} (call : FreshCall env s input op cls) :
    repeatedCallback s op input = .ok none ↔ ¬ AlreadyThere s op input := by
  unfold repeatedCallback
  by_cases same : op.status = input.toStatus
  · rw [if_neg (not_not.mpr same)]
    cases found : s.getLatestEventForBooking op.id with
    | none => simp [AlreadyThere, found]
    | some e =>
      obtain ⟨current, read⟩ := call.current
      obtain ⟨latest, read'⟩ := call.latest same e found
      have status : current.status = op.status := by
        simp only [bookingFromRow, bind_eq_ok, pure_eq_ok] at read
        obtain ⟨_, -, _, -, _, -, _, -, rfl⟩ := read
        rfl
      have target : latest.toStatus = e.toStatus := by
        simp only [eventFromRow, bind_eq_ok, pure_eq_ok] at read'
        obtain ⟨_, -, _, -, _, -, rfl⟩ := read'
        rfl
      simp only [read, read', ok_bind, idempotentTransitionEvent, status, target, same, ne_eq,
        not_true_eq_false, false_or]
      by_cases there : e.toStatus = input.toStatus
      · simp [AlreadyThere, found, same, there, bind_eq_ok]
      · simp [AlreadyThere, found, there]
  · simp [AlreadyThere, same]

theorem FreshCall.transition_eq {env : Env} (call : FreshCall env s input op cls) :
    ∃ s' evt, applyTransition env s cls op input = .ok (s', evt) ∧
      transition env s input = repeatedCallback s op input >>= fun reused =>
        reused.elim (.ok (s', evt)) fun evt => .ok (s, evt) := by
  obtain ⟨pgUID, parsed, found⟩ := call.booking
  obtain ⟨s', evt, applies⟩ := call.applies
  refine ⟨s', evt, applies, ?_⟩
  simp only [transition, within, call.valid, parsed, found, orError, call.unused,
    call.classification, call.lifecycle, call.precision, ok_bind]
  congr 1
  funext reused
  cases reused <;> simp [call.allowed, require, applies, pure, Except.pure]

/-- A call under a new key that every check lets pass applies its transition, unless the booking is
already there. -/
theorem fresh_transition_applied_iff {env : Env} {input : TransitionInput} {op : BookingRow}
    {cls : ClassificationRow} (call : FreshCall env s input op cls) :
    (∃ s' evt event, transition env s input = .ok (s', evt) ∧ Applied s s' op input evt event) ↔
      ¬ AlreadyThere s op input := by
  obtain ⟨s₁, evt₁, applies, peeled⟩ := call.transition_eq
  rw [← call.repeatedCallback_eq, peeled]
  constructor
  · rintro ⟨s', evt, event, ok, applied⟩
    obtain ⟨reused, answered, result⟩ := bind_eq_ok.mp ok
    cases reused with
    | none => exact answered
    | some _ =>
      obtain ⟨rfl, -⟩ := Prod.mk.inj (Except.ok.inj result)
      simpa using applied.events
  · intro fresh
    obtain ⟨event, applied⟩ := applyTransition_ok applies
    exact ⟨s₁, evt₁, event, by rw [fresh]; rfl, applied⟩

namespace BookingSample

def opening : BookingRow := (created.getBookingByUID (Sample.uid 6)).get (by decide +kernel)

def wallet : ClassificationRow := (created.store.ledger.getClassification 1).get (by decide +kernel)

def circling : BookingTables :=
  { heldOnce with lifecycles :=
    [(1, ⟨1, lit "new", [], .ofList [(lit "new", [lit "held"]), (lit "held", [lit "held"])]⟩)] }

end BookingSample

theorem fresh_transition_applied_iff_first : ∃ s' evt event,
    transition (Sample.env 7) BookingSample.created (BookingSample.move (lit "held") (lit "k1")) =
    .ok (s', evt) ∧
      Applied BookingSample.created s' BookingSample.opening
      (BookingSample.move (lit "held") (lit "k1")) evt event := by
  have silent : (BookingSample.created.getLatestEventForBooking BookingSample.opening.id).isNone =
    true := by decide +kernel
  rw [Option.isNone_iff_eq_none] at silent
  have storable : Storable BookingSample.created BookingSample.opening
      (BookingSample.move (lit "held") (lit "k1")) :=
    ⟨by decide +kernel, by decide +kernel, by decide +kernel, by decide +kernel, by decide +kernel,
      by decide +kernel, by decide +kernel, by decide +kernel, by decide +kernel⟩
  refine (fresh_transition_applied_iff (⟨by decide +kernel,
    ⟨Sample.uid 6, by decide +kernel, (Option.some_get _).symm⟩, by decide +kernel,
    (Option.some_get _).symm, by decide +kernel, by decide +kernel, by decide +kernel,
    isOk_iff.mp (by decide +kernel), fun _ e found => ?_, storable, by decide +kernel⟩ :
      FreshCall _ _ _ BookingSample.opening BookingSample.wallet)).mpr fun there => ?_
  · rw [silent] at found
    cases found
  · obtain ⟨-, e, found, -⟩ := there
    rw [silent] at found
    cases found

/-- The lifecycle lets a held booking be held again, and the key `k2` is new. The call is answered
with the event of the first one, and neither an event nor the key is recorded. -/
theorem fresh_transition_swallowed :
    (∀ cls ∈ BookingSample.circling.lifecycles, cls.2.validate = .ok () ∧
      cls.2.canTransition (lit "held") (lit "held") = true) ∧
      BookingSample.circling.getReceipt (lit "k2") = .ok none ∧
      (transition (Sample.env 8) BookingSample.circling
        (BookingSample.move (lit "held") (lit "k2"))).map
        (fun r => (r.1.store.events.length, r.1.receipts.length, r.2.uid)) =
        .ok (BookingSample.circling.store.events.length, BookingSample.circling.receipts.length,
          (Sample.uid 7).print) := by
  refine ⟨?_, by decide +kernel, by decide +kernel⟩
  intro cls member
  rw [BookingSample.circling, List.mem_singleton] at member
  subst member
  exact ⟨by decide +kernel, by decide +kernel⟩

end Ledger.Postgres
