import Ledger.Postgres.BookingRows
import Ledger.Postgres.PendingSpec
import Ledger.Service.OnchainCalls

namespace Ledger.Service

open Chains Core Postgres Shared

def Read (h : Answers) (b : Booking) : Prop :=
  (∃ input, ⟨.createBooking input, .ok b⟩ ∈ h) ∨ (∃ uid, ⟨.getBooking uid, .ok b⟩ ∈ h) ∨
    ∃ filter bookings next, ⟨.listBookings filter, .ok (bookings, next)⟩ ∈ h ∧ b ∈ bookings

def ReadOpen (h : Answers) (b : Booking) : Prop :=
  b.status = pending ∨ b.status = confirming ∨ ∃ filter bookings next,
    (filter.status = pending ∨ filter.status = confirming) ∧
    ⟨.listBookings filter, .ok (bookings, next)⟩ ∈ h ∧ b ∈ bookings

def PortCall.move : PortCall → Option TransitionInput
  | .transition input | .runInTx input _ => some input
  | _ => none

def identityKeys : List GoString :=
  [lit "chain_id", lit "tx_hash", lit "txlog_seq", lit "token", lit "block_number"]

theorem besides_ofList {pairs : List (GoString × GoString)} (keys : List GoString)
    (are : pairs.map Prod.fst = keys)
    (other : ∀ k ∈ keys, validUtf8 k = true ∧ k ∉ identityKeys) : Besides (.ofList pairs) := by
  have each : ∀ e ∈ (SortedMap.ofList pairs).entries, e.1 ∈ keys := by
    intro e member
    rw [← are]
    exact List.mem_map_of_mem (SortedMap.mem_ofList member)
  have absent : ∀ k ∈ identityKeys, (SortedMap.ofList pairs).get k = none := by
    intro k named
    cases found : (SortedMap.ofList pairs).get k with
    | none => rfl
    | some v => exact absurd named (other k (each _ (SortedMap.mem_of_get_eq_some found))).2
  refine ⟨fun e member => (other _ (each e member)).1, ?_, ?_, ?_, ?_, ?_⟩
  all_goals exact absent _ (by simp [identityKeys])

theorem besides_empty : Besides .empty := show Besides (.ofList []) from besides_ofList [] rfl nofun

theorem besides_reviewReason (reason : GoString) :
    Besides (.ofList [(lit "review_reason", reason)]) :=
  besides_ofList [lit "review_reason"] rfl (by decide)

theorem besides_approvedBy (actor : GoString) : Besides (approvedBy actor) := by
  unfold approvedBy
  split
  · exact besides_empty
  · exact besides_ofList [lit "approved_by"] rfl (by decide)

theorem besides_rejectMetadata (actor reason : GoString) :
    Besides (rejectMetadata actor reason) := by
  unfold rejectMetadata
  split
  · exact besides_ofList [lit "reject_reason"] rfl (by decide)
  · exact besides_ofList [lit "reject_reason", lit "rejected_by"] rfl (by decide)

/-- What is known of a transition before it is served: whose booking it moves, that it leaves the
identity of the deposit alone, what its journal was signed for and, unless a human decided, that it
closes only what was read open. -/
structure MoveOf (automatic : Bool) (h : Answers) (b : Booking) (c : PortCall)
    (input : TransitionInput) : Prop where
  read : Read h b
  uid : input.bookingUID = b.uid
  besides : Besides input.metadata
  signed : ∀ authorized, c = .runInTx input authorized →
    ∃ actor, ⟨.authorizeTemplate depositConfirmTemplate (confirmParams b actor), .ok authorized⟩ ∈ h
  closes : automatic = true → input.toStatus = confirmed ∨ input.toStatus = failed → ReadOpen h b

variable {b : Booking} {h : Answers} {c : PortCall} {channelRef : GoString}
  {input : TransitionInput} {cfg : OnchainConfig}

theorem MoveOf.ofCredits {actor : GoString} (credits : Credits b channelRef actor h c)
    (move : c.move = some input) (automatic : Bool)
    (read : Read h b) (open_ : automatic = true → ReadOpen h b) : MoveOf automatic h b c input := by
  cases credits with
  | posts authorized signed =>
    cases Option.some.inj move
    refine ⟨read, rfl, besides_approvedBy actor, ?_, fun auto _ => open_ auto⟩
    rintro _ ⟨⟩
    exact ⟨actor, signed⟩

theorem MoveOf.ofAdvances {confirmations : Int} {chain : ChainConfig}
    (advances : AdvancesDeposit b confirmations channelRef chain h c)
    (move : c.move = some input) (automatic : Bool) (read : Read h b) :
    MoveOf automatic h b c input := by
  cases advances with
  | opens isPending =>
    cases Option.some.inj move
    exact ⟨read, rfl, besides_empty, nofun, fun _ _ => .inl isPending⟩
  | reviews isOpen reason =>
    cases Option.some.inj move
    exact ⟨read, rfl, besides_reviewReason reason, nofun, fun _ _ => isOpen.elim .inl fun is =>
      .inr (.inl is)⟩
  | credits isOpen deep token listed c posts =>
    exact .ofCredits posts move automatic read fun _ => isOpen.elim .inl fun is => .inr (.inl is)

theorem MoveOf.ofIngests {s : DepositSighting} (ingests : Ingests cfg s h c)
    (move : c.move = some input) (automatic : Bool) :
    ∃ b, MoveOf automatic h b c input := by
  cases ingests with
  | books holder currencyUID => cases move
  | buries reason => cases move
  | advances holder currencyUID chain b booked c advances =>
    exact ⟨b, .ofAdvances advances move automatic (.inl ⟨_, booked⟩)⟩

theorem MoveOf.ofWrites {l : Operation} (writes : l.writes cfg h c) (move : c.move = some input) :
    ∃ b, MoveOf l.automatic h b c input := by
  cases l with
  | ingest replica s => exact MoveOf.ofIngests writes move _
  | recheck replica pages =>
    obtain ⟨depositUID, -, status, isOpen, b, ⟨cursor, bookings, next, listed, member⟩, m,
      -, rechecks⟩ := writes
    have read : Read h b := .inr (.inr ⟨_, bookings, next, listed, member⟩)
    have open_ : ReadOpen h b := .inr (.inr ⟨_, bookings, next, isOpen, listed, member⟩)
    refine ⟨b, ?_⟩
    cases rechecks with
    | fails =>
      cases Option.some.inj move
      exact ⟨read, rfl, besides_empty, nofun, fun _ _ => open_⟩
    | opens isPending =>
      cases Option.some.inj move
      exact ⟨read, rfl, besides_empty, nofun, fun _ _ => open_⟩
    | reviews =>
      cases Option.some.inj move
      exact ⟨read, rfl, besides_reviewReason _, nofun, fun _ _ => open_⟩
    | advances chain configured latest head evidence c advances =>
      exact .ofAdvances advances move _ read
  | replay replica uid =>
    obtain ⟨dl, -, ingests⟩ := writes
    exact MoveOf.ofIngests ingests move _
  | approve uid actor =>
    obtain ⟨b, read, -, credits⟩ := writes
    exact ⟨b, .ofCredits credits move _ (.inr (.inl ⟨uid, read⟩)) nofun⟩
  | reject uid actor reason =>
    obtain ⟨b, read, -, rfl⟩ := writes
    cases Option.some.inj move
    exact ⟨b, .inr (.inl ⟨uid, read⟩), rfl, besides_rejectMetadata actor reason, nofun, nofun⟩
  | append input =>
    cases writes
    cases move
  | register holder => cases writes <;> cases move
  | scan replica chainID =>
    cases writes with
    | ingests s c ingests => exact MoveOf.ofIngests ingests move _
    | skips => cases move
    | moves => cases move
  | claimRescans =>
    cases writes
    cases move
  | rescan replica job =>
    cases writes with
    | ingests s c ingests => exact MoveOf.ofIngests ingests move _
    | advances => cases move
    | retries => cases move

theorem PortCall.isWrite_of_move (move : c.move = some input) : c.isWrite = true := by
  cases c <;> first | rfl | cases move

inductive Queued (t : RescanTable) : PortCall → RescanTable → Prop where
  | enqueued (now : Int) (uids : List Uuid) (jobs : List RegistrationRescan) (t' : RescanTable)
      (ok : RescanTable.enqueue now uids t jobs = .ok t') : Queued t (.enqueueRescans jobs) t'
  | claimed (now : Int) (locked : List Nat) (limit : Nat) (lease : Int) (t' : RescanTable)
      (jobs : List RegistrationRescan)
      (ok : t.claim now limit lease locked = .ok (t', jobs)) : Queued t (.claimRescans limit lease) t'
  | advanced (now : Int) (uid : GoString) (nextBlock : Int) (completed : Bool)
      (expectedAttempts : Int) (t' : RescanTable)
      (ok : t.advance now uid nextBlock completed expectedAttempts = .ok t') :
      Queued t (.advanceRescan uid nextBlock completed expectedAttempts) t'
  | retried (now : Int) (uid : GoString) (delay expectedAttempts : Int) (t' : RescanTable)
      (ok : t.retry uid (now + delay) expectedAttempts = .ok t') : Queued t (.retryRescan uid delay expectedAttempts) t'

inductive Written (cfg : OnchainConfig) (w : World) : PortCall → World → Prop where
  | nothing (c : PortCall) : Written cfg w c w
  | counted (c : PortCall) (replica : Nat) (m : Memory) : Written cfg w c (w.remember replica m)
  | created (env : Env) (input : CreateBookingInput) (s : BookingTables) (b : Booking)
      (ok : Postgres.createBooking env w.bookings input = .ok (s, b)) :
        Written cfg w (.createBooking input) { w with bookings := s }
  | moved (env : Env) (input : TransitionInput) (s : BookingTables) (evt : Event)
      (ok : Postgres.transition env w.bookings input = .ok (s, evt)) :
        Written cfg w (.transition input) { w with bookings := s }
  | posted (forEvent forJournal : Env) (input : TransitionInput) (authorized : AuthorizedJournal) (s : BookingTables)
      (ok : transitionAndPost cfg.ledger forEvent forJournal w.bookings input authorized = .ok s) :
      Written cfg w (.runInTx input authorized) { w with bookings := s }
  | registered (uid : Uuid) (input : AddressRegistrationInput) (rows : List DepositAddressRow) (da : DepositAddress)
      (ok : Postgres.ensureAddress cfg.keccak uid w.addresses input = .ok (rows, da)) :
      Written cfg w (.ensureAddress input) { w with addresses := rows }
  | buried (uid : Uuid) (sighting : DepositSighting) (key : GoString) (reason : String) (rows : List DeadLetterRow)
      (ok : Postgres.recordDeadLetter uid w.deadLetters sighting key reason = .ok rows) :
      Written cfg w (.recordDeadLetter sighting key reason) { w with deadLetters := rows }
  | scanned (chainID block : Int) : Written cfg w (.setCursor chainID block)
      { w with cursors := setChainCursor w.cursors chainID block }
  | queued (c : PortCall) (t : RescanTable) (progress : Queued w.rescans c t) : Written cfg w c { w with rescans := t }

section

variable {cfg : OnchainConfig} {w w' : World} {c : PortCall}

theorem written_of_ok {α β : Type} {result : Result (β × α)} {put : β → World}
    (ok : ∀ rows answer, result = .ok (rows, answer) → Written cfg w c (put rows)) :
    Written cfg w c (w.write result put).2 := by
  rcases result with err | ⟨rows, answer⟩
  · exact .nothing c
  · exact ok rows answer rfl

theorem written_of_map {β : Type} {result : Result β} {put : β → World}
    (ok : ∀ rows, result = .ok rows → Written cfg w c (put rows)) :
    Written cfg w c (w.write (result.map (·, ())) put).2 := by
  rcases result with err | rows
  · exact .nothing c
  · exact ok rows rfl

theorem perform_written (d : Draw) (c : PortCall) : Written cfg w c (perform cfg d w c).2 := by
  cases c with
  | createBooking input => exact written_of_ok fun s b ok => .created _ input s b ok
  | transition input => exact written_of_ok fun s evt ok => .moved _ input s evt ok
  | runInTx input authorized => exact written_of_map fun s ok => .posted _ _ input authorized s ok
  | ensureAddress input => exact written_of_ok fun rows da ok => .registered _ input rows da ok
  | recordDeadLetter sighting key reason =>
    exact written_of_map fun rows ok => .buried _ sighting key reason rows ok
  | setCursor chainID block => exact .scanned chainID block
  | enqueueRescans jobs => exact written_of_map fun t ok => .queued _ t (.enqueued _ _ jobs t ok)
  | claimRescans limit lease =>
    exact written_of_ok fun t jobs ok => .queued _ t (.claimed _ _ limit lease t jobs ok)
  | advanceRescan uid nextBlock completed expectedAttempts =>
    exact written_of_map fun t ok =>
      .queued _ t (.advanced _ uid nextBlock completed expectedAttempts t ok)
  | retryRescan uid delay expectedAttempts =>
    exact written_of_map fun t ok => .queued _ t (.retried _ uid delay expectedAttempts t ok)
  | recordReconcileFailure replica uid limit =>
    simp only [perform]
    split
    · exact .nothing _
    · exact .counted _ replica _
  | recordShallowMiss replica uid | clearShallowMiss replica uid | recordEvidenceMiss replica uid
  | clearEvidenceMiss replica uid | clearReconcileFailure replica uid | recordScanFailure replica chainID
  | clearScanFailures replica chainID => exact .counted _ replica _
  | _ => exact .nothing _

theorem Serves.written {ans : c.Answer} (served : Serves cfg w c ans w') : Written cfg w c w' := by
  cases served with
  | answered d => exact perform_written d c
  | outage err _ refused outage => exact .nothing c
  | hidden d err _ refused outage => exact perform_written d c

end

def NormalAddresses (k : Keccak) (rows : List DepositAddressRow) : Prop :=
  ∀ row ∈ rows, ∃ addr : List Nibble, addr.length = 40 ∧ row.address = toChecksumAddress k addr

structure Sane (cfg : OnchainConfig) (w : World) : Prop where
  bookings : DepositRows w.bookings
  currencies : (w.bookings.store.currencies.map (·.uid)).Nodup
  addresses : NormalAddresses cfg.keccak w.addresses

structure Later (chainMoves : (Int → Chain) → (Int → Chain) → Prop) (w w' : World) : Prop where
  bookings : Lasts w.bookings w'.bookings
  templates : w'.templates = w.templates
  addresses : w.addresses ⊆ w'.addresses
  deadLetters : w.deadLetters ⊆ w'.deadLetters
  cursors : ∀ chainID last, w.cursors chainID = some last → ∃ last', w'.cursors chainID =
    some last' ∧ last ≤ last'
  chains : chainMoves w.chains w'.chains

section

variable {cfg : OnchainConfig} {chainMoves : (Int → Chain) → (Int → Chain) → Prop} {w : World}

theorem Later.trans {a b c : World}
    (transitive : ∀ x y z, chainMoves x y → chainMoves y z → chainMoves x z)
    (first : Later chainMoves a b) (second : Later chainMoves b c) : Later chainMoves a c where
  bookings := first.bookings.trans second.bookings
  templates := second.templates.trans first.templates
  addresses := List.Subset.trans first.addresses second.addresses
  deadLetters := List.Subset.trans first.deadLetters second.deadLetters
  cursors chainID last stored := by
    obtain ⟨last', stored', le⟩ := first.cursors chainID last stored
    obtain ⟨last'', stored'', le'⟩ := second.cursors chainID last' stored'
    exact ⟨last'', stored'', le.trans le'⟩
  chains := transitive _ _ _ first.chains second.chains

variable (reflexive : ∀ chains, chainMoves chains chains)

include reflexive

theorem Later.refl (w : World) : Later chainMoves w w :=
  ⟨.refl _, rfl, List.Subset.refl _, List.Subset.refl _, fun _ last stored =>
    ⟨last, stored, le_rfl⟩, reflexive _⟩

variable {w' : World}

theorem Later.beside (bookings : w'.bookings = w.bookings) (templates : w'.templates = w.templates)
    (addresses : w'.addresses = w.addresses) (deadLetters : w'.deadLetters = w.deadLetters)
    (cursors : w'.cursors = w.cursors) (chains : w'.chains = w.chains) : Later chainMoves w w' := by
  have same := Later.refl reflexive w
  exact ⟨bookings ▸ same.bookings, templates, addresses ▸ same.addresses,
    deadLetters ▸ same.deadLetters,
    cursors ▸ same.cursors, chains ▸ same.chains⟩

variable {s : BookingTables} {k : Keccak} {da : DepositAddress}

theorem bookings_keeps (sane : Sane cfg w) (rows : DepositRows s) (lasts : Lasts w.bookings s) :
    Sane cfg { w with bookings := s } ∧ Later chainMoves w { w with bookings := s } :=
  ⟨⟨rows, lasts.currencies ▸ sane.currencies, sane.addresses⟩,
    ⟨lasts, rfl, List.Subset.refl _, List.Subset.refl _, fun _ last stored =>
      ⟨last, stored, le_rfl⟩,
    reflexive _⟩⟩

theorem created_keeps {input : CreateBookingInput} {env : Env} (sane : Sane cfg w)
    (ok : Postgres.createBooking env w.bookings input = .ok (s, b)) :
    Sane cfg { w with bookings := s } ∧ Later chainMoves w { w with bookings := s } := by
  rcases (createBooking_rows ok).1 with rfl | ⟨row, created⟩
  · exact bookings_keeps reflexive sane sane.bookings (.refl _)
  · obtain ⟨rows, lasts⟩ := created.keeps sane.bookings
    exact bookings_keeps reflexive sane rows lasts

theorem moved_keeps {evt : Event} {env : Env} (sane : Sane cfg w) (besides : Besides input.metadata)
    (ok : Postgres.transition env w.bookings input = .ok (s, evt)) :
    Sane cfg { w with bookings := s } ∧ Later chainMoves w { w with bookings := s } := by
  obtain ⟨op, member, -, rfl | ⟨op', moved⟩⟩ := transition_rows ok
  · exact bookings_keeps reflexive sane sane.bookings (.refl _)
  · obtain ⟨rows, lasts⟩ := moved.keeps sane.bookings member besides
    exact bookings_keeps reflexive sane rows lasts

theorem posted_keeps {authorized : AuthorizedJournal} {forEvent forJournal : Env}
    (sane : Sane cfg w) (besides : Besides input.metadata)
    (ok : transitionAndPost cfg.ledger forEvent forJournal w.bookings input authorized = .ok s) :
    Sane cfg { w with bookings := s } ∧ Later chainMoves w { w with bookings := s } := by
  obtain ⟨op, member, -, mid, moved, posted⟩ := transitionAndPost_rows ok
  have midway : DepositRows mid ∧ Lasts w.bookings mid := by
    rcases moved with rfl | ⟨op', moved⟩
    · exact ⟨sane.bookings, .refl _⟩
    · exact moved.keeps sane.bookings member besides
  rcases posted with rfl | ⟨posted, eventUID, row, rfl, journal⟩
  · exact bookings_keeps reflexive sane midway.1 midway.2
  · obtain ⟨rows, lasts⟩ := journal.keeps midway.1
    exact bookings_keeps reflexive sane rows (midway.2.trans lasts)

omit reflexive in
theorem checksumAddress_normal {address addr : GoString}
    (ok : checksumAddress k address = .ok addr) :
    ∃ digits : List Nibble, digits.length = 40 ∧ addr = toChecksumAddress k digits := by
  simp only [checksumAddress, decodeFixedHex, bind_eq_ok, pure_eq_ok, orError_eq_ok, require_eq_ok,
    decide_eq_true_eq] at ok
  obtain ⟨digits, ⟨digits', -, -, even, -, length, rfl⟩, rfl⟩ := ok
  exact ⟨_, by omega, rfl⟩

variable {uid : Uuid} {rows : List DepositAddressRow} {input : AddressRegistrationInput}

omit reflexive in
theorem ensureAddress_rows {rows' : List DepositAddressRow}
    (ok : Postgres.ensureAddress k uid rows input = .ok (rows', da)) :
    (∃ row ∈ rows', da = depositAddressFromRow row) ∧ (rows' = rows ∨ ∃ row, rows' = rows ++ [row] ∧
      ∃ addr : List Nibble, addr.length = 40 ∧ row.address = toChecksumAddress k addr) := by
  simp only [Postgres.ensureAddress, bind_eq_ok, within_eq_ok] at ok
  obtain ⟨_, -, address, normal, _, -, _, -, rest⟩ := ok
  split at rest
  · rename_i row found
    cases pure_eq_ok.mp rest
    exact ⟨⟨row, List.mem_of_find?_eq_some found, rfl⟩, .inl rfl⟩
  · simp only [bind_eq_ok, pure_eq_ok, Prod.mk.injEq] at rest
    obtain ⟨_, -, rfl, rfl⟩ := rest
    refine ⟨⟨_, List.mem_append_right _ (List.mem_singleton_self _), rfl⟩, .inr ⟨_, rfl, ?_⟩⟩
    exact checksumAddress_normal normal

theorem registered_keeps (sane : Sane cfg w)
    (ok : Postgres.ensureAddress cfg.keccak uid w.addresses input = .ok (rows, da)) :
    Sane cfg { w with addresses := rows } ∧ Later chainMoves w { w with addresses := rows } := by
  rcases (ensureAddress_rows ok).2 with rfl | ⟨row, rfl, addr, length, normal⟩
  · exact ⟨sane, .refl reflexive w⟩
  · refine ⟨⟨sane.bookings, sane.currencies, fun r member => ?_⟩,
      ⟨.refl _, rfl, List.subset_append_left _ _, List.Subset.refl _,
      fun _ last stored => ⟨last, stored, le_rfl⟩, reflexive _⟩⟩
    rcases List.mem_append.mp member with old | new
    · exact sane.addresses r old
    · exact List.mem_singleton.mp new ▸ ⟨addr, length, normal⟩

omit reflexive in
theorem recordDeadLetter_rows {rows rows' : List DeadLetterRow} {sighting : DepositSighting}
    {key : GoString} {reason : String}
    (ok : Postgres.recordDeadLetter uid rows sighting key reason = .ok rows') :
    rows ⊆ rows' ∧ ∃ row ∈ rows', row.idempotencyKey = key := by
  simp only [Postgres.recordDeadLetter, within_eq_ok, bind_eq_ok] at ok
  obtain ⟨_, -, _, -, _, -, rest⟩ := ok
  split at rest
  · rename_i found
    cases pure_eq_ok.mp rest
    obtain ⟨row, member, is⟩ := List.any_eq_true.mp found
    exact ⟨List.Subset.refl _, row, member, by simpa using is⟩
  · simp only [bind_eq_ok, pure_eq_ok] at rest
    obtain ⟨_, -, rfl⟩ := rest
    exact ⟨List.subset_append_left _ _, _, List.mem_append_right _ (List.mem_singleton_self _), rfl⟩

omit reflexive in
theorem setChainCursor_grows (cursors : Int → Option Int) (chainID block other last : Int)
    (stored : cursors other = some last) :
    ∃ last', setChainCursor cursors chainID block other = some last' ∧ last ≤ last' := by
  unfold setChainCursor
  by_cases same : other = chainID
  · subst same
    rw [stored]
    dsimp only
    split
    · rename_i less
      exact ⟨block, Function.update_self .., less.le⟩
    · exact ⟨last, stored, le_rfl⟩
  · have kept : Function.update cursors chainID (some block) other = some last := by
      rw [Function.update_of_ne same, stored]
    cases cursors chainID with
    | none => exact ⟨last, kept, le_rfl⟩
    | some current =>
      dsimp only
      split
      · exact ⟨last, kept, le_rfl⟩
      · exact ⟨last, stored, le_rfl⟩

theorem served_keeps {ans : c.Answer} (served : Serves cfg w c ans w') (sane : Sane cfg w)
    (besides : ∀ input, c.move = some input → Besides input.metadata) : Sane cfg w' ∧
    Later chainMoves w w' := by
  cases served.written with
  | nothing => exact ⟨sane, .refl reflexive w⟩
  | counted replica m =>
    exact ⟨⟨sane.bookings, sane.currencies, sane.addresses⟩, .beside reflexive rfl
      rfl rfl rfl rfl rfl⟩
  | created env input s b ok => exact created_keeps reflexive sane ok
  | moved env input s evt ok => exact moved_keeps reflexive sane (besides input rfl) ok
  | posted forEvent forJournal input authorized s ok =>
    exact posted_keeps reflexive sane (besides input rfl) ok
  | registered uid input rows da ok => exact registered_keeps reflexive sane ok
  | buried uid sighting key reason rows ok =>
    exact ⟨⟨sane.bookings, sane.currencies, sane.addresses⟩,
      ⟨.refl _, rfl, List.Subset.refl _, (recordDeadLetter_rows ok).1,
      fun _ last stored => ⟨last, stored, le_rfl⟩, reflexive _⟩⟩
  | scanned chainID block =>
    exact ⟨⟨sane.bookings, sane.currencies, sane.addresses⟩,
      ⟨.refl _, rfl, List.Subset.refl _, List.Subset.refl _,
      setChainCursor_grows w.cursors chainID block, reflexive _⟩⟩
  | queued c t progress =>
    exact ⟨⟨sane.bookings, sane.currencies, sane.addresses⟩, .beside reflexive rfl
      rfl rfl rfl rfl rfl⟩

end

section

variable {cfg : OnchainConfig} {chainMoves : (Int → Chain) → (Int → Chain) → Prop}

abbrev OnchainSound (cfg : OnchainConfig) (chainMoves : (Int → Chain) → (Int → Chain) → Prop)
    (p : OnchainPool) : Prop :=
  Interleaving.Sound (onchainSystem cfg chainMoves) (Later chainMoves) (Sane cfg)
    (fun l => Writes fun h c => l.writes cfg h c) p

section

variable (reflexive : ∀ chains, chainMoves chains chains)
  (transitive : ∀ x y z, chainMoves x y → chainMoves y z → chainMoves x z)

include reflexive

theorem call_keeps (l : Operation) (h : Answers) (w : World) (c : PortCall) (ans : c.Answer)
    (w' : World) (sane : Sane cfg w)
    (served : Serves cfg w c ans w') (writes : Writes (fun h c => l.writes cfg h c) h c) :
    Sane cfg w' ∧ Later chainMoves w w' := by
  refine served_keeps reflexive served sane fun input move => ?_
  obtain ⟨b, moveOf⟩ := MoveOf.ofWrites (writes (PortCall.isWrite_of_move move)) move
  exact moveOf.besides

theorem outside_keeps (w w' : World) (sane : Sane cfg w) (moved : Outside chainMoves w w') :
    Sane cfg w' ∧ Later chainMoves w w' := by
  cases moved with
  | restart replica =>
    exact ⟨⟨sane.bookings, sane.currencies, sane.addresses⟩, .beside reflexive rfl
      rfl rfl rfl rfl rfl⟩
  | chain chains secondSource moved =>
    exact ⟨⟨sane.bookings, sane.currencies, sane.addresses⟩,
      ⟨.refl _, rfl, List.Subset.refl _, List.Subset.refl _,
      fun _ last stored => ⟨last, stored, le_rfl⟩, moved⟩⟩

include transitive

variable {p : OnchainPool} {w : World}

theorem onchain_sound (sane : Sane cfg w)
    (run : Run (onchainSystem cfg chainMoves).Step (.still w) p) :
    OnchainSound cfg chainMoves p :=
  Interleaving.sound (Later.refl reflexive) (fun _ _ _ => Later.trans transitive)
    (call_keeps reflexive) (outside_keeps reflexive)
    (program_writes cfg) sane run

theorem onchain_traced {I : List OnchainAct → World → Prop} (sane : Sane cfg w) (initially : I [] w)
    (acts : ∀ (q : OnchainPool) (a : OnchainAct), OnchainSound cfg chainMoves q →
      I q.trace q.world → a.before = q.world →
      Serves cfg q.world a.op a.ans a.after →
      Writes (fun h c => a.label.writes cfg h c) a.history a.op →
      Interleaving.Explained (onchainSystem cfg chainMoves) q.trace a.thread a.label a.history →
      I (q.trace ++ [a]) a.after)
    (moves : ∀ trace v v', I trace v → Outside chainMoves v v' → I trace v')
    (run : Run (onchainSystem cfg chainMoves).Step (.still w) p) :
    I p.trace p.world ∧ ∀ earlier a later, p.trace = earlier ++ a :: later → I earlier a.before :=
  Interleaving.traced (Later.refl reflexive) (fun _ _ _ => Later.trans transitive)
    (call_keeps reflexive) (outside_keeps reflexive)
    (program_writes cfg) sane initially acts moves run

end

variable {p : OnchainPool} {c : PortCall} {ans : c.Answer}

section

variable (sound : OnchainSound cfg chainMoves p)
include sound

theorem exchange_served {act : OnchainAct} (inside : act ∈ p.trace)
    (same : act.exchange = ⟨c, ans⟩) :
    Serves cfg act.before c ans act.after ∧ Sane cfg act.before ∧
    Later chainMoves act.before act.after := by
  obtain ⟨served, sane⟩ := sound.served act inside
  have moved := sound.moved act inside
  obtain ⟨thread, label, history, op, ans', w, w'⟩ := act
  cases same
  exact ⟨served, sane, moved⟩

theorem answer_served {a : OnchainAct} (member : a ∈ p.trace) (answer : ⟨c, ans⟩ ∈ a.history) :
    ∃ w w', Serves cfg w c ans w' ∧ Sane cfg w ∧ Later chainMoves w w' ∧
    Later chainMoves w' a.before := by
  obtain ⟨earlier, later, split⟩ := List.append_of_mem member
  obtain ⟨act, before, same⟩ := (sound.explained earlier a later split).act answer
  have inside : act ∈ p.trace := split ▸ List.mem_append_left _ before
  have order : Later chainMoves act.after a.before := by
    have ordered := sound.ordered
    rw [split, List.pairwise_append] at ordered
    exact ordered.2.2 act before a List.mem_cons_self
  obtain ⟨served, sane, moved⟩ := exchange_served sound inside same
  exact ⟨_, _, served, sane, moved, order⟩

theorem explained_served {t : Nat} {l : Operation}
    (explained : Interleaving.Explained (onchainSystem cfg chainMoves) p.trace t l h)
    (answer : ⟨c, ans⟩ ∈ h) :
    ∃ w w', Serves cfg w c ans w' ∧ Sane cfg w ∧ Later chainMoves w w' ∧
    Later chainMoves w' p.world := by
  obtain ⟨act, inside, same⟩ := explained.act answer
  obtain ⟨served, sane, moved⟩ := exchange_served sound inside same
  exact ⟨_, _, served, sane, moved, sound.since act inside⟩

end

end

section

variable {cfg : OnchainConfig} {w w' : World}

theorem Serves.answer {ans : c.Answer} (served : Serves cfg w c ans w') :
    (∃ d, ans = (perform cfg d w c).1 ∧ w' = (perform cfg d w c).2) ∨ ∃ err, c.refuse err =
    some ans ∧ isOutage err = true := by
  cases served with
  | answered d => exact .inl ⟨d, rfl, rfl⟩
  | outage err _ refused outage | hidden d err _ refused outage => exact .inr ⟨err, refused, outage⟩

theorem World.write_ok {α β : Type} {result : Result (β × α)} {put : β → World} {answer : α}
    (ok : (w.write result put).1 = .ok answer) : ∃ rows, result = .ok (rows, answer) ∧
    (w.write result put).2 = put rows := by
  rcases result with err | ⟨rows, a⟩
  · cases ok
  · cases ok
    exact ⟨rows, rfl, rfl⟩

variable {b : Booking} {da : DepositAddress}

theorem createBooking_answer {input : CreateBookingInput}
    (served : Serves cfg w (.createBooking input) (.ok b) w') :
    ∃ row ∈ w'.bookings.store.bookings, row.idempotencyKey = input.idempotencyKey ∧
    bookingFromRow w'.bookings row = .ok b := by
  rcases served.answer with ⟨d, answer, rfl⟩ | ⟨err, refused, -⟩
  · obtain ⟨s, ok, put⟩ := World.write_ok answer.symm
    rw [perform, put]
    exact (createBooking_rows ok).2
  · cases refused

theorem getBooking_answer {uid : GoString} (served : Serves cfg w (.getBooking uid) (.ok b) w') :
    ∃ row ∈ w.bookings.store.bookings, bookingFromRow w.bookings row = .ok b := by
  rcases served.answer with ⟨d, answer, -⟩ | ⟨err, refused, -⟩
  · have ok : w.bookings.getBooking uid = .ok b := answer.symm
    simp only [BookingTables.getBooking, bind_eq_ok, orError_eq_ok] at ok
    obtain ⟨pgUID, -, row, found, read⟩ := ok
    exact ⟨row, List.mem_of_find?_eq_some found, read⟩
  · cases refused

theorem listBookings_answer {filter : BookingFilter} {bookings : List Booking} {next : Option Nat}
    (served : Serves cfg w (.listBookings filter) (.ok (bookings, next)) w') :
    ∀ b ∈ bookings, ∃ row ∈ w.bookings.store.bookings, bookingFromRow w.bookings row = .ok b ∧
      (filter.status = [] ∨ row.status = filter.status) := by
  rcases served.answer with ⟨d, answer, -⟩ | ⟨err, refused, -⟩
  · have ok : w.bookings.listBookings filter = .ok (bookings, next) := answer.symm
    have page : ∃ id, collect (bookingFromRow w.bookings) (w.bookings.pageOf id filter) =
      .ok bookings := by
      rw [BookingTables.listBookings] at ok
      split at ok <;> simp only [bind_eq_ok, pure_eq_ok, Prod.mk.injEq] at ok <;>
        obtain ⟨_, -, _, -, listed, read, rfl, -⟩ := ok <;> exact ⟨_, read⟩
    obtain ⟨id, read⟩ := page
    rw [collect_eq_ok] at read
    intro b member
    obtain ⟨row, inside, ok⟩ := forall₂_of_mem_right read member
    have selected := (List.mem_insertionSort _).mp (List.mem_of_mem_take inside)
    obtain ⟨stored, conditions⟩ := List.mem_filter.mp selected
    simp only [Bool.and_eq_true, Bool.or_eq_true, beq_iff_eq] at conditions
    exact ⟨row, stored, ok, conditions.1.2⟩
  · cases refused

theorem authorizeTemplate_answer {code : GoString} {params : TemplateParams}
    {authorized : AuthorizedJournal}
    (served : Serves cfg w (.authorizeTemplate code params) (.ok authorized) w') :
    ∃ t ∈ w.templates, t.code = code ∧ Rendered t params authorized.input ∧
    authorized.input.entries ≠ [] := by
  rcases served.answer with ⟨d, answer, -⟩ | ⟨err, refused, -⟩
  · have ok : (do
        let input ← renderTemplate cfg.ledger d.now w.templates code params
        authorize cfg.ledger cfg.attestor (d.env 0) w.bookings.store input) = .ok authorized := answer.symm
    simp only [renderTemplate, bind_eq_ok, orError_eq_ok, within_eq_ok] at ok
    obtain ⟨input, ⟨t, found, rendered⟩, signed⟩ := ok
    rw [authorize_input signed]
    obtain ⟨from_, valid⟩ := render_ok rendered
    exact ⟨t, List.mem_of_find?_eq_some found, by simpa using List.find?_some found, from_,
      validate_nonempty valid⟩
  · cases refused

theorem latestBlock_answer {chainID latest : Int}
    (served : Serves cfg w (.latestBlock chainID) (.ok latest) w') :
    latest = (w.chains chainID).head := by
  rcases served.answer with ⟨d, answer, -⟩ | ⟨err, refused, -⟩
  · exact Except.ok.inj answer
  · cases refused

theorem fetchDeposits_answer {chainID fromBlock toBlock : Int} {addresses : List GoString}
    {sightings : List DepositSighting}
    (served : Serves cfg w (.fetchDeposits chainID fromBlock toBlock addresses)
      (.ok sightings) w') :
    ∃ chain, cfg.chains.get chainID = some chain ∧
      Chains.fetchDeposits cfg.keccak chain chainID (w.chains chainID) fromBlock toBlock addresses =
      .ok sightings := by
  rcases served.answer with ⟨d, answer, -⟩ | ⟨err, refused, -⟩
  · have ok : (do
        let chain ← orError (cfg.chains.get chainID) (⟨.other, "evm: chain %d not configured"⟩ : Error)
        Chains.fetchDeposits cfg.keccak chain chainID (w.chains chainID) fromBlock toBlock
          addresses) = .ok sightings := answer.symm
    simp only [bind_eq_ok, orError_eq_ok] at ok
    exact ok
  · cases refused

theorem ensureAddress_answer {input : AddressRegistrationInput}
    (served : Serves cfg w (.ensureAddress input) (.ok da) w') : ∃ row ∈ w'.addresses,
    row.address = da.address := by
  rcases served.answer with ⟨d, answer, rfl⟩ | ⟨err, refused, -⟩
  · obtain ⟨rows, ok, put⟩ := World.write_ok answer.symm
    rw [perform, put]
    obtain ⟨⟨row, member, rfl⟩, -⟩ := ensureAddress_rows ok
    exact ⟨row, member, rfl⟩
  · cases refused

theorem getByAddress_answer {address : GoString}
    (served : Serves cfg w (.getByAddress address) (.ok da) w') :
    ∃ row ∈ w.addresses, checksumAddress cfg.keccak address = .ok row.address ∧
    da = depositAddressFromRow row := by
  rcases served.answer with ⟨d, answer, -⟩ | ⟨err, refused, -⟩
  · have ok : Postgres.getByAddress cfg.keccak w.addresses address = .ok da := answer.symm
    simp only [Postgres.getByAddress, bind_eq_ok, within_eq_ok, orError_eq_ok, pure_eq_ok] at ok
    obtain ⟨addr, normal, row, found, rfl⟩ := ok
    have same : row.address = addr := by simpa using List.find?_some found
    exact ⟨row, List.mem_of_find?_eq_some found, by rw [same, normal], rfl⟩
  · cases refused

end

/-! One chain with one transfer to the one registered address, and the deposit classification beside
the rows of `Postgres.Sample`. -/

namespace OnchainSample

def uid (n : Nat) : Uuid := .ofByte n

def token : List Nibble := List.replicate 40 1
def recipient : List Nibble := List.replicate 40 2
def hash : List Nibble := List.replicate 64 0xA

def keccak : Keccak := ⟨fun _ => List.replicate 64 0, by simp⟩

def tokenConfig : TokenConfig := ⟨lit "USD", 2, .zero, .zero, 0⟩

def chainConfig : ChainConfig := ⟨0, 1, [], [], .ofList [(tokenKey token, tokenConfig)]⟩

def text : CaseFolding where
  lowerOther := id
  equalOther s t := s == t
  equalOther_ascii s t ascii other _ := by
    refine beq_eq_false_iff_ne.mpr fun same => ?_
    rw [same, other] at ascii
    cases ascii

def config : OnchainConfig :=
  { ledger := Sample.config, attestor := none, keccak := keccak, text := text
    chains := .ofList [(1, chainConfig)], hasReader := true, hasConfirmer := false,
      shallowReorgMisses := 3
    confirmEvidenceMisses := 3, watcherStallAlertAfter := 3, maxBlocksPerScan := 2000,
      rescanLookback := 128
    registrationRescanTimeout := 600000000, maxConcurrentRescans := 4, windowPositive := by decide }

def store : Store := { Sample.store with
  ledger := { Sample.store.ledger with
    classifications := Sample.store.ledger.classifications ++
      [⟨3, uid 6, lit "deposit", .credit, false, true, .none⟩] } }

def template : EntryTemplate :=
  ⟨lit "deposit_confirm", lit "Deposit Confirm", (Sample.uid 4).print, true,
    [⟨(Sample.uid 1).print, .credit, .user, lit "amount"⟩,
      ⟨(Sample.uid 2).print, .debit, .system, lit "amount"⟩]⟩

def log : TransferLog :=
  ⟨hash, 0, 5, token, token, recipient, 1000, by decide, by decide, by decide, by decide⟩

def oneLog : Chain := ⟨10, 10, 10, [log], [], List.nodup_singleton _⟩

def world : World :=
  { bookings := ⟨store, [(3, depositLifecycle)], [], [], 1, 1⟩
    templates := [template]
    addresses := [⟨uid 7, 7, toChecksumAddress keccak recipient, [], []⟩]
    deadLetters := []
    cursors := fun _ => none
    rescans := ⟨[], 1⟩
    memory := fun _ => .fresh
    chains := fun _ => oneLog
    secondSource := fun _ _ _ => (.zero, false) }

def sighting : DepositSighting :=
  ⟨1, hashText hash, 0, tokenKey token, [], toChecksumAddress keccak recipient, ⟨1000, -2⟩, 6, 5⟩

def draw (n : Nat) : Draw := ⟨1000000 * (n + 1), [uid (2 * n + 16), uid (2 * n + 17)], []⟩

def answer (n : Nat) (w : World) (c : PortCall) : c.Answer × World := perform config (draw n) w c

def launchIn (cfg : OnchainConfig) (answering : Nat → World → (c : PortCall) → c.Answer × World)
    (p : OnchainPool) (t : Nat) (op : Operation)
    (calls : Nat) : OnchainPool :=
  Interleaving.advance answering t calls (p.setThread t (some ⟨op, [], op.program cfg⟩))

def launchWith (answering : Nat → World → (c : PortCall) → c.Answer × World) (p : OnchainPool)
    (t : Nat) (op : Operation) (calls : Nat) :
    OnchainPool := launchIn config answering p t op calls

def launch (p : OnchainPool) (t : Nat) (op : Operation) (calls : Nat) : OnchainPool :=
  launchWith answer p t op calls

variable {answering : Nat → World → (c : PortCall) → c.Answer × World} {p : OnchainPool} {t : Nat}

theorem launchIn_threads {other : Nat} (different : other ≠ t) (op : Operation) (calls : Nat) :
    (launchIn cfg answering p t op calls).threads other = p.threads other := by
  rw [launchIn, Interleaving.advance_threads answering different]
  exact Function.update_of_ne different ..

theorem launch_threads {other : Nat} (different : other ≠ t) (op : Operation) (calls : Nat) :
    (launch p t op calls).threads other = p.threads other := launchIn_threads different op calls

theorem world_sane : Sane config world := by
  refine ⟨⟨.nil, nofun, .nil, nofun, nofun⟩, by decide, fun row member => ⟨recipient, rfl, ?_⟩⟩
  rw [List.mem_singleton.mp member]
  rfl

variable {chainMoves : (Int → Chain) → (Int → Chain) → Prop}

theorem run_launchIn (truthful : ∀ n w c, Serves cfg w c (answering n w c).1 (answering n w c).2)
    (p : OnchainPool) (t : Nat)
    (op : Operation) (calls : Nat) (free : p.threads t = none) (admitted : op.admitted p.trace) :
    Run (onchainSystem cfg chainMoves).Step p (launchIn cfg answering p t op calls) := by
  have started : Run (onchainSystem cfg chainMoves).Step p _ :=
    .single (.start p t op free admitted)
  exact started.trans (Interleaving.run_advance answering truthful t calls _)

theorem run_launch (p : OnchainPool) (t : Nat) (op : Operation) (calls : Nat)
    (free : p.threads t = none)
    (admitted : op.admitted p.trace) : Run (onchainSystem config chainMoves).Step p
    (launch p t op calls) :=
  run_launchIn (fun n _ _ => .answered (draw n)) p t op calls free admitted

end OnchainSample

end Ledger.Service
