import Ledger.Service.ChainScan

namespace Ledger.Service

open Chains Core Postgres Shared Fallible

def PortCall.isWrite : PortCall → Bool
  | .ensureAddress _ | .createBooking _ | .transition _ | .runInTx .. | .recordDeadLetter ..
  | .setCursor .. | .enqueueRescans _
  | .claimRescans .. | .advanceRescan .. | .retryRescan .. => true
  | _ => false

abbrev Answers := List (Exchange PortCall PortCall.Answer)

def Writes (allowed : Answers → PortCall → Prop) (h : Answers) (c : PortCall) :
    Prop := c.isWrite = true → allowed h c

section

variable {α : Type} {guar : Answers → PortCall → Prop} {ok : α → Answers → Prop}
  {err : Error → Answers → Prop}
  {h : Answers} {t : Fallible α}

theorem returns_context {text : String} :
    Returns guar (context text t) ok err h ↔ Returns guar t ok (fun e => err (e.wrap text)) h := by
  rw [context, returns_mk, meets_bind, meets_run]
  exact Iff.rfl

theorem returns_observe {ok : Result α → Answers → Prop} :
    Returns guar (observe t) ok err h ↔ Returns guar t (fun a => ok (.ok a))
    (fun e => ok (.error e)) h := by
  rw [observe, returns_mk, meets_bind, meets_run]
  exact Iff.rfl

theorem returns_ofResult {r : Result α} :
    Returns guar (ofResult r) ok err h ↔ (∀ a, r = .ok a → ok a h) ∧
    ∀ e, r = .error e → err e h := by
  rw [ofResult, returns_mk]
  cases r <;> simp

theorem returns_count {p : Goroutine α} : Returns guar (Port.count p) ok err h ↔
    Meets guar p ok h := by
  rw [Port.count, returns_mk, meets_bind]
  exact Iff.rfl

end

inductive Credits (b : Booking) (channelRef actor : GoString) (h : Answers) : PortCall → Prop where
  | posts (authorized : AuthorizedJournal)
      (signed : ⟨.authorizeTemplate depositConfirmTemplate (confirmParams b actor), .ok authorized⟩ ∈ h) :
      Credits b channelRef actor h
        (.runInTx (depositTransition b.uid confirmed channelRef b.amount (approvedBy actor)) authorized)

def reviewCall (b : Booking) (channelRef reason : GoString) : PortCall :=
  .transition (depositTransition b.uid review channelRef .zero
    (.ofList [(lit "review_reason", reason)]))

def confirmingCall (b : Booking) (channelRef : GoString) : PortCall :=
  .transition (depositTransition b.uid confirming channelRef .zero .empty)

inductive AdvancesDeposit (b : Booking) (confirmations : Int) (channelRef : GoString)
    (chain : ChainConfig) (h : Answers) : PortCall → Prop where
  | opens (isPending : b.status = pending) : AdvancesDeposit b confirmations channelRef chain h
      (confirmingCall b channelRef)
  | reviews (isOpen : b.status = pending ∨ b.status = confirming) (reason : GoString) :
      AdvancesDeposit b confirmations channelRef chain h (reviewCall b channelRef reason)
  | credits (isOpen : b.status = pending ∨ b.status = confirming)
      (deep : chain.confirmations ≤ confirmations) (token : TokenConfig)
      (listed : chain.creditTokens.get ((b.metadata.get (lit "token")).getD []) = some token) (c : PortCall)
      (posts : Credits b channelRef [] h c) : AdvancesDeposit b confirmations channelRef chain h c

theorem routeToReview_writes (b : Booking) (channelRef reason : GoString) (h : Answers) :
    Returns (Writes fun _ c => c = reviewCall b channelRef reason)
    (routeToReview b channelRef reason) (fun _ _ => True)
      (fun _ _ => True) h := by
  simp only [routeToReview, returns_bind, returns_context, Port.transition, Port.getBooking, ask,
    returns_mk, meets_ask]
  refine ⟨fun _ => rfl, fun ans => ?_⟩
  cases ans with
  | error e => trivial
  | ok evt => exact ⟨nofun, fun ans => by cases ans <;> trivial⟩

theorem postDepositConfirmedJournal_writes (b : Booking)
    (channelRef actor : GoString) (h : Answers) :
    Returns (Writes (Credits b channelRef actor)) (postDepositConfirmedJournal b channelRef actor)
    (fun _ _ => True)
      (fun _ _ => True) h := by
  simp only [postDepositConfirmedJournal, returns_bind, returns_context, Port.authorizeTemplate,
    Port.runInTx, Port.getBooking, ask,
    returns_mk, meets_ask]
  refine ⟨nofun, fun ans => ?_⟩
  cases ans with
  | error e => trivial
  | ok authorized =>
    refine ⟨fun _ => .posts authorized (by simp), fun ans => ?_⟩
    cases ans with
    | error e => trivial
    | ok _ => exact ⟨nofun, fun ans => by cases ans <;> trivial⟩

variable (cfg : OnchainConfig)

theorem reviewGate_writes (replica : Nat) (b : Booking) (token : Option TokenConfig) (h : Answers) :
    Returns (Writes fun _ _ => False) (reviewGate cfg replica b token)
    (fun reason _ => reason = none → ∃ tc, token = some tc)
      (fun _ _ => True) h := by
  unfold reviewGate
  split
  · exact returns_pure.mpr nofun
  · rename_i tc
    split
    · exact returns_pure.mpr nofun
    · split
      · exact returns_pure.mpr fun _ => ⟨tc, rfl⟩
      · split
        · exact returns_throw.mpr trivial
        · simp only [returns_bind, returns_observe, Port.confirmDeposit, ask, returns_mk, meets_ask]
          refine ⟨nofun, fun ans => ?_⟩
          cases ans with
          | error e =>
            simp only [returns_count, meets_ask]
            refine ⟨nofun, fun reached => ?_⟩
            cases reached with
            | true => exact returns_pure.mpr nofun
            | false => exact returns_throw.mpr trivial
          | ok answer =>
            simp only [returns_count, meets_ask]
            refine ⟨nofun, fun _ => ?_⟩
            split
            · exact returns_pure.mpr nofun
            · exact returns_pure.mpr fun _ => ⟨tc, rfl⟩

theorem confirmDeposit_writes (replica : Nat) (b : Booking) (confirmations : Int)
    (channelRef : GoString)
    (chain : ChainConfig) (isOpen : b.status = pending ∨ b.status = confirming) (h : Answers) :
    Returns (Writes (AdvancesDeposit b confirmations channelRef chain))
    (confirmDeposit cfg replica b confirmations channelRef chain)
      (fun _ _ => True) (fun _ _ => True) h := by
  unfold confirmDeposit
  split
  · exact returns_pure.mpr trivial
  · rename_i deep
    simp only [returns_bind, returns_context]
    refine ((reviewGate_writes cfg replica b _ h).weaken fun h' c _ none_ write =>
      (none_ write).elim).mono ?_ fun _ _ _ _ => trivial
    intro reason h' _ credit
    cases reason with
    | some reason =>
      refine (routeToReview_writes b channelRef reason h').weaken fun h' c _ is write => ?_
      rw [is write]
      exact .reviews isOpen reason
    | none =>
      obtain ⟨token, listed⟩ := credit rfl
      simp only [returns_context]
      refine (postDepositConfirmedJournal_writes b channelRef [] h').weaken fun h' c _ posts write => ?_
      exact .credits isOpen (Int.not_lt.mp deep) token listed c (posts write)

theorem advanceConfirmation_writes (replica : Nat) (b : Booking) (confirmations : Int)
    (channelRef : GoString)
    (chain : ChainConfig) (h : Answers) :
    Returns (Writes (AdvancesDeposit b confirmations channelRef chain))
    (advanceConfirmation cfg replica b confirmations channelRef chain)
      (fun _ _ => True) (fun _ _ => True) h := by
  unfold advanceConfirmation
  split
  · rename_i isPending
    simp only [returns_bind, returns_context, Port.transition, ask, returns_mk, meets_ask]
    refine ⟨fun _ => .opens isPending, fun ans => ?_⟩
    cases ans with
    | error e => trivial
    | ok evt =>
      -- The snapshot goes on as confirming; nothing the writes carry depends on its status.
      refine (confirmDeposit_writes cfg replica { b with status := confirming } confirmations
        channelRef chain (.inr rfl) _).weaken ?_
      intro h' c _ advances write
      cases advances write with
      | opens isPending' => exact .opens isPending
      | reviews _ reason => exact .reviews (.inl isPending) reason
      | credits _ deep token listed c posts =>
        cases posts with
        | posts authorized signed => exact .credits (.inl isPending) deep token listed _ (.posts authorized signed)
  · split
    · rename_i isConfirming
      exact confirmDeposit_writes cfg replica b confirmations channelRef chain (.inr isConfirming) h
    · exact returns_pure.mpr trivial

def deadLetterKey (cfg : OnchainConfig) (s : DepositSighting) : GoString :=
  depositIdempotencyKey s.chainID (cfg.text.toLower s.txHash) s.txLogSeq

def bookingInput (cfg : OnchainConfig) (s : DepositSighting) (holder : Int)
    (currencyUID : GoString) : CreateBookingInput :=
  ⟨depositClassificationCode, holder, currencyUID, s.amount,
    deadLetterKey cfg s, onchainChannelName,
    depositMetadata s (cfg.text.toLower s.txHash) (cfg.text.toLower s.token), 0⟩

def sightingRef (cfg : OnchainConfig) (s : DepositSighting) : GoString := depositChannelRef
    (cfg.text.toLower s.txHash) s.txLogSeq

inductive Ingests (cfg : OnchainConfig) (s : DepositSighting) (h : Answers) : PortCall → Prop where
  | books (holder : Int) (currencyUID : GoString) : Ingests cfg s h
      (.createBooking (bookingInput cfg s holder currencyUID))
  | buries (reason : String) : Ingests cfg s h (.recordDeadLetter s (deadLetterKey cfg s) reason)
  | advances (holder : Int) (currencyUID : GoString) (chain : ChainConfig) (b : Booking)
      (booked : ⟨.createBooking (bookingInput cfg s holder currencyUID), .ok b⟩ ∈ h) (c : PortCall)
      (advances : AdvancesDeposit b s.confirmations (sightingRef cfg s) chain h c) : Ingests cfg s h c

inductive Handled (cfg : OnchainConfig) (s : DepositSighting) (h : Answers) : Prop where
  | booked (holder : Int) (currencyUID : GoString) (b : Booking)
      (answer : ⟨.createBooking (bookingInput cfg s holder currencyUID), .ok b⟩ ∈ h)
  | foreignChain (unknown : cfg.chains.get s.chainID = none)
  | foreignToken (chain : ChainConfig) (configured : cfg.chains.get s.chainID = some chain)
      (unlisted : chain.creditTokens.get (cfg.text.toLower s.token) = none)
  | unregistered (addr : GoString) (to_ : checksumAddress cfg.keccak s.to_ = .ok addr) (err : Error)
      (missing : err.sentinel = .notFound)
      (answer : ⟨.getByAddress addr, .error err⟩ ∈ h)
  | buried (reason : String) (ans : Result Unit) (answer : ⟨.recordDeadLetter s (deadLetterKey cfg s) reason, ans⟩ ∈ h)

variable {h h' : Answers}

theorem Handled.mono {cfg : OnchainConfig} {s : DepositSighting} (handled : Handled cfg s h)
    (sub : h ⊆ h') : Handled cfg s h' := by
  cases handled with
  | booked holder currencyUID b answer => exact .booked holder currencyUID b (sub answer)
  | foreignChain unknown => exact .foreignChain unknown
  | foreignToken chain configured unlisted => exact .foreignToken chain configured unlisted
  | unregistered addr to_ err missing answer =>
    exact .unregistered addr to_ err missing (sub answer)
  | buried reason ans answer => exact .buried reason ans (sub answer)

def Since (h : Answers) (P : Answers → Prop) (h' : Answers) : Prop := ∃ new, h' = h ++ new ∧ P new

theorem recordIngestDeadLetter_writes (s : DepositSighting) (cause : Error) (h : Answers) :
    Returns (Writes (Ingests cfg s)) (recordIngestDeadLetter cfg s cause)
    (fun _ => Since h (Handled cfg s)) (fun _ _ => False) h := by
  simp only [recordIngestDeadLetter, returns_bind, returns_observe, Port.recordDeadLetter, ask,
    returns_mk, meets_ask]
  refine ⟨fun _ => .buries _, fun ans => ?_⟩
  cases ans <;> exact ⟨_, rfl, .buried cause.text _ (List.mem_singleton_self _)⟩

theorem classifyIngestConflict_writes (s : DepositSighting) (txHash key : GoString)
    (cause : Error) (h : Answers) :
    Returns (Writes (Ingests cfg s)) (classifyIngestConflict s txHash key cause) (fun _ _ => True)
    (fun _ _ => False) h := by
  simp only [classifyIngestConflict, returns_bind, returns_observe, Port.bookingsForDepositIdentity,
    ask, returns_mk, meets_ask]
  refine ⟨nofun, fun ans => ?_⟩
  cases ans with
  | error e => exact returns_pure.mpr trivial
  | ok holders =>
    dsimp only
    split <;> exact returns_pure.mpr trivial

theorem ingestDeposit_writes (replica : Nat) (s : DepositSighting) (h : Answers) :
    Returns (Writes (Ingests cfg s)) (ingestDeposit cfg replica s)
    (fun _ => Since h (Handled cfg s)) (fun _ _ => True) h := by
  rw [ingestDeposit, returns_bind, returns_ofResult]
  refine ⟨fun _ _ => ?_, fun _ _ => trivial⟩
  split
  · rename_i unknown
    exact returns_pure.mpr ⟨[], (List.append_nil h).symm, .foreignChain unknown⟩
  rename_i chain configured
  dsimp only
  split
  · rename_i unlisted
    exact returns_pure.mpr ⟨[], (List.append_nil h).symm, .foreignToken chain configured unlisted⟩
  rename_i tokenCfg listed
  rw [returns_bind, returns_ofResult]
  refine ⟨fun addr normalized => ?_, fun _ _ => trivial⟩
  simp only [returns_bind, returns_observe, Port.getByAddress, ask, returns_mk, meets_ask]
  refine ⟨nofun, fun ans => ?_⟩
  cases ans with
  | error err =>
    dsimp only
    split
    · rename_i missing
      have to_ : checksumAddress cfg.keccak s.to_ = .ok addr := within_eq_ok.mp normalized
      exact returns_pure.mpr ⟨_, rfl, .unregistered addr to_ err missing (List.mem_singleton_self _)⟩
    · exact returns_throw.mpr trivial
  | ok da =>
    simp only [returns_bind, returns_context, returns_observe, Port.currencyUID, Port.createBooking,
      ask, returns_mk, meets_ask]
    refine ⟨nofun, fun ans => ?_⟩
    cases ans with
    | error err => trivial
    | ok currencyUID =>
      refine ⟨fun _ => .books da.accountHolder currencyUID, fun ans => ?_⟩
      cases ans with
      | error err =>
        dsimp only
        split
        · simp only [returns_bind]
          refine (classifyIngestConflict_writes cfg s _ _ err _).mono ?_ fun _ _ _ => False.elim
          intro cause h' _ _
          rw [returns_bind]
          refine (recordIngestDeadLetter_writes cfg s cause h').mono ?_ fun _ _ _ => False.elim
          intro _ _ _ _
          exact returns_throw.mpr trivial
        · exact returns_throw.mpr trivial
      | ok b =>
        -- From here on the booking's row is in the answers.
        set h₁ := ((h ++ _) ++ _) ++ _ with history
        have booked : (⟨.createBooking (bookingInput cfg s da.accountHolder currencyUID), .ok b⟩ :
          Exchange PortCall PortCall.Answer) ∈ h₁ := by
          simp [history, bookingInput, deadLetterKey]
        have since : ∀ h', h₁ <+: h' → Since h (Handled cfg s) h' := by
          rintro h' ⟨more, rfl⟩
          refine ⟨_, by rw [history]; simp only [List.append_assoc]; rfl, .booked da.accountHolder currencyUID b ?_⟩
          simp [bookingInput, deadLetterKey]
        refine ((advanceConfirmation_writes cfg replica b s.confirmations (sightingRef cfg s) chain h₁).weaken ?_).mono
          (fun _ h' longer _ => since h' longer) fun _ _ _ _ => trivial
        intro h' c longer advances write
        exact .advances da.accountHolder currencyUID chain b (longer.subset booked) c (advances write)

/-- The chain re-read: a log at the booking's position with its token, its amount and its holder's
address. -/
inductive Corroborated (cfg : OnchainConfig) (b : Booking) (m : DepositMeta)
    (h : Answers) : Prop where
  | intro (addrs : List GoString) (sightings : List DepositSighting) (s : DepositSighting)
      (addr : GoString) (da : DepositAddress)
      (read : ⟨.fetchDeposits m.chainID m.blockNumber m.blockNumber addrs, .ok sightings⟩ ∈ h) (found : s ∈ sightings)
      (hash : cfg.text.equalFold s.txHash m.txHash = true) (position : s.txLogSeq = m.txLogSeq)
      (token : cfg.text.toLower s.token = cfg.text.toLower ((b.metadata.get (lit "token")).getD []))
      (amount : s.amount.equal b.amount = true) (to_ : checksumAddress cfg.keccak s.to_ = .ok addr)
      (registered : ⟨.getByAddress addr, .ok da⟩ ∈ h) (holder : da.accountHolder = b.accountHolder)

theorem Corroborated.mono {cfg : OnchainConfig} {b : Booking} {m : DepositMeta}
    (found : Corroborated cfg b m h)
    (sub : h ⊆ h') : Corroborated cfg b m h' := by
  obtain ⟨addrs, sightings, s, addr, da, read, member, hash, position, token, amount, to_,
    registered, holder⟩ := found
  exact ⟨addrs, sightings, s, addr, da, sub read, member, hash, position, token, amount, to_,
    sub registered, holder⟩

def unverifiedRef (b : Booking) (m : DepositMeta) :
    GoString := depositChannelRef m.txHash m.txLogSeq ++ lit "#unverified-" ++ b.uid

inductive Rechecks (cfg : OnchainConfig) (b : Booking) (m : DepositMeta) (h : Answers) :
    PortCall → Prop where
  | fails : Rechecks cfg b m h
      (.transition (depositTransition b.uid failed
        (depositChannelRef m.txHash m.txLogSeq) .zero .empty))
  | opens (isPending : b.status = pending) : Rechecks cfg b m h (confirmingCall b (unverifiedRef b m))
  | reviews : Rechecks cfg b m h (reviewCall b (unverifiedRef b m) reviewReasonOnchainUnverified)
  | advances (chain : ChainConfig) (configured : cfg.chains.get m.chainID = some chain) (latest : Int)
      (head : ⟨.latestBlock m.chainID, .ok latest⟩ ∈ h) (evidence : Corroborated cfg b m h) (c : PortCall)
      (advances : AdvancesDeposit b (toInt32 (confirmationsAt latest m.blockNumber))
        (depositChannelRef m.txHash m.txLogSeq) chain h c) :
      Rechecks cfg b m h c

def TickCache.answered (cache : TickCache) (h : Answers) : Prop :=
  ∀ head ∈ cache.heads, (⟨.latestBlock head.1, .ok head.2⟩ : Exchange PortCall PortCall.Answer) ∈ h

variable {cache : TickCache}

theorem TickCache.answered.mono (answered : cache.answered h) (longer : h <+: h') :
    cache.answered h' := fun head member => longer.subset (answered head member)

theorem latestBlockOnce_writes (answered : cache.answered h) (chainID : Int) :
    Meets (Writes fun _ _ => False) (latestBlockOnce cache chainID)
      (fun r h' => r.1.answered h' ∧ ∀ latest, r.2 = .ok latest →
        ⟨.latestBlock chainID, .ok latest⟩ ∈ h') h := by
  unfold latestBlockOnce
  split
  · rename_i head found
    refine ⟨answered, ?_⟩
    rintro latest ⟨⟩
    have same : head.1 = chainID := by simpa using List.find?_some found
    exact same ▸ answered head (List.mem_of_find?_eq_some found)
  · simp only [meets_bind, Port.latestBlock, ExceptT.run_mk, ask, meets_ask]
    refine ⟨nofun, fun ans => ?_⟩
    cases ans with
    | error e => exact ⟨answered.mono (List.prefix_append h _), nofun⟩
    | ok latest =>
      refine ⟨?_, ?_⟩
      · intro head member
        rcases List.mem_cons.mp member with rfl | old
        · exact List.mem_append_right _ (List.mem_singleton_self _)
        · exact List.mem_append_left _ (answered head old)
      · rintro latest' ⟨⟩
        exact List.mem_append_right _ (List.mem_singleton_self _)

theorem registeredAddresses_writes (cache : TickCache) (h : Answers) :
    Meets (Writes fun _ _ => False) (registeredAddresses cache)
    (fun r _ => r.1.heads = cache.heads) h := by
  unfold registeredAddresses
  split
  · exact meets_done.mpr rfl
  · simp only [meets_bind, Port.listAddresses, ExceptT.run_mk, ask, meets_ask]
    exact ⟨nofun, fun _ => rfl⟩

theorem compareSighting_writes (b : Booking) (s : DepositSighting) (h : Answers) :
    Meets (Writes fun _ _ => False) (compareSighting cfg b s)
    (fun evidence h' => evidence = .corroborated →
        cfg.text.toLower s.token = cfg.text.toLower ((b.metadata.get (lit "token")).getD []) ∧
        s.amount.equal b.amount = true ∧
        ∃ addr da, checksumAddress cfg.keccak s.to_ = .ok addr ∧ ⟨.getByAddress addr, .ok da⟩ ∈ h' ∧
          da.accountHolder = b.accountHolder) h := by
  unfold compareSighting
  split
  · exact meets_done.mpr nofun
  split
  · exact meets_done.mpr nofun
  rename_i token amount
  split
  · exact meets_done.mpr nofun
  rename_i addr normalized
  simp only [meets_bind, Port.getByAddress, ExceptT.run_mk, ask, meets_ask]
  refine ⟨nofun, fun ans => ?_⟩
  cases ans with
  | error e =>
    dsimp only
    split <;> exact meets_done.mpr nofun
  | ok da =>
    dsimp only
    split
    · exact meets_done.mpr nofun
    · rename_i holder
      refine meets_done.mpr fun _ => ⟨not_not.mp token, by simpa using amount, addr, da, normalized,
        ?_, not_not.mp holder⟩
      exact List.mem_append_right _ (List.mem_singleton_self _)

theorem corroborateBeforeConfirm_writes (b : Booking) (m : DepositMeta)
    (answered : cache.answered h) :
    Meets (Writes fun _ _ => False) (corroborateBeforeConfirm cfg cache b m)
      (fun r h' => r.1.answered h' ∧ (r.2 = .corroborated → Corroborated cfg b m h')) h := by
  unfold corroborateBeforeConfirm
  simp only [meets_bind, Port.bookingsForDepositIdentity, ExceptT.run_mk, ask, meets_ask]
  refine ⟨nofun, fun ans => ?_⟩
  replace answered := answered.mono (List.prefix_append h [⟨_, ans⟩])
  cases ans with
  | error e => exact ⟨answered, nofun⟩
  | ok siblings =>
    dsimp only
    split
    · exact ⟨answered, nofun⟩
    simp only [meets_bind, Port.txIncluded, ExceptT.run_mk, ask, meets_ask]
    refine ⟨nofun, fun ans => ?_⟩
    replace answered := answered.mono (List.prefix_append _ [⟨_, ans⟩])
    rcases ans with e | included | included
    iterate 2 exact ⟨answered, nofun⟩
    simp only [meets_bind]
    refine (registeredAddresses_writes cache _).mono fun r h' longer heads => ?_
    obtain ⟨cache', listed⟩ := r
    have answered' : cache'.answered h' := fun head member => answered.mono longer head (heads ▸ member)
    dsimp only
    split
    iterate 2 exact ⟨answered', nofun⟩
    rename_i addrs _
    simp only [meets_bind, Port.fetchDeposits, ExceptT.run_mk, ask, meets_ask]
    refine ⟨nofun, fun ans => ?_⟩
    replace answered' := answered'.mono (List.prefix_append h' [⟨_, ans⟩])
    cases ans with
    | error e => exact ⟨answered', nofun⟩
    | ok sightings =>
      dsimp only
      split
      · exact ⟨answered', nofun⟩
      rename_i s found
      have same := List.find?_some found
      simp only [Bool.and_eq_true, beq_iff_eq] at same
      simp only [meets_bind]
      refine (compareSighting_writes cfg b s _).mono fun evidence h'' longer agrees =>
        ⟨answered'.mono longer, fun is => ?_⟩
      obtain ⟨token, amount, addr, da, normalized, registered, holder⟩ := agrees is
      refine ⟨addrs, sightings, s, addr, da, longer.subset ?_, List.mem_of_find?_eq_some found,
        same.1, same.2, token, amount,
        normalized, registered, holder⟩
      exact List.mem_append_right _ (List.mem_singleton_self _)

theorem recheckShallow_writes (replica : Nat) (b : Booking) (m : DepositMeta) (h : Answers) :
    Returns (Writes (Rechecks cfg b m)) (recheckShallow cfg replica b m) (fun _ _ => True)
    (fun _ _ => True) h := by
  simp only [recheckShallow, returns_bind, returns_context, Port.txIncluded, ask,
    returns_mk, meets_ask]
  refine ⟨nofun, fun ans => ?_⟩
  rcases ans with e | included | included
  · trivial
  · simp only [Bool.false_eq_true, if_false, returns_bind, returns_count, meets_ask]
    refine ⟨nofun, fun misses => ?_⟩
    split
    · exact returns_pure.mpr trivial
    · simp only [returns_bind, returns_context, returns_count, Port.transition, ask, returns_mk, meets_ask]
      refine ⟨fun _ => .fails, fun ans => ?_⟩
      cases ans with
      | error e => trivial
      | ok evt => exact ⟨nofun, fun _ => trivial⟩
  · simp only [if_true, returns_count, meets_ask]
    exact ⟨nofun, fun _ => trivial⟩

theorem recheckContradicted_writes (replica : Nat) (b : Booking) (m : DepositMeta) (h : Answers) :
    Returns (Writes (Rechecks cfg b m)) (recheckContradicted cfg replica b m) (fun _ _ => True)
    (fun _ _ => True) h := by
  have toReview : ∀ h, Returns (Writes (Rechecks cfg b m))
    (routeToReview b (unverifiedRef b m) reviewReasonOnchainUnverified)
      (fun _ => Returns (Writes (Rechecks cfg b m))
        (Port.count (ask (.clearEvidenceMiss replica b.uid))) (fun _ _ => True)
        fun _ _ => True) (fun _ _ => True) h := by
    intro h
    refine ((routeToReview_writes b _ reviewReasonOnchainUnverified h).weaken ?_).mono
      (fun _ h' _ _ => ?_) fun _ _ _ _ => trivial
    · intro h' c _ is write
      rw [is write]
      exact .reviews
    · rw [returns_count]
      exact ⟨nofun, fun _ => trivial⟩
  simp only [recheckContradicted, returns_bind, returns_count, ask, meets_ask]
  refine ⟨nofun, fun misses => ?_⟩
  split
  · exact returns_pure.mpr trivial
  · split
    · rename_i isPending
      simp only [returns_bind, returns_context, Port.transition, ask, returns_mk, meets_ask]
      refine ⟨fun _ => .opens isPending, fun ans => ?_⟩
      cases ans with
      | error e => trivial
      | ok evt => exact toReview _
    · rw [returns_bind, returns_context]
      exact toReview _

theorem recheckOneDeposit_writes (replica : Nat) (b : Booking) (answered : cache.answered h) :
    Meets (Writes fun h c => ∃ m, parseDepositMeta b.metadata = some m ∧ Rechecks cfg b m h c)
    (recheckOneDeposit cfg replica cache b)
      (fun r h' => r.1.answered h') h := by
  unfold recheckOneDeposit
  split
  · exact meets_done.mpr answered
  rename_i m named
  split
  · exact meets_done.mpr answered
  rename_i chain configured
  rw [meets_bind]
  refine ((latestBlockOnce_writes answered m.chainID).weaken fun _ _ _ none_ write =>
    (none_ write).elim).mono ?_
  rintro ⟨cache₁, head⟩ h₁ - ⟨answered₁, head_⟩
  dsimp only at answered₁ head_ ⊢
  split
  · exact meets_done.mpr answered₁
  rename_i latest
  replace head_ := head_ latest rfl
  split
  · rw [meets_bind, meets_run]
    refine ((recheckShallow_writes cfg replica b m h₁).weaken fun h' c _ rechecks write =>
      ⟨m, named, rechecks write⟩).mono ?_ ?_ <;>
      exact fun _ h' longer _ => answered₁.mono longer
  simp only [meets_bind, ask, meets_ask]
  refine ⟨nofun, fun _ => ?_⟩
  refine ((corroborateBeforeConfirm_writes cfg b m
    (answered₁.mono (List.prefix_append h₁ [⟨_, _⟩]))).weaken ?_).mono ?_
  · exact fun _ _ _ none_ write => (none_ write).elim
  rintro ⟨cache₂, evidence⟩ h₂ longer₂ ⟨answered₂, agrees⟩
  replace head_ := ((List.prefix_append h₁ _).trans longer₂).subset head_
  dsimp only at answered₂ agrees ⊢
  split
  · exact meets_done.mpr answered₂
  · rw [meets_bind, meets_run]
    refine ((recheckContradicted_writes cfg replica b m h₂).weaken fun h' c _ rechecks write =>
      ⟨m, named, rechecks write⟩).mono ?_ ?_ <;>
      exact fun _ h' longer _ => answered₂.mono longer
  · simp only [meets_bind, meets_ask]
    refine ⟨nofun, fun _ => ?_⟩
    rw [meets_run, returns_context]
    refine ((advanceConfirmation_writes cfg replica b _ _ chain _).weaken ?_).mono ?_ ?_
    · intro h' c longer advances write
      have sub := ((List.prefix_append h₂ _).trans longer).subset
      exact ⟨m, named, .advances chain configured latest (sub head_) ((agrees rfl).mono sub) c (advances write)⟩
    all_goals exact fun _ h' longer _ => answered₂.mono ((List.prefix_append h₂ _).trans longer)

theorem recheckBookings_writes (replica : Nat) (bookings : List Booking)
    (answered : cache.answered h) :
    Meets (Writes fun h c => ∃ b ∈ bookings, ∃ m, parseDepositMeta b.metadata = some m ∧
      Rechecks cfg b m h c)
      (recheckBookings cfg replica cache bookings) (fun r h' => r.1.answered h') h := by
  induction bookings generalizing cache h with
  | nil => exact meets_done.mpr answered
  | cons b rest ih =>
    rw [recheckBookings, meets_bind]
    refine ((recheckOneDeposit_writes cfg replica b answered).weaken ?_).mono ?_
    · exact fun h' c _ rechecks write => ⟨b, List.mem_cons_self, rechecks write⟩
    rintro ⟨cache₁, done⟩ h₁ - answered₁
    dsimp only at answered₁ ⊢
    rw [meets_bind]
    refine ((ih answered₁).weaken ?_).mono fun r h' _ held => held
    intro h' c _ rechecks write
    obtain ⟨b', member, rest_⟩ := rechecks write
    exact ⟨b', List.mem_cons_of_mem b member, rest_⟩

def Listed (depositUID : GoString) (status : Status) (h : Answers) (b : Booking) : Prop :=
  ∃ cursor bookings next, ⟨.listBookings ⟨0, depositUID, status, cursor, 200⟩,
    .ok (bookings, next)⟩ ∈ h ∧ b ∈ bookings

def RechecksListed (cfg : OnchainConfig) (depositUID : GoString) (status : Status) (h : Answers)
    (c : PortCall) : Prop :=
  ∃ b, Listed depositUID status h b ∧ ∃ m, parseDepositMeta b.metadata = some m ∧
    Rechecks cfg b m h c

theorem recheckStatus_writes (replica : Nat) (depositUID : GoString) (status : Status)
    (pages : Nat) (cursor : Nat)
    (answered : cache.answered h) :
    Meets (Writes (RechecksListed cfg depositUID status))
    (recheckStatus cfg replica depositUID status pages cache cursor)
      (fun r h' => r.1.answered h') h := by
  induction pages generalizing cache cursor h with
  | zero => exact meets_done.mpr answered
  | succ pages ih =>
    simp only [recheckStatus, meets_bind, Port.listBookings, ExceptT.run_mk, ask, meets_ask]
    refine ⟨nofun, fun ans => ?_⟩
    have answered₁ := answered.mono (List.prefix_append h [⟨_, ans⟩])
    rcases ans with e | ⟨bookings, next⟩
    · exact meets_done.mpr answered₁
    simp only [meets_bind]
    refine ((recheckBookings_writes cfg replica bookings answered₁).weaken ?_).mono ?_
    · intro h' c longer rechecks write
      obtain ⟨b, member, m, named, rechecks⟩ := rechecks write
      refine ⟨b, ⟨cursor, bookings, next, longer.subset ?_, member⟩, m, named, rechecks⟩
      exact List.mem_append_right _ (List.mem_singleton_self _)
    rintro ⟨cache₂, errs⟩ h₂ - answered₂
    dsimp only at answered₂ ⊢
    cases next with
    | none => exact meets_done.mpr answered₂
    | some cursor =>
      simp only [meets_bind]
      exact (ih cursor answered₂).mono fun r h' _ held => held

theorem recheckPendingDeposits_writes (replica pages : Nat) (h : Answers) :
    Meets (Writes fun h c => ∃ depositUID,
      ⟨.classificationUID depositClassificationCode, .ok depositUID⟩ ∈ h ∧
        ∃ status, (status = pending ∨ status = confirming) ∧ RechecksListed cfg depositUID status h c)
      (recheckPendingDeposits cfg replica pages) (fun _ _ => True) h := by
  simp only [recheckPendingDeposits, meets_bind, Port.classificationUID,
    ExceptT.run_mk, ask, meets_ask]
  refine ⟨nofun, fun ans => ?_⟩
  cases ans with
  | error e => trivial
  | ok depositUID =>
    simp only [meets_bind]
    refine ((recheckStatus_writes cfg replica depositUID pending pages 0 (by nofun)).weaken ?_).mono ?_
    · intro h' c longer rechecks write
      refine ⟨depositUID, longer.subset (List.mem_append_right _ (List.mem_singleton_self _)),
        pending, .inl rfl, rechecks write⟩
    rintro ⟨cache, errs⟩ h₁ longer₁ answered
    rw [meets_bind]
    refine ((recheckStatus_writes cfg replica depositUID confirming pages 0 answered).weaken
      ?_).mono fun _ _ _ _ => trivial
    intro h' c longer rechecks write
    have sub := (longer₁.trans longer).subset
    exact ⟨depositUID, sub (List.mem_append_right _ (List.mem_singleton_self _)), confirming,
      .inr rfl, rechecks write⟩

theorem requireDepositBooking_writes (uid : GoString) (h : Answers) :
    Returns (Writes fun _ _ => False) (requireDepositBooking uid)
    (fun b h' => ⟨.getBooking uid, .ok b⟩ ∈ h') (fun _ _ => True) h := by
  simp only [requireDepositBooking, returns_bind, returns_context, Port.getBooking,
    Port.classificationUID, ask, returns_mk, meets_ask]
  refine ⟨nofun, fun ans => ?_⟩
  cases ans with
  | error e => trivial
  | ok b =>
    refine ⟨nofun, fun ans => ?_⟩
    cases ans with
    | error e => trivial
    | ok depositUID =>
      dsimp only
      split
      · exact returns_throw.mpr trivial
      · exact returns_pure.mpr (by simp)

inductive Decides (uid : GoString) (h : Answers) (decision : Booking → PortCall → Prop)
    (c : PortCall) : Prop where
  | intro (b : Booking) (read : ⟨.getBooking uid, .ok b⟩ ∈ h) (underReview : b.status = review) (decided : decision b c)

theorem approveReview_writes (uid actor : GoString) (h : Answers) :
    Returns (Writes fun h c => Decides uid h (fun b => Credits b b.channelRef actor h) c)
    (approveReview uid actor) (fun _ _ => True)
      (fun _ _ => True) h := by
  rw [approveReview, returns_bind, returns_context]
  refine ((requireDepositBooking_writes uid h).weaken fun _ _ _ none_ write =>
    (none_ write).elim).mono ?_ fun _ _ _ _ => trivial
  intro b h₁ _ read
  split
  · exact returns_pure.mpr trivial
  split
  · rename_i underReview
    rw [returns_context]
    refine (postDepositConfirmedJournal_writes b b.channelRef actor h₁).weaken fun h' c
      longer posts write => ?_
    exact ⟨b, longer.subset read, underReview, posts write⟩
  · exact returns_throw.mpr trivial

theorem rejectReview_writes (uid actor reason : GoString) (h : Answers) :
    Returns (Writes fun h c => Decides uid h
        (fun b c => c = .transition (depositTransition b.uid failed b.channelRef .zero
          (rejectMetadata actor reason))) c)
      (rejectReview uid actor reason) (fun _ _ => True) (fun _ _ => True) h := by
  rw [rejectReview, returns_bind, returns_context]
  refine ((requireDepositBooking_writes uid h).weaken fun _ _ _ none_ write =>
    (none_ write).elim).mono ?_ fun _ _ _ _ => trivial
  intro b h₁ _ read
  split
  · exact returns_pure.mpr trivial
  split
  · rename_i underReview
    simp only [returns_bind, returns_context, Port.transition, Port.getBooking, ask,
      returns_mk, meets_ask]
    refine ⟨fun _ => ⟨b, read, underReview, rfl⟩, fun ans => ?_⟩
    cases ans with
    | error e => trivial
    | ok evt => exact ⟨nofun, fun ans => by cases ans <;> trivial⟩
  · exact returns_throw.mpr trivial

section

variable {cfg : OnchainConfig} {s : DepositSighting} {rest : List DepositSighting}
  {h h' new : Answers} {c : PortCall}

theorem Writes.head (writes : Writes (Ingests cfg s) h c) :
    Writes (fun h c => ∃ s' ∈ s :: rest, Ingests cfg s' h c) h c :=
  fun write => ⟨s, List.mem_cons_self, writes write⟩

theorem Writes.tail (writes : Writes (fun h c => ∃ s' ∈ rest, Ingests cfg s' h c) h c) :
    Writes (fun h c => ∃ s' ∈ s :: rest, Ingests cfg s' h c) h c := by
  intro write
  obtain ⟨s', member, ingests⟩ := writes write
  exact ⟨s', List.mem_cons_of_mem s member, ingests⟩

theorem Since.cons {P : Prop} (handled : Handled cfg s new)
    (since : Since (h ++ new) (fun more => P → ∀ s' ∈ rest, Handled cfg s' more) h') :
    Since h (fun more => P → ∀ s' ∈ s :: rest, Handled cfg s' more) h' := by
  obtain ⟨more, rfl, all⟩ := since
  refine ⟨new ++ more, List.append_assoc .., fun none_ s' member => ?_⟩
  rcases List.mem_cons.mp member with rfl | later
  · exact handled.mono (List.subset_append_left new more)
  · exact (all none_ s' later).mono (List.subset_append_right new more)

end

theorem ingestWindow_writes (replica : Nat) (sightings : List DepositSighting) (h : Answers) :
    Meets (Writes fun h c => ∃ s ∈ sightings, Ingests cfg s h c)
    (ingestWindow cfg replica sightings)
      (fun blocked => Since h fun new => blocked = [] → ∀ s ∈ sightings, Handled cfg s new) h := by
  induction sightings generalizing h with
  | nil => exact ⟨[], (List.append_nil h).symm, fun _ => nofun⟩
  | cons s rest ih =>
    have go := fun new (handled : Handled cfg s new) =>
      ((ih (h ++ new)).weaken fun _ _ _ => Writes.tail (s := s)).mono fun _ _ _ => Since.cons handled
    rw [ingestWindow, meets_bind, meets_run]
    refine ((ingestDeposit_writes cfg replica s h).weaken fun _ _ _ => .head).mono ?_ ?_
    · rintro booking _ - ⟨new, rfl, handled⟩
      exact go new handled
    · rintro err h₁ ⟨before, rfl⟩ -
      dsimp only
      split
      · rw [meets_bind, meets_run]
        refine ((recordIngestDeadLetter_writes cfg s err _).weaken fun _ _ _ => .head).mono ?_ fun _ _ _ => False.elim
        rintro _ _ - ⟨new, rfl, handled⟩
        rw [List.append_assoc]
        exact go (before ++ new) (handled.mono (List.subset_append_right before new))
      · rw [meets_bind]
        refine ((ih (h ++ before)).weaken fun _ _ _ => .tail).mono ?_
        rintro blocked h' - ⟨more, rfl, -⟩
        exact ⟨before ++ more, List.append_assoc .., nofun⟩

theorem deadLetterAll_writes (cause : Error) (sightings : List DepositSighting) (h : Answers) :
    Meets (Writes fun h c => ∃ s ∈ sightings, Ingests cfg s h c) (deadLetterAll cfg cause sightings)
    (fun _ _ => True) h := by
  induction sightings generalizing h with
  | nil => exact meets_done.mpr trivial
  | cons s rest ih =>
    rw [deadLetterAll, meets_bind, meets_run]
    refine ((recordIngestDeadLetter_writes cfg s cause h).weaken fun _ _ _ => .head).mono ?_
      fun _ _ _ => False.elim
    exact fun _ h₁ _ _ => (ih h₁).weaken fun _ _ _ => .tail

theorem escalateWatcherStall_writes (replica : Nat) (chainID : Int) (blocked : List DepositSighting)
    (h : Answers) :
    Meets (Writes fun h c => ∃ s, Ingests cfg s h c)
    (escalateWatcherStall cfg replica chainID blocked) (fun _ _ => True) h := by
  simp only [escalateWatcherStall, meets_bind, ask, meets_ask]
  refine ⟨nofun, fun failures => ?_⟩
  split
  · exact meets_done.mpr trivial
  · refine (deadLetterAll_writes cfg _ blocked _).weaken fun h' c _ ingests write => ?_
    obtain ⟨s, _, ingests⟩ := ingests write
    exact ⟨s, ingests⟩

def cursorBlock : Result Int → Int
  | .ok last => last + 1
  | .error _ => 0

structure Window (cfg : OnchainConfig) (chain : ChainConfig) (cursor : Result Int)
    (latest from_ to_ : Int) : Prop where
  missing : ∀ err, cursor = .error err → err.sentinel = .notFound
  start : from_ = withLookback cfg (safeTip chain latest) (cursorBlock cursor)
  stop : to_ = windowEnd cfg from_ (safeTip chain latest)
  below : from_ ≤ safeTip chain latest

inductive Scans (cfg : OnchainConfig) (chainID : Int) (h : Answers) : PortCall → Prop where
  | ingests (s : DepositSighting) (c : PortCall) (ingests : Ingests cfg s h c) : Scans cfg chainID h c
  -- Nobody to look for.
  | skips (chain : ChainConfig) (configured : cfg.chains.get chainID = some chain)
      (cursor : Result Int) (latest from_ to_ : Int)
      (window : Window cfg chain cursor latest from_ to_)
      (answers : h = [⟨.getCursor chainID, cursor⟩, ⟨.latestBlock chainID, .ok latest⟩, ⟨.listAddresses, .ok []⟩]) :
      Scans cfg chainID h (.setCursor chainID to_)
  | moves (chain : ChainConfig) (configured : cfg.chains.get chainID = some chain)
      (cursor : Result Int) (latest from_ to_ : Int)
      (window : Window cfg chain cursor latest from_ to_) (rows : List DepositAddress)
        (sightings : List DepositSighting) (rest : Answers)
      (answers : h = [⟨.getCursor chainID, cursor⟩, ⟨.latestBlock chainID, .ok latest⟩, ⟨.listAddresses, .ok rows⟩,
        ⟨.fetchDeposits chainID from_ to_ (rows.map (·.address)), .ok sightings⟩] ++ rest)
      (handled : ∀ s ∈ sightings, Handled cfg s rest) : Scans cfg chainID h (.setCursor chainID to_)

theorem scanFrom_writes (chainID : Int) :
    Returns (Writes fun _ _ => False) (scanFrom chainID) (fun block h' => ∃ cursor, block =
      cursorBlock cursor ∧
      (∀ err, cursor = .error err → err.sentinel = .notFound) ∧ h' = [⟨.getCursor chainID, cursor⟩])
      (fun _ _ => True) [] := by
  simp only [scanFrom, returns_bind, returns_observe, Port.getCursor, ask, returns_mk, meets_ask]
  refine ⟨nofun, fun ans => ?_⟩
  cases ans with
  | ok last => exact returns_pure.mpr ⟨.ok last, rfl, nofun, rfl⟩
  | error err =>
    dsimp only
    split
    · rename_i missing
      refine returns_pure.mpr ⟨.error err, rfl, ?_, rfl⟩
      rintro _ ⟨⟩
      exact missing
    · exact returns_throw.mpr trivial

theorem scanChainOnce_writes (replica : Nat) (chainID : Int) :
    Returns (Writes (Scans cfg chainID)) (scanChainOnce cfg replica chainID) (fun _ _ => True)
    (fun _ _ => True) [] := by
  unfold scanChainOnce
  split
  · exact returns_throw.mpr trivial
  rename_i chain configured
  rw [returns_bind]
  refine ((scanFrom_writes chainID).weaken fun _ _ _ none_ write => (none_ write).elim).mono ?_
    fun _ _ _ _ => trivial
  rintro _ _ - ⟨cursor, rfl, missing, rfl⟩
  simp only [returns_bind, returns_context, Port.latestBlock, ask, returns_mk, meets_ask]
  refine ⟨nofun, fun ans => ?_⟩
  cases ans with
  | error e => trivial
  | ok latest =>
    dsimp only
    split
    · exact returns_pure.mpr trivial
    rename_i below
    have window : Window cfg chain cursor latest _ _ := ⟨missing, rfl, rfl, Int.not_lt.mp below⟩
    simp only [returns_bind, returns_context, Port.listAddresses, ask, returns_mk, meets_ask]
    refine ⟨nofun, fun ans => ?_⟩
    cases ans with
    | error e => trivial
    | ok rows =>
      dsimp only
      split
      · rename_i nobody
        simp only [returns_context, Port.setCursor, ask, returns_mk, meets_ask]
        refine ⟨fun _ => .skips chain configured cursor latest _ _ window (by rw [nobody]; rfl),
          fun ans => by cases ans <;> trivial⟩
      · simp only [returns_bind, returns_context, Port.fetchDeposits, ask, returns_mk, meets_ask]
        refine ⟨nofun, fun ans => ?_⟩
        cases ans with
        | error e => trivial
        | ok sightings =>
          dsimp only
          rw [returns_count]
          refine ((ingestWindow_writes cfg replica sightings _).weaken ?_).mono ?_
          · intro h' c _ ingests write
            obtain ⟨s, _, ingests⟩ := ingests write
            exact .ingests s c ingests
          rintro blocked h₁ - ⟨new, rfl, handled⟩
          cases blocked with
          | nil =>
            simp only [returns_bind, returns_context, returns_count, Port.setCursor, ask, returns_mk, meets_ask]
            refine ⟨fun _ => .moves chain configured cursor latest _ _ window rows sightings new rfl
              (handled rfl), fun ans => ?_⟩
            cases ans with
            | error e => trivial
            | ok _ => exact ⟨nofun, fun _ => trivial⟩
          | cons first blocked =>
            rw [returns_bind, returns_count]
            refine ((escalateWatcherStall_writes cfg replica chainID _ _).weaken ?_).mono ?_
            · intro h' c _ ingests write
              obtain ⟨s, ingests⟩ := ingests write
              exact .ingests s c ingests
            · intro _ _ _ _
              exact returns_throw.mpr trivial

theorem ingestRescan_writes (replica : Nat) (sightings : List DepositSighting) (h : Answers) :
    Returns (Writes fun h c => ∃ s ∈ sightings, Ingests cfg s h c)
    (ingestRescan cfg replica sightings)
      (fun _ => Since h fun new => True → ∀ s ∈ sightings, Handled cfg s new) (fun _ _ => True) h := by
  induction sightings generalizing h with
  | nil => exact ⟨[], (List.append_nil h).symm, fun _ => nofun⟩
  | cons s rest ih =>
    have go := fun new (handled : Handled cfg s new) =>
      ((ih (h ++ new)).weaken fun _ _ _ => Writes.tail (s := s)).mono
        (fun _ _ _ => Since.cons handled) fun _ _ _ _ => trivial
    rw [ingestRescan, returns_bind, returns_observe]
    refine ((ingestDeposit_writes cfg replica s h).weaken fun _ _ _ => .head).mono ?_ ?_
    · rintro booking _ - ⟨new, rfl, handled⟩
      exact go new handled
    · rintro err h₁ ⟨before, rfl⟩ -
      dsimp only
      split
      · rw [returns_bind]
        refine ((recordIngestDeadLetter_writes cfg s err _).weaken fun _ _ _ => .head).mono ?_ fun _ _ _ => False.elim
        rintro _ _ - ⟨new, rfl, handled⟩
        rw [List.append_assoc]
        exact go (before ++ new) (handled.mono (List.subset_append_right before new))
      · exact returns_throw.mpr trivial

inductive Advance (cfg : OnchainConfig) (job : RegistrationRescan) (h : Answers) :
    Int → Bool → Prop where
  -- Nothing below the tip is left.
  | finishes (latest : Int) (above : rescanTip cfg job.chainID latest < job.nextBlock)
      (answers : h = [⟨.latestBlock job.chainID, .ok latest⟩]) : Advance cfg job h job.nextBlock true
  | moves (latest : Int) (below : job.nextBlock ≤ rescanTip cfg job.chainID latest) (to_ : Int)
      (stop : to_ = min (job.nextBlock + cfg.maxBlocksPerScan - 1) (rescanTip cfg job.chainID latest))
      (sightings : List DepositSighting) (rest : Answers)
      (answers : h = [⟨.latestBlock job.chainID, .ok latest⟩,
        ⟨.fetchDeposits job.chainID job.nextBlock to_ [job.address], .ok sightings⟩] ++ rest)
      (handled : ∀ s ∈ sightings, Handled cfg s rest) :
        Advance cfg job h (to_ + 1) (rescanTip cfg job.chainID latest ≤ to_)

inductive Rescans (cfg : OnchainConfig) (job : RegistrationRescan) (h : Answers) :
    PortCall → Prop where
  | ingests (s : DepositSighting) (c : PortCall) (ingests : Ingests cfg s h c) : Rescans cfg job h c
  | advances (nextBlock : Int) (completed : Bool) (advance : Advance cfg job h nextBlock completed) :
      Rescans cfg job h (.advanceRescan job.uid nextBlock completed job.attempts)
  | retries (delay : Int) : Rescans cfg job h (.retryRescan job.uid delay job.attempts)

theorem processRegistrationRescan_writes (replica : Nat) (job : RegistrationRescan) :
    Returns (Writes (Rescans cfg job)) (processRegistrationRescan cfg replica job) (fun _ _ => True)
    (fun _ _ => True) [] := by
  simp only [processRegistrationRescan, returns_bind, returns_context, Port.latestBlock, ask,
    returns_mk, meets_ask]
  refine ⟨nofun, fun ans => ?_⟩
  cases ans with
  | error e => trivial
  | ok latest =>
    dsimp only
    split
    · rename_i above
      simp only [Port.advanceRescan, ask, returns_mk, meets_ask]
      exact ⟨fun _ => .advances _ _ (.finishes latest above rfl), fun ans => by cases ans <;> trivial⟩
    · rename_i below
      simp only [returns_bind, returns_context, Port.fetchDeposits, ask, returns_mk, meets_ask]
      refine ⟨nofun, fun ans => ?_⟩
      cases ans with
      | error e => trivial
      | ok sightings =>
        dsimp only
        refine ((ingestRescan_writes cfg replica sightings _).weaken ?_).mono ?_ fun _ _ _ _ => trivial
        · intro h' c _ ingests write
          obtain ⟨s, _, ingests⟩ := ingests write
          exact .ingests s c ingests
        rintro _ h₁ - ⟨new, rfl, handled⟩
        simp only [Port.advanceRescan, ask, returns_mk, meets_ask]
        exact ⟨fun _ => .advances _ _ (.moves latest (Int.not_lt.mp below) _ rfl sightings new rfl
          (handled trivial)), fun ans => by cases ans <;> trivial⟩

theorem rescanGoroutine_writes (replica : Nat) (job : RegistrationRescan) :
    Meets (Writes (Rescans cfg job)) (rescanGoroutine cfg replica job) (fun _ _ => True) [] := by
  rw [rescanGoroutine, meets_bind, meets_run]
  refine (processRegistrationRescan_writes cfg replica job).mono
    (fun _ _ _ _ => trivial) fun _ h' _ _ => ?_
  simp only [meets_bind, Port.retryRescan, ExceptT.run_mk, ask, meets_ask]
  exact ⟨fun _ => .retries _, fun _ => trivial⟩

inductive Registers (cfg : OnchainConfig) (h : Answers) : PortCall → Prop where
  | ensures (input : AddressRegistrationInput) : Registers cfg h (.ensureAddress input)
  | enqueues (input : AddressRegistrationInput) (da : DepositAddress) (answer : ⟨.ensureAddress input, .ok da⟩ ∈ h) :
      Registers cfg h (.enqueueRescans (rescanJobs cfg.chains da.address))

theorem ensureDepositAddress_writes (holder : Int) (h : Answers) :
    Returns (Writes (Registers cfg)) (ensureDepositAddress cfg holder) (fun _ _ => True)
    (fun _ _ => True) h := by
  rw [ensureDepositAddress, returns_bind, returns_ofResult]
  refine ⟨fun factory _ => ?_, fun _ _ => trivial⟩
  rw [returns_bind, returns_ofResult]
  refine ⟨fun addr _ => ?_, fun _ _ => trivial⟩
  simp only [returns_bind, returns_context, Port.ensureAddress, ask, returns_mk, meets_ask]
  refine ⟨fun _ => .ensures _, fun ans => ?_⟩
  cases ans with
  | error e => trivial
  | ok da =>
    dsimp only
    split
    · simp only [returns_bind, returns_context, Port.enqueueRescans, ask, returns_mk, meets_ask]
      refine ⟨fun _ => .enqueues _ da (List.mem_append_right _ (List.mem_singleton_self _)), fun ans => ?_⟩
      cases ans <;> trivial
    · exact returns_pure.mpr trivial

def Operation.writes (cfg : OnchainConfig) (h : Answers) (c : PortCall) : Operation → Prop
  | .ingest _ s => Ingests cfg s h c
  | .recheck _ _ => ∃ depositUID, ⟨.classificationUID depositClassificationCode, .ok depositUID⟩ ∈ h ∧
      ∃ status, (status = pending ∨ status = confirming) ∧ RechecksListed cfg depositUID status h c
  | .replay _ uid => ∃ dl, ⟨.getDeadLetter uid, .ok dl⟩ ∈ h ∧ Ingests cfg dl.sighting h c
  | .approve uid actor => Decides uid h (fun b => Credits b b.channelRef actor h) c
  | .reject uid actor reason => Decides uid h
      (fun b c => c = .transition (depositTransition b.uid failed b.channelRef .zero (rejectMetadata actor reason))) c
  | .append input => c = .createBooking input
  | .register _ => Registers cfg h c
  | .scan _ chainID => Scans cfg chainID h c
  | .claimRescans => c = .claimRescans cfg.maxConcurrentRescans cfg.registrationRescanTimeout
  | .rescan _ job => Rescans cfg job h c

theorem program_writes (l : Operation) : Meets (Writes fun h c => l.writes cfg h c) (l.program cfg)
    (fun _ _ => True) [] := by
  cases l with
  | ingest replica s =>
    simp only [Operation.program, meets_bind, meets_run]
    exact (ingestDeposit_writes cfg replica s []).mono (fun _ _ _ _ => trivial) fun _ _ _ _ => trivial
  | recheck replica pages =>
    simp only [Operation.program, meets_bind]
    exact (recheckPendingDeposits_writes cfg replica pages []).mono fun _ _ _ _ => trivial
  | replay replica uid =>
    simp only [Operation.program, meets_bind, meets_run, replayDeadLetter, returns_bind,
      returns_context, Port.getDeadLetter, ask,
      returns_mk, meets_ask]
    refine ⟨nofun, fun ans => ?_⟩
    cases ans with
    | error e => trivial
    | ok dl =>
      refine ((ingestDeposit_writes cfg replica dl.sighting _).weaken ?_).mono ?_ fun _ _ _ _ => trivial
      · intro h' c longer ingests write
        exact ⟨dl, longer.subset (List.mem_append_right _ (List.mem_singleton_self _)), ingests write⟩
      · intro booking h' _ _
        cases booking <;> trivial
  | approve uid actor =>
    simp only [Operation.program, meets_bind, meets_run]
    exact (approveReview_writes uid actor []).mono (fun _ _ _ _ => trivial) fun _ _ _ _ => trivial
  | reject uid actor reason =>
    simp only [Operation.program, meets_bind, meets_run]
    exact (rejectReview_writes uid actor reason []).mono (fun _ _ _ _ => trivial) fun _ _ _ _ => trivial
  | append input =>
    simp only [Operation.program, meets_bind, Port.createBooking, ExceptT.run_mk, ask, meets_ask]
    exact ⟨fun _ => rfl, fun _ => trivial⟩
  | register holder =>
    simp only [Operation.program, meets_bind, meets_run]
    exact (ensureDepositAddress_writes cfg holder []).mono
      (fun _ _ _ _ => trivial) fun _ _ _ _ => trivial
  | scan replica chainID =>
    simp only [Operation.program, meets_bind, meets_run]
    exact (scanChainOnce_writes cfg replica chainID).mono
      (fun _ _ _ _ => trivial) fun _ _ _ _ => trivial
  | claimRescans =>
    simp only [Operation.program, meets_bind, Port.claimRescans, ExceptT.run_mk, ask, meets_ask]
    exact ⟨fun _ => rfl, fun _ => trivial⟩
  | rescan replica job => exact rescanGoroutine_writes cfg replica job

end Ledger.Service
