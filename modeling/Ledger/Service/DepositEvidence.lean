import Ledger.Service.DepositCredits

namespace Ledger.Service

open Chains Core Postgres Shared

def ChainsGrow (before after : Int → Chain) : Prop :=
  ∀ chainID, (before chainID).logs ⊆ (after chainID).logs ∧ (before chainID).head ≤
    (after chainID).head

theorem ChainsGrow.refl (chains : Int → Chain) : ChainsGrow chains chains := fun _ =>
    ⟨List.Subset.refl _, le_rfl⟩

theorem ChainsGrow.trans (a b c : Int → Chain) (first : ChainsGrow a b) (second : ChainsGrow b c) :
    ChainsGrow a c :=
  fun chainID => ⟨List.Subset.trans (first chainID).1 (second chainID).1,
    (first chainID).2.trans (second chainID).2⟩

def tokenText (m : Metadata) : GoString := (m.get (lit "token")).getD []

def ChainSays (cfg : OnchainConfig) (w : World) (row : BookingRow) (entries : List EntryInput)
    (token : TokenConfig) : Prop :=
  ∃ chainID chain, cfg.chains.get chainID = some chain ∧ ∃ log ∈ (w.chains chainID).logs,
    logOf row.metadata = some ⟨chainID, log.txHash, log.receiptSeq⟩ ∧
    chain.confirmations ≤ (w.chains chainID).head - log.block + 1 ∧
    tokenKey log.token = cfg.text.toLower (tokenText row.metadata) ∧
      chain.creditTokens.get (tokenKey log.token) = some token ∧
    ∃ address ∈ w.addresses, address.address = toChecksumAddress cfg.keccak log.to_ ∧ ∀ e ∈ entries,
      (e.accountHolder = address.accountHolder ∨ e.accountHolder = systemAccountHolder address.accountHolder) ∧
      (normalizeAmount log.value token.decimals).equal e.amount = true

def InCurrency (s : Store) (code : GoString) (entries : List EntryInput) : Prop :=
  ∀ e ∈ entries, ∃ cur, s.currencyByUIDOrErr e.currencyUID = .ok cur ∧ cur.code = code

def tokenNamed (cfg : OnchainConfig) (row : BookingRow) : Option TokenConfig := do
  let id ← logOf row.metadata
  let chain ← cfg.chains.get id.chainID
  chain.creditTokens.get (cfg.text.toLower (tokenText row.metadata))

def CurrencyAgrees (cfg : OnchainConfig) (s : Store) (row : BookingRow) : Prop :=
  ∃ token cur, tokenNamed cfg row = some token ∧ s.currencyByIDOrErr row.currencyID = .ok cur ∧
    cur.code = token.currencyCode

def blockNamed (m : Metadata) : Option Int := (m.get (lit "block_number")).bind (parseInt 64)

/-- The row's block number is a number and not a tag, or the log the row names is deep enough
anyway. -/
def BlockAgrees (cfg : OnchainConfig) (w : World) (row : BookingRow) : Prop :=
  (∃ n, blockNamed row.metadata = some n ∧ 0 ≤ n) ∨
    ∃ chainID chain, cfg.chains.get chainID = some chain ∧ ∃ log ∈ (w.chains chainID).logs,
      logOf row.metadata = some ⟨chainID, log.txHash, log.receiptSeq⟩ ∧
      chain.confirmations ≤ (w.chains chainID).head - log.block + 1

variable {m : Metadata} {d : DepositMeta}

theorem parseDepositMeta_ok (ok : parseDepositMeta m = some d) :
    blockNamed m = some d.blockNumber ∧ ∃ chain seq,
      depositIdentity m = some (chain, d.txHash, seq) ∧ parseInt 64 chain = some d.chainID ∧
        parseInt 32 seq = some d.txLogSeq := by
  simp only [parseDepositMeta, Option.bind_eq_bind, Option.bind_eq_some_iff] at ok
  obtain ⟨chain, hasChain, txHash, hasTx, seq, hasSeq, block, hasBlock, rest⟩ := ok
  split at rest
  · cases rest
  simp only [Option.bind_eq_some_iff] at rest
  obtain ⟨chainID, parsedChain, txLogSeq, parsedSeq, blockNumber, parsedBlock, same⟩ := rest
  cases same
  refine ⟨by rw [blockNamed, hasBlock, Option.bind_some, parsedBlock], chain, seq, ?_, parsedChain,
    parsedSeq⟩
  simp [depositIdentity, hasChain, hasTx, hasSeq]

theorem parseDepositMeta_fits (ok : parseDepositMeta m = some d) : d.blockNumber < 2 ^ 63 := by
  obtain ⟨block, -, parsed⟩ := Option.bind_eq_some_iff.mp (parseDepositMeta_ok ok).1
  exact (parseInt_range parsed).2

theorem logOf_of_parse (ok : parseDepositMeta m = some d) {hash : List Nibble}
    (value : hashValue d.txHash = some hash) :
    logOf m = some ⟨d.chainID, hash, d.txLogSeq⟩ := by
  obtain ⟨-, chain, seq, identity, parsedChain, parsedSeq⟩ := parseDepositMeta_ok ok
  simp [logOf, identity, parsedChain, value, parsedSeq]

theorem toInt32_le {n : Int} (nonneg : 0 ≤ n) : toInt32 n ≤ n := by
  unfold toInt32
  omega

theorem lower_checksum {cfg : OnchainConfig} {addr : List Nibble} (length : addr.length = 40) :
    cfg.text.toLower (toChecksumAddress cfg.keccak addr) = tokenKey addr := by
  have parsed : parseHex (addr.zipWith checksumDigit (cfg.keccak.digest (hexDigits addr))) =
    some addr := parseHex_checksum (by omega)
  obtain ⟨lowered, ascii⟩ := lower_of_parseHex parsed
  have tag : (lit "0x").map Uuid.lower = lit "0x" ∧ isAscii (lit "0x") = true := by decide
  have all : isAscii (toChecksumAddress cfg.keccak addr) = true := by
    rw [toChecksumAddress, isAscii, List.all_append]
    exact Bool.and_eq_true_iff.mpr ⟨tag.2, ascii⟩
  rw [CaseFolding.toLower, if_pos all, toChecksumAddress, List.map_append, tag.1, lowered, tokenKey]

section

variable {cfg : OnchainConfig} {p : OnchainPool} (sound : OnchainSound cfg ChainsGrow p)
  {a : OnchainAct} (member : a ∈ p.trace)

include sound member

variable {b : Booking}

theorem listed_row {filter : BookingFilter} {bookings : List Booking} {next : Option Nat}
    (listed : ⟨.listBookings filter, .ok (bookings, next)⟩ ∈ a.history) (inside : b ∈ bookings) :
    ∃ row₀ row, DepositKept row₀ row ∧ row ∈ a.before.bookings.store.bookings ∧
    b.uid = pgToUID row₀.uid ∧
      b.accountHolder = row₀.accountHolder ∧ b.metadata = row₀.metadata ∧ b.status = row₀.status ∧
      ∃ cur, a.before.bookings.store.currencyByIDOrErr row₀.currencyID = .ok cur ∧ b.currencyUID =
      pgToUID cur.uid := by
  obtain ⟨w, w', served, -, moved, later⟩ := answer_served sound member listed
  obtain ⟨row₀, stored, read, -⟩ := listBookings_answer served b inside
  have lasts := moved.bookings.trans later.bookings
  obtain ⟨row, present, kept⟩ := lasts.rows row₀ stored
  simp only [bookingFromRow, bind_eq_ok, pure_eq_ok] at read
  obtain ⟨_, -, cur, currency, _, -, _, -, rfl⟩ := read
  refine ⟨row₀, row, kept, present, rfl, rfl, rfl, rfl, cur, ?_, rfl⟩
  rw [Store.currencyByIDOrErr, lasts.currencies]
  exact currency

theorem corroborated_log {m : DepositMeta} {chain : ChainConfig} {latest : Int}
    (configured : cfg.chains.get m.chainID = some chain)
    (head : ⟨.latestBlock m.chainID, .ok latest⟩ ∈ a.history)
    (deep : chain.confirmations ≤ toInt32 (confirmationsAt latest m.blockNumber))
    (fits : m.blockNumber < 2 ^ 63) (evidence : Corroborated cfg b m a.history) :
    ∃ log ∈ (a.before.chains m.chainID).logs,
      hashValue m.txHash = some log.txHash ∧ (log.receiptSeq : Int) = m.txLogSeq ∧
      (0 ≤ m.blockNumber →
        chain.confirmations ≤ (a.before.chains m.chainID).head - log.block + 1) ∧
      tokenKey log.token = cfg.text.toLower (tokenText b.metadata) ∧ ∃ token, chain.creditTokens.get
      (tokenKey log.token) = some token ∧
        (normalizeAmount log.value token.decimals).equal b.amount = true ∧
        ∃ address ∈ a.before.addresses, address.address = toChecksumAddress cfg.keccak log.to_ ∧
          address.accountHolder = b.accountHolder := by
  obtain ⟨addrs, sightings, s, addr, da, read, found, hash, position, token, amount, to_,
    registered, holder⟩ := evidence
  obtain ⟨w, w', servedFetch, -, movedFetch, laterFetch⟩ := answer_served sound member read
  obtain ⟨chain', configured', fetched⟩ := fetchDeposits_answer servedFetch
  rw [configured] at configured'
  cases configured'
  obtain ⟨log, onChain, tokenCfg, allowed, high, mined, rfl⟩ := mem_fetchDeposits fetched found
  have grown := ChainsGrow.trans _ _ _ movedFetch.chains laterFetch.chains m.chainID
  obtain ⟨v, v', servedHead, -, movedHead, laterHead⟩ := answer_served sound member head
  have headGrown := (ChainsGrow.trans _ _ _ movedHead.chains laterHead.chains m.chainID).2
  have latestIs := latestBlock_answer servedHead
  obtain ⟨u, u', servedAddr, -, movedAddr, laterAddr⟩ := answer_served sound member registered
  obtain ⟨row, registeredRow, normal, rfl⟩ := getByAddress_answer servedAddr
  have recipient : row.address = toChecksumAddress cfg.keccak log.to_ := by
    -- The reader prints an address in the form the registry stores it.
    have printed := checksumAddress_toChecksumAddress (k := cfg.keccak) log.toLength
    have same : addr = toChecksumAddress cfg.keccak log.to_ := Except.ok.inj (to_.symm.trans printed)
    rw [same, printed] at normal
    exact (Except.ok.inj normal).symm
  have depth (number : 0 ≤ m.blockNumber) :
      chain.confirmations ≤ (a.before.chains m.chainID).head - log.block + 1 := by
    have cut := deep.trans (toInt32_le (le_max_left _ _))
    have mined' := mined.trans grown.2
    have below := high number
    have exact_ := wrap64_le (x := latest - m.blockNumber + 1) (by omega)
    unfold confirmationsAt at cut
    omega
  refine ⟨log, grown.1 onChain, hashValue_of_equalFold log.hashLength hash, position, depth, ?_,
    tokenCfg, allowed, amount, row, ?_,
    recipient, holder⟩
  · rw [← lower_checksum log.tokenLength]
    exact token
  · exact laterAddr.addresses (movedAddr.addresses registeredRow)

end

theorem rendered_entries {t : EntryTemplate} {b : Booking} {actor : GoString} {input : JournalInput}
    (rendered : Rendered t (confirmParams b actor) input) : ∀ e ∈ input.entries,
      (e.accountHolder = b.accountHolder ∨ e.accountHolder = systemAccountHolder b.accountHolder) ∧
      e.currencyUID = b.currencyUID ∧
        e.amount = b.amount := by
  intro e member
  obtain ⟨line, -, ok⟩ := forall₂_of_mem_right rendered.entries member
  simp only [renderLine, bind_eq_ok, orError_eq_ok, pure_eq_ok] at ok
  obtain ⟨amount, keyed, holder, role, rfl⟩ := ok
  have same : amount = b.amount := by
    simp only [confirmParams] at keyed
    split at keyed
    · exact (Option.some.inj keyed).symm
    · cases keyed
  refine ⟨?_, rfl, same⟩
  unfold HolderRole.holder at role
  split at role
  · exact .inl (Except.ok.inj role).symm
  · exact .inr (Except.ok.inj role).symm
  · cases role

theorem currencyByUIDOrErr_of_mem {s : Store} (uids : (s.currencies.map (·.uid)).Nodup)
    {cur : CurrencyRow} (known : cur ∈ s.currencies) :
    s.currencyByUIDOrErr (pgToUID cur.uid) = .ok cur := by
  have same : (fun c : CurrencyRow => pgToUID c.uid == pgToUID cur.uid) = fun c =>
    c.uid == cur.uid := by
    funext c
    rw [Bool.eq_iff_iff, beq_iff_eq, beq_iff_eq]
    exact ⟨Uuid.print_injective, congrArg pgToUID⟩
  rw [Store.currencyByUIDOrErr, orError_eq_ok, same]
  exact find_of_nodup uids known

/-- A tick's journal says what the chain says if and only if the row is in the currency that is
configured for its token and names its block by number, or has a log that is deep enough. -/
theorem recheck_credit_iff {cfg : OnchainConfig} {w : World} {p : OnchainPool} (sane : Sane cfg w)
    (run : Run (onchainSystem cfg ChainsGrow).Step (.still w) p) {a : OnchainAct}
    (member : a ∈ p.trace) {replica pages : Nat}
    (recheck : a.label = .recheck replica pages) {input : TransitionInput}
    {authorized : AuthorizedJournal}
    (posts : a.op = .runInTx input authorized) :
    ∃ row, movedRow a.before.bookings input = some row ∧
      ((∃ token, ChainSays cfg a.before row authorized.input.entries token ∧
          InCurrency a.before.bookings.store token.currencyCode authorized.input.entries) ↔
        CurrencyAgrees cfg a.before.bookings.store row ∧ BlockAgrees cfg a.before row) := by
  have sound := onchain_sound ChainsGrow.refl ChainsGrow.trans sane run
  have saneBefore := (sound.served a member).2
  have writes := sound.kept a member (by rw [posts]; rfl)
  rw [posts, recheck] at writes
  obtain ⟨depositUID, -, status, -, b, ⟨cursor, bookings, next, listed, inside⟩, m,
    named, rechecks⟩ := writes
  cases rechecks with
  | advances chain configured latest head evidence _ advances =>
  cases advances with
  | credits isOpen deep _ _ _ credits =>
  cases credits with
  | posts _ signed =>
  obtain ⟨row₀, row, kept, present, uid, holder, metadata, -, cur, currency, currencyUID⟩ :=
    listed_row sound member listed inside
  obtain ⟨log, onChain, hash, position, depth, tokenIs, token, allowed, amount, address,
    registered, recipient, pays⟩ :=
    corroborated_log sound member configured head deep (parseDepositMeta_fits named) evidence
  obtain ⟨v, v', served, -⟩ := answer_served sound member signed
  obtain ⟨t, -, -, rendered, nonempty⟩ := authorizeTemplate_answer served
  have entries := rendered_entries rendered
  have moved : movedRow a.before.bookings
    (depositTransition b.uid confirmed (depositChannelRef m.txHash m.txLogSeq) b.amount
      (approvedBy [])) = some row := by
    have parsed : Uuid.parse b.uid = some row.uid := by rw [uid, pgToUID, Uuid.parse_print, kept.uid]
    have found : a.before.bookings.getBookingByUID row.uid = some row :=
      find_of_nodup saneBefore.bookings.uids present
    show (Uuid.parse b.uid).bind _ = _
    rw [parsed, Option.bind_some, found]
  have rowLog : logOf row.metadata = some ⟨m.chainID, log.txHash, log.receiptSeq⟩ := by
    have same : logOf row.metadata = logOf b.metadata := by rw [logOf, kept.identity, ← metadata, logOf]
    rw [same, logOf_of_parse named hash, position]
  have rowToken : tokenText row.metadata = tokenText b.metadata := by
    rw [tokenText, kept.token, metadata, tokenText]
  have rowNamed : tokenNamed cfg row = some token := by
    simp only [tokenNamed, rowLog, Option.bind_eq_bind, Option.bind_some, configured]
    rw [rowToken, ← tokenIs, allowed]
  have entryCurrency : ∀ e ∈ authorized.input.entries, a.before.bookings.store.currencyByUIDOrErr
    e.currencyUID = .ok cur := by
    intro e inEntries
    rw [(entries e inEntries).2.1, currencyUID]
    exact currencyByUIDOrErr_of_mem saneBefore.currencies
      (List.mem_of_find?_eq_some (orError_eq_ok.mp currency))
  refine ⟨row, moved, ?_, ?_⟩
  · rintro ⟨token', ⟨chainID', chain', configured', log', onChain', log'Is, depth',
      named', allowed', -⟩,
      inCurrency⟩
    refine ⟨?_, .inr ⟨chainID', chain', configured', log', onChain', log'Is, depth'⟩⟩
    -- The position and the token named fix the configuration.
    rw [rowLog] at log'Is
    have same := LogID.mk.inj (Option.some.inj log'Is)
    rw [← same.1, configured] at configured'
    cases configured'
    rw [named', rowToken, ← tokenIs, allowed] at allowed'
    cases allowed'
    obtain ⟨e, inEntries⟩ := List.exists_mem_of_ne_nil _ nonempty
    obtain ⟨cur', resolved, code⟩ := inCurrency e inEntries
    rw [entryCurrency e inEntries] at resolved
    cases resolved
    exact ⟨token, cur, rowNamed, kept.currency ▸ currency, code⟩
  · rintro ⟨⟨token', cur', named', currency', code⟩, block⟩
    have deepEnough : chain.confirmations ≤ (a.before.chains m.chainID).head - log.block + 1 := by
      rcases block with ⟨n, at_, number⟩ | ⟨chainID', chain', configured', log', onChain', is, deep'⟩
      · rw [blockNamed, kept.block, ← metadata] at at_
        rw [← Option.some.inj ((parseDepositMeta_ok named).1.symm.trans at_)] at number
        exact depth number
      · -- A position names one log of the chain.
        rw [rowLog] at is
        obtain ⟨rfl, hash', seq'⟩ := LogID.mk.inj (Option.some.inj is)
        rw [configured] at configured'
        cases configured'
        rw [List.inj_on_of_nodup_map (a.before.chains m.chainID).positions onChain onChain'
          (Prod.ext hash' (by exact_mod_cast seq'))]
        exact deep'
    rw [rowNamed] at named'
    cases named'
    rw [kept.currency, currency] at currency'
    cases currency'
    refine ⟨token, ⟨m.chainID, chain, configured, log, onChain, rowLog, deepEnough,
      by rw [rowToken, tokenIs], allowed, address, registered,
      recipient, fun e inEntries => ?_⟩, fun e inEntries => ⟨cur, entryCurrency e inEntries, code⟩⟩
    obtain ⟨holders, -, amountIs⟩ := entries e inEntries
    rw [pays, amountIs]
    exact ⟨holders, amount⟩

def tickCredits (code : GoString) (a : OnchainAct) : Bool :=
  match a.label, a.op with
  | .recheck .., .runInTx input authorized =>
    a.after.bookings.store.journals.length != a.before.bookings.store.journals.length &&
      (movedRow a.before.bookings input).isSome &&
      authorized.input.entries.any fun e =>
        (a.before.bookings.store.currencyByUIDOrErr e.currencyUID).toOption.any (·.code == code)
  | _, _ => false

structure TickCredits (code : GoString) (a : OnchainAct) (replica pages : Nat)
    (input : TransitionInput) (authorized : AuthorizedJournal)
    (row : BookingRow) : Prop where
  label : a.label = .recheck replica pages
  op : a.op = .runInTx input authorized
  posted : a.after.bookings.store.journals.length ≠ a.before.bookings.store.journals.length
  row : movedRow a.before.bookings input = some row
  currency : ∃ e ∈ authorized.input.entries, ∃ cur, a.before.bookings.store.currencyByUIDOrErr
    e.currencyUID = .ok cur ∧ cur.code = code

theorem tickCredits_act (code : GoString) (p : OnchainPool)
    (found : p.trace.any (tickCredits code) = true) :
    ∃ a ∈ p.trace, ∃ replica pages input authorized row, TickCredits code a replica pages input
    authorized row := by
  obtain ⟨a, member, credits⟩ := List.any_eq_true.mp found
  refine ⟨a, member, ?_⟩
  unfold tickCredits at credits
  split at credits
  · rename_i replica pages input authorized label op
    simp only [Bool.and_eq_true, bne_iff_ne, List.any_eq_true, Option.any_eq_true] at credits
    obtain ⟨⟨posted, moved⟩, e, inside, cur, resolved, code⟩ := credits
    obtain ⟨row, is⟩ := Option.isSome_iff_exists.mp moved
    refine ⟨replica, pages, input, authorized, row, label, op, posted, is, e, inside, cur,
      ?_, by simpa using code⟩
    cases result : a.before.bookings.store.currencyByUIDOrErr e.currencyUID with
    | error err =>
      rw [result] at resolved
      cases resolved
    | ok cur' =>
      rw [result] at resolved
      exact congrArg _ (Option.some.inj resolved)
  · cases credits

namespace OnchainSample

def twoCurrencies : World :=
  { world with bookings := { world.bookings with
      store := { store with currencies := store.currencies ++ [⟨2, uid 8, lit "EUR", 2, true⟩] } } }

theorem twoCurrencies_sane : Sane config twoCurrencies :=
  ⟨⟨.nil, nofun, .nil, nofun, nofun⟩, by decide, world_sane.addresses⟩

def appended (currency : Uuid) : CreateBookingInput :=
  ⟨depositClassificationCode, 7, currency.print, ⟨10, 0⟩, lit "appended", lit "manual",
    .ofList [(lit "chain_id", lit "1"), (lit "tx_hash", hashText hash), (lit "txlog_seq", lit "0"),
      (lit "token", tokenKey token), (lit "block_number", lit "5")], 0⟩

def ticked (currency : Uuid) : OnchainPool :=
  launch (launch (.still twoCurrencies) 0 (.append (appended currency)) 1) 1 (.recheck 0 1) 14

theorem run_ticked (currency : Uuid) : Run (onchainSystem config ChainsGrow).Step
    (.still twoCurrencies) (ticked currency) := by
  refine .trans (run_launch _ 0 (.append (appended currency)) 1 rfl trivial)
    (run_launch _ 1 (.recheck 0 1) 14 ?_ trivial)
  rw [launch_threads (by decide)]
  rfl

theorem config_token {chainID : Int} {chain : ChainConfig} {key : GoString} {t : TokenConfig}
    (configured : config.chains.get chainID = some chain)
    (listed : chain.creditTokens.get key = some t) : t = tokenConfig := by
  have entry := SortedMap.mem_ofList (SortedMap.mem_of_get_eq_some configured)
  obtain ⟨-, rfl⟩ := Prod.mk.inj (List.mem_singleton.mp entry)
  have tokenEntry := SortedMap.mem_ofList (SortedMap.mem_of_get_eq_some listed)
  exact (Prod.mk.inj (List.mem_singleton.mp tokenEntry)).2

end OnchainSample

theorem recheck_credit_iff_configured : ∃ a ∈ (OnchainSample.ticked (Sample.uid 3)).trace,
    ∃ replica pages input authorized row,
    TickCredits (lit "USD") a replica pages input authorized row ∧
      ((∃ token, ChainSays OnchainSample.config a.before row authorized.input.entries token ∧
          InCurrency a.before.bookings.store token.currencyCode authorized.input.entries) ↔
        CurrencyAgrees OnchainSample.config a.before.bookings.store row ∧
          BlockAgrees OnchainSample.config a.before row) := by
  obtain ⟨a, member, replica, pages, input, authorized, row, credits⟩ :=
    tickCredits_act (lit "USD") (OnchainSample.ticked (Sample.uid 3)) (by decide +kernel)
  obtain ⟨row', moved, agrees⟩ := recheck_credit_iff OnchainSample.twoCurrencies_sane
    (OnchainSample.run_ticked _) member credits.label
    credits.op
  cases credits.row.symm.trans moved
  exact ⟨a, member, replica, pages, input, authorized, row, credits, agrees⟩

/-- A transfer of a token that is configured as dollars is credited in euros, because the row says
so. -/
theorem credited_in_another_currency : Sane OnchainSample.config OnchainSample.twoCurrencies ∧
    Run (onchainSystem OnchainSample.config ChainsGrow).Step (.still OnchainSample.twoCurrencies)
      (OnchainSample.ticked (OnchainSample.uid 8)) ∧
    ∃ a ∈ (OnchainSample.ticked (OnchainSample.uid 8)).trace, ∃ replica pages input authorized row,
      TickCredits (lit "EUR") a replica pages input authorized row ∧
        ¬∃ token, ChainSays OnchainSample.config a.before row authorized.input.entries token ∧
          InCurrency a.before.bookings.store token.currencyCode authorized.input.entries := by
  refine ⟨OnchainSample.twoCurrencies_sane, OnchainSample.run_ticked _, ?_⟩
  obtain ⟨a, member, replica, pages, input, authorized, row, credits⟩ :=
    tickCredits_act (lit "EUR") (OnchainSample.ticked (OnchainSample.uid 8)) (by decide +kernel)
  refine ⟨a, member, replica, pages, input, authorized, row, credits, ?_⟩
  rintro ⟨token, ⟨chainID, chain, configured, log, -, -, -, -, listed, -⟩, inCurrency⟩
  obtain ⟨e, inside, cur, resolved, euro⟩ := credits.currency
  obtain ⟨cur', resolved', dollar⟩ := inCurrency e inside
  rw [resolved] at resolved'
  cases resolved'
  rw [euro, OnchainSample.config_token configured listed] at dollar
  exact absurd dollar (by decide)

end Ledger.Service
