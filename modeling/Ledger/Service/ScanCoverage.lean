import Ledger.Service.DepositEvidence
import Ledger.Service.RescanJobs

namespace Ledger.Service

open Chains Core Postgres Shared

def transferKey (chainID : Int) (log : TransferLog) : GoString := depositIdempotencyKey chainID
    (hashText log.txHash) log.receiptSeq

def recorded (w : World) (key : GoString) : Bool :=
  w.bookings.store.bookings.any (·.idempotencyKey == key) || w.deadLetters.any
    (·.idempotencyKey == key)

structure Transfer (cfg : OnchainConfig) (chainID : Int) (chain : Chain) (address : GoString)
    (log : TransferLog) : Prop where
  onChain : log ∈ chain.logs
  mined : log.block ≤ chain.head
  listed : ∃ config token, cfg.chains.get chainID = some config ∧
    config.creditTokens.get (tokenKey log.token) = some token
  recipient : addressTopic address = .ok log.to_

def fetches (chainID : Int) (address : GoString) (block : Int)
    (e : Exchange PortCall PortCall.Answer) : Bool :=
  match e with
  | ⟨.fetchDeposits chainID' fromBlock toBlock addresses, .ok _⟩ =>
    chainID' == chainID && decide (fromBlock ≤ block ∧ block ≤ toBlock) && addresses.contains address
  | _ => false

/-- The operation that made call `a` fetched the block for the address by call `f`. -/
structure FetchedBy (p : OnchainPool) (a : OnchainAct) (chainID : Int) (address : GoString)
    (block : Int) (f : OnchainAct) : Prop where
  served : f ∈ p.trace
  thread : f.thread = a.thread
  label : f.label = a.label
  answer : f.exchange ∈ a.history
  covers : fetches chainID address block f.exchange = true

def CursorPasses (chainID block : Int) (a : OnchainAct) : Prop :=
  (∀ last, a.before.cursors chainID = some last → last < block) ∧ ∃ last, a.after.cursors chainID =
    some last ∧ block ≤ last

def JobPasses (row : RescanRow) (block : Int) (a : OnchainAct) : Prop :=
  row ∈ a.before.rescans.rows ∧ row.nextBlock ≤ block ∧ ∃ row' ∈ a.after.rescans.rows, row'.uid =
    row.uid ∧ block < row'.nextBlock

def burialLost (a : OnchainAct) : Bool :=
  match a.label, a.exchange with
  | .scan .., ⟨.recordDeadLetter .., .error _⟩ | .rescan .., ⟨.recordDeadLetter .., .error _⟩ =>
    true
  | _, _ => false

theorem lower_hashText (text : CaseFolding) (hash : List Nibble) :
    text.toLower (hashText hash) = hashText hash := by
  have tag : (lit "0x").map Uuid.lower = lit "0x" ∧ isAscii (lit "0x") = true := by decide
  have all : isAscii (hashText hash) = true := by
    rw [hashText, isAscii, List.all_append]
    exact Bool.and_eq_true_iff.mpr ⟨tag.2, isAscii_hexDigits hash⟩
  rw [CaseFolding.toLower, if_pos all, hashText, List.map_append, tag.1, lower_hexDigits]

variable {k : Keccak} {addr : List Nibble}

theorem addressTopic_checksum (length : addr.length = 40) :
    addressTopic (toChecksumAddress k addr) = .ok addr := by
  have two : (lit "0x").length = 2 := by decide
  have tag : (lit "0x").map Uuid.lower = lit "0x" := by decide
  have dropped : dropHexPrefix (toChecksumAddress k addr) = addr.zipWith checksumDigit
    (k.digest (hexDigits addr)) := by
    rw [dropHexPrefix, toChecksumAddress, List.take_append_of_le_length two.ge,
      List.take_of_length_le two.le, if_pos tag,
      List.drop_append_of_le_length two.ge, List.drop_of_length_le two.le, List.nil_append]
  rw [addressTopic, dropped, parseHex_checksum (by omega)]
  simp [orError, require, length]

variable {row : DepositAddressRow} {cfg : OnchainConfig}

theorem normal_of_topic {rows : List DepositAddressRow} (normal : NormalAddresses k rows)
    (member : row ∈ rows) {to_ : List Nibble}
    (topic : addressTopic row.address = .ok to_) : row.address = toChecksumAddress k to_ := by
  obtain ⟨addr, length, is⟩ := normal row member
  rw [is, addressTopic_checksum length] at topic
  rw [is, Except.ok.inj topic]

variable {w w' : World}

theorem recordDeadLetter_answer {sighting : DepositSighting} {key : GoString} {reason : String}
    (served : Serves cfg w (.recordDeadLetter sighting key reason) (.ok ()) w') :
    ∃ row ∈ w'.deadLetters, row.idempotencyKey = key := by
  rcases served.answer with ⟨d, answer, rfl⟩ | ⟨err, refused, -⟩
  · obtain ⟨rows, ok, put⟩ := World.write_ok answer.symm
    rw [perform, put]
    obtain ⟨rows', done, eq⟩ := map_eq_ok.mp ok
    cases eq
    exact (recordDeadLetter_rows done).2
  · cases refused

theorem getByAddress_found {err : Error} (length : addr.length = 40)
    (served : Serves cfg w (.getByAddress (toChecksumAddress cfg.keccak addr)) (.error err) w')
    (stored : row ∈ w.addresses)
    (is : row.address = toChecksumAddress cfg.keccak addr) :
    err.sentinel ≠ .notFound := by
  rcases served.answer with ⟨d, answer, -⟩ | ⟨err, refused, outage⟩
  · have found : (w.addresses.find? (·.address == toChecksumAddress cfg.keccak addr)).isSome = true :=
      List.find?_isSome.mpr ⟨row, stored, beq_iff_eq.mpr is⟩
    obtain ⟨row', first⟩ := Option.isSome_iff_exists.mp found
    have ok : Postgres.getByAddress cfg.keccak w.addresses (toChecksumAddress cfg.keccak addr) =
      .ok (depositAddressFromRow row') := by
      simp only [Postgres.getByAddress, bind_eq_ok, within_eq_ok, orError_eq_ok, pure_eq_ok]
      exact ⟨_, checksumAddress_toChecksumAddress length, row', first, rfl⟩
    have error : .error err = Postgres.getByAddress cfg.keccak w.addresses
      (toChecksumAddress cfg.keccak addr) := answer
    rw [ok] at error
    cases error
  · cases refused
    intro missing
    rw [isOutage, missing] at outage
    exact absurd outage (by decide)

section

variable {cfg : OnchainConfig} {chainMoves : (Int → Chain) → (Int → Chain) → Prop} {p : OnchainPool}
  (sound : OnchainSound cfg chainMoves p)

include sound

variable {a : OnchainAct}

theorem history_acts (member : a ∈ p.trace) :
    ∃ acts, acts.map Act.exchange = a.history ∧
    (∀ b ∈ acts, b ∈ p.trace ∧ b.thread = a.thread ∧ b.label = a.label) ∧
      (acts ++ [a]).Pairwise fun b c => Later chainMoves b.after c.before := by
  obtain ⟨start, acts, -, eq, own, sub⟩ := sound.history member
  have ordered := sound.ordered.sublist sub
  rw [List.append_assoc, List.pairwise_append] at ordered
  refine ⟨acts, eq, fun b inside => ⟨sub.subset ?_, own b inside⟩, ordered.2.1⟩
  exact List.mem_append_left _ (List.mem_append_right _ inside)

theorem handled_recorded (kept : ∀ a ∈ p.trace, burialLost a = false) {acts : List OnchainAct}
    (inside : ∀ b ∈ acts, b ∈ p.trace ∧ ((∃ replica chainID, b.label = .scan replica chainID) ∨
      ∃ replica job, b.label = .rescan replica job))
    {chainID : Int} {chain : Chain} {config : ChainConfig} {token : TokenConfig} {log : TransferLog}
    (configured : cfg.chains.get chainID = some config)
    (listed : config.creditTokens.get (tokenKey log.token) = some token)
    (registered : ∀ b ∈ acts, ∃ row ∈ b.before.addresses, row.address =
      toChecksumAddress cfg.keccak log.to_)
    (handled : Handled cfg (depositSighting cfg.keccak chainID chain log token)
      (acts.map Act.exchange)) :
    recorded p.world (transferKey chainID log) = true := by
  have key : deadLetterKey cfg (depositSighting cfg.keccak chainID chain log token) =
    transferKey chainID log := by
    rw [deadLetterKey, depositSighting, lower_hashText, transferKey]
  rw [recorded, Bool.or_eq_true, List.any_eq_true, List.any_eq_true]
  cases handled with
  | booked holder currencyUID b answer =>
    obtain ⟨x, member, exchange⟩ := List.mem_map.mp answer
    obtain ⟨served, -, -⟩ := exchange_served sound (inside x member).1 exchange
    obtain ⟨row, stored, is, -⟩ := createBooking_answer served
    obtain ⟨row', stored', lasts⟩ := (sound.since x (inside x member).1).bookings.rows row stored
    refine .inl ⟨row', stored', ?_⟩
    rw [beq_iff_eq, lasts.key, is, ← key]
    rfl
  | foreignChain unknown =>
    rw [show (depositSighting cfg.keccak chainID chain log token).chainID = chainID from rfl,
      configured] at unknown
    cases unknown
  | foreignToken config' configured' unlisted =>
    rw [show (depositSighting cfg.keccak chainID chain log token).chainID = chainID from rfl,
      configured] at configured'
    cases configured'
    rw [show (depositSighting cfg.keccak chainID chain log token).token =
      toChecksumAddress cfg.keccak log.token from rfl,
      lower_checksum log.tokenLength, listed] at unlisted
    cases unlisted
  | unregistered addr to_ err missing answer =>
    obtain ⟨x, member, exchange⟩ := List.mem_map.mp answer
    obtain ⟨served, -, -⟩ := exchange_served sound (inside x member).1 exchange
    obtain ⟨row, stored, is⟩ := registered x member
    rw [show addr = toChecksumAddress cfg.keccak log.to_ from
      Except.ok.inj (to_.symm.trans (checksumAddress_toChecksumAddress log.toLength))] at served
    exact absurd missing (getByAddress_found log.toLength served stored is)
  | buried reason ans answer =>
    obtain ⟨x, member, exchange⟩ := List.mem_map.mp answer
    obtain ⟨served, -, -⟩ := exchange_served sound (inside x member).1 exchange
    have written : ∃ row ∈ x.after.deadLetters, row.idempotencyKey = transferKey chainID log := by
      have unlost := kept x (inside x member).1
      rw [key] at served exchange
      cases ans with
      | ok _ => exact recordDeadLetter_answer served
      | error err =>
        rcases (inside x member).2 with ⟨replica, chainID, label⟩ | ⟨replica, job, label⟩ <;>
          · rw [burialLost, label, exchange] at unlost
            cases unlost
    obtain ⟨row, stored, is⟩ := written
    exact .inr ⟨row, (sound.since x (inside x member).1).deadLetters stored, beq_iff_eq.mpr is⟩

omit sound in
/-- The operation of call `a` has fetched the block for the addresses, by call `f`, and has since
handled what was found, by the calls `acts`. -/
structure Ingested (cfg : OnchainConfig) (p : OnchainPool) (a : OnchainAct) (chainID : Int)
    (addresses : List GoString) (block : Int)
    (f : OnchainAct) (acts : List OnchainAct) : Prop where
  served : f ∈ p.trace
  thread : f.thread = a.thread
  label : f.label = a.label
  answer : f.exchange ∈ a.history
  fetch : ∃ fromBlock toBlock sightings, f.exchange =
    ⟨.fetchDeposits chainID fromBlock toBlock addresses, .ok sightings⟩ ∧
    fromBlock ≤ block ∧ block ≤ toBlock ∧ ∀ s ∈ sightings, Handled cfg s (acts.map Act.exchange)
  own : ∀ b ∈ acts, b ∈ p.trace ∧ b.label = a.label

section

variable {a : OnchainAct} {chainID block : Int} {addresses : List GoString} {f : OnchainAct}
  {acts : List OnchainAct}
  (ingested : Ingested cfg p a chainID addresses block f acts)

include ingested

omit sound in
theorem Ingested.fetchedBy {address : GoString} (asked : address ∈ addresses) :
    FetchedBy p a chainID address block f := by
  obtain ⟨fromBlock, toBlock, sightings, fetch, low, high, -⟩ := ingested.fetch
  refine ⟨ingested.served, ingested.thread, ingested.label, ingested.answer, ?_⟩
  rw [fetch]
  simp [fetches, low, high, asked]

theorem Ingested.recorded (kept : ∀ a ∈ p.trace, burialLost a = false)
    (scanning : (∃ replica chainID, a.label = .scan replica chainID) ∨ ∃ replica job, a.label =
      .rescan replica job) {address : GoString}
    (asked : address ∈ addresses)
    (registered : ∀ b ∈ acts, ∃ row ∈ b.before.addresses, row.address = address) {log : TransferLog}
    (at_ : log.block = block) (transfer :
      Transfer cfg chainID (f.before.chains chainID) address log) :
    Service.recorded p.world (transferKey chainID log) = true := by
  obtain ⟨fromBlock, toBlock, sightings, fetch, low, high, handled⟩ := ingested.fetch
  obtain ⟨config, token, configured, allowed⟩ := transfer.listed
  obtain ⟨served, -, -⟩ := exchange_served sound ingested.served fetch
  obtain ⟨config', configured', fetched⟩ := fetchDeposits_answer served
  rw [configured] at configured'
  cases configured'
  rw [← at_] at low high
  have found : depositSighting cfg.keccak chainID (f.before.chains chainID) log token ∈ sightings :=
    fetchDeposits_complete fetched transfer.onChain allowed low high transfer.mined asked
      transfer.recipient
  refine handled_recorded sound kept (fun b ingest => ?_) configured allowed
    (fun b ingest => ?_) (handled _ found)
  · rw [(ingested.own b ingest).2]
    exact ⟨(ingested.own b ingest).1, scanning⟩
  · obtain ⟨row, stored, rfl⟩ := registered b ingest
    exact ⟨row, stored, normal_of_topic (sound.served b (ingested.own b ingest).1).2.addresses
      stored transfer.recipient⟩

end

variable {cursors : Int → Option Int} {chainID to_ block : Int} {chain : ChainConfig}
  {cursor : Result Int}

omit sound in
theorem setChainCursor_other {chainID' : Int} (other : chainID ≠ chainID') (to_ : Int) :
    setChainCursor cursors chainID' to_ chainID = cursors chainID := by
  have kept : Function.update cursors chainID' (some to_) chainID = cursors chainID :=
    Function.update_of_ne other ..
  unfold setChainCursor
  cases cursors chainID' with
  | none => exact kept
  | some current =>
    dsimp only
    split
    · exact kept
    · rfl

variable {last : Int}

omit sound in
theorem setChainCursor_self (stored : setChainCursor cursors chainID to_ chainID = some last) :
    last = to_ ∨ cursors chainID = some last := by
  have set : Function.update cursors chainID (some to_) chainID = some last → last = to_ := by
    rw [Function.update_self]
    exact fun eq => (Option.some.inj eq).symm
  unfold setChainCursor at stored
  cases found : cursors chainID with
  | none =>
    rw [found] at stored
    exact .inl (set stored)
  | some current =>
    rw [found] at stored
    dsimp only at stored
    split at stored
    · exact .inl (set stored)
    · exact .inr (found ▸ stored)

variable {w w' : World}

omit sound in
theorem cursor_moved {c : PortCall} {ans : c.Answer} (served : Serves cfg w c ans w')
    (below : ∀ last, w.cursors chainID = some last → last < block)
    (stored : w'.cursors chainID = some last) (reached : block ≤ last) :
    ∃ to_, c = .setCursor chainID to_ ∧ block ≤ to_ := by
  have moved : w'.cursors chainID ≠ w.cursors chainID := by
    intro same
    exact absurd reached (not_le.mpr (below last (same ▸ stored)))
  cases served.written with
  | scanned chainID' to_ =>
    by_cases same : chainID = chainID'
    · subst same
      refine ⟨to_, rfl, ?_⟩
      rcases setChainCursor_self stored with rfl | old
      · exact reached
      · exact absurd reached (not_le.mpr (below last old))
    · exact absurd (setChainCursor_other same to_) moved
  | _ => exact absurd rfl moved

omit sound in
theorem setCursor_scan {l : Operation} {h : Answers}
    (writes : Writes (fun h c => l.writes cfg h c) h (.setCursor chainID to_)) :
    ∃ replica, l = .scan replica chainID ∧ Scans cfg chainID h (.setCursor chainID to_) := by
  cases progress_writes (writes rfl) rfl with
  | scans replica chainID' c scans =>
    cases scans with
    | ingests s c ingests => cases ingests.isProgress
    | skips chain configured cursor latest from_ to_ window answers =>
      exact ⟨replica, rfl, .skips chain configured cursor latest from_ _ window answers⟩
    | moves chain configured cursor latest from_ to_ window rows sightings rest answers handled =>
      exact ⟨replica, rfl, .moves chain configured cursor latest from_ _ window rows sightings rest answers handled⟩
  | rescans replica job c rescans =>
    cases rescans with
    | ingests s c ingests => cases ingests.isProgress

omit sound in
theorem Window.start_le {latest from_ : Int} (window : Window cfg chain cursor latest from_ to_) :
    from_ ≤ max 0 (cursorBlock cursor) := by
  rw [window.start, withLookback]
  split <;> omega

theorem cursor_read {g : OnchainAct} (inside : g ∈ p.trace)
    (later : Later chainMoves g.after a.before)
    (exchange : g.exchange = ⟨.getCursor chainID, cursor⟩) (nonneg : 0 ≤ block)
    (below : ∀ last, a.before.cursors chainID = some last → last < block) :
    max 0 (cursorBlock cursor) ≤ block := by
  obtain ⟨served, -, moved⟩ := exchange_served sound inside exchange
  cases cursor with
  | error err => exact max_le nonneg nonneg
  | ok last =>
    rcases served.answer with ⟨d, answer, -⟩ | ⟨err, refused, -⟩
    · have stored : g.before.cursors chainID = some last := orError_eq_ok.mp answer.symm
      obtain ⟨last', stored', le⟩ := moved.cursors chainID last stored
      obtain ⟨last'', stored'', le'⟩ := later.cursors chainID last' stored'
      have := below last'' stored''
      simp only [cursorBlock]
      omega
    · cases refused

omit sound in
theorem listAddresses_answer {rows : List DepositAddress}
    (served : Serves cfg w .listAddresses (.ok rows) w') :
    rows = w.addresses.map depositAddressFromRow := by
  rcases served.answer with ⟨d, answer, -⟩ | ⟨err, refused, -⟩
  · exact Except.ok.inj answer
  · cases refused

omit sound in
/-- What a tick has done before it moves the cursor over a block: it has read the head by call `l`,
then the addresses by call `li`, and then the block. -/
structure Tick (cfg : OnchainConfig) (chainMoves : (Int → Chain) → (Int → Chain) → Prop)
    (p : OnchainPool) (a : OnchainAct)
    (chainID block latest : Int) (rows : List DepositAddress) (l li : OnchainAct) : Prop where
  label : ∃ replica, a.label = .scan replica chainID
  below : ∃ chain, cfg.chains.get chainID = some chain ∧ block ≤ safeTip chain latest
  readsHead : l ∈ p.trace ∧ l.exchange = ⟨.latestBlock chainID, .ok latest⟩
  readsAddresses : li ∈ p.trace ∧ li.exchange = ⟨.listAddresses, .ok rows⟩ ∧ li.exchange ∈ a.history
  order : Later chainMoves l.after li.before
  ingested : rows ≠ [] → ∃ f acts, Ingested cfg p a chainID (rows.map (·.address)) block f acts ∧
    ∀ b ∈ acts, Later chainMoves li.after b.before

omit sound in
theorem Window.stop_le {latest from_ : Int} (window : Window cfg chain cursor latest from_ to_) :
    to_ ≤ safeTip chain latest := by
  rw [window.stop, windowEnd]
  split <;> omega

theorem tick_of_passes (member : a ∈ p.trace) {block : Nat}
    (passes : CursorPasses chainID block a) :
    ∃ latest rows l li, Tick cfg chainMoves p a chainID block latest rows l li := by
  obtain ⟨below, last, stored, reached⟩ := passes
  obtain ⟨to_, call, reached⟩ := cursor_moved (sound.served a member).1 below stored reached
  have writes := sound.kept a member
  rw [call] at writes
  obtain ⟨replica, label, scans⟩ := setCursor_scan writes
  obtain ⟨acts, eq, own, ordered⟩ := history_acts sound member
  cases scans with
  | ingests s c ingests => cases ingests.isProgress
  | skips chain configured cursor latest from_ to_ window answers =>
    rw [answers] at eq
    simp only [List.map_eq_cons_iff, List.map_eq_nil_iff] at eq
    obtain ⟨g, _, rfl, read, l, _, rfl, head, li, _, rfl, list, rfl⟩ := eq
    simp only [List.cons_append, List.pairwise_cons, List.mem_cons] at ordered
    refine ⟨latest, [], l, li, ⟨replica, label⟩, ⟨chain, configured, reached.trans window.stop_le⟩,
      ⟨(own l (by simp)).1, head⟩,
      ⟨(own li (by simp)).1, list, by rw [answers, list]; simp⟩, ordered.2.1 li (by simp),
        fun some_ => absurd rfl some_⟩
  | moves chain configured cursor latest from_ to_ window rows sightings rest answers handled =>
    rw [answers] at eq
    simp only [List.cons_append, List.nil_append, List.map_eq_cons_iff] at eq
    obtain ⟨g, _, rfl, read, l, _, rfl, head, li, _, rfl, list, f, acts, rfl, fetch, eq⟩ := eq
    simp only [List.cons_append, List.pairwise_cons, List.mem_cons, List.mem_append] at ordered
    obtain ⟨afterRead, afterHead, afterList, -⟩ := ordered
    have start : from_ ≤ block := window.start_le.trans
      (cursor_read sound (own g (by simp)).1 (afterRead a (by simp)) read (by simp) below)
    refine ⟨latest, rows, l, li, ⟨replica, label⟩,
      ⟨chain, configured, reached.trans window.stop_le⟩, ⟨(own l (by simp)).1, head⟩,
      ⟨(own li (by simp)).1, list, by rw [answers, list]; simp⟩, afterHead li (by simp), fun _ => ⟨f, acts, ?_, ?_⟩⟩
    · refine ⟨(own f (by simp)).1, (own f (by simp)).2.1, (own f (by simp)).2.2,
        by rw [answers, fetch]; simp, ?_, fun b ingest => ?_⟩
      · exact ⟨from_, to_, sightings, fetch, start, reached, eq ▸ handled⟩
      · exact ⟨(own b (by simp [ingest])).1, (own b (by simp [ingest])).2.2⟩
    · exact fun b ingest => afterList b (by simp [ingest])

theorem scan_covers (kept : ∀ a ∈ p.trace, burialLost a = false)
    (member : a ∈ p.trace) {block : Nat}
    (passes : CursorPasses chainID block a) : ∃ rows, ⟨.listAddresses, .ok rows⟩ ∈
    a.history ∧ ∀ da ∈ rows,
      ∃ f, FetchedBy p a chainID da.address block f ∧ ∀ log : TransferLog, log.block = block →
        Transfer cfg chainID (f.before.chains chainID) da.address log →
        recorded p.world (transferKey chainID log) = true := by
  obtain ⟨latest, rows, l, li, tick⟩ := tick_of_passes sound member passes
  obtain ⟨inside, list, answer⟩ := tick.readsAddresses
  refine ⟨rows, list ▸ answer, fun da listed => ?_⟩
  obtain ⟨f, acts, ingested, later⟩ := tick.ingested (List.ne_nil_of_mem listed)
  have asked : da.address ∈ rows.map (·.address) := List.mem_map_of_mem listed
  refine ⟨f, ingested.fetchedBy asked, fun log at_ transfer => ?_⟩
  obtain ⟨served, -, moved⟩ := exchange_served sound inside list
  rw [listAddresses_answer served] at listed
  obtain ⟨row, stored, rfl⟩ := List.mem_map.mp listed
  refine ingested.recorded sound kept ?_ asked
    (fun b ingest => ⟨row, (later b ingest).addresses (moved.addresses stored), rfl⟩)
    (by rw [at_]) transfer
  obtain ⟨replica, label⟩ := tick.label
  exact .inl ⟨replica, chainID, label⟩

theorem rescan_covers (kept : ∀ a ∈ p.trace, burialLost a = false)
    (queue : QueueSound p.trace p.world)
    (before : ∀ earlier a later, p.trace = earlier ++ a :: later → QueueSound earlier a.before)
    (member : a ∈ p.trace) {row : RescanRow}
    (passes : JobPasses row block a) :
    ∃ f, FetchedBy p a row.chainID row.address block f ∧ ∀ log : TransferLog, log.block = block →
      Transfer cfg row.chainID (f.before.chains row.chainID) row.address log →
      recorded p.world (transferKey row.chainID log) = true := by
  obtain ⟨present, behind, row', present', uid, ahead⟩ := passes
  obtain ⟨earlier, later, split⟩ := List.append_of_mem member
  have here := before earlier a later split
  obtain ⟨⟨change, new, rows, steps, -⟩, uids⟩ := (sound.served a member).1.queueStep
  have step := steps row present
  have moved : change row = row' := by
    have inside : change row ∈ a.after.rescans.rows := rows ▸ List.mem_append_left new
      (List.mem_map_of_mem present)
    exact List.inj_on_of_nodup_map (uids here.uids) inside present' (step.uid.trans uid.symm)
  rw [moved] at step
  rcases step.nextBlock with same | ⟨-, completed, call⟩
  · omega
  have writes := sound.kept a member
  rw [call] at writes
  obtain ⟨replica, job, label, uidJob, attempts, advance⟩ := advance_job writes
  -- The token stands, so the row is where the worker found it.
  have explained := sound.explained earlier a later split
  rw [label] at explained
  obtain ⟨row₀, present₀, jobRow⟩ := here.held job (admitted_job explained)
  have same : row₀ = row := row_of_uid here.uids present₀ present (jobRow.uid.trans uidJob.symm)
  rw [same] at jobRow
  have start : job.nextBlock ≤ block := (jobRow.nextBlock attempts).trans behind
  generalize row'.nextBlock = nextBlock at advance ahead
  cases advance with
  | finishes latest above answers => omega
  | moves latest below to_ stop sightings rest answers handled =>
    obtain ⟨begin_, acts, admitted, eq, own, sub⟩ := sound.history member
    rw [answers] at eq
    simp only [List.cons_append, List.nil_append, List.map_eq_cons_iff] at eq
    obtain ⟨l, _, rfl, head, f, acts, rfl, fetch, eq⟩ := eq
    have inside : ∀ b ∈ l :: f :: acts, b ∈ p.trace := fun b mine =>
      sub.subset (List.mem_append_left _ (List.mem_append_right _ mine))
    have ingested : Ingested cfg p a job.chainID [job.address] block f acts := by
      refine ⟨inside f (by simp), (own f (by simp)).1, (own f (by simp)).2,
        by rw [answers, fetch]; simp, ?_, fun b ingest => ?_⟩
      · exact ⟨job.nextBlock, to_, sightings, fetch, start, by omega, eq ▸ handled⟩
      · exact ⟨inside b (by simp [ingest]), (own b (by simp [ingest])).2⟩
    rw [jobRow.chainID, jobRow.address]
    refine ⟨f, ingested.fetchedBy (List.mem_singleton_self _), fun log at_ transfer => ?_⟩
    refine ingested.recorded sound kept (.inr ⟨replica, job, label⟩) (List.mem_singleton_self _)
      (fun b ingest => ?_) at_ transfer
    rw [label] at admitted
    obtain ⟨c, first, claimed⟩ := admitted
    have ordered := sound.ordered.sublist sub
    rw [List.append_assoc, List.pairwise_append] at ordered
    obtain ⟨da, known, is⟩ := queue.known c (sub.subset (by simp [first])) job claimed
    exact ⟨da, (ordered.2.2 c first b (by simp [ingest])).addresses known, is⟩

end

/-- In every run in which no dead letter of a scan or a rescan is lost: over whatever block a tick
moves the cursor, it has fetched that block for the addresses it listed, and each transfer the chain
then held is booked or dead-lettered; the same for the jobs of the rescans and their addresses. -/
theorem scan_loses_nothing {cfg : OnchainConfig} {w : World} {p : OnchainPool} (sane : Sane cfg w)
    (queue : QueueSound [] w)
    (run : Run (onchainSystem cfg fun _ _ => True).Step (.still w) p)
    (kept : ∀ a ∈ p.trace, burialLost a = false) :
    (∀ a ∈ p.trace, ∀ (chainID : Int) (block : Nat), CursorPasses chainID block a →
      ∃ rows, ⟨.listAddresses, .ok rows⟩ ∈ a.history ∧ ∀ da ∈ rows, ∃ f, FetchedBy p a chainID
      da.address block f ∧
        ∀ log : TransferLog, log.block = block → Transfer cfg chainID (f.before.chains chainID) da.address log →
          recorded p.world (transferKey chainID log) = true) ∧
    ∀ a ∈ p.trace, ∀ (row : RescanRow) (block : Nat), JobPasses row block a →
    ∃ f, FetchedBy p a row.chainID row.address block f ∧
        ∀ log : TransferLog, log.block = block →
        Transfer cfg row.chainID (f.before.chains row.chainID) row.address log →
          recorded p.world (transferKey row.chainID log) = true := by
  have sound := onchain_sound (fun _ => trivial) (fun _ _ _ _ _ => trivial) sane run
  obtain ⟨jobs, before⟩ := queue_sound (fun _ => trivial) (fun _ _ _ _ _ => trivial) sane queue run
  constructor
  · intro a member chainID block passes
    exact scan_covers sound kept member passes
  · intro a member row block passes
    obtain ⟨f, fetched, covers⟩ := rescan_covers sound kept jobs before member passes
    exact ⟨f, fetched, fun log at_ => covers log (by rw [at_])⟩

namespace OnchainSample

def withoutCurrency : World :=
  { world with bookings := { world.bookings with store := { store with currencies := [] } } }

theorem withoutCurrency_sane : Sane config withoutCurrency :=
  ⟨⟨.nil, nofun, .nil, nofun, nofun⟩, .nil, world_sane.addresses⟩

def tick : OnchainPool := launch (.still withoutCurrency) 0 (.scan 0 1) 8

theorem run_tick : Run (onchainSystem config fun _ _ => True).Step (.still withoutCurrency) tick :=
  run_launch _ 0 (.scan 0 1) 8 rfl trivial

def unburied (n : Nat) (w : World) (c : PortCall) : c.Answer × World :=
  match c with
  | .recordDeadLetter _ _ _ => (.error ⟨.other, "connection refused"⟩, w)
  | c => answer n w c

theorem unburied_served (n : Nat) (w : World) (c : PortCall) : Serves config w c (unburied n w c).1
    (unburied n w c).2 := by
  unfold unburied
  split
  · exact .outage _ _ rfl rfl
  · exact .answered (draw n)

def lostTick : OnchainPool := launchWith unburied (.still withoutCurrency) 0 (.scan 0 1) 8

theorem run_lostTick : Run (onchainSystem config fun _ _ => True).Step
    (.still withoutCurrency) lostTick :=
  run_launchIn unburied_served _ 0 (.scan 0 1) 8 rfl trivial

def listsRecipient (e : Exchange PortCall PortCall.Answer) : Bool :=
  match e with
  | ⟨.listAddresses, .ok rows⟩ => rows.any (·.address == toChecksumAddress keccak recipient)
  | _ => false

def passesLog (a : OnchainAct) : Bool :=
  (a.before.cursors 1).isNone && a.after.cursors 1 == some 10 && a.history.any listsRecipient

theorem passesLog_iff {a : OnchainAct} (is : passesLog a = true) : CursorPasses 1 log.block a ∧
    ∃ rows, ⟨.listAddresses, .ok rows⟩ ∈ a.history ∧ ∃ da ∈ rows, da.address =
    toChecksumAddress keccak recipient := by
  simp only [passesLog, Bool.and_eq_true, Option.isNone_iff_eq_none,
    beq_iff_eq, List.any_eq_true] at is
  obtain ⟨⟨none, last⟩, e, member, lists⟩ := is
  have nowhere : ∀ last, a.before.cursors 1 = some last → last < log.block := by
    rw [none]
    nofun
  refine ⟨⟨nowhere, 10, last, by decide⟩, ?_⟩
  unfold listsRecipient at lists
  split at lists
  · simp only [List.any_eq_true, beq_iff_eq] at lists
    exact ⟨_, member, lists⟩
  · cases lists

theorem log_transfer {chain : Chain} (same : chain = oneLog)
    {address : GoString}
    (is : address = toChecksumAddress keccak recipient) : Transfer config 1 chain address log := by
  subst same is
  exact ⟨List.mem_singleton_self log, by decide,
    ⟨chainConfig, tokenConfig, by decide +kernel, by decide +kernel⟩,
    addressTopic_checksum (by decide)⟩

end OnchainSample

theorem scan_loses_nothing_buried : ∃ a ∈ OnchainSample.tick.trace, CursorPasses 1 (5 : Nat) a ∧
    ∃ rows, ⟨.listAddresses, .ok rows⟩ ∈ a.history ∧ ∀ da ∈ rows, ∃ f, FetchedBy OnchainSample.tick
    a 1 da.address (5 : Nat) f ∧
      ∀ log : TransferLog, log.block = 5 → Transfer OnchainSample.config 1
      (f.before.chains 1) da.address log →
        recorded OnchainSample.tick.world (transferKey 1 log) = true := by
  obtain ⟨a, member, is⟩ := List.any_eq_true.mp
    (show OnchainSample.tick.trace.any OnchainSample.passesLog = true by decide +kernel)
  have passes := (OnchainSample.passesLog_iff is).1
  refine ⟨a, member, passes, ?_⟩
  refine (scan_loses_nothing OnchainSample.withoutCurrency_sane (queueSound_empty rfl)
    OnchainSample.run_tick ?_).1 a member 1 5 passes
  intro b inside
  have all : OnchainSample.tick.trace.all (fun b => !burialLost b) = true := by decide +kernel
  simpa using List.all_eq_true.mp all b inside

/-- A tick moves the cursor over a transfer to an address it has listed, and the ledger has neither
a booking nor a dead letter for it. -/
theorem cursor_passes_lost_transfer : Sane OnchainSample.config OnchainSample.withoutCurrency ∧
    QueueSound [] OnchainSample.withoutCurrency ∧
    Run (onchainSystem OnchainSample.config fun _ _ => True).Step
    (.still OnchainSample.withoutCurrency) OnchainSample.lostTick ∧
    ∃ a ∈ OnchainSample.lostTick.trace, CursorPasses 1 OnchainSample.log.block a ∧
      (∃ rows, ⟨.listAddresses, .ok rows⟩ ∈ a.history ∧ ∃ da ∈ rows, ∀ f ∈ OnchainSample.lostTick.trace,
        Transfer OnchainSample.config 1 (f.before.chains 1) da.address OnchainSample.log) ∧
      recorded OnchainSample.lostTick.world (transferKey 1 OnchainSample.log) = false := by
  refine ⟨OnchainSample.withoutCurrency_sane, queueSound_empty rfl, OnchainSample.run_lostTick, ?_⟩
  obtain ⟨a, member, is⟩ := List.any_eq_true.mp
    (show OnchainSample.lostTick.trace.any OnchainSample.passesLog = true by decide +kernel)
  obtain ⟨passes, rows, listed, da, inside, address⟩ := OnchainSample.passesLog_iff is
  refine ⟨a, member, passes, ⟨rows, listed, da, inside, fun f served => ?_⟩, by decide +kernel⟩
  have all : OnchainSample.lostTick.trace.all
    (fun f => f.before.chains 1 == OnchainSample.oneLog) =
    true := by decide +kernel
  exact OnchainSample.log_transfer (beq_iff_eq.mp (List.all_eq_true.mp all f served)) address

end Ledger.Service
