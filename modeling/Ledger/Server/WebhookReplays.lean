import Ledger.Server.Webhooks
import Ledger.Shared.Runs

namespace Ledger.Server

open Shared Core

structure Visit where
  at_ : Int
  answers : Answers
  callback : Callback

structure Served where
  at_ : Int
  callback : Callback
  reply : Reply
  /-- The nonce was new and is now in the cache. -/
  recorded : Bool

structure Inbox where
  rows : List NonceRow
  log : List Served

variable (cfg : ServerConfig)

def Inbox.reply (b : Inbox) (v : Visit) : Reply :=
  (handleWebhookCallback cfg v.at_ v.answers b.rows v.callback).1

def Reaches (v : Visit) : Prop :=
  ∃ adapter, cfg.channels v.callback.channel = some adapter ∧ v.answers.bodyRead = true ∧
    adapter.verifySignature v.at_ v.callback = .ok ()

def Recording (a : Answers) : Prop := (∀ err, a.prune ≠ .failed err) ∧ a.insertFails = none

def Visit.kept (v : Visit) (rows : List NonceRow) : List NonceRow :=
  match v.answers.prune with
  | .done => rows.filter fun row => ¬row.seenAt < v.at_ / 1000 - nonceRetention
  | .insufficientPrivilege | .failed _ => rows

def Inbox.records (b : Inbox) (v : Visit) : Bool :=
  match cfg.channels v.callback.channel with
  | none => false
  | some adapter =>
    v.answers.bodyRead && (adapter.verifySignature v.at_ v.callback).isOk &&
      match tryRecordNonce (v.at_ / 1000) v.answers b.rows (cfg.nonce v.callback) with
      | (.ok true, _) => true
      | _ => false

def Inbox.receive (b : Inbox) (v : Visit) : Inbox :=
  { rows := (handleWebhookCallback cfg v.at_ v.answers b.rows v.callback).2
    log := b.log ++ [⟨v.at_, v.callback, b.reply cfg v, b.records cfg v⟩] }

/-- Everything a visit can do: stop before the cache or at a statement that fails, be refused, or be
processed. -/
inductive Visited (b : Inbox) (v : Visit) : Reply → List NonceRow → Bool → Prop
  | stopped (reply : Reply) (unsuccessful : reply.succeeded = false) (other : reply ≠ .replayed) (rows : List NonceRow)
      (unchanged : rows = b.rows ∨ rows = v.kept b.rows) : Visited b v reply rows false
  | replayed (reaches : Reaches cfg v) (seen : ∃ row ∈ v.kept b.rows, row.nonce = cfg.nonce v.callback) :
      Visited b v .replayed (v.kept b.rows) false
  | processed (reply : Reply) (other : reply ≠ .replayed) (reaches : Reaches cfg v)
      (fresh : ∀ row ∈ v.kept b.rows, row.nonce ≠ cfg.nonce v.callback) :
      Visited b v reply (v.kept b.rows ++ [⟨cfg.nonce v.callback, v.at_ / 1000⟩]) true

theorem process_ne_replayed (a : Answers) (adapter : Adapter) (c : Callback) :
    process cfg a adapter c ≠ .replayed := by
  unfold process handleDepositSighting transitionBooking
  repeat' split
  all_goals simp [Reply.replayed, Reply.conflict, Reply.badRequest, Reply.forbidden]

variable {v : Visit}

theorem tryRecordNonce_eq (recording : Recording v.answers) (rows : List NonceRow)
    (nonce : GoString) :
    tryRecordNonce (v.at_ / 1000) v.answers rows nonce =
      if (v.kept rows).any (·.nonce = nonce) then (.ok false, v.kept rows)
      else (.ok true, v.kept rows ++ [⟨nonce, v.at_ / 1000⟩]) := by
  obtain ⟨pruned, inserted⟩ := recording
  cases prune : v.answers.prune with
  | done | insufficientPrivilege => simp [tryRecordNonce, Visit.kept, prune, inserted]
  | failed err => exact absurd prune (pruned err)

theorem tryRecordNonce_fails (failing : ¬Recording v.answers) (rows : List NonceRow)
    (nonce : GoString) :
    ∃ err rows', tryRecordNonce (v.at_ / 1000) v.answers rows nonce = (.error err, rows') ∧
    (rows' = rows ∨ rows' = v.kept rows) := by
  cases prune : v.answers.prune with
  | done =>
    cases inserted : v.answers.insertFails with
    | none => exact absurd ⟨by simp [prune], inserted⟩ failing
    | some err =>
      refine ⟨err.wrap "postgres: record webhook nonce", v.kept rows, ?_, .inr rfl⟩
      simp [tryRecordNonce, Visit.kept, prune, inserted]
  | insufficientPrivilege =>
    cases inserted : v.answers.insertFails with
    | none => exact absurd ⟨by simp [prune], inserted⟩ failing
    | some err =>
      refine ⟨err.wrap "postgres: record webhook nonce", rows, ?_, .inl rfl⟩
      simp [tryRecordNonce, prune, inserted]
  | failed err =>
    refine ⟨err.wrap "postgres: prune webhook nonces", rows, ?_, .inl rfl⟩
    simp [tryRecordNonce, prune]

variable {cfg}

theorem handle_visited (on : cfg.webhookNonces = true) (b : Inbox) (v : Visit) :
    Visited cfg b v (b.reply cfg v) (handleWebhookCallback cfg v.at_ v.answers b.rows v.callback).2
    (b.records cfg v) := by
  unfold Inbox.reply Inbox.records handleWebhookCallback
  cases channel : cfg.channels v.callback.channel with
  | none => exact .stopped (.notFound "unknown channel") rfl nofun _ (.inl rfl)
  | some adapter =>
    cases body : v.answers.bodyRead with
    | false => exact .stopped (.badRequest "read body failed") rfl nofun _ (.inl rfl)
    | true =>
      cases signature : adapter.verifySignature v.at_ v.callback with
      | error err =>
        simp only [signature, Bool.true_eq_false, if_false]
        exact .stopped (.badRequest "signature verification failed") rfl nofun _ (.inl rfl)
      | ok _ =>
        have reaches : Reaches cfg v := ⟨adapter, channel, body, signature⟩
        simp only [signature, on, Bool.true_eq_false, if_false]
        by_cases recording : Recording v.answers
        · rw [tryRecordNonce_eq recording]
          by_cases seen : (v.kept b.rows).any (·.nonce = cfg.nonce v.callback) = true
          · rw [if_pos seen]
            exact .replayed reaches (by simpa using seen)
          · rw [if_neg seen]
            exact .processed _ (process_ne_replayed cfg _ _ _) reaches (by simpa using seen)
        · obtain ⟨err, rows, failed, unchanged⟩ := tryRecordNonce_fails recording b.rows (cfg.nonce v.callback)
          rw [failed]
          exact .stopped (.failed err) rfl nofun _ unchanged

variable {b : Inbox}

theorem reply_replayed_iff (on : cfg.webhookNonces = true) (reaches : Reaches cfg v)
    (recording : Recording v.answers) :
    b.reply cfg v = .replayed ↔ ∃ row ∈ v.kept b.rows, row.nonce = cfg.nonce v.callback := by
  obtain ⟨adapter, channel, body, signature⟩ := reaches
  unfold Inbox.reply handleWebhookCallback
  simp only [channel, body, signature, on, Bool.true_eq_false, if_false]
  rw [tryRecordNonce_eq recording]
  by_cases seen : (v.kept b.rows).any (·.nonce = cfg.nonce v.callback) = true
  · rw [if_pos seen]
    exact iff_of_true rfl (by simpa using seen)
  · rw [if_neg seen]
    refine iff_of_false (process_ne_replayed cfg _ _ _) fun found => seen ?_
    simpa using found

theorem kept_subset (v : Visit) (rows : List NonceRow) : v.kept rows ⊆ rows := by
  unfold Visit.kept
  split
  · exact List.filter_subset_self _
  · exact List.Subset.refl _
  · exact List.Subset.refl _

variable (cfg) in
structure Traced (b : Inbox) : Prop where
  rows : ∀ row ∈ b.rows, ∃ e ∈ b.log, e.recorded = true ∧ cfg.nonce e.callback = row.nonce
  succeeded : ∀ e ∈ b.log, e.reply.succeeded = true → e.recorded = true

variable (cfg) in
def Receives (b b' : Inbox) : Prop := ∃ v, b' = b.receive cfg v

theorem traced_receive (on : cfg.webhookNonces = true) (traced : Traced cfg b) (v : Visit) :
    Traced cfg (b.receive cfg v) := by
  have visited := handle_visited on b v
  unfold Inbox.receive
  generalize b.reply cfg v = reply, b.records cfg v = recorded,
    (handleWebhookCallback cfg v.at_ v.answers b.rows v.callback).2 = rows at visited
  have old : ∀ row ∈ b.rows, ∃ e ∈ b.log ++ [(⟨v.at_, v.callback, reply, recorded⟩ : Served)],
      e.recorded = true ∧ cfg.nonce e.callback = row.nonce := by
    intro row member
    obtain ⟨e, logged, rest⟩ := traced.rows row member
    exact ⟨e, List.mem_append_left _ logged, rest⟩
  cases visited with
  | stopped _ unsuccessful other _ unchanged =>
    refine ⟨fun row member => old row ?_, fun e member succeeded => ?_⟩
    · rcases unchanged with rfl | rfl
      · exact member
      · exact kept_subset v _ member
    · rcases List.mem_append.mp member with logged | last
      · exact traced.succeeded e logged succeeded
      · rw [List.mem_singleton.mp last, unsuccessful] at succeeded
        cases succeeded
  | replayed reaches seen =>
    refine ⟨fun row member => old row (kept_subset v _ member), fun e member succeeded => ?_⟩
    rcases List.mem_append.mp member with logged | last
    · exact traced.succeeded e logged succeeded
    · rw [List.mem_singleton.mp last] at succeeded
      cases succeeded
  | processed _ other reaches fresh =>
    refine ⟨fun row member => ?_, fun e member succeeded => ?_⟩
    · rcases List.mem_append.mp member with kept | last
      · exact old row (kept_subset v _ kept)
      · rw [List.mem_singleton.mp last]
        exact ⟨_, List.mem_append_right _ (List.mem_singleton_self _), rfl, rfl⟩
    · rcases List.mem_append.mp member with logged | last
      · exact traced.succeeded e logged succeeded
      · rw [List.mem_singleton.mp last]

theorem traced_run (on : cfg.webhookNonces = true) (run : Run (Receives cfg) ⟨[], []⟩ b) :
    Traced cfg b := by
  refine Preserved.run (fun b b' traced received => ?_) ⟨?_, ?_⟩ run
  · obtain ⟨v, rfl⟩ := received
    exact traced_receive on traced v
  · exact fun row absent => (List.not_mem_nil absent).elim
  · exact fun e absent => (List.not_mem_nil absent).elim

section

variable (cfg)

def Answered (log : List Served) (c : Callback) : Prop :=
  ∃ e ∈ log, cfg.nonce e.callback = cfg.nonce c ∧ e.reply.succeeded = true

def Sendable (c : Callback) : Prop :=
  ∃ adapter t, cfg.channels c.channel = some adapter ∧ adapter.verifySignature t c = .ok ()

def Kept (b : Inbox) (c : Callback) : Prop := ∃ row ∈ b.rows, row.nonce = cfg.nonce c

def ReplayLaw (log : List Served) : Prop :=
  ∀ before e after, log = before ++ e :: after → e.reply = .replayed →
    Answered cfg before e.callback

def Windowed (c : Callback) : Prop :=
  ∃ sent, ∀ adapter t, 0 ≤ t → cfg.channels c.channel = some adapter →
    adapter.verifySignature t c = .ok () →
    |t - sent| ≤ signatureFreshness

end

def workingAnswers : Answers where
  bodyRead := true
  prune := .insufficientPrivilege
  insertFails := none
  ingestDeposit _ := .ok none
  getBooking _ := .error ⟨.notFound, ""⟩
  depositClassUID := .error ⟨.notFound, ""⟩
  transition _ := .error ⟨.notFound, ""⟩

theorem next_refusal_iff (on : cfg.webhookNonces = true) (traced : Traced cfg b) :
    (∀ v, Reaches cfg v → Recording v.answers → b.reply cfg v = .replayed →
      Answered cfg b.log v.callback) ↔
      ∀ e ∈ b.log, e.recorded = true → ∀ c, cfg.nonce c = cfg.nonce e.callback →
      Sendable cfg c → Kept cfg b c →
        Answered cfg b.log c := by
  constructor
  · rintro lawful e - - c - ⟨adapter, t, channel, signature⟩ kept
    have reaches : Reaches cfg ⟨t, workingAnswers, c⟩ := ⟨adapter, channel, rfl, signature⟩
    have recording : Recording workingAnswers := ⟨nofun, rfl⟩
    exact lawful ⟨t, workingAnswers, c⟩ reaches recording
      ((reply_replayed_iff on reaches recording).mpr kept)
  · intro answered v reaches recording refused
    obtain ⟨row, member, same⟩ := (reply_replayed_iff on reaches recording).mp refused
    have kept := kept_subset v _ member
    obtain ⟨e, logged, recorded, nonce⟩ := traced.rows row kept
    obtain ⟨adapter, channel, -, signature⟩ := reaches
    exact answered e logged recorded v.callback (by rw [nonce, same])
      ⟨adapter, v.at_, channel, signature⟩ ⟨row, kept, same⟩

theorem replayLaw_run (on : cfg.webhookNonces = true) (run : Run (Receives cfg) ⟨[], []⟩ b)
    (complete : ∀ e ∈ b.log, e.recorded = true → e.reply.succeeded = true) :
    ReplayLaw cfg b.log := by
  induction run with
  | refl =>
    intro before e after split
    exact absurd split (by simp)
  | @tail b b' earlier last ih =>
    obtain ⟨v, rfl⟩ := last
    have traced := traced_run on earlier
    have completeBefore : ∀ e ∈ b.log, e.recorded = true → e.reply.succeeded = true :=
      fun e member => complete e (List.mem_append_left _ member)
    intro before e after split refused
    rcases split_concat split with ⟨rfl, rfl⟩ | ⟨more, inside⟩
    · have visited := handle_visited on b v
      simp only at refused
      rw [refused] at visited
      generalize b.records cfg v = recorded,
        (handleWebhookCallback cfg v.at_ v.answers b.rows v.callback).2 = rows at visited
      cases visited with
      | stopped _ _ other | processed _ other => exact absurd rfl other
      | replayed _ seen =>
        obtain ⟨row, member, same⟩ := seen
        obtain ⟨e, logged, recorded, nonce⟩ := traced.rows row (kept_subset v _ member)
        exact ⟨e, logged, nonce.trans same, completeBefore e logged recorded⟩
    · exact ih completeBefore before e more inside refused

variable (cfg) in
def WindowedOn (times : Int → Prop) (c : Callback) : Prop :=
  ∃ sent, ∀ adapter t, times t → cfg.channels c.channel = some adapter →
    adapter.verifySignature t c = .ok () →
    |t - sent| ≤ signatureFreshness

variable (cfg) in
structure Decided (times : Int → Prop) (b : Inbox) : Prop where
  verified : ∀ e ∈ b.log, e.recorded = true →
    ∃ adapter, cfg.channels e.callback.channel = some adapter ∧
    adapter.verifySignature e.at_ e.callback = .ok ()
  /-- A row goes only when a visit comes after its retention. -/
  kept : ∀ e ∈ b.log, e.recorded = true → ⟨cfg.nonce e.callback, e.at_ / 1000⟩ ∈ b.rows ∨
    ∃ later ∈ b.log, e.at_ / 1000 < later.at_ / 1000 - nonceRetention
  /-- No later visit of the callback is processed. -/
  final : b.log.Pairwise fun e e' => e.recorded = true → e'.callback = e.callback →
    WindowedOn cfg times e.callback →
    e'.recorded = false

theorem window_lt_retention {s t sent : Int} (first : |s - sent| ≤ signatureFreshness)
    (second : |t - sent| ≤ signatureFreshness) :
    ¬s / 1000 < t / 1000 - nonceRetention := by
  rw [abs_le] at first second
  unfold signatureFreshness at first second
  unfold nonceRetention
  omega

variable {rows : List NonceRow} {row : NonceRow} {reply : Reply}

theorem kept_of_fresh (member : row ∈ rows) (fresh : ¬row.seenAt < v.at_ / 1000 - nonceRetention) :
    row ∈ v.kept rows := by
  unfold Visit.kept
  split
  · exact List.mem_filter.mpr ⟨member, decide_eq_true fresh⟩
  · exact member
  · exact member

theorem Visited.keeps {recorded : Bool} (visited : Visited cfg b v reply rows recorded)
    (member : row ∈ b.rows) :
    row ∈ rows ∨ row.seenAt < v.at_ / 1000 - nonceRetention := by
  by_cases fresh : row.seenAt < v.at_ / 1000 - nonceRetention
  · exact .inr fresh
  have kept : row ∈ v.kept b.rows := kept_of_fresh member fresh
  cases visited with
  | stopped _ _ _ _ unchanged =>
    rcases unchanged with rfl | rfl
    · exact .inl member
    · exact .inl kept
  | replayed _ _ => exact .inl kept
  | processed _ _ _ _ => exact .inl (List.mem_append_left _ kept)

theorem Visited.recorded (visited : Visited cfg b v reply rows true) :
    Reaches cfg v ∧ ⟨cfg.nonce v.callback, v.at_ / 1000⟩ ∈ rows ∧ ∀ row ∈ v.kept b.rows, row.nonce ≠
    cfg.nonce v.callback := by
  cases visited with
  | processed _ _ reaches fresh =>
    exact ⟨reaches, List.mem_append_right _ (List.mem_singleton_self _), fresh⟩

theorem decided_run (on : cfg.webhookNonces = true) {times : Int → Prop}
    (run : Run (Receives cfg) ⟨[], []⟩ b)
    (ordered : b.log.Pairwise (·.at_ ≤ ·.at_)) (clock : ∀ e ∈ b.log, times e.at_) :
    Decided cfg times b := by
  induction run with
  | refl => exact ⟨fun e absent => (List.not_mem_nil absent).elim, fun e absent => (List.not_mem_nil absent).elim, .nil⟩
  | @tail b b' earlier last ih =>
    obtain ⟨v, rfl⟩ := last
    obtain ⟨orderedBefore, -, upTo⟩ := List.pairwise_append.mp ordered
    have before : ∀ e ∈ b.log, e.at_ ≤ v.at_ := fun e member => upTo e member _
      (List.mem_singleton_self _)
    have decided := ih orderedBefore fun e member => clock e (List.mem_append_left _ member)
    have now : times v.at_ := clock _ (List.mem_append_right _ (List.mem_singleton_self _))
    have visited := handle_visited on b v
    unfold Inbox.receive
    generalize b.reply cfg v = reply, b.records cfg v = recorded,
      (handleWebhookCallback cfg v.at_ v.answers b.rows v.callback).2 = rows at visited
    refine ⟨fun e member recorded => ?_, fun e member recorded => ?_, List.pairwise_append.mpr
      ⟨decided.final, List.pairwise_singleton _ _, fun e member e' last recorded same window => ?_⟩⟩
    · rcases List.mem_append.mp member with logged | last
      · exact decided.verified e logged recorded
      · obtain rfl := List.mem_singleton.mp last
        obtain rfl : _ = true := recorded
        obtain ⟨⟨adapter, channel, -, signature⟩, -, -⟩ := visited.recorded
        exact ⟨adapter, channel, signature⟩
    · rcases List.mem_append.mp member with logged | last
      · rcases decided.kept e logged recorded with row | ⟨later, after, gone⟩
        · refine (visited.keeps row).imp_right fun gone => ?_
          exact ⟨_, List.mem_append_right _ (List.mem_singleton_self _), gone⟩
        · exact .inr ⟨later, List.mem_append_left _ after, gone⟩
      · obtain rfl := List.mem_singleton.mp last
        obtain rfl : _ = true := recorded
        exact .inl visited.recorded.2.1
    · obtain rfl := List.mem_singleton.mp last
      by_contra again
      obtain rfl := Bool.not_eq_false _ ▸ again
      obtain ⟨⟨adapter, channel, -, signature⟩, -, fresh⟩ := visited.recorded
      obtain ⟨adapter', channel', signature'⟩ := decided.verified e member recorded
      obtain ⟨sent, close⟩ := window
      -- Both visits fall in one window, so the row of the first is still there.
      simp only at same
      rw [← same] at close channel' signature'
      have first := close adapter' e.at_ (clock e (List.mem_append_left _ member)) channel' signature'
      have second := close adapter v.at_ now channel signature
      have young := window_lt_retention first second
      rcases decided.kept e member recorded with row | ⟨later, after, gone⟩
      · exact fresh _ (kept_of_fresh row young) (by rw [same])
      · have := before later after
        omega

theorem hexLower_injective : Function.Injective Uuid.hexLower := by decide

theorem hexEncode_injective : Function.Injective hexEncode := by
  intro s t same
  induction s generalizing t with
  | nil =>
    cases t with
    | nil => rfl
    | cons b t => cases same
  | cons a s ih =>
    cases t with
    | nil => cases same
    | cons b t =>
      obtain ⟨high, rest⟩ := List.cons.inj same
      obtain ⟨low, rest⟩ := List.cons.inj rest
      have high := congrArg Fin.val (hexLower_injective high)
      have low := congrArg Fin.val (hexLower_injective low)
      simp only [Fin.val_ofNat] at high low
      have equal : a = b := Fin.ext (by omega)
      rw [equal, ih rest]

theorem nonceMessage_injective : Function.Injective nonceMessage := by
  rintro ⟨channel, timestamp, signature, body, plain⟩
    ⟨channel', timestamp', signature', body', plain'⟩ same
  obtain ⟨rfl, same⟩ := split_at_separator plain.1 plain'.1 same
  obtain ⟨rfl, same⟩ := split_at_separator plain.2.1 plain'.2.1 same
  obtain ⟨rfl, rfl⟩ := split_at_separator plain.2.2 plain'.2.2 same
  rfl

theorem callback_of_nonce {c c' : Callback} (same : cfg.nonce c = cfg.nonce c') :
    c = c' ∨ nonceMessage c ≠ nonceMessage c' ∧ cfg.sha256 (nonceMessage c) =
    cfg.sha256 (nonceMessage c') := by
  by_cases equal : c = c'
  · exact .inl equal
  · exact .inr ⟨fun messages => equal (nonceMessage_injective messages), hexEncode_injective same⟩

/-- Refusals as replays, with the cache configured. (1) From every state reached, the next refusals
are all of callbacks answered with success exactly if every nonce kept, of a callback that can still
verify, was answered with success. (2) In a run in which every recorded callback was answered with
success, so was every callback that is refused as a replay. (3) After a visit that recorded its
nonce no visit of the same callback succeeds. (4) One nonce is one callback. -/
theorem replay_refusals (on : cfg.webhookNonces = true) {b : Inbox}
    (run : Run (Receives cfg) ⟨[], []⟩ b) :
    ((∀ v, Reaches cfg v → Recording v.answers → b.reply cfg v = .replayed →
      Answered cfg b.log v.callback) ↔
      ∀ e ∈ b.log, e.recorded = true → ∀ c, cfg.nonce c = cfg.nonce e.callback →
      Sendable cfg c → Kept cfg b c →
        Answered cfg b.log c) ∧ ((∀ e ∈ b.log, e.recorded = true → e.reply.succeeded = true) → ReplayLaw cfg b.log) ∧
    (b.log.Pairwise (·.at_ ≤ ·.at_) → (∀ e ∈ b.log, 0 ≤ e.at_) →
      b.log.Pairwise fun e e' => e.recorded = true →
      e'.callback = e.callback → Windowed cfg e.callback → e'.reply.succeeded = false) ∧
      ∀ c c', cfg.nonce c = cfg.nonce c' →
      c = c' ∨ nonceMessage c ≠ nonceMessage c' ∧ cfg.sha256 (nonceMessage c) =
      cfg.sha256 (nonceMessage c') :=
by
  have traced := traced_run on run
  refine ⟨next_refusal_iff on traced, replayLaw_run on run, fun ordered clock => ?_,
    fun _ _ => callback_of_nonce⟩
  refine (decided_run on run ordered clock).final.imp_of_mem fun _ member final
    recorded same window => ?_
  by_contra succeeded
  have again := traced.succeeded _ member (Bool.not_eq_false _ ▸ succeeded)
  rw [final recorded same window] at again
  cases again

namespace WebhookSample

def callback : Callback := ⟨lit "evm", lit "0", hexEncode (lit "0."), [], by decide +kernel⟩

def sighting : DepositSighting := ⟨1, lit "0x1", 0, lit "0x2", lit "0x3", lit "0x4", ⟨1, 0⟩, 1, 1⟩

def adapter : Adapter where
  verifySignature := evmVerifySignature id
  parseCallback _ := .error ⟨.other, "channel: evm: parse"⟩
  parseSighting := some fun _ => .ok sighting

def server : ServerConfig where
  sha256 := id
  channels name := if name = lit "evm" then some adapter else none
  webhookNonces := true
  depositIngester := true

def visit (at_ : Int) (ingested : Result (Option Booking)) : Visit :=
  ⟨at_, { workingAnswers with prune := .done, ingestDeposit := fun _ => ingested }, callback⟩

def outage : Result (Option Booking) := .error ⟨.transient, "service: ingest deposit"⟩

def resent : Inbox :=
  [visit 0 outage, visit 1000000000 (.ok none), visit 60000000000 (.ok none),
    visit 240000000000 (.ok none)].foldl
    (Inbox.receive server) ⟨[], []⟩

def delivered : Inbox := [visit 0 (.ok none), visit 1000000000 (.ok none)].foldl
    (Inbox.receive server) ⟨[], []⟩

theorem run_receives (vs : List Visit) (b : Inbox) :
    Run (Receives server) b (vs.foldl (Inbox.receive server) b) := by
  induction vs generalizing b with
  | nil => exact .refl
  | cons v vs ih => exact .head ⟨v, rfl⟩ (ih _)

end WebhookSample

/-- The first visit fails in the ingester and every other is refused as a replay: no visit succeeds,
and the second is refused with none answered before it. -/
theorem replay_refused_unanswered : WebhookSample.resent.log.map (·.reply) =
      [.failed ⟨.transient, "service: ingest deposit"⟩, .replayed, .replayed, .replayed] ∧
    ¬ ReplayLaw WebhookSample.server WebhookSample.resent.log := by
  have refused : ∃ long : 1 < WebhookSample.resent.log.length,
    WebhookSample.resent.log[1].reply = .replayed :=
    ⟨by decide +kernel, by decide +kernel⟩
  have failed : ∀ e ∈ WebhookSample.resent.log.take 1, e.reply.succeeded =
    false := by decide +kernel
  refine ⟨by decide +kernel, fun law => ?_⟩
  obtain ⟨long, refused⟩ := refused
  have split := (List.take_append_drop 1 WebhookSample.resent.log).symm
  rw [List.drop_eq_getElem_cons long] at split
  obtain ⟨e, before, -, succeeded⟩ := law _ _ _ split refused
  rw [failed e before] at succeeded
  cases succeeded

theorem replay_refusals_delivered : WebhookSample.delivered.log.map (·.reply) =
    [.ignored, .replayed] ∧
      ReplayLaw WebhookSample.server WebhookSample.delivered.log := by
  have replies : WebhookSample.delivered.log.map (·.reply) =
    [.ignored, .replayed] := by decide +kernel
  have complete : ∀ e ∈ WebhookSample.delivered.log, e.recorded = true → e.reply.succeeded =
    true := by decide +kernel
  exact ⟨replies, (replay_refusals rfl (WebhookSample.run_receives _ _)).2.1 complete⟩

def sentAt (ts : Int) : Int := timeUnix ts

/-- All that `EVMAdapter.VerifySignature` asks of a callback but the freshness of its timestamp
`ts`. -/
structure SignedAt (mac : GoString → GoString) (c : Callback) (ts : Int) : Prop where
  stamped : c.timestamp ≠ []
  parsed : parseInt 64 c.timestamp = some ts
  present : c.signature ≠ []
  matched : c.signature = hexEncode (mac (c.timestamp ++ (lit "." ++ c.body)))

variable {mac : GoString → GoString} {c : Callback} {ts : Int}

/-- The difference of a time far enough ahead saturates, and its negation wraps around to itself. -/
theorem timeSkew_fresh_iff (now signed : Int) :
    ¬ signatureFreshness < timeSkew now signed ↔ |now - signed| ≤ signatureFreshness ∨
    now - signed ≤ -2 ^ 63 := by
  rw [abs_le, signatureFreshness]
  by_cases far : now - signed ≤ -2 ^ 63
  · have saturated : timeSub now signed = -2 ^ 63 := by
      unfold timeSub
      omega
    rw [timeSkew, saturated]
    exact iff_of_true (by decide) (.inr far)
  · have negated : wrap64 (-timeSub now signed) = -timeSub now signed := by
      unfold wrap64 timeSub
      apply Int.bmod_eq_of_le <;> omega
    rw [timeSkew, negated, timeSub]
    split <;> omega

theorem SignedAt.verifies_iff (signed : SignedAt mac c ts) (now : Int) :
    evmVerifySignature mac now c = .ok () ↔
    |now - sentAt ts| ≤ signatureFreshness ∨ now - sentAt ts ≤ -2 ^ 63 := by
  obtain ⟨stamped, parsed, present, matched⟩ := signed
  rw [← timeSkew_fresh_iff]
  simp only [evmVerifySignature, bind_eq_ok, require_eq_ok, orError_eq_ok,
    parsed, decide_eq_true_eq]
  constructor
  · rintro ⟨_, -, _, found, _, fresh, -⟩
    cases found
    exact fresh
  · exact fun fresh => ⟨(), stamped, ts, rfl, (), fresh, (), present, matched⟩

theorem sentAt_eq (range : -2 ^ 63 ≤ ts ∧ ts < 2 ^ 63) : sentAt ts = ts * 1000000000 ∨ sentAt ts =
    (ts - 2 ^ 64) * 1000000000 := by
  unfold sentAt timeUnix wrap64
  by_cases fits : ts + 62135596800 < 2 ^ 63
  · rw [Int.bmod_eq_of_le (by omega) (by omega)]
    exact .inl (by omega)
  · rw [← Int.sub_bmod_right, Int.bmod_eq_of_le (by omega) (by omega)]
    exact .inr (by omega)

theorem receive_fresh (on : cfg.webhookNonces = true) (reaches : Reaches cfg v)
    (recording : Recording v.answers)
    (forgotten : v.kept b.rows = []) :
    b.receive cfg v = ⟨[⟨cfg.nonce v.callback, v.at_ / 1000⟩], b.log ++
      [⟨v.at_, v.callback, b.reply cfg v, true⟩]⟩ := by
  obtain ⟨adapter, channel, body, signature⟩ := reaches
  simp [Inbox.receive, Inbox.records, handleWebhookCallback, channel, body, signature, on,
    tryRecordNonce_eq recording, forgotten]
  rfl

/-- A callback signed for a time that is not too far ahead verifies only around that time, and no
run that starts at `earliest` processes it twice. Any other one is processed at the start and again
around the time it is signed for. -/
theorem signature_single_use_iff (on : cfg.webhookNonces = true) {adapter : Adapter}
    (channel : cfg.channels c.channel = some adapter)
    (evm : adapter.verifySignature = evmVerifySignature mac) (signed : SignedAt mac c ts) :
    (∀ now : Int, (evmVerifySignature mac now c = .ok () → |now - ts * 1000000000| ≤
      signatureFreshness) ↔
      -2 ^ 63 < now - sentAt ts ∧
      (|now - sentAt ts| ≤ signatureFreshness → sentAt ts = ts * 1000000000)) ∧
    ∀ earliest : Int, (∀ b, Run (Receives cfg) ⟨[], []⟩ b → b.log.Pairwise (·.at_ ≤ ·.at_) →
      (∀ e ∈ b.log, earliest ≤ e.at_) →
        b.log.Pairwise fun e e' => e.callback = c → e'.callback = c → e.recorded = true → e'.recorded = false) ↔
      sentAt ts - earliest < 2 ^ 63 := by
  have verifies := signed.verifies_iff
  have wraps := sentAt_eq (parseInt_range signed.parsed)
  have window : signatureFreshness = 300000000000 := rfl
  generalize sentAt ts = sent at verifies wraps ⊢
  refine ⟨fun now => ?_, fun earliest => ⟨fun single => ?_, fun near b run ordered clock => ?_⟩⟩
  · rw [verifies, abs_le, abs_le, window]
    rcases wraps with same | wrapped <;> omega
  · by_contra far
    have answers : Recording { workingAnswers with prune := .done } := ⟨nofun, rfl⟩
    let visit (t : Int) : Visit := ⟨t, { workingAnswers with prune := .done }, c⟩
    have reaches (t : Int) (fresh : |t - sent| ≤ signatureFreshness ∨ t - sent ≤ -2 ^ 63) :
      Reaches cfg (visit t) :=
      ⟨adapter, channel, rfl, by rw [evm]; exact (verifies t).mpr fresh⟩
    have first := @receive_fresh cfg _ ⟨[], []⟩ on (reaches earliest (.inr (by omega))) answers rfl
    have forgotten : (visit sent).kept (Inbox.receive cfg ⟨[], []⟩ (visit earliest)).rows = [] := by
      rw [first]
      simp only [Visit.kept, visit, nonceRetention, List.filter_singleton, not_lt]
      rw [decide_eq_false (by omega)]
      rfl
    have second := receive_fresh on (reaches sent (.inl (by simp [window]))) answers forgotten
    have twice := single _ (.tail (.single ⟨visit earliest, rfl⟩) ⟨visit sent, rfl⟩)
    rw [second, first] at twice
    have ordered : earliest ≤ sent := by omega
    have once := List.pairwise_pair.mp
      (twice (List.pairwise_pair.mpr ordered) (by simp [visit, ordered])) rfl rfl rfl
    exact Bool.noConfusion once
  · refine (decided_run on run ordered clock).final.imp fun final mine again recorded =>
      final recorded (again.trans mine.symm) ?_
    refine ⟨sent, fun adapter' t after channel' verified => ?_⟩
    rw [mine, channel] at channel'
    cases channel'
    rw [mine, evm, verifies] at verified
    exact verified.resolve_right (by omega)

namespace WebhookSample

def ahead : Callback := ⟨lit "evm", lit "9223374037", hexEncode (lit "9223374037."),
    [], by decide +kernel⟩

def twice : Inbox :=
  [⟨0, { workingAnswers with prune := .done }, ahead⟩,
    ⟨1200000000000, { workingAnswers with prune := .done }, ahead⟩].foldl
    (Inbox.receive server) ⟨[], []⟩

theorem callback_signed : SignedAt id callback 0 :=
  ⟨by decide +kernel, by decide +kernel, by decide +kernel, by decide +kernel⟩

end WebhookSample

theorem signature_single_use_iff_epoch : WebhookSample.delivered.log.Pairwise fun e e' =>
    e.callback = WebhookSample.callback →
    e'.callback = WebhookSample.callback → e.recorded = true → e'.recorded = false :=
  have on : WebhookSample.server.webhookNonces = true := rfl
  ((signature_single_use_iff on rfl rfl WebhookSample.callback_signed).2 0).mpr
    (by decide +kernel) _
    (WebhookSample.run_receives _ _) (by decide +kernel) (by decide +kernel)

/-- Signed for the year 2262 and sent in 1970, the callback is accepted, and again after twenty
minutes. -/
theorem signature_ahead_used_twice : evmVerifySignature id 0 WebhookSample.ahead = .ok () ∧
    WebhookSample.twice.log.map (fun e => (e.reply, e.recorded)) =
    [(.ignored, true), (.ignored, true)] := by
  constructor <;> decide +kernel

end Ledger.Server
