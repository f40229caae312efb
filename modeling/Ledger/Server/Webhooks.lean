import Ledger.Core.Onchain
import Ledger.Shared.Bytes

namespace Ledger.Server

open Shared Core

/-- A request with the two headers the handler reads. Neither a header nor a configured channel
holds a zero byte. -/
structure Callback where
  channel : GoString
  timestamp : GoString
  signature : GoString
  body : GoString
  plain : 0 ∉ channel ∧ 0 ∉ timestamp ∧ 0 ∉ signature
deriving DecidableEq

structure CallbackPayload where
  bookingUID : GoString
  channelRef : GoString
  status : GoString
  actualAmount : Decimal
  metadata : Metadata

/-- `channel.Adapter`, with the `ParseSighting` that some adapters have. The signature is checked
against the clock. -/
structure Adapter where
  verifySignature : Instant → Callback → Result Unit
  parseCallback : Callback → Result CallbackPayload
  parseSighting : Option (Callback → Result DepositSighting)

def hexEncode (s : GoString) : GoString :=
  s.flatMap fun b => [Uuid.hexLower (Fin.ofNat 16 (b.val / 16)), Uuid.hexLower
    (Fin.ofNat 16 (b.val % 16))]

def signatureFreshness : Int := 5 * 60 * 1000000000

def timeUnix (seconds : Int) : Instant :=
  (wrap64 (seconds + 62135596800) - 62135596800) * 1000000000

def timeSub (t u : Instant) : Int := max (-2 ^ 63) (min (2 ^ 63 - 1) (t - u))

def timeSkew (now signed : Instant) : Int :=
  if timeSub now signed < 0 then wrap64 (-timeSub now signed) else timeSub now signed

/-- `EVMAdapter.VerifySignature`; `mac` is HMAC-SHA256 under the signing key. -/
def evmVerifySignature (mac : GoString → GoString) (now : Instant)
    (c : Callback) : Result Unit := do
  require (c.timestamp ≠ []) ⟨.other, "channel: evm: missing X-Timestamp header"⟩
  let ts ← orError (parseInt 64 c.timestamp) ⟨.other, "channel: evm: invalid X-Timestamp %q"⟩
  require (¬signatureFreshness < timeSkew now (timeUnix ts))
    ⟨.other, "channel: evm: timestamp outside acceptance window (%s skew)"⟩
  require (c.signature ≠ []) ⟨.other, "channel: evm: missing X-Signature header"⟩
  require (c.signature = hexEncode (mac (c.timestamp ++ (lit "." ++ c.body))))
    ⟨.other, "channel: evm: signature mismatch"⟩

/-- The DELETE of expired nonces may be refused for lack of privilege, which is tolerated. -/
inductive Prune where
  | done
  | insufficientPrivilege
  | failed (err : Error)

structure Answers where
  bodyRead : Bool
  prune : Prune
  insertFails : Option Error
  ingestDeposit : DepositSighting → Result (Option Booking)
  getBooking : GoString → Result Booking
  depositClassUID : Result GoString
  transition : TransitionInput → Result Event

structure NonceRow where
  nonce : GoString
  seenAt : Int
deriving DecidableEq

def nonceRetention : Int := 15 * 60 * 1000000

def tryRecordNonce (now : Int) (a : Answers) (rows : List NonceRow) (nonce : GoString) :
    Result Bool × List NonceRow :=
  let insert (rows : List NonceRow) : Result Bool × List NonceRow :=
    match a.insertFails with
    | some err => (.error (err.wrap "postgres: record webhook nonce"), rows)
    | none => if rows.any (·.nonce = nonce) then (.ok false, rows) else (.ok true, rows ++ [⟨nonce, now⟩])
  match a.prune with
  | .done => insert (rows.filter fun row => ¬row.seenAt < now - nonceRetention)
  | .insufficientPrivilege => insert rows
  | .failed err => (.error (err.wrap "postgres: prune webhook nonces"), rows)

inductive Reply where
  | booking (b : Booking)
  | ignored
  | event (e : Event)
  | refused (code : Nat) (text : String)
  | failed (err : Error)
deriving DecidableEq

namespace Reply

def badRequest (text : String) : Reply := .refused 10001 text

def forbidden (text : String) : Reply := .refused 10150 text

def notFound (text : String) : Reply := .refused 10201 text

def conflict (text : String) : Reply := .refused 10901 text

def replayed : Reply := conflict "replayed webhook callback"

def succeeded : Reply → Bool
  | .booking _ | .ignored | .event _ => true
  | .refused _ _ | .failed _ => false

end Reply

structure ServerConfig where
  sha256 : GoString → GoString
  channels : GoString → Option Adapter
  webhookNonces : Bool
  depositIngester : Bool

def nonceMessage (c : Callback) : GoString := c.channel ++
    0 :: (c.timestamp ++ 0 :: (c.signature ++ 0 :: c.body))

variable (s : ServerConfig)

def ServerConfig.nonce (c : Callback) : GoString := hexEncode (s.sha256 (nonceMessage c))

def handleDepositSighting (a : Answers) (parse : Callback → Result DepositSighting)
    (c : Callback) : Reply :=
  if s.depositIngester = false then .refused 18102 "feature not enabled"
  else
    match parse c with
    | .error _ => .badRequest "invalid callback"
    | .ok sighting =>
      match a.ingestDeposit sighting with
      | .error err => .failed err
      | .ok none => .ignored
      | .ok (some booking) => .booking booking

def transitionBooking (a : Answers) (adapter : Adapter) (c : Callback) : Reply :=
  match adapter.parseCallback c with
  | .error _ => .badRequest "invalid callback"
  | .ok payload =>
    match a.getBooking payload.bookingUID with
    | .error err => .failed err
    | .ok booking =>
      if booking.channelName ≠ c.channel then .forbidden "channel mismatch for booking"
      else
        match a.depositClassUID with
        | .error err => .failed err
        | .ok depositClass =>
          if booking.classificationUID ≠ depositClass then .forbidden
            "webhook channel may only transition deposit bookings"
          else if payload.status = lit "confirmed" then
            .forbidden ("a channel callback may not confirm a deposit: confirmation posts accounting and must go through " ++
              "the deposit sighting path (implement channel.SightingParser), not a bare status transition")
          else
            match a.transition
              { bookingUID := payload.bookingUID
                toStatus := payload.status
                channelRef := payload.channelRef
                amount := payload.actualAmount
                metadata := payload.metadata
                actorID := 0
                source := []
                idempotencyKey := lit "webhook-" ++ payload.bookingUID ++ lit "-" ++ payload.status ++ lit "-" ++
                  payload.channelRef } with
            | .error err => .failed err
            | .ok event => .event event

def process (a : Answers) (adapter : Adapter) (c : Callback) : Reply :=
  match adapter.parseSighting with
  | some parse => handleDepositSighting s a parse c
  | none => transitionBooking a adapter c

def handleWebhookCallback (now : Instant) (a : Answers) (rows : List NonceRow) (c : Callback) :
    Reply × List NonceRow :=
  match s.channels c.channel with
  | none => (.notFound "unknown channel", rows)
  | some adapter =>
    if a.bodyRead = false then (.badRequest "read body failed", rows)
    else
      match adapter.verifySignature now c with
      | .error _ => (.badRequest "signature verification failed", rows)
      | .ok () =>
        if s.webhookNonces = false then (process s a adapter c, rows)
        else
          match tryRecordNonce (now / 1000) a rows (s.nonce c) with
          | (.error err, rows) => (.failed err, rows)
          | (.ok false, rows) => (.replayed, rows)
          | (.ok true, rows) => (process s a adapter c, rows)

end Ledger.Server
