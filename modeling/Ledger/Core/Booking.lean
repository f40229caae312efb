import Ledger.Core.Journal

namespace Ledger.Core

open Shared

abbrev Status := GoString

structure Lifecycle where
  version : Int
  initial : Status
  terminal : List Status
  transitions : SortedMap Status (List Status)
deriving DecidableEq

namespace Lifecycle

def zero : Lifecycle := ⟨0, [], [], .empty⟩

def targets (l : Lifecycle) (from_ : Status) : List Status := (l.transitions.get from_).getD []

def defined (l : Lifecycle) : List Status := l.transitions.entries.map Prod.fst ++ l.terminal

def reached (l : Lifecycle) : Nat → List Status
  | 0 => [l.initial]
  | n + 1 => l.reached n ++ (l.reached n).flatMap l.targets |>.dedup

def validate (l : Lifecycle) : Result Unit := do
  require (0 ≤ l.version ∧ l.version ≤ 1)
    ⟨.invalidInput, "core: lifecycle: unsupported version %d (this build understands version 1)"⟩
  require (l.initial ≠ []) ⟨.invalidInput, "core: lifecycle: initial status must not be empty"⟩
  require (l.targets l.initial ≠ [])
    ⟨.invalidInput, "core: lifecycle: initial status %q must have outgoing transitions"⟩
  checkAll (fun s => require (l.targets s = [])
    ⟨.invalidInput, "core: lifecycle: terminal status %q must not have outgoing transitions"⟩)
      l.terminal
  checkAll (fun entry => checkAll (fun target => require (target ∈ l.defined)
    ⟨.invalidInput, "core: lifecycle: transition %q -> %q targets undefined status"⟩) entry.2)
      l.transitions.entries
  -- The walk from the initial status visits each status once, so as many rounds as there are
  -- statuses do.
  require (l.defined.all fun s => s ∈ l.reached l.defined.length)
    ⟨.invalidInput, "core: lifecycle: unreachable status(es) from initial %q: %v"⟩

def canTransition (l : Lifecycle) (from_ target : Status) : Bool := target ∈ l.targets from_

end Lifecycle

structure Booking where
  uid : GoString
  classificationUID : GoString
  accountHolder : Int
  currencyUID : GoString
  amount : Decimal
  settledAmount : Decimal
  status : Status
  channelName : GoString
  channelRef : GoString
  reservationUID : GoString
  journalUID : GoString
  idempotencyKey : GoString
  metadata : Metadata
  expiresAt : Int
  createdAt : Int
deriving DecidableEq

structure Event where
  uid : GoString
  bookingUID : GoString
  currencyUID : GoString
  journalUID : GoString
  classificationCode : GoString
  accountHolder : Int
  fromStatus : Status
  toStatus : Status
  amount : Decimal
  settledAmount : Decimal
  metadata : Metadata
  actorID : Int
  source : GoString
deriving DecidableEq

structure CreateBookingInput where
  classificationCode : GoString
  accountHolder : Int
  currencyUID : GoString
  amount : Decimal
  idempotencyKey : GoString
  channelName : GoString
  metadata : Metadata
  expiresAt : Instant
deriving DecidableEq

def CreateBookingInput.validate (i : CreateBookingInput) : Result Unit := do
  validateAmountMagnitude i.amount
  require (i.classificationCode ≠ []) ⟨.invalidInput, "core: booking: classification_code required"⟩
  require (i.accountHolder ≠ 0) ⟨.invalidInput, "core: booking: account_holder required"⟩
  require (i.currencyUID ≠ []) ⟨.invalidInput, "core: booking: currency_uid required"⟩
  require i.amount.isPositive ⟨.invalidInput, "core: booking: amount must be positive"⟩
  validateFreeformFields [] i.metadata
  require (i.idempotencyKey ≠ []) ⟨.invalidInput, "core: booking: idempotency key required"⟩

structure TransitionInput where
  bookingUID : GoString
  toStatus : Status
  channelRef : GoString
  amount : Decimal
  metadata : Metadata
  actorID : Int
  source : GoString
  idempotencyKey : GoString
deriving DecidableEq

def TransitionInput.validate (i : TransitionInput) : Result Unit := do
  validateAmountMagnitude i.amount
  require (i.bookingUID ≠ []) ⟨.invalidInput, "core: booking: booking_uid required"⟩
  validateFreeformFields i.source i.metadata
  require (i.toStatus ≠ []) ⟨.invalidInput, "core: booking: to_status required"⟩
  require (!i.amount.isNegative) ⟨.invalidInput, "core: booking: amount must not be negative"⟩
  require (i.idempotencyKey ≠ []) ⟨.invalidInput, "core: booking: idempotency key required"⟩

end Ledger.Core
