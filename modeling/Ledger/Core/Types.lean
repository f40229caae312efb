import Ledger.Shared.Bytes
import Ledger.Shared.Checks

namespace Ledger.Core

open Shared

/-- The domain errors of `core/errors.go`; `other` is an error that wraps none of them. -/
inductive Sentinel where
  | notFound | invalidInput | insufficientBalance | duplicateJournal | unbalancedJournal
  | invalidTransition | conflict | precisionExceeded | accountFrozen | accountClosed
  | periodClosed | attestorUnavailable | unauthorizedJournal | unknownAuthKey | rollupPending
  | transient | noLifecycle | corruptData | other
deriving DecidableEq

structure Error where
  sentinel : Sentinel
  text : String
deriving DecidableEq

def Error.wrap (context : String) (err : Error) : Error :=
  ⟨err.sentinel, context ++ ": " ++ err.text⟩

abbrev Result (α : Type) := Except Error α

def within {α : Type} (context : String) (result : Result α) : Result α :=
  match result with
  | .ok a => .ok a
  | .error err => .error (err.wrap context)

@[simp] theorem within_eq_ok {α : Type} {context : String} {result : Result α} {a : α} :
    within context result = .ok a ↔ result = .ok a := by
  cases result <;> simp [within]

/-- The debit/credit pair that the `entry_type` and `normal_side` columns are checked against. -/
inductive Side where
  | debit | credit
deriving DecidableEq

def Side.flip : Side → Side
  | .debit => .credit
  | .credit => .debit

def Side.signed {M : Type} [Neg M] (normalSide entryType : Side) (amount : M) : M :=
  if normalSide = entryType then amount else -amount

inductive EntryType where
  | debit | credit
  | unknown (text : GoString)
deriving DecidableEq

def EntryType.isValid : EntryType → Bool
  | .unknown _ => false
  | _ => true

inductive NormalSide where
  | debit | credit
  | unknown (text : GoString)
deriving DecidableEq

def Side.entryType : Side → EntryType
  | .debit => .debit
  | .credit => .credit

def Side.normalSide : Side → NormalSide
  | .debit => .debit
  | .credit => .credit

inductive BalanceRole where
  | none | available | pending | locked | memo
deriving DecidableEq

/-- The negation of an `int64`, which leaves the least one as it is. -/
def systemAccountHolder (userID : Int) : Int := wrap64 (-userID)

theorem systemAccountHolder_eq {userID : Int} (low : -2 ^ 63 < userID) (high : userID < 2 ^ 63) :
    systemAccountHolder userID = -userID :=
  wrap64_eq (by omega) (by omega)

end Ledger.Core
