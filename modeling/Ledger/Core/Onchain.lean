import Ledger.Core.Booking
import Ledger.Shared.GoText

namespace Ledger.Core

open Shared

def isRetryable (err : Error) : Bool :=
  match err.sentinel with
  | .transient | .attestorUnavailable | .rollupPending | .other => true
  | _ => false

structure Keccak where
  -- The 32 bytes of the digest, as hex digits.
  digest : GoString → List Nibble
  length : ∀ data, (digest data).length = 64

def trimHexPrefix (s : GoString) : GoString := if s.take 2 = lit "0x" then s.drop 2 else s

def decodeFixedHex (s : GoString) (wantLen : Nat) : Result (List Nibble) := do
  let digits ← orError (parseHex (trimHexPrefix s)) ⟨.other, "core: create2: %s: invalid hex %q"⟩
  require (digits.length % 2 = 0) ⟨.other, "core: create2: %s: invalid hex %q"⟩
  require (digits.length / 2 = wantLen)
    ⟨.invalidInput, "core: create2: %s must be %d bytes, got %d"⟩
  return digits

def checksumDigit (n hash : Nibble) : Byte := if 8 ≤ hash then hexUpper n else Uuid.hexLower n

def toChecksumAddress (k : Keccak) (addr : List Nibble) : GoString :=
  lit "0x" ++ addr.zipWith checksumDigit (k.digest (hexDigits addr))

def checksumAddress (k : Keccak) (address : GoString) : Result GoString := do
  let addr ← decodeFixedHex address 20
  return toChecksumAddress k addr

def holderSalt (holder : Nat) : GoString := (List.range 32).map fun i =>
    Fin.ofNat 256 (holder / 256 ^ (31 - i))

def deriveDepositAddress (k : Keccak) (factory initHash : GoString) (holder : Int) :
    Result GoString := do
  require (0 < holder) ⟨.invalidInput, "core: create2: holder must be positive, got %d"⟩
  let factoryDigits ← decodeFixedHex factory 20
  let initHashDigits ← decodeFixedHex initHash 32
  let data := 0xFF :: (packBytes factoryDigits ++ holderSalt holder.toNat ++
    packBytes initHashDigits)
  return toChecksumAddress k ((k.digest data).drop 24)

variable {k : Keccak} {addr : List Nibble}

theorem parseHex_checksum (fits : addr.length ≤ 64) :
    parseHex (addr.zipWith checksumDigit (k.digest (hexDigits addr))) = some addr := by
  have spelled : ∀ (l hash : List Nibble), l.length ≤ hash.length →
      List.Forall₂ (fun n b => Uuid.hexNibble b = some n) l (l.zipWith checksumDigit hash) := by
    intro l
    induction l with
    | nil => exact fun hash _ => .nil
    | cons n l ih =>
      intro hash short
      cases hash with
      | nil => simp at short
      | cons m hash =>
        refine .cons ?_ (ih hash (by simpa using short))
        unfold checksumDigit
        split
        · exact hexNibble_hexUpper n
        · exact Uuid.hexNibble_hexLower n
  exact parseHex_of_forall (spelled addr _ (by rw [k.length]; exact fits))

theorem checksumAddress_toChecksumAddress (length : addr.length = 40) :
    checksumAddress k (toChecksumAddress k addr) = .ok (toChecksumAddress k addr) := by
  have decoded : decodeFixedHex (toChecksumAddress k addr) 20 = .ok addr := by
    have trimmed : trimHexPrefix (toChecksumAddress k addr) = addr.zipWith checksumDigit
      (k.digest (hexDigits addr)) := by
      rw [trimHexPrefix, toChecksumAddress]
      have two : (lit "0x").length = 2 := by decide
      rw [List.take_append_of_le_length two.ge, List.take_of_length_le two.le, if_pos rfl,
        List.drop_append_of_le_length two.ge, List.drop_of_length_le two.le, List.nil_append]
    rw [decodeFixedHex, trimmed, parseHex_checksum (by omega)]
    simp [orError, require, length]
  rw [checksumAddress, decoded]
  rfl

structure TokenConfig where
  currencyCode : GoString
  decimals : Int
  autoCreditCeiling : Decimal
  reconcileCeiling : Decimal
  reconcileFailureLimit : Int
deriving DecidableEq

structure ChainConfig where
  scanStartBlock : Int
  confirmations : Int
  factory : GoString
  initHash : GoString
  -- By lower-case token address.
  creditTokens : SortedMap GoString TokenConfig
deriving DecidableEq

abbrev ChainSet := SortedMap Int ChainConfig

structure DepositSighting where
  chainID : Int
  txHash : GoString
  txLogSeq : Int
  token : GoString
  from_ : GoString
  to_ : GoString
  amount : Decimal
  confirmations : Int
  blockNumber : Int
deriving DecidableEq

def DepositSighting.validate (s : DepositSighting) : Result Unit := do
  validateAmountMagnitude s.amount
  require (0 < s.chainID) ⟨.invalidInput, "core: deposit sighting: chain_id must be positive"⟩
  require (s.txHash ≠ []) ⟨.invalidInput, "core: deposit sighting: tx_hash required"⟩
  require (0 ≤ s.txLogSeq) ⟨.invalidInput, "core: deposit sighting: txlog_seq must not be negative"⟩
  require (s.token ≠ []) ⟨.invalidInput, "core: deposit sighting: token required"⟩
  require (s.to_ ≠ []) ⟨.invalidInput, "core: deposit sighting: to required"⟩
  require s.amount.isPositive ⟨.invalidInput, "core: deposit sighting: amount must be positive"⟩
  require (0 ≤ s.confirmations)
    ⟨.invalidInput, "core: deposit sighting: confirmations must not be negative"⟩
  require (0 < s.blockNumber)
    ⟨.invalidInput, "core: deposit sighting: block_number must be positive"⟩

structure DepositAddress where
  uid : GoString
  accountHolder : Int
  address : GoString
  factory : GoString
  initHash : GoString
deriving DecidableEq

structure AddressRegistrationInput where
  accountHolder : Int
  address : GoString
  factory : GoString
  initHash : GoString
deriving DecidableEq

def AddressRegistrationInput.validate (i : AddressRegistrationInput) : Result Unit := do
  require (0 < i.accountHolder)
    ⟨.invalidInput, "core: deposit address: account_holder must be positive"⟩
  require (i.address ≠ []) ⟨.invalidInput, "core: deposit address: address required"⟩
  require (i.factory ≠ []) ⟨.invalidInput, "core: deposit address: factory required"⟩
  require (i.initHash ≠ []) ⟨.invalidInput, "core: deposit address: init_hash required"⟩

structure RegistrationRescan where
  uid : GoString
  chainID : Int
  address : GoString
  nextBlock : Int
  attempts : Int
deriving DecidableEq

structure IngestDeadLetter where
  uid : GoString
  idempotencyKey : GoString
  reason : String
  sighting : DepositSighting
deriving DecidableEq

def depositClassificationCode : GoString := lit "deposit"

def pending : Status := lit "pending"
def confirming : Status := lit "confirming"
def confirmed : Status := lit "confirmed"
def failed : Status := lit "failed"
def expired : Status := lit "expired"
def review : Status := lit "review"

def depositLifecycle : Lifecycle :=
  ⟨0, pending, [confirmed, failed, expired],
    .ofList [(pending, [confirming, failed, expired]), (confirming, [confirmed, failed, review]),
      (review, [confirmed, failed])]⟩

structure LogID where
  chainID : Int
  txHash : List Nibble
  txLogSeq : Int
deriving DecidableEq

def dropHexPrefix (s : GoString) : GoString :=
  if (s.take 2).map Uuid.lower = lit "0x" then s.drop 2 else s

def hashValue (s : GoString) : Option (List Nibble) :=
  (parseHex (dropHexPrefix s)).bind fun digits => if digits.length = 64 then some digits else none

def hashText (hash : List Nibble) : GoString := lit "0x" ++ hexDigits hash

theorem hashValue_of_equalFold {text : CaseFolding} {hash : List Nibble} {s : GoString}
    (length : hash.length = 64)
    (same : text.equalFold (hashText hash) s = true) : hashValue s = some hash := by
  have tagAscii : isAscii (lit "0x") = true := by decide
  have ascii : isAscii (hashText hash) = true := by
    rw [hashText, isAscii, List.all_append]
    exact Bool.and_eq_true_iff.mpr ⟨tagAscii, isAscii_hexDigits hash⟩
  have plain : ∀ b ∈ hashText hash, b ≠ 0x6B ∧ b ≠ 0x4B ∧ b ≠ 0x73 ∧ b ≠ 0x53 := by
    intro b member
    rcases List.mem_append.mp member with tag | digit
    · have tagPlain : ∀ b ∈ lit "0x", b ≠ 0x6B ∧ b ≠ 0x4B ∧ b ≠ 0x73 ∧ b ≠ 0x53 := by decide +kernel
      exact tagPlain b tag
    · exact hexDigits_plain hash b digit
  rw [CaseFolding.equalFold, ascii, Bool.true_and] at same
  split at same
  · rename_i asciiText
    have lowered : s.map Uuid.lower = lit "0x" ++ hexDigits hash := by
      have eq := (beq_iff_eq.mp same).symm
      rw [hashText, List.map_append, lower_hexDigits] at eq
      exact eq
    have parts : (s.take 2).map Uuid.lower = lit "0x" ∧ (s.drop 2).map Uuid.lower = hexDigits hash := by
      rw [List.map_take, List.map_drop, lowered]
      exact ⟨rfl, rfl⟩
    rw [hashValue, dropHexPrefix, if_pos parts.1, parseHex_of_lower parts.2,
      Option.bind_some, if_pos length]
  · rename_i other
    rw [text.equalOther_ascii _ _ ascii (by simpa using other) plain] at same
    cases same

end Ledger.Core
