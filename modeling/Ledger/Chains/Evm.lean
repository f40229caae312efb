import Ledger.Core.Onchain

namespace Ledger.Chains

open Core Shared

/-- A well-formed Transfer log and where it stands in its transaction's receipt. -/
structure TransferLog where
  txHash : List Nibble
  receiptSeq : Nat
  block : Nat
  token : List Nibble
  from_ : List Nibble
  to_ : List Nibble
  value : Nat
  hashLength : txHash.length = 64
  tokenLength : token.length = 40
  toLength : to_.length = 40
  seqFits : receiptSeq < 2 ^ 31
deriving DecidableEq

structure Chain where
  head : Nat
  finalized : Nat
  safe : Nat
  logs : List TransferLog
  -- Transactions without a log of an ERC-20 transfer.
  otherTransactions : List (List Nibble)
  positions : (logs.map fun log => (log.txHash, log.receiptSeq)).Nodup
deriving DecidableEq

def toInt32 (n : Int) : Int := (n + 2 ^ 31) % 2 ^ 32 - 2 ^ 31

def latestBlock (chain : Chain) : Int := chain.head

def hexPairs : GoString → List Nibble
  | high :: low :: rest =>
    match Uuid.hexNibble high, Uuid.hexNibble low with
    | some h, some l => h :: l :: hexPairs rest
    | _, _ => []
  | _ => []

/-- `common.HexToHash`: right-aligned, cropped on the left, never an error. -/
def hexToHash (s : GoString) : List Nibble :=
  let digits := dropHexPrefix s
  let bytes := hexPairs (if digits.length % 2 = 1 then 0x30 :: digits else digits)
  let cropped := bytes.drop (bytes.length - 64)
  List.replicate (64 - cropped.length) 0 ++ cropped

def txIncluded (chain : Chain) (txHash : GoString) : Bool :=
  chain.logs.any (·.txHash == hexToHash txHash) || chain.otherTransactions.contains
    (hexToHash txHash)

def tokenKey (token : List Nibble) : GoString := lit "0x" ++ hexDigits token

def normalizeAmount (raw : Nat) (decimals : Int) : Decimal := ⟨raw, -decimals⟩

/-- `addressesToTopics`: an address is 40 hex digits, with or without a prefix. -/
def addressTopic (address : GoString) : Result (List Nibble) := do
  let digits ← orError (parseHex (dropHexPrefix address))
    ⟨.invalidInput, "evm: reader: invalid address %q"⟩
  require (digits.length = 40) ⟨.invalidInput, "evm: reader: invalid address %q"⟩
  return digits

def depositSighting (k : Keccak) (chainID : Int) (chain : Chain) (log : TransferLog)
    (token : TokenConfig) : DepositSighting :=
  { chainID := chainID
    txHash := hashText log.txHash
    txLogSeq := log.receiptSeq
    token := toChecksumAddress k log.token
    from_ := toChecksumAddress k log.from_
    to_ := toChecksumAddress k log.to_
    amount := normalizeAmount log.value token.decimals
    confirmations := max 0 (toInt32 (chain.head - log.block + 1))
    blockNumber := log.block }

def sightingOf (k : Keccak) (cfg : ChainConfig) (chainID : Int) (chain : Chain)
    (fromBlock toBlock : Int)
    (topics : List (List Nibble)) (log : TransferLog) : Option DepositSighting :=
  if fromBlock ≤ log.block ∧ log.block ≤ toBlock ∧ log.block ≤ chain.head ∧ log.to_ ∈ topics then
    (cfg.creditTokens.get (tokenKey log.token)).map (depositSighting k chainID chain log)
  else none

/-- The block of a negative argument to `FilterLogs`, which the client prints as a tag; pending logs
are not served, and no other negative number is a tag. -/
def blockTag (chain : Chain) (n : Int) : Option Nat :=
  if n = -2 then some chain.head
  else if n = -3 then some chain.finalized
  else if n = -4 then some chain.safe
  else if n = -5 then some 0
  else none

/-- The blocks `FilterLogs` searches. The node is taken to refuse a range with a tag at one end. -/
def blockRange (chain : Chain) (fromBlock toBlock : Int) : Result (Int × Int) :=
  if 0 ≤ fromBlock ∧ 0 ≤ toBlock then .ok (fromBlock, toBlock)
  else do
    let tagged := if fromBlock = toBlock then blockTag chain fromBlock else none
    let block ← orError tagged ⟨.other, "evm: reader: fetch deposits: chain %d shard %d: %w"⟩
    return (block, block)

def fetchDeposits (k : Keccak) (cfg : ChainConfig) (chainID : Int) (chain : Chain)
    (fromBlock toBlock : Int)
    (addresses : List GoString) : Result (List DepositSighting) :=
  if addresses = [] ∨ cfg.creditTokens.entries = [] then .ok []
  else do
    let topics ← collect addressTopic addresses
    let (first, last) ← blockRange chain fromBlock toBlock
    return chain.logs.filterMap (sightingOf k cfg chainID chain first last topics)

theorem blockRange_ok {chain : Chain} {fromBlock toBlock first last : Int}
    (ok : blockRange chain fromBlock toBlock = .ok (first, last)) :
    (0 ≤ fromBlock ∧ first = fromBlock ∧ last = toBlock) ∨ fromBlock < 0 ∧ toBlock < 0 := by
  unfold blockRange at ok
  split at ok
  · next numbers =>
    cases ok
    exact .inl ⟨numbers.1, rfl, rfl⟩
  · next tags =>
    simp only [bind_eq_ok, orError_eq_ok] at ok
    obtain ⟨block, tagged, -⟩ := ok
    split at tagged
    · exact .inr (by omega)
    · cases tagged

section

variable {k : Keccak} {cfg : ChainConfig} {chainID : Int} {chain : Chain} {fromBlock toBlock : Int}
  {addresses : List GoString} {sightings : List DepositSighting}

theorem mem_topics {topics : List (List Nibble)}
    (resolved : collect addressTopic addresses = .ok topics) {topic : List Nibble} :
    topic ∈ topics ↔ ∃ a ∈ addresses, addressTopic a = .ok topic := by
  have related := collect_eq_ok.mp resolved
  constructor
  · intro member
    obtain ⟨a, inside, same⟩ := forall₂_of_mem_right related member
    exact ⟨a, inside, same⟩
  · rintro ⟨a, inside, same⟩
    obtain ⟨topic', member, same'⟩ := forall₂_of_mem_right related.flip inside
    rw [same] at same'
    cases same'
    exact member

theorem mem_fetchDeposits
    (ok : fetchDeposits k cfg chainID chain fromBlock toBlock addresses = .ok sightings)
    {s : DepositSighting} (found : s ∈ sightings) :
    ∃ log ∈ chain.logs, ∃ token, cfg.creditTokens.get (tokenKey log.token) = some token ∧
      (0 ≤ fromBlock → log.block ≤ toBlock) ∧ log.block ≤ chain.head ∧
      s = depositSighting k chainID chain log token := by
  unfold fetchDeposits at ok
  split at ok
  · cases ok
    nomatch found
  simp only [bind_eq_ok, pure_eq_ok] at ok
  obtain ⟨topics, -, ⟨first, last⟩, range, rfl⟩ := ok
  obtain ⟨log, onChain, seen⟩ := List.mem_filterMap.mp found
  unfold sightingOf at seen
  split_ifs at seen with matched
  obtain ⟨token, configured, rfl⟩ := Option.map_eq_some_iff.mp seen
  refine ⟨log, onChain, token, configured, fun number => ?_, matched.2.2.1, rfl⟩
  rcases blockRange_ok range with ⟨-, -, rfl⟩ | tags
  · exact matched.2.1
  · exact absurd number (not_le.mpr tags.1)

theorem fetchDeposits_complete
    (ok : fetchDeposits k cfg chainID chain fromBlock toBlock addresses = .ok sightings)
    {log : TransferLog} (onChain : log ∈ chain.logs) {token : TokenConfig}
    (configured : cfg.creditTokens.get (tokenKey log.token) = some token)
    (low : fromBlock ≤ log.block) (high : log.block ≤ toBlock) (mined : log.block ≤ chain.head)
    {address : GoString} (asked : address ∈ addresses)
    (recipient : addressTopic address = .ok log.to_) :
    depositSighting k chainID chain log token ∈ sightings := by
  unfold fetchDeposits at ok
  split at ok
  · rename_i empty
    rcases empty with none | none
    · rw [none] at asked
      nomatch asked
    · rw [SortedMap.get, none] at configured
      nomatch configured
  simp only [bind_eq_ok, pure_eq_ok] at ok
  obtain ⟨topics, resolved, ⟨first, last⟩, range, rfl⟩ := ok
  obtain ⟨-, rfl, rfl⟩ | tags := blockRange_ok range
  · refine List.mem_filterMap.mpr ⟨log, onChain, ?_⟩
    rw [sightingOf, if_pos ⟨low, high, mined, (mem_topics resolved).mpr ⟨address, asked, recipient⟩⟩,
      configured]
    rfl
  · omega

end

end Ledger.Chains
