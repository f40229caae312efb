import Ledger.Shared.Uuid

namespace Ledger.Shared

def digitValue (b : Byte) : Option Nat := if 0x30 ≤ b ∧ b ≤ 0x39 then some (b.val - 0x30) else none

def appendDigit (n : Nat) (b : Byte) : Option Nat := (digitValue b).map (n * 10 + ·)

def parseDigits (s : GoString) : Option Nat := if s = [] then none else s.foldlM appendDigit 0

def inRange (bits : Nat) (n : Int) : Option Int := if -2 ^ (bits - 1) ≤ n ∧
    n < 2 ^ (bits - 1) then some n else none

def parseInt (bits : Nat) (s : GoString) : Option Int :=
  match s with
  | 0x2B :: rest => (parseDigits rest).bind fun n => inRange bits n
  | 0x2D :: rest => (parseDigits rest).bind fun n => inRange bits (-n)
  | _ => (parseDigits s).bind fun n => inRange bits n

theorem parseInt_range {s : GoString} {n : Int} (parsed : parseInt 64 s = some n) :
    -2 ^ 63 ≤ n ∧ n < 2 ^ 63 := by
  have within_ {m : Int} (found : inRange 64 m = some n) : -2 ^ 63 ≤ n ∧ n < 2 ^ 63 := by
    obtain ⟨range, same⟩ := Option.ite_none_right_eq_some.mp found
    cases same
    exact range
  unfold parseInt at parsed
  split at parsed <;> obtain ⟨_, -, found⟩ := Option.bind_eq_some_iff.mp parsed <;>
    exact within_ found

theorem digitValue_digit (n : Nat) : digitValue (digit n) = some (n % 10) := by
  have small : n % 10 < 10 := Nat.mod_lt n (by decide)
  have value : (digit n).val = 0x30 + n % 10 := by
    show (0x30 + n % 10) % 256 = _
    omega
  have range : (0x30 : Byte) ≤ digit n ∧ digit n ≤ 0x39 := by
    rw [Fin.le_def, Fin.le_def, value]
    constructor
    · show 48 ≤ 0x30 + n % 10
      omega
    · show 0x30 + n % 10 ≤ 57
      omega
  rw [digitValue, if_pos range, value]
  congr 1
  omega

theorem foldlM_digits (fuel n : Nat) (enough : n < fuel) :
    (digitsFuel fuel n).foldlM appendDigit 0 = some n := by
  induction fuel generalizing n with
  | zero => omega
  | succ fuel ih =>
    unfold digitsFuel
    split
    · rename_i small
      simp [appendDigit, digitValue_digit, Nat.mod_eq_of_lt small]
    · rw [List.foldlM_append, ih (n / 10) (by omega)]
      simp only [Option.bind_eq_bind, Option.bind_some, List.foldlM_cons, List.foldlM_nil,
        appendDigit, digitValue_digit,
        Option.map_some, Option.pure_def]
      congr 1
      omega

theorem digitsFuel_ne_nil (fuel n : Nat) : digitsFuel (fuel + 1) n ≠ [] := by
  unfold digitsFuel
  split <;> simp

theorem parseDigits_digits (n : Nat) : parseDigits (digitsFuel (n + 1) n) = some n := by
  rw [parseDigits, if_neg (digitsFuel_ne_nil n n), foldlM_digits _ _ (Nat.lt_succ_self n)]

theorem head_digitsFuel (fuel n : Nat) : ∀ b rest, digitsFuel fuel n = b :: rest →
    b ≠ 0x2B ∧ b ≠ 0x2D := by
  have isDigit : ∀ m, digit m ≠ 0x2B ∧ digit m ≠ 0x2D := by
    intro m
    have value : (digit m).val = 0x30 + m % 10 := by
      show (0x30 + m % 10) % 256 = _
      omega
    constructor <;> intro same <;> rw [same] at value
    · change 43 = _ at value
      omega
    · change 45 = _ at value
      omega
  induction fuel generalizing n with
  | zero => nofun
  | succ fuel ih =>
    intro b rest shape
    unfold digitsFuel at shape
    split at shape
    · obtain ⟨rfl, -⟩ := List.cons.inj shape
      exact isDigit n
    · cases front : digitsFuel fuel (n / 10) with
      | nil =>
        rw [front] at shape
        obtain ⟨rfl, -⟩ := List.cons.inj shape
        exact isDigit n
      | cons c more =>
        rw [front] at shape
        obtain ⟨rfl, -⟩ := List.cons.inj shape
        exact ih (n / 10) c more front

theorem parseInt_print (bits : Nat) (n : Int) : parseInt bits (intText n) = inRange bits n := by
  unfold intText
  split
  · rename_i negative
    have value : -(n.natAbs : Int) = n := by omega
    show ((parseDigits _).bind fun n => inRange bits (-n)) = _
    rw [parseDigits_digits, Option.bind_some, value]
  · rename_i nonneg
    have value : (n.natAbs : Int) = n := by omega
    cases shape : digitsFuel (n.natAbs + 1) n.natAbs with
    | nil => exact absurd shape (digitsFuel_ne_nil _ _)
    | cons b rest =>
      obtain ⟨plus, minus⟩ := head_digitsFuel _ _ b rest shape
      have parsed : parseInt bits (b :: rest) = (parseDigits (b :: rest)).bind fun n => inRange bits n := by
        unfold parseInt
        split
        · rename_i same
          exact absurd (List.cons.inj same).1 plus
        · rename_i same
          exact absurd (List.cons.inj same).1 minus
        · rfl
      rw [parsed, ← shape, parseDigits_digits, Option.bind_some, value]

variable {bits : Nat} {n : Int}

theorem parseInt_intText (low : -2 ^ (bits - 1) ≤ n) (high : n < 2 ^ (bits - 1)) :
    parseInt bits (intText n) = some n := by
  rw [parseInt_print]
  exact if_pos ⟨low, high⟩

theorem eq_of_parseInt_intText {m : Int} (parsed : parseInt bits (intText n) = some m) : m = n := by
  rw [parseInt_print, inRange] at parsed
  split at parsed
  · exact (Option.some.inj parsed).symm
  · cases parsed

def isAscii (s : GoString) : Bool := s.all (· < 0x80)

structure CaseFolding where
  lowerOther : GoString → GoString
  equalOther : GoString → GoString → Bool
  -- Only the Kelvin sign and the long s fold to a letter of ASCII.
  equalOther_ascii : ∀ s t, isAscii s = true → isAscii t = false →
    (∀ b ∈ s, b ≠ 0x6B ∧ b ≠ 0x4B ∧ b ≠ 0x73 ∧ b ≠ 0x53) →
    equalOther s t = false

namespace CaseFolding

def toLower (c : CaseFolding) (s : GoString) : GoString := if isAscii s then s.map Uuid.lower
    else c.lowerOther s

def equalFold (c : CaseFolding) (s t : GoString) : Bool :=
  if isAscii s && isAscii t then s.map Uuid.lower == t.map Uuid.lower else c.equalOther s t

end CaseFolding

abbrev Nibble := Fin 16

def hexUpper (n : Nibble) : Byte := if n < 10 then Fin.ofNat 256 (0x30 + n.val)
    else Fin.ofNat 256 (0x37 + n.val)

variable (l : List Nibble)

def hexDigits : GoString := l.map Uuid.hexLower

def parseHex (s : GoString) : Option (List Nibble) := s.mapM Uuid.hexNibble

theorem hexNibble_hexUpper : ∀ n : Nibble, Uuid.hexNibble (hexUpper n) = some n := by decide

theorem lower_of_hexNibble : ∀ (b : Byte) (n : Nibble), Uuid.hexNibble b = some n → Uuid.lower b =
    Uuid.hexLower n ∧ b < 0x80 := by
  decide +kernel

variable {s : GoString}

theorem parseHex_of_forall {l : List Nibble}
    (spelled : List.Forall₂ (fun n b => Uuid.hexNibble b = some n) l s) :
    parseHex s = some l := by
  induction spelled with
  | nil => rfl
  | cons head _ ih =>
    rw [parseHex, List.mapM_cons, head]
    simp only [Option.bind_eq_bind, Option.bind_some]
    rw [show List.mapM Uuid.hexNibble _ = parseHex _ from rfl, ih]
    rfl

theorem forall_of_parseHex {l : List Nibble} (parsed : parseHex s = some l) :
    List.Forall₂ (fun n b => Uuid.hexNibble b = some n) l s := by
  induction s generalizing l with
  | nil =>
    cases Option.some.inj parsed
    exact .nil
  | cons b rest ih =>
    simp only [parseHex, List.mapM_cons, Option.bind_eq_bind, Option.bind_eq_some_iff] at parsed
    obtain ⟨n, head, l', tail, same⟩ := parsed
    cases Option.some.inj same
    exact .cons head (ih tail)

theorem lower_of_parseHex {l : List Nibble} (parsed : parseHex s = some l) : s.map Uuid.lower =
    hexDigits l ∧ isAscii s = true := by
  have spelled := forall_of_parseHex parsed
  clear parsed
  induction spelled with
  | nil => exact ⟨rfl, rfl⟩
  | @cons n b l s head _ ih =>
    obtain ⟨lowered, ascii⟩ := lower_of_hexNibble b n head
    refine ⟨by rw [List.map_cons, lowered, ih.1]; rfl, ?_⟩
    rw [isAscii, List.all_cons, ← isAscii, ih.2]
    simpa using ascii

theorem hexNibble_of_lower : ∀ (b : Byte) (n : Nibble), Uuid.lower b = Uuid.hexLower n →
    Uuid.hexNibble b = some n := by
  decide +kernel

theorem parseHex_of_lower {l : List Nibble} (lowered : s.map Uuid.lower = hexDigits l) :
    parseHex s = some l := by
  refine parseHex_of_forall ?_
  induction l generalizing s with
  | nil =>
    rw [List.map_eq_nil_iff.mp lowered]
    exact .nil
  | cons n l ih =>
    cases s with
    | nil => cases lowered
    | cons b s =>
      obtain ⟨head, tail⟩ := List.cons.inj lowered
      exact .cons (hexNibble_of_lower b n head) (ih tail)

theorem isAscii_hexDigits : isAscii (hexDigits l) = true := by
  rw [isAscii, List.all_eq_true]
  intro b member
  obtain ⟨n, -, rfl⟩ := List.mem_map.mp member
  exact decide_eq_true (lower_of_hexNibble _ n (Uuid.hexNibble_hexLower n)).2

theorem lower_hexDigits : (hexDigits l).map Uuid.lower = hexDigits l := by
  rw [hexDigits, List.map_map]
  refine List.map_congr_left fun n _ => ?_
  exact (lower_of_hexNibble _ n (Uuid.hexNibble_hexLower n)).1

theorem hexDigits_plain : ∀ b ∈ hexDigits l, b ≠ 0x6B ∧ b ≠ 0x4B ∧ b ≠ 0x73 ∧ b ≠ 0x53 := by
  have each : ∀ n : Nibble, Uuid.hexLower n ≠ 0x6B ∧ Uuid.hexLower n ≠ 0x4B ∧ Uuid.hexLower n ≠
    0x73 ∧ Uuid.hexLower n ≠ 0x53 := by
    decide +kernel
  intro b member
  obtain ⟨n, -, rfl⟩ := List.mem_map.mp member
  exact each n

def packBytes : List Nibble → GoString
  | high :: low :: rest => Fin.ofNat 256 (high.val * 16 + low.val) :: packBytes rest
  | _ => []

end Ledger.Shared
