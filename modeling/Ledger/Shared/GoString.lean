import Mathlib.Data.List.Lex
import Mathlib.Order.Fin.Basic

namespace Ledger.Shared

abbrev Byte := Fin 256

instance byteNonzero : @NeZero Nat Zero.ofOfNat0 256 := ⟨by decide⟩

instance nibbleNonzero : @NeZero Nat Zero.ofOfNat0 16 := ⟨by decide⟩

/-- A Go string: any bytes, valid UTF-8 or not. Its order is Go's, byte by byte. -/
abbrev GoString := List Byte

def lit (s : String) : GoString := s.toUTF8.data.toList.map UInt8.toFin

def digit (n : Nat) : Byte := Fin.ofNat 256 (0x30 + n % 10)

def digitsFuel : Nat → Nat → GoString
  | 0, _ => []
  | fuel + 1, n => if n < 10 then [digit n] else digitsFuel fuel (n / 10) ++ [digit n]

def intText (n : Int) : GoString :=
  if n < 0 then 0x2D :: digitsFuel (n.natAbs + 1) n.natAbs else digitsFuel (n.natAbs + 1) n.natAbs

theorem digit_ascii (n : Nat) : digit n < 0x80 := by
  have small : n % 10 < 10 := Nat.mod_lt n (by decide)
  rw [digit, Fin.lt_def]
  show (0x30 + n % 10) % 256 < 0x80
  omega

theorem digitsFuel_ascii (fuel n : Nat) : ∀ b ∈ digitsFuel fuel n, b < 0x80 := by
  induction fuel generalizing n with
  | zero => nofun
  | succ fuel ih =>
    intro b member
    unfold digitsFuel at member
    split at member
    · rw [List.mem_singleton.mp member]
      exact digit_ascii n
    · rcases List.mem_append.mp member with front | last
      · exact ih _ b front
      · rw [List.mem_singleton.mp last]
        exact digit_ascii n

theorem intText_ascii (n : Int) : ∀ b ∈ intText n, b < 0x80 := by
  intro b member
  unfold intText at member
  split at member
  · rcases List.mem_cons.mp member with rfl | rest
    · decide
    · exact digitsFuel_ascii _ _ b rest
  · exact digitsFuel_ascii _ _ b member

end Ledger.Shared
