import Mathlib.Tactic
import Ledger.Shared.GoString

namespace Ledger.Shared

structure Uuid where
  nibbles : List (Fin 16)
  length : nibbles.length = 32
deriving DecidableEq

namespace Uuid

def nil : Uuid := ⟨List.replicate 32 0, rfl⟩

def dash : Byte := 0x2D

def hexNibble (b : Byte) : Option (Fin 16) :=
  if 0x30 ≤ b ∧ b ≤ 0x39 then some (Fin.ofNat 16 (b.val - 0x30))
  else if 0x61 ≤ b ∧ b ≤ 0x66 then some (Fin.ofNat 16 (b.val - 0x57))
  else if 0x41 ≤ b ∧ b ≤ 0x46 then some (Fin.ofNat 16 (b.val - 0x37))
  else none

def hexLower (n : Fin 16) : Byte := if n < 10 then Fin.ofNat 256 (0x30 + n.val)
    else Fin.ofNat 256 (0x57 + n.val)

def ofNibbles (l : List (Fin 16)) : Option Uuid := if length :
    l.length = 32 then some ⟨l, length⟩ else none

def ofByte (n : Nat) : Uuid :=
  ⟨List.replicate 30 0 ++ [Fin.ofNat 16 (n / 16), Fin.ofNat 16 n], by simp⟩

def ofHex (s : GoString) : Option Uuid := (s.mapM hexNibble).bind ofNibbles

/-- The 36-byte layout: dashes at 8, 13, 18 and 23. Bytes past the 36th are not looked at. -/
def ofDashed (s : GoString) : Option Uuid :=
  if s[8]? = some dash ∧ s[13]? = some dash ∧ s[18]? = some dash ∧ s[23]? = some dash then
    ofHex (s.take 8 ++ ((s.drop 9).take 4 ++
      ((s.drop 14).take 4 ++ ((s.drop 19).take 4 ++ (s.drop 24).take 12))))
  else none

def lower (b : Byte) : Byte := if 0x41 ≤ b ∧ b ≤ 0x5A then Fin.ofNat 256 (b.val + 0x20) else b

/-- `uuid.Parse`. In the 38-byte layout neither the first nor the last byte is checked. -/
def parse (s : GoString) : Option Uuid :=
  if s.length = 36 then ofDashed s
  else if s.length = 45 then
    if (s.take 9).map lower = lit "urn:uuid:" then ofDashed (s.drop 9) else none
  else if s.length = 38 then ofDashed (s.drop 1)
  else if s.length = 32 then ofHex s
  else none

variable (u : Uuid)

def hex : GoString := u.nibbles.map hexLower

def print : GoString :=
  u.hex.take 8 ++ dash :: ((u.hex.drop 8).take 4 ++ dash :: ((u.hex.drop 12).take 4 ++
    dash :: ((u.hex.drop 16).take 4 ++ dash :: u.hex.drop 20)))

theorem hexNibble_hexLower : ∀ n : Fin 16, hexNibble (hexLower n) = some n := by decide

theorem ofHex_hex : ofHex u.hex = some u := by
  have nibbles : ∀ l : List (Fin 16), (l.map hexLower).mapM hexNibble = some l := by
    intro l
    induction l with
    | nil => rfl
    | cons n l ih => simp [hexNibble_hexLower, ih]
  simp [ofHex, hex, nibbles, ofNibbles, u.length]

theorem length_hex : u.hex.length = 32 := by
  rw [hex, List.length_map, u.length]

theorem length_print : u.print.length = 36 := by
  simp [print, length_hex]

theorem ofDashed_groups {a b c d e : GoString} (la : a.length = 8)
    (lb : b.length = 4) (lc : c.length = 4)
    (ld : d.length = 4) (le : e.length = 12) :
    ofDashed (a ++ dash :: (b ++ dash :: (c ++ dash :: (d ++ dash :: e)))) =
    ofHex (a ++ (b ++ (c ++ (d ++ e)))) := by
  simp [ofDashed, List.drop_append, la, lb, lc, ld, le, List.take_of_length_le,
    List.drop_eq_nil_of_le]

theorem parse_print : parse u.print = some u := by
  have length := length_hex u
  have groups : u.hex.take 8 ++
    ((u.hex.drop 8).take 4 ++ ((u.hex.drop 12).take 4 ++ ((u.hex.drop 16).take 4 ++
      u.hex.drop 20))) = u.hex := by
    have join (k n : Nat) : (u.hex.drop k).take n ++ u.hex.drop (k + n) = u.hex.drop k := by
      rw [← List.drop_drop, List.take_append_drop]
    rw [join 16 4, join 12 4, join 8 4, List.take_append_drop]
  rw [parse, if_pos u.length_print, print, ofDashed_groups, groups, ofHex_hex] <;> simp [length]

theorem print_injective {u v : Uuid} (same : u.print = v.print) : u = v := by
  have parsed := parse_print u
  rw [same, parse_print v] at parsed
  exact (Option.some.inj parsed).symm

end Uuid

end Ledger.Shared
