import Mathlib.Data.List.DropRight
import Ledger.Shared.Bytes

namespace Ledger.Shared

structure CivilDate where
  year : Int
  month : Int
  day : Int
deriving DecidableEq

/-- The year of a day within its era of 400 years, counted from March so that a leap day is the last
of its year, and the day within that year. -/
def yearOfEra (day : Int) : Int × Int :=
  let century := min 3 (day / 36524)
  let ofCentury := day - 36524 * century
  let ofCycle := ofCentury % 1461
  let year := min 3 (ofCycle / 365)
  (100 * century + 4 * (ofCentury / 1461) + year, ofCycle - 365 * year)

def civilDate (days : Int) : CivilDate :=
  let (year, day) := yearOfEra ((days + 306) % 146097)
  let shifted := (5 * day + 2) / 153
  let date := day - (153 * shifted + 2) / 5 + 1
  if shifted < 10 then ⟨year + (days + 306) / 146097 * 400, shifted + 3, date⟩
  else ⟨year + (days + 306) / 146097 * 400 + 1, shifted - 9, date⟩

theorem yearOfEra_spec {day : Int} (low : 0 ≤ day) (high : day < 146097) :
    0 ≤ (yearOfEra day).1 ∧ (yearOfEra day).1 < 400 ∧ 0 ≤ (yearOfEra day).2 ∧
    (yearOfEra day).2 ≤ 365 ∧
      365 * (yearOfEra day).1 + (yearOfEra day).1 / 4 - (yearOfEra day).1 / 100 +
      (yearOfEra day).2 = day := by
  simp only [yearOfEra]
  generalize centuryIs : min 3 (day / 36524) = century
  have ofCentury : 0 ≤ day - 36524 * century ∧ day - 36524 * century ≤ 36524 ∧ 0 ≤ century ∧
    century ≤ 3 := by omega
  generalize restIs : day - 36524 * century = rest at *
  generalize yearIs : min 3 (rest % 1461 / 365) = year
  have ofCycle : 0 ≤ year ∧ year ≤ 3 ∧ 0 ≤ rest % 1461 - 365 * year ∧
    rest % 1461 - 365 * year ≤ 365 := by omega
  have quarters : (100 * century + 4 * (rest / 1461) + year) / 4 = 25 * century +
    rest / 1461 := by omega
  have hundreds : (100 * century + 4 * (rest / 1461) + year) / 100 = century := by omega
  rw [quarters, hundreds]
  omega

def dayCount (date : CivilDate) : Int :=
  let year := if date.month ≤ 2 then date.year - 1 else date.year
  let shifted := if date.month ≤ 2 then date.month + 9 else date.month - 3
  year / 400 * 146097 + (365 * (year % 400) + year % 400 / 4 - year % 400 / 100) +
    ((153 * shifted + 2) / 5 + date.day - 1) - 306

theorem civilDate_bounds (days : Int) : 1 ≤ (civilDate days).month ∧ (civilDate days).month ≤ 12 ∧
    1 ≤ (civilDate days).day ∧ (civilDate days).day ≤ 31 := by
  obtain ⟨-, -, low, high, -⟩ := yearOfEra_spec
    (Int.emod_nonneg (days + 306) (by decide : (146097 : Int) ≠ 0))
    (Int.emod_lt_of_pos (days + 306) (by decide))
  simp only [civilDate]
  split <;> simp only <;> omega

theorem dayCount_civilDate (days : Int) : dayCount (civilDate days) = days := by
  obtain ⟨first, last, low, high, exact_⟩ := yearOfEra_spec
    (Int.emod_nonneg (days + 306) (by decide : (146097 : Int) ≠ 0))
    (Int.emod_lt_of_pos (days + 306) (by decide))
  have era := Int.emod_add_mul_ediv (days + 306) 146097
  simp only [civilDate]
  generalize yearOfEra ((days + 306) % 146097) = split_ at *
  obtain ⟨year, day⟩ := split_
  simp only at *
  have within_ : (year + (days + 306) / 146097 * 400) % 400 = year := by omega
  have eras : (year + (days + 306) / 146097 * 400) / 400 = (days + 306) / 146097 := by omega
  split
  · simp only [dayCount]
    rw [if_neg (by omega), if_neg (by omega), within_, eras, add_sub_cancel_right]
    omega
  · simp only [dayCount]
    rw [if_pos (by omega), if_pos (by omega), add_sub_cancel_right, within_, eras, sub_add_cancel]
    omega

theorem civilDate_injective : Function.Injective civilDate :=
  Function.LeftInverse.injective dayCount_civilDate

def dec : Nat → Nat → GoString
  | 0, _ => []
  | width + 1, n => dec width (n / 10) ++ [digit n]

def readDec (s : GoString) : Nat := s.foldl (fun n b => 10 * n + (b.val - 0x30)) 0

theorem digit_val (n : Nat) : (digit n).val - 0x30 = n % 10 := by
  simp only [digit, Fin.ofNat]
  omega

theorem readDec_append_digit (s : GoString) (n : Nat) : readDec (s ++ [digit n]) =
    10 * readDec s + n % 10 := by
  rw [readDec, List.foldl_append, ← readDec]
  simp [digit_val]

@[simp] theorem dec_length (width n : Nat) : (dec width n).length = width := by
  induction width generalizing n with
  | zero => rfl
  | succ width ih => simp [dec, ih]

variable {width n : Nat}

theorem readDec_dec (small : n < 10 ^ width) : readDec (dec width n) = n := by
  induction width generalizing n with
  | zero =>
    rw [Nat.lt_one_iff.mp small]
    rfl
  | succ width ih =>
    rw [dec, readDec_append_digit, ih (by rw [pow_succ] at small; omega)]
    omega

variable {fuel : Nat}

theorem readDec_digitsFuel (enough : n < fuel) : readDec (digitsFuel fuel n) = n := by
  induction fuel generalizing n with
  | zero => omega
  | succ fuel ih =>
    rw [digitsFuel]
    split
    · rw [← List.nil_append [digit n], readDec_append_digit]
      simp only [readDec, List.foldl_nil]
      omega
    · rw [readDec_append_digit, ih (by omega)]
      omega

theorem mem_dec {b : Byte} (member : b ∈ dec width n) : 0x30 ≤ b := by
  induction width generalizing n with
  | zero => cases member
  | succ width ih =>
    rcases List.mem_append.mp member with high | low
    · exact ih high
    · rw [List.mem_singleton.mp low, Fin.le_def]
      simp only [digit, Fin.ofNat]
      change 48 ≤ (48 + n % 10) % 256
      omega

theorem mem_digitsFuel {b : Byte} (member : b ∈ digitsFuel fuel n) : 0x30 ≤ b := by
  induction fuel generalizing n with
  | zero => cases member
  | succ fuel ih =>
    have one : b ∈ [digit n] → 0x30 ≤ b := fun low => @mem_dec 1 n b (by simpa [dec] using low)
    rw [digitsFuel] at member
    split at member
    · exact one member
    · rcases List.mem_append.mp member with high | low
      · exact ih high
      · exact one low

def yearDigits (n : Nat) : GoString := if n < 10000 then dec 4 n else digitsFuel (n + 1) n

def yearText (year : Int) : GoString := if year < 0 then 0x2D :: yearDigits year.natAbs
    else yearDigits year.natAbs

def fractionText (micros : Nat) : GoString :=
  if micros = 0 then [] else 0x2E :: (dec 6 micros).rdropWhile (· = 0x30)

/-- `Format(time.RFC3339Nano)` of the instant `micros` microseconds after year 1 began, in UTC. -/
def formatRFC3339Nano (micros : Int) : GoString :=
  let date := civilDate (micros / 86400000000)
  let time := (micros % 86400000000).toNat
  yearText date.year ++ 0x2D :: (dec 2 date.month.toNat ++ 0x2D :: (dec 2 date.day.toNat ++ 0x54 ::
    (dec 2 (time / 3600000000) ++ 0x3A :: (dec 2 (time / 60000000 % 60) ++ 0x3A ::
      (dec 2 (time / 1000000 % 60) ++ (fractionText (time % 1000000) ++ [0x5A]))))))

example : formatRFC3339Nano 0 = lit "0001-01-01T00:00:00Z" := by decide +kernel
example : formatRFC3339Nano 63892672496700000 = lit "2025-09-05T12:34:56.7Z" := by decide +kernel

variable {b a : Nat}

theorem yearDigits_injective (same : yearDigits a = yearDigits b) : a = b := by
  have reads (n : Nat) : readDec (yearDigits n) = n := by
    unfold yearDigits
    split
    · exact readDec_dec ‹_›
    · exact readDec_digitsFuel (Nat.lt_succ_self n)
  rw [← reads a, same, reads]

theorem dash_not_mem_yearDigits (n : Nat) : 0x2D ∉ yearDigits n := by
  intro member
  have low : (0x30 : Byte) ≤ 0x2D := by
    unfold yearDigits at member
    split at member
    · exact mem_dec member
    · exact mem_digitsFuel member
  exact absurd low (by decide)

theorem yearDigits_ne_nil (n : Nat) : yearDigits n ≠ [] := by
  unfold yearDigits
  split
  · simp [dec]
  · rw [digitsFuel]
    split <;> simp

variable {x y : GoString}

theorem yearText_delimits {a b : Int} (same : yearText a ++ 0x2D :: x = yearText b ++ 0x2D :: y) :
    a = b ∧ x = y := by
  have signed (n : Nat) (l m : GoString) : 0x2D :: l ≠ yearDigits n ++ m := by
    intro equal
    cases digits : yearDigits n with
    | nil => exact yearDigits_ne_nil n digits
    | cons d rest =>
      rw [digits] at equal
      have head := (List.cons.inj equal).1
      exact dash_not_mem_yearDigits n (by rw [digits, head]; exact List.mem_cons_self)
  unfold yearText at same
  split at same <;> split at same
  · obtain ⟨digits, rest⟩ := split_at_separator (dash_not_mem_yearDigits _)
      (dash_not_mem_yearDigits _) (List.cons.inj same).2
    have := yearDigits_injective digits
    exact ⟨by omega, rest⟩
  · exact absurd same (signed _ _ _)
  · exact absurd same.symm (signed _ _ _)
  · obtain ⟨digits, rest⟩ := split_at_separator (dash_not_mem_yearDigits _)
      (dash_not_mem_yearDigits _) same
    have := yearDigits_injective digits
    exact ⟨by omega, rest⟩

theorem dec_two_delimits {c : Byte} (left : a < 100) (right : b < 100)
    (same : dec 2 a ++ c :: x = dec 2 b ++ c :: y) :
    a = b ∧ x = y := by
  obtain ⟨digits, rest⟩ := List.append_inj same (by simp)
  refine ⟨?_, (List.cons.inj rest).2⟩
  rw [← @readDec_dec 2 _ left, digits, readDec_dec right]

theorem rdropWhile_zero_injective {l m : GoString} (length : l.length = m.length)
    (same : l.rdropWhile (· = 0x30) = m.rdropWhile (· = 0x30)) : l = m := by
  have filled (l : GoString) : l.rdropWhile (· = 0x30) ++ List.replicate
    (l.length - (l.rdropWhile (· = 0x30)).length) 0x30 = l := by
    have split_ : l.rdropWhile (· = 0x30) ++ l.rtakeWhile (· = 0x30) = l :=
      List.rdropWhile_append_rtakeWhile
    have cut : l.rtakeWhile (· = 0x30) = List.replicate (l.rtakeWhile (· = 0x30)).length 0x30 :=
      List.eq_replicate_of_mem fun b member => by simpa using List.mem_rtakeWhile_imp member
    have lengths := congrArg List.length split_
    rw [List.length_append] at lengths
    rw [show l.length - (l.rdropWhile (· = 0x30)).length =
      (l.rtakeWhile (· = 0x30)).length by omega, ← cut]
    exact split_
  rw [← filled l, ← filled m, same, length]

theorem fractionText_injective (left : a < 1000000) (right : b < 1000000)
    (same : fractionText a = fractionText b) : a = b := by
  unfold fractionText at same
  split at same <;> split at same
  · omega
  · cases same
  · cases same
  · have digits := rdropWhile_zero_injective (by simp) (List.cons.inj same).2
    rw [← @readDec_dec 6 _ left, digits, readDec_dec right]

theorem formatRFC3339Nano_injective : Function.Injective formatRFC3339Nano := by
  intro a b same
  have monthA := civilDate_bounds (a / 86400000000)
  have monthB := civilDate_bounds (b / 86400000000)
  simp only [formatRFC3339Nano] at same
  obtain ⟨year, same⟩ := yearText_delimits same
  obtain ⟨month, same⟩ := dec_two_delimits (by omega) (by omega) same
  obtain ⟨day, same⟩ := dec_two_delimits (by omega) (by omega) same
  obtain ⟨hour, same⟩ := dec_two_delimits (by omega) (by omega) same
  obtain ⟨minute, same⟩ := dec_two_delimits (by omega) (by omega) same
  obtain ⟨seconds, same⟩ := List.append_inj same (by simp)
  have second : (a % 86400000000).toNat / 1000000 % 60 =
    (b % 86400000000).toNat / 1000000 % 60 := by
    rw [← @readDec_dec 2 ((a % 86400000000).toNat / 1000000 % 60) (by omega), seconds,
      readDec_dec (by omega)]
  have fraction := fractionText_injective (by omega) (by omega) (List.append_cancel_right same)
  have date : civilDate (a / 86400000000) = civilDate (b / 86400000000) := by
    generalize civilDate (a / 86400000000) = dateA at *
    generalize civilDate (b / 86400000000) = dateB at *
    obtain ⟨yearA, mA, dA⟩ := dateA
    obtain ⟨yearB, mB, dB⟩ := dateB
    simp only [CivilDate.mk.injEq]
    simp only at *
    omega
  have days := civilDate_injective date
  omega

theorem digitsFuel_length (small : n < 10 ^ (width + 1)) :
    (digitsFuel fuel n).length ≤ width + 1 := by
  induction fuel generalizing n width with
  | zero => exact Nat.zero_le _
  | succ fuel ih =>
    rw [digitsFuel]
    split
    · simp
    · obtain _ | width := width
      · omega
      · have high := ih (show n / 10 < 10 ^ (width + 1) by rw [pow_succ] at small; omega)
        simpa using high

theorem yearText_length {year : Int} (small : year.natAbs < 10 ^ (width + 4)) :
    (yearText year).length ≤ width + 5 := by
  have digits : (yearDigits year.natAbs).length ≤ width + 4 := by
    unfold yearDigits
    split
    · simp
    · exact @digitsFuel_length (width + 3) _ _ small
  unfold yearText
  split
  · rw [List.length_cons]
    omega
  · omega

theorem fractionText_length (micros : Nat) : (fractionText micros).length ≤ 7 := by
  unfold fractionText
  split
  · simp
  · have kept := (List.rdropWhile_prefix (p := fun b : Byte => decide (b = 0x30))
      (l := dec 6 micros)).length_le
    rw [dec_length] at kept
    rw [List.length_cons]
    omega

theorem civilDate_year (days : Int) : (civilDate days).year.natAbs ≤ days.natAbs + 1000 := by
  obtain ⟨first, last, -⟩ := yearOfEra_spec
    (Int.emod_nonneg (days + 306) (by decide : (146097 : Int) ≠ 0))
    (Int.emod_lt_of_pos (days + 306) (by decide))
  simp only [civilDate]
  split <;> simp only <;> omega

theorem formatRFC3339Nano_length {micros : Int} (low : -2 ^ 63 * 1000000 ≤ micros)
    (high : micros < 2 ^ 63 * 1000000) :
    (formatRFC3339Nano micros).length < 2 ^ 31 := by
  have year := civilDate_year (micros / 86400000000)
  have digits := @yearText_length 12 (civilDate (micros / 86400000000)).year
    (by norm_num at *; omega)
  have fraction := fractionText_length ((micros % 86400000000).toNat % 1000000)
  simp only [formatRFC3339Nano, List.length_append, List.length_cons, List.length_nil, dec_length]
  omega

end Ledger.Shared
