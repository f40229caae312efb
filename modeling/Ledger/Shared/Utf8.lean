import Mathlib.Tactic
import Ledger.Shared.GoString

namespace Ledger.Shared

def seqLen (a : Byte) : Nat :=
  if a < 0x80 then 1
  else if a < 0xC2 then 0
  else if a < 0xE0 then 2
  else if a < 0xF0 then 3
  else if a < 0xF5 then 4
  else 0

/-- The range of the second byte: narrower after four of the first bytes, which keeps out overlong
forms, surrogates and code points past U+10FFFF. -/
def secondRange (a : Byte) : Byte × Byte :=
  if a = 0xE0 then (0xA0, 0xBF)
  else if a = 0xED then (0x80, 0x9F)
  else if a = 0xF0 then (0x90, 0xBF)
  else if a = 0xF4 then (0x80, 0x8F)
  else (0x80, 0xBF)

def continuations (a : Byte) : List Byte → Bool
  | [] => true
  | b :: rest => decide ((secondRange a).1 ≤ b ∧ b ≤ (secondRange a).2) &&
      rest.all fun c => decide (0x80 ≤ c ∧ c ≤ 0xBF)

def isRune : GoString → Bool
  | [] => false
  | a :: rest => rest.length + 1 == seqLen a && continuations a rest

def runeSize : GoString → Nat
  | [] => 0
  | a :: rest => if isRune ((a :: rest).take (seqLen a)) then seqLen a else 0

inductive Piece where
  | rune (bytes : GoString)
  | bad (b : Byte)
deriving DecidableEq

def piecesFuel : Nat → GoString → List Piece
  | 0, _ => []
  | _ + 1, [] => []
  | fuel + 1, a :: rest =>
    match runeSize (a :: rest) with
    | 0 => .bad a :: piecesFuel fuel rest
    | size + 1 => .rune ((a :: rest).take (size + 1)) :: piecesFuel fuel ((a :: rest).drop (size + 1))

variable (s : GoString)

def pieces : List Piece := piecesFuel s.length s

def Piece.bytes : Piece → GoString
  | .rune bytes => bytes
  | .bad b => [b]

def replacement : GoString := [0xEF, 0xBF, 0xBD]

def Piece.repaired : Piece → GoString
  | .rune bytes => bytes
  | .bad _ => replacement

def Piece.isRune : Piece → Bool
  | .rune _ => true
  | .bad _ => false

def repair : GoString := (pieces s).flatMap Piece.repaired

def validUtf8 : Bool := (pieces s).all Piece.isRune

theorem piecesFuel_enough {fuel fuel' : Nat} {s : GoString} (enough : s.length ≤ fuel)
    (enough' : s.length ≤ fuel') :
    piecesFuel fuel s = piecesFuel fuel' s := by
  induction fuel generalizing fuel' s with
  | zero =>
    have empty : s = [] := List.length_eq_zero_iff.mp (by omega)
    subst empty
    cases fuel' <;> rfl
  | succ fuel ih =>
    cases s with
    | nil => cases fuel' <;> rfl
    | cons a rest =>
      cases fuel' with
      | zero => simp at enough'
      | succ fuel' =>
        simp only [List.length_cons] at enough enough'
        simp only [piecesFuel]
        split
        · exact congrArg _ (ih (by omega) (by omega))
        · refine congrArg _ (ih ?_ ?_)
          all_goals
            simp only [List.length_drop, List.length_cons]
            omega

variable {rest bytes : GoString}

theorem pieces_bad {a : Byte} (alone : runeSize (a :: rest) = 0) : pieces (a :: rest) =
    .bad a :: pieces rest := by
  simp [pieces, piecesFuel, alone]

theorem pieces_take {s : GoString} {size : Nat} (found : runeSize s = size + 1) :
    pieces s = .rune (s.take (size + 1)) :: pieces (s.drop (size + 1)) := by
  cases s with
  | nil => simp [runeSize] at found
  | cons a rest =>
    simp only [pieces, List.length_cons, piecesFuel, found]
    congr 1
    apply piecesFuel_enough
    · simp
    · exact le_rfl

theorem isRune_length (rune : isRune bytes = true) : ∃ a rest, bytes = a :: rest ∧
    bytes.length = seqLen a := by
  cases bytes with
  | nil => cases rune
  | cons a rest =>
    simp only [isRune, Bool.and_eq_true, beq_iff_eq] at rune
    exact ⟨a, rest, rfl, rune.1⟩

theorem runeSize_append (rune : isRune bytes = true) : runeSize (bytes ++ rest) = bytes.length := by
  obtain ⟨a, conts, rfl, len⟩ := isRune_length rune
  have prefix_ : (a :: conts ++ rest).take (seqLen a) = a :: conts := by
    rw [← len, List.take_left]
  simp only [List.cons_append] at prefix_ ⊢
  simp only [runeSize, prefix_, rune, if_true, len]

theorem pieces_append (rune : isRune bytes = true) : pieces (bytes ++ rest) =
    .rune bytes :: pieces rest := by
  obtain ⟨a, conts, rfl, -⟩ := isRune_length rune
  have size : runeSize (a :: conts ++ rest) = conts.length + 1 := runeSize_append rune
  rw [pieces_take size]
  simp

def WellFormed : Piece → Prop
  | .rune bytes => isRune bytes = true
  | .bad _ => True

theorem pieces_step (a : Byte) (rest : GoString) :
    ∃ p tail, pieces (a :: rest) = p :: pieces tail ∧ p.bytes ++ tail = a :: rest ∧ WellFormed p ∧
      tail.length < (a :: rest).length := by
  cases size : runeSize (a :: rest) with
  | zero => exact ⟨.bad a, rest, pieces_bad size, rfl, trivial, by simp⟩
  | succ n =>
    refine ⟨_, _, pieces_take size, List.take_append_drop _ _, ?_, by simp⟩
    simp only [runeSize] at size
    split at size
    · next rune =>
      rw [size] at rune
      exact rune
    · cases size

theorem pieces_induction {motive : GoString → Prop} (nil : motive [])
    (cons : ∀ p tail, WellFormed p → pieces (p.bytes ++ tail) = p :: pieces tail → motive tail →
      motive (p.bytes ++ tail)) (s : GoString) : motive s := by
  induction len : s.length using Nat.strong_induction_on generalizing s with
  | _ n ih =>
    cases s with
    | nil => exact nil
    | cons a rest =>
      obtain ⟨p, tail, split, joined, wellFormed, shorter⟩ := pieces_step a rest
      rw [← joined] at split ⊢
      exact cons p tail wellFormed split (ih tail.length (by omega) tail rfl)

theorem wellFormed_of_mem {s : GoString} {p : Piece} (member : p ∈ pieces s) : WellFormed p := by
  induction s using pieces_induction with
  | nil => cases member
  | cons q tail wellFormed split ih =>
    rw [split] at member
    rcases List.mem_cons.mp member with rfl | later
    · exact wellFormed
    · exact ih later

theorem bytes_pieces : (pieces s).flatMap Piece.bytes = s := by
  induction s using pieces_induction with
  | nil => rfl
  | cons p tail _ split ih => rw [split, List.flatMap_cons, ih]

theorem pieces_injective {s t : GoString} (same : pieces s = pieces t) : s = t := by
  rw [← bytes_pieces s, ← bytes_pieces t, same]

def Piece.repair : Piece → Piece
  | .rune bytes => .rune bytes
  | .bad _ => .rune replacement

theorem pieces_repair : pieces (repair s) = (pieces s).map Piece.repair := by
  unfold repair
  generalize taken : pieces s = ps
  have wellFormed : ∀ p ∈ ps, WellFormed p := fun p member => wellFormed_of_mem (taken ▸ member)
  clear taken
  induction ps with
  | nil => rfl
  | cons p ps ih =>
    rw [List.flatMap_cons, List.map_cons, ← ih fun q member => wellFormed q (by simp [member])]
    cases p with
    | rune bytes => exact pieces_append (wellFormed (.rune bytes) (by simp))
    | bad b =>
      have rune : isRune replacement = true := by decide
      exact pieces_append rune

theorem validUtf8_repair : validUtf8 (repair s) = true := by
  simp only [validUtf8, pieces_repair, List.all_map, List.all_eq_true, Function.comp_apply]
  intro p _
  cases p <;> rfl

theorem repair_of_valid {s : GoString} (valid : validUtf8 s = true) : repair s = s := by
  have same : ∀ p ∈ pieces s, p.repaired = p.bytes := by
    intro p member
    have rune := List.all_eq_true.mp valid p member
    cases p with
    | rune bytes => rfl
    | bad b => cases rune
  rw [repair, List.flatMap_congr same, bytes_pieces]

theorem validUtf8_ascii {s : GoString} (ascii : ∀ b ∈ s, b < 0x80) : validUtf8 s = true := by
  have single : ∀ a : Byte, a < 0x80 → isRune [a] = true := by decide +kernel
  induction s with
  | nil => rfl
  | cons a rest ih =>
    have rune := single a (ascii a List.mem_cons_self)
    have split : pieces ([a] ++ rest) = .rune [a] :: pieces rest := pieces_append rune
    rw [validUtf8, ← List.singleton_append, split, List.all_cons, Bool.and_eq_true]
    exact ⟨rfl, ih fun b member => ascii b (List.mem_cons_of_mem _ member)⟩

theorem repair_eq_self_iff {s : GoString} : repair s = s ↔ validUtf8 s = true := by
  refine ⟨fun same => ?_, repair_of_valid⟩
  rw [← same]
  exact validUtf8_repair s

end Ledger.Shared
