import Ledger.Shared.SortedMap
import Ledger.Shared.Utf8

namespace Ledger.Shared

def quote : Byte := 0x22
def backslash : Byte := 0x5C

def hexDigit (n : Nat) : Byte := if n < 10 then Fin.ofNat 256 (0x30 + n)
    else Fin.ofNat 256 (0x57 + n)

def unhex (b : Byte) : Nat := if b.val < 0x3A then b.val - 0x30 else b.val - 0x57

def escapeAscii (a : Byte) : GoString :=
  if a = quote ∨ a = backslash then [backslash, a]
  else if a = 0x08 then [backslash, 0x62]
  else if a = 0x0C then [backslash, 0x66]
  else if a = 0x0A then [backslash, 0x6E]
  else if a = 0x0D then [backslash, 0x72]
  else if a = 0x09 then [backslash, 0x74]
  else if a < 0x20 ∨ a = 0x3C ∨ a = 0x3E ∨ a = 0x26 then
    [backslash, 0x75, 0x30, 0x30, hexDigit (a.val / 16), hexDigit (a.val % 16)]
  else [a]

def lineSeparator : GoString := [0xE2, 0x80, 0xA8]
def paragraphSeparator : GoString := [0xE2, 0x80, 0xA9]

def Piece.json : Piece → GoString
  | .rune [] => []
  | .rune [a] => escapeAscii a
  | .rune bytes =>
    if bytes = lineSeparator then lit "\\u2028"
    else if bytes = paragraphSeparator then lit "\\u2029"
    else bytes
  | .bad _ => lit "\\ufffd"

def encodeString (s : GoString) : GoString := quote :: ((pieces s).flatMap Piece.json ++ [quote])

def tokenLen : GoString → Nat
  | [] => 0
  | a :: rest => if a = backslash then (if rest.head? = some 0x75 then 6 else 2) else seqLen a

def decodeToken : GoString → GoString
  | [a, b] =>
    if a ≠ backslash then [a, b]
    else if b = 0x62 then [0x08]
    else if b = 0x66 then [0x0C]
    else if b = 0x6E then [0x0A]
    else if b = 0x72 then [0x0D]
    else if b = 0x74 then [0x09]
    else [b]
  | [_, _, a, b, c, d] =>
    -- The encoder escapes no other code points above U+007F than these three.
    if [a, b, c, d] = lit "2028" then lineSeparator
    else if [a, b, c, d] = lit "2029" then paragraphSeparator
    else if [a, b, c, d] = lit "fffd" then replacement
    else [Fin.ofNat 256 (unhex c * 16 + unhex d)]
  | bytes => bytes

theorem seqLen_le (a : Byte) : seqLen a ≤ 4 := by
  unfold seqLen
  split_ifs <;> omega

theorem isRune_shape {bytes : GoString} (rune : isRune bytes = true) :
    (∃ a, bytes = [a] ∧ a < 0x80) ∨
      ∃ a b rest, bytes = a :: b :: rest ∧ 0xC2 ≤ a ∧ bytes.length = seqLen a := by
  obtain ⟨a, rest, rfl, len⟩ := isRune_length rune
  cases rest with
  | nil =>
    refine Or.inl ⟨a, rfl, ?_⟩
    by_contra big
    simp only [List.length_cons, List.length_nil, seqLen] at len
    split_ifs at len <;> omega
  | cons b rest =>
    refine Or.inr ⟨a, b, rest, rfl, ?_, len⟩
    by_contra small
    simp only [List.length_cons, seqLen] at len
    split_ifs at len <;> first | omega | (exact absurd (not_lt.mp (by assumption)) small)

theorem ascii_json : ∀ a : Byte, a < 0x80 → tokenLen (escapeAscii a) = (escapeAscii a).length ∧
    (escapeAscii a).head? ≠ some quote ∧
      escapeAscii a ≠ [] ∧ decodeToken (escapeAscii a) = [a] ∧ escapeAscii a ≠ lit "\\ufffd" := by
  decide +kernel

variable {rest : GoString}

theorem tokenLen_append {token : GoString} (nonempty : token ≠ [])
    (exact_ : tokenLen token = token.length) :
    tokenLen (token ++ rest) = token.length := by
  match token with
  | [] => exact absurd rfl nonempty
  | [a] =>
    simp only [tokenLen, List.head?_nil, reduceCtorEq, if_false, List.length_singleton] at exact_
    split at exact_
    · cases exact_
    · next plain => simp [tokenLen, plain, exact_]
  | a :: b :: more =>
    rw [← exact_]
    simp [tokenLen]

/-- What the encoder writes for one piece: a token of its own length, no closing quote, read back
as the repaired piece. -/
structure Token (p : Piece) : Prop where
  nonempty : p.json ≠ []
  length : tokenLen p.json = p.json.length
  open_ : p.json.head? ≠ some quote
  decoded : decodeToken p.json = p.repaired
  bad : p.json = lit "\\ufffd" → p.isRune = false

theorem decodeToken_wide {a b : Byte} (plain : a ≠ backslash)
    (short : (a :: b :: rest).length ≤ 4) :
    decodeToken (a :: b :: rest) = a :: b :: rest := by
  match rest with
  | [] => simp [decodeToken, plain]
  | [_] => rfl
  | [_, _] => rfl
  | _ :: _ :: _ :: _ =>
    simp only [List.length_cons] at short
    omega

variable {p q : Piece} {rest' : GoString} {m n : SortedMap GoString GoString}

theorem WellFormed.token (wellFormed : WellFormed p) : Token p := by
  cases p with
  | bad b =>
    -- Every bad byte is written as the same six characters.
    have escape : lit "\\ufffd" ≠ [] ∧ tokenLen (lit "\\ufffd") = (lit "\\ufffd").length ∧
        (lit "\\ufffd").head? ≠ some quote ∧ decodeToken (lit "\\ufffd") = replacement := by decide
    exact ⟨escape.1, escape.2.1, escape.2.2.1, escape.2.2.2, fun _ => rfl⟩
  | rune bytes =>
    rcases isRune_shape wellFormed with ⟨a, rfl, ascii⟩ | ⟨a, b, rest, rfl, high, len⟩
    · obtain ⟨length, open_, nonempty, decoded, bad⟩ := ascii_json a ascii
      exact ⟨nonempty, length, open_, decoded, fun same => absurd same bad⟩
    · by_cases line : a :: b :: rest = lineSeparator
      · rw [line]
        constructor <;> decide
      · by_cases paragraph : a :: b :: rest = paragraphSeparator
        · rw [paragraph]
          constructor <;> decide
        · have raw : (Piece.rune (a :: b :: rest)).json = a :: b :: rest := by
            simp [Piece.json, line, paragraph]
          have plain : a ≠ backslash := by
            rintro rfl
            exact absurd high (by decide)
          have notQuote : a ≠ quote := by
            rintro rfl
            exact absurd high (by decide)
          constructor
          · simp [raw]
          · rw [raw, len]
            simp [tokenLen, plain]
          · simpa [raw] using notQuote
          · rw [raw]
            exact decodeToken_wide plain (len ▸ seqLen_le a)
          · rw [raw]
            intro same
            exact absurd (List.cons.inj same).1 plain

theorem Token.split (tp : Token p) (tq : Token q) (same : p.json ++ rest = q.json ++ rest') :
    p.json = q.json ∧ rest = rest' := by
  apply List.append_inj same
  have length : tokenLen (p.json ++ rest) = p.json.length := tokenLen_append tp.nonempty tp.length
  rw [← length, same, tokenLen_append tq.nonempty tq.length]

theorem body_split {ps qs : List Piece} (left : ∀ p ∈ ps, Token p) (right : ∀ q ∈ qs, Token q)
    (same : ps.flatMap Piece.json ++ quote :: rest = qs.flatMap Piece.json ++ quote :: rest') :
    ps.map Piece.json = qs.map Piece.json ∧ rest = rest' := by
  -- A token never starts with the closing quote, so both bodies end together.
  have clash : ∀ {p : Piece} {tail more : GoString}, Token p → p.json ++ tail =
    quote :: more → False := by
    intro p tail more token same
    apply token.open_
    cases json : p.json with
    | nil => exact absurd json token.nonempty
    | cons a token' =>
      rw [json] at same
      simp only [List.cons_append, List.cons.injEq] at same
      simp [same.1]
  induction ps generalizing qs with
  | nil =>
    cases qs with
    | nil => exact ⟨rfl, (List.cons.inj same).2⟩
    | cons q qs =>
      rw [List.flatMap_cons, List.append_assoc] at same
      exact (clash (right q (by simp)) same.symm).elim
  | cons p ps ih =>
    cases qs with
    | nil =>
      rw [List.flatMap_cons, List.append_assoc] at same
      exact (clash (left p (by simp)) same).elim
    | cons q qs =>
      rw [List.flatMap_cons, List.flatMap_cons, List.append_assoc, List.append_assoc] at same
      obtain ⟨head, tail⟩ := (left p (by simp)).split (right q (by simp)) same
      obtain ⟨mapped, rest_⟩ := ih (fun p member => left p (by simp [member]))
        (fun q member => right q (by simp [member])) tail
      exact ⟨by rw [List.map_cons, List.map_cons, head, mapped], rest_⟩

theorem tokens (s : GoString) : ∀ p ∈ pieces s, Token p := fun _ member =>
    (wellFormed_of_mem member).token

theorem Token.eq_of_json (tp : Token p) (tq : Token q) (rune : p.isRune = true)
    (same : p.json = q.json) : p = q := by
  have repaired : p.repaired = q.repaired := by rw [← tp.decoded, same, tq.decoded]
  cases p with
  | bad b => cases rune
  | rune bytes =>
    cases q with
    | rune bytes' => exact congrArg Piece.rune repaired
    | bad b => cases tp.bad same

theorem encodeString_split {s t : GoString} (valid : validUtf8 s = true)
    (same : encodeString s ++ rest = encodeString t ++ rest') :
    s = t ∧ rest = rest' := by
  simp only [encodeString, List.cons_append, List.append_assoc, List.nil_append,
    List.cons.injEq, true_and] at same
  obtain ⟨mapped, rest_⟩ := body_split (tokens s) (tokens t) same
  refine ⟨pieces_injective ?_, rest_⟩
  have runes := List.all_eq_true.mp valid
  have left := tokens s
  have right := tokens t
  clear same valid
  generalize pieces s = ps at mapped runes left
  generalize pieces t = qs at mapped right
  induction ps generalizing qs with
  | nil => simpa using mapped.symm
  | cons p ps ih =>
    cases qs with
    | nil => simp at mapped
    | cons q qs =>
      simp only [List.map_cons, List.cons.injEq] at mapped
      have head := (left p (by simp)).eq_of_json (right q (by simp)) (runes p (by simp)) mapped.1
      have tail := ih (fun p member => runes p (by simp [member]))
        (fun p member => left p (by simp [member])) qs mapped.2
        (fun q member => right q (by simp [member]))
      rw [head, tail]

def comma : Byte := 0x2C
def colon : Byte := 0x3A
def openBrace : Byte := 0x7B
def closeBrace : Byte := 0x7D

def encodeMember (member : GoString × GoString) : GoString := encodeString member.1 ++
    colon :: encodeString member.2

def encodeRest : List (GoString × GoString) → GoString
  | [] => [closeBrace]
  | member :: rest => comma :: (encodeMember member ++ encodeRest rest)

def encodeMembers : List (GoString × GoString) → GoString
  | [] => [closeBrace]
  | member :: rest => encodeMember member ++ encodeRest rest

def encodeObject (m : SortedMap GoString GoString) :
    GoString := openBrace :: encodeMembers m.entries

def validMember (member : GoString × GoString) : Bool := validUtf8 member.1 && validUtf8 member.2

def validMembers (m : SortedMap GoString GoString) : Bool := m.entries.all validMember

def repairMember (member : GoString × GoString) : GoString × GoString :=
  (repair member.1, repair member.2)

theorem encodeMember_split {e f : GoString × GoString} (valid : validMember e = true)
    (same : encodeMember e ++ rest = encodeMember f ++ rest') : e = f ∧ rest = rest' := by
  simp only [validMember, Bool.and_eq_true] at valid
  simp only [encodeMember, List.append_assoc, List.cons_append] at same
  obtain ⟨key, after⟩ := encodeString_split valid.1 same
  obtain ⟨value, rest_⟩ := encodeString_split valid.2 (List.cons.inj after).2
  exact ⟨Prod.ext key value, rest_⟩

theorem encodeRest_injective {es fs : List (GoString × GoString)}
    (valid : ∀ e ∈ es, validMember e = true)
    (same : encodeRest es = encodeRest fs) : es = fs := by
  induction es generalizing fs with
  | nil =>
    cases fs with
    | nil => rfl
    | cons f fs => exact absurd (List.cons.inj same).1 (by decide)
  | cons e es ih =>
    cases fs with
    | nil => exact absurd (List.cons.inj same).1 (by decide)
    | cons f fs =>
      obtain ⟨head, tail⟩ := encodeMember_split (valid e (by simp)) (List.cons.inj same).2
      rw [head, ih (fun e member => valid e (by simp [member])) tail]

theorem encodeObject_injective (valid : validMembers m = true)
    (same : encodeObject m = encodeObject n) : m = n := by
  have each := List.all_eq_true.mp valid
  apply SortedMap.ext_entries
  have members := (List.cons.inj same).2
  clear valid same
  generalize m.entries = es at each members ⊢
  generalize n.entries = fs at members ⊢
  -- A member starts with a quote, the end of an object with a brace.
  cases es with
  | nil =>
    cases fs with
    | nil => rfl
    | cons f fs => exact absurd (List.cons.inj members).1 (by decide)
  | cons e es =>
    cases fs with
    | nil => exact absurd (List.cons.inj members).1 (by decide)
    | cons f fs =>
      obtain ⟨head, tail⟩ := encodeMember_split (each e (by simp)) members
      rw [head, encodeRest_injective (fun e member => each e (by simp [member])) tail]

/-- A map as it comes back from a column its text was written to: of keys that become equal the
last one wins. -/
def readBack (m : SortedMap GoString GoString) : SortedMap GoString GoString :=
  SortedMap.ofList (m.entries.map repairMember)

theorem validMembers_readBack (m : SortedMap GoString GoString) :
    validMembers (readBack m) = true := by
  simp only [validMembers, List.all_eq_true]
  intro e member
  obtain ⟨raw, -, rfl⟩ := List.mem_map.mp (SortedMap.mem_ofList member)
  simp [validMember, repairMember, validUtf8_repair]

theorem get_readBack (keys : ∀ e ∈ m.entries, validUtf8 e.1 = true) (k : GoString) :
    (readBack m).get k = (m.get k).map repair := by
  have repaired : m.entries.map repairMember = m.entries.map fun e => (e.1, repair e.2) :=
    List.map_congr_left fun e member => by rw [repairMember, repair_of_valid (keys e member)]
  have sorted : (m.entries.map fun e => (e.1, repair e.2)).Pairwise fun a b => a.1 < b.1 :=
    List.pairwise_map.mpr m.sorted
  have same : readBack m = ⟨_, sorted⟩ := by
    rw [readBack, repaired, ← SortedMap.ofList_entries ⟨_, sorted⟩]
  have lookup : ∀ l : List (GoString × GoString), SortedMap.lookupList k
    (l.map fun e => (e.1, repair e.2)) =
      (SortedMap.lookupList k l).map repair := by
    intro l
    induction l with
    | nil => rfl
    | cons e rest ih =>
      by_cases here : k = e.1
      · simp [SortedMap.lookupList, here]
      · simp [SortedMap.lookupList, here, ih]
  rw [same]
  exact lookup m.entries

theorem readBack_of_valid (valid : validMembers m = true) : readBack m = m := by
  have each := List.all_eq_true.mp valid
  have same : m.entries.map repairMember = m.entries := by
    conv_rhs => rw [← List.map_id m.entries]
    apply List.map_congr_left
    intro e member
    have both := each e member
    simp only [validMember, Bool.and_eq_true] at both
    simp only [repairMember, repair_of_valid both.1, repair_of_valid both.2, id_eq]
  rw [readBack, same, SortedMap.ofList_entries]

theorem readBack_eq_self_iff : readBack m = m ↔ validMembers m = true := by
  refine ⟨fun same => ?_, readBack_of_valid⟩
  rw [← same]
  exact validMembers_readBack m

theorem encodeObject_readBack_eq_iff : encodeObject (readBack m) =
    encodeObject n ↔ readBack m = n :=
  ⟨encodeObject_injective (validMembers_readBack m), fun same => by rw [same]⟩

end Ledger.Shared
