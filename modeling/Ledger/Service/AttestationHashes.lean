import Ledger.Postgres.SignedClaims
import Ledger.Service.AttestationSpec

namespace Ledger.Attested

open Core Postgres Shared

variable {a : Attestation} {sha256 : GoString → GoString} {prevRoot : GoString}
  {entries : List AttestedEntry}

theorem rootHashOf_eq_ok {root : GoString} :
    rootHashOf sha256 prevRoot a = .ok root ↔ ∃ x, rootHashOf id prevRoot a = .ok x ∧
    sha256 x = root := by
  unfold rootHashOf
  split
  · simp [attestationRootHashV3, requireHash_eq_ok, and_assoc]
  · split
    · simp [attestationRootHashV2, requireHash_eq_ok, and_assoc]
    · simp [attestationRootHash, requireHash_eq_ok, and_assoc]

theorem canonicalBatchDigest_eq_ok {digest : GoString} :
    canonicalBatchDigest sha256 entries = .ok digest ↔ ∃ x, canonicalBatchDigest id entries =
    .ok x ∧ sha256 x = digest := by
  simp [canonicalBatchDigest]

def middleWidth (domain : Byte) : Nat :=
  if domain = rootHashDomainV3 then 64 else if domain = rootHashDomainV2 then 32 else 0

variable {x : GoString}

theorem rootHashOf_shape (ok : rootHashOf id prevRoot a = .ok x) :
    prevRoot.length = 32 ∧ a.batchDigest.length = 32 ∧ ∃ domain middle, middle.length =
    middleWidth domain ∧
        x = domain :: (be 8 a.seq ++ (prevRoot ++ (a.batchDigest ++ (middle ++ be 8 a.entryCount)))) := by
  unfold rootHashOf at ok
  split at ok
  · simp only [attestationRootHashV3, bind_eq_ok, requireHash_eq_ok, pure_eq_ok] at ok
    obtain ⟨_, prev, _, batch, _, merkle, _, verdict, rfl⟩ := ok
    refine ⟨prev, batch, rootHashDomainV3, a.merkleRoot ++ a.authVerdictDigest, ?_, by simp⟩
    rw [List.length_append, merkle, verdict]
    rfl
  · split at ok
    · simp only [attestationRootHashV2, bind_eq_ok, requireHash_eq_ok, pure_eq_ok] at ok
      obtain ⟨_, prev, _, batch, _, merkle, rfl⟩ := ok
      exact ⟨prev, batch, rootHashDomainV2, a.merkleRoot, merkle, by simp⟩
    · simp only [attestationRootHash, bind_eq_ok, requireHash_eq_ok, pure_eq_ok] at ok
      obtain ⟨_, prev, _, batch, rfl⟩ := ok
      exact ⟨prev, batch, rootHashDomain, [], rfl, by simp⟩

theorem rootHashOf_injective {prevRoot' : GoString} {a' : Attestation}
    (left : rootHashOf id prevRoot a = .ok x)
    (right : rootHashOf id prevRoot' a' = .ok x) (count : Signed 8 a.entryCount)
    (count' : Signed 8 a'.entryCount) :
    prevRoot = prevRoot' ∧ a.batchDigest = a'.batchDigest ∧ a.entryCount = a'.entryCount := by
  obtain ⟨prev, batch, domain, middle, width, rfl⟩ := rootHashOf_shape left
  obtain ⟨prev', batch', domain', middle', width', same⟩ := rootHashOf_shape right
  obtain ⟨domains, same⟩ := List.cons.inj same
  obtain ⟨-, same⟩ := List.append_inj same (by simp)
  obtain ⟨roots, same⟩ := List.append_inj same (prev.trans prev'.symm)
  obtain ⟨digests, same⟩ := List.append_inj same (batch.trans batch'.symm)
  obtain ⟨-, same⟩ := List.append_inj same (by rw [width, width', domains])
  exact ⟨roots, digests, be_injective count count' same⟩

structure AttestedRow.Fits (r : AttestedRow) : Prop where
  id : Signed 8 r.id
  journalID : Signed 8 r.journalID
  accountHolder : Signed 8 r.accountHolder
  currencyID : Signed 8 r.currencyID
  classificationID : Signed 8 r.classificationID
  -- A text of its own, within the limit of the type.
  entryType : ∀ text, r.entryType = .unknown text → text ≠ lit "debit" ∧ text ≠ lit "credit" ∧
    text.length < 2 ^ 31
  amount : fitsUnits 30 r.amount = true
  effectiveAt : ∀ micros, r.effectiveAt = some micros → timestampFits micros = true

instance (r : AttestedRow) : Decidable r.Fits :=
  decidable_of_iff ((Signed 8 r.id ∧ Signed 8 r.journalID ∧ Signed 8 r.accountHolder ∧
    Signed 8 r.currencyID ∧
      Signed 8 r.classificationID ∧ fitsUnits 30 r.amount = true) ∧
      (∀ text ∈ (match r.entryType with | .unknown text => some text | _ => none),
        text ≠ lit "debit" ∧ text ≠ lit "credit" ∧ text.length < 2 ^ 31) ∧ ∀ micros ∈ r.effectiveAt,
          timestampFits micros = true) (by
    constructor
    · rintro ⟨⟨id, journalID, holder, currencyID, classID, amount⟩, entryType, effectiveAt⟩
      exact ⟨id, journalID, holder, currencyID, classID, fun text same => entryType text (by rw [same]; rfl), amount,
        fun micros same => effectiveAt micros same⟩
    · rintro ⟨id, journalID, holder, currencyID, classID, entryType, amount, effectiveAt⟩
      refine ⟨⟨id, journalID, holder, currencyID, classID, amount⟩, ?_, fun micros same => effectiveAt micros same⟩
      cases type_ : r.entryType with
      | debit => simp
      | credit => simp
      | unknown text => simpa using entryType text type_)

def AttestedRow.bytes (r : AttestedRow) : GoString :=
  be 8 r.id ++ (be 8 r.journalID ++
    (be 8 r.accountHolder ++ (be 8 r.currencyID ++ (be 8 r.classificationID ++
      (lenPrefixed r.entryType.text ++
        (be 16 r.amount ++ lenPrefixed (formatRFC3339Nano (r.effectiveAt.getD 0))))))))

variable {r : AttestedRow}

theorem AttestedRow.Fits.encode {e : AttestedEntry} (fits : r.Fits) (read : r.read = .ok e) :
    encodeAttestedEntry e = .ok r.bytes := by
  obtain ⟨micros, column, rfl⟩ := read_eq_ok.mp read
  have whole : micros * 1000 / 1000 = micros := by omega
  simp [encodeAttestedEntry, encodeAmount_stored fits.amount, AttestedRow.bytes, column, whole]

theorem signed_amount {units : Int} (fits : fitsUnits 30 units = true) : Signed 16 units := by
  have small : units.natAbs < 10 ^ 30 := by simpa [fitsUnits] using fits
  constructor <;> norm_num <;> omega

theorem formatted_length {micros : Int} (fits : timestampFits micros = true) :
    (formatRFC3339Nano micros).length < 2 ^ 32 := by
  simp only [timestampFits, Bool.and_eq_true, decide_eq_true_eq] at fits
  exact (formatRFC3339Nano_length (by omega) (by omega)).trans (by norm_num)

theorem AttestedRow.Fits.entryType_length (fits : r.Fits) : r.entryType.text.length < 2 ^ 32 := by
  cases type_ : r.entryType with
  | debit => decide
  | credit => decide
  | unknown text => exact (fits.entryType text type_).2.2.trans (by norm_num)

theorem AttestedRow.Fits.entryType_injective {r' : AttestedRow} (fits : r.Fits) (fits' : r'.Fits)
    (same : r.entryType.text = r'.entryType.text) : r.entryType = r'.entryType := by
  cases left : r.entryType with
  | debit =>
    cases right : r'.entryType with
    | debit => rfl
    | credit => rw [left, right] at same; exact absurd same (by decide)
    | unknown text => rw [left, right] at same; exact absurd same.symm (fits'.entryType text right).1
  | credit =>
    cases right : r'.entryType with
    | debit => rw [left, right] at same; exact absurd same (by decide)
    | credit => rfl
    | unknown text => rw [left, right] at same; exact absurd same.symm (fits'.entryType text right).2.1
  | unknown text =>
    cases right : r'.entryType with
    | debit => rw [left, right] at same; exact absurd same (fits.entryType text left).1
    | credit => rw [left, right] at same; exact absurd same (fits.entryType text left).2.1
    | unknown text' => rw [left, right] at same; exact congrArg _ same

theorem delimits_bytes : Delimits
    (fun r : AttestedRow => r.Fits ∧ ∃ micros, r.effectiveAt = some micros) AttestedRow.bytes := by
  rintro r r' x y ⟨left, micros, column⟩ ⟨right, micros', column'⟩ same
  simp only [AttestedRow.bytes, List.append_assoc, column, column', Option.getD_some] at same
  obtain ⟨id, same⟩ := delimits_be 8 left.id right.id same
  obtain ⟨journalID, same⟩ := delimits_be 8 left.journalID right.journalID same
  obtain ⟨holder, same⟩ := delimits_be 8 left.accountHolder right.accountHolder same
  obtain ⟨currencyID, same⟩ := delimits_be 8 left.currencyID right.currencyID same
  obtain ⟨classID, same⟩ := delimits_be 8 left.classificationID right.classificationID same
  obtain ⟨text, same⟩ := delimits_lenPrefixed left.entryType_length right.entryType_length same
  obtain ⟨amount, same⟩ := delimits_be 16 (signed_amount left.amount)
    (signed_amount right.amount) same
  obtain ⟨instant, rest⟩ := delimits_lenPrefixed (formatted_length (left.effectiveAt _ column))
    (formatted_length (right.effectiveAt _ column')) same
  have entryType := left.entryType_injective right text
  have effectiveAt : r.effectiveAt = r'.effectiveAt := by
    rw [column, column', formatRFC3339Nano_injective instant]
  cases r
  cases r'
  simp only at id journalID holder currencyID classID entryType amount effectiveAt
  subst id journalID holder currencyID classID entryType amount effectiveAt
  exact ⟨rfl, rest⟩

variable {us : List AttestedRow}

theorem canonicalBatchDigest_rows (fits : ∀ u ∈ us, u.Fits)
    (read : collect AttestedRow.read us = .ok entries)
    (hashed : canonicalBatchDigest id entries = .ok x) :
    x = batchDigestDomain :: (be 8 us.length ++ us.flatMap AttestedRow.bytes) := by
  simp only [canonicalBatchDigest, bind_eq_ok, pure_eq_ok, collect_eq_ok,
    within_eq_ok, id_eq] at hashed
  obtain ⟨payloads, encoded, rfl⟩ := hashed
  have reads := collect_eq_ok.mp read
  have same : payloads = us.map AttestedRow.bytes := by
    clear read
    induction reads generalizing payloads with
    | nil => cases encoded; rfl
    | @cons u e us entries head _ ih =>
      cases encoded with
      | cons first rest =>
        rw [(fits u List.mem_cons_self).encode head] at first
        cases first
        rw [List.map_cons, ih (fun u member => fits u (List.mem_cons_of_mem _ member)) _ rest]
  rw [same, reads.length_eq, List.flatMap_def]

theorem canonicalBatchDigest_injective {us' : List AttestedRow} {entries' : List AttestedEntry}
    (fits : ∀ u ∈ us, u.Fits)
    (fits' : ∀ u ∈ us', u.Fits) (read : collect AttestedRow.read us = .ok entries)
    (read' : collect AttestedRow.read us' = .ok entries')
    (length : us.length = us'.length) (left : canonicalBatchDigest id entries = .ok x)
    (right : canonicalBatchDigest id entries' = .ok x) : us = us' := by
  have same := (canonicalBatchDigest_rows fits read left).symm.trans
    (canonicalBatchDigest_rows fits' read' right)
  have timed : ∀ {us : List AttestedRow} {entries : List AttestedEntry},
    collect AttestedRow.read us = .ok entries →
      ∀ u ∈ us, ∃ micros, u.effectiveAt = some micros := by
    intro us entries read u member
    obtain ⟨e, holds⟩ := collect_isOk_iff.mp ⟨entries, read⟩ u member
    obtain ⟨micros, column, -⟩ := read_eq_ok.mp holds
    exact ⟨micros, column⟩
  obtain ⟨-, same⟩ := List.append_inj (List.cons.inj same).2 (by simp)
  have bytes : us.flatMap AttestedRow.bytes ++ [] = us'.flatMap AttestedRow.bytes ++
    [] := by simpa using same
  exact (delimits_bytes.flatMap length (fun u member => ⟨fits u member, timed read u member⟩)
    (fun u member => ⟨fits' u member, timed read' u member⟩) bytes).1

end Ledger.Attested
