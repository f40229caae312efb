import Ledger.Core.Template
import Ledger.Service.PendingSweep

namespace Ledger.Service

open Core Postgres Shared

/-- User-side classifications on positive holders, system-side ones on the negated holder. -/
def FollowsSigns (s : Store) (holder : Int) (entries : List EntryInput) : Prop :=
  ∀ e ∈ entries, ∀ cls, s.classByUIDOrErr e.classificationUID = .ok cls →
    if cls.isSystem then e.accountHolder = -holder ∧ e.accountHolder < 0 else 0 < e.accountHolder

/-- The classifications of the pending bundle as `InstallPendingBundle` creates them. -/
structure PendingSides (s : Store) : Prop where
  uids : (s.ledger.classifications.map (·.uid)).Nodup
  user : ∀ row ∈ s.ledger.classifications, row.code = lit "pending" ∨ row.code = lit "main_wallet" →
    row.isSystem = false
  system : ∀ row ∈ s.ledger.classifications, row.code = lit "suspense" ∨ row.code =
    lit "custodial" → row.isSystem = true

def OnItsSide (s : Store) (holder : Int) (e : EntryInput) : Prop :=
  ∃ row, s.classByUIDOrErr e.classificationUID = .ok row ∧
    e.accountHolder = if row.isSystem then systemAccountHolder holder else holder

def SignedByHolder (env : Env) (s s' : Store) (holder : Int) : Prop :=
  ∃ input, PostOutcome env s input s' ∧ (FollowsSigns s holder input.entries ↔ 0 < holder)

variable {s s' : Store} {holder : Int}

theorem followsSigns_iff {entries : List EntryInput} (fits : holder < 2 ^ 63) {e : EntryInput}
    (member : e ∈ entries) {row : ClassificationRow}
    (found : s.classByUIDOrErr e.classificationUID = .ok row)
    (user : row.isSystem = false) (sides : ∀ e ∈ entries, OnItsSide s holder e) :
    FollowsSigns s holder entries ↔ 0 < holder := by
  constructor
  · intro follows
    -- The user's own line decides: the system lines of the least int64 are negative as well.
    obtain ⟨row', found', side⟩ := sides e member
    obtain rfl : row' = row := Except.ok.inj (found'.symm.trans found)
    have sign := follows e member row' found
    rw [if_neg (by simp [user]), side, if_neg (by simp [user])] at sign
    exact sign
  · intro positive e member cls found
    obtain ⟨row, found', side⟩ := sides e member
    obtain rfl : row = cls := Except.ok.inj (found'.symm.trans found)
    rw [side, systemAccountHolder_eq (by omega) fits]
    split <;> omega

theorem PendingSides.leg (sides : PendingSides s) {code : String} {uid : GoString}
    (resolved : resolveClassificationID s code = .ok uid) :
    ∃ row ∈ s.ledger.classifications, s.classByUIDOrErr uid = .ok row ∧ row.code = lit code := by
  obtain ⟨row, member, code_, rfl⟩ := resolveClassificationID_ok resolved
  obtain ⟨cls, found⟩ : ∃ cls, s.classByUIDOrErr (pgToUID row.uid) = .ok cls := by
    simp only [Store.classByUIDOrErr, orError_eq_ok]
    exact Option.isSome_iff_exists.mp (List.find?_isSome.mpr ⟨row, member, by simp⟩)
  obtain ⟨member', same⟩ := classByUIDOrErr_mem found
  obtain rfl := List.inj_on_of_nodup_map sides.uids member' member (Uuid.print_injective same)
  exact ⟨cls, member, found, code_⟩

theorem PendingSides.legs (sides : PendingSides s) {cls : PendingClassIDs}
    (resolved : resolveClassificationIDs s = .ok cls)
    (i : PendingInput) (entryType : EntryType) :
    OnItsSide s i.accountHolder (pendingLeg i i.accountHolder cls.pending entryType) ∧
      OnItsSide s i.accountHolder (pendingLeg i i.accountHolder cls.mainWallet entryType) ∧
      OnItsSide s i.accountHolder (pendingLeg i (systemAccountHolder i.accountHolder)
        cls.suspense entryType) ∧
      OnItsSide s i.accountHolder (pendingLeg i (systemAccountHolder i.accountHolder)
        cls.custodial entryType) := by
  obtain ⟨pending, suspense, wallet, custodial⟩ := resolveClassificationIDs_ok resolved
  obtain ⟨row, member, found, code⟩ := sides.leg pending
  obtain ⟨row', member', found', code'⟩ := sides.leg wallet
  obtain ⟨row₁, member₁, found₁, code₁⟩ := sides.leg suspense
  obtain ⟨row₂, member₂, found₂, code₂⟩ := sides.leg custodial
  exact ⟨⟨row, found, by rw [sides.user row member (.inl code)]; rfl⟩,
    ⟨row', found', by rw [sides.user row' member' (.inr code')]; rfl⟩,
    ⟨row₁, found₁, by rw [sides.system row₁ member₁ (.inl code₁)]; rfl⟩,
      ⟨row₂, found₂, by rw [sides.system row₂ member₂ (.inr code₂)]; rfl⟩⟩

theorem PendingSides.own (sides : PendingSides s) {cls : PendingClassIDs}
    (resolved : resolveClassificationIDs s = .ok cls) :
    ∃ row, s.classByUIDOrErr cls.pending = .ok row ∧ row.isSystem = false := by
  obtain ⟨row, member, found, code⟩ := sides.leg (resolveClassificationIDs_ok resolved).1
  exact ⟨row, found, sides.user row member (.inl code)⟩

theorem render_signs_iff {decodeQuotes : GoString → Result Unit} {now : Instant}
    {t : EntryTemplate} {params : TemplateParams} {input : JournalInput}
    (fits : params.holderID < 2 ^ 63) (ok : t.render decodeQuotes now params = .ok input) :
    FollowsSigns s params.holderID input.entries ↔
      ∀ line ∈ t.lines, ∀ cls, s.classByUIDOrErr line.classificationUID = .ok cls →
        (cls.isSystem = true ↔ line.holderRole = .system) := by
  obtain ⟨positive, rendered, -⟩ := (render_ok ok).1
  clear ok
  have negated := systemAccountHolder_eq (by omega) fits
  unfold FollowsSigns
  generalize input.entries = entries, t.lines = lines at rendered ⊢
  induction rendered with
  | nil => simp
  | cons line rest ih =>
    rename_i l e ls es
    simp only [List.forall_mem_cons, ih]
    refine and_congr_left' (forall_congr' fun cls => ?_)
    simp only [renderLine, bind_eq_ok, orError_eq_ok, pure_eq_ok] at line
    obtain ⟨amount, -, holder, role, rfl⟩ := line
    refine imp_congr_right fun _ => ?_
    cases side : l.holderRole <;> rw [side, HolderRole.holder] at role <;> cases role <;>
      cases cls.isSystem <;>
      simp [negated] <;> omega

/-- The journals of the pending flow follow the convention exactly for positive holders, those of a
template exactly if every line's role agrees with its classification. -/
theorem holder_signs_iff {p : PendingStore} {env : Env} (sides : PendingSides s) :
    (∀ i s' j, i.accountHolder < 2 ^ 63 → p.addPending env s i = .ok (s', j) →
        SignedByHolder env s s' i.accountHolder) ∧
      (∀ i s' j, i.accountHolder < 2 ^ 63 → p.confirmPending env s i = .ok (s', j) →
        SignedByHolder env s s' i.accountHolder) ∧
      (∀ i s' j, i.accountHolder < 2 ^ 63 → p.cancelPending env s i = .ok (s', j) →
        SignedByHolder env s s' i.accountHolder) ∧
      ∀ decodeQuotes now t params input, params.holderID < 2 ^ 63 →
        EntryTemplate.render decodeQuotes now t params = .ok input →
        (FollowsSigns s params.holderID input.entries ↔
          ∀ line ∈ t.lines, ∀ cls, s.classByUIDOrErr line.classificationUID = .ok cls →
            (cls.isSystem = true ↔ line.holderRole = .system)) := by
  refine ⟨fun i s' j fits ok => ?_, fun i s' j fits ok => ?_, fun i s' j fits ok => ?_,
    fun _ _ _ _ _ => render_signs_iff⟩
  · obtain ⟨-, cls, jt, resolved, -, posted⟩ := PendingStore.addPending_outcome ok
    obtain ⟨row, found, user⟩ := sides.own resolved
    refine ⟨_, posted, followsSigns_iff fits (.tail _ (.head _)) found user ?_⟩
    simp [buildAddPendingJournalInput, pendingJournal, sides.legs resolved]
  · obtain ⟨-, cls, jt, resolved, posted, -⟩ := PendingStore.confirmPending_outcome ok
    obtain ⟨row, found, user⟩ := sides.own resolved
    refine ⟨_, posted, followsSigns_iff fits (.head _) found user ?_⟩
    simp [buildConfirmPendingJournalInput, pendingJournal, sides.legs resolved]
  · obtain ⟨-, cls, jt, resolved, posted, -⟩ := PendingStore.cancelPending_outcome ok
    obtain ⟨row, found, user⟩ := sides.own resolved
    refine ⟨_, posted, followsSigns_iff fits (.head _) found user ?_⟩
    simp [buildCancelPendingJournalInput, pendingJournal, sides.legs resolved]

theorem PendingSample.sides : PendingSides PendingSample.store :=
  ⟨by decide +kernel, by decide +kernel, by decide +kernel⟩

theorem holder_signs_iff_added : ∃ s' input, PostOutcome (PendingSample.env 1 20)
    PendingSample.store input s' ∧
    FollowsSigns PendingSample.store 7 input.entries := by
  obtain ⟨j, ok⟩ := @PendingSample.call_ok PendingSample.store
    (PendingSample.pending.addPending (PendingSample.env 1 20) PendingSample.store
      ⟨PendingSample.input 10 "a"⟩) (by decide +kernel)
  obtain ⟨input, posted, signs⟩ := (holder_signs_iff PendingSample.sides).1 _ _ _ (by decide) ok
  exact ⟨_, input, posted, signs.mpr (by decide)⟩

/-- A deposit for the holder -7 is accepted: `pending`, which is not a system classification, is
credited on the negative holder, and `suspense`, which is one, debited on a user. -/
theorem addPending_negative_holder :
    (PendingSample.pending.addPending (PendingSample.env 1 20) PendingSample.store
      ⟨{ PendingSample.input 10 "a" with accountHolder := -7 }⟩).map
        (fun r => r.1.ledger.entries.map fun e =>
          (e.dim.holder, r.1.ledger.classifications.any fun c =>
        c.id == e.dim.classification && c.isSystem)) =
      .ok [(7, true), (-7, false)] := by
  decide +kernel

end Ledger.Service
