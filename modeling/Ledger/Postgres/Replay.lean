import Ledger.Postgres.JournalTables

namespace Ledger.Postgres

open Core Shared

structure Later (s s' : Store) : Prop where
  keys : ∀ key j, s.journals.find? (·.idempotencyKey == key) = some j →
    s'.journals.find? (·.idempotencyKey == key) = some j
  journals : ∀ id j, s.getJournalByID id = some j → s'.getJournalByID id = some j
  members : ∀ j ∈ s.journals, j ∈ s'.journals
  entries : ∀ j ∈ s.journals, s'.listJournalEntries j.id = s.listJournalEntries j.id
  currencies : ∀ uid cur, s.currencyByUIDOrErr uid = .ok cur → ∃ cur', s'.currencyByUIDOrErr uid =
    .ok cur' ∧ cur'.id = cur.id
  classifications : ∀ uid cls, s.classByUIDOrErr uid = .ok cls → ∃ cls', s'.classByUIDOrErr uid =
    .ok cls' ∧ cls'.id = cls.id
  types : ∀ id jt, s.jtByIDOrErr id = .ok jt → ∃ jt', s'.jtByIDOrErr id = .ok jt' ∧ jt'.uid = jt.uid
  events : ∀ id e, s.getEvent id = some e → ∃ e', s'.getEvent id = some e' ∧ e'.uid = e.uid

theorem Later.refl (s : Store) : Later s s :=
  ⟨fun _ _ h => h, fun _ _ h => h, fun _ h => h, fun _ _ => rfl, fun _ cur h => ⟨cur, h, rfl⟩,
    fun _ cls h => ⟨cls, h, rfl⟩,
    fun _ jt h => ⟨jt, h, rfl⟩, fun _ e h => ⟨e, h, rfl⟩⟩

theorem Later.trans {s₁ s₂ s₃ : Store} (first : Later s₁ s₂) (second : Later s₂ s₃) :
    Later s₁ s₃ where
  keys key j found := second.keys key j (first.keys key j found)
  journals id j found := second.journals id j (first.journals id j found)
  members j member := second.members j (first.members j member)
  entries j member := (second.entries j (first.members j member)).trans (first.entries j member)
  currencies uid cur found := by
    obtain ⟨cur', found', id⟩ := first.currencies uid cur found
    obtain ⟨cur'', found'', id'⟩ := second.currencies uid cur' found'
    exact ⟨cur'', found'', id'.trans id⟩
  classifications uid cls found := by
    obtain ⟨cls', found', id⟩ := first.classifications uid cls found
    obtain ⟨cls'', found'', id'⟩ := second.classifications uid cls' found'
    exact ⟨cls'', found'', id'.trans id⟩
  types id jt found := by
    obtain ⟨jt', found', uid⟩ := first.types id jt found
    obtain ⟨jt'', found'', uid'⟩ := second.types id jt' found'
    exact ⟨jt'', found'', uid'.trans uid⟩
  events id e found := by
    obtain ⟨e', found', uid⟩ := first.events id e found
    obtain ⟨e'', found'', uid'⟩ := second.events id e' found'
    exact ⟨e'', found'', uid'.trans uid⟩

theorem find_of_prefix {α κ : Type} {f : α → κ} {l l' : List α} (names : l.map f <+: l'.map f)
    (p : κ → Bool) {a : α}
    (found : l.find? (fun a => p (f a)) = some a) : ∃ a', l'.find? (fun a => p (f a)) =
    some a' ∧ f a' = f a := by
  have both (l : List α) : (l.find? fun a => p (f a)).map f = (l.map f).find? p := by
    rw [List.find?_map]
    rfl
  obtain ⟨more, same⟩ := names
  have again : (l'.find? fun a => p (f a)).map f = some (f a) := by
    rw [both, ← same, List.find?_append, ← both, found]
    rfl
  exact Option.map_eq_some_iff.mp again

section

variable {env : Env} {s s' : Store} {input : JournalInput} {effectiveAt : Instant}
  {auth : JournalAuth} {g : Gated}
  {row : JournalRow} {rows : List EntryRow}

theorem Fresh.later (fresh : Fresh env s input effectiveAt auth g row rows s') (wired : Wired s) :
    Later s s' := by
  obtain ⟨currencies, classes, types⟩ := fresh.catalog_eq
  refine ⟨?_, ?_, ?_, ?_, ?_, ?_, ?_, fun id e found => ?_⟩
  · intro key j found
    rw [fresh.journals_eq, List.find?_append, found]
    rfl
  · intro id j found
    rw [Store.getJournalByID, fresh.journals_eq, List.find?_append]
    exact Option.or_eq_some_iff.mpr (.inl found)
  · intro j member
    rw [fresh.journals_eq]
    exact List.mem_append_left _ member
  · intro j member
    have below := wired.ids j member
    rw [fresh.listJournalEntries_eq, if_neg (by rw [fresh.row_id]; omega), List.append_nil]
  · intro uid cur found
    exact ⟨cur, by rwa [Store.currencyByUIDOrErr, currencies], rfl⟩
  · intro uid cls found
    exact ⟨cls, by rwa [Store.classByUIDOrErr, classes], rfl⟩
  · intro id jt found
    exact ⟨jt, by rwa [Store.jtByIDOrErr, types], rfl⟩
  · have names : s.events.map (fun e => (e.id, e.uid)) <+: s'.events.map fun e =>
      (e.id, e.uid) := by rw [fresh.events]
    obtain ⟨e', found', same⟩ := find_of_prefix names (fun names => names.1 == id) found
    exact ⟨e', found', congrArg Prod.snd same⟩

end

theorem journalFromRow_later {s s' : Store} (later : Later s s') {row : JournalRow} {j : Journal}
    (read : journalFromRow s row = .ok j) : journalFromRow s' row = .ok j := by
  simp only [journalFromRow, bind_eq_ok, pure_eq_ok] at read ⊢
  obtain ⟨jt, type_, reversal, link, event, origin, rfl⟩ := read
  obtain ⟨jt', type', uid⟩ := later.types _ jt type_
  refine ⟨jt', type', reversal, ?_, event, ?_, by rw [uid]⟩
  · unfold reversalOfUID at link ⊢
    split at link
    · next none_ => exact link
    · next id some_ =>
      simp only [bind_eq_ok, orError_eq_ok, pure_eq_ok] at link ⊢
      obtain ⟨original, found, printed⟩ := link
      exact ⟨original, later.journals id original found, printed⟩
  · unfold eventUID at origin ⊢
    split at origin
    · next none_ => exact origin
    · next id some_ =>
      simp only [bind_eq_ok, orError_eq_ok, pure_eq_ok] at origin ⊢
      obtain ⟨e, found, printed⟩ := origin
      obtain ⟨e', found', uid'⟩ := later.events id e found
      exact ⟨e', found', by rw [uid', printed]⟩

theorem inputFingerprint_later {s s' : Store} (later : Later s s') {e : EntryInput}
    {f : EntryFingerprint}
    (known : inputFingerprint s e = .ok f) : inputFingerprint s' e = .ok f := by
  simp only [inputFingerprint, bind_eq_ok, pure_eq_ok] at known ⊢
  obtain ⟨cur, currency, cls, class_, rfl⟩ := known
  obtain ⟨cur', currency', id⟩ := later.currencies _ cur currency
  obtain ⟨cls', class', id'⟩ := later.classifications _ cls class_
  exact ⟨cur', currency', cls', class', by rw [id, id']⟩

end Ledger.Postgres
