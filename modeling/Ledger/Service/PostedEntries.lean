import Ledger.Service.RollupSoundness

namespace Ledger.Service

open Core Postgres Shared

structure Known (s : System) : Prop where
  committed : ∀ e ∈ s.db.entries, (s.db.getClassification e.dim.classification).isSome = true
  written : ∀ t post, s.posts t = some post → ∀ e ∈ post.written,
    (s.db.getClassification e.dim.classification).isSome = true

variable {db db' : LedgerTables} {s s' : System}

theorem KeepsSides.known (keeps : KeepsSides db db') {id : Nat}
    (known : (db.getClassification id).isSome = true) :
    (db'.getClassification id).isSome = true := by
  obtain ⟨row, found⟩ := Option.isSome_iff_exists.mp known
  obtain ⟨row', found', -⟩ := keeps id row found
  rw [found']
  rfl

theorem step_written (step : Step s s') {t : Nat} {post' : Posting}
    (running : s'.posts t = some post') {e : EntryRow}
    (member : e ∈ post'.written) : (∃ post, s.posts t = some post ∧ e ∈ post.written) ∨
      (s.db.getClassification e.dim.classification).isSome = true := by
  have moved {u : Nat} {post new : Posting} (before : s.posts u = some post)
      (after : Function.update s.posts u (some new) t = some post') (same : new.written = post.written) :
      ∃ post, s.posts t = some post ∧ e ∈ post.written := by
    by_cases own : t = u
    · subst own
      rw [Function.update_self, Option.some.injEq] at after
      exact ⟨post, before, by rw [← same, after]; exact member⟩
    · rw [Function.update_of_ne own] at after
      exact ⟨post', after, member⟩
  cases step with
  | start u journals unused unlocked =>
    left
    by_cases own : t = u
    · subst own
      have same : _ = some post' := running
      simp only [System.setPost, Function.update_self, Option.some.injEq] at same
      rw [← same] at member
      cases member
    · exact ⟨post', by simpa [System.setPost, own] using running, member⟩
  | nextJournal u post journal drafts rest before todo locked inserted =>
    exact .inl (moved before running rfl)
  | lock u post p rest before todo free => exact .inl (moved before running rfl)
  | insert u post draft rest before locked todo positive known =>
    by_cases own : t = u
    · subst own
      have same : _ = some post' := running
      simp only [System.setPost, Function.update_self, Option.some.injEq] at same
      rw [← same] at member
      rcases List.mem_append.mp member with old | new
      · exact .inl ⟨post, before, old⟩
      · rw [List.mem_singleton.mp new]
        exact .inr known
    · exact .inl ⟨post', by simpa [System.setPost, own] using running, member⟩
  | commit u post before posted locked inserted =>
    left
    by_cases own : t = u
    · subst own
      simp [System.setPost] at running
    · exact ⟨post', by simpa [System.setPost, System.dropLocks, own] using running, member⟩
  | rollback u post before =>
    left
    by_cases own : t = u
    · subst own
      simp [System.setPost] at running
    · exact ⟨post', by simpa [System.setPost, System.dropLocks, own] using running, member⟩
  | _ => exact .inl ⟨post', running, member⟩

theorem Known.step (known : Known s) (inv : Inv s) (step : Step s s') : Known s' := by
  have keeps := (step_grows inv step).1.sides
  constructor
  · intro e member
    apply keeps.known
    rcases step_entries step with same | ⟨t, post, running, appended⟩
    · exact known.committed e (same ▸ member)
    · rw [appended, List.mem_append] at member
      exact member.elim (known.committed e) (known.written t post running e)
  · intro t post' running e member
    apply keeps.known
    rcases step_written step running member with ⟨post, before, member⟩ | known
    · exact known.written t post before e member
    · exact known

theorem Known.initial (initial : Initial s) : Known s where
  committed e member := by simp [initial.entries] at member
  written t post running := by simp [initial.posts] at running

theorem step_posts_entries (step : Step s s') (posts : s'.posts = s.posts) :
    s'.db.entries = s.db.entries := by
  cases step with
  | commit t post running posted locked inserted =>
    have gone := congrFun posts t
    rw [running] at gone
    simp [System.setPost] at gone
  | advance w => exact (advance_tables s.db s.now (s.workers w)).1
  | _ => rfl

theorem dimEntries_congr (same : db'.entries = db.entries) (dim : Dimension) :
    db'.dimEntries dim = db.dimEntries dim := by
  rw [LedgerTables.dimEntries, same, LedgerTables.dimEntries]

end Ledger.Service
