import Ledger.Service.RescanJobs
import Ledger.Service.SweepFees

namespace Ledger.Service

open Chains Core Postgres Shared Sweep

section

variable {α : Type} {serves : SweepWorld → (c : SweepRequest) → c.Answer → SweepWorld → Prop}
  {ok : α → SweepWorld → Prop} {err : Error → SweepWorld → Prop}
    {crash : SweepWorld → Prop} {w : SweepWorld}
  {c : SweepRequest}

theorem tries_call {ok : c.Answer → SweepWorld → Prop} :
    Tries serves (call c) ok err crash w ↔ crash w ∧ ∀ ans w', serves w c ans w' →
    ok ans w' ∧ crash w' := Iff.rfl

theorem tries_try {answer : c.Answer → Result α} : Tries serves (try_ c answer) ok err crash w ↔
    crash w ∧ ∀ ans w', serves w c ans w' →
      ((∀ a, answer ans = .ok a → ok a w') ∧ ∀ e, answer ans = .error e → err e w') ∧ crash w' := by
  rw [try_, tries_mk]
  refine and_congr Iff.rfl (forall_congr' fun ans => forall_congr' fun w' =>
    forall_congr' fun _ => ?_)
  rw [Safe]
  cases answer ans <;> simp

theorem tries_ofResult {r : Result α} :
    Tries serves (ofResult r) ok err crash w ↔
    ((∀ a, r = .ok a → ok a w) ∧ ∀ e, r = .error e → err e w) ∧ crash w := by
  rw [ofResult, tries_mk, Safe]
  cases r <;> simp

theorem tries_context {text : String} {t : Sweep α}
    (tries : Tries serves t ok (fun e => err (e.wrap text)) crash w) :
    Tries serves (context text t) ok err crash w := by
  have unfolded : (context text t).run = t.run >>= fun r => .done (within text r) := rfl
  rw [Tries, unfolded, safe_bind]
  refine Safe.mono tries (fun _ => id) fun r w' held tail => ?_
  cases r with
  | ok a | error e => exact ⟨tail, held⟩

end

structure Still (w w' : SweepWorld) : Prop where
  bookings : w'.base.bookings = w.base.bookings
  node : w'.node = w.node

theorem Still.refl (w : SweepWorld) : Still w w := ⟨rfl, rfl⟩

theorem Still.trans {a b c : SweepWorld} (first : Still a b) (second : Still b c) : Still a c :=
  ⟨second.bookings.trans first.bookings, second.node.trans first.node⟩

def SweepRequest.isQuiet : SweepRequest → Bool
  | .port c => !c.isWrite
  | .sendTransaction _ => false
  | _ => true

variable {c : SweepRequest}

theorem still_of_quiet {cfg : SweepConfig} {w w' : SweepWorld} {ans : c.Answer}
    (quiet : c.isQuiet = true)
    (served : SweepServes cfg w c ans w') : Still w w' := by
  cases c with
  | port c =>
    obtain ⟨base, answered, rfl⟩ := served
    have reads : c.isWrite = false := by simpa [SweepRequest.isQuiet] using quiet
    refine ⟨?_, rfl⟩
    cases answered.written with
    | nothing | counted | queued => rfl
    | created | moved | posted | registered | buried | scanned => cases reads
  | sendTransaction b => cases quiet
  | listBookings | pendingNonceAt | currentSweepTx | sweepWaited | sweepBumpCount | lastFee =>
    rw [served.1]
    exact .refl w
  | markSweepBroadcast uid =>
    obtain ⟨now, rfl⟩ := served
    exact ⟨rfl, rfl⟩
  | _ =>
    obtain rfl := served
    exact ⟨rfl, rfl⟩

instance : IsPreorder SweepWorld Still where
  refl := .refl
  trans _ _ _ := .trans

def SweepRequest.isRead : SweepRequest → Bool
  | .port c => !c.isWrite
  | .listBookings .. | .scanBalances .. | .suggestGasTipCap _ | .headerBaseFee _
  | .transactionByHash .. | .pendingNonceAt _
  | .estimateGas _ | .signTx _ | .currentSweepTx _ | .sweepWaited _ | .sweepBumpCount _ | .lastFee .. => true
  | _ => false

theorem SweepRequest.isQuiet_of_isRead (reads : c.isRead = true) : c.isQuiet = true := by
  cases c with
  | port c => exact reads
  | sendTransaction b => cases reads
  | _ => rfl

def Reads (serves : SweepWorld → (c : SweepRequest) → c.Answer → SweepWorld → Prop)
    (R : SweepWorld → SweepWorld → Prop) : Prop :=
  ∀ c : SweepRequest, c.isRead = true → ∀ w ans w', serves w c ans w' → R w w'

theorem reads_still (cfg : SweepConfig) : Reads (SweepServes cfg) Still :=
  fun _ reads _ _ _ served => still_of_quiet (SweepRequest.isQuiet_of_isRead reads) served

section

variable {α β : Type} {serves : SweepWorld → (c : SweepRequest) → c.Answer → SweepWorld → Prop}
  {R : SweepWorld → SweepWorld → Prop} {t : Sweep α} {text : String}

theorem keeps_thenIn {f : α → Sweep β} {ok : β → SweepWorld → Prop}
    {err : Error → SweepWorld → Prop} {crash : SweepWorld → Prop}
    {w : SweepWorld} (keeps : Keeps serves R t) (anywhere : ∀ w', R w w' → crash w')
    (fails : ∀ (e : Error) w', R w w' → err (e.wrap text) w')
    (rest : ∀ a w', R w w' → Tries serves (f a) ok err crash w') :
    Tries serves (context text t >>= f) ok err crash w :=
  tries_bind.mpr (tries_context ((keeps w).mono anywhere (fun a w' _ => rest a w')
    fun e w' _ => fails e w'))

theorem keeps_context (keeps : Keeps serves R t) : Keeps serves R (context text t) := fun w =>
    tries_context (keeps w)

variable [IsPreorder SweepWorld R] {c : SweepRequest}

theorem keeps_call (across : ∀ w ans w', serves w c ans w' → R w w') : Keeps serves R (call c) := by
  intro w
  exact tries_call.mpr ⟨refl_of R w, fun ans w' served =>
    ⟨across w ans w' served, across w ans w' served⟩⟩

theorem keeps_try {answer : c.Answer → Result α} (across : ∀ w ans w', serves w c ans w' → R w w') :
    Keeps serves R (try_ c answer) := by
  intro w
  refine tries_try.mpr ⟨refl_of R w, fun ans w' served => ?_⟩
  have related := across w ans w' served
  exact ⟨⟨fun _ _ => related, fun _ _ => related⟩, related⟩

theorem keeps_ofResult (r : Result α) : Keeps serves R (ofResult r) :=
  fun w => tries_ofResult.mpr ⟨⟨fun _ _ => refl_of R w, fun _ _ => refl_of R w⟩, refl_of R w⟩

section

variable (reads : Reads serves R)
include reads

variable (chainID : Int)

theorem keeps_suggestGasTipCap : Keeps serves R (suggestGasTipCap chainID) :=
  keeps_try (reads _ rfl)

theorem keeps_headerBaseFee : Keeps serves R (headerBaseFee chainID) := keeps_try (reads _ rfl)

theorem keeps_gasPrice : Keeps serves R (gasPrice chainID) :=
  keeps_bind (keeps_context (keeps_suggestGasTipCap reads chainID)) fun _ =>
    keeps_bind (keeps_context (keeps_headerBaseFee reads chainID)) fun _ => keeps_pure _

theorem keeps_priorFeeFloor (nonce : Nat) (prior : GoString) :
    Keeps serves R (priorFeeFloor chainID nonce prior) := by
  unfold priorFeeFloor
  split
  · exact keeps_call (reads _ rfl)
  · refine keeps_bind (keeps_call (reads _ rfl)) fun found => ?_
    cases found with
    | some fee => exact keeps_pure _
    | none => exact keeps_call (reads _ rfl)

theorem keeps_quoteFee (nonce : Nat) (prior : GoString) :
    Keeps serves R (quoteFee chainID nonce prior) :=
  keeps_bind (keeps_context (keeps_suggestGasTipCap reads chainID)) fun _ =>
    keeps_bind (keeps_context (keeps_headerBaseFee reads chainID)) fun _ =>
      keeps_bind (keeps_priorFeeFloor reads chainID nonce prior) fun _ => keeps_pure _

theorem keeps_replacementGasPrice (nonce : Nat) (prior : GoString) :
    Keeps serves R (replacementGasPrice chainID nonce prior) :=
  keeps_bind (keeps_quoteFee reads chainID nonce prior) fun _ => keeps_pure _

theorem keeps_sweepTargets (addrs : List GoString) : Keeps serves R (sweepTargets addrs) := by
  induction addrs with
  | nil => exact keeps_pure _
  | cons addr rest ih =>
    exact keeps_bind (keeps_context (keeps_try (reads _ rfl))) fun _ =>
    keeps_bind ih fun _ => keeps_pure _

end

end

section

variable {β : Type} {cfg : SweepConfig} {c : SweepRequest}
  {err : Error → SweepWorld → Prop} {w : SweepWorld}
  {crash : SweepWorld → Prop}

theorem call_then (quiet : c.isQuiet = true) {f : c.Answer → Sweep β} {ok : β → SweepWorld → Prop}
    (anywhere : ∀ w', Still w w' → crash w')
    (rest : ∀ ans w', SweepServes cfg w c ans w' → Still w w' →
      Tries (SweepServes cfg) (f ans) ok err crash w') :
    Tries (SweepServes cfg) (call c >>= f) ok err crash w := by
  refine tries_bind.mpr (tries_call.mpr ⟨anywhere w (.refl w), fun ans w' served => ?_⟩)
  have still := still_of_quiet quiet served
  exact ⟨rest ans w' served still, anywhere w' still⟩

theorem call_last (quiet : c.isQuiet = true) {ok : c.Answer → SweepWorld → Prop}
    (anywhere : ∀ w', Still w w' → crash w')
    (rest : ∀ ans w', Still w w' → ok ans w') :
    Tries (SweepServes cfg) (call c) ok err crash w := by
  refine tries_call.mpr ⟨anywhere w (.refl w), fun ans w' served => ?_⟩
  have still := still_of_quiet quiet served
  exact ⟨rest ans w' still, anywhere w' still⟩

end

structure UniqueClasses (s : Store) : Prop where
  ids : (s.ledger.classifications.map (·.id)).Nodup
  uids : (s.ledger.classifications.map (·.uid)).Nodup
  codes : (s.ledger.classifications.map (·.code)).Nodup

def IsSweep (s : Store) (row : BookingRow) : Prop :=
  ∃ cls, s.ledger.getClassification row.classificationID = some cls ∧ cls.code =
    sweepClassificationCode

def ForToken (chainID : Int) (token : GoString) (m : Metadata) : Prop :=
  m.get (lit "chain_id") = some (intText chainID) ∧ m.get (lit "token") = some token

structure ReadAs (row : BookingRow) (b : Booking) : Prop where
  uid : b.uid = pgToUID row.uid
  status : b.status = row.status
  channelRef : b.channelRef = row.channelRef
  metadata : b.metadata = row.metadata

theorem readAs_of_ok {s : BookingTables} {row : BookingRow} {b : Booking}
    (ok : bookingFromRow s row = .ok b) : ReadAs row b := by
  simp only [bookingFromRow, bind_eq_ok, pure_eq_ok] at ok
  obtain ⟨_, -, _, -, _, -, _, -, rfl⟩ := ok
  exact ⟨rfl, rfl, rfl, rfl⟩

section

variable {cfg : SweepConfig} {s : BookingTables} {cls : ClassificationRow}

theorem getClassification_mem (classes : UniqueClasses s.store)
    (member : cls ∈ s.store.ledger.classifications) :
    s.store.ledger.getClassification cls.id = some cls := by
  cases found : s.store.ledger.getClassification cls.id with
  | none =>
    have absent := List.find?_eq_none.mp found cls member
    simp at absent
  | some other =>
    have same : other.id = cls.id := by simpa using List.find?_some found
    rw [List.inj_on_of_nodup_map classes.ids (List.mem_of_find?_eq_some found) member same]

theorem isSweep_iff (classes : UniqueClasses s.store)
    (member : cls ∈ s.store.ledger.classifications)
    (code : cls.code = sweepClassificationCode) {row : BookingRow} : IsSweep s.store row ↔
    row.classificationID = cls.id := by
  constructor
  · rintro ⟨other, found, otherCode⟩
    have id : other.id = row.classificationID := by simpa using List.find?_some found
    have same : other.code = cls.code := by rw [otherCode, code]
    rw [← id, List.inj_on_of_nodup_map classes.codes (List.mem_of_find?_eq_some found) member same]
  · intro same
    exact ⟨cls, by rw [same, getClassification_mem classes member], code⟩

/-- What is found first comes from a row before every other row that would have been found. -/
theorem forall₂_find {α β : Type} {R : α → β → Prop} {l : List α} {m : List β}
    (related : List.Forall₂ R l m) {q : β → Bool} {b : β} (first : m.find? q = some b)
    {le : α → α → Prop} (sorted : l.Pairwise le) (refl : ∀ a, le a a) :
    ∃ a ∈ l, R a b ∧ ∀ a' ∈ l, (∀ b', R a' b' → q b' = true) → le a a' := by
  induction related with
  | nil => cases first
  | @cons a b₀ _ _ head _ ih =>
    obtain ⟨below, sorted⟩ := List.pairwise_cons.mp sorted
    cases holds : q b₀ with
    | true =>
      rw [List.find?_cons_of_pos holds, Option.some.injEq] at first
      subst first
      refine ⟨a, List.mem_cons_self, head, fun a' member _ => ?_⟩
      rcases List.mem_cons.mp member with rfl | later
      · exact refl a'
      · exact below a' later
    | false =>
      rw [List.find?_cons_of_neg (by simp [holds])] at first
      obtain ⟨a₁, member, related, least⟩ := ih first sorted
      refine ⟨a₁, List.mem_cons_of_mem _ member, related, fun a' member' matches_ => ?_⟩
      rcases List.mem_cons.mp member' with rfl | later
      · rw [matches_ _ head] at holds
        cases holds
      · exact least a' later matches_

/-- No sweep for the token with the row's status has a lower id. -/
def FirstOf (s : BookingTables) (chainID : Int) (token : GoString) (row : BookingRow) : Prop :=
  ∀ other ∈ s.store.bookings, IsSweep s.store other → other.status = row.status →
    ForToken chainID token other.metadata → row.id ≤ other.id

def named (chainID : Int) (token : GoString) (b : Booking) : Bool :=
  b.metadata.get (lit "chain_id") = some (intText chainID) && b.metadata.get
    (lit "token") = some token

theorem named_iff {chainID : Int} {token : GoString} {b : Booking} :
    named chainID token b = true ↔ ForToken chainID token b.metadata := by
  simp [named, ForToken]

theorem sweepBookings_ok (classes : UniqueClasses s.store)
    (member : cls ∈ s.store.ledger.classifications)
    (code : cls.code = sweepClassificationCode) {status : Status} {bookings : List Booking}
    (ok : sweepBookings s (pgToUID cls.uid) status = .ok bookings) (chainID : Int)
    (token : GoString) :
    (∀ b, bookings.find? (named chainID token) = some b → ∃ row ∈ s.store.bookings,
      IsSweep s.store row ∧ row.status = status ∧ ForToken chainID token row.metadata ∧
        bookingFromRow s row = .ok b ∧ FirstOf s chainID token row) ∧
      ∀ row ∈ s.store.bookings, IsSweep s.store row → row.status = status →
        ∃ b ∈ bookings, bookingFromRow s row = .ok b := by
  simp only [sweepBookings, bind_eq_ok, Store.classByUIDOrErr, orError_eq_ok, collect_eq_ok] at ok
  obtain ⟨found, lookup, _, -, read⟩ := ok
  have uid : found.uid = cls.uid := pgToUID_injective (by simpa using List.find?_some lookup)
  have same : found = cls := List.inj_on_of_nodup_map classes.uids
    (List.mem_of_find?_eq_some lookup) member uid
  have listed : ∀ row, row ∈
    (s.store.bookings.filter fun row => row.classificationID == found.id && row.status ==
      status).insertionSort
      (fun a b => a.id ≤ b.id) ↔ row ∈ s.store.bookings ∧ IsSweep s.store row ∧ row.status = status := by
    intro row
    rw [List.mem_insertionSort, List.mem_filter, same, isSweep_iff classes member code,
      Bool.and_eq_true, beq_iff_eq, beq_iff_eq]
  constructor
  · intro b first
    obtain ⟨row, selected, ok, least⟩ := forall₂_find read first
      (List.pairwise_insertionSort (fun a b : BookingRow => a.id ≤ b.id) _) fun _ => le_rfl
    obtain ⟨stored, sweep, status⟩ := (listed row).mp selected
    have matches_ := named_iff.mp (List.find?_some first)
    rw [(readAs_of_ok ok).metadata] at matches_
    refine ⟨row, stored, sweep, status, matches_, ok, fun other stored' sweep' status' matches' => ?_⟩
    refine least other ((listed other).mpr ⟨stored', sweep', status'.trans status⟩) fun b' ok' => ?_
    rw [named_iff, (readAs_of_ok ok').metadata]
    exact matches'
  · intro row stored sweep status
    obtain ⟨b, inside, ok⟩ := forall₂_of_mem_right (List.Forall₂.flip read)
      ((listed row).mpr ⟨stored, sweep, status⟩)
    exact ⟨b, inside, ok⟩

def Searched (s : BookingTables) (chainID : Int) (token : GoString) (statuses : List Status) :
    Option Booking → Prop
  | some b =>
    ∃ row ∈ s.store.bookings, IsSweep s.store row ∧ row.status ∈ statuses ∧ ForToken chainID token row.metadata ∧
      bookingFromRow s row = .ok b ∧ FirstOf s chainID token row
  | none => ∀ row ∈ s.store.bookings, IsSweep s.store row → row.status ∈ statuses → ¬ForToken chainID token row.metadata

def refusalHead : List Char := ['s', 'w', 'e', 'e', 'p', ':', ' ', 'b', 'o']

theorem take_orphanedBroadcast : orphanedBroadcast.text.toList.take 9 =
    refusalHead := by decide +kernel

theorem wrap_ne_orphaned {text : String} {e : Error}
    (differs : 9 ≤ text.toList.length ∧ text.toList.take 9 ≠ refusalHead) :
    e.wrap text ≠ orphanedBroadcast := by
  intro same
  have texts : (text ++ ": " ++ e.text).toList = orphanedBroadcast.text.toList :=
    congrArg (·.text.toList) same
  have begins : text.toList.take 9 = orphanedBroadcast.text.toList.take 9 := by
    rw [← texts, String.toList_append, String.toList_append, List.append_assoc,
      List.take_append_of_le_length differs.1]
  exact differs.2 (begins.trans take_orphanedBroadcast)

variable {w w' : SweepWorld}

theorem search_tries (chainID : Int) (token : GoString)
    (classes : UniqueClasses w.base.bookings.store)
    (member : cls ∈ w.base.bookings.store.ledger.classifications)
    (code : cls.code = sweepClassificationCode)
    (statuses : List Status) (still : Still w w') :
    Tries (SweepServes cfg) (findSweepBookingByStatus.search chainID token
      (pgToUID cls.uid) statuses)
      (fun found w'' => Still w w'' ∧ Searched w.base.bookings chainID token statuses found)
      (fun e w'' => Still w w'' ∧ e ≠ orphanedBroadcast) (Still w) w' := by
  induction statuses generalizing w' with
  | nil => exact ⟨⟨still, fun _ _ _ absent => absurd absent List.not_mem_nil⟩, still⟩
  | cons status rest ih =>
    refine tries_bind.mpr (tries_context (tries_try.mpr ⟨still, fun ans w₁ served => ?_⟩))
    obtain ⟨rfl, answered⟩ := served
    refine ⟨⟨fun bookings ok => ?_, fun e _ => ⟨still, wrap_ne_orphaned (by decide +kernel)⟩⟩, still⟩
    have listed : sweepBookings w.base.bookings (pgToUID cls.uid) status = .ok bookings := by
      rcases answered with answered | ⟨err, failed⟩
      · rw [← still.bookings, ← answered]
        exact ok
      · rw [failed] at ok
        cases ok
    obtain ⟨sound, complete⟩ := sweepBookings_ok classes member code listed chainID token
    change Tries _ (match bookings.find? (named chainID token) with
      | some booking => return some booking
      | none => findSweepBookingByStatus.search chainID token (pgToUID cls.uid) rest) _ _ _ _
    cases first : bookings.find? (named chainID token) with
    | some b =>
      obtain ⟨row, stored, sweep, is, matches_, read⟩ := sound b first
      exact ⟨⟨still, row, stored, sweep, by rw [is]; exact List.mem_cons_self, matches_, read⟩, still⟩
    | none =>
      refine (ih still).mono (fun _ => id) (fun found w₂ _ searched => ?_) fun _ _ _ => id
      refine ⟨searched.1, ?_⟩
      cases found with
      | some b =>
        obtain ⟨row, stored, sweep, is, more⟩ := searched.2
        exact ⟨row, stored, sweep, List.mem_cons_of_mem _ is, more⟩
      | none =>
        intro row stored sweep is matches_
        rcases List.mem_cons.mp is with here | later
        · obtain ⟨b, inside, read⟩ := complete row stored sweep here
          have absent := List.find?_eq_none.mp first b inside
          rw [named_iff, (readAs_of_ok read).metadata] at absent
          exact absent matches_
        · exact searched.2 row stored sweep later matches_

theorem findSweepBookingByStatus_tries (chainID : Int) (token : GoString)
    (classes : UniqueClasses w.base.bookings.store) (statuses : List Status) (still : Still w w') :
    Tries (SweepServes cfg) (findSweepBookingByStatus chainID token statuses)
      (fun found w'' => Still w w'' ∧ Searched w.base.bookings chainID token statuses found)
      (fun e w'' => Still w w'' ∧ e ≠ orphanedBroadcast) (Still w) w' := by
  refine tries_bind.mpr (tries_context (tries_try.mpr ⟨still, fun ans w₁ served => ?_⟩))
  have still₁ := still.trans (still_of_quiet rfl served)
  refine ⟨⟨fun uid ok => ?_, fun e _ => ⟨still₁, wrap_ne_orphaned (by decide +kernel)⟩⟩, still₁⟩
  obtain ⟨base, answered, -⟩ := served
  rcases answered.answer with ⟨d, answer, -⟩ | ⟨err, refused, -⟩
  · have resolved : (orError (w'.base.bookings.store.ledger.classifications.find?
      (·.code == sweepClassificationCode))
        (⟨.notFound, "service: onchain: resolve classification %q"⟩ : Error)).map (pgToUID ·.uid) =
          .ok uid := answer.symm.trans ok
    obtain ⟨cls, found, rfl⟩ := map_eq_ok.mp resolved
    rw [orError_eq_ok, still.bookings] at found
    exact search_tries chainID token classes (List.mem_of_find?_eq_some found)
      (by simpa using List.find?_some found) statuses still₁
  · have wrong : PortCall.refuse err (.classificationUID sweepClassificationCode) =
      some (.ok uid) := refused.trans (congrArg some ok)
    cases wrong

end

end Ledger.Service
