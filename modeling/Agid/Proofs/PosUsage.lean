import Agid.Proofs.PosLedger

/-!
# Runs of the offline ledger

Every step of a ledger is a step of its first uses, so the first receipt of a nullifier stays
whatever follows, and another receipt flags it.  A reply decides a status from its own events
only: a flag is lost exactly where the last event of a reply for the nullifier is an acceptance.
-/

namespace Agid.PosLedger

variable {platform : Platform}

/-! ## What a ledger keeps -/

def Usage.step (platform : Platform) (u : Usage) : LedgerStep → Usage
  | .record receipt now => u.record (createPosOfflineUsageEntryFromReceipt platform receipt now)
  | .reconcile result _ _ => result.events.foldl (Usage.hearEvent platform) u
  | .build => u
  | .normalize => u

theorem Represents.step {ledger : List Entry} {u : Usage} (h : Represents platform ledger u) :
    ∀ step, Represents platform (ledgerStep platform ledger step) (u.step platform step)
  | .record receipt now => (h.record receipt now).1
  | .reconcile result now clock => h.reconcile result now clock
  | .build => h
  | .normalize => h.normalize

theorem Represents.run : ∀ (steps : List LedgerStep) {ledger : List Entry} {u : Usage},
    Represents platform ledger u →
      Represents platform (steps.foldl (ledgerStep platform) ledger)
        (steps.foldl (Usage.step platform) u)
  | [], _, _, h => h
  | step :: steps, _, _, h => Represents.run steps (h.step step)

theorem Usage.hearEvents_keeps {n first : JsString} : ∀ (events : List SyncEvent) {u : Usage},
    (∃ s, u n = some (first, s)) →
      ∃ s, events.foldl (Usage.hearEvent platform) u n = some (first, s)
  | [], _, h => h
  | _ :: events, _, ⟨_, h⟩ => Usage.hearEvents_keeps events (hear_keeps h _ _)

/-- The first receipt of a nullifier stays. -/
theorem Usage.step_keeps {u : Usage} {n first : JsString} (h : ∃ s, u n = some (first, s)) :
    ∀ step, ∃ s, u.step platform step n = some (first, s)
  | .record receipt now => by
    obtain ⟨s, hs⟩ := h
    rcases hentry : createPosOfflineUsageEntryFromReceipt platform receipt now with _ | entry
    · exact ⟨s, by rw [Usage.step, hentry]; exact hs⟩
    · obtain ⟨s', hs'⟩ := use_keeps hs entry.nullifier entry.receiptId
      exact ⟨s', by rw [Usage.step, hentry]; exact hs'⟩
  | .reconcile result _ _ => Usage.hearEvents_keeps result.events h
  | .build => h
  | .normalize => h

theorem Usage.run_keeps {n first : JsString} : ∀ (steps : List LedgerStep) {u : Usage},
    (∃ s, u n = some (first, s)) → ∃ s, steps.foldl (Usage.step platform) u n = some (first, s)
  | [], _, h => h
  | step :: steps, _, h => Usage.run_keeps steps (Usage.step_keeps h step)

theorem keepsFirst (platform : Platform) (steps : List LedgerStep) :
    KeepsFirst platform steps := by
  have hrun : Represents platform (ledgerRun platform steps) _ := represents_nil.run steps
  set u := steps.foldl (Usage.step platform) fun _ => none with hu
  have hnext : ∀ more, Represents platform (ledgerRun platform (steps ++ more))
      (more.foldl (Usage.step platform) u) := fun more => by
    rw [hu, ← List.foldl_append]
    exact represents_nil.run _
  have hold : ∀ e ∈ ledgerRun platform steps,
      u e.nullifier = some (e.receiptId, e.syncStatus) := fun e he =>
    (hrun.tells _ _ _).2 ⟨e, he, rfl, rfl, rfl⟩
  refine ⟨hrun.once, fun e he more => ?_, fun receipt now entry hentry hnew => ?_,
    fun receipt now entry hentry e he hn hr => ?_⟩
  · obtain ⟨s, hs⟩ := Usage.run_keeps more ⟨_, hold e he⟩
    obtain ⟨e', he', hn, hr, -⟩ := ((hnext more).tells _ _ _).1 hs
    exact ⟨e', he', hn, hr⟩
  · have hnone : u entry.nullifier = none := hrun.none_iff.2 hnew
    have hstored := Usage.use_self_of_none hnone entry.receiptId
    obtain ⟨e', he', hn, hr, -⟩ := ((hnext [.record receipt now]).tells _ _ _).1 (by
      rw [List.foldl_cons, List.foldl_nil, Usage.step, hentry]
      exact hstored)
    exact ⟨e', he', hn, hr⟩
  · have hflag := Usage.use_self_of_ne (hold e he) hr
    exact ((hnext [.record receipt now]).tells _ _ _).1 (by
      rw [List.foldl_cons, List.foldl_nil, Usage.step, hentry, Usage.record, ← hn]
      exact hflag)

/-! ## What a reply hides -/

/-- The till's ledger has its first uses, with every nullifier it has met twice. -/
structure TillOf (platform : Platform) (till : Till) (u : Usage) : Prop where
  ledger : Represents platform till.entries u
  known : ∀ n ∈ till.doubled, ∃ first s, u n = some (first, s)

theorem TillOf.hides_iff {till : Till} {u : Usage} (h : TillOf platform till u) :
    NeverHidden till ↔ ∀ n ∈ till.doubled, ∀ first, u n ≠ some (first, .synced) := by
  constructor
  · intro hnever n hn first hu
    obtain ⟨e, he, rfl, -, hs⟩ := (h.ledger.tells _ _ _).1 hu
    exact hnever e he hn hs
  · intro hnever e he hn hs
    exact hnever _ hn e.receiptId (hs ▸ (h.ledger.tells _ _ _).2 ⟨e, he, rfl, rfl, rfl⟩)

theorem mem_doubled_record {till : Till} {u : Usage} (h : TillOf platform till u)
    (receipt : Receipt) (now : Option JsString) {n : JsString} :
    n ∈ (tillStep platform till (.record receipt now)).doubled ↔ n ∈ till.doubled ∨
      ∃ entry, createPosOfflineUsageEntryFromReceipt platform receipt now = some entry ∧
        entry.nullifier = n ∧ ∃ first s, u n = some (first, s) ∧ first ≠ entry.receiptId := by
  rw [← (h.ledger.record receipt now).2 n]
  simp only [tillStep]
  split_ifs with hc <;> simp [hc, Option.mem_toList]

theorem TillOf.step {till : Till} {u : Usage} (h : TillOf platform till u) (step : LedgerStep) :
    TillOf platform (tillStep platform till step) (u.step platform step) := by
  refine ⟨h.ledger.step step, fun n hn => ?_⟩
  have hknown : ∃ first s, u n = some (first, s) := by
    cases step with
    | record receipt now =>
      rcases (mem_doubled_record h receipt now).1 hn with hn | ⟨_, -, -, first, s, hs, -⟩
      · exact h.known n hn
      · exact ⟨first, s, hs⟩
    | _ => exact h.known n hn
  obtain ⟨first, hs⟩ := hknown
  exact ⟨first, Usage.step_keeps hs step⟩

theorem TillOf.run : ∀ (steps : List LedgerStep) {till : Till} {u : Usage},
    TillOf platform till u →
      TillOf platform (steps.foldl (tillStep platform) till) (steps.foldl (Usage.step platform) u)
  | [], _, _, h => h
  | step :: steps, _, _, h => TillOf.run steps (h.step step)

theorem tillOf_nil : TillOf platform ⟨[], []⟩ fun _ => none :=
  ⟨represents_nil, by simp⟩

/-- Recording hides nothing: a second receipt sets the flag, and the others change no status. -/
theorem neverHidden_record {till : Till} {u : Usage} (h : TillOf platform till u)
    (hnever : NeverHidden till) (receipt : Receipt) (now : Option JsString) :
    NeverHidden (tillStep platform till (.record receipt now)) := by
  rw [(h.step _).hides_iff]
  intro n hn first hu
  rw [mem_doubled_record h] at hn
  rw [h.hides_iff] at hnever
  simp only [Usage.step] at hu
  rcases hentry : createPosOfflineUsageEntryFromReceipt platform receipt now with _ | entry
  · rw [hentry] at hu
    rcases hn with hn | ⟨_, hsome, -⟩
    · exact hnever n hn first hu
    · cases hentry.symm.trans hsome
  · rw [hentry, Usage.record, Usage.use] at hu
    by_cases hne : n = entry.nullifier
    · subst hne
      rw [Function.update_self] at hu
      rcases hold : u entry.nullifier with _ | ⟨first', s⟩ <;> rw [hold] at hu
      · cases hu
      · simp only [Option.some.injEq, Prod.mk.injEq] at hu
        obtain ⟨rfl, hs⟩ := hu
        split_ifs at hs with hr
        subst hs
        rcases hn with hn | ⟨_, hsome, -, f, t, hf, hfr⟩
        · exact hnever _ hn _ hold
        · cases hentry.symm.trans hsome
          cases hold.symm.trans hf
          exact hfr hr
    · rw [Function.update_of_ne hne] at hu
      rcases hn with hn | ⟨_, hsome, rfl, -⟩
      · exact hnever n hn first hu
      · cases hentry.symm.trans hsome
        exact hne rfl

theorem neverHidden_reconcile {till : Till} {u : Usage} (h : TillOf platform till u)
    (hnever : NeverHidden till) (result : SyncResult) (now : Option JsString) (clock : ℤ) :
    NeverHidden (tillStep platform till (.reconcile result now clock))
      ↔ HeedsDoubles platform till (.reconcile result now clock) := by
  rw [(h.step _).hides_iff]
  rw [h.hides_iff] at hnever
  refine forall₂_congr fun n hn => ?_
  obtain ⟨first, s, hs⟩ := h.known n hn
  rw [Usage.step, hearEvents_apply]
  generalize (result.events.filter fun event =>
      cleanNullifier platform (some event.nullifier) = n).getLast? = last
  rcases last with _ | event
  · exact iff_of_true (hnever n hn) (by simp)
  · rw [hs]
    rcases event with ⟨_, _, _, _, _, _, _, _ | _ | _⟩ <;> simp

theorem neverHidden_step {till : Till} {u : Usage} (h : TillOf platform till u)
    (hnever : NeverHidden till) : ∀ step,
      NeverHidden (tillStep platform till step) ↔ HeedsDoubles platform till step
  | .record receipt now => iff_of_true (neverHidden_record h hnever receipt now) trivial
  | .reconcile result now clock => neverHidden_reconcile h hnever result now clock
  | .build => iff_of_true hnever trivial
  | .normalize => by
    refine iff_of_true ?_ trivial
    rw [(h.step .normalize).hides_iff]
    exact h.hides_iff.1 hnever

theorem tillRun_succ {steps : List LedgerStep} {k : ℕ} {step : LedgerStep}
    (h : steps[k]? = some step) :
    tillRun platform (steps.take (k + 1))
      = tillStep platform (tillRun platform (steps.take k)) step := by
  simp only [tillRun]
  rw [List.take_add_one, h, Option.toList_some, List.foldl_append]
  rfl

theorem neverHidden_iff (platform : Platform) (steps : List LedgerStep) :
    (∀ k, NeverHidden (tillRun platform (steps.take k))) ↔
      ∀ k step, steps[k]? = some step →
        HeedsDoubles platform (tillRun platform (steps.take k)) step := by
  have hinv : ∀ k, TillOf platform (tillRun platform (steps.take k)) _ := fun k =>
    tillOf_nil.run (steps.take k)
  constructor
  · intro hnever k step hstep
    rw [← neverHidden_step (hinv k) (hnever k), ← tillRun_succ hstep]
    exact hnever (k + 1)
  · intro hheeds k
    induction k with
    | zero =>
      intro e he
      cases he
    | succ k ih =>
      rcases hstep : steps[k]? with _ | step
      · rw [List.take_add_one, hstep, Option.toList_none, List.append_nil]
        exact ih
      · rw [tillRun_succ hstep, neverHidden_step (hinv k) ih]
        exact hheeds k step hstep

/-! ## A reply that hides a second receipt -/

/-- Its `digest` is all zeros: the ids are not compared. -/
def samplePlatform : Platform where
  toUpperCase s := s.map fun c => if 97 ≤ c.val ∧ c.val ≤ 122 then c - 32 else c
  dates := .ofTable ⟨[(0, js "1970-01-01T00:00:00.000Z"),
    (1750000000000, js "2025-06-15T15:06:40.000Z")], by decide⟩ (by decide) (by decide)
  digest _ := List.replicate 24 48
  toUpperCase_of_upper s h := by
    exact (List.map_congr_left fun c hc => if_neg (h c hc).2).trans (List.map_id s)

/-- A receipt for the label with the nullifier `SLN-0000000000000000`. -/
def sampleReceipt (hashSeed : JsString) : Receipt where
  hashSeed := hashSeed
  accepted := true
  terminalId := js "T1"
  operatorId := none
  createdAt := js "2025-06-15T15:06:40.000Z"
  shippingLabel := some {
    recipientScan := true
    recipientControlVerified := true
    nullifier := js "SLN-0000000000000000"
    waybillId := js "W1"
    waybillCommitment := none
    addressReferenceCommitment := none
    jti := js "J1" }

/-- The reply to a batch with every item accepted. -/
def acceptAll (items : List SyncItem) : SyncResult where
  accepted := items.length
  rejected := 0
  conflicts := 0
  auditRequired := 0
  events := items.map fun item =>
    buildPosOfflineUsageSyncEvent samplePlatform item .accepted [] none 1750000000000

/-- Two receipts for one label, and then the reply to the batch built after the first. -/
def lateReply : List LedgerStep :=
  let first := LedgerStep.record (sampleReceipt []) none
  [first, .build, .record (sampleReceipt [49]) none,
    .reconcile (acceptAll (buildPosOfflineUsageSyncItems samplePlatform
      (ledgerRun samplePlatform [first]))) none 1750000000000]

theorem lateReply_hides : ¬ NeverHidden (tillRun samplePlatform lateReply) := by
  unfold NeverHidden
  decide +kernel

end Agid.PosLedger
