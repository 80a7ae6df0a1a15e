import Agid.Proofs.ShipJobs

/-!
# Attempts of the shipping jobs

A job that waits has attempts left, as a failure that uses up the last one makes it a dead letter.
A job whose lease ran out is claimed again whatever its attempts, so a job is handed out too often
just when the lease of its last attempt runs out and a claim comes upon it.
-/

namespace Agid.VeygritShip

variable {P : Platform} {past : Past} {w w' : World} {e : Event} {k : JsString}

/-- The row of a job that was handed out `n` times since it was last brought back, or none. -/
def Counted (n : ℕ) : Option Job → Prop
  | none => n = 0
  | some j => j.attemptCount = n ∧ 0 < j.maxAttempts
    ∧ (j.status = .queued ∨ j.status = .retry → n < j.maxAttempts) ∧ j.status ≠ .cancelled

theorem Counted.step {old new : Option Job} (h : Counted (handedOut P k past) old)
    (hstep : JobStep P w e k old new) : Counted (handedOut P k ((w, e) :: past)) new := by
  unfold handedOut
  cases hstep with
  | kept unclaimed _ unreplayed => rwa [if_neg unclaimed, if_neg unreplayed]
  | inserted unclaimed _ unreplayed _ hnew =>
    rw [if_neg unclaimed, if_neg unreplayed, show handedOut P k past = 0 from h]
    exact ⟨hnew.attemptCount, hnew.maxAttempts, fun _ => hnew.maxAttempts, by simp [hnew.status]⟩
  | claimed here =>
    rw [if_pos here]
    exact ⟨congrArg (· + 1) h.1, h.2.1, by simp [claimed], by simp [claimed]⟩
  | missed unclaimed _ unreplayed => rwa [if_neg unclaimed, if_neg unreplayed]
  | completed unclaimed _ unreplayed =>
    rw [if_neg unclaimed, if_neg unreplayed]
    exact ⟨h.1, h.2.1, by simp [completed], by simp [completed]⟩
  | @failed j f now unclaimed _ unreplayed =>
    rw [if_neg unclaimed, if_neg unreplayed]
    refine ⟨h.1, h.2.1, fun hwaits => ?_, ?_⟩
    · simp only [failed] at hwaits ⊢
      by_cases hexh : exhausted f.retryable j = true
      · simp [hexh] at hwaits
      · simp only [exhausted, Bool.or_eq_true, decide_eq_true_eq, not_or, not_le] at hexh
        exact h.1 ▸ hexh.2
    · simp only [failed]
      split_ifs <;> simp
  | replayed unclaimed _ here =>
    rw [if_neg unclaimed, if_pos here]
    exact ⟨rfl, h.2.1, fun _ => h.2.1, by simp [replayed]⟩

/-- The attempts of a job count how often it was handed out. -/
theorem Run.counted (h : Run P past w) :
    ∀ k, Counted (handedOut P k past) (w.db.jobs.get? k) := by
  obtain ⟨merchants, connections, h⟩ := h
  induction h with
  | init => exact fun _ => rfl
  | step run taken ih =>
    exact fun k => (ih k).step (job_step (Run.normalRefs ⟨merchants, connections, run⟩).hands taken)

theorem usedUpEnds_of_run (h : Run P past w) (taken : next P w e = some w') :
    UsedUpEnds P past w e := by
  intro w'' k j htaken hj hused
  obtain rfl := Option.some.inj (taken.symm.trans htaken)
  have hcounted := (h.step taken).counted k
  rw [hj] at hcounted
  obtain ⟨-, -, hwaits, hcancelled⟩ := hcounted
  have hwaits : ¬ (j.status = .queued ∨ j.status = .retry) := fun h => by
    have := hwaits h
    omega
  cases hs : j.status <;> simp_all

/-- In every run, that each job is handed out at most `maxAttempts` times and then ends says that no
claim comes upon a job whose last attempt has outrun its lease. -/
theorem bounded_iff_attemptsLeft (h : Run P past w) :
    History.Every (Bounded P) past ↔ History.Every (AttemptsLeft P) past := by
  obtain ⟨merchants, connections, h⟩ := h
  refine h.every_iff fun {past w e w'} run taken => ?_
  have hrun : Run P past w := ⟨merchants, connections, run⟩
  rw [Bounded, and_iff_left (usedUpEnds_of_run hrun taken)]
  refine forall₂_congr fun k hk => forall₂_congr fun j hj => ?_
  have hcounted := hrun.counted k
  have hstep := job_step (k := k) hrun.normalRefs.hands taken
  rw [Option.mem_def.1 hj] at hcounted hstep
  obtain ⟨hcount, -, hwaits, -⟩ := hcounted
  rw [hcount]
  refine ⟨fun h _ => h, fun h => ?_⟩
  generalize w'.db.jobs.get? k = new at hstep
  cases hstep with
  | claimed _ due =>
    simp only [claimable, Bool.or_eq_true, Bool.and_eq_true, decide_eq_true_eq] at due
    rcases due with ⟨hstatus, -⟩ | ⟨hstatus, -⟩
    · exact hwaits hstatus
    · exact h hstatus
  | kept unclaimed => exact absurd hk unclaimed
  | missed unclaimed => exact absurd hk unclaimed
  | completed unclaimed => exact absurd hk unclaimed
  | failed unclaimed => exact absurd hk unclaimed
  | replayed unclaimed => exact absurd hk unclaimed

/-- Claims of one job, each a second after the lease of the one before. -/
def claimsOf : ℕ → ℤ → List Event
  | 0, _ => []
  | n + 1, s => claimAt "w" s :: claimsOf n (s + 61)

/-- The eighth worker to have the job completes it. -/
theorem bounded_iff_attemptsLeft_eighth :
    ∃ past w, Run shipPlatform past w ∧ past.length = 13
      ∧ (History.Every (Bounded shipPlatform) past
        ↔ History.Every (AttemptsLeft shipPlatform) past) := by
  have hplay : (shipRun (schedule :: claimsOf 8 0 ++ refresh 7 430)).map (fun v => v.1.length)
      = some 13 := by
    decide
  obtain ⟨v, hv, hlength⟩ := Option.map_eq_some_iff.1 hplay
  exact ⟨v.1, v.2, run_of_shipRun hv, hlength, bounded_iff_attemptsLeft (run_of_shipRun hv)⟩

/-- Eight workers let their leases run out, and a ninth claims the job. -/
theorem ninthClaim_not_bounded :
    ¬ ∀ P past w, Run P past w → History.Every (Bounded P) past := by
  intro h
  have hplay : (shipRun (schedule :: claimsOf 9 0)).map
      (fun v => decide (History.Every (AtMostMax shipPlatform) v.1)) = some false := by
    decide
  obtain ⟨v, hv, hbounded⟩ := Option.map_eq_some_iff.1 hplay
  exact of_decide_eq_false hbounded ((h _ _ _ (run_of_shipRun hv)).mono fun _ _ _ h => h.1)

end Agid.VeygritShip
