import Agid.Proofs.ShipJobs

/-!
# Leases of the shipping workers

A `completeJob` or a `failJob` ends the job that runs, whoever's it is.  So a worker whose lease
was taken over leaves a job alone just when the job has been ended since its last claim.
-/

namespace Agid.VeygritShip

variable {P : Platform} {past : Past} {w w' : World} {e : Event} {k : JsString}

/-- A job runs from a claim to the next statement that ends it. -/
theorem Run.inHand_eq (h : Run P past w) :
    ∀ k, inHand P k past = (w.db.jobs.get? k).any isRunning := by
  obtain ⟨merchants, connections, h⟩ := h
  induction h with
  | init => exact fun _ => rfl
  | @step past w w' e run taken ih =>
    intro k
    have hstep := job_step (k := k) (Run.normalRefs ⟨merchants, connections, run⟩).hands taken
    have hk := ih k
    unfold inHand
    generalize w.db.jobs.get? k = old at hk hstep
    generalize w'.db.jobs.get? k = new at hstep
    cases hstep with
    | kept unclaimed unsettled => rw [if_neg unclaimed, if_neg unsettled, hk]
    | inserted unclaimed unsettled _ _ hnew =>
      rw [if_neg unclaimed, if_neg unsettled, hk]
      simp [isRunning, hnew.status]
    | claimed here => simp [if_pos here, isRunning, claimed]
    | missed unclaimed here _ ended =>
      rw [if_neg unclaimed, if_pos here]
      cases old with
      | none => rfl
      | some j => exact (ended j rfl).symm
    | completed unclaimed here => simp [if_neg unclaimed, if_pos here, isRunning, completed]
    | @failed j f now unclaimed here =>
      simp only [if_neg unclaimed, if_pos here, Option.any_some, isRunning, failed]
      split_ifs <;> rfl
    | replayed unclaimed unsettled _ dead =>
      rw [if_neg unclaimed, if_neg unsettled, hk]
      simp [isRunning, replayed, dead]

theorem jobRecord_of_keeps {db db' : Database} (h : KeepsJobs db db') (k : JsString) :
    jobRecord db' k = jobRecord db k := by
  rw [jobRecord, h.jobs, h.audit, jobRecord]

/-- In every run, that workers whose leases were taken over leave their jobs alone says that each job
they come to end has been ended since its last claim. -/
theorem fenced_iff_endedBefore (h : Run P past w) :
    History.Every (Fenced P) past ↔ History.Every (EndedBefore P) past := by
  obtain ⟨merchants, connections, h⟩ := h
  refine h.every_iff fun {past w e w'} run taken => ?_
  have hrun : Run P past w := ⟨merchants, connections, run⟩
  cases e with
  | call => exact Iff.rfl
  | claim => exact Iff.rfl
  | work i env =>
    refine forall₂_congr fun hand hhand => forall_congr' fun _ => ?_
    simp only [Option.mem_def, taken, Option.some.injEq, forall_eq', hrun.inHand_eq]
    rcases work_cases hrun.normalRefs.hands taken with
      ⟨hkeeps, hended⟩ | ⟨k, j, j', hs, hj, hrunning, hjobs, hj'⟩
    · refine iff_of_true (jobRecord_of_keeps hkeeps _) fun hs => ?_
      have := hended _ hs
      cases hold : w.db.jobs.get? hand.job.jobRef with
      | none => rfl
      | some j => exact this j hold
    · obtain rfl := settledRef_hand hhand hs
      refine iff_of_false (fun hrecord => ?_) fun hended => ?_
      · have hrow := congrArg Prod.fst hrecord
        simp only [jobRecord, hjobs, Record.get?_set_self, hj, Option.some.injEq] at hrow
        rw [← hrow] at hrunning
        rcases hj' with rfl | ⟨f, rfl⟩
        · cases hrunning
        · simp only [isRunning, failed] at hrunning
          split_ifs at hrunning <;> cases hrunning
      · have := hended hs
        rw [hj, Option.any_some, hrunning] at this
        cases this

/-- The second worker is done before the first comes back: its `completeJob` and its `failJob` find
no running job. -/
theorem fenced_iff_endedBefore_handedOver :
    ∃ past w, Run shipPlatform past w ∧ past.length = 12
      ∧ (History.Every (Fenced shipPlatform) past
        ↔ History.Every (EndedBefore shipPlatform) past) := by
  have hplay : (shipRun ([schedule, claimAt "w1" 0, claimAt "w2" 61] ++ refresh 1 62
      ++ refresh 0 63 ++ [.work 0 (tokenAt 63)])).map (fun v => v.1.length) = some 12 := by
    decide
  obtain ⟨v, hv, hlength⟩ := Option.map_eq_some_iff.1 hplay
  exact ⟨v.1, v.2, run_of_shipRun hv, hlength, fenced_iff_endedBefore (run_of_shipRun hv)⟩

/-- The first worker completes the job while the second has it. -/
theorem lateComplete_not_fenced :
    ¬ ∀ P past w, Run P past w → History.Every (Fenced P) past := by
  intro h
  have hplay : (shipRun ([schedule, claimAt "w1" 0, claimAt "w2" 61] ++ refresh 0 62)).map
      (fun v => decide (History.Every (Fenced shipPlatform) v.1)) = some false := by
    decide
  obtain ⟨v, hv, hfenced⟩ := Option.map_eq_some_iff.1 hplay
  exact of_decide_eq_false hfenced (h _ _ _ (run_of_shipRun hv))

end Agid.VeygritShip
